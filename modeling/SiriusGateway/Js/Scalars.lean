import SiriusGateway.Js.Parse
import Mathlib.Algebra.Order.Ring.Rat
import Mathlib.Data.Nat.Prime.Basic
import Mathlib.Tactic.FieldSimp
import Mathlib.Tactic.Ring

/-!
# `Js.Scalars` — printed strings and numbers are read back

The scanner of `JSON.parse` on what `JSON.stringify` prints for a string and for a number. A string is read
back whatever it holds (`scanString_quote`); a number when it is a `Decimal`, which is what a JSON literal
denotes, and when nothing follows that would continue it (`scanNumber_numToString`).
-/

namespace Js

/-! ## Strings -/

/-- A control character, written as `\u00XY`. -/
theorem scanUnicode_control : ∀ n < 32, ∀ rest : List Char,
    scanUnicode ('0' :: '0' :: Nat.digitChar (n / 16) :: Nat.digitChar (n % 16) :: rest) =
      some (Char.ofNat n, rest) := by
  intro n hn rest
  have hunit : ∀ n < 32, scanUnit ['0', '0', Nat.digitChar (n / 16), Nat.digitChar (n % 16)] =
      some (n, []) := by decide
  have hrest : scanUnit ('0' :: '0' :: Nat.digitChar (n / 16) :: Nat.digitChar (n % 16) :: rest) =
      some (n, rest) := by
    have h := hunit n hn
    unfold scanUnit at h ⊢
    simp only [Option.bind_eq_bind, Option.bind_eq_some_iff] at h ⊢
    obtain ⟨a, ha, b, hb, c, hc, d, hd, hval⟩ := h
    refine ⟨a, ha, b, hb, c, hc, d, hd, ?_⟩
    simp only [Option.pure_def, Option.some.injEq, Prod.mk.injEq, and_true] at hval ⊢
    exact hval
  unfold scanUnicode
  rw [hrest]
  simp only [Option.bind_eq_bind, Option.bind_some]
  rw [if_neg (by omega), if_neg (by omega)]
  rfl

/-- **A character is read back from its quoted form**, which does not start with a quote. -/
theorem scanChar_quoteChar (c : Char) (rest : List Char) :
    scanChar (quoteChar c ++ rest) = some (c, rest) ∧ (quoteChar c ++ rest).head? ≠ some '"' := by
  unfold quoteChar
  split
  · rename_i h
    subst h
    exact ⟨rfl, by simp⟩
  split
  · rename_i h
    subst h
    exact ⟨rfl, by simp⟩
  split
  · rename_i h
    subst h
    exact ⟨rfl, by simp⟩
  split
  · rename_i h
    subst h
    exact ⟨rfl, by simp⟩
  split
  · rename_i h
    subst h
    exact ⟨rfl, by simp⟩
  split
  · rename_i h
    have hc : c = Char.ofNat 8 := by rw [← h, Char.ofNat_toNat]
    subst hc
    exact ⟨rfl, by simp⟩
  split
  · rename_i h
    have hc : c = Char.ofNat 12 := by rw [← h, Char.ofNat_toNat]
    subst hc
    exact ⟨rfl, by simp⟩
  split
  · rename_i h
    refine ⟨?_, by simp⟩
    have hscan := scanUnicode_control c.toNat h rest
    rw [Char.ofNat_toNat] at hscan
    exact hscan
  · rename_i hquote hback _ _ _ _ _ hcontrol
    refine ⟨?_, by simpa using hquote⟩
    simp only [List.cons_append, List.nil_append, scanChar]
    rw [if_neg hback, if_neg hcontrol]

theorem length_quoteChar_pos (c : Char) : 1 ≤ (quoteChar c).length := by
  unfold quoteChar
  repeat' split
  all_goals simp

/-- **A quoted string is read back**, when there is fuel for its characters. -/
theorem scanString_quoted (chars rest : List Char) (fuel : Nat) (hfuel : chars.length < fuel) :
    scanString fuel (chars.flatMap quoteChar ++ '"' :: rest) = some (chars, rest) := by
  induction chars generalizing fuel with
  | nil =>
      obtain ⟨fuel, rfl⟩ := Nat.exists_eq_succ_of_ne_zero (Nat.ne_of_gt hfuel)
      rfl
  | cons c chars ih =>
      obtain ⟨fuel, rfl⟩ := Nat.exists_eq_succ_of_ne_zero (Nat.ne_of_gt (Nat.zero_lt_of_lt hfuel))
      obtain ⟨hscan, hhead⟩ := scanChar_quoteChar c (chars.flatMap quoteChar ++ '"' :: rest)
      rw [List.flatMap_cons, List.append_assoc]
      unfold scanString
      rw [if_neg hhead, hscan]
      simp only [Option.bind_eq_bind, Option.bind_some]
      rw [ih fuel (Nat.lt_of_succ_lt_succ hfuel)]
      rfl

theorem length_le_flatMap_quoteChar (chars : List Char) :
    chars.length ≤ (chars.flatMap quoteChar).length := by
  induction chars with
  | nil => exact Nat.le_refl 0
  | cons c chars ih =>
      have hpos := length_quoteChar_pos c
      rw [List.flatMap_cons, List.length_append, List.length_cons]
      omega

theorem toList_quote (s : String) : (quote s).toList = '"' :: (s.toList.flatMap quoteChar ++ ['"']) := by
  unfold quote
  simp [String.toList_append]

/-- **A quoted string is read back** by the scanner behind its opening quote. -/
theorem scanString_quote (s : String) (rest : List Char) (fuel : Nat)
    (hfuel : (quote s).toList.length ≤ fuel) :
    ∃ text, (quote s).toList ++ rest = '"' :: text ∧ scanString fuel text = some (s.toList, rest) := by
  have hlength := length_le_flatMap_quoteChar s.toList
  rw [toList_quote] at hfuel ⊢
  simp only [List.length_cons, List.length_append, List.length_nil] at hfuel
  refine ⟨s.toList.flatMap quoteChar ++ '"' :: rest, by simp, ?_⟩
  exact scanString_quoted s.toList rest fuel (by omega)

/-! ## Numbers -/

/-- A number with finitely many decimals: the numbers a JSON literal can denote. -/
def Decimal (q : Rat) : Prop := ∃ k, q.den ∣ 10 ^ k

/-- As many decimals as the denominator are enough. -/
theorem Decimal.dvd {q : Rat} (h : Decimal q) : q.den ∣ 10 ^ q.den := by
  obtain ⟨k, hk⟩ := h
  have hsplit : (10 : Nat) ^ k = 2 ^ k * 5 ^ k := by rw [← Nat.mul_pow]
  rw [hsplit, Nat.dvd_mul] at hk
  obtain ⟨y, z, hy, hz, hyz⟩ := hk
  obtain ⟨a, -, rfl⟩ := (Nat.dvd_prime_pow Nat.prime_two).mp hy
  obtain ⟨b, -, rfl⟩ := (Nat.dvd_prime_pow Nat.prime_five).mp hz
  have ha : a ≤ q.den := by
    have h2 : a < 2 ^ a := Nat.lt_two_pow_self
    have h5 : 1 ≤ 5 ^ b := Nat.one_le_pow _ _ (by decide)
    have hle : 2 ^ a * 1 ≤ 2 ^ a * 5 ^ b := Nat.mul_le_mul_left _ h5
    omega
  have hb : b ≤ q.den := by
    have h5 : b < 5 ^ b := Nat.lt_pow_self (by decide)
    have h2 : 1 ≤ 2 ^ a := Nat.one_le_pow _ _ (by decide)
    have hle : 1 * 5 ^ b ≤ 2 ^ a * 5 ^ b := Nat.mul_le_mul_right _ h2
    omega
  have hten : (10 : Nat) ^ q.den = 2 ^ q.den * 5 ^ q.den := by rw [← Nat.mul_pow]
  rw [hten, ← hyz]
  exact Nat.mul_dvd_mul (Nat.pow_dvd_pow 2 (hyz ▸ ha)) (Nat.pow_dvd_pow 5 (hyz ▸ hb))

theorem digitsValue_eq (ds : List Char) : digitsValue ds = Nat.ofDigitChars 10 ds 0 := rfl

theorem digitsValue_append (ds es : List Char) :
    digitsValue (ds ++ es) = digitsValue ds * 10 ^ es.length + digitsValue es := by
  rw [digitsValue_eq, digitsValue_eq, digitsValue_eq, Nat.ofDigitChars_append,
    Nat.ofDigitChars_eq_ofDigitChars_zero, Nat.mul_comm]

theorem digitsValue_toDigits (n : Nat) : digitsValue (Nat.toDigits 10 n) = n :=
  Nat.ofDigitChars_ten_toDigits

theorem digitsValue_digitChar {d : Nat} (hd : d < 10) : digitsValue [Nat.digitChar d] = d := by
  have h := digitsValue_toDigits d
  rwa [Nat.toDigits_of_lt_base hd] at h

theorem isDigit_digitChar {d : Nat} (hd : d < 10) : (Nat.digitChar d).isDigit = true := by
  apply Nat.isDigit_of_mem_toDigits (b := 10) (n := d) (by decide) (by decide)
  rw [Nat.toDigits_of_lt_base hd]
  exact List.mem_singleton.mpr rfl

/-- **The fractional digits denote the fraction**, when there is fuel for them all. -/
theorem fractionDigits_value {den : Nat} (fuel : Nat) :
    ∀ r k, r < den → den ∣ r * 10 ^ k → k ≤ fuel →
      digitsValue (fractionDigits den fuel r) * den = r * 10 ^ (fractionDigits den fuel r).length := by
  induction fuel with
  | zero =>
      intro r k hr hdvd hk
      obtain rfl : k = 0 := by omega
      rw [Nat.pow_zero, Nat.mul_one] at hdvd
      rw [Nat.eq_zero_of_dvd_of_lt hdvd hr]
      simp [fractionDigits, digitsValue]
  | succ fuel ih =>
      intro r k hr hdvd hk
      unfold fractionDigits
      split
      · rename_i hzero
        rw [hzero]
        simp [digitsValue]
      · rename_i hzero
        cases k with
        | zero =>
            rw [Nat.pow_zero, Nat.mul_one] at hdvd
            exact absurd (Nat.eq_zero_of_dvd_of_lt hdvd hr) hzero
        | succ k =>
            have hden : 0 < den := by omega
            have hdiv : den * (10 * r / den) + 10 * r % den = 10 * r := Nat.div_add_mod _ _
            have hdigit : 10 * r / den < 10 := by
              rw [Nat.div_lt_iff_lt_mul hden]
              omega
            have hrest : den ∣ 10 * r % den * 10 ^ k := by
              have htotal : den ∣ (10 * r) * 10 ^ k := by
                rw [show 10 * r * 10 ^ k = r * 10 ^ (k + 1) by ring]
                exact hdvd
              rw [← hdiv, Nat.add_mul] at htotal
              exact (Nat.dvd_add_right ⟨_, Nat.mul_assoc _ _ _⟩).mp htotal
            have hrec := ih (10 * r % den) k (Nat.mod_lt _ hden) hrest (by omega)
            rw [show ∀ d ds, d :: ds = [d] ++ ds from fun _ _ => rfl, digitsValue_append,
              digitsValue_digitChar hdigit, List.length_append, List.length_singleton]
            calc (10 * r / den * 10 ^ (fractionDigits den fuel (10 * r % den)).length
                    + digitsValue (fractionDigits den fuel (10 * r % den))) * den
                = den * (10 * r / den) * 10 ^ (fractionDigits den fuel (10 * r % den)).length
                    + digitsValue (fractionDigits den fuel (10 * r % den)) * den := by ring
              _ = (den * (10 * r / den) + 10 * r % den)
                    * 10 ^ (fractionDigits den fuel (10 * r % den)).length := by rw [hrec]; ring
              _ = r * 10 ^ (1 + (fractionDigits den fuel (10 * r % den)).length) := by rw [hdiv]; ring

theorem isDigit_of_mem_fractionDigits {den : Nat} (fuel : Nat) :
    ∀ r < den, ∀ c ∈ fractionDigits den fuel r, c.isDigit = true := by
  induction fuel with
  | zero =>
      intro r _ c hc
      exact absurd hc List.not_mem_nil
  | succ fuel ih =>
      intro r hr c hc
      unfold fractionDigits at hc
      split at hc
      · exact absurd hc List.not_mem_nil
      · have hden : 0 < den := by omega
        rcases List.mem_cons.mp hc with rfl | hc
        · apply isDigit_digitChar
          rw [Nat.div_lt_iff_lt_mul hden]
          omega
        · exact ih _ (Nat.mod_lt _ hden) c hc

/-- A number is printed without leading zeros. -/
theorem head_toDigits (n : Nat) (hn : 0 < n) : (Nat.toDigits 10 n).head? ≠ some '0' := by
  induction n using Nat.strongRecOn with
  | ind n ih =>
      by_cases hlt : n < 10
      · have hsmall : ∀ d < 10, 0 < d → [Nat.digitChar d].head? ≠ some '0' := by decide
        rw [Nat.toDigits_of_lt_base hlt]
        exact hsmall n hlt hn
      · have hle : 10 ≤ n := by omega
        rw [Nat.toDigits_of_base_le (by decide) hle, List.head?_append_of_ne_nil _ Nat.toDigits_ne_nil]
        exact ih (n / 10) (by omega) (by omega)

/-- What may follow a number: no digit, and nothing that would continue it. -/
def NumberEnd (rest : List Char) : Prop :=
  ∀ c ∈ rest.head?, c.isDigit = false ∧ c ≠ '.' ∧ c ≠ 'e' ∧ c ≠ 'E'

theorem takeWhile_digits {ds rest : List Char} (hds : ∀ c ∈ ds, c.isDigit = true)
    (hrest : ∀ c ∈ rest.head?, c.isDigit = false) :
    (ds ++ rest).takeWhile Char.isDigit = ds ∧ (ds ++ rest).dropWhile Char.isDigit = rest := by
  induction ds with
  | nil =>
      cases rest with
      | nil => exact ⟨rfl, rfl⟩
      | cons c rest =>
          have hc := hrest c rfl
          simp [hc]
  | cons d ds ih =>
      have hd := hds d List.mem_cons_self
      obtain ⟨htake, hdrop⟩ := ih fun c hc => hds c (List.mem_cons_of_mem d hc)
      simp [hd, htake, hdrop]

theorem scanExponent_none {rest : List Char} (h : NumberEnd rest) : scanExponent rest = some (0, rest) := by
  cases rest with
  | nil => rfl
  | cons c rest =>
      obtain ⟨-, -, he, hE⟩ := h c rfl
      simp [scanExponent, he, hE]

/-- The fraction `numToString` prints is scanned to its digits. -/
theorem scanFraction_digits {ds rest : List Char} (hds : ∀ c ∈ ds, c.isDigit = true)
    (hrest : NumberEnd rest) :
    scanFraction ((if ds = [] then [] else '.' :: ds) ++ rest) = some (ds, rest) := by
  split
  · rename_i hnil
    subst hnil
    cases rest with
    | nil => rfl
    | cons c rest =>
        obtain ⟨-, hdot, -⟩ := hrest c rfl
        simp [scanFraction, hdot]
  · rename_i hne
    obtain ⟨htake, hdrop⟩ := takeWhile_digits hds fun c hc => (hrest c hc).1
    simp [scanFraction, htake, hdrop, hne]

/-- The characters of a printed number. -/
theorem toList_numToString (q : Rat) :
    (numToString q).toList =
      (if q.num < 0 then ['-'] else []) ++ (Nat.toDigits 10 (q.num.natAbs / q.den) ++
        if fractionDigits q.den q.den (q.num.natAbs % q.den) = [] then []
        else '.' :: fractionDigits q.den q.den (q.num.natAbs % q.den)) := by
  unfold numToString
  by_cases hsign : q.num < 0 <;>
    by_cases hfraction : fractionDigits q.den q.den (q.num.natAbs % q.den) = [] <;>
    simp [hsign, hfraction, String.toList_append]

/-- **The value of the printed digits** of `n / den`. -/
theorem scale10_digits {n den : Nat} (hpos : 0 < den) (hdvd : den ∣ 10 ^ den) :
    scale10 (digitsValue (Nat.toDigits 10 (n / den) ++ fractionDigits den den (n % den)))
      (0 - (fractionDigits den den (n % den)).length) = (n : Rat) / den := by
  have hvalue := fractionDigits_value den (n % den) den (Nat.mod_lt _ hpos)
    (Nat.dvd_mul_left_of_dvd hdvd _) (Nat.le_refl _)
  rw [digitsValue_append, digitsValue_toDigits]
  generalize (fractionDigits den den (n % den)).length = len at hvalue ⊢
  generalize digitsValue (fractionDigits den den (n % den)) = frac at hvalue ⊢
  have htotal : (n / den * 10 ^ len + frac) * den = n * 10 ^ len := by
    calc (n / den * 10 ^ len + frac) * den
        = (den * (n / den)) * 10 ^ len + frac * den := by ring
      _ = (den * (n / den) + n % den) * 10 ^ len := by rw [hvalue]; ring
      _ = n * 10 ^ len := by rw [Nat.div_add_mod]
  have hden : (den : Rat) ≠ 0 := Nat.cast_ne_zero.mpr (Nat.ne_of_gt hpos)
  have hrat : ((n / den * 10 ^ len + frac : Nat) : Rat) * den = n * 10 ^ len := by
    exact_mod_cast htotal
  generalize n / den * 10 ^ len + frac = digits at hrat ⊢
  unfold scale10
  split
  · rename_i hzero
    obtain rfl : len = 0 := by omega
    rw [eq_div_iff hden]
    simpa using hrat
  · have hneg : (-(0 - (len : Int))).toNat = len := by omega
    have hten : ((10 ^ len : Nat) : Rat) ≠ 0 := Nat.cast_ne_zero.mpr (Nat.ne_of_gt (Nat.pow_pos (by decide)))
    rw [hneg, Rat.mkRat_eq_div, div_eq_div_iff hten hden]
    push_cast
    exact hrat

/-- `scanNumber` behind the sign. -/
def scanMagnitude (negative : Bool) (body : List Char) : Option (Rat × List Char) := do
  let whole := body.takeWhile Char.isDigit
  if whole = [] ∨ (whole.head? = some '0' ∧ whole.length ≠ 1) then none
  else
    let (fraction, rest) ← scanFraction (body.dropWhile Char.isDigit)
    let (e, tail) ← scanExponent rest
    let q := scale10 (digitsValue (whole ++ fraction)) (e - fraction.length)
    return (if negative then -q else q, tail)

theorem scanNumber_minus (body : List Char) : scanNumber ('-' :: body) = scanMagnitude true body := rfl

theorem scanNumber_plain {body : List Char} (h : body.head? ≠ some '-') :
    scanNumber body = scanMagnitude false body := by
  unfold scanNumber scanMagnitude
  simp only [h, Bool.false_eq_true, if_false]

/-- **A magnitude is read back** from its digits, when no digit, point or exponent follows them. -/
theorem scanMagnitude_digits {negative : Bool} {n den : Nat} (hpos : 0 < den) (hdvd : den ∣ 10 ^ den)
    {rest : List Char} (hrest : NumberEnd rest) :
    scanMagnitude negative (Nat.toDigits 10 (n / den) ++ ((if fractionDigits den den (n % den) = [] then []
        else '.' :: fractionDigits den den (n % den)) ++ rest)) =
      some (if negative then -((n : Rat) / den) else (n : Rat) / den, rest) := by
  have hfdigits := isDigit_of_mem_fractionDigits den (n % den) (Nat.mod_lt _ hpos)
  have hwdigits : ∀ c ∈ Nat.toDigits 10 (n / den), c.isDigit = true := fun c hc =>
    Nat.isDigit_of_mem_toDigits (by decide) (by decide) hc
  have hvalue := scale10_digits (n := n) hpos hdvd
  have hzeros : ¬(Nat.toDigits 10 (n / den) = [] ∨ ((Nat.toDigits 10 (n / den)).head? = some '0' ∧
      (Nat.toDigits 10 (n / den)).length ≠ 1)) := by
    rintro (hnil | ⟨hzero, hlength⟩)
    · exact Nat.toDigits_ne_nil hnil
    · rcases Nat.eq_zero_or_pos (n / den) with hn | hn
      · rw [hn] at hlength
        exact hlength rfl
      · exact head_toDigits _ hn hzero
  generalize fractionDigits den den (n % den) = fraction at *
  generalize Nat.toDigits 10 (n / den) = whole at *
  have hend : ∀ c ∈ ((if fraction = [] then [] else '.' :: fraction) ++ rest).head?, c.isDigit = false := by
    intro c hc
    split at hc
    · exact (hrest c hc).1
    · obtain rfl : '.' = c := by simpa using hc
      rfl
  obtain ⟨htake, hdrop⟩ := takeWhile_digits hwdigits hend
  unfold scanMagnitude
  rw [htake, hdrop, if_neg hzeros, scanFraction_digits hfdigits hrest]
  simp only [Option.bind_eq_bind, Option.bind_some]
  rw [scanExponent_none hrest]
  simp only [Option.bind_some]
  rw [hvalue]
  rfl

/-- **A number is read back**, when no digit, point or exponent follows it. -/
theorem scanNumber_numToString {q : Rat} (h : Decimal q) {rest : List Char} (hrest : NumberEnd rest) :
    scanNumber ((numToString q).toList ++ rest) = some (q, rest) := by
  have hread : ∀ negative, _ := fun negative =>
    @scanMagnitude_digits negative q.num.natAbs q.den q.den_pos h.dvd rest hrest
  have hq := Rat.num_div_den q
  rw [toList_numToString, List.append_assoc, List.append_assoc]
  split
  · rename_i hneg
    have habs : (q.num : Rat) = -(q.num.natAbs : Rat) := by
      have hint : q.num = -(q.num.natAbs : Int) := by omega
      rw [hint]
      simp
    rw [List.cons_append, List.nil_append, scanNumber_minus, hread true, if_pos rfl, ← neg_div, ← habs, hq]
  · rename_i hneg
    have habs : (q.num : Rat) = (q.num.natAbs : Rat) := by
      have hint : q.num = (q.num.natAbs : Int) := by omega
      rw [hint]
      simp
    rw [List.nil_append, scanNumber_plain, hread false, if_neg Bool.false_ne_true, ← habs, hq]
    rw [List.head?_append_of_ne_nil _ Nat.toDigits_ne_nil]
    intro hminus
    have hdigit := Nat.isDigit_of_mem_toDigits (b := 10) (by decide) (by decide)
      (List.mem_of_mem_head? hminus)
    exact absurd hdigit (by decide)

end Js
