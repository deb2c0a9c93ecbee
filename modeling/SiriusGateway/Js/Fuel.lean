import SiriusGateway.Js.Scalars

/-!
# `Js.Fuel` — how much fuel a scanner needs

The scanners of `JSON.parse` recurse on fuel. What a scanner reaches it reaches with as much fuel as it consumes
of the text, so that a text is read the same way whatever stands behind it.

## Contents
- **Steps.** Each scanner cut into what it does before and behind a call.
- **Reaching.** `Reaches`, with a rule for a scanner that needs no fuel and one for a call.
- **Scalars** consume what they return.
- **Values.** `ScansWithin`, for values, items and members, by induction on the fuel.
-/

namespace Js

/-! ## Steps -/

/-! ### Strings -/

/-- The four digits of a unit, and what they are worth. -/
theorem scanUnit_eq_some_iff {s rest : List Char} {n : Nat} :
    scanUnit s = some (n, rest) ↔ ∃ a b c d x y z t, s = a :: b :: c :: d :: rest ∧ hexDigit a = some x ∧
      hexDigit b = some y ∧ hexDigit c = some z ∧ hexDigit d = some t ∧
      n = x * 4096 + y * 256 + z * 16 + t := by
  constructor
  · intro h
    unfold scanUnit at h
    split at h
    · rename_i a b c d more
      simp only [Option.bind_eq_bind, Option.bind_eq_some_iff] at h
      obtain ⟨x, hx, y, hy, z, hz, t, ht, hval⟩ := h
      obtain ⟨rfl, rfl⟩ := Prod.mk.inj (Option.some.inj hval)
      exact ⟨a, b, c, d, x, y, z, t, rfl, hx, hy, hz, ht, rfl⟩
    · cases h
  · rintro ⟨a, b, c, d, x, y, z, t, rfl, hx, hy, hz, ht, rfl⟩
    simp only [scanUnit, hx, hy, hz, ht]
    rfl

/-- The low half of a surrogate pair, when the text behind the high one has it. -/
def scanLow (hi : Nat) (rest : List Char) : Option (Char × List Char) :=
  match rest with
  | '\\' :: 'u' :: more => do
      let (lo, tail) ← scanUnit more
      if 0xDC00 ≤ lo ∧ lo ≤ 0xDFFF then
        return (Char.ofNat (0x10000 + (hi - 0xD800) * 0x400 + (lo - 0xDC00)), tail)
      else return (Char.ofNat 0xFFFD, rest)
  | _ => return (Char.ofNat 0xFFFD, rest)

/-- An escape behind a high surrogate is its low half, or is left to be read again. -/
theorem scanLow_low (hi : Nat) (more : List Char) :
    scanLow hi ('\\' :: 'u' :: more) = (scanUnit more).bind fun unit =>
      if 0xDC00 ≤ unit.1 ∧ unit.1 ≤ 0xDFFF then
        some (Char.ofNat (0x10000 + (hi - 0xD800) * 0x400 + (unit.1 - 0xDC00)), unit.2)
      else some (Char.ofNat 0xFFFD, '\\' :: 'u' :: more) := by
  rfl

/-- Without one behind it, the high surrogate is lone. -/
theorem scanLow_other {hi : Nat} {s : List Char} (h : ∀ more, s ≠ '\\' :: 'u' :: more) :
    scanLow hi s = some (Char.ofNat 0xFFFD, s) := by
  unfold scanLow
  split
  · exact absurd rfl (h _)
  · rfl

/-- A `\u` escape by the range of its unit: high surrogate, low surrogate, plain. -/
theorem scanUnicode_eq (s : List Char) :
    scanUnicode s = (scanUnit s).bind fun unit =>
      if 0xD800 ≤ unit.1 ∧ unit.1 ≤ 0xDBFF then scanLow unit.1 unit.2
      else if 0xDC00 ≤ unit.1 ∧ unit.1 ≤ 0xDFFF then some (Char.ofNat 0xFFFD, unit.2)
      else some (Char.ofNat unit.1, unit.2) := by
  rfl

/-- The character of an escape, behind its backslash. -/
def scanEscape : List Char → Option (Char × List Char)
  | [] => none
  | e :: more => if e = 'u' then scanUnicode more else (simpleEscape e).map fun ch => (ch, more)

theorem scanChar_cons (c : Char) (rest : List Char) :
    scanChar (c :: rest) =
      if c = '\\' then scanEscape rest else if c.toNat < 0x20 then none else some (c, rest) := by
  cases rest <;> rfl

/-- One turn of the string scanner: the closing quote, or one character and the rest. -/
theorem scanString_succ (fuel : Nat) (s : List Char) :
    scanString (fuel + 1) s = if s.head? = some '"' then some ([], s.tail) else
      (scanChar s).bind fun p => (scanString fuel p.2).map fun q => (p.1 :: q.1, q.2) := by
  rw [scanString]
  split
  · rfl
  · cases scanChar s with
    | none => rfl
    | some p => cases hq : scanString fuel p.2 <;> simp [hq]

/-! ### Numbers -/

/-- The sign of an exponent, and the text behind it. -/
def exponentSign : List Char → Bool × List Char
  | '+' :: r => (false, r)
  | '-' :: r => (true, r)
  | r => (false, r)

/-- The digits of an exponent behind its sign. -/
def scanExponentDigits (p : Bool × List Char) : Option (Int × List Char) :=
  let ds := p.2.takeWhile Char.isDigit
  if ds = [] then none
  else
    let n : Int := digitsValue ds
    some (if p.1 then -n else n, p.2.dropWhile Char.isDigit)

theorem scanExponent_cons (c : Char) (rest : List Char) :
    scanExponent (c :: rest) =
      if c = 'e' ∨ c = 'E' then scanExponentDigits (exponentSign rest) else some (0, c :: rest) := by
  rfl

/-! ### Values -/

/-- What stands behind an element. -/
def itemsBehind (fuel : Nat) (v : Json) (rest : List Char) : Option (List Json × List Char) :=
  if (skipWs rest).head? = some ',' then
    (scanItems fuel (skipWs rest).tail).map fun p => (v :: p.1, p.2)
  else if (skipWs rest).head? = some ']' then some ([v], (skipWs rest).tail)
  else none

/-- One turn of the array scanner: a value, then what stands behind it. -/
theorem scanItems_succ (fuel : Nat) (s : List Char) :
    scanItems (fuel + 1) s = (scanValue fuel s).bind fun p => itemsBehind fuel p.1 p.2 := by
  rfl

/-- What stands behind a member. -/
def fieldsBehind (fuel : Nat) (fields : List (String × Json)) (rest : List Char) :
    Option (List (String × Json) × List Char) :=
  if (skipWs rest).head? = some ',' then scanFields fuel fields (skipWs rest).tail
  else if (skipWs rest).head? = some '\x7d' then some (fields, (skipWs rest).tail)
  else none

/-- What stands behind the key of a member. -/
def valueBehind (fuel : Nat) (fields : List (String × Json)) (key : String) (rest : List Char) :
    Option (List (String × Json) × List Char) :=
  if (skipWs rest).head? ≠ some ':' then none
  else (scanValue fuel (skipWs rest).tail).bind fun p => fieldsBehind fuel (putField key p.1 fields) p.2

/-- One turn of the object scanner: a quoted key, a colon, then the value behind it. -/
theorem scanFields_succ (fuel : Nat) (fields : List (String × Json)) (s : List Char) :
    scanFields (fuel + 1) fields s = if (skipWs s).head? ≠ some '"' then none else
      (scanString fuel (skipWs s).tail).bind fun p => valueBehind fuel fields (String.ofList p.1) p.2 := by
  rfl

/-! ## Reaching -/

section Reaching

variable {α β : Type} {s t : List Char} {p : α × List Char}

/-- A scanner that gets to `p` consumes something, and gets there whenever it has as much fuel as it consumes. -/
structure Reaches (scan : Nat → Option (α × List Char)) (s : List Char) (p : α × List Char) : Prop where
  consumes : p.2.length < s.length
  fuel : ∀ m, s.length ≤ m + p.2.length → scan m = some p

/-- A scanner that needs no fuel but for itself. -/
theorem Reaches.leaf {scan : Nat → Option (α × List Char)} (hlen : p.2.length < s.length)
    (h : ∀ m, scan (m + 1) = some p) : Reaches scan s p := by
  refine ⟨hlen, fun m hm => ?_⟩
  obtain ⟨k, rfl⟩ : ∃ k, m = k + 1 := Nat.exists_eq_succ_of_ne_zero (by omega)
  exact h k

/-- A scanner that leaves the rest of its text to another one, with less fuel. -/
theorem Reaches.call {scan : Nat → Option (α × List Char)} {inner : Nat → Option (β × List Char)}
    {q : β × List Char} (hinner : Reaches inner t q) (ht : t.length < s.length) (hrest : p.2 = q.2)
    (h : ∀ m, inner m = some q → scan (m + 1) = some p) : Reaches scan s p := by
  have hlen := hinner.consumes
  rw [← hrest] at hlen
  refine ⟨by omega, fun m hm => ?_⟩
  obtain ⟨k, rfl⟩ : ∃ k, m = k + 1 := Nat.exists_eq_succ_of_ne_zero (by omega)
  exact h k (hinner.fuel k (by rw [← hrest]; omega))

/-- Skipping white space never lengthens the text. -/
theorem length_skipWs_le (s : List Char) : (skipWs s).length ≤ s.length :=
  (List.dropWhile_sublist _).length_le

/-- Taking the first character behind white space shortens the text. -/
theorem length_tail_skipWs {c : Char} (h : (skipWs s).head? = some c) : (skipWs s).tail.length < s.length := by
  have hle := length_skipWs_le s
  obtain ⟨rest, hrest⟩ := List.head?_eq_some_iff.mp h
  rw [hrest] at hle ⊢
  exact hle

/-! ## Scalars -/

/-- Reading a unit consumes input. -/
theorem length_scanUnit {q : Nat × List Char} (h : scanUnit s = some q) : q.2.length < s.length := by
  obtain ⟨a, b, c, d, -, -, -, -, rfl, -⟩ := scanUnit_eq_some_iff.mp h
  simp only [List.length_cons]
  omega

theorem length_scanLow {hi : Nat} {q : Char × List Char} (h : scanLow hi s = some q) :
    q.2.length ≤ s.length := by
  by_cases hlow : ∃ more, s = '\\' :: 'u' :: more
  · obtain ⟨more, rfl⟩ := hlow
    rw [scanLow_low, Option.bind_eq_some_iff] at h
    obtain ⟨unit, hunit, h⟩ := h
    have hlen := length_scanUnit hunit
    split at h
    · obtain rfl := Option.some.inj h
      simp only [List.length_cons]
      omega
    · obtain rfl := Option.some.inj h
      exact Nat.le_refl _
  · rw [scanLow_other fun more hs => hlow ⟨more, hs⟩] at h
    obtain rfl := Option.some.inj h
    exact Nat.le_refl _

theorem length_scanUnicode {q : Char × List Char} (h : scanUnicode s = some q) : q.2.length < s.length := by
  rw [scanUnicode_eq, Option.bind_eq_some_iff] at h
  obtain ⟨unit, hunit, h⟩ := h
  have hlen := length_scanUnit hunit
  split at h
  · exact Nat.lt_of_le_of_lt (length_scanLow h) hlen
  · split at h
    · obtain rfl := Option.some.inj h
      exact hlen
    · obtain rfl := Option.some.inj h
      exact hlen

/-- Reading one character of a string consumes input. -/
theorem length_scanChar {q : Char × List Char} (h : scanChar s = some q) : q.2.length < s.length := by
  cases s with
  | nil => cases h
  | cons c rest =>
      rw [scanChar_cons] at h
      rw [List.length_cons]
      split at h
      · cases rest with
        | nil => cases h
        | cons e more =>
            have hescape : (if e = 'u' then scanUnicode more
                else (simpleEscape e).map fun ch => (ch, more)) = some q := h
            rw [List.length_cons]
            split at hescape
            · have hlen := length_scanUnicode hescape
              omega
            · obtain ⟨ch, -, rfl⟩ := Option.map_eq_some_iff.mp hescape
              simp only
              omega
      · split at h
        · cases h
        · obtain rfl := Option.some.inj h
          exact Nat.lt_succ_self _

/-- A string that is read is reached: it needs no more fuel than it consumes. -/
theorem reaches_scanString {fuel : Nat} {q : List Char × List Char} (h : scanString fuel s = some q) :
    Reaches (scanString · s) s q := by
  induction fuel generalizing s q with
  | zero => cases h
  | succ fuel ih =>
      rw [scanString_succ] at h
      split at h
      · rename_i hquote
        obtain rfl := Option.some.inj h
        obtain ⟨rest, rfl⟩ := List.head?_eq_some_iff.mp hquote
        refine .leaf (Nat.lt_succ_self _) fun m => ?_
        rw [scanString_succ, if_pos hquote]
      · rename_i hquote
        obtain ⟨c, hc, hrest⟩ := Option.bind_eq_some_iff.mp h
        obtain ⟨more, hmore, rfl⟩ := Option.map_eq_some_iff.mp hrest
        refine .call (ih hmore) (length_scanChar hc) rfl fun m hm => ?_
        rw [scanString_succ, if_neg hquote, hc]
        show (scanString m c.2).map _ = _
        rw [hm]
        rfl

theorem length_dropWhile_digits (s : List Char) : (s.dropWhile Char.isDigit).length ≤ s.length :=
  (List.dropWhile_sublist _).length_le

/-- An optional fraction never lengthens the text. -/
theorem length_scanFraction {q : List Char × List Char} (h : scanFraction s = some q) :
    q.2.length ≤ s.length := by
  cases s with
  | nil =>
      obtain rfl := Option.some.inj h
      exact Nat.le_refl _
  | cons c rest =>
      rw [scanFraction] at h
      split at h
      · dsimp only at h
        split at h
        · cases h
        · obtain rfl := Option.some.inj h
          exact Nat.le_succ_of_le (length_dropWhile_digits rest)
      · obtain rfl := Option.some.inj h
        exact Nat.le_refl _

theorem length_exponentSign (s : List Char) : (exponentSign s).2.length ≤ s.length := by
  unfold exponentSign
  split
  · exact Nat.le_succ _
  · exact Nat.le_succ _
  · exact Nat.le_refl _

/-- An optional exponent never lengthens the text. -/
theorem length_scanExponent {q : Int × List Char} (h : scanExponent s = some q) : q.2.length ≤ s.length := by
  cases s with
  | nil =>
      obtain rfl := Option.some.inj h
      exact Nat.le_refl _
  | cons c rest =>
      rw [scanExponent_cons] at h
      split at h
      · unfold scanExponentDigits at h
        dsimp only at h
        split at h
        · cases h
        · obtain rfl := Option.some.inj h
          exact Nat.le_succ_of_le ((length_dropWhile_digits _).trans (length_exponentSign rest))
      · obtain rfl := Option.some.inj h
        exact Nat.le_refl _

/-- A magnitude has at least one digit, so reading it consumes input. -/
theorem length_scanMagnitude {negative : Bool} {q : Rat × List Char} (h : scanMagnitude negative s = some q) :
    q.2.length < s.length := by
  unfold scanMagnitude at h
  dsimp only at h
  split at h
  · cases h
  · rename_i hwhole
    obtain ⟨fraction, hfraction, h⟩ := Option.bind_eq_some_iff.mp h
    obtain ⟨e, he, h⟩ := Option.bind_eq_some_iff.mp h
    obtain rfl := Option.some.inj h
    have hdigits : 0 < (s.takeWhile Char.isDigit).length := by
      apply List.length_pos_iff.mpr
      exact fun hnil => hwhole (Or.inl hnil)
    have hsplit : (s.takeWhile Char.isDigit).length + (s.dropWhile Char.isDigit).length = s.length := by
      rw [← List.length_append, List.takeWhile_append_dropWhile]
    have hlen : e.2.length ≤ (s.dropWhile Char.isDigit).length :=
      (length_scanExponent he).trans (length_scanFraction hfraction)
    show e.2.length < s.length
    omega

/-- Reading a number consumes input. -/
theorem length_scanNumber {q : Rat × List Char} (h : scanNumber s = some q) : q.2.length < s.length := by
  by_cases hminus : s.head? = some '-'
  · obtain ⟨body, rfl⟩ := List.head?_eq_some_iff.mp hminus
    rw [scanNumber_minus] at h
    exact Nat.lt_succ_of_lt (length_scanMagnitude h)
  · rw [scanNumber_plain hminus] at h
    exact length_scanMagnitude h

/-! ## Values -/

/-- **A value** needs no fuel but for itself, or is what another scanner makes of the text behind its first
    character. -/
theorem scanValue_shape (s : List Char) :
    (∃ o, (∀ m, scanValue (m + 1) s = o) ∧ ∀ q, o = some q → q.2.length < s.length) ∨
      (skipWs s).tail.length < s.length ∧
        ((∀ m, scanValue (m + 1) s = (scanString m (skipWs s).tail).map fun p => (.str (String.ofList p.1), p.2)) ∨
          (∀ m, scanValue (m + 1) s = (scanItems m (skipWs s).tail).map fun p => (.arr p.1, p.2)) ∨
            ∀ m, scanValue (m + 1) s = (scanFields m [] (skipWs s).tail).map fun p => (.obj p.1, p.2)) := by
  have hskip := length_skipWs_le s
  have hword : ∀ {k : Nat} {word : List Char} {v : Json} {q : Json × List Char}, (skipWs s).take k = word →
      0 < word.length → 0 < k → some (v, (skipWs s).drop k) = some q → q.2.length < s.length := by
    rintro k word v q rfl hword hk hq
    obtain rfl := Option.some.inj hq
    rw [List.length_take] at hword
    rw [List.length_drop]
    omega
  have hempty : ∀ {c d : Char} {v : Json} {q : Json × List Char}, (skipWs s).head? = some c →
      (skipWs (skipWs s).tail).head? = some d → some (v, (skipWs (skipWs s).tail).tail) = some q →
        q.2.length < s.length := by
    intro c d v q hopen hclose hq
    obtain rfl := Option.some.inj hq
    exact (length_tail_skipWs hclose).trans (length_tail_skipWs hopen)
  have hstep := scanValue.eq_2 s
  dsimp only at hstep
  by_cases hnull : (skipWs s).take 4 = "null".toList
  · simp only [if_pos hnull] at hstep
    exact Or.inl ⟨_, hstep, fun q => hword hnull (by decide) (by decide)⟩
  simp only [if_neg hnull] at hstep
  by_cases htrue : (skipWs s).take 4 = "true".toList
  · simp only [if_pos htrue] at hstep
    exact Or.inl ⟨_, hstep, fun q => hword htrue (by decide) (by decide)⟩
  simp only [if_neg htrue] at hstep
  by_cases hfalse : (skipWs s).take 5 = "false".toList
  · simp only [if_pos hfalse] at hstep
    exact Or.inl ⟨_, hstep, fun q => hword hfalse (by decide) (by decide)⟩
  simp only [if_neg hfalse] at hstep
  by_cases hquote : (skipWs s).head? = some '"'
  · simp only [if_pos hquote] at hstep
    exact Or.inr ⟨length_tail_skipWs hquote, Or.inl hstep⟩
  simp only [if_neg hquote] at hstep
  by_cases hopen : (skipWs s).head? = some '['
  · simp only [if_pos hopen] at hstep
    by_cases hclose : (skipWs (skipWs s).tail).head? = some ']'
    · simp only [if_pos hclose] at hstep
      exact Or.inl ⟨_, hstep, fun q => hempty hopen hclose⟩
    · simp only [if_neg hclose] at hstep
      exact Or.inr ⟨length_tail_skipWs hopen, Or.inr (Or.inl hstep)⟩
  simp only [if_neg hopen] at hstep
  by_cases hbrace : (skipWs s).head? = some '\x7b'
  · simp only [if_pos hbrace] at hstep
    by_cases hclose : (skipWs (skipWs s).tail).head? = some '\x7d'
    · simp only [if_pos hclose] at hstep
      exact Or.inl ⟨_, hstep, fun q => hempty hbrace hclose⟩
    · simp only [if_neg hclose] at hstep
      exact Or.inr ⟨length_tail_skipWs hbrace, Or.inr (Or.inr hstep)⟩
  · simp only [if_neg hbrace] at hstep
    refine Or.inl ⟨_, hstep, fun q hq => ?_⟩
    obtain ⟨number, hnumber, rfl⟩ := Option.map_eq_some_iff.mp hq
    exact Nat.lt_of_lt_of_le (length_scanNumber hnumber) hskip

/-- What these scanners reach with this much fuel, they reach with as much as they consume. -/
structure ScansWithin (fuel : Nat) : Prop where
  value : ∀ {s q}, scanValue fuel s = some q → Reaches (scanValue · s) s q
  items : ∀ {s q}, scanItems fuel s = some q → Reaches (scanItems · s) s q
  fields : ∀ {fields s q}, scanFields fuel fields s = some q → Reaches (scanFields · fields s) s q

namespace ScansWithin

variable {fuel : Nat} (h : ScansWithin fuel)
include h

/-- A value read with one more fuel is reached. -/
theorem value_succ {q : Json × List Char} (hscan : scanValue (fuel + 1) s = some q) :
    Reaches (scanValue · s) s q := by
  rcases scanValue_shape s with ⟨o, hscalar, hlen⟩ | ⟨hbehind, hstring | hitems | hfields⟩
  · rw [hscalar] at hscan
    exact .leaf (hlen q hscan) fun m => (hscalar m).trans hscan
  · rw [hstring] at hscan
    obtain ⟨text, htext, rfl⟩ := Option.map_eq_some_iff.mp hscan
    refine .call (reaches_scanString htext) hbehind rfl fun m hm => ?_
    rw [hstring, hm]
    rfl
  · rw [hitems] at hscan
    obtain ⟨items, hmore, rfl⟩ := Option.map_eq_some_iff.mp hscan
    refine .call (h.items hmore) hbehind rfl fun m hm => ?_
    rw [hitems, hm]
    rfl
  · rw [hfields] at hscan
    obtain ⟨fields, hmore, rfl⟩ := Option.map_eq_some_iff.mp hscan
    refine .call (h.fields hmore) hbehind rfl fun m hm => ?_
    rw [hfields, hm]
    rfl

/-- So are the elements of an array. -/
theorem items_succ {q : List Json × List Char} (hscan : scanItems (fuel + 1) s = some q) :
    Reaches (scanItems · s) s q := by
  rw [scanItems_succ, Option.bind_eq_some_iff] at hscan
  obtain ⟨v, hv, hrest⟩ := hscan
  have hvalue := h.value hv
  have hconsumes := hvalue.consumes
  unfold itemsBehind at hrest
  split at hrest
  · rename_i hcomma
    obtain ⟨more, hmore, rfl⟩ := Option.map_eq_some_iff.mp hrest
    have hitems := h.items hmore
    have htail := length_tail_skipWs hcomma
    have hlen := hitems.consumes
    -- the fuel is split between the element and the others
    refine ⟨by dsimp only; omega, fun m hm => ?_⟩
    dsimp only at hm
    obtain ⟨k, rfl⟩ : ∃ k, m = k + 1 := Nat.exists_eq_succ_of_ne_zero (by omega)
    rw [scanItems_succ, hvalue.fuel k (by omega), Option.bind_some]
    unfold itemsBehind
    rw [if_pos hcomma, hitems.fuel k (by omega)]
    rfl
  · rename_i hcomma
    split at hrest
    · rename_i hclose
      obtain rfl := Option.some.inj hrest
      have htail := length_tail_skipWs hclose
      refine ⟨by dsimp only; omega, fun m hm => ?_⟩
      dsimp only at hm
      obtain ⟨k, rfl⟩ : ∃ k, m = k + 1 := Nat.exists_eq_succ_of_ne_zero (by omega)
      rw [scanItems_succ, hvalue.fuel k (by omega), Option.bind_some]
      unfold itemsBehind
      rw [if_neg hcomma, if_pos hclose]
    · cases hrest

/-- Behind a member: the rest of the object, with less fuel, or its closing brace. -/
theorem fieldsBehind {fields : List (String × Json)} {q : List (String × Json) × List Char}
    (hscan : fieldsBehind fuel fields s = some q) : Reaches (fieldsBehind · fields s) s q := by
  unfold Js.fieldsBehind at hscan
  split at hscan
  · rename_i hcomma
    have hmore := h.fields hscan
    have htail := length_tail_skipWs hcomma
    have hlen := hmore.consumes
    refine ⟨by omega, fun m hm => ?_⟩
    unfold Js.fieldsBehind
    rw [if_pos hcomma]
    exact hmore.fuel m (by omega)
  · rename_i hcomma
    split at hscan
    · rename_i hclose
      obtain rfl := Option.some.inj hscan
      refine ⟨length_tail_skipWs hclose, fun m _ => ?_⟩
      unfold Js.fieldsBehind
      rw [if_neg hcomma, if_pos hclose]
    · cases hscan

/-- Behind a key: the colon, the value and the members after it. -/
theorem valueBehind {fields : List (String × Json)} {key : String} {q : List (String × Json) × List Char}
    (hscan : valueBehind fuel fields key s = some q) : Reaches (valueBehind · fields key s) s q := by
  unfold Js.valueBehind at hscan
  split at hscan
  · cases hscan
  · rename_i hcolon
    obtain ⟨v, hv, hrest⟩ := Option.bind_eq_some_iff.mp hscan
    have hvalue := h.value hv
    have hmore := h.fieldsBehind hrest
    have htail := length_tail_skipWs (not_not.mp hcolon)
    have hconsumes := hvalue.consumes
    have hlen := hmore.consumes
    refine ⟨by omega, fun m hm => ?_⟩
    unfold Js.valueBehind
    rw [if_neg hcolon, hvalue.fuel m (by omega)]
    exact hmore.fuel m (by omega)

/-- So are the members of an object. -/
theorem fields_succ {fields : List (String × Json)} {q : List (String × Json) × List Char}
    (hscan : scanFields (fuel + 1) fields s = some q) : Reaches (scanFields · fields s) s q := by
  rw [scanFields_succ] at hscan
  split at hscan
  · cases hscan
  · rename_i hquote
    obtain ⟨key, hkey, hrest⟩ := Option.bind_eq_some_iff.mp hscan
    have hstring := reaches_scanString hkey
    have hmore := h.valueBehind hrest
    have htail := length_tail_skipWs (not_not.mp hquote)
    have hconsumes := hstring.consumes
    have hlen := hmore.consumes
    refine ⟨by omega, fun m hm => ?_⟩
    obtain ⟨k, rfl⟩ : ∃ k, m = k + 1 := Nat.exists_eq_succ_of_ne_zero (by omega)
    rw [scanFields_succ, if_neg hquote, hstring.fuel k (by omega)]
    exact hmore.fuel k (by omega)

end ScansWithin

/-- **What is consumed is fuel enough.** -/
theorem scansWithin (fuel : Nat) : ScansWithin fuel := by
  induction fuel with
  | zero =>
      refine ⟨?_, ?_, ?_⟩
      all_goals
        intros
        contradiction
  | succ fuel ih => exact ⟨ih.value_succ, ih.items_succ, ih.fields_succ⟩

end Reaching

end Js
