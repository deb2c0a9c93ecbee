import SiriusGateway.Js.Fuel
import Mathlib.Data.List.Induction
import Mathlib.Data.List.TakeWhile

/-!
# `Js.Trailing` — white space behind a JSON text

White space behind a text is left by the scanners, whatever they make of the text. Since a scanner needs no more
fuel than it consumes, the value of a text is that of the text without the white space behind it.

## Contents
- **White space.** `Blank`, and what a scanner sees of a text with blanks behind it.
- **Scanners.** `scanNumber_append`, `scanString_append`; `ScansBehind`, for values, items and members, by
  induction on the fuel.
- **Texts.** `jsonParse_append`.
-/

namespace Js

/-! ## White space -/

/-- All characters are white space. -/
def Blank (w : List Char) : Prop := ∀ c ∈ w, isSpace c = true

variable {w : List Char}

theorem ne_of_isSpace {c d : Char} (hc : isSpace c = true) (hd : isSpace d = false) : c ≠ d := by
  rintro rfl
  rw [hc] at hd
  cases hd

/-- A character that is no white space stands before the blanks. -/
theorem Blank.head {s : List Char} {c : Char} (hw : Blank w) (hc : isSpace c = false)
    (h : (s ++ w).head? = some c) : ∃ t, s = c :: t := by
  cases s with
  | nil =>
      cases w with
      | nil => cases h
      | cons d rest => exact absurd (Option.some.inj h) (ne_of_isSpace (hw d List.mem_cons_self) hc)
  | cons d rest => exact ⟨rest, by rw [Option.some.inj h]⟩

theorem head_append {s : List Char} (h : s ≠ []) : (s ++ w).head? = s.head? := by
  cases s with
  | nil => exact absurd rfl h
  | cons d rest => rfl

theorem tail_append {s : List Char} (h : s ≠ []) : (s ++ w).tail = s.tail ++ w := by
  cases s with
  | nil => exact absurd rfl h
  | cons d rest => rfl

/-- A word without white space that a text with blanks behind it starts with is one the text starts with. -/
theorem Blank.take_eq_iff {s word : List Char} (hw : Blank w) (hsolid : word.all (fun c => !isSpace c) = true) :
    (s ++ w).take word.length = word ↔ s.take word.length = word := by
  have hword : ∀ c ∈ word, isSpace c = false := by simpa using hsolid
  clear hsolid
  constructor
  · intro h
    have hprefix : word <+: s ++ w := List.prefix_iff_eq_take.mpr h.symm
    induction word generalizing s with
    | nil => rfl
    | cons c more ih =>
        obtain ⟨t, rfl⟩ := hw.head (hword c List.mem_cons_self) (s := s) (by
          obtain ⟨rest, hrest⟩ := hprefix
          rw [← hrest]
          rfl)
        have hmore : (t ++ w).take more.length = more := (List.cons.inj h).2
        rw [List.length_cons, List.take_succ_cons, ih (fun d hd => hword d (List.mem_cons_of_mem c hd)) hmore
          (List.prefix_iff_eq_take.mpr hmore.symm)]
  · intro h
    have hlen : word.length ≤ s.length := by
      have hle := congrArg List.length h
      rw [List.length_take] at hle
      omega
    rw [List.take_append_of_le_length hlen, h]

/-- No digit stands among the blanks. -/
theorem Blank.not_digit (hw : Blank w) : ∀ c ∈ w, c.isDigit = false := by
  intro c hc
  by_contra hdigit
  rw [Bool.not_eq_false] at hdigit
  have hspace := hw c hc
  have hrange : 48 ≤ c.toNat ∧ c.toNat ≤ 57 := by
    simpa [Char.isDigit, UInt32.le_iff_toNat_le] using hdigit
  unfold isSpace at hspace
  simp only [Bool.or_eq_true, decide_eq_true_eq, List.mem_cons, List.not_mem_nil, or_false, Bool.and_eq_true]
    at hspace
  omega

theorem isSpace_of_skipWs {s : List Char} (h : skipWs s = []) : Blank s := by
  induction s with
  | nil => exact fun c hc => absurd hc List.not_mem_nil
  | cons c rest ih =>
      unfold skipWs at h ih
      rw [List.dropWhile_cons] at h
      split at h
      · rename_i hc
        simp only [Bool.or_eq_true, decide_eq_true_eq] at hc
        refine List.forall_mem_cons.mpr ⟨?_, ih h⟩
        obtain ((rfl | rfl) | rfl) | rfl := hc <;> decide
      · cases h

/-- White space is skipped up to the first other character, which the blanks do not hold. -/
theorem skipWs_append {s : List Char} (h : skipWs s ≠ []) : skipWs (s ++ w) = skipWs s ++ w := by
  unfold skipWs at h ⊢
  induction s with
  | nil => exact absurd rfl h
  | cons c rest ih =>
      rw [List.cons_append, List.dropWhile_cons, List.dropWhile_cons]
      rw [List.dropWhile_cons] at h
      split
      · rename_i hc
        rw [if_pos hc] at h
        exact ih h
      · rfl

theorem Blank.append {s : List Char} (hs : Blank s) (hw : Blank w) : Blank (s ++ w) := by
  intro c hc
  exact (List.mem_append.mp hc).elim (hs c) (hw c)

theorem Blank.skipWs {s : List Char} (hs : Blank s) : Blank (Js.skipWs s) := by
  intro c hc
  exact hs c ((List.dropWhile_sublist _).subset hc)

theorem Blank.head_ne {s : List Char} {c : Char} (hs : Blank s) (hc : isSpace c = false) : s.head? ≠ some c := by
  intro h
  obtain ⟨rest, rfl⟩ := List.head?_eq_some_iff.mp h
  exact ne_of_isSpace (hs c List.mem_cons_self) hc rfl

/-- Behind white space, a character that is none is there with the blanks exactly when it is without them. -/
theorem Blank.skipWs_head_iff {s : List Char} {c : Char} (hw : Blank w) (hc : isSpace c = false) :
    (Js.skipWs (s ++ w)).head? = some c ↔ (Js.skipWs s).head? = some c := by
  by_cases hs : Js.skipWs s = []
  · rw [hs]
    exact iff_of_false (((isSpace_of_skipWs hs).append hw).skipWs.head_ne hc) fun h => nomatch h
  · rw [skipWs_append hs, head_append hs]

theorem skipWs_tail_append {s : List Char} {c : Char} (h : (skipWs s).head? = some c) :
    (skipWs (s ++ w)).tail = (skipWs s).tail ++ w := by
  have hs : skipWs s ≠ [] := by
    intro hnil
    rw [hnil] at h
    cases h
  rw [skipWs_append hs, tail_append hs]

/-! ### Trimming -/

/-- White space behind a text is trimmed off. -/
theorem trimChars_append (hw : Blank w) (s : List Char) : trimChars (s ++ w) = trimChars s := by
  have hall : ∀ {l : List Char}, Blank l → l.dropWhile isSpace = [] := fun hl =>
    List.dropWhile_eq_nil_iff.mpr hl
  unfold trimChars
  by_cases hs : Blank s
  · rw [hall hs, hall (hs.append hw)]
  · have hne : s.dropWhile isSpace ≠ [] := fun hnil => hs (List.dropWhile_eq_nil_iff.mp hnil)
    have hreverse : ∀ c ∈ w.reverse, isSpace c = true := fun c hc => hw c (List.mem_reverse.mp hc)
    rw [List.dropWhile_append, if_neg (by rwa [List.isEmpty_iff]), List.reverse_append,
      List.dropWhile_append_of_pos hreverse]

theorem trim_append {w : String} (hw : Blank w.toList) (s : String) : trim (s ++ w) = trim s := by
  unfold trim
  rw [String.toList_append, trimChars_append hw]

/-- A text that is more than white space ends in a character that is none, before the white space behind it. -/
theorem exists_blank_behind {s : List Char} (h : ¬Blank s) :
    ∃ more c blanks, s = more ++ [c] ++ blanks ∧ isSpace c = false ∧ Blank blanks := by
  induction s using List.reverseRecOn with
  | nil => exact absurd (fun c hc => nomatch hc) h
  | append_singleton s d ih =>
      by_cases hd : isSpace d = true
      · have hsingle : Blank [d] := List.forall_mem_singleton.mpr hd
        obtain ⟨more, c, blanks, rfl, hc, hblanks⟩ := ih fun hs => h (hs.append hsingle)
        exact ⟨more, c, blanks ++ [d], by rw [List.append_assoc], hc, hblanks.append hsingle⟩
      · exact ⟨s, d, [], by rw [List.append_nil], Bool.eq_false_iff.mpr hd, fun c hc => nomatch hc⟩

/-! ## Scanners -/

/-- What a scanner returns, with more behind what it leaves. -/
def leaving {α : Type} (w : List Char) (p : α × List Char) : α × List Char := (p.1, p.2 ++ w)

theorem takeWhile_digits_append (hw : Blank w) (s : List Char) :
    (s ++ w).takeWhile Char.isDigit = s.takeWhile Char.isDigit := by
  induction s with
  | nil =>
      cases w with
      | nil => rfl
      | cons c rest => exact List.takeWhile_cons_of_neg (by rw [hw.not_digit c List.mem_cons_self]; decide)
  | cons c rest ih => rw [List.cons_append, List.takeWhile_cons, List.takeWhile_cons, ih]

theorem dropWhile_digits_append (hw : Blank w) (s : List Char) :
    (s ++ w).dropWhile Char.isDigit = s.dropWhile Char.isDigit ++ w := by
  induction s with
  | nil =>
      cases w with
      | nil => rfl
      | cons c rest => exact List.dropWhile_cons_of_neg (by rw [hw.not_digit c List.mem_cons_self]; decide)
  | cons c rest ih =>
      rw [List.cons_append, List.dropWhile_cons, List.dropWhile_cons, ih]
      split <;> rfl

theorem scanFraction_append (hw : Blank w) (s : List Char) :
    scanFraction (s ++ w) = (scanFraction s).map (leaving w) := by
  cases s with
  | nil =>
      cases w with
      | nil => rfl
      | cons c rest => exact if_neg (ne_of_isSpace (hw c List.mem_cons_self) (by decide))
  | cons c rest =>
      rw [List.cons_append, scanFraction, scanFraction]
      simp only [takeWhile_digits_append hw, dropWhile_digits_append hw]
      split
      · split <;> rfl
      · rfl

theorem exponentSign_append (hw : Blank w) (s : List Char) :
    exponentSign (s ++ w) = ((exponentSign s).1, (exponentSign s).2 ++ w) := by
  cases s with
  | nil =>
      cases w with
      | nil => rfl
      | cons c rest =>
          have hplus : c ≠ '+' := ne_of_isSpace (hw c List.mem_cons_self) (by decide)
          have hminus : c ≠ '-' := ne_of_isSpace (hw c List.mem_cons_self) (by decide)
          show exponentSign (c :: rest) = (false, c :: rest)
          unfold exponentSign
          split
          · rename_i heq
            exact absurd (List.cons.inj heq).1 hplus
          · rename_i heq
            exact absurd (List.cons.inj heq).1 hminus
          · rfl
  | cons c rest =>
      by_cases hplus : c = '+'
      · subst hplus
        rfl
      · by_cases hminus : c = '-'
        · subst hminus
          rfl
        · have hother : ∀ r, exponentSign (c :: r) = (false, c :: r) := by
            intro r
            unfold exponentSign
            split
            · rename_i heq
              exact absurd (List.cons.inj heq).1 hplus
            · rename_i heq
              exact absurd (List.cons.inj heq).1 hminus
            · rfl
          rw [List.cons_append, hother, hother]
          rfl

theorem scanExponent_append (hw : Blank w) (s : List Char) :
    scanExponent (s ++ w) = (scanExponent s).map (leaving w) := by
  cases s with
  | nil =>
      cases w with
      | nil => rfl
      | cons c rest =>
          have he : c ≠ 'e' := ne_of_isSpace (hw c List.mem_cons_self) (by decide)
          have hE : c ≠ 'E' := ne_of_isSpace (hw c List.mem_cons_self) (by decide)
          rw [List.nil_append, scanExponent_cons, if_neg fun h => h.elim he hE]
          rfl
  | cons c rest =>
      rw [List.cons_append, scanExponent_cons, scanExponent_cons, exponentSign_append hw]
      split
      · unfold scanExponentDigits
        simp only [takeWhile_digits_append hw, dropWhile_digits_append hw]
        split <;> rfl
      · rfl

theorem scanMagnitude_append (hw : Blank w) (negative : Bool) (body : List Char) :
    scanMagnitude negative (body ++ w) = (scanMagnitude negative body).map (leaving w) := by
  unfold scanMagnitude
  simp only [takeWhile_digits_append hw, dropWhile_digits_append hw, scanFraction_append hw]
  split
  · rfl
  · cases scanFraction (body.dropWhile Char.isDigit) with
    | none => rfl
    | some fraction =>
        show (scanExponent (fraction.2 ++ w) >>= fun _ => _) = Option.map _ (scanExponent fraction.2 >>= fun _ => _)
        rw [scanExponent_append hw]
        cases scanExponent fraction.2 <;> rfl

/-- A number stands in front of the blanks. -/
theorem scanNumber_append (hw : Blank w) (s : List Char) :
    scanNumber (s ++ w) = (scanNumber s).map (leaving w) := by
  have hplain : ∀ {t : List Char}, t.head? ≠ some '-' → (t ++ w).head? ≠ some '-' := by
    intro t ht hminus
    obtain ⟨r, rfl⟩ := hw.head (by decide) hminus
    exact ht rfl
  by_cases hminus : s.head? = some '-'
  · obtain ⟨body, rfl⟩ := List.head?_eq_some_iff.mp hminus
    rw [List.cons_append, scanNumber_minus, scanNumber_minus]
    exact scanMagnitude_append hw true body
  · rw [scanNumber_plain hminus, scanNumber_plain (hplain hminus)]
    exact scanMagnitude_append hw false s

/-! ### Strings -/

/-- A blank is no letter that is a hexadecimal digit, nor a decimal one. -/
theorem hexDigit_of_isSpace {c : Char} (h : isSpace c = true) : hexDigit c = none := by
  have hdigit : c.isDigit = false :=
    Blank.not_digit (w := [c]) (List.forall_mem_singleton.mpr h) c List.mem_cons_self
  have hspace := h
  unfold isSpace at hspace
  simp only [Bool.or_eq_true, decide_eq_true_eq, List.mem_cons, List.not_mem_nil, or_false, Bool.and_eq_true]
    at hspace
  have hrange : ∀ lo hi : Char, lo ≤ c ∧ c ≤ hi → lo.toNat ≤ c.toNat ∧ c.toNat ≤ hi.toNat := by
    intro lo hi hc
    exact ⟨UInt32.le_iff_toNat_le.mp (Char.le_def.mp hc.1), UInt32.le_iff_toNat_le.mp (Char.le_def.mp hc.2)⟩
  have hlower : ¬('a' ≤ c ∧ c ≤ 'f') := by
    intro hc
    have hbounds : 97 ≤ c.toNat ∧ c.toNat ≤ 102 := hrange 'a' 'f' hc
    omega
  have hupper : ¬('A' ≤ c ∧ c ≤ 'F') := by
    intro hc
    have hbounds : 65 ≤ c.toNat ∧ c.toNat ≤ 70 := hrange 'A' 'F' hc
    omega
  unfold hexDigit
  rw [if_neg (by rw [hdigit]; decide), if_neg hlower, if_neg hupper]

theorem scanUnit_append (hw : Blank w) (s : List Char) : scanUnit (s ++ w) = (scanUnit s).map (leaving w) := by
  have hhead : ∀ {t rest : List Char} {c : Char} {x : Nat}, hexDigit c = some x → t ++ w = c :: rest →
      ∃ more, t = c :: more ∧ rest = more ++ w := by
    intro t rest c x hx ht
    have hc : isSpace c = false := by
      by_contra hspace
      rw [Bool.not_eq_false] at hspace
      rw [hexDigit_of_isSpace hspace] at hx
      cases hx
    obtain ⟨more, rfl⟩ := hw.head hc (s := t) (by rw [ht]; rfl)
    exact ⟨more, rfl, (List.cons.inj ht).2.symm⟩
  apply Option.ext
  rintro ⟨n, rest⟩
  rw [Option.map_eq_some_iff, scanUnit_eq_some_iff]
  constructor
  · rintro ⟨a, b, c, d, x, y, z, t, hs, hx, hy, hz, ht, rfl⟩
    obtain ⟨s₁, rfl, hs₁⟩ := hhead hx hs
    obtain ⟨s₂, rfl, hs₂⟩ := hhead hy hs₁.symm
    obtain ⟨s₃, rfl, hs₃⟩ := hhead hz hs₂.symm
    obtain ⟨s₄, rfl, rfl⟩ := hhead ht hs₃.symm
    exact ⟨(_, s₄), scanUnit_eq_some_iff.mpr ⟨a, b, c, d, x, y, z, t, rfl, hx, hy, hz, ht, rfl⟩, rfl⟩
  · rintro ⟨⟨m, s₄⟩, hscan, heq⟩
    obtain ⟨rfl, rfl⟩ := Prod.mk.inj heq
    obtain ⟨a, b, c, d, x, y, z, t, rfl, hx, hy, hz, ht, rfl⟩ := scanUnit_eq_some_iff.mp hscan
    exact ⟨a, b, c, d, x, y, z, t, rfl, hx, hy, hz, ht, rfl⟩

theorem scanLow_append (hw : Blank w) (hi : Nat) (s : List Char) :
    scanLow hi (s ++ w) = (scanLow hi s).map (leaving w) := by
  by_cases h : ∃ more, s = '\\' :: 'u' :: more
  · obtain ⟨more, rfl⟩ := h
    rw [List.cons_append, List.cons_append, scanLow_low, scanLow_low, scanUnit_append hw]
    cases scanUnit more with
    | none => rfl
    | some unit =>
        simp only [Option.map_some, Option.bind_some, leaving]
        split <;> simp only [Option.map_some, leaving, List.cons_append]
  · have hother : ∀ more, s ++ w ≠ '\\' :: 'u' :: more := by
      intro more hs
      obtain ⟨t, rfl⟩ := hw.head (c := '\\') (by decide) (by rw [hs]; rfl)
      have ht : t ++ w = 'u' :: more := (List.cons.inj hs).2
      obtain ⟨t', rfl⟩ := hw.head (c := 'u') (by decide) (by rw [ht]; rfl)
      exact h ⟨t', rfl⟩
    rw [scanLow_other hother, scanLow_other fun more hs => h ⟨more, hs⟩]
    rfl

theorem scanUnicode_append (hw : Blank w) (s : List Char) :
    scanUnicode (s ++ w) = (scanUnicode s).map (leaving w) := by
  rw [scanUnicode_eq, scanUnicode_eq, scanUnit_append hw]
  cases scanUnit s with
  | none => rfl
  | some unit =>
      obtain ⟨n, rest⟩ := unit
      simp only [Option.map_some, Option.bind_some, leaving, scanLow_append hw]
      split
      · rfl
      · split <;> rfl

theorem simpleEscape_of_isSpace {c : Char} (h : isSpace c = true) : simpleEscape c = none := by
  unfold simpleEscape
  split
  all_goals first
    | rfl
    | exact absurd h (by decide)

theorem scanEscape_append (hw : Blank w) (s : List Char) :
    scanEscape (s ++ w) = (scanEscape s).map (leaving w) := by
  cases s with
  | nil =>
      cases w with
      | nil => rfl
      | cons c rest =>
          have hc := hw c List.mem_cons_self
          have hu : c ≠ 'u' := ne_of_isSpace hc (by decide)
          show (if c = 'u' then _ else _) = _
          rw [if_neg hu, simpleEscape_of_isSpace hc]
          rfl
  | cons e more =>
      show (if e = 'u' then _ else _) = Option.map _ (if e = 'u' then _ else _)
      split
      · exact scanUnicode_append hw more
      · cases simpleEscape e <;> rfl

theorem scanChar_append (hw : Blank w) {s : List Char} (h : s ≠ []) :
    scanChar (s ++ w) = (scanChar s).map (leaving w) := by
  cases s with
  | nil => exact absurd rfl h
  | cons c rest =>
      rw [List.cons_append, scanChar_cons, scanChar_cons]
      split
      · exact scanEscape_append hw rest
      · split <;> rfl

/-- White space has no closing quote in it. -/
theorem scanString_blank {s : List Char} (h : Blank s) (fuel : Nat) : scanString fuel s = none := by
  induction fuel generalizing s with
  | zero => rfl
  | succ fuel ih =>
      rw [scanString_succ, if_neg (h.head_ne (by decide))]
      cases s with
      | nil => rfl
      | cons c rest =>
          have hback : c ≠ '\\' := ne_of_isSpace (h c List.mem_cons_self) (by decide)
          have hrest : scanString fuel rest = none := ih fun d hd => h d (List.mem_cons_of_mem c hd)
          rw [scanChar_cons, if_neg hback]
          split
          · rfl
          · show (scanString fuel rest).map _ = none
            rw [hrest]
            rfl

/-- A string stands in front of the blanks. -/
theorem scanString_append (hw : Blank w) (fuel : Nat) (s : List Char) :
    scanString fuel (s ++ w) = (scanString fuel s).map (leaving w) := by
  induction fuel generalizing s with
  | zero => rfl
  | succ fuel ih =>
      by_cases hs : s = []
      · subst hs
        rw [List.nil_append, scanString_blank hw, scanString_blank (s := []) fun c hc => nomatch hc]
        rfl
      · rw [scanString_succ, scanString_succ, head_append hs, tail_append hs, scanChar_append hw hs]
        split
        · rfl
        · cases scanChar s with
          | none => rfl
          | some p =>
              show (scanString fuel (p.2 ++ w)).map _ = Option.map _ ((scanString fuel p.2).map _)
              rw [ih]
              cases scanString fuel p.2 <;> rfl

/-! ### Values -/

/-- White space holds no number. -/
theorem scanNumber_blank {s : List Char} (h : Blank s) : scanNumber s = none := by
  have hdigits : s.takeWhile Char.isDigit = [] := by
    cases s with
    | nil => rfl
    | cons c rest => exact List.takeWhile_cons_of_neg (by rw [h.not_digit c List.mem_cons_self]; decide)
  rw [scanNumber_plain (h.head_ne (by decide))]
  unfold scanMagnitude
  simp only [hdigits]
  rfl

/-- White space holds no value. -/
theorem scanValue_blank {s : List Char} (h : Blank s) (fuel : Nat) : scanValue fuel s = none := by
  cases fuel with
  | zero => rfl
  | succ fuel =>
      have ht : Blank (skipWs s) := h.skipWs
      have hword : ∀ (k : Nat) (word : List Char), word.any (fun c => !isSpace c) = true →
          (skipWs s).take k ≠ word := by
        rintro k word hsolid rfl
        obtain ⟨c, hmem, hc⟩ := List.any_eq_true.mp hsolid
        rw [ht c (List.mem_of_mem_take hmem)] at hc
        cases hc
      rw [scanValue]
      dsimp only
      rw [if_neg (hword 4 "null".toList (by decide)), if_neg (hword 4 "true".toList (by decide)),
        if_neg (hword 5 "false".toList (by decide)), if_neg (ht.head_ne (by decide)),
        if_neg (ht.head_ne (by decide)), if_neg (ht.head_ne (by decide)),
        scanNumber_blank ht]
      rfl

/-- With this much fuel, blanks behind a text are left. -/
structure ScansBehind (w : List Char) (fuel : Nat) : Prop where
  value : ∀ s, scanValue fuel (s ++ w) = (scanValue fuel s).map (leaving w)
  items : ∀ s, scanItems fuel (s ++ w) = (scanItems fuel s).map (leaving w)
  fields : ∀ fields s, scanFields fuel fields (s ++ w) = (scanFields fuel fields s).map (leaving w)

/-- A word in front of the blanks is taken off. -/
theorem drop_append {s word : List Char} {k : Nat} (h : s.take k = word) (hk : word.length = k) :
    (s ++ w).drop k = s.drop k ++ w := by
  apply List.drop_append_of_le_length
  rw [← hk, ← h]
  exact List.length_take_le' ..

theorem scanValue_append_succ (hw : Blank w) {fuel : Nat} (h : ScansBehind w fuel) (s : List Char) :
    scanValue (fuel + 1) (s ++ w) = (scanValue (fuel + 1) s).map (leaving w) := by
  by_cases hs : skipWs s = []
  · have hblank := isSpace_of_skipWs hs
    rw [scanValue_blank hblank, scanValue_blank (hblank.append hw)]
    rfl
  · have hnull : ∀ t : List Char, (t ++ w).take 4 = "null".toList ↔ t.take 4 = "null".toList :=
      fun t => @Blank.take_eq_iff w t "null".toList hw (by decide)
    have htrue : ∀ t : List Char, (t ++ w).take 4 = "true".toList ↔ t.take 4 = "true".toList :=
      fun t => @Blank.take_eq_iff w t "true".toList hw (by decide)
    have hfalse : ∀ t : List Char, (t ++ w).take 5 = "false".toList ↔ t.take 5 = "false".toList :=
      fun t => @Blank.take_eq_iff w t "false".toList hw (by decide)
    rw [scanValue, scanValue, skipWs_append hs]
    simp only [hnull, htrue, hfalse, head_append hs, tail_append hs, hw.skipWs_head_iff (c := ']') (by decide),
      hw.skipWs_head_iff (c := '\x7d') (by decide), scanString_append hw, h.items, h.fields, scanNumber_append hw]
    split
    · rename_i hword
      rw [drop_append hword (by decide)]
      rfl
    split
    · rename_i hword
      rw [drop_append hword (by decide)]
      rfl
    split
    · rename_i hword
      rw [drop_append hword (by decide)]
      rfl
    split
    · cases scanString fuel (skipWs s).tail <;> rfl
    split
    · split
      · rename_i hclose
        rw [skipWs_tail_append hclose]
        rfl
      · cases scanItems fuel (skipWs s).tail <;> rfl
    split
    · split
      · rename_i hclose
        rw [skipWs_tail_append hclose]
        rfl
      · cases scanFields fuel [] (skipWs s).tail <;> rfl
    · cases scanNumber (skipWs s) <;> rfl

namespace ScansBehind

variable {fuel : Nat} (hw : Blank w) (h : ScansBehind w fuel)
include hw h

theorem itemsBehind_append (v : Json) (rest : List Char) :
    itemsBehind fuel v (rest ++ w) = (itemsBehind fuel v rest).map (leaving w) := by
  unfold itemsBehind
  simp only [hw.skipWs_head_iff (c := ',') (by decide), hw.skipWs_head_iff (c := ']') (by decide)]
  split
  · rename_i hcomma
    rw [skipWs_tail_append hcomma, h.items]
    cases scanItems fuel (skipWs rest).tail <;> rfl
  split
  · rename_i hclose
    rw [skipWs_tail_append hclose]
    rfl
  · rfl

theorem items_succ (s : List Char) :
    scanItems (fuel + 1) (s ++ w) = (scanItems (fuel + 1) s).map (leaving w) := by
  rw [scanItems_succ, scanItems_succ, h.value]
  cases scanValue fuel s with
  | none => rfl
  | some p => exact h.itemsBehind_append hw p.1 p.2

theorem fieldsBehind_append (fields : List (String × Json)) (rest : List Char) :
    fieldsBehind fuel fields (rest ++ w) = (fieldsBehind fuel fields rest).map (leaving w) := by
  unfold fieldsBehind
  simp only [hw.skipWs_head_iff (c := ',') (by decide), hw.skipWs_head_iff (c := '\x7d') (by decide)]
  split
  · rename_i hcomma
    rw [skipWs_tail_append hcomma, h.fields]
  split
  · rename_i hclose
    rw [skipWs_tail_append hclose]
    rfl
  · rfl

theorem valueBehind_append (fields : List (String × Json)) (key : String) (rest : List Char) :
    valueBehind fuel fields key (rest ++ w) = (valueBehind fuel fields key rest).map (leaving w) := by
  unfold valueBehind
  simp only [ne_eq, hw.skipWs_head_iff (c := ':') (by decide)]
  by_cases hcolon : (skipWs rest).head? = some ':'
  · rw [if_neg (not_not_intro hcolon), if_neg (not_not_intro hcolon), skipWs_tail_append hcolon, h.value]
    cases scanValue fuel (skipWs rest).tail with
    | none => rfl
    | some p => exact h.fieldsBehind_append hw (putField key p.1 fields) p.2
  · rw [if_pos hcolon, if_pos hcolon]
    rfl

theorem fields_succ (fields : List (String × Json)) (s : List Char) :
    scanFields (fuel + 1) fields (s ++ w) = (scanFields (fuel + 1) fields s).map (leaving w) := by
  rw [scanFields_succ, scanFields_succ]
  simp only [ne_eq, hw.skipWs_head_iff (c := '"') (by decide)]
  by_cases hquote : (skipWs s).head? = some '"'
  · rw [if_neg (not_not_intro hquote), if_neg (not_not_intro hquote), skipWs_tail_append hquote,
      scanString_append hw]
    cases scanString fuel (skipWs s).tail with
    | none => rfl
    | some p => exact h.valueBehind_append hw fields (String.ofList p.1) p.2
  · rw [if_pos hquote, if_pos hquote]
    rfl

end ScansBehind

/-- **Blanks behind a text are left**, whatever the fuel. -/
theorem scansBehind (hw : Blank w) (fuel : Nat) : ScansBehind w fuel := by
  induction fuel with
  | zero => exact ⟨fun _ => rfl, fun _ => rfl, fun _ _ => rfl⟩
  | succ fuel ih => exact ⟨scanValue_append_succ hw ih, ih.items_succ hw, ih.fields_succ hw⟩

/-! ## Texts -/

/-- A text that is a value is more than white space. -/
theorem not_blank_of_jsonParse {text : String} {v : Json} (h : jsonParse text = some v) : ¬Blank text.toList := by
  intro hblank
  unfold jsonParse at h
  dsimp only at h
  rw [scanValue_blank hblank] at h
  cases h

/-- **White space behind a text** that is a value is no part of the value. -/
theorem jsonParse_append {q w : String} {v : Json} (hw : Blank w.toList) (h : jsonParse (q ++ w) = some v) :
    jsonParse q = some v := by
  unfold jsonParse at h ⊢
  dsimp only at h ⊢
  rw [String.toList_append, (scansBehind hw _).value] at h
  split at h
  · rename_i v' rest hscan
    obtain ⟨p, hp, hleaving⟩ := Option.map_eq_some_iff.mp hscan
    obtain ⟨rfl, rfl⟩ := Prod.mk.inj hleaving
    have hreach := ((scansWithin _).value hp).fuel (q.toList.length + 1) (by omega)
    have hblank : skipWs p.2 = [] := by
      by_contra hne
      split at h
      · rename_i hall
        rw [skipWs_append hne] at hall
        exact hne (List.append_eq_nil_iff.mp hall).1
      · cases h
    rw [hreach]
    dsimp only
    rw [if_pos hblank]
    split at h
    · exact h
    · cases h
  · cases h

end Js
