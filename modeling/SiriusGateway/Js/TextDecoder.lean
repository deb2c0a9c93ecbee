import Mathlib.Algebra.Group.Nat.Defs
import Mathlib.Order.Basic

/-!
# `Js.TextDecoder` — bytes to text, chunk by chunk

`decoder.decode(value, { stream: true })` keeps the bytes of an unfinished character for the next call. A
`TextDecoder` is such a decoder together with the law the read loops rely on: the texts of successive calls
are the text of the bytes put together.

## Contents
- **Decoders.** `TextDecoder` and `decodeChunks`; where the chunks are cut makes no difference
  (`flatMap_decodeChunks`).
- **UTF-8.** The byte-at-a-time machine of the encoding standard, with its byte order mark and its
  replacement characters, as a `TextDecoder`.
- **Encoded text** is decoded to itself (`utf8_decode_encode`).
-/

namespace Js

/-! ## Decoders -/

/-- A streaming decoder. `decode` returns the text of a chunk and the decoder after it. -/
structure TextDecoder where
  State : Type
  init : State
  decode : State → List UInt8 → String × State
  /-- An empty chunk has no text. -/
  decode_nil : ∀ s, decode s [] = ("", s)
  /-- Two chunks have the text of their concatenation. -/
  decode_append : ∀ s a b, decode s (a ++ b) =
    ((decode s a).1 ++ (decode (decode s a).2 b).1, (decode (decode s a).2 b).2)

namespace TextDecoder

variable (d : TextDecoder)

/-- The texts of successive chunks. -/
def decodeChunks : d.State → List (List UInt8) → List String
  | _, [] => []
  | s, chunk :: rest => (d.decode s chunk).1 :: decodeChunks (d.decode s chunk).2 rest

/-- The text of a whole byte sequence. -/
def decodeAll (bytes : List UInt8) : String := (d.decode d.init bytes).1

/-- **Where the chunks are cut makes no difference** to the text they decode to. -/
theorem flatMap_decodeChunks (s : d.State) (chunks : List (List UInt8)) :
    String.ofList ((d.decodeChunks s chunks).flatMap String.toList) = (d.decode s chunks.flatten).1 := by
  induction chunks generalizing s with
  | nil =>
      rw [List.flatten_nil, d.decode_nil]
      rfl
  | cons chunk rest ih =>
      rw [List.flatten_cons, d.decode_append, decodeChunks, List.flatMap_cons, String.ofList_append,
        String.ofList_toList, ih]

end TextDecoder

/-! ## UTF-8 -/

namespace Utf8

/-- U+FFFD, for what is no UTF-8. -/
def replacement : Char := Char.ofNat 0xFFFD

/-- U+FEFF, the byte order mark. -/
def byteOrderMark : Char := Char.ofNat 0xFEFF

/-- The decoder between two bytes. -/
structure State where
  codePoint : Nat := 0
  /-- How many bytes of the character are still to come. -/
  needed : Nat := 0
  /-- The bounds of the next byte. -/
  lower : Nat := 0x80
  upper : Nat := 0xBF
  /-- The first character has been decoded: it alone can be a byte order mark. -/
  started : Bool := false
  deriving DecidableEq

namespace State

/-- Output one character. -/
def emit (s : State) (c : Char) : List Char × State :=
  (if s.started = false ∧ c = byteOrderMark then [] else [c], { started := true })

/-- The first byte of a character. -/
def lead (s : State) (b : Nat) : List Char × State :=
  if b ≤ 0x7F then s.emit (Char.ofNat b)
  else if 0xC2 ≤ b ∧ b ≤ 0xDF then ([], { s with codePoint := b - 0xC0, needed := 1 })
  else if 0xE0 ≤ b ∧ b ≤ 0xEF then
    ([], { s with
      codePoint := b - 0xE0
      needed := 2
      lower := if b = 0xE0 then 0xA0 else 0x80
      upper := if b = 0xED then 0x9F else 0xBF })
  else if 0xF0 ≤ b ∧ b ≤ 0xF4 then
    ([], { s with
      codePoint := b - 0xF0
      needed := 3
      lower := if b = 0xF0 then 0x90 else 0x80
      upper := if b = 0xF4 then 0x8F else 0xBF })
  else s.emit replacement

/-- One byte. A byte that cannot continue the character ends it with a replacement character and is read
    again as a first byte. -/
def step (s : State) (b : Nat) : List Char × State :=
  if s.needed = 0 then s.lead b
  else if b < s.lower ∨ s.upper < b then
    let broken := s.emit replacement
    let next := broken.2.lead b
    (broken.1 ++ next.1, next.2)
  else
    let codePoint := s.codePoint * 0x40 + (b - 0x80)
    if s.needed = 1 then s.emit (Char.ofNat codePoint)
    else ([], { codePoint := codePoint, needed := s.needed - 1, started := s.started })

/-- The bytes of a chunk. -/
def run : State → List UInt8 → List Char × State
  | s, [] => ([], s)
  | s, b :: rest => ((s.step b.toNat).1 ++ (run (s.step b.toNat).2 rest).1, (run (s.step b.toNat).2 rest).2)

theorem run_append (s : State) (a b : List UInt8) :
    s.run (a ++ b) = ((s.run a).1 ++ ((s.run a).2.run b).1, ((s.run a).2.run b).2) := by
  induction a generalizing s with
  | nil => rfl
  | cons x rest ih => rw [List.cons_append, run, ih, run, List.append_assoc]

end State

end Utf8

/-- `new TextDecoder()`. -/
def utf8 : TextDecoder where
  State := Utf8.State
  init := {}
  decode s bytes := (String.ofList (s.run bytes).1, (s.run bytes).2)
  decode_nil s := rfl
  decode_append s a b := by
    rw [Utf8.State.run_append, String.ofList_append]

/-! ## Encoded text -/

/-- The UTF-8 encoding of a text. -/
def encodeUtf8 (text : String) : List UInt8 := text.toList.flatMap String.utf8EncodeChar

namespace Utf8.State

theorem run_ofNat (s : State) {v : Nat} (hv : v < 256) (rest : List UInt8) :
    s.run (UInt8.ofNat v :: rest) = ((s.step v).1 ++ ((s.step v).2.run rest).1, ((s.step v).2.run rest).2) := by
  have hbyte : (UInt8.ofNat v).toNat = v := by
    rw [UInt8.toNat_ofNat']
    exact Nat.mod_eq_of_lt hv
  rw [run, hbyte]

section Bytes

variable {codePoint needed lower upper b : Nat} {started : Bool}

/-- A first byte with one more to come. -/
theorem run_two (h : 0xC2 ≤ b ∧ b ≤ 0xDF) (rest : List UInt8) :
    run ⟨codePoint, 0, lower, upper, started⟩ (UInt8.ofNat b :: rest) =
      run ⟨b - 0xC0, 1, lower, upper, started⟩ rest := by
  have hstep : step ⟨codePoint, 0, lower, upper, started⟩ b = ([], ⟨b - 0xC0, 1, lower, upper, started⟩) := by
    unfold step lead
    rw [if_pos rfl, if_neg (by omega), if_pos h]
  rw [run_ofNat _ (by omega), hstep]
  rfl

/-- A first byte with two more to come. -/
theorem run_three (h : 0xE0 ≤ b ∧ b ≤ 0xEF) (rest : List UInt8) :
    run ⟨codePoint, 0, lower, upper, started⟩ (UInt8.ofNat b :: rest) =
      run ⟨b - 0xE0, 2, if b = 0xE0 then 0xA0 else 0x80, if b = 0xED then 0x9F else 0xBF, started⟩ rest := by
  have hstep : step ⟨codePoint, 0, lower, upper, started⟩ b =
      ([], ⟨b - 0xE0, 2, if b = 0xE0 then 0xA0 else 0x80, if b = 0xED then 0x9F else 0xBF, started⟩) := by
    unfold step lead
    rw [if_pos rfl, if_neg (by omega), if_neg (by omega), if_pos h]
  rw [run_ofNat _ (by omega), hstep]
  rfl

/-- A first byte with three more to come. -/
theorem run_four (h : 0xF0 ≤ b ∧ b ≤ 0xF4) (rest : List UInt8) :
    run ⟨codePoint, 0, lower, upper, started⟩ (UInt8.ofNat b :: rest) =
      run ⟨b - 0xF0, 3, if b = 0xF0 then 0x90 else 0x80, if b = 0xF4 then 0x8F else 0xBF, started⟩ rest := by
  have hstep : step ⟨codePoint, 0, lower, upper, started⟩ b =
      ([], ⟨b - 0xF0, 3, if b = 0xF0 then 0x90 else 0x80, if b = 0xF4 then 0x8F else 0xBF, started⟩) := by
    unfold step lead
    rw [if_pos rfl, if_neg (by omega), if_neg (by omega), if_neg (by omega), if_pos h]
  rw [run_ofNat _ (by omega), hstep]
  rfl

/-- A byte that continues the character, with more to come. -/
theorem run_continue (hlower : lower ≤ b) (hupper : b ≤ upper) (hb : b ≤ 0xBF) (rest : List UInt8) :
    run ⟨codePoint, needed + 2, lower, upper, started⟩ (UInt8.ofNat b :: rest) =
      run ⟨codePoint * 0x40 + (b - 0x80), needed + 1, 0x80, 0xBF, started⟩ rest := by
  have hstep : step ⟨codePoint, needed + 2, lower, upper, started⟩ b =
      ([], ⟨codePoint * 0x40 + (b - 0x80), needed + 1, 0x80, 0xBF, started⟩) := by
    unfold step
    show (if needed + 2 = 0 then _ else if b < lower ∨ upper < b then _ else if needed + 2 = 1 then _ else _) = _
    rw [if_neg (by omega), if_neg (by omega), if_neg (by omega)]
    rfl
  rw [run_ofNat _ (by omega), hstep]
  rfl

/-- The last byte of a character. -/
theorem run_last (hlower : 0x80 ≤ b) (hupper : b ≤ 0xBF) :
    run ⟨codePoint, 1, 0x80, 0xBF, started⟩ [UInt8.ofNat b] =
      emit { started := started } (Char.ofNat (codePoint * 0x40 + (b - 0x80))) := by
  have hstep : step ⟨codePoint, 1, 0x80, 0xBF, started⟩ b =
      emit { started := started } (Char.ofNat (codePoint * 0x40 + (b - 0x80))) := by
    unfold step
    show (if 1 = 0 then _ else if b < 0x80 ∨ 0xBF < b then _ else if 1 = 1 then _ else _) = _
    rw [if_neg (by omega), if_neg (by omega), if_pos rfl]
    rfl
  rw [run_ofNat _ (by omega), hstep, run, List.append_nil]

end Bytes

/-- **The bytes of a character decode to it.** -/
theorem run_utf8EncodeChar (c : Char) (started : Bool) (h : started = true ∨ c ≠ byteOrderMark) :
    run { started := started } (String.utf8EncodeChar c) = ([c], { started := true }) := by
  have hemit : emit { started := started } c = ([c], { started := true }) := by
    unfold emit
    rw [if_neg]
    rintro ⟨hstart, hmark⟩
    rcases h with h | h
    · exact absurd (h.symm.trans hstart) (by decide)
    · exact h hmark
  have hvalid : c.val.toNat < 0xD800 ∨ 0xDFFF < c.val.toNat ∧ c.val.toNat < 0x110000 := c.valid
  have hc : Char.ofNat c.val.toNat = c := Char.ofNat_toNat c
  unfold String.utf8EncodeChar
  generalize c.val.toNat = v at hvalid hc
  simp only
  -- one case for each number of bytes; `v` is put together again from the bits the bytes carry
  split
  · have hstep : step { started := started } v = ([c], { started := true }) := by
      unfold step lead
      rw [if_pos rfl, if_pos (by omega), hc, hemit]
    rw [run_ofNat _ (by omega), hstep]
    rfl
  split
  · have hcode : (v / 64 % 32 + 192 - 192) * 64 + (v % 64 + 128 - 128) = v := by omega
    rw [run_two (by omega), run_last (by omega) (by omega), hcode, hc, hemit]
  split
  · have hcode : ((v / 4096 % 16 + 224 - 224) * 64 + (v / 64 % 64 + 128 - 128)) * 64
        + (v % 64 + 128 - 128) = v := by omega
    have hlower : (if v / 4096 % 16 + 224 = 0xE0 then 0xA0 else 0x80) ≤ v / 64 % 64 + 128 := by
      split <;> omega
    have hupper : v / 64 % 64 + 128 ≤ (if v / 4096 % 16 + 224 = 0xED then 0x9F else 0xBF) := by
      split <;> omega
    rw [run_three (by omega), run_continue hlower hupper (by omega), run_last (by omega) (by omega),
      hcode, hc, hemit]
  · have hcode : (((v / 262144 % 8 + 240 - 240) * 64 + (v / 4096 % 64 + 128 - 128)) * 64
        + (v / 64 % 64 + 128 - 128)) * 64 + (v % 64 + 128 - 128) = v := by omega
    have hlower : (if v / 262144 % 8 + 240 = 0xF0 then 0x90 else 0x80) ≤ v / 4096 % 64 + 128 := by
      split <;> omega
    have hupper : v / 4096 % 64 + 128 ≤ (if v / 262144 % 8 + 240 = 0xF4 then 0x8F else 0xBF) := by
      split <;> omega
    rw [run_four (by omega), run_continue hlower hupper (by omega),
      run_continue (by omega) (by omega) (by omega), run_last (by omega) (by omega), hcode, hc, hemit]

/-- A text whose first character is no byte order mark decodes to itself. -/
theorem run_encode (chars : List Char) (started : Bool)
    (h : started = true ∨ chars.head? ≠ some byteOrderMark) :
    (run { started := started } (chars.flatMap String.utf8EncodeChar)).1 = chars := by
  induction chars generalizing started with
  | nil => rfl
  | cons c chars ih =>
      have hc : started = true ∨ c ≠ byteOrderMark := h.imp id fun hne heq => hne (by rw [heq]; rfl)
      rw [List.flatMap_cons, run_append, run_utf8EncodeChar c started hc, ih true (Or.inl rfl)]
      rfl

end Utf8.State

/-- Texts encoded one by one are their concatenation, encoded. -/
theorem flatMap_encodeUtf8 (texts : List String) :
    texts.flatMap encodeUtf8 = encodeUtf8 (String.ofList (texts.flatMap String.toList)) := by
  unfold encodeUtf8
  rw [String.toList_ofList, List.flatMap_assoc]

/-- **Encoded text decodes to itself**, unless it starts with a byte order mark. -/
theorem utf8_decode_encode {text : String} (h : text.toList.head? ≠ some Utf8.byteOrderMark) :
    utf8.decodeAll (encodeUtf8 text) = text := by
  show String.ofList (Utf8.State.run {} (text.toList.flatMap String.utf8EncodeChar)).1 = text
  rw [Utf8.State.run_encode text.toList false (Or.inr h), String.ofList_toList]

end Js
