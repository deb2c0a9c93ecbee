import Mathlib.Algebra.Group.Int.Defs
import Mathlib.Algebra.Group.Nat.Defs
import Mathlib.Data.Rat.Defs
import Mathlib.Order.Basic

/-!
# `Js.Value` — JSON values under JavaScript's dynamic semantics

Request bodies and upstream payloads reach the gateway as the result of `JSON.parse`: any JSON value
may stand where the type annotations promise a string or an array. This module fixes what the language
does with such a value.

## Contents
- **Values.** `Json` (what `JSON.parse` returns) and `JsValue` (a JSON value, `undefined` or `NaN`).
- **Exceptions.** `JsError`, and `Throws α = Except JsError α` for code that may throw.
- **Coercions.** `truthy`, `nullish` (`??`), `getProp` (`v.key`), `optProp` (`v?.key`), `toStr`
  (`ToString`), `toNumber` (`ToNumber`) and the comparisons with a numeric literal.
- **Arrays and objects.** `arrayOf` (a call of an array method), `iterate` (`for … of`), `object` (a literal).

Numbers are exact rationals: `JSON.parse` does not round, and no JSON literal overflows to `Infinity`.
Strings are sequences of Unicode scalar values, so a lone surrogate is not representable.
-/

namespace Js

/-- A value `JSON.parse` can return. An object lists its own properties, oldest first. -/
inductive Json where
  | null
  | bool (b : Bool)
  | num (q : Rat)
  | str (s : String)
  | arr (items : List Json)
  | obj (fields : List (String × Json))
  deriving Repr

mutual

/-- Structural equality, the items and fields of containers compared in order. -/
def Json.same : Json → Json → Bool
  | .null, .null => true
  | .bool a, .bool b => a = b
  | .num a, .num b => a = b
  | .str a, .str b => a = b
  | .arr xs, .arr ys => sameItems xs ys
  | .obj xs, .obj ys => sameFields xs ys
  | _, _ => false

def sameItems : List Json → List Json → Bool
  | [], [] => true
  | x :: xs, y :: ys => x.same y && sameItems xs ys
  | _, _ => false

def sameFields : List (String × Json) → List (String × Json) → Bool
  | [], [] => true
  | (k, x) :: xs, (l, y) :: ys => k = l && x.same y && sameFields xs ys
  | _, _ => false

end

mutual

/-- The computed comparison of two values decides their equality. -/
theorem Json.same_iff : ∀ a b : Json, a.same b = true ↔ a = b
  | .null, b => by cases b <;> simp [Json.same]
  | .bool _, b => by cases b <;> simp [Json.same]
  | .num _, b => by cases b <;> simp [Json.same]
  | .str _, b => by cases b <;> simp [Json.same]
  | .arr xs, b => by
      cases b with
      | arr ys => simp [Json.same, sameItems_iff xs ys]
      | _ => simp [Json.same]
  | .obj xs, b => by
      cases b with
      | obj ys => simp [Json.same, sameFields_iff xs ys]
      | _ => simp [Json.same]

theorem sameItems_iff : ∀ xs ys : List Json, sameItems xs ys = true ↔ xs = ys
  | [], ys => by cases ys <;> simp [sameItems]
  | x :: xs, ys => by
      cases ys with
      | nil => simp [sameItems]
      | cons y ys => simp [sameItems, Json.same_iff x y, sameItems_iff xs ys]

theorem sameFields_iff : ∀ xs ys : List (String × Json), sameFields xs ys = true ↔ xs = ys
  | [], ys => by cases ys <;> simp [sameFields]
  | (k, x) :: xs, ys => by
      cases ys with
      | nil => simp [sameFields]
      | cons y ys =>
          obtain ⟨l, y⟩ := y
          simp [sameFields, Json.same_iff x y, sameFields_iff xs ys]

end

instance : DecidableEq Json := fun a b => decidable_of_iff _ (Json.same_iff a b)

/-- The value of an expression over JSON data: a JSON value, `undefined` or `NaN`. -/
inductive JsValue where
  | undefined
  | nan
  | json (v : Json)
  deriving Repr, DecidableEq

instance : Coe Json JsValue := ⟨JsValue.json⟩

/-- What a `throw` can carry. `http` is an `HttpException` with its OpenAI-style error body. -/
inductive JsError where
  | http (status : Nat) (message : String) (type : String) (code : Option String)
  | typeError (message : String)
  | syntaxError (message : String)
  | error (message : String)
  deriving Repr, DecidableEq

/-- The `message` property of the thrown error. -/
def JsError.message : JsError → String
  | .http _ message _ _ => message
  | .typeError message => message
  | .syntaxError message => message
  | .error message => message

/-- Code that returns a value or throws. -/
abbrev Throws := Except JsError

/-! ## Truthiness and the nullish operators -/

/-- `ToBoolean`. -/
def Json.truthy : Json → Bool
  | .null => false
  | .bool b => b
  | .num q => q ≠ 0
  | .str s => s ≠ ""
  | .arr _ => true
  | .obj _ => true

/-- `ToBoolean`; `undefined` and `NaN` are falsy. -/
def JsValue.truthy : JsValue → Bool
  | .undefined => false
  | .nan => false
  | .json v => v.truthy

/-- `v == null`. -/
def JsValue.isNullish : JsValue → Bool
  | .undefined => true
  | .json .null => true
  | _ => false

/-- `v !== undefined`. -/
def JsValue.isDefined : JsValue → Bool
  | .undefined => false
  | _ => true

/-- `v ?? w`. -/
def JsValue.orElse (v w : JsValue) : JsValue := if v.isNullish then w else v

@[simp] theorem truthy_json (v : Json) : (JsValue.json v).truthy = v.truthy := rfl
@[simp] theorem truthy_undefined : JsValue.undefined.truthy = false := rfl
@[simp] theorem truthy_nan : JsValue.nan.truthy = false := rfl
@[simp] theorem isNullish_undefined : JsValue.undefined.isNullish = true := rfl

/-- A truthy value is not nullish. -/
theorem isNullish_of_truthy {v : JsValue} (h : v.truthy = true) : v.isNullish = false := by
  cases v with
  | undefined => simp at h
  | nan => rfl
  | json j => cases j <;> first | rfl | simp [Json.truthy] at h

/-- A nullish value is falsy. -/
theorem truthy_of_isNullish {v : JsValue} (h : v.isNullish = true) : v.truthy = false := by
  cases htruthy : v.truthy with
  | false => rfl
  | true =>
      rw [isNullish_of_truthy htruthy] at h
      cases h

/-! ## Property access -/

/-- The own property `key` of an object; the first pair wins, as `JSON.parse` keeps keys distinct. -/
def lookup (key : String) : List (String × Json) → JsValue
  | [] => .undefined
  | (k, v) :: rest => if k = key then .json v else lookup key rest

/-- The object has an own property `key` (`Object.hasOwn`). -/
def hasOwn (key : String) (fields : List (String × Json)) : Bool :=
  fields.any (fun f => f.1 = key)

/-- `v.key` for a value that is neither `null` nor `undefined`. The keys this code base reads are own
    properties of plain objects, or the `length` of an array or a string; no other built-in has them. -/
def Json.prop (key : String) : Json → JsValue
  | .obj fields => lookup key fields
  | .arr items => if key = "length" then .json (.num items.length) else .undefined
  | .str s => if key = "length" then .json (.num s.length) else .undefined
  | _ => .undefined

/-- `v.key`: reading a property of `null` or `undefined` throws. -/
def getProp (v : JsValue) (key : String) : Throws JsValue :=
  match v with
  | .undefined => .error (.typeError s!"Cannot read properties of undefined (reading '{key}')")
  | .json .null => .error (.typeError s!"Cannot read properties of null (reading '{key}')")
  | .nan => .ok .undefined
  | .json j => .ok (j.prop key)

/-- `v?.key`: `undefined` on `null` and `undefined`. -/
def optProp (v : JsValue) (key : String) : JsValue :=
  match v with
  | .json j => j.prop key
  | _ => .undefined

/-- `v?.[0]`. -/
def first (v : JsValue) : JsValue :=
  match v with
  | .json (.arr (item :: _)) => .json item
  | .json (.str s) => match s.toList with
    | c :: _ => .json (.str (String.ofList [c]))
    | [] => .undefined
  | .json (.obj fields) => lookup "0" fields
  | _ => .undefined

/-- Strict equality with a string literal. -/
def JsValue.isStr (v : JsValue) (s : String) : Bool :=
  match v with
  | .json (.str t) => t = s
  | _ => false

/-- `typeof v === 'object' && v !== null`: an object or an array. -/
def Json.isObject : Json → Bool
  | .arr _ => true
  | .obj _ => true
  | _ => false

@[simp] theorem prop_null (key : String) : Json.null.prop key = .undefined := rfl
@[simp] theorem prop_obj (key : String) (fs : List (String × Json)) :
    (Json.obj fs).prop key = lookup key fs := rfl

/-- Being the string `s`, as an equation. -/
@[simp] theorem isStr_iff {v : JsValue} {s : String} : v.isStr s = true ↔ v = .json (.str s) := by
  unfold JsValue.isStr
  split
  · simp
  · rename_i h
    simp only [Bool.false_eq_true, false_iff]
    intro hv
    exact h s hv

/-- A property read succeeds exactly on the values that are not nullish. -/
theorem getProp_ok_iff {v : JsValue} {key : String} :
    (∃ w, getProp v key = .ok w) ↔ v.isNullish = false := by
  cases v with
  | undefined => simp [getProp, JsValue.isNullish]
  | nan => simp [getProp, JsValue.isNullish]
  | json j => cases j <;> simp [getProp, JsValue.isNullish]

/-- On a value that is not nullish the two accesses agree. -/
theorem getProp_eq {v : JsValue} (key : String) (h : v.isNullish = false) :
    getProp v key = .ok (optProp v key) := by
  cases v with
  | undefined => simp at h
  | nan => rfl
  | json j => cases j <;> first | rfl | simp [JsValue.isNullish] at h

/-- Where a plain member access succeeds, the optional one reads the same. -/
theorem optProp_of_getProp {v w : JsValue} {key : String} (h : getProp v key = .ok w) : optProp v key = w :=
  Except.ok.inj ((getProp_eq key (getProp_ok_iff.mp ⟨w, h⟩)).symm.trans h)

/-- A falsy value has no properties: it is no object, and of strings it is the empty one. -/
theorem optProp_of_falsy {v : JsValue} {key : String} (h : v.truthy = false) (hkey : key ≠ "length") :
    optProp v key = .undefined := by
  cases v with
  | json j =>
      cases j with
      | obj fields => exact absurd h (by simp [Json.truthy])
      | _ => simp [optProp, Json.prop, hkey]
  | _ => rfl

/-! ## Arrays and objects -/

/-- `typeof v === 'string'`. -/
def JsValue.isString : JsValue → Bool
  | .json (.str _) => true
  | _ => false

/-- Being a string, as an equation. -/
theorem isString_iff {v : JsValue} : v.isString = true ↔ ∃ s, v = .json (.str s) := by
  constructor
  · intro h
    unfold JsValue.isString at h
    split at h
    · exact ⟨_, rfl⟩
    · cases h
  · rintro ⟨s, rfl⟩
    rfl

/-- The JSON value, or `d` where there is none. -/
def JsValue.jsonD (v : JsValue) (d : Json) : Json :=
  match v with
  | .json j => j
  | _ => d

/-- `Array.isArray(v)`. -/
def JsValue.isArray : JsValue → Bool
  | .json (.arr _) => true
  | _ => false

/-- The elements `expr.method(...)` runs over, for a method only arrays have. No JSON value is callable, so
    an own property of that name is no method either. -/
def arrayOf (expr method : String) (v : JsValue) : Throws (List Json) :=
  match v with
  | .json (.arr items) => .ok items
  | v => (getProp v method).bind fun _ => .error (.typeError s!"{expr}.{method} is not a function")

/-- The elements of `for (const x of expr)`: those of an array, or the characters of a string. -/
def iterate (expr : String) (v : JsValue) : Throws (List Json) :=
  match v with
  | .json (.arr items) => .ok items
  | .json (.str s) => .ok (s.toList.map fun c => .str (String.ofList [c]))
  | _ => .error (.typeError s!"{expr} is not iterable")

/-- An object literal. A property whose value is `undefined` is left out: reading it is the same, and
    `JSON.stringify` skips it. -/
def object (fields : List (String × JsValue)) : Json :=
  .obj (fields.filterMap fun f => match f.2 with
    | .json v => some (f.1, v)
    | _ => none)

/-- A property's value after `JSON.stringify`: `undefined` is left out, `NaN` becomes `null`. -/
def JsValue.onWire : JsValue → Option Json
  | .undefined => none
  | .nan => some .null
  | .json v => some v

/-- An object literal as the other side of the wire parses it. -/
def wireObject (fields : List (String × JsValue)) : Json :=
  .obj (fields.filterMap fun f => f.2.onWire.map fun v => (f.1, v))

/-- A field that is read is no `NaN`. -/
theorem prop_ne_nan (j : Json) (key : String) : j.prop key ≠ .nan := by
  have hlookup : ∀ fields, lookup key fields ≠ .nan := by
    intro fields
    induction fields with
    | nil => simp [lookup]
    | cons field fields ih =>
        unfold lookup
        split
        · simp
        · exact ih
  cases j with
  | obj fields => exact hlookup fields
  | arr items => by_cases h : key = "length" <;> simp [Json.prop, h]
  | str s => by_cases h : key = "length" <;> simp [Json.prop, h]
  | null => simp [Json.prop]
  | bool b => simp [Json.prop]
  | num q => simp [Json.prop]

/-- Reading a property that was sent; the next field of that name shows when this one was left out. -/
@[simp] theorem prop_wireObject_cons {key k : String} {v : JsValue} {rest : List (String × JsValue)} :
    (wireObject ((k, v) :: rest)).prop key =
      if k = key then v.onWire.elim ((wireObject rest).prop key) .json
      else (wireObject rest).prop key := by
  cases hv : v.onWire with
  | none => simp [wireObject, hv]
  | some j => simp [wireObject, hv, lookup]

/-- Reading a member of an object put on the wire never throws. -/
@[simp] theorem getProp_wireObject {key : String} {fields : List (String × JsValue)} :
    getProp (.json (wireObject fields)) key = .ok ((wireObject fields).prop key) := rfl

@[simp] theorem optProp_wireObject {key : String} {fields : List (String × JsValue)} :
    optProp (.json (wireObject fields)) key = (wireObject fields).prop key := rfl

@[simp] theorem isObject_wireObject {fields : List (String × JsValue)} :
    (wireObject fields).isObject = true := rfl

@[simp] theorem prop_wireObject_nil {key : String} : (wireObject []).prop key = .undefined := rfl

@[simp] theorem onWire_json (v : Json) : (JsValue.json v).onWire = some v := rfl

/-- What is no `NaN` arrives as it was. -/
theorem elim_onWire {v : JsValue} (h : v ≠ .nan) : v.onWire.elim .undefined .json = v := by
  cases v with
  | undefined => rfl
  | nan => exact absurd rfl h
  | json j => rfl

/-- The property after `if (v) target.key = v`. -/
def JsValue.whenTruthy (v : JsValue) : JsValue := if v.truthy then v else .undefined

/-- Dropping a falsy value twice is dropping it once. -/
theorem whenTruthy_whenTruthy (v : JsValue) : v.whenTruthy.whenTruthy = v.whenTruthy := by
  unfold JsValue.whenTruthy
  by_cases h : v.truthy = true <;> simp [h]

/-- A value is dropped exactly when it is falsy. -/
theorem whenTruthy_eq_undefined_iff {v : JsValue} : JsValue.undefined = v.whenTruthy ↔ v.truthy = false := by
  unfold JsValue.whenTruthy
  cases h : v.truthy with
  | false => simp
  | true =>
      cases v with
      | undefined => cases h
      | nan => cases h
      | json j => simp

/-- `NaN` is falsy, so it is never kept. -/
theorem whenTruthy_ne_nan (v : JsValue) : v.whenTruthy ≠ .nan := by
  unfold JsValue.whenTruthy
  cases v with
  | undefined => simp
  | nan => simp
  | json j => split <;> simp

/-! ## `ToString` -/

/-- The fractional digits of `r / den` (`r < den`), at most `fuel` of them. -/
def fractionDigits (den : Nat) : Nat → Nat → List Char
  | 0, _ => []
  | fuel + 1, r =>
      if r = 0 then [] else Nat.digitChar (10 * r / den) :: fractionDigits den fuel (10 * r % den)

/-- `Number::toString` of a number in plain decimal notation. -/
def numToString (q : Rat) : String :=
  let whole := q.num.natAbs / q.den
  let digits := fractionDigits q.den q.den (q.num.natAbs % q.den)
  let sign := if q.num < 0 then "-" else ""
  if digits = [] then sign ++ toString whole
  else sign ++ toString whole ++ "." ++ String.ofList digits

mutual

/-- `ToString`. A plain object prints as `[object Object]`; an own `toString` property hides the
    inherited method, JSON has no callable value to put there, and `valueOf` yields no primitive. -/
def toStr : Json → Throws String
  | .null => .ok "null"
  | .bool true => .ok "true"
  | .bool false => .ok "false"
  | .num q => .ok (numToString q)
  | .str s => .ok s
  | .arr items => (elemStrs items).map (",".intercalate ·)
  | .obj fields =>
      if hasOwn "toString" fields then .error (.typeError "Cannot convert object to primitive value")
      else .ok "[object Object]"

/-- The element strings `Array.prototype.join` concatenates: `null` counts as the empty string. -/
def elemStrs : List Json → Throws (List String)
  | [] => .ok []
  | .null :: rest => (elemStrs rest).map ("" :: ·)
  | v :: rest => (toStr v).bind fun s => (elemStrs rest).map (s :: ·)

end

/-- `ToString` of any value. -/
def JsValue.toStr : JsValue → Throws String
  | .undefined => .ok "undefined"
  | .nan => .ok "NaN"
  | .json v => Js.toStr v

/-- One element string of `join`: `null` and `undefined` count as the empty string. -/
def joinElem (v : JsValue) : Throws String := if v.isNullish then .ok "" else v.toStr

/-- `values.join(sep)`. -/
def join (sep : String) (values : List JsValue) : Throws String :=
  (values.mapM joinElem).map (sep.intercalate ·)

/-! ## `ToNumber` and comparison with a literal -/

/-- The number types' values. -/
inductive JsNumber where
  | nan
  | infinity (negative : Bool)
  | finite (q : Rat)
  deriving Repr

/-- `x < q` for a numeric literal `q`; `NaN` compares false. -/
def JsNumber.lt (x : JsNumber) (q : Rat) : Bool :=
  match x with
  | .nan => false
  | .infinity negative => negative
  | .finite p => p < q

/-- `x > q` for a numeric literal `q`; `NaN` compares false. -/
def JsNumber.gt (x : JsNumber) (q : Rat) : Bool :=
  match x with
  | .nan => false
  | .infinity negative => !negative
  | .finite p => q < p

/-- The white space `String.prototype.trim` and the numeric grammar skip (`WhiteSpace` and
    `LineTerminator`). -/
def isSpace (c : Char) : Bool :=
  c.toNat ∈ [0x9, 0xA, 0xB, 0xC, 0xD, 0x20, 0xA0, 0x1680, 0x2028, 0x2029, 0x202F, 0x205F, 0x3000, 0xFEFF]
    || (0x2000 ≤ c.toNat && c.toNat ≤ 0x200A)

/-- `s.trim()` on the characters of `s`. -/
def trimChars (s : List Char) : List Char :=
  ((s.dropWhile isSpace).reverse.dropWhile isSpace).reverse

/-- `s.trim()`. -/
def trim (s : String) : String := String.ofList (trimChars s.toList)

/-- The value of a run of decimal digits. -/
def digitsValue (ds : List Char) : Nat := ds.foldl (fun n c => 10 * n + (c.toNat - '0'.toNat)) 0

/-- `m · 10 ^ e`. -/
def scale10 (m : Int) (e : Int) : Rat :=
  if 0 ≤ e then ((m * 10 ^ e.toNat : Int) : Rat) else mkRat m (10 ^ (-e).toNat)

/-- `ExponentPart`: an optional signed exponent; `none` when the text after `e` is not one. -/
def scanExponent : List Char → Option (Int × List Char)
  | c :: rest =>
      if c = 'e' ∨ c = 'E' then
        let (negative, body) := match rest with
          | '+' :: r => (false, r)
          | '-' :: r => (true, r)
          | r => (false, r)
        let ds := body.takeWhile Char.isDigit
        if ds = [] then none
        else
          let n : Int := digitsValue ds
          some (if negative then -n else n, body.dropWhile Char.isDigit)
      else some (0, c :: rest)
  | [] => some (0, [])

/-- `StrUnsignedDecimalLiteral`: digits with an optional fraction and exponent, all of the text. -/
def unsignedDecimal (s : List Char) : Option Rat :=
  let whole := s.takeWhile Char.isDigit
  let rest := s.dropWhile Char.isDigit
  let (fraction, rest) := match rest with
    | '.' :: r => (r.takeWhile Char.isDigit, r.dropWhile Char.isDigit)
    | r => ([], r)
  if whole = [] ∧ fraction = [] then none
  else
    match scanExponent rest with
    | some (e, []) => some (scale10 (digitsValue (whole ++ fraction)) (e - fraction.length))
    | _ => none

/-- The digits of a `0x`/`0o`/`0b` literal. -/
def radixValue (radix : Nat) (ds : List Char) : Option Rat :=
  let digit (c : Char) : Nat :=
    if c.isDigit then c.toNat - '0'.toNat
    else if 'a' ≤ c ∧ c ≤ 'z' then c.toNat - 'a'.toNat + 10
    else if 'A' ≤ c ∧ c ≤ 'Z' then c.toNat - 'A'.toNat + 10
    else 36
  if ds ≠ [] ∧ ds.all (fun c => digit c < radix) then
    some ((ds.foldl (fun n c => radix * n + digit c) 0 : Nat) : Rat)
  else none

/-- `StringToNumber`. -/
def stringToNumber (s : String) : JsNumber :=
  let finiteOrNan (r : Option Rat) : JsNumber := match r with
    | some q => .finite q
    | none => .nan
  match trimChars s.toList with
  | [] => .finite 0
  | '0' :: 'x' :: ds => finiteOrNan (radixValue 16 ds)
  | '0' :: 'X' :: ds => finiteOrNan (radixValue 16 ds)
  | '0' :: 'o' :: ds => finiteOrNan (radixValue 8 ds)
  | '0' :: 'O' :: ds => finiteOrNan (radixValue 8 ds)
  | '0' :: 'b' :: ds => finiteOrNan (radixValue 2 ds)
  | '0' :: 'B' :: ds => finiteOrNan (radixValue 2 ds)
  | c :: rest =>
      let body := if c = '+' ∨ c = '-' then rest else c :: rest
      if body = "Infinity".toList then .infinity (c = '-')
      else match unsignedDecimal body with
        | some q => .finite (if c = '-' then -q else q)
        | none => .nan

/-- `ToNumber`. Arrays and objects go through `ToPrimitive` first, which is their `ToString`: the
    inherited `valueOf` returns no primitive, and an own one is not callable. -/
def Json.toNumber : Json → Throws JsNumber
  | .null => .ok (.finite 0)
  | .bool b => .ok (.finite (if b then 1 else 0))
  | .num q => .ok (.finite q)
  | .str s => .ok (stringToNumber s)
  | .arr items => (toStr (.arr items)).map stringToNumber
  | .obj fields => (toStr (.obj fields)).map stringToNumber

/-- `ToNumber` of any value. -/
def JsValue.toNumber : JsValue → Throws JsNumber
  | .undefined => .ok .nan
  | .nan => .ok .nan
  | .json v => v.toNumber

/-- `ToPrimitive` without a hint. -/
def JsValue.toPrimitive : JsValue → Throws JsValue
  | .json (.arr items) => (Js.toStr (.arr items)).map fun s => .json (.str s)
  | .json (.obj fields) => (Js.toStr (.obj fields)).map fun s => .json (.str s)
  | v => .ok v

/-- `a + b`: concatenation when either operand is a string, the numeric sum otherwise. -/
def JsValue.add (a b : JsValue) : Throws JsValue := do
  let p ← a.toPrimitive
  let q ← b.toPrimitive
  match p, q with
  | .json (.str s), _ => return .json (.str (s ++ (← q.toStr)))
  | _, .json (.str t) => return .json (.str ((← p.toStr) ++ t))
  | _, _ =>
      match ← p.toNumber, ← q.toNumber with
      | .finite x, .finite y => return .json (.num (x + y))
      | _, _ => return .nan

@[simp] theorem add_num (x y : Rat) :
    JsValue.add (.json (.num x)) (.json (.num y)) = .ok (.json (.num (x + y))) := rfl

end Js
