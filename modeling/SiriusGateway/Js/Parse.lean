import SiriusGateway.Js.Value

/-!
# `Js.Parse` — `JSON.parse` and `JSON.stringify`

The JSON grammar as a recursive-descent parser over characters. Recursion is bounded by a fuel argument;
every call consumes a character first, so the length of the text is always enough.

A repeated key keeps its first position and takes its last value, as `JSON.parse` does.
-/

namespace Js

/-! ## Lexical elements -/

/-- The four white-space characters of the JSON grammar. -/
def skipWs (s : List Char) : List Char :=
  s.dropWhile fun c => c = ' ' || c = '\t' || c = '\n' || c = '\r'

/-- The value of a hexadecimal digit. -/
def hexDigit (c : Char) : Option Nat :=
  if c.isDigit then some (c.toNat - '0'.toNat)
  else if 'a' ≤ c ∧ c ≤ 'f' then some (c.toNat - 'a'.toNat + 10)
  else if 'A' ≤ c ∧ c ≤ 'F' then some (c.toNat - 'A'.toNat + 10)
  else none

/-- The code unit of a `\u` escape: its four digits and the text behind them. -/
def scanUnit : List Char → Option (Nat × List Char)
  | a :: b :: c :: d :: rest => do
      let n := ((← hexDigit a) * 4096) + ((← hexDigit b) * 256) + ((← hexDigit c) * 16) + (← hexDigit d)
      return (n, rest)
  | _ => none

/-- The character of a `\u` escape: a surrogate pair is one character, a lone surrogate U+FFFD. -/
def scanUnicode (s : List Char) : Option (Char × List Char) := do
  let (hi, rest) ← scanUnit s
  if 0xD800 ≤ hi ∧ hi ≤ 0xDBFF then
    match rest with
    | '\\' :: 'u' :: more =>
        let (lo, tail) ← scanUnit more
        if 0xDC00 ≤ lo ∧ lo ≤ 0xDFFF then
          return (Char.ofNat (0x10000 + (hi - 0xD800) * 0x400 + (lo - 0xDC00)), tail)
        else return (Char.ofNat 0xFFFD, rest)
    | _ => return (Char.ofNat 0xFFFD, rest)
  else if 0xDC00 ≤ hi ∧ hi ≤ 0xDFFF then return (Char.ofNat 0xFFFD, rest)
  else return (Char.ofNat hi, rest)

/-- The character a `\x` escape stands for. -/
def simpleEscape : Char → Option Char
  | '"' => some '"'
  | '\\' => some '\\'
  | '/' => some '/'
  | 'b' => some (Char.ofNat 8)
  | 'f' => some (Char.ofNat 12)
  | 'n' => some '\n'
  | 'r' => some '\r'
  | 't' => some '\t'
  | _ => none

/-- One character of a string literal, escapes decoded; control characters must be escaped. -/
def scanChar : List Char → Option (Char × List Char)
  | [] => none
  | c :: rest =>
      if c = '\\' then
        match rest with
        | [] => none
        | e :: more => if e = 'u' then scanUnicode more else (simpleEscape e).map fun ch => (ch, more)
      else if c.toNat < 0x20 then none
      else some (c, rest)

/-- The rest of a string literal after its opening quote: its characters and the text behind it. -/
def scanString : Nat → List Char → Option (List Char × List Char)
  | 0, _ => none
  | fuel + 1, s =>
      if s.head? = some '"' then some ([], s.tail)
      else do
        let (c, rest) ← scanChar s
        let (chars, tail) ← scanString fuel rest
        return (c :: chars, tail)

/-- A fraction: `.` and at least one digit, or nothing. -/
def scanFraction : List Char → Option (List Char × List Char)
  | [] => some ([], [])
  | c :: rest =>
      if c = '.' then
        let digits := rest.takeWhile Char.isDigit
        if digits = [] then none else some (digits, rest.dropWhile Char.isDigit)
      else some ([], c :: rest)

/-- A number: sign, integer part without leading zeros, fraction, exponent. -/
def scanNumber (s : List Char) : Option (Rat × List Char) := do
  let negative := s.head? = some '-'
  let body := if negative then s.tail else s
  let whole := body.takeWhile Char.isDigit
  if whole = [] ∨ (whole.head? = some '0' ∧ whole.length ≠ 1) then none
  else
    let (fraction, rest) ← scanFraction (body.dropWhile Char.isDigit)
    let (e, tail) ← scanExponent rest
    let q := scale10 (digitsValue (whole ++ fraction)) (e - fraction.length)
    return (if negative then -q else q, tail)

/-- Store a property: a repeated key keeps its place and takes the new value. -/
def putField (key : String) (v : Json) : List (String × Json) → List (String × Json)
  | [] => [(key, v)]
  | (k, w) :: rest => if k = key then (k, v) :: rest else (k, w) :: putField key v rest

/-! ## Values -/

mutual

/-- One value, leading white space skipped. -/
def scanValue : Nat → List Char → Option (Json × List Char)
  | 0, _ => none
  | fuel + 1, s =>
      let s := skipWs s
      if s.take 4 = "null".toList then some (.null, s.drop 4)
      else if s.take 4 = "true".toList then some (.bool true, s.drop 4)
      else if s.take 5 = "false".toList then some (.bool false, s.drop 5)
      else if s.head? = some '"' then
        (scanString fuel s.tail).map fun (chars, tail) => (.str (String.ofList chars), tail)
      else if s.head? = some '[' then
        if (skipWs s.tail).head? = some ']' then some (.arr [], (skipWs s.tail).tail)
        else (scanItems fuel s.tail).map fun (items, tail) => (.arr items, tail)
      else if s.head? = some '{' then
        if (skipWs s.tail).head? = some '}' then some (.obj [], (skipWs s.tail).tail)
        else (scanFields fuel [] s.tail).map fun (fields, tail) => (.obj fields, tail)
      else (scanNumber s).map fun (q, tail) => (.num q, tail)

/-- The elements of an array up to and including its closing bracket. -/
def scanItems : Nat → List Char → Option (List Json × List Char)
  | 0, _ => none
  | fuel + 1, s => do
      let (v, rest) ← scanValue fuel s
      let rest := skipWs rest
      if rest.head? = some ',' then
        (scanItems fuel rest.tail).map fun (items, tail) => (v :: items, tail)
      else if rest.head? = some ']' then some ([v], rest.tail)
      else none

/-- The members of an object up to and including its closing brace. -/
def scanFields : Nat → List (String × Json) → List Char → Option (List (String × Json) × List Char)
  | 0, _, _ => none
  | fuel + 1, fields, s => do
      let s := skipWs s
      if s.head? ≠ some '"' then none
      else
        let (key, rest) ← scanString fuel s.tail
        let rest := skipWs rest
        if rest.head? ≠ some ':' then none
        else
          let (v, rest) ← scanValue fuel rest.tail
          let fields := putField (String.ofList key) v fields
          let rest := skipWs rest
          if rest.head? = some ',' then scanFields fuel fields rest.tail
          else if rest.head? = some '}' then some (fields, rest.tail)
          else none

end

/-- `JSON.parse(text)`; `none` is the `SyntaxError`. -/
def jsonParse (text : String) : Option Json :=
  let chars := text.toList
  match scanValue (chars.length + 1) chars with
  | some (v, rest) => if skipWs rest = [] then some v else none
  | none => none

/-- `JSON.parse(raw)` on a value that need not be a string. -/
def parseJson (raw : JsValue) : Throws Json :=
  raw.toStr.bind fun text =>
    match jsonParse text with
    | some v => .ok v
    | none => .error (.syntaxError s!"\"{text}\" is not valid JSON")

/-- `JSON.parse` of a text that is one value. -/
theorem parseJson_of_jsonParse {text : String} {v : Json} (h : jsonParse text = some v) :
    parseJson (.json (.str text)) = .ok v := by
  unfold parseJson JsValue.toStr toStr
  simp only [Except.bind, h]

example : jsonParse "\x7b\"a\": [1, true, \"x\\u0041\"], \"a\": null\x7d" = some (.obj [("a", .null)]) := by
  decide +kernel

/-! ## `JSON.stringify` -/

/-- One character of a quoted string. -/
def quoteChar (c : Char) : List Char :=
  if c = '"' then ['\\', '"']
  else if c = '\\' then ['\\', '\\']
  else if c = '\n' then ['\\', 'n']
  else if c = '\r' then ['\\', 'r']
  else if c = '\t' then ['\\', 't']
  else if c.toNat = 8 then ['\\', 'b']
  else if c.toNat = 12 then ['\\', 'f']
  else if c.toNat < 0x20 then
    ['\\', 'u', '0', '0', Nat.digitChar (c.toNat / 16), Nat.digitChar (c.toNat % 16)]
  else [c]

/-- A string in quotes, escaped. -/
def quote (s : String) : String := "\"" ++ String.ofList (s.toList.flatMap quoteChar) ++ "\""

/-- The number of a property key that is an array index. -/
def arrayIndex (key : String) : Option Nat :=
  let digits := key.toList
  if digits = [] ∨ !digits.all Char.isDigit ∨ (digits.head? = some '0' ∧ digits.length ≠ 1) then none
  else
    let n := digitsValue digits
    if n < 4294967295 then some n else none

/-- Insert a property before the first one with a larger array index. -/
def insertByIndex {α : Type} (n : Nat) (e : String × α) : List (Nat × String × α) → List (Nat × String × α)
  | [] => [(n, e)]
  | (m, d) :: rest => if n < m then (n, e) :: (m, d) :: rest else (m, d) :: insertByIndex n e rest

/-- The order in which own properties are enumerated: array indices ascending, then the others as they were
    added. -/
def enumerationOrder {α : Type} (fields : List (String × α)) : List (String × α) :=
  let indexed := fields.foldl (fun sorted e => match arrayIndex e.1 with
    | some n => insertByIndex n e sorted
    | none => sorted) []
  indexed.map (·.2) ++ fields.filter fun e => (arrayIndex e.1).isNone

mutual

/-- `JSON.stringify(v)`. -/
def stringify : Json → String
  | .null => "null"
  | .bool b => if b then "true" else "false"
  | .num q => numToString q
  | .str s => quote s
  | .arr items => "[" ++ ",".intercalate (stringifyItems items) ++ "]"
  | .obj fields =>
      let shown := (enumerationOrder (stringifyFields fields)).map fun e => quote e.1 ++ ":" ++ e.2
      "\x7b" ++ ",".intercalate shown ++ "\x7d"

def stringifyItems : List Json → List String
  | [] => []
  | v :: rest => stringify v :: stringifyItems rest

def stringifyFields : List (String × Json) → List (String × String)
  | [] => []
  | (key, v) :: rest => (key, stringify v) :: stringifyFields rest

end

/-- `JSON.stringify` of any value: `undefined` has no text, `NaN` prints as `null`. -/
def stringifyValue : JsValue → JsValue
  | .undefined => .undefined
  | .nan => .json (.str "null")
  | .json v => .json (.str (stringify v))

end Js
