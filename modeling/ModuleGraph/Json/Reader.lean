import ModuleGraph.Json.Basic
import ModuleGraph.Number.Numeral
import ModuleGraph.Text.Digits

/-!
Reading JSON text. A numeral without point and exponent is an integer while it fits 64 bits, and
every other numeral is the nearest double; minus zero is a double.
-/
namespace ModuleGraph
namespace Json

/-- Skips the blanks of JSON. -/
def skipBlanks (text : List Char) : List Char :=
  text.dropWhile fun c => c = ' ' ∨ c = '\n' ∨ c = '\r' ∨ c = '\t'

/-- The value of four hexadecimal digits and what follows them. -/
def hexUnit? : List Char → Option (Nat × List Char)
  | a :: b :: c :: d :: rest => do
    let a ← Text.hexDigit? a
    let b ← Text.hexDigit? b
    let c ← Text.hexDigit? c
    let d ← Text.hexDigit? d
    pure (a * 4096 + b * 256 + c * 16 + d, rest)
  | _ => none

/-- A character given by one unit, or by a leading and a trailing unit together. -/
def escapedUnit? (text : List Char) : Option (Char × List Char) := do
  let (unit, rest) ← hexUnit? text
  if 0xD800 ≤ unit ∧ unit < 0xDC00 then
    match rest with
    | '\\' :: 'u' :: rest =>
      let (second, rest) ← hexUnit? rest
      if 0xDC00 ≤ second ∧ second < 0xE000 then
        pure (Char.ofNat (0x10000 + (unit - 0xD800) * 0x400 + (second - 0xDC00)), rest)
      else none
    | _ => none
  else if 0xDC00 ≤ unit ∧ unit < 0xE000 then none
  else pure (Char.ofNat unit, rest)

/-- The character of an escape, after its backslash. -/
def escaped? : List Char → Option (Char × List Char)
  | '"' :: rest => some ('"', rest)
  | '\\' :: rest => some ('\\', rest)
  | '/' :: rest => some ('/', rest)
  | 'b' :: rest => some ('\x08', rest)
  | 'f' :: rest => some ('\x0c', rest)
  | 'n' :: rest => some ('\n', rest)
  | 'r' :: rest => some ('\r', rest)
  | 't' :: rest => some ('\t', rest)
  | 'u' :: rest => escapedUnit? rest
  | _ => none

/-- The characters of a string up to its closing quote, and what follows the quote. -/
def stringBody? : Nat → List Char → Option (List Char × List Char)
  | 0, _ => none
  | fuel + 1, text =>
    match text with
    | '"' :: rest => some ([], rest)
    | '\\' :: rest => do
      let (c, rest) ← escaped? rest
      let (tail, rest) ← stringBody? fuel rest
      pure (c :: tail, rest)
    | c :: rest =>
      if c.toNat < 0x20 then none
      else do
        let (tail, rest) ← stringBody? fuel rest
        pure (c :: tail, rest)
    | [] => none

/-- The digits of a whole number: a zero alone, or digits that do not begin with one. -/
def wholeDigits? (text : List Char) : Option (List Char × List Char) :=
  match text with
  | '0' :: rest => some (['0'], rest)
  | text =>
    let (digits, rest) := Decimal.splitDigits text
    if digits.isEmpty then none else some (digits, rest)

/-- The digits after a point, if there is one. -/
def fractionDigits? (text : List Char) : Option (List Char × List Char) :=
  match text with
  | '.' :: rest =>
    let (digits, rest) := Decimal.splitDigits rest
    if digits.isEmpty then none else some (digits, rest)
  | text => some ([], text)

/-- Whether an integer is kept as one: it fits a signed or an unsigned word of 64 bits. -/
def fitsWord (negative : Bool) (digits : Nat) : Bool :=
  if negative then 0 < digits && digits ≤ Nat.pow 2 63 else digits < Nat.pow 2 64

/-- A numeral. -/
def numeral? (text : List Char) : Option (Numeral × List Char) := do
  let (negative, text) :=
    match text with
    | '-' :: rest => (true, rest)
    | text => (false, text)
  let (whole, afterWhole) ← wholeDigits? text
  let (fraction, afterFraction) ← fractionDigits? afterWhole
  let (exponent, rest) ← Decimal.exponent? afterFraction
  let digits := Decimal.digitsValue (whole ++ fraction)
  if rest.length = afterWhole.length ∧ fitsWord negative digits then
    pure (.integer (if negative then -(digits : Int) else digits), rest)
  else
    pure (.real (.ofDecimal negative digits (exponent - fraction.length)), rest)

mutual

/-- One document, and what follows it. -/
def document? : Nat → List Char → Option (Json × List Char)
  | 0, _ => none
  | fuel + 1, text =>
    match skipBlanks text with
    | 'n' :: 'u' :: 'l' :: 'l' :: rest => some (.null, rest)
    | 't' :: 'r' :: 'u' :: 'e' :: rest => some (.bool true, rest)
    | 'f' :: 'a' :: 'l' :: 's' :: 'e' :: rest => some (.bool false, rest)
    | '"' :: rest => do
      let (value, rest) ← stringBody? (rest.length + 1) rest
      pure (.string (String.ofList value), rest)
    | '[' :: rest =>
      match skipBlanks rest with
      | ']' :: rest => some (.array [], rest)
      | rest => do
        let (items, rest) ← itemsAfter? fuel rest
        pure (.array items, rest)
    | '\x7b' :: rest =>
      match skipBlanks rest with
      | '\x7d' :: rest => some (.object [], rest)
      | rest => do
        let (fields, rest) ← fieldsAfter? fuel rest
        pure (.ofFields fields, rest)
    | text => do
      let (value, rest) ← numeral? text
      pure (.number value, rest)

/-- The items of an array that holds at least one more. -/
def itemsAfter? : Nat → List Char → Option (List Json × List Char)
  | 0, _ => none
  | fuel + 1, text => do
    let (item, rest) ← document? fuel text
    match skipBlanks rest with
    | ',' :: rest =>
      let (items, rest) ← itemsAfter? fuel rest
      pure (item :: items, rest)
    | ']' :: rest => pure ([item], rest)
    | _ => none

/-- The fields of an object that holds at least one more. -/
def fieldsAfter? : Nat → List Char → Option (List (String × Json) × List Char)
  | 0, _ => none
  | fuel + 1, text =>
    match skipBlanks text with
    | '"' :: rest => do
      let (name, rest) ← stringBody? (rest.length + 1) rest
      match skipBlanks rest with
      | ':' :: rest =>
        let (value, rest) ← document? fuel rest
        let field := (String.ofList name, value)
        match skipBlanks rest with
        | ',' :: rest =>
          let (fields, rest) ← fieldsAfter? fuel rest
          pure (field :: fields, rest)
        | '\x7d' :: rest => pure ([field], rest)
        | _ => none
      | _ => none
    | _ => none

end

/-- Reads a text that is one document and blanks. -/
def ofText? (text : String) : Option Json := do
  let characters := text.toList
  let (document, rest) ← document? (2 * characters.length + 2) characters
  if (skipBlanks rest).isEmpty then pure document else none

end Json
end ModuleGraph
