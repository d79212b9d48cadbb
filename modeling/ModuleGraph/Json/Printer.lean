import ModuleGraph.Json.Basic
import ModuleGraph.Number.Shortest

/-!
Printing JSON text on one line. A double that is no integer text of JSON is printed as an object
that names its text.
-/
namespace ModuleGraph
namespace Json

/-- Two hexadecimal digits. -/
def hexPair (n : Nat) : String :=
  String.ofList [Nat.digitChar (n / 16), Nat.digitChar (n % 16)]

/-- A character inside a string. -/
def printChar (c : Char) : String :=
  match c with
  | '"' => "\\\""
  | '\\' => "\\\\"
  | '\n' => "\\n"
  | '\r' => "\\r"
  | '\t' => "\\t"
  | c => if c.toNat < 0x20 then "\\u00" ++ hexPair c.toNat else c.toString

/-- A string with its quotes. -/
def printString (text : String) : String :=
  "\"" ++ String.join (text.toList.map printChar) ++ "\""

/-- A number. -/
def printNumeral : Numeral → String
  | .integer value => toString value
  | .real value => "\x7b\"$float\":" ++ printString value.toText ++ "\x7d"

mutual

/-- A document on one line. -/
def print : Json → String
  | .null => "null"
  | .bool value => if value then "true" else "false"
  | .number value => printNumeral value
  | .string value => printString value
  | .array items => "[" ++ printItems items ++ "]"
  | .object fields => "\x7b" ++ printFields fields ++ "\x7d"

/-- Items with commas between them. -/
def printItems : List Json → String
  | [] => ""
  | [item] => print item
  | item :: rest => print item ++ "," ++ printItems rest

/-- Fields with commas between them. -/
def printFields : List (String × Json) → String
  | [] => ""
  | [(name, value)] => printString name ++ ":" ++ print value
  | (name, value) :: rest => printString name ++ ":" ++ print value ++ "," ++ printFields rest

end

end Json
end ModuleGraph
