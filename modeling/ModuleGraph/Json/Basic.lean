import ModuleGraph.Number.Double
import ModuleGraph.Sorted

/-!
JSON documents. A number is an integer or a double as it was written, and the fields of an object
stand in ascending order of their names.
-/
namespace ModuleGraph

/-- A number of a document. -/
inductive Numeral where
  | integer (value : Int)
  | real (value : Double)
  deriving DecidableEq

/-- The double that a number denotes. -/
def Numeral.toDouble : Numeral → Double
  | .integer value => .ofInt value
  | .real value => value

/-- A JSON document. -/
inductive Json where
  | null
  | bool (value : Bool)
  | number (value : Numeral)
  | string (value : String)
  | array (items : List Json)
  | object (fields : List (String × Json))
  deriving Inhabited

namespace Json

/-- An object of fields in any order; the last field of a name counts. -/
def ofFields (fields : List (String × Json)) : Json := .object (Sorted.ofList fields)

/-- An integer. -/
def ofInt (value : Int) : Json := .number (.integer value)

/-- A natural number. -/
def ofNat (value : Nat) : Json := .number (.integer value)

/-- A field of an object. -/
def field? (document : Json) (name : String) : Option Json :=
  match document with
  | .object fields => fields.lookup name
  | _ => none

/-- The text of a string. -/
def string? : Json → Option String
  | .string value => some value
  | _ => none

/-- The items of an array. -/
def items? : Json → Option (List Json)
  | .array items => some items
  | _ => none

end Json
end ModuleGraph
