import ModuleGraph.Number.Shortest

/-!
Script values. Objects and functions are references into the heap of the realm that made them, so
that two of them are equal exactly when they are the same one.
-/
namespace ModuleGraph

/-- Who makes objects and functions: the embedder before any worker runs, or a worker in its realm.
-/
inductive RealmId where
  | embedder
  | worker (number : Nat)
  deriving DecidableEq, Repr

namespace RealmId

/-- The number that scripts of the realm see; the embedder's own scripts see zero. -/
def number : RealmId → Nat
  | .embedder => 0
  | .worker number => number

/-- The name that scripts of the realm see. -/
def text (realm : RealmId) : String := "worker-" ++ toString realm.number

end RealmId

/-- An object of a realm's heap. -/
structure ObjectRef where
  realm : RealmId
  index : Nat
  deriving DecidableEq, Repr

/-- A function of a realm's heap, with its name. -/
structure FunctionRef where
  realm : RealmId
  index : Nat
  name : String
  deriving DecidableEq, Repr

/-- A script value. -/
inductive Value where
  | undefined
  | null
  | bool (value : Bool)
  | number (value : Double)
  | string (value : String)
  | object (ref : ObjectRef)
  | function (ref : FunctionRef)
  deriving DecidableEq

namespace Value

instance : Inhabited Value := ⟨.undefined⟩

/-- Whether the value is undefined or null. -/
def isNullish : Value → Bool
  | .undefined | .null => true
  | _ => false

/-- Whether scripts take the value for a truth. -/
def isTruthy : Value → Bool
  | .undefined | .null => false
  | .bool value => value
  | .number value => value.isTruthy
  | .string value => !value.isEmpty
  | .object _ | .function _ => true

/-- The name of the value's type. -/
def typeName : Value → String
  | .undefined => "undefined"
  | .null => "object"
  | .bool _ => "boolean"
  | .number _ => "number"
  | .string _ => "string"
  | .object _ => "object"
  | .function _ => "function"

/-- The object, if the value is one. -/
def object? : Value → Option ObjectRef
  | .object ref => some ref
  | _ => none

/-- The function, if the value is one. -/
def function? : Value → Option FunctionRef
  | .function ref => some ref
  | _ => none

/-- The text, if the value is one. -/
def string? : Value → Option String
  | .string value => some value
  | _ => none

/-- The text that a value is shown as. -/
def display : Value → String
  | .undefined => "undefined"
  | .null => "null"
  | .bool value => if value then "true" else "false"
  | .number value => value.toText
  | .string value => value
  | .object _ => "[object Object]"
  | .function ref => "[Function: " ++ ref.name ++ "]"

/-- Equality as scripts see it: not-a-number differs from itself, and objects and functions are
equal when they are the same. -/
def agrees : Value → Value → Bool
  | .undefined, .undefined => true
  | .null, .null => true
  | .bool a, .bool b => a == b
  | .number a, .number b => a.agrees b
  | .string a, .string b => a == b
  | .object a, .object b => a == b
  | .function a, .function b => a == b
  | _, _ => false

end Value
end ModuleGraph
