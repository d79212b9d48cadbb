import ModuleGraph.Error
import ModuleGraph.Json.Basic
import ModuleGraph.Value.Properties

/-!
Compiled scripts as trees of actions: each node is one thing that a script asks of the world it runs
in, with what it does next for every answer.
-/
namespace ModuleGraph

/-- A module record; its index tells it from all others. -/
structure RecordId where
  index : Nat
  deriving DecidableEq, Repr

/-- The bindings of a static module's instance in a realm. -/
structure EnvironmentRef where
  realm : RealmId
  instanceIndex : Nat
  deriving DecidableEq, Repr

/-- How the evaluation of a module graph ended. -/
inductive Settlement where
  /-- Every module ran to its end. -/
  | fulfilled
  /-- A module failed. -/
  | rejected (error : ModuleError)
  /-- A module would have had to wait. -/
  | pending (location : String)
  deriving DecidableEq

/-- What a script has its world write down. -/
inductive Announcement where
  | log (value : Value)
  | json (value : Value)
  | settled (name : String) (settlement : Settlement)
  /-- That something with a name happened, in which worker if that matters. -/
  | happened (label name : String) (inWorker : Bool)

/-- A script. -/
inductive Script where
  /-- Ends with a value or an exception. -/
  | done (outcome : Except Exception Value)
  /-- Makes an object. -/
  | newObject (properties : Properties) (next : ObjectRef → Script)
  /-- Looks at an object. -/
  | inspect (object : ObjectRef) (next : Properties → Script)
  /-- Sets a property. -/
  | setProperty (object : ObjectRef) (key : String) (value : Value) (next : Script)
  /-- Deletes a property and learns whether there was one. -/
  | deleteProperty (object : ObjectRef) (key : String) (next : Bool → Script)
  /-- Makes a function. -/
  | newFunction (name : String) (code : List Value → Script) (next : FunctionRef → Script)
  /-- Calls a function. -/
  | call (function : FunctionRef) (arguments : List Value)
      (next : Except Exception Value → Script)
  /-- Reads a binding of a static module. -/
  | readBinding (environment : EnvironmentRef) (name : String) (next : Value → Script)
  /-- Writes a binding of a static module; imported ones refuse. -/
  | writeBinding (environment : EnvironmentRef) (name : String) (value : Value)
      (next : Option Exception → Script)
  /-- Learns whether a binding of a static module is imported. -/
  | isImport (environment : EnvironmentRef) (name : String) (next : Bool → Script)
  /-- Learns which object is the global one. -/
  | globalObject (next : ObjectRef → Script)
  /-- Learns which realm it runs in. -/
  | currentRealm (next : RealmId → Script)
  /-- Evaluates a module graph. -/
  | evaluate (record : RecordId) (next : Settlement → Script)
  /-- Has something written down. -/
  | announce (announcement : Announcement) (next : Script)
  /-- Ends the discovery of modules. -/
  | lock (next : Script)

namespace Script

instance : Inhabited Script := ⟨.done (.ok .undefined)⟩

/-- Ends with a value. -/
def give (value : Value) : Script := .done (.ok value)

/-- Ends with an exception. -/
def raise (exception : Exception) : Script := .done (.error exception)

mutual

/-- Builds the value of a document. An array becomes an object with its items under their indices
and its length under `length`. -/
def ofJson (document : Json) (next : Value → Script) : Script :=
  match document with
  | .null => next .null
  | .bool value => next (.bool value)
  | .number value => next (.number value.toDouble)
  | .string value => next (.string value)
  | .array items =>
    ofItems 0 items fun entries =>
      let length := ("length", Value.number (.ofInt items.length))
      .newObject (.ofEntries (entries ++ [length])) fun ref => next (.object ref)
  | .object fields =>
    ofFields fields fun entries => .newObject (.ofEntries entries) fun ref => next (.object ref)

/-- Builds the values of items, keyed by their indices. -/
def ofItems (index : Nat) (items : List Json) (next : List (String × Value) → Script) : Script :=
  match items with
  | [] => next []
  | item :: rest =>
    ofJson item fun value =>
      ofItems (index + 1) rest fun entries => next ((toString index, value) :: entries)

/-- Builds the values of fields. -/
def ofFields (fields : List (String × Json)) (next : List (String × Value) → Script) : Script :=
  match fields with
  | [] => next []
  | (name, document) :: rest =>
    ofJson document fun value => ofFields rest fun entries => next ((name, value) :: entries)

end

end Script
end ModuleGraph
