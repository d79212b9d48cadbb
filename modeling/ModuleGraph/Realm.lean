import ModuleGraph.Script

/-!
Realms: the part of the world that belongs to one worker. A realm owns its objects and functions and
at most one instance of every module record.
-/
namespace ModuleGraph

/-- What an imported name stands for in the module that it comes from. -/
inductive ImportTarget where
  | binding (record : RecordId) (name : String)
  | namespace (record : RecordId)
  deriving DecidableEq, Repr

/-- The bindings that the body of a static module sees. Imported names are looked up in their
modules whenever they are read. -/
structure Environment where
  imports : List (String × ImportTarget) := []
  bindings : Properties := {}

/-- The content of a module's instance. -/
inductive Instance where
  | static (environment : Environment)
  /-- A wrapper-style module: what it exports now, and whether it said to be a static module. -/
  | wrapper (exports : Value) (isMarked : Bool)
  /-- A native host module: its named exports, ascending, and its default export. -/
  | native (named : Option (List (String × Value))) (default : Value)
  | legacy (value : Value)
  | custom (bindings : List (String × Value))

namespace Instance

/-- Gives a name of a static module a value. -/
def setBinding (name : String) (value : Value) : Instance → Instance
  | .static environment =>
    .static { environment with bindings := environment.bindings.set name value }
  | other => other

/-- Lets a wrapper-style module export something else. -/
def setExports (exports : Value) : Instance → Instance
  | .wrapper _ isMarked => .wrapper exports isMarked
  | other => other

/-- Says whether a wrapper-style module has said to be a static module. -/
def setMarked (isMarked : Bool) : Instance → Instance
  | .wrapper exports _ => .wrapper exports isMarked
  | other => other

end Instance

/-- How far the evaluation of an instance has come. -/
inductive InstanceStatus where
  | instantiated
  | evaluating
  | evaluated
  deriving DecidableEq, Repr

/-- The place of a module in a realm: its instance and the state of its evaluation. -/
structure Slot where
  instanceIndex : Nat
  status : InstanceStatus := .instantiated
  index : Nat := 0
  ancestor : Nat := 0
  error : Option ModuleError := none
  deriving DecidableEq

/-- A walk that evaluates a graph: where it began, the modules of its open components with the
latest on top, all modules that it has opened, and whose body is running. -/
structure Walk where
  root : RecordId
  stack : List RecordId := []
  opened : List RecordId := []
  running : Option RecordId := none
  deriving DecidableEq, Repr

/-- What calling a function does. -/
inductive FunctionCode where
  | script (code : List Value → Script)
  /-- Requires modules on behalf of a wrapper-style module. -/
  | require (referrer : RecordId)

/-- A realm. The first object is the global one; the innermost walk comes first. -/
structure Realm where
  objects : Array Properties := #[{}]
  functions : Array FunctionCode := #[]
  instances : Array Instance := #[]
  slots : List (RecordId × Slot) := []
  walks : List Walk := []

namespace Realm

instance : Inhabited Realm := ⟨{}⟩

/-- The slot of a record, if the realm has an instance of it. -/
def slot? (realm : Realm) (record : RecordId) : Option Slot := realm.slots.lookup record

/-- The instance of a record, if the realm has one. -/
def instance? (realm : Realm) (record : RecordId) : Option Instance :=
  (realm.slot? record).bind fun slot => realm.instances[slot.instanceIndex]?

/-- The state of a record's evaluation. -/
def status? (realm : Realm) (record : RecordId) : Option InstanceStatus :=
  (realm.slot? record).map Slot.status

/-- Adds an instance of a record and its slot. -/
def addInstance (realm : Realm) (record : RecordId) (content : Instance) : Realm :=
  { realm with
    instances := realm.instances.push content
    slots := realm.slots ++ [(record, { instanceIndex := realm.instances.size })] }

/-- Changes the slot of a record. -/
def modifySlot (realm : Realm) (record : RecordId) (change : Slot → Slot) : Realm :=
  { realm with
    slots := realm.slots.map fun entry =>
      if entry.1 = record then (entry.1, change entry.2) else entry }

/-- Changes an instance. -/
def modifyInstance (realm : Realm) (index : Nat) (change : Instance → Instance) : Realm :=
  { realm with instances := realm.instances.modify index change }

/-- Changes the innermost walk. -/
def modifyWalk (realm : Realm) (change : Walk → Walk) : Realm :=
  match realm.walks with
  | walk :: outer => { realm with walks := change walk :: outer }
  | [] => realm

/-- The modules of the innermost walk's open components. -/
def stack (realm : Realm) : List RecordId :=
  match realm.walks with
  | walk :: _ => walk.stack
  | [] => []

end Realm
end ModuleGraph
