import ModuleGraph.Evaluation

/-!
What a worker asks of its modules: to run an entry script, to read exports, and to lay the exports
of a native host module out on the global object.
-/
namespace ModuleGraph

/-- The name of a module's shape. -/
def ModuleKind.name : ModuleKind → String
  | .native => "Native"
  | .legacy => "Legacy"
  | .wrapper => "Dynamic"
  | .static => "SourceText"

/-- What the workers of a world share: what the embedder supplies, and how deep modules may nest. -/
structure Setup where
  embedding : Embedding
  engine : Engine

namespace Setup

/-- The setup for an embedding that nests modules up to a depth. -/
def ofDepth (embedding : Embedding) (depth : Nat) : Setup := ⟨embedding, .ofDepth embedding depth⟩

/-- Links a record and what it requests. -/
def link (setup : Setup) (id : RecordId) : Attempt Unit :=
  setup.embedding.link setup.engine.depth id

/-- Evaluates a linked graph in a worker's realm. -/
def evaluate (setup : Setup) (realm : RealmId) (id : RecordId) : Action Settlement :=
  setup.engine.evaluateFrom realm id

/-- Registers an entry script under its location, and links and evaluates it with all that it
imports. A location that was registered before keeps its record. -/
def runEntry (setup : Setup) (realm : RealmId) (location : Url) (source : List UInt8) :
    Attempt RecordId := do
  let id ← setup.embedding.resolveLoaded location source
  setup.link id
  if !((← get).record id).isCyclic then pure id
  else
    match ← setup.evaluate realm id with
    | .fulfilled => pure id
    | .rejected error => throw error
    | .pending module => throw (.unsupportedTopLevelSuspension module)

/-- Reads an exported binding in a worker's realm. -/
def bindingValue (setup : Setup) (realm : RealmId) (id : RecordId) (name : String) :
    Action Value :=
  Action.readBinding setup.engine.depth realm id name

/-- Copies properties of an object onto the global object, key by key. -/
def copyGlobally (realm : RealmId) (exports : ObjectRef) : List String → Action Unit
  | [] => pure ()
  | key :: rest => do
    let value := ((← get).properties exports).get key
    Action.modifyObject (World.globalOf realm) (·.set key value)
    copyGlobally realm exports rest

/-- Copies every property of a native host module's default export onto the global object. -/
def exposeGlobally (setup : Setup) (realm : RealmId) (name : String) : Attempt Unit := do
  let id ← setup.embedding.resolve none name
  let kind := ((← get).record id).kind
  if kind ≠ .native then
    throw (.defect (name ++ " is a " ++ kind.name ++
      " module, only native host modules can be exposed globally"))
  else
    Action.instantiate setup.engine.depth realm id
    let default ← setup.bindingValue realm id "default"
    match default with
    | .object exports => copyGlobally realm exports ((← get).properties exports).keys
    | _ =>
      throw (.defect ("default export of " ++ name ++ " is a " ++ default.typeName ++
        ", not an object"))

end Setup
end ModuleGraph
