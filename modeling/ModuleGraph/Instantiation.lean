import ModuleGraph.Running

/-!
Instances of modules in a realm: a record is instantiated at most once, and a host module settles
its exported names then.
-/
namespace ModuleGraph
namespace Action

/-- The imported names of a static module with what they stand for; the last import of a name
counts. -/
def importsOf (module : StaticModule) : Except ModuleError (List (String × ImportTarget)) :=
  module.declarations.imports.foldlM (fun imports statement =>
    match module.requested.lookup statement.specifier with
    | none => .error (.defect (statement.specifier ++ " was not resolved"))
    | some record =>
      .ok (statement.names.foldl (fun imports name =>
        let target :=
          match name with
          | .default _ => ImportTarget.binding record "default"
          | .named imported _ => .binding record imported
          | .namespace _ => .namespace record
        (name.localName, target) :: imports) imports)) []

/-- The object that an embedder's code takes for the global one when it works for a realm. -/
def globalFor (realm : RealmId) : Workplace → Action ObjectRef
  | .given => pure (World.globalOf realm)
  | .own => newObject realm {}

/-- The values of named scripts of the embedder's. -/
def namedValues (depth : Nat) (realm : RealmId) (global : ObjectRef) :
    List (String × Script) → Action (List (String × Value))
  | [] => pure []
  | (name, script) :: rest => do
    let value ← valueApart depth realm global script
    let others ← namedValues depth realm global rest
    pure ((name, value) :: others)

/-- The values of declared named exports, ascending by name. -/
def namedExports (depth : Nat) (realm : RealmId) (global : ObjectRef) :
    Option (List (String × Script)) → Action (Option (List (String × Value)))
  | some scripts => some <$> Sorted.ofList <$> namedValues depth realm global scripts
  | none => pure none

/-- The value of a declared default export. -/
def defaultExport (depth : Nat) (realm : RealmId) (global : ObjectRef) :
    Option Script → Action (Option Value)
  | some script => some <$> valueApart depth realm global script
  | none => pure none

/-- The instance of a native host module. Without a declared default export it has an object of its
named exports for one. -/
def nativeInstance (depth : Nat) (realm : RealmId) (id : RecordId) (name : String)
    (exports : NativeExports) : Action Instance := do
  let world ← get
  write (world.eventOf realm (.happened "native" name true))
  let global ← globalFor realm exports.workplace
  let named ← namedExports depth realm global exports.named
  let declared ← defaultExport depth realm global exports.default
  publishNames depth id ((named.getD []).map Prod.fst)
  match declared with
  | some value => pure (.native named value)
  | none =>
    let ref ← newObject realm (.ofEntries (named.getD []))
    pure (.native named (.object ref))

/-- The instance of a host module that is one value; its keys are the exported names. -/
def legacyInstance (depth : Nat) (realm : RealmId) (id : RecordId) (name : String)
    (workplace : Workplace) (script : Script) : Attempt Instance := do
  let global ← globalFor realm workplace
  let value ← valueApart depth realm global script
  if value.isNullish then
    throw (.defect ("host module " ++ name ++ " projected to " ++ value.display))
  else
    let keys := (← get).keys value
    publishNames depth id keys
    pure (.legacy value)

/-- What an instance of a record begins with. -/
def newInstance (depth : Nat) (realm : RealmId) (id : RecordId) : Attempt Instance := do
  match (← get).record id with
  | .static module =>
    match module.status with
    | .failed error => throw error
    | .linked =>
      match importsOf module with
      | .ok imports => pure (.static { imports })
      | .error error => throw error
    | _ => throw (.defect (module.location.toText ++ " was instantiated before it was linked"))
  | .wrapper _ => pure (.wrapper .undefined false)
  | .host module =>
    match module.content with
    | .native exports => nativeInstance depth realm id module.name exports
    | .document json => legacyInstance depth realm id module.name .given (.ofJson json .give)
    | .value script workplace =>
      legacyInstance depth realm id module.name workplace
        (.announce (.happened "legacy" module.name true) script)
  | .custom module =>
    let global ← globalFor realm module.workplace
    match ← runApart depth realm global module.instantiation with
    | .error exception => throw exception.toError
    | .ok _ => .custom <$> namedValues depth realm global module.bindings

/-- Makes sure that a realm has an instance of a record. -/
def instantiate (depth : Nat) (realm : RealmId) (id : RecordId) : Attempt Unit := do
  let world ← get
  match (world.realm realm).slot? id with
  | some _ => pure ()
  | none =>
    if world.hasRecord id then
      let content ← newInstance depth realm id
      modify (·.addInstance realm id content)
    else throw (.defect ("module " ++ world.numberText id ++ " does not exist"))

/-- Makes sure that a realm has an instance of every pending record that is unvisited and of all
that they request. The last record pending comes first. -/
def instantiateFrom (depth : Nat) (realm : RealmId) (unvisited pending : List RecordId) :
    Attempt Unit := do
  match pending with
  | [] => pure ()
  | id :: rest =>
    if id ∈ unvisited then
      instantiate depth realm id
      let requested := ((← get).record id).requested
      instantiateFrom depth realm (unvisited.erase id) (requested.reverse ++ rest)
    else instantiateFrom depth realm unvisited rest
termination_by (unvisited.length, pending.length)
decreasing_by
  · apply Prod.Lex.left
    rw [List.length_erase_of_mem ‹_›]
    have := List.length_pos_of_mem ‹id ∈ unvisited›
    omega
  · apply Prod.Lex.right
    simp

/-- Makes sure that a realm has an instance of a record and of all it needs. -/
def instantiateGraph (depth : Nat) (realm : RealmId) (root : RecordId) : Attempt Unit := do
  let world ← get
  instantiateFrom depth realm world.recordIds [root]

end Action
end ModuleGraph
