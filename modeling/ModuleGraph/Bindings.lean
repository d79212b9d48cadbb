import ModuleGraph.Exports

/-!
Reading what modules export in a realm. Imported names are looked up when they are read, so that a
module that has not run yet reads as undefined.
-/
namespace ModuleGraph
namespace Action

/-- Reads an exported binding of a record in a realm. -/
abbrev Reader := RealmId → RecordId → String → Action Value

/-- Reads names one after the other. -/
def readAll (read : Reader) (realm : RealmId) (id : RecordId) :
    List String → Action (List (String × Value))
  | [] => pure []
  | name :: rest => do
    let value ← read realm id name
    let others ← readAll read realm id rest
    pure ((name, value) :: others)

/-- The names in the namespace of a record: those known now, and `default` for what is not static.
-/
def namespaceNames (world : World) (id : RecordId) : List String :=
  let names := (world.knownNames? id).getD []
  if (world.record id).kind ≠ .static ∧ "default" ∉ names then names ++ ["default"] else names

/-- A new object with all exported bindings of a record, or undefined if the realm has no instance.
-/
def namespaceBy (read : Reader) (realm : RealmId) (id : RecordId) : Action Value := do
  let world ← get
  match (world.realm realm).slot? id with
  | none => pure .undefined
  | some _ =>
    let entries ← readAll read realm id (namespaceNames world id)
    let ref ← newObject realm (.ofEntries entries)
    pure (.object ref)

/-- Reads a name as the body of a static module sees it. -/
def readEnvironmentBy (read : Reader) (realm : RealmId) (environment : Environment)
    (name : String) : Action Value :=
  match environment.imports.lookup name with
  | some (.binding record imported) => read realm record imported
  | some (.namespace record) => namespaceBy read realm record
  | none => pure (environment.bindings.get name)

/-- The first of some records that gives a name a value. -/
def readFirst (read : Reader) (realm : RealmId) (name : String) : List RecordId → Action Value
  | [] => pure .undefined
  | id :: rest => do
    let value ← read realm id name
    if value = .undefined then readFirst read realm name rest else pure value

/-- Reads an exported name of a static module: its own binding, a namespace that it exports, or what
one of its stars has under that name. -/
def readStaticBy (read : Reader) (realm : RealmId) (module : StaticModule)
    (environment : Environment) (name : String) : Action Value :=
  match module.declarations.localExport? name with
  | some binding => readEnvironmentBy read realm environment binding
  | none =>
    match module.declarations.namespaceExport? name with
    | some source =>
      match module.requested.lookup source with
      | some record => namespaceBy read realm record
      | none => pure .undefined
    | none =>
      if name = "default" then pure .undefined
      else readFirst read realm name (World.starTargets module)

/-- Reads an exported name of an instance. -/
def readInstanceBy (read : Reader) (realm : RealmId) (record : Record) (content : Instance)
    (name : String) : Action Value := do
  let world ← get
  match content with
  | .static environment =>
    match record with
    | .static module => readStaticBy read realm module environment name
    | _ => pure .undefined
  | .wrapper exports _ =>
    if name = "default" then
      match exports with
      | .object ref => pure (((world.properties ref).get? "default").getD exports)
      | _ => pure exports
    else pure (world.property exports name)
  | .native named default =>
    if name = "default" then pure default
    else
      match named with
      | some entries => pure ((entries.lookup name).getD .undefined)
      | none => pure (world.property default name)
  | .legacy value => pure (if name = "default" then value else world.property value name)
  | .custom bindings => pure ((bindings.lookup name).getD .null)

/-- Reads an exported binding of a record in a realm; without an instance it is undefined. -/
def readBinding : Nat → Reader
  | 0, _, _, _ => tooDeep
  | depth + 1, realm, id, name => do
    let world ← get
    match (world.realm realm).instance? id with
    | none => pure .undefined
    | some content => readInstanceBy (readBinding depth) realm (world.record id) content name

/-- A namespace object of a record. -/
def namespaceObject (depth : Nat) (realm : RealmId) (id : RecordId) : Action Value :=
  namespaceBy (readBinding depth) realm id

/-- The environment of a static module's instance. -/
def environment (ref : EnvironmentRef) : Action Environment := do
  match ((← get).realm ref.realm).instances[ref.instanceIndex]? with
  | some (.static environment) => pure environment
  | _ => pure {}

/-- Reads a name as the body of a static module sees it. -/
def readEnvironment (depth : Nat) (ref : EnvironmentRef) (name : String) : Action Value := do
  readEnvironmentBy (readBinding depth) ref.realm (← environment ref) name

/-- Writes a name as the body of a static module does; imported names are read-only. -/
def writeEnvironment (ref : EnvironmentRef) (name : String) (value : Value) :
    Action (Option Exception) := do
  let environment ← environment ref
  if (environment.imports.lookup name).isSome then
    pure (some (.typeError ("Assignment to constant variable '" ++ name ++ "'")))
  else
    modify (·.modifyRealm ref.realm (·.modifyInstance ref.instanceIndex (.setBinding name value)))
    pure none

/-- The value that requiring a record hands back. -/
def exportsValue (depth : Nat) (realm : RealmId) (id : RecordId) : Action Value := do
  match ((← get).realm realm).instance? id with
  | some (.static _) => namespaceObject depth realm id
  | some (.wrapper exports _) => pure exports
  | _ => readBinding depth realm id "default"

end Action
end ModuleGraph
