import ModuleGraph.Scripted.Modules
import ModuleGraph.Worker

/-!
Sessions: commands to the workers of one world, one after the other, with the answer to each.
Records are known to a session by names that commands save them under, and to a reader of the
answers by tags in the order in which the answers show them.
-/
namespace ModuleGraph.Scripted

/-- A session. -/
structure Session where
  setup : Setup
  world : World
  /-- The records that commands can name. -/
  names : List (String × RecordId)
  /-- The records that answers have shown. -/
  shown : List RecordId := []
  /-- Whether the resolver and the workers are gone. -/
  isDropped : Bool := false

/-- What a command wants done. -/
inductive Deed where
  | run (location : String) (source : Option (List UInt8)) (worker : Nat)
  | loaded (location : String) (source : Option (List UInt8))
  | resolve (specifier : String) (referrer : Option String)
  | importBy (specifier : String) (record : Option String)
  | lock
  | isLocked
  | imported
  | base
  | location (record : String)
  | link (record : String)
  | isLinked (record : String)
  | requested (record : String)
  | names (record : String)
  | watch (record : String) (tag : Json)
  | resolveExport (record name : String)
  | instantiate (record : String) (worker : Nat)
  | graph (record : String) (worker : Nat)
  | evaluate (record : String) (worker : Nat)
  | execute (record : String) (worker : Nat)
  | get (record name : String) (worker : Nat)
  | exports (record : String) (worker : Nat)
  | namespace (record : String) (worker : Nat)
  | status (record : String) (worker : Nat)
  | flags (record : String) (worker : Nat)
  | count (worker : Nat)
  | globals (worker : Nat)
  | expose (name : String) (worker : Nat)
  | poke (record name key : String) (value : Expr) (worker : Nat)
  | call (record name : String) (arguments : List Expr) (worker : Nat)
  | drop

/-- A command: what to do, and the name to save the record under that comes of it. -/
structure Command where
  deed : Deed
  saveAs : Option String := none

/-- The answer to a command that went well. -/
inductive Reply where
  | nothing
  | flag (value : Bool)
  | count (value : Nat)
  | text (value : String)
  | texts (values : List String)
  | record (tag : Nat) (kind : ModuleKind) (location : Option String)
  | tags (values : List Nat)
  | binding (tag : Nat) (name : String)
  | settlement (report : SettlementReport)
  | value (snapshot : Snapshot)
  | thrown (snapshot : Snapshot) (cause : Option String)
  | status (value : InstanceStatus)
  | flags (hasTopLevelAwait isMarked : Bool)

/-- The answer to a command that did not go well. -/
inductive Refusal where
  | error (report : ErrorReport)
  | badUrl (reason : UrlError)
  | noRecord
  | noInstance
  | dropped
  /-- Modules nest deeper than the session allows. -/
  | tooDeep

/-- Something done for a command. -/
abbrev Doing := ExceptT Refusal (StateT Session Option)

namespace Doing

/-- An action on the world. -/
def act {α : Type} (action : Action α) : Doing α := do
  let session ← get
  match action session.world with
  | .ok result world =>
    set { session with world }
    pure result
  | .error _ _ => (none : Option α)

/-- An attempt, with its error as a refusal. -/
def attempt {α : Type} (attempt : Attempt α) : Doing α := do
  match ← act attempt.run with
  | .ok result => pure result
  | .error error => throw (.error ((← get).world.reportError error))

/-- A location. -/
def url (text : String) : Doing Url :=
  match Url.parse text with
  | .ok url => pure url
  | .error reason => throw (.badUrl reason)

/-- The record of a name. -/
def record (name : String) : Doing RecordId := do
  match (← get).names.lookup name with
  | some id => pure id
  | none => throw .noRecord

/-- The tag of a record, a new one if it is shown for the first time. -/
def tag (id : RecordId) : Doing Nat := do
  let session ← get
  match session.shown.findIdx? (· = id) with
  | some index => pure index
  | none =>
    set { session with shown := session.shown ++ [id] }
    pure session.shown.length

/-- The tags of records. -/
def tags : List RecordId → Doing (List Nat)
  | [] => pure []
  | id :: rest => do
    let first ← tag id
    let others ← tags rest
    pure (first :: others)

/-- The depth that modules may nest. -/
def depth : Doing Nat := do pure (← get).setup.engine.depth

/-- Makes sure that the resolver and the workers are there. -/
def live : Doing Unit := do
  if (← get).isDropped then throw .dropped else pure ()

/-- The realm of a worker that is there. -/
def realm (worker : Nat) : Doing RealmId := do
  live
  pure (.worker worker)

/-- The instance of a record in a realm. -/
def instanceOf (realm : RealmId) (id : RecordId) : Doing Instance := do
  match ((← get).world.realm realm).instance? id with
  | some content => pure content
  | none => throw .noInstance

/-- Shows a value. -/
def value (value : Value) : Doing Reply := do
  pure (.value ((← get).world.snapshot value))

/-- The values of a command's own expressions. -/
def evaluateAll (realm : RealmId) (exprs : List Expr) : Doing (List Value) := do
  let depth ← depth
  let global ← act (Action.newObject realm {})
  exprs.mapM fun expr => act (Action.valueApart depth realm global expr.script)

/-- Shows a record and saves it if the command says so. -/
def keepRecord (saveAs : Option String) (id : RecordId) : Doing Reply := do
  let tag ← tag id
  match saveAs with
  | some name =>
    modify fun session =>
      let names := (name, id) :: session.names
      { session with
        names
        world := { session.world with table := fun _ specifier => names.lookup specifier } }
  | none => pure ()
  let record := (← get).world.record id
  pure (.record tag record.kind (record.location?.map Url.toText))

/-- Reports how an evaluation ended. -/
def settle (settlement : Settlement) : Doing Reply := do
  pure (.settlement ((← get).world.reportSettlement settlement))

/-- Does what a command wants. -/
def perform (saveAs : Option String) : Deed → Doing Reply
  | .run location source worker => do
    let realm ← realm worker
    let url ← url location
    let setup := (← get).setup
    let id ← attempt (setup.runEntry realm url (bytesOr source url.toText))
    keepRecord saveAs id
  | .loaded location source => do
    live
    let url ← url location
    let setup := (← get).setup
    let id ← attempt (setup.embedding.resolveLoaded url (bytesOr source url.toText))
    keepRecord saveAs id
  | .resolve specifier referrer => do
    live
    let referrer ← referrer.mapM url
    let setup := (← get).setup
    let id ← attempt (setup.embedding.resolve referrer specifier)
    keepRecord saveAs id
  | .importBy specifier referrer => do
    live
    let referrer ← referrer.mapM record
    let setup := (← get).setup
    let id ← attempt (setup.embedding.resolveImported referrer specifier)
    keepRecord saveAs id
  | .lock => do
    live
    act (modify World.lock)
    pure .nothing
  | .isLocked => do
    live
    pure (.flag (← get).world.cache.isLocked)
  | .imported => do
    live
    pure (.texts (← get).world.cache.keys)
  | .base => do
    live
    pure (.text (← get).setup.embedding.config.base.toText)
  | .location name => do
    live
    let id ← record name
    match ← act (Embedding.locationOf id) with
    | some url => pure (.text url.toText)
    | none => pure .nothing
  | .link name => do
    let id ← record name
    let setup := (← get).setup
    attempt (setup.link id)
    pure .nothing
  | .isLinked name => do
    let id ← record name
    match (← get).world.record id with
    | .static module =>
      if module.importer = .table then pure (.flag (module.status = .linked)) else pure .nothing
    | _ => pure .nothing
  | .requested name => do
    let id ← record name
    let requested := ((← get).world.record id).requested
    pure (.tags (← tags requested))
  | .names name => do
    let id ← record name
    match (← get).world.knownNames? id with
    | some names => pure (.texts names)
    | none => pure .nothing
  | .watch name tag => do
    let id ← record name
    let depth ← depth
    let told ← act (Action.askNames depth id (.report tag))
    pure (.flag told)
  | .resolveExport name exported => do
    let id ← record name
    match (← get).world.resolveExport id exported with
    | some binding => pure (.binding (← tag binding.record) binding.name)
    | none => pure .nothing
  | .instantiate name worker => do
    let realm ← realm worker
    let id ← record name
    attempt (Action.instantiate (← depth) realm id)
    pure .nothing
  | .graph name worker => do
    let realm ← realm worker
    let id ← record name
    attempt (Action.instantiateGraph (← depth) realm id)
    pure (.count ((← get).world.realm realm).slots.length)
  | .evaluate name worker => do
    let realm ← realm worker
    let id ← record name
    let setup := (← get).setup
    let settlement ← act (setup.evaluate realm id)
    settle settlement
  | .execute name worker => do
    let realm ← realm worker
    let id ← record name
    discard (instanceOf realm id)
    let setup := (← get).setup
    attempt (setup.engine.execute realm id)
    pure .nothing
  | .get name exported worker => do
    let realm ← realm worker
    let id ← record name
    let setup := (← get).setup
    let result ← act (setup.bindingValue realm id exported)
    value result
  | .exports name worker => do
    let realm ← realm worker
    let id ← record name
    discard (instanceOf realm id)
    let result ← act (Action.exportsValue (← depth) realm id)
    value result
  | .namespace name worker => do
    let realm ← realm worker
    let id ← record name
    let result ← act (Action.namespaceObject (← depth) realm id)
    value result
  | .status name worker => do
    let realm ← realm worker
    let id ← record name
    match ((← get).world.realm realm).status? id with
    | some status => pure (.status status)
    | none => pure .nothing
  | .flags name worker => do
    let realm ← realm worker
    let id ← record name
    let isMarked :=
      match ← instanceOf realm id with
      | .wrapper _ isMarked => isMarked
      | _ => false
    pure (.flags ((← get).world.record id).hasTopLevelAwait isMarked)
  | .count worker => do
    let realm ← realm worker
    pure (.count ((← get).world.realm realm).slots.length)
  | .globals worker => do
    let realm ← realm worker
    value (.object (World.globalOf realm))
  | .expose name worker => do
    let realm ← realm worker
    let setup := (← get).setup
    attempt (setup.exposeGlobally realm name)
    pure .nothing
  | .poke name exported key expr worker => do
    let realm ← realm worker
    let id ← record name
    let values ← evaluateAll realm [expr]
    let setup := (← get).setup
    match ← act (setup.bindingValue realm id exported) with
    | .object ref =>
      act (Action.modifyObject ref (·.set key (values.head?.getD .undefined)))
      pure (.flag true)
    | _ => pure (.flag false)
  | .call name exported arguments worker => do
    let realm ← realm worker
    let id ← record name
    let arguments ← evaluateAll realm arguments
    let setup := (← get).setup
    match ← act (setup.bindingValue realm id exported) with
    | .function ref =>
      match ← act (setup.engine.call (.of realm) ref arguments) with
      | .ok result => value result
      | .error exception =>
        pure (.thrown ((← get).world.snapshot exception.value)
          (exception.cause.map ModuleError.name))
    | _ => pure (.text "not a function")
  | .drop => do
    modify fun session =>
      { session with isDropped := true, world := { session.world with hasResolver := false } }
    pure .nothing

end Doing

namespace Session

/-- A session on an embedding and the records of nodes, the first of which is known under a number.
-/
def start (depth firstNumber : Nat) (embedding : Embedding) (nodes : List (String × Node)) :
    Option Session := do
  let names := nodeIds nodes
  let world : World := { firstNumber, table := fun _ specifier => names.lookup specifier }
  match makeNodes depth names nodes world with
  | .ok _ world => pure { setup := .ofDepth embedding depth, world, names }
  | .error _ _ => none

/-- Does a command: the answer, and what happened meanwhile. -/
def step (session : Session) (command : Command) :
    Except Refusal Reply × Array Event × Session :=
  let session := { session with world := { session.world with journal := #[] } }
  match (Doing.perform command.saveAs command.deed).run session with
  | some (answer, session) => (answer, session.world.journal, session)
  | none => (.error .tooDeep, #[], session)

end Session
end ModuleGraph.Scripted
