import ModuleGraph.Cache
import ModuleGraph.Config.Basic
import ModuleGraph.Realm
import ModuleGraph.Record
import ModuleGraph.Snapshot

/-!
The world in which modules are resolved and run: the records and the resolver's memory, which all
workers share, and the realms of the workers.
-/
namespace ModuleGraph

/-- What there is at a moment: the records, and one realm with its walks. -/
structure Moment where
  records : Array Record
  realm : Realm

namespace Moment

/-- A record; one that does not exist is inert. -/
def record (moment : Moment) (id : RecordId) : Record := moment.records.getD id.index default

end Moment

/-- Something that happened. -/
inductive Event where
  /-- The loader was asked for a source. -/
  | loaded (location specifier : String)
  /-- A source was compiled and classified. -/
  | compiled (location source : String)
  /-- A source was compiled as a wrapper. -/
  | wrapped (location source : String)
  /-- A static module asked for what it imports. -/
  | asked (record : RecordId) (specifier : String)
  /-- A module's slot in a realm got a status. -/
  | moved (realm : RealmId) (record : RecordId) (status : InstanceStatus)
  /-- The body of a module began to run. -/
  | began (realm : RealmId) (record : RecordId) (moment : Moment)
  /-- The body of a module that a walk had reached ended, with its error if it failed. -/
  | ended (realm : RealmId) (record : RecordId) (error : Option ModuleError)
  /-- A walk closed a component: its modules, the latest first, and what there was then. -/
  | closed (realm : RealmId) (modules : List RecordId) (moment : Moment)
  /-- Exported names were passed on. -/
  | named (tag : Json) (names : List String)
  | log (worker : Nat) (value : Snapshot)
  | json (document : Json)
  | settled (name : String) (settlement : SettlementReport)
  | happened (label name : String) (worker : Option Nat)

/-- The world. -/
structure World where
  records : Array Record := #[]
  /-- The number under which the first record is known; the others follow it. -/
  firstNumber : Nat := 1
  cache : Cache RecordId := {}
  /-- The locations of the records that the resolver made from scripts. -/
  locations : List (RecordId × Url) := []
  /-- Whether the resolver is still there. -/
  hasResolver : Bool := true
  /-- The records that an embedder's table has for specifiers. -/
  table : RecordId → String → Option RecordId := fun _ _ => none
  realms : List (RealmId × Realm) := []
  journal : Array Event := #[]

/-- An action on the world. It has no result when it went deeper than it was allowed to, which is no
failure of the modules; the world stays as it was when the action gave up. -/
abbrev Action := EStateM Unit World

/-- An action that can fail with a module error. -/
abbrev Attempt := ExceptT ModuleError Action

/-- What an attempt comes to, as a value. -/
def Attempt.outcome {α : Type} (attempt : Attempt α) : Attempt (Outcome α) :=
  ExceptT.lift attempt.run

namespace World

/-! ### Records -/

/-- A record; one that does not exist is inert. -/
def record (world : World) (id : RecordId) : Record := world.records.getD id.index default

/-- Whether there is a record. -/
def hasRecord (world : World) (id : RecordId) : Bool := id.index < world.records.size

/-- All records. -/
def recordIds (world : World) : List RecordId := (List.range world.records.size).map RecordId.mk

/-- The world with a record changed. -/
def setRecord (world : World) (id : RecordId) (record : Record) : World :=
  { world with records := world.records.setIfInBounds id.index record }

/-- The world with one more record. -/
def addRecord (world : World) (record : Record) : RecordId × World :=
  (⟨world.records.size⟩, { world with records := world.records.push record })

/-- The name of a record without a location. -/
def numberText (world : World) (id : RecordId) : String :=
  "#" ++ toString (world.firstNumber + id.index)

/-- The name of a record: its location if it has one. -/
def describe (world : World) (id : RecordId) : String :=
  match (world.record id).location? with
  | some location => location.toText
  | none => world.numberText id

/-! ### Realms -/

/-- A realm; one that was not used yet is empty. -/
def realm (world : World) (id : RealmId) : Realm := (world.realms.lookup id).getD default

/-- Puts a realm into a list of realms. -/
def putRealm (id : RealmId) (realm : Realm) : List (RealmId × Realm) → List (RealmId × Realm)
  | [] => [(id, realm)]
  | (i, r) :: rest => if i = id then (id, realm) :: rest else (i, r) :: putRealm id realm rest

/-- The world with a realm changed. -/
def setRealm (world : World) (id : RealmId) (realm : Realm) : World :=
  { world with realms := putRealm id realm world.realms }

/-- The world with a change made to a realm. -/
def modifyRealm (world : World) (id : RealmId) (change : Realm → Realm) : World :=
  world.setRealm id (change (world.realm id))

theorem lookup_putRealm (id other : RealmId) (realm : Realm) (realms : List (RealmId × Realm)) :
    (putRealm id realm realms).lookup other =
      if other = id then some realm else realms.lookup other := by
  induction realms with
  | nil => by_cases h : other = id <;> simp [putRealm, List.lookup_cons, h, beq_false_of_ne]
  | cons entry rest ih =>
    obtain ⟨i, r⟩ := entry
    by_cases hi : i = id
    · subst hi
      by_cases h : other = i <;> simp [putRealm, List.lookup_cons, h, beq_false_of_ne]
    · by_cases h : other = i
      · subst h
        simp [putRealm, hi]
      · simp [putRealm, hi, List.lookup_cons, beq_false_of_ne h, ih]

theorem putRealm_of_lookup {id : RealmId} {r : Realm} {realms : List (RealmId × Realm)}
    (found : realms.lookup id = some r) : putRealm id r realms = realms := by
  induction realms with
  | nil => cases found
  | cons entry rest ih =>
    obtain ⟨other, r'⟩ := entry
    by_cases same : other = id
    · subst same
      simp only [List.lookup_cons_self, Option.some.injEq] at found
      simp [putRealm, found]
    · rw [List.lookup_cons, beq_false_of_ne (Ne.symm same)] at found
      simp [putRealm, same, ih found]

@[simp] theorem realm_setRealm_same (world : World) (id : RealmId) (realm : Realm) :
    (world.setRealm id realm).realm id = realm := by
  simp [World.realm, setRealm, lookup_putRealm]

@[simp] theorem realm_setRealm_other (world : World) (id other : RealmId) (realm : Realm)
    (h : other ≠ id) : (world.setRealm id realm).realm other = world.realm other := by
  simp [World.realm, setRealm, lookup_putRealm, h]

/-- The global object of a realm. -/
def globalOf (id : RealmId) : ObjectRef := ⟨id, 0⟩

/-! ### Objects -/

/-- The properties of an object. -/
def properties (world : World) (ref : ObjectRef) : Properties :=
  (world.realm ref.realm).objects.getD ref.index default

/-- The world with the properties of an object changed. -/
def setProperties (world : World) (ref : ObjectRef) (properties : Properties) : World :=
  world.modifyRealm ref.realm fun realm =>
    { realm with objects := realm.objects.setIfInBounds ref.index properties }

/-- The number of all objects. -/
def objectCount (world : World) : Nat :=
  world.realms.foldl (fun count entry => count + entry.2.objects.size) 0

/-- A property of a value; what is no object has none. -/
def property (world : World) (value : Value) (key : String) : Value :=
  match value with
  | .object ref => (world.properties ref).get key
  | _ => .undefined

/-- The keys of a value; what is no object has none. -/
def keys (world : World) (value : Value) : List String :=
  match value with
  | .object ref => (world.properties ref).keys
  | _ => []

/-- A value with all that can be reached from it. -/
def snapshot (world : World) (value : Value) : Snapshot :=
  value.unfold world.properties (world.objectCount + 1) []

/-- A value as a document. -/
def toJson (world : World) (value : Value) : Json :=
  (Id.run ((value.document world.properties (world.objectCount + 1)).run [])).1

theorem toJson_eq (world : World) (value : Value) :
    world.toJson value = value.project world.properties (world.objectCount + 1) [] := by
  rw [toJson, Value.run_document]
  rfl

/-- An error as it is reported. -/
def reportError (world : World) (error : ModuleError) : ErrorReport where
  name := error.name
  message := error.message
  thrown :=
    match error with
    | .evaluationRejected value => some (world.snapshot value)
    | _ => none

/-- How an evaluation ended, as it is reported. -/
def reportSettlement (world : World) : Settlement → SettlementReport
  | .fulfilled => .fulfilled
  | .rejected error => .rejected (world.reportError error)
  | .pending location => .pending location

/-- What is written down for an announcement of a script in a realm. -/
def eventOf (world : World) (realm : RealmId) : Announcement → Event
  | .log value => .log realm.number (world.snapshot value)
  | .json value => .json (world.toJson value)
  | .settled name settlement => .settled name (world.reportSettlement settlement)
  | .happened label name inWorker =>
    .happened label name (if inWorker then some realm.number else none)

/-- Writes an event down. -/
def write (world : World) (event : Event) : World :=
  { world with journal := world.journal.push event }

/-- The present moment in a realm. -/
def moment (world : World) (realm : RealmId) : Moment := ⟨world.records, world.realm realm⟩

/-- The world with an instance of a record added to a realm. -/
def addInstance (world : World) (realm : RealmId) (id : RecordId) (content : Instance) : World :=
  (world.modifyRealm realm (·.addInstance id content)).write (.moved realm id .instantiated)

/-- The world with a module's slot in a realm changed and moved to a status. -/
def moveSlot (world : World) (realm : RealmId) (id : RecordId) (status : InstanceStatus)
    (change : Slot → Slot) : World :=
  (world.modifyRealm realm (·.modifySlot id fun slot => { change slot with status })).write
    (.moved realm id status)

/-- Ends the discovery of modules. -/
def lock (world : World) : World := { world with cache := world.cache.lock }

end World

namespace Action

/-- Gives up: the action went deeper than it was allowed to. -/
def tooDeep {α : Type} : Action α := fun world => .error () world

/-- Writes an event down. -/
def write (event : Event) : Action Unit := modify (·.write event)

/-- Makes an object. -/
def newObject (realm : RealmId) (properties : Properties) : Action ObjectRef := do
  let index := ((← get).realm realm).objects.size
  modify (·.modifyRealm realm fun r => { r with objects := r.objects.push properties })
  pure ⟨realm, index⟩

/-- Makes a function. -/
def newFunction (realm : RealmId) (name : String) (code : FunctionCode) : Action FunctionRef := do
  let index := ((← get).realm realm).functions.size
  modify (·.modifyRealm realm fun r => { r with functions := r.functions.push code })
  pure ⟨realm, index, name⟩

/-- Changes an object. -/
def modifyObject (ref : ObjectRef) (change : Properties → Properties) : Action Unit :=
  modify fun world => world.setProperties ref (change (world.properties ref))

/-- Makes a record. -/
def newRecord (record : Record) : Action RecordId := modifyGet (·.addRecord record)

end Action
end ModuleGraph
