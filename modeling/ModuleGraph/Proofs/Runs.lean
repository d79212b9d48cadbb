import ModuleGraph.Proofs.OrderedWalks
import ModuleGraph.Worker

/-!
Runs: what an embedder does with its workers, one thing after the other. In any run the modules of
every realm stay in order.
-/
namespace ModuleGraph
open World

/-- Something that an embedder does. -/
inductive Operation where
  /-- Runs an entry script in a worker. -/
  | runEntry (realm : RealmId) (location : Url) (source : List UInt8)
  /-- Evaluates a linked graph in a worker. -/
  | evaluate (realm : RealmId) (id : RecordId)
  /-- Calls a function that it got from a worker's modules. -/
  | call (realm : RealmId) (function : FunctionRef) (arguments : List Value)
  | link (id : RecordId)
  | instantiate (realm : RealmId) (id : RecordId)
  | instantiateGraph (realm : RealmId) (id : RecordId)
  | resolve (referrer? : Option Url) (specifier : String)
  | resolveImported (referrer? : Option RecordId) (specifier : String)
  | resolveLoaded (location : Url) (source : List UInt8)
  | exposeGlobally (realm : RealmId) (name : String)
  | readBinding (realm : RealmId) (id : RecordId) (name : String)
  | setProperty (ref : ObjectRef) (key : String) (value : Value)
  | askNames (id : RecordId) (tag : Json)
  | lock

/-- All locations that an operation is given are of a certain kind. -/
def Operation.StaysWithin (site : Url → Prop) : Operation → Prop
  | .runEntry _ location _ | .resolveLoaded location _ => site location
  | .resolve referrer? _ => ∀ referrer ∈ referrer?, site referrer
  | _ => True

theorem Operation.staysWithin_all (operation : Operation) :
    operation.StaysWithin fun _ => True := by
  cases operation <;> simp [StaysWithin]

namespace Setup

/-- Does something for an embedder. -/
def perform (setup : Setup) : Operation → Action Unit
  | .runEntry realm location source => discard (setup.runEntry realm location source).run
  | .evaluate realm id => discard (setup.evaluate realm id)
  | .call realm function arguments => discard (setup.engine.call (.of realm) function arguments)
  | .link id => discard (setup.link id).run
  | .instantiate realm id => discard (Action.instantiate setup.engine.depth realm id).run
  | .instantiateGraph realm id => discard (Action.instantiateGraph setup.engine.depth realm id).run
  | .resolve referrer? specifier => discard (setup.embedding.resolve referrer? specifier).run
  | .resolveImported referrer? specifier =>
    discard (setup.embedding.resolveImported referrer? specifier).run
  | .resolveLoaded location source => discard (setup.embedding.resolveLoaded location source).run
  | .exposeGlobally realm name => discard (setup.exposeGlobally realm name).run
  | .readBinding realm id name => discard (setup.bindingValue realm id name)
  | .setProperty ref key value => Action.modifyObject ref (·.set key value)
  | .askNames id tag => discard (Action.askNames setup.engine.depth id (.report tag))
  | .lock => modify World.lock

/-- What running an entry script does when its record is at hand. -/
def runRecord (setup : Setup) (realm : RealmId) (id : RecordId) : Attempt RecordId := do
  setup.link id
  if !((← get).record id).isCyclic then pure id
  else
    match ← setup.evaluate realm id with
    | .fulfilled => pure id
    | .rejected error => throw error
    | .pending module => throw (.unsupportedTopLevelSuspension module)

theorem runEntry_eq (setup : Setup) (realm : RealmId) (location : Url) (source : List UInt8) :
    setup.runEntry realm location source =
      setup.embedding.resolveLoaded location source >>= setup.runRecord realm := rfl

/-- Does one thing after the other, as long as none goes too deep. -/
def run (setup : Setup) : List Operation → Action Unit
  | [] => pure ()
  | operation :: rest => do
    setup.perform operation
    setup.run rest

theorem run_append (setup : Setup) (operations more : List Operation) :
    setup.run (operations ++ more) = setup.run operations >>= fun _ => setup.run more := by
  induction operations with
  | nil => rfl
  | cons operation rest ih => simp only [List.cons_append, run, ih, bind_assoc]

end Setup

/-- An embedding without host modules and sources. -/
def Embedding.bare : Embedding where
  load location _ := { outcome := .error location.toText }
  compile _ location := { outcome := .error location }
  compileWrapper _ location := { outcome := .error location }

namespace World
variable {w w' : World}

/-- No module was instantiated yet, and nothing was written down. -/
structure Fresh (w : World) : Prop where
  slots : ∀ realm, (w.realm realm).slots = []
  walks : ∀ realm, (w.realm realm).walks = []
  journal : w.journal = #[]

theorem Fresh.orderly (h : w.Fresh) : w.Orderly := by
  intro realm
  have slot (id : RecordId) : (w.realm realm).slot? id = none := by
    simp [Realm.slot?, h.slots]
  constructor
  all_goals simp [Realm.busy, h.walks, Realm.status?, slot, World.life, h.journal, Stage.LeadTo]

/-- A fresh world of modules that an embedder made. -/
def ofModules (modules : List CustomModule) : World :=
  { records := (modules.map Record.custom).toArray }

theorem fresh_ofModules (modules : List CustomModule) : (ofModules modules).Fresh :=
  ⟨fun _ => rfl, fun _ => rfl, rfl⟩

/-- No walk is under way. -/
def Idle (w : World) : Prop := ∀ realm, (w.realm realm).walks = []

end World

/-- A script that copies properties does what scripts can do by themselves. -/
theorem Setup.keeps_copyGlobally {R : World → World → Prop} [Marks R] (realm : RealmId)
    (exports : ObjectRef) (keys : List String) :
    Action.Keeps R (copyGlobally realm exports keys) := by
  induction keys with
  | nil => exact .pure _
  | cons key rest ih =>
    exact .bind .get fun _ => .bind (Action.keeps_modifyObject _ _) fun _ => ih

namespace Setup
open Engine
variable {stuck inv : World → Prop} {site : Url → Prop} {linkable : RecordId → Prop}
  {setup : Setup} (borne : Borne setup.embedding stuck inv site linkable)
include borne

theorem upholds_exposeGlobally (realm : RealmId) (name : String) :
    Attempt.Upholds stuck inv (setup.exposeGlobally realm name) := by
  refine .bind (borne.resolve (by simp) name) fun id => .bind .get fun world => ?_
  dsimp only
  split
  · exact .throw _
  · refine .bind (borne.instantiate _ realm id) fun _ =>
      .bind (.lift (borne.kept (Action.keeps_readBinding _ realm id _))) fun value => ?_
    split
    · exact .bind .get fun _ => .lift (borne.kept (keeps_copyGlobally realm _ _))
    · exact .throw _

variable (walks : ∀ realm root, Action.Upholds stuck inv (setup.engine.walk realm root))
include walks

theorem upholds_runRecord (realm : RealmId) (id : RecordId) (links : linkable id) :
    Attempt.Upholds stuck inv (setup.runRecord realm id) := by
  refine .bind (borne.link _ id links) fun _ => .bind .get fun world => ?_
  split
  · exact .pure _
  · refine .bind (.lift (upholds_evaluateFrom borne (walks realm) id)) fun settlement => ?_
    split
    · exact .pure _
    · exact .throw _
    · exact .throw _

theorem upholds_runEntry (realm : RealmId) {location : Url} (within : site location)
    (source : List UInt8) :
    Attempt.Upholds stuck inv (setup.runEntry realm location source) :=
  borne.bind_found (borne.loaded location source within)
    (setup.embedding.findsKept_resolveLoaded location source) fun links =>
      upholds_runRecord borne walks realm _ links

variable (upholds : ∀ realm, setup.engine.Upholds realm stuck inv)
include upholds

/-- What walks and calls uphold is upheld by all that an embedder does. -/
theorem upholds_perform {operation : Operation} (within : operation.StaysWithin site)
    (links : ∀ id, operation = .link id → linkable id)
    (asks : ∀ id tag, operation = .askNames id tag →
      Action.Upholds stuck inv (Action.askNames setup.engine.depth id (.report tag))) :
    Action.Upholds stuck inv (setup.perform operation) := by
  cases operation with
  | runEntry realm location source =>
    exact .map (upholds_runEntry borne walks realm within source) _
  | evaluate realm id => exact .map (upholds_evaluateFrom borne (walks realm) id) _
  | call realm function arguments =>
    exact .map ((upholds realm).call (.of realm) rfl function arguments) _
  | link id => exact .map (borne.link _ id (links id rfl)) _
  | instantiate realm id => exact .map (borne.instantiate _ realm id) _
  | instantiateGraph realm id => exact .map (borne.instantiateGraph _ realm id) _
  | resolve referrer? specifier => exact .map (borne.resolve within specifier) _
  | resolveImported referrer? specifier => exact .map (borne.resolveImported referrer? specifier) _
  | resolveLoaded location source => exact .map (borne.loaded location source within) _
  | exposeGlobally realm name => exact .map (upholds_exposeGlobally borne realm name) _
  | readBinding realm id name =>
    exact .map (borne.kept (Action.keeps_readBinding _ realm id name)) _
  | setProperty ref key value => exact borne.kept (Action.keeps_modifyObject ref (·.set key value))
  | askNames id tag => exact .map (asks id tag rfl) _
  | lock => exact borne.kept (Action.keeps_stroke fun _ => .lock)

end Setup

/-- What walks and calls uphold is upheld by every run that comes to locations of a certain kind
only. -/
theorem Setup.upholds_run_within {stuck inv : World → Prop} {site : Url → Prop} {setup : Setup}
    (borne : Engine.Borne setup.embedding stuck inv site) (touched : Engine.Touched stuck inv)
    (walks : ∀ realm root, Action.Upholds stuck inv (setup.engine.walk realm root))
    (upholds : ∀ realm, setup.engine.Upholds realm stuck inv) {operations : List Operation}
    (within : ∀ operation ∈ operations, operation.StaysWithin site) :
    Action.Upholds stuck inv (setup.run operations) := by
  induction operations with
  | nil => exact .pure _
  | cons operation rest ih =>
    obtain ⟨here, later⟩ := List.forall_mem_cons.mp within
    exact .bind (upholds_perform borne walks upholds here (fun _ _ => trivial) fun _ _ _ =>
      touched.kept (Action.keeps_askNames _ _ _)) fun _ => ih later

/-- What walks and calls uphold is upheld by every run. -/
theorem Setup.upholds_run {stuck inv : World → Prop} {setup : Setup}
    (borne : Engine.Borne setup.embedding stuck inv) (touched : Engine.Touched stuck inv)
    (walks : ∀ realm root, Action.Upholds stuck inv (setup.engine.walk realm root))
    (upholds : ∀ realm, setup.engine.Upholds realm stuck inv) (operations : List Operation) :
    Action.Upholds stuck inv (setup.run operations) :=
  upholds_run_within borne touched walks upholds fun operation _ => operation.staysWithin_all

/-! ### Order in a run -/

theorem World.Passes.idle {w w' : World} {realm : RealmId} (passes : Passes realm w w')
    (idle : w.Idle) : w'.Idle := by
  intro other
  by_cases hr : other = realm
  · rw [hr, passes.walks, idle]
  · rw [(passes.advance.elsewhere other hr).2, idle]

/-- Between what an embedder does, the modules are in order and no walk is under way. -/
theorem Setup.upholds_orderly (embedding : Embedding) (depth : Nat) (operations : List Operation) :
    Action.Upholds Orderly (fun w => w.Orderly ∧ w.Idle)
      ((Setup.ofDepth embedding depth).run operations) := by
  have keeps := Engine.keepsOrder_ofDepth embedding depth
  have carried : Engine.Carried Orderly fun w => w.Orderly ∧ w.Idle :=
    ⟨fun _ h => h.1, fun w w' changes h => ⟨changes.orderly h.1, fun realm =>
      (Changes.passes changes realm).walks.trans (h.2 realm)⟩⟩
  refine upholds_run (carried.borne embedding) carried.touched
    (fun realm root w h => ?walks) (fun realm => ?engine) operations
  case walks =>
    exact (keeps.meets_walk h.1 root).mono fun _ _ h' => ⟨h'.2.1, h'.2.2.idle h.2⟩
  case engine =>
    refine ⟨fun frame _ function arguments w h => ?_, fun id w h => ?_⟩
    · exact (keeps.call frame function arguments w h.1).mono fun _ _ h' => ⟨h'.1, h'.2.idle h.2⟩
    · exact (keeps.evaluate realm id w h.1).mono fun _ _ h' => ⟨h'.1, h'.2.idle h.2⟩

/-- The modules of all realms are in order after any run, also one that went too deep. -/
theorem Setup.orderly_after_run (embedding : Embedding) (depth : Nat)
    (operations : List Operation) {w : World} (fresh : w.Fresh) :
    (((Setup.ofDepth embedding depth).run operations).after w).Orderly :=
  (((upholds_orderly embedding depth operations) w ⟨fresh.orderly, fresh.walks⟩).imp
    (fun _ h => h) fun _ _ h => h.1).after

end ModuleGraph
