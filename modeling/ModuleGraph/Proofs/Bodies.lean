import ModuleGraph.Evaluation
import ModuleGraph.Proofs.Changes

/-!
What the bodies of modules do. A body, a call and a `require` uphold what the walks that they begin
uphold and changes do not break.
-/
namespace ModuleGraph

/-- Some locations are such that what is written there, or at the base, leads to no others. -/
structure Embedding.StaysWithin (embedding : Embedding) (site : Url → Prop) : Prop where
  base : site embedding.config.base
  canonical : ∀ referrer specifier location, site referrer →
    canonicalize embedding.config referrer specifier = .ok location → site location

theorem Embedding.staysWithin_all (embedding : Embedding) :
    embedding.StaysWithin fun _ => True := ⟨trivial, fun _ _ _ _ _ => trivial⟩

namespace Embedding
variable (embedding : Embedding) {attempt : Attempt RecordId}

/-- An attempt comes to no record but one that resolution has kept. -/
def FindsKept (attempt : Attempt RecordId) : Prop :=
  ∀ w, Attempt.Meets (fun _ => True) (fun _ _ => True) attempt
    (fun id w' => ∃ key, w'.cache.get? key = some (.ok id)) w

theorem findsKept_throw (error : ModuleError) : FindsKept (throw error) := fun _ => trivial

theorem findsKept_get_bind {next : World → Attempt RecordId} (finds : ∀ w, FindsKept (next w)) :
    FindsKept (get >>= next) := fun w => (Attempt.meets_bind _ _).2 (finds w w)

theorem findsKept_keep (key : String) (outcome : Outcome RecordId) :
    FindsKept (keep key outcome) := by
  intro w
  unfold keep
  rw [Attempt.meets_bind, Attempt.meets_get, Attempt.meets_bind, Attempt.meets_set]
  cases answer : (w.cache.insert key outcome).1 with
  | error error => trivial
  | ok id => exact ⟨key, Cache.get?_of_insert answer⟩

theorem findsKept_remember (key refused : String) (compute : Attempt RecordId) :
    FindsKept (remember key refused compute) := by
  intro w
  unfold remember
  rw [Attempt.meets_bind, Attempt.meets_get]
  dsimp only
  split
  · exact ⟨key, ‹_›⟩
  · trivial
  · split
    · trivial
    · rw [Attempt.meets_bind, Attempt.meets_outcome]
      exact Attempt.meets_of_forall _ _ (fun _ _ => findsKept_keep key _ _) fun _ _ =>
        findsKept_keep key _ _

theorem findsKept_resolve (referrer? : Option Url) (specifier : String) :
    FindsKept (embedding.resolve referrer? specifier) := by
  unfold resolve
  split
  · exact findsKept_remember _ _ _
  · split
    · exact findsKept_remember _ _ _
    · exact findsKept_throw _

theorem findsKept_resolveImported (referrer? : Option RecordId) (specifier : String) :
    FindsKept (embedding.resolveImported referrer? specifier) := by
  unfold resolveImported
  split
  · exact findsKept_remember _ _ _
  · split
    · exact embedding.findsKept_resolve none specifier
    · refine fun w => (Attempt.meets_bind _ _).2 ((Attempt.meets_lift _).2 ?_)
      rw [locationOf, Action.meets_bind, Action.meets_get, Action.meets_pure]
      split
      · exact embedding.findsKept_resolve _ specifier w
      · trivial

/-- What a module imports through the resolver is kept by it. -/
theorem findsKept_importFor (referrer : RecordId) (specifier : String) :
    FindsKept (embedding.importFor .resolver referrer specifier) := by
  refine findsKept_get_bind fun w => ?_
  dsimp only
  split
  · exact embedding.findsKept_resolveImported _ specifier
  · exact findsKept_throw _

theorem findsKept_resolveLoaded (location : Url) (source : List UInt8) :
    FindsKept (embedding.resolveLoaded location source) := findsKept_remember _ _ _

end Embedding

namespace Engine

/-- What an invariant needs to be upheld by scripts: what they do by themselves carries it along,
and where it holds an action may give up. -/
structure Scripted (stuck inv : World → Prop) : Prop where
  stop : ∀ w, inv w → stuck w
  strokes : ∀ w w', World.Strokes w w' → inv w → inv w'

/-- The same for an invariant that does not depend on what is known of exported names. -/
structure Touched (stuck inv : World → Prop) : Prop where
  stop : ∀ w, inv w → stuck w
  touches : ∀ w w', World.Touches w w' → inv w → inv w'

theorem Touched.scripted {stuck inv : World → Prop} (touched : Touched stuck inv) :
    Scripted stuck inv :=
  ⟨touched.stop, fun w w' strokes => touched.touches w w' strokes.touches⟩

/-- What an invariant needs to be upheld by code that asks the resolver: resolution upholds it as
well, where it comes to locations of a certain kind only. -/
structure Consulted (embedding : Embedding) (stuck inv : World → Prop)
    (site : Url → Prop := fun _ => True) : Prop extends Scripted stuck inv where
  within : embedding.StaysWithin site
  located : ∀ w, inv w → ∀ id location, w.locations.lookup id = some location → site location
  host : ∀ specifier, embedding.config.isHostSpecifier specifier = true →
    Attempt.Upholds stuck inv (embedding.resolveHost specifier)
  location : ∀ location specifier, site location →
    Attempt.Upholds stuck inv (embedding.resolveLocation location specifier)
  loaded : ∀ location source, site location →
    Attempt.Upholds stuck inv (embedding.resolveLoaded location source)

/-- What an invariant needs to be upheld by code that begins no walk: linking and instantiation
uphold it as well. Code links only what resolution has kept, so nothing else needs to be linked. -/
structure Borne (embedding : Embedding) (stuck inv : World → Prop)
    (site : Url → Prop := fun _ => True) (linkable : RecordId → Prop := fun _ => True) : Prop
    extends Consulted embedding stuck inv site where
  link : ∀ depth id, linkable id → Attempt.Upholds stuck inv (embedding.link depth id)
  found : ∀ w key id, inv w → w.cache.get? key = some (.ok id) → linkable id
  instantiate : ∀ depth realm id, Attempt.Upholds stuck inv (Action.instantiate depth realm id)

/-- An invariant that all changes carry along. -/
structure Carried (stuck inv : World → Prop) : Prop where
  stop : ∀ w, inv w → stuck w
  changes : ∀ w w', World.Changes w w' → inv w → inv w'

/-- An engine that upholds an invariant in a realm: its calls and its evaluations do. -/
structure Upholds (engine : Engine) (realm : RealmId) (stuck inv : World → Prop) : Prop where
  call : ∀ frame : Frame, frame.realm = realm → ∀ function arguments,
    Action.Upholds stuck inv (engine.call frame function arguments)
  evaluate : ∀ id, Action.Upholds stuck inv (engine.evaluate realm id)

section
variable {α : Type} {stuck inv : World → Prop} {site : Url → Prop} {linkable : RecordId → Prop}
  {embedding : Embedding} {engine : Engine} {realm : RealmId}

theorem Scripted.kept (scripted : Scripted stuck inv) {action : Action α}
    (keeps : Action.Keeps World.Strokes action) : Action.Upholds stuck inv action :=
  keeps.upholds scripted.strokes scripted.stop

theorem Touched.kept (touched : Touched stuck inv) {action : Action α}
    (keeps : Action.Keeps World.Touches action) : Action.Upholds stuck inv action :=
  keeps.upholds touched.touches touched.stop

theorem Carried.changed (carried : Carried stuck inv) {action : Action α}
    (keeps : Action.Keeps World.Changes action) : Action.Upholds stuck inv action :=
  keeps.upholds carried.changes carried.stop

theorem Carried.touched (carried : Carried stuck inv) : Touched stuck inv :=
  ⟨carried.stop, fun w w' touches => carried.changes w w' touches.edits.changes⟩

theorem Touched.of_absorbed {R : World → World → Prop} [World.Absorbs R]
    (stop : ∀ w, inv w → stuck w) (carries : ∀ w w', R w w' → inv w → inv w') :
    Touched stuck inv :=
  ⟨stop, fun w w' touches => carries w w' touches.absorbed⟩

/-- What a relation carries along that takes in resolution is upheld by code that asks the resolver.
-/
theorem Consulted.of_retained {R : World → World → Prop} [World.Retains R]
    (stop : ∀ w, inv w → stuck w) (carries : ∀ w w', R w w' → inv w → inv w') :
    Consulted embedding stuck inv where
  stop := stop
  strokes w w' strokes := carries w w' strokes.struck
  within := embedding.staysWithin_all
  located _ _ _ _ _ := trivial
  host specifier _ := (embedding.keeps_resolveHost specifier).upholds carries stop
  location location specifier _ :=
    (embedding.keeps_resolveLocation location specifier).upholds carries stop
  loaded location source _ := (embedding.keeps_resolveLoaded location source).upholds carries stop

theorem Carried.borne (carried : Carried stuck inv) (embedding : Embedding) :
    Borne embedding stuck inv where
  toConsulted := .of_retained carried.stop fun w w' (edits : World.Edits w w') =>
    carried.changes w w' edits.changes
  link depth id _ :=
    carried.changed ((embedding.keeps_link depth id).mono fun _ _ h => h.changes)
  found _ _ _ _ _ := trivial
  instantiate depth realm id := carried.changed (Action.keeps_instantiate depth realm id)

/-! ### Resolution and instantiation -/

namespace Consulted
variable (consulted : Consulted embedding stuck inv site)
include consulted

theorem resolve {referrer? : Option Url} (within : ∀ referrer ∈ referrer?, site referrer)
    (specifier : String) :
    Attempt.Upholds stuck inv (embedding.resolve referrer? specifier) := by
  have written : site (referrer?.getD embedding.config.base) := by
    cases referrer? with
    | none => exact consulted.within.base
    | some referrer => exact within referrer rfl
  unfold Embedding.resolve
  split
  · exact consulted.host specifier ‹_›
  · split
    · exact consulted.location _ specifier (consulted.within.canonical _ _ _ written ‹_›)
    · exact .throw _

theorem resolveImported (referrer? : Option RecordId) (specifier : String) :
    Attempt.Upholds stuck inv (embedding.resolveImported referrer? specifier) := by
  unfold Embedding.resolveImported
  split
  · exact consulted.host specifier ‹_›
  · split
    · exact consulted.resolve (by simp) specifier
    · rename_i id
      refine .of_meets fun w h => ?_
      have looked : (liftM (Embedding.locationOf id) : Attempt _).run w =
          .ok (.ok (w.locations.lookup id)) w := rfl
      rw [Attempt.meets_bind_of_ended looked]
      split
      · rename_i location found
        have within : ∀ referrer ∈ some location, site referrer := by
          simpa using consulted.located w h id location found
        exact (consulted.resolve within specifier).meets h
      · exact h

theorem importFor (importer : Importer) (referrer : RecordId) (specifier : String) :
    Attempt.Upholds stuck inv (embedding.importFor importer referrer specifier) := by
  refine .bind .get fun world => ?_
  split
  · split
    · exact consulted.resolveImported _ specifier
    · exact .throw _
  · split
    · exact .pure _
    · exact .throw _

end Consulted

namespace Borne
variable (borne : Borne embedding stuck inv site linkable)
include borne

/-- What goes on with a record that resolution has found. -/
theorem bind_found {β : Type} {attempt : Attempt RecordId} {next : RecordId → Attempt β}
    (upholds : Attempt.Upholds stuck inv attempt) (finds : Embedding.FindsKept attempt)
    (later : ∀ {id}, linkable id → Attempt.Upholds stuck inv (next id)) :
    Attempt.Upholds stuck inv (attempt >>= next) := by
  refine .of_meets fun w h => (Attempt.meets_bind _ _).2 ?_
  refine ((upholds.meets h).and (finds w)).imp (fun _ h => h.1) (fun _ _ h => h.1) fun id w' h => ?_
  obtain ⟨h, key, kept⟩ := h
  exact (later (borne.found w' key id h kept)).meets h

theorem instantiateFrom (depth : Nat) (realm : RealmId) (unvisited pending : List RecordId) :
    Attempt.Upholds stuck inv (Action.instantiateFrom depth realm unvisited pending) := by
  induction unvisited, pending using Action.instantiateFrom.induct with
  | case1 unvisited =>
    rw [Action.instantiateFrom]
    exact .pure _
  | case2 unvisited id rest unvisitedYet ih =>
    rw [Action.instantiateFrom, if_pos unvisitedYet]
    exact .bind (borne.instantiate depth realm id) fun _ => .bind .get fun _ => ih _
  | case3 unvisited id rest visited ih =>
    rw [Action.instantiateFrom, if_neg visited]
    exact ih

theorem instantiateGraph (depth : Nat) (realm : RealmId) (root : RecordId) :
    Attempt.Upholds stuck inv (Action.instantiateGraph depth realm root) :=
  .bind .get fun _ => borne.instantiateFrom depth realm _ _

end Borne

/-! ### Bodies -/

section
variable (scripted : Scripted stuck inv) (upholds : engine.Upholds realm stuck inv)
include scripted upholds

theorem upholds_script {frame : Frame} (inRealm : frame.realm = realm) (script : Script) :
    Action.Upholds stuck inv (script.run engine.powers frame) :=
  Script.upholds_run scripted.stop scripted.strokes (upholds.call frame inRealm)
    (fun id => inRealm ▸ upholds.evaluate id)
    (fun _ _ => scripted.kept (Action.keeps_readEnvironment _ _ _)) script

theorem upholds_runBody (body : Script) :
    Attempt.Upholds stuck inv (engine.runBody realm body) := by
  refine .bind (.lift (upholds_script scripted upholds rfl body)) fun outcome => ?_
  split
  · exact .pure _
  · exact .throw _

theorem upholds_runWrapper {id : RecordId}
    (publishes : ∀ names, Action.Upholds stuck inv (Action.publishNames engine.depth id names))
    (module : WrapperModule) {instanceIndex : Nat}
    (exports : ∀ (w : World) change, (∀ content : Instance, content.Becomes (change content)) →
      inv w → inv (w.modifyRealm realm (·.modifyInstance instanceIndex change))) :
    Attempt.Upholds stuck inv (engine.runWrapper realm id module instanceIndex) := by
  have edited {α : Type} {action : Action α} (keeps : Action.Keeps World.Strokes action) :
      Attempt.Upholds stuck inv (liftM action : Attempt α) := .lift (scripted.kept keeps)
  have modified {change : Instance → Instance}
      (becomes : ∀ content : Instance, content.Becomes (change content)) : Attempt.Upholds stuck inv
      (liftM (modify (·.modifyRealm realm (·.modifyInstance instanceIndex change)) : Action Unit) :
        Attempt Unit) :=
    .lift fun w => exports w change becomes
  unfold runWrapper
  refine .bind (upholds_runBody scripted upholds module.program) fun value => ?_
  split
  · refine .bind (edited (Action.keeps_newObject _ _)) fun exports =>
      .bind (edited (Action.keeps_newObject _ _)) fun descriptor =>
      .bind (modified fun _ => Instance.becomes_setExports _) fun _ =>
      .bind (edited (Action.keeps_newFunction _ _ _)) fun require =>
      .bind (.lift (upholds.call _ rfl _ _)) fun outcome => ?_
    split
    · exact .throw _
    · refine .bind .get fun world => ?_
      dsimp only
      split
      · exact .throw _
      · exact .bind (modified fun _ => Instance.becomes_setExports _) fun _ => .bind .get fun _ =>
          .bind (.lift (publishes _)) fun _ => .bind .get fun _ =>
          modified fun _ => Instance.becomes_setMarked _
  · exact .throw _

/-- What a body does passes on names, and changes what its instance exports, only if the module is a
wrapper-style one. -/
theorem upholds_runInstance_of {id : RecordId} {record : Record} {instanceIndex : Nat}
    (publishes : ∀ module, record = .wrapper module →
      ∀ names, Action.Upholds stuck inv (Action.publishNames engine.depth id names))
    (exports : ∀ module, record = .wrapper module → ∀ (w : World) change,
      (∀ content : Instance, content.Becomes (change content)) → inv w →
      inv (w.modifyRealm realm (·.modifyInstance instanceIndex change))) :
    Attempt.Upholds stuck inv (engine.runInstance realm id instanceIndex record) := by
  cases record with
  | static module => exact .map (upholds_runBody scripted upholds _) _
  | wrapper module =>
    exact upholds_runWrapper scripted upholds (publishes module rfl) module (exports module rfl)
  | host module => exact .pure _
  | custom module => exact .map (upholds_runBody scripted upholds _) _

end

theorem upholds_runInstance (touched : Touched stuck inv) (upholds : engine.Upholds realm stuck inv)
    (id : RecordId) {instanceIndex : Nat} (record : Record)
    (exports : ∀ (w : World) change, (∀ content : Instance, content.Becomes (change content)) →
      inv w → inv (w.modifyRealm realm (·.modifyInstance instanceIndex change))) :
    Attempt.Upholds stuck inv (engine.runInstance realm id instanceIndex record) :=
  upholds_runInstance_of touched.scripted upholds
    (fun _ _ _ => touched.kept (Action.keeps_publishNames _ _ _)) fun _ _ => exports

section
variable (borne : Borne embedding stuck inv site linkable)
  (walks : ∀ root, Action.Upholds stuck inv (engine.walk realm root))
include borne walks

theorem upholds_evaluateFrom (root : RecordId) :
    Action.Upholds stuck inv (engine.evaluateFrom realm root) := by
  refine .bind (borne.instantiateGraph _ realm root) fun outcome => ?_
  split
  · exact .pure _
  · refine .bind (walks root) fun outcome => ?_
    split <;> exact .pure _

theorem upholds_requireFrom {id : RecordId} (links : linkable id) :
    Attempt.Upholds stuck inv (requireFrom embedding engine realm id) := by
  refine .bind (borne.link _ id links) fun _ => .bind (borne.instantiateGraph _ realm id) fun _ =>
    .bind (.lift (walks id)) fun outcome => ?_
  split
  · exact .throw _
  · refine .bind (.map (.bind .get fun world => ?_) _) fun _ =>
      .lift (borne.kept (Action.keeps_exportsValue _ realm id))
    split
    · exact .pure _
    · exact .throw _

theorem upholds_requireCall (referrer : RecordId) (arguments : List Value) :
    Action.Upholds stuck inv (requireCall embedding engine realm referrer arguments) := by
  unfold requireCall
  split
  · rename_i specifier _
    have required : Attempt.Upholds stuck inv (do
        let id ← embedding.importFor .resolver referrer specifier
        requireFrom embedding engine realm id) :=
      borne.bind_found (borne.importFor _ _ _) (embedding.findsKept_importFor _ _) fun links =>
        upholds_requireFrom borne walks links
    refine .bind required fun outcome => ?_
    split <;> exact .pure _
  · exact .pure _

variable (upholds : engine.Upholds realm stuck inv)
include upholds

theorem upholds_callFrom {frame : Frame} (inRealm : frame.realm = realm)
    (function : FunctionRef) (arguments : List Value) :
    Action.Upholds stuck inv (callFrom embedding engine frame function arguments) := by
  refine .bind (borne.kept (Action.keeps_functionCode function)) fun code => ?_
  split
  · exact upholds_script borne.toScripted upholds inRealm _
  · exact inRealm ▸ upholds_requireCall borne walks _ _

/-- The engine one level deeper upholds what walks uphold. -/
theorem Upholds.next : (engine.next embedding).Upholds realm stuck inv where
  call _ inRealm := upholds_callFrom borne walks upholds inRealm
  evaluate := upholds_evaluateFrom borne walks

end
end

end Engine
end ModuleGraph
