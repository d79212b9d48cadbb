import ModuleGraph.Proofs.Discoveries
import ModuleGraph.Proofs.Sustained

/-!
Resolution and what goes on beside it. Scripts, linking, instantiation and evaluation leave alone
what resolution looks at, but that they can end the discovery of modules. So an invariant of what
resolution looks at holds throughout a run if lookups do not break it.
-/
namespace ModuleGraph
open World Engine

/-! ### Beside resolution -/

namespace World
variable {w w' : World}

/-- The questions to the loader and to the compiler so far. -/
def inquiries (w : World) : List Event := w.journal.toList.filter Event.isInquiry

@[simp] theorem inquiries_write (w : World) (event : Event) :
    (w.write event).inquiries = w.inquiries ++ [event].filter Event.isInquiry := by
  simp only [inquiries, write, Array.toList_push, List.filter_append]

/-- What went on had nothing to do with resolution, but that it may have ended the discovery of
modules. -/
structure Beside (w w' : World) : Prop where
  revised : ∀ id, Revised (w.record id) (w'.record id)
  cache : w'.cache = w.cache ∨ w'.cache = w.cache.lock
  locations : w'.locations = w.locations
  hasResolver : w'.hasResolver = w.hasResolver
  inquiries : w'.inquiries = w.inquiries

namespace Beside

theorem get? (beside : Beside w w') (key : String) : w'.cache.get? key = w.cache.get? key := by
  rcases beside.cache with same | same <;> simp [same]

theorem setRecord {id : RecordId} {record : Record} (revised : Revised (w.record id) record) :
    Beside w (w.setRecord id record) where
  revised := revised_setRecord revised
  cache := .inl rfl
  locations := rfl
  hasResolver := rfl
  inquiries := rfl

theorem lock (w : World) : Beside w w.lock where
  revised _ := .same _
  cache := .inr rfl
  locations := rfl
  hasResolver := rfl
  inquiries := rfl

theorem modifyRealm (w : World) (realm : RealmId) (change : Realm → Realm) :
    Beside w (w.modifyRealm realm change) where
  revised _ := .same _
  cache := .inl rfl
  locations := rfl
  hasResolver := rfl
  inquiries := rfl

theorem write (beside : Beside w w') {event : Event} (other : event.isInquiry = false) :
    Beside w (w'.write event) where
  revised := beside.revised
  cache := beside.cache
  locations := beside.locations
  hasResolver := beside.hasResolver
  inquiries := by
    have nothing : [event].filter Event.isInquiry = [] := by simp [other]
    rw [inquiries_write, nothing, List.append_nil, beside.inquiries]

theorem refl (w : World) : Beside w w where
  revised _ := .same _
  cache := .inl rfl
  locations := rfl
  hasResolver := rfl
  inquiries := rfl

theorem of_touch (touch : Touch w w') : Beside w w' := by
  cases touch with
  | pushObject | pushFunction | setProperties | setBinding => exact .modifyRealm w _ _
  | setMemo id memo => exact .setRecord (.memo _ memo)
  | lock => exact .lock w
  | write event told => exact (Beside.refl w).write (by cases event <;> first | rfl | cases told)

theorem of_move (move : Move w w') : Beside w w' := by
  cases move with
  | arrange realm change => exact .modifyRealm w realm change
  | write event inward =>
    exact (Beside.refl w).write (by cases event <;> first | rfl | cases inward)

end Beside
end World

/-- A place that a lookup can come to: host modules are looked for under host specifiers only, and
locations are of a certain kind. -/
def Place.IsLegal (embedding : Embedding) (site : Url → Prop) : Place → Prop
  | .host name => embedding.config.isHostSpecifier name = true
  | .location url => site url

namespace Engine
variable {embedding : Embedding} {stuck inv : World → Prop} {site : Url → Prop}

theorem Touched.of_touch (stop : ∀ w, inv w → stuck w)
    (touch : ∀ w w', Touch w w' → inv w → inv w') : Touched stuck inv := by
  refine ⟨stop, fun w w' touches h => ?_⟩
  induction touches with
  | refl => exact h
  | tail _ next ih => exact touch _ _ next ih

/-- Code that asks the resolver upholds what neither scripts nor lookups break. -/
theorem Consulted.of_lookedUp (scripted : Scripted stuck inv) (within : embedding.StaysWithin site)
    (located : ∀ w, inv w → ∀ id location, w.locations.lookup id = some location → site location)
    (lookedUp : ∀ place refused w outcome w', place.IsLegal embedding site →
      LookedUp embedding place refused w outcome w' → inv w → inv w') :
    Consulted embedding stuck inv site := by
  have remembers {place : Place} {compute : Attempt RecordId}
      (discovers : embedding.Discovers place compute) (legal : place.IsLegal embedding site)
      (refused : String) :
      Attempt.Upholds stuck inv (Embedding.remember place.key refused compute) := fun w h =>
    (discovers.lookedUp refused w).imp (fun _ impossible => impossible.elim)
      fun outcome w' did => lookedUp place refused w outcome w' legal did h
  refine ⟨scripted, within, located, ?host, ?location, ?loaded⟩
  · exact fun name isHost => remembers (.host name) isHost name
  · exact fun location specifier legal => remembers (.loads location specifier) legal _
  · exact fun location source legal => remembers (.holds location source) legal _

/-- An invariant holds throughout a run if it is a matter of what resolution looks at, and lookups
do not break it. -/
theorem sustained_of_beside (stop : ∀ w, inv w → stuck w) (within : embedding.StaysWithin site)
    (located : ∀ w, inv w → ∀ id location, w.locations.lookup id = some location → site location)
    (beside : ∀ w w', Beside w w' → inv w → inv w')
    (lookedUp : ∀ place refused w outcome w', place.IsLegal embedding site →
      LookedUp embedding place refused w outcome w' → inv w → inv w') :
    Sustained embedding stuck inv site := by
  have touched : Touched stuck inv := .of_touch stop fun w w' touch => beside w w' (.of_touch touch)
  have consulted : Consulted embedding stuck inv site :=
    .of_lookedUp touched.scripted within located lookedUp
  refine ⟨⟨consulted, fun depth id _ => Embedding.upholds_link_of consulted
    (fun w _ _ => beside w _ ((Beside.refl w).write rfl))
    (fun w id module status requested found => ?_) depth id, fun _ _ _ _ _ => trivial,
    touched.instantiate
      fun w realm _ _ _ => beside w _ ((Beside.modifyRealm w realm _).write rfl)⟩,
    touched.touches, fun w w' moves h => ?_⟩
  · exact beside w _ (.setRecord (found ▸ .relinked module status requested))
  · induction moves with
    | refl => exact h
    | tail _ move ih => exact beside _ _ (.of_move move) ih

/-- The same for an invariant to which locations do not matter, and which also holds where an action
gives up. -/
theorem sustained_of_lookedUp (beside : ∀ w w', Beside w w' → inv w → inv w')
    (lookedUp : ∀ place refused w outcome w',
      LookedUp embedding place refused w outcome w' → inv w → inv w') :
    Sustained embedding inv inv :=
  sustained_of_beside (fun _ h => h) embedding.staysWithin_all (fun _ _ _ _ _ => trivial) beside
    fun place refused w outcome w' _ => lookedUp place refused w outcome w'

end Engine

/-! ### Embedders that change -/

namespace Setup
variable {stuck inv : World → Prop}

theorem sustains_perform_linking {embedding : Embedding} {site : Url → Prop}
    {linkable : RecordId → Prop} (sustained : Sustained embedding stuck inv site linkable)
    (depth : Nat) {operation : Operation} (within : operation.StaysWithin site)
    (links : ∀ id, operation = .link id → linkable id) :
    Action.Upholds stuck inv ((Setup.ofDepth embedding depth).perform operation) :=
  upholds_perform sustained.toBorne ((sustained.ofDepth depth).walk sustained.lasting)
    (sustained.ofDepth depth).upholds within links
    fun _ _ _ => sustained.touched.kept (Action.keeps_askNames _ _ _)

theorem sustains_perform {embedding : Embedding} {site : Url → Prop}
    (sustained : Sustained embedding stuck inv site) (depth : Nat) {operation : Operation}
    (within : operation.StaysWithin site) :
    Action.Upholds stuck inv ((Setup.ofDepth embedding depth).perform operation) :=
  sustains_perform_linking sustained depth within fun _ _ => trivial

/-- Does one thing after the other, each with what the embedder supplies by then: its loader and its
compiler may answer otherwise every time. -/
def runEach (depth : Nat) : List (Embedding × Operation) → Action Unit
  | [] => pure ()
  | (embedding, operation) :: rest => do
    (Setup.ofDepth embedding depth).perform operation
    runEach depth rest

/-- What every supply sustains holds throughout, if only locations of a certain kind are given. -/
theorem upholds_runEach {site : Url → Prop} {linkable : RecordId → Prop} (depth : Nat)
    {steps : List (Embedding × Operation)}
    (sustained : ∀ step ∈ steps, Sustained step.1 stuck inv site linkable)
    (within : ∀ step ∈ steps, step.2.StaysWithin site)
    (links : ∀ step ∈ steps, ∀ id, step.2 = .link id → linkable id) :
    Action.Upholds stuck inv (runEach depth steps) := by
  induction steps with
  | nil => exact .pure _
  | cons step rest ih =>
    rw [List.forall_mem_cons] at sustained within links
    exact .bind (sustains_perform_linking sustained.1 depth within.1 links.1) fun _ =>
      ih sustained.2 within.2 links.2

/-- What is sustained whatever the embedder supplies holds throughout, also when that changes. -/
theorem sustained_after_runEach (sustained : ∀ embedding, Sustained embedding inv inv) (depth : Nat)
    (steps : List (Embedding × Operation)) {w : World} (h : inv w) :
    inv ((runEach depth steps).after w) :=
  (upholds_runEach depth (fun step _ => sustained step.1) (fun step _ => step.2.staysWithin_all)
    (fun _ _ _ _ => trivial) w h).after

end Setup
end ModuleGraph
