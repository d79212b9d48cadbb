import Mathlib
import ModuleGraph.Proofs.Runs
import ModuleGraph.Proofs.SoundWalks

/-!
Dependencies first, component by component. In any run a body begins when all that its module
requests has been evaluated well or is evaluating and leads to it, and modules are only evaluated
well in strongly connected components, all of whose bodies have run.
-/
namespace ModuleGraph
open World

namespace World
variable {w₀ w w' : World}

theorem Fresh.sound (h : w.Fresh) : w.Sound := by
  have nothing (realm : RealmId) (id : RecordId) : ¬ w.Fulfilled realm id := by
    rintro ⟨slot, found, _⟩
    simp [Realm.slot?, h.slots] at found
  refine ⟨fun before event later split => ?_, fun realm s _ well => absurd well (nothing realm s),
    fun realm id _ well => absurd well (nothing realm id)⟩
  simp [h.journal] at split

theorem Idle.waiting (idle : w.Idle) (realm : RealmId) : w.Waiting realm := by
  intro walk member
  rw [idle realm] at member
  exact absurd member List.not_mem_nil

/-- What holds between the things that an embedder does, of a world that came from another. -/
structure Settled (w₀ w : World) : Prop where
  records : Extends w₀ w
  orderly : w.Orderly
  idle : w.Idle
  sound : w.Sound

theorem Fresh.settled (h : w.Fresh) : Settled w w := ⟨.refl w, h.orderly, h.walks, h.sound⟩

theorem Settled.passes (h : Settled w₀ w) {realm : RealmId} (passes : Passes realm w w')
    (orderly : w'.Orderly) (sound : w'.Sound) : Settled w₀ w' :=
  ⟨h.records.trans passes.advance.records, orderly, passes.idle h.idle, sound⟩

theorem Settled.changes (h : Settled w₀ w) (changes : Changes w w') : Settled w₀ w' :=
  h.passes (Changes.passes changes (.worker 0)) (changes.orderly h.orderly)
    (changes.sound h.sound h.orderly)

end World

namespace Engine
variable {w₀ w : World}

/-- A walk that begins when none is under way leaves none under way, and if it comes to its end, its
root has been evaluated well or is evaluating. -/
theorem meets_settledWalk (embedding : Embedding) (depth : Nat) (h : Settled w₀ w)
    (realm : RealmId) (root : RecordId) :
    Action.Meets Sound ((ofDepth embedding depth).walk realm root)
      (fun outcome w' => Settled w₀ w' ∧ ∀ left, outcome = .ok left → w'.Ready realm root) w := by
  have order := keepsOrder_ofDepth embedding depth
  have sound := (keepsSound_ofDepth embedding depth).meets_walk h.orderly h.sound
    (h.idle.waiting realm) root
  exact ((order.meets_walk h.orderly root).and sound).imp (fun _ h' => h'.2)
    fun _ _ h' => ⟨h.passes h'.1.2.2 h'.1.2.1 h'.2.1, h'.2.2⟩

end Engine

namespace Setup

/-- Whatever an embedder does, evaluation does what it should at every event. -/
theorem upholds_settled (embedding : Embedding) (depth : Nat) (operations : List Operation)
    (w₀ : World) :
    Action.Upholds Sound (Settled w₀) ((Setup.ofDepth embedding depth).run operations) := by
  have order := Engine.keepsOrder_ofDepth embedding depth
  have sound := Engine.keepsSound_ofDepth embedding depth
  have carried : Engine.Carried Sound (Settled w₀) :=
    ⟨fun _ h => h.sound, fun _ _ changes h => h.changes changes⟩
  refine upholds_run (carried.borne embedding) carried.touched (fun realm root w h => ?walks)
    (fun realm => ⟨?call, ?evaluate⟩) operations
  case walks =>
    exact (Engine.meets_settledWalk embedding depth h realm root).mono fun _ _ h => h.1
  case call =>
    intro frame inRealm function arguments w h
    have keeps := order.call frame function arguments w h.orderly
    have meets := sound.call frame function arguments w h.orderly h.sound
      (h.idle.waiting frame.realm)
    exact (keeps.and meets).imp (fun _ h' => h'.2) fun _ _ h' => h.passes h'.1.2 h'.1.1 h'.2
  case evaluate =>
    intro id w h
    have keeps := order.evaluate realm id w h.orderly
    have meets := sound.evaluate realm id w h.orderly h.sound (h.idle.waiting realm)
    exact (keeps.and meets).imp (fun _ h' => h'.2) fun _ _ h' => h.passes h'.1.2 h'.1.1 h'.2

/-- Evaluation has done what it should at every event of any run, also one that went too deep. -/
theorem sound_after_run (embedding : Embedding) (depth : Nat) (operations : List Operation)
    {w : World} (fresh : w.Fresh) :
    (((Setup.ofDepth embedding depth).run operations).after w).Sound :=
  ((upholds_settled embedding depth operations w w fresh.settled).mono fun _ _ h => h.sound).after

end Setup

/-- In any run, when the body of a module that takes part in cycles begins, every module that it
requests is in the realm, where it has been evaluated without an error, or it is evaluating and
leads to the module by requests and by `require` calls that are under way. -/
theorem dependencies_met_when_began (embedding : Embedding) (depth : Nat)
    (operations : List Operation) (w₀ : World) (fresh : w₀.Fresh) (realm : RealmId) (id : RecordId)
    (moment : Moment) :
    let w := ((Setup.ofDepth embedding depth).run operations).after w₀
    .began realm id moment ∈ w.journal.toList → (moment.record id).isCyclic = true →
      moment.DependenciesMet id := by
  intro w began cyclic
  obtain ⟨before, later, split⟩ := List.append_of_mem began
  exact (Setup.sound_after_run embedding depth operations fresh).journal before _ later split cyclic

/-- Three modules of which the first two request each other and the second also requests the third
and itself, evaluated from the first. -/
def cycleWithTail : World :=
  ((Setup.ofDepth .bare 8).run [.evaluate (.worker 0) ⟨0⟩]).after <|
    .ofModules [{ requested := [⟨1⟩] }, { requested := [⟨2⟩, ⟨0⟩, ⟨1⟩] }, {}]

theorem dependencies_met_in_cycleWithTail :
    ∃ moment, .began (.worker 0) ⟨1⟩ moment ∈ cycleWithTail.journal.toList ∧
      (moment.record ⟨1⟩).isCyclic = true ∧ moment.DependenciesMet ⟨1⟩ := by
  have found : cycleWithTail.journal.toList.any (fun event => match event with
      | .began (.worker 0) ⟨1⟩ moment => (moment.record ⟨1⟩).isCyclic
      | _ => false) = true := by cbv
  obtain ⟨event, member, matching⟩ := List.any_eq_true.mp found
  split at matching
  · rename_i moment
    exact ⟨moment, member, matching, dependencies_met_when_began .bare 8
      [.evaluate (.worker 0) ⟨0⟩] _ (fresh_ofModules _) _ _ moment member matching⟩
  · cases matching

/-- In any run, what a walk closes is a strongly connected component of all modules that the walk
has opened, the body of each of its modules has run to its end, and each has been evaluated without
an error. And no module that takes part in cycles has been evaluated without an error that was not
closed so. -/
theorem closed_in_components (embedding : Embedding) (depth : Nat)
    (operations : List Operation) (w₀ : World) (fresh : w₀.Fresh) (realm : RealmId) :
    let w := ((Setup.ofDepth embedding depth).run operations).after w₀
    (∀ before modules moment later,
      w.journal.toList = before ++ .closed realm modules moment :: later →
        moment.IsComponent modules ∧ ∀ x ∈ modules, .ended realm x none ∈ before ∧
          ∃ slot, moment.realm.slot? x = some slot ∧
            slot.status = .evaluated ∧ slot.error = none) ∧
    ∀ id, (w.record id).isCyclic = true → w.Fulfilled realm id →
      ∃ modules moment, .closed realm modules moment ∈ w.journal.toList ∧ id ∈ modules := by
  intro w
  have sound : w.Sound := Setup.sound_after_run embedding depth operations fresh
  exact ⟨fun before modules moment later => sound.journal before _ later, sound.closed realm⟩

theorem closed_in_components_of_cycleWithTail :
    ∃ before modules moment later,
      cycleWithTail.journal.toList = before ++ .closed (.worker 0) modules moment :: later ∧
        moment.IsComponent modules ∧ modules = [⟨1⟩, ⟨0⟩] := by
  have found : cycleWithTail.journal.toList.any (fun event => match event with
      | .closed (.worker 0) modules _ => modules = [⟨1⟩, ⟨0⟩]
      | _ => false) = true := by cbv
  obtain ⟨event, member, matching⟩ := List.any_eq_true.mp found
  split at matching
  · rename_i modules moment
    obtain ⟨before, later, split⟩ := List.append_of_mem member
    exact ⟨before, modules, moment, later, split, ((closed_in_components .bare 8
      [.evaluate (.worker 0) ⟨0⟩] _ (fresh_ofModules _) (.worker 0)).1 before modules moment later
      split).1, of_decide_eq_true matching⟩
  · cases matching

end ModuleGraph
