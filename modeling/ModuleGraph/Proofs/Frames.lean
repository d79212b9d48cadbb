import Mathlib
import ModuleGraph.Proofs.SteppedWalks

/-!
Frames of walks. A call of `evaluate` or `require`, from outside or from a running body, leaves the
modules that are evaluating as they were, however it ends; and what has begun keeps its slot.
-/
namespace ModuleGraph
open World Engine

namespace World
variable {w w' w'' : World} {realm r : RealmId}

/-- Two worlds between which a realm was framed: the same modules are evaluating, and every slot
that was evaluating or evaluated is as it was. -/
structure Framed (realm : RealmId) (w w' : World) : Prop where
  evaluating : ∀ id, (w'.realm realm).status? id = some .evaluating ↔
    (w.realm realm).status? id = some .evaluating
  slot : ∀ id slot, (w.realm realm).slot? id = some slot →
    slot.status = .evaluating ∨ slot.status = .evaluated → (w'.realm realm).slot? id = some slot

/-- The same walks hold the same modules open. -/
theorem Framed.of_undisturbed (h : w.Orderly) (h' : w'.Orderly)
    (walks : (w'.realm realm).walks = (w.realm realm).walks)
    (undisturbed : Undisturbed realm [] w w') : Framed realm w w' where
  evaluating id := by
    rw [← (h realm).busy, ← (h' realm).busy, Realm.busy, Realm.busy, walks]
  slot id slot found begun := by
    refine undisturbed.slot id List.not_mem_nil slot found fun instantiated => ?_
    rcases begun with status | status <;> simp [status] at instantiated

theorem Framed.of_holds (h : w.Orderly) (holds : Holds realm w w') (r : RealmId) :
    Framed r w w' := by
  obtain ⟨h', passes⟩ := holds
  by_cases same : r = realm
  · subst same
    exact .of_undisturbed h h' passes.walks passes.advance.within
  · obtain ⟨undisturbed, walks⟩ := passes.advance.elsewhere r same
    exact .of_undisturbed h h' walks undisturbed

end World

namespace Engine
variable (embedding : Embedding) (depth : Nat) (realm : RealmId) (id : RecordId) (w : World)

theorem holds_walk (root : RecordId) :
    Action.Upholds Orderly (Holds realm w) ((ofDepth embedding depth).walk realm root) :=
  fun _ h => ((keepsOrder_ofDepth embedding depth).meets_walk h.1 root).mono
    fun _ _ h' => ⟨h'.2.1, h.2.trans h'.2.2⟩

theorem holds_evaluateFrom :
    Action.Upholds Orderly (Holds realm w) ((ofDepth embedding depth).evaluateFrom realm id) :=
  upholds_evaluateFrom ((carried_holds realm w).borne embedding) (holds_walk embedding depth realm w)
    id

theorem holds_requireFrom :
    Attempt.Upholds Orderly (Holds realm w)
      (requireFrom embedding (ofDepth embedding depth) realm id) :=
  upholds_requireFrom ((carried_holds realm w).borne embedding) (holds_walk embedding depth realm w)
    trivial

end Engine

/-- Wherever code has come to from a fresh world, a call of `evaluate` or `require` leaves in every
realm the same modules evaluating, and all slots that were evaluating or evaluated as they were,
whatever its outcome is. So nothing is evaluating after it in a realm where nothing was before. -/
theorem framed_by_every_call (embedding : Embedding) (depth : Nat) (w w' : World)
    (reached : w.Reached) (realm : RealmId) (id : RecordId)
    (called :
      (∃ settlement, (ofDepth embedding depth).evaluateFrom realm id w = .ok settlement w') ∨
      ∃ outcome, (requireFrom embedding (ofDepth embedding depth) realm id).run w =
        .ok outcome w') (r : RealmId) :
    Framed r w w' ∧
      ((∀ x, (w.realm r).status? x ≠ some .evaluating) →
        ∀ x, (w'.realm r).status? x ≠ some .evaluating) := by
  have orderly := reached.orderly
  have start : Holds realm w w := ⟨orderly, .refl w⟩
  have holds : Holds realm w w' := by
    rcases called with ⟨settlement, called⟩ | ⟨outcome, called⟩
    · have meets := holds_evaluateFrom embedding depth realm id w w start
      rwa [Action.Meets, called] at meets
    · have meets := holds_requireFrom embedding depth realm id w w start
      rwa [Action.Meets, called] at meets
  have framed := Framed.of_holds orderly holds r
  exact ⟨framed, fun quiet x => (framed.evaluating x).not.mpr (quiet x)⟩

/-- The world when the evaluation of a chain of four modules gives up on its way, with two of them
open; a fifth one requests the first and fails. -/
def midway : World :=
  ((Setup.ofDepth .bare 2).run [.evaluate (.worker 0) ⟨0⟩]).after <|
    .ofModules [{ requested := [⟨1⟩] }, { requested := [⟨2⟩] }, { requested := [⟨3⟩] }, {},
      { requested := [⟨0⟩], body := .raise { value := .string "boom" } }]

theorem framed_in_midway :
    midway.Reached ∧ (midway.realm (.worker 0)).status? ⟨0⟩ = some .evaluating ∧
      ∃ error w', (ofDepth .bare 4).evaluateFrom (.worker 0) ⟨4⟩ midway =
        .ok (.rejected error) w' ∧ ∀ r, Framed r midway w' := by
  have reached : midway.Reached :=
    (fresh_ofModules _).reached.steps (Setup.steps_run _ _ _ (fresh_ofModules _).orderly)
  have computed : ((ofDepth .bare 4).evaluateFrom (.worker 0) ⟨4⟩).ends midway
      (fun settlement _ => settlement matches .rejected _) = true := by cbv
  obtain ⟨settlement, w', called, computed⟩ := Action.exists_of_ends computed
  split at computed
  · rename_i error
    refine ⟨reached, by cbv, error, w', called, fun r => ?_⟩
    exact (framed_by_every_call .bare 4 midway w' reached (.worker 0) ⟨4⟩ (.inl ⟨_, called⟩) r).1
  · cases computed

end ModuleGraph
