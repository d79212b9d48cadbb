import ModuleGraph.Proofs.Entries

/-!
Requiring against evaluating. Both bring a graph into a realm and walk it, each in code of its own,
and only the one that evaluates looks whether the walk has left modules open. Since no walk that
comes to its end does, the two agree.
-/
namespace ModuleGraph
open World Engine

namespace Engine
variable {embedding : Embedding} {depth : Nat} {realm : RealmId} {id : RecordId}
  {w w₁ w₂ : World}

/-- What to require a record gives when its graph has settled: the error that it has settled with,
or what the record exports. -/
def exportsOf (depth : Nat) (realm : RealmId) (id : RecordId) (settlement : Settlement) :
    Action (Outcome Value) :=
  match settlement.error? with
  | some error => pure (.error error)
  | none => .ok <$> Action.exportsValue depth realm id

theorem exportsOf_of_error {settlement : Settlement} {error : ModuleError}
    (settles : settlement.error? = some error) (w : World) :
    exportsOf depth realm id settlement w = .ok (.error error) w := by
  rw [exportsOf, settles]
  rfl

theorem exportsOf_fulfilled (w : World) :
    exportsOf depth realm id .fulfilled w =
      match Action.exportsValue depth realm id w with
      | .ok value w' => .ok (.ok value) w'
      | .error u w' => .error u w' := by
  show EStateM.map Except.ok (Action.exportsValue depth realm id) w = _
  unfold EStateM.map
  cases Action.exportsValue depth realm id w <;> rfl

/-! ### What the two make of a walk -/

section
variable (linked : (embedding.link depth id).run w = .ok (.ok ()) w)
  (instantiated : (Action.instantiateGraph depth realm id).run w = .ok (.ok ()) w₁)
include instantiated

theorem evaluateFrom_of_empty
    (walked : (ofDepth embedding depth).walk realm id w₁ = .ok (.ok []) w₂) :
    (ofDepth embedding depth).evaluateFrom realm id w = .ok .fulfilled w₂ := by
  apply Action.Meets.eq
  unfold evaluateFrom
  rw [depth_ofDepth, Action.meets_bind_of_ended instantiated, Action.meets_bind_of_ended walked]
  exact ⟨rfl, rfl⟩

theorem evaluateFrom_of_stuck
    (walked : (ofDepth embedding depth).walk realm id w₁ = .error () w₂) :
    (ofDepth embedding depth).evaluateFrom realm id w = .error () w₂ := by
  unfold evaluateFrom
  rw [depth_ofDepth, Action.run_bind, instantiated]
  dsimp only
  rw [Action.run_bind, walked]

include linked

theorem requireFrom_of_empty
    (walked : (ofDepth embedding depth).walk realm id w₁ = .ok (.ok []) w₂)
    {slot : Slot} (found : (w₂.realm realm).slot? id = some slot) :
    (requireFrom embedding (ofDepth embedding depth) realm id).run w =
      exportsOf depth realm id .fulfilled w₂ := by
  have slotted : (discard (slotOf realm id)).run w₂ = .ok (.ok ()) w₂ := by
    apply Action.Meets.eq
    rw [Attempt.meets_run, Attempt.meets_discard]
    exact meets_slotOf_found found ⟨rfl, rfl⟩
  unfold requireFrom
  rw [depth_ofDepth, Attempt.run_bind_of_ended linked, Attempt.run_bind_of_ended instantiated,
    Attempt.run_bind, Attempt.run_lift, walked]
  dsimp only
  rw [Attempt.run_bind_of_ended slotted]
  rfl

theorem requireFrom_of_stuck
    (walked : (ofDepth embedding depth).walk realm id w₁ = .error () w₂) :
    (requireFrom embedding (ofDepth embedding depth) realm id).run w = .error () w₂ := by
  unfold requireFrom
  rw [depth_ofDepth, Attempt.run_bind_of_ended linked, Attempt.run_bind_of_ended instantiated,
    Attempt.run_bind, Attempt.run_lift, walked]

end

variable (embedding depth realm) in
/-- To require a linked record is to evaluate it and then to read what it exports. -/
theorem requireFrom_eq (orderly : w.Orderly) (present : w.hasRecord id)
    (settled : (w.record id).IsSettled)
    (links : Embedding.linkedAlready (w.record id) = .ok ()) :
    (requireFrom embedding (ofDepth embedding (depth + 1)) realm id).run w =
      ((ofDepth embedding (depth + 1)).evaluateFrom realm id >>=
        exportsOf (depth + 1) realm id) w := by
  have linked : (embedding.link (depth + 1) id).run w = .ok (.ok ()) w := by
    rw [embedding.run_link_of_isSettled settled, links]
  have changes := (Action.keeps_instantiateGraph (depth + 1) realm id).meets w
  have comes := Action.meets_instantiateGraph_root (depth + 1) realm orderly present
  rw [Action.run_bind]
  cases instantiated : (Action.instantiateGraph (depth + 1) realm id).run w with
  | error _ w₁ =>
    unfold requireFrom evaluateFrom
    rw [depth_ofDepth, Attempt.run_bind_of_ended linked, Attempt.run_bind, Action.run_bind,
      instantiated]
  | ok outcome w₁ =>
    cases outcome with
    | error error =>
      unfold requireFrom evaluateFrom
      rw [depth_ofDepth, Attempt.run_bind_of_ended linked, Attempt.run_bind, Action.run_bind,
        instantiated]
      rfl
    | ok _ =>
      rw [Attempt.Meets, instantiated] at changes comes
      have orderly₁ := Changes.orderly changes orderly
      have order : Action.Meets Orderly ((ofDepth embedding (depth + 1)).walk realm id) _ w₁ :=
        (keepsOrder_ofDepth embedding (depth + 1)).meets_walk orderly₁ id
      have steps : Action.Meets (Steps w₁) ((ofDepth embedding (depth + 1)).walk realm id) _ w₁ :=
        (keepsSteps_ofDepth embedding (depth + 1)).meets_walk orderly₁ id
      cases walked : (ofDepth embedding (depth + 1)).walk realm id w₁ with
      | error _ w₂ =>
        rw [evaluateFrom_of_stuck instantiated walked,
          requireFrom_of_stuck linked instantiated walked]
      | ok outcome w₂ =>
        rw [Action.Meets, walked] at order steps
        cases outcome with
        | error interrupt =>
          rw [evaluateFrom_of_walk instantiated walked,
            requireFrom_of_walk instantiated walked linked]
          cases interrupt <;> rfl
        | ok left =>
          -- a walk that comes to its end has emptied its stack
          cases order.1 left rfl
          obtain ⟨slot, found⟩ := comes
          obtain ⟨slot', found', _⟩ := Steps.onward steps found
          rw [evaluateFrom_of_empty instantiated walked,
            requireFrom_of_empty linked instantiated walked found']

end Engine

/-- Wherever code has come to from a fresh world, at the top or in the middle of a body, to require
a linked record and to evaluate it come to the same from there. `require` fails with an error just
when the evaluation is rejected with it, or is pending and the error says so, and in the same world.
It gives a value just when the evaluation is fulfilled: the one that the record exports in the world
that the evaluation leaves, and to read it changes nothing that evaluation looks at. Beyond that it
gives up only where the evaluation or the reading does. -/
theorem require_agrees_with_evaluate (embedding : Embedding) (depth : Nat) (w : World)
    (reached : w.Reached) (realm : RealmId) (id : RecordId) (present : w.hasRecord id)
    (settled : (w.record id).IsSettled)
    (links : Embedding.linkedAlready (w.record id) = .ok ()) :
    let evaluated := (ofDepth embedding (depth + 1)).evaluateFrom realm id w
    let required := (requireFrom embedding (ofDepth embedding (depth + 1)) realm id).run w
    let exports := Action.exportsValue (depth + 1) realm id
    (∀ error w', required = .ok (.error error) w' ↔
      evaluated = .ok (.rejected error) w' ∨ ∃ location,
        evaluated = .ok (.pending location) w' ∧
          error = .unsupportedTopLevelSuspension location) ∧
    (∀ value w', required = .ok (.ok value) w' ↔
      ∃ w₁, evaluated = .ok .fulfilled w₁ ∧ exports w₁ = .ok value w') ∧
    (∀ w', required = .error () w' ↔
      evaluated = .error () w' ∨ ∃ w₁, evaluated = .ok .fulfilled w₁ ∧ exports w₁ = .error () w') ∧
    ∀ w₁, Still w₁ (exports.after w₁) := by
  have same := requireFrom_eq embedding depth realm reached.orderly present settled links
  have still (w₁ : World) : Still w₁ ((Action.exportsValue (depth + 1) realm id).after w₁) :=
    Edits.still (Action.Meets.after (Action.keeps_exportsValue (R := Edits) _ realm id w₁))
  dsimp only
  rw [same, Action.run_bind]
  rcases (ofDepth embedding (depth + 1)).evaluateFrom realm id w with
    ⟨_ | error | location, w₁⟩ | ⟨_, w₁⟩
  · dsimp only
    rw [exportsOf_fulfilled]
    cases reading : Action.exportsValue (depth + 1) realm id w₁ <;> simp [reading, still]
  · dsimp only
    rw [exportsOf_of_error rfl]
    simp [still]
  · dsimp only
    rw [exportsOf_of_error rfl]
    simp [still, eq_comm, and_comm]
  · simp [still]

/-- In the middle of a body, a module that is open further out is there at once for both, and one
that fails is so for both with the same error. -/
theorem require_agrees_in_midway :
    ((midway.realm (.worker 0)).status? ⟨0⟩ = some .evaluating ∧
      ∃ w₁, (ofDepth .bare 4).evaluateFrom (.worker 0) ⟨0⟩ midway = .ok .fulfilled w₁ ∧
        ∃ value w', (requireFrom .bare (ofDepth .bare 4) (.worker 0) ⟨0⟩).run midway =
          .ok (.ok value) w') ∧
      ∃ error w', (ofDepth .bare 4).evaluateFrom (.worker 0) ⟨4⟩ midway =
          .ok (.rejected error) w' ∧
        (requireFrom .bare (ofDepth .bare 4) (.worker 0) ⟨4⟩).run midway =
          .ok (.error error) w' := by
  have reached := framed_in_midway.1
  have agree (id : RecordId) (present : midway.hasRecord id) (settled : (midway.record id).IsSettled)
      (links : Embedding.linkedAlready (midway.record id) = .ok ()) :=
    require_agrees_with_evaluate .bare 3 midway reached (.worker 0) id present settled links
  have open₀ : ((ofDepth .bare 4).evaluateFrom (.worker 0) ⟨0⟩).ends midway (fun settlement w₁ =>
      decide (settlement = .fulfilled) &&
        (Action.exportsValue 4 (.worker 0) ⟨0⟩).ends w₁ fun _ _ => true) = true := by cbv
  have failed₄ : ((ofDepth .bare 4).evaluateFrom (.worker 0) ⟨4⟩).ends midway
      (fun settlement _ =>
        settlement = .rejected (.evaluationRejected (.string "boom"))) = true := by cbv
  obtain ⟨settlement₀, w₁, evaluated₀, fulfilled⟩ := Action.exists_of_ends open₀
  obtain ⟨settlement₄, w', evaluated₄, failed⟩ := Action.exists_of_ends failed₄
  refine ⟨⟨by cbv, w₁, ?_⟩, ?_⟩
  · obtain ⟨settles, reads⟩ := Bool.and_eq_true_iff.mp fulfilled
    obtain ⟨value, w', read, _⟩ := Action.exists_of_ends reads
    rw [of_decide_eq_true settles] at evaluated₀
    exact ⟨evaluated₀, value, w', ((agree ⟨0⟩ (by cbv) (by cbv) (by cbv)).2.1 value w').mpr
      ⟨w₁, evaluated₀, read⟩⟩
  · rw [of_decide_eq_true failed] at evaluated₄
    exact ⟨_, w', evaluated₄, ((agree ⟨4⟩ (by cbv) (by cbv) (by cbv)).1 _ w').mpr
      (.inl evaluated₄)⟩

end ModuleGraph
