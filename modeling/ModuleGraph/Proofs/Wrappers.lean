import ModuleGraph.Proofs.Failures

/-!
Wrapper-style modules. Such a module requests nothing, so a walk from it runs it at once; and to run
it is to open it, up to the call of its function, to call the function, and to close it.
-/
namespace ModuleGraph
open World Engine Relation

/-- The program of a wrapper-style script whose function does something. -/
def Script.wrapping (code : List Value → Script) : Script :=
  .newFunction "wrapper" code fun wrapper => .give (.function wrapper)

/-! ### In a realm -/

namespace World

/-- The world in which a realm has an instance of a wrapper-style module. -/
def withWrapper (w : World) (realm : RealmId) (id : RecordId) : World :=
  match (w.realm realm).slot? id with
  | some _ => w
  | none => w.addInstance realm id (.wrapper .undefined false)

/-- The world in which a module that is walked by itself and requests nothing begins to run. -/
def opening (w : World) (realm : RealmId) (id : RecordId) : World :=
  let turned := ((w.walking realm id).entered realm id 0).running realm (some id)
  turned.write (.began realm id (turned.moment realm))

section
variable {w : World} {realm : RealmId} {id : RecordId} {module : WrapperModule}

theorem hasRecord_of_wrapper (found : w.record id = .wrapper module) : w.hasRecord id := by
  by_contra absent
  rw [record_of_not_hasRecord absent] at found
  cases found

theorem record_withWrapper (w : World) (realm : RealmId) (id other : RecordId) :
    (w.withWrapper realm id).record other = w.record other := by
  unfold withWrapper
  split <;> rfl

/-- A module that has not begun is instantiated then. -/
theorem slot?_withWrapper (fresh : ¬ w.Begun realm id) :
    ∃ slot, ((w.withWrapper realm id).realm realm).slot? id = some slot ∧
      slot.status = .instantiated := by
  unfold withWrapper
  cases found : (w.realm realm).slot? id with
  | some slot => exact ⟨slot, found, not_not.mp fun begun => fresh ⟨slot, found, begun⟩⟩
  | none => exact ⟨_, by rw [slot?_addInstance found, if_pos rfl], rfl⟩

end
end World

namespace Engine
variable {embedding : Embedding} {engine : Engine} {depth : Nat} {realm : RealmId} {id : RecordId}
  {w v v' : World} {module : WrapperModule} {slot : Slot} {error : ModuleError}

/-- To instantiate the graph of a wrapper-style module gives the realm an instance of it. -/
theorem run_instantiateGraph_wrapper (found : w.record id = .wrapper module) (depth : Nat)
    (realm : RealmId) :
    (Action.instantiateGraph depth realm id).run w = .ok (.ok ()) (w.withWrapper realm id) := by
  have present := hasRecord_of_wrapper found
  have known : id ∈ w.recordIds := mem_recordIds.mpr present
  have instantiated : (Action.instantiate depth realm id).run w =
      .ok (.ok ()) (w.withWrapper realm id) := by
    apply Action.Meets.eq
    rw [Attempt.meets_run]
    unfold Action.instantiate withWrapper
    rw [Attempt.meets_bind, Attempt.meets_get]
    cases there : (w.realm realm).slot? id with
    | some slot => exact ⟨rfl, rfl⟩
    | none =>
      dsimp only
      rw [if_pos present, Attempt.meets_bind]
      unfold Action.newInstance
      rw [Attempt.meets_bind, Attempt.meets_get, found]
      exact ⟨rfl, rfl⟩
  have requested : ((w.withWrapper realm id).record id).requested = [] := by
    rw [record_withWrapper, found]
    rfl
  apply Action.Meets.eq
  rw [Attempt.meets_run]
  unfold Action.instantiateGraph
  rw [Attempt.meets_bind, Attempt.meets_get, Action.instantiateFrom, if_pos known,
    Attempt.meets_bind_of_ended instantiated, Attempt.meets_bind, Attempt.meets_get, requested]
  show Attempt.Meets _ _ (Action.instantiateFrom depth realm _ []) _ _
  rw [Action.instantiateFrom]
  exact ⟨rfl, rfl⟩

/-! ### Opening and closing -/

/-- What a wrapper-style module does up to the call of its function: answers the function, its
arguments, and the object that holds what the module exports in the end. -/
def openWrapper (engine : Engine) (realm : RealmId) (id : RecordId) (module : WrapperModule)
    (instanceIndex : Nat) : Attempt (FunctionRef × List Value × ObjectRef) := do
  match ← engine.runBody realm module.program with
  | .function wrapper =>
    let exports ← Action.newObject realm {}
    let descriptor ← Action.newObject realm
      (.ofEntries [("exports", .object exports), ("id", .string module.location.toText)])
    modify (·.modifyRealm realm (·.modifyInstance instanceIndex (.setExports (.object exports))))
    let require ← Action.newFunction realm "require" (.require id)
    pure (wrapper, [.object exports, .object descriptor, .function require], descriptor)
  | _ => throw (.defect (module.location.toText ++ " is not wrapped in a function"))

/-- What a wrapper-style module does when its function has ended. -/
def closeWrapper (engine : Engine) (realm : RealmId) (id : RecordId) (module : WrapperModule)
    (instanceIndex : Nat) (descriptor : ObjectRef) : Except Exception Value → Attempt Unit
  | .error exception => throw exception.toError
  | .ok _ => do
    let final := ((← get).properties descriptor).get "exports"
    if final.isNullish then throw (.invalidExports module.location.toText)
    else
      modify (·.modifyRealm realm (·.modifyInstance instanceIndex (.setExports final)))
      let keys := (← get).keys final
      Action.publishNames engine.depth id keys
      let isMarked := ((← get).property final marker).isTruthy
      modify (·.modifyRealm realm (·.modifyInstance instanceIndex (.setMarked isMarked)))

theorem runWrapper_eq (engine : Engine) (realm : RealmId) (id : RecordId) (module : WrapperModule)
    (instanceIndex : Nat) :
    engine.runWrapper realm id module instanceIndex =
      (do
        let opened ← engine.openWrapper realm id module instanceIndex
        let outcome ← engine.call (.of realm) opened.1 opened.2.1
        engine.closeWrapper realm id module instanceIndex opened.2.2 outcome) := by
  unfold runWrapper openWrapper
  rw [bind_assoc]
  refine bind_congr fun value => ?_
  cases value with
  | function wrapper =>
    simp only [bind_assoc, pure_bind]
    refine bind_congr fun exports => bind_congr fun descriptor => bind_congr fun _ =>
      bind_congr fun require => bind_congr fun outcome => ?_
    cases outcome <;> rfl
  | _ => rfl

/-- What scripts uphold is upheld up to the call of the function. -/
theorem upholds_openWrapper {stuck inv : World → Prop} (scripted : Scripted stuck inv)
    (upholds : engine.Upholds realm stuck inv) (id : RecordId) (module : WrapperModule)
    {instanceIndex : Nat}
    (exports : ∀ (w : World) exports, inv w →
      inv (w.modifyRealm realm (·.modifyInstance instanceIndex (.setExports exports)))) :
    Attempt.Upholds stuck inv (engine.openWrapper realm id module instanceIndex) := by
  have edited {α : Type} {action : Action α} (keeps : Action.Keeps World.Strokes action) :
      Attempt.Upholds stuck inv (liftM action : Attempt α) := .lift (scripted.kept keeps)
  unfold openWrapper
  refine .bind (upholds_runBody scripted upholds module.program) fun value => ?_
  split
  · exact .bind (edited (Action.keeps_newObject _ _)) fun object =>
      .bind (edited (Action.keeps_newObject _ _)) fun descriptor =>
      .bind (.lift fun w => exports w (.object object)) fun _ =>
      .bind (edited (Action.keeps_newFunction _ _ _)) fun require => .pure _
  · exact .throw _

/-- A wrapper-style module whose function throws fails with the error of the exception. -/
theorem run_runWrapper_of_error {instanceIndex : Nat} {wrapper : FunctionRef}
    {arguments : List Value} {descriptor : ObjectRef} {exception : Exception}
    (opened : (engine.openWrapper realm id module instanceIndex).run w =
      .ok (.ok (wrapper, arguments, descriptor)) v)
    (threw : engine.call (.of realm) wrapper arguments v = .ok (.error exception) v') :
    (engine.runWrapper realm id module instanceIndex).run w =
      .ok (.error exception.toError) v' := by
  rw [runWrapper_eq, Attempt.run_bind_of_ended opened, Attempt.run_bind, Attempt.run_lift, threw]
  rfl

/-! ### Walks from wrappers -/

/-- When a wrapper-style module that has not begun fails, so does a walk from it. -/
theorem exists_walk_of_runWrapper (h : w.Orderly) (found : w.record id = .wrapper module)
    (present : (w.realm realm).slot? id = some slot) (instantiated : slot.status = .instantiated)
    (failed : ((ofDepth embedding depth).runWrapper realm id module slot.instanceIndex).run
      (w.opening realm id) = .ok (.error error) v) :
    ∃ w', (ofDepth embedding (depth + 1)).walk realm id w = .ok (.error (.thrown error)) w' ∧
      Steps v w' := by
  have begun : ((w.walking realm id).realm realm).slot? id = some slot :=
    (slot?_rearranged (by simp) w realm realm id).trans present
  let entered := (w.walking realm id).entered realm id 0
  have record₁ : (w.walking realm id).record id = .wrapper module := found
  have record₂ : entered.record id = .wrapper module := found
  have record₃ : (entered.running realm (some id)).record id = .wrapper module := found
  have cyclic : ((w.walking realm id).record id).isCyclic = true := by rw [record₁]; rfl
  let v' := (v.running realm none).write (.ended realm id (some error))
  have steps : Steps v v' :=
    (Relation.ReflTransGen.single (.running realm none)).tail (.marked _ fun _ _ => rfl)
  have visited : Attempt.Meets (fun _ => False) (fun interrupt w' => interrupt = .thrown error ∧
      w' = v') ((ofDepth embedding (depth + 1)).visit realm id 0) (fun _ _ => False)
      (w.walking realm id) := by
    refine meets_visit_of_instantiated begun instantiated cyclic ?_
    have opened := slot?_opened begun 0
    unfold Engine.visitNew
    rw [Attempt.meets_bind, Attempt.meets_lift, meets_enter, Attempt.meets_bind, Attempt.meets_get,
      record₂, Attempt.meets_bind]
    show Attempt.Meets _ _ (pure 1) _ _
    rw [Attempt.meets_pure, Attempt.meets_bind, Attempt.meets_get, record₂]
    show Attempt.Meets _ _ (((ofDepth embedding depth).executeInWalk realm id).walking >>= _) _ _
    rw [Attempt.meets_bind, Attempt.meets_walking]
    unfold Engine.executeInWalk Engine.execute
    rw [Attempt.meets_bind, Attempt.meets_lift, meets_setRunning, Attempt.meets_bind,
      Attempt.meets_outcome, Attempt.meets_bind]
    refine meets_slotOf_found ((slot?_running ..).trans opened) ?_
    rw [Attempt.meets_bind, Attempt.meets_get, Attempt.meets_bind, Attempt.meets_lift,
      Action.meets_write, record₃]
    show Attempt.Meets _ _ ((ofDepth embedding depth).runWrapper realm id module slot.instanceIndex)
      _ (w.opening realm id)
    rw [Attempt.Meets, failed]
    exact ⟨rfl, rfl⟩
  obtain ⟨outcome, _, ended, same⟩ := ((Attempt.meets_run fun outcome w' =>
    outcome = .error (.thrown error) ∧ w' = v').mpr (visited.imp (fun _ h => h)
      (fun _ _ h => ⟨by rw [h.1], h.2⟩) fun _ _ h => h.elim)).exists_ended
  obtain ⟨rfl, rfl⟩ := same
  obtain ⟨w', walked, later, _⟩ := exists_walk_of_visit h ended
  exact ⟨w', walked, steps.trans later⟩

end Engine
end ModuleGraph
