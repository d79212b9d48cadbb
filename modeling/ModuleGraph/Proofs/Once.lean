import Mathlib
import ModuleGraph.Proofs.Runs

/-!
At most one execution in a realm. The journal of any run has for every module that takes part in
cycles the statuses instantiated, evaluating and evaluated in this order and at most once each, and
its body begins at most once, while it is evaluating.
-/
namespace ModuleGraph

/-- The status that an event gives a module in a realm. -/
def Event.status? (realm : RealmId) (id : RecordId) : Event → Option InstanceStatus
  | .moved r i status => if r = realm ∧ i = id then some status else none
  | _ => none

/-- Whether an event is that the body of a module began to run in a realm. -/
def Event.isBeginOf (realm : RealmId) (id : RecordId) : Event → Bool
  | .began r i _ => r = realm ∧ i = id
  | _ => false

namespace Stage

/-- The status that a stage gives. -/
def status? : Stage → Option InstanceStatus
  | .moved status => some status
  | .began => none

theorem status?_stage? (realm : RealmId) (id : RecordId) (event : Event) :
    (event.stage? realm id).bind status? = event.status? realm id := by
  cases event with
  | moved r i status =>
    by_cases h : r = realm ∧ i = id <;> simp [Event.stage?, Event.status?, h, status?]
  | began r i moment =>
    by_cases h : r = realm ∧ i = id <;> simp [Event.stage?, Event.status?, h, status?]
  | _ => rfl

theorem isBeginOf_iff (realm : RealmId) (id : RecordId) (event : Event) :
    event.isBeginOf realm id = (event.stage? realm id == some began) := by
  cases event with
  | moved r i status =>
    by_cases h : r = realm ∧ i = id <;> simp [Event.stage?, Event.isBeginOf, h]
  | began r i moment =>
    by_cases h : r = realm ∧ i = id <;> simp [Event.stage?, Event.isBeginOf, h]
  | _ => rfl

/-- On every way the body begins to run when the module is evaluating, and not again. -/
theorem LeadTo.before_began {status : Option InstanceStatus} {before later : List Stage}
    (leads : LeadTo status (before ++ .began :: later)) :
    before = [.moved .instantiated, .moved .evaluating] := by
  rcases before with _ | ⟨first, _ | ⟨second, _ | ⟨third, _ | ⟨fourth, rest⟩⟩⟩⟩
  all_goals
    rcases status with _ | _ | _ | _
    all_goals simp_all [LeadTo]

theorem LeadTo.count_began {status : Option InstanceStatus} {stages : List Stage}
    (leads : LeadTo status stages) : stages.count .began ≤ 1 := by
  rcases status with _ | _ | _ | _
  · simp [show stages = [] from leads]
  · simp [show stages = [.moved .instantiated] from leads]
  · rcases leads with rfl | rfl <;> decide
  · rcases leads with rfl | rfl <;> decide

theorem LeadTo.statuses {status : Option InstanceStatus} {stages : List Stage}
    (leads : LeadTo status stages) :
    stages.filterMap status? <+: [.instantiated, .evaluating, .evaluated] ∧
      (stages.filterMap status?).getLast? = status := by
  rcases status with _ | _ | _ | _
  · simp [show stages = [] from leads]
  · simp [show stages = [.moved .instantiated] from leads, status?]
  · rcases leads with rfl | rfl <;> decide
  · rcases leads with rfl | rfl <;> decide

end Stage

/-- The statuses that a module had in a realm, by some events. -/
def statuses (realm : RealmId) (id : RecordId) (events : List Event) : List InstanceStatus :=
  events.filterMap (Event.status? realm id)

theorem statuses_eq (realm : RealmId) (id : RecordId) (events : List Event) :
    statuses realm id events =
      (events.filterMap (Event.stage? realm id)).filterMap Stage.status? := by
  simp only [statuses, List.filterMap_filterMap, Stage.status?_stage?]

theorem countP_isBeginOf (realm : RealmId) (id : RecordId) (events : List Event) :
    events.countP (Event.isBeginOf realm id) =
      (events.filterMap (Event.stage? realm id)).count .began := by
  induction events with
  | nil => rfl
  | cons event rest ih =>
    rw [List.countP_cons, ih, List.filterMap_cons, Stage.isBeginOf_iff]
    cases h : event.stage? realm id <;> simp [List.count_cons]

/-- In any run, the body of a module that takes part in cycles runs at most once in a realm, its
status there only goes from instantiated over evaluating to evaluated, and the body begins while it
is evaluating, never when it was evaluated. -/
theorem executed_at_most_once (embedding : Embedding) (depth : Nat) (operations : List Operation)
    (w₀ : World) (fresh : w₀.Fresh) (realm : RealmId) (id : RecordId) :
    let w := ((Setup.ofDepth embedding depth).run operations).after w₀
    (w.record id).isCyclic = true →
      w.journal.toList.countP (Event.isBeginOf realm id) ≤ 1 ∧
      statuses realm id w.journal.toList <+: [.instantiated, .evaluating, .evaluated] ∧
      (statuses realm id w.journal.toList).getLast? = (w.realm realm).status? id ∧
      ∀ before moment later, w.journal.toList = before ++ .began realm id moment :: later →
        statuses realm id before = [.instantiated, .evaluating] := by
  intro w cyclic
  have life := ((Setup.orderly_after_run embedding depth operations fresh) realm).life id cyclic
  rw [countP_isBeginOf, statuses_eq]
  refine ⟨life.count_began, life.statuses.1, life.statuses.2, fun before moment later split => ?_⟩
  have stage : (Event.began realm id moment).stage? realm id = some .began := by
    simp [Event.stage?]
  rw [World.life, split, List.filterMap_append, List.filterMap_cons_some stage] at life
  rw [statuses_eq, life.before_began]
  rfl

/-- Two modules that request each other, the second of which fails, evaluated from either side. -/
def failingCycle : World :=
  ((Setup.ofDepth .bare 4).run [.evaluate (.worker 0) ⟨0⟩, .evaluate (.worker 0) ⟨1⟩]).after <|
    .ofModules [{ requested := [⟨1⟩] }, { requested := [⟨0⟩], body := .raise { value := .undefined } }]

theorem executed_at_most_once_in_failingCycle :
    (failingCycle.record ⟨1⟩).isCyclic = true ∧
      failingCycle.journal.toList.countP (Event.isBeginOf (.worker 0) ⟨1⟩) ≤ 1 := by
  have cyclic : (failingCycle.record ⟨1⟩).isCyclic = true := by cbv
  exact ⟨cyclic, (executed_at_most_once .bare 4
    [.evaluate (.worker 0) ⟨0⟩, .evaluate (.worker 0) ⟨1⟩] _ (World.fresh_ofModules _)
    (.worker 0) ⟨1⟩ cyclic).1⟩

end ModuleGraph
