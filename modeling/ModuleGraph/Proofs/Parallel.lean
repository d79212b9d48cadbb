import ModuleGraph.Proofs.Twins

/-!
Parallel runs. An action runs in parallel from a vantage if it comes to the same in twin worlds and
leaves twins. What scripts do in their realm runs in parallel, and so does the instantiation of
modules.
-/
namespace ModuleGraph
open World
variable {α β ε : Type} {p : Vantage}

/-- Two runs have results that go together, or both have given up. -/
def Concur (related : α → World → β → World → Prop) :
    EStateM.Result Unit World α → EStateM.Result Unit World β → Prop
  | .ok a w, .ok b v => related a w b v
  | .error _ _, .error _ _ => True
  | _, _ => False

theorem Concur.mono {related related' : α → World → β → World → Prop}
    {first : EStateM.Result Unit World α} {second : EStateM.Result Unit World β}
    (concur : Concur related first second)
    (h : ∀ a w b v, related a w b v → related' a w b v) : Concur related' first second := by
  cases first <;> cases second <;> first | exact h _ _ _ _ concur | exact concur

/-- Two runs have come to the same and left twins: both have the same result, which holds nothing of
other realms, or both have given up. -/
abbrev Together [Local α] (p : Vantage) :
    EStateM.Result Unit World α → EStateM.Result Unit World α → Prop :=
  Concur fun a w b v => b = a ∧ IsLocal p.realm a ∧ Twins p w v

/-- An action comes to the same in twin worlds. -/
def Action.Parallel [Local α] (p : Vantage) (action : Action α) : Prop :=
  ∀ w v, Twins p w v → Together p (action w) (action v)

/-- An attempt comes to the same in twin worlds. -/
abbrev Attempt.Parallel [Local ε] [Local α] (p : Vantage) (attempt : ExceptT ε Action α) : Prop :=
  Action.Parallel p attempt.run

namespace Action.Parallel
variable [Local α] [Local β]

theorem pure {a : α} (held : IsLocal p.realm a) : Parallel p (pure a) :=
  fun _ _ twins => ⟨rfl, held, twins⟩

theorem tooDeep : Parallel p (tooDeep : Action α) := fun _ _ _ => trivial

theorem bind {action : Action α} {next : α → Action β} (first : Parallel p action)
    (later : ∀ a, IsLocal p.realm a → Parallel p (next a)) : Parallel p (action >>= next) := by
  intro w v twins
  have h := first w v twins
  show Together p (EStateM.bind action next w) (EStateM.bind action next v)
  unfold EStateM.bind
  cases hw : action w <;> cases hv : action v <;> rw [hw, hv] at h
  · obtain ⟨rfl, held, twins⟩ := h
    exact later _ held _ _ twins
  · exact h.elim
  · exact h.elim
  · trivial

/-- What follows a look at the world depends on what twins have in common. -/
theorem get_bind {next : World → Action β} (same : ∀ w v, Twins p w v → next v = next w)
    (each : ∀ w, w.IsClosed p → Parallel p (next w)) : Parallel p (get >>= next) := by
  intro w v twins
  show Together p (next w w) (next v v)
  rw [same w v twins]
  exact each w twins.toIsClosed w v twins

theorem of_twins {next : World → Action β}
    (together : ∀ w v, Twins p w v → Together p (next w w) (next v v)) :
    Parallel p (get >>= next) := together

theorem map {action : Action α} (parallel : Parallel p action) {f : α → β}
    (held : ∀ a, IsLocal p.realm a → IsLocal p.realm (f a)) : Parallel p (f <$> action) := by
  intro w v twins
  have h := parallel w v twins
  show Together p (EStateM.map f action w) (EStateM.map f action v)
  unfold EStateM.map
  cases hw : action w <;> cases hv : action v <;> rw [hw, hv] at h
  · obtain ⟨rfl, here, twins⟩ := h
    exact ⟨rfl, held _ here, twins⟩
  · exact h.elim
  · exact h.elim
  · trivial

theorem discard {action : Action α} (parallel : Parallel p action) : Parallel p (discard action) :=
  parallel.map fun _ _ => trivial

theorem modify {change : World → World}
    (twins : ∀ w v, Twins p w v → Twins p (change w) (change v)) :
    Parallel p (modify change : Action Unit) := fun w v h => ⟨rfl, trivial, twins w v h⟩

theorem modifyRealm {change : Realm → Realm}
    (closes : ∀ content : Realm, content.IsClosed p.realm → (change content).IsClosed p.realm) :
    Parallel p (MonadState.modifyGet fun world => ((), world.modifyRealm p.realm change)) :=
  modify fun _ _ h => h.modifyRealm closes

theorem write (event : Event) : Parallel p (write event) := modify fun _ _ h => h.write event

end Action.Parallel

namespace Attempt.Parallel
variable [Local ε] [Local α] [Local β]

theorem pure {a : α} (held : IsLocal p.realm a) :
    Parallel p (pure a : ExceptT ε Action α) := Action.Parallel.pure held

theorem throw {error : ε} (held : IsLocal p.realm error) :
    Parallel p (throw error : ExceptT ε Action α) := Action.Parallel.pure held

theorem bind {attempt : ExceptT ε Action α} {next : α → ExceptT ε Action β}
    (first : Parallel p attempt) (later : ∀ a, IsLocal p.realm a → Parallel p (next a)) :
    Parallel p (attempt >>= next) :=
  Action.Parallel.bind first fun outcome held =>
    match outcome with
    | .ok a => later a held
    | .error _ => .pure held

theorem lift {action : Action α} (parallel : Action.Parallel p action) :
    Parallel p (liftM action : ExceptT ε Action α) :=
  Action.Parallel.map parallel fun _ held => held

theorem get_bind {next : World → ExceptT ε Action β}
    (same : ∀ w v, Twins p w v → next v = next w)
    (each : ∀ w, w.IsClosed p → Parallel p (next w)) : Parallel p (get >>= next) := by
  intro w v twins
  show Together p ((next w).run w) ((next v).run v)
  rw [same w v twins]
  exact each w twins.toIsClosed w v twins

theorem map {attempt : ExceptT ε Action α} (parallel : Parallel p attempt) {f : α → β}
    (held : ∀ a, IsLocal p.realm a → IsLocal p.realm (f a)) : Parallel p (f <$> attempt) := by
  rw [map_eq_pure_bind]
  exact bind parallel fun a here => pure (held a here)

theorem discard {attempt : ExceptT ε Action α} (parallel : Parallel p attempt) :
    Parallel p (discard attempt) := parallel.map fun _ _ => trivial

theorem outcome {attempt : Attempt α} (parallel : Parallel p attempt) :
    Parallel p attempt.outcome := lift parallel

theorem walking {attempt : Attempt α} (parallel : Parallel p attempt) :
    Parallel p attempt.walking :=
  Action.Parallel.map parallel fun outcome held => by cases outcome <;> exact held

end Attempt.Parallel

namespace Action

/-! ### Objects and functions -/

theorem parallel_newObject {properties : Properties} (held : IsLocal p.realm properties) :
    Parallel p (newObject p.realm properties) :=
  .get_bind (fun w v h => by simp only [h.sameRealm]) fun w closed =>
    .bind (.modifyRealm fun _ closed => closed.pushObject held) fun _ _ => .pure rfl

theorem parallel_newFunction (name : String) {code : FunctionCode} (held : IsLocal p.realm code) :
    Parallel p (newFunction p.realm name code) :=
  .get_bind (fun w v h => by simp only [h.sameRealm]) fun w closed =>
    .bind (.modifyRealm fun _ closed => closed.pushFunction held) fun _ _ => .pure rfl

theorem parallel_modifyObject {ref : ObjectRef} (inRealm : IsLocal p.realm ref)
    {change : Properties → Properties}
    (keeps : ∀ properties, IsLocal p.realm properties → IsLocal p.realm (change properties)) :
    Parallel p (modifyObject ref change) :=
  .modify fun w v h => by
    rw [h.properties inRealm]
    exact h.setProperties inRealm (keeps _ (h.toIsClosed.properties inRealm))

theorem parallel_functionCode {function : FunctionRef} (inRealm : IsLocal p.realm function) :
    Parallel p (functionCode function) := by
  obtain ⟨realm, index, name⟩ := function
  obtain rfl : realm = p.realm := inRealm
  refine .get_bind (fun w v h => by simp only [h.sameRealm]) fun w closed => ?_
  split
  · rename_i code found
    exact .pure (closed.realm.functions code (Array.mem_of_getElem? found))
  · exact .pure fun _ _ => trivial

/-! ### Exported names -/

theorem parallel_tell {ask : RecordId → Watcher → Action Bool}
    (asks : ∀ id watcher, Parallel p (ask id watcher)) (watcher : Watcher) (names : List String) :
    Parallel p (tell ask watcher names) := by
  cases watcher with
  | report tag => exact .write _
  | reask record andThen => exact .discard (asks record andThen)

theorem parallel_askNames (depth : Nat) (id : RecordId) (watcher : Watcher) :
    Parallel p (askNames depth id watcher) := by
  induction depth generalizing id watcher with
  | zero => exact .tooDeep
  | succ depth ih =>
    refine .of_twins fun w v h => ?_
    have told (names : List String) : Parallel p (do
        tell (askNames depth) watcher names
        pure true) := .bind (parallel_tell ih watcher names) fun _ _ => .pure trivial
    simp only [h.record, h.recordIds, h.collectStars]
    cases found : w.record id with
    | static module =>
      dsimp only
      cases w.collectStars (w.recordIds.erase id) (starTargets module)
          module.declarations.ownNames with
      | known names => exact told names w v h
      | unknownAt star =>
        exact Parallel.bind (.discard (ih _ _)) (fun _ _ => .pure trivial) w v h
    | custom module =>
      dsimp only
      cases module.names with
      | some names => exact told names w v h
      | none => exact ⟨rfl, trivial, h⟩
    | wrapper module | host module =>
      have waits := h.setMemo id (module.names.enqueue watcher)
      rw [found] at waits
      dsimp only [Record.memo?]
      cases module.names.names? with
      | some names => exact told names w v h
      | none => exact ⟨rfl, trivial, waits⟩

theorem parallel_tellAll {ask : RecordId → Watcher → Action Bool}
    (asks : ∀ id watcher, Parallel p (ask id watcher)) (names : List String)
    (watchers : List Watcher) : Parallel p (tellAll ask names watchers) := by
  induction watchers with
  | nil => exact .pure trivial
  | cons watcher rest ih => exact .bind (parallel_tell asks watcher names) fun _ _ => ih

theorem parallel_publishNames (depth : Nat) (id : RecordId) (names : List String) :
    Parallel p (publishNames depth id names) := by
  refine .of_twins fun w v h => ?_
  simp only [h.record]
  cases (w.record id).memo?.bind NameMemo.begin? with
  | none => exact ⟨rfl, trivial, h⟩
  | some memo =>
    exact parallel_tellAll (parallel_askNames depth) names _ _ _
      (h.setMemo id (memo.publish names).2)

end Action
end ModuleGraph
