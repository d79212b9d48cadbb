import ModuleGraph.Proofs.ExportedNames

/-!
Reading exported names. A reading that ends with some depth ends in the same way with more, and one
that gives undefined changes nothing. A static module reads a name that it does not give out itself
from its stars, one after the other, until one of them has a value for it.
-/
namespace ModuleGraph
open Relation World

namespace Action

/-! ### Depth -/

/-- Where a first action ends, a second one ends in the same way. -/
def Within {α : Type} (first second : Action α) : Prop :=
  ∀ w a w', first w = .ok a w' → second w = .ok a w'

namespace Within
variable {α β : Type}

theorem refl (action : Action α) : Within action action := fun _ _ _ ended => ended

theorem tooDeep (action : Action α) : Within tooDeep action := fun _ _ _ ended => by cases ended

theorem bind {first second : Action α} {next next' : α → Action β} (within : Within first second)
    (later : ∀ a, Within (next a) (next' a)) : Within (first >>= next) (second >>= next') := by
  intro w b w' ended
  simp only [Bind.bind, EStateM.bind] at ended ⊢
  cases begun : first w with
  | ok a w₁ =>
    rw [begun] at ended
    rw [within w a w₁ begun]
    exact later a w₁ b w' ended
  | error => simp [begun] at ended

end Within

section
variable {read read' : Reader}
  (reads : ∀ realm id name, Within (read realm id name) (read' realm id name))
  (realm : RealmId) (name : String)
include reads

theorem within_readAll (id : RecordId) (names : List String) :
    Within (readAll read realm id names) (readAll read' realm id names) := by
  induction names with
  | nil => exact .refl _
  | cons name rest ih => exact .bind (reads _ _ _) fun _ => .bind ih fun _ => .refl _

theorem within_namespaceBy (id : RecordId) :
    Within (namespaceBy read realm id) (namespaceBy read' realm id) := by
  refine .bind (.refl _) fun world => ?_
  split
  · exact .refl _
  · exact .bind (within_readAll reads _ _ _) fun _ => .refl _

theorem within_readEnvironmentBy (environment : Environment) :
    Within (readEnvironmentBy read realm environment name)
      (readEnvironmentBy read' realm environment name) := by
  unfold readEnvironmentBy
  split
  · exact reads _ _ _
  · exact within_namespaceBy reads _ _
  · exact .refl _

theorem within_readFirst (ids : List RecordId) :
    Within (readFirst read realm name ids) (readFirst read' realm name ids) := by
  induction ids with
  | nil => exact .refl _
  | cons id rest ih =>
    refine .bind (reads _ _ _) fun value => ?_
    split
    · exact ih
    · exact .refl _

theorem within_readStaticBy (module : StaticModule) (environment : Environment) :
    Within (readStaticBy read realm module environment name)
      (readStaticBy read' realm module environment name) := by
  unfold readStaticBy
  split
  · exact within_readEnvironmentBy reads _ _ _
  · split
    · split
      · exact within_namespaceBy reads _ _
      · exact .refl _
    · split
      · exact .refl _
      · exact within_readFirst reads _ _ _

theorem within_readInstanceBy (record : Record) (content : Instance) :
    Within (readInstanceBy read realm record content name)
      (readInstanceBy read' realm record content name) := by
  refine .bind (.refl _) fun world => ?_
  cases content with
  | static environment =>
    cases record with
    | static module => exact within_readStaticBy reads _ _ _ _
    | _ => exact .refl _
  | _ => exact .refl _

end

theorem within_readBinding (depth : Nat) (realm : RealmId) (id : RecordId) (name : String) :
    Within (readBinding depth realm id name) (readBinding (depth + 1) realm id name) := by
  induction depth generalizing realm id name with
  | zero => exact .tooDeep _
  | succ depth ih =>
    refine .bind (.refl _) fun world => ?_
    split
    · exact .refl _
    · exact within_readInstanceBy ih _ _ _ _

/-- A reading that ends ends in the same way with more depth. -/
theorem readBinding_of_le {depth depth' : Nat} (le : depth ≤ depth') {realm : RealmId} {id : RecordId}
    {name : String} {w w' : World} {value : Value}
    (read : readBinding depth realm id name w = .ok value w') :
    readBinding depth' realm id name w = .ok value w' := by
  induction depth', le using Nat.le_induction with
  | base => exact read
  | succ depth' _ ih => exact within_readBinding depth' realm id name w value w' ih

/-! ### Undefined -/

/-- An action that gives undefined has changed nothing. -/
def Quiet (action : Action Value) : Prop :=
  ∀ w, Meets (fun _ => True) action (fun value w' => value = .undefined → w' = w) w

theorem Quiet.pure (value : Value) : Quiet (pure value) := fun _ _ => rfl

/-- What ends with an object does not give undefined. -/
theorem Quiet.of_object {α : Type} {action : Action α} {next : α → Action ObjectRef} :
    Quiet (do
      let a ← action
      let ref ← next a
      Pure.pure (.object ref)) := by
  intro w
  rw [meets_bind]
  refine (meets_ended action w).mono fun a w₁ _ => ?_
  rw [meets_bind]
  exact (meets_ended (next a) w₁).mono fun ref w₂ _ => by simp

theorem quiet_namespaceBy (read : Reader) (realm : RealmId) (id : RecordId) :
    Quiet (namespaceBy read realm id) := by
  intro w
  unfold namespaceBy
  rw [meets_bind, meets_get]
  split
  · exact Quiet.pure _ w
  · exact Quiet.of_object w

section
variable {read : Reader} (quiet : ∀ realm id name, Quiet (read realm id name)) (realm : RealmId)
  (name : String)
include quiet

theorem quiet_readEnvironmentBy (environment : Environment) :
    Quiet (readEnvironmentBy read realm environment name) := by
  unfold readEnvironmentBy
  split
  · exact quiet _ _ _
  · exact quiet_namespaceBy read _ _
  · exact .pure _

theorem quiet_readFirst (ids : List RecordId) : Quiet (readFirst read realm name ids) := by
  induction ids with
  | nil => exact .pure _
  | cons id rest ih =>
    intro w
    unfold readFirst
    rw [meets_bind]
    refine (quiet realm id name w).mono fun value w₁ unchanged => ?_
    split
    · rename_i isUndefined
      rw [unchanged isUndefined]
      exact ih w
    · rename_i isDefined
      exact fun isUndefined => absurd isUndefined isDefined

theorem quiet_readStaticBy (module : StaticModule) (environment : Environment) :
    Quiet (readStaticBy read realm module environment name) := by
  unfold readStaticBy
  split
  · exact quiet_readEnvironmentBy quiet _ _ _
  · split
    · split
      · exact quiet_namespaceBy read _ _
      · exact .pure _
    · split
      · exact .pure _
      · exact quiet_readFirst quiet _ _ _

theorem quiet_readInstanceBy (record : Record) (content : Instance) :
    Quiet (readInstanceBy read realm record content name) := by
  intro w
  unfold readInstanceBy
  rw [meets_bind, meets_get]
  split
  · split
    · exact quiet_readStaticBy quiet _ _ _ _ w
    · exact Quiet.pure _ w
  · split
    · split <;> exact Quiet.pure _ w
    · exact Quiet.pure _ w
  · split
    · exact Quiet.pure _ w
    · split <;> exact Quiet.pure _ w
  · exact Quiet.pure _ w
  · exact Quiet.pure _ w

end

theorem quiet_readBinding (depth : Nat) (realm : RealmId) (id : RecordId) (name : String) :
    Quiet (readBinding depth realm id name) := by
  induction depth generalizing realm id name with
  | zero => exact fun _ => trivial
  | succ depth ih =>
    intro w
    unfold readBinding
    rw [meets_bind, meets_get]
    split
    · exact Quiet.pure _ w
    · exact quiet_readInstanceBy ih _ _ _ _ w

theorem eq_of_read_undefined {depth : Nat} {realm : RealmId} {id : RecordId} {name : String}
    {w w' : World} (read : readBinding depth realm id name w = .ok .undefined w') : w' = w := by
  have quiet := quiet_readBinding depth realm id name w
  rw [Meets, read] at quiet
  exact quiet rfl

/-- An instance of a static module reads names with the environment of its body. -/
theorem readBinding_static {realm : RealmId} {id : RecordId} {w : World} {module : StaticModule}
    {environment : Environment} (found : w.record id = .static module)
    (instantiated : (w.realm realm).instance? id = some (.static environment)) (depth : Nat)
    (name : String) :
    readBinding (depth + 1) realm id name w =
      readStaticBy (readBinding depth) realm module environment name w := by
  simp [readBinding, readInstanceBy, bind, EStateM.bind, get, getThe, MonadStateOf.get, EStateM.get,
    instantiated, found]

end Action
end ModuleGraph
