import ModuleGraph.Proofs.Contents
import ModuleGraph.Proofs.Wrappers

/-!
Modules that hand out what they export. While the function of a wrapper-style module runs, whoever
requires the module gets what its instance exports at the time. Other code leaves that instance
alone unless the module goes on in its life, and a `require` in the meantime does nothing at all.
-/
namespace ModuleGraph
open World Engine Relation

/-- Where a realm keeps the instance of a module. -/
structure Lodging where
  realm : RealmId
  id : RecordId
  index : Nat

namespace World
variable {p : Lodging} {w w' w'' : World} {realm : RealmId} {id : RecordId}

/-- The instance of a wrapper-style module is at its place, and no other module's is. -/
structure Houses (p : Lodging) (w : World) : Prop where
  record : ∃ module, w.record p.id = .wrapper module
  number : ∀ x, ((w.realm p.realm).slot? x).map Slot.instanceIndex = some p.index ↔ x = p.id
  content : ∃ exports isMarked,
    (w.realm p.realm).instances[p.index]? = some (.wrapper exports isMarked)

theorem Furnished.houses (furnished : w.Furnished) {slot : Slot} {module : WrapperModule}
    (record : w.record id = .wrapper module) (found : (w.realm realm).slot? id = some slot) :
    Houses ⟨realm, id, slot.instanceIndex⟩ w where
  record := ⟨module, record⟩
  number x := by
    constructor
    · intro same
      obtain ⟨slot', found', index⟩ := Option.map_eq_some_iff.mp same
      exact furnished.apart realm x id slot' slot found' found index
    · rintro rfl
      rw [found, Option.map_some]
  content := by
    obtain ⟨content, there, holds⟩ := furnished.holds realm id slot found
    rw [record] at holds
    obtain ⟨exports, isMarked, rfl⟩ := holds.wrapper
    exact ⟨exports, isMarked, there⟩

namespace Houses

theorem exists_slot (houses : w.Houses p) :
    ∃ slot, (w.realm p.realm).slot? p.id = some slot ∧ slot.instanceIndex = p.index :=
  Option.map_eq_some_iff.mp ((houses.number p.id).mpr rfl)

theorem instance? (houses : w.Houses p) :
    (w.realm p.realm).instance? p.id = (w.realm p.realm).instances[p.index]? := by
  obtain ⟨slot, found, number⟩ := houses.exists_slot
  rw [Realm.instance?, found, Option.bind_some, number]

theorem arranged (houses : w.Houses p) (arranged : Arranged w w') : w'.Houses p where
  record := by
    obtain ⟨module, record⟩ := houses.record
    exact ⟨module, by simpa only [World.record, arranged.records] using record⟩
  number x := by rw [arranged.numbers, houses.number]
  content := by rw [arranged.instances]; exact houses.content

/-- A change to any instance leaves the module in its place. -/
theorem modifyInstance (houses : w.Houses p) (realm : RealmId) (index : Nat)
    {change : Instance → Instance}
    (becomes : ∀ content : Instance, content.Becomes (change content)) :
    (w.modifyRealm realm (·.modifyInstance index change)).Houses p where
  record := houses.record
  number x := by
    rw [((Still.modifyInstance w realm index change).sameIn p.realm).slot?, houses.number]
  content := by
    obtain ⟨exports, isMarked, there⟩ := houses.content
    obtain ⟨content, there', becomes⟩ := exists_becomes_modifyInstance there realm index becomes
    cases becomes with
    | same => exact ⟨_, _, there'⟩
    | exported _ exports' _ isMarked' => exact ⟨exports', isMarked', there'⟩

end Houses

/-- The module is still in its place, and if nothing was added to its life, it is as it was. -/
structure Continues (p : Lodging) (w w' : World) : Prop where
  houses : w'.Houses p
  life : w.life p.realm p.id <+: w'.life p.realm p.id
  same : w'.life p.realm p.id = w.life p.realm p.id →
    (w'.realm p.realm).status? p.id = (w.realm p.realm).status? p.id ∧
      (w'.realm p.realm).instances[p.index]? = (w.realm p.realm).instances[p.index]?

/-- What happens leaves a module in its place alone unless the module goes on in its life. -/
def Respects (p : Lodging) (w w' : World) : Prop := w.Houses p → Continues p w w'

instance : Std.Refl (Respects p) where
  refl _ houses := ⟨houses, List.prefix_refl _, fun _ => ⟨rfl, rfl⟩⟩

theorem Continues.life_between (before : Continues p w w') (after : Continues p w' w'')
    (unchanged : w''.life p.realm p.id = w.life p.realm p.id) :
    w'.life p.realm p.id = w.life p.realm p.id := by
  have back := after.life
  rw [unchanged] at back
  exact (before.life.eq_of_length_le back.length_le).symm

theorem Continues.trans (before : Continues p w w') (after : Continues p w' w'') :
    Continues p w w'' where
  houses := after.houses
  life := before.life.trans after.life
  same unchanged := by
    have between := before.life_between after unchanged
    obtain ⟨status, content⟩ := before.same between
    obtain ⟨status', content'⟩ := after.same (unchanged.trans between.symm)
    exact ⟨status'.trans status, content'.trans content⟩

instance : IsTrans World (Respects p) where
  trans _ _ _ before after houses := (before houses).trans (after (before houses).houses)

/-- What happens leaves the module in its place, and nothing is taken from its life. -/
def Lodges (p : Lodging) (w w' : World) : Prop :=
  w.Houses p → w'.Houses p ∧ w.life p.realm p.id <+: w'.life p.realm p.id

theorem Respects.lodges (respects : Respects p w w') : Lodges p w w' :=
  fun houses => ⟨(respects houses).houses, (respects houses).life⟩

theorem Lodges.trans (before : Lodges p w w') (after : Lodges p w' w'') : Lodges p w w'' :=
  fun houses =>
    have here := before houses
    have there := after here.1
    ⟨there.1, here.2.trans there.2⟩

/-! ### What respects a module -/

theorem Arranged.respects (arranged : Arranged w w')
    (life : w.life p.realm p.id <+: w'.life p.realm p.id)
    (status : w'.life p.realm p.id = w.life p.realm p.id →
      (w'.realm p.realm).status? p.id = (w.realm p.realm).status? p.id) : Respects p w w' :=
  fun houses => ⟨houses.arranged arranged, life,
    fun unchanged => ⟨status unchanged, by rw [arranged.instances]⟩⟩

theorem respects_write (w : World) (event : Event) : Respects p w (w.write event) :=
  (Arranged.write w event).respects (by simp) fun _ => rfl

/-- Walks come and go without touching a module. -/
theorem respects_rearranged (w : World) (realm : RealmId) {change : Realm → Realm}
    (slots : ∀ r, (change r).slots = r.slots)
    (instances : ∀ r, (change r).instances = r.instances) :
    Respects p w (w.modifyRealm realm change) := by
  refine (Arranged.of_modifyRealm w realm instances fun r id => ?_).respects (List.prefix_refl _)
    fun _ => ?_
  · rw [Realm.slot?, slots, Realm.slot?]
  · rw [Realm.status?, slot?_rearranged slots, Realm.status?]

theorem respects_modifySlot (w : World) (realm : RealmId) (id : RecordId) {change : Slot → Slot}
    (numbered : ∀ slot, (change slot).instanceIndex = slot.instanceIndex)
    (status : ∀ slot, (change slot).status = slot.status) :
    Respects p w (w.modifyRealm realm (·.modifySlot id change)) := by
  refine (Arranged.modifySlot w realm id numbered).respects (List.prefix_refl _) fun _ =>
    realm_modifyRealm_congr (·.status? p.id) w realm p.realm _ fun r => ?_
  rw [Realm.status?, Realm.slot?_modifySlot]
  split
  · simp [Realm.status?, Option.map_map, Function.comp_def, status]
  · rfl

/-- A module that moves on goes on in its life. -/
theorem respects_moveSlot (w : World) (realm : RealmId) (id : RecordId) (status : InstanceStatus)
    {change : Slot → Slot} (numbered : ∀ slot, (change slot).instanceIndex = slot.instanceIndex) :
    Respects p w (w.moveSlot realm id status change) := by
  refine (Arranged.moveSlot w realm id status numbered).respects (journal_write _ _ |>.filterMap _)
    fun unchanged => ?_
  by_cases here : p.realm = realm
  · subst here
    rw [life_moveSlot] at unchanged
    have differs : p.id ≠ id := by
      rintro rfl
      simp at unchanged
    rw [Realm.status?, realm_moveSlot, Realm.slot?_modifySlot, if_neg differs, Realm.status?]
  · rw [Realm.status?, (SameIn.moveSlot here id status change).slot?, Realm.status?]

theorem respects_modifyInstance (w : World) (realm : RealmId) {index : Nat}
    (apart : realm = p.realm → index ≠ p.index) {change : Instance → Instance}
    (becomes : ∀ content : Instance, content.Becomes (change content)) :
    Respects p w (w.modifyRealm realm (·.modifyInstance index change)) := by
  refine fun houses =>
    ⟨houses.modifyInstance realm index becomes, List.prefix_refl _, fun _ => ⟨?_, ?_⟩⟩
  · rw [Realm.status?, ((Still.modifyInstance w realm index change).sameIn p.realm).slot?,
      Realm.status?]
  · by_cases here : p.realm = realm
    · subst here
      rw [realm_modifyRealm_same, Realm.modifyInstance, Array.getElem?_modify, if_neg (apart rfl)]
    · rw [realm_modifyRealm_other w here]

theorem lodges_modifyInstance (w : World) (realm : RealmId) (index : Nat)
    {change : Instance → Instance}
    (becomes : ∀ content : Instance, content.Becomes (change content)) :
    Lodges p w (w.modifyRealm realm (·.modifyInstance index change)) :=
  fun houses => ⟨houses.modifyInstance realm index becomes, List.prefix_refl _⟩

/-- Code that evaluates nothing leaves the slots of a realm that are there as they are. -/
theorem Change.slot? (change : Change w w') {slot : Slot}
    (found : (w.realm realm).slot? id = some slot) : (w'.realm realm).slot? id = some slot := by
  cases change with
  | edit edit => rw [(edit.still.sameIn realm).slot?, found]
  | relink relink => rw [(relink.still.sameIn realm).slot?, found]
  | addInstance other x content absent =>
    by_cases here : realm = other
    · subst here
      rw [slot?_addInstance absent, if_neg fun same => by simp [same, absent] at found, found]
    · rw [(sameIn_addInstance content here).slot?, found]

theorem Change.life (change : Change w w') {slot : Slot}
    (found : (w.realm realm).slot? id = some slot) : w'.life realm id = w.life realm id := by
  cases change with
  | edit edit => exact (edit.still.sameIn realm).life id
  | relink relink => exact (relink.still.sameIn realm).life id
  | addInstance other x content absent =>
    by_cases here : realm = other
    · subst here
      rw [life_addInstance, if_neg fun same => by simp [← same, absent] at found, List.append_nil]
    · exact (sameIn_addInstance content here).life id

theorem Change.respects (change : Change w w') : Respects p w w' := by
  intro houses
  obtain ⟨slot, found, number⟩ := houses.exists_slot
  obtain ⟨module, record⟩ := houses.record
  obtain ⟨exports, isMarked, there⟩ := houses.content
  have there' := change.wrapper there
  refine ⟨⟨?record, fun x => ?number, exports, isMarked, there'⟩, ?_, fun _ => ⟨?_, ?_⟩⟩
  case record => exact (change.revised (hasRecord_of_wrapper record)).wrapper record
  case number =>
    constructor
    · intro same
      obtain ⟨slot', found', index⟩ := Option.map_eq_some_iff.mp same
      obtain ⟨_, leads⟩ := (Step.change change).exists_newcomer
      rcases leads p.realm x slot' found' with ⟨before, found₀, number₀⟩ | ⟨_, _, number₀, _⟩
      · exact (houses.number x).mp (by rw [found₀, Option.map_some, number₀, index])
      · have inside := (Array.getElem?_eq_some_iff.mp there).1
        omega
    · rintro rfl
      rw [change.slot? found, Option.map_some, number]
  · rw [change.life found]
  · rw [Realm.status?, change.slot? found, Realm.status?, found]
  · rw [there, there']

theorem Changes.respects (changes : Changes w w') : Respects p w w' := by
  induction changes with
  | refl => exact refl w
  | tail _ change ih => exact IsTrans.trans _ _ _ ih change.respects

/-! ### Modules that are running -/

/-- A module is being evaluated in its place, and exports a value. -/
structure Hands (p : Lodging) (value : Value) (w : World) : Prop extends w.Houses p where
  evaluating : (w.realm p.realm).status? p.id = some .evaluating
  exports : ∃ isMarked, (w.realm p.realm).instances[p.index]? = some (.wrapper value isMarked)

theorem Continues.hands {value : Value} (continues : Continues p w w') (hands : w.Hands p value)
    (unchanged : w'.life p.realm p.id = w.life p.realm p.id) : w'.Hands p value := by
  obtain ⟨status, content⟩ := continues.same unchanged
  exact ⟨continues.houses, status.trans hands.evaluating, content ▸ hands.exports⟩

end World

namespace Engine
variable {p : Lodging}

/-! ### Walks -/

theorem keeps_respects_slotOf (realm : RealmId) (id : RecordId) :
    Attempt.Keeps (Respects p) (slotOf realm id) := by
  refine .bind .get fun world => ?_
  split
  · exact .pure _
  · exact .throw _

theorem keeps_respects_modifyWalk (realm : RealmId) (change : Walk → Walk) :
    Action.Keeps (Respects p) (modifyWalk realm change) := fun w =>
  respects_rearranged w realm (fun r => r.slots_modifyWalk change) fun r => by
    unfold Realm.modifyWalk
    split <;> rfl

theorem keeps_respects_moveSlot (realm : RealmId) (id : RecordId) (status : InstanceStatus)
    {change : Slot → Slot} (numbered : ∀ slot, (change slot).instanceIndex = slot.instanceIndex) :
    Action.Keeps (Respects p) (moveSlot realm id status change) := fun w =>
  respects_moveSlot w realm id status numbered

theorem keeps_respects_write (event : Event) : Action.Keeps (Respects p) (Action.write event) :=
  fun w => respects_write w event

theorem keeps_respects_enter (realm : RealmId) (id : RecordId) (index : Nat) :
    Action.Keeps (Respects p) (enter realm id index) :=
  .bind (keeps_respects_moveSlot realm id .evaluating fun _ => rfl) fun _ =>
    keeps_respects_modifyWalk realm _

theorem keeps_respects_lowerAncestor (realm : RealmId) (id required : RecordId) :
    Attempt.Keeps (Respects p) (lowerAncestor realm id required) := by
  refine .bind .get fun world => ?_
  split
  · refine .bind (keeps_respects_slotOf realm required) fun slot => .bind .get fun world => ?_
    split
    · exact .lift fun w => respects_modifySlot w realm id (fun _ => rfl) fun _ => rfl
    · exact .pure _
  · exact .pure _

theorem keeps_respects_closeDownTo (realm : RealmId) (id : RecordId) (stack : List RecordId) :
    Attempt.Keeps (Respects p) (closeDownTo realm id stack) := by
  induction stack with
  | nil => exact .throw _
  | cons top rest ih =>
    refine .bind (.lift (keeps_respects_modifyWalk realm _)) fun _ =>
      .bind (.map (keeps_respects_slotOf realm top) _) fun _ =>
      .bind (.lift (keeps_respects_moveSlot realm top .evaluated fun _ => rfl)) fun _ => ?_
    split
    · exact .pure _
    · exact .bind ih fun _ => .pure _

theorem keeps_respects_closeComponent (realm : RealmId) (id : RecordId) :
    Attempt.Keeps (Respects p) (closeComponent realm id) := by
  refine .bind (keeps_respects_slotOf realm id) fun slot => ?_
  split
  · exact .bind .get fun _ => .bind (keeps_respects_closeDownTo realm id _) fun _ =>
      .bind .get fun _ => .lift (keeps_respects_write _)
  · exact .pure _

theorem keeps_respects_abandon (realm : RealmId) (error : ModuleError) (stack : List RecordId) :
    Action.Keeps (Respects p) (abandon realm error stack) := by
  induction stack with
  | nil => exact .pure _
  | cons id rest ih =>
    exact .bind (keeps_respects_modifyWalk realm _) fun _ =>
      .bind (keeps_respects_moveSlot realm id .evaluated fun _ => rfl) fun _ => ih

theorem keeps_respects_conclude (realm : RealmId) (outcome : Except Interrupt Nat) :
    Action.Keeps (Respects p) (conclude realm outcome) := by
  refine .bind .get fun world => ?_
  split
  · exact .pure _
  · exact .bind (keeps_respects_abandon realm _ _) fun _ => .pure _

/-! ### Requiring a module that is running -/

section
variable {w : World} {realm : RealmId} {id : RecordId} {slot : Slot} (embedding : Embedding)
  (depth : Nat)

/-- A visit to a module that is being evaluated comes back at once. -/
theorem meets_visit_evaluating (found : (w.realm realm).slot? id = some slot)
    (evaluating : slot.status = .evaluating) (cyclic : (w.record id).isCyclic = true)
    (index : Nat) :
    Attempt.Meets (fun _ => True) (fun _ _ => False)
      ((ofDepth embedding depth).visit realm id index) (fun _ w' => w' = w) w := by
  cases depth with
  | zero => trivial
  | succ depth =>
    show Attempt.Meets _ _ (visitFrom _ realm id index) _ w
    unfold visitFrom
    rw [Attempt.meets_bind, Attempt.meets_walking]
    refine (Action.meets_instantiate_found found _).imp (fun _ _ => trivial) (fun _ _ h => h.elim)
      fun _ w' same => ?_
    subst same
    rw [Attempt.meets_bind, Attempt.meets_get, if_pos cyclic, Attempt.meets_bind,
      Attempt.meets_walking]
    refine meets_slotOf_found found ?_
    rw [evaluating]
    exact rfl

/-- A walk from such a module is over as soon as it has begun. -/
theorem meets_walk_evaluating (found : (w.realm realm).slot? id = some slot)
    (evaluating : slot.status = .evaluating) (cyclic : (w.record id).isCyclic = true) :
    Action.Meets (fun _ => True) ((ofDepth embedding depth).walk realm id)
      (fun outcome w' => outcome = .ok [] ∧ w' = w) w := by
  have begun : ((w.walking realm id).realm realm).slot? id = some slot :=
    (slot?_rearranged (by simp) w realm realm id).trans found
  have stack : ((w.walking realm id).realm realm).stack = [] := by
    rw [Realm.stack, walks_walking]
  unfold walk
  rw [Action.meets_bind, Action.meets_modify, Action.meets_bind, Attempt.meets_run]
  refine (meets_visit_evaluating embedding depth begun evaluating cyclic 0).imp (fun _ h => h)
    (fun _ _ h => h.elim) fun _ w' same => ?_
  subst same
  rw [Action.meets_bind, conclude, Action.meets_bind, Action.meets_get, Action.meets_pure, stack,
    Action.meets_bind, Action.meets_modify, Action.meets_pure]
  exact ⟨rfl, walked_walking found id⟩

/-- To require a wrapper-style module that is being evaluated gives what it exports at the time, and
does nothing else. -/
theorem meets_requireFrom_hands {value : Value} (hands : w.Hands p value) :
    Attempt.Meets (fun _ => True) (fun _ _ => False)
      (requireFrom embedding (ofDepth embedding depth) p.realm p.id)
      (fun answer w' => answer = value ∧ w' = w) w := by
  obtain ⟨module, record⟩ := hands.record
  obtain ⟨slot, found, number⟩ := hands.exists_slot
  obtain ⟨isMarked, there⟩ := hands.exports
  have evaluating : slot.status = .evaluating := by
    have status := hands.evaluating
    rwa [Realm.status?, found, Option.map_some, Option.some.injEq] at status
  have instantiated : w.withWrapper p.realm p.id = w := by
    unfold withWrapper
    rw [found]
  unfold requireFrom
  rw [depth_ofDepth]
  cases depth with
  | zero => trivial
  | succ depth =>
    have linked : (embedding.link (depth + 1) p.id).run w = .ok (.ok ()) w := by
      rw [embedding.run_link_of_isSettled (by rw [record]; trivial), record]
      rfl
    have ready := run_instantiateGraph_wrapper record (depth + 1) p.realm
    rw [instantiated] at ready
    rw [Attempt.meets_bind_of_ended linked, Attempt.meets_bind_of_ended ready, Attempt.meets_bind,
      Attempt.meets_lift]
    refine (meets_walk_evaluating embedding (depth + 1) found evaluating (by rw [record]; rfl)).imp
      (fun _ _ => trivial) fun outcome w' walked => ?_
    obtain ⟨rfl, rfl⟩ := walked
    rw [Attempt.meets_bind, Attempt.meets_discard]
    refine meets_slotOf_found found ?_
    rw [Attempt.meets_lift, Action.exportsValue, Action.meets_bind, Action.meets_get,
      hands.instance?, there]
    exact ⟨rfl, rfl⟩

end
end Engine
end ModuleGraph
