import ModuleGraph.Proofs.Reinstantiation

/-!
What realms hold of records. Every slot leads to an instance of its record, and to one of its own.
The instance began as instances of the record do, and it may have become another one since; but the
slot leads to it for good.
-/
namespace ModuleGraph
open World Relation

theorem Instance.Becomes.trans {content content' content'' : Instance}
    (h : content.Becomes content') (h' : content'.Becomes content'') :
    content.Becomes content'' := by
  cases h with
  | same => exact h'
  | bound environment bindings =>
    cases h' with
    | same => exact .bound environment bindings
    | bound _ bindings' => exact .bound environment bindings'
  | exported exports _ isMarked =>
    cases h' with
    | same => exact .exported _ _ _ _
    | exported => exact .exported _ _ _ _

/-- What a realm can hold of a record: what began as an instance of it. -/
def Record.Holds (record : Record) (content : Instance) : Prop :=
  ∃ first, record.Begins first ∧ first.Becomes content

theorem Record.Begins.holds {record : Record} {content : Instance}
    (begins : record.Begins content) : record.Holds content :=
  ⟨content, begins, .same content⟩

theorem Record.Holds.becomes {record : Record} {content content' : Instance}
    (holds : record.Holds content) (becomes : content.Becomes content') : record.Holds content' :=
  let ⟨first, begins, before⟩ := holds
  ⟨first, begins, before.trans becomes⟩

/-- A realm holds an environment of a static module, with what the module imports. -/
theorem Record.Holds.static {module : StaticModule} {content : Instance}
    (holds : (Record.static module).Holds content) :
    ∃ environment, content = .static environment ∧
      Action.importsOf module = .ok environment.imports := by
  obtain ⟨first, begins, becomes⟩ := holds
  cases begins with
  | static _ imported =>
    cases becomes with
    | same => exact ⟨_, rfl, imported⟩
    | bound _ bindings => exact ⟨_, rfl, imported⟩

/-- Of a wrapper-style module a realm holds what it exports and whether it is marked. -/
theorem Record.Holds.wrapper {module : WrapperModule} {content : Instance}
    (holds : (Record.wrapper module).Holds content) :
    ∃ exports isMarked, content = .wrapper exports isMarked := by
  obtain ⟨first, begins, becomes⟩ := holds
  cases begins with
  | wrapper =>
    cases becomes with
    | same => exact ⟨_, _, rfl⟩
    | exported => exact ⟨_, _, rfl⟩

namespace World
variable {w w' w'' : World} {realm other : RealmId} {id x y : RecordId} {slot slot' : Slot}

/-- Every slot leads to what a realm can hold of its record, and no two slots to the same. -/
structure Furnished (w : World) : Prop where
  holds : ∀ realm id slot, (w.realm realm).slot? id = some slot → ∃ content,
    (w.realm realm).instances[slot.instanceIndex]? = some content ∧ (w.record id).Holds content
  apart : ∀ realm x y slot slot', (w.realm realm).slot? x = some slot →
    (w.realm realm).slot? y = some slot' → slot.instanceIndex = slot'.instanceIndex → x = y

/-- Instances are the same, and every slot leads where it led. -/
structure Arranged (w w' : World) : Prop where
  records : w'.records = w.records
  instances : ∀ realm, (w'.realm realm).instances = (w.realm realm).instances
  numbers : ∀ realm id, ((w'.realm realm).slot? id).map Slot.instanceIndex =
    ((w.realm realm).slot? id).map Slot.instanceIndex

/-- What comes of a change to one instance that makes of it what it may become. -/
theorem exists_becomes_modifyInstance {index : Nat} {content : Instance}
    (there : (w.realm realm).instances[index]? = some content) (other : RealmId) (changed : Nat)
    {change : Instance → Instance}
    (becomes : ∀ content : Instance, content.Becomes (change content)) :
    ∃ content', ((w.modifyRealm other (·.modifyInstance changed change)).realm
      realm).instances[index]? = some content' ∧ content.Becomes content' := by
  by_cases here : realm = other
  · subst here
    rw [realm_modifyRealm_same, Realm.modifyInstance, Array.getElem?_modify, there]
    split
    · exact ⟨_, rfl, becomes content⟩
    · exact ⟨_, rfl, .same content⟩
  · exact ⟨content, by rw [realm_modifyRealm_other w here, there], .same content⟩

namespace Arranged

theorem write (w : World) (event : Event) : Arranged w (w.write event) where
  records := rfl
  instances _ := rfl
  numbers _ _ := rfl

theorem trans (h : Arranged w w') (h' : Arranged w' w'') : Arranged w w'' where
  records := h'.records.trans h.records
  instances realm := (h'.instances realm).trans (h.instances realm)
  numbers realm id := (h'.numbers realm id).trans (h.numbers realm id)

theorem of_modifyRealm (w : World) (realm : RealmId) {change : Realm → Realm}
    (instances : ∀ r, (change r).instances = r.instances)
    (numbers : ∀ r id, ((change r).slot? id).map Slot.instanceIndex =
      (r.slot? id).map Slot.instanceIndex) : Arranged w (w.modifyRealm realm change) where
  records := rfl
  instances other := realm_modifyRealm_congr Realm.instances w realm other change instances
  numbers other id := realm_modifyRealm_congr
    (fun r => (r.slot? id).map Slot.instanceIndex) w realm other change (numbers · id)

theorem modifySlot (w : World) (realm : RealmId) (id : RecordId) {change : Slot → Slot}
    (numbered : ∀ slot, (change slot).instanceIndex = slot.instanceIndex) :
    Arranged w (w.modifyRealm realm (·.modifySlot id change)) := by
  refine .of_modifyRealm w realm (fun _ => rfl) fun r x => ?_
  rw [Realm.slot?_modifySlot]
  split
  · simp [Option.map_map, Function.comp_def, numbered]
  · rfl

theorem moveSlot (w : World) (realm : RealmId) (id : RecordId) (status : InstanceStatus)
    {change : Slot → Slot} (numbered : ∀ slot, (change slot).instanceIndex = slot.instanceIndex) :
    Arranged w (w.moveSlot realm id status change) := by
  have moved : Arranged w (w.modifyRealm realm
      (·.modifySlot id fun slot => { change slot with status })) :=
    modifySlot w realm id numbered
  exact moved.trans (.write _ _)

theorem modifyWalk (w : World) (realm : RealmId) (change : Walk → Walk) :
    Arranged w (w.modifyRealm realm (·.modifyWalk change)) :=
  .of_modifyRealm w realm (fun r => by unfold Realm.modifyWalk; split <;> rfl)
    fun r id => by simp [Realm.slot?]

end Arranged

/-- A step changes things without evaluation, or a body changes what its module exports, or
instances are left alone. -/
theorem Step.sorts (step : Step w w') : Change w w' ∨ Exposes w w' ∨ Arranged w w' := by
  cases step with
  | change change => exact .inl change
  | exposed exposes => exact .inr (.inl exposes)
  | walking | walked =>
    exact .inr (.inr (.of_modifyRealm w _ (fun _ => rfl) fun _ _ => rfl))
  | entered realm id index =>
    have moved : Arranged w
        (w.moveSlot realm id .evaluating ({ · with index, ancestor := index })) :=
      .moveSlot w realm id _ fun _ => rfl
    exact .inr (.inr (moved.trans (.modifyWalk _ _ _)))
  | lowered realm id ancestor => exact .inr (.inr (.modifySlot w realm id fun _ => rfl))
  | running realm running => exact .inr (.inr (.modifyWalk w realm _))
  | began | marked => exact .inr (.inr (.write w _))
  | popped realm id rest change numbered =>
    exact .inr (.inr ((Arranged.modifyWalk w realm _).trans
      (.moveSlot _ realm id .evaluated numbered)))
  | plain realm id change numbered => exact .inr (.inr (.moveSlot w realm id .evaluated numbered))

/-- What a record's instances are does not change once the record is settled. -/
theorem Step.holds {content : Instance} (step : Step w w') (present : w.hasRecord id)
    (settled : (w.record id).IsSettled) (holds : (w.record id).Holds content) :
    (w'.record id).Holds content := by
  have revised := step.revised present
  generalize now : w'.record id = record' at revised
  generalize before : w.record id = record at revised holds settled
  cases revised with
  | same => exact holds
  | memo _ memo =>
    obtain ⟨first, begins, becomes⟩ := holds
    exact ⟨first, begins.withMemo memo, becomes⟩
  | relinked module =>
    have linked : module.status = .linked := settled
    rw [← now, step.done before (by simp [linked])]
    exact holds

/-- What an edit makes of an instance. -/
theorem Edit.exists_becomes (edit : Edit w w') {index : Nat} {content : Instance}
    (there : (w.realm realm).instances[index]? = some content) : ∃ content',
      (w'.realm realm).instances[index]? = some content' ∧ content.Becomes content' := by
  have same (same : (w'.realm realm).instances = (w.realm realm).instances) : ∃ content',
      (w'.realm realm).instances[index]? = some content' ∧ content.Becomes content' :=
    ⟨content, by rw [same, there], .same content⟩
  cases edit with
  | setBinding other changed name value =>
    exact exists_becomes_modifyInstance there other changed fun _ =>
      Instance.becomes_setBinding name value
  | pushObject | pushFunction | setProperties =>
    exact same (realm_modifyRealm_congr Realm.instances w _ realm _ fun _ => rfl)
  | addRecord | setMemo | setCache | addLocation | write => exact same rfl

/-- A new instance leaves the others where they are. -/
theorem getElem?_addInstance {index : Nat} {content : Instance}
    (there : (w.realm realm).instances[index]? = some content) (other : RealmId) (id : RecordId)
    (added : Instance) :
    ((w.addInstance other id added).realm realm).instances[index]? = some content := by
  rw [World.addInstance, realm_write]
  by_cases here : realm = other
  · subst here
    obtain ⟨inside, _⟩ := Array.getElem?_eq_some_iff.mp there
    rw [realm_modifyRealm_same, Realm.addInstance, Array.getElem?_push,
      if_neg (Nat.ne_of_lt inside), there]
  · rwa [realm_modifyRealm_other w here]

/-- A change makes what it makes of an instance, but leaves it where it is. -/
theorem Change.exists_becomes (change : Change w w') {index : Nat} {content : Instance}
    (there : (w.realm realm).instances[index]? = some content) : ∃ content',
      (w'.realm realm).instances[index]? = some content' ∧ content.Becomes content' := by
  cases change with
  | edit edit => exact edit.exists_becomes there
  | relink relink =>
    refine ⟨content, ?_, .same content⟩
    cases relink <;> exact there
  | addInstance other id added =>
    exact ⟨content, getElem?_addInstance there other id added, .same content⟩

theorem Step.exists_becomes (step : Step w w') {index : Nat} {content : Instance}
    (there : (w.realm realm).instances[index]? = some content) : ∃ content',
      (w'.realm realm).instances[index]? = some content' ∧ content.Becomes content' := by
  rcases step.sorts with change | exposes | arranged
  · exact change.exists_becomes there
  · obtain @⟨other, _, _, slot, _, _, becomes⟩ := exposes
    exact exists_becomes_modifyInstance there other slot.instanceIndex becomes
  · exact ⟨content, by rw [arranged.instances, there], .same content⟩

/-- After a step slots lead where they led, but for a newcomer, which leads to a new instance. -/
theorem Step.exists_newcomer (step : Step w w') : ∃ newcomer? : Option (RealmId × RecordId),
    ∀ realm id slot, (w'.realm realm).slot? id = some slot →
      (∃ before, (w.realm realm).slot? id = some before ∧
        before.instanceIndex = slot.instanceIndex) ∨
      newcomer? = some (realm, id) ∧ (w.realm realm).slot? id = none ∧
        slot.instanceIndex = (w.realm realm).instances.size ∧
        ∃ content, (w'.realm realm).instances[slot.instanceIndex]? = some content ∧
          (w'.record id).Begins content := by
  rcases step.sorts with change | exposes | arranged
  · cases change with
    | edit edit =>
      refine ⟨none, fun realm id slot found => .inl ⟨slot, ?_, rfl⟩⟩
      rwa [(edit.still.sameIn realm).slot?] at found
    | relink relink =>
      refine ⟨none, fun realm id slot found => .inl ⟨slot, ?_, rfl⟩⟩
      rwa [(relink.still.sameIn realm).slot?] at found
    | addInstance other x content absent present settled begins =>
      refine ⟨some (other, x), fun realm id slot found => ?_⟩
      by_cases here : realm = other
      · subst here
        rw [slot?_addInstance absent] at found
        split at found
        · rename_i isNew
          cases found
          refine .inr ⟨by rw [isNew], isNew ▸ absent, rfl, content, ?_, isNew ▸ begins⟩
          simp [World.addInstance, Realm.addInstance]
        · exact .inl ⟨slot, found, rfl⟩
      · rw [(sameIn_addInstance content here).slot?] at found
        exact .inl ⟨slot, found, rfl⟩
  · refine ⟨none, fun realm id slot found => .inl ⟨slot, ?_, rfl⟩⟩
    rwa [(exposes.still.sameIn realm).slot?] at found
  · refine ⟨none, fun realm id slot found => .inl ?_⟩
    have numbers := arranged.numbers realm id
    rwa [found, Option.map_some, eq_comm, Option.map_eq_some_iff] at numbers

/-- Every slot leads inside. -/
theorem Furnished.lt (furnished : w.Furnished) (found : (w.realm realm).slot? id = some slot) :
    slot.instanceIndex < (w.realm realm).instances.size := by
  obtain ⟨content, there, _⟩ := furnished.holds realm id slot found
  exact (Array.getElem?_eq_some_iff.mp there).1

theorem Step.furnished (step : Step w w') (h : w.Orderly) (furnished : w.Furnished) :
    w'.Furnished := by
  obtain ⟨newcomer?, leads⟩ := step.exists_newcomer
  refine ⟨fun realm id slot found => ?_, fun realm x y slot slot' foundX foundY same => ?_⟩
  · rcases leads realm id slot found with
      ⟨before, found₀, number⟩ | ⟨_, _, _, content, there, begins⟩
    · obtain ⟨content, there, holds⟩ := furnished.holds realm id before found₀
      obtain ⟨present, settled⟩ := (h realm).settled id before found₀
      obtain ⟨content', there', becomes⟩ := step.exists_becomes there
      exact ⟨content', number ▸ there', (step.holds present settled holds).becomes becomes⟩
    · exact ⟨content, there, begins.holds⟩
  · rcases leads realm x slot foundX with ⟨beforeX, foundX₀, numberX⟩ | ⟨newX, _, numberX, _⟩ <;>
      rcases leads realm y slot' foundY with ⟨beforeY, foundY₀, numberY⟩ | ⟨newY, _, numberY, _⟩
    · exact furnished.apart realm x y _ _ foundX₀ foundY₀ (by rw [numberX, numberY, same])
    · have inside := furnished.lt foundX₀
      omega
    · have inside := furnished.lt foundY₀
      omega
    · cases newX.symm.trans newY
      rfl

theorem Steps.furnished (steps : Steps w w') (h : w.Orderly) (furnished : w.Furnished) :
    w'.Furnished := by
  induction steps with
  | refl => exact furnished
  | tail before step ih => exact step.furnished (Steps.orderly before h) ih

theorem Fresh.furnished (h : w.Fresh) : w.Furnished where
  holds realm id slot found := by simp [Realm.slot?, h.slots] at found
  apart realm x y slot slot' found := by simp [Realm.slot?, h.slots] at found

theorem Reached.furnished (h : w.Reached) : w.Furnished := by
  obtain ⟨w₀, fresh, steps⟩ := h
  exact steps.furnished fresh.orderly fresh.furnished

/-! ### Wrapper-style modules that have not run -/

/-- A change leaves the instances of wrapper-style modules alone. -/
theorem Change.wrapper (change : Change w w') {index : Nat} {exports : Value} {isMarked : Bool}
    (there : (w.realm realm).instances[index]? = some (.wrapper exports isMarked)) :
    (w'.realm realm).instances[index]? = some (.wrapper exports isMarked) := by
  cases change with
  | edit edit =>
    cases edit with
    | setBinding other changed name value =>
      by_cases here : realm = other
      · subst here
        rw [realm_modifyRealm_same, Realm.modifyInstance, Array.getElem?_modify, there]
        split <;> rfl
      · rwa [realm_modifyRealm_other w here]
    | pushObject | pushFunction | setProperties =>
      rw [← there]
      exact congrArg (·[index]?)
        (realm_modifyRealm_congr Realm.instances w _ realm _ fun _ => rfl)
    | addRecord | setMemo | setCache | addLocation | write => exact there
  | relink relink => cases relink <;> exact there
  | addInstance other id added => exact getElem?_addInstance there other id added

theorem Changes.wrapper (changes : Changes w w') {index : Nat} {exports : Value} {isMarked : Bool}
    (there : (w.realm realm).instances[index]? = some (.wrapper exports isMarked)) :
    (w'.realm realm).instances[index]? = some (.wrapper exports isMarked) := by
  induction changes with
  | refl => exact there
  | tail _ change ih => exact change.wrapper ih

/-- A step leaves the instance of a wrapper-style module alone unless the module has begun. -/
theorem Step.wrapper (step : Step w w') (furnished : w.Furnished)
    (found : (w.realm realm).slot? id = some slot) (idle : Stage.began ∉ w.life realm id)
    {exports : Value} {isMarked : Bool}
    (there : (w.realm realm).instances[slot.instanceIndex]? = some (.wrapper exports isMarked)) :
    (w'.realm realm).instances[slot.instanceIndex]? = some (.wrapper exports isMarked) := by
  rcases step.sorts with change | exposes | arranged
  · exact change.wrapper there
  · obtain @⟨other, x, change, slot', found', began, _⟩ := exposes
    by_cases here : realm = other
    · subst here
      have differs : slot'.instanceIndex ≠ slot.instanceIndex := fun same =>
        idle (furnished.apart realm x id slot' slot found' found same ▸ began)
      rw [realm_modifyRealm_same, Realm.modifyInstance, Array.getElem?_modify, if_neg differs,
        there]
    · rwa [realm_modifyRealm_other w here]
  · rwa [arranged.instances]

/-- Instances of wrapper-style modules that have not begun to run export nothing and are not marked.
-/
def Pristine (w : World) : Prop :=
  ∀ realm id slot module, w.record id = .wrapper module → (w.realm realm).slot? id = some slot →
    Stage.began ∉ w.life realm id →
    (w.realm realm).instances[slot.instanceIndex]? = some (.wrapper .undefined false)

theorem Step.pristine (step : Step w w') (h : w.Orderly) (furnished : w.Furnished)
    (pristine : w.Pristine) : w'.Pristine := by
  intro realm id slot module record found idle
  obtain ⟨newcomer?, leads⟩ := step.exists_newcomer
  rcases leads realm id slot found with ⟨before, found₀, number⟩ | ⟨_, _, _, content, there, begins⟩
  · have idle₀ : Stage.began ∉ w.life realm id := fun began =>
      idle ((Steps.life (.single step) h realm id).subset began)
    obtain ⟨present, _⟩ := (h realm).settled id before found₀
    obtain ⟨module₀, record₀⟩ := (step.revised present).of_wrapper record
    exact number ▸ step.wrapper furnished found₀ idle₀
      (pristine realm id before module₀ record₀ found₀ idle₀)
  · rw [record] at begins
    cases begins
    exact there

theorem Reached.pristine (h : w.Reached) : w.Pristine := by
  obtain ⟨w₀, fresh, steps⟩ := h
  induction steps with
  | refl =>
    intro realm id slot module _ found
    simp [Realm.slot?, fresh.slots] at found
  | tail before step ih =>
    exact step.pristine (Steps.orderly before fresh.orderly)
      (Steps.furnished before fresh.orderly fresh.furnished) ih

/-! ### Environments -/

/-- A static module keeps its imports for good once a realm has an instance of it. -/
theorem Reached.exists_environment (reached : w.Reached) {module : StaticModule}
    (found : w.record id = .static module) (present : (w.realm realm).slot? id = some slot) :
    ∃ environment, (w.realm realm).instances[slot.instanceIndex]? = some (.static environment) ∧
      Action.importsOf module = .ok environment.imports := by
  obtain ⟨content, there, holds⟩ := reached.furnished.holds realm id slot present
  rw [found] at holds
  obtain ⟨environment, rfl, imported⟩ := holds.static
  exact ⟨environment, there, imported⟩

theorem Reached.static (reached : w.Reached) (steps : Steps w w') {module : StaticModule}
    (found : w.record id = .static module) (present : (w.realm realm).slot? id = some slot) :
    w'.record id = .static module := by
  have settled := ((reached.orderly realm).settled id slot present).2
  rw [found] at settled
  have linked : module.status = .linked := settled
  exact steps.done found (by simp [linked])

end World
end ModuleGraph
