import Mathlib.Data.List.Nodup
import Mathlib.Logic.Relation
import ModuleGraph.Instantiation
import ModuleGraph.Proofs.Action

/-!
What code that evaluates no module can do to the world. Edits touch objects, functions, contents of
instances, new records, memos and the resolver's memory; relinking moves a static module on its way
from unlinked to linked or failed; and a realm can get an instance of a record that it had none of.
None of this touches the slots that are there or the walks that are under way.
-/
namespace ModuleGraph

namespace Record

/-- What the record requests stays as it is: a static module has been linked. -/
def IsSettled : Record → Prop
  | .static module => module.status = .linked
  | _ => True

/-- A record as resolution makes it. -/
def IsNew : Record → Prop
  | .static module => module.status = .unlinked ∧ module.requested = []
  | .wrapper _ | .host _ => True
  | .custom _ => False

theorem IsNew.isCyclic {record : Record} (new : record.IsNew) : record.isCyclic = true := by
  cases record with
  | custom => exact new.elim
  | _ => rfl

section
variable (record : Record) (memo : NameMemo Watcher)

@[simp] theorem requested_withMemo : (record.withMemo memo).requested = record.requested := by
  cases record <;> rfl

@[simp] theorem isCyclic_withMemo : (record.withMemo memo).isCyclic = record.isCyclic := by
  cases record <;> rfl

@[simp] theorem hasTopLevelAwait_withMemo :
    (record.withMemo memo).hasTopLevelAwait = record.hasTopLevelAwait := by
  cases record <;> rfl

@[simp] theorem isSettled_withMemo : (record.withMemo memo).IsSettled ↔ record.IsSettled := by
  cases record <;> rfl

end
end Record

namespace Instance
variable {content : Instance}

/-- What an instance may become: a static one keeps its imports, and another one is of the same kind.
-/
inductive Becomes : Instance → Instance → Prop
  | same (content : Instance) : Becomes content content
  | bound (environment : Environment) (bindings : Properties) :
      Becomes (.static environment) (.static { environment with bindings })
  | exported (exports exports' : Value) (isMarked isMarked' : Bool) :
      Becomes (.wrapper exports isMarked) (.wrapper exports' isMarked')

theorem becomes_setBinding (name : String) (value : Value) :
    content.Becomes (content.setBinding name value) := by
  cases content with
  | static environment => exact .bound environment _
  | _ => exact .same _

theorem becomes_setExports (exports : Value) : content.Becomes (content.setExports exports) := by
  cases content with
  | wrapper => exact .exported _ _ _ _
  | _ => exact .same _

theorem becomes_setMarked (isMarked : Bool) : content.Becomes (content.setMarked isMarked) := by
  cases content with
  | wrapper => exact .exported _ _ _ _
  | _ => exact .same _

end Instance

/-- What instances of a record begin as. -/
inductive Record.Begins : Record → Instance → Prop
  | static (module : StaticModule) {imports : List (String × ImportTarget)}
      (imported : Action.importsOf module = .ok imports) : Begins (.static module) (.static { imports })
  | wrapper (module : WrapperModule) : Begins (.wrapper module) (.wrapper .undefined false)
  | native (module : HostRecord) (named : Option (List (String × Value))) (default : Value) :
      Begins (.host module) (.native named default)
  | legacy (module : HostRecord) (value : Value) : Begins (.host module) (.legacy value)
  | custom (module : CustomModule) (bindings : List (String × Value)) :
      Begins (.custom module) (.custom bindings)

theorem Record.Begins.withMemo {record : Record} {content : Instance} (begins : record.Begins content)
    (memo : NameMemo Watcher) : (record.withMemo memo).Begins content := by
  cases begins with
  | static module imported => exact .static module imported
  | wrapper => exact .wrapper _
  | native => exact .native _ _ _
  | legacy => exact .legacy _ _
  | custom => exact .custom _ _

/-- Whether an event says nothing of how evaluation goes on. -/
def Event.isOutward : Event → Bool
  | .moved .. | .began .. | .ended .. | .closed .. => false
  | _ => true

/-- Whether an event is one that scripts bring about by themselves. -/
def Event.isTold : Event → Bool
  | .named .. | .log .. | .json .. | .settled .. | .happened .. => true
  | _ => false

/-- Whether a script has an event written down: that exported names are passed on is none of these.
-/
def Event.isSpoken : Event → Bool
  | .log .. | .json .. | .settled .. | .happened .. => true
  | _ => false

/-- Whether an event is a question to the loader or to the compiler. -/
def Event.isInquiry : Event → Bool
  | .loaded .. | .compiled .. | .wrapped .. => true
  | _ => false

/-- The tag of the report that a watcher leads to in the end. -/
def Watcher.tag : Watcher → Json
  | .report tag => tag
  | .reask _ andThen => andThen.tag

namespace World
variable {w w' w'' : World}

/-! ### Records and realms of a changed world -/

@[simp] theorem realm_modifyRealm_same (w : World) (realm : RealmId) (change : Realm → Realm) :
    (w.modifyRealm realm change).realm realm = change (w.realm realm) := by
  simp [modifyRealm]

theorem realm_modifyRealm_other (w : World) {realm other : RealmId} (h : other ≠ realm)
    (change : Realm → Realm) : (w.modifyRealm realm change).realm other = w.realm other := by
  simp [modifyRealm, h]

/-- A change to a realm changes nothing that it leaves alone in that realm. -/
theorem realm_modifyRealm_congr {γ : Type} (view : Realm → γ) (w : World) (realm other : RealmId)
    (change : Realm → Realm) (same : ∀ r, view (change r) = view r) :
    view ((w.modifyRealm realm change).realm other) = view (w.realm other) := by
  by_cases h : other = realm
  · rw [h, realm_modifyRealm_same, same]
  · rw [realm_modifyRealm_other w h]

theorem record_setRecord (w : World) (id other : RecordId) (record : Record) :
    (w.setRecord id record).record other =
      if other = id ∧ w.hasRecord id then record else w.record other := by
  obtain ⟨index⟩ := id
  obtain ⟨otherIndex⟩ := other
  simp only [World.record, setRecord, hasRecord, Array.getD_eq_getD_getElem?,
    Array.getElem?_setIfInBounds, RecordId.mk.injEq, decide_eq_true_eq]
  by_cases h : otherIndex = index
  · subst h
    by_cases hs : otherIndex < w.records.size <;> simp [hs]
  · simp [h, Ne.symm h]

theorem record_addRecord (w : World) (record : Record) (id : RecordId) :
    (w.addRecord record).2.record id =
      if id = (w.addRecord record).1 then record else w.record id := by
  obtain ⟨index⟩ := id
  simp only [World.record, addRecord, Array.getD_eq_getD_getElem?, Array.getElem?_push,
    RecordId.mk.injEq]
  split <;> rfl

theorem record_addRecord_of_hasRecord (w : World) (record : Record) {id : RecordId}
    (h : w.hasRecord id) : (w.addRecord record).2.record id = w.record id := by
  have bound : id.index < w.records.size := by simpa [hasRecord] using h
  simp [World.record, addRecord, Array.getElem?_push, bound, Nat.ne_of_lt bound]

theorem record_of_not_hasRecord {id : RecordId} (h : ¬ w.hasRecord id) :
    w.record id = default := by
  have bound : w.records.size ≤ id.index := by simpa [hasRecord] using h
  simp [World.record, bound]

theorem mem_recordIds {id : RecordId} : id ∈ w.recordIds ↔ w.hasRecord id := by
  obtain ⟨index⟩ := id
  simp [recordIds, hasRecord]

theorem nodup_recordIds (w : World) : w.recordIds.Nodup :=
  List.nodup_range.map fun _ _ => by simp

/-- A record that is not there takes part in cycles, and so does the one that resolution puts there.
-/
theorem isCyclic_addRecord (w : World) {record : Record} (new : record.IsNew) (id : RecordId) :
    ((w.addRecord record).2.record id).isCyclic = (w.record id).isCyclic := by
  by_cases h : w.hasRecord id
  · rw [record_addRecord_of_hasRecord w record h]
  · rw [record_of_not_hasRecord h]
    have bound : w.records.size ≤ id.index := by simpa [hasRecord] using h
    simp only [World.record, addRecord, Array.getD_eq_getD_getElem?, Array.getElem?_push]
    split
    · exact new.isCyclic
    · simp [bound]

/-! ### Records that stay -/

/-- Records are only added, and what a settled one requests stays as it is. -/
structure Extends (w w' : World) : Prop where
  size : w.records.size ≤ w'.records.size
  isCyclic : ∀ id, (w'.record id).isCyclic = (w.record id).isCyclic
  hasTopLevelAwait : ∀ id, w.hasRecord id →
    (w'.record id).hasTopLevelAwait = (w.record id).hasTopLevelAwait
  isSettled : ∀ id, w.hasRecord id → (w.record id).IsSettled → (w'.record id).IsSettled
  requested : ∀ id, w.hasRecord id → (w.record id).IsSettled →
    (w'.record id).requested = (w.record id).requested

namespace Extends

theorem hasRecord (h : Extends w w') {id : RecordId} (present : w.hasRecord id) :
    w'.hasRecord id := by
  have := h.size
  simp only [World.hasRecord, decide_eq_true_eq] at present ⊢
  omega

theorem refl (w : World) : Extends w w where
  size := Nat.le_refl _
  isCyclic _ := rfl
  hasTopLevelAwait _ _ := rfl
  isSettled _ _ h := h
  requested _ _ _ := rfl

theorem trans (h : Extends w w') (h' : Extends w' w'') : Extends w w'' where
  size := Nat.le_trans h.size h'.size
  isCyclic id := (h'.isCyclic id).trans (h.isCyclic id)
  hasTopLevelAwait id present :=
    (h'.hasTopLevelAwait id (h.hasRecord present)).trans (h.hasTopLevelAwait id present)
  isSettled id present settled :=
    h'.isSettled id (h.hasRecord present) (h.isSettled id present settled)
  requested id present settled :=
    (h'.requested id (h.hasRecord present) (h.isSettled id present settled)).trans
      (h.requested id present settled)

theorem of_records (h : w'.records = w.records) : Extends w w' := by
  have same : ∀ id, w'.record id = w.record id := fun id => by simp [World.record, h]
  exact ⟨h ▸ Nat.le_refl _, fun id => by rw [same], fun id _ => by rw [same],
    fun id _ settled => by rwa [same], fun id _ _ => by rw [same]⟩

/-- Replacing a record by one that requests the same and is settled if the old one was. -/
theorem setRecord {id : RecordId} {record : Record}
    (isCyclic : record.isCyclic = (w.record id).isCyclic)
    (hasTopLevelAwait : record.hasTopLevelAwait = (w.record id).hasTopLevelAwait)
    (settled : (w.record id).IsSettled →
      record.IsSettled ∧ record.requested = (w.record id).requested) :
    Extends w (w.setRecord id record) := by
  have cases' : ∀ other, (w.setRecord id record).record other = w.record other ∨
      other = id ∧ (w.setRecord id record).record other = record := by
    intro other
    rw [record_setRecord]
    by_cases h : other = id ∧ w.hasRecord id = true
    · exact .inr ⟨h.1, if_pos h⟩
    · exact .inl (if_neg h)
  refine ⟨by simp [World.setRecord], fun other => ?_, fun other _ => ?_, fun other _ => ?_,
    fun other _ => ?_⟩
  all_goals
    rcases cases' other with h | ⟨rfl, h⟩
    all_goals rw [h]
  · exact isCyclic
  · exact hasTopLevelAwait
  · exact fun h => h
  · exact fun h => (settled h).1
  · exact fun _ => rfl
  · exact fun h => (settled h).2

theorem addRecord {record : Record} (new : record.IsNew) : Extends w (w.addRecord record).2 where
  size := by simp [World.addRecord]
  isCyclic := isCyclic_addRecord w new
  hasTopLevelAwait id h := by rw [record_addRecord_of_hasRecord w record h]
  isSettled id h := by rw [record_addRecord_of_hasRecord w record h]; exact fun h => h
  requested id h _ := by rw [record_addRecord_of_hasRecord w record h]

end Extends

/-! ### Changes -/

/-- A change to what evaluation does not look at, or one more record. -/
inductive Edit (w : World) : World → Prop
  | pushObject (realm : RealmId) (properties : Properties) :
      Edit w (w.modifyRealm realm fun r => { r with objects := r.objects.push properties })
  | pushFunction (realm : RealmId) (code : FunctionCode) :
      Edit w (w.modifyRealm realm fun r => { r with functions := r.functions.push code })
  | setProperties (ref : ObjectRef) (properties : Properties) :
      Edit w (w.setProperties ref properties)
  | setBinding (realm : RealmId) (index : Nat) (name : String) (value : Value) :
      Edit w (w.modifyRealm realm (·.modifyInstance index (.setBinding name value)))
  | addRecord (record : Record) (new : record.IsNew) : Edit w (w.addRecord record).2
  | setMemo (id : RecordId) (memo : NameMemo Watcher) :
      Edit w (w.setRecord id ((w.record id).withMemo memo))
  | setCache (cache : Cache RecordId) : Edit w { w with cache }
  | addLocation (id : RecordId) (location : Url) :
      Edit w { w with locations := w.locations ++ [(id, location)] }
  | write (event : Event) (outward : event.isOutward = true) : Edit w (w.write event)

/-- An edit to objects, bindings or the journal that leaves alone what is known of exported names.
-/
inductive Mark (w : World) : World → Prop
  | pushObject (realm : RealmId) (properties : Properties) :
      Mark w (w.modifyRealm realm fun r => { r with objects := r.objects.push properties })
  | setProperties (ref : ObjectRef) (properties : Properties) :
      Mark w (w.setProperties ref properties)
  | setBinding (realm : RealmId) (index : Nat) (name : String) (value : Value) :
      Mark w (w.modifyRealm realm (·.modifyInstance index (.setBinding name value)))
  | write (event : Event) (spoken : event.isSpoken = true) : Mark w (w.write event)

/-- An edit that a script itself can make: it can also make functions, and end the discovery of
modules. -/
inductive Stroke (w : World) : World → Prop
  | mark {w' : World} (mark : Mark w w') : Stroke w w'
  | pushFunction (realm : RealmId) (code : FunctionCode) :
      Stroke w (w.modifyRealm realm fun r => { r with functions := r.functions.push code })
  | lock : Stroke w w.lock

/-- An edit to objects, bindings, memos of names or the journal: what scripts make by themselves
when they neither make functions nor end the discovery of modules. -/
inductive Brush (w : World) : World → Prop
  | pushObject (realm : RealmId) (properties : Properties) :
      Brush w (w.modifyRealm realm fun r => { r with objects := r.objects.push properties })
  | setProperties (ref : ObjectRef) (properties : Properties) :
      Brush w (w.setProperties ref properties)
  | setBinding (realm : RealmId) (index : Nat) (name : String) (value : Value) :
      Brush w (w.modifyRealm realm (·.modifyInstance index (.setBinding name value)))
  | setMemo (id : RecordId) (memo : NameMemo Watcher) :
      Brush w (w.setRecord id ((w.record id).withMemo memo))
  | write (event : Event) (told : event.isTold = true) : Brush w (w.write event)

/-- An edit that scripts can make by themselves: to what neither resolution nor linking nor the
course of evaluation looks at, but that they can end the discovery of modules. -/
inductive Touch (w : World) : World → Prop
  | pushObject (realm : RealmId) (properties : Properties) :
      Touch w (w.modifyRealm realm fun r => { r with objects := r.objects.push properties })
  | pushFunction (realm : RealmId) (code : FunctionCode) :
      Touch w (w.modifyRealm realm fun r => { r with functions := r.functions.push code })
  | setProperties (ref : ObjectRef) (properties : Properties) :
      Touch w (w.setProperties ref properties)
  | setBinding (realm : RealmId) (index : Nat) (name : String) (value : Value) :
      Touch w (w.modifyRealm realm (·.modifyInstance index (.setBinding name value)))
  | setMemo (id : RecordId) (memo : NameMemo Watcher) :
      Touch w (w.setRecord id ((w.record id).withMemo memo))
  | lock : Touch w w.lock
  | write (event : Event) (told : event.isTold = true) : Touch w (w.write event)

/-- An edit that the discovery of a module makes. -/
inductive Draw (w : World) : World → Prop
  | addRecord (record : Record) (new : record.IsNew) : Draw w (w.addRecord record).2
  | addLocation (id : RecordId) (location : Url) :
      Draw w { w with locations := w.locations ++ [(id, location)] }
  | inquire (event : Event) (inquiry : event.isInquiry = true) : Draw w (w.write event)

theorem Mark.brush (h : Mark w w') : Brush w w' := by
  cases h with
  | pushObject realm properties => exact .pushObject realm properties
  | setProperties ref properties => exact .setProperties ref properties
  | setBinding realm index name value => exact .setBinding realm index name value
  | write event spoken => exact .write event (by cases event <;> first | rfl | cases spoken)

theorem Brush.touch (h : Brush w w') : Touch w w' := by
  cases h with
  | pushObject realm properties => exact .pushObject realm properties
  | setProperties ref properties => exact .setProperties ref properties
  | setBinding realm index name value => exact .setBinding realm index name value
  | setMemo id memo => exact .setMemo id memo
  | write event told => exact .write event told

theorem Stroke.touch (h : Stroke w w') : Touch w w' := by
  cases h with
  | mark mark => exact mark.brush.touch
  | pushFunction realm code => exact .pushFunction realm code
  | lock => exact .lock

theorem Touch.edit (h : Touch w w') : Edit w w' := by
  cases h with
  | pushObject realm properties => exact .pushObject realm properties
  | pushFunction realm code => exact .pushFunction realm code
  | setProperties ref properties => exact .setProperties ref properties
  | setBinding realm index name value => exact .setBinding realm index name value
  | setMemo id memo => exact .setMemo id memo
  | lock => exact .setCache _
  | write event told => exact .write event (by cases event <;> first | rfl | cases told)

theorem Draw.edit (h : Draw w w') : Edit w w' := by
  cases h with
  | addRecord record new => exact .addRecord record new
  | addLocation id location => exact .addLocation id location
  | inquire event inquiry => exact .write event (by cases event <;> first | rfl | cases inquiry)

/-- A relation between worlds that takes in all edits to objects, bindings and the journal that have
nothing to do with exported names. -/
class Marks (R : World → World → Prop) : Prop extends Std.Refl R, IsTrans World R where
  mark : ∀ w w', Mark w w' → R w w'

/-- A relation between worlds that takes in all edits to objects, bindings, memos and the journal.
-/
class Takes (R : World → World → Prop) : Prop extends Std.Refl R, IsTrans World R where
  brush : ∀ w w', Brush w w' → R w w'

/-- A relation between worlds that takes in what a question for exported names under certain tags
brings about: they are passed on, or someone waits for them. -/
class Hears (heard : Json → Prop) (R : World → World → Prop) : Prop
    extends Std.Refl R, IsTrans World R where
  named : ∀ (w : World) tag names, heard tag → R w (w.write (.named tag names))
  enqueue : ∀ (w : World) id memo watcher, (w.record id).memo? = some memo → heard watcher.tag →
    R w (w.setRecord id ((w.record id).withMemo (memo.enqueue watcher)))

/-- A relation between worlds that takes in all that a script itself can do. -/
class Strikes (R : World → World → Prop) : Prop extends Std.Refl R, IsTrans World R where
  stroke : ∀ w w', Stroke w w' → R w w'

/-- A relation between worlds that takes in all that scripts can do by themselves. -/
class Absorbs (R : World → World → Prop) : Prop extends Std.Refl R, IsTrans World R where
  touch : ∀ w w', Touch w w' → R w w'

section
variable {R : World → World → Prop}

instance [Takes R] : Marks R where
  mark w w' h := Takes.brush w w' h.brush

instance [Takes R] : Hears (fun _ => True) R where
  named _ _ _ _ := Takes.brush _ _ (.write _ rfl)
  enqueue _ id _ _ _ _ := Takes.brush _ _ (.setMemo id _)

instance [Strikes R] : Marks R where
  mark w w' h := Strikes.stroke w w' (.mark h)

instance [Absorbs R] : Takes R where
  brush w w' h := Absorbs.touch w w' h.touch

instance [Absorbs R] : Strikes R where
  stroke w w' h := Absorbs.touch w w' h.touch

end

/-- A relation between worlds that takes in all that the discovery of a module does as well. -/
class Admits (R : World → World → Prop) : Prop extends Absorbs R where
  draw : ∀ w w', Draw w w' → R w w'

/-- A relation between worlds that takes in all that resolution does: it keeps outcomes as well. -/
class Retains (R : World → World → Prop) : Prop extends Admits R where
  keep : ∀ (w : World) key outcome, R w { w with cache := (w.cache.insert key outcome).2 }

/-- A step of a static module on its way from unlinked to linked or failed. -/
inductive Relink (w : World) : World → Prop
  | start (id : RecordId) (module : StaticModule) (found : w.record id = .static module)
      (unlinked : module.status = .unlinked) :
      Relink w (w.setRecord id (.static { module with status := .linking }))
  | setRequested (id : RecordId) (module : StaticModule) (found : w.record id = .static module)
      (linking : module.status = .linking) (requested : List (String × RecordId)) :
      Relink w (w.setRecord id (.static { module with requested }))
  | finish (id : RecordId) (module : StaticModule) (found : w.record id = .static module)
      (linking : module.status = .linking) (status : LinkStatus) :
      Relink w (w.setRecord id (.static { module with status }))

/-- A change that code makes without evaluating a module. -/
inductive Change (w : World) : World → Prop
  | edit {w' : World} (edit : Edit w w') : Change w w'
  | relink {w' : World} (relink : Relink w w') : Change w w'
  | addInstance (realm : RealmId) (id : RecordId) (content : Instance)
      (absent : (w.realm realm).slot? id = none) (present : w.hasRecord id)
      (settled : (w.record id).IsSettled) (begins : (w.record id).Begins content) :
      Change w (w.addInstance realm id content)

/-- Nothing that evaluation looks at has changed: the same slots and walks in every realm, and no
event of evaluation. -/
structure Still (w w' : World) : Prop where
  records : Extends w w'
  slots : ∀ realm, (w'.realm realm).slots = (w.realm realm).slots
  walks : ∀ realm, (w'.realm realm).walks = (w.realm realm).walks
  journal : ∃ events, w'.journal.toList = w.journal.toList ++ events ∧
    ∀ event ∈ events, event.isOutward = true

namespace Still

theorem of_realms (records : Extends w w') (realms : w'.realms = w.realms)
    (journal : w'.journal = w.journal) : Still w w' where
  records := records
  slots realm := by simp [World.realm, realms]
  walks realm := by simp [World.realm, realms]
  journal := ⟨[], by simp [journal]⟩

theorem of_modifyRealm (realm : RealmId) (change : Realm → Realm)
    (slots : ∀ r, (change r).slots = r.slots) (walks : ∀ r, (change r).walks = r.walks) :
    Still w (w.modifyRealm realm change) where
  records := .of_records rfl
  slots other := realm_modifyRealm_congr Realm.slots w realm other change slots
  walks other := realm_modifyRealm_congr Realm.walks w realm other change walks
  journal := ⟨[], by simp [modifyRealm, setRealm]⟩

theorem modifyInstance (w : World) (realm : RealmId) (index : Nat) (change : Instance → Instance) :
    Still w (w.modifyRealm realm (·.modifyInstance index change)) :=
  of_modifyRealm realm _ (fun _ => rfl) fun _ => rfl

theorem write {event : Event} (outward : event.isOutward = true) : Still w (w.write event) where
  records := .of_records rfl
  slots _ := rfl
  walks _ := rfl
  journal := ⟨[event], by simp [World.write], by simpa using outward⟩

theorem refl (w : World) : Still w w := of_realms (.refl w) rfl rfl

theorem trans (h : Still w w') (h' : Still w' w'') : Still w w'' where
  records := h.records.trans h'.records
  slots realm := (h'.slots realm).trans (h.slots realm)
  walks realm := (h'.walks realm).trans (h.walks realm)
  journal := by
    obtain ⟨events, he, outward⟩ := h.journal
    obtain ⟨events', he', outward'⟩ := h'.journal
    refine ⟨events ++ events', by rw [he', he, List.append_assoc], fun event member => ?_⟩
    rcases List.mem_append.mp member with member | member
    · exact outward event member
    · exact outward' event member

end Still

theorem Edit.still (h : Edit w w') : Still w w' := by
  cases h with
  | pushObject | pushFunction | setProperties | setBinding =>
    exact .of_modifyRealm _ _ (fun _ => rfl) fun _ => rfl
  | addRecord record new => exact .of_realms (.addRecord new) rfl rfl
  | setMemo id memo =>
    refine .of_realms (.setRecord (by simp) (by simp) fun settled => ⟨?_, by simp⟩) rfl rfl
    simpa using settled
  | setCache | addLocation => exact .of_realms (.of_records rfl) rfl rfl
  | write event outward => exact .write outward

theorem Relink.still (h : Relink w w') : Still w w' := by
  cases h with
  | start id module found unlinked =>
    refine .of_realms (.setRecord ?_ ?_ fun settled => ?_) rfl rfl
    · rw [found]; rfl
    · rw [found]; rfl
    · simp [found, Record.IsSettled, unlinked] at settled
  | setRequested id module found linking | finish id module found linking =>
    refine .of_realms (.setRecord ?_ ?_ fun settled => ?_) rfl rfl
    · rw [found]; rfl
    · rw [found]; rfl
    · simp [found, Record.IsSettled, linking] at settled

/-- Edits leave static modules alone. -/
theorem Edit.static (h : Edit w w') {id : RecordId} {module : StaticModule}
    (found : w.record id = .static module) : w'.record id = .static module := by
  have present : w.hasRecord id := by
    by_contra absent
    rw [record_of_not_hasRecord absent] at found
    cases found
  cases h with
  | addRecord record new => rwa [record_addRecord_of_hasRecord w record present]
  | setMemo other memo =>
    rw [record_setRecord]
    split
    · rename_i same
      rw [← same.1, found]
      rfl
    · exact found
  | _ => exact found

/-- Edits change nothing of how instances of a record begin. -/
theorem Edit.begins (h : Edit w w') {id : RecordId} {content : Instance} (present : w.hasRecord id)
    (begins : (w.record id).Begins content) : (w'.record id).Begins content := by
  cases h with
  | addRecord record new => rwa [record_addRecord_of_hasRecord w record present]
  | setMemo other memo =>
    rw [record_setRecord]
    split
    · rename_i same
      exact (same.1 ▸ begins).withMemo memo
    · exact begins
  | _ => exact begins

/-! ### Records that are there -/

/-- What a change can make of a record that is there: another memo, or another status and other
requests of a static module. -/
inductive Revised : Record → Record → Prop
  | same (record : Record) : Revised record record
  | memo (record : Record) (memo : NameMemo Watcher) : Revised record (record.withMemo memo)
  | relinked (module : StaticModule) (status : LinkStatus) (requested : List (String × RecordId)) :
      Revised (.static module) (.static { module with status, requested })

theorem revised_setRecord {id : RecordId} {record : Record} (revised : Revised (w.record id) record)
    (other : RecordId) : Revised (w.record other) ((w.setRecord id record).record other) := by
  rw [record_setRecord]
  split
  · rename_i here
    rwa [here.1]
  · exact .same _

theorem Change.revised (h : Change w w') {id : RecordId} (present : w.hasRecord id) :
    Revised (w.record id) (w'.record id) := by
  cases h with
  | edit edit =>
    cases edit with
    | addRecord record new =>
      rw [record_addRecord_of_hasRecord w record present]
      exact .same _
    | setMemo other memo => exact revised_setRecord (.memo _ memo) id
    | _ => exact .same _
  | relink relink =>
    cases relink with
    | start other module found | setRequested other module found | finish other module found =>
      refine revised_setRecord ?_ id
      rw [found]
      exact .relinked module _ _
  | addInstance => exact .same _

namespace Revised
variable {record record' : Record}

theorem static (h : Revised record record') {module : StaticModule}
    (found : record = .static module) :
    ∃ status requested, record' = .static { module with status, requested } := by
  subst found
  cases h with
  | same | memo => exact ⟨module.status, module.requested, rfl⟩
  | relinked _ status requested => exact ⟨status, requested, rfl⟩

theorem of_static (h : Revised record record') {module : StaticModule}
    (found : record' = .static module) : ∃ module, record = .static module := by
  cases h with
  | same => exact ⟨module, found⟩
  | memo => cases record <;> simp [Record.withMemo] at found ⊢
  | relinked before => exact ⟨before, rfl⟩

theorem wrapper (h : Revised record record') {module : WrapperModule}
    (found : record = .wrapper module) : ∃ module, record' = .wrapper module := by
  subst found
  cases h <;> exact ⟨_, rfl⟩

theorem of_wrapper (h : Revised record record') {module : WrapperModule}
    (found : record' = .wrapper module) : ∃ module, record = .wrapper module := by
  cases h with
  | same => exact ⟨module, found⟩
  | memo => cases record <;> simp [Record.withMemo] at found ⊢
  | relinked => cases found

theorem kind (h : Revised record record') : record'.kind = record.kind := by
  cases h with
  | memo => cases record <;> rfl
  | _ => rfl

theorem of_custom (h : Revised record record') {module : CustomModule}
    (found : record' = .custom module) : record = .custom module := by
  cases h with
  | same => exact found
  | memo => cases record <;> simp_all [Record.withMemo]
  | relinked => cases found

end Revised
end World
end ModuleGraph
