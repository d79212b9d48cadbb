import Mathlib.Data.List.Perm.Subperm
import ModuleGraph.Proofs.Change
import ModuleGraph.Proofs.Locality

/-!
Twin worlds. Seen from a realm that holds nothing of others, two worlds are twins if they have the
realm in common and all that workers share. An action runs in parallel in a realm if it comes to the
same in twin worlds, and leaves twins.
-/
namespace ModuleGraph
variable {α β ε : Type}

/-! ### Values with all that they hold -/

namespace Value
variable {realm : RealmId} {read : ObjectRef → Properties} {bound : Nat}

/-- Values of a realm can be taken apart at two depths at once, if no object beyond a bound has
properties and both depths reach that bound: an object is met again below itself before a depth is
exhausted. -/
theorem unfolding {motive : Nat → Nat → List ObjectRef → Value → Prop}
    (locals : ∀ ref, IsLocal realm ref → IsLocal realm (read ref))
    (bounded : ∀ ref, IsLocal realm ref → bound ≤ ref.index → read ref = {})
    (leaf : ∀ n m path value, value.object? = none → motive n m path value)
    (again : ∀ n m path ref, ref ∈ path → motive (n + 1) (m + 1) path (.object ref))
    (object : ∀ n m path ref, ref ∉ path → IsLocal realm ref →
      (∀ entry ∈ (read ref).entries, motive n m (ref :: path) entry.2) →
      motive (n + 1) (m + 1) path (.object ref))
    (n m : Nat) (path : List ObjectRef) (value : Value) (nodup : (path.map ObjectRef.index).Nodup)
    (within : ∀ ref ∈ path, IsLocal realm ref ∧ ref.index < bound)
    (deep : bound < n + path.length) (deep' : bound < m + path.length)
    (held : IsLocal realm value) : motive n m path value := by
  have few {path : List ObjectRef} (nodup : (path.map ObjectRef.index).Nodup)
      (within : ∀ ref ∈ path, IsLocal realm ref ∧ ref.index < bound) : path.length ≤ bound := by
    have subset : path.map ObjectRef.index ⊆ List.range bound := fun index member => by
      obtain ⟨ref, present, rfl⟩ := List.mem_map.mp member
      exact List.mem_range.mpr (within ref present).2
    simpa using (nodup.subperm subset).length_le
  induction n generalizing m path value with
  | zero =>
    have := few nodup within
    omega
  | succ n ih =>
    obtain _ | m := m
    · have := few nodup within
      omega
    cases value with
    | object ref =>
      by_cases met : ref ∈ path
      · exact again n m path ref met
      · refine object n m path ref met held fun entry member => ?_
        by_cases inside : ref.index < bound
        · refine ih m (ref :: path) entry.2 ?_ ?_ ?_ ?_ (locals ref held entry member)
          · refine List.nodup_cons.mpr ⟨fun present => met ?_, nodup⟩
            obtain ⟨other, there, same⟩ := List.mem_map.mp present
            obtain rfl : other = ref := by
              have inRealm : other.realm = ref.realm := (within other there).1.trans held.symm
              cases other
              cases ref
              simp_all
            exact there
          · exact List.forall_mem_cons.mpr ⟨⟨held, inside⟩, within⟩
          · simp only [List.length_cons]
            omega
          · simp only [List.length_cons]
            omega
        · rw [bounded ref held (by omega)] at member
          cases member
    | _ => exact leaf _ _ _ _ rfl

theorem levelsUp?_eq_none {path : List ObjectRef} {ref : ObjectRef} :
    levelsUp? path ref = none ↔ ref ∉ path := by
  induction path with
  | nil => simp [levelsUp?]
  | cons head rest ih =>
    unfold levelsUp?
    split
    · simp_all
    · rename_i differs
      simp [ih, Ne.symm differs]

variable {read' : ObjectRef → Properties} (agree : ∀ ref, IsLocal realm ref → read' ref = read ref)
  (locals : ∀ ref, IsLocal realm ref → IsLocal realm (read ref))
  (bounded : ∀ ref, IsLocal realm ref → bound ≤ ref.index → read ref = {})
include agree locals bounded

/-- A local value unfolds in the same way wherever its realm is the same. -/
theorem unfold_congr {value : Value} (held : IsLocal realm value) {n m : Nat} (deep : bound < n)
    (deep' : bound < m) : value.unfold read' m [] = value.unfold read n [] := by
  refine unfolding (motive := fun n m path value => value.unfold read' m path =
    value.unfold read n path) locals bounded ?_ ?_ ?_ n m [] value .nil (by simp) deep deep' held
  · intro n m path value isLeaf
    cases value with
    | object => cases isLeaf
    | _ => cases n <;> cases m <;> rfl
  · intro n m path ref met
    obtain ⟨levels, up⟩ := Option.ne_none_iff_exists'.mp fun none =>
      levelsUp?_eq_none.mp none met
    simp only [unfold, up]
  · intro n m path ref new here each
    simp only [unfold, levelsUp?_eq_none.mpr new, agree ref here]
    congr 1
    exact List.map_congr_left fun entry member => by rw [each entry member]

/-- A local value projects into the same document wherever its realm is the same. -/
theorem project_congr {value : Value} (held : IsLocal realm value) {n m : Nat} (deep : bound < n)
    (deep' : bound < m) : value.project read' m [] = value.project read n [] := by
  refine unfolding (motive := fun n m path value => value.project read' m path =
    value.project read n path) locals bounded ?_ ?_ ?_ n m [] value .nil (by simp) deep deep' held
  · intro n m path value isLeaf
    cases value with
    | object => cases isLeaf
    | _ => cases n <;> cases m <;> rfl
  · intro n m path ref met
    simp [project, met]
  · intro n m path ref new here each
    simp only [project, agree ref here]
    split
    · rfl
    · congr 1
      exact List.map_congr_left fun entry member => by rw [each entry member]

end Value

namespace World
variable {w v : World}

/-- No object has properties whose index is beyond the number of all objects. -/
theorem properties_of_objectCount_le {ref : ObjectRef} (h : w.objectCount ≤ ref.index) :
    w.properties ref = {} := by
  have counted (realms : List (RealmId × Realm)) (count : Nat) :
      count ≤ realms.foldl (fun count entry => count + entry.2.objects.size) count ∧
      ∀ entry ∈ realms, entry.2.objects.size ≤
        realms.foldl (fun count entry => count + entry.2.objects.size) count := by
    induction realms generalizing count with
    | nil => simp
    | cons first rest ih =>
      obtain ⟨grown, each⟩ := ih (count + first.2.objects.size)
      refine ⟨?_, List.forall_mem_cons.mpr ⟨?_, each⟩⟩
      all_goals
        rw [List.foldl_cons]
        omega
  unfold properties realm
  cases found : w.realms.lookup ref.realm with
  | none =>
    have fresh : (default : Realm).objects = #[{}] := rfl
    rcases ref.index with _ | index
    · rfl
    · simp [fresh]
      rfl
  | some realm =>
    obtain ⟨before, after, split, _⟩ := List.lookup_eq_some_iff.mp found
    have small := (counted w.realms 0).2 (ref.realm, realm) (by simp [split])
    have beyond : realm.objects.size ≤ ref.index := Nat.le_trans small h
    simp [beyond]
    rfl

/-- Exported names are a matter of the records. -/
theorem collectNames_congr (same : ∀ id, v.record id = w.record id)
    (unvisited agenda : List RecordId) (names : List String) :
    v.collectNames unvisited agenda names = w.collectNames unvisited agenda names := by
  fun_induction w.collectNames unvisited agenda names <;> rw [collectNames] <;> simp_all

theorem knownNames?_congr (records : v.records = w.records) (id : RecordId) :
    v.knownNames? id = w.knownNames? id := by
  have same (id : RecordId) : v.record id = w.record id := by simp only [record, records]
  have ids : v.recordIds = w.recordIds := by simp only [recordIds, records]
  simp only [knownNames?, same, ids, collectNames_congr same]

end World

/-! ### Twins -/

/-- Where two worlds are seen from: a realm, what resolution has kept when it is over, and what had
been written down before in either world. -/
structure Vantage where
  realm : RealmId
  cache : Cache RecordId
  locked : cache.isLocked = true
  errors : ∀ key error, cache.get? key = some (.error error) → IsLocal realm error
  first : Array Event
  second : Array Event

/-- A world that holds nothing of other realms, as far as a realm can see, and in which all that
resolution has kept was linked. -/
structure World.IsClosed (p : Vantage) (w : World) : Prop where
  cache : w.cache = p.cache
  settled : ∀ key id, p.cache.get? key = some (.ok id) → (w.record id).IsSettled
  records : ∀ id, IsLocal p.realm (w.record id)
  realm : (w.realm p.realm).IsClosed p.realm

/-- Two worlds that a realm cannot tell from each other. -/
structure World.Twins (p : Vantage) (w v : World) : Prop extends w.IsClosed p where
  sameRecords : v.records = w.records
  firstNumber : v.firstNumber = w.firstNumber
  sameCache : v.cache = w.cache
  locations : v.locations = w.locations
  hasResolver : v.hasResolver = w.hasResolver
  table : v.table = w.table
  sameRealm : v.realm p.realm = w.realm p.realm
  journal : ∃ events, w.journal = p.first ++ events ∧ v.journal = p.second ++ events

namespace World
variable {p : Vantage} {w v : World}

/-! ### What is read -/

namespace IsClosed

theorem properties (h : w.IsClosed p) {ref : ObjectRef} (held : IsLocal p.realm ref) :
    IsLocal p.realm (w.properties ref) := by
  have inRealm : ref.realm = p.realm := held
  rw [World.properties, inRealm]
  exact h.realm.properties ref.index

theorem property (h : w.IsClosed p) {value : Value} (held : IsLocal p.realm value) (key : String) :
    IsLocal p.realm (w.property value key) := by
  cases value with
  | object ref => exact Properties.isLocal_get (h.properties held) key
  | _ => trivial

end IsClosed

namespace Twins

theorem record (h : Twins p w v) (id : RecordId) : v.record id = w.record id := by
  simp only [World.record, h.sameRecords]

theorem hasRecord (h : Twins p w v) (id : RecordId) : v.hasRecord id = w.hasRecord id := by
  simp only [World.hasRecord, h.sameRecords]

theorem recordIds (h : Twins p w v) : v.recordIds = w.recordIds := by
  simp only [World.recordIds, h.sameRecords]

theorem numberText (h : Twins p w v) (id : RecordId) : v.numberText id = w.numberText id := by
  simp only [World.numberText, h.firstNumber]

theorem describe (h : Twins p w v) (id : RecordId) : v.describe id = w.describe id := by
  simp only [World.describe, h.record, h.numberText]

theorem knownNames? (h : Twins p w v) (id : RecordId) : v.knownNames? id = w.knownNames? id :=
  knownNames?_congr h.sameRecords id

theorem collectStars (h : Twins p w v) (unvisited stars : List RecordId) (names : List String) :
    v.collectStars unvisited stars names = w.collectStars unvisited stars names := by
  fun_induction w.collectStars unvisited stars names <;> rw [World.collectStars] <;>
    simp_all [collectNames_congr h.record]

theorem moment (h : Twins p w v) : v.moment p.realm = w.moment p.realm := by
  simp only [World.moment, h.sameRecords, h.sameRealm]

theorem properties (h : Twins p w v) {ref : ObjectRef} (held : IsLocal p.realm ref) :
    v.properties ref = w.properties ref := by
  have inRealm : ref.realm = p.realm := held
  simp only [World.properties, inRealm, h.sameRealm]

theorem property (h : Twins p w v) {value : Value} (held : IsLocal p.realm value) (key : String) :
    v.property value key = w.property value key := by
  cases value with
  | object ref => simp only [World.property, h.properties held]
  | _ => rfl

theorem keys (h : Twins p w v) {value : Value} (held : IsLocal p.realm value) :
    v.keys value = w.keys value := by
  cases value with
  | object ref => simp only [World.keys, h.properties held]
  | _ => rfl

/-- No object of the realm has properties whose index is beyond the number of objects in one of the
worlds. -/
theorem bounded (h : Twins p w v) (ref : ObjectRef) (held : IsLocal p.realm ref)
    (beyond : min w.objectCount v.objectCount ≤ ref.index) : w.properties ref = {} := by
  have : w.objectCount ≤ ref.index ∨ v.objectCount ≤ ref.index := by omega
  rcases this with inFirst | inSecond
  · exact properties_of_objectCount_le inFirst
  · rw [← h.properties held]
    exact properties_of_objectCount_le inSecond

theorem snapshot (h : Twins p w v) {value : Value} (held : IsLocal p.realm value) :
    v.snapshot value = w.snapshot value :=
  Value.unfold_congr (fun _ => h.properties) (fun _ => h.toIsClosed.properties) h.bounded held
    (Nat.lt_succ_of_le (Nat.min_le_left _ _)) (Nat.lt_succ_of_le (Nat.min_le_right _ _))

theorem toJson (h : Twins p w v) {value : Value} (held : IsLocal p.realm value) :
    v.toJson value = w.toJson value := by
  rw [toJson_eq, toJson_eq]
  exact Value.project_congr (fun _ => h.properties) (fun _ => h.toIsClosed.properties) h.bounded
    held (Nat.lt_succ_of_le (Nat.min_le_left _ _)) (Nat.lt_succ_of_le (Nat.min_le_right _ _))

theorem reportError (h : Twins p w v) {error : ModuleError} (held : IsLocal p.realm error) :
    v.reportError error = w.reportError error := by
  cases error with
  | evaluationRejected value => simp only [World.reportError, h.snapshot held]
  | _ => rfl

/-- What is written down for a script of the realm is the same. -/
theorem eventOf (h : Twins p w v) {announcement : Announcement}
    (held : IsLocal p.realm announcement) :
    v.eventOf p.realm announcement = w.eventOf p.realm announcement := by
  cases announcement with
  | log value => simp only [World.eventOf, h.snapshot held]
  | json value => simp only [World.eventOf, h.toJson held]
  | settled name settlement =>
    cases settlement with
    | rejected error => simp only [World.eventOf, reportSettlement, h.reportError held]
    | _ => rfl
  | happened label name inWorker => rfl

/-! ### What is changed -/

theorem write (h : Twins p w v) (event : Event) : Twins p (w.write event) (v.write event) := by
  obtain ⟨events, first, second⟩ := h.journal
  exact { h with
    realm := h.realm
    journal := ⟨events.push event, by simp [World.write, first], by simp [World.write, second]⟩ }

/-- Resolution is over already. -/
theorem lock (h : Twins p w v) : Twins p w.lock v.lock := by
  have locked {w : World} (same : w.cache = p.cache) : w.lock = w := by
    have ended : w.cache.isLocked = true := same ▸ p.locked
    simp only [World.lock, Cache.lock, ← ended]
  rwa [locked h.cache, locked (h.sameCache.trans h.cache)]

theorem modifyRealm (h : Twins p w v) {change : Realm → Realm}
    (closes : ∀ content : Realm, content.IsClosed p.realm → (change content).IsClosed p.realm) :
    Twins p (w.modifyRealm p.realm change) (v.modifyRealm p.realm change) :=
  { h with
    realm := by
      rw [realm_modifyRealm_same]
      exact closes _ h.realm
    sameRealm := by rw [realm_modifyRealm_same, realm_modifyRealm_same, h.sameRealm] }

theorem moveSlot (h : Twins p w v) (id : RecordId) (status : InstanceStatus) {change : Slot → Slot}
    (keeps : ∀ slot, IsLocal p.realm slot → IsLocal p.realm (change slot)) :
    Twins p (w.moveSlot p.realm id status change) (v.moveSlot p.realm id status change) := by
  refine (h.modifyRealm fun content closed => ?_).write _
  exact closed.modifySlot id keeps

theorem setProperties (h : Twins p w v) {ref : ObjectRef} (inRealm : IsLocal p.realm ref)
    {properties : Properties} (held : IsLocal p.realm properties) :
    Twins p (w.setProperties ref properties) (v.setProperties ref properties) := by
  obtain ⟨realm, index⟩ := ref
  obtain rfl : realm = p.realm := inRealm
  exact h.modifyRealm fun _ closed => closed.setObject _ held

theorem addInstance (h : Twins p w v) (id : RecordId) {content : Instance}
    (held : IsLocal p.realm content) :
    Twins p (w.addInstance p.realm id content) (v.addInstance p.realm id content) :=
  (h.modifyRealm fun _ closed => closed.addInstance id held).write _

/-- The memo of a record is no program and no error. -/
theorem setMemo (h : Twins p w v) (id : RecordId) (memo : NameMemo Watcher) :
    Twins p (w.setRecord id ((w.record id).withMemo memo))
      (v.setRecord id ((w.record id).withMemo memo)) := by
  have same (other : RecordId) : (w.setRecord id ((w.record id).withMemo memo)).record other =
      if other = id ∧ w.hasRecord id then (w.record other).withMemo memo else w.record other := by
    rw [record_setRecord]
    split
    · rename_i here
      rw [here.1]
    · rfl
  exact { h with
    settled := fun key other kept => by
      have settled := h.settled key other kept
      rw [same]
      split
      · simpa using settled
      · exact settled
    records := fun other => by
      have held := h.records other
      rw [same]
      split
      · exact Record.isLocal_withMemo.mpr held
      · exact held
    realm := h.realm
    sameRecords := by simp only [World.setRecord, h.sameRecords] }

end Twins
end World
end ModuleGraph
