import ModuleGraph.Proofs.Changes

/-!
The order in which modules of a realm go through their states. A module is evaluating exactly while
it is on the stack of a walk, and the journal has its way there; what is evaluating or evaluated is
left alone by all code but the walk that it belongs to.
-/
namespace ModuleGraph

/-- A stage on the way of a module through a realm. -/
inductive Stage where
  | moved (status : InstanceStatus)
  | began
  deriving DecidableEq, Repr

namespace Stage

/-- The stages that lead to a status. -/
def LeadTo : Option InstanceStatus → List Stage → Prop
  | none, stages => stages = []
  | some .instantiated, stages => stages = [.moved .instantiated]
  | some .evaluating, stages =>
    stages = [.moved .instantiated, .moved .evaluating] ∨
      stages = [.moved .instantiated, .moved .evaluating, .began]
  | some .evaluated, stages =>
    stages = [.moved .instantiated, .moved .evaluating, .moved .evaluated] ∨
      stages = [.moved .instantiated, .moved .evaluating, .began, .moved .evaluated]

end Stage

/-- The stage of a module in a realm that an event is. -/
def Event.stage? (realm : RealmId) (id : RecordId) : Event → Option Stage
  | .moved r i status => if r = realm ∧ i = id then some (.moved status) else none
  | .began r i _ => if r = realm ∧ i = id then some .began else none
  | _ => none

/-- Whether an event is neither the beginning of a body nor the closing of a component. -/
def Event.isQuiet : Event → Bool
  | .began .. | .closed .. => false
  | _ => true

theorem Event.stage?_of_isOutward {event : Event} (outward : event.isOutward = true)
    (realm : RealmId) (id : RecordId) : event.stage? realm id = none := by
  cases event <;> first | rfl | cases outward

namespace Realm
variable (realm : Realm)

/-- The modules on the stacks of all walks. -/
def busy : List RecordId := realm.walks.flatMap Walk.stack

theorem slot?_modifySlot (id other : RecordId) (change : Slot → Slot) :
    (realm.modifySlot id change).slot? other =
      if other = id then (realm.slot? other).map change else realm.slot? other := by
  simp only [slot?, modifySlot]
  induction realm.slots with
  | nil => simp
  | cons entry rest ih =>
    obtain ⟨i, slot⟩ := entry
    by_cases hi : i = id
    · subst hi
      by_cases ho : other = i
      · simp [ho]
      · simpa [List.lookup_cons, beq_false_of_ne ho, ho] using ih
    · by_cases ho : other = i
      · subst ho
        simp [hi]
      · simpa [hi, List.lookup_cons, beq_false_of_ne ho] using ih

theorem slot?_addInstance {id : RecordId} (absent : realm.slot? id = none) (content : Instance)
    (other : RecordId) :
    (realm.addInstance id content).slot? other =
      if other = id then some { instanceIndex := realm.instances.size } else realm.slot? other := by
  simp only [slot?, addInstance, List.lookup_append] at absent ⊢
  by_cases h : other = id
  · subst h
    simp [absent]
  · simp [h, List.lookup_cons, beq_false_of_ne h]

@[simp] theorem walks_modifySlot (id : RecordId) (change : Slot → Slot) :
    (realm.modifySlot id change).walks = realm.walks := rfl

@[simp] theorem walks_addInstance (id : RecordId) (content : Instance) :
    (realm.addInstance id content).walks = realm.walks := rfl

@[simp] theorem slots_modifyWalk (change : Walk → Walk) :
    (realm.modifyWalk change).slots = realm.slots := by
  unfold modifyWalk
  split <;> rfl

variable {realm}

theorem walks_modifyWalk {walk : Walk} {outer : List Walk} (walks : realm.walks = walk :: outer)
    (change : Walk → Walk) : (realm.modifyWalk change).walks = change walk :: outer := by
  simp [modifyWalk, walks]

theorem busy_of_walks {walk : Walk} {outer : List Walk} (walks : realm.walks = walk :: outer) :
    realm.busy = walk.stack ++ outer.flatMap Walk.stack := by
  simp [busy, walks]

end Realm

namespace World
variable {w w' w'' : World} {realm : RealmId} {id : RecordId}

/-- The way of a module through a realm up to now. -/
def life (w : World) (realm : RealmId) (id : RecordId) : List Stage :=
  w.journal.toList.filterMap (Event.stage? realm id)

@[simp] theorem life_write (w : World) (event : Event) (realm : RealmId) (id : RecordId) :
    (w.write event).life realm id = w.life realm id ++ (event.stage? realm id).toList := by
  cases h : event.stage? realm id <;> simp [life, write, List.filterMap_append, h]

@[simp] theorem life_modifyRealm (w : World) (other : RealmId) (change : Realm → Realm)
    (realm : RealmId) (id : RecordId) :
    (w.modifyRealm other change).life realm id = w.life realm id := rfl

@[simp] theorem realm_write (w : World) (event : Event) (realm : RealmId) :
    (w.write event).realm realm = w.realm realm := rfl

/-- The state of evaluation in a realm is the same. -/
structure SameIn (realm : RealmId) (w w' : World) : Prop where
  slots : (w'.realm realm).slots = (w.realm realm).slots
  walks : (w'.realm realm).walks = (w.realm realm).walks
  life : ∀ id, w'.life realm id = w.life realm id

namespace SameIn

theorem trans (h : SameIn realm w w') (h' : SameIn realm w' w'') : SameIn realm w w'' :=
  ⟨h'.slots.trans h.slots, h'.walks.trans h.walks, fun id => (h'.life id).trans (h.life id)⟩

theorem write {event : Event} (h : ∀ id, event.stage? realm id = none) :
    SameIn realm w (w.write event) := ⟨rfl, rfl, fun id => by simp [h]⟩

theorem modifyRealm {other : RealmId} (h : realm ≠ other) (change : Realm → Realm) :
    SameIn realm w (w.modifyRealm other change) := by
  have same := realm_modifyRealm_other w h change
  exact ⟨by rw [same], by rw [same], fun id => rfl⟩

theorem moveSlot {other : RealmId} (h : realm ≠ other) (id : RecordId) (status : InstanceStatus)
    (change : Slot → Slot) : SameIn realm w (w.moveSlot other id status change) :=
  (modifyRealm h _).trans (write fun _ => by simp [Event.stage?, h.symm])

theorem slot? (h : SameIn realm w w') (id : RecordId) :
    (w'.realm realm).slot? id = (w.realm realm).slot? id := by
  simp [Realm.slot?, h.slots]

theorem busy (h : SameIn realm w w') : (w'.realm realm).busy = (w.realm realm).busy := by
  simp [Realm.busy, h.walks]

end SameIn

theorem Still.sameIn (h : Still w w') (realm : RealmId) : SameIn realm w w' where
  slots := h.slots realm
  walks := h.walks realm
  life id := by
    obtain ⟨events, journal, outward⟩ := h.journal
    have silent : events.filterMap (Event.stage? realm id) = [] :=
      List.filterMap_eq_nil_iff.mpr fun event member =>
        Event.stage?_of_isOutward (outward event member) realm id
    rw [World.life, World.life, journal, List.filterMap_append, silent, List.append_nil]

theorem Still.journalGrows (h : Still w w') : w.journal.toList <+: w'.journal.toList := by
  obtain ⟨events, journal, _⟩ := h.journal
  exact ⟨events, journal.symm⟩

/-! ### Order -/

/-- The modules of a realm are in order: those evaluating are on exactly one stack each, and every
module has come to its state on the one way that leads there. -/
structure OrderlyIn (w : World) (realm : RealmId) : Prop where
  nodup : (w.realm realm).busy.Nodup
  busy : ∀ id, id ∈ (w.realm realm).busy ↔ (w.realm realm).status? id = some .evaluating
  cyclic : ∀ id ∈ (w.realm realm).busy, (w.record id).isCyclic = true
  clean : ∀ id slot, (w.realm realm).slot? id = some slot → slot.status ≠ .evaluated →
    slot.error = none
  settled : ∀ id slot, (w.realm realm).slot? id = some slot →
    w.hasRecord id = true ∧ (w.record id).IsSettled
  life : ∀ id, (w.record id).isCyclic = true →
    Stage.LeadTo ((w.realm realm).status? id) (w.life realm id)

/-- The modules of all realms are in order. -/
def Orderly (w : World) : Prop := ∀ realm, w.OrderlyIn realm

/-- Order does not depend on how the open modules are spread over the walks. -/
theorem OrderlyIn.of_busy (h : w.OrderlyIn realm) (records : Extends w w')
    (slot : ∀ id, (w'.realm realm).slot? id = (w.realm realm).slot? id)
    (busy : (w'.realm realm).busy = (w.realm realm).busy)
    (life : ∀ id, (w.record id).isCyclic = true → w'.life realm id = w.life realm id) :
    w'.OrderlyIn realm := by
  have status (id : RecordId) : (w'.realm realm).status? id = (w.realm realm).status? id := by
    simp [Realm.status?, slot]
  refine ⟨?_, fun id => ?_, fun id member => ?_, fun id found => ?_, fun id found => ?_,
    fun id cyclic => ?_⟩
  · rw [busy]
    exact h.nodup
  · rw [busy, status]
    exact h.busy id
  · rw [records.isCyclic]
    exact h.cyclic id (busy ▸ member)
  · rw [slot]
    exact h.clean id found
  · rw [slot]
    intro present
    obtain ⟨present, settled⟩ := h.settled id found present
    exact ⟨records.hasRecord present, records.isSettled id present settled⟩
  · rw [records.isCyclic] at cyclic
    rw [status, life id cyclic]
    exact h.life id cyclic

theorem OrderlyIn.of_sameIn (h : w.OrderlyIn realm) (records : Extends w w')
    (same : SameIn realm w w') : w'.OrderlyIn realm :=
  h.of_busy records same.slot? same.busy fun id _ => same.life id

/-- One module has a new slot that it has come to on the way that leads there. -/
theorem OrderlyIn.change (h : w.OrderlyIn realm) (records : Extends w w') {slot' : Slot}
    (found : (w'.realm realm).slot? id = some slot')
    (settled : w'.hasRecord id = true ∧ (w'.record id).IsSettled)
    (slots : ∀ other, other ≠ id → (w'.realm realm).slot? other = (w.realm realm).slot? other)
    (life : ∀ other, other ≠ id → w'.life realm other = w.life realm other)
    (nodup : (w'.realm realm).busy.Nodup)
    (busy : ∀ other, other ∈ (w'.realm realm).busy ↔
      if other = id then slot'.status = .evaluating else other ∈ (w.realm realm).busy)
    (clean : slot'.status ≠ .evaluated → slot'.error = none)
    (cyclic : slot'.status = .evaluating → (w.record id).isCyclic = true)
    (leads : (w.record id).isCyclic = true →
      Stage.LeadTo (some slot'.status) (w'.life realm id)) : w'.OrderlyIn realm := by
  refine ⟨nodup, fun other => ?_, fun other member => ?_, fun other slot hslot => ?_,
    fun other slot hslot => ?_, fun other hcyclic => ?_⟩
  all_goals by_cases ho : other = id
  · subst ho
    simp [busy, Realm.status?, found]
  · rw [busy, if_neg ho, Realm.status?, slots other ho]
    exact h.busy other
  · subst ho
    rw [records.isCyclic]
    exact cyclic (by simpa using (busy other).mp member)
  · rw [records.isCyclic]
    exact h.cyclic other (by simpa [ho] using (busy other).mp member)
  · subst ho
    cases found.symm.trans hslot
    exact clean
  · exact h.clean other slot (slots other ho ▸ hslot)
  · exact ho ▸ settled
  · obtain ⟨present, settled⟩ := h.settled other slot (slots other ho ▸ hslot)
    exact ⟨records.hasRecord present, records.isSettled other present settled⟩
  · subst ho
    rw [Realm.status?, found]
    exact leads (records.isCyclic other ▸ hcyclic)
  · rw [Realm.status?, slots other ho, life other ho]
    exact h.life other (records.isCyclic other ▸ hcyclic)

/-- What was done in one realm leaves the others in order. -/
theorem Orderly.of_in (h : w.Orderly) (records : Extends w w')
    (same : ∀ other, other ≠ realm → SameIn other w w') (within : w'.OrderlyIn realm) :
    w'.Orderly := by
  intro other
  by_cases hr : other = realm
  · exact hr ▸ within
  · exact (h other).of_sameIn records (same other hr)

theorem Orderly.still (h : w.Orderly) (still : Still w w') : w'.Orderly :=
  fun realm => (h realm).of_sameIn still.records (still.sameIn realm)

/-! ### Advance -/

/-- In a realm every module, with some exceptions, that was evaluating or evaluated was left alone.
-/
structure Undisturbed (realm : RealmId) (except : List RecordId) (w w' : World) : Prop where
  slot : ∀ id, id ∉ except → ∀ slot, (w.realm realm).slot? id = some slot →
    slot.status ≠ .instantiated → (w'.realm realm).slot? id = some slot
  life : ∀ id, id ∉ except → ∀ slot, (w.realm realm).slot? id = some slot →
    slot.status ≠ .instantiated → w'.life realm id = w.life realm id

namespace Undisturbed
variable {except except' : List RecordId}

theorem of_sameIn (same : SameIn realm w w') : Undisturbed realm except w w' where
  slot id _ _ found _ := (same.slot? id).trans found
  life id _ _ _ _ := same.life id

theorem trans (h : Undisturbed realm except w w') (h' : Undisturbed realm except w' w'') :
    Undisturbed realm except w w'' where
  slot id kept slot found begun := h'.slot id kept slot (h.slot id kept slot found begun) begun
  life id kept slot found begun :=
    (h'.life id kept slot (h.slot id kept slot found begun) begun).trans
      (h.life id kept slot found begun)

theorem mono (h : Undisturbed realm except w w') (sub : except ⊆ except') :
    Undisturbed realm except' w w' where
  slot id kept := h.slot id fun member => kept (sub member)
  life id kept := h.life id fun member => kept (sub member)

/-- Exceptions that were not evaluating or evaluated are none. -/
theorem narrow (h : Undisturbed realm except w w')
    (fresh : ∀ id ∈ except, ∀ slot, (w.realm realm).slot? id = some slot →
      slot.status = .instantiated) : Undisturbed realm except' w w' where
  slot id _ slot found begun :=
    h.slot id (fun member => begun (fresh id member slot found)) slot found begun
  life id _ slot found begun :=
    h.life id (fun member => begun (fresh id member slot found)) slot found begun

end Undisturbed

/-- Evaluation in a realm has gone on. The journal is longer, and every module that was evaluating
or evaluated was left alone, with some exceptions in that realm. -/
structure Advance (realm : RealmId) (except : List RecordId) (w w' : World) : Prop where
  records : Extends w w'
  journal : w.journal.toList <+: w'.journal.toList
  within : Undisturbed realm except w w'
  elsewhere : ∀ other, other ≠ realm →
    Undisturbed other [] w w' ∧ (w'.realm other).walks = (w.realm other).walks

namespace Advance
variable {except except' : List RecordId}

theorem of_in (records : Extends w w') (journal : w.journal.toList <+: w'.journal.toList)
    (elsewhere : ∀ other, other ≠ realm → SameIn other w w')
    (within : Undisturbed realm except w w') : Advance realm except w w' :=
  ⟨records, journal, within, fun other hr =>
    ⟨.of_sameIn (elsewhere other hr), (elsewhere other hr).walks⟩⟩

theorem of_same (records : Extends w w') (journal : w.journal.toList <+: w'.journal.toList)
    (same : ∀ other, SameIn other w w') : Advance realm except w w' :=
  of_in records journal (fun other _ => same other) (.of_sameIn (same realm))

theorem refl (w : World) : Advance realm except w w :=
  of_same (.refl w) (List.prefix_refl _) fun _ => ⟨rfl, rfl, fun _ => rfl⟩

theorem trans (h : Advance realm except w w') (h' : Advance realm except w' w'') :
    Advance realm except w w'' where
  records := h.records.trans h'.records
  journal := h.journal.trans h'.journal
  within := h.within.trans h'.within
  elsewhere other hr :=
    ⟨(h.elsewhere other hr).1.trans (h'.elsewhere other hr).1,
      (h'.elsewhere other hr).2.trans (h.elsewhere other hr).2⟩

theorem mono (h : Advance realm except w w') (sub : except ⊆ except') :
    Advance realm except' w w' := { h with within := h.within.mono sub }

theorem narrow (h : Advance realm except w w')
    (fresh : ∀ id ∈ except, ∀ slot, (w.realm realm).slot? id = some slot →
      slot.status = .instantiated) : Advance realm except' w w' :=
  { h with within := h.within.narrow fresh }

theorem slot (h : Advance realm except w w') {slot : Slot} (kept : id ∉ except)
    (found : (w.realm realm).slot? id = some slot) (begun : slot.status ≠ .instantiated) :
    (w'.realm realm).slot? id = some slot := h.within.slot id kept slot found begun

theorem life (h : Advance realm except w w') {slot : Slot} (kept : id ∉ except)
    (found : (w.realm realm).slot? id = some slot) (begun : slot.status ≠ .instantiated) :
    w'.life realm id = w.life realm id := h.within.life id kept slot found begun

end Advance

/-! ### Steps -/

theorem journal_write (w : World) (event : Event) :
    w.journal.toList <+: (w.write event).journal.toList := by
  simp [write]

section
variable {walk : Walk} {outer : List Walk} {slot : Slot}

@[simp] theorem realm_moveSlot (w : World) (realm : RealmId) (id : RecordId)
    (status : InstanceStatus) (change : Slot → Slot) :
    (w.moveSlot realm id status change).realm realm =
      (w.realm realm).modifySlot id fun slot => { change slot with status } := by
  simp [moveSlot]

theorem life_moveSlot (w : World) (realm : RealmId) (id other : RecordId)
    (status : InstanceStatus) (change : Slot → Slot) :
    (w.moveSlot realm id status change).life realm other =
      w.life realm other ++ if id = other then [.moved status] else [] := by
  by_cases h : id = other <;> simp [moveSlot, Event.stage?, h]

/-- The world in which a walk has opened a module. -/
def entered (w : World) (realm : RealmId) (id : RecordId) (index : Nat) : World :=
  (w.moveSlot realm id .evaluating ({ · with index, ancestor := index })).modifyRealm realm
    (·.modifyWalk fun walk => { walk with stack := id :: walk.stack, opened := id :: walk.opened })

theorem slot?_entered (w : World) (realm : RealmId) (id other : RecordId) (index : Nat) :
    ((w.entered realm id index).realm realm).slot? other =
      if other = id then
        ((w.realm realm).slot? other).map
          ({ · with index, ancestor := index, status := .evaluating })
      else (w.realm realm).slot? other := by
  have := (w.realm realm).slot?_modifySlot id other
    fun slot => { slot with index, ancestor := index, status := .evaluating }
  simpa [entered, Realm.slot?] using this

theorem walks_entered (walks : (w.realm realm).walks = walk :: outer) (id : RecordId)
    (index : Nat) : ((w.entered realm id index).realm realm).walks =
      { walk with stack := id :: walk.stack, opened := id :: walk.opened } :: outer := by
  rw [entered, realm_modifyRealm_same, Realm.walks_modifyWalk]
  simpa using walks

theorem life_entered (w : World) (realm : RealmId) (id other : RecordId) (index : Nat) :
    (w.entered realm id index).life realm other =
      w.life realm other ++ if id = other then [.moved .evaluating] else [] := by
  simp [entered, life_moveSlot]

theorem sameIn_entered {other : RealmId} (hr : other ≠ realm) (id : RecordId) (index : Nat) :
    SameIn other w (w.entered realm id index) :=
  (SameIn.moveSlot hr _ _ _).trans (.modifyRealm hr _)

theorem advance_entered (w : World) (realm : RealmId) (id : RecordId) (index : Nat) :
    Advance realm [id] w (w.entered realm id index) := by
  refine .of_in (.of_records rfl) (journal_write _ _) (fun other hr => sameIn_entered hr id index)
    ⟨fun other kept slot found _ => ?_, fun other kept _ _ _ => ?_⟩
  · rw [slot?_entered, if_neg (List.ne_of_not_mem_cons kept), found]
  · rw [life_entered, if_neg (Ne.symm (List.ne_of_not_mem_cons kept)), List.append_nil]

theorem slot?_opened (found : (w.realm realm).slot? id = some slot) (index : Nat) :
    ((w.entered realm id index).realm realm).slot? id =
      some { slot with index, ancestor := index, status := .evaluating } := by
  rw [slot?_entered, if_pos rfl, found]
  rfl

theorem Orderly.life_opened (h : w.Orderly) (found : (w.realm realm).slot? id = some slot)
    (instantiated : slot.status = .instantiated) (cyclic : (w.record id).isCyclic = true)
    (index : Nat) : (w.entered realm id index).life realm id =
      [.moved .instantiated, .moved .evaluating] := by
  have life := (h realm).life id cyclic
  simp only [Realm.status?, found, Option.map_some, instantiated, Stage.LeadTo] at life
  simp [life_entered, life]

/-- A module that was only instantiated can be opened. -/
theorem Orderly.entered (h : w.Orderly) (walks : (w.realm realm).walks = walk :: outer)
    (found : (w.realm realm).slot? id = some slot) (instantiated : slot.status = .instantiated)
    (cyclic : (w.record id).isCyclic = true) (index : Nat) :
    (w.entered realm id index).Orderly := by
  have records : Extends w (w.entered realm id index) := .of_records rfl
  have idle : id ∉ (w.realm realm).busy := fun member => by
    have evaluating := ((h realm).busy id).mp member
    simp [Realm.status?, found, instantiated] at evaluating
  have busy : ((w.entered realm id index).realm realm).busy = id :: (w.realm realm).busy := by
    simp [Realm.busy_of_walks (walks_entered walks id index), Realm.busy_of_walks walks]
  refine h.of_in records (fun other hr => ?_) <| (h realm).change records
    (slot?_opened found index) ?_ (fun other ho => ?_) (fun other ho => ?_) ?_ (fun other => ?_)
    (fun _ => ?_) (fun _ => cyclic) fun _ => ?_
  · exact sameIn_entered hr id index
  · exact (h realm).settled id slot found
  · rw [slot?_entered, if_neg ho]
  · rw [life_entered, if_neg ho.symm, List.append_nil]
  · rw [busy]
    exact List.nodup_cons.mpr ⟨idle, (h realm).nodup⟩
  · rw [busy]
    by_cases ho : other = id <;> simp [ho]
  · exact (h realm).clean id slot found (by simp [instantiated])
  · simp [h.life_opened found instantiated cyclic, Stage.LeadTo]

/-- The world in which a walk has taken a module off its stack that was evaluated. -/
def popped (w : World) (realm : RealmId) (id : RecordId) (rest : List RecordId)
    (change : Slot → Slot) : World :=
  (w.modifyRealm realm (·.modifyWalk ({ · with stack := rest }))).moveSlot realm id .evaluated change

theorem slot?_popped (w : World) (realm : RealmId) (id other : RecordId) (rest : List RecordId)
    (change : Slot → Slot) :
    ((w.popped realm id rest change).realm realm).slot? other =
      if other = id then
        ((w.realm realm).slot? other).map fun slot => { change slot with status := .evaluated }
      else (w.realm realm).slot? other := by
  rw [popped, realm_moveSlot, Realm.slot?_modifySlot, realm_modifyRealm_same]
  simp [Realm.slot?]

theorem walks_popped (walks : (w.realm realm).walks = walk :: outer) (id : RecordId)
    (rest : List RecordId) (change : Slot → Slot) :
    ((w.popped realm id rest change).realm realm).walks = { walk with stack := rest } :: outer := by
  rw [popped, realm_moveSlot, Realm.walks_modifySlot, realm_modifyRealm_same,
    Realm.walks_modifyWalk walks]

theorem life_popped (w : World) (realm : RealmId) (id other : RecordId) (rest : List RecordId)
    (change : Slot → Slot) :
    (w.popped realm id rest change).life realm other =
      w.life realm other ++ if id = other then [.moved .evaluated] else [] :=
  life_moveSlot ..

theorem journal_popped (w : World) (realm : RealmId) (id : RecordId) (rest : List RecordId)
    (change : Slot → Slot) : (w.popped realm id rest change).journal.toList =
      w.journal.toList ++ [.moved realm id .evaluated] := by
  simp [popped, moveSlot, write, modifyRealm, setRealm]

theorem sameIn_popped {other : RealmId} (hr : other ≠ realm) (id : RecordId)
    (rest : List RecordId) (change : Slot → Slot) :
    SameIn other w (w.popped realm id rest change) :=
  (SameIn.modifyRealm hr _).trans (.moveSlot hr _ _ _)

theorem advance_popped (w : World) (realm : RealmId) (id : RecordId) (rest : List RecordId)
    (change : Slot → Slot) : Advance realm [id] w (w.popped realm id rest change) := by
  refine .of_in (.of_records rfl) (journal_write _ _)
    (fun other hr => sameIn_popped hr id rest change)
    ⟨fun other kept slot found _ => ?_, fun other kept _ _ _ => ?_⟩
  · rw [slot?_popped, if_neg (List.ne_of_not_mem_cons kept), found]
  · rw [life_popped, if_neg (Ne.symm (List.ne_of_not_mem_cons kept)), List.append_nil]

/-- The latest module on a stack can be taken off as evaluated. -/
theorem Orderly.popped (h : w.Orderly) {rest : List RecordId}
    (walks : (w.realm realm).walks = walk :: outer) (top : walk.stack = id :: rest)
    (change : Slot → Slot) : (w.popped realm id rest change).Orderly := by
  have records : Extends w (w.popped realm id rest change) := .of_records rfl
  have opened : (w.realm realm).busy = id :: (rest ++ outer.flatMap Walk.stack) := by
    rw [Realm.busy_of_walks walks, top, List.cons_append]
  have busy : ((w.popped realm id rest change).realm realm).busy =
      rest ++ outer.flatMap Walk.stack := Realm.busy_of_walks (walks_popped walks id rest change)
  have unique := (h realm).nodup
  rw [opened, List.nodup_cons] at unique
  have evaluating := ((h realm).busy id).mp (by simp [opened])
  obtain ⟨slot, found, status⟩ := Option.map_eq_some_iff.mp evaluating
  refine h.of_in records (fun other hr => ?_) <| (h realm).change records
    (slot?_popped w realm id id rest change |>.trans (by simp [found]; rfl)) ?_ (fun other ho => ?_)
    (fun other ho => ?_) ?_ (fun other => ?_) (fun still => absurd rfl still)
    (fun busy => by cases busy) fun cyclic => ?_
  · exact sameIn_popped hr id rest change
  · exact (h realm).settled id slot found
  · rw [slot?_popped, if_neg ho]
  · rw [life_popped, if_neg ho.symm, List.append_nil]
  · exact busy ▸ unique.2
  · rw [busy, opened]
    by_cases ho : other = id
    · simpa [ho] using unique.1
    · simp [ho]
  · have life := (h realm).life id cyclic
    rw [evaluating] at life
    rw [life_popped, if_pos rfl]
    rcases life with life | life <;> simp [life, Stage.LeadTo]

/-- The body of a module that is evaluating, and did not run before, begins to run. -/
theorem Orderly.began (h : w.Orderly) (found : (w.realm realm).slot? id = some slot)
    (fit : (w.record id).isCyclic = true → slot.status = .evaluating ∧
      w.life realm id = [.moved .instantiated, .moved .evaluating]) (moment : Moment) :
    (w.write (.began realm id moment)).Orderly := by
  refine h.of_in (.of_records rfl) (fun other hr => .write fun _ => by simp [Event.stage?, hr.symm])
    <| (h realm).change (.of_records rfl) found ((h realm).settled id slot found) (fun _ _ => rfl)
    (fun other ho => ?_) (h realm).nodup (fun other => ?_) ((h realm).clean id slot found)
    (fun evaluating => ?_) fun cyclic => ?_
  · simp [Event.stage?, ho.symm]
  · by_cases ho : other = id
    · subst ho
      simp [(h realm).busy, Realm.status?, found]
    · simp [ho]
  · exact (h realm).cyclic id (((h realm).busy id).mpr (by simp [Realm.status?, found, evaluating]))
  · obtain ⟨status, life⟩ := fit cyclic
    simp [Event.stage?, life, status, Stage.LeadTo]

theorem advance_began (w : World) (realm : RealmId) (id : RecordId) (moment : Moment) :
    Advance realm [id] w (w.write (.began realm id moment)) := by
  refine .of_in (.of_records rfl) (journal_write _ _)
    (fun other hr => .write fun _ => by simp [Event.stage?, hr.symm])
    ⟨fun _ _ _ found _ => found, fun other kept _ _ _ => ?_⟩
  simp [Event.stage?, Ne.symm (List.ne_of_not_mem_cons kept)]

/-- An event that is no stage of any module changes nothing of the order. -/
theorem SameIn.mark {event : Event} (silent : ∀ realm id, event.stage? realm id = none)
    (realm : RealmId) : SameIn realm w (w.write event) := .write (silent realm)

theorem Orderly.mark (h : w.Orderly) {event : Event}
    (silent : ∀ realm id, event.stage? realm id = none) : (w.write event).Orderly :=
  fun realm => (h realm).of_sameIn (.of_records rfl) (.mark silent realm)

theorem advance_mark {except : List RecordId} (w : World) (realm : RealmId) (event : Event)
    (silent : ∀ realm id, event.stage? realm id = none) :
    Advance realm except w (w.write event) :=
  .of_same (.of_records rfl) (journal_write w event) (.mark silent)

/-- Walks can change in all but what is on their stacks. -/
theorem Orderly.rearranged (h : w.Orderly) {change : Realm → Realm}
    (slots : ∀ r, (change r).slots = r.slots)
    (busy : (change (w.realm realm)).busy = (w.realm realm).busy) :
    (w.modifyRealm realm change).Orderly := by
  refine h.of_in (.of_records rfl) (fun other hr => .modifyRealm hr _) <|
    (h realm).of_busy (.of_records rfl) (fun id => ?_) ?_ fun _ _ => rfl
  · rw [Realm.slot?, realm_modifyRealm_same, slots, Realm.slot?]
  · rw [realm_modifyRealm_same, busy]

theorem advance_rearranged {except : List RecordId} {change : Realm → Realm}
    (slots : ∀ r, (change r).slots = r.slots) :
    Advance realm except w (w.modifyRealm realm change) := by
  refine .of_in (.of_records rfl) (List.prefix_refl _) (fun other hr => .modifyRealm hr change)
    ⟨fun id _ slot found _ => ?_, fun _ _ _ _ _ => rfl⟩
  rw [Realm.slot?, realm_modifyRealm_same, slots]
  exact found

/-- The world in which a walk has begun. -/
def walking (w : World) (realm : RealmId) (root : RecordId) : World :=
  w.modifyRealm realm fun r => { r with walks := { root } :: r.walks }

theorem walks_walking (w : World) (realm : RealmId) (root : RecordId) :
    ((w.walking realm root).realm realm).walks = { root } :: (w.realm realm).walks := by
  rw [walking, realm_modifyRealm_same]

theorem Orderly.walking (h : w.Orderly) (realm : RealmId) (root : RecordId) :
    (w.walking realm root).Orderly :=
  h.rearranged (fun _ => rfl) (by simp [Realm.busy])

theorem advance_walking {except : List RecordId} (w : World) (realm : RealmId) (root : RecordId) :
    Advance realm except w (w.walking realm root) :=
  advance_rearranged fun _ => rfl

/-- The world in which the innermost walk is over. -/
def walked (w : World) (realm : RealmId) : World :=
  w.modifyRealm realm fun r => { r with walks := r.walks.tail }

theorem walks_walked (walks : (w.realm realm).walks = walk :: outer) :
    ((w.walked realm).realm realm).walks = outer := by
  rw [walked, realm_modifyRealm_same, walks, List.tail_cons]

theorem Orderly.walked (h : w.Orderly) (walks : (w.realm realm).walks = walk :: outer)
    (empty : walk.stack = []) : (w.walked realm).Orderly :=
  h.rearranged (fun _ => rfl) (by simp [Realm.busy, walks, empty])

theorem advance_walked {except : List RecordId} (w : World) (realm : RealmId) :
    Advance realm except w (w.walked realm) :=
  advance_rearranged fun _ => rfl

/-- The world in which the innermost walk runs the body of a module, or none. -/
def running (w : World) (realm : RealmId) (running : Option RecordId) : World :=
  w.modifyRealm realm (·.modifyWalk ({ · with running }))

theorem slot?_modifyWalk (w : World) (realm : RealmId) (change : Walk → Walk) (id : RecordId) :
    ((w.modifyRealm realm (·.modifyWalk change)).realm realm).slot? id =
      (w.realm realm).slot? id := by
  simp [Realm.slot?]

theorem slot?_running (w : World) (realm : RealmId) (running : Option RecordId) (id : RecordId) :
    ((w.running realm running).realm realm).slot? id = (w.realm realm).slot? id :=
  slot?_modifyWalk ..

theorem walks_running (walks : (w.realm realm).walks = walk :: outer)
    (running : Option RecordId) :
    ((w.running realm running).realm realm).walks = { walk with running } :: outer := by
  rw [World.running, realm_modifyRealm_same, Realm.walks_modifyWalk walks]

theorem Orderly.running (h : w.Orderly) (walks : (w.realm realm).walks = walk :: outer)
    (running : Option RecordId) : (w.running realm running).Orderly := by
  refine h.rearranged (fun r => r.slots_modifyWalk _) ?_
  rw [Realm.busy_of_walks (Realm.walks_modifyWalk walks _), Realm.busy_of_walks walks]

theorem advance_running {except : List RecordId} (w : World) (realm : RealmId)
    (running : Option RecordId) : Advance realm except w (w.running realm running) :=
  advance_rearranged fun r => r.slots_modifyWalk _

/-- The world in which the ancestor of a module was lowered to that of another. -/
def lowered (w : World) (realm : RealmId) (id : RecordId) (ancestor : Nat) : World :=
  w.modifyRealm realm
    (·.modifySlot id fun own => { own with ancestor := min own.ancestor ancestor })

theorem slot?_lowered (w : World) (realm : RealmId) (id other : RecordId) (ancestor : Nat) :
    ((w.lowered realm id ancestor).realm realm).slot? other =
      if other = id then
        ((w.realm realm).slot? other).map fun own =>
          { own with ancestor := min own.ancestor ancestor }
      else (w.realm realm).slot? other := by
  rw [lowered, realm_modifyRealm_same, Realm.slot?_modifySlot]

theorem walks_lowered (w : World) (realm : RealmId) (id : RecordId) (ancestor : Nat) :
    ((w.lowered realm id ancestor).realm realm).walks = (w.realm realm).walks := by
  rw [lowered, realm_modifyRealm_same, Realm.walks_modifySlot]

theorem advance_lowered (w : World) (realm : RealmId) (id : RecordId) (ancestor : Nat) :
    Advance realm [id] w (w.lowered realm id ancestor) := by
  refine .of_in (.of_records rfl) (List.prefix_refl _) (fun other hr => .modifyRealm hr _)
    ⟨fun other kept slot found _ => ?_, fun _ _ _ _ _ => rfl⟩
  rw [slot?_lowered, if_neg (List.ne_of_not_mem_cons kept), found]

theorem Orderly.lowered (h : w.Orderly) (found : (w.realm realm).slot? id = some slot)
    (ancestor : Nat) : (w.lowered realm id ancestor).Orderly := by
  have records : Extends w (w.lowered realm id ancestor) := .of_records rfl
  have busy : ((w.lowered realm id ancestor).realm realm).busy = (w.realm realm).busy := by
    simp [Realm.busy, walks_lowered]
  have member : id ∈ (w.realm realm).busy ↔ slot.status = .evaluating := by
    simp [(h realm).busy, Realm.status?, found]
  refine h.of_in records (fun other hr => .modifyRealm hr _) <| (h realm).change records
    (slot?_lowered w realm id id ancestor |>.trans (by simp [found]; rfl)) ?_ (fun other ho => ?_)
    (fun _ _ => rfl) (busy ▸ (h realm).nodup) (fun other => ?_) ?_ (fun evaluating => ?_)
    fun cyclic => ?_
  · exact (h realm).settled id slot found
  · rw [slot?_lowered, if_neg ho]
  · rw [busy]
    by_cases ho : other = id <;> simp [ho, member]
  · exact (h realm).clean id slot found
  · exact (h realm).cyclic id (member.mpr evaluating)
  · have life := (h realm).life id cyclic
    rwa [Realm.status?, found] at life

/-- A module that takes no part in cycles has been evaluated. -/
theorem Orderly.plain (h : w.Orderly) (plain : (w.record id).isCyclic = false)
    (change : Slot → Slot) : (w.moveSlot realm id .evaluated change).Orderly := by
  have records : Extends w (w.moveSlot realm id .evaluated change) := .of_records rfl
  have slots (other : RecordId) := (w.realm realm).slot?_modifySlot id other
    fun slot => { change slot with status := .evaluated }
  have busy : ((w.moveSlot realm id .evaluated change).realm realm).busy =
      (w.realm realm).busy := by
    simp [Realm.busy]
  have life (other : RecordId) (differs : other ≠ id) :
      (w.moveSlot realm id .evaluated change).life realm other = w.life realm other := by
    rw [life_moveSlot, if_neg differs.symm, List.append_nil]
  refine h.of_in records (fun other hr => .moveSlot hr _ _ _) ?_
  cases found : (w.realm realm).slot? id with
  | none =>
    refine (h realm).of_busy records (fun other => ?_) busy fun other cyclic => life other ?_
    · rw [realm_moveSlot, slots]
      split
      · simp [*]
      · rfl
    · rintro rfl
      simp [plain] at cyclic
  | some slot =>
    refine (h realm).change records (by rw [realm_moveSlot, slots, if_pos rfl, found]; rfl) ?_
      (fun other ho => ?_) life ?_ (fun other => ?_) (fun still => absurd rfl still)
      (fun busy => by cases busy) fun cyclic => ?_
    · exact (h realm).settled id slot found
    · rw [realm_moveSlot, slots, if_neg ho]
    · exact busy ▸ (h realm).nodup
    · rw [busy]
      by_cases ho : other = id
      · subst ho
        simpa using fun member => absurd ((h realm).cyclic other member) (by simp [plain])
      · simp [ho]
    · rw [plain] at cyclic
      cases cyclic

theorem advance_moveSlot (w : World) (realm : RealmId) (id : RecordId) (status : InstanceStatus)
    (change : Slot → Slot) : Advance realm [id] w (w.moveSlot realm id status change) := by
  refine .of_in (.of_records rfl) (journal_write _ _) (fun other hr => .moveSlot hr _ _ _)
    ⟨fun other kept slot found _ => ?_, fun other kept _ _ _ => ?_⟩
  · rw [realm_moveSlot, Realm.slot?_modifySlot, if_neg (List.ne_of_not_mem_cons kept), found]
  · rw [life_moveSlot, if_neg (Ne.symm (List.ne_of_not_mem_cons kept)), List.append_nil]

end

/-! ### Changes -/

section
variable (absent : (w.realm realm).slot? id = none) (content : Instance)
include absent

theorem slot?_addInstance (other : RecordId) :
    ((w.addInstance realm id content).realm realm).slot? other =
      if other = id then some { instanceIndex := (w.realm realm).instances.size }
      else (w.realm realm).slot? other := by
  rw [addInstance, realm_write, realm_modifyRealm_same, Realm.slot?_addInstance _ absent]

theorem instance?_addInstance :
    ((w.addInstance realm id content).realm realm).instance? id = some content := by
  rw [Realm.instance?, slot?_addInstance absent, if_pos rfl, Option.bind_some]
  simp [addInstance, Realm.addInstance]

omit absent in
theorem walks_addInstance :
    ((w.addInstance realm id content).realm realm).walks = (w.realm realm).walks := by
  rw [addInstance, realm_write, realm_modifyRealm_same, Realm.walks_addInstance]

omit absent in
theorem life_addInstance (other : RecordId) :
    (w.addInstance realm id content).life realm other =
      w.life realm other ++ if id = other then [.moved .instantiated] else [] := by
  by_cases h : id = other <;> simp [addInstance, Event.stage?, h]

omit absent in
theorem sameIn_addInstance {other : RealmId} (hr : other ≠ realm) :
    SameIn other w (w.addInstance realm id content) :=
  (SameIn.modifyRealm hr _).trans (.write fun _ => by simp [Event.stage?, hr.symm])

theorem undisturbed_addInstance : Undisturbed realm [] w (w.addInstance realm id content) where
  slot other _ slot found _ := by
    have ho : other ≠ id := fun ho => by simp [ho, absent] at found
    rw [slot?_addInstance absent, if_neg ho, found]
  life other _ slot found _ := by
    have ho : id ≠ other := fun ho => by simp [← ho, absent] at found
    rw [life_addInstance, if_neg ho, List.append_nil]

theorem Orderly.addInstance (h : w.Orderly) (present : w.hasRecord id = true)
    (settled : (w.record id).IsSettled) : (w.addInstance realm id content).Orderly := by
  have busy : ((w.addInstance realm id content).realm realm).busy = (w.realm realm).busy := by
    simp [Realm.busy, walks_addInstance]
  have idle : id ∉ (w.realm realm).busy := by
    simp [(h realm).busy, Realm.status?, absent]
  refine h.of_in (.of_records rfl) (fun other hr => sameIn_addInstance content hr) <|
    (h realm).change (.of_records rfl) (by rw [slot?_addInstance absent, if_pos rfl])
    ⟨present, settled⟩ (fun other ho => ?_) (fun other ho => ?_) (busy ▸ (h realm).nodup)
    (fun other => ?_) (fun _ => rfl) (fun evaluating => by cases evaluating) fun cyclic => ?_
  · rw [slot?_addInstance absent, if_neg ho]
  · rw [life_addInstance, if_neg ho.symm, List.append_nil]
  · rw [busy]
    by_cases ho : other = id
    · simp [ho, idle]
    · simp [ho]
  · have life := (h realm).life id cyclic
    simp only [Realm.status?, absent, Option.map_none, Stage.LeadTo] at life
    simp [life_addInstance, life, Stage.LeadTo]

end

/-- What changes do not touch: order, the walks, and all modules that have begun. -/
theorem Change.orderly (h : w.Orderly) (change : Change w w') : w'.Orderly := by
  cases change with
  | edit edit => exact h.still edit.still
  | relink relink => exact h.still relink.still
  | addInstance realm id content absent present settled =>
    exact h.addInstance absent content present settled

theorem Change.undisturbed (change : Change w w') (realm : RealmId) :
    Undisturbed realm [] w w' := by
  cases change with
  | edit edit => exact .of_sameIn (edit.still.sameIn realm)
  | relink relink => exact .of_sameIn (relink.still.sameIn realm)
  | addInstance other id content absent present settled =>
    by_cases hr : realm = other
    · exact hr ▸ undisturbed_addInstance (hr ▸ absent) content
    · exact .of_sameIn (sameIn_addInstance content hr)

theorem Change.walks (change : Change w w') (realm : RealmId) :
    (w'.realm realm).walks = (w.realm realm).walks := by
  cases change with
  | edit edit => exact edit.still.walks realm
  | relink relink => exact relink.still.walks realm
  | addInstance other id content absent present settled =>
    by_cases hr : realm = other
    · exact hr ▸ walks_addInstance content
    · exact (sameIn_addInstance content hr).walks

theorem Change.advance (change : Change w w') (realm : RealmId) : Advance realm [] w w' := by
  refine ⟨?_, ?_, change.undisturbed realm,
    fun other _ => ⟨change.undisturbed other, change.walks other⟩⟩
  all_goals cases change with
  | edit edit => first | exact edit.still.records | exact edit.still.journalGrows
  | relink relink => first | exact relink.still.records | exact relink.still.journalGrows
  | addInstance other id content absent present settled =>
    first | exact .of_records rfl | exact journal_write _ _

/-- What happens between two points of one module's body: walks are the same again, and all that was
evaluating or evaluated is as it was. -/
structure Passes (realm : RealmId) (w w' : World) : Prop where
  advance : Advance realm [] w w'
  walks : (w'.realm realm).walks = (w.realm realm).walks

theorem Passes.refl (w : World) : Passes realm w w := ⟨.refl w, rfl⟩

theorem Passes.trans (h : Passes realm w w') (h' : Passes realm w' w'') : Passes realm w w'' :=
  ⟨h.advance.trans h'.advance, h'.walks.trans h.walks⟩

theorem Still.passes (still : Still w w') (realm : RealmId) : Passes realm w w' :=
  ⟨.of_same still.records still.journalGrows still.sameIn, still.walks realm⟩

theorem Changes.passes (changes : Changes w w') (realm : RealmId) :
    Passes realm w w' := by
  induction changes with
  | refl => exact .refl w
  | tail _ change ih => exact ih.trans ⟨change.advance realm, change.walks realm⟩

theorem Changes.orderly (changes : Changes w w') (h : w.Orderly) :
    w'.Orderly := by
  induction changes with
  | refl => exact h
  | tail _ change ih => exact change.orderly ih

end World
end ModuleGraph
