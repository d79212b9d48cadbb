import ModuleGraph.Proofs.Components
import ModuleGraph.Proofs.OrderedWalks

/-!
What every journal says of evaluation. A body begins when all that its module requests has been
evaluated well or is evaluating and leads to it, and what a walk closes is a strongly connected
component of what it has opened, all of which has run. A module that was evaluated well was closed
so, and keeps evaluated dependencies, but for those that an enclosing walk held open when its body
began.
-/
namespace ModuleGraph
open Relation

namespace Moment
variable (moment : Moment)

/-- A walk requires a module from a running body: the body is of the first module, and the second is
the root of the next inner walk. -/
def Requires (a b : RecordId) : Prop :=
  ∃ before inner outer after, moment.realm.walks = before ++ inner :: outer :: after ∧
    outer.running = some a ∧ inner.root = b

/-- There is a path of requests and of `require` calls that are under way. -/
abbrev Leads : RecordId → RecordId → Prop :=
  ReflTransGen fun a b => b ∈ (moment.record a).requested ∨ moment.Requires a b

/-- There is a path of requests among some modules. -/
abbrev Connects (members : List RecordId) : RecordId → RecordId → Prop :=
  ReflTransGen fun a b => a ∈ members ∧ b ∈ members ∧ b ∈ (moment.record a).requested

/-- Every module that another requests has been evaluated without an error, or it is evaluating and
leads to the other. -/
def DependenciesMet (id : RecordId) : Prop :=
  ∀ r ∈ (moment.record id).requested, ∃ slot, moment.realm.slot? r = some slot ∧
    (slot.status = .evaluated ∧ slot.error = none ∨
      slot.status = .evaluating ∧ moment.Leads r id)

/-- Some modules are a strongly connected component of all that the innermost walk has opened. -/
def IsComponent (modules : List RecordId) : Prop :=
  ∃ walk outer, moment.realm.walks = walk :: outer ∧ modules ≠ [] ∧
    ∀ x ∈ modules, ∀ y, y ∈ modules ↔
      y ∈ walk.opened ∧ moment.Connects walk.opened x y ∧ moment.Connects walk.opened y x

end Moment

/-- Evaluation does at an event, after others, what it should. -/
def Event.Right (before : List Event) : Event → Prop
  | .began _ id moment => (moment.record id).isCyclic = true → moment.DependenciesMet id
  | .closed realm modules moment =>
    moment.IsComponent modules ∧ ∀ x ∈ modules, .ended realm x none ∈ before ∧
      ∃ slot, moment.realm.slot? x = some slot ∧ slot.status = .evaluated ∧ slot.error = none
  | _ => True

theorem Event.Right.of_isQuiet {event : Event} (quiet : event.isQuiet = true)
    (before : List Event) : event.Right before := by
  cases event <;> trivial

theorem Event.isQuiet_of_isOutward {event : Event} (outward : event.isOutward = true) :
    event.isQuiet = true := by
  cases event <;> first | rfl | cases outward

namespace World
variable {w w' w'' : World} {realm : RealmId} {id : RecordId}

/-- Every event in the journal is right after those before it. -/
def JournalRight (w : World) : Prop :=
  ∀ before event later, w.journal.toList = before ++ event :: later → event.Right before

theorem JournalRight.write (h : w.JournalRight) {event : Event}
    (right : event.Right w.journal.toList) : (w.write event).JournalRight := by
  intro before other later split
  rw [World.write, Array.toList_push] at split
  rcases List.eq_nil_or_concat later with rfl | ⟨earlier, last, rfl⟩
  · obtain ⟨rfl, same⟩ := List.append_inj' split rfl
    obtain rfl := List.singleton_injective same
    exact right
  · rw [List.concat_eq_append, ← List.cons_append, ← List.append_assoc] at split
    exact h before other earlier (List.append_inj' split rfl).1

theorem JournalRight.append (h : w.JournalRight) {events : List Event}
    (journal : w'.journal.toList = w.journal.toList ++ events)
    (quiet : ∀ event ∈ events, event.isQuiet = true) : w'.JournalRight := by
  induction events generalizing w with
  | nil =>
    intro before event later split
    exact h before event later (by rw [← split, journal, List.append_nil])
  | cons event rest ih =>
    obtain ⟨first, others⟩ := List.forall_mem_cons.mp quiet
    refine ih (h.write (.of_isQuiet first _)) ?_ others
    simp [World.write, journal]

/-- A module was evaluated without an error. -/
def Fulfilled (w : World) (realm : RealmId) (id : RecordId) : Prop :=
  ∃ slot, (w.realm realm).slot? id = some slot ∧ slot.status = .evaluated ∧ slot.error = none

/-- A module was opened by a walk. -/
def WasOpened (w : World) (realm : RealmId) (id : RecordId) : Prop :=
  .moved realm id .evaluating ∈ w.journal.toList

/-- The body of a module began inside a walk that held another open. -/
def RanInside (w : World) (realm : RealmId) (id other : RecordId) : Prop :=
  ∃ moment walk outer, .began realm id moment ∈ w.journal.toList ∧
    moment.realm.walks = walk :: outer ∧ ∃ o ∈ outer, other ∈ o.stack

/-- What a module requests that was evaluated well has been evaluated well, or its body ran while an
enclosing walk held that open. -/
def Kept (w : World) : Prop :=
  ∀ realm s, (w.record s).isCyclic = true → w.Fulfilled realm s →
    ∀ p ∈ (w.record s).requested, (w.record p).isCyclic = true →
      w.Fulfilled realm p ∨ w.WasOpened realm p ∧ w.RanInside realm s p

/-- What was evaluated well was closed with its component. -/
def Closed (w : World) : Prop :=
  ∀ realm id, (w.record id).isCyclic = true → w.Fulfilled realm id →
    ∃ modules moment, .closed realm modules moment ∈ w.journal.toList ∧ id ∈ modules

/-- What holds whenever evaluation goes on, and when it gives up. -/
structure Sound (w : World) : Prop where
  journal : w.JournalRight
  kept : w.Kept
  closed : w.Closed

theorem Fulfilled.begun (h : w.Fulfilled realm id) : w.Begun realm id := by
  obtain ⟨slot, found, status, _⟩ := h
  exact ⟨slot, found, by simp [status]⟩

theorem Fulfilled.ready (h : w.Fulfilled realm id) : w.Ready realm id := by
  obtain ⟨slot, found, status⟩ := h
  exact ⟨slot, found, .inl status⟩

theorem mem_life_evaluating :
    .moved .evaluating ∈ w.life realm id ↔ w.WasOpened realm id := by
  rw [World.life, List.mem_filterMap]
  constructor
  · rintro ⟨event, member, stage⟩
    cases event with
    | moved r i status =>
      simp only [Event.stage?] at stage
      split at stage
      · rename_i same
        obtain ⟨rfl, rfl⟩ := same
        obtain rfl : status = .evaluating := by simpa using stage
        exact member
      · cases stage
    | began r i moment =>
      simp only [Event.stage?] at stage
      split at stage <;> cases stage
    | _ => cases stage
  · intro opened
    exact ⟨_, opened, by simp [Event.stage?]⟩

/-- A module that takes part in cycles has begun when it was opened. -/
theorem Orderly.begun_iff_wasOpened (orderly : w.Orderly) (cyclic : (w.record id).isCyclic = true) :
    w.Begun realm id ↔ w.WasOpened realm id := by
  have life := (orderly realm).life id cyclic
  rw [← mem_life_evaluating, Begun]
  rw [Realm.status?] at life
  cases found : (w.realm realm).slot? id with
  | none =>
    rw [found] at life
    simp [show w.life realm id = [] from life]
  | some slot =>
    rw [found, Option.map_some] at life
    cases status : slot.status with
    | instantiated =>
      rw [status] at life
      simp [status, show w.life realm id = [.moved .instantiated] from life]
    | evaluating | evaluated =>
      rw [status] at life
      rcases life with life | life <;> simp [status, life]

theorem WasOpened.grows (h : w.WasOpened realm id)
    (journal : w.journal.toList <+: w'.journal.toList) : w'.WasOpened realm id :=
  journal.subset h

theorem RanInside.grows {other : RecordId} (h : w.RanInside realm id other)
    (journal : w.journal.toList <+: w'.journal.toList) : w'.RanInside realm id other := by
  obtain ⟨moment, walk, outer, began, walks⟩ := h
  exact ⟨moment, walk, outer, journal.subset began, walks⟩

/-- No module that takes part in cycles is evaluated well that was not before, and those that were
stay. -/
theorem Sound.of_fulfilled (h : w.Sound) (right : w'.JournalRight)
    (journal : w.journal.toList <+: w'.journal.toList)
    (cyclic : ∀ id, (w'.record id).isCyclic = (w.record id).isCyclic)
    (requested : ∀ realm id, w.Fulfilled realm id →
      (w'.record id).requested = (w.record id).requested)
    (fulfilled : ∀ realm id, (w.record id).isCyclic = true →
      (w'.Fulfilled realm id ↔ w.Fulfilled realm id)) : w'.Sound := by
  refine ⟨right, fun realm s hs now p hp hp' => ?_, fun realm id hid now => ?_⟩
  · rw [cyclic] at hs hp'
    have before := (fulfilled realm s hs).mp now
    rw [requested realm s before] at hp
    rcases h.kept realm s hs before p hp hp' with well | ⟨opened, inside⟩
    · exact .inl ((fulfilled realm p hp').mpr well)
    · exact .inr ⟨opened.grows journal, inside.grows journal⟩
  · rw [cyclic] at hid
    obtain ⟨modules, moment, closed, member⟩ := h.closed realm id hid ((fulfilled realm id hid).mp now)
    exact ⟨modules, moment, journal.subset closed, member⟩

theorem fulfilled_congr
    (slot : (w'.realm realm).slot? id = (w.realm realm).slot? id) :
    w'.Fulfilled realm id ↔ w.Fulfilled realm id := by
  rw [Fulfilled, Fulfilled, slot]

theorem fulfilled_of_found {slot : Slot} (found : (w.realm realm).slot? id = some slot) :
    w.Fulfilled realm id ↔ slot.status = .evaluated ∧ slot.error = none := by
  simp [Fulfilled, found]

/-! ### Steps -/

theorem Sound.still (h : w.Sound) (orderly : w.Orderly) (still : Still w w') : w'.Sound := by
  obtain ⟨events, journal, outward⟩ := still.journal
  refine h.of_fulfilled (h.journal.append journal fun event member =>
      Event.isQuiet_of_isOutward (outward event member)) still.journalGrows still.records.isCyclic
    (fun _ _ fulfilled => fulfilled.begun.requested orderly still.records)
    fun realm id _ => fulfilled_congr ((still.sameIn realm).slot? id)

theorem Sound.addInstance (h : w.Sound)
    (absent : (w.realm realm).slot? id = none) (content : Instance) :
    (w.addInstance realm id content).Sound := by
  refine h.of_fulfilled (JournalRight.write h.journal trivial) (journal_write _ _) (fun _ => rfl)
    (fun _ _ _ => rfl) fun other x _ => ?_
  by_cases hr : other = realm
  · subst hr
    by_cases same : x = id
    · subst same
      rw [fulfilled_of_found ((slot?_addInstance absent content x).trans (if_pos rfl))]
      simp [Fulfilled, absent]
    · exact fulfilled_congr ((slot?_addInstance absent content x).trans (if_neg same))
  · exact fulfilled_congr ((sameIn_addInstance content hr).slot? x)

theorem Changes.sound (changes : Changes w w') (h : w.Sound) (orderly : w.Orderly) : w'.Sound := by
  induction changes with
  | refl => exact h
  | tail before change ih =>
    have orderly := Changes.orderly before orderly
    cases change with
    | edit edit => exact ih.still orderly edit.still
    | relink relink => exact ih.still orderly relink.still
    | addInstance realm id content absent => exact ih.addInstance absent content

/-- A module gets another slot and is evaluated well neither before nor after, or takes no part in
cycles. -/
theorem Sound.change (h : w.Sound) (records : w'.records = w.records) (events : List Event)
    (journal : w'.journal.toList = w.journal.toList ++ events)
    (quiet : ∀ event ∈ events, event.isQuiet = true)
    (elsewhere : ∀ other, other ≠ realm → SameIn other w w') (ids : List RecordId)
    (slots : ∀ x, x ∉ ids → (w'.realm realm).slot? x = (w.realm realm).slot? x)
    (changed : ∀ x ∈ ids, (w.record x).isCyclic = true →
      ¬ w.Fulfilled realm x ∧ ¬ w'.Fulfilled realm x) : w'.Sound := by
  have record (id : RecordId) : w'.record id = w.record id := by simp [World.record, records]
  refine h.of_fulfilled (h.journal.append journal quiet) (journal ▸ List.prefix_append _ _)
    (fun id => by rw [record]) (fun _ id _ => by rw [record]) fun other x cyclic => ?_
  by_cases hr : other = realm
  · subst hr
    by_cases member : x ∈ ids
    · obtain ⟨before, after⟩ := changed x member cyclic
      exact iff_of_false after before
    · exact fulfilled_congr (slots x member)
  · exact fulfilled_congr ((elsewhere other hr).slot? x)

section
variable {walk : Walk} {outer : List Walk} {slot : Slot}

theorem Sound.entered (h : w.Sound) (found : (w.realm realm).slot? id = some slot)
    (instantiated : slot.status = .instantiated) (index : Nat) : (w.entered realm id index).Sound := by
  have found' := slot?_entered w realm id id index
  rw [if_pos rfl, found, Option.map_some] at found'
  refine h.change rfl [.moved realm id .evaluating]
    (by simp [World.entered, moveSlot, write, modifyRealm, setRealm]) (by simp [Event.isQuiet])
    (fun other hr => sameIn_entered hr id index) [id] (fun x differs => ?_) fun x member _ => ?_
  · rw [slot?_entered, if_neg (List.ne_of_not_mem_cons differs)]
  · rw [List.mem_singleton.mp member, fulfilled_of_found found, fulfilled_of_found found']
    simp [instantiated]

theorem Sound.lowered (h : w.Sound) (id : RecordId) (number : Nat) :
    (w.lowered realm id number).Sound := by
  refine h.of_fulfilled h.journal (List.prefix_refl _) (fun _ => rfl) (fun _ _ _ => rfl)
    fun other x _ => ?_
  by_cases hr : other = realm
  · subst hr
    rw [Fulfilled, Fulfilled, slot?_lowered]
    split
    · cases (w.realm other).slot? x <;> simp
    · rfl
  · exact fulfilled_congr ((SameIn.modifyRealm hr _).slot? x)

theorem Sound.rearranged (h : w.Sound) {change : Realm → Realm}
    (slots : ∀ r, (change r).slots = r.slots) : (w.modifyRealm realm change).Sound := by
  refine h.of_fulfilled h.journal (List.prefix_refl _) (fun _ => rfl) (fun _ _ _ => rfl)
    fun other x _ => fulfilled_congr ?_
  exact realm_modifyRealm_congr (fun r => r.slot? x) w realm other change fun r => by
    rw [Realm.slot?, slots, Realm.slot?]

theorem Sound.write (h : w.Sound) {event : Event} (right : event.Right w.journal.toList) :
    (w.write event).Sound :=
  h.of_fulfilled (h.journal.write right) (journal_write w event) (fun _ => rfl) (fun _ _ _ => rfl)
    fun _ _ _ => Iff.rfl

theorem Sound.plain (h : w.Sound) (realm : RealmId) (plain : (w.record id).isCyclic = false)
    (change : Slot → Slot) : (w.moveSlot realm id .evaluated change).Sound := by
  refine h.change rfl [.moved realm id .evaluated]
    (by simp [moveSlot, World.write, modifyRealm, setRealm]) (by simp [Event.isQuiet])
    (fun other hr => .moveSlot hr _ _ _) [id] (fun x differs => ?_) fun x member cyclic => ?_
  · rw [realm_moveSlot, Realm.slot?_modifySlot, if_neg (List.ne_of_not_mem_cons differs)]
  · rw [List.mem_singleton.mp member, plain] at cyclic
    cases cyclic

end

end World
end ModuleGraph
