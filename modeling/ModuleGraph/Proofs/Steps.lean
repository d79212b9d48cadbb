import ModuleGraph.Proofs.Runs
import ModuleGraph.Proofs.Soundness

/-!
What code does to the world, step by step. A step changes what evaluation does not look at, or it is
one move of a walk; it keeps order, and it leaves alone what has been evaluated. The steps from a
fresh world lead to all that is ever found there, in the middle of a body as well as between two
things that an embedder does.
-/
namespace ModuleGraph
open Relation Engine

namespace World
variable {w w' w'' : World} {realm : RealmId} {id : RecordId} {slot : Slot}

/-- A module whose body has begun exports something else, or is marked. -/
inductive Exposes (w : World) : World → Prop
  | intro (realm : RealmId) (id : RecordId) (change : Instance → Instance) {slot : Slot}
      (found : (w.realm realm).slot? id = some slot) (began : Stage.began ∈ w.life realm id)
      (becomes : ∀ content : Instance, content.Becomes (change content)) :
      Exposes w (w.modifyRealm realm (·.modifyInstance slot.instanceIndex change))

theorem Exposes.still (exposes : Exposes w w') : Still w w' := by
  cases exposes
  exact .modifyInstance ..

/-- One step of code. -/
inductive Step (w : World) : World → Prop
  /-- A change without evaluation. -/
  | change {w' : World} (change : Change w w') : Step w w'
  /-- A walk begins. -/
  | walking (realm : RealmId) (root : RecordId) : Step w (w.walking realm root)
  /-- The innermost walk opens a module that was only instantiated. -/
  | entered (realm : RealmId) (id : RecordId) (index : Nat) {walk : Walk} {outer : List Walk}
      {slot : Slot} (walks : (w.realm realm).walks = walk :: outer)
      (found : (w.realm realm).slot? id = some slot) (instantiated : slot.status = .instantiated)
      (cyclic : (w.record id).isCyclic = true) : Step w (w.entered realm id index)
  /-- The ancestor of an open module is lowered. -/
  | lowered (realm : RealmId) (id : RecordId) (ancestor : Nat) {slot : Slot}
      (found : (w.realm realm).slot? id = some slot) (evaluating : slot.status = .evaluating) :
      Step w (w.lowered realm id ancestor)
  /-- The innermost walk turns to a body, or comes back from it. -/
  | running (realm : RealmId) (running : Option RecordId) : Step w (w.running realm running)
  /-- A body begins. -/
  | began (realm : RealmId) (id : RecordId) {slot : Slot}
      (found : (w.realm realm).slot? id = some slot) (mayRun : MayRun w realm id slot) :
      Step w (w.write (.began realm id (w.moment realm)))
  /-- A body that has begun changes what its module exports. -/
  | exposed {w' : World} (exposes : Exposes w w') : Step w w'
  /-- Something else is written down. -/
  | marked (event : Event) (silent : ∀ realm id, event.stage? realm id = none) :
      Step w (w.write event)
  /-- The innermost walk takes its latest open module off its stack as evaluated. -/
  | popped (realm : RealmId) (id : RecordId) (rest : List RecordId) (change : Slot → Slot)
      (numbered : ∀ slot, (change slot).instanceIndex = slot.instanceIndex)
      {walk : Walk} {outer : List Walk} (walks : (w.realm realm).walks = walk :: outer)
      (top : walk.stack = id :: rest) : Step w (w.popped realm id rest change)
  /-- A module that takes no part in cycles has been evaluated. -/
  | plain (realm : RealmId) (id : RecordId) (change : Slot → Slot)
      (numbered : ∀ slot, (change slot).instanceIndex = slot.instanceIndex)
      (plain : (w.record id).isCyclic = false) : Step w (w.moveSlot realm id .evaluated change)
  /-- The innermost walk is over. -/
  | walked (realm : RealmId) {walk : Walk} {outer : List Walk}
      (walks : (w.realm realm).walks = walk :: outer) (empty : walk.stack = []) :
      Step w (w.walked realm)

/-- Any number of steps. -/
abbrev Steps : World → World → Prop := ReflTransGen Step

theorem Changes.steps (changes : Changes w w') : Steps w w' :=
  ReflTransGen.mono (fun _ _ => Step.change) _ _ changes

/-- What code meets somewhere on the way from a fresh world. -/
def Reached (w : World) : Prop := ∃ w₀, w₀.Fresh ∧ Steps w₀ w

theorem Fresh.reached (h : w.Fresh) : w.Reached := ⟨w, h, .refl⟩

theorem Reached.steps (h : w.Reached) (steps : Steps w w') : w'.Reached := by
  obtain ⟨w₀, fresh, before⟩ := h
  exact ⟨w₀, fresh, before.trans steps⟩

/-! ### Order -/

theorem Orderly.setRunning (h : w.Orderly) (realm : RealmId) (running : Option RecordId) :
    (w.running realm running).Orderly := by
  refine h.rearranged (fun r => r.slots_modifyWalk _) ?_
  cases walks : (w.realm realm).walks with
  | nil => simp [Realm.busy, Realm.modifyWalk, walks]
  | cons walk outer =>
    rw [Realm.busy_of_walks (Realm.walks_modifyWalk walks _), Realm.busy_of_walks walks]

theorem Step.orderly (step : Step w w') (h : w.Orderly) : w'.Orderly := by
  cases step with
  | change change => exact change.orderly h
  | walking realm root => exact h.walking realm root
  | entered realm id index walks found instantiated cyclic =>
    exact h.entered walks found instantiated cyclic index
  | lowered realm id ancestor found => exact h.lowered found ancestor
  | running realm running => exact h.setRunning realm running
  | began realm id found mayRun => exact h.began found mayRun _
  | exposed exposes => exact h.still exposes.still
  | marked event silent => exact h.mark silent
  | popped realm id rest change _ walks top => exact h.popped walks top change
  | plain realm id change _ plain => exact h.plain plain change
  | walked realm walks empty => exact h.walked walks empty

theorem Steps.orderly (steps : Steps w w') (h : w.Orderly) : w'.Orderly := by
  induction steps with
  | refl => exact h
  | tail _ step ih => exact step.orderly ih

theorem Reached.orderly (h : w.Reached) : w.Orderly := by
  obtain ⟨w₀, fresh, steps⟩ := h
  exact steps.orderly fresh.orderly

/-! ### What a step leaves alone -/

/-- A step of a walk touches, of all modules that have begun, at most one: it takes no part in
cycles or is evaluating. -/
theorem Step.advance (step : Step w w') (h : w.Orderly) :
    ∃ realm except, Advance realm except w w' ∧ ∀ id ∈ except, ∀ slot,
      (w.realm realm).slot? id = some slot → slot.status = .evaluated →
        (w.record id).isCyclic = false := by
  have only {realm : RealmId} {id : RecordId} {slot : Slot}
      (found : (w.realm realm).slot? id = some slot) (differs : slot.status ≠ .evaluated) :
      ∀ x ∈ [id], ∀ slot, (w.realm realm).slot? x = some slot → slot.status = .evaluated →
        (w.record x).isCyclic = false := by
    intro x member slot' found' evaluated
    rw [List.mem_singleton.mp member] at found'
    cases found.symm.trans found'
    exact absurd evaluated differs
  cases step with
  | change change => exact ⟨.worker 0, [], change.advance _, by simp⟩
  | walking realm root => exact ⟨realm, [], advance_walking w realm root, by simp⟩
  | entered realm id index walks found instantiated =>
    exact ⟨realm, [id], advance_entered w realm id index, only found (by simp [instantiated])⟩
  | lowered realm id ancestor found evaluating =>
    exact ⟨realm, [id], advance_lowered w realm id ancestor, only found (by simp [evaluating])⟩
  | running realm running => exact ⟨realm, [], advance_running w realm running, by simp⟩
  | began realm id found mayRun =>
    refine ⟨realm, [id], advance_began w realm id _, fun x member slot' found' evaluated => ?_⟩
    rw [List.mem_singleton.mp member] at found' ⊢
    cases found.symm.trans found'
    by_contra cyclic
    simp [(mayRun (by simpa using cyclic)).1] at evaluated
  | exposed exposes => exact ⟨.worker 0, [], (exposes.still.passes _).advance, by simp⟩
  | marked event silent => exact ⟨.worker 0, [], advance_mark w _ event silent, by simp⟩
  | popped realm id rest change _ walks top =>
    have evaluating := ((h realm).busy id).mp (by simp [Realm.busy_of_walks walks, top])
    obtain ⟨slot, found, status⟩ := Option.map_eq_some_iff.mp evaluating
    exact ⟨realm, [id], advance_popped w realm id rest change, only found (by simp [status])⟩
  | plain realm id change _ plain =>
    exact ⟨realm, [id], advance_moveSlot w realm id _ change, by simp [plain]⟩
  | walked realm => exact ⟨realm, [], advance_walked w realm, by simp⟩

theorem Steps.extends (steps : Steps w w') (h : w.Orderly) : Extends w w' := by
  induction steps with
  | refl => exact .refl w
  | tail before step ih =>
    obtain ⟨_, _, advance, _⟩ := step.advance (Steps.orderly before h)
    exact ih.trans advance.records

theorem Steps.journalGrows (steps : Steps w w') (h : w.Orderly) :
    w.journal.toList <+: w'.journal.toList := by
  induction steps with
  | refl => exact List.prefix_refl _
  | tail before step ih =>
    obtain ⟨_, _, advance, _⟩ := step.advance (Steps.orderly before h)
    exact ih.trans advance.journal

/-- What a module has been through stays written down. -/
theorem Steps.life (steps : Steps w w') (h : w.Orderly) (realm : RealmId) (id : RecordId) :
    w.life realm id <+: w'.life realm id :=
  (steps.journalGrows h).filterMap _

/-- A module that takes part in cycles and has been evaluated keeps its slot for good. -/
theorem Steps.evaluated (steps : Steps w w') (h : w.Orderly) (cyclic : (w.record id).isCyclic = true)
    (found : (w.realm realm).slot? id = some slot) (evaluated : slot.status = .evaluated) :
    (w'.realm realm).slot? id = some slot := by
  induction steps with
  | refl => exact found
  | tail before step ih =>
    obtain ⟨other, except, advance, exceptions⟩ := step.advance (Steps.orderly before h)
    have begun : slot.status ≠ .instantiated := by simp [evaluated]
    by_cases same : realm = other
    · subst same
      refine advance.slot (fun member => ?_) ih begun
      have plain := exceptions id member slot ih evaluated
      rw [(Steps.extends before h).isCyclic, cyclic] at plain
      cases plain
    · exact (advance.elsewhere realm same).1.slot id List.not_mem_nil slot ih begun

theorem Steps.fulfilled (steps : Steps w w') (h : w.Orderly)
    (cyclic : (w.record id).isCyclic = true) (well : w.Fulfilled realm id) :
    w'.Fulfilled realm id := by
  obtain ⟨slot, found, evaluated, clean⟩ := well
  exact ⟨slot, steps.evaluated h cyclic found evaluated, evaluated, clean⟩

theorem Step.revised (step : Step w w') (present : w.hasRecord id) :
    Revised (w.record id) (w'.record id) := by
  cases step with
  | change change => exact change.revised present
  | exposed exposes =>
    cases exposes
    exact .same _
  | _ => exact .same _

/-! ### How a slot goes on -/

/-- A slot leads to the same instance, and it is the same, or its module has begun by now. -/
def Onward (slot : Slot) (slot?' : Option Slot) : Prop :=
  ∃ slot', slot?' = some slot' ∧ slot'.instanceIndex = slot.instanceIndex ∧
    (slot' = slot ∨ slot'.status ≠ .instantiated)

theorem Onward.same (slot : Slot) : Onward slot (some slot) := ⟨slot, rfl, rfl, .inl rfl⟩

/-- A change to one slot that leaves it begun takes all slots onward. -/
theorem onward_change {change : Slot → Slot} {x : RecordId} {slots : RecordId → Option Slot}
    (found : slots x = some slot)
    (numbered : ∀ own, (change own).instanceIndex = own.instanceIndex)
    (begins : ∀ own, slots id = some own → (change own).status ≠ .instantiated) :
    Onward slot (if x = id then (slots x).map change else slots x) := by
  split
  · rename_i same
    subst same
    exact ⟨change slot, by rw [found]; rfl, numbered slot, .inr (begins slot found)⟩
  · exact found ▸ .same slot

theorem slot?_rearranged {change : Realm → Realm} (slots : ∀ r, (change r).slots = r.slots)
    (w : World) (realm other : RealmId) (x : RecordId) :
    ((w.modifyRealm realm change).realm other).slot? x = (w.realm other).slot? x :=
  realm_modifyRealm_congr (fun r => r.slot? x) w realm other change fun r => by
    rw [Realm.slot?, slots, Realm.slot?]

theorem Step.onward (step : Step w w') (found : (w.realm realm).slot? id = some slot) :
    Onward slot ((w'.realm realm).slot? id) := by
  have same {o : Option Slot} (same : o = (w.realm realm).slot? id) : Onward slot o := by
    rw [same, found]
    exact .same slot
  cases step with
  | change change =>
    cases change with
    | edit edit => exact same ((edit.still.sameIn realm).slot? id)
    | relink relink => exact same ((relink.still.sameIn realm).slot? id)
    | addInstance other x content absent =>
      by_cases hr : realm = other
      · subst hr
        rw [slot?_addInstance absent, if_neg fun hx => by simp [hx, absent] at found]
        exact same rfl
      · exact same ((sameIn_addInstance content hr).slot? id)
  | walking other root =>
    rw [World.walking]
    exact same (slot?_rearranged (by simp) w other realm id)
  | entered other x index =>
    by_cases hr : realm = other
    · subst hr
      rw [slot?_entered]
      exact onward_change found (fun _ => rfl) fun _ _ => by simp
    · exact same ((sameIn_entered hr x index).slot? id)
  | lowered other x ancestor found' evaluating =>
    by_cases hr : realm = other
    · subst hr
      rw [slot?_lowered]
      refine onward_change found (fun _ => rfl) fun own hown => ?_
      cases found'.symm.trans hown
      simp [evaluating]
    · exact same ((SameIn.modifyRealm hr _).slot? id)
  | running other running =>
    exact same (slot?_rearranged (fun r => r.slots_modifyWalk _) w other realm id)
  | began | marked => exact same rfl
  | exposed exposes => exact same ((exposes.still.sameIn realm).slot? id)
  | popped other x rest change numbered =>
    by_cases hr : realm = other
    · subst hr
      rw [slot?_popped]
      exact onward_change found numbered fun _ _ => by simp
    · exact same ((sameIn_popped hr x rest change).slot? id)
  | plain other x change numbered =>
    by_cases hr : realm = other
    · subst hr
      rw [realm_moveSlot, Realm.slot?_modifySlot]
      exact onward_change found numbered fun _ _ => by simp
    · exact same ((SameIn.moveSlot hr x _ change).slot? id)
  | walked other =>
    rw [World.walked]
    exact same (slot?_rearranged (by simp) w other realm id)

/-- What is in a realm stays there, and only the beginning of a module changes its slot. -/
theorem Steps.onward (steps : Steps w w') (found : (w.realm realm).slot? id = some slot) :
    Onward slot ((w'.realm realm).slot? id) := by
  induction steps with
  | refl => exact found ▸ .same slot
  | tail _ step ih =>
    obtain ⟨slot', found', number, same | begun⟩ := ih
    · exact same ▸ step.onward found'
    · obtain ⟨slot'', found'', number', same | begun'⟩ := step.onward found'
      · exact ⟨slot'', found'', number'.trans number, .inr (same ▸ begun)⟩
      · exact ⟨slot'', found'', number'.trans number, .inr begun'⟩

/-- What has begun to run can change what its module exports, whatever has happened since. -/
theorem Steps.exposed (steps : Steps w w') (h : w.Orderly)
    (found : (w.realm realm).slot? id = some slot) (began : Stage.began ∈ w.life realm id)
    {change : Instance → Instance} (becomes : ∀ content : Instance, content.Becomes (change content)) :
    Steps w (w'.modifyRealm realm (·.modifyInstance slot.instanceIndex change)) := by
  obtain ⟨slot', found', number, _⟩ := steps.onward found
  have began' := (steps.life h realm id).subset began
  exact steps.tail (.exposed (number ▸ .intro realm id change found' began' becomes))

theorem Steps.begun (steps : Steps w w') (begun : w.Begun realm id) : w'.Begun realm id := by
  obtain ⟨slot, found, begun⟩ := begun
  obtain ⟨slot', found', -, same | begun'⟩ := steps.onward found
  · exact ⟨slot', found', same ▸ begun⟩
  · exact ⟨slot', found', begun'⟩

end World
end ModuleGraph
