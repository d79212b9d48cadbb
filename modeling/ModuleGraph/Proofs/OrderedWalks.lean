import ModuleGraph.Proofs.Bodies
import ModuleGraph.Proofs.Order

/-!
Walks keep the modules of a realm in order. A visit puts modules on the stack of the innermost walk,
and one that leaves any there has a lower ancestor; so a walk that ends well leaves none.
-/
namespace ModuleGraph

theorem Attempt.meets_walking {α : Type} {stuck : World → Prop} {failed : Interrupt → World → Prop}
    {w : World} (attempt : Attempt α) (post : α → World → Prop) :
    Attempt.Meets stuck failed attempt.walking post w ↔
      Attempt.Meets stuck (fun e => failed (.thrown e)) attempt post w := by
  have unfolded : attempt.walking.run w =
      match attempt.run w with
      | .ok (.ok a) w' => .ok (.ok a) w'
      | .ok (.error e) w' => .ok (.error (.thrown e)) w'
      | .error u w' => .error u w' := by
    show EStateM.map _ attempt.run w = _
    unfold EStateM.map
    rcases attempt.run w with ⟨_ | _, _⟩ | _ <;> rfl
  unfold Attempt.Meets
  rw [unfolded]
  rcases attempt.run w with ⟨_ | _, _⟩ | _ <;> rfl

namespace Walk

/-- A walk with more modules, of which some are open. -/
def grow (walk : Walk) (new more : List RecordId) : Walk :=
  { walk with stack := new ++ walk.stack, opened := more ++ walk.opened }

@[simp] theorem stack_grow (walk : Walk) (new more : List RecordId) :
    (walk.grow new more).stack = new ++ walk.stack := rfl

@[simp] theorem opened_grow (walk : Walk) (new more : List RecordId) :
    (walk.grow new more).opened = more ++ walk.opened := rfl

@[simp] theorem grow_nil (walk : Walk) : walk.grow [] [] = walk := rfl

@[simp] theorem grow_grow (walk : Walk) (new more new' more' : List RecordId) :
    (walk.grow new more).grow new' more' = walk.grow (new' ++ new) (more' ++ more) := by
  simp [grow]

end Walk

namespace Engine
open World
variable {engine : Engine} {w w' w'' : World} {realm : RealmId} {id : RecordId}
  {walk : Walk} {outer : List Walk} {slot : Slot}

theorem meets_slotOf {stuck : World → Prop} {failed : ModuleError → World → Prop}
    {post : Slot → World → Prop} (fails : ∀ e, failed e w)
    (finds : ∀ slot, (w.realm realm).slot? id = some slot → post slot w) :
    Attempt.Meets stuck failed (slotOf realm id) post w := by
  unfold slotOf
  rw [Attempt.meets_bind, Attempt.meets_get]
  split
  · exact finds _ ‹_›
  · exact fails _

theorem meets_slotOf_found {stuck : World → Prop} {failed : ModuleError → World → Prop}
    {post : Slot → World → Prop} (found : (w.realm realm).slot? id = some slot)
    (h : post slot w) : Attempt.Meets stuck failed (slotOf realm id) post w := by
  unfold slotOf
  rw [Attempt.meets_bind, Attempt.meets_get, found]
  exact h

/-- The innermost walk has got more modules, of which some are open. -/
structure Grown (realm : RealmId) (except : List RecordId) (walk : Walk) (outer : List Walk)
    (new more : List RecordId) (w w' : World) : Prop where
  orderly : w'.Orderly
  advance : Advance realm except w w'
  walks : (w'.realm realm).walks = walk.grow new more :: outer

theorem Grown.refl (h : w.Orderly) (walks : (w.realm realm).walks = walk :: outer)
    {except : List RecordId} : Grown realm except walk outer [] [] w w :=
  ⟨h, .refl w, walks⟩

/-- An engine that keeps the modules of every realm in order. -/
structure KeepsOrder (engine : Engine) : Prop where
  call : ∀ (frame : Frame) function arguments (w : World), w.Orderly →
    Action.Meets Orderly (engine.call frame function arguments)
      (fun _ w' => w'.Orderly ∧ Passes frame.realm w w') w
  evaluate : ∀ realm id (w : World), w.Orderly →
    Action.Meets Orderly (engine.evaluate realm id)
      (fun _ w' => w'.Orderly ∧ Passes realm w w') w
  visit : ∀ realm id index (w : World) walk outer, w.Orderly →
    (w.realm realm).walks = walk :: outer → walk.running = none →
    Attempt.Meets Orderly (fun _ w' => ∃ new more, Grown realm [] walk outer new more w w')
      (engine.visit realm id index)
      (fun _ w' => ∃ new more, Grown realm [] walk outer new more w w' ∧
        (new ≠ [] → ∃ slot, (w'.realm realm).slot? id = some slot ∧ slot.ancestor < index)) w

/-- What holds from a world on while order is kept and the walks come back. -/
def Holds (realm : RealmId) (w w' : World) : Prop := w'.Orderly ∧ Passes realm w w'

theorem Holds.still (h : Holds realm w w') (still : Still w' w'') : Holds realm w w'' :=
  ⟨h.1.still still, h.2.trans (still.passes realm)⟩

theorem carried_holds (realm : RealmId) (w : World) : Carried Orderly (Holds realm w) where
  stop _ h := h.1
  changes _ _ changes h := ⟨Changes.orderly changes h.1, h.2.trans (changes.passes realm)⟩

theorem KeepsOrder.upholds (keeps : engine.KeepsOrder) (realm : RealmId) (w : World) :
    engine.Upholds realm Orderly (Holds realm w) where
  call frame inRealm function arguments w' h :=
    (keeps.call frame function arguments w' h.1).mono
      fun _ _ h' => ⟨h'.1, h.2.trans (inRealm ▸ h'.2)⟩
  evaluate id w' h :=
    (keeps.evaluate realm id w' h.1).mono fun _ _ h' => ⟨h'.1, h.2.trans h'.2⟩

/-! ### Running a body -/

/-- What running the body of a module comes to: its own slot stays as well, but its life is longer.
-/
structure Ran (realm : RealmId) (id : RecordId) (slot : Slot) (w w' : World) : Prop where
  orderly : w'.Orderly
  advance : Advance realm [id] w w'
  walks : (w'.realm realm).walks = (w.realm realm).walks
  slot : slot.status ≠ .instantiated → (w'.realm realm).slot? id = some slot

/-- Whether the body of a module may run: one that takes part in cycles has to be open and must not
have run before. -/
def MayRun (w : World) (realm : RealmId) (id : RecordId) (slot : Slot) : Prop :=
  (w.record id).isCyclic = true → slot.status = .evaluating ∧
    w.life realm id = [.moved .instantiated, .moved .evaluating]

theorem KeepsOrder.execute (keeps : engine.KeepsOrder) (h : w.Orderly)
    (found : (w.realm realm).slot? id = some slot) (mayRun : MayRun w realm id slot) :
    Attempt.Meets Orderly (fun _ => Ran realm id slot w) (engine.execute realm id)
      (fun _ => Ran realm id slot w) w := by
  unfold Engine.execute
  rw [Attempt.meets_bind]
  refine meets_slotOf_found found ?_
  rw [Attempt.meets_bind, Attempt.meets_get, Attempt.meets_bind, Attempt.meets_lift,
    Action.meets_write]
  have began := h.began found mayRun (w.moment realm)
  have ran {w' : World} (holds : Holds realm (w.write (.began realm id (w.moment realm))) w') :
      Ran realm id slot w w' :=
    ⟨holds.1, (advance_began w realm id _).trans (holds.2.advance.mono (List.nil_subset _)),
      holds.2.walks, holds.2.advance.slot List.not_mem_nil found⟩
  exact ((upholds_runInstance (carried_holds realm _).touched (keeps.upholds realm _) id (w.record id)
    fun w change _ h => h.still (.modifyInstance w realm _ change)).meets ⟨began, .refl _⟩).imp
    (fun _ h => h) (fun _ _ => ran) fun _ _ => ran

theorem meets_setRunning {stuck : World → Prop} (running : Option RecordId)
    (post : Unit → World → Prop) :
    Action.Meets stuck (modifyWalk realm ({ · with running })) post w ↔
      post () (w.running realm running) := Iff.rfl

theorem KeepsOrder.executeInWalk (keeps : engine.KeepsOrder) (h : w.Orderly)
    (walks : (w.realm realm).walks = walk :: outer) (idle : walk.running = none)
    (found : (w.realm realm).slot? id = some slot) (mayRun : MayRun w realm id slot) :
    Attempt.Meets Orderly (fun _ => Ran realm id slot w) (engine.executeInWalk realm id)
      (fun _ => Ran realm id slot w) w := by
  have rest {w₁ : World} (ran : Ran realm id slot (w.running realm (some id)) w₁) :
      Ran realm id slot w (w₁.running realm none) := by
    have walks₁ := ran.walks.trans (walks_running walks (some id))
    refine ⟨ran.orderly.running walks₁ none, ((advance_running w realm _).trans ran.advance).trans
      (advance_running w₁ realm none), ?_, fun begun => ?_⟩
    · rw [walks_running walks₁, walks, ← idle]
    · rw [slot?_running, ran.slot begun]
  have mark {w₁ : World} (ran : Ran realm id slot w w₁) (error : Option ModuleError) :
      Ran realm id slot w (w₁.write (.ended realm id error)) :=
    ⟨ran.orderly.mark fun _ _ => rfl, ran.advance.trans
      (advance_mark w₁ realm _ fun _ _ => rfl), ran.walks, ran.slot⟩
  have run := keeps.execute (h.running walks (some id)) (slot?_running w realm (some id) id ▸ found)
    mayRun
  unfold Engine.executeInWalk
  rw [Attempt.meets_bind, Attempt.meets_lift, meets_setRunning, Attempt.meets_bind,
    Attempt.meets_outcome]
  refine run.imp (fun _ h => h) (fun error w₁ ran => ?_) fun _ w₁ ran => ?_
  all_goals rw [Attempt.meets_bind, Attempt.meets_lift, meets_setRunning]
  · exact mark (rest ran) (some error)
  · exact mark (rest ran) none

/-! ### Taking modules off the stack -/

theorem meets_modifyWalk {stuck : World → Prop} (change : Walk → Walk)
    (post : Unit → World → Prop) :
    Action.Meets stuck (modifyWalk realm change) post w ↔
      post () (w.modifyRealm realm (·.modifyWalk change)) := Iff.rfl

theorem meets_moveSlot {stuck : World → Prop} (status : InstanceStatus) (change : Slot → Slot)
    (post : Unit → World → Prop) :
    Action.Meets stuck (moveSlot realm id status change) post w ↔
      post () (w.moveSlot realm id status change) := Iff.rfl

/-- Some modules were taken off the stack of the innermost walk as evaluated. -/
structure TakenOff (realm : RealmId) (walk : Walk) (outer : List Walk) (rest ids : List RecordId)
    (change : Slot → Slot) (w w' : World) : Prop where
  orderly : w'.Orderly
  advance : Advance realm ids w w'
  walks : (w'.realm realm).walks = { walk with stack := rest } :: outer
  taken : ∀ id ∈ ids, (w'.realm realm).slot? id =
    ((w.realm realm).slot? id).map fun slot => { change slot with status := .evaluated }
  others : ∀ id, id ∉ ids → (w'.realm realm).slot? id = (w.realm realm).slot? id
  elsewhere : ∀ other, other ≠ realm → SameIn other w w'
  records : w'.records = w.records
  journal : ∃ events, w'.journal.toList = w.journal.toList ++ events ∧
    ∀ event ∈ events, event.isQuiet = true

/-- The latest module is taken off first, and then the others. -/
theorem TakenOff.cons {rest ids : List RecordId} {change : Slot → Slot}
    (found : (w.realm realm).slot? id = some slot) (fresh : id ∉ ids)
    (taken : TakenOff realm { walk with stack := ids ++ rest } outer rest ids change
      (w.popped realm id (ids ++ rest) change) w') :
    TakenOff realm walk outer rest (id :: ids) change w w' where
  orderly := taken.orderly
  advance := ((advance_popped w realm id _ change).mono (by simp)).trans
    (taken.advance.mono (List.subset_cons_self id ids))
  walks := taken.walks
  taken other member := by
    have popped := slot?_popped w realm id other (ids ++ rest) change
    by_cases same : other = id
    · subst same
      rw [if_pos rfl, found, Option.map_some] at popped
      rw [taken.others other fresh, popped, found, Option.map_some]
    · rw [taken.taken other (List.mem_of_ne_of_mem same member), popped, if_neg same]
  others other kept := by
    obtain ⟨differs, kept⟩ := List.ne_and_not_mem_of_not_mem_cons kept
    rw [taken.others other kept, slot?_popped, if_neg differs]
  elsewhere other hr := (sameIn_popped hr id _ change).trans (taken.elsewhere other hr)
  records := taken.records
  journal := by
    obtain ⟨events, journal, quiet⟩ := taken.journal
    exact ⟨.moved realm id .evaluated :: events, journal.trans (by simp [journal_popped]),
      List.forall_mem_cons.mpr ⟨rfl, quiet⟩⟩

/-- The modules down to one that is on the stack can all be closed. -/
theorem meets_closeDownTo {stuck : World → Prop} {new rest : List RecordId} (h : w.Orderly)
    (walks : (w.realm realm).walks = walk :: outer) (stack : walk.stack = new ++ id :: rest) :
    Attempt.Meets stuck (fun _ _ => False) (closeDownTo realm id walk.stack)
      (fun modules w' => modules = new ++ [id] ∧
        TakenOff realm walk outer rest (new ++ [id]) (fun slot => slot) w w') w := by
  have unique : walk.stack.Nodup := by
    have nodup := (h realm).nodup
    rw [Realm.busy_of_walks walks] at nodup
    exact (List.nodup_append.mp nodup).1
  induction new generalizing w walk with
  | nil =>
    rw [List.nil_append] at stack
    have evaluating := ((h realm).busy id).mp (by simp [Realm.busy_of_walks walks, stack])
    obtain ⟨slot, found, _⟩ := Option.map_eq_some_iff.mp evaluating
    rw [stack, closeDownTo, Attempt.meets_bind, Attempt.meets_lift, meets_modifyWalk,
      Attempt.meets_bind, Attempt.meets_discard]
    refine meets_slotOf_found ((slot?_modifyWalk ..).trans found) ?_
    rw [Attempt.meets_bind, Attempt.meets_lift, meets_moveSlot, if_pos rfl, Attempt.meets_pure]
    refine ⟨rfl, h.popped walks stack _, advance_popped w realm id rest _, walks_popped walks _ _ _,
      fun other member => ?_, fun other kept => ?_, fun other hr => sameIn_popped hr _ _ _, rfl,
      [.moved realm id .evaluated], journal_popped .., by simp; rfl⟩
    · rw [List.mem_singleton.mp member]
      exact (slot?_popped w realm id id rest _).trans (if_pos rfl)
    · exact (slot?_popped w realm id other rest _).trans (if_neg (List.ne_of_not_mem_cons kept))
  | cons top new ih =>
    have evaluating := ((h realm).busy top).mp (by simp [Realm.busy_of_walks walks, stack])
    obtain ⟨slot, found, _⟩ := Option.map_eq_some_iff.mp evaluating
    rw [stack, List.cons_append, List.nodup_cons] at unique
    have differs : top ≠ id := fun same => unique.1 (by simp [same])
    rw [stack, List.cons_append, closeDownTo, Attempt.meets_bind, Attempt.meets_lift,
      meets_modifyWalk, Attempt.meets_bind, Attempt.meets_discard]
    refine meets_slotOf_found ((slot?_modifyWalk ..).trans found) ?_
    rw [Attempt.meets_bind, Attempt.meets_lift, meets_moveSlot, if_neg differs, Attempt.meets_bind]
    refine (ih (h.popped walks stack _) (walks_popped walks top _ _) rfl unique.2).imp
      (fun _ h => h) (fun _ _ h => h) fun modules w' closed => ?_
    obtain ⟨rfl, taken⟩ := closed
    rw [Attempt.meets_pure]
    refine ⟨rfl, .cons found (fun member => unique.1 ?_) ?_⟩
    · rcases List.mem_append.mp member with member | member
      · exact List.mem_append_left _ member
      · exact absurd (List.mem_singleton.mp member) differs
    · simpa using taken

/-- A component is closed when its first module is its own ancestor, and otherwise nothing is done.
-/
theorem meets_closeComponent {stuck : World → Prop} {new rest : List RecordId} (h : w.Orderly)
    (walks : (w.realm realm).walks = walk :: outer) (stack : walk.stack = new ++ id :: rest)
    (found : (w.realm realm).slot? id = some slot) :
    Attempt.Meets stuck (fun _ _ => False) (closeComponent realm id)
      (fun _ w' =>
        if slot.ancestor = slot.index then
          ∃ w₁, TakenOff realm walk outer rest (new ++ [id]) (fun slot => slot) w w₁ ∧
            w' = w₁.write (.closed realm (new ++ [id]) (w₁.moment realm))
        else w' = w) w := by
  unfold closeComponent
  rw [Attempt.meets_bind]
  refine meets_slotOf_found found ?_
  split
  · rw [Attempt.meets_bind, Attempt.meets_get, Attempt.meets_bind, Realm.stack, walks]
    refine (meets_closeDownTo h walks stack).mono fun modules w₁ closed => ?_
    obtain ⟨rfl, taken⟩ := closed
    rw [Attempt.meets_bind, Attempt.meets_get, Attempt.meets_lift, Action.meets_write]
    exact ⟨w₁, taken, rfl⟩
  · exact rfl

/-- A walk that failed gives up all its open modules, and each keeps the error. -/
theorem meets_abandon {stuck : World → Prop} (error : ModuleError) (h : w.Orderly)
    (walks : (w.realm realm).walks = walk :: outer) :
    Action.Meets stuck (abandon realm error walk.stack)
      (fun _ => TakenOff realm walk outer [] walk.stack ({ · with error := some error }) w) w := by
  have unique : walk.stack.Nodup := by
    have nodup := (h realm).nodup
    rw [Realm.busy_of_walks walks] at nodup
    exact (List.nodup_append.mp nodup).1
  generalize stack : walk.stack = ids at unique ⊢
  induction ids generalizing w walk with
  | nil =>
    exact ⟨h, .refl w, by rw [walks, ← stack], fun _ member => absurd member List.not_mem_nil,
      fun _ _ => rfl, fun _ _ => ⟨rfl, rfl, fun _ => rfl⟩, rfl, [], by simp, by simp⟩
  | cons top rest ih =>
    have evaluating := ((h realm).busy top).mp (by simp [Realm.busy_of_walks walks, stack])
    obtain ⟨slot, found, _⟩ := Option.map_eq_some_iff.mp evaluating
    obtain ⟨fresh, unique⟩ := List.nodup_cons.mp unique
    rw [abandon, Action.meets_bind, meets_modifyWalk, Action.meets_bind, meets_moveSlot]
    refine (ih (h.popped walks stack _) (walks_popped walks top _ _) rfl unique).imp
      (fun _ h => h) fun _ w' taken => .cons found fresh ?_
    rwa [List.append_nil]

/-! ### Visits -/

namespace Grown
variable {except new more new' more' : List RecordId}

theorem trans (h : Grown realm except walk outer new more w w')
    (h' : Grown realm except (walk.grow new more) outer new' more' w' w'') :
    Grown realm except walk outer (new' ++ new) (more' ++ more) w w'' where
  orderly := h'.orderly
  advance := h.advance.trans h'.advance
  walks := by simpa using h'.walks

theorem passes (h : Grown realm except walk outer new more w w') (orderly : w''.Orderly)
    (advance : Advance realm except w' w'')
    (walks : (w''.realm realm).walks = (w'.realm realm).walks) :
    Grown realm except walk outer new more w w'' :=
  ⟨orderly, h.advance.trans advance, walks.trans h.walks⟩

theorem mono (h : Grown realm except walk outer new more w w') {except' : List RecordId}
    (sub : except ⊆ except') : Grown realm except' walk outer new more w w' :=
  ⟨h.orderly, h.advance.mono sub, h.walks⟩

/-- What is open now and was not before has only been instantiated before, if at all. -/
theorem fresh (h : Grown realm except walk outer new more w w') (orderly : w.Orderly)
    (walks : (w.realm realm).walks = walk :: outer) {id : RecordId} (member : id ∈ new)
    (kept : id ∉ except) {slot : Slot} (found : (w.realm realm).slot? id = some slot) :
    slot.status = .instantiated := by
  have evaluating := ((h.orderly realm).busy id).mp (by simp [Realm.busy_of_walks h.walks, member])
  by_contra begun
  have stays := h.advance.slot kept found begun
  simp only [Realm.status?, stays, Option.map_some, Option.some.injEq] at evaluating
  have before := ((orderly realm).busy id).mpr (by simp [Realm.status?, found, evaluating])
  rw [Realm.busy_of_walks walks] at before
  have unique := (h.orderly realm).nodup
  rw [Realm.busy_of_walks h.walks, Walk.stack_grow, List.append_assoc] at unique
  exact (List.nodup_append.mp unique).2.2 id member id before rfl

end Grown

/-- What happens to the own slot of a module while the modules that it requests are visited: its
ancestor can be lowered. -/
structure Lowered (realm : RealmId) (id : RecordId) (slot : Slot) (w w' : World) : Prop where
  slot : ∃ ancestor ≤ slot.ancestor,
    (w'.realm realm).slot? id = some { slot with ancestor }
  life : w'.life realm id = w.life realm id

theorem meets_lowerAncestor {stuck : World → Prop} {required : RecordId}
    {post : Unit → World → Prop}
    {failed : ModuleError → World → Prop} (fails : ∀ error, failed error w)
    (same : (∀ other, (w.record required).isCyclic = true →
      (w.realm realm).slot? required = some other →
      ¬ (other.status = .evaluating ∧ required ∈ (w.realm realm).stack)) → post () w)
    (lower : ∀ other, (w.record required).isCyclic = true →
      (w.realm realm).slot? required = some other → other.status = .evaluating →
      required ∈ (w.realm realm).stack → post () (w.lowered realm id other.ancestor)) :
    Attempt.Meets stuck failed (lowerAncestor realm id required) post w := by
  unfold lowerAncestor
  rw [Attempt.meets_bind, Attempt.meets_get]
  split
  · rename_i cyclic
    rw [Attempt.meets_bind]
    refine meets_slotOf fails fun other present => ?_
    rw [Attempt.meets_bind, Attempt.meets_get]
    split
    · rename_i busy
      exact lower other cyclic present busy.1 busy.2
    · rename_i idle
      refine same fun other' _ present' => ?_
      cases present.symm.trans present'
      exact idle
  · rename_i plain
    exact same fun _ cyclic => absurd cyclic plain

/-- Nothing fails when the requested module is in the realm. -/
theorem meets_lowerAncestor_found {stuck : World → Prop} {required : RecordId}
    {post : Unit → World → Prop} {failed : ModuleError → World → Prop} {other : Slot}
    (present : (w.realm realm).slot? required = some other) (same : post () w)
    (lower : other.status = .evaluating → post () (w.lowered realm id other.ancestor)) :
    Attempt.Meets stuck failed (lowerAncestor realm id required) post w := by
  unfold lowerAncestor
  rw [Attempt.meets_bind, Attempt.meets_get]
  split
  · rw [Attempt.meets_bind]
    refine meets_slotOf_found present ?_
    rw [Attempt.meets_bind, Attempt.meets_get]
    split
    · rename_i busy
      exact lower busy.1
    · exact same
  · exact same

theorem Lowered.refl (found : (w.realm realm).slot? id = some slot) :
    Lowered realm id slot w w := ⟨⟨slot.ancestor, Nat.le_refl _, found⟩, rfl⟩

/-- A module that is evaluating stays in its place while others are visited. -/
theorem Lowered.passes (h : Lowered realm id slot w w') (evaluating : slot.status = .evaluating)
    {except : List RecordId} (advance : Advance realm except w' w'') (kept : id ∉ except) :
    Lowered realm id slot w w'' := by
  obtain ⟨⟨ancestor, le, found⟩, life⟩ := h
  have begun : slot.status ≠ .instantiated := by simp [evaluating]
  exact ⟨⟨ancestor, le, advance.slot kept found begun⟩,
    (advance.life kept found begun).trans life⟩

theorem Lowered.lower (h : Lowered realm id slot w w') (other : Nat) :
    Lowered realm id slot w (w'.lowered realm id other) := by
  obtain ⟨⟨ancestor, le, found⟩, life⟩ := h
  exact ⟨⟨min ancestor other, Nat.le_trans (Nat.min_le_left _ _) le,
    by rw [slot?_lowered, if_pos rfl, found]; rfl⟩, life⟩

/-- What visiting the requested modules of an open one comes to. -/
structure VisitedAll (realm : RealmId) (id : RecordId) (slot : Slot) (walk : Walk)
    (outer : List Walk) (new more : List RecordId) (w w' : World) : Prop where
  grown : Grown realm [id] walk outer new more w w'
  own : Lowered realm id slot w w'

theorem KeepsOrder.lowerAncestor {required : RecordId} {new more : List RecordId}
    (visited : VisitedAll realm id slot walk outer new more w w') :
    Attempt.Meets Orderly (fun _ => VisitedAll realm id slot walk outer new more w)
      (lowerAncestor realm id required)
      (fun _ => VisitedAll realm id slot walk outer new more w) w' := by
  refine meets_lowerAncestor (fun _ => visited) (fun _ => visited) fun other _ _ _ _ => ?_
  obtain ⟨ancestor, le, found⟩ := visited.own.slot
  exact ⟨visited.grown.passes (visited.grown.orderly.lowered found _)
    (advance_lowered w' realm id _) (walks_lowered w' realm id _), visited.own.lower _⟩

theorem KeepsOrder.visitAll (keeps : engine.KeepsOrder) (evaluating : slot.status = .evaluating)
    (idle : walk.running = none) (required : List RecordId) (index : Nat)
    {new more : List RecordId} (visited : VisitedAll realm id slot walk outer new more w w') :
    Attempt.Meets Orderly
      (fun _ w'' => ∃ new more, VisitedAll realm id slot walk outer new more w w'')
      (engine.visitAll realm id required index)
      (fun _ w'' => ∃ new more, VisitedAll realm id slot walk outer new more w w'') w' := by
  induction required generalizing index new more w' with
  | nil => exact ⟨new, more, visited⟩
  | cons next rest ih =>
    have onward {new' more' : List RecordId} {w'' : World}
        (grown : Grown realm [] (walk.grow new more) outer new' more' w' w'') :
        VisitedAll realm id slot walk outer (new' ++ new) (more' ++ more) w w'' :=
      ⟨visited.grown.trans (grown.mono (List.nil_subset _)),
        visited.own.passes evaluating grown.advance List.not_mem_nil⟩
    rw [Engine.visitAll, Attempt.meets_bind]
    refine (keeps.visit realm next index w' _ outer visited.grown.orderly visited.grown.walks
      idle).imp (fun _ h => h) (fun _ w'' h => ?_) fun index' w'' h => ?_
    · obtain ⟨new', more', grown⟩ := h
      exact ⟨_, _, onward grown⟩
    · obtain ⟨new', more', grown, _⟩ := h
      rw [Attempt.meets_bind, Attempt.meets_walking]
      exact (KeepsOrder.lowerAncestor (onward grown)).imp (fun _ h => h) (fun _ _ h => ⟨_, _, h⟩)
        fun _ _ h => ih index' h

/-- The world after a visit that opened its module and everything else that is new. -/
theorem Grown.entered (h : w.Orderly) (walks : (w.realm realm).walks = walk :: outer)
    (found : (w.realm realm).slot? id = some slot) (instantiated : slot.status = .instantiated)
    (cyclic : (w.record id).isCyclic = true) (index : Nat) :
    Grown realm [id] walk outer [id] [id] w (w.entered realm id index) :=
  ⟨h.entered walks found instantiated cyclic index, advance_entered w realm id index,
    walks_entered walks id index⟩

theorem meets_enter {stuck : World → Prop} (index : Nat) (post : Unit → World → Prop) :
    Action.Meets stuck (enter realm id index) post w ↔ post () (w.entered realm id index) :=
  Iff.rfl

theorem KeepsOrder.visitNew (keeps : engine.KeepsOrder) (h : w.Orderly)
    (walks : (w.realm realm).walks = walk :: outer) (idle : walk.running = none)
    (found : (w.realm realm).slot? id = some slot) (instantiated : slot.status = .instantiated)
    (cyclic : (w.record id).isCyclic = true) (index : Nat) :
    Attempt.Meets Orderly (fun _ w' => ∃ new more, Grown realm [] walk outer new more w w')
      (engine.visitNew realm id index)
      (fun _ w' => ∃ new more, Grown realm [] walk outer new more w w' ∧
        (new ≠ [] → ∃ slot, (w'.realm realm).slot? id = some slot ∧ slot.ancestor < index)) w := by
  have narrow {new more : List RecordId} {w' : World}
      (grown : Grown realm [id] walk outer new more w w') :
      Grown realm [] walk outer new more w w' := by
    refine ⟨grown.orderly, grown.advance.narrow fun other member slot' found' => ?_, grown.walks⟩
    obtain rfl := List.mem_singleton.mp member
    cases found.symm.trans found'
    exact instantiated
  have entered := Grown.entered h walks found instantiated cyclic index
  have found₁ := slot?_opened found index
  have life₁ := h.life_opened found instantiated cyclic index
  have idle₁ : (walk.grow [id] [id]).running = none := idle
  have begun : VisitedAll realm id _ (walk.grow [id] [id]) outer [] [] (w.entered realm id index)
      (w.entered realm id index) := ⟨.refl entered.orderly entered.walks, .refl found₁⟩
  unfold Engine.visitNew
  rw [Attempt.meets_bind, Attempt.meets_lift, meets_enter, Attempt.meets_bind, Attempt.meets_get,
    Attempt.meets_bind]
  refine (keeps.visitAll rfl idle₁ _ (index + 1) begun).imp (fun _ h => h) (fun _ w₂ h => ?_)
    fun index' w₂ h => ?_
  · obtain ⟨new, more, visited⟩ := h
    exact ⟨_, _, narrow (entered.trans visited.grown)⟩
  obtain ⟨new, more, visited⟩ := h
  have grown₂ := entered.trans visited.grown
  obtain ⟨⟨ancestor, le, found₂⟩, life₂⟩ := visited.own
  rw [Attempt.meets_bind, Attempt.meets_get]
  split
  · exact ⟨_, _, narrow grown₂⟩
  have grown₃ {slot₂ : Slot} {w₃ : World} (ran : Ran realm id slot₂ w₂ w₃) :
      Grown realm [id] walk outer (new ++ [id]) (more ++ [id]) w w₃ :=
    grown₂.passes ran.orderly ran.advance ran.walks
  rw [Attempt.meets_bind, Attempt.meets_walking]
  refine (keeps.executeInWalk grown₂.orderly grown₂.walks idle found₂
    fun _ => ⟨rfl, life₂.trans life₁⟩).imp (fun _ h => h)
    (fun _ w₃ ran => ⟨_, _, narrow (grown₃ ran)⟩) fun _ w₃ ran => ?_
  have found₃ := ran.slot (by simp)
  have stack₃ : (walk.grow (new ++ [id]) (more ++ [id])).stack = new ++ id :: walk.stack := by
    simp
  rw [Attempt.meets_bind, Attempt.meets_walking]
  refine (meets_closeComponent ran.orderly (grown₃ ran).walks stack₃ found₃).imp (fun _ h => h)
    (fun _ _ h => h.elim) fun _ w₄ h => ?_
  rw [Attempt.meets_pure]
  have grown := narrow (grown₃ ran)
  dsimp only at le h
  split at h
  · obtain ⟨w₅, taken, rfl⟩ := h
    have advance := ((grown.advance.mono (List.nil_subset _)).trans taken.advance).trans
      (advance_mark w₅ realm (.closed realm (new ++ [id]) (w₅.moment realm)) fun _ _ => rfl)
    refine ⟨[], more ++ [id], ⟨taken.orderly.mark fun _ _ => rfl, advance.narrow ?_, taken.walks⟩,
      fun left => absurd rfl left⟩
    exact fun other member _ => grown.fresh h walks member List.not_mem_nil
  · subst h
    rename_i differs
    exact ⟨_, _, grown, fun _ => ⟨_, found₃, Nat.lt_of_le_of_ne le differs⟩⟩

/-- A module that takes no part in cycles is run, and nothing is put on the stack. -/
theorem KeepsOrder.visitPlain (keeps : engine.KeepsOrder) (h : w.Orderly)
    (walks : (w.realm realm).walks = walk :: outer) (idle : walk.running = none)
    (plain : (w.record id).isCyclic = false) (index : Nat) :
    Attempt.Meets Orderly (fun _ w' => Grown realm [] walk outer [] [] w w')
      (engine.visitPlain realm id index) (fun _ w' => Grown realm [] walk outer [] [] w w') w := by
  have settled (slot : Slot) {w' : World} (grown : Grown realm [] walk outer [] [] w w') :
      Attempt.Meets Orderly (fun _ w' => Grown realm [] walk outer [] [] w w')
        (outcomeOf slot index) (fun _ w' => Grown realm [] walk outer [] [] w w') w' := by
    unfold outcomeOf
    split <;> exact grown
  have start : Grown realm [] walk outer [] [] w w := .refl h walks
  unfold Engine.visitPlain
  rw [Attempt.meets_bind, Attempt.meets_walking]
  refine meets_slotOf (fun _ => start) fun slot found => ?_
  split
  · rename_i instantiated
    have ended {w' : World} (ran : Ran realm id slot w w') (error : Option ModuleError) :
        Attempt.Meets Orderly (fun _ w' => Grown realm [] walk outer [] [] w w')
          (do
            moveSlot realm id .evaluated ({ · with error })
            outcomeOf (← (slotOf realm id).walking) index)
          (fun _ w' => Grown realm [] walk outer [] [] w w') w' := by
      have plain' : (w'.record id).isCyclic = false := by rw [ran.advance.records.isCyclic, plain]
      have advance : Advance realm [] w (w'.moveSlot realm id .evaluated ({ · with error })) := by
        refine (ran.advance.trans (advance_moveSlot ..)).narrow fun other member slot' found' => ?_
        obtain rfl := List.mem_singleton.mp member
        cases found.symm.trans found'
        exact instantiated
      have grown : Grown realm [] walk outer [] [] w
          (w'.moveSlot realm id .evaluated ({ · with error })) :=
        ⟨ran.orderly.plain plain' _, advance, by simpa using ran.walks.trans walks⟩
      rw [Attempt.meets_bind, Attempt.meets_lift, meets_moveSlot, Attempt.meets_bind,
        Attempt.meets_walking]
      exact meets_slotOf (fun _ => grown) fun slot _ => settled slot grown
    have mayRun : MayRun w realm id slot := fun cyclic => by simp [plain] at cyclic
    rw [Attempt.meets_bind, Attempt.meets_walking, Attempt.meets_outcome]
    refine (keeps.executeInWalk h walks idle found mayRun).imp (fun _ h => h)
      (fun error w' ran => ?_) fun _ w' ran => ?_
    · exact ended ran (some error)
    · exact ended ran none
  · exact settled slot start

theorem KeepsOrder.visitFrom (keeps : engine.KeepsOrder) (h : w.Orderly)
    (walks : (w.realm realm).walks = walk :: outer) (idle : walk.running = none) (index : Nat) :
    Attempt.Meets Orderly (fun _ w' => ∃ new more, Grown realm [] walk outer new more w w')
      (engine.visitFrom realm id index)
      (fun _ w' => ∃ new more, Grown realm [] walk outer new more w w' ∧
        (new ≠ [] → ∃ slot, (w'.realm realm).slot? id = some slot ∧ slot.ancestor < index)) w := by
  have later {w₁ : World} (grown : Grown realm [] walk outer [] [] w w₁) {new more : List RecordId}
      {w' : World} (more' : Grown realm [] walk outer new more w₁ w') :
      Grown realm [] walk outer new more w w' := by
    simpa using grown.trans more'
  unfold Engine.visitFrom
  rw [Attempt.meets_bind, Attempt.meets_walking]
  have start {w₁ : World} (changes : Changes w w₁) : Grown realm [] walk outer [] [] w w₁ :=
    (Grown.refl h walks).passes (changes.orderly h) (changes.passes realm).advance
      (changes.passes realm).walks
  refine ((Action.keeps_instantiate engine.depth realm id).meets w).imp
    (fun _ changes => changes.orderly h) (fun _ _ changes => ⟨[], [], start changes⟩)
    fun _ w₁ changes => ?_
  have grown := start changes
  rw [Attempt.meets_bind, Attempt.meets_get]
  split
  · rename_i cyclic
    rw [Attempt.meets_bind, Attempt.meets_walking]
    refine meets_slotOf (fun _ => ⟨[], [], grown⟩) fun slot found => ?_
    split
    · unfold outcomeOf
      split
      · exact ⟨[], [], grown⟩
      · exact ⟨[], [], grown, fun left => absurd rfl left⟩
    · exact ⟨[], [], grown, fun left => absurd rfl left⟩
    · rename_i instantiated
      refine (keeps.visitNew grown.orderly grown.walks idle found instantiated cyclic index).imp
        (fun _ h => h) (fun _ w' h => ?_) fun _ w' h => ?_
      · obtain ⟨new, more, grown'⟩ := h
        exact ⟨new, more, later grown grown'⟩
      · obtain ⟨new, more, grown', left⟩ := h
        exact ⟨new, more, later grown grown', left⟩
  · rename_i plain
    refine (keeps.visitPlain grown.orderly grown.walks idle (by simpa using plain) index).imp
      (fun _ h => h) (fun _ w' h => ?_) fun _ w' h => ?_
    · exact ⟨[], [], later grown h⟩
    · exact ⟨[], [], later grown h, fun left => absurd rfl left⟩

/-! ### Walks -/

/-- A walk that ends well has left no module open. -/
theorem KeepsOrder.meets_walk (keeps : engine.KeepsOrder) (h : w.Orderly) (root : RecordId) :
    Action.Meets Orderly (engine.walk realm root)
      (fun outcome w' => (∀ left, outcome = .ok left → left = []) ∧ Holds realm w w') w := by
  have walks₁ := walks_walking w realm root
  have ended {w₂ : World} {walk : Walk} (orderly : w₂.Orderly)
      (advance : Advance realm [] (w.walking realm root) w₂)
      (walks : (w₂.realm realm).walks = walk :: (w.realm realm).walks) (empty : walk.stack = []) :
      Holds realm w (w₂.walked realm) :=
    ⟨orderly.walked walks empty, ((advance_walking w realm root).trans advance).trans
      (advance_walked w₂ realm), walks_walked walks⟩
  unfold Engine.walk
  rw [Action.meets_bind, Action.meets_modify, Action.meets_bind, Attempt.meets_run]
  refine (keeps.visit realm root 0 _ _ _ (h.walking realm root) walks₁ rfl).imp (fun _ h => h)
    (fun interrupt w₂ visited => ?_) fun index w₂ visited => ?_
  · obtain ⟨new, more, grown⟩ := visited
    have stack : (w₂.realm realm).stack = (Walk.grow { root } new more).stack := by
      rw [Realm.stack, grown.walks]
    rw [Action.meets_bind, conclude, Action.meets_bind, Action.meets_get, Action.meets_bind, stack]
    refine (meets_abandon _ grown.orderly grown.walks).mono fun _ w₃ taken => ?_
    rw [Action.meets_pure, Action.meets_bind, Action.meets_modify, Action.meets_pure]
    refine ⟨fun _ left => (by cases left), ended taken.orderly ?_ taken.walks rfl⟩
    refine ((grown.advance.mono (List.nil_subset _)).trans taken.advance).narrow
      fun other member slot => ?_
    exact grown.fresh (h.walking realm root) walks₁ (by simpa using member) List.not_mem_nil
  · obtain ⟨new, more, grown, left⟩ := visited
    have empty : new = [] := by
      by_contra nonempty
      obtain ⟨slot, _, impossible⟩ := left nonempty
      exact absurd impossible (Nat.not_lt_zero _)
    subst empty
    have stack : (w₂.realm realm).stack = [] := by
      rw [Realm.stack, grown.walks]
      rfl
    rw [Action.meets_bind, conclude, Action.meets_bind, Action.meets_get, Action.meets_pure,
      Action.meets_bind, Action.meets_modify, Action.meets_pure, stack]
    exact ⟨fun left same => by cases same; rfl, ended grown.orderly grown.advance grown.walks rfl⟩

theorem KeepsOrder.deeper (keeps : engine.KeepsOrder) (embedding : Embedding) :
    (engine.next embedding).KeepsOrder := by
  have walks (realm : RealmId) (w : World) (root : RecordId) :
      Action.Upholds Orderly (Holds realm w) (engine.walk realm root) := fun w' h =>
    (keeps.meets_walk h.1 root).mono fun _ _ h' => ⟨h'.2.1, h.2.trans h'.2.2⟩
  have bodies (realm : RealmId) (w : World) :=
    Upholds.next ((carried_holds realm w).borne embedding) (walks realm w) (keeps.upholds realm w)
  refine ⟨fun frame function arguments w h => ?_, fun realm id w h => ?_,
    fun realm id index w walk outer h walks idle => keeps.visitFrom h walks idle index⟩
  · exact (bodies frame.realm w).call frame rfl function arguments w ⟨h, .refl w⟩
  · exact (bodies realm w).evaluate id w ⟨h, .refl w⟩

/-- However deep modules nest, evaluation keeps the modules of all realms in order. -/
theorem keepsOrder_ofDepth (embedding : Embedding) (depth : Nat) :
    (ofDepth embedding depth).KeepsOrder := by
  induction depth with
  | zero => exact ⟨fun _ _ _ _ h => h, fun _ _ _ h => h, fun _ _ _ _ _ _ h _ _ => h⟩
  | succ depth ih => exact ih.deeper embedding

end Engine
end ModuleGraph
