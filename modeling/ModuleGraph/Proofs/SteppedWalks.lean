import ModuleGraph.Proofs.SoundWalks
import ModuleGraph.Proofs.Steps

/-!
Evaluation goes step by step, and whatever it comes to, a visit can account for the modules that it
has opened: none had begun before, all can be reached from the visited one, and each is open still
or has been evaluated well.
-/
namespace ModuleGraph
namespace Engine
open World Relation
variable {engine : Engine} {w w' w'' : World} {realm : RealmId} {id c r : RecordId}
  {walk : Walk} {outer : List Walk} {slot : Slot} {new more new' more' : List RecordId}

/-- The modules that were opened on the way from one world to another, of which some are open still.
-/
structure Explored (realm : RealmId) (id : RecordId) (new more : List RecordId) (w w' : World) :
    Prop where
  steps : Steps w w'
  sub : new ⊆ more
  cyclic : ∀ x ∈ more, (w'.record x).isCyclic = true
  fresh : ∀ x ∈ more, ¬ w.Begun realm x
  path : ∀ x ∈ more, w'.Reaches id x
  closed : ∀ x ∈ more, x ∈ new ∨ w'.Fulfilled realm x

namespace Explored

theorem of_steps (steps : Steps w w') : Explored realm id [] [] w w' := by
  constructor <;> simp [steps]

/-- A module that is opened leads to itself. -/
theorem entered {index : Nat} (step : Step w (w.entered realm id index))
    (found : (w.realm realm).slot? id = some slot) (instantiated : slot.status = .instantiated)
    (cyclic : (w.record id).isCyclic = true) :
    Explored realm id [id] [id] w (w.entered realm id index) := by
  refine ⟨.single step, List.Subset.refl _, ?_, ?_, ?_, fun _ => .inl⟩
  all_goals
    intro x member
    rw [List.mem_singleton.mp member]
  · exact cyclic
  · rintro ⟨slot', found', begun⟩
    cases found.symm.trans found'
    exact begun instantiated

/-- What comes later changes nothing of the account. -/
theorem later (h : Explored realm id new more w w') (orderly : w'.Orderly)
    (steps : Steps w' w'') : Explored realm id new more w w'' where
  steps := h.steps.trans steps
  sub := h.sub
  cyclic x member := by rw [(steps.extends orderly).isCyclic, h.cyclic x member]
  fresh := h.fresh
  path x member := (steps.extends orderly).reaches (h.path x member)
  closed x member := (h.closed x member).imp_right (steps.fulfilled orderly (h.cyclic x member))

/-- What is opened from a module that can be reached adds to the account. -/
theorem trans (h : Explored realm id new more w w') (orderly : w'.Orderly)
    (path : w'.Reaches id r) (h' : Explored realm r new' more' w' w'') :
    Explored realm id (new' ++ new) (more' ++ more) w w'' := by
  have before := h.later orderly h'.steps
  refine ⟨before.steps, ?_, ?_, ?_, ?_, ?_⟩
  · exact List.append_subset.mpr ⟨List.Subset.trans h'.sub (List.subset_append_left _ _),
      List.Subset.trans h.sub (List.subset_append_right _ _)⟩
  all_goals
    intro x member
    rcases List.mem_append.mp member with member | member
  · exact h'.cyclic x member
  · exact before.cyclic x member
  · exact fun begun => h'.fresh x member (h.steps.begun begun)
  · exact h.fresh x member
  · exact ((h'.steps.extends orderly).reaches path).trans (h'.path x member)
  · exact before.path x member
  · exact (h'.closed x member).imp_left (List.mem_append_left _)
  · exact (before.closed x member).imp_left (List.mem_append_right _)

end Explored

/-- An engine that goes step by step. -/
structure KeepsSteps (engine : Engine) : Prop where
  order : engine.KeepsOrder
  call : ∀ (frame : Frame) function arguments (w : World), w.Orderly →
    Action.Meets (Steps w) (engine.call frame function arguments) (fun _ => Steps w) w
  evaluate : ∀ realm id (w : World), w.Orderly →
    Action.Meets (Steps w) (engine.evaluate realm id) (fun _ => Steps w) w
  visit : ∀ realm id index (w : World) walk outer, w.Orderly →
    (w.realm realm).walks = walk :: outer → walk.running = none →
    Attempt.Meets (Steps w)
      (fun _ w' => ∃ new more, (w'.realm realm).walks = walk.grow new more :: outer ∧
        Explored realm id new more w w')
      (engine.visit realm id index)
      (fun _ w' => ∃ new more, (w'.realm realm).walks = walk.grow new more :: outer ∧
        Explored realm id new more w w') w

/-- The account of a visit, together with the order that it keeps. -/
theorem KeepsSteps.meets_visit (keeps : engine.KeepsSteps) (h : w.Orderly)
    (walks : (w.realm realm).walks = walk :: outer) (idle : walk.running = none) (id : RecordId)
    (index : Nat) :
    Attempt.Meets (Steps w)
      (fun _ w' => ∃ new more, Grown realm [] walk outer new more w w' ∧
        Explored realm id new more w w')
      (engine.visit realm id index)
      (fun _ w' => ∃ new more, Grown realm [] walk outer new more w w' ∧
        Explored realm id new more w w') w := by
  have order := keeps.order.visit realm id index w walk outer h walks idle
  have steps := keeps.visit realm id index w walk outer h walks idle
  have join {w' : World} {new more : List RecordId}
      (grown : Grown realm [] walk outer new more w w')
      (h : ∃ new more, (w'.realm realm).walks = walk.grow new more :: outer ∧
        Explored realm id new more w w') :
      ∃ new more, Grown realm [] walk outer new more w w' ∧
        Explored realm id new more w w' := by
    obtain ⟨new', more', walks', explored⟩ := h
    obtain ⟨same, _⟩ := List.cons_eq_cons.mp (grown.walks.symm.trans walks')
    obtain ⟨rfl, rfl⟩ := Walk.grow_inj same
    exact ⟨new, more, grown, explored⟩
  refine (order.and steps).imp (fun _ h => h.2) (fun _ w' h => ?_) fun _ w' h => ?_
  · obtain ⟨⟨new, more, grown⟩, steps⟩ := h
    exact join grown steps
  · obtain ⟨⟨new, more, grown, _⟩, steps⟩ := h
    exact join grown steps

/-! ### Running a body -/

theorem carried_steps (w : World) : Carried (Steps w) (Steps w) where
  stop _ h := h
  changes _ _ changes h := h.trans changes.steps

theorem KeepsSteps.upholds (keeps : engine.KeepsSteps) (realm : RealmId) (h : w.Orderly) :
    engine.Upholds realm (Steps w) (Steps w) where
  call frame _ function arguments w' steps :=
    (keeps.call frame function arguments w' (steps.orderly h)).imp (fun _ => steps.trans)
      fun _ _ => steps.trans
  evaluate id w' steps :=
    (keeps.evaluate realm id w' (steps.orderly h)).imp (fun _ => steps.trans)
      fun _ _ => steps.trans

theorem KeepsSteps.execute (keeps : engine.KeepsSteps) (h : w.Orderly)
    (found : (w.realm realm).slot? id = some slot) (mayRun : MayRun w realm id slot) :
    Attempt.Meets (Steps w) (fun _ => Steps w) (engine.execute realm id) (fun _ => Steps w) w := by
  have began : Step w (w.write (.began realm id (w.moment realm))) := .began realm id found mayRun
  unfold Engine.execute
  rw [Attempt.meets_bind]
  refine meets_slotOf_found found ?_
  rw [Attempt.meets_bind, Attempt.meets_get, Attempt.meets_bind, Attempt.meets_lift,
    Action.meets_write]
  exact ((upholds_runInstance (carried_steps _).touched (keeps.upholds realm (began.orderly h)) id
    (w.record id) fun _ change becomes steps =>
      steps.exposed (began.orderly h) found (by simp [Event.stage?]) becomes).meets .refl).imp
    (fun _ => .head began) (fun _ _ => .head began) fun _ _ => .head began

theorem KeepsSteps.executeInWalk (keeps : engine.KeepsSteps) (h : w.Orderly)
    (found : (w.realm realm).slot? id = some slot) (mayRun : MayRun w realm id slot) :
    Attempt.Meets (Steps w) (fun _ => Steps w) (engine.executeInWalk realm id)
      (fun _ => Steps w) w := by
  have begin' : Step w (w.running realm (some id)) := .running realm (some id)
  have ended {w₁ : World} (steps : Steps (w.running realm (some id)) w₁)
      (error : Option ModuleError) :
      Steps w ((w₁.running realm none).write (.ended realm id error)) :=
    ((steps.head begin').tail (.running realm none)).tail (.marked _ fun _ _ => rfl)
  have run := keeps.execute (begin'.orderly h) (slot?_running w realm (some id) id ▸ found) mayRun
  unfold Engine.executeInWalk
  rw [Attempt.meets_bind, Attempt.meets_lift, meets_setRunning, Attempt.meets_bind,
    Attempt.meets_outcome]
  refine run.imp (fun _ => .head begin') (fun error w₁ steps => ?_) fun _ w₁ steps => ?_
  all_goals rw [Attempt.meets_bind, Attempt.meets_lift, meets_setRunning]
  · exact ended steps (some error)
  · exact ended steps none

/-! ### Taking modules off the stack -/

theorem steps_closeDownTo (ids : List RecordId) (h : w.Orderly)
    (walks : (w.realm realm).walks = walk :: outer) (stack : walk.stack = ids) :
    Attempt.Meets (Steps w) (fun _ => Steps w) (closeDownTo realm id ids) (fun _ => Steps w) w := by
  induction ids generalizing w walk with
  | nil => exact ReflTransGen.refl
  | cons top rest ih =>
    have evaluating := ((h realm).busy top).mp (by simp [Realm.busy_of_walks walks, stack])
    obtain ⟨slot, found, _⟩ := Option.map_eq_some_iff.mp evaluating
    have popped : Step w (w.popped realm top rest fun slot => slot) :=
      .popped realm top rest _ (fun _ => rfl) walks stack
    rw [closeDownTo, Attempt.meets_bind, Attempt.meets_lift, meets_modifyWalk, Attempt.meets_bind,
      Attempt.meets_discard]
    refine meets_slotOf_found ((slot?_modifyWalk ..).trans found) ?_
    rw [Attempt.meets_bind, Attempt.meets_lift, meets_moveSlot]
    split
    · exact ReflTransGen.single popped
    · rw [Attempt.meets_bind]
      exact (ih (popped.orderly h) (walks_popped walks top _ _) rfl).imp (fun _ => .head popped)
        (fun _ _ => .head popped) fun _ _ => .head popped

theorem steps_closeComponent (h : w.Orderly) (walks : (w.realm realm).walks = walk :: outer)
    (found : (w.realm realm).slot? id = some slot) :
    Attempt.Meets (Steps w) (fun _ => Steps w) (closeComponent realm id) (fun _ => Steps w) w := by
  unfold closeComponent
  rw [Attempt.meets_bind]
  refine meets_slotOf_found found ?_
  split
  · rw [Attempt.meets_bind, Attempt.meets_get, Attempt.meets_bind, Realm.stack, walks]
    refine (steps_closeDownTo walk.stack h walks rfl).mono fun modules w₁ steps => ?_
    rw [Attempt.meets_bind, Attempt.meets_get, Attempt.meets_lift, Action.meets_write]
    exact steps.tail (.marked _ fun _ _ => rfl)
  · exact ReflTransGen.refl

theorem steps_abandon (error : ModuleError) (ids : List RecordId)
    (walks : (w.realm realm).walks = walk :: outer) (stack : walk.stack = ids) :
    Action.Meets (Steps w) (abandon realm error ids) (fun _ => Steps w) w := by
  induction ids generalizing w walk with
  | nil => exact ReflTransGen.refl
  | cons top rest ih =>
    have popped : Step w (w.popped realm top rest ({ · with error := some error })) :=
      .popped realm top rest _ (fun _ => rfl) walks stack
    rw [abandon, Action.meets_bind, meets_modifyWalk, Action.meets_bind, meets_moveSlot]
    exact (ih (walks_popped walks top _ _) rfl).imp (fun _ => .head popped)
      fun _ _ => .head popped

/-! ### Visits -/

/-- Modules that are closed have been evaluated well. -/
theorem Explored.close {rest : List RecordId} (explored : Explored realm id (new ++ [c]) more w w')
    (orderly : w'.Orderly) (walks : (w'.realm realm).walks = walk :: outer)
    (stack : walk.stack = new ++ c :: rest)
    (taken : TakenOff realm walk outer rest (new ++ [c]) (fun slot => slot) w' w'')
    (event : Event) (steps : Steps w' (w''.write event)) :
    Explored realm id [] more w (w''.write event) := by
  have later := explored.later orderly steps
  refine { later with sub := List.nil_subset _, closed := fun x member => .inr ?_ }
  rcases later.closed x member with still | well
  · exact (fulfilled_congr rfl).mpr (taken.fulfilled orderly walks stack still)
  · exact well

theorem KeepsSteps.visitAll (keeps : engine.KeepsSteps) (evaluating : slot.status = .evaluating)
    (idle : walk.running = none) (required : List RecordId) (edges : ∀ r ∈ required, w.Edge c r)
    (index : Nat) (visited : VisitedAll realm c slot walk outer new more w w')
    (explored : Explored realm c new more w w') :
    Attempt.Meets (Steps w)
      (fun _ w'' => ∃ new more, VisitedAll realm c slot walk outer new more w w'' ∧
        Explored realm c new more w w'')
      (engine.visitAll realm c required index)
      (fun _ w'' => ∃ new more, VisitedAll realm c slot walk outer new more w w'' ∧
        Explored realm c new more w w'') w' := by
  induction required generalizing index new more w' with
  | nil => exact ⟨new, more, visited, explored⟩
  | cons next rest ih =>
    obtain ⟨edge, edges⟩ := List.forall_mem_cons.mp edges
    have orderly := visited.grown.orderly
    have onward {new' more' : List RecordId} {w'' : World}
        (grown : Grown realm [] (walk.grow new more) outer new' more' w' w'')
        (explored' : Explored realm next new' more' w' w'') :
        VisitedAll realm c slot walk outer (new' ++ new) (more' ++ more) w w'' ∧
          Explored realm c (new' ++ new) (more' ++ more) w w'' :=
      ⟨⟨visited.grown.trans (grown.mono (List.nil_subset _)),
        visited.own.passes evaluating grown.advance List.not_mem_nil⟩,
        explored.trans orderly (.single (visited.grown.advance.records.edge edge)) explored'⟩
    rw [Engine.visitAll, Attempt.meets_bind]
    refine (keeps.meets_visit orderly visited.grown.walks idle next index).imp
      (fun _ => explored.steps.trans) (fun _ w'' h => ?_) fun index' w'' h => ?_
    · obtain ⟨new', more', grown, explored'⟩ := h
      exact ⟨_, _, onward grown explored'⟩
    · obtain ⟨new', more', grown, explored'⟩ := h
      obtain ⟨visited'', explored''⟩ := onward grown explored'
      rw [Attempt.meets_bind, Attempt.meets_walking]
      refine meets_lowerAncestor (fun _ => ⟨_, _, visited'', explored''⟩)
        (fun _ => ih edges index' visited'' explored'') fun other _ _ _ _ => ?_
      obtain ⟨ancestor, le, found⟩ := visited''.own.slot
      refine ih edges index' ⟨visited''.grown.passes (visited''.grown.orderly.lowered found _)
        (advance_lowered w'' realm c _) (walks_lowered w'' realm c _), visited''.own.lower _⟩
        (explored''.later visited''.grown.orderly (.single (.lowered realm c _ found evaluating)))

/-- The account of the modules that a module requests, from where it has been opened on. -/
theorem KeepsSteps.visitAll_entered (keeps : engine.KeepsSteps) (h : w.Orderly)
    (walks : (w.realm realm).walks = walk :: outer) (idle : walk.running = none)
    (found : (w.realm realm).slot? id = some slot) (instantiated : slot.status = .instantiated)
    (cyclic : (w.record id).isCyclic = true) (index : Nat) {required : List RecordId}
    (requested : ∀ r ∈ required, r ∈ (w.record id).requested) :
    Attempt.Meets (Steps (w.entered realm id index))
      (fun _ w' => ∃ new more, VisitedAll realm id
          { slot with index, ancestor := index, status := .evaluating } (walk.grow [id] [id]) outer
          new more (w.entered realm id index) w' ∧
        Explored realm id new more (w.entered realm id index) w')
      (engine.visitAll realm id required (index + 1))
      (fun _ w' => ∃ new more, VisitedAll realm id
          { slot with index, ancestor := index, status := .evaluating } (walk.grow [id] [id]) outer
          new more (w.entered realm id index) w' ∧
        Explored realm id new more (w.entered realm id index) w') (w.entered realm id index) := by
  have entered := Grown.entered h walks found instantiated cyclic index
  have idle₁ : (walk.grow [id] [id]).running = none := idle
  have begun : VisitedAll realm id _ (walk.grow [id] [id]) outer [] [] (w.entered realm id index)
      (w.entered realm id index) :=
    ⟨.refl entered.orderly entered.walks, .refl (slot?_opened found index)⟩
  have edges : ∀ r ∈ required, (w.entered realm id index).Edge id r := fun r member =>
    ⟨((h realm).settled id slot found).2, requested r member⟩
  exact keeps.visitAll rfl idle₁ required edges (index + 1) begun (.of_steps .refl)

/-- A visit that opens a module and fails leaves it open. -/
theorem KeepsSteps.visitNew (keeps : engine.KeepsSteps) (h : w.Orderly)
    (walks : (w.realm realm).walks = walk :: outer) (idle : walk.running = none)
    (found : (w.realm realm).slot? id = some slot) (instantiated : slot.status = .instantiated)
    (cyclic : (w.record id).isCyclic = true) (index : Nat) :
    Attempt.Meets (Steps w)
      (fun _ w' => ∃ new more, (w'.realm realm).walks = walk.grow new more :: outer ∧
        Explored realm id new more w w' ∧ id ∈ new)
      (engine.visitNew realm id index)
      (fun _ w' => ∃ new more, (w'.realm realm).walks = walk.grow new more :: outer ∧
        Explored realm id new more w w') w := by
  have step : Step w (w.entered realm id index) :=
    .entered realm id index walks found instantiated cyclic
  have opened : Explored realm id [id] [id] w (w.entered realm id index) :=
    .entered step found instantiated cyclic
  have entered := Grown.entered h walks found instantiated cyclic index
  unfold Engine.visitNew
  rw [Attempt.meets_bind, Attempt.meets_lift, meets_enter, Attempt.meets_bind, Attempt.meets_get,
    Attempt.meets_bind]
  refine (keeps.visitAll_entered h walks idle found instantiated cyclic index
    fun _ member => member).imp (fun _ => .head step) (fun _ w₂ h => ?_) fun index' w₂ h => ?_
  all_goals
    obtain ⟨new, more, visited, explored⟩ := h
    have explored₂ := opened.trans entered.orderly .refl explored
    have grown₂ := visited.grown
    have walks₂ : (w₂.realm realm).walks = walk.grow (new ++ [id]) (more ++ [id]) :: outer := by
      simpa using grown₂.walks
  · exact ⟨_, _, walks₂, explored₂, List.mem_append_right _ List.mem_cons_self⟩
  obtain ⟨slot₂, found₂, evaluating₂⟩ : ∃ slot₂, (w₂.realm realm).slot? id = some slot₂ ∧
      slot₂.status = .evaluating := by
    obtain ⟨ancestor, _, found₂⟩ := visited.own.slot
    exact ⟨_, found₂, rfl⟩
  rw [Attempt.meets_bind, Attempt.meets_get]
  split
  · exact ⟨_, _, walks₂, explored₂, List.mem_append_right _ List.mem_cons_self⟩
  have mayRun : MayRun w₂ realm id slot₂ := fun _ =>
    ⟨evaluating₂, visited.own.life.trans (h.life_opened found instantiated cyclic index)⟩
  have order := keeps.order.executeInWalk grown₂.orderly walks₂ idle found₂ mayRun
  have steps := keeps.executeInWalk grown₂.orderly found₂ mayRun
  rw [Attempt.meets_bind, Attempt.meets_walking]
  refine (order.and steps).imp (fun _ h => explored₂.steps.trans h.2) (fun _ w₃ h => ?_)
    fun _ w₃ h => ?_
  all_goals
    obtain ⟨ran, steps₃⟩ := h
    have explored₃ := explored₂.later grown₂.orderly steps₃
    have walks₃ := ran.walks.trans walks₂
  · exact ⟨_, _, walks₃, explored₃, List.mem_append_right _ List.mem_cons_self⟩
  -- The body has run: either the component is closed now, or its modules stay open.
  have found₃ := ran.slot (by simp [evaluating₂])
  have stack₃ : (walk.grow (new ++ [id]) (more ++ [id])).stack = new ++ id :: walk.stack := by
    simp
  rw [Attempt.meets_bind, Attempt.meets_walking]
  have closing : Attempt.Meets (Steps w₃) (fun _ _ => False) (closeComponent realm id) _ w₃ :=
    meets_closeComponent ran.orderly walks₃ stack₃ found₃
  refine (closing.and (steps_closeComponent ran.orderly walks₃ found₃)).imp
    (fun _ h => explored₃.steps.trans h.2) (fun _ _ h => h.1.elim) fun _ w₄ h => ?_
  obtain ⟨closed, steps₄⟩ := h
  rw [Attempt.meets_pure]
  split at closed
  · obtain ⟨w₅, taken, rfl⟩ := closed
    exact ⟨[], more ++ [id], taken.walks, explored₃.close ran.orderly walks₃ stack₃ taken _ steps₄⟩
  · subst closed
    exact ⟨_, _, walks₃, explored₃⟩

theorem KeepsSteps.visitPlain (keeps : engine.KeepsSteps) (h : w.Orderly)
    (plain : (w.record id).isCyclic = false) (index : Nat) :
    Attempt.Meets (Steps w) (fun _ => Steps w) (engine.visitPlain realm id index)
      (fun _ => Steps w) w := by
  have settled (slot : Slot) {w' : World} (steps : Steps w w') :
      Attempt.Meets (Steps w) (fun _ => Steps w) (outcomeOf slot index) (fun _ => Steps w) w' := by
    unfold outcomeOf
    split <;> exact steps
  unfold Engine.visitPlain
  rw [Attempt.meets_bind, Attempt.meets_walking]
  refine meets_slotOf (fun _ => .refl) fun slot found => ?_
  split
  · have ended {w' : World} (steps : Steps w w') (error : Option ModuleError) :
        Attempt.Meets (Steps w) (fun _ => Steps w)
          (do
            moveSlot realm id .evaluated ({ · with error })
            outcomeOf (← (slotOf realm id).walking) index)
          (fun _ => Steps w) w' := by
      have plain' : (w'.record id).isCyclic = false := by
        rw [(steps.extends h).isCyclic, plain]
      have moved := steps.tail (.plain realm id ({ · with error }) (fun _ => rfl) plain')
      rw [Attempt.meets_bind, Attempt.meets_lift, meets_moveSlot, Attempt.meets_bind,
        Attempt.meets_walking]
      exact meets_slotOf (fun _ => moved) fun slot _ => settled slot moved
    have mayRun : MayRun w realm id slot := fun cyclic => by simp [plain] at cyclic
    rw [Attempt.meets_bind, Attempt.meets_walking, Attempt.meets_outcome]
    refine (keeps.executeInWalk h found mayRun).imp (fun _ h => h)
      (fun error w' steps => ?_) fun _ w' steps => ?_
    · exact ended steps (some error)
    · exact ended steps none
  · exact settled slot .refl

theorem KeepsSteps.visitFrom (keeps : engine.KeepsSteps) (h : w.Orderly)
    (walks : (w.realm realm).walks = walk :: outer) (idle : walk.running = none) (index : Nat) :
    Attempt.Meets (Steps w)
      (fun _ w' => ∃ new more, (w'.realm realm).walks = walk.grow new more :: outer ∧
        Explored realm id new more w w')
      (engine.visitFrom realm id index)
      (fun _ w' => ∃ new more, (w'.realm realm).walks = walk.grow new more :: outer ∧
        Explored realm id new more w w') w := by
  unfold Engine.visitFrom
  rw [Attempt.meets_bind, Attempt.meets_walking]
  refine ((Action.keeps_instantiate engine.depth realm id).meets w).imp
    (fun _ changes => changes.steps) (fun _ w₁ changes => ?_) fun _ w₁ changes => ?_
  all_goals
    have walks₁ := (Changes.passes changes realm).walks.trans walks
    have nothing : ∃ new more, (w₁.realm realm).walks = walk.grow new more :: outer ∧
        Explored realm id new more w w₁ := ⟨[], [], walks₁, .of_steps changes.steps⟩
  · exact nothing
  have h₁ := Changes.orderly changes h
  have start : Explored realm id [] [] w w₁ := .of_steps changes.steps
  rw [Attempt.meets_bind, Attempt.meets_get]
  split
  · rename_i cyclic
    rw [Attempt.meets_bind, Attempt.meets_walking]
    refine meets_slotOf (fun _ => nothing) fun slot found => ?_
    split
    · unfold outcomeOf
      split <;> exact nothing
    · exact nothing
    · rename_i instantiated
      have onward {w' : World} (h : ∃ new more,
          (w'.realm realm).walks = walk.grow new more :: outer ∧
            Explored realm id new more w₁ w') :
          ∃ new more, (w'.realm realm).walks = walk.grow new more :: outer ∧
            Explored realm id new more w w' := by
        obtain ⟨new, more, walks', explored⟩ := h
        exact ⟨new, more, walks', by simpa using start.trans h₁ .refl explored⟩
      exact (keeps.visitNew h₁ walks₁ idle found instantiated cyclic index).imp
        (fun _ => changes.steps.trans)
        (fun _ _ ⟨new, more, walks', explored, _⟩ => onward ⟨new, more, walks', explored⟩)
        fun _ _ => onward
  · rename_i plain
    have plain : (w₁.record id).isCyclic = false := by simpa using plain
    have order := keeps.order.visitPlain h₁ walks₁ idle plain index
    refine (order.and (keeps.visitPlain h₁ plain index)).imp
      (fun _ h => changes.steps.trans h.2) (fun _ w' h => ?_) fun _ w' h => ?_
    all_goals exact ⟨[], [], h.1.walks, .of_steps (changes.steps.trans h.2)⟩

/-! ### Walks -/

theorem KeepsSteps.meets_walk (keeps : engine.KeepsSteps) (h : w.Orderly) (root : RecordId) :
    Action.Meets (Steps w) (engine.walk realm root) (fun _ => Steps w) w := by
  have step : Step w (w.walking realm root) := .walking realm root
  have walks₁ := walks_walking w realm root
  have order := keeps.order.visit realm root 0 _ _ _ (step.orderly h) walks₁ rfl
  have steps := keeps.visit realm root 0 _ _ _ (step.orderly h) walks₁ rfl
  unfold Engine.walk
  rw [Action.meets_bind, Action.meets_modify, Action.meets_bind, Attempt.meets_run]
  refine (order.and steps).imp (fun _ h => .head step h.2) (fun interrupt w₂ h => ?_)
    fun index w₂ h => ?_
  · obtain ⟨⟨new, more, grown⟩, _, _, _, explored⟩ := h
    have before := explored.steps.head step
    have stack : (w₂.realm realm).stack = (Walk.grow { root } new more).stack := by
      rw [Realm.stack, grown.walks]
    rw [Action.meets_bind, conclude, Action.meets_bind, Action.meets_get, Action.meets_bind, stack]
    have taken : Action.Meets (Steps w₂) (abandon realm (Interrupt.error interrupt) _) _ w₂ :=
      meets_abandon (Interrupt.error interrupt) grown.orderly grown.walks
    refine (taken.and (steps_abandon _ _ grown.walks rfl)).imp (fun _ h => before.trans h.2)
      fun _ w₃ h => ?_
    obtain ⟨taken, steps₃⟩ := h
    rw [Action.meets_pure, Action.meets_bind, Action.meets_modify, Action.meets_pure]
    exact (before.trans steps₃).tail (.walked realm taken.walks rfl)
  · obtain ⟨⟨new, more, grown, left⟩, _, _, _, explored⟩ := h
    have empty : new = [] := by
      by_contra nonempty
      obtain ⟨slot, _, impossible⟩ := left nonempty
      exact absurd impossible (Nat.not_lt_zero _)
    subst empty
    rw [Action.meets_bind, conclude, Action.meets_bind, Action.meets_get, Action.meets_pure,
      Action.meets_bind, Action.meets_modify, Action.meets_pure]
    exact (explored.steps.head step).tail (.walked realm grown.walks rfl)

theorem KeepsSteps.deeper (keeps : engine.KeepsSteps) (embedding : Embedding) :
    (engine.next embedding).KeepsSteps := by
  have walks (realm : RealmId) {w : World} (h : w.Orderly) (root : RecordId) :
      Action.Upholds (Steps w) (Steps w) (engine.walk realm root) := fun w' steps =>
    (keeps.meets_walk (steps.orderly h) root).imp (fun _ => steps.trans) fun _ _ => steps.trans
  have bodies (realm : RealmId) {w : World} (h : w.Orderly) :=
    Upholds.next ((carried_steps w).borne embedding) (walks realm h) (keeps.upholds realm h)
  refine ⟨keeps.order.deeper embedding, fun frame function arguments w h => ?_,
    fun realm id w h => ?_,
    fun realm id index w walk outer h walks idle => keeps.visitFrom h walks idle index⟩
  · exact (bodies frame.realm h).call frame rfl function arguments w .refl
  · exact (bodies realm h).evaluate id w .refl

/-- However deep modules nest, evaluation goes step by step. -/
theorem keepsSteps_ofDepth (embedding : Embedding) (depth : Nat) :
    (ofDepth embedding depth).KeepsSteps := by
  induction depth with
  | zero =>
    exact ⟨keepsOrder_ofDepth embedding 0, fun _ _ _ _ _ => .refl, fun _ _ _ _ => .refl,
      fun _ _ _ _ _ _ _ _ _ => .refl⟩
  | succ depth ih => exact ih.deeper embedding

end Engine

/-- Every run goes step by step, also one that goes too deep. -/
theorem Setup.steps_run (embedding : Embedding) (depth : Nat) (operations : List Operation)
    {w : World} (h : w.Orderly) :
    World.Steps w (((Setup.ofDepth embedding depth).run operations).after w) := by
  have keeps := Engine.keepsSteps_ofDepth embedding depth
  have carried := Engine.carried_steps w
  refine (upholds_run (carried.borne embedding) carried.touched (fun realm root w' steps => ?_)
    (fun realm => keeps.upholds realm h) operations w .refl).after
  exact (keeps.meets_walk (steps.orderly h) root).imp (fun _ => steps.trans) fun _ _ => steps.trans

end ModuleGraph
