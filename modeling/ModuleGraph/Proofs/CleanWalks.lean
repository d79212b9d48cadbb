import ModuleGraph.Proofs.CleanInstances

/-!
Walks in sane worlds. A walk finds every module of an installed graph in the realm, its own modules
are all on its stack when it closes a component, and it leaves none there; so it ends in no breach,
however its bodies evaluate, require and fail meanwhile.
-/
namespace ModuleGraph
open World Engine Relation

@[simp] theorem Realm.functions_modifyWalk (realm : Realm) (change : Walk → Walk) :
    (realm.modifyWalk change).functions = realm.functions := by
  unfold modifyWalk
  split <;> rfl

/-! ### What a sane world stays -/

namespace World
variable {linked : RecordId → Prop} {w : World} {α ε : Type}

/-- What code makes of a sane world is sane where it is clean, if code goes step by step and links in
order. -/
theorem Sane.meets (sane : w.Sane linked) {attempt : ExceptT ε Action α}
    (steps : Attempt.Meets (Steps w) (fun _ => Steps w) attempt (fun _ => Steps w) w)
    (links : Attempt.Upholds (fun w => (∃ id, w.IsLinking id) ∨ w.Named ∧ w.Linkage [])
      (fun w => w.Named ∧ w.Linkage []) attempt)
    {stuck : World → Prop} {clear : ε → Prop}
    (clean : Attempt.Meets stuck (fun e w' => w'.Clean linked ∧ clear e) attempt
      (fun _ => Clean linked) w) :
    Attempt.Meets stuck (fun e w' => w'.Sane linked ∧ clear e) attempt (fun _ => Sane linked) w :=
  (steps.and ((links.meets ⟨sane.named, sane.linkage⟩).and clean)).imp (fun _ h => h.2.2)
    (fun _ _ h => ⟨sane.steps h.1 h.2.1 h.2.2.1, h.2.2.2⟩) fun _ _ h =>
    sane.steps h.1 h.2.1 h.2.2

end World

/-- What a link came to its end for is linked, if it has to be. -/
theorem Embedding.meets_link_settled (embedding : Embedding) (depth : Nat) {id : RecordId}
    {w : World} (present : w.hasRecord id) (idle : ¬ w.IsLinking id) :
    Attempt.Meets (fun _ => True) (fun _ _ => True) (embedding.link depth id)
      (fun _ w' => w'.hasRecord id ∧ (w'.record id).IsSettled) w := by
  have changes := (embedding.keeps_link depth id).meets w
  unfold Attempt.Meets at changes ⊢
  split
  · rename_i w' ended
    rw [ended] at changes
    refine ⟨changes.changes.extends.hasRecord present, ?_⟩
    cases found : w'.record id with
    | static module =>
      obtain ⟨_, before⟩ := changes.changes.other present found
      obtain ⟨_, found', linked⟩ := linkedAs_of_link (kind_eq_static.mpr ⟨_, before⟩) idle ended
      cases found.symm.trans found'
      exact linked
    | _ => trivial
  · trivial
  · trivial

namespace Engine
variable {linked : RecordId → Prop} {embedding : Embedding} {engine : Engine} {w : World}
  {realm : RealmId} {id c root : RecordId} {walk : Walk} {outer : List Walk} {slot : Slot}
  {graph : RecordId → Prop}

/-- An attempt that keeps worlds clean keeps them sane. -/
theorem endsClear_sane {α : Type} {attempt : Attempt α}
    (clear : Embedding.KeepsClean linked attempt) (changes : Attempt.Keeps World.Changes attempt)
    (links : Attempt.Upholds (fun w => (∃ id, w.IsLinking id) ∨ w.Named ∧ w.Linkage [])
      (fun w => w.Named ∧ w.Linkage []) attempt) :
    attempt.EndsClear (Clean linked) (Sane linked) := fun w sane =>
  sane.meets ((changes.meets w).imp (fun _ => Changes.steps) (fun _ _ => Changes.steps)
    fun _ _ => Changes.steps) links (clear w sane.clean)

/-! ### Moves that bring in no error -/

theorem upholds_modifyWalk_clean (realm : RealmId) (change : Walk → Walk) :
    Action.Upholds (Clean linked) (Clean linked) (modifyWalk realm change) :=
  fun _ clean => clean.rearranged realm (fun r => r.functions_modifyWalk change)
    fun r => r.slots_modifyWalk change

theorem upholds_moveSlot_clean (realm : RealmId) (id : RecordId) (status : InstanceStatus)
    {change : Slot → Slot} (errors : ∀ slot, ∀ error ∈ (change slot).error,
      slot.error = some error ∨ ¬ error.IsBreach) :
    Action.Upholds (Clean linked) (Clean linked) (moveSlot realm id status change) := by
  intro w clean
  have modified : (w.modifyRealm realm
      (·.modifySlot id fun slot => { change slot with status })).Clean linked :=
    clean.modifySlot realm id errors
  exact modified.of_same rfl rfl fun _ => rfl

theorem upholds_enter_clean (realm : RealmId) (id : RecordId) (index : Nat) :
    Action.Upholds (Clean linked) (Clean linked) (enter realm id index) :=
  .bind (upholds_moveSlot_clean realm id .evaluating fun _ _ same => .inl same) fun _ =>
    upholds_modifyWalk_clean realm _

theorem upholds_closeDownTo_clean (realm : RealmId) (id : RecordId) (stack : List RecordId) :
    Attempt.Upholds (Clean linked) (Clean linked) (closeDownTo realm id stack) := by
  induction stack with
  | nil => exact .throw _
  | cons top rest ih =>
    refine .bind (.lift (upholds_modifyWalk_clean realm _)) fun _ =>
      .bind (.map (upholds_slotOf realm top) _) fun _ =>
      .bind (.lift (upholds_moveSlot_clean realm top _ fun _ _ => .inl)) fun _ => ?_
    split
    · exact .pure _
    · exact .bind ih fun _ => .pure _

theorem upholds_closeComponent_clean (realm : RealmId) (id : RecordId) :
    Attempt.Upholds (Clean linked) (Clean linked) (closeComponent realm id) := by
  refine .bind (upholds_slotOf realm id) fun slot => ?_
  split
  · exact .bind .get fun _ => .bind (upholds_closeDownTo_clean realm id _) fun _ =>
      .bind .get fun _ => .lift (Embedding.upholds_write _)
  · exact .pure _

theorem upholds_abandon_clean (realm : RealmId) {error : ModuleError} (clear : ¬ error.IsBreach)
    (stack : List RecordId) :
    Action.Upholds (Clean linked) (Clean linked) (abandon realm error stack) := by
  induction stack with
  | nil => exact .pure _
  | cons id rest ih =>
    refine .bind (upholds_modifyWalk_clean realm _) fun _ =>
      .bind (upholds_moveSlot_clean realm id _ fun _ error' same => .inr ?_) fun _ => ih
    cases same
    exact clear

/-! ### Bodies -/

/-- An engine that comes up with no breach in a sane world. A walk needs that its graph is installed
in the realm. -/
structure Wary (linked : RecordId → Prop) (engine : Engine) : Prop where
  steps : engine.KeepsSteps
  sustains : engine.Sustains (fun w => (∃ id, w.IsLinking id) ∨ w.Named ∧ w.Linkage [])
    (fun w => w.Named ∧ w.Linkage [])
  call : ∀ (frame : Frame) function arguments,
    Action.EndsClear (Clean linked) (Sane linked) (engine.call frame function arguments)
  evaluate : ∀ realm id (w : World), w.Sane linked →
    Action.Meets (Clean linked) (engine.evaluate realm id)
      (fun settlement w' => w'.Sane linked ∧ (w.IsDone id → settlement.Clears)) w
  visit : ∀ realm id index (w : World) walk outer graph, w.Sane linked →
    (w.realm realm).walks = walk :: outer → walk.running = none → w.Installed realm graph →
    (w.hasRecord id → graph id) →
    Attempt.Meets (Clean linked)
      (fun interrupt w' => w'.Sane linked ∧ ¬ (Interrupt.error interrupt).IsBreach)
      (engine.visit realm id index) (fun _ => Sane linked) w

section
variable (wary : engine.Wary linked)
include wary

theorem Wary.runs (frame : Frame) {script : Script} (refrains : script.Refrains linked) :
    Action.EndsClear (Clean linked) (Sane linked) (script.run engine.powers frame) := by
  refine Script.endsClear_run (tended_sane linked) (wary.call frame) (fun record w sane => ?evaluate)
    (fun environment name =>
      (tended_sane linked).brushed (Action.keeps_readEnvironment _ environment name)) refrains
  case evaluate =>
    exact (wary.evaluate frame.realm record w sane).mono fun settlement w' h =>
      ⟨h.1, fun member => h.2 (sane.isDone member)⟩

theorem Wary.runBody (realm : RealmId) {body : Script} (refrains : body.Refrains linked) :
    (engine.runBody realm body).EndsClear (Clean linked) (Sane linked) := by
  intro w sane
  unfold Engine.runBody
  rw [Attempt.meets_bind, Attempt.meets_lift]
  refine (wary.runs (.of realm) refrains w sane).mono fun outcome w' h => ?_
  split
  · exact h.1
  · exact ⟨h.1, h.2 _ rfl⟩

theorem Wary.runWrapper (realm : RealmId) (id : RecordId) (instanceIndex : Nat)
    {module : WrapperModule} (refrains : module.program.Refrains linked) :
    (engine.runWrapper realm id module instanceIndex).EndsClear (Clean linked) (Sane linked) := by
  have edited {α : Type} {action : Action α} (keeps : Action.Keeps World.Brushes action) :
      Attempt.EndsClear (Clean linked) (Sane linked) (liftM action : Attempt α) :=
    .lift ((tended_sane linked).brushed keeps)
  have modified (change : Instance → Instance) : Attempt.EndsClear (Clean linked) (Sane linked)
      (liftM (modify (·.modifyRealm realm (·.modifyInstance instanceIndex change)) :
        Action Unit) : Attempt Unit) :=
    .lift fun w sane => sane.modifyInstance realm _ change
  unfold Engine.runWrapper
  refine .bind (wary.runBody realm refrains) fun value => ?_
  split
  · refine .bind (edited (Action.keeps_newObject _ _)) fun exports =>
      .bind (edited (Action.keeps_newObject _ _)) fun descriptor =>
      .bind (modified _) fun _ =>
      .bind (.lift ((tended_sane linked).newFunction _ _ trivial)) fun require => ?_
    intro w sane
    rw [Attempt.meets_bind, Attempt.meets_lift]
    refine (wary.call _ _ _ w sane).mono fun outcome w₁ h => ?_
    split
    · exact ⟨h.1, h.2 _ rfl⟩
    · refine (Attempt.EndsClear.bind .get fun world => ?_) w₁ h.1
      dsimp only
      split
      · exact .throw fun breach => breach
      · exact .bind (modified _) fun _ => .bind .get fun _ =>
          .bind (edited (Action.keeps_publishNames _ id _)) fun _ => .bind .get fun _ => modified _
  · exact .throw (not_isBreach_defect _ (by decide) (by decide))

theorem Wary.runInstance (realm : RealmId) (id : RecordId) (instanceIndex : Nat) {record : Record}
    (refrains : record.Refrains linked) :
    (engine.runInstance realm id instanceIndex record).EndsClear (Clean linked) (Sane linked) := by
  cases record with
  | static module => exact .bind (wary.runBody realm (refrains.1 _)) fun _ => .pure _
  | wrapper module => exact wary.runWrapper realm id instanceIndex refrains
  | host module => exact .pure _
  | custom module => exact refrains.elim

theorem Wary.execute (sane : w.Sane linked) (found : (w.realm realm).slot? id = some slot)
    (mayRun : MayRun w realm id slot) :
    Attempt.Meets (Clean linked) (fun error w' => w'.Sane linked ∧ ¬ error.IsBreach)
      (engine.execute realm id) (fun _ => Sane linked) w := by
  have began : (w.write (.began realm id (w.moment realm))).Sane linked :=
    sane.moves (.single (.began realm id found mayRun)) (.single (.write _ rfl))
      (sane.clean.of_same rfl rfl fun _ => rfl)
  have refrains := sane.clean.records id ((sane.orderly realm).settled id slot found).1
  unfold Engine.execute
  rw [Attempt.meets_bind]
  refine meets_slotOf_found found ?_
  rw [Attempt.meets_bind, Attempt.meets_get, Attempt.meets_bind, Attempt.meets_lift,
    Action.meets_write]
  exact wary.runInstance realm id slot.instanceIndex refrains _ began

theorem Wary.executeInWalk (sane : w.Sane linked) (found : (w.realm realm).slot? id = some slot)
    (mayRun : MayRun w realm id slot) :
    Attempt.Meets (Clean linked) (fun error w' => w'.Sane linked ∧ ¬ error.IsBreach)
      (engine.executeInWalk realm id) (fun _ => Sane linked) w := by
  have turned {w : World} (sane : w.Sane linked) (running : Option RecordId) :
      (w.running realm running).Sane linked :=
    sane.moves (.single (.running realm running))
      (.rearranged w realm fun r => r.slots_modifyWalk _)
      (upholds_modifyWalk_clean realm _ w sane.clean)
  have ended {w : World} (sane : w.Sane linked) (error : Option ModuleError) :
      ((w.running realm none).write (.ended realm id error)).Sane linked :=
    (turned sane none).moves (.single (.marked _ fun _ _ => rfl)) (.single (.write _ rfl))
      ((turned sane none).clean.of_same rfl rfl fun _ => rfl)
  have run := wary.execute (turned sane (some id))
    (slot?_running w realm (some id) id ▸ found) mayRun
  unfold Engine.executeInWalk
  rw [Attempt.meets_bind, Attempt.meets_lift, meets_setRunning, Attempt.meets_bind,
    Attempt.meets_outcome]
  refine run.imp (fun _ h => h) (fun error w₁ h => ?_) fun _ w₁ sane₁ => ?_
  all_goals rw [Attempt.meets_bind, Attempt.meets_lift, meets_setRunning]
  · exact ⟨ended h.1 (some error), h.2⟩
  · exact ended sane₁ none

/-! ### Visits -/

/-- While a module visits all that it requests, it finds them in the realm. -/
theorem Wary.visitAll (idle : walk.running = none) (required : List RecordId) (index : Nat)
    (sane : w.Sane linked) (walks : (w.realm realm).walks = walk :: outer)
    (found : (w.realm realm).slot? c = some slot) (evaluating : slot.status = .evaluating)
    (installed : w.Installed realm graph) (members : ∀ r ∈ required, graph r) :
    Attempt.Meets (Clean linked)
      (fun interrupt w' => w'.Sane linked ∧ ¬ (Interrupt.error interrupt).IsBreach)
      (engine.visitAll realm c required index) (fun _ => Sane linked) w := by
  induction required generalizing index w walk slot with
  | nil => exact sane
  | cons next rest ih =>
    obtain ⟨member, members⟩ := List.forall_mem_cons.mp members
    rw [Engine.visitAll, Attempt.meets_bind]
    refine ((wary.steps.meets_visit sane.orderly walks idle next index).and
      (wary.visit realm next index w walk outer graph sane walks idle installed fun _ => member)).imp
      (fun _ h => h.2) (fun _ _ h => h.2) fun index' w₁ h => ?_
    obtain ⟨⟨new, more, grown, explored⟩, sane₁⟩ := h
    have installed₁ := installed.steps sane.orderly explored.steps
    have found₁ := grown.advance.slot List.not_mem_nil found (by simp [evaluating])
    have idle₁ : (walk.grow new more).running = none := idle
    obtain ⟨other, present⟩ := installed₁.slot next member
    rw [Attempt.meets_bind, Attempt.meets_walking]
    refine meets_lowerAncestor_found present
      (ih idle₁ index' sane₁ grown.walks found₁ evaluating installed₁ members) fun _ => ?_
    have lower : Step w₁ (w₁.lowered realm c other.ancestor) :=
      .lowered realm c _ found₁ evaluating
    have sane₂ := sane₁.moves (.single lower) (Turns.modifySlot w₁ realm c _).moves
      (sane₁.clean.modifySlot realm c fun _ _ => .inl)
    have found₂ := (slot?_lowered w₁ realm c c other.ancestor).trans (if_pos rfl)
    rw [found₁] at found₂
    exact ih idle₁ index' sane₂ ((walks_lowered w₁ realm c _).trans grown.walks) found₂ evaluating
      (installed₁.steps sane₁.orderly (.single lower)) members

theorem Wary.visitNew (sane : w.Sane linked) (walks : (w.realm realm).walks = walk :: outer)
    (idle : walk.running = none) (found : (w.realm realm).slot? id = some slot)
    (instantiated : slot.status = .instantiated) (cyclic : (w.record id).isCyclic = true)
    (installed : w.Installed realm graph) (member : graph id) (index : Nat) :
    Attempt.Meets (Clean linked)
      (fun interrupt w' => w'.Sane linked ∧ ¬ (Interrupt.error interrupt).IsBreach)
      (engine.visitNew realm id index) (fun _ => Sane linked) w := by
  have h := sane.orderly
  have step : Step w (w.entered realm id index) :=
    .entered realm id index walks found instantiated cyclic
  have grown := Grown.entered h walks found instantiated cyclic index
  have sane₁ : (w.entered realm id index).Sane linked := by
    refine sane.moves (.single step) ((Turns.moveSlot w realm id _ _).moves.trans
      (Moves.rearranged _ realm fun r => r.slots_modifyWalk _)) ?_
    exact upholds_enter_clean realm id index w sane.clean
  have installed₁ := installed.steps h (.single step)
  have idle₁ : (walk.grow [id] [id]).running = none := idle
  have found₁ := slot?_opened found index
  unfold Engine.visitNew
  rw [Attempt.meets_bind, Attempt.meets_lift, meets_enter, Attempt.meets_bind, Attempt.meets_get,
    Attempt.meets_bind]
  refine ((wary.steps.visitAll_entered h walks idle found instantiated cyclic index
    fun _ member => member).and (wary.visitAll idle₁ _ (index + 1) sane₁ grown.walks found₁ rfl
      installed₁ (installed₁.closed id member))).imp (fun _ h => h.2) (fun _ _ h => h.2)
    fun index' w₂ h => ?_
  obtain ⟨⟨new, more, visited, -⟩, sane₂⟩ := h
  have walks₂ := visited.grown.walks
  obtain ⟨ancestor, _, found₂⟩ := visited.own.slot
  rw [Attempt.meets_bind, Attempt.meets_get]
  split
  · exact ⟨sane₂, fun breach => breach⟩
  have mayRun : MayRun w₂ realm id
      { slot with index, ancestor, status := .evaluating } := fun _ =>
    ⟨rfl, visited.own.life.trans (h.life_opened found instantiated cyclic index)⟩
  rw [Attempt.meets_bind, Attempt.meets_walking]
  refine ((wary.steps.order.executeInWalk sane₂.orderly walks₂ idle found₂ mayRun).and
    (wary.executeInWalk sane₂ found₂ mayRun)).imp (fun _ h => h.2) (fun _ _ h => h.2)
    fun _ w₃ h => ?_
  -- all that the component opened is on the stack, so it can be closed
  obtain ⟨ran, sane₃⟩ := h
  have walks₃ := ran.walks.trans walks₂
  have found₃ := ran.slot (by simp)
  have stack₃ : ((walk.grow [id] [id]).grow new more).stack = new ++ id :: walk.stack := by simp
  have closes : Attempt.Meets (Clean linked) (fun _ _ => False) (closeComponent realm id) _ w₃ :=
    meets_closeComponent sane₃.orderly walks₃ stack₃ found₃
  have clean := closes.and ((upholds_closeComponent_clean realm id).meets sane₃.clean)
  rw [Attempt.meets_bind, Attempt.meets_walking]
  exact (sane₃.meets (steps_closeComponent sane₃.orderly walks₃ found₃)
    ((sustained_linkage_or_linking .bare).lasting.closeComponent realm id)
    (clean.imp (fun _ h => h.2) (fun _ _ h => ⟨h.2, h.1⟩) fun _ _ h => h.2)).imp
    (fun _ h => h) (fun _ _ h => h.2.elim) fun _ _ h => h

theorem Wary.visitFrom (sane : w.Sane linked) (walks : (w.realm realm).walks = walk :: outer)
    (idle : walk.running = none) (installed : w.Installed realm graph)
    (member : w.hasRecord id → graph id) (index : Nat) :
    Attempt.Meets (Clean linked)
      (fun interrupt w' => w'.Sane linked ∧ ¬ (Interrupt.error interrupt).IsBreach)
      (engine.visitFrom realm id index) (fun _ => Sane linked) w := by
  unfold Engine.visitFrom
  rw [Attempt.meets_bind, Attempt.meets_walking]
  by_cases present : w.hasRecord id
  · obtain ⟨slot, found⟩ := installed.slot id (member present)
    refine (Action.meets_instantiate_found found engine.depth).imp (fun _ h => h.elim)
      (fun _ _ h => h.elim) fun _ w₁ same => ?_
    subst same
    rw [Attempt.meets_bind, Attempt.meets_get]
    split
    · rename_i cyclic
      rw [Attempt.meets_bind, Attempt.meets_walking]
      refine meets_slotOf_found found ?_
      split
      · unfold outcomeOf
        split
        · exact ⟨sane, sane.clean.slots realm id slot found _ ‹_›⟩
        · exact sane
      · exact sane
      · exact wary.visitNew sane walks idle found ‹_› cyclic installed (member present) index
    · rename_i plain
      have refrains := sane.clean.records id present
      cases record : w₁.record id <;> rw [record] at refrains plain
      case custom => exact refrains.elim
      all_goals exact absurd rfl plain
  · have absent : (w.realm realm).slot? id = none := by
      by_contra there
      obtain ⟨slot, found⟩ := Option.ne_none_iff_exists'.mp there
      exact present ((sane.orderly realm).settled id slot found).1
    unfold Action.instantiate
    rw [Attempt.meets_bind, Attempt.meets_get, absent]
    dsimp only
    rw [if_neg present]
    exact ⟨sane, not_isBreach_defect _ (by decide) (by decide)⟩

/-! ### Walks -/

/-- A walk of an installed graph ends in no breach, and leaves no module open. -/
theorem Wary.meets_walk (sane : w.Sane linked) (installed : w.Installed realm graph)
    (member : w.hasRecord root → graph root) :
    Action.Meets (Clean linked) (engine.walk realm root)
      (fun outcome w' => w'.Sane linked ∧ (∀ left, outcome = .ok left → left = []) ∧
        ∀ interrupt, outcome = .error interrupt → ¬ (Interrupt.error interrupt).IsBreach) w := by
  have step : Step w (w.walking realm root) := .walking realm root
  have sane₁ : (w.walking realm root).Sane linked :=
    sane.moves (.single step) (Moves.rearranged w realm fun _ => rfl)
      (sane.clean.rearranged realm (fun _ => rfl) fun _ => rfl)
  have visited := wary.visit realm root 0 _ _ _ graph sane₁ (walks_walking w realm root) rfl
    (installed.steps sane.orderly (.single step)) member
  have closes {w : World} (clean : w.Clean linked) : (w.walked realm).Clean linked :=
    clean.rearranged realm (fun _ => rfl) fun _ => rfl
  have clean : Action.Meets (Clean linked) (engine.walk realm root)
      (fun outcome w' => w'.Clean linked ∧
        ∀ interrupt, outcome = .error interrupt → ¬ (Interrupt.error interrupt).IsBreach) w := by
    unfold Engine.walk
    rw [Action.meets_bind, Action.meets_modify, Action.meets_bind, Attempt.meets_run]
    refine visited.imp (fun _ h => h) (fun interrupt w₂ h => ?_) fun index w₂ sane₂ => ?_
    · rw [Action.meets_bind, conclude, Action.meets_bind, Action.meets_get, Action.meets_bind]
      refine (upholds_abandon_clean realm h.2 _ w₂ h.1.clean).mono fun _ w₃ clean₃ => ?_
      rw [Action.meets_pure, Action.meets_bind, Action.meets_modify, Action.meets_pure]
      refine ⟨closes clean₃, fun _ same => ?_⟩
      cases same
      exact h.2
    · rw [Action.meets_bind, conclude, Action.meets_bind, Action.meets_get, Action.meets_pure,
        Action.meets_bind, Action.meets_modify, Action.meets_pure]
      exact ⟨closes sane₂.clean, fun _ same => by cases same⟩
  have order : Action.Meets _ (engine.walk realm root) _ w :=
    wary.steps.order.meets_walk sane.orderly root
  have steps : Action.Meets _ (engine.walk realm root) _ w :=
    wary.steps.meets_walk sane.orderly root
  have links := wary.sustains.walk (sustained_linkage_or_linking .bare).lasting realm root w
    ⟨sane.named, sane.linkage⟩
  exact ((order.and steps).and (links.and clean)).imp (fun _ h => h.2.2) fun outcome w' h =>
    ⟨sane.steps h.1.2 h.2.1 h.2.2.1, h.1.1.1, h.2.2.2⟩

end

/-- What a record needs exists, and no embedder made it. -/
theorem hasRecord_of_needs (sane : w.Sane linked) (present : w.hasRecord root)
    (path : w.Needs root id) : w.hasRecord id := by
  induction path with
  | refl => exact present
  | @tail a _ _ requested ih =>
    have refrains := sane.clean.records a ih
    cases record : w.record a with
    | static module =>
      rw [record] at requested
      exact sane.linkage.present a module record _ requested
    | custom module =>
      rw [record] at refrains
      exact refrains.elim
    | _ =>
      rw [record] at requested
      exact absurd requested List.not_mem_nil

/-- A graph that was instantiated is installed, and one that was linked is refused for no breach. -/
theorem meets_instantiateGraph_installed (depth : Nat) (realm : RealmId) (root : RecordId)
    (sane : w.Sane linked) :
    Attempt.Meets (Clean linked)
      (fun error w' => w'.Sane linked ∧ (w.IsDone root → ¬ error.IsBreach))
      (Action.instantiateGraph depth realm root)
      (fun _ w' => w'.Sane linked ∧ ∃ graph, w'.Installed realm graph ∧
        (w'.hasRecord root → graph root)) w := by
  by_cases present : w.hasRecord root
  · have instantiates := Action.meets_instantiateGraph_sane depth realm root sane
    have graph (x : RecordId) (path : w.Needs root x) : w.hasRecord x ∧
        ∀ module, w.record x = .custom module → module.link = .ok () := by
      have here := hasRecord_of_needs sane present path
      refine ⟨here, fun module custom => ?_⟩
      have refrains := sane.clean.records x here
      rw [custom] at refrains
      exact refrains.elim
    unfold Attempt.Meets at instantiates ⊢
    split
    · rename_i ended
      rw [ended] at instantiates
      exact ⟨instantiates, _, installed_of_instantiateGraph sane.orderly graph ended,
        fun _ => .refl⟩
    · rename_i ended
      rwa [ended] at instantiates
    · rename_i ended
      rw [ended] at instantiates
      exact instantiates.clean
  · -- a graph without a root is there already
    have absent : root ∉ w.recordIds := by rwa [mem_recordIds]
    unfold Action.instantiateGraph
    rw [Attempt.meets_bind, Attempt.meets_get, Action.instantiateFrom, if_neg absent,
      Action.instantiateFrom, Attempt.meets_pure]
    exact ⟨sane, fun _ => False, ⟨fun _ => False.elim, fun _ => False.elim, fun _ => False.elim⟩,
      fun there => absurd there present⟩

/-! ### Evaluating and requiring -/

section
variable (wary : engine.Wary linked)
include wary

theorem Wary.evaluateFrom (realm : RealmId) (root : RecordId) (sane : w.Sane linked) :
    Action.Meets (Clean linked) (engine.evaluateFrom realm root)
      (fun settlement w' => w'.Sane linked ∧ (w.IsDone root → settlement.Clears)) w := by
  unfold Engine.evaluateFrom
  rw [Action.meets_bind, Attempt.meets_run]
  refine (meets_instantiateGraph_installed engine.depth realm root sane).imp (fun _ h => h)
    (fun error w₁ h => ?_) fun _ w₁ h => ?_
  · refine ⟨h.1, fun done _ same => ?_⟩
    cases same
    exact h.2 done
  · obtain ⟨sane₁, graph, installed, member⟩ := h
    rw [Action.meets_bind]
    refine (wary.meets_walk sane₁ installed member).mono fun outcome w₂ h => ?_
    obtain ⟨sane₂, empty, clear⟩ := h
    split
    · exact ⟨sane₂, fun _ _ same => nomatch same⟩
    · exact absurd (empty _ rfl) ‹_›
    · refine ⟨sane₂, fun _ _ same => ?_⟩
      cases same
      exact clear _ rfl
    · exact ⟨sane₂, fun _ _ same => nomatch same⟩

variable (refrains : embedding.Refrains linked)
include refrains

omit wary in
theorem endsClear_link (depth : Nat) (id : RecordId) :
    (embedding.link depth id).EndsClear (Clean linked) (Sane linked) :=
  endsClear_sane (embedding.keepsClean_link refrains depth id) ((embedding.keeps_link depth id).mono
    fun _ _ links => links.changes)
    ((sustained_linkage_or_linking embedding).link depth id trivial)

omit wary in
theorem endsClear_importFor (importer : Importer) (referrer : RecordId) (specifier : String) :
    (embedding.importFor importer referrer specifier).EndsClear (Clean linked) (Sane linked) :=
  endsClear_sane (embedding.keepsClean_importFor refrains importer referrer specifier)
    ((embedding.keeps_importFor importer referrer specifier : Attempt.Keeps Edits _).mono
      fun _ _ => Edits.changes)
    ((sustained_linkage_or_linking embedding).importFor importer referrer specifier)

/-- What a module may require is linked first. -/
theorem Wary.requireFrom (realm : RealmId) (sane : w.Sane linked) (present : w.hasRecord id) :
    Attempt.Meets (Clean linked) (fun error w' => w'.Sane linked ∧ ¬ error.IsBreach)
      (requireFrom embedding engine realm id) (fun _ => Sane linked) w := by
  have idle : ¬ w.IsLinking id := fun linking =>
    List.not_mem_nil ((sane.linkage.linking id).mp linking)
  unfold Engine.requireFrom
  rw [Attempt.meets_bind]
  refine ((endsClear_link refrains engine.depth id w sane).and
    (embedding.meets_link_settled engine.depth present idle)).imp (fun _ h => h.1) (fun _ _ h => h.1)
    fun _ w₁ h => ?_
  obtain ⟨sane₁, present₁, settled₁⟩ := h
  rw [Attempt.meets_bind]
  refine ((meets_instantiateGraph_installed engine.depth realm id sane₁).and
    ((Action.keeps_instantiateGraph engine.depth realm id).meets w₁)).imp (fun _ h => h.1)
    (fun _ _ h => ⟨h.1.1, h.1.2 (.of_isSettled present₁ settled₁)⟩) fun _ w₂ h => ?_
  obtain ⟨⟨sane₂, graph, installed, member⟩, changes⟩ := h
  obtain ⟨slot, found⟩ := installed.slot id (member (Changes.extends changes |>.hasRecord present₁))
  rw [Attempt.meets_bind, Attempt.meets_lift]
  have steps : Action.Meets _ (engine.walk realm id) _ w₂ := wary.steps.meets_walk sane₂.orderly id
  refine ((wary.meets_walk sane₂ installed member).and steps).imp (fun _ h => h.1)
    fun outcome w₃ h => ?_
  obtain ⟨⟨sane₃, _, clear⟩, steps⟩ := h
  split
  · exact ⟨sane₃, clear _ rfl⟩
  · obtain ⟨slot', found', _⟩ := Steps.onward steps found
    rw [Attempt.meets_bind, Attempt.meets_discard]
    refine meets_slotOf_found found' ?_
    rw [Attempt.meets_lift]
    exact (tended_sane linked).brushed (Action.keeps_exportsValue _ realm id) w₃ sane₃

theorem Wary.requireCall (realm : RealmId) (referrer : RecordId) (arguments : List Value) :
    Action.EndsClear (Clean linked) (Sane linked)
      (requireCall embedding engine realm referrer arguments) := by
  intro w sane
  unfold Engine.requireCall
  split
  · rename_i specifier _
    rw [Action.meets_bind, Attempt.meets_run, Attempt.meets_bind]
    refine ((endsClear_importFor refrains .resolver referrer specifier w sane).and
      (embedding.answers_importFor .resolver referrer specifier w sane.named)).imp (fun _ h => h.1)
      (fun error w₁ h => ?_) fun id w₁ h => ?_
    · exact ⟨h.1.1, clears_error h.1.2⟩
    · refine (wary.requireFrom refrains realm h.1 h.2.2).imp (fun _ h => h) (fun error w₂ h => ?_)
        fun value w₂ sane₂ => ?_
      · exact ⟨h.1, clears_error h.2⟩
      · exact ⟨sane₂, clears_ok value⟩
  · exact ⟨sane, clears_error id⟩

theorem Wary.callFrom (frame : Frame) (function : FunctionRef) (arguments : List Value) :
    Action.EndsClear (Clean linked) (Sane linked)
      (callFrom embedding engine frame function arguments) := by
  intro w sane
  unfold Engine.callFrom
  rw [Action.meets_bind]
  refine (Action.meets_functionCode sane.clean function).imp (fun _ h => h.elim) fun code w' h => ?_
  obtain ⟨rfl, refrains'⟩ := h
  split
  · exact wary.runs frame (refrains' arguments) w' sane
  · exact wary.requireCall refrains frame.realm _ arguments w' sane

end

/-- However deep modules nest, evaluation comes up with no breach. -/
theorem wary_ofDepth (refrains : embedding.Refrains linked) (depth : Nat) :
    (ofDepth embedding depth).Wary linked := by
  have steps := keepsSteps_ofDepth embedding
  have sustains := (sustained_linkage_or_linking embedding).ofDepth
  induction depth with
  | zero =>
    exact ⟨steps 0, sustains 0, fun _ _ _ _ sane => sane.clean, fun _ _ _ sane => sane.clean,
      fun _ _ _ _ _ _ _ sane _ _ _ _ => sane.clean⟩
  | succ depth ih =>
    exact ⟨steps (depth + 1), sustains (depth + 1), ih.callFrom refrains,
      fun realm id _ sane => ih.evaluateFrom realm id sane,
      fun _ _ index _ _ _ _ sane walks idle installed member =>
        ih.visitFrom sane walks idle installed member index⟩

end Engine
end ModuleGraph
