import ModuleGraph.Proofs.Breaches
import ModuleGraph.Proofs.HostValues
import ModuleGraph.Proofs.Installed
import ModuleGraph.Proofs.Origins
import ModuleGraph.Proofs.LinksOnce

/-!
Instances in clean worlds. What is done with linking comes into a realm, or is refused for a reason
that is no breach; so a linked graph is instantiated as a whole without one. Where code gives up,
either a module is in the middle of linking, or all that is linked knows what it requests.
-/
namespace ModuleGraph
open World Engine Relation

/-! ### Links that give up -/

/-- A link that gives up has done nothing yet, or it leaves a module in the middle of linking. -/
theorem Embedding.isLinking_of_stuck (embedding : Embedding) (depth : Nat) (id : RecordId)
    (w : World) :
    Attempt.Meets (fun w' => w' = w ∨ ∃ x, w'.IsLinking x) (fun _ _ => True)
      (embedding.link depth id) (fun _ _ => True) w := by
  cases depth with
  | zero => exact .inl rfl
  | succ depth =>
    unfold link
    rw [Attempt.meets_bind, Attempt.meets_get]
    split
    · rename_i module found
      split
      · trivial
      · trivial
      · trivial
      · rename_i unlinked
        have begun : Links w (w.setRecord id (.static { module with status := .linking })) :=
          (refl w : Links w w).relink found unlinked (.start id module found unlinked)
        rw [Attempt.meets_bind, meets_modifyStatic found, Attempt.meets_bind, Attempt.meets_outcome]
        refine (embedding.meets_linkStatic (embedding.keeps_link depth) found unlinked begun
          (isLinking_setRecord (hasRecord_of_static found) rfl)).imp (fun _ h => .inr ⟨id, h.2⟩)
          (fun error w₁ h => ?_) fun _ w₁ h => ?_
        all_goals obtain ⟨-, module', found', -⟩ := h
        · rw [Attempt.meets_bind, meets_modifyStatic found']
          trivial
        · rw [meets_modifyStatic found']
          trivial
    · split <;> trivial
    · trivial

theorem Action.upholds_linkage_instantiate {stuck : World → Prop}
    (stop : ∀ w, w.Named ∧ w.Linkage [] → stuck w) (depth : Nat) (realm : RealmId) (id : RecordId) :
    Attempt.Upholds stuck (fun w => w.Named ∧ w.Linkage []) (instantiate depth realm id) :=
  Touched.instantiate ⟨stop, (World.sustained_linkage .bare).touches⟩
    (fun _ _ _ _ _ h => ⟨h.1.of_same rfl (fun _ => rfl) rfl, h.2.of_records rfl⟩) depth realm id

/-- Whatever is done, also where it gives up, the links are in order unless a module is in the
middle of linking. -/
theorem World.sustained_linkage_or_linking (embedding : Embedding) :
    Sustained embedding (fun w => (∃ id, w.IsLinking id) ∨ w.Named ∧ w.Linkage [])
      (fun w => w.Named ∧ w.Linkage []) := by
  have sustained := sustained_linkage embedding
  -- resolution does not give up
  have resolves {attempt : Attempt RecordId} (answers : Embedding.Answers attempt)
      (upholds : Attempt.Upholds (fun _ => True) (fun w => w.Named ∧ w.Linkage []) attempt) :
      Attempt.Upholds (fun w => (∃ id, w.IsLinking id) ∨ w.Named ∧ w.Linkage [])
        (fun w => w.Named ∧ w.Linkage []) attempt :=
    .of_meets fun w h => ((answers w h.1).and (upholds.meets h)).imp (fun _ h => h.1.elim)
      (fun _ _ h => h.2) fun _ _ h => h.2
  exact {
    stop := fun _ => .inr
    strokes := sustained.strokes
    within := sustained.within
    located := sustained.located
    host := fun specifier isHost =>
      resolves (embedding.answers_resolveHost specifier) (sustained.host specifier isHost)
    location := fun location specifier within =>
      resolves ((Embedding.Discovers.loads location specifier).answers _)
        (sustained.location location specifier within)
    loaded := fun location source within =>
      resolves ((Embedding.Discovers.holds location source).answers _)
        (sustained.loaded location source within)
    link := fun depth id linkable => .of_meets fun w h => by
      refine (((sustained.link depth id linkable).meets h).and
        (embedding.isLinking_of_stuck depth id w)).imp (fun w' stuck => ?_) (fun _ _ h => h.1)
        fun _ _ h => h.1
      rcases stuck.2 with rfl | linking
      · exact .inr h
      · exact .inl linking
    found := sustained.found
    instantiate := Action.upholds_linkage_instantiate fun _ => .inr
    touches := sustained.touches
    moves := sustained.moves }

/-- A record exists and is done with linking, if it has to link at all. -/
def World.IsDone (w : World) (id : RecordId) : Prop :=
  w.hasRecord id ∧ ∀ module, w.record id = .static module →
    module.status = .linked ∨ ∃ error, module.status = .failed error

theorem World.IsDone.of_isSettled {w : World} {id : RecordId} (present : w.hasRecord id)
    (settled : (w.record id).IsSettled) : w.IsDone id := by
  refine ⟨present, fun module found => ?_⟩
  rw [found] at settled
  exact .inl settled

theorem World.IsDone.instantiates {w w' : World} {id : RecordId} (done : w.IsDone id)
    (instantiates : Instantiates w w') : w'.IsDone id := by
  refine ⟨instantiates.changes.extends.hasRecord done.1, fun module found => ?_⟩
  obtain ⟨module', before⟩ := instantiates.changes.other done.1 found
  cases found.symm.trans (instantiates.static id module' before)
  exact done.2 module before

/-! ### Code that runs apart -/

namespace Action
variable {linked : RecordId → Prop} {w : World}

/-- A function of a clean world refrains breaches. -/
theorem meets_functionCode (clean : w.Clean linked) (ref : FunctionRef) :
    Action.Meets (fun _ => False) (functionCode ref) (fun code w' => w' = w ∧ code.Refrains linked)
      w := by
  unfold functionCode
  rw [meets_bind, meets_get]
  split
  · rename_i code found
    exact ⟨rfl, clean.functions _ code (Array.mem_of_getElem? found)⟩
  · exact ⟨rfl, fun _ => clears_ok _⟩

theorem endsClear_apart {depth : Nat} {frame : Frame} {script : Script}
    (refrains : script.Refrains linked) (call : ∀ function arguments,
      EndsClear (Clean linked) (Clean linked) (callApart depth frame function arguments)) :
    EndsClear (Clean linked) (Clean linked) (script.run (apart depth) frame) := by
  refine Script.endsClear_run (tended_clean linked) call ?evaluate (fun environment name =>
    (tended_clean linked).brushed (keeps_readEnvironment depth environment name)) refrains
  case evaluate => exact fun _ _ clean => clean

theorem endsClear_callApart (depth : Nat) (frame : Frame) (function : FunctionRef)
    (arguments : List Value) :
    EndsClear (Clean linked) (Clean linked) (callApart depth frame function arguments) := by
  induction depth generalizing frame function arguments with
  | zero => exact fun _ clean => clean
  | succ depth ih =>
    intro w clean
    unfold callApart
    rw [meets_bind]
    refine (meets_functionCode clean function).imp (fun _ h => h.elim) fun code w' h => ?_
    obtain ⟨rfl, refrains⟩ := h
    split
    · exact endsClear_apart (refrains arguments) (ih frame) w' clean
    · exact clean

theorem endsClear_runApart (depth : Nat) (realm : RealmId) (global : ObjectRef) {script : Script}
    (refrains : script.Refrains linked) :
    EndsClear (Clean linked) (Clean linked) (runApart depth realm global script) :=
  endsClear_apart refrains (endsClear_callApart depth _)

theorem upholds_valueApart (depth : Nat) (realm : RealmId) (global : ObjectRef) {script : Script}
    (refrains : script.Refrains linked) :
    Upholds (Clean linked) (Clean linked) (valueApart depth realm global script) := by
  intro w clean
  rw [valueApart, meets_bind]
  refine (endsClear_runApart depth realm global refrains w clean).mono fun outcome w' h => ?_
  split <;> exact h.1

theorem upholds_namedValues (depth : Nat) (realm : RealmId) (global : ObjectRef)
    {scripts : List (String × Script)} (spare : ∀ entry ∈ scripts, entry.2.Refrains linked) :
    Upholds (Clean linked) (Clean linked) (namedValues depth realm global scripts) := by
  induction scripts with
  | nil => exact .pure _
  | cons entry rest ih =>
    obtain ⟨here, later⟩ := List.forall_mem_cons.mp spare
    exact .bind (upholds_valueApart depth realm global here) fun _ => .bind (ih later) fun _ =>
      .pure _

/-! ### New instances -/

theorem upholds_nativeInstance (depth : Nat) (realm : RealmId) (id : RecordId) (name : String)
    {exports : NativeExports} (refrains : (HostModule.native exports).Refrains linked) :
    Upholds (Clean linked) (Clean linked) (nativeInstance depth realm id name exports) := by
  have brushed {α : Type} {action : Action α} (keeps : Keeps Brushes action) :
      Upholds (Clean linked) (Clean linked) action := (tended_clean linked).brushed keeps
  refine .bind .get fun world => .bind (brushed (keeps_write rfl)) fun _ =>
    .bind (brushed (keeps_globalFor _ _)) fun global => .bind ?named fun named =>
    .bind ?declared fun declared => .bind (brushed (keeps_publishNames depth id _)) fun _ =>
    ?content
  case named =>
    cases scripts : exports.named with
    | some entries =>
      exact .map (.map (upholds_namedValues depth realm global (refrains.1 entries scripts)) _) _
    | none => exact .pure _
  case declared =>
    cases script : exports.default with
    | some default => exact .map (upholds_valueApart depth realm global (refrains.2 default script)) _
    | none => exact .pure _
  case content =>
    split
    · exact .pure _
    · exact .bind (brushed (keeps_newObject _ _)) fun _ => .pure _

theorem endsClear_legacyInstance (depth : Nat) (realm : RealmId) (id : RecordId) (name : String)
    (workplace : Workplace) {script : Script} (refrains : script.Refrains linked) :
    Attempt.EndsClear (Clean linked) (Clean linked)
      (legacyInstance depth realm id name workplace script) := by
  refine .bind (.lift ((tended_clean linked).brushed (keeps_globalFor _ _))) fun global =>
    .bind (.lift (upholds_valueApart depth realm global refrains)) fun value => ?_
  split
  · exact .throw (not_isBreach_projected name ‹_›)
  · exact .bind .get fun _ =>
      .bind (.lift ((tended_clean linked).brushed (keeps_publishNames depth id _))) fun _ =>
      .pure _

/-- A script that builds a value raises nothing. -/
theorem refrains_ofJson (linked : RecordId → Prop) (document : Json) :
    (Script.ofJson document .give).Refrains linked :=
  (Script.build_induct fun _ _ later ref => later ref).1 document _ fun _ => clears_ok _

theorem endsClear_newInstance (depth : Nat) (realm : RealmId) (id : RecordId)
    (clean : w.Clean linked) (present : w.hasRecord id) (linkage : w.Linkage [])
    (safe : Prop) (done : safe → w.IsDone id) :
    Attempt.Meets (Clean linked) (fun error w' => w'.Clean linked ∧ (safe → ¬ error.IsBreach))
      (newInstance depth realm id) (fun _ => Clean linked) w := by
  have refrains := clean.records id present
  unfold newInstance
  rw [Attempt.meets_bind, Attempt.meets_get]
  split
  · rename_i module found
    rw [found] at refrains
    split
    · exact ⟨clean, fun _ => refrains.2 _ ‹_›⟩
    · rename_i status
      obtain ⟨imports, built⟩ := exists_importsOf (linkage.linked id module found status).asked
      rw [built]
      exact clean
    · rename_i unfinished unlinked
      refine ⟨clean, fun isSafe => ?_⟩
      rcases (done isSafe).2 module found with status | ⟨error, status⟩
      · exact absurd status unlinked
      · exact absurd status (unfinished error)
  · exact clean
  · rename_i module found
    rw [found] at refrains
    have refrains : module.content.Refrains linked := refrains
    have clear {attempt : Attempt Instance}
        (ends : attempt.EndsClear (Clean linked) (Clean linked)) :
        Attempt.Meets (Clean linked) (fun error w' => w'.Clean linked ∧ (safe → ¬ error.IsBreach))
          attempt (fun _ => Clean linked) w :=
      (ends w clean).imp (fun _ h => h) (fun _ _ h => ⟨h.1, fun _ => h.2⟩) fun _ _ h => h
    split
    · rename_i exports content
      rw [content] at refrains
      exact clear (.lift (upholds_nativeInstance depth realm id _ refrains))
    · exact clear (endsClear_legacyInstance depth realm id _ _ (refrains_ofJson linked _))
    · rename_i script workplace content
      rw [content] at refrains
      exact clear (endsClear_legacyInstance depth realm id _ workplace refrains)
  · rename_i found
    rw [found] at refrains
    exact refrains.elim

theorem endsClear_instantiate (depth : Nat) (realm : RealmId) (id : RecordId)
    (clean : w.Clean linked) (linkage : w.Linkage []) (safe : Prop) (done : safe → w.IsDone id) :
    Attempt.Meets (Clean linked) (fun error w' => w'.Clean linked ∧ (safe → ¬ error.IsBreach))
      (instantiate depth realm id) (fun _ => Clean linked) w := by
  unfold instantiate
  rw [Attempt.meets_bind, Attempt.meets_get]
  split
  · exact clean
  · split
    · rename_i present
      rw [Attempt.meets_bind]
      exact (endsClear_newInstance depth realm id clean present linkage safe done).mono
        fun content _ clean => clean.addInstance realm id content
    · exact ⟨clean, fun _ => not_isBreach_defect _ (by decide) (by decide)⟩

end Action

/-! ### Sane worlds -/

namespace World
variable {linked : RecordId → Prop} {w w' : World} {realm : RealmId} {id root : RecordId}

/-- The modules of all realms are in order, no module is in the middle of linking, no code raises a
breach, and all that bodies may evaluate was linked. -/
structure Sane (linked : RecordId → Prop) (w : World) : Prop where
  orderly : w.Orderly
  named : w.Named
  linkage : w.Linkage []
  clean : w.Clean linked
  ready : ∀ id, linked id → w.hasRecord id ∧ (w.record id).IsSettled

namespace Sane

theorem steps (sane : w.Sane linked) (steps : Steps w w') (linkage : w'.Named ∧ w'.Linkage [])
    (clean : w'.Clean linked) : w'.Sane linked where
  orderly := steps.orderly sane.orderly
  named := linkage.1
  linkage := linkage.2
  clean := clean
  ready id member := by
    obtain ⟨present, settled⟩ := sane.ready id member
    have extend := steps.extends sane.orderly
    exact ⟨extend.hasRecord present, extend.isSettled id present settled⟩

theorem touches (sane : w.Sane linked) (touches : Touches w w') (clean : w'.Clean linked) :
    w'.Sane linked :=
  sane.steps (Changes.steps touches.edits.changes)
    ⟨sane.named.touches touches, sane.linkage.edits touches.edits⟩ clean

theorem moves (sane : w.Sane linked) (steps : Steps w w') (moves : Moves w w')
    (clean : w'.Clean linked) : w'.Sane linked :=
  sane.steps steps ((sustained_linkage .bare).moves _ _ moves ⟨sane.named, sane.linkage⟩) clean

theorem modifyInstance (sane : w.Sane linked) (realm : RealmId) (index : Nat)
    (change : Instance → Instance) :
    (w.modifyRealm realm (·.modifyInstance index change)).Sane linked := by
  have moves : Moves w (w.modifyRealm realm (·.modifyInstance index change)) :=
    .rearranged w realm fun _ => rfl
  have linkage := (sustained_linkage .bare).moves _ _ moves ⟨sane.named, sane.linkage⟩
  exact {
    orderly := sane.orderly.still (.modifyInstance w realm index change)
    named := linkage.1
    linkage := linkage.2
    clean := sane.clean.rearranged realm (fun _ => rfl) fun _ => rfl
    ready := sane.ready }

theorem isDone (sane : w.Sane linked) (member : linked id) : w.IsDone id :=
  .of_isSettled (sane.ready id member).1 (sane.ready id member).2

/-- A record in a realm requests only what exists and is done with linking. -/
theorem isDone_of_requested (sane : w.Sane linked) {slot : Slot}
    (found : (w.realm realm).slot? id = some slot) {r : RecordId}
    (requested : r ∈ (w.record id).requested) : w.IsDone r := by
  obtain ⟨present, settled⟩ := (sane.orderly realm).settled id slot found
  have refrains := sane.clean.records id present
  cases record : w.record id with
  | static module =>
    rw [record] at settled requested
    refine ⟨sane.linkage.present id module record r requested, fun other found' => ?_⟩
    rcases sane.linkage.linked_or_failed ⟨module, record, settled⟩ ⟨module, record, requested⟩
      (kind_eq_static.mpr ⟨other, found'⟩) with
      ⟨_, same, status⟩ | ⟨⟨_, error, same, status⟩, -⟩ <;> cases found'.symm.trans same
    · exact .inl status
    · exact .inr ⟨error, status⟩
  | custom module =>
    rw [record] at refrains
    exact refrains.elim
  | _ =>
    rw [record] at requested
    exact absurd requested List.not_mem_nil

end Sane

theorem tended_sane (linked : RecordId → Prop) :
    Tended linked (Clean linked) (Sane linked) where
  stop _ sane := sane.clean
  brush _ _ brush sane := sane.touches (.single brush.touch) (sane.clean.brush brush)
  function _ realm code refrains sane :=
    sane.touches (.single (.pushFunction realm code)) (sane.clean.pushFunction realm refrains)
  lock _ sane := sane.touches (.single .lock) ((tended_clean linked).lock _ sane.clean)

end World

namespace Action
variable {linked : RecordId → Prop} {w : World}

theorem meets_instantiate_sane (depth : Nat) (realm : RealmId) (id : RecordId)
    (sane : w.Sane linked) (safe : Prop) (done : safe → w.IsDone id) :
    Attempt.Meets (Sane linked) (fun error w' => w'.Sane linked ∧ (safe → ¬ error.IsBreach))
      (instantiate depth realm id) (fun _ w' => w'.Sane linked ∧ World.Instantiates w w' ∧
        ∃ slot, (w'.realm realm).slot? id = some slot) w := by
  have linkage := (upholds_linkage_instantiate (fun _ h => h) depth realm id).meets
    ⟨sane.named, sane.linkage⟩
  have clear := endsClear_instantiate depth realm id sane.clean sane.linkage safe done
  refine ((((instantiates_instantiate depth realm id).meets w).and linkage).and (clear.and
    (meets_instantiate_slot depth realm id w))).imp (fun w' h => ?_) (fun _ w' h => ?_)
    fun _ w' h => ?_
  all_goals obtain ⟨⟨instantiates, linkage⟩, clear, found⟩ := h
  · exact sane.steps (.of_instantiates instantiates) linkage clear
  · exact ⟨sane.steps (.of_instantiates instantiates) linkage clear.1, clear.2⟩
  · exact ⟨sane.steps (.of_instantiates instantiates) linkage clear, instantiates, found⟩

/-- To instantiate what was linked, with all that it requests, is refused for no breach. -/
theorem meets_instantiateFrom_sane (depth : Nat) (realm : RealmId)
    (unvisited pending : List RecordId) (sane : w.Sane linked) (safe : Prop)
    (done : safe → ∀ x ∈ pending, w.IsDone x) :
    Attempt.Meets (Sane linked) (fun error w' => w'.Sane linked ∧ (safe → ¬ error.IsBreach))
      (instantiateFrom depth realm unvisited pending) (fun _ => Sane linked) w := by
  induction unvisited, pending using instantiateFrom.induct generalizing w with
  | case1 unvisited =>
    rw [instantiateFrom]
    exact sane
  | case2 unvisited id rest unvisitedYet ih =>
    rw [instantiateFrom, if_pos unvisitedYet, Attempt.meets_bind]
    refine (meets_instantiate_sane depth realm id sane safe fun isSafe =>
      done isSafe id List.mem_cons_self).mono fun _ w₁ h => ?_
    obtain ⟨sane₁, instantiates, slot, found⟩ := h
    rw [Attempt.meets_bind, Attempt.meets_get]
    refine ih w₁ sane₁ fun isSafe x member => ?_
    rcases List.mem_append.mp member with member | member
    · exact sane₁.isDone_of_requested found (List.mem_reverse.mp member)
    · exact (done isSafe x (List.mem_cons_of_mem id member)).instantiates instantiates
  | case3 unvisited id rest visited ih =>
    rw [instantiateFrom, if_neg visited]
    exact ih sane fun isSafe x member => done isSafe x (List.mem_cons_of_mem id member)

theorem meets_instantiateGraph_sane (depth : Nat) (realm : RealmId) (root : RecordId)
    (sane : w.Sane linked) :
    Attempt.Meets (Sane linked)
      (fun error w' => w'.Sane linked ∧ (w.IsDone root → ¬ error.IsBreach))
      (instantiateGraph depth realm root) (fun _ => Sane linked) w := by
  unfold instantiateGraph
  rw [Attempt.meets_bind, Attempt.meets_get]
  exact meets_instantiateFrom_sane depth realm _ _ sane _ (by simp)

end Action

end ModuleGraph
