import ModuleGraph.Proofs.LinkedGraphs

/-!
Linking step by step. Whatever resolution answers meanwhile, each step of linking only adds to what
is recorded, and a module records its requests once. So an import that was checked stays provided in
every state to come, also where the check saw a graph that was recorded in part, and where a module
fails afterwards.
-/
namespace ModuleGraph
open Relation World

namespace World
variable {w₀ w w' : World} {id s : RecordId} {module : StaticModule} {status : LinkStatus}
  {requested : List (String × RecordId)}

/-- A step while modules link. Resolution may edit the world at any time; a module that was unlinked
begins; one that links records what it was answered, fails for whatever reason, or is linked when it
has recorded its requests and its imports pass the check. -/
inductive LinkStep (w : World) : World → Prop
  | edit {w' : World} (edit : Edit w w') : LinkStep w w'
  | start (id : RecordId) (module : StaticModule) (found : w.record id = .static module)
      (unlinked : module.status = .unlinked) :
      LinkStep w (w.setRecord id (.static { module with status := .linking }))
  | ask (id : RecordId) (module : StaticModule) (found : w.record id = .static module)
      (linking : module.status = .linking) (nothing : module.requested = [])
      (requested : List (String × RecordId))
      (asked : requested.map Prod.fst = module.declarations.requestedSpecifiers)
      (present : ∀ r ∈ requested.map Prod.snd, w.hasRecord r) :
      LinkStep w (w.setRecord id (.static { module with requested }))
  | fail (id : RecordId) (module : StaticModule) (found : w.record id = .static module)
      (linking : module.status = .linking) (error : ModuleError) :
      LinkStep w (w.setRecord id (.static { module with status := .failed error }))
  | finish (id : RecordId) (module : StaticModule) (found : w.record id = .static module)
      (linking : module.status = .linking)
      (asked : module.requested.map Prod.fst = module.declarations.requestedSpecifiers)
      (passed : Embedding.checkImports w module.requested module.declarations.imports = .ok ()) :
      LinkStep w (w.setRecord id (.static { module with status := .linked }))

/-- Any number of steps. -/
abbrev LinkSteps : World → World → Prop := ReflTransGen LinkStep

theorem Edits.linkSteps (edits : Edits w w') : LinkSteps w w' :=
  ReflTransGen.mono (fun _ _ => LinkStep.edit) _ _ edits

/-! ### What every step keeps -/

/-- What is requested exists, unlinked modules have recorded nothing, and a linked module has
recorded all that it requests and is provided with all that it imports. -/
structure Justified (w : World) : Prop where
  present : ∀ id module, w.record id = .static module →
    ∀ r ∈ module.requested.map Prod.snd, w.hasRecord r
  unlinked : ∀ id module, w.record id = .static module → module.status = .unlinked →
    module.requested = []
  asked : ∀ id module, w.record id = .static module → module.status = .linked →
    module.requested.map Prod.fst = module.declarations.requestedSpecifiers
  provided : ∀ id module, w.record id = .static module → module.status = .linked →
    ∀ target name, w.Imported module.requested module.declarations.imports target name →
      w.Provides name target

theorem Unlinked.justified (h : w.Unlinked) : w.Justified where
  present id module found := by simp [(h id module found).2]
  unlinked id module found _ := (h id module found).2
  asked id module found linked := by simp [(h id module found).1] at linked
  provided id module found linked := by simp [(h id module found).1] at linked

namespace Justified

theorem recorded_of_edit (h : w.Justified) (edit : Edit w w') : Recorded w w' :=
  (Edits.links (.single edit)).recorded h.unlinked

theorem edit (h : w.Justified) (edit : Edit w w') : w'.Justified := by
  have recorded := h.recorded_of_edit edit
  refine ⟨fun x module found r member => ?_, fun x module found unlinked => ?_,
    fun x module found linked => ?_, fun x module found linked target name imported => ?_⟩
  all_goals rcases edit.static_cases found with before | ⟨_, isNew, nothing⟩
  · exact recorded.hasRecord r (h.present x module before r member)
  · simp [nothing] at member
  · exact h.unlinked x module before unlinked
  · exact nothing
  · exact h.asked x module before linked
  · simp [isNew] at linked
  · exact recorded.provided h.present (h.present x module before) (h.provided x module before linked)
      imported
  · simp [isNew] at linked

/-- A static module that is not linked yet goes on: it has requests if it had none, and is linked
only if all that it imports is provided. -/
theorem setRecord (h : w.Justified) (found : w.record id = .static module)
    (grown : module.requested = [] ∨ requested = module.requested) (begun : status ≠ .unlinked)
    (present : ∀ r ∈ requested.map Prod.snd, w.hasRecord r)
    (linked : status = .linked →
      requested.map Prod.fst = module.declarations.requestedSpecifiers ∧
      ∀ target name, w.Imported requested module.declarations.imports target name →
        w.Provides name target) :
    (w.setRecord id (.static { module with status, requested })).Justified := by
  have recorded := recorded_setRecord found status grown
  have here := record_setRecord_same found (.static { module with status, requested })
  refine ⟨fun x other after r member => ?_, fun x other after unlinked => ?_,
    fun x other after isLinked => ?_, fun x other after isLinked target name imported => ?_⟩
  all_goals by_cases same : x = id
  · subst same
    cases here.symm.trans after
    exact recorded.hasRecord r (present r member)
  · rw [record_setRecord_other same] at after
    exact recorded.hasRecord r (h.present x other after r member)
  · subst same
    cases here.symm.trans after
    exact absurd unlinked begun
  · rw [record_setRecord_other same] at after
    exact h.unlinked x other after unlinked
  · subst same
    cases here.symm.trans after
    exact (linked isLinked).1
  · rw [record_setRecord_other same] at after
    exact h.asked x other after isLinked
  · subst same
    cases here.symm.trans after
    exact recorded.provided h.present present (linked isLinked).2 imported
  · rw [record_setRecord_other same] at after
    exact recorded.provided h.present (h.present x other after) (h.provided x other after isLinked)
      imported

end Justified

namespace LinkStep

theorem justified (step : LinkStep w w') (h : w.Justified) : w'.Justified := by
  cases step with
  | edit edit => exact h.edit edit
  | start id module found =>
    exact h.setRecord found (.inr rfl) (by simp) (h.present id module found) (by simp)
  | ask id module found linking nothing requested asked present =>
    exact h.setRecord found (.inl nothing) (by simp [linking]) present (by simp [linking])
  | fail id module found linking error =>
    exact h.setRecord found (.inr rfl) (by simp) (h.present id module found) (by simp)
  | finish id module found linking asked passed =>
    refine h.setRecord found (.inr rfl) (by simp) (h.present id module found) fun _ => ⟨asked, ?_⟩
    have judged := Embedding.judged_checkImports w module.requested module.declarations.imports
    rw [passed] at judged
    cases judged with
    | passes provided => exact provided

/-- A linked module stays as it is. -/
theorem static_of_linked (step : LinkStep w w') (found : w.record s = .static module)
    (linked : module.status = .linked) : w'.record s = .static module := by
  have elsewhere {id : RecordId} {other : StaticModule} (found' : w.record id = .static other)
      (notLinked : other.status ≠ .linked) (record : Record) :
      (w.setRecord id record).record s = .static module := by
    rw [record_setRecord_other ?_, found]
    rintro rfl
    cases found.symm.trans found'
    exact notLinked linked
  cases step with
  | edit edit => exact edit.static found
  | start id other found' unlinked => exact elsewhere found' (by simp [unlinked]) _
  | ask id other found' linking | fail id other found' linking | finish id other found' linking =>
    exact elsewhere found' (by simp [linking]) _

end LinkStep

namespace LinkSteps

theorem justified (steps : LinkSteps w w') (h : w.Justified) : w'.Justified := by
  induction steps with
  | refl => exact h
  | tail _ step ih => exact step.justified ih

theorem static_of_linked (steps : LinkSteps w w') (found : w.record s = .static module)
    (linked : module.status = .linked) : w'.record s = .static module := by
  induction steps with
  | refl => exact found
  | tail _ step ih => exact step.static_of_linked ih linked

end LinkSteps
end World

/-! ### Links go by steps -/

namespace Embedding
variable {embedding : Embedding} {w₀ w : World} {id : RecordId} {module : StaticModule}

/-- What holds in the middle of links: they came by steps, and what resolution may answer exists. -/
def CameBySteps (w₀ w : World) : Prop := LinkSteps w₀ w ∧ w.Named

theorem CameBySteps.edits (h : CameBySteps w₀ w) {w' : World} (edits : Edits w w')
    (named : w'.Named) : CameBySteps w₀ w' :=
  ⟨h.1.trans edits.linkSteps, named⟩

theorem CameBySteps.setRecord (h : CameBySteps w₀ w) {record : Record}
    (step : LinkStep w (w.setRecord id record)) : CameBySteps w₀ (w.setRecord id record) :=
  ⟨h.1.tail step, h.2.setRecord id record⟩

/-- A module that has begun to link goes by steps to where it has passed its check, or fails. -/
theorem meets_linkStatic_steps {link : RecordId → Attempt Unit}
    (upholds : ∀ id, Attempt.Upholds (LinkSteps w₀) (CameBySteps w₀) (link id))
    (links : ∀ id, Attempt.Keeps World.Links (link id)) (h : CameBySteps w₀ w)
    (found : w.record id = .static module) (linking : module.status = .linking)
    (nothing : module.requested = []) :
    Attempt.Meets (LinkSteps w₀)
      (fun _ w' => CameBySteps w₀ w' ∧
        ∃ requested, w'.record id = .static { module with requested })
      (embedding.linkStatic link id module)
      (fun _ w' => CameBySteps w₀ w' ∧ ∃ requested,
        w'.record id = .static { module with requested } ∧
        requested.map Prod.fst = module.declarations.requestedSpecifiers ∧
        checkImports w' requested module.declarations.imports = .ok ()) w := by
  unfold linkStatic
  rw [Attempt.meets_bind]
  refine ((embedding.meets_importAll module.importer id _ h.2).and
    ((embedding.keeps_importAll module.importer id _).meets w)).imp (fun _ h => h.1.elim)
    (fun error w₁ h₁ => ?_) fun requested w₁ h₁ => ?_
  · obtain ⟨named, edits⟩ := h₁
    exact ⟨h.edits edits named, module.requested, edits.static found⟩
  obtain ⟨⟨named, asked, present⟩, edits⟩ := h₁
  have found₁ := edits.static found
  have h₂ := (h.edits edits named).setRecord
    (.ask id module found₁ linking nothing requested asked present)
  have found₂ := record_setRecord_same found₁ (.static { module with requested })
  rw [Attempt.meets_bind, meets_modifyStatic found₁, Attempt.meets_bind]
  refine (((upholds_linkAll upholds _).meets h₂).and ((keeps_linkAll links _).meets _)).imp
    (fun _ h => h.1) (fun error w₃ h₃ => ?_) fun _ w₃ h₃ => ?_
  all_goals have found₃ := h₃.2.begun id _ found₂ (by simp [linking])
  · exact ⟨h₃.1, requested, found₃⟩
  rw [Attempt.meets_bind, Attempt.meets_get]
  split
  · rename_i passed
    exact ⟨h₃.1, requested, found₃, asked, passed⟩
  · exact ⟨h₃.1, requested, found₃⟩

/-- Linking a record goes by steps, also when it fails or gives up. -/
theorem upholds_link_steps (embedding : Embedding) (justified : w₀.Justified) (depth : Nat)
    (id : RecordId) : Attempt.Upholds (LinkSteps w₀) (CameBySteps w₀) (embedding.link depth id) := by
  induction depth generalizing id with
  | zero => exact .of_meets fun w h => h.1
  | succ depth ih =>
    refine .of_meets fun w h => ?_
    unfold link
    rw [Attempt.meets_bind, Attempt.meets_get]
    split
    · rename_i module found
      split
      · exact h
      · exact h
      · exact h
      · rename_i unlinked
        have nothing := (h.1.justified justified).unlinked id module found unlinked
        have linkStatic : Attempt.Meets _ _
            (embedding.linkStatic (embedding.link depth) id { module with status := .linking }) _ _ :=
          meets_linkStatic_steps ih (embedding.keeps_link depth)
            (h.setRecord (.start id module found unlinked)) (record_setRecord_same found _) rfl nothing
        rw [Attempt.meets_bind, meets_modifyStatic found, Attempt.meets_bind, Attempt.meets_outcome]
        refine linkStatic.imp (fun _ h => h) (fun error w₁ h₁ => ?_) fun _ w₁ h₁ => ?_
        · obtain ⟨h₁, requested, found₁⟩ := h₁
          rw [Attempt.meets_bind, meets_modifyStatic found₁]
          exact h₁.setRecord (.fail id _ found₁ rfl error)
        · obtain ⟨h₁, requested, found₁, asked, passed⟩ := h₁
          rw [meets_modifyStatic found₁]
          exact h₁.setRecord (.finish id _ found₁ rfl asked passed)
    · split <;> exact h
    · exact h

end Embedding

/-- Any sequence of links goes by steps. -/
theorem Setup.upholds_links_steps (embedding : Embedding) {w₀ : World} (justified : w₀.Justified)
    (depth : Nat) (ids : List RecordId) :
    Action.Upholds (LinkSteps w₀) (Embedding.CameBySteps w₀)
      ((Setup.ofDepth embedding depth).run (ids.map .link)) := by
  induction ids with
  | nil => exact .pure _
  | cons id rest ih =>
    refine .bind (.map (?_ : Attempt.Upholds _ _ ((Setup.ofDepth embedding depth).link id)) _)
      fun _ => ih
    rw [Setup.link, Setup.ofDepth, Engine.depth_ofDepth]
    exact embedding.upholds_link_steps justified depth id

/-- A run of links that is continued goes by steps from where it was. -/
theorem Setup.linkSteps_after_append {embedding : Embedding} {w₀ : World} (named : w₀.Named)
    (justified : w₀.Justified) (depth : Nat) (ids more : List RecordId) :
    LinkSteps (((Setup.ofDepth embedding depth).run (ids.map .link)).after w₀)
      (((Setup.ofDepth embedding depth).run ((ids ++ more).map .link)).after w₀) := by
  have begun := Setup.upholds_links_steps embedding justified depth ids w₀ ⟨.refl, named⟩
  unfold Action.Meets at begun
  rw [List.map_append, Setup.run_append]
  unfold Action.after
  rw [Action.run_bind]
  rcases ran : (Setup.ofDepth embedding depth).run (ids.map .link) w₀ with ⟨_, w⟩ | ⟨_, w⟩
  · rw [ran] at begun
    have later := Setup.upholds_links_steps embedding (begun.1.justified justified) depth more w
      ⟨.refl, begun.2⟩
    exact (later.mono fun _ _ h => h.1).after
  · exact .refl

/-- Any sequence of links takes a graph of unlinked modules along steps of linking, wherever it
comes to: from where it begins, in any state that such steps lead to and that resolution knows the
records of, and from where a part of it is done to where it has gone on. In every state that such
steps lead to, a linked module has recorded all that it requests; and in that state and in every
later one, each static module that it imports a name from has a binding for this name. -/
theorem linked_imports_stay_provided (w₀ : World) (named : w₀.Named) (unlinked : w₀.Unlinked) :
    (∀ (embedding : Embedding) (depth : Nat) (ids : List RecordId) (w : World), LinkSteps w₀ w →
      w.Named → Action.Meets (LinkSteps w) ((Setup.ofDepth embedding depth).run (ids.map .link))
        (fun _ => LinkSteps w) w) ∧
    (∀ (embedding : Embedding) (depth : Nat) (ids more : List RecordId),
      LinkSteps (((Setup.ofDepth embedding depth).run (ids.map .link)).after w₀)
        (((Setup.ofDepth embedding depth).run ((ids ++ more).map .link)).after w₀)) ∧
    ∀ (w w' : World) (s : RecordId) (module : StaticModule), LinkSteps w₀ w →
      w.record s = .static module → module.status = .linked → LinkSteps w w' →
      w'.record s = .static module ∧
      module.requested.map Prod.fst = module.declarations.requestedSpecifiers ∧
      ∀ target name, w'.Imported module.requested module.declarations.imports target name →
        (w'.resolveExport target name).isSome := by
  have justified := unlinked.justified
  refine ⟨fun embedding depth ids w before named => ?_,
    fun _ depth ids more => Setup.linkSteps_after_append named justified depth ids more,
    fun w w' s module before found linked after => ?_⟩
  · exact (Setup.upholds_links_steps embedding (before.justified justified) depth ids w
      ⟨.refl, named⟩).mono fun _ _ h => h.1
  · have found' := after.static_of_linked found linked
    have justified' := LinkSteps.justified (before.trans after) justified
    refine ⟨found', justified'.asked s module found' linked, fun target name imported => ?_⟩
    exact (resolveExport_isSome w' target name).mpr
      (justified'.provided s module found' linked target name imported)

/-- Two modules on a cycle: `a` exports a `y` and imports a name that `b` lacks; `b` imports the
`y`. -/
def halfProvided : World :=
  tablePair (tableModule 'a' [⟨"b", [.named "x" none]⟩] [.named "y" none])
    (tableModule 'b' [⟨"a", [.named "y" none]⟩])

theorem named_halfProvided : halfProvided.Named := named_tablePair _ _

theorem unlinked_halfProvided : halfProvided.Unlinked := unlinked_of_all _ (by cbv)

/-- The import of `b` was checked while `a` linked, and stays provided when `a` has failed. -/
theorem import_from_failed_in_halfProvided :
    ∃ w, (Setup.ofDepth .bare 3).run ([⟨0⟩].map .link) halfProvided = .ok () w ∧
      w.IsLinked ⟨1⟩ ∧ w.LinkFailed ⟨0⟩ ∧ (w.resolveExport ⟨0⟩ "y").isSome := by
  have computed : ((Setup.ofDepth .bare 3).run ([⟨0⟩].map .link)).ends halfProvided (fun _ w =>
      (w.record ⟨1⟩).static?.any (fun module => module.status = .linked &&
        module.requested = [("a", ⟨0⟩)] &&
        module.declarations.imports = [⟨"a", [.named "y" none]⟩]) &&
      (w.record ⟨0⟩).static?.any fun module => module.status matches .failed _) = true := by
    cbv
  obtain ⟨_, w, ran, computed⟩ := Action.exists_of_ends computed
  simp only [Bool.and_eq_true, Option.any_eq_true, decide_eq_true_eq, static?_eq_some] at computed
  obtain ⟨⟨b, foundB, ⟨linked, requested⟩, imports⟩, a, foundA, failed⟩ := computed
  obtain ⟨steps, -, provided⟩ :=
    linked_imports_stay_provided halfProvided named_halfProvided unlinked_halfProvided
  have reached := steps .bare 3 [⟨0⟩] halfProvided .refl named_halfProvided
  rw [Action.Meets, ran] at reached
  refine ⟨w, ran, ⟨b, foundB, linked⟩, ?_, ?_⟩
  · cases status : a.status with
    | failed error => exact ⟨a, error, foundA, status⟩
    | _ => simp [status] at failed
  · refine (provided w w ⟨1⟩ b reached foundB linked .refl).2.2 ⟨0⟩ "y" ?_
    rw [requested, imports]
    exact ⟨⟨"a", [.named "y" none]⟩, List.mem_singleton_self _, rfl,
      kind_eq_static.mpr ⟨a, foundA⟩, by simp [Embedding.importedName?]⟩

end ModuleGraph
