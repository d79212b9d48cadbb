import ModuleGraph.Proofs.LinkedGraphs
import ModuleGraph.Proofs.Sustained

/-!
Linking happens once. A static module asks for what it requests when it begins to link, so it never
asks twice; and once it is linked or has failed, all later links answer what the first one did.
-/
namespace ModuleGraph
open Relation World Engine

/-- The question that an event is, if a static module asks there for something that it imports. -/
def Event.question? : Event → Option (RecordId × String)
  | .asked id specifier => some (id, specifier)
  | _ => none

theorem nodup_distinct (items : List String) : (distinct items).Nodup := by
  suffices all : ∀ seen : List String, seen.Nodup → (items.foldl
      (fun seen item => if seen.contains item then seen else seen ++ [item]) seen).Nodup from
    all [] .nil
  induction items with
  | nil => exact fun _ nodup => nodup
  | cons next rest ih =>
    intro seen nodup
    rw [List.foldl_cons]
    refine ih _ ?_
    split
    · exact nodup
    · rename_i absent
      refine nodup.append (List.nodup_singleton next) ?_
      simpa using absent

namespace World
variable {w w' : World} {id : RecordId} {module : StaticModule}

/-- What static modules have asked for, the first question first. -/
def questions (w : World) : List (RecordId × String) := w.journal.toList.filterMap Event.question?

theorem questions_write (w : World) (event : Event) :
    (w.write event).questions = w.questions ++ event.question?.toList := by
  simp only [questions, write, Array.toList_push, List.filterMap_append]
  cases event <;> rfl

/-- Code that asks nothing. -/
structure Silent (w w' : World) : Prop where
  edits : Edits w w'
  questions : w'.questions = w.questions

theorem Silent.of_journal (edit : Edit w w') (journal : w'.journal = w.journal) : Silent w w' :=
  ⟨.single edit, by simp only [World.questions, journal]⟩

theorem Silent.write {event : Event} (edit : Edit w (w.write event))
    (quiet : event.question? = none) : Silent w (w.write event) :=
  ⟨.single edit, by simp [questions_write, quiet]⟩

instance : Retains Silent where
  refl _ := ⟨.refl, rfl⟩
  trans _ _ _ h h' := ⟨h.edits.trans h'.edits, h'.questions.trans h.questions⟩
  touch w _ touch := by
    have edit := touch.edit
    cases touch with
    | write event told => exact .write edit (by cases event <;> first | rfl | cases told)
    | _ => exact .of_journal edit rfl
  draw w _ draw := by
    have edit := draw.edit
    cases draw with
    | inquire event inquiry => exact .write edit (by cases event <;> first | rfl | cases inquiry)
    | _ => exact .of_journal edit rfl
  keep _ _ _ := .of_journal (.setCache _) rfl

/-! ### Questions are asked once -/

/-- Nothing was asked twice, and whoever has asked has begun to link. -/
structure Asking (w : World) : Prop where
  nodup : w.questions.Nodup
  begun : ∀ question ∈ w.questions, ∃ module,
    w.record question.1 = .static module ∧ module.status ≠ .unlinked

namespace Asking

theorem of_nil (nothing : w.questions = []) : w.Asking := ⟨by simp [nothing], by simp [nothing]⟩

theorem of_same (asking : w.Asking) (records : w'.records = w.records)
    (questions : w'.questions = w.questions) : w'.Asking := by
  refine ⟨questions ▸ asking.nodup, fun question member => ?_⟩
  rw [questions] at member
  simpa only [World.record, records] using asking.begun question member

theorem silent (asking : w.Asking) (silent : Silent w w') : w'.Asking := by
  refine ⟨silent.questions ▸ asking.nodup, fun question member => ?_⟩
  rw [silent.questions] at member
  obtain ⟨module, found, begun⟩ := asking.begun question member
  exact ⟨module, silent.edits.static found, begun⟩

theorem unlinked (asking : w.Asking) (found : w.record id = .static module)
    (unlinked : module.status = .unlinked) (specifier : String) :
    (id, specifier) ∉ w.questions := by
  intro member
  obtain ⟨module', found', begun⟩ := asking.begun _ member
  cases found.symm.trans found'
  exact begun unlinked

theorem ask (asking : w.Asking) (found : w.record id = .static module)
    (begun : module.status ≠ .unlinked) {specifier : String}
    (fresh : (id, specifier) ∉ w.questions) : (w.write (.asked id specifier)).Asking := by
  refine ⟨?_, fun question member => ?_⟩
  · rw [questions_write]
    exact asking.nodup.append (List.nodup_singleton _) (by simpa [Event.question?] using fresh)
  · rw [questions_write] at member
    rcases List.mem_append.mp member with member | member
    · exact asking.begun question member
    · cases List.mem_singleton.mp member
      exact ⟨module, found, begun⟩

theorem setRecord (asking : w.Asking) (found : w.record id = .static module)
    {module' : StaticModule} (still : module.status ≠ .unlinked → module'.status ≠ .unlinked) :
    (w.setRecord id (.static module')).Asking := by
  refine ⟨asking.nodup, fun question member => ?_⟩
  obtain ⟨other, foundOther, begun⟩ := asking.begun question member
  by_cases same : question.1 = id
  · rw [same] at foundOther ⊢
    cases found.symm.trans foundOther
    exact ⟨module', record_setRecord_same found _, still begun⟩
  · exact ⟨other, (record_setRecord_other same w _).trans foundOther, begun⟩

end Asking
end World

namespace Embedding
variable {embedding : Embedding} {w : World} {id : RecordId} {module : StaticModule}

/-- A module that has begun to link asks for distinct specifiers, none of which it has asked for. -/
theorem meets_importAll_asking (importer : Importer) {specifiers : List String}
    (distinct : specifiers.Nodup) (asking : w.Asking) (found : w.record id = .static module)
    (begun : module.status ≠ .unlinked)
    (fresh : ∀ specifier ∈ specifiers, (id, specifier) ∉ w.questions) :
    Attempt.Meets Asking (fun _ => Asking) (embedding.importAll importer id specifiers)
      (fun _ => Asking) w := by
  induction specifiers generalizing w with
  | nil => exact asking
  | cons specifier rest ih =>
    obtain ⟨other, distinct⟩ := List.nodup_cons.mp distinct
    obtain ⟨freshHere, fresh⟩ := List.forall_mem_cons.mp fresh
    have asked := asking.ask found begun freshHere
    have imports : Attempt.Keeps Silent (embedding.importFor importer id specifier) :=
      embedding.keeps_importFor importer id specifier
    rw [importAll, Attempt.meets_bind, Attempt.meets_lift, Action.meets_write, Attempt.meets_bind]
    refine (imports.meets _).imp (fun _ silent => asked.silent silent)
      (fun _ _ silent => asked.silent silent) fun r w₁ silent => ?_
    rw [Attempt.meets_bind]
    have found₁ := silent.edits.static found
    refine (ih distinct (asked.silent silent) found₁ fun next member => ?_).mono fun _ _ h => h
    rw [silent.questions, questions_write]
    simp only [Event.question?, Option.toList_some, List.mem_append, List.mem_singleton,
      Prod.mk.injEq, true_and, not_or]
    exact ⟨fresh next member, fun same => other (same ▸ member)⟩

/-- Linking asks nothing twice. -/
theorem upholds_link_asking (embedding : Embedding) (depth : Nat) (id : RecordId) :
    Attempt.Upholds Asking Asking (embedding.link depth id) := by
  refine upholds_link_with
    (fun w id module status requested found begun asking => asking.setRecord found fun _ => begun)
    (fun _ asking => asking) (fun w id module found unlinked asking => ?_) depth id
  have begun : (w.setRecord id (.static { module with status := .linking })).Asking :=
    asking.setRecord found (by simp)
  exact meets_importAll_asking _ (nodup_distinct _) begun (record_setRecord_same found _) (by simp)
    fun specifier _ => asking.unlinked found unlinked specifier

end Embedding

/-- Whatever is done, nothing is asked twice. -/
theorem World.sustained_asking (embedding : Embedding) : Sustained embedding Asking Asking := by
  have consulted : Consulted embedding Asking Asking :=
    .of_retained (fun _ asking => asking) fun _ _ silent asking => asking.silent silent
  have touched : Touched Asking Asking :=
    .of_absorbed (fun _ asking => asking) fun _ _ silent asking => asking.silent silent
  refine ⟨⟨consulted, fun depth id _ => embedding.upholds_link_asking depth id,
    fun _ _ _ _ _ => trivial, touched.instantiate fun w realm id content _ asking => ?_⟩,
    touched.touches, fun w w' moves asking => ?_⟩
  · exact asking.of_same rfl ((questions_write _ _).trans (List.append_nil _))
  · induction moves with
    | refl => exact asking
    | tail _ move ih =>
      cases move with
      | arrange realm change => exact ih.of_same rfl rfl
      | write event inward =>
        refine ih.of_same rfl ((questions_write _ _).trans ?_)
        cases event <;> first | exact List.append_nil _ | cases inward

/-! ### Links settle -/

namespace World
variable {w w' : World} {id : RecordId} {module : StaticModule} {outcome : Outcome Unit}

theorem Named.touches (named : w.Named) (touches : Touches w w') : w'.Named := by
  induction touches with
  | refl => exact named
  | tail _ touch ih =>
    refine ih.of_same ?_ (fun _ => ?_) ?_
    all_goals cases touch <;> first | rfl | exact Array.size_setIfInBounds

/-- The linkage is a matter of the records alone. -/
theorem Linkage.of_records {path : List RecordId} (linkage : w.Linkage path)
    (records : w'.records = w.records) : w'.Linkage path := by
  cases w
  cases w'
  cases records
  exact ⟨linkage.present, linkage.unlinked, linkage.linking, linkage.nodup,
    fun id module found linked =>
      have complete := linkage.linked id module found linked
      ⟨complete.asked, complete.settled, complete.provided⟩⟩

/-- Whatever is done, no module is left in the middle of linking, and what linking needs to know is
upheld if nothing else breaks it. -/
theorem sustained_linkage_of {embedding : Embedding} {known : World → Prop}
    (setting : LinkSetting embedding known fun _ => True) (touched : Touched (fun _ => True) known)
    (consulted : Consulted embedding (fun _ => True) known)
    (adds : ∀ w realm id content, known w → known (w.addInstance realm id content))
    (moves : ∀ w w', Move w w' → known w → known w') :
    Sustained embedding (fun _ => True) (fun w => known w ∧ w.Linkage []) := by
  have linkage {α : Type} {action : Action α} (keeps : Action.Keeps Edits action) :
      Action.Upholds (fun _ => True) (fun w => w.Linkage []) action :=
    keeps.upholds (fun _ _ edits h => h.edits edits) fun _ _ => trivial
  have both {α : Type} {action : Action α} (upholds : Action.Upholds (fun _ => True) known action)
      (keeps : Action.Keeps Edits action) :
      Action.Upholds (fun _ => True) (fun w => known w ∧ w.Linkage []) action := fun w h =>
    (upholds.and (linkage keeps) w h).imp (fun _ _ => trivial) fun _ _ h => h
  have touched' : Touched (fun _ => True) (fun w => known w ∧ w.Linkage []) :=
    ⟨fun _ _ => trivial, fun w w' touches h =>
      ⟨touched.touches w w' touches h.1, h.2.edits touches.edits⟩⟩
  have consulted' : Consulted embedding (fun _ => True) (fun w => known w ∧ w.Linkage []) := {
    touched'.scripted with
    within := consulted.within
    located := fun w h => consulted.located w h.1
    host := fun specifier isHost =>
      both (consulted.host specifier isHost) (embedding.keeps_resolveHost specifier)
    location := fun location specifier within =>
      both (consulted.location location specifier within)
        (embedding.keeps_resolveLocation location specifier)
    loaded := fun location source within =>
      both (consulted.loaded location source within)
        (embedding.keeps_resolveLoaded location source) }
  refine ⟨⟨consulted', fun depth id _ w h => ?_, fun _ _ _ _ _ => trivial,
    touched'.instantiate fun w realm id content _ h =>
      ⟨adds w realm id content h.1, h.2.of_records rfl⟩⟩,
    touched'.touches, fun w w' walked h => ?_⟩
  · exact (Embedding.upholds_linkage_of setting depth id w h).imp (fun _ _ => trivial)
      fun _ _ h => h
  · induction walked with
    | refl => exact h
    | tail _ move ih => exact ⟨moves _ _ move ih.1, ih.2.of_records (by cases move <;> rfl)⟩

theorem touched_named : Touched (fun _ => True) World.Named :=
  ⟨fun _ _ => trivial, fun _ _ touches named => named.touches touches⟩

theorem consulted_named (embedding : Embedding) :
    Consulted embedding (fun _ => True) World.Named := by
  have answered {attempt : Attempt RecordId} (answers : Embedding.Answers attempt) :
      Attempt.Upholds (fun _ => True) World.Named attempt := .of_meets fun w named =>
    (answers w named).imp (fun _ _ => trivial) (fun _ _ h => h) fun _ _ h => h.1
  exact ⟨touched_named.scripted,
    embedding.staysWithin_all, fun _ _ _ _ _ => trivial,
    fun specifier _ => answered (embedding.answers_resolveHost specifier),
    fun location specifier _ => answered ((Embedding.Discovers.loads location specifier).answers _),
    fun location source _ => answered ((Embedding.Discovers.holds location source).answers _)⟩

theorem sustained_linkage (embedding : Embedding) :
    Sustained embedding (fun _ => True) (fun w => w.Named ∧ w.Linkage []) := by
  refine sustained_linkage_of embedding.linkSetting_named touched_named (consulted_named embedding)
    (fun _ _ _ _ named => named.of_same rfl (fun _ => rfl) rfl) fun w w' move named => ?_
  cases move <;> exact named.of_same rfl (fun _ => rfl) rfl

/-- The static modules that have begun to link stay as they are. -/
def Fixes (w w' : World) : Prop :=
  ∀ id module, w.record id = .static module → module.status ≠ .unlinked →
    w'.record id = .static module

/-- Whatever is done, static modules that have been linked stay as they are. -/
theorem sustained_fixes (embedding : Embedding) (w : World) :
    Sustained embedding (Fixes w) (Fixes w) := by
  have links {w' w'' : World} (links : Links w' w'') (fixes : Fixes w w') : Fixes w w'' :=
    fun id module found begun => links.begun id module (fixes id module found begun) begun
  have consulted : Consulted embedding (Fixes w) (Fixes w) :=
    .of_retained (fun _ h => h) fun _ _ (edits : Edits _ _) => links edits.links
  have touched : Touched (Fixes w) (Fixes w) :=
    ⟨fun _ h => h, fun _ _ touches => links touches.edits.links⟩
  refine ⟨⟨consulted, fun depth id _ => (embedding.keeps_link depth id).upholds
    (fun _ _ => links) fun _ h => h, fun _ _ _ _ _ => trivial,
    touched.instantiate fun _ _ _ _ _ h => h⟩, touched.touches, fun w' w'' moves h => ?_⟩
  induction moves with
  | refl => exact h
  | tail _ move ih => cases move <;> exact ih

/-- A static module has come to an outcome of its linking. -/
def LinkedAs (w : World) (id : RecordId) (outcome : Outcome Unit) : Prop :=
  ∃ module, w.record id = .static module ∧ module.status =
    match outcome with
    | .ok () => .linked
    | .error error => .failed error

theorem LinkedAs.fixed (linked : w.LinkedAs id outcome) (fixes : Fixes w w') :
    w'.LinkedAs id outcome := by
  obtain ⟨module, found, status⟩ := linked
  refine ⟨module, fixes id module found ?_, status⟩
  rw [status]
  cases outcome <;> simp

/-- A module that has come to an outcome answers it to every link, and nothing else happens. -/
theorem LinkedAs.link (linked : w.LinkedAs id outcome) (embedding : Embedding) (depth : Nat) :
    (embedding.link (depth + 1) id).run w = .ok outcome w := by
  obtain ⟨module, found, status⟩ := linked
  apply Action.Meets.eq
  rw [Attempt.meets_run, Embedding.link, Attempt.meets_bind, Attempt.meets_get]
  simp only [found, status]
  cases outcome <;> exact ⟨rfl, rfl⟩

end World

/-- A link of a static module that is not in the middle of linking answers the outcome of its
linking. -/
theorem Embedding.linkedAs_of_link {embedding : Embedding} {depth : Nat} {id : RecordId}
    {w w' : World} {outcome : Outcome Unit} (isStatic : (w.record id).kind = .static)
    (idle : ¬ w.IsLinking id) (ended : (embedding.link depth id).run w = .ok outcome w') :
    w'.LinkedAs id outcome := by
  have meets : Action.Meets (fun _ => True) (embedding.link depth id).run
      (fun outcome w' => w'.LinkedAs id outcome) w := by
    obtain ⟨module, found⟩ := kind_eq_static.mp isStatic
    cases depth with
    | zero => trivial
    | succ depth =>
      rw [Attempt.meets_run, link, Attempt.meets_bind, Attempt.meets_get]
      simp only [found]
      split
      · exact ⟨module, found, ‹_›⟩
      · exact absurd ⟨module, found, ‹_›⟩ idle
      · exact ⟨module, found, ‹_›⟩
      · rename_i unlinked
        have begun : Links w (w.setRecord id (.static { module with status := .linking })) :=
          (refl w : Links w w).relink found unlinked (.start id module found unlinked)
        rw [Attempt.meets_bind, meets_modifyStatic found, Attempt.meets_bind, Attempt.meets_outcome]
        refine (embedding.meets_linkStatic (embedding.keeps_link depth) found unlinked begun
          (isLinking_setRecord (hasRecord_of_static found) rfl)).imp (fun _ _ => trivial)
          (fun error w₁ h => ?_) fun _ w₁ h => ?_
        all_goals obtain ⟨-, module', found', -⟩ := h
        · rw [Attempt.meets_bind, meets_modifyStatic found']
          exact ⟨_, record_setRecord_same found' _, rfl⟩
        · rw [meets_modifyStatic found']
          exact ⟨_, record_setRecord_same found' _, rfl⟩
  rwa [Action.Meets, ended] at meets

/-- A link comes to an end when it may nest deeper than there are records. -/
theorem Embedding.exists_link_ended {embedding : Embedding} {w : World} (named : w.Named)
    (linkage : w.Linkage []) {id : RecordId} {bound depth : Nat}
    (finite : ∀ depth, ((embedding.link depth id).run.after w).records.size ≤ bound)
    (deep : bound < depth) : ∃ outcome w', (embedding.link depth id).run w = .ok outcome w' := by
  have meets := embedding.upholds_linkage depth id w ⟨named, linkage⟩
  have fits := finite depth
  unfold Action.Meets at meets
  unfold Action.after at fits
  split at meets
  · exact ⟨_, _, ‹_›⟩
  · rename_i ended
    rw [ended] at fits
    exact absurd deep (Nat.not_lt.mpr (Nat.le_trans meets fits))

/-- There are so many records, and all static modules ask the embedder's table. -/
structure World.Tabled (count : Nat) (w : World) : Prop where
  size : w.records.size = count
  importer : ∀ id module, w.record id = .static module → module.importer = .table

/-- Among modules that ask a table, linking makes no records. -/
theorem Embedding.upholds_link_tabled (embedding : Embedding) (count depth : Nat) (id : RecordId) :
    Attempt.Upholds (Tabled count) (Tabled count) (embedding.link depth id) := by
  have sets {w : World} {id : RecordId} {module module' : StaticModule}
      (found : w.record id = .static module) (same : module'.importer = module.importer)
      (tabled : w.Tabled count) : (w.setRecord id (.static module')).Tabled count := by
    refine ⟨Array.size_setIfInBounds.trans tabled.size, fun other module'' found' => ?_⟩
    by_cases here : other = id
    · subst here
      cases (record_setRecord_same found _).symm.trans found'
      exact same.trans (tabled.importer other module found)
    · rw [record_setRecord_other here] at found'
      exact tabled.importer other module'' found'
  have asks (id : RecordId) (specifiers : List String) : Attempt.Upholds (Tabled count)
      (Tabled count) (embedding.importAll .table id specifiers) := by
    induction specifiers with
    | nil => exact .pure _
    | cons specifier rest ih =>
      refine .bind (.lift fun _ tabled => ⟨tabled.size, tabled.importer⟩) fun _ =>
        .bind (.bind .get fun world => ?_) fun _ => .bind ih fun _ => .pure _
      dsimp only
      split
      · exact .pure _
      · exact .throw _
  refine upholds_link_with (fun _ _ _ _ _ found _ tabled => sets found rfl tabled) (fun _ h => h)
    (fun w id module found _ tabled => ?_) depth id
  have begun : (w.setRecord id (.static { module with status := .linking })).Tabled count :=
    sets found rfl tabled
  have asked := (asks id module.declarations.requestedSpecifiers).meets begun
  rwa [← tabled.importer id module found] at asked

theorem Embedding.size_after_link {embedding : Embedding} {w : World}
    (importer : ∀ id module, w.record id = .static module → module.importer = .table) (depth : Nat)
    (id : RecordId) : ((embedding.link depth id).run.after w).records.size = w.records.size :=
  (embedding.upholds_link_tabled w.records.size depth id w ⟨rfl, importer⟩).after.size

/-- Once a static module has an outcome of its linking, also in the middle of other links, every
link answers it and does nothing else, and no link takes it away. Whatever is done with unlinked
modules, also where it gives up, no module asks twice for a specifier. Afterwards no module is in
the middle of linking, and outcomes stay whatever is done later. A link comes to an end in worlds
that remain finite however deep it goes; then, too, no module is in the middle of linking, and a
static module has the outcome that was answered for it. -/
theorem links_once_and_settles (embedding : Embedding) (depth : Nat) (operations : List Operation)
    (w₀ : World) (named : w₀.Named) (unlinked : w₀.Unlinked) (unasked : w₀.questions = []) :
    (∀ (w : World) id outcome, w.LinkedAs id outcome → ∀ depth,
      (embedding.link (depth + 1) id).run w = .ok outcome w ∧
      ∀ other, Action.Meets (fun w' => w'.LinkedAs id outcome) (embedding.link depth other).run
        (fun _ w' => w'.LinkedAs id outcome) w) ∧
    Action.Meets (fun w => w.questions.Nodup) ((Setup.ofDepth embedding depth).run operations)
      (fun _ w => w.questions.Nodup ∧ (∀ id, ¬ w.IsLinking id) ∧
        (∀ id outcome, w.LinkedAs id outcome → ∀ later,
          Action.Meets (fun w' => w'.LinkedAs id outcome)
            ((Setup.ofDepth embedding depth).run later)
            (fun _ w' => w'.LinkedAs id outcome) w) ∧
        (∀ id bound, (∀ depth, ((embedding.link depth id).run.after w).records.size ≤ bound) →
          ∀ depth, bound < depth → ∃ outcome w', (embedding.link depth id).run w = .ok outcome w') ∧
        ∀ id depth outcome w', (embedding.link depth id).run w = .ok outcome w' →
          (∀ x, ¬ w'.IsLinking x) ∧
            ((w.record id).kind = .static → w'.LinkedAs id outcome)) w₀ := by
  have asked := Setup.sustains_run (sustained_asking embedding) depth operations w₀
    (.of_nil unasked)
  have held := Setup.sustains_run (sustained_linkage embedding) depth operations w₀
    ⟨named, unlinked.linkage⟩
  have idle {w : World} (linkage : w.Linkage []) (id : RecordId) : ¬ w.IsLinking id :=
    fun linking => List.not_mem_nil ((linkage.linking id).mp linking)
  refine ⟨fun w id outcome linked depth => ⟨linked.link embedding depth, fun other => ?_⟩,
    (asked.and held).imp (fun _ h => h.1.nodup) fun _ w h => ?_⟩
  · exact (embedding.keeps_link depth other w).imp (fun _ links => linked.fixed links.begun)
      fun _ _ links => linked.fixed links.begun
  obtain ⟨asking, named, linkage⟩ := h
  refine ⟨asking.nodup, idle linkage, fun id outcome linked later => ?_,
    fun id bound finite depth deep => embedding.exists_link_ended named linkage finite deep,
    fun id depth outcome w' ended => ?_⟩
  · exact (Setup.sustains_run (sustained_fixes embedding w) depth later w
      fun _ _ found _ => found).imp (fun _ fixes => linked.fixed fixes)
        fun _ _ fixes => linked.fixed fixes
  · have meets := embedding.upholds_linkage depth id w ⟨named, linkage⟩
    rw [Action.Meets, ended] at meets
    exact ⟨idle meets.2, fun isStatic =>
      Embedding.linkedAs_of_link isStatic (idle linkage id) ended⟩

/-- In the pair, each module asks once, the one that fails keeps its error, and every link that may
go deep enough comes to an end. -/
theorem links_once_in_failingPair :
    ∃ w error, (Setup.ofDepth .bare 3).run [.link ⟨0⟩, .link ⟨1⟩] failingPair = .ok () w ∧
      w.questions = [(⟨0⟩, "b"), (⟨1⟩, "a")] ∧ w.questions.Nodup ∧ (∀ id, ¬ w.IsLinking id) ∧
      (Embedding.bare.link 3 ⟨0⟩).run w = .ok (.error error) w ∧
      ∀ id depth, 2 < depth → ∃ outcome w', (Embedding.bare.link depth id).run w =
        .ok outcome w' := by
  have computed : ((Setup.ofDepth .bare 3).run [.link ⟨0⟩, .link ⟨1⟩]).ends failingPair (fun _ w =>
      w.questions = [(⟨0⟩, "b"), (⟨1⟩, "a")] &&
      (w.record ⟨0⟩).static?.any (fun module =>
        module.status = .failed (.missingExport "file:///b" "x")) &&
      w.recordIds.all (fun id => (w.record id).static?.all fun module =>
        module.importer = .table) && w.records.size = 2) = true := by
    cbv
  obtain ⟨_, w, ran, computed⟩ := Action.exists_of_ends computed
  simp only [Bool.and_eq_true, Option.any_eq_true, decide_eq_true_eq, static?_eq_some] at computed
  obtain ⟨⟨⟨questions, module, found, failed⟩, tabled⟩, size⟩ := computed
  obtain ⟨answers, meets⟩ := links_once_and_settles .bare 3 [.link ⟨0⟩, .link ⟨1⟩] failingPair
    named_failingPair unlinked_failingPair rfl
  rw [Action.Meets, ran] at meets
  have linked : w.LinkedAs ⟨0⟩ (.error (.missingExport "file:///b" "x")) := ⟨module, found, failed⟩
  obtain ⟨nodup, idle, -, ends, -⟩ := meets
  have importer (id : RecordId) (module : StaticModule) (found : w.record id = .static module) :
      module.importer = .table := by simpa using static_of_all w _ tabled found
  exact ⟨w, _, ran, questions, nodup, idle, (answers w ⟨0⟩ _ linked 2).1, fun id => ends id 2
    fun depth => (Embedding.size_after_link importer depth id).trans size |>.le⟩

end ModuleGraph
