import ModuleGraph.Proofs.LinkedGraphs

/-!
Origins of imported names. What a module imports can itself be imported by the module that exports
it, and so on. In a graph that was linked, following such imports never leads to a name that is
missing; but linking checks one import at a time, so it accepts modules that only pass a name around
a cycle.
-/
namespace ModuleGraph
open Relation World

/-! ### What a body sees of other modules -/

/-- What an import from a record stands for. -/
def importTarget (record : RecordId) : Import → ImportTarget
  | .default _ => .binding record "default"
  | .named imported _ => .binding record imported
  | .namespace _ => .namespace record

namespace Action
variable {module : StaticModule} {statements : List ImportStatement}
  {requested : List (String × RecordId)} {imports known : List (String × ImportTarget)}
  {entry : String × ImportTarget}

/-- The imported names after one more statement. -/
def addImports (requested : List (String × RecordId)) (imports : List (String × ImportTarget))
    (statement : ImportStatement) : Except ModuleError (List (String × ImportTarget)) :=
  match requested.lookup statement.specifier with
  | none => .error (.defect (statement.specifier ++ " was not resolved"))
  | some record =>
    .ok (statement.names.foldl (fun imports name =>
      (name.localName, importTarget record name) :: imports) imports)

theorem foldlM_addImports
    (resolved : ∀ s ∈ statements, (requested.lookup s.specifier).isSome) :
    ∃ imports, statements.foldlM (addImports requested) known = .ok imports := by
  induction statements generalizing known with
  | nil => exact ⟨known, rfl⟩
  | cons statement rest ih =>
    obtain ⟨here, resolved⟩ := List.forall_mem_cons.mp resolved
    obtain ⟨record, found⟩ := Option.isSome_iff_exists.mp here
    rw [List.foldlM_cons, addImports, found]
    exact ih resolved

theorem mem_foldl_imports {record : RecordId} {names : List Import}
    (member : entry ∈ names.foldl (fun imports name =>
      (name.localName, importTarget record name) :: imports) known) :
    entry ∈ known ∨ ∃ name ∈ names, entry.2 = importTarget record name := by
  induction names generalizing known with
  | nil => exact .inl member
  | cons name rest ih =>
    rcases ih member with before | ⟨other, later, same⟩
    · rcases List.mem_cons.mp before with rfl | before
      · exact .inr ⟨name, List.mem_cons_self, rfl⟩
      · exact .inl before
    · exact .inr ⟨other, List.mem_cons_of_mem name later, same⟩

theorem mem_foldlM_addImports (added : statements.foldlM (addImports requested) known = .ok imports)
    (member : entry ∈ imports) :
    entry ∈ known ∨ ∃ s ∈ statements, ∃ record, requested.lookup s.specifier = some record ∧
      ∃ name ∈ s.names, entry.2 = importTarget record name := by
  induction statements generalizing known with
  | nil =>
    cases added
    exact .inl member
  | cons statement rest ih =>
    rw [List.foldlM_cons, addImports] at added
    split at added
    · cases added
    · rename_i record found
      rcases ih added with before | ⟨s, later, of⟩
      · rcases mem_foldl_imports before with before | of
        · exact .inl before
        · exact .inr ⟨statement, List.mem_cons_self, record, found, of⟩
      · exact .inr ⟨s, List.mem_cons_of_mem statement later, of⟩

end Action

namespace World
variable {w w' : World} {id s m : RecordId} {module : StaticModule}
  {target target' other : ImportTarget} {name : String}

/-- A static module imports a name or a namespace from a record that it requests. -/
def Imports (w : World) (id : RecordId) (target : ImportTarget) : Prop :=
  ∃ module, w.record id = .static module ∧ ∃ statement ∈ module.declarations.imports,
    ∃ record, module.requested.lookup statement.specifier = some record ∧
      ∃ name ∈ statement.names, target = importTarget record name

/-- The imports that the body of a module sees are those that it declares. -/
theorem imports_of_importsOf (found : w.record id = .static module)
    {imports : List (String × ImportTarget)} (built : Action.importsOf module = .ok imports)
    (lookup : imports.lookup name = some target) : w.Imports id target := by
  obtain ⟨before, after, split, _⟩ := List.lookup_eq_some_iff.mp lookup
  have member : (name, target) ∈ imports := by simp [split]
  refine ⟨module, found, ?_⟩
  exact (Action.mem_foldlM_addImports built member).resolve_left List.not_mem_nil

theorem mem_distinct {item : String} {items : List String} :
    item ∈ distinct items ↔ item ∈ items := by
  suffices all : ∀ seen : List String, item ∈ items.foldl
      (fun seen item => if seen.contains item then seen else seen ++ [item]) seen ↔
        item ∈ seen ∨ item ∈ items by
    simpa [distinct] using all []
  induction items with
  | nil => simp
  | cons next rest ih =>
    intro seen
    rw [List.foldl_cons, ih]
    split <;> grind

/-- A module that has recorded all its requests finds what it imports. -/
theorem exists_importsOf
    (asked : module.requested.map Prod.fst = module.declarations.requestedSpecifiers) :
    ∃ imports, Action.importsOf module = .ok imports := by
  refine Action.foldlM_addImports fun statement member => ?_
  have isRequested : statement.specifier ∈ module.requested.map Prod.fst := by
    rw [asked, Declarations.requestedSpecifiers, mem_distinct]
    exact List.mem_append_left _ (List.mem_map_of_mem member)
  obtain ⟨entry, member, same⟩ := List.mem_map.mp isRequested
  rw [← same]
  by_contra absent
  rw [Option.not_isSome_iff_eq_none, List.lookup_eq_none_iff] at absent
  simpa using absent entry member

/-! ### Where an import leads -/

/-- What stands behind an import, in the module that exports it. -/
inductive Origin where
  /-- A binding of a static module that it does not import. -/
  | own (binding : Binding)
  | namespace
  /-- A name of a module that is not static. -/
  | foreign
  /-- A name that the exporting module imports itself. -/
  | imported (target : ImportTarget)
  /-- Nothing: the name is not exported, or the exporting module does not know what it imports. -/
  | missing
  deriving DecidableEq

/-- Looks up what stands behind an import: the binding that the export resolves to, as the body of
its module sees it. -/
def originOf (w : World) : ImportTarget → Origin
  | .namespace _ => .namespace
  | .binding record name =>
    match w.resolveExport record name with
    | none => .missing
    | some found =>
      match w.record found.record with
      | .static module =>
        match module.declarations.localExport? name, Action.importsOf module with
        | none, _ => .namespace
        | some _, .error _ => .missing
        | some _, .ok imports =>
          match imports.lookup found.name with
          | some target => .imported target
          | none => .own found
      | _ => .foreign

/-- What one import stands for is another import. -/
def Reexports (w : World) (target target' : ImportTarget) : Prop :=
  w.originOf target = .imported target'

/-- Following imports leads to an own binding of a static module, to a namespace, or to a module
that is not static. -/
def Grounded (w : World) (target : ImportTarget) : Prop :=
  ∃ last, ReflTransGen w.Reexports target last ∧
    ((∃ binding, w.originOf last = .own binding) ∨ w.originOf last = .namespace ∨
      w.originOf last = .foreign)

/-- Following imports leads around a cycle. -/
def Circular (w : World) (target : ImportTarget) : Prop :=
  ∃ again, ReflTransGen w.Reexports target again ∧ TransGen w.Reexports again again

/-- Following imports leads to a name that is missing. -/
def Lost (w : World) (target : ImportTarget) : Prop :=
  ∃ last, ReflTransGen w.Reexports target last ∧ w.originOf last = .missing

theorem Reexports.unique (h : w.Reexports target target') (h' : w.Reexports target other) :
    target' = other :=
  Origin.imported.inj (h.symm.trans h')

/-! ### Imports that end -/

/-- Imports lead one way only, so where they end comes after all that they pass. -/
theorem reaches_end {last : ImportTarget} (path : ReflTransGen w.Reexports target last)
    (ends : ∀ next, ¬ w.Reexports last next) (path' : ReflTransGen w.Reexports target other) :
    ReflTransGen w.Reexports other last := by
  induction path' using ReflTransGen.head_induction_on with
  | refl => exact path
  | head step _ ih =>
    rcases ReflTransGen.cases_head path with rfl | ⟨next, step', rest⟩
    · exact absurd step (ends _)
    · cases step.unique step'
      exact ih rest

theorem not_transGen_of_ends {last : ImportTarget} (path : ReflTransGen w.Reexports target last)
    (ends : ∀ next, ¬ w.Reexports last next) : ¬ TransGen w.Reexports target target := by
  induction path using ReflTransGen.head_induction_on with
  | refl =>
    intro cycle
    obtain ⟨next, step, _⟩ := TransGen.head'_iff.mp cycle
    exact ends next step
  | head step _ ih =>
    intro cycle
    obtain ⟨next, step', rest⟩ := TransGen.head'_iff.mp cycle
    cases step.unique step'
    exact ih (TransGen.tail' rest step)

theorem finite_imports (w : World) : {target | ∃ id, w.Imports id target}.Finite := by
  refine (List.finite_toSet (w.recordIds.flatMap fun id =>
    ((w.record id).static?.toList.flatMap fun module =>
      module.declarations.imports.flatMap fun statement =>
        module.requested.flatMap fun entry => statement.names.map (importTarget entry.2)))).subset ?_
  rintro target ⟨id, module, found, statement, isStatement, record, lookup, name, isName, rfl⟩
  obtain ⟨before, after, split, _⟩ := List.lookup_eq_some_iff.mp lookup
  have isEntry : (statement.specifier, record) ∈ module.requested := by simp [split]
  simp only [List.mem_flatMap, List.mem_map, Set.mem_ofPred_eq]
  exact ⟨id, mem_recordIds.mpr (hasRecord_of_static found), module, by simp [found, Record.static?],
    statement, isStatement, _, isEntry, name, isName, rfl⟩

/-- What an import of a module's own stands for is imported there. -/
theorem Reexports.imports (h : w.Reexports target target') : ∃ binding : Binding,
    w.Imports binding.record target' ∧
      ∃ record name, target = .binding record name ∧ w.resolveExport record name = some binding := by
  cases target with
  | «namespace» => cases h
  | binding record name =>
    unfold Reexports originOf at h
    dsimp only at h
    split at h
    · cases h
    · rename_i found resolved
      split at h
      · rename_i module static
        split at h
        · cases h
        · cases h
        · rename_i imports _ built
          split at h
          · rename_i target lookup
            cases h
            exact ⟨found, imports_of_importsOf static built lookup, record, name, rfl, resolved⟩
          · cases h
      · cases h

/-- There are finitely many imports, so those that one leads to end or go around. -/
theorem exists_end_of_not_circular (h : ¬ w.Circular target) :
    ∃ last, ReflTransGen w.Reexports target last ∧ ∀ next, ¬ w.Reexports last next := by
  let Ahead := {other // ReflTransGen w.Reexports target other}
  have finite : Finite Ahead := by
    refine ((w.finite_imports.insert target).subset fun other path => ?_).to_subtype
    rcases ReflTransGen.cases_tail path with same | ⟨_, _, step⟩
    · exact .inl same
    · obtain ⟨binding, imports, _⟩ := step.imports
      exact .inr ⟨binding.record, imports⟩
  have irrefl : Std.Irrefl fun a b : Ahead => TransGen w.Reexports b.1 a.1 :=
    ⟨fun a cycle => h ⟨a.1, a.2, cycle⟩⟩
  have trans : IsTrans Ahead fun a b => TransGen w.Reexports b.1 a.1 :=
    ⟨fun _ _ _ first second => second.trans first⟩
  have wellFounded : WellFounded fun a b : Ahead => TransGen w.Reexports b.1 a.1 :=
    Finite.wellFounded_of_trans_of_irrefl _
  obtain ⟨last, _, least⟩ := wellFounded.has_min Set.univ ⟨⟨target, .refl⟩, trivial⟩
  exact ⟨last.1, last.2, fun next step => least ⟨next, last.2.tail step⟩ trivial (.single step)⟩

/-- Following an import either leads to what stands behind it, or around a cycle, or to a name that
is missing. -/
theorem grounded_iff : w.Grounded target ↔ ¬ w.Circular target ∧ ¬ w.Lost target := by
  constructor
  · rintro ⟨last, path, source⟩
    have ends (next : ImportTarget) : ¬ w.Reexports last next := by
      intro step
      rcases source with ⟨_, source⟩ | source | source <;> cases source.symm.trans step
    refine ⟨fun ⟨again, path', cycle⟩ => ?_, fun ⟨lost, path', missing⟩ => ?_⟩
    · exact not_transGen_of_ends (reaches_end path ends path') ends cycle
    · rcases ReflTransGen.cases_head (reaches_end path ends path') with rfl | ⟨_, step, _⟩
      · rcases source with ⟨_, source⟩ | source | source <;> cases source.symm.trans missing
      · cases missing.symm.trans step
  · rintro ⟨notCircular, notLost⟩
    obtain ⟨last, path, ends⟩ := exists_end_of_not_circular notCircular
    refine ⟨last, path, ?_⟩
    cases origin : w.originOf last with
    | own binding => exact .inl ⟨binding, rfl⟩
    | «namespace» => exact .inr (.inl rfl)
    | foreign => exact .inr (.inr rfl)
    | imported next => exact absurd origin (ends next)
    | missing => exact absurd ⟨last, path, origin⟩ notLost

/-! ### Imports of linked modules -/

theorem importTarget_eq_binding {record r : RecordId} {item : Import} :
    .binding r name = importTarget record item ↔
      r = record ∧ Embedding.importedName? item = some name := by
  cases item <;> simp [importTarget, Embedding.importedName?, eq_comm]

/-- A linked module requests what it imports from, and is provided with the name. -/
theorem Linkage.provides_imported {path : List RecordId} (h : w.Linkage path)
    (linked : w.IsLinked m) {record : RecordId} (imports : w.Imports m (.binding record name)) :
    w.Asks m record ∧ w.Provides name record := by
  obtain ⟨module, found, linked⟩ := linked
  obtain ⟨module', found', statement, isStatement, r, lookup, item, isItem, same⟩ := imports
  cases found.symm.trans found'
  obtain ⟨rfl, imported⟩ := importTarget_eq_binding.mp same
  refine ⟨⟨module, found, mem_of_lookup lookup⟩, ?_⟩
  by_cases isStatic : (w.record record).kind = .static
  · exact (h.linked m module found linked).provided record name ⟨statement, isStatement, lookup,
      isStatic, List.mem_filterMap.mpr ⟨item, isItem, imported⟩⟩
  · exact ⟨record, .refl, fun other static => absurd (kind_eq_static.mpr ⟨other, static⟩) isStatic⟩

/-- A linked module that a record leads to imports something. -/
def ImportedBehind (w : World) (s : RecordId) (target : ImportTarget) : Prop :=
  ∃ m, w.LeadsTo s m ∧ w.IsLinked m ∧ w.Imports m target

namespace ImportedBehind

/-- Where no module has failed, imports lead to modules that are linked. -/
theorem reexports (h : w.ImportedBehind s target) (linkage : w.Linkage [])
    (spared : ∀ x, w.LeadsTo s x → ¬ w.LinkFailed x) (step : w.Reexports target target') :
    w.ImportedBehind s target' := by
  obtain ⟨m, path, linked, imports⟩ := h
  obtain ⟨binding, imports', record, name, rfl, resolved⟩ := step.imports
  have asks := (linkage.provides_imported linked imports).1
  have leads : w.LeadsTo m binding.record :=
    .head asks (ReflTransGen.mono (fun _ _ => Forwards.asks) _ _ (resolveExport_eq_some resolved).1)
  refine ⟨binding.record, path.trans leads, ?_, imports'⟩
  refine linkage.linked_throughout linked (fun x behind => spared x (path.trans behind)) leads ?_
  obtain ⟨module, found, _⟩ := imports'
  exact kind_eq_static.mpr ⟨module, found⟩

/-- Where no module has failed, an import stands for something. -/
theorem originOf_ne_missing (h : w.ImportedBehind s target) (linkage : w.Linkage [])
    (spared : ∀ x, w.LeadsTo s x → ¬ w.LinkFailed x) : w.originOf target ≠ .missing := by
  obtain ⟨m, path, linked, imports⟩ := h
  cases target with
  | «namespace» => simp [originOf]
  | binding record name =>
    obtain ⟨asks, provides⟩ := linkage.provides_imported linked imports
    obtain ⟨binding, resolved⟩ :=
      Option.isSome_iff_exists.mp ((resolveExport_isSome w record name).mpr provides)
    intro missing
    simp only [originOf, resolved] at missing
    split at missing
    · rename_i module found
      have leads : w.LeadsTo m binding.record := .head asks
        (ReflTransGen.mono (fun _ _ => Forwards.asks) _ _ (resolveExport_eq_some resolved).1)
      obtain ⟨module', found', linked'⟩ := linkage.linked_throughout linked
        (fun x behind => spared x (path.trans behind)) leads (kind_eq_static.mpr ⟨module, found⟩)
      cases found.symm.trans found'
      obtain ⟨imports, built⟩ :=
        exists_importsOf (linkage.linked binding.record module found linked').asked
      rw [built] at missing
      split at missing
      · cases missing
      · rename_i failed
        cases failed
      · split at missing <;> cases missing
    · cases missing

end ImportedBehind

/-- An import of a linked module leads to a name that is missing only where a module has failed. -/
theorem Lost.exists_failed (lost : w.Lost target) (linkage : w.Linkage []) (linked : w.IsLinked s)
    (imports : w.Imports s target) : ∃ x, w.LeadsTo s x ∧ w.LinkFailed x := by
  by_contra none
  have spared (x : RecordId) (path : w.LeadsTo s x) (failed : w.LinkFailed x) : False :=
    none ⟨x, path, failed⟩
  have behind {last : ImportTarget} (path : ReflTransGen w.Reexports target last) :
      w.ImportedBehind s last := by
    induction path with
    | refl => exact ⟨s, .refl, linked, imports⟩
    | tail _ step ih => exact ih.reexports linkage spared step
  obtain ⟨last, path, missing⟩ := lost
  exact (behind path).originOf_ne_missing linkage spared missing

end World

/-! ### Links that end well -/

namespace World
variable {w w' w'' : World}

/-- No static module has failed that had not failed before. -/
def Spares (w w' : World) : Prop := ∀ x, w'.LinkFailed x → w.LinkFailed x

theorem Edits.spares (edits : Edits w w') : Spares w w' := by
  rintro x ⟨module, error, found, failed⟩
  rcases edits.static_cases found with before | ⟨_, unlinked, _⟩
  · exact ⟨module, error, before, failed⟩
  · simp [unlinked] at failed

end World

namespace Embedding

/-- An attempt that ends well makes no module fail. -/
def EndsWell {α : Type} (attempt : Attempt α) : Prop :=
  ∀ w, Attempt.Meets (fun _ => True) (fun _ _ => True) attempt (fun _ w' => Spares w w') w

theorem EndsWell.pure {α : Type} (a : α) : EndsWell (pure a) := fun _ _ failed => failed

theorem EndsWell.bind {α β : Type} {attempt : Attempt α} {next : α → Attempt β}
    (first : EndsWell attempt) (later : ∀ a, EndsWell (next a)) : EndsWell (attempt >>= next) := by
  intro w
  rw [Attempt.meets_bind]
  refine (first w).mono fun a w₁ spares => ?_
  exact (later a w₁).mono fun _ w₂ spares' x failed => spares x (spares' x failed)

theorem endsWell_modifyStatic (id : RecordId) {change : StaticModule → StaticModule}
    (well : ∀ module error, (change module).status = .failed error → module.status = .failed error) :
    EndsWell (liftM (modifyStatic id change)) := by
  intro w
  unfold modifyStatic
  rw [Attempt.meets_lift, Action.meets_modify]
  split
  · rename_i module found
    rintro x ⟨other, error, after, failed⟩
    by_cases same : x = id
    · subst same
      cases (record_setRecord_same found _).symm.trans after
      exact ⟨module, error, found, well module error failed⟩
    · rw [record_setRecord_other same] at after
      exact ⟨other, error, after, failed⟩
  · exact fun _ failed => failed

theorem endsWell_linkAll {link : RecordId → Attempt Unit} (links : ∀ id, EndsWell (link id))
    (ids : List RecordId) : EndsWell (linkAll link ids) := by
  induction ids with
  | nil => exact .pure _
  | cons id rest ih => exact .bind (links id) fun _ => ih

theorem endsWell_linkStatic (embedding : Embedding) {link : RecordId → Attempt Unit}
    (links : ∀ id, EndsWell (link id)) (id : RecordId) (module : StaticModule) :
    EndsWell (embedding.linkStatic link id module) := by
  refine .bind (fun w => ?_) fun requested => .bind (endsWell_modifyStatic id fun _ _ h => h) fun _ =>
    .bind (endsWell_linkAll links _) fun _ w => ?_
  · exact ((embedding.keeps_importAll module.importer id _).meets w).imp (fun _ _ => trivial)
      (fun _ _ _ => trivial) fun _ _ edits => edits.spares
  · rw [Attempt.meets_bind, Attempt.meets_get]
    split
    · exact fun _ failed => failed
    · trivial

theorem endsWell_link (embedding : Embedding) (depth : Nat) (id : RecordId) :
    EndsWell (embedding.link depth id) := by
  induction depth generalizing id with
  | zero => exact fun _ => trivial
  | succ depth ih =>
    intro w
    unfold link
    rw [Attempt.meets_bind, Attempt.meets_get]
    split
    · split
      · exact fun _ failed => failed
      · exact fun _ failed => failed
      · trivial
      · refine EndsWell.bind (endsWell_modifyStatic id (by simp)) (fun _ w₁ => ?_) w
        rw [Attempt.meets_bind, Attempt.meets_outcome]
        refine ((embedding.endsWell_linkStatic ih id _) w₁).imp (fun _ _ => trivial)
          (fun _ w₂ _ => ?_) fun _ w₂ spares => ?_
        · rw [Attempt.meets_bind]
          exact Attempt.meets_of_forall _ _ (fun _ _ => trivial) fun _ _ => trivial
        · exact ((endsWell_modifyStatic id (by simp)) w₂).mono fun _ w₃ spares' x failed =>
            spares x (spares' x failed)
    · split
      · exact fun _ failed => failed
      · trivial
    · exact fun _ failed => failed

end Embedding

/-- After any sequence of links, the last of which ends well, what a linked module imports is
grounded exactly if it neither leads around a cycle of imports nor to a name that is missing; and it
can lead to a missing name only if the module leads to one that had failed before the last link. So
in a graph that is linked at once, every import is grounded but for those around a cycle. -/
theorem grounded_iff_neither_circular_nor_lost (embedding : Embedding) (depth : Nat)
    (ids : List RecordId) (w₀ w₁ w : World) (root s : RecordId) (target : ImportTarget)
    (named : w₀.Named) (unlinked : w₀.Unlinked)
    (ran : (Setup.ofDepth embedding depth).run (ids.map .link) w₀ = .ok () w₁)
    (ended : (embedding.link depth root).run w₁ = .ok (.ok ()) w) (linked : w.IsLinked s)
    (imports : w.Imports s target) :
    (w.Grounded target ↔ ¬ w.Circular target ∧ ¬ w.Lost target) ∧
      (w.Lost target → ∃ x, w.LeadsTo s x ∧ w₁.LinkFailed x) := by
  have before := Setup.upholds_linkage embedding depth ids w₀ ⟨named, unlinked.linkage⟩
  rw [Action.Meets, ran] at before
  have after := (embedding.upholds_linkage depth root).meets before
  rw [Attempt.Meets, ended] at after
  have spares := embedding.endsWell_link depth root w₁
  rw [Attempt.Meets, ended] at spares
  refine ⟨grounded_iff, fun lost => ?_⟩
  obtain ⟨x, path, failed⟩ := lost.exists_failed after.2 linked imports
  exact ⟨x, path, spares x failed⟩

/-- Two modules that import a name from each other and export it. -/
def passedAround : World :=
  tablePair (tableModule 'a' [⟨"b", [.named "x" none]⟩] [.named "x" none])
    (tableModule 'b' [⟨"a", [.named "x" none]⟩] [.named "x" none])

theorem named_passedAround : passedAround.Named := named_tablePair _ _

theorem unlinked_passedAround : passedAround.Unlinked := unlinked_of_all _ (by cbv)

/-- Linking accepts the two, and the import of `a` leads around them. -/
theorem link_passedAround : ∃ w, (Embedding.bare.link 3 ⟨0⟩).run passedAround = .ok (.ok ()) w ∧
    w.IsLinked ⟨0⟩ ∧ w.Imports ⟨0⟩ (.binding ⟨1⟩ "x") ∧ w.Circular (.binding ⟨1⟩ "x") := by
  have computed : (Embedding.bare.link 3 ⟨0⟩).run.ends passedAround (fun outcome w =>
      outcome.isOk && (w.record ⟨0⟩).static?.any (fun module => module.status = .linked &&
        module.requested = [("b", ⟨1⟩)] &&
        module.declarations.imports = [⟨"b", [.named "x" none]⟩]) &&
      w.originOf (.binding ⟨1⟩ "x") = .imported (.binding ⟨0⟩ "x") &&
      w.originOf (.binding ⟨0⟩ "x") = .imported (.binding ⟨1⟩ "x")) = true := by
    cbv
  obtain ⟨outcome, w, ended, computed⟩ := Action.exists_of_ends computed
  simp only [Bool.and_eq_true, Option.any_eq_true, decide_eq_true_eq, static?_eq_some] at computed
  obtain ⟨⟨⟨well, a, found, ⟨linked, requested⟩, imports⟩, first⟩, second⟩ := computed
  cases outcome with
  | error => cases well
  | ok =>
    have imported : w.Imports ⟨0⟩ (.binding ⟨1⟩ "x") :=
      ⟨a, found, ⟨"b", [.named "x" none]⟩, by simp [imports], ⟨1⟩, by simp [requested], _,
        List.mem_singleton_self _, rfl⟩
    have circular : w.Circular (.binding ⟨1⟩ "x") := ⟨_, .refl, .head first (.single second)⟩
    exact ⟨w, ended, ⟨a, found, linked⟩, imported, circular⟩

/-- So what a linked module imports need not be grounded. -/
theorem not_grounded_throughout :
    ¬ ∀ (embedding : Embedding) (depth : Nat) (w₀ w : World) (root s : RecordId)
      (target : ImportTarget), w₀.Named → w₀.Unlinked →
      (embedding.link depth root).run w₀ = .ok (.ok ()) w → w.IsLinked s → w.Imports s target →
      w.Grounded target := by
  intro claim
  obtain ⟨w, ended, linked, imports, circular⟩ := link_passedAround
  have grounded := claim .bare 3 passedAround w ⟨0⟩ ⟨0⟩ _ named_passedAround unlinked_passedAround
    ended linked imports
  exact (grounded_iff.mp grounded).1 circular

/-- In the pair no name is missing, but the import is not grounded. -/
theorem circular_import_in_passedAround :
    ∃ w, (Embedding.bare.link 3 ⟨0⟩).run passedAround = .ok (.ok ()) w ∧
      w.Circular (.binding ⟨1⟩ "x") ∧ ¬ w.Lost (.binding ⟨1⟩ "x") ∧
      ¬ w.Grounded (.binding ⟨1⟩ "x") := by
  obtain ⟨w, ended, linked, imports, circular⟩ := link_passedAround
  obtain ⟨exactly, failed⟩ := grounded_iff_neither_circular_nor_lost .bare 3 [] passedAround
    passedAround w ⟨0⟩ ⟨0⟩ _ named_passedAround unlinked_passedAround rfl ended linked imports
  refine ⟨w, ended, circular, fun lost => ?_, fun grounded => (exactly.mp grounded).1 circular⟩
  obtain ⟨x, _, module, error, found, failed⟩ := failed lost
  simp [(unlinked_passedAround x module found).1] at failed

end ModuleGraph
