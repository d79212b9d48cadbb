import ModuleGraph.Proofs.Changes

/-!
Providers of names. A module provides a name if it gives it out itself, or if `export *` leads from
it to one that does; the search for a binding finds one exactly then. So the check of a module's
imports fails exactly if some name is not provided.
-/
namespace ModuleGraph
open Relation

/-! ### What a module declares -/

namespace Export
variable {e : Export} {name binding source : String}

/-- An export gives out a binding of its own module under a name. -/
inductive Binds : Export → String → String → Prop
  | default : Binds .default "default" "default"
  | named (binding : String) : Binds (.named binding none) binding binding
  | renamed (binding name : String) : Binds (.named binding (some name)) name binding

theorem bindingFor?_eq_some : e.bindingFor? name = some binding ↔ e.Binds name binding := by
  constructor
  · intro bound
    cases e with
    | default =>
      obtain ⟨rfl, same⟩ := Option.ite_none_right_eq_some.mp bound
      exact Option.some.inj same ▸ .default
    | named own renamed =>
      obtain ⟨rfl, same⟩ := Option.ite_none_right_eq_some.mp bound
      obtain rfl := Option.some.inj same
      cases renamed with
      | none => exact .named own
      | some name => exact .renamed own name
    | all | allAs => cases bound
  · rintro (_ | _ | _) <;> simp [bindingFor?]

theorem bindingFor?_eq_none : e.bindingFor? name = none ↔ ∀ binding, ¬ e.Binds name binding := by
  simp only [Option.eq_none_iff_forall_ne_some, ne_eq, bindingFor?_eq_some]

theorem namespaceFor?_eq_some : e.namespaceFor? name = some source ↔ e = .allAs name source := by
  cases e <;> simp [namespaceFor?]

end Export

namespace Declarations
variable {declarations : Declarations} {name binding : String}

/-- The first export that has a binding for a name counts. -/
theorem localExport?_eq_some : declarations.localExport? name = some binding ↔
    ∃ before e after, declarations.exports = before ++ e :: after ∧ e.Binds name binding ∧
      ∀ earlier ∈ before, ∀ other, ¬ earlier.Binds name other := by
  simp only [localExport?, List.findSome?_eq_some_iff, Export.bindingFor?_eq_some,
    Export.bindingFor?_eq_none]

theorem localExport?_eq_none : declarations.localExport? name = none ↔
    ∀ e ∈ declarations.exports, ∀ binding, ¬ e.Binds name binding := by
  simp only [localExport?, List.findSome?_eq_none_iff, Export.bindingFor?_eq_none]

theorem namespaceExport?_isSome : (declarations.namespaceExport? name).isSome ↔
    ∃ source, .allAs name source ∈ declarations.exports := by
  rw [namespaceExport?, List.findSome?_isSome_iff]
  constructor
  · rintro ⟨e, declared, given⟩
    obtain ⟨source, given⟩ := Option.isSome_iff_exists.mp given
    exact ⟨source, Export.namespaceFor?_eq_some.mp given ▸ declared⟩
  · rintro ⟨source, declared⟩
    exact ⟨_, declared, Option.isSome_of_mem (Export.namespaceFor?_eq_some.mpr rfl)⟩

end Declarations

namespace World

/-- The declarations of a static module say what it gives out under a name: the binding of the first
export that has one for it, or else a namespace that is exported under this name. -/
inductive Declares (id : RecordId) (module : StaticModule) (name : String) : Binding → Prop
  | own {before after : List Export} {e : Export} {binding : String}
      (exports : module.declarations.exports = before ++ e :: after) (binds : e.Binds name binding)
      (first : ∀ earlier ∈ before, ∀ other, ¬ earlier.Binds name other) :
      Declares id module name ⟨id, binding⟩
  | namespace {source : String} (declared : .allAs name source ∈ module.declarations.exports)
      (none : ∀ e ∈ module.declarations.exports, ∀ binding, ¬ e.Binds name binding) :
      Declares id module name ⟨id, name⟩

theorem ownBinding?_eq_some {id : RecordId} {module : StaticModule} {name : String}
    {binding : Binding} :
    ownBinding? id module name = some binding ↔ Declares id module name binding := by
  unfold ownBinding?
  constructor
  · intro found
    split at found
    · rename_i binding own
      cases found
      obtain ⟨before, e, after, exports, binds, first⟩ := Declarations.localExport?_eq_some.mp own
      exact .own exports binds first
    · rename_i none
      obtain ⟨source, given, rfl⟩ := Option.map_eq_some_iff.mp found
      obtain ⟨source, declared⟩ :=
        Declarations.namespaceExport?_isSome.mp (Option.isSome_of_mem given)
      exact .namespace declared (Declarations.localExport?_eq_none.mp none)
  · rintro (⟨exports, binds, first⟩ | ⟨declared, none⟩)
    · rw [Declarations.localExport?_eq_some.mpr ⟨_, _, _, exports, binds, first⟩]
    · obtain ⟨source, given⟩ := Option.isSome_iff_exists.mp
        (Declarations.namespaceExport?_isSome.mpr ⟨_, declared⟩)
      rw [Declarations.localExport?_eq_none.mpr none, given]
      rfl

/-- A module's stars are the records that it has requested for its exports of all names, in the order
of these exports. -/
theorem starTargets_eq (module : StaticModule) :
    starTargets module = module.declarations.exports.filterMap fun
      | .all source => module.requested.lookup source
      | _ => none := by
  rw [starTargets, Declarations.starSources, List.filterMap_filterMap]
  congr 1
  funext e
  cases e <;> rfl

theorem mem_starTargets {module : StaticModule} {star : RecordId} :
    star ∈ starTargets module ↔ ∃ source, .all source ∈ module.declarations.exports ∧
      module.requested.lookup source = some star := by
  rw [starTargets_eq, List.mem_filterMap]
  constructor
  · rintro ⟨e, declared, found⟩
    cases e with
    | all source => exact ⟨source, declared, found⟩
    | default | named | allAs => cases found
  · rintro ⟨source, declared, found⟩
    exact ⟨_, declared, found⟩

/-! ### Who provides a name -/

variable {w : World} {name : String} {id a p : RecordId} {module : StaticModule}
  {unvisited agenda : List RecordId}

/-- A record gives out a name itself: a static module that exports it, or a module of another shape.
-/
def Gives (w : World) (name : String) (id : RecordId) : Prop :=
  ∀ module, w.record id = .static module → (ownBinding? id module name).isSome

/-- A static module exports along a name of another record; `default` is never exported along. -/
def Forwards (w : World) (name : String) (a b : RecordId) : Prop :=
  name ≠ "default" ∧ ∃ module, w.record a = .static module ∧ b ∈ starTargets module

/-- What the search goes on to from a static module that does not give out the name itself. -/
theorem mem_stars_iff_forwards (found : w.record a = .static module) (s : RecordId) :
    s ∈ (if name = "default" then [] else starTargets module) ↔ w.Forwards name a s := by
  by_cases default : name = "default"
  · simp [Forwards, default]
  · simp [Forwards, default, found]

/-- A record provides a name, with the requests that are recorded now. -/
def Provides (w : World) (name : String) (id : RecordId) : Prop :=
  ∃ p, ReflTransGen (w.Forwards name) id p ∧ w.Gives name p

/-! ### The search for a binding -/

/-- A record provides a name through static modules that are unvisited. -/
def ProvidesWithin (w : World) (name : String) (unvisited : List RecordId) (id : RecordId) : Prop :=
  ∃ p, ReflTransGen (fun x y => x ∈ unvisited ∧ w.Forwards name x y) id p ∧ w.Gives name p ∧
    ∀ module, w.record p = .static module → p ∈ unvisited

theorem ProvidesWithin.head {b : RecordId} (unvisitedYet : a ∈ unvisited)
    (forwards : w.Forwards name a b) (h : w.ProvidesWithin name unvisited b) :
    w.ProvidesWithin name unvisited a := by
  obtain ⟨p, path, gives, last⟩ := h
  exact ⟨p, path.head ⟨unvisitedYet, forwards⟩, gives, last⟩

theorem ProvidesWithin.mono {more : List RecordId} (h : w.ProvidesWithin name unvisited a)
    (sub : unvisited ⊆ more) : w.ProvidesWithin name more a := by
  obtain ⟨p, path, gives, last⟩ := h
  exact ⟨p, ReflTransGen.mono (fun _ _ step => ⟨sub step.1, step.2⟩) _ _ path, gives,
    fun module found => sub (last module found)⟩

/-- A static module that was visited provides nothing any more. -/
theorem ProvidesWithin.mem_unvisited (h : w.ProvidesWithin name unvisited a)
    (found : w.record a = .static module) : a ∈ unvisited := by
  obtain ⟨p, path, _, last⟩ := h
  rcases ReflTransGen.cases_head path with rfl | ⟨_, step, _⟩
  · exact last module found
  · exact step.1

/-- What is provided is provided without a module that does not give out the name itself, or from
one that this module exports along: a path can be cut where it leaves the module for the last time.
-/
theorem ProvidesWithin.avoid (h : w.ProvidesWithin name unvisited a)
    (withholds : ¬ w.Gives name id) :
    a ≠ id ∧ w.ProvidesWithin name (unvisited.erase id) a ∨
      ∃ s, w.Forwards name id s ∧ w.ProvidesWithin name (unvisited.erase id) s := by
  obtain ⟨p, path, gives, last⟩ := h
  induction path using ReflTransGen.head_induction_on with
  | refl =>
    have differs : p ≠ id := fun same => withholds (same ▸ gives)
    exact .inl ⟨differs, p, .refl, gives, fun module found =>
      (List.mem_erase_of_ne differs).mpr (last module found)⟩
  | @head x y step _ ih =>
    rcases ih with ⟨_, avoids⟩ | around
    · by_cases same : x = id
      · exact .inr ⟨y, same ▸ step.2, avoids⟩
      · exact .inl ⟨same, avoids.head ((List.mem_erase_of_ne same).mpr step.1) step.2⟩
    · exact .inr around

/-- On an agenda, a module that withholds the name stands for those that it exports along. -/
theorem exists_providesWithin_of_withholds {rest stars : List RecordId}
    (unvisitedYet : id ∈ unvisited) (withholds : ¬ w.Gives name id)
    (star : ∀ s, s ∈ stars ↔ w.Forwards name id s) :
    (∃ a ∈ stars ++ rest, w.ProvidesWithin name (unvisited.erase id) a) ↔
      ∃ a ∈ id :: rest, w.ProvidesWithin name unvisited a := by
  constructor
  · rintro ⟨a, member, provides⟩
    have provides' := provides.mono List.erase_subset
    rcases List.mem_append.mp member with isStar | waits
    · exact ⟨id, List.mem_cons_self, provides'.head unvisitedYet ((star a).mp isStar)⟩
    · exact ⟨a, List.mem_cons_of_mem id waits, provides'⟩
  · rintro ⟨a, member, provides⟩
    rcases provides.avoid withholds with ⟨differs, avoids⟩ | ⟨s, forwards, avoids⟩
    · exact ⟨a, List.mem_append_right _ (List.mem_of_ne_of_mem differs member), avoids⟩
    · exact ⟨s, List.mem_append_left _ ((star s).mpr forwards), avoids⟩

/-- On an agenda, a static module that was visited adds nothing. -/
theorem exists_providesWithin_of_visited {rest : List RecordId}
    (found : w.record id = .static module) (visited : id ∉ unvisited) :
    (∃ a ∈ rest, w.ProvidesWithin name unvisited a) ↔
      ∃ a ∈ id :: rest, w.ProvidesWithin name unvisited a := by
  refine ⟨fun ⟨a, member, provides⟩ => ⟨a, List.mem_cons_of_mem id member, provides⟩, ?_⟩
  rintro ⟨a, member, provides⟩
  rcases List.mem_cons.mp member with rfl | waits
  · exact absurd (provides.mem_unvisited found) visited
  · exact ⟨a, waits, provides⟩

/-- The search ends at a module that gives out the name itself. -/
theorem searchBinding_own {rest : List RecordId} {binding : Binding}
    (found : w.record id = .static module) (unvisitedYet : id ∈ unvisited)
    (own : ownBinding? id module name = some binding) :
    w.searchBinding name unvisited (id :: rest) = some binding := by
  rw [searchBinding, found]
  simp only [unvisitedYet, own, if_true]

/-- From a module that withholds the name the search goes on to its stars. -/
theorem searchBinding_withheld {rest : List RecordId} (found : w.record id = .static module)
    (unvisitedYet : id ∈ unvisited) (own : ownBinding? id module name = none) :
    w.searchBinding name unvisited (id :: rest) =
      w.searchBinding name (unvisited.erase id)
        ((if name = "default" then [] else starTargets module) ++ rest) := by
  rw [searchBinding, found]
  simp only [unvisitedYet, own, if_true]

/-- The search passes over a static module that was visited. -/
theorem searchBinding_visited {rest : List RecordId} (found : w.record id = .static module)
    (visited : id ∉ unvisited) :
    w.searchBinding name unvisited (id :: rest) = w.searchBinding name unvisited rest := by
  rw [searchBinding, found]
  simp only [visited, if_false]

theorem searchBinding_foreign {rest : List RecordId}
    (notStatic : ∀ module, w.record id ≠ .static module) :
    w.searchBinding name unvisited (id :: rest) = some ⟨id, name⟩ := by
  rw [searchBinding]
  split
  · rename_i module found
    exact absurd found (notStatic module)
  · rfl

theorem searchBinding_isSome (w : World) (name : String) (unvisited agenda : List RecordId) :
    (w.searchBinding name unvisited agenda).isSome ↔
      ∃ a ∈ agenda, w.ProvidesWithin name unvisited a := by
  induction unvisited, agenda using searchBinding.induct w name with
  | case1 unvisited => simp [searchBinding]
  | case2 unvisited id rest module found unvisitedYet binding own =>
    rw [searchBinding_own found unvisitedYet own]
    simp only [Option.isSome_some, true_iff]
    refine ⟨id, List.mem_cons_self, id, .refl, fun module' found' => ?_, fun _ _ => unvisitedYet⟩
    cases found.symm.trans found'
    simp [own]
  | case3 unvisited id rest module found unvisitedYet own stars ih =>
    have withholds : ¬ w.Gives name id := fun gives => by simpa [own] using gives module found
    rw [searchBinding_withheld found unvisitedYet own]
    exact ih.trans (exists_providesWithin_of_withholds unvisitedYet withholds
      (mem_stars_iff_forwards found))
  | case4 unvisited id rest module found visited ih =>
    rw [searchBinding_visited found visited]
    exact ih.trans (exists_providesWithin_of_visited found visited)
  | case5 unvisited id rest notStatic =>
    have notStatic : ∀ module, w.record id ≠ .static module := fun module found =>
      notStatic module found
    rw [searchBinding_foreign notStatic]
    simp only [Option.isSome_some, true_iff]
    exact ⟨id, List.mem_cons_self, id, .refl, fun module found => absurd found (notStatic module),
      fun module found => absurd found (notStatic module)⟩

/-- There is a binding behind a name exactly if the name is provided. -/
theorem resolveExport_isSome (w : World) (id : RecordId) (name : String) :
    (w.resolveExport id name).isSome ↔ w.Provides name id := by
  have known {x : RecordId} {module : StaticModule} (found : w.record x = .static module) :
      x ∈ w.recordIds := mem_recordIds.mpr (hasRecord_of_static found)
  rw [resolveExport, searchBinding_isSome]
  constructor
  · rintro ⟨a, member, p, path, gives, _⟩
    obtain rfl := List.mem_singleton.mp member
    exact ⟨p, ReflTransGen.mono (fun _ _ step => step.2) _ _ path, gives⟩
  · rintro ⟨p, path, gives⟩
    refine ⟨id, List.mem_singleton_self id, p, ?_, gives, fun module found => known found⟩
    refine ReflTransGen.mono (fun x y forwards => ⟨?_, forwards⟩) _ _ path
    obtain ⟨_, module, found, _⟩ := forwards
    exact known found

/-! ### The binding that is found -/

/-- A binding that its record gives out under a name. -/
inductive GivenOut (w : World) (name : String) : Binding → Prop
  | own {binding : Binding} {module : StaticModule} (found : w.record binding.record = .static module)
      (declares : Declares binding.record module name binding) : GivenOut w name binding
  | foreign {id : RecordId} (notStatic : ∀ module, w.record id ≠ .static module) :
      GivenOut w name ⟨id, name⟩

theorem record_of_ownBinding? {binding : Binding} (own : ownBinding? id module name = some binding) :
    binding.record = id := by
  cases ownBinding?_eq_some.mp own <;> rfl

theorem searchBinding_eq_some {binding : Binding}
    (searched : w.searchBinding name unvisited agenda = some binding) :
    (∃ a ∈ agenda, ReflTransGen (w.Forwards name) a binding.record) ∧ w.GivenOut name binding := by
  induction unvisited, agenda using searchBinding.induct w name with
  | case1 unvisited => simp [searchBinding] at searched
  | case2 unvisited id rest module found unvisitedYet own isOwn =>
    rw [searchBinding_own found unvisitedYet isOwn] at searched
    cases searched
    obtain rfl := record_of_ownBinding? isOwn
    exact ⟨⟨binding.record, List.mem_cons_self, .refl⟩, .own found (ownBinding?_eq_some.mp isOwn)⟩
  | case3 unvisited id rest module found unvisitedYet own stars ih =>
    rw [searchBinding_withheld found unvisitedYet own] at searched
    obtain ⟨⟨a, member, path⟩, given⟩ := ih searched
    rcases List.mem_append.mp member with isStar | waits
    · exact ⟨⟨id, List.mem_cons_self, path.head ((mem_stars_iff_forwards found a).mp isStar)⟩, given⟩
    · exact ⟨⟨a, List.mem_cons_of_mem id waits, path⟩, given⟩
  | case4 unvisited id rest module found visited ih =>
    rw [searchBinding_visited found visited] at searched
    obtain ⟨⟨a, member, path⟩, given⟩ := ih searched
    exact ⟨⟨a, List.mem_cons_of_mem id member, path⟩, given⟩
  | case5 unvisited id rest notStatic =>
    have notStatic : ∀ module, w.record id ≠ .static module := fun module found =>
      notStatic module found
    rw [searchBinding_foreign notStatic] at searched
    cases searched
    exact ⟨⟨id, List.mem_cons_self, .refl⟩, .foreign notStatic⟩

/-- The binding behind an exported name is one that `export *` leads to. -/
theorem resolveExport_eq_some {binding : Binding} (resolved : w.resolveExport id name = some binding) :
    ReflTransGen (w.Forwards name) id binding.record ∧ w.GivenOut name binding := by
  obtain ⟨⟨a, member, path⟩, given⟩ := searchBinding_eq_some resolved
  exact ⟨List.mem_singleton.mp member ▸ path, given⟩

/-! ### The check of imports -/

/-- Import statements ask a static record for a name. -/
def Imported (w : World) (requested : List (String × RecordId)) (statements : List ImportStatement)
    (target : RecordId) (name : String) : Prop :=
  ∃ statement ∈ statements, requested.lookup statement.specifier = some target ∧
    (w.record target).kind = .static ∧ name ∈ statement.names.filterMap Embedding.importedName?

theorem imported_cons {requested : List (String × RecordId)} {statement : ImportStatement}
    {rest : List ImportStatement} {target : RecordId} :
    w.Imported requested (statement :: rest) target name ↔
      (requested.lookup statement.specifier = some target ∧ (w.record target).kind = .static ∧
        name ∈ statement.names.filterMap Embedding.importedName?) ∨
      w.Imported requested rest target name := by
  simp [Imported]

end World

namespace Embedding
variable {w : World}

theorem missingName?_eq_none {id : RecordId} {names : List Import} :
    missingName? w id names = none ↔ ((w.record id).kind = .static →
      ∀ name ∈ names.filterMap importedName?, w.Provides name id) := by
  unfold missingName?
  split
  · rename_i isStatic
    simp only [List.find?_eq_none, isStatic, forall_const]
    simp only [Bool.not_eq_true, Option.isNone_eq_false_iff, World.resolveExport_isSome]
  · simp [*]

theorem of_missingName? {id : RecordId} {names : List Import} {name : String}
    (missing : missingName? w id names = some name) : (w.record id).kind = .static ∧
      name ∈ names.filterMap importedName? ∧ ¬ w.Provides name id := by
  unfold missingName? at missing
  split at missing
  · rename_i isStatic
    refine ⟨isStatic, List.mem_of_find?_eq_some missing, ?_⟩
    have absent := List.find?_some missing
    rw [← World.resolveExport_isSome]
    simpa using absent
  · cases missing

/-- What a check of imports should come to: it passes if all names are provided, and fails for one
that is not. -/
inductive Judged (w : World) (requested : List (String × RecordId))
    (statements : List ImportStatement) : Except ModuleError Unit → Prop
  | passes (provided : ∀ target name, w.Imported requested statements target name →
      w.Provides name target) : Judged w requested statements (.ok ())
  | fails {target : RecordId} {name : String} (imported : w.Imported requested statements target name)
      (missing : ¬ w.Provides name target) :
      Judged w requested statements (.error (.missingExport (w.describe target) name))

/-- A statement all of whose names are provided adds nothing to a check. -/
theorem Judged.cons {requested : List (String × RecordId)} {statement : ImportStatement}
    {rest : List ImportStatement} {outcome : Except ModuleError Unit}
    (judged : Judged w requested rest outcome)
    (provided : ∀ target, requested.lookup statement.specifier = some target →
      (w.record target).kind = .static →
        ∀ name ∈ statement.names.filterMap importedName?, w.Provides name target) :
    Judged w requested (statement :: rest) outcome := by
  cases judged with
  | passes others =>
    refine .passes fun target name imported => ?_
    rcases World.imported_cons.mp imported with ⟨found, isStatic, member⟩ | imported
    · exact provided target found isStatic name member
    · exact others target name imported
  | fails imported missing => exact .fails (World.imported_cons.mpr (.inr imported)) missing

theorem judged_checkImports (w : World) (requested : List (String × RecordId))
    (statements : List ImportStatement) :
    Judged w requested statements (checkImports w requested statements) := by
  induction statements with
  | nil => exact .passes fun _ _ ⟨_, member, _⟩ => absurd member List.not_mem_nil
  | cons statement rest ih =>
    unfold checkImports
    split
    · rename_i absent
      exact ih.cons fun target found => by simp [absent] at found
    · rename_i target found
      split
      · rename_i name missing
        obtain ⟨isStatic, member, absent⟩ := of_missingName? missing
        exact .fails (World.imported_cons.mpr (.inl ⟨found, isStatic, member⟩)) absent
      · rename_i none
        refine ih.cons fun target' found' => ?_
        cases found.symm.trans found'
        exact missingName?_eq_none.mp none

end Embedding
end ModuleGraph
