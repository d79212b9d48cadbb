import ModuleGraph.Proofs.LinkedGraphs

/-!
Exported names. Where `export *` leads to static modules only, the names of a module are known in
any state of linking, and they are those that the search for a binding finds a provider of: the two
go through the same modules, though one of them visits a module for all names and the other one for
each.
-/
namespace ModuleGraph
open Relation

namespace World
variable {w : World} {id a b : RecordId} {name : String} {module : StaticModule}
  {names more : List String} {unvisited agenda : List RecordId}

/-! ### Names that are added -/

theorem mem_addNames : name ∈ addNames names more ↔ name ∈ names ∨ name ≠ "default" ∧ name ∈ more := by
  induction more generalizing names with
  | nil => simp [addNames]
  | cons next rest ih =>
    rw [addNames, List.foldl_cons, ← addNames, ih]
    by_cases skipped : next = "default" ∨ names.contains next
    · rw [if_pos skipped]
      have known : name = next → name ≠ "default" → name ∈ names := by
        rintro rfl notDefault
        simpa [notDefault] using skipped
      grind
    · rw [if_neg skipped]
      grind

theorem nodup_addNames (nodup : names.Nodup) : (addNames names more).Nodup := by
  induction more generalizing names with
  | nil => exact nodup
  | cons next rest ih =>
    rw [addNames, List.foldl_cons, ← addNames]
    split
    · exact ih nodup
    · rename_i isNew
      refine ih (List.nodup_append.mpr ⟨nodup, List.nodup_singleton next, fun x member y same => ?_⟩)
      rw [List.mem_singleton.mp same]
      rintro rfl
      exact isNew (.inr (List.contains_iff_mem.mpr member))

/-! ### Names that are collected -/

/-- A static module exports along what another record exports. -/
def ExportsAlong (w : World) (a b : RecordId) : Prop :=
  ∃ module, w.record a = .static module ∧ b ∈ starTargets module

/-- All that `export *` leads to from a record is static. -/
def StaticStars (w : World) (id : RecordId) : Prop :=
  ∀ x, ReflTransGen w.ExportsAlong id x → (w.record x).kind = .static

theorem StaticStars.of_exportsAlong (h : w.StaticStars a) (along : w.ExportsAlong a b) :
    w.StaticStars b := fun x path => h x (path.head along)

/-- A static module gives out the names that it lists itself. -/
theorem gives_iff_mem_ownNames (found : w.record id = .static module) :
    w.Gives name id ↔ name ∈ module.declarations.ownNames := by
  have given (e : Export) : (e.bindingFor? name).isSome ∨ (e.namespaceFor? name).isSome ↔
      e.name? = some name := by
    cases e with
    | default => simp [Export.bindingFor?, Export.namespaceFor?, Export.name?, eq_comm (a := name)]
    | _ => simp [Export.bindingFor?, Export.namespaceFor?, Export.name?]
  have own : (ownBinding? id module name).isSome ↔
      (module.declarations.localExport? name).isSome ∨
        (module.declarations.namespaceExport? name).isSome := by
    unfold ownBinding?
    split <;> simp [*]
  calc w.Gives name id
      ↔ (ownBinding? id module name).isSome := by simp [Gives, found]
    _ ↔ ∃ e ∈ module.declarations.exports,
          (e.bindingFor? name).isSome ∨ (e.namespaceFor? name).isSome := by
      rw [own, Declarations.localExport?, Declarations.namespaceExport?, List.findSome?_isSome_iff,
        List.findSome?_isSome_iff]
      simp only [and_or_left, exists_or]
    _ ↔ name ∈ module.declarations.ownNames := by
      simp only [given, Declarations.ownNames, List.mem_filterMap]

/-- The names that are collected are those there were before, and those but `default` that records
on the agenda provide through modules that are unvisited. -/
theorem collectNames_eq_some (w : World) (unvisited agenda : List RecordId) (names : List String)
    (stars : ∀ a ∈ agenda, w.StaticStars a) :
    ∃ all left, w.collectNames unvisited agenda names = some (all, left) ∧
      (∀ name, name ∈ all ↔
        name ∈ names ∨ name ≠ "default" ∧ ∃ a ∈ agenda, w.ProvidesWithin name unvisited a) ∧
      (names.Nodup → all.Nodup) := by
  induction unvisited, agenda, names using collectNames.induct w with
  | case1 unvisited names => exact ⟨names, unvisited, by simp [collectNames]⟩
  | case2 unvisited names id rest module found unvisitedYet ih =>
    obtain ⟨here, stars⟩ := List.forall_mem_cons.mp stars
    have along (s : RecordId) (member : s ∈ starTargets module) : w.ExportsAlong id s :=
      ⟨module, found, member⟩
    obtain ⟨all, left, collected, isMember, nodup⟩ := ih fun a member =>
      (List.mem_append.mp member).elim (fun isStar => here.of_exportsAlong (along a isStar)) (stars a)
    rw [collectNames, found]
    simp only [unvisitedYet, if_true]
    refine ⟨all, left, collected, fun name => ?_, fun h => nodup (nodup_addNames h)⟩
    rw [isMember, mem_addNames, or_assoc, ← and_or_left]
    refine or_congr_right (and_congr_right fun notDefault => ?_)
    by_cases gives : w.Gives name id
    · have provides : w.ProvidesWithin name unvisited id := ⟨id, .refl, gives, fun _ _ => unvisitedYet⟩
      exact iff_of_true (.inl ((gives_iff_mem_ownNames found).mp gives))
        ⟨id, List.mem_cons_self, provides⟩
    · rw [or_iff_right ((gives_iff_mem_ownNames found).not.mp gives)]
      refine exists_providesWithin_of_withholds unvisitedYet gives fun s => ?_
      simp [Forwards, notDefault, found]
  | case3 unvisited names id rest module found visited ih =>
    obtain ⟨all, left, collected, isMember, nodup⟩ := ih (List.forall_mem_cons.mp stars).2
    rw [collectNames, found]
    simp only [visited, if_false]
    refine ⟨all, left, collected, fun name => ?_, nodup⟩
    rw [isMember, exists_providesWithin_of_visited found visited]
  | case4 unvisited names id rest _ notStatic | case5 unvisited names id rest notStatic =>
    obtain ⟨module, found⟩ := kind_eq_static.mp (stars id List.mem_cons_self id .refl)
    exact absurd found (notStatic module)

end World

open World

/-- Where `export *` leads to static modules only, the names of a static module are known. They are
the names that have a binding behind them; `default` is one of them only if the module exports it
itself; and none of them is listed twice, if the module lists none of its own names twice. -/
theorem known_names_are_those_that_resolve (w : World) (id : RecordId) (module : StaticModule)
    (found : w.record id = .static module) (stars : w.StaticStars id) :
    ∃ names, w.knownNames? id = some names ∧
      (∀ name, name ∈ names ↔ (w.resolveExport id name).isSome) ∧
      ("default" ∈ names → "default" ∈ module.declarations.ownNames) ∧
      (module.declarations.ownNames.Nodup → names.Nodup) := by
  have unvisitedYet : id ∈ w.recordIds := mem_recordIds.mpr (hasRecord_of_static found)
  obtain ⟨names, left, collected, isMember, nodup⟩ := w.collectNames_eq_some (w.recordIds.erase id)
    (starTargets module) module.declarations.ownNames fun a member =>
      stars.of_exportsAlong ⟨module, found, member⟩
  refine ⟨names, by simp [knownNames?, found, collected], fun name => ?_, fun default => ?_, nodup⟩
  · have search : (w.resolveExport id name).isSome ↔
        ∃ a ∈ [id], w.ProvidesWithin name w.recordIds a := searchBinding_isSome w name _ _
    rw [isMember, search]
    by_cases gives : w.Gives name id
    · exact iff_of_true (.inl ((gives_iff_mem_ownNames found).mp gives))
        ⟨id, List.mem_singleton_self id, id, .refl, gives, fun _ _ => unvisitedYet⟩
    · rw [or_iff_right ((gives_iff_mem_ownNames found).not.mp gives)]
      rw [← exists_providesWithin_of_withholds unvisitedYet gives (mem_stars_iff_forwards found)]
      by_cases default : name = "default" <;> simp [default]
  · simpa using (isMember "default").mp default

/-- Two linked modules that export along each other's names: `a` has an `x` of its own, and `b` has
a default and a `y`. -/
def starCycle : World where
  records := #[
    .static {
      location := .fileUrl "" ['/', 'a'], declarations := { exports := [.named "x" none, .all "b"] }
      body := fun _ => .give .undefined, importer := .table, status := .linked
      requested := [("b", ⟨1⟩)] },
    .static {
      location := .fileUrl "" ['/', 'b']
      declarations := { exports := [.default, .named "y" none, .all "a"] }
      body := fun _ => .give .undefined, importer := .table, status := .linked
      requested := [("a", ⟨0⟩)] }]

theorem staticStars_starCycle : starCycle.StaticStars ⟨0⟩ := by
  intro x path
  rcases ReflTransGen.cases_tail path with rfl | ⟨_, _, module, found, member⟩
  · rfl
  · have targets := static_of_all starCycle (fun _ module =>
      (starTargets module).all fun s => (starCycle.record s).kind = .static) (by cbv) found
    simpa using List.all_eq_true.mp targets x member

/-- On the cycle, `a` exports the `y` of `b` along, but not its default. -/
theorem known_names_in_starCycle :
    ∃ names, starCycle.knownNames? ⟨0⟩ = some names ∧ "y" ∈ names ∧ "default" ∉ names ∧
      names.Nodup := by
  obtain ⟨names, known, resolves, default, nodup⟩ :=
    known_names_are_those_that_resolve starCycle ⟨0⟩ _ rfl staticStars_starCycle
  refine ⟨names, known, (resolves "y").mpr (by cbv), fun member => ?_, nodup (by decide)⟩
  exact absurd (default member) (by decide)

end ModuleGraph
