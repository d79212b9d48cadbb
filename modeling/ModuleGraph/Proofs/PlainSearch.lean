import Mathlib.Data.List.Basic
import ModuleGraph.Proofs.Providers

/-!
The search for a binding against the plain search. The plain search goes along every simple path of
`export *` from left to right, however often that leads to the same module. The search that visits no
module twice finds the same: from a module that it has left without a binding, the plain search comes
to none either, also on paths that it did not try.
-/
namespace ModuleGraph
open Relation

namespace World
variable {w : World} {name : String} {id : RecordId} {module : StaticModule}
  {path more : List RecordId}

/-- The first provider of a name from a record on, along simple paths: the modules of the path that
leads to the record are not entered again. A module that is not static provides every name; a static
one provides what it declares itself (`ownBinding?_eq_some`), and otherwise its stars are searched in
the order of their declarations (`starTargets_eq`), but never for `default`. -/
def searchPaths (world : World) (name : String) (path : List RecordId) (id : RecordId) :
    Option Binding :=
  match _found : world.record id with
  | .static module =>
    if id ∈ path then none
    else
      (ownBinding? id module name).or <|
        (if name = "default" then [] else starTargets module).findSome? fun star =>
          searchPaths world name (id :: path) star
  | _ => some ⟨id, name⟩
termination_by (world.recordIds.filter (· ∉ path)).length
decreasing_by
  have present : id ∈ world.recordIds := mem_recordIds.mpr (hasRecord_of_static ‹_›)
  have smaller : world.recordIds.filter (· ∉ id :: path) =
      (world.recordIds.filter (· ∉ path)).filter (· ≠ id) := by
    simp [List.filter_filter]
  rw [smaller]
  exact List.length_filter_lt_length_iff_exists.mpr ⟨id, by simp [*], by simp⟩

theorem searchPaths_foreign (notStatic : ∀ module, w.record id ≠ .static module) :
    w.searchPaths name path id = some ⟨id, name⟩ := by
  rw [searchPaths]
  split
  · rename_i module found
    exact absurd found (notStatic module)
  · rfl

theorem searchPaths_entered (found : w.record id = .static module) (entered : id ∈ path) :
    w.searchPaths name path id = none := by
  rw [searchPaths]
  split
  · rw [if_pos entered]
  · rename_i notStatic
    exact absurd found (notStatic module)

/-- A module that is entered answers itself, or its stars answer for it. -/
theorem searchPaths_new (found : w.record id = .static module) (new : id ∉ path) :
    w.searchPaths name path id = (ownBinding? id module name).or
      ((if name = "default" then [] else starTargets module).findSome?
        (w.searchPaths name (id :: path))) := by
  rw [searchPaths]
  split
  · rename_i module' found'
    obtain rfl : module' = module := Record.static.inj (found'.symm.trans found)
    rw [if_neg new]
  · rename_i notStatic
    exact absurd found (notStatic module)

/-- What a search does not find, it does not find either when more modules are not to be entered. -/
theorem searchPaths_eq_none_of_subset (sub : path ⊆ more)
    (nothing : w.searchPaths name path id = none) : w.searchPaths name more id = none := by
  induction path, id using searchPaths.induct w generalizing more with
  | case1 path id module found entered => exact searchPaths_entered found (sub entered)
  | case2 path id module found new ih =>
    rw [searchPaths_new found new, Option.or_eq_none_iff, List.findSome?_eq_none_iff] at nothing
    by_cases entered : id ∈ more
    · exact searchPaths_entered found entered
    · rw [searchPaths_new found entered, Option.or_eq_none_iff, List.findSome?_eq_none_iff]
      exact ⟨nothing.1, fun star member =>
        ih star (List.cons_subset_cons id sub) (nothing.2 star member)⟩
  | case3 path id notStatic =>
    rw [searchPaths_foreign fun module found => notStatic module found] at nothing
    cases nothing

/-- Modules from which a search finds nothing make no difference when they are not to be entered: on
its way to a provider it never comes through one of them. -/
theorem searchPaths_of_spent (sub : path ⊆ more)
    (spent : ∀ x ∈ more, x ∉ path → w.searchPaths name path x = none) :
    w.searchPaths name more id = w.searchPaths name path id := by
  induction path, id using searchPaths.induct w generalizing more with
  | case1 path id module found entered =>
    rw [searchPaths_entered found entered, searchPaths_entered found (sub entered)]
  | case2 path id module found new ih =>
    by_cases entered : id ∈ more
    · rw [searchPaths_entered found entered, spent id entered new]
    · have spent' : ∀ x ∈ id :: more, x ∉ id :: path → w.searchPaths name (id :: path) x = none := by
        intro x member outside
        obtain ⟨differs, outside⟩ := not_or.mp (mt List.mem_cons.mpr outside)
        exact searchPaths_eq_none_of_subset (List.subset_cons_self id path)
          (spent x (List.mem_of_ne_of_mem differs member) outside)
      rw [searchPaths_new found new, searchPaths_new found entered]
      congr 2
      exact funext fun star => ih star (List.cons_subset_cons id sub) spent'
  | case3 path id notStatic =>
    have notStatic : ∀ module, w.record id ≠ .static module := fun module found =>
      notStatic module found
    rw [searchPaths_foreign notStatic, searchPaths_foreign notStatic]

/-- The search that visits no module twice finds what plain searches from its agenda find, one after
the other, that do not enter what it has visited. -/
theorem searchBinding_eq_findSome? (w : World) (name : String) {unvisited agenda : List RecordId}
    (nodup : unvisited.Nodup) (rest : ∀ x, x ∈ unvisited ↔ w.hasRecord x ∧ x ∉ path) :
    w.searchBinding name unvisited agenda = agenda.findSome? (w.searchPaths name path) := by
  induction unvisited, agenda using searchBinding.induct w name generalizing path with
  | case1 unvisited => simp [searchBinding]
  | case2 unvisited id others module found unvisitedYet binding own =>
    rw [searchBinding_own found unvisitedYet own, List.findSome?_cons,
      searchPaths_new found ((rest id).mp unvisitedYet).2, own, Option.some_or]
  | case3 unvisited id others module found unvisitedYet own stars =>
    rename_i ih
    have new := ((rest id).mp unvisitedYet).2
    have rest' (x : RecordId) : x ∈ unvisited.erase id ↔ w.hasRecord x ∧ x ∉ id :: path := by
      rw [nodup.mem_erase_iff, rest, List.mem_cons, not_or]
      tauto
    have here : w.searchPaths name path id = stars.findSome? (w.searchPaths name (id :: path)) := by
      rw [searchPaths_new found new, own, Option.none_or]
      rfl
    have goesOn : w.searchBinding name unvisited (id :: others) =
        (stars ++ others).findSome? (w.searchPaths name (id :: path)) :=
      (searchBinding_withheld found unvisitedYet own).trans (ih (nodup.erase id) rest')
    rw [goesOn, List.findSome?_append, List.findSome?_cons, here]
    cases fromStars : stars.findSome? (w.searchPaths name (id :: path)) with
    | some binding => rfl
    | none =>
      -- The module leads to nothing, so the rest of the agenda can be searched without it.
      have spent : ∀ x ∈ id :: path, x ∉ path → w.searchPaths name path x = none := by
        intro x member outside
        rw [List.mem_cons.mp member |>.resolve_right outside, here, fromStars]
      rw [Option.none_or]
      congr 1
      exact funext fun x => searchPaths_of_spent (List.subset_cons_self id path) spent
  | case4 unvisited id others module found visited ih =>
    have entered : id ∈ path := by
      by_contra new
      exact visited ((rest id).mpr ⟨hasRecord_of_static found, new⟩)
    rw [searchBinding_visited found visited, ih nodup rest, List.findSome?_cons,
      searchPaths_entered found entered]
  | case5 unvisited id others notStatic =>
    have notStatic : ∀ module, w.record id ≠ .static module := fun module found =>
      notStatic module found
    rw [searchBinding_foreign notStatic, List.findSome?_cons, searchPaths_foreign notStatic]

/-- To visit no module twice costs a search nothing: for every record and every name it finds the
same as the plain search along simple paths. It finds a binding exactly if the name is provided, and
then one of a module that `export *` leads to and that gives out the name itself: the binding that
its declarations name, or any if it is not static. -/
theorem pruned_search_finds_what_plain_search_finds (w : World) (id : RecordId) (name : String) :
    w.resolveExport id name = w.searchPaths name [] id ∧
      ((w.resolveExport id name).isSome ↔ w.Provides name id) ∧
      ∀ binding, w.resolveExport id name = some binding →
        ReflTransGen (w.Forwards name) id binding.record ∧ w.GivenOut name binding := by
  have rest (x : RecordId) : x ∈ w.recordIds ↔ w.hasRecord x ∧ x ∉ ([] : List RecordId) := by
    simp [mem_recordIds]
  refine ⟨?_, resolveExport_isSome w id name, fun binding => resolveExport_eq_some⟩
  rw [resolveExport, searchBinding_eq_findSome? w name (nodup_recordIds w) rest]
  simp

end World
end ModuleGraph
