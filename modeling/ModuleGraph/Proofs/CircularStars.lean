import ModuleGraph.Proofs.KnownNames

/-!
Questions that go around. A static module that is asked for its names passes the question on to the
first of its stars behind which names are unknown, and that star is asked as if nobody had been asked
before. So on a circle of `export *` a question may come back to where it was: then it never ends. In
all other cases no module is asked twice, and to ask goes no deeper than there are records.
-/
namespace ModuleGraph
open World Relation

namespace World
variable {w : World} {id aside a b s star x y : RecordId} {module : StaticModule}
  {names own more all : List String} {unvisited left agenda stars : List RecordId}

/-! ### Searches for known names -/

/-- Adds what is found at stars one after the other, and stops at the first one with unknown names. -/
def gatherNames (search : RecordId → List RecordId → Option (Option (List String) × List RecordId)) :
    List RecordId → List RecordId → List String → Option (Option (List String) × List RecordId)
  | [], unvisited, names => some (some names, unvisited)
  | star :: rest, unvisited, names =>
    match search star unvisited with
    | none => none
    | some (none, unvisited) => some (none, unvisited)
    | some (some more, unvisited) => gatherNames search rest unvisited (addNames names more)

/-- The names of a record, looked for by calls nested so deep: those of a static module are looked for
at its stars by further calls, unless it was visited before. Gives the names if they are known, and what
is still unvisited; it has no result if the calls would have to go deeper. -/
def namesWithin (w : World) : Nat → RecordId → List RecordId →
    Option (Option (List String) × List RecordId)
  | 0, _, _ => none
  | depth + 1, id, unvisited =>
    match w.record id with
    | .static module =>
      if id ∈ unvisited then
        gatherNames (w.namesWithin depth) (starTargets module) (unvisited.erase id)
          module.declarations.ownNames
      else some (some [], unvisited)
    | record => some (record.settledNames?, unvisited)

theorem addNames_cons (names : List String) (next : String) (rest : List String) :
    addNames names (next :: rest) =
      addNames (if next = "default" ∨ names.contains next then names else names ++ [next]) rest := rfl

/-- To add names that were added to others is to add all of them. -/
theorem addNames_addNames (names own more : List String) :
    addNames names (addNames own more) = addNames (addNames names own) more := by
  induction more generalizing own with
  | nil => rfl
  | cons next rest ih =>
    rw [addNames_cons, ih, addNames_cons]
    refine congrArg (addNames · rest) ?_
    by_cases isDefault : next = "default"
    · rw [if_pos (.inl isDefault), if_pos (.inl isDefault)]
    · by_cases present : next ∈ own
      · have added : next ∈ addNames names own := mem_addNames.mpr (.inr ⟨isDefault, present⟩)
        rw [if_pos (.inr (List.contains_iff_mem.mpr present)),
          if_pos (.inr (List.contains_iff_mem.mpr added))]
      · have new : ¬ (next = "default" ∨ own.contains next) :=
          not_or.mpr ⟨isDefault, by simpa using present⟩
        rw [if_neg new]
        exact List.foldl_append

/-- Names can be added before or after others are collected. -/
theorem collectNames_addNames (w : World) (unvisited agenda : List RecordId) (names own : List String) :
    w.collectNames unvisited agenda (addNames names own) =
      (w.collectNames unvisited agenda own).map fun collected =>
        (addNames names collected.1, collected.2) := by
  induction unvisited, agenda, own using collectNames.induct w with
  | case1 unvisited own => rw [collectNames_nil, collectNames_nil, Option.map_some]
  | case2 unvisited own id others module found unvisitedYet ih =>
    rw [collectNames_new found unvisitedYet, collectNames_new found unvisitedYet, ← addNames_addNames,
      ih]
  | case3 unvisited own id others module found visited ih =>
    rw [collectNames_visited found visited, collectNames_visited found visited, ih]
  | case4 unvisited own id others more notStatic known ih =>
    rw [collectNames_settled known, collectNames_settled known, ← addNames_addNames, ih]
  | case5 unvisited own id others notStatic unknown =>
    have unnamed : w.Unnamed id := ⟨kind_ne_static_iff.mpr fun module => notStatic module, unknown⟩
    rw [collectNames_unnamed unnamed, collectNames_unnamed unnamed, Option.map_none]

/-- What is found for a record comes to what is collected along the agenda of this record alone. -/
def Finds (w : World) (id : RecordId) (unvisited : List RecordId) :
    Option (Option (List String) × List RecordId) → Prop
  | none => False
  | some (names?, left) => left.length ≤ unvisited.length ∧ ∀ names,
      w.collectNames unvisited [id] names = names?.map fun more => (addNames names more, left)

/-- Names that are gathered from stars come to those that are collected along them. -/
theorem exists_gatherNames {bound : Nat}
    {search : RecordId → List RecordId → Option (Option (List String) × List RecordId)}
    (finds : ∀ star unvisited, unvisited.length ≤ bound →
      w.Finds star unvisited (search star unvisited))
    (fits : unvisited.length ≤ bound) :
    ∃ names? left, gatherNames search stars unvisited own = some (names?, left) ∧
      left.length ≤ unvisited.length ∧
      w.collectNames unvisited stars own = names?.map fun all => (all, left) := by
  induction stars generalizing unvisited own with
  | nil => exact ⟨some own, unvisited, rfl, Nat.le_refl _, collectNames_nil w unvisited own⟩
  | cons star rest ih =>
    have found := finds star unvisited fits
    have split := w.collectNames_append unvisited [star] rest own
    rw [List.singleton_append] at split
    rw [gatherNames, split]
    cases here : search star unvisited with
    | none =>
      rw [here] at found
      exact found.elim
    | some result =>
      obtain ⟨more?, left⟩ := result
      rw [here] at found
      obtain ⟨fewer, collected⟩ := found
      rw [collected]
      cases more? with
      | none => exact ⟨none, left, rfl, fewer, rfl⟩
      | some more =>
        obtain ⟨names?, left', gathered, fewer', others⟩ := ih (Nat.le_trans fewer fits)
        exact ⟨names?, left', gathered, Nat.le_trans fewer' fewer, others⟩

theorem namesWithin_foreign (notStatic : (w.record id).kind ≠ .static) (depth : Nat)
    (unvisited : List RecordId) :
    w.namesWithin (depth + 1) id unvisited = some ((w.record id).settledNames?, unvisited) := by
  rw [namesWithin]
  split
  · rename_i module found
    exact absurd found (kind_ne_static_iff.mp notStatic module)
  · rfl

theorem namesWithin_static (found : w.record id = .static module) (depth : Nat)
    (unvisited : List RecordId) :
    w.namesWithin (depth + 1) id unvisited =
      if id ∈ unvisited then
        gatherNames (w.namesWithin depth) (starTargets module) (unvisited.erase id)
          module.declarations.ownNames
      else some (some [], unvisited) := by
  rw [namesWithin, found]

theorem length_erase_lt {depth : Nat} (present : id ∈ unvisited)
    (deep : unvisited.length < depth + 1) : (unvisited.erase id).length < depth := by
  have := List.length_erase_of_mem present
  have := List.length_pos_of_mem present
  omega

/-- A search by nested calls finds what is collected along an agenda, and it goes no deeper than there
are unvisited records. -/
theorem finds_namesWithin (w : World) (depth : Nat) (id : RecordId) (unvisited : List RecordId)
    (deep : unvisited.length < depth) : w.Finds id unvisited (w.namesWithin depth id unvisited) := by
  induction depth generalizing id unvisited with
  | zero => exact absurd deep (Nat.not_lt_zero _)
  | succ depth ih =>
    by_cases isStatic : (w.record id).kind = .static
    · obtain ⟨module, found⟩ := kind_eq_static.mp isStatic
      rw [namesWithin_static found]
      by_cases present : id ∈ unvisited
      · have deeper := length_erase_lt present deep
        obtain ⟨names?, left, gathered, fewer, collected⟩ := exists_gatherNames
          (fun star others smaller => ih star others (Nat.lt_of_le_of_lt smaller deeper))
          (Nat.le_refl _)
        rw [if_pos present, gathered]
        refine ⟨Nat.le_trans fewer (List.length_erase_le), fun names => ?_⟩
        rw [collectNames_new found present, List.append_nil, collectNames_addNames, collected,
          Option.map_map]
        rfl
      · rw [if_neg present]
        refine ⟨Nat.le_refl _, fun names => ?_⟩
        rw [collectNames_visited found present, collectNames_nil]
        rfl
    · rw [namesWithin_foreign isStatic]
      refine ⟨Nat.le_refl _, fun names => ?_⟩
      cases known : (w.record id).settledNames? with
      | none => exact collectNames_unnamed ⟨isStatic, known⟩
      | some more => rw [collectNames_settled known, collectNames_nil, Option.map_some]

/-- To look for the known names of a record takes no deeper calls than there are records. -/
theorem namesWithin_eq_knownNames? {depth : Nat} (w : World) (id : RecordId)
    (deep : w.records.size < depth) :
    (w.namesWithin depth id w.recordIds).map Prod.fst = some (w.knownNames? id) := by
  have count : w.recordIds.length = w.records.size := by simp [recordIds]
  obtain ⟨depth, rfl⟩ : ∃ less, depth = less + 1 := ⟨depth - 1, by omega⟩
  by_cases isStatic : (w.record id).kind = .static
  · obtain ⟨module, found⟩ := kind_eq_static.mp isStatic
    have present : id ∈ w.recordIds := mem_recordIds.mpr (hasRecord_of_static found)
    have deeper := length_erase_lt present (count ▸ deep)
    obtain ⟨names?, left, gathered, -, collected⟩ := exists_gatherNames
      (fun star others smaller =>
        w.finds_namesWithin depth star others (Nat.lt_of_le_of_lt smaller deeper))
      (Nat.le_refl _)
    rw [namesWithin_static found, if_pos present, gathered, knownNames?_static found, collected,
      Option.map_map, Option.map_some]
    cases names? <;> rfl
  · rw [namesWithin_foreign isStatic, knownNames?_foreign isStatic, Option.map_some]

/-! ### Questions that are passed on -/

/-- From a record `export *` leads to one whose names nobody knows, on a way that does not go on from
the record that asks. -/
def Lacks (w : World) (aside a : RecordId) : Prop :=
  ∃ t, ReflTransGen (fun x y => x ≠ aside ∧ w.ExportsAlong x y) a t ∧ w.Unnamed t

/-- A static module passes a question for its names on to the first of its stars that lacks names. -/
def PassesOn (w : World) (id star : RecordId) : Prop :=
  ∃ module before after, w.record id = .static module ∧
    starTargets module = before ++ star :: after ∧ w.Lacks id star ∧ ∀ s ∈ before, ¬ w.Lacks id s

/-- A question for the names of a record is passed on until it comes back to where it was. -/
def GoesAround (w : World) (id : RecordId) : Prop :=
  ∃ x, ReflTransGen w.PassesOn id x ∧ TransGen w.PassesOn x x

theorem Lacks.exists_unnamed (lacks : w.Lacks aside a) : ∃ t, w.StarsTo a t ∧ w.Unnamed t := by
  obtain ⟨t, path, unnamed⟩ := lacks
  exact ⟨t, ReflTransGen.mono (fun _ _ step => step.2) _ _ path, unnamed⟩

theorem Lacks.head (differs : x ≠ aside) (along : w.ExportsAlong x y) (lacks : w.Lacks aside y) :
    w.Lacks aside x := by
  obtain ⟨t, path, unnamed⟩ := lacks
  exact ⟨t, path.head ⟨differs, along⟩, unnamed⟩

theorem PassesOn.exportsAlong (passes : w.PassesOn id star) : w.ExportsAlong id star := by
  obtain ⟨module, before, after, found, split, -⟩ := passes
  exact ⟨module, found, by simp [split]⟩

/-- The names of a star that lacks some are not known. -/
theorem PassesOn.unknown (passes : w.PassesOn id star) : w.knownNames? star = none := by
  obtain ⟨_, _, _, _, _, lacks, _⟩ := passes
  exact knownNames?_eq_none.mpr lacks.exists_unnamed

theorem GoesAround.head (around : w.GoesAround star) (passes : w.PassesOn id star) :
    w.GoesAround id := by
  obtain ⟨x, path, circle⟩ := around
  exact ⟨x, path.head passes, circle⟩

/-- Nor are those of the module that passes the question on. -/
theorem PassesOn.head_unknown (passes : w.PassesOn id star) : w.knownNames? id = none := by
  obtain ⟨t, path, unnamed⟩ := knownNames?_eq_none.mp passes.unknown
  exact knownNames?_eq_none.mpr ⟨t, path.head passes.exportsAlong, unnamed⟩

/-- There is only one star that a question is passed on to. -/
theorem PassesOn.unique (passes : w.PassesOn id a) (passes' : w.PassesOn id b) : a = b := by
  classical
  obtain ⟨module, before, after, found, split, lacks, none⟩ := passes
  obtain ⟨module', before', after', found', split', lacks', none'⟩ := passes'
  cases found.symm.trans found'
  have first : (starTargets module).find? (fun s => decide (w.Lacks id s)) = some a :=
    List.find?_eq_some_iff_append.mpr ⟨by simpa, before, after, split, by simpa using none⟩
  have first' : (starTargets module).find? (fun s => decide (w.Lacks id s)) = some b :=
    List.find?_eq_some_iff_append.mpr ⟨by simpa, before', after', split', by simpa using none'⟩
  exact Option.some.inj (first.symm.trans first')

/-- What was visited is done with: but for the record that asks, its stars have nothing left to be
collected. -/
def Explored (w : World) (aside : RecordId) (unvisited : List RecordId) : Prop :=
  ∀ x, x ≠ aside → x ∉ unvisited → ∀ y, w.ExportsAlong x y → w.Met unvisited y

theorem Met.mono (met : w.Met unvisited x) (sub : left ⊆ unvisited) : w.Met left x :=
  ⟨met.1, fun module found inside => met.2 module found (sub inside)⟩

/-- If names cannot be collected, one of those on the agenda lacks names. -/
theorem exists_lacks_of_collectNames (apart : aside ∉ unvisited)
    (stuck : w.collectNames unvisited agenda names = none) : ∃ a ∈ agenda, w.Lacks aside a := by
  induction unvisited, agenda, names using collectNames.induct w with
  | case1 unvisited names =>
    rw [collectNames_nil] at stuck
    cases stuck
  | case2 unvisited names id others module found unvisitedYet ih =>
    rw [collectNames_new found unvisitedYet] at stuck
    obtain ⟨a, member, lacks⟩ := ih (fun inside => apart (List.mem_of_mem_erase inside)) stuck
    rcases List.mem_append.mp member with isStar | waits
    · have differs : id ≠ aside := fun same => apart (same ▸ unvisitedYet)
      exact ⟨id, List.mem_cons_self, lacks.head differs ⟨module, found, isStar⟩⟩
    · exact ⟨a, List.mem_cons_of_mem id waits, lacks⟩
  | case3 unvisited names id others module found visited ih =>
    rw [collectNames_visited found visited] at stuck
    obtain ⟨a, member, lacks⟩ := ih apart stuck
    exact ⟨a, List.mem_cons_of_mem id member, lacks⟩
  | case4 unvisited names id others more notStatic known ih =>
    rw [collectNames_settled known] at stuck
    obtain ⟨a, member, lacks⟩ := ih apart stuck
    exact ⟨a, List.mem_cons_of_mem id member, lacks⟩
  | case5 unvisited names id others notStatic unknown =>
    exact ⟨id, List.mem_cons_self, id, .refl,
      kind_ne_static_iff.mpr fun module => notStatic module, unknown⟩

/-- What was unvisited when names were collected is left in its order. -/
theorem sublist_of_collectNames (collected : w.collectNames unvisited agenda names = some (all, left)) :
    left.Sublist unvisited := by
  induction unvisited, agenda, names using collectNames.induct w with
  | case1 unvisited names =>
    rw [collectNames_nil] at collected
    cases collected
    exact .refl _
  | case2 unvisited names id others module found unvisitedYet ih =>
    rw [collectNames_new found unvisitedYet] at collected
    exact (ih collected).trans List.erase_sublist
  | case3 unvisited names id others module found visited ih =>
    rw [collectNames_visited found visited] at collected
    exact ih collected
  | case4 unvisited names id others more notStatic known ih =>
    rw [collectNames_settled known] at collected
    exact ih collected
  | case5 unvisited names id others notStatic unknown =>
    have unnamed : w.Unnamed id := ⟨kind_ne_static_iff.mpr fun module => notStatic module, unknown⟩
    rw [collectNames_unnamed unnamed] at collected
    cases collected

/-- A star whose names were collected lacks none, and what was visited on the way is explored. -/
theorem explored_of_collectNames (explored : w.Explored aside unvisited) (nodup : unvisited.Nodup)
    (collected : w.collectNames unvisited [s] names = some (all, left)) :
    ¬ w.Lacks aside s ∧ w.Explored aside left := by
  obtain ⟨sub, met, closed⟩ := met_of_collectNames nodup collected
  have later : w.Explored aside left := by
    intro x differs gone y along
    by_cases before : x ∈ unvisited
    · exact closed x before gone y along
    · exact (explored x differs before y along).mono sub
  have reached {t : RecordId}
      (path : ReflTransGen (fun x y => x ≠ aside ∧ w.ExportsAlong x y) s t) : w.Met left t := by
    induction path with
    | refl => exact met s (List.mem_singleton_self s)
    | tail _ step ih =>
      obtain ⟨differs, module, found, isStar⟩ := step
      exact later _ differs (ih.2 module found) _ ⟨module, found, isStar⟩
  exact ⟨fun ⟨_, path, unnamed⟩ => (reached path).1 unnamed, later⟩

/-- Stars that are asked one after the other all lack no names, or the first one that lacks some is
found. -/
theorem collectStars_lacks (unvisited stars : List RecordId) (names : List String)
    (apart : aside ∉ unvisited) (nodup : unvisited.Nodup) (explored : w.Explored aside unvisited) :
    (∃ star before after, w.collectStars unvisited stars names = .unknownAt star ∧
      stars = before ++ star :: after ∧ w.Lacks aside star ∧ ∀ s ∈ before, ¬ w.Lacks aside s) ∨
    (∃ all, w.collectStars unvisited stars names = .known all) ∧ ∀ s ∈ stars, ¬ w.Lacks aside s := by
  induction stars generalizing unvisited names with
  | nil => exact .inr ⟨⟨names, rfl⟩, by simp⟩
  | cons star rest ih =>
    unfold collectStars
    cases collected : w.collectNames unvisited [star] names with
    | none =>
      obtain ⟨a, member, lacks⟩ := exists_lacks_of_collectNames apart collected
      obtain rfl := List.mem_singleton.mp member
      exact .inl ⟨a, [], rest, rfl, rfl, lacks, by simp⟩
    | some result =>
      obtain ⟨all, left⟩ := result
      obtain ⟨named, explored'⟩ := explored_of_collectNames explored nodup collected
      have sub := sublist_of_collectNames collected
      rcases ih left all (fun inside => apart (sub.subset inside)) (nodup.sublist sub) explored' with
        ⟨next, before, after, asked, split, lacks, none⟩ | ⟨known, none⟩
      · exact .inl ⟨next, star :: before, after, asked, by rw [split, List.cons_append], lacks,
          List.forall_mem_cons.mpr ⟨named, none⟩⟩
      · exact .inr ⟨known, List.forall_mem_cons.mpr ⟨named, none⟩⟩

/-- A static module that is asked for its names passes the question on if one of its stars lacks names,
and otherwise its names are known. -/
theorem asks_cases (found : w.record id = .static module) :
    (∃ star, w.PassesOn id star ∧ w.collectStars (w.recordIds.erase id) (starTargets module)
      module.declarations.ownNames = .unknownAt star) ∨
    ∃ names, (∀ star, ¬ w.PassesOn id star) ∧ w.knownNames? id = some names ∧
      w.collectStars (w.recordIds.erase id) (starTargets module) module.declarations.ownNames =
        .known names := by
  have nodup := nodup_recordIds w
  have explored : w.Explored id (w.recordIds.erase id) := by
    intro x differs visited y along
    obtain ⟨module', found', -⟩ := along
    exact absurd ((List.mem_erase_of_ne differs).mpr (mem_recordIds.mpr (hasRecord_of_static found')))
      visited
  rcases w.collectStars_lacks (w.recordIds.erase id) (starTargets module) module.declarations.ownNames
    nodup.not_mem_erase (nodup.erase id) explored with
    ⟨star, before, after, asked, split, lacks, none⟩ | ⟨⟨all, asked⟩, none⟩
  · exact .inl ⟨star, ⟨module, before, after, found, split, lacks, none⟩, asked⟩
  · refine .inr ⟨all, fun star passes => ?_, ?_, asked⟩
    · obtain ⟨module', before, after, found', split, lacks, -⟩ := passes
      cases found.symm.trans found'
      exact none star (by simp [split]) lacks
    · rcases askStars_cases found with ⟨names, known, asked'⟩ | ⟨star, -, -, asked', -⟩
      · cases asked.symm.trans asked'
        exact known
      · cases asked.symm.trans asked'

end World

namespace Action
variable {w : World} {id star : RecordId} {watcher : Watcher} {depth : Nat}

theorem run_discard {α : Type} (action : Action α) (w : World) :
    (discard action : Action Unit) w =
      match action w with
      | .ok _ w' => .ok () w'
      | .error () w' => .error () w' := by
  show EStateM.map _ action w = _
  unfold EStateM.map
  cases action w <;> rfl

/-- A question that is passed on has the answer no, if it comes to an end. -/
theorem askNames_passesOn (passes : w.PassesOn id star) :
    askNames (depth + 1) id watcher w =
      match askNames depth star (.reask id watcher) w with
      | .ok _ w' => .ok false w'
      | .error () w' => .error () w' := by
  have ⟨module, _, _, found, _⟩ := passes
  rcases w.asks_cases found with ⟨other, passes', unknown⟩ | ⟨_, none, _⟩
  · obtain rfl := passes.unique passes'
    have handed : askNames (depth + 1) id watcher w =
        (do discard (askNames depth star (.reask id watcher)); pure false : Action Bool) w := by
      rw [askNames, run_bind, show (get : Action World) w = .ok w w from rfl]
      simp only [found, unknown]
    rw [handed, run_bind, run_discard]
    cases askNames depth star (.reask id watcher) w <;> rfl
  · exact absurd passes (none star)

/-- A question that goes around never comes to an end. -/
theorem askNames_of_goesAround (around : w.GoesAround id) (depth : Nat) (watcher : Watcher) :
    askNames depth id watcher w = .error () w := by
  induction depth generalizing id watcher with
  | zero => rfl
  | succ depth ih =>
    obtain ⟨star, passes, around⟩ : ∃ star, w.PassesOn id star ∧ w.GoesAround star := by
      obtain ⟨x, path, circle⟩ := around
      rcases ReflTransGen.cases_head path with rfl | ⟨star, passes, rest⟩
      · obtain ⟨star, passes, rest⟩ := TransGen.head'_iff.mp circle
        exact ⟨star, passes, id, rest, circle⟩
      · exact ⟨star, passes, x, rest, circle⟩
    rw [askNames_passesOn passes, ih around]

/-- The world in which a watcher waits for the names of a record; some records forget who waits. -/
def awaiting (w : World) (id : RecordId) (watcher : Watcher) : World :=
  match (w.record id).memo? with
  | some memo => w.setRecord id ((w.record id).withMemo (memo.enqueue watcher))
  | none => w

/-- A record that is not static passes on the names that it has, or lets the question wait. -/
theorem askNames_foreign (notStatic : (w.record id).kind ≠ .static) (depth : Nat)
    (watcher : Watcher) :
    askNames (depth + 1) id watcher w =
      match (w.record id).settledNames? with
      | some names => (do tell (askNames depth) watcher names; pure true : Action Bool) w
      | none => .ok false (awaiting w id watcher) := by
  rw [askNames, run_bind, awaiting, show (get : Action World) w = .ok w w from rfl]
  cases found : w.record id with
  | static module => exact absurd found (kind_ne_static_iff.mp notStatic module)
  | custom module =>
    cases given : module.names with
    | none =>
      simp only [found, Record.settledNames?, Record.memo?, given]
      rfl
    | some names => simp only [found, Record.settledNames?, given]
  | wrapper module | host module =>
    cases known : module.names.names? with
    | none =>
      simp only [found, Record.settledNames?, Record.memo?, known]
      rfl
    | some names => simp only [found, Record.settledNames?, Record.memo?, known]

/-- A question for names that are not known, which came from some modules and does not go around, waits
where it comes to in the end. It is passed on by each module at most once. -/
theorem exists_askNames_of_unknown {id : RecordId} (unknown : w.knownNames? id = none)
    (ends : ¬ w.GoesAround id) (asked : List RecordId) (nodup : asked.Nodup)
    (came : ∀ x ∈ asked, x ∈ w.recordIds ∧ TransGen w.PassesOn x id) (watcher : Watcher) :
    ∃ w', ∀ depth, w.records.size < depth + asked.length →
      askNames depth id watcher w = .ok false w' := by
  have count : w.recordIds.length = w.records.size := by simp [recordIds]
  by_cases isStatic : (w.record id).kind = .static
  · obtain ⟨module, found⟩ := kind_eq_static.mp isStatic
    obtain ⟨star, passes, -⟩ | ⟨names, -, known, -⟩ := w.asks_cases found
    · have new : id ∉ asked := fun again => ends ⟨id, .refl, (came id again).2⟩
      have all : ∀ x ∈ id :: asked, x ∈ w.recordIds ∧ TransGen w.PassesOn x star :=
        List.forall_mem_cons.mpr ⟨⟨mem_recordIds.mpr (hasRecord_of_static found), .single passes⟩,
          fun x member => ⟨(came x member).1, (came x member).2.tail passes⟩⟩
      have distinct : (id :: asked).Nodup := List.nodup_cons.mpr ⟨new, nodup⟩
      have few : asked.length + 1 ≤ w.records.size :=
        count ▸ List.Nodup.length_le_of_subset distinct fun x member => (all x member).1
      obtain ⟨w', ended⟩ := exists_askNames_of_unknown passes.unknown
        (fun around => ends (around.head passes)) (id :: asked) distinct all (.reask id watcher)
      refine ⟨w', fun depth deep => ?_⟩
      obtain ⟨depth, rfl⟩ : ∃ less, depth = less + 1 := ⟨depth - 1, by omega⟩
      rw [askNames_passesOn passes, ended depth (by rw [List.length_cons]; omega)]
    · cases unknown.symm.trans known
  · have few : asked.length ≤ w.records.size :=
      count ▸ List.Nodup.length_le_of_subset nodup fun x member => (came x member).1
    rw [knownNames?_foreign isStatic] at unknown
    refine ⟨awaiting w id watcher, fun depth deep => ?_⟩
    obtain ⟨depth, rfl⟩ : ∃ less, depth = less + 1 := ⟨depth - 1, by omega⟩
    rw [askNames_foreign isStatic, unknown]
termination_by w.records.size - asked.length
decreasing_by
  rw [List.length_cons]
  omega

/-- Names that are known are passed on at once. -/
theorem askNames_of_known {names : List String} (known : w.knownNames? id = some names) (depth : Nat)
    (tag : Json) : askNames (depth + 1) id (.report tag) w = .ok true (w.write (.named tag names)) := by
  by_cases isStatic : (w.record id).kind = .static
  · obtain ⟨module, found⟩ := kind_eq_static.mp isStatic
    obtain ⟨star, passes, -⟩ | ⟨all, -, known', asked⟩ := w.asks_cases found
    · cases known.symm.trans passes.head_unknown
    · cases known.symm.trans known'
      rw [askNames, run_bind, show (get : Action World) w = .ok w w from rfl]
      simp only [found, asked]
      rfl
  · rw [knownNames?_foreign isStatic] at known
    rw [askNames_foreign isStatic, known]
    rfl

end Action

/-- To look for known names, nested calls go no deeper than there are unvisited records. A question for
names that goes around never ends, however deep it may go; any other one goes no deeper than there are
records, and the answer is whether the names are known. -/
theorem questions_end_unless_they_go_around (w : World) (id : RecordId) (tag : Json) :
    (∀ depth x unvisited, unvisited.length < depth →
      w.Finds x unvisited (w.namesWithin depth x unvisited)) ∧
    (∀ depth, w.records.size < depth →
      (w.namesWithin depth id w.recordIds).map Prod.fst = some (w.knownNames? id)) ∧
    (w.GoesAround id → ∀ depth, Action.askNames depth id (.report tag) w = .error () w) ∧
    (¬ w.GoesAround id → ∃ w', ∀ depth, w.records.size < depth →
      Action.askNames depth id (.report tag) w = .ok (w.knownNames? id).isSome w') := by
  refine ⟨w.finds_namesWithin, fun depth => w.namesWithin_eq_knownNames? id,
    fun around depth => Action.askNames_of_goesAround around depth _, fun ends => ?_⟩
  cases known : w.knownNames? id with
  | none =>
    obtain ⟨w', ended⟩ := Action.exists_askNames_of_unknown known ends [] .nil (by simp) (.report tag)
    exact ⟨w', fun depth deep => ended depth deep⟩
  | some names =>
    refine ⟨w.write (.named tag names), fun depth deep => ?_⟩
    obtain ⟨depth, rfl⟩ : ∃ less, depth = less + 1 := ⟨depth - 1, by omega⟩
    exact Action.askNames_of_known known depth tag

namespace World

/-- A module exports along a script with unknown names besides the first of its stars, which does the
same with the module. -/
theorem passesOn_first {w : World} {a b t : RecordId} {module : StaticModule} {after : List RecordId}
    (found : w.record a = .static module) (first : starTargets module = b :: after) (differs : b ≠ a)
    (along : w.ExportsAlong b t) (unnamed : w.Unnamed t) : w.PassesOn a b :=
  ⟨module, [], after, found, first, ⟨t, .single ⟨differs, along⟩, unnamed⟩, by simp⟩

/-- Three records: two modules, the second with stars of its own, and a script, along which both may
export. -/
def barrels (stars : List Export) : World where
  records := #[tableModule 'a' [] [.all "b", .all "s"], tableModule 'b' [] stars,
    .wrapper { location := .fileUrl "" ['/', 's'], program := .give .undefined }]
  table _ specifier :=
    if specifier = "a" then some ⟨0⟩ else if specifier = "b" then some ⟨1⟩ else some ⟨2⟩

/-- Two modules that export along each other and along the script. -/
theorem goesAround_in_barrels :
    ∃ w, Deed.actEach 5 [(.bare, .does (.link ⟨0⟩))] (barrels [.all "a", .all "s"]) = .ok () w ∧
      w.GoesAround ⟨0⟩ ∧ ∃ module, w.record ⟨0⟩ = .static module := by
  have computed : (Deed.actEach 5 [(.bare, .does (.link ⟨0⟩))]).ends (barrels [.all "a", .all "s"])
      (fun _ w => (w.record ⟨0⟩).static?.map starTargets = some [⟨1⟩, ⟨2⟩] &&
        (w.record ⟨1⟩).static?.map starTargets = some [⟨0⟩, ⟨2⟩] &&
        ((w.record ⟨2⟩).kind ≠ .static && (w.record ⟨2⟩).settledNames? = none)) = true := by cbv
  obtain ⟨_, w, linked, checked⟩ := Action.exists_of_ends computed
  simp only [Bool.and_eq_true, decide_eq_true_eq, Option.map_eq_some_iff, static?_eq_some] at checked
  obtain ⟨⟨⟨a, foundA, starsA⟩, b, foundB, starsB⟩, unnamed⟩ := checked
  have there : w.PassesOn ⟨0⟩ ⟨1⟩ :=
    passesOn_first foundA starsA (by decide) ⟨b, foundB, by simp [starsB]⟩ unnamed
  have back : w.PassesOn ⟨1⟩ ⟨0⟩ :=
    passesOn_first foundB starsB (by decide) ⟨a, foundA, by simp [starsA]⟩ unnamed
  exact ⟨w, linked, ⟨⟨0⟩, .refl, .tail (.single there) back⟩, a, foundA⟩

end World

/-- Not every question ends, not even in a state that a run comes to: no depth is enough to ask one of
these two modules. -/
theorem not_questions_end :
    ¬ ∀ (depth : Nat) (before : List (Embedding × Deed)) (w₀ w : World) (id : RecordId)
      (module : StaticModule) (tag : Json), w₀.Fresh → w₀.Unlinked →
      Deed.actEach depth before w₀ = .ok () w → w.record id = .static module →
      ∃ deep answer w', Action.askNames deep id (.report tag) w = .ok answer w' := by
  intro ends
  obtain ⟨w, linked, around, module, found⟩ := goesAround_in_barrels
  have fresh : (barrels [.all "a", .all "s"]).Fresh := ⟨fun _ => rfl, fun _ => rfl, rfl⟩
  have unlinked : (barrels [.all "a", .all "s"]).Unlinked := unlinked_of_all _ (by cbv)
  obtain ⟨deep, answer, w', asked⟩ := ends 5 _ _ w ⟨0⟩ module .null fresh unlinked linked found
  cases (Action.askNames_of_goesAround around deep _).symm.trans asked

/-- Asked for its names, the first of these two modules never answers. If only the first one exports
along the script, there is a circle, too, but a question that the second one is asked ends. -/
theorem questions_in_barrels :
    (∃ w, Deed.actEach 5 [(.bare, .does (.link ⟨0⟩))] (barrels [.all "a", .all "s"]) = .ok () w ∧
      ∀ depth, Action.askNames depth ⟨0⟩ (.report .null) w = .error () w) ∧
    ∃ w w', Deed.actEach 5 [(.bare, .does (.link ⟨0⟩))] (barrels [.all "a"]) = .ok () w ∧
      ∀ depth, 3 < depth → Action.askNames depth ⟨1⟩ (.report .null) w = .ok false w' := by
  obtain ⟨w₁, linked₁, around, -⟩ := goesAround_in_barrels
  refine ⟨⟨w₁, linked₁, (questions_end_unless_they_go_around w₁ ⟨0⟩ .null).2.2.1 around⟩, ?_⟩
  have computed : (Deed.actEach 5 [(.bare, .does (.link ⟨0⟩))]).ends (barrels [.all "a"])
      (fun _ w => w.records.size = 3 && w.knownNames? ⟨1⟩ = none &&
        (Action.askNames 3 ⟨1⟩ (.report .null)).ends w fun _ _ => true) = true := by cbv
  obtain ⟨_, w, linked, checked⟩ := Action.exists_of_ends computed
  simp only [Bool.and_eq_true, decide_eq_true_eq] at checked
  obtain ⟨⟨size, unknown⟩, ends⟩ := checked
  obtain ⟨answer, after, asked, -⟩ := Action.exists_of_ends ends
  have straight : ¬ w.GoesAround ⟨1⟩ := fun around => by
    cases (Action.askNames_of_goesAround around 3 _).symm.trans asked
  obtain ⟨w', answered⟩ := (questions_end_unless_they_go_around w ⟨1⟩ .null).2.2.2 straight
  rw [unknown, size] at answered
  exact ⟨w, w', linked, answered⟩

end ModuleGraph
