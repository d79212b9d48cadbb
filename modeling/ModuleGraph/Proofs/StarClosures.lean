import ModuleGraph.Proofs.ExportedNames

/-!
What exported names hang on. The names of a module are known exactly if those of all records are to
which `export *` leads from it and which are not static; and they stay the same as long as all these
records give out the same. To ask stars one after the other comes to the same as to collect the names
of all of them.
-/
namespace ModuleGraph
open Relation

namespace World
variable {w w' : World} {id a b x : RecordId} {module : StaticModule} {names more all : List String}
  {unvisited unvisited' agenda rest left : List RecordId}

/-- Nobody knows the names of a record, which is not static. -/
def Unnamed (w : World) (id : RecordId) : Prop :=
  (w.record id).kind ≠ .static ∧ (w.record id).settledNames? = none

/-- There is a path of `export *` from one record to another. -/
abbrev StarsTo (w : World) : RecordId → RecordId → Prop := ReflTransGen w.ExportsAlong

theorem kind_ne_static_iff : (w.record id).kind ≠ .static ↔ ∀ module, w.record id ≠ .static module := by
  rw [ne_eq, kind_eq_static, not_exists]

theorem kind_ne_static_of_settledNames? (known : (w.record id).settledNames? = some names) :
    (w.record id).kind ≠ .static := by
  rw [kind_ne_static_iff]
  intro module found
  rw [found] at known
  cases known

/-- From a record that is not static `export *` leads nowhere. -/
theorem StarsTo.eq_of_kind_ne_static (notStatic : (w.record a).kind ≠ .static)
    (path : w.StarsTo a b) : b = a := by
  rcases ReflTransGen.cases_head path with rfl | ⟨_, ⟨module, found, _⟩, _⟩
  · rfl
  · exact absurd found (kind_ne_static_iff.mp notStatic module)

/-! ### Collecting names -/

theorem collectNames_nil (w : World) (unvisited : List RecordId) (names : List String) :
    w.collectNames unvisited [] names = some (names, unvisited) := by
  rw [collectNames]

theorem collectNames_new (found : w.record id = .static module) (unvisitedYet : id ∈ unvisited) :
    w.collectNames unvisited (id :: rest) names =
      w.collectNames (unvisited.erase id) (starTargets module ++ rest)
        (addNames names module.declarations.ownNames) := by
  rw [collectNames, found]
  simp only [unvisitedYet, if_true]

theorem collectNames_visited (found : w.record id = .static module) (visited : id ∉ unvisited) :
    w.collectNames unvisited (id :: rest) names = w.collectNames unvisited rest names := by
  rw [collectNames, found]
  simp only [visited, if_false]

theorem collectNames_settled (known : (w.record id).settledNames? = some more) :
    w.collectNames unvisited (id :: rest) names =
      w.collectNames unvisited rest (addNames names more) := by
  rw [collectNames]
  split
  · rename_i module found
    exact absurd found (kind_ne_static_iff.mp (kind_ne_static_of_settledNames? known) module)
  · rw [known]

theorem collectNames_unnamed (unnamed : w.Unnamed id) :
    w.collectNames unvisited (id :: rest) names = none := by
  rw [collectNames]
  split
  · rename_i module found
    exact absurd found (kind_ne_static_iff.mp unnamed.1 module)
  · rw [unnamed.2]

/-- To collect names along an agenda means to do one part of it after the other. -/
theorem collectNames_append (w : World) (unvisited agenda rest : List RecordId)
    (names : List String) : w.collectNames unvisited (agenda ++ rest) names =
      (w.collectNames unvisited agenda names).bind fun collected =>
        w.collectNames collected.2 rest collected.1 := by
  induction unvisited, agenda, names using collectNames.induct w with
  | case1 unvisited names => rw [List.nil_append, collectNames_nil, Option.bind_some]
  | case2 unvisited names id others module found unvisitedYet ih =>
    rw [List.cons_append, collectNames_new found unvisitedYet, collectNames_new found unvisitedYet,
      ← ih, List.append_assoc]
  | case3 unvisited names id others module found visited ih =>
    rw [List.cons_append, collectNames_visited found visited, collectNames_visited found visited, ih]
  | case4 unvisited names id others more notStatic known ih =>
    rw [List.cons_append, collectNames_settled known, collectNames_settled known, ih]
  | case5 unvisited names id others notStatic unknown =>
    have unnamed : w.Unnamed id := ⟨kind_ne_static_iff.mpr fun module => notStatic module, unknown⟩
    rw [List.cons_append, collectNames_unnamed unnamed, collectNames_unnamed unnamed,
      Option.bind_none]

/-- If names cannot be collected, `export *` leads to a record whose names nobody knows. -/
theorem exists_unnamed_of_collectNames (stuck : w.collectNames unvisited agenda names = none) :
    ∃ a ∈ agenda, ∃ t, w.StarsTo a t ∧ w.Unnamed t := by
  induction unvisited, agenda, names using collectNames.induct w with
  | case1 unvisited names =>
    rw [collectNames_nil] at stuck
    cases stuck
  | case2 unvisited names id others module found unvisitedYet ih =>
    rw [collectNames_new found unvisitedYet] at stuck
    obtain ⟨a, member, t, path, unnamed⟩ := ih stuck
    rcases List.mem_append.mp member with isStar | waits
    · exact ⟨id, List.mem_cons_self, t, path.head ⟨module, found, isStar⟩, unnamed⟩
    · exact ⟨a, List.mem_cons_of_mem id waits, t, path, unnamed⟩
  | case3 unvisited names id others module found visited ih =>
    rw [collectNames_visited found visited] at stuck
    obtain ⟨a, member, t, path, unnamed⟩ := ih stuck
    exact ⟨a, List.mem_cons_of_mem id member, t, path, unnamed⟩
  | case4 unvisited names id others more notStatic known ih =>
    rw [collectNames_settled known] at stuck
    obtain ⟨a, member, t, path, unnamed⟩ := ih stuck
    exact ⟨a, List.mem_cons_of_mem id member, t, path, unnamed⟩
  | case5 unvisited names id others notStatic unknown =>
    exact ⟨id, List.mem_cons_self, id, .refl,
      kind_ne_static_iff.mpr fun module => notStatic module, unknown⟩

/-- A record has nothing left to be collected: it is a static module that was visited, or its names
are known. -/
def Met (w : World) (left : List RecordId) (id : RecordId) : Prop :=
  ¬ w.Unnamed id ∧ ∀ module, w.record id = .static module → id ∉ left

/-- When names were collected, all on the agenda is met, and so is all that `export *` leads to from
what was visited on the way. -/
theorem met_of_collectNames (nodup : unvisited.Nodup)
    (collected : w.collectNames unvisited agenda names = some (all, left)) :
    left ⊆ unvisited ∧ (∀ a ∈ agenda, w.Met left a) ∧
      ∀ x ∈ unvisited, x ∉ left → ∀ y, w.ExportsAlong x y → w.Met left y := by
  induction unvisited, agenda, names using collectNames.induct w with
  | case1 unvisited names =>
    rw [collectNames_nil] at collected
    cases collected
    exact ⟨List.Subset.refl _, by simp, fun x here gone => absurd here gone⟩
  | case2 unvisited names id others module found unvisitedYet ih =>
    rw [collectNames_new found unvisitedYet] at collected
    obtain ⟨sub, met, closed⟩ := ih (nodup.erase id) collected
    have stars (y : RecordId) (along : w.ExportsAlong id y) : w.Met left y := by
      obtain ⟨module', found', member⟩ := along
      cases found.symm.trans found'
      exact met y (List.mem_append_left _ member)
    have here : w.Met left id := by
      refine ⟨fun unnamed => ?_, fun _ _ member => nodup.not_mem_erase (sub member)⟩
      exact absurd found (kind_ne_static_iff.mp unnamed.1 module)
    refine ⟨List.Subset.trans sub List.erase_subset, fun a member => ?_, fun x present gone y along => ?_⟩
    · rcases List.mem_cons.mp member with rfl | later
      · exact here
      · exact met a (List.mem_append_right _ later)
    · by_cases same : x = id
      · exact stars y (same ▸ along)
      · exact closed x ((List.mem_erase_of_ne same).mpr present) gone y along
  | case3 unvisited names id others module found visited ih =>
    rw [collectNames_visited found visited] at collected
    obtain ⟨sub, met, closed⟩ := ih nodup collected
    refine ⟨sub, List.forall_mem_cons.mpr ⟨⟨fun unnamed => ?_, ?_⟩, met⟩, closed⟩
    · exact absurd found (kind_ne_static_iff.mp unnamed.1 module)
    · exact fun _ _ member => visited (sub member)
  | case4 unvisited names id others more notStatic known ih =>
    rw [collectNames_settled known] at collected
    obtain ⟨sub, met, closed⟩ := ih nodup collected
    refine ⟨sub, List.forall_mem_cons.mpr ⟨⟨fun unnamed => ?_, ?_⟩, met⟩, closed⟩
    · cases known.symm.trans unnamed.2
    · exact fun module found => absurd found (notStatic module)
  | case5 unvisited names id others notStatic unknown =>
    have unnamed : w.Unnamed id := ⟨kind_ne_static_iff.mpr fun module => notStatic module, unknown⟩
    rw [collectNames_unnamed unnamed] at collected
    cases collected

/-! ### Known names -/

theorem knownNames?_static (found : w.record id = .static module) :
    w.knownNames? id = (w.collectNames (w.recordIds.erase id) (starTargets module)
      module.declarations.ownNames).map Prod.fst := by
  rw [knownNames?, found]

theorem knownNames?_foreign (notStatic : (w.record id).kind ≠ .static) :
    w.knownNames? id = (w.record id).settledNames? := by
  unfold knownNames?
  split
  · rename_i module found
    exact absurd found (kind_ne_static_iff.mp notStatic module)
  · rfl

/-- The names of a record are known if those of all are that `export *` leads to. -/
theorem knownNames?_isSome (w : World) (id : RecordId) :
    (w.knownNames? id).isSome ↔ ∀ t, w.StarsTo id t → ¬ w.Unnamed t := by
  by_cases isStatic : (w.record id).kind = .static
  · obtain ⟨module, found⟩ := kind_eq_static.mp isStatic
    rw [knownNames?_static found, Option.isSome_map]
    constructor
    · intro known
      obtain ⟨⟨all, left⟩, collected⟩ := Option.isSome_iff_exists.mp known
      have nodup := (nodup_recordIds w).erase id
      obtain ⟨sub, met, closed⟩ := met_of_collectNames nodup collected
      have metStars (y : RecordId) (along : w.ExportsAlong id y) : w.Met left y := by
        obtain ⟨module', found', member⟩ := along
        cases found.symm.trans found'
        exact met y member
      intro t path
      -- what is met leads only to what is met
      have metOr : t = id ∨ w.Met left t := by
        induction path with
        | refl => exact .inl rfl
        | @tail x y _ along ih =>
          rcases ih with rfl | here
          · exact .inr (metStars y along)
          · by_cases same : x = id
            · exact .inr (metStars y (same ▸ along))
            · obtain ⟨module', found', isStar⟩ := along
              have present := mem_recordIds.mpr (hasRecord_of_static found')
              exact .inr (closed x ((List.mem_erase_of_ne same).mpr present)
                (here.2 module' found') y ⟨module', found', isStar⟩)
      rcases metOr with rfl | met
      · exact fun unnamed => unnamed.1 isStatic
      · exact met.1
    · intro named
      by_contra unknown
      have stuck := Option.not_isSome_iff_eq_none.mp unknown
      obtain ⟨a, isStar, t, path, unnamed⟩ := exists_unnamed_of_collectNames stuck
      exact named t (path.head ⟨module, found, isStar⟩) unnamed
  · rw [knownNames?_foreign isStatic]
    constructor
    · rintro known t path unnamed
      obtain rfl := StarsTo.eq_of_kind_ne_static isStatic path
      rw [unnamed.2] at known
      cases known
    · intro named
      by_contra unknown
      exact named id .refl ⟨isStatic, Option.not_isSome_iff_eq_none.mp unknown⟩

theorem knownNames?_eq_none : w.knownNames? id = none ↔ ∃ t, w.StarsTo id t ∧ w.Unnamed t := by
  rw [← Option.not_isSome_iff_eq_none, knownNames?_isSome]
  simp only [not_forall, not_not, exists_prop]

/-! ### Asking the stars -/

/-- To ask stars one after the other gives their names if all are known, and otherwise one from which
`export *` leads to a record whose names nobody knows. -/
theorem collectStars_cases (w : World) (unvisited stars : List RecordId) (names : List String) :
    (∃ all left, w.collectNames unvisited stars names = some (all, left) ∧
      w.collectStars unvisited stars names = .known all) ∨
    ∃ star ∈ stars, w.collectStars unvisited stars names = .unknownAt star ∧
      w.collectNames unvisited stars names = none ∧ ∃ t, w.StarsTo star t ∧ w.Unnamed t := by
  induction stars generalizing unvisited names with
  | nil => exact .inl ⟨names, unvisited, collectNames_nil w unvisited names, rfl⟩
  | cons star rest ih =>
    have split := w.collectNames_append unvisited [star] rest names
    rw [List.singleton_append] at split
    unfold collectStars
    cases collected : w.collectNames unvisited [star] names with
    | none =>
      rw [collected, Option.bind_none] at split
      obtain ⟨a, member, t, path, unnamed⟩ := exists_unnamed_of_collectNames collected
      obtain rfl := List.mem_singleton.mp member
      exact .inr ⟨a, List.mem_cons_self, rfl, split, t, path, unnamed⟩
    | some result =>
      rw [collected, Option.bind_some] at split
      rw [split]
      refine (ih result.2 result.1).imp_right fun unknown => ?_
      obtain ⟨other, member, stuck⟩ := unknown
      exact ⟨other, List.mem_cons_of_mem star member, stuck⟩

/-- A static module that is asked for its names gives those that are known, or one of its stars on
the way to a record whose names nobody knows. -/
theorem askStars_cases (found : w.record id = .static module) :
    (∃ names, w.knownNames? id = some names ∧
      w.collectStars (w.recordIds.erase id) (starTargets module) module.declarations.ownNames =
        .known names) ∨
    ∃ star, w.ExportsAlong id star ∧ w.knownNames? id = none ∧
      w.collectStars (w.recordIds.erase id) (starTargets module) module.declarations.ownNames =
        .unknownAt star ∧ ∃ t, w.StarsTo star t ∧ w.Unnamed t := by
  rw [knownNames?_static found]
  rcases w.collectStars_cases (w.recordIds.erase id) (starTargets module)
    module.declarations.ownNames with ⟨all, left, collected, known⟩ | ⟨star, member, unknown⟩
  · exact .inl ⟨all, by rw [collected]; rfl, known⟩
  · exact .inr ⟨star, ⟨module, found, member⟩, by rw [unknown.2.1]; rfl, unknown.1, unknown.2.2⟩

/-! ### Names that stay -/

/-- A record gives out the same names as before and exports along the same records; names that were
known are. -/
structure Firm (w w' : World) (id : RecordId) : Prop where
  static : ∀ module, w.record id = .static module → ∃ module', w'.record id = .static module' ∧
    module'.declarations.ownNames = module.declarations.ownNames ∧
    starTargets module' = starTargets module
  named : ∀ names, (w.record id).settledNames? = some names →
    (w'.record id).settledNames? = some names

/-- Names that can be collected are collected again, as long as all records behind the agenda are
firm and none of them was visited in between. -/
theorem collectNames_of_firm (firm : ∀ a ∈ agenda, ∀ x, w.StarsTo a x → Firm w w' x)
    (nodup : unvisited.Nodup) (nodup' : unvisited'.Nodup)
    (same : ∀ x, (w.record x).kind = .static → (∃ a ∈ agenda, w.StarsTo a x) →
      (x ∈ unvisited' ↔ x ∈ unvisited))
    (collected : w.collectNames unvisited agenda names = some (all, left)) :
    ∃ left', w'.collectNames unvisited' agenda names = some (all, left') := by
  induction unvisited, agenda, names using collectNames.induct w generalizing unvisited' with
  | case1 unvisited names =>
    rw [collectNames_nil] at collected
    cases collected
    exact ⟨unvisited', collectNames_nil w' unvisited' all⟩
  | case2 unvisited names id others module found unvisitedYet ih =>
    obtain ⟨here, later⟩ := List.forall_mem_cons.mp firm
    obtain ⟨module', found', own, stars⟩ := (here id .refl).static module found
    have isStatic : (w.record id).kind = .static := by rw [found]; rfl
    have unvisitedYet' := (same id isStatic ⟨id, List.mem_cons_self, .refl⟩).mpr unvisitedYet
    have onward {a x : RecordId} (member : a ∈ starTargets module ++ others)
        (path : w.StarsTo a x) : ∃ b ∈ id :: others, w.StarsTo b x := by
      rcases List.mem_append.mp member with isStar | waits
      · exact ⟨id, List.mem_cons_self, path.head ⟨module, found, isStar⟩⟩
      · exact ⟨a, List.mem_cons_of_mem id waits, path⟩
    rw [collectNames_new found unvisitedYet] at collected
    rw [collectNames_new found' unvisitedYet', own, stars]
    refine ih (fun a member x path => ?_) (nodup.erase id) (nodup'.erase id)
      (fun x isStatic reached => ?_) collected
    · obtain ⟨b, member, path⟩ := onward member path
      exact firm b member x path
    · obtain ⟨a, member, path⟩ := reached
      rw [nodup.mem_erase_iff, nodup'.mem_erase_iff, same x isStatic (onward member path)]
  | case3 unvisited names id others module found visited ih =>
    obtain ⟨here, later⟩ := List.forall_mem_cons.mp firm
    obtain ⟨module', found', _⟩ := (here id .refl).static module found
    have isStatic : (w.record id).kind = .static := by rw [found]; rfl
    have visited' := (same id isStatic ⟨id, List.mem_cons_self, .refl⟩).not.mpr visited
    rw [collectNames_visited found visited] at collected
    rw [collectNames_visited found' visited']
    refine ih later nodup nodup' (fun x isStatic reached => same x isStatic ?_) collected
    obtain ⟨a, member, path⟩ := reached
    exact ⟨a, List.mem_cons_of_mem id member, path⟩
  | case4 unvisited names id others more notStatic known ih =>
    obtain ⟨here, later⟩ := List.forall_mem_cons.mp firm
    rw [collectNames_settled known] at collected
    rw [collectNames_settled ((here id .refl).named more known)]
    refine ih later nodup nodup' (fun x isStatic reached => same x isStatic ?_) collected
    obtain ⟨a, member, path⟩ := reached
    exact ⟨a, List.mem_cons_of_mem id member, path⟩
  | case5 unvisited names id others notStatic unknown =>
    have unnamed : w.Unnamed id := ⟨kind_ne_static_iff.mpr fun module => notStatic module, unknown⟩
    rw [collectNames_unnamed unnamed] at collected
    cases collected

/-- Names that are known stay so as long as all records are firm that `export *` leads to. -/
theorem knownNames?_of_firm (firm : ∀ x, w.StarsTo id x → Firm w w' x)
    (known : w.knownNames? id = some names) : w'.knownNames? id = some names := by
  by_cases isStatic : (w.record id).kind = .static
  · obtain ⟨module, found⟩ := kind_eq_static.mp isStatic
    obtain ⟨module', found', own, stars⟩ := (firm id .refl).static module found
    have present {w : World} {x : RecordId} {module : StaticModule}
        (found : w.record x = .static module) : x ∈ w.recordIds :=
      mem_recordIds.mpr (hasRecord_of_static found)
    rw [knownNames?_static found] at known
    obtain ⟨⟨all, left⟩, collected, rfl⟩ := Option.map_eq_some_iff.mp known
    obtain ⟨left', collected'⟩ : ∃ left', w'.collectNames (w'.recordIds.erase id)
        (starTargets module) module.declarations.ownNames = some (all, left') := by
      refine collectNames_of_firm (fun a isStar x path => firm x (path.head ⟨module, found, isStar⟩))
        ((nodup_recordIds w).erase id) ((nodup_recordIds w').erase id)
        (fun x isStatic reached => ?_) collected
      obtain ⟨a, isStar, path⟩ := reached
      obtain ⟨other, here⟩ := kind_eq_static.mp isStatic
      obtain ⟨other', here', _⟩ := (firm x (path.head ⟨module, found, isStar⟩)).static other here
      rw [(nodup_recordIds w').mem_erase_iff, (nodup_recordIds w).mem_erase_iff]
      simp only [present here, present here']
    rw [knownNames?_static found', stars, own, collected']
    rfl
  · rw [knownNames?_foreign isStatic] at known
    have known' := (firm id .refl).named names known
    rw [knownNames?_foreign (kind_ne_static_of_settledNames? known'), known']

end World
end ModuleGraph
