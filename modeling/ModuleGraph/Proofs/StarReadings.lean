import ModuleGraph.Proofs.Readings

/-!
Readings through `export *`. Among static modules, the search for a binding and a reading go through
stars in the same order. They come to the same module where its value is defined; but a reading
takes undefined for a name that is not there, and goes on to the next module that provides it.
-/
namespace ModuleGraph
open Relation World

namespace World
variable {w w' w'' : World} {realm : RealmId} {id a b s x : RecordId} {name : String}
  {module : StaticModule} {environment : Environment} {value : Value} {depth : Nat}
  {unvisited agenda rest left : List RecordId}

/-- A realm has an instance of a static module. -/
def HasStatic (w : World) (realm : RealmId) (id : RecordId) : Prop :=
  ∃ module environment, w.record id = .static module ∧
    (w.realm realm).instance? id = some (.static environment)

/-- A realm has instances of all modules that `export *` leads to, and all of them are static. -/
def StarsInstantiated (w : World) (realm : RealmId) (id : RecordId) : Prop :=
  ∀ x, ReflTransGen w.ExportsAlong id x → w.HasStatic realm x

/-- A module that does not give out a name itself passes on a request for it. -/
def Relays (w : World) (name : String) (a b : RecordId) : Prop :=
  ¬ w.Gives name a ∧ w.Forwards name a b

theorem Forwards.exportsAlong (forwards : w.Forwards name a b) : w.ExportsAlong a b := forwards.2

theorem StarsInstantiated.of_forwards (h : w.StarsInstantiated realm a)
    (forwards : w.Forwards name a b) : w.StarsInstantiated realm b :=
  fun x path => h x (path.head forwards.exportsAlong)

theorem provides_iff : w.Provides name a ↔
    w.Gives name a ∨ ∃ s, w.Forwards name a s ∧ w.Provides name s := by
  constructor
  · rintro ⟨p, path, gives⟩
    rcases ReflTransGen.cases_head path with rfl | ⟨s, forwards, rest⟩
    · exact .inl gives
    · exact .inr ⟨s, forwards, p, rest, gives⟩
  · rintro (gives | ⟨s, forwards, p, rest, gives⟩)
    · exact ⟨a, .refl, gives⟩
    · exact ⟨p, rest.head forwards, gives⟩

theorem not_gives_iff (found : w.record a = .static module) :
    ¬ w.Gives name a ↔ ownBinding? a module name = none := by
  simp [Gives, found]

end World

/-! ### Readings of static modules -/

namespace Action
variable {w w' w'' : World} {realm : RealmId} {id a b s x : RecordId} {name : String}
  {module : StaticModule} {environment : Environment} {value : Value} {depth : Nat}
  {ids : List RecordId}

/-- A module that withholds a name reads it from its stars. -/
theorem readBinding_withheld (found : w.record id = .static module)
    (instantiated : (w.realm realm).instance? id = some (.static environment))
    (withholds : ¬ w.Gives name id) :
    readBinding (depth + 1) realm id name w =
      readFirst (readBinding depth) realm name
        (if name = "default" then [] else starTargets module) w := by
  have own := (not_gives_iff found).mp withholds
  unfold ownBinding? at own
  rw [readBinding_static found instantiated, readStaticBy]
  split at own
  · cases own
  · rename_i notLocal
    rw [notLocal, Option.map_eq_none_iff.mp own]
    dsimp only
    by_cases default : name = "default"
    · rw [if_pos default, if_pos default, readFirst]
    · rw [if_neg default, if_neg default]

/-- The first of several records has a value, or it is undefined and the others are read. -/
theorem readFirst_cons_eq_ok {rest : List RecordId}
    (read : readFirst (readBinding depth) realm name (id :: rest) w = .ok value w') :
    (readBinding depth realm id name w = .ok .undefined w ∧
      readFirst (readBinding depth) realm name rest w = .ok value w') ∨
    (readBinding depth realm id name w = .ok value w' ∧ value ≠ .undefined) := by
  have meets : Meets (fun _ => True) (readFirst (readBinding depth) realm name (id :: rest))
      (fun value w' => (readBinding depth realm id name w = .ok .undefined w ∧
        readFirst (readBinding depth) realm name rest w = .ok value w') ∨
      (readBinding depth realm id name w = .ok value w' ∧ value ≠ .undefined)) w := by
    show Meets _ (readBinding depth realm id name >>= fun value => if value = .undefined then
      readFirst (readBinding depth) realm name rest else pure value) _ w
    rw [meets_bind]
    refine (meets_ended (readBinding depth realm id name) w).mono fun first w₁ ended => ?_
    split
    · rename_i isUndefined
      subst isUndefined
      cases eq_of_read_undefined ended
      exact (meets_ended _ w).mono fun value w' later => .inl ⟨ended, later⟩
    · rename_i isDefined
      exact .inr ⟨ended, isDefined⟩
  rwa [Meets, read] at meets

/-- A value that is found among several records is that of one of them. -/
theorem exists_of_readFirst (read : readFirst (readBinding depth) realm name ids w = .ok value w')
    (isDefined : value ≠ .undefined) :
    ∃ s ∈ ids, readBinding depth realm s name w = .ok value w' := by
  induction ids with
  | nil =>
    cases read
    exact absurd rfl isDefined
  | cons id rest ih =>
    rcases readFirst_cons_eq_ok read with ⟨_, later⟩ | ⟨here, _⟩
    · obtain ⟨s, member, there⟩ := ih later
      exact ⟨s, List.mem_cons_of_mem id member, there⟩
    · exact ⟨id, List.mem_cons_self, here⟩

/-- If no value is found among several records, all of them read undefined. -/
theorem forall_of_readFirst
    (read : readFirst (readBinding depth) realm name ids w = .ok .undefined w') :
    ∀ s ∈ ids, readBinding depth realm s name w = .ok .undefined w := by
  induction ids with
  | nil => simp
  | cons id rest ih =>
    rcases readFirst_cons_eq_ok read with ⟨here, later⟩ | ⟨_, isDefined⟩
    · exact List.forall_mem_cons.mpr ⟨here, ih later⟩
    · exact absurd rfl isDefined

/-- Where a module reads undefined, so does each one that it passes the request on to. -/
theorem read_undefined_of_relays (stars : w.StarsInstantiated realm a)
    (read : readBinding depth realm a name w = .ok .undefined w) (relays : w.Relays name a b) :
    readBinding depth realm b name w = .ok .undefined w := by
  obtain ⟨withholds, forwards⟩ := relays
  obtain ⟨module, environment, found, instantiated⟩ := stars a .refl
  cases depth with
  | zero => cases read
  | succ depth =>
    rw [readBinding_withheld found instantiated withholds] at read
    exact readBinding_of_le (Nat.le_succ depth)
      (forall_of_readFirst read b ((mem_stars_iff_forwards found b).mpr forwards))

/-- A value that is read is that of a module which gives out the name, and which the request is
passed on to. -/
theorem exists_gives_of_read (stars : w.StarsInstantiated realm a)
    (read : readBinding depth realm a name w = .ok value w') (isDefined : value ≠ .undefined) :
    ∃ p, ReflTransGen (w.Relays name) a p ∧ w.Gives name p ∧
      readBinding depth realm p name w = .ok value w' := by
  induction depth generalizing a with
  | zero => cases read
  | succ depth ih =>
    by_cases gives : w.Gives name a
    · exact ⟨a, .refl, gives, read⟩
    · obtain ⟨module, environment, found, instantiated⟩ := stars a .refl
      rw [readBinding_withheld found instantiated gives] at read
      obtain ⟨s, isStar, there⟩ := exists_of_readFirst read isDefined
      have forwards := (mem_stars_iff_forwards found s).mp isStar
      obtain ⟨p, path, given, last⟩ := ih (stars.of_forwards forwards) there
      exact ⟨p, path.head ⟨gives, forwards⟩, given, readBinding_of_le (Nat.le_succ depth) last⟩

/-- A name that is not provided reads undefined. -/
theorem read_undefined_of_not_provides (stars : w.StarsInstantiated realm a)
    (read : readBinding depth realm a name w = .ok value w') (missing : ¬ w.Provides name a) :
    value = .undefined := by
  by_contra isDefined
  obtain ⟨p, path, gives, _⟩ := exists_gives_of_read stars read isDefined
  exact missing ⟨p, ReflTransGen.mono (fun _ _ relays => relays.2) _ _ path, gives⟩

/-! ### The search and the reading -/

/-- The reading of a record ends with some depth. -/
def Ends (w : World) (realm : RealmId) (name : String) (depth : Nat) (id : RecordId) : Prop :=
  ∃ value w', readBinding depth realm id name w = .ok value w'

theorem Ends.mono {depth' : Nat} (h : Ends w realm name depth id) (le : depth ≤ depth') :
    Ends w realm name depth' id := by
  obtain ⟨value, w', read⟩ := h
  exact ⟨value, w', readBinding_of_le le read⟩

/-- There is a least depth with which a reading ends. -/
theorem exists_least_depth (read : readBinding depth realm id name w = .ok value w') :
    ∃ least < depth, readBinding (least + 1) realm id name w = .ok value w' ∧
      ¬ Ends w realm name least id := by
  induction depth with
  | zero => cases read
  | succ depth ih =>
    by_cases sooner : Ends w realm name depth id
    · obtain ⟨value', w'', read'⟩ := sooner
      cases (readBinding_of_le (Nat.le_succ depth) read').symm.trans read
      obtain ⟨least, less, ended, notSooner⟩ := ih read'
      exact ⟨least, Nat.lt_succ_of_lt less, ended, notSooner⟩
    · exact ⟨depth, Nat.lt_succ_self depth, read, sooner⟩

/-- What was visited does not provide the name, or cannot be read with so much depth: it is a module
whose stars are being searched, and to read it again would not end. -/
def Passed (w : World) (realm : RealmId) (name : String) (depth : Nat)
    (unvisited : List RecordId) : Prop :=
  ∀ x module, w.record x = .static module → x ∉ unvisited →
    ¬ w.Provides name x ∨ ¬ Ends w realm name depth x

/-- How a search goes on from an agenda that is read with a value. Either nothing is provided, the
value is undefined, and the search goes on to the rest; or the search ends at a binding, the reading
of which ends, and its value is the one that was read unless it is undefined. -/
inductive Searched (w : World) (realm : RealmId) (name : String) (depth : Nat)
    (unvisited agenda rest : List RecordId) (value : Value) (w' : World) : Prop
  | through (isUndefined : value = .undefined) (missing : ∀ a ∈ agenda, ¬ w.Provides name a)
      (left : List RecordId)
      (passed : ∀ x, x ∉ left → x ∈ unvisited → ¬ w.Provides name x)
      (search : w.searchBinding name unvisited (agenda ++ rest) = w.searchBinding name left rest)
  | found (binding : Binding) (own : Value) (w'' : World)
      (search : w.searchBinding name unvisited (agenda ++ rest) = some binding)
      (read : readBinding depth realm binding.record name w = .ok own w'')
      (agrees : own ≠ .undefined → value = own ∧ w' = w'')

/-- A record is searched as it is read, if this holds of its stars with less depth. -/
theorem searched_singleton {realm : RealmId} {name : String} {depth : Nat}
    (stars : w.StarsInstantiated realm a)
    (below : ∀ least < depth, ∀ unvisited agenda,
      (∀ s ∈ agenda, w.StarsInstantiated realm s) → Passed w realm name least unvisited →
      ∀ value w', readFirst (readBinding least) realm name agenda w = .ok value w' →
        Searched w realm name least unvisited agenda rest value w')
    (passed : Passed w realm name depth unvisited)
    (read : readBinding depth realm a name w = .ok value w') :
    Searched w realm name depth unvisited [a] rest value w' := by
  obtain ⟨module, environment, found, instantiated⟩ := stars a .refl
  by_cases unvisitedYet : a ∈ unvisited
  · cases own : ownBinding? a module name with
    | some binding =>
      obtain rfl := record_of_ownBinding? own
      exact .found binding value w' (searchBinding_own found unvisitedYet own) read fun _ => ⟨rfl, rfl⟩
    | none =>
      have withholds := (not_gives_iff found).mpr own
      have star (s : RecordId) : s ∈ (if name = "default" then [] else starTargets module) ↔
          w.Forwards name a s := mem_stars_iff_forwards found s
      have onward : w.searchBinding name unvisited ([a] ++ rest) =
          w.searchBinding name (unvisited.erase a)
            ((if name = "default" then [] else starTargets module) ++ rest) :=
        searchBinding_withheld found unvisitedYet own
      -- With the least depth the module itself cannot be read among its stars.
      obtain ⟨least, less, ended, notSooner⟩ := exists_least_depth read
      rw [readBinding_withheld found instantiated withholds] at ended
      have searched := below least less (unvisited.erase a) _
        (fun s isStar => stars.of_forwards ((star s).mp isStar)) (fun x other static visited => ?_)
        value w' ended
      · cases searched with
        | through isUndefined missing left passed' search =>
          have missing' : ¬ w.Provides name a := by
            rw [provides_iff]
            rintro (gives | ⟨s, forwards, provides⟩)
            · exact withholds gives
            · exact missing s ((star s).mpr forwards) provides
          refine .through isUndefined (by simpa using missing') left (fun x visited member => ?_)
            (onward.trans search)
          by_cases same : x = a
          · exact same ▸ missing'
          · exact passed' x visited ((List.mem_erase_of_ne same).mpr member)
        | found binding own w'' search read' agrees =>
          exact .found binding own w'' (onward.trans search)
            (readBinding_of_le (Nat.le_of_lt less) read') agrees
      · by_cases same : x = a
        · exact .inr (same ▸ notSooner)
        · refine (passed x other static fun member =>
            visited ((List.mem_erase_of_ne same).mpr member)).imp_right fun never ends => ?_
          exact never (ends.mono (Nat.le_of_lt less))
  · have missing := (passed a module found unvisitedYet).resolve_right fun never =>
      never ⟨value, w', read⟩
    refine .through (read_undefined_of_not_provides stars read missing) (by simpa using missing)
      unvisited (fun x visited member => absurd member visited) ?_
    exact searchBinding_visited found unvisitedYet

/-- Records are searched as they are read. -/
theorem searched_of_readFirst (depth : Nat) (unvisited agenda : List RecordId)
    (stars : ∀ a ∈ agenda, w.StarsInstantiated realm a)
    (passed : Passed w realm name depth unvisited) (value : Value) (w' : World)
    (read : readFirst (readBinding depth) realm name agenda w = .ok value w') :
    Searched w realm name depth unvisited agenda rest value w' := by
  induction depth using Nat.strong_induction_on generalizing unvisited agenda rest value w' with
  | _ depth below =>
    induction agenda generalizing unvisited with
    | nil =>
      cases read
      exact .through rfl (by simp) unvisited (fun x visited member => absurd member visited) rfl
    | cons a others ih =>
      obtain ⟨here, stars⟩ := List.forall_mem_cons.mp stars
      have single {value : Value} {w' : World}
          (read : readBinding depth realm a name w = .ok value w') :
          Searched w realm name depth unvisited [a] (others ++ rest) value w' :=
        searched_singleton here (fun least less unvisited agenda stars passed value w' read =>
          below least less unvisited agenda stars passed value w' read) passed read
      rcases readFirst_cons_eq_ok read with ⟨first, later⟩ | ⟨first, isDefined⟩
      · cases single first with
        | through _ missing left passed' search =>
          have passedLater : Passed w realm name depth left := fun x other static visited => by
            by_cases member : x ∈ unvisited
            · exact .inl (passed' x visited member)
            · exact passed x other static member
          cases ih left stars passedLater later with
          | through isUndefined missing' left' passed'' search' =>
            refine .through isUndefined ?_ left' (fun x visited member => ?_) (search.trans search')
            · exact List.forall_mem_cons.mpr ⟨missing a (List.mem_singleton_self a), missing'⟩
            · by_cases still : x ∈ left
              · exact passed'' x visited still
              · exact passed' x still member
          | found binding own w'' search' read' agrees =>
            exact .found binding own w'' (search.trans search') read' agrees
        | found binding own w'' search read' agrees =>
          refine .found binding own w'' search read' fun isDefined => ?_
          exact absurd (agrees isDefined).1.symm isDefined
      · cases single first with
        | through isUndefined => exact absurd isUndefined isDefined
        | found binding own w'' search read' agrees =>
          exact .found binding own w'' search read' agrees

end Action

/-- Where `export *` leads to instances of static modules only, and the reading of a name ends, the
reading in the module that the name resolves to ends as well. If it has a value there, then the two
come to the same. So they agree exactly if it is defined there, or undefined in every module that
gives out the name and that the request is passed on to. -/
theorem reading_agrees_iff_defined_or_undefined_throughout (w w' : World) (realm : RealmId)
    (id : RecordId) (name : String) (binding : Binding) (depth : Nat) (value : Value)
    (stars : w.StarsInstantiated realm id) (resolved : w.resolveExport id name = some binding)
    (read : Action.readBinding depth realm id name w = .ok value w') :
    ∃ own w'', Action.readBinding depth realm binding.record name w = .ok own w'' ∧
      (own ≠ .undefined → value = own ∧ w' = w'') ∧
      (value = own ↔ own ≠ .undefined ∨ ∀ p, ReflTransGen (w.Relays name) id p → w.Gives name p →
        Action.readBinding depth realm p name w = .ok .undefined w) := by
  have all : Action.Passed w realm name depth w.recordIds := fun x module static absent =>
    absurd (mem_recordIds.mpr (hasRecord_of_static static)) absent
  have searched : Action.Searched w realm name depth w.recordIds [id] [] value w' :=
    Action.searched_singleton stars (fun least _ unvisited agenda stars passed value w' read =>
      Action.searched_of_readFirst least unvisited agenda stars passed value w' read) all read
  cases searched with
  | through _ _ left _ search =>
    have nothing : w.resolveExport id name = none := by
      rw [resolveExport, ← List.append_nil [id], search, searchBinding]
    cases resolved.symm.trans nothing
  | found binding' own w'' search read' agrees =>
    cases resolved.symm.trans search
    refine ⟨own, w'', read', agrees, fun same => ?_, ?_⟩
    · by_cases isUndefined : own = .undefined
      · rw [same, isUndefined] at read
        cases Action.eq_of_read_undefined read
        have behind {p : RecordId} (path : ReflTransGen (w.Relays name) id p) :
            w.StarsInstantiated realm p ∧
              Action.readBinding depth realm p name w = .ok .undefined w := by
          induction path with
          | refl => exact ⟨stars, read⟩
          | tail _ relays ih =>
            exact ⟨ih.1.of_forwards relays.2, Action.read_undefined_of_relays ih.1 ih.2 relays⟩
        exact .inr fun p path _ => (behind path).2
      · exact .inl isUndefined
    · rintro (isDefined | allUndefined)
      · exact (agrees isDefined).1
      · by_cases isDefined : value = .undefined
        · by_contra differs
          exact differs (agrees fun isUndefined => differs (isDefined.trans isUndefined.symm)).1
        · obtain ⟨p, path, gives, last⟩ := Action.exists_gives_of_read stars read isDefined
          cases (allUndefined p path gives).symm.trans last
          exact absurd rfl isDefined

/-- A barrel that exports along two modules with an `x`, of which only the second one sets it. -/
def shadowed : World where
  records := #[tableModule 'r' [] [.all "a", .all "b"], tableModule 'a' [] [.named "x" none],
    .static {
      location := .fileUrl "" ['/', 'b'], declarations := { exports := [.named "x" none] }
      body := fun environment =>
        .writeBinding environment "x" (.bool true) fun _ => .give .undefined
      importer := .table }]
  table _ specifier := if specifier = "a" then some ⟨1⟩ else some ⟨2⟩

/-- Whether a realm has an instance of a static module whose stars are all records. -/
def hasStaticWithStars (w : World) (realm : RealmId) (id : RecordId) : Bool :=
  match w.record id, (w.realm realm).instance? id with
  | .static module, some (.static _) => (starTargets module).all w.hasRecord
  | _, _ => false

theorem exists_of_hasStaticWithStars {w : World} {realm : RealmId} {id : RecordId}
    (test : hasStaticWithStars w realm id = true) : ∃ module environment,
      w.record id = .static module ∧ (w.realm realm).instance? id = some (.static environment) ∧
      ∀ s ∈ starTargets module, w.hasRecord s := by
  unfold hasStaticWithStars at test
  split at test
  · rename_i module environment found instantiated
    exact ⟨module, environment, found, instantiated, List.all_eq_true.mp test⟩
  · cases test

theorem starsInstantiated_of_all {w : World} {realm : RealmId} {id : RecordId}
    (present : w.hasRecord id) (all : w.recordIds.all (hasStaticWithStars w realm) = true) :
    w.StarsInstantiated realm id := by
  have each {x : RecordId} (present : w.hasRecord x) :=
    exists_of_hasStaticWithStars (List.all_eq_true.mp all x (mem_recordIds.mpr present))
  intro x path
  have present : w.hasRecord x := by
    induction path with
    | refl => exact present
    | @tail a b _ along ih =>
      obtain ⟨module, found, isStar⟩ := along
      obtain ⟨module', _, found', _, stars⟩ := each ih
      cases found.symm.trans found'
      exact stars b isStar
  obtain ⟨module, environment, found, instantiated, _⟩ := each present
  exact ⟨module, environment, found, instantiated⟩

/-- When the barrel was evaluated, it reads a value, and the module that it resolves to does not. -/
theorem run_shadowed : ∃ w, (Setup.ofDepth .bare 8).run [.link ⟨0⟩, .evaluate (.worker 0) ⟨0⟩]
      shadowed = .ok () w ∧
    w.IsLinked ⟨0⟩ ∧ w.StarsInstantiated (.worker 0) ⟨0⟩ ∧
    w.resolveExport ⟨0⟩ "x" = some ⟨⟨1⟩, "x"⟩ ∧
    (∃ module, w.record ⟨1⟩ = .static module ∧ module.declarations.localExport? "x" = some "x") ∧
    (∃ w', Action.readBinding 3 (.worker 0) ⟨0⟩ "x" w = .ok (.bool true) w') ∧
    ∃ w', Action.readBinding 3 (.worker 0) ⟨1⟩ "x" w = .ok .undefined w' := by
  have computed : ((Setup.ofDepth .bare 8).run [.link ⟨0⟩, .evaluate (.worker 0) ⟨0⟩]).ends shadowed
      (fun _ w =>
        (w.record ⟨0⟩).static?.any (fun module => module.status = .linked) &&
        w.recordIds.all (hasStaticWithStars w (.worker 0)) &&
        w.resolveExport ⟨0⟩ "x" = some ⟨⟨1⟩, "x"⟩ &&
        (w.record ⟨1⟩).static?.any (fun module => module.declarations.localExport? "x" = some "x") &&
        (Action.readBinding 3 (.worker 0) ⟨0⟩ "x").ends w (fun value _ => value = .bool true) &&
        (Action.readBinding 3 (.worker 0) ⟨1⟩ "x").ends w fun value _ => value = .undefined) =
      true := by
    cbv
  obtain ⟨_, w, ran, computed⟩ := Action.exists_of_ends computed
  simp only [Bool.and_eq_true, Option.any_eq_true, decide_eq_true_eq, static?_eq_some] at computed
  obtain ⟨⟨⟨⟨⟨⟨module, found, linked⟩, all⟩, resolved⟩, isLocal⟩, barrel⟩, owner⟩ := computed
  obtain ⟨value, w₁, read, same⟩ := Action.exists_of_ends barrel
  obtain ⟨own, w₂, read', same'⟩ := Action.exists_of_ends owner
  refine ⟨w, ran, ⟨module, found, linked⟩, ?_, resolved, isLocal, ⟨w₁, ?_⟩, w₂, ?_⟩
  · exact starsInstantiated_of_all (hasRecord_of_static found) all
  · rw [read, of_decide_eq_true same]
  · rw [read', of_decide_eq_true same']

/-- So a name need not read as it does in the module that it resolves to. -/
theorem not_reading_agrees :
    ¬ ∀ (embedding : Embedding) (depth : Nat) (operations : List Operation) (w₀ w w' w'' : World)
      (realm : RealmId) (id : RecordId) (name : String) (binding : Binding) (module : StaticModule)
      (deep : Nat) (value own : Value), w₀.Fresh →
      (Setup.ofDepth embedding depth).run operations w₀ = .ok () w → w.IsLinked id →
      w.StarsInstantiated realm id → w.resolveExport id name = some binding →
      w.record binding.record = .static module →
      module.declarations.localExport? name = some binding.name →
      Action.readBinding deep realm id name w = .ok value w' →
      Action.readBinding deep realm binding.record name w = .ok own w'' → value = own := by
  intro claim
  obtain ⟨w, ran, linked, stars, resolved, ⟨module, found, isLocal⟩, ⟨w', read⟩, w'', read'⟩ :=
    run_shadowed
  have fresh : shadowed.Fresh := ⟨fun _ => rfl, fun _ => rfl, rfl⟩
  cases claim .bare 8 _ shadowed w w' w'' (.worker 0) ⟨0⟩ "x" _ module 3 _ _ fresh ran linked stars
    resolved found isLocal read read'

/-- Behind the barrel there is another module with a value for the name. -/
theorem defined_elsewhere_in_shadowed :
    ∃ w, (Setup.ofDepth .bare 8).run [.link ⟨0⟩, .evaluate (.worker 0) ⟨0⟩] shadowed = .ok () w ∧
      w.resolveExport ⟨0⟩ "x" = some ⟨⟨1⟩, "x"⟩ ∧
      ∃ p, ReflTransGen (w.Relays "x") ⟨0⟩ p ∧ w.Gives "x" p ∧
        Action.readBinding 3 (.worker 0) p "x" w ≠ .ok .undefined w := by
  obtain ⟨w, ran, _, stars, resolved, _, ⟨w', read⟩, w'', read'⟩ := run_shadowed
  obtain ⟨own, _, ownRead, _, exactly⟩ := reading_agrees_iff_defined_or_undefined_throughout w w'
    (.worker 0) ⟨0⟩ "x" _ 3 _ stars resolved read
  cases read'.symm.trans ownRead
  refine ⟨w, ran, resolved, ?_⟩
  by_contra none
  have agree := exactly.mpr (.inr fun p path gives => by_contra fun other =>
    none ⟨p, path, gives, other⟩)
  cases agree

end ModuleGraph
