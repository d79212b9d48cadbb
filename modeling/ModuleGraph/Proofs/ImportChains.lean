import ModuleGraph.Proofs.Contents
import ModuleGraph.Proofs.Readings

/-!
Imports through chains of modules. What a static module imports from another may be a name that the
other one imports in turn, and so on. A reading follows such a chain to its end whenever it happens,
so it gives what is stored there then; and only there the name can be set.
-/
namespace ModuleGraph
open World

namespace World
variable {w w' : World} {realm : RealmId} {a b : Binding} {id : RecordId} {name : String}
  {slot : Slot} {target? : Option ImportTarget} {environment : Environment}

/-- What a static module has imported for a local name, if it is not a name of its own. -/
def Binds (w : World) (a : Binding) (target? : Option ImportTarget) : Prop :=
  ∃ module imports, w.record a.record = .static module ∧
    Action.importsOf module = .ok imports ∧ imports.lookup a.name = target?

theorem binds_iff : w.Binds a target? ↔ (w.record a.record).static?.any fun module =>
    match Action.importsOf module with
    | .ok imports => decide (imports.lookup a.name = target?)
    | .error _ => false := by
  simp only [Binds, Option.any_eq_true, static?_eq_some]
  refine exists_congr fun module => ⟨?_, ?_⟩
  · rintro ⟨imports, found, built, lookup⟩
    exact ⟨found, by simpa [built] using lookup⟩
  · rintro ⟨found, test⟩
    split at test
    · exact ⟨_, found, ‹_›, of_decide_eq_true test⟩
    · cases test

instance : Decidable (w.Binds a target?) := decidable_of_iff' _ binds_iff

/-- What a static module exports under some name is a local name of it. -/
def GivesOut (w : World) (name : String) (b : Binding) : Prop :=
  ∃ module, w.record b.record = .static module ∧
    module.declarations.localExport? name = some b.name

instance : Decidable (w.GivesOut name b) :=
  decidable_of_iff ((w.record b.record).static?.any
    (·.declarations.localExport? name = some b.name) = true)
    (by simp [GivesOut, Option.any_eq_true, static?_eq_some])

/-- A module imports a local name by some name of another module, which exports a local name of its
own as that. -/
def ImportsAs (w : World) (a b : Binding) : Prop :=
  ∃ imported, w.Binds a (some (.binding b.record imported)) ∧ w.GivesOut imported b

/-- The environment of a module in a realm. -/
def environment? (w : World) (realm : RealmId) (id : RecordId) : Option EnvironmentRef :=
  ((w.realm realm).slot? id).map fun slot => ⟨realm, slot.instanceIndex⟩

/-- What a module has stored under a local name in a realm, which is undefined if it was never set.
-/
def stored (w : World) (realm : RealmId) (a : Binding) : Value :=
  match (w.realm realm).instance? a.record with
  | some (.static environment) => (environment.bindings.get? a.name).getD .undefined
  | _ => .undefined

theorem stored_of_found (there : (w.realm realm).instance? a.record = some (.static environment)) :
    w.stored realm a = environment.bindings.get a.name := by
  rw [stored, there]
  rfl

theorem instance?_of_slot (present : (w.realm realm).slot? id = some slot) :
    (w.realm realm).instance? id = (w.realm realm).instances[slot.instanceIndex]? := by
  rw [Realm.instance?, present, Option.bind_some]

/-- A module that a realm has an instance of sees its imports, whenever that is. -/
theorem Reached.sees (reached : w.Reached) (binds : w.Binds a target?)
    (present : (w.realm realm).slot? a.record = some slot) : ∃ environment : Environment,
      (w.realm realm).instances[slot.instanceIndex]? = some (.static environment) ∧
      environment.imports.lookup a.name = target? := by
  obtain ⟨module, imports, found, built, lookup⟩ := binds
  obtain ⟨environment, there, built'⟩ := reached.exists_environment found present
  cases built.symm.trans built'
  exact ⟨environment, there, lookup⟩

/-- What a module of a realm imports, it imports for good. -/
theorem Binds.steps (binds : w.Binds a target?) (reached : w.Reached) (steps : Steps w w')
    (present : (w.realm realm).slot? a.record = some slot) : w'.Binds a target? :=
  let ⟨module, imports, found, built, lookup⟩ := binds
  ⟨module, imports, reached.static steps found present, built, lookup⟩

theorem ImportsAs.steps (imports : w.ImportsAs a b) (reached : w.Reached) (steps : Steps w w')
    {slot' : Slot} (present : (w.realm realm).slot? a.record = some slot)
    (present' : (w.realm realm).slot? b.record = some slot') : w'.ImportsAs a b :=
  let ⟨imported, binds, module, found, gives⟩ := imports
  ⟨imported, binds.steps reached steps present, module, reached.static steps found present', gives⟩

/-- All names of a chain but the last one are imported. -/
theorem exists_binds_of_chain {links : List Binding} {origin : Binding}
    (chain : (links ++ [origin]).IsChain w.ImportsAs) (member : a ∈ links) :
    ∃ target, w.Binds a (some target) := by
  induction links with
  | nil => cases member
  | cons b links ih =>
    obtain ⟨linked, chain⟩ := List.isChain_cons.mp chain
    rcases List.mem_cons.mp member with rfl | member
    · obtain ⟨next, isNext⟩ : ∃ next, (links ++ [origin]).head? = some next := by
        cases links <;> simp
      obtain ⟨imported, binds, _⟩ := linked next isNext
      exact ⟨_, binds⟩
    · exact ih chain member

theorem Steps.environment? {ref : EnvironmentRef} (steps : Steps w w')
    (ref? : w.environment? realm id = some ref) : w'.environment? realm id = some ref := by
  obtain ⟨slot, present, rfl⟩ := Option.map_eq_some_iff.mp ref?
  obtain ⟨slot', present', number, _⟩ := steps.onward present
  rw [World.environment?, present', Option.map_some, number]

end World

namespace Action
variable {w w' : World} {realm : RealmId} {a b origin : Binding} {links : List Binding}
  {ref : EnvironmentRef} {depth : Nat}

theorem environment_of_found {index : Nat} {environment : Environment}
    (there : (w.realm realm).instances[index]? = some (.static environment)) :
    Action.environment ⟨realm, index⟩ w = .ok environment w := by
  unfold Action.environment
  show (match (w.realm realm).instances[index]? with
    | some (.static environment) => (pure environment : Action Environment)
    | _ => pure {}) w = _
  rw [there]
  rfl

/-- A reading of a name looks at what the module has imported for it. -/
theorem readEnvironment_of_found {index : Nat} {environment : Environment}
    (there : (w.realm realm).instances[index]? = some (.static environment)) (depth : Nat)
    (name : String) :
    readEnvironment depth ⟨realm, index⟩ name w =
      readEnvironmentBy (readBinding depth) realm environment name w := by
  unfold readEnvironment
  show EStateM.bind _ _ w = _
  rw [EStateM.bind, environment_of_found there]

/-- A name of the module's own reads as what is stored. -/
theorem readEnvironment_own (reached : w.Reached) (own : w.Binds a none)
    (ref? : w.environment? realm a.record = some ref) (depth : Nat) :
    readEnvironment depth ref a.name w = .ok (w.stored realm a) w := by
  obtain ⟨slot, present, rfl⟩ := Option.map_eq_some_iff.mp ref?
  obtain ⟨environment, there, lookup⟩ := reached.sees own present
  rw [readEnvironment_of_found there, stored_of_found ((instance?_of_slot present).trans there),
    readEnvironmentBy, lookup]
  rfl

/-- An imported name reads as the name behind it in the module that exports it. -/
theorem readEnvironment_imported (reached : w.Reached) (imports : w.ImportsAs a b)
    (ref? : w.environment? realm a.record = some ref) {ref' : EnvironmentRef}
    (ref?' : w.environment? realm b.record = some ref') (depth : Nat) :
    readEnvironment (depth + 1) ref a.name w = readEnvironment depth ref' b.name w := by
  obtain ⟨slot, present, rfl⟩ := Option.map_eq_some_iff.mp ref?
  obtain ⟨slot', present', rfl⟩ := Option.map_eq_some_iff.mp ref?'
  obtain ⟨imported, binds, module, found, gives⟩ := imports
  obtain ⟨environment, there, lookup⟩ := reached.sees binds present
  obtain ⟨environment', there', _⟩ := reached.exists_environment found present'
  rw [readEnvironment_of_found there, readEnvironment_of_found there', readEnvironmentBy, lookup]
  show readBinding (depth + 1) realm b.record imported w = _
  rw [readBinding_static found ((instance?_of_slot present').trans there'), readStaticBy, gives]

/-- An imported name is read-only. -/
theorem writeEnvironment_imported (reached : w.Reached) {target : ImportTarget}
    (binds : w.Binds a (some target)) (ref? : w.environment? realm a.record = some ref)
    (value : Value) :
    writeEnvironment ref a.name value w =
      .ok (some (.typeError ("Assignment to constant variable '" ++ a.name ++ "'"))) w := by
  obtain ⟨slot, present, rfl⟩ := Option.map_eq_some_iff.mp ref?
  obtain ⟨environment, there, lookup⟩ := reached.sees binds present
  unfold writeEnvironment
  show EStateM.bind _ _ w = _
  rw [EStateM.bind, environment_of_found there]
  dsimp only
  rw [lookup, Option.isSome_some, if_pos rfl]
  rfl

/-- A name of the module's own can be set, and is stored then. -/
theorem writeEnvironment_own (reached : w.Reached) (own : w.Binds a none)
    (ref? : w.environment? realm a.record = some ref) (value : Value) :
    ∃ w', writeEnvironment ref a.name value w = .ok none w' ∧ Steps w w' ∧
      w'.stored realm a = value := by
  obtain ⟨slot, present, rfl⟩ := Option.map_eq_some_iff.mp ref?
  obtain ⟨environment, there, lookup⟩ := reached.sees own present
  have edit : Edit w (w.modifyRealm realm
      (·.modifyInstance slot.instanceIndex (.setBinding a.name value))) :=
    .setBinding realm slot.instanceIndex a.name value
  refine ⟨_, ?_, .single (.change (.edit edit)), ?_⟩
  · unfold writeEnvironment
    show EStateM.bind _ _ w = _
    rw [EStateM.bind, environment_of_found there]
    dsimp only
    rw [lookup, Option.isSome_none, if_neg Bool.false_ne_true]
    rfl
  · have present' : ((w.modifyRealm realm
        (·.modifyInstance slot.instanceIndex (.setBinding a.name value))).realm realm).slot?
          a.record = some slot := by
      rw [realm_modifyRealm_same]
      exact present
    have there' : ((w.modifyRealm realm
        (·.modifyInstance slot.instanceIndex (.setBinding a.name value))).realm
          realm).instances[slot.instanceIndex]? =
          some (.static { environment with bindings := environment.bindings.set a.name value }) := by
      rw [realm_modifyRealm_same, Realm.modifyInstance, Array.getElem?_modify, if_pos rfl, there]
      rfl
    rw [stored_of_found ((instance?_of_slot present').trans there'), Properties.get,
      Properties.get?_set, if_pos rfl, Option.getD_some]

/-! ### Chains -/

/-- A reading follows a chain of imports to its end, from wherever on the chain it begins. -/
theorem readEnvironment_of_chain (reached : w.Reached) (steps : Steps w w')
    (instantiated : ∀ a ∈ links ++ [origin], ∃ ref, w.environment? realm a.record = some ref)
    (chain : (links ++ [origin]).IsChain w.ImportsAs) (own : w.Binds origin none)
    (member : a ∈ links ++ [origin]) (ref? : w.environment? realm a.record = some ref)
    (deep : links.length ≤ depth) :
    readEnvironment depth ref a.name w' = .ok (w'.stored realm origin) w' := by
  have reached' := reached.steps steps
  induction links generalizing a ref depth with
  | nil =>
    obtain rfl := List.mem_singleton.mp member
    obtain ⟨slot, present, _⟩ := Option.map_eq_some_iff.mp ref?
    exact readEnvironment_own reached' (own.steps reached steps present) (steps.environment? ref?)
      depth
  | cons b links ih =>
    have instantiated' := fun a member => instantiated a (List.mem_cons_of_mem b member)
    obtain ⟨linked, chain'⟩ := List.isChain_cons.mp chain
    rcases List.mem_cons.mp member with rfl | member
    · -- The first module of the chain imports from the next one, whose reading is a shorter one.
      obtain ⟨depth, rfl⟩ := Nat.exists_eq_add_of_le' (Nat.one_le_of_lt deep)
      obtain ⟨next, isNext⟩ : ∃ next, (links ++ [origin]).head? = some next := by
        cases links <;> simp
      have nextMember := List.mem_of_head? isNext
      obtain ⟨ref', ref?'⟩ := instantiated' next nextMember
      obtain ⟨slot, present, _⟩ := Option.map_eq_some_iff.mp ref?
      obtain ⟨slot', present', _⟩ := Option.map_eq_some_iff.mp ref?'
      have imports := (linked next isNext).steps reached steps present present'
      rw [readEnvironment_imported reached' imports (steps.environment? ref?)
        (steps.environment? ref?') depth]
      exact ih instantiated' chain' nextMember ref?' (Nat.le_of_succ_le_succ deep)
    · exact ih instantiated' chain' member ref? (Nat.le_of_succ_le deep)

/-- What has just got into a realm has stored nothing yet. -/
theorem meets_instantiate_stored (absent : (w.realm realm).slot? a.record = none) (depth : Nat) :
    Attempt.Meets (fun _ => True) (fun _ _ => True) (instantiate depth realm a.record)
      (fun _ w' => w'.stored realm a = .undefined) w := by
  refine (meets_instantiate_new absent (fun _ _ => trivial)
    (meets_newInstance_begins depth realm a.record w)).mono fun _ w' h => ?_
  obtain ⟨content, w₁, begins, absent₁, rfl⟩ := h
  rw [stored, instance?_addInstance absent₁]
  generalize w.record a.record = record at begins
  cases begins <;> rfl

end Action

/-- In a graph that was linked and instantiated, a chain of imports is read and set in this way at
every point of every run: a reading of any of its names gives what is stored for the last one then;
the imported names cannot be set, and the attempt changes nothing; the last one can. -/
theorem imports_read_through_chains (w w' : World) (realm : RealmId) (links : List Binding)
    (origin : Binding) (reached : w.Reached)
    (instantiated : ∀ a ∈ links ++ [origin], ∃ ref, w.environment? realm a.record = some ref)
    (chain : (links ++ [origin]).IsChain w.ImportsAs) (own : w.Binds origin none)
    (steps : Steps w w') :
    (∀ a ∈ links ++ [origin], ∀ ref ∈ w.environment? realm a.record, ∀ depth ≥ links.length,
      Action.readEnvironment depth ref a.name w' = .ok (w'.stored realm origin) w') ∧
    (∀ a ∈ links, ∀ ref ∈ w.environment? realm a.record, ∀ value,
      Action.writeEnvironment ref a.name value w' =
        .ok (some (.typeError ("Assignment to constant variable '" ++ a.name ++ "'"))) w') ∧
    ∀ ref ∈ w.environment? realm origin.record, ∀ value,
      ∃ w'', Action.writeEnvironment ref origin.name value w' = .ok none w'' ∧ Steps w' w'' ∧
        w''.stored realm origin = value := by
  have reached' := reached.steps steps
  refine ⟨fun a member ref ref? depth deep => ?_, fun a member ref ref? value => ?_,
    fun ref ref? value => ?_⟩
  · exact Action.readEnvironment_of_chain reached steps instantiated chain own member ref? deep
  · obtain ⟨slot, present, _⟩ := Option.map_eq_some_iff.mp ref?
    obtain ⟨target, binds⟩ := exists_binds_of_chain chain member
    exact Action.writeEnvironment_imported reached' (binds.steps reached steps present)
      (steps.environment? ref?) value
  · obtain ⟨slot, present, _⟩ := Option.map_eq_some_iff.mp ref?
    exact Action.writeEnvironment_own reached' (own.steps reached steps present)
      (steps.environment? ref?) value

/-- Three modules: `a` imports a name that `b` imports by default from `c`, whose body sets it. -/
def renamedTwice : World where
  records := #[tableModule 'a' [⟨"b", [.named "p" (some "x")]⟩],
    tableModule 'b' [⟨"c", [.default "q"]⟩] [.named "q" (some "p")],
    .static {
      location := .fileUrl "" ['/', 'c'], declarations := { exports := [.default] }
      body := fun environment =>
        .writeBinding environment "default" (.bool true) fun _ => .give .undefined
      importer := .table }]
  table _ specifier := if specifier = "b" then some ⟨1⟩ else some ⟨2⟩

/-- The name is undefined when the graph was instantiated, and has its value when it was evaluated.
-/
theorem imports_read_through_renamedTwice :
    ∃ w w' ref, w.Reached ∧ Steps w w' ∧ w.environment? (.worker 0) ⟨0⟩ = some ref ∧
      Action.readEnvironment 2 ref "x" w = .ok .undefined w ∧
      Action.readEnvironment 2 ref "x" w' = .ok (.bool true) w' ∧
      Action.writeEnvironment ref "x" .null w' =
        .ok (some (.typeError "Assignment to constant variable 'x'")) w' := by
  have computed : ((Setup.ofDepth .bare 8).run [.link ⟨0⟩, .instantiateGraph (.worker 0) ⟨0⟩]).ends
      renamedTwice (fun _ w =>
        decide (w.Binds ⟨⟨0⟩, "x"⟩ (some (.binding ⟨1⟩ "p")) ∧ w.GivesOut "p" ⟨⟨1⟩, "q"⟩ ∧
          w.Binds ⟨⟨1⟩, "q"⟩ (some (.binding ⟨2⟩ "default")) ∧
          w.GivesOut "default" ⟨⟨2⟩, "default"⟩ ∧ w.Binds ⟨⟨2⟩, "default"⟩ none) &&
        [⟨0⟩, ⟨1⟩, ⟨2⟩].all (fun id => (w.environment? (.worker 0) id).isSome) &&
        w.stored (.worker 0) ⟨⟨2⟩, "default"⟩ = .undefined &&
        ((Setup.ofDepth .bare 8).run [.evaluate (.worker 0) ⟨0⟩]).ends w fun _ w' =>
          w'.stored (.worker 0) ⟨⟨2⟩, "default"⟩ = .bool true) = true := by
    cbv
  obtain ⟨_, w, ran, computed⟩ := Action.exists_of_ends computed
  simp only [Bool.and_eq_true, decide_eq_true_eq, List.all_eq_true] at computed
  obtain ⟨⟨⟨⟨x, p, q, given, own⟩, all⟩, before⟩, later⟩ := computed
  obtain ⟨_, w', evaluated, after⟩ := Action.exists_of_ends later
  have fresh : renamedTwice.Fresh := ⟨fun _ => rfl, fun _ => rfl, rfl⟩
  have reached : w.Reached := by
    have steps := Setup.steps_run .bare 8 [.link ⟨0⟩, .instantiateGraph (.worker 0) ⟨0⟩] fresh.orderly
    rw [Action.after, ran] at steps
    exact fresh.reached.steps steps
  have steps := Setup.steps_run .bare 8 [.evaluate (.worker 0) ⟨0⟩] reached.orderly
  rw [Action.after, evaluated] at steps
  have instantiated : ∀ a ∈ [(⟨⟨0⟩, "x"⟩ : Binding), ⟨⟨1⟩, "q"⟩, ⟨⟨2⟩, "default"⟩],
      ∃ ref, w.environment? (.worker 0) a.record = some ref := by
    intro a member
    refine Option.isSome_iff_exists.mp (all a.record ?_)
    exact List.mem_map_of_mem (f := Binding.record) member
  have chain : [(⟨⟨0⟩, "x"⟩ : Binding), ⟨⟨1⟩, "q"⟩, ⟨⟨2⟩, "default"⟩].IsChain w.ImportsAs :=
    .cons_cons ⟨"p", x, p⟩ (.cons_cons ⟨"default", q, given⟩ (.singleton _))
  obtain ⟨ref, ref?⟩ := instantiated ⟨⟨0⟩, "x"⟩ (by simp)
  obtain ⟨first, _, _⟩ := imports_read_through_chains w w (.worker 0) [⟨⟨0⟩, "x"⟩, ⟨⟨1⟩, "q"⟩] _ reached
    instantiated chain own .refl
  obtain ⟨second, locked, _⟩ := imports_read_through_chains w w' (.worker 0)
    [⟨⟨0⟩, "x"⟩, ⟨⟨1⟩, "q"⟩] _ reached instantiated chain own steps
  refine ⟨w, w', ref, reached, steps, ref?, ?_, ?_, ?_⟩
  · exact before ▸ first _ (by simp) ref ref? 2 (by simp)
  · exact of_decide_eq_true after ▸ second _ (by simp) ref ref? 2 (by simp)
  · exact locked _ (by simp) ref ref? .null

end ModuleGraph
