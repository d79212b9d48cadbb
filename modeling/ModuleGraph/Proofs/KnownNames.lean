import ModuleGraph.Proofs.NameSteps
import ModuleGraph.Proofs.StarClosures

/-!
How long known names last. Whatever a run does, a memo keeps the names that it has learned, and a
static module is done with its stars once it links. So the known names of a module are final, unless
`export *` leads from it to a static module that is still unlinked: then it is as if the stars of that
module were not there, and linking it may change the names.
-/
namespace ModuleGraph
open World Relation

namespace Record
variable {record : Record} {memo : NameMemo Watcher}

@[simp] theorem static?_withMemo (record : Record) (memo : NameMemo Watcher) :
    (record.withMemo memo).static? = record.static? := by
  cases record <;> rfl

theorem settledNames?_of_memo? (found : record.memo? = some memo) :
    record.settledNames? = memo.names? := by
  cases record <;> cases found <;> rfl

theorem settledNames?_withMemo (found : record.memo? = some memo) (other : NameMemo Watcher) :
    (record.withMemo other).settledNames? = other.names? :=
  settledNames?_of_memo? (memo?_withMemo found other)

end Record

namespace World
variable {w w' w'' : World} {id x : RecordId} {module : StaticModule} {names : List String}
  {memo : NameMemo Watcher}

theorem hasRecord_of_settledNames? (known : (w.record id).settledNames? = some names) :
    w.hasRecord id := by
  by_contra absent
  rw [record_of_not_hasRecord absent] at known
  cases known

/-! ### Questions -/

/-- The same modules give out the same names: at most others wait for them. -/
structure Equinamed (w w' : World) : Prop where
  static? : ∀ id, (w'.record id).static? = (w.record id).static?
  hasMemo : ∀ id, (w'.record id).memo?.isSome = (w.record id).memo?.isSome
  settledNames? : ∀ id, (w'.record id).settledNames? = (w.record id).settledNames?

namespace Equinamed

theorem of_records (records : w'.records = w.records) : Equinamed w w' := by
  have record (x : RecordId) : w'.record x = w.record x := by simp only [World.record, records]
  constructor <;> exact fun id => by rw [record]

theorem refl (w : World) : Equinamed w w := .of_records rfl

theorem trans (h : Equinamed w w') (h' : Equinamed w' w'') : Equinamed w w'' where
  static? id := (h'.static? id).trans (h.static? id)
  hasMemo id := (h'.hasMemo id).trans (h.hasMemo id)
  settledNames? id := (h'.settledNames? id).trans (h.settledNames? id)

theorem symm (h : Equinamed w w') : Equinamed w' w where
  static? id := (h.static? id).symm
  hasMemo id := (h.hasMemo id).symm
  settledNames? id := (h.settledNames? id).symm

theorem enqueue (found : (w.record id).memo? = some memo) (watcher : Watcher) :
    Equinamed w (w.setRecord id ((w.record id).withMemo (memo.enqueue watcher))) := by
  constructor
  all_goals
    intro x
    rw [record_setRecord]
    split
    · rename_i here
      rw [here.1]
      simp [Record.memo?_withMemo found, Record.settledNames?_withMemo found,
        Record.settledNames?_of_memo? found, found]
    · rfl

instance : Hears (fun _ => True) Equinamed where
  refl := refl
  trans _ _ _ := trans
  named _ _ _ _ := .of_records rfl
  enqueue _ _ _ watcher found _ := enqueue found watcher

theorem static (h : Equinamed w w') (found : w.record id = .static module) :
    w'.record id = .static module := by
  rw [← static?_eq_some, h.static? id, static?_eq_some, found]

theorem firm (h : Equinamed w w') (id : RecordId) : Firm w w' id where
  static module found := ⟨module, h.static found, rfl, rfl⟩
  named names known := by rw [h.settledNames? id, known]

theorem knownNames? (h : Equinamed w w') (id : RecordId) : w'.knownNames? id = w.knownNames? id :=
  Option.ext fun _ => ⟨knownNames?_of_firm fun x _ => h.symm.firm x,
    knownNames?_of_firm fun x _ => h.firm x⟩

end Equinamed

/-! ### What is learned -/

/-- Names that were known stay known, memos stay, and static modules are at most linked, which happens
only to unlinked ones. -/
structure Learns (w w' : World) : Prop where
  static : ∀ id module, w.record id = .static module → ∃ status requested,
    w'.record id = .static { module with status, requested } ∧
      (status = .unlinked → module.status = .unlinked ∧ requested = module.requested)
  begun : ∀ id module, w.record id = .static module → module.status ≠ .unlinked →
    w'.record id = .static module
  hasMemo : ∀ id, (w.record id).memo?.isSome → (w'.record id).memo?.isSome
  named : ∀ id names, (w.record id).settledNames? = some names →
    (w'.record id).settledNames? = some names

namespace Learns

theorem trans (h : Learns w w') (h' : Learns w' w'') : Learns w w'' where
  static id module found := by
    obtain ⟨_, _, found', before⟩ := h.static id module found
    obtain ⟨status, requested, found'', still⟩ := h'.static id _ found'
    refine ⟨status, requested, found'', fun unlinked => ?_⟩
    obtain ⟨unlinked', same⟩ := still unlinked
    exact ⟨(before unlinked').1, same.trans (before unlinked').2⟩
  begun id module found begun := h'.begun id module (h.begun id module found begun) begun
  hasMemo id has := h'.hasMemo id (h.hasMemo id has)
  named id names known := h'.named id names (h.named id names known)

theorem of_static (static : ∀ id module, w.record id = .static module →
      w'.record id = .static module)
    (hasMemo : ∀ id, (w.record id).memo?.isSome → (w'.record id).memo?.isSome)
    (named : ∀ id names, (w.record id).settledNames? = some names →
      (w'.record id).settledNames? = some names) : Learns w w' where
  static id module found := ⟨_, _, static id module found, fun unlinked => ⟨unlinked, rfl⟩⟩
  begun id module found _ := static id module found
  hasMemo := hasMemo
  named := named

theorem refl (w : World) : Learns w w :=
  of_static (fun _ _ found => found) (fun _ has => has) fun _ _ known => known

theorem of_equinamed (h : Equinamed w w') : Learns w w' :=
  of_static (fun _ _ => h.static) (fun id has => (h.hasMemo id).trans has)
    fun id _ known => (h.settledNames? id).trans known

theorem of_aside (h : Aside w w') : Learns w w' where
  static := h.static
  begun := h.begun
  hasMemo id has := by
    obtain ⟨memo, found⟩ := Option.isSome_iff_exists.mp has
    rw [h.other id (hasRecord_of_memo? found) fun module here => ?_]
    · exact has
    · rw [here] at found
      cases found
  named id names known := by
    rw [h.other id (hasRecord_of_settledNames? known)
      (kind_ne_static_iff.mp (kind_ne_static_of_settledNames? known)), known]

/-- A memo learns names that it did not know. -/
theorem setMemo (found : (w.record id).memo? = some memo) (unknown : memo.names? = none)
    (other : NameMemo Watcher) : Learns w (w.setRecord id ((w.record id).withMemo other)) := by
  refine of_static (fun x module here => ?_) (fun x has => ?_) fun x names known => ?_
  · rw [record_setRecord, if_neg, here]
    rintro ⟨rfl, -⟩
    rw [here] at found
    cases found
  · rw [record_setRecord]
    split
    · rw [Record.memo?_withMemo found, Option.isSome_some]
    · exact has
  · rw [record_setRecord, if_neg, known]
    rintro ⟨rfl, -⟩
    rw [Record.settledNames?_of_memo? found, unknown] at known
    cases known

end Learns

/-- A memo that begins to compute knew no names. -/
theorem names?_of_begin? {memo begun : NameMemo Watcher} (begins : memo.begin? = some begun) :
    memo.names? = none := by
  unfold NameMemo.begin? at begins
  split at begins
  · rename_i unknown
    rw [NameMemo.names?, unknown]
  · cases begins

theorem meets_publishNames_learns (depth : Nat) (id : RecordId) (names : List String) (w : World) :
    Action.Meets (Learns w) (Action.publishNames depth id names) (fun _ => Learns w) w := by
  unfold Action.publishNames
  rw [Action.meets_bind, Action.meets_get]
  dsimp only
  split
  · exact .refl w
  · rename_i memo begun
    obtain ⟨old, found, begins⟩ := Option.bind_eq_some_iff.mp begun
    rw [Action.meets_bind, Action.meets_set]
    have told : Action.Keeps Equinamed
        (Action.tellAll (Action.askNames depth) names (memo.publish names).1) :=
      Action.keeps_tellAll (fun _ => True)
        (fun x _ fits => Action.keeps_askNames_of (fun _ => True) depth x fits) names
        fun _ _ => trivial
    have learned (w' : World) (same : Equinamed _ w') : Learns w w' :=
      (Learns.setMemo found (names?_of_begin? begins) (memo.publish names).2).trans
        (.of_equinamed same)
    exact (told _).imp learned fun _ => learned

variable {tags : Json → Bool}

theorem NameStep.learns (step : NameStep tags w w') : Learns w w' := by
  cases step with
  | aside aside => exact .of_aside aside
  | @ask depth id watcher _ _ _ asked =>
    have keeps : Action.Keeps Equinamed (Action.askNames depth id watcher) :=
      Action.keeps_askNames_of (fun _ => True) depth id trivial
    have same := keeps w
    rw [Action.Meets, asked] at same
    exact .of_equinamed same
  | @publish depth id names _ published =>
    have learned := meets_publishNames_learns depth id names w
    rwa [Action.Meets, published] at learned

theorem NameSteps.learns (steps : NameSteps tags w w') : Learns w w' := by
  induction steps with
  | refl => exact .refl w
  | tail _ step ih => exact ih.trans step.learns

/-- A static module that was unlinked has begun to link, and exports along more now. -/
def StarsLinked (w w' : World) (id : RecordId) : Prop :=
  ∃ module module', w.record id = .static module ∧ module.status = .unlinked ∧
    w'.record id = .static module' ∧ module'.status ≠ .unlinked ∧
    starTargets module' ≠ starTargets module

/-- A record is firm, unless its stars were linked. -/
theorem Learns.firm_or_starsLinked (h : Learns w w') (id : RecordId) :
    Firm w w' id ∨ StarsLinked w w' id := by
  cases found : w.record id with
  | static module =>
    obtain ⟨status, requested, found', still⟩ := h.static id module found
    by_cases same : starTargets { module with status, requested } = starTargets module
    · refine .inl ⟨fun module' here => ?_, h.named id⟩
      cases found.symm.trans here
      exact ⟨_, found', rfl, same⟩
    · refine .inr ⟨module, _, found, ?_, found', fun unlinked => ?_, same⟩
      · by_contra begun
        rw [h.begun id module found begun] at found'
        exact same (congrArg starTargets (Record.static.inj found').symm)
      · apply same
        simp only [starTargets, (still unlinked).2]
  | _ => exact .inl ⟨fun module here => absurd (found.symm.trans here) (by simp), h.named id⟩

end World

/-- Whatever a run does goes by steps of names. From then on known names stay as they are, unless
`export *` leads to a static module that was unlinked and has its stars linked since; in particular
those of a native, legacy or wrapper-style module stay, and those of a static module behind which all
is linked or has failed to. -/
theorem known_names_stay_unless_stars_link (w : World) :
    (∀ depth deeds, Action.Meets (fun _ => True) (Deed.actEach depth deeds)
      (fun _ => NameSteps (fun _ => false) w) w) ∧
    ∀ w', NameSteps (fun _ => false) w w' → ∀ id names, w.knownNames? id = some names →
      w'.knownNames? id = some names ∨ ∃ m, w.StarsTo id m ∧ StarsLinked w w' m := by
  refine ⟨fun depth deeds => Deed.meets_actEach_steps depth (fun _ _ _ _ => rfl) .refl,
    fun w' steps id names known => ?_⟩
  by_cases linked : ∃ m, w.StarsTo id m ∧ StarsLinked w w' m
  · exact .inr linked
  · refine .inl (knownNames?_of_firm (fun x path => ?_) known)
    exact (steps.learns.firm_or_starsLinked x).resolve_right fun stars => linked ⟨x, path, stars⟩

/-- A module that exports along what another one exports. -/
def starPair : World :=
  tablePair (tableModule 'a' [] [.all "b"]) (tableModule 'b' [] [.named "x" none])

/-- The names of the first module before it is linked, and after it was linked and evaluated. -/
theorem names_change_in_starPair :
    ∃ w w', Deed.actEach 5 [] starPair = .ok () w ∧ w.knownNames? ⟨0⟩ = some [] ∧
      Deed.actEach 5 [(.bare, .does (.link ⟨0⟩))] w = .ok () w' ∧
      w'.knownNames? ⟨0⟩ = some ["x"] := by
  have computed : (Deed.actEach 5 [(.bare, .does (.link ⟨0⟩))]).ends starPair
      (fun _ w => w.knownNames? ⟨0⟩ = some ["x"]) = true := by cbv
  obtain ⟨_, w', did, known⟩ := Action.exists_of_ends computed
  exact ⟨starPair, w', rfl, by cbv, did, by simpa using known⟩

/-- Known names are not final for every record: before a module is linked it is as if it had no
stars. -/
theorem not_known_names_final :
    ¬ ∀ (depth : Nat) (before after : List (Embedding × Deed)) (w₀ w w' : World) (id : RecordId)
      (names : List String), w₀.Fresh → w₀.Unlinked → Deed.actEach depth before w₀ = .ok () w →
      w.knownNames? id = some names → Deed.actEach depth after w = .ok () w' →
      w'.knownNames? id = some names := by
  intro final
  obtain ⟨w, w', did, known, linked, known'⟩ := names_change_in_starPair
  have fresh : starPair.Fresh := ⟨fun _ => rfl, fun _ => rfl, rfl⟩
  have stays := final 5 _ _ starPair w w' ⟨0⟩ [] fresh (unlinked_of_all _ (by cbv)) did known linked
  cases stays.symm.trans known'

/-- There the names have changed because the module itself was linked. -/
theorem stars_linked_in_starPair :
    ∃ w', Deed.actEach 5 [(.bare, .does (.link ⟨0⟩))] starPair = .ok () w' ∧
      ∃ m, starPair.StarsTo ⟨0⟩ m ∧ StarsLinked starPair w' m := by
  obtain ⟨w, w', did, known, linked, known'⟩ := names_change_in_starPair
  cases did
  obtain ⟨steps, stay⟩ := known_names_stay_unless_stars_link starPair
  have reached := steps 5 [(.bare, .does (.link ⟨0⟩))]
  rw [Action.Meets, linked] at reached
  refine ⟨w', linked, (stay w' reached ⟨0⟩ [] known).resolve_left fun same => ?_⟩
  cases same.symm.trans known'

end ModuleGraph
