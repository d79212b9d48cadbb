import ModuleGraph.Proofs.Contents
import ModuleGraph.Proofs.ImportChains
import ModuleGraph.Proofs.Objects

/-!
Default exports of native host modules. In each realm a module that declares named exports and no
default has a new object of them for its default. Whoever reads the default gets this one object,
and sees in it what others have done to it; what is declared under the names stays as it was.
-/
namespace ModuleGraph
open World Relation

/-! ### Instances of native host modules -/

theorem Instance.Becomes.native {content : Instance} {named : Option (List (String × Value))}
    {default : Value} (becomes : (Instance.native named default).Becomes content) :
    content = .native named default := by
  cases becomes
  rfl

namespace World
variable {w w' : World} {realm : RealmId} {id : RecordId} {named : Option (List (String × Value))}
  {default : Value}

/-- A realm has an instance for good, which is what the first one has become. -/
theorem Step.instance? {content : Instance} (step : Step w w')
    (there : (w.realm realm).instance? id = some content) :
    ∃ content', (w'.realm realm).instance? id = some content' ∧ content.Becomes content' := by
  obtain ⟨slot, found, held⟩ := Option.bind_eq_some_iff.mp there
  obtain ⟨slot', found', number, _⟩ := step.onward found
  obtain ⟨content', held', becomes⟩ := step.exists_becomes held
  exact ⟨content', by rw [instance?_of_slot found', number, held'], becomes⟩

theorem Steps.native (steps : Steps w w')
    (there : (w.realm realm).instance? id = some (.native named default)) :
    (w'.realm realm).instance? id = some (.native named default) := by
  induction steps with
  | refl => exact there
  | tail _ step ih =>
    obtain ⟨content, there', becomes⟩ := step.instance? ih
    rw [there', becomes.native]

end World

namespace Action
variable {w : World} {realm : RealmId} {id : RecordId} {named : Option (List (String × Value))}
  {default : Value} (there : (w.realm realm).instance? id = some (.native named default))
  (depth : Nat)
include there

theorem readBinding_native (name : String) :
    readBinding (depth + 1) realm id name w =
      .ok (if name = "default" then default
        else named.elim (w.property default name) fun entries =>
          (entries.lookup name).getD .undefined) w := by
  simp only [readBinding, readInstanceBy, bind, EStateM.bind, get, getThe, MonadStateOf.get,
    EStateM.get, there]
  split
  · rfl
  · cases named <;> rfl

end Action

/-! ### New instances -/

namespace Action
variable {realm : RealmId} {w : World} {exports : NativeExports} {scripts : List (String × Script)}

theorem meets_namedValues_names (depth : Nat) (realm : RealmId) (global : ObjectRef)
    (scripts : List (String × Script)) (w : World) :
    Meets (fun _ => True) (namedValues depth realm global scripts)
      (fun values _ => values.map Prod.fst = scripts.map Prod.fst) w := by
  induction scripts generalizing w with
  | nil => exact rfl
  | cons entry rest ih =>
    refine meets_bind_of_forall fun value w₁ => ?_
    rw [meets_bind]
    exact (ih w₁).mono fun others _ names => by
      rw [meets_pure, List.map_cons, names, List.map_cons]

/-- These are the values that a module has declared for its names in a realm by the time that there
is a world. -/
def Declares (depth : Nat) (realm : RealmId) (scripts : List (String × Script))
    (values : List (String × Value)) (after : World) : Prop :=
  values.map Prod.fst = scripts.map Prod.fst ∧
    ∃ global before, namedValues depth realm global scripts before = .ok values after

/-- A module with names and no default gets a new object for its default. -/
theorem meets_nativeInstance_synthesized (named : exports.named = some scripts)
    (undeclared : exports.default = none) (depth : Nat) (id : RecordId) (name : String) :
    Meets (fun _ => True) (nativeInstance depth realm id name exports)
      (fun content w' => ∃ values ref after, Declares depth realm scripts values after ∧
        KeepsObjects w after ∧ ¬ after.HasObject ref ∧
        content = .native (some (Sorted.ofList values)) (.object ref) ∧ w'.HasObject ref ∧
        w'.properties ref = .ofEntries (Sorted.ofList values)) w := by
  unfold nativeInstance
  rw [named, undeclared, meets_bind, meets_get, meets_bind, meets_write, meets_bind]
  refine (keeps_globalFor (R := KeepsObjects) realm exports.workplace _).imp (fun _ _ => trivial)
    fun global w₁ kept₁ => ?_
  rw [namedExports, meets_bind, meets_map, meets_map]
  refine (((keeps_namedValues (R := KeepsObjects) depth realm global scripts w₁).and
    (meets_ended _ w₁)).and (meets_namedValues_names depth realm global scripts w₁)).imp
      (fun _ _ => trivial) fun values w₂ computed => ?_
  obtain ⟨⟨kept₂, ended⟩, names⟩ := computed
  rw [defaultExport, meets_bind, meets_pure, meets_bind]
  refine (keeps_publishNames (R := KeepsObjects) depth id _ w₂).imp (fun _ _ => trivial)
    fun _ w₃ kept₃ => ?_
  rw [meets_bind]
  refine ⟨values, ⟨realm, (w₃.realm realm).objects.size⟩, w₂, ⟨names, global, w₁, ended⟩,
    fun ref there => kept₂ ref (kept₁ ref there), fun old => Nat.lt_irrefl _ (kept₃ _ old), rfl, ?_,
    ?_⟩
  · simp [HasObject]
  · simp [World.properties]

/-- A module without names has the default that it declares. -/
theorem meets_nativeInstance_declared (unnamed : exports.named = none) (depth : Nat) (id : RecordId)
    (name : String) :
    Meets (fun _ => True) (nativeInstance depth realm id name exports)
      (fun content _ => ∃ default, content = .native none default ∧
        ∀ script, exports.default = some script →
          ∃ global w w', valueApart depth realm global script w = .ok default w') w := by
  unfold nativeInstance
  rw [unnamed]
  refine meets_bind_of_forall fun _ _ => meets_bind_of_forall fun _ _ =>
    meets_bind_of_forall fun global _ => ?_
  rw [namedExports, meets_bind, meets_pure]
  cases declared : exports.default with
  | none =>
    rw [defaultExport, meets_bind, meets_pure]
    exact meets_bind_of_forall fun _ _ => meets_bind_of_forall fun _ _ => ⟨_, rfl, nofun⟩
  | some script =>
    rw [defaultExport, meets_bind, meets_map]
    refine (meets_ended _ _).mono fun value w' ended => meets_bind_of_forall fun _ _ => ?_
    refine ⟨value, rfl, fun other same => ?_⟩
    cases same
    exact ⟨global, _, w', ended⟩

/-- A native host module that a realm has no instance of gets one of its exports. -/
theorem meets_instantiate_native {stuck : World → Prop} {failed : ModuleError → World → Prop}
    {id : RecordId} {module : HostRecord} {post : Instance → World → Prop} {depth : Nat}
    (found : w.record id = .host module) (native : module.content = .native exports)
    (absent : (w.realm realm).slot? id = none)
    (unknown : ¬ w.hasRecord id → ∀ error, failed error w)
    (makes : Meets stuck (nativeInstance depth realm id module.name exports) post w) :
    Attempt.Meets stuck failed (instantiate depth realm id)
      (fun _ w' => ∃ content w₁, post content w₁ ∧ (w₁.realm realm).slot? id = none ∧
        w' = w₁.addInstance realm id content) w := by
  refine meets_instantiate_new absent unknown ?_
  unfold newInstance
  rw [Attempt.meets_bind, Attempt.meets_get, found]
  simp only [native]
  exact (Attempt.meets_lift _).mpr makes

end Action

/-! ### Reading and changing -/

/-- What is done with the exports of a native host module in a realm: a name is read, or a property
of the object that is read as `default` is set or deleted. -/
inductive ExportUse where
  | read (name : String)
  | set (key : String) (value : Value)
  | delete (key : String)

namespace ExportUse

/-- What becomes of the default object. -/
def change : ExportUse → Properties → Properties
  | .read _ => id
  | .set key value => (·.set key value)
  | .delete key => (·.delete key)

/-- Reads a name, or reads the default and changes the object that it is. -/
def perform (setup : Setup) (realm : RealmId) (id : RecordId) (use : ExportUse) : Action Value :=
  match use with
  | .read name => setup.bindingValue realm id name
  | .set .. | .delete _ => do
    let default ← setup.bindingValue realm id "default"
    match default with
    | .object ref => Action.modifyObject ref use.change
    | _ => pure ()
    pure default

end ExportUse

/-- What is done with the exports of a module, and what else happens meanwhile that leaves one
object alone. -/
inductive ExportUses (setup : Setup) (realm : RealmId) (id : RecordId) (ref : ObjectRef) (w : World) :
    List ExportUse → World → Prop
  | none : ExportUses setup realm id ref w [] w
  | use {uses : List ExportUse} {w₁ w' : World} {value : Value}
      (before : ExportUses setup realm id ref w uses w₁) (use : ExportUse)
      (performed : use.perform setup realm id w₁ = .ok value w') :
      ExportUses setup realm id ref w (uses ++ [use]) w'
  | meanwhile {uses : List ExportUse} {w₁ w' : World}
      (before : ExportUses setup realm id ref w uses w₁) (steps : Steps w₁ w')
      (spared : LeavesAlone ref w₁ w') : ExportUses setup realm id ref w uses w'

namespace Setup
variable {setup : Setup} {realm : RealmId} {id : RecordId} {w w' : World}
  {named : Option (List (String × Value))} {default : Value} {ref : ObjectRef}

theorem bindingValue_native (deep : 0 < setup.engine.depth)
    (there : (w.realm realm).instance? id = some (.native named default)) (name : String) :
    setup.bindingValue realm id name w =
      .ok (if name = "default" then default
        else named.elim (w.property default name) fun entries =>
          (entries.lookup name).getD .undefined) w := by
  obtain ⟨depth, same⟩ := Nat.exists_eq_add_of_lt deep
  rw [Nat.zero_add] at same
  rw [bindingValue, same, Action.readBinding_native there]

/-- A use of the exports ends, and does to the default object what it is meant to. -/
theorem perform_native (deep : 0 < setup.engine.depth)
    (there : (w.realm realm).instance? id = some (.native named (.object ref)))
    (made : w.HasObject ref) (use : ExportUse) :
    ∃ value w', use.perform setup realm id w = .ok value w' ∧ Steps w w' ∧ w'.HasObject ref ∧
      w'.properties ref = use.change (w.properties ref) := by
  have read := bindingValue_native deep there
  have changed : ∃ value w', (do
      let default ← setup.bindingValue realm id "default"
      match default with
      | .object ref => Action.modifyObject ref use.change
      | _ => pure ()
      pure default) w = .ok value w' ∧ Steps w w' ∧ w'.HasObject ref ∧
        w'.properties ref = use.change (w.properties ref) := by
    refine ⟨.object ref, w.setProperties ref (use.change (w.properties ref)), ?_, ?_, ?_, ?_⟩
    · rw [Action.run_bind, read, if_pos rfl]
      rfl
    · exact .single (.change (.edit (.setProperties ref _)))
    · exact hasObject_setProperties.mpr made
    · exact properties_setProperties_same made _
  cases use with
  | read name => exact ⟨_, w, read name, .refl, made, rfl⟩
  | set | delete => exact changed

end Setup

/-- Throughout, the default stays the same object, with the changes that were made so far. -/
theorem ExportUses.holds {setup : Setup} {realm : RealmId} {id : RecordId} {ref : ObjectRef}
    {w w' : World} {uses : List ExportUse} {named : Option (List (String × Value))}
    (did : ExportUses setup realm id ref w uses w') (deep : 0 < setup.engine.depth)
    (there : (w.realm realm).instance? id = some (.native named (.object ref)))
    (made : w.HasObject ref) :
    (w'.realm realm).instance? id = some (.native named (.object ref)) ∧ w'.HasObject ref ∧
      w'.properties ref = uses.foldl (fun properties use => use.change properties)
        (w.properties ref) := by
  induction did with
  | none => exact ⟨there, made, rfl⟩
  | use before use performed ih =>
    obtain ⟨there₁, made₁, properties⟩ := ih
    obtain ⟨value, w', ended, steps, made', changed⟩ := Setup.perform_native deep there₁ made₁ use
    cases ended.symm.trans performed
    refine ⟨steps.native there₁, made', ?_⟩
    rw [changed, properties, List.foldl_append, List.foldl_cons, List.foldl_nil]
  | meanwhile before steps spared ih =>
    obtain ⟨there₁, made₁, properties⟩ := ih
    obtain ⟨made', same⟩ := spared made₁
    exact ⟨steps.native there₁, made', same.trans properties⟩

/-- A native host module with names and without a default has a new object for its default in each
realm. At first this object has just the names for its keys, in ascending order, with their declared
values. Whatever is done with the exports after that, the default that is read is this object, with
the changes that were made so far; and every other name that is read has its declared value,
undefined if there is none. A module without names has the default that it declares, and the names
that are read are the properties that this default has then. -/
theorem defaults_are_apart_from_names (setup : Setup) (realm : RealmId) (id : RecordId)
    (module : HostRecord) (exports : NativeExports) (w w₀ : World) (deep : 0 < setup.engine.depth)
    (found : w.record id = .host module) (native : module.content = .native exports)
    (absent : (w.realm realm).slot? id = none)
    (made : (Action.instantiate setup.engine.depth realm id).run w = .ok (.ok ()) w₀) :
    (∀ scripts, exports.named = some scripts → exports.default = none → ∃ values ref after,
      Action.Declares setup.engine.depth realm scripts values after ∧ KeepsObjects w after ∧
      ¬ after.HasObject ref ∧
      (w₀.properties ref).keys.Pairwise (· < ·) ∧
      (∀ name, name ∈ (w₀.properties ref).keys ↔ name ∈ scripts.map Prod.fst) ∧
      (∀ name, (w₀.properties ref).get? name = (Sorted.ofList values).get? name) ∧
      ∀ uses w', ExportUses setup realm id ref w₀ uses w' →
        setup.bindingValue realm id "default" w' = .ok (.object ref) w' ∧
        w'.properties ref = uses.foldl (fun properties use => use.change properties)
          (w₀.properties ref) ∧
        (∀ use : ExportUse, ∃ value w'', use.perform setup realm id w' = .ok value w'') ∧
        ∀ name, name ≠ "default" → setup.bindingValue realm id name w' =
          .ok (((Sorted.ofList values).get? name).getD .undefined) w') ∧
    (exports.named = none → ∃ default,
      (∀ script, exports.default = some script → ∃ global before after,
        Action.valueApart setup.engine.depth realm global script before = .ok default after) ∧
      ∀ w', Steps w₀ w' → setup.bindingValue realm id "default" w' = .ok default w' ∧
        ∀ name, name ≠ "default" →
          setup.bindingValue realm id name w' = .ok (w'.property default name) w') := by
  refine ⟨fun scripts named undeclared => ?_, fun unnamed => ?_⟩
  · have created : Attempt.Meets (fun _ => True) (fun _ _ => True) _ _ w :=
      Action.meets_instantiate_native found native absent (fun _ _ => trivial)
        (Action.meets_nativeInstance_synthesized named undeclared setup.engine.depth id module.name)
    rw [Attempt.Meets, made] at created
    obtain ⟨_, w₁, ⟨values, ref, after, declares, kept, new, rfl, made₁, properties⟩, absent₁, rfl⟩ :=
      created
    have there := instance?_addInstance absent₁ (.native (some (Sorted.ofList values)) (.object ref))
    obtain ⟨made₀, same⟩ := LeavesAlone.addInstance ref w₁ realm id _ made₁
    have ascending := Sorted.ascending_ofList values
    have nodup : ((Sorted.ofList values).map Prod.fst).Nodup := by
      refine List.Pairwise.imp (fun lower same => ?_) ascending
      exact String.lt_irrefl _ (same ▸ lower)
    rw [properties, Properties.ofEntries_eq] at same
    have keys := Properties.keys_overlay nodup {}
    rw [← same, Properties.keys_empty, List.nil_append,
      List.filter_eq_self.mpr fun _ _ => by simp] at keys
    refine ⟨values, ref, after, declares, kept, new, keys ▸ ascending, fun name => ?_,
      fun name => ?_, fun uses w' did => ?_⟩
    · rw [keys, ← declares.1]
      exact Sorted.mem_keys_ofList
    · rw [same, Properties.get?_overlay nodup, Properties.get?_empty, Option.or_none]
      rfl
    · obtain ⟨there', made', changed⟩ := did.holds deep there made₀
      have read := Setup.bindingValue_native deep there'
      refine ⟨read "default", changed, fun use => ?_, fun name other => ?_⟩
      · obtain ⟨value, w'', performed, _⟩ := Setup.perform_native deep there' made' use
        exact ⟨value, w'', performed⟩
      · rw [read, if_neg other]
        rfl
  · have created : Attempt.Meets (fun _ => True) (fun _ _ => True) _ _ w :=
      Action.meets_instantiate_native found native absent (fun _ _ => trivial)
        (Action.meets_nativeInstance_declared unnamed setup.engine.depth id module.name)
    rw [Attempt.Meets, made] at created
    obtain ⟨_, w₁, ⟨default, rfl, declared⟩, absent₁, rfl⟩ := created
    have there := instance?_addInstance absent₁ (.native none default)
    refine ⟨default, declared, fun w' steps => ?_⟩
    have read := Setup.bindingValue_native deep (steps.native there)
    exact ⟨read "default", fun name other => by rw [read, if_neg other]; rfl⟩

/-- Two native host modules: one declares two names and no default, the other a default alone. -/
def namesAndDefault : World where
  records := #[
    .host { name := "names", content := .native {
      named := some [("b", .give (.bool true)), ("a", .give (.bool false))] } },
    .host { name := "default", content := .native {
      default := some (.newObject (.ofEntries [("a", .null)]) fun ref => .give (.object ref)) } }]

/-- A property of the default of the first module is set: its names have their values still. A name of
the second one is a property of its default. -/
theorem defaults_are_apart_from_namesAndDefault :
    (∃ w w' ref, (Action.instantiate 1 (.worker 0) ⟨0⟩).run namesAndDefault = .ok (.ok ()) w ∧
      ¬ namesAndDefault.HasObject ref ∧
      ExportUses (.ofDepth .bare 1) (.worker 0) ⟨0⟩ ref w [.set "a" .null] w' ∧
      (w'.properties ref).get? "a" = some .null ∧
      (Setup.ofDepth .bare 1).bindingValue (.worker 0) ⟨0⟩ "a" w' = .ok (.bool false) w') ∧
    ∃ w default, (Action.instantiate 1 (.worker 0) ⟨1⟩).run namesAndDefault = .ok (.ok ()) w ∧
      (Setup.ofDepth .bare 1).bindingValue (.worker 0) ⟨1⟩ "a" w = .ok (w.property default "a") w := by
  have first : Action.ends (Action.instantiate 1 (.worker 0) ⟨0⟩).run namesAndDefault
      (fun outcome _ => outcome = .ok ()) = true := by
    cbv
  have second : Action.ends (Action.instantiate 1 (.worker 0) ⟨1⟩).run namesAndDefault
      (fun outcome _ => outcome = .ok ()) = true := by
    cbv
  obtain ⟨_, w, made, isOk⟩ := Action.exists_of_ends first
  obtain ⟨_, v, made', isOk'⟩ := Action.exists_of_ends second
  rw [of_decide_eq_true isOk] at made
  rw [of_decide_eq_true isOk'] at made'
  refine ⟨?_, ?_⟩
  · obtain ⟨apart, -⟩ := defaults_are_apart_from_names (.ofDepth .bare 1) (.worker 0) ⟨0⟩ _ _
      namesAndDefault w (by decide) rfl rfl rfl made
    obtain ⟨values, ref, after, ⟨-, global, before, declared⟩, kept, new, -, -, -, throughout⟩ :=
      apart _ rfl rfl
    obtain ⟨-, -, total, -⟩ := throughout [] w .none
    obtain ⟨value, w', performed⟩ := total (.set "a" .null)
    have uses : ExportUses _ _ _ ref w ([] ++ [_]) w' := .use .none _ performed
    obtain ⟨-, changed, -, read⟩ := throughout _ w' uses
    refine ⟨w, w', ref, made, fun old => new (kept ref old), uses, ?_, ?_⟩
    · rw [changed]
      exact (Properties.get?_set _ _ _ _).trans (if_pos rfl)
    · have given : (.ok [("b", .bool true), ("a", .bool false)] before :
          EStateM.Result Unit World (List (String × Value))) = .ok values after := declared
      cases given
      rw [read "a" (by decide)]
      cbv
  · obtain ⟨-, plain⟩ := defaults_are_apart_from_names (.ofDepth .bare 1) (.worker 0) ⟨1⟩ _ _
      namesAndDefault v (by decide) rfl rfl rfl made'
    obtain ⟨default, -, read⟩ := plain rfl
    exact ⟨v, default, made', (read v .refl).2 "a" (by decide)⟩

end ModuleGraph
