import ModuleGraph.Proofs.Steps

/-!
Objects in the heaps of the realms. None is ever lost, the properties of an object change only where
they are set, and a new instance of a host module leaves an object alone if the module's scripts do.
-/
namespace ModuleGraph

namespace Properties

/-- Entries set over properties, one after the other. -/
def overlay (properties : Properties) (entries : List (String × Value)) : Properties :=
  entries.foldl (fun properties entry => properties.set entry.1 entry.2) properties

theorem ofEntries_eq (entries : List (String × Value)) :
    ofEntries entries = overlay {} entries := rfl

/-- Of entries under different keys each is there in the end, and whatever else there was before. -/
theorem get?_overlay {entries : List (String × Value)} (nodup : (entries.map Prod.fst).Nodup)
    (properties : Properties) (key : String) :
    (properties.overlay entries).get? key = (entries.lookup key).or (properties.get? key) := by
  induction entries generalizing properties with
  | nil => rfl
  | cons entry rest ih =>
    obtain ⟨k, v⟩ := entry
    obtain ⟨new, nodup⟩ := List.nodup_cons.mp nodup
    rw [overlay, List.foldl_cons, ← overlay, ih nodup, get?_set]
    by_cases same : key = k
    · subst same
      simp [lookup_eq_none_iff.mpr new]
    · simp [List.lookup_cons, same, beq_false_of_ne]

/-- The keys that were there keep their places, and those that are new follow in their own order. -/
theorem keys_overlay {entries : List (String × Value)} (nodup : (entries.map Prod.fst).Nodup)
    (properties : Properties) :
    (properties.overlay entries).keys =
      properties.keys ++ (entries.map Prod.fst).filter (· ∉ properties.keys) := by
  induction entries generalizing properties with
  | nil => simp [overlay]
  | cons entry rest ih =>
    obtain ⟨k, v⟩ := entry
    obtain ⟨new, nodup⟩ := List.nodup_cons.mp nodup
    rw [overlay, List.foldl_cons, ← overlay, ih nodup, keys_set, List.map_cons]
    by_cases present : k ∈ properties.keys
    · simp [present]
    · have others : (rest.map Prod.fst).filter (· ∉ properties.keys ++ [k]) =
          (rest.map Prod.fst).filter (· ∉ properties.keys) :=
        List.filter_congr fun key member => by
          have differs : key ≠ k := fun same => new (same ▸ member)
          simp [differs]
      rw [if_neg present, others, List.filter_cons_of_pos (by simpa using present),
        List.append_assoc, List.singleton_append]

end Properties

namespace World
open Relation
variable {w w' : World} {ref other : ObjectRef}

/-- An object was made. -/
def HasObject (w : World) (ref : ObjectRef) : Prop :=
  ref.index < (w.realm ref.realm).objects.size

instance : Decidable (w.HasObject ref) := inferInstanceAs (Decidable (_ < _))

theorem size_objects_setProperties (w : World) (ref : ObjectRef) (properties : Properties)
    (realm : RealmId) :
    ((w.setProperties ref properties).realm realm).objects.size = (w.realm realm).objects.size :=
  realm_modifyRealm_congr (·.objects.size) w ref.realm realm _ fun r => by simp

theorem hasObject_setProperties {properties : Properties} :
    (w.setProperties ref properties).HasObject other ↔ w.HasObject other := by
  rw [HasObject, size_objects_setProperties, HasObject]

/-- Only the object whose properties are set changes them. -/
theorem properties_setProperties_other (differs : other ≠ ref) (properties : Properties) :
    (w.setProperties ref properties).properties other = w.properties other := by
  unfold setProperties World.properties
  by_cases here : other.realm = ref.realm
  · have apart : ref.index ≠ other.index := fun same => differs (by cases ref; cases other; simp_all)
    rw [here, realm_modifyRealm_same]
    simp [apart]
  · rw [realm_modifyRealm_other w here]

theorem properties_setProperties_same (there : w.HasObject ref) (properties : Properties) :
    (w.setProperties ref properties).properties ref = properties := by
  unfold HasObject at there
  simp [setProperties, World.properties, there]

/-- An object with properties is one of a realm that was used. -/
theorem lookup_of_properties (some : w.properties ref ≠ {}) :
    w.realms.lookup ref.realm = .some (w.realm ref.realm) := by
  unfold properties World.realm at some
  cases used : w.realms.lookup ref.realm with
  | none =>
    rw [used] at some
    refine absurd ?_ some
    obtain ⟨_, index⟩ := ref
    cases index <;> rfl
  | some r => rw [World.realm, used, Option.getD_some]

theorem setProperties_self (some : w.properties ref ≠ {}) :
    w.setProperties ref (w.properties ref) = w := by
  have objects : (w.realm ref.realm).objects.setIfInBounds ref.index (w.properties ref) =
      (w.realm ref.realm).objects := by
    refine Array.ext (by simp) fun index inside inside' => ?_
    rw [Array.getElem_setIfInBounds]
    split
    · rename_i same
      subst same
      simp [properties, inside']
    · rfl
  have same : (w.setProperties ref (w.properties ref)).realms = w.realms := by
    rw [setProperties, modifyRealm, objects]
    exact putRealm_of_lookup (lookup_of_properties some)
  exact congrArg (fun realms => { w with realms }) same

theorem hasObject_pushObject (there : w.HasObject ref) (realm : RealmId) (properties : Properties) :
    (w.modifyRealm realm fun r => { r with objects := r.objects.push properties }).HasObject ref := by
  unfold HasObject at there ⊢
  by_cases here : ref.realm = realm
  · subst here
    rw [realm_modifyRealm_same, Array.size_push]
    omega
  · rwa [realm_modifyRealm_other w here]

theorem properties_pushObject (there : w.HasObject ref) (realm : RealmId)
    (properties : Properties) :
    (w.modifyRealm realm fun r => { r with objects := r.objects.push properties }).properties ref =
      w.properties ref := by
  unfold HasObject at there
  unfold World.properties
  by_cases here : ref.realm = realm
  · subst here
    rw [realm_modifyRealm_same]
    simp [Array.getElem?_push, Nat.ne_of_lt there]
  · rw [realm_modifyRealm_other w here]

/-! ### Heaps that grow -/

/-- All objects are still there. -/
def KeepsObjects (w w' : World) : Prop := ∀ ref, w.HasObject ref → w'.HasObject ref

theorem KeepsObjects.of_size
    (same : ∀ realm, (w'.realm realm).objects.size = (w.realm realm).objects.size) :
    KeepsObjects w w' := fun ref there => by
  rwa [HasObject, same]

theorem KeepsObjects.modifyRealm (w : World) (realm : RealmId) {change : Realm → Realm}
    (same : ∀ r, (change r).objects = r.objects) : KeepsObjects w (w.modifyRealm realm change) :=
  .of_size fun other => realm_modifyRealm_congr (·.objects.size) w realm other change fun r =>
    congrArg Array.size (same r)

instance : Std.Refl KeepsObjects where
  refl _ _ there := there

instance : IsTrans World KeepsObjects where
  trans _ _ _ first second ref there := second ref (first ref there)

instance : Retains KeepsObjects where
  touch w w' touch := by
    cases touch with
    | pushObject realm properties => exact fun ref there => hasObject_pushObject there realm properties
    | setProperties ref properties => exact .of_size (size_objects_setProperties w ref properties)
    | pushFunction | setBinding => exact .modifyRealm w _ fun _ => rfl
    | setMemo | lock | write => exact fun _ there => there
  draw w w' draw := by cases draw <;> exact fun _ there => there
  keep _ _ _ := fun _ there => there

theorem Edit.keepsObjects (edit : Edit w w') : KeepsObjects w w' := by
  cases edit with
  | pushObject realm properties => exact Absorbs.touch _ _ (.pushObject realm properties)
  | setProperties ref properties => exact Absorbs.touch _ _ (.setProperties ref properties)
  | pushFunction | setBinding => exact .modifyRealm w _ fun _ => rfl
  | addRecord | setMemo | setCache | addLocation | write => exact fun _ there => there

theorem Step.keepsObjects (step : Step w w') : KeepsObjects w w' := by
  have walks (r : Realm) (change : Walk → Walk) : (r.modifyWalk change).objects = r.objects := by
    unfold Realm.modifyWalk
    split <;> rfl
  have slots (w : World) (realm : RealmId) (id : RecordId) (status : InstanceStatus)
      (change : Slot → Slot) : KeepsObjects w (w.moveSlot realm id status change) :=
    .of_size fun other => realm_modifyRealm_congr (·.objects.size) w realm other
      (·.modifySlot id fun slot => { change slot with status }) fun _ => rfl
  cases step with
  | change change =>
    cases change with
    | edit edit => exact edit.keepsObjects
    | relink relink => cases relink <;> exact fun _ there => there
    | addInstance realm id content =>
      exact .of_size fun other =>
        realm_modifyRealm_congr (·.objects.size) w realm other (·.addInstance id content) fun _ => rfl
  | walking | walked | lowered => exact .modifyRealm w _ fun _ => rfl
  | running => exact .modifyRealm w _ fun r => walks r _
  | entered realm id index =>
    exact IsTrans.trans _ _ _ (slots w realm id _ _) (.modifyRealm _ realm fun r => walks r _)
  | popped realm id rest change =>
    exact IsTrans.trans _ _ _ (.modifyRealm w realm fun r => walks r _) (slots _ realm id _ change)
  | plain realm id change => exact slots w realm id _ change
  | began | marked => exact fun _ there => there
  | exposed exposes =>
    cases exposes
    exact .modifyRealm w _ fun _ => rfl

/-- Whatever code does, no object is lost. -/
theorem Steps.keepsObjects (steps : Steps w w') : KeepsObjects w w' := by
  induction steps with
  | refl => exact refl w
  | tail _ step ih => exact IsTrans.trans _ _ _ ih step.keepsObjects

/-! ### Objects that are left alone -/

/-- If an object was there, it still is, with the properties that it had. -/
def LeavesAlone (ref : ObjectRef) (w w' : World) : Prop :=
  w.HasObject ref → w'.HasObject ref ∧ w'.properties ref = w.properties ref

theorem LeavesAlone.of_realms (same : w'.realms = w.realms) (ref : ObjectRef) :
    LeavesAlone ref w w' := by
  have realm (id : RealmId) : w'.realm id = w.realm id := by rw [World.realm, same, World.realm]
  exact fun there => ⟨by rwa [HasObject, realm], by rw [properties, realm, properties]⟩

theorem LeavesAlone.pushObject (ref : ObjectRef) (w : World) (realm : RealmId)
    (properties : Properties) : LeavesAlone ref w
      (w.modifyRealm realm fun r => { r with objects := r.objects.push properties }) :=
  fun there => ⟨hasObject_pushObject there realm properties,
    properties_pushObject there realm properties⟩

theorem LeavesAlone.addInstance (ref : ObjectRef) (w : World) (realm : RealmId) (id : RecordId)
    (content : Instance) : LeavesAlone ref w (w.addInstance realm id content) := by
  have same (other : RealmId) :
      ((w.addInstance realm id content).realm other).objects = (w.realm other).objects :=
    realm_modifyRealm_congr Realm.objects w realm other (·.addInstance id content) fun _ => rfl
  exact fun there => ⟨by rwa [HasObject, same], by rw [properties, same, properties]⟩

instance : Std.Refl (LeavesAlone ref) where
  refl _ there := ⟨there, rfl⟩

instance : IsTrans World (LeavesAlone ref) where
  trans _ _ _ first second there :=
    let ⟨there', same⟩ := first there
    let ⟨there'', same'⟩ := second there'
    ⟨there'', same'.trans same⟩

end World

/-! ### Scripts that leave an object alone -/

section
variable (realm : RealmId) (ref : ObjectRef)

/-- What an embedder's code may take for the global object of a realm: the one of the realm, or one
that is made for it and is no object that was there. -/
def Workplace.Allows : Workplace → ObjectRef → Prop
  | .given, global => global = World.globalOf realm
  | .own, global => global ≠ ref

/-- Whenever a script of an embedder's runs in a realm, it leaves an object alone. -/
def Script.LeavesAlone (workplace : Workplace) (script : Script) : Prop :=
  ∀ depth global, workplace.Allows realm ref global →
    Action.Keeps (World.LeavesAlone ref) (Action.valueApart depth realm global script)

/-- Declared exports are computed in a realm without touching an object. -/
structure NativeExports.LeaveAlone (exports : NativeExports) : Prop where
  named : ∀ scripts ∈ exports.named, ∀ entry ∈ scripts,
    entry.2.LeavesAlone realm ref exports.workplace
  default : ∀ script ∈ exports.default, script.LeavesAlone realm ref exports.workplace

end

instance {ref : ObjectRef} : World.Hears (fun _ => True) (World.LeavesAlone ref) where
  named _ _ _ _ := .of_realms rfl ref
  enqueue _ _ _ _ _ _ := .of_realms rfl ref

namespace Action
variable {w : World} {ref : ObjectRef} {realm : RealmId} {exports : NativeExports}

theorem keeps_namedValues_leavesAlone {depth : Nat} {global : ObjectRef} {workplace : Workplace}
    {scripts : List (String × Script)} (allowed : workplace.Allows realm ref global)
    (leave : ∀ entry ∈ scripts, entry.2.LeavesAlone realm ref workplace) :
    Keeps (World.LeavesAlone ref) (namedValues depth realm global scripts) := by
  induction scripts with
  | nil => exact .pure _
  | cons entry rest ih =>
    obtain ⟨here, others⟩ := List.forall_mem_cons.mp leave
    exact .bind (here depth global allowed) fun _ => .bind (ih others) fun _ => .pure _

/-- An embedder's code gets a global object that it may take for one. -/
theorem meets_globalFor_allowed (there : w.HasObject ref) (realm : RealmId) (workplace : Workplace) :
    Meets (fun _ => False) (globalFor realm workplace)
      (fun global w' => workplace.Allows realm ref global ∧ World.LeavesAlone ref w w') w := by
  cases workplace with
  | given => exact ⟨rfl, (refl w : World.LeavesAlone ref w w)⟩
  | own =>
    refine ⟨fun same => ?_, World.LeavesAlone.pushObject ref w realm {}⟩
    subst same
    exact Nat.lt_irrefl _ there

/-- To make an instance of a native host module touches no object but those of its scripts. -/
theorem keeps_nativeInstance_leavesAlone (leave : exports.LeaveAlone realm ref) (depth : Nat)
    (id : RecordId) (name : String) :
    Keeps (World.LeavesAlone ref) (nativeInstance depth realm id name exports) := by
  intro w
  by_cases there : w.HasObject ref
  · unfold nativeInstance
    rw [meets_bind, meets_get, meets_bind, meets_write, meets_bind]
    refine (meets_globalFor_allowed (w := w.write _) there realm exports.workplace).imp
      (fun _ => False.elim) fun global w₁ ⟨allowed, left⟩ => ?_
    have onward {α : Type} {action : Action α} (keeps : Keeps (World.LeavesAlone ref) action) :
        Meets (World.LeavesAlone ref w) action (fun _ => World.LeavesAlone ref w) w₁ :=
      (keeps w₁).imp (fun _ => IsTrans.trans _ _ _ left) fun _ _ => IsTrans.trans _ _ _ left
    refine onward (.bind ?named fun named => .bind ?declared fun declared =>
      .bind (keeps_publishNames_of (fun _ _ _ => .of_realms rfl ref) depth id _) fun _ => ?content)
    case named =>
      cases named : exports.named with
      | some scripts =>
        exact ((keeps_namedValues_leavesAlone allowed (leave.named scripts named)).map _).map _
      | none => exact .pure _
    case declared =>
      cases declared : exports.default with
      | some script => exact (leave.default script declared depth global allowed).map _
      | none => exact .pure _
    case content =>
      split
      · exact .pure _
      · exact .bind (fun w => .pushObject ref w realm _) fun _ => .pure _
  · unfold Meets
    split <;> exact fun present => absurd present there

end Action
end ModuleGraph
