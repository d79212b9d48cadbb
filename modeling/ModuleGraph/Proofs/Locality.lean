import ModuleGraph.Evaluation

/-!
What belongs to one realm. A value is local to a realm if it is no object or function of another
one, and what is made of values is local if they are. A script is local if it uses nothing of
other realms as long as it gets nothing of them for an answer.
-/
namespace ModuleGraph

/-- Things that can hold objects and functions of realms. -/
class Local (α : Type) where
  /-- All that is held belongs to one realm. -/
  IsLocal (realm : RealmId) (x : α) : Prop

export Local (IsLocal)

section
variable {α β ε : Type} {realm : RealmId}

instance : Local Unit := ⟨fun _ _ => True⟩
instance : Local Bool := ⟨fun _ _ => True⟩
instance : Local Nat := ⟨fun _ _ => True⟩
instance : Local RecordId := ⟨fun _ _ => True⟩
instance : Local Url := ⟨fun _ _ => True⟩
instance : Local ObjectRef := ⟨fun realm ref => ref.realm = realm⟩
instance : Local FunctionRef := ⟨fun realm ref => ref.realm = realm⟩
instance : Local EnvironmentRef := ⟨fun realm ref => ref.realm = realm⟩
instance : Local Frame := ⟨fun realm frame => frame.realm = realm ∧ IsLocal realm frame.global⟩

instance : Local Value where
  IsLocal realm
    | .object ref => IsLocal realm ref
    | .function ref => IsLocal realm ref
    | _ => True

instance [Local α] : Local (Option α) := ⟨fun realm x => ∀ a ∈ x, IsLocal realm a⟩
instance [Local α] : Local (List α) := ⟨fun realm xs => ∀ a ∈ xs, IsLocal realm a⟩
instance [Local α] : Local (Array α) := ⟨fun realm xs => ∀ a ∈ xs, IsLocal realm a⟩

/-- A key holds nothing. -/
instance [Local β] : Local (α × β) := ⟨fun realm entry => IsLocal realm entry.2⟩

instance [Local ε] [Local α] : Local (Except ε α) where
  IsLocal realm
    | .error error => IsLocal realm error
    | .ok a => IsLocal realm a

instance : Local ModuleError where
  IsLocal realm
    | .evaluationRejected value => IsLocal realm value
    | _ => True

instance : Local Exception :=
  ⟨fun realm exception => IsLocal realm exception.value ∧ IsLocal realm exception.cause⟩

instance : Local Interrupt where
  IsLocal realm
    | .thrown error => IsLocal realm error
    | .suspended _ => True

instance : Local Settlement where
  IsLocal realm
    | .rejected error => IsLocal realm error
    | .fulfilled | .pending _ => True

instance : Local Properties := ⟨fun realm properties => IsLocal realm properties.entries⟩

instance : Local Announcement where
  IsLocal realm
    | .log value | .json value => IsLocal realm value
    | .settled _ settlement => IsLocal realm settlement
    | .happened .. => True

instance : Local Environment := ⟨fun realm environment => IsLocal realm environment.bindings⟩

instance : Local Instance where
  IsLocal realm
    | .static environment => IsLocal realm environment
    | .wrapper exports _ => IsLocal realm exports
    | .native named default => IsLocal realm named ∧ IsLocal realm default
    | .legacy value => IsLocal realm value
    | .custom bindings => IsLocal realm bindings

instance : Local Slot := ⟨fun realm slot => IsLocal realm slot.error⟩

/-! ### Scripts -/

/-- A script that uses nothing of other realms. -/
def Script.IsLocalTo (realm : RealmId) : Script → Prop
  | .done outcome => IsLocal realm outcome
  | .newObject properties next =>
    IsLocal realm properties ∧ ∀ ref, IsLocal realm ref → (next ref).IsLocalTo realm
  | .inspect object next => IsLocal realm object ∧
    ∀ properties, IsLocal realm properties → (next properties).IsLocalTo realm
  | .setProperty object _ value next =>
    IsLocal realm object ∧ IsLocal realm value ∧ next.IsLocalTo realm
  | .deleteProperty object _ next => IsLocal realm object ∧ ∀ had, (next had).IsLocalTo realm
  | .newFunction _ code next =>
    (∀ arguments, IsLocal realm arguments → (code arguments).IsLocalTo realm) ∧
      ∀ ref, IsLocal realm ref → (next ref).IsLocalTo realm
  | .call function arguments next => IsLocal realm function ∧ IsLocal realm arguments ∧
    ∀ outcome, IsLocal realm outcome → (next outcome).IsLocalTo realm
  | .readBinding environment _ next => IsLocal realm environment ∧
    ∀ value, IsLocal realm value → (next value).IsLocalTo realm
  | .writeBinding environment _ value next => IsLocal realm environment ∧ IsLocal realm value ∧
    ∀ refusal, IsLocal realm refusal → (next refusal).IsLocalTo realm
  | .isImport environment _ next => IsLocal realm environment ∧ ∀ is, (next is).IsLocalTo realm
  | .globalObject next => ∀ ref, IsLocal realm ref → (next ref).IsLocalTo realm
  | .currentRealm next => (next realm).IsLocalTo realm
  | .evaluate _ next =>
    ∀ settlement, IsLocal realm settlement → (next settlement).IsLocalTo realm
  | .announce announcement next => IsLocal realm announcement ∧ next.IsLocalTo realm
  | .lock next => next.IsLocalTo realm

instance : Local Script := ⟨fun realm script => script.IsLocalTo realm⟩

instance : Local FunctionCode where
  IsLocal realm
    | .script code => ∀ arguments, IsLocal realm arguments → IsLocal realm (code arguments)
    | .require _ => True

/-! ### Modules -/

instance : Local StaticModule where
  IsLocal realm module := (∀ index, IsLocal realm (module.body ⟨realm, index⟩)) ∧
    ∀ error, module.status = .failed error → IsLocal realm error

instance : Local HostModule where
  IsLocal realm
    | .native exports => IsLocal realm exports.named ∧ IsLocal realm exports.default
    | .document _ => True
    | .value script _ => IsLocal realm script

instance : Local CustomModule where
  IsLocal realm module := IsLocal realm module.link ∧ IsLocal realm module.instantiation ∧
    IsLocal realm module.body ∧ IsLocal realm module.bindings

/-- A module is local if its programs are, and the errors that it keeps. -/
instance : Local Record where
  IsLocal realm
    | .static module => IsLocal realm module
    | .wrapper module => IsLocal realm module.program
    | .host module => IsLocal realm module.content
    | .custom module => IsLocal realm module

theorem Record.isLocal_withMemo {record : Record} {memo : NameMemo Watcher} :
    IsLocal realm (record.withMemo memo) ↔ IsLocal realm record := by
  cases record <;> rfl

/-- A realm that holds nothing of others. -/
structure Realm.IsClosed (realm : RealmId) (content : Realm) : Prop where
  objects : IsLocal realm content.objects
  functions : IsLocal realm content.functions
  instances : IsLocal realm content.instances
  slots : IsLocal realm content.slots

/-! ### Values and properties -/

theorem isLocal_getD {value : Option Value} (h : IsLocal realm value) {default : Value}
    (hd : IsLocal realm default) : IsLocal realm (value.getD default) := by
  cases value with
  | none => exact hd
  | some value => exact h value rfl

theorem isLocal_lookup {κ : Type} [BEq κ] [LawfulBEq κ] [Local α] {entries : List (κ × α)}
    (h : IsLocal realm entries) (key : κ) : IsLocal realm (entries.lookup key) := by
  intro a found
  obtain ⟨before, after, split, _⟩ := List.lookup_eq_some_iff.mp found
  exact h (key, a) (by simp [split])

namespace Properties
variable {properties : Properties}

theorem isLocal_empty : IsLocal realm ({} : Properties) := fun _ member => by cases member

theorem isLocal_get? (h : IsLocal realm properties) (key : String) :
    IsLocal realm (properties.get? key) := isLocal_lookup h key

theorem isLocal_get (h : IsLocal realm properties) (key : String) :
    IsLocal realm (properties.get key) := isLocal_getD (isLocal_get? h key) trivial

theorem isLocal_setEntry (key : String) {value : Value} (hv : IsLocal realm value)
    {entries : List (String × Value)} (h : IsLocal realm entries) :
    IsLocal realm (setEntry key value entries) := by
  induction entries with
  | nil => exact List.forall_mem_singleton.mpr hv
  | cons entry rest ih =>
    obtain ⟨here, later⟩ := List.forall_mem_cons.mp h
    unfold setEntry
    split
    · exact List.forall_mem_cons.mpr ⟨hv, later⟩
    · exact List.forall_mem_cons.mpr ⟨here, ih later⟩

theorem isLocal_set (h : IsLocal realm properties) (key : String) {value : Value}
    (hv : IsLocal realm value) : IsLocal realm (properties.set key value) :=
  isLocal_setEntry key hv h

theorem isLocal_delete (h : IsLocal realm properties) (key : String) :
    IsLocal realm (properties.delete key) :=
  fun entry member => h entry (List.mem_filter.mp member).1

theorem isLocal_ofEntries {entries : List (String × Value)} (h : IsLocal realm entries) :
    IsLocal realm (ofEntries entries) :=
  List.foldlRecOn entries _ isLocal_empty fun _ hp entry member => isLocal_set hp _ (h entry member)

end Properties

theorem Sorted.isLocal_ofList [Local α] {entries : List (String × α)} (h : IsLocal realm entries) :
    IsLocal realm (ofList entries) := by
  have inserted (key : String) {value : α} (hv : IsLocal realm value) {map : Sorted α}
      (hm : IsLocal realm map) : IsLocal realm (insert key value map) := by
    induction map with
    | nil => exact List.forall_mem_singleton.mpr hv
    | cons entry rest ih =>
      obtain ⟨here, later⟩ := List.forall_mem_cons.mp hm
      unfold insert
      split
      · exact List.forall_mem_cons.mpr ⟨hv, hm⟩
      · split
        · exact List.forall_mem_cons.mpr ⟨hv, later⟩
        · exact List.forall_mem_cons.mpr ⟨here, ih later⟩
  exact List.foldlRecOn entries _ (fun _ member => by cases member) fun _ hm entry member =>
    inserted _ (h entry member) hm

namespace Instance
variable {content : Instance}

theorem isLocal_setBinding (h : IsLocal realm content) (name : String) {value : Value}
    (hv : IsLocal realm value) : IsLocal realm (content.setBinding name value) := by
  cases content with
  | static environment => exact Properties.isLocal_set h name hv
  | _ => exact h

theorem isLocal_setExports (h : IsLocal realm content) {exports : Value}
    (he : IsLocal realm exports) : IsLocal realm (content.setExports exports) := by
  cases content with
  | wrapper => exact he
  | _ => exact h

theorem isLocal_setMarked (h : IsLocal realm content) (isMarked : Bool) :
    IsLocal realm (content.setMarked isMarked) := by
  cases content <;> exact h

end Instance

/-- What an exception is reported as is local if the exception is. -/
theorem Exception.isLocal_toError {exception : Exception} (h : IsLocal realm exception) :
    IsLocal realm exception.toError := by
  obtain ⟨value, _ | cause⟩ := exception
  · exact h.1
  · exact h.2 cause rfl

theorem Exception.isLocal_ofError {error : ModuleError} (h : IsLocal realm error) :
    IsLocal realm (ofError error) :=
  ⟨trivial, fun _ same => Option.some.inj same ▸ h⟩

/-! ### Realms -/

namespace Realm.IsClosed
variable {content : Realm}

theorem default : IsClosed realm default where
  objects properties member := by
    obtain rfl := List.mem_singleton.mp (Array.mem_toList_iff.mpr member)
    exact Properties.isLocal_empty
  functions _ member := by cases Array.mem_toList_iff.mpr member
  instances _ member := by cases Array.mem_toList_iff.mpr member
  slots _ member := by cases member

theorem properties (h : IsClosed realm content) (index : Nat) :
    IsLocal realm (content.objects.getD index Inhabited.default) := by
  rw [Array.getD_eq_getD_getElem?]
  cases found : content.objects[index]? with
  | none => exact Properties.isLocal_empty
  | some properties => exact h.objects _ (Array.mem_of_getElem? found)

theorem pushObject (h : IsClosed realm content) {properties : Properties}
    (hp : IsLocal realm properties) :
    IsClosed realm { content with objects := content.objects.push properties } :=
  { h with objects := Array.forall_mem_push.mpr ⟨hp, h.objects⟩ }

theorem pushFunction (h : IsClosed realm content) {code : FunctionCode} (hc : IsLocal realm code) :
    IsClosed realm { content with functions := content.functions.push code } :=
  { h with functions := Array.forall_mem_push.mpr ⟨hc, h.functions⟩ }

theorem setObject (h : IsClosed realm content) (index : Nat) {properties : Properties}
    (hp : IsLocal realm properties) :
    IsClosed realm { content with objects := content.objects.setIfInBounds index properties } :=
  { h with objects := fun other member =>
      (Array.mem_or_eq_of_mem_setIfInBounds member).elim (h.objects other) (· ▸ hp) }

theorem modifyInstance (h : IsClosed realm content) (index : Nat) {change : Instance → Instance}
    (held : ∀ filled, IsLocal realm filled → IsLocal realm (change filled)) :
    IsClosed realm (content.modifyInstance index change) := by
  refine { h with instances := fun other member => ?_ }
  obtain ⟨i, found⟩ := Array.getElem?_of_mem member
  rw [Realm.modifyInstance, Array.getElem?_modify] at found
  split at found
  · obtain ⟨filled, there, rfl⟩ := Option.map_eq_some_iff.mp found
    exact held filled (h.instances filled (Array.mem_of_getElem? there))
  · exact h.instances other (Array.mem_of_getElem? found)

theorem addInstance (h : IsClosed realm content) (id : RecordId) {filled : Instance}
    (hf : IsLocal realm filled) : IsClosed realm (content.addInstance id filled) :=
  { h with
    instances := Array.forall_mem_push.mpr ⟨hf, h.instances⟩
    slots := List.forall_mem_append.mpr
      ⟨h.slots, List.forall_mem_singleton.mpr fun _ impossible => by cases impossible⟩ }

theorem modifySlot (h : IsClosed realm content) (id : RecordId) {change : Slot → Slot}
    (hc : ∀ slot, IsLocal realm slot → IsLocal realm (change slot)) :
    IsClosed realm (content.modifySlot id change) := by
  refine { h with slots := fun entry member => ?_ }
  obtain ⟨before, present, rfl⟩ := List.mem_map.mp member
  split
  · exact hc _ (h.slots before present)
  · exact h.slots before present

theorem setWalks (h : IsClosed realm content) (walks : List Walk) :
    IsClosed realm { content with walks } := { h with }

theorem modifyWalk (h : IsClosed realm content) (change : Walk → Walk) :
    IsClosed realm (content.modifyWalk change) := by
  unfold Realm.modifyWalk
  split
  · exact h.setWalks _
  · exact h

theorem slot? (h : IsClosed realm content) (id : RecordId) : IsLocal realm (content.slot? id) :=
  isLocal_lookup h.slots id

theorem instance? (h : IsClosed realm content) (id : RecordId) :
    IsLocal realm (content.instance? id) := by
  intro filled found
  obtain ⟨slot, _, found⟩ := Option.bind_eq_some_iff.mp found
  exact h.instances _ (Array.mem_of_getElem? found)

end Realm.IsClosed

/-! ### Documents -/

namespace Script

/-- A script that builds values is local if what comes afterwards is. -/
theorem isLocalTo_build :
    (∀ (document : Json) (next : Value → Script),
      (∀ value, IsLocal realm value → (next value).IsLocalTo realm) →
      (ofJson document next).IsLocalTo realm) ∧
    (∀ (fields : List (String × Json)) (next : List (String × Value) → Script),
      (∀ entries, IsLocal realm entries → (next entries).IsLocalTo realm) →
      (ofFields fields next).IsLocalTo realm) ∧
    ∀ (index : Nat) (items : List Json) (next : List (String × Value) → Script),
      (∀ entries, IsLocal realm entries → (next entries).IsLocalTo realm) →
      (ofItems index items next).IsLocalTo realm := by
  have nothing : IsLocal realm ([] : List (String × Value)) := fun _ member => by cases member
  have more {entry : String × Value} {entries : List (String × Value)}
      (here : IsLocal realm entry.2) (others : IsLocal realm entries) :
      IsLocal realm (entry :: entries) := List.forall_mem_cons.mpr ⟨here, others⟩
  refine ofJson.mutual_induct
    (fun document next => (∀ value, IsLocal realm value → (next value).IsLocalTo realm) →
      (ofJson document next).IsLocalTo realm)
    (fun fields next => (∀ entries, IsLocal realm entries → (next entries).IsLocalTo realm) →
      (ofFields fields next).IsLocalTo realm)
    (fun index items next => (∀ entries, IsLocal realm entries → (next entries).IsLocalTo realm) →
      (ofItems index items next).IsLocalTo realm) ?null ?bool ?number ?string ?array ?object
    ?noItems ?item ?noFields ?field
  case array =>
    intro next items built after
    rw [ofJson]
    refine built fun entries held =>
      ⟨Properties.isLocal_ofEntries ?_, fun ref made => after (.object ref) made⟩
    exact List.forall_mem_append.mpr ⟨held, more trivial nothing⟩
  case object =>
    intro next fields built after
    rw [ofJson]
    exact built fun entries held =>
      ⟨Properties.isLocal_ofEntries held, fun ref made => after (.object ref) made⟩
  case item =>
    intro index next item rest others built after
    rw [ofItems]
    exact built fun value here => others value fun _ held => after _ (more here held)
  case field =>
    intro next name document rest others built after
    rw [ofFields]
    exact built fun value here => others value fun _ held => after _ (more here held)
  case noItems | noFields =>
    intros
    simp only [ofItems, ofFields]
    rename_i after
    exact after _ nothing
  all_goals
    intros
    simp only [ofJson]
    rename_i after
    exact after _ trivial

theorem isLocalTo_ofJson (document : Json) : (ofJson document .give).IsLocalTo realm :=
  isLocalTo_build.1 document .give fun _ h => h

end Script
end
end ModuleGraph
