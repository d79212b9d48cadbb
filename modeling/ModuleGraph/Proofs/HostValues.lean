import ModuleGraph.Proofs.MadeGraphs

/-!
Host modules that give a value. One that gives null or undefined is refused wherever it would be
instantiated. If its value depends on nothing but the realm, such a module never comes into a realm
where it was refused.
-/
namespace ModuleGraph
open World Engine Relation

/-! ### Values of an embedder's scripts -/

namespace Script
variable {depth : Nat} {realm : RealmId} {global : ObjectRef} {stuck : World → Prop}
  {post : Value → World → Prop} {w : World}

/-- A script of an embedder's that once gives null or undefined in a realm gives the same whenever
it ends there; and it ends when it may go as deep as then. -/
def Steady (script : Script) : Prop :=
  ∀ (realm : RealmId) (depth : Nat) (global : ObjectRef) (w : World) (value : Value) (w' : World),
    Action.valueApart depth realm global script w = .ok value w' → value.isNullish = true →
      ∀ (depth' : Nat) (global' : ObjectRef) (other : World),
        Action.Meets (fun _ => depth' < depth) (Action.valueApart depth' realm global' script)
          (fun value' _ => value' = value) other

/-- What a script gives is neither null nor undefined. -/
def Firm (script : Script) : Prop :=
  ∀ (depth : Nat) (realm : RealmId) (global : ObjectRef) (w : World),
    Action.Meets (fun _ => True) (Action.valueApart depth realm global script)
      (fun value _ => value.isNullish = false) w

theorem Steady.announce {script : Script} (steady : script.Steady) (announcement : Announcement) :
    (Script.announce announcement script).Steady := by
  intro realm depth global w value w' ended nullish depth' global' other
  exact steady realm depth global (w.write (w.eventOf realm announcement)) value w' ended nullish
    depth' global' (other.write (other.eventOf realm announcement))

theorem Firm.steady {script : Script} (firm : script.Firm) : script.Steady := by
  intro realm depth global w value w' ended nullish
  have never := firm depth realm global w
  rw [Action.Meets, ended] at never
  simp [never] at nullish

theorem firm_give {value : Value} (firm : value.isNullish = false) : (give value).Firm :=
  fun _ _ _ _ => firm

theorem firm_newObject (properties : Properties) {next : ObjectRef → Script}
    (firm : ∀ ref, (next ref).Firm) : (Script.newObject properties next).Firm :=
  fun depth realm global _ => firm _ depth realm global _

/-- What is true of all scripts that make an object if it is true of what comes afterwards is true of
scripts that build values as well. -/
theorem build_induct {holds : Script → Prop}
    (newObject : ∀ properties next, (∀ ref, holds (next ref)) → holds (.newObject properties next)) :
    (∀ (document : Json) (next : Value → Script), (∀ value, holds (next value)) →
      holds (ofJson document next)) ∧
    (∀ (fields : List (String × Json)) (next : List (String × Value) → Script),
      (∀ entries, holds (next entries)) → holds (ofFields fields next)) ∧
    ∀ (index : Nat) (items : List Json) (next : List (String × Value) → Script),
      (∀ entries, holds (next entries)) → holds (ofItems index items next) := by
  refine ofJson.mutual_induct (fun document next => (∀ value, holds (next value)) →
      holds (ofJson document next)) (fun fields next => (∀ entries, holds (next entries)) →
      holds (ofFields fields next)) (fun index items next => (∀ entries, holds (next entries)) →
      holds (ofItems index items next)) ?null ?bool ?number ?string ?array ?object ?noItems ?item
      ?noFields ?field
  case array =>
    intro next items built later
    rw [ofJson]
    exact built fun _ => newObject _ _ fun _ => later _
  case object =>
    intro next fields built later
    rw [ofJson]
    exact built fun _ => newObject _ _ fun _ => later _
  case item =>
    intro index next item rest others built later
    rw [ofItems]
    exact built fun value => others value fun _ => later _
  case field =>
    intro next name document rest others built later
    rw [ofFields]
    exact built fun value => others value fun _ => later _
  all_goals
    intros
    simp only [ofJson, ofItems, ofFields]
    rename_i later
    exact later _

/-- Only the document `null` gives null, and always does. -/
theorem steady_ofJson (document : Json) : (ofJson document .give).Steady := by
  cases document with
  | null =>
    intro realm depth global w value w' ended _ depth' global' other
    cases ended
    exact rfl
  | array items =>
    rw [ofJson]
    exact ((build_induct fun _ _ => firm_newObject _).2.2 _ _ _ fun _ =>
      firm_newObject _ fun _ => firm_give rfl).steady
  | object fields =>
    rw [ofJson]
    exact ((build_induct fun _ _ => firm_newObject _).2.1 _ _ fun _ =>
      firm_newObject _ fun _ => firm_give rfl).steady
  | bool | number | string =>
    rw [ofJson]
    exact (firm_give rfl).steady

end Script

/-! ### Host modules -/

/-- The script for the value of a host module, which has a name; one that declares its exports has
none. -/
def HostModule.script? (name : String) : HostModule → Option Script
  | .native _ => none
  | .document json => some (.ofJson json .give)
  | .value script _ => some (.announce (.happened "legacy" name true) script)

/-- The values of all registered host modules are steady. -/
def Embedding.Steady (embedding : Embedding) : Prop :=
  ∀ name script workplace, embedding.hosts.lookup name = some (.value script workplace) →
    script.Steady

theorem Embedding.Steady.script {embedding : Embedding} (steady : embedding.Steady) {name : String}
    {content : HostModule} (registered : embedding.hosts.lookup name = some content)
    {script : Script} (gives : content.script? name = some script) : script.Steady := by
  cases content with
  | native => cases gives
  | document json =>
    cases gives
    exact Script.steady_ofJson json
  | value own workplace =>
    cases gives
    exact (steady name own workplace registered).announce _

/-- A host module has given null or undefined in a realm, in a world that code could go this deep
in. -/
def HostModule.GivesNothing (name : String) (content : HostModule) (depth : Nat) (realm : RealmId)
    (value : Value) : Prop :=
  value.isNullish = true ∧ ∃ script global w w', content.script? name = some script ∧
    Action.valueApart depth realm global script w = .ok value w'

/-- Why a host module without a value is refused. -/
def HostModule.refusal (name : String) (value : Value) : ModuleError :=
  .defect ("host module " ++ name ++ " projected to " ++ value.display)

namespace Action
variable {depth : Nat} {realm : RealmId} {id : RecordId} {name : String} {script : Script}
  {w : World} {module : HostRecord}

/-- A module of one value is refused just if its script gives nothing. -/
theorem meets_legacyInstance (depth : Nat) (realm : RealmId) (id : RecordId) (name : String)
    (workplace : Workplace) (script : Script) (w : World) :
    Attempt.Meets (fun _ => True)
      (fun error _ => ∃ value global w w', value.isNullish = true ∧
        valueApart depth realm global script w = .ok value w' ∧
        error = HostModule.refusal name value)
      (legacyInstance depth realm id name workplace script)
      (fun _ _ => ∃ value global w w', value.isNullish = false ∧
        valueApart depth realm global script w = .ok value w') w := by
  unfold legacyInstance
  rw [Attempt.meets_bind, Attempt.meets_lift]
  refine (Action.meets_ended _ w).mono fun global w₁ _ => ?_
  rw [Attempt.meets_bind, Attempt.meets_lift]
  refine (Action.meets_ended _ w₁).mono fun value w₂ ended => ?_
  split
  · rename_i nullish
    exact ⟨value, global, w₁, w₂, nullish, ended, rfl⟩
  · rename_i nullish
    rw [Attempt.meets_bind, Attempt.meets_get, Attempt.meets_bind, Attempt.meets_lift]
    refine (Action.meets_ended _ w₂).mono fun _ _ _ => ?_
    exact ⟨value, global, w₁, w₂, by simpa using nullish, ended⟩

/-- What has given nothing is refused again. -/
theorem meets_legacyInstance_refused (steady : script.Steady) {value : Value}
    (nullish : value.isNullish = true) {global : ObjectRef} {before after : World}
    (ended : valueApart depth realm global script before = .ok value after) (id : RecordId)
    (name : String) (workplace : Workplace) (w : World) :
    Attempt.Meets (fun _ => False) (fun error _ => error = HostModule.refusal name value)
      (legacyInstance depth realm id name workplace script) (fun _ _ => False) w := by
  have made : Meets (fun _ => False) (globalFor realm workplace) (fun _ _ => True) w := by
    cases workplace <;> trivial
  unfold legacyInstance
  rw [Attempt.meets_bind, Attempt.meets_lift]
  refine made.mono fun global' w₁ _ => ?_
  rw [Attempt.meets_bind, Attempt.meets_lift]
  refine (steady realm depth global before value after ended nullish depth global' w₁).imp
    (fun _ deeper => absurd deeper (Nat.lt_irrefl _)) fun value' w₂ same => ?_
  rw [same, if_pos nullish]
  rfl

theorem run_newInstance_host (found : w.record id = .host module) (depth : Nat) (realm : RealmId)
    {script : Script} (gives : module.content.script? module.name = some script) :
    ∃ workplace, (newInstance depth realm id).run w =
      (legacyInstance depth realm id module.name workplace script).run w := by
  have looked : (get : Attempt World).run w = .ok (.ok w) w := rfl
  unfold newInstance
  rw [Attempt.run_bind_of_ended looked, found]
  dsimp only
  cases content : module.content with
  | native => simp [content, HostModule.script?] at gives
  | document | value =>
    rw [content] at gives
    cases gives
    exact ⟨_, rfl⟩

/-- A host module that could be instantiated in a realm gives nothing there at no time. -/
theorem meets_newInstance_host {embedding : Embedding} (steady : embedding.Steady)
    (found : w.record id = .host module)
    (registered : embedding.hosts.lookup module.name = some module.content) (depth : Nat)
    (realm : RealmId) :
    Attempt.Meets (fun _ => True) (fun _ _ => True) (newInstance depth realm id)
      (fun _ _ => ∀ depth value, ¬ module.content.GivesNothing module.name depth realm value)
      w := by
  cases gives : module.content.script? module.name with
  | none =>
    refine Attempt.meets_of_forall _ w (fun _ _ => trivial) fun _ _ depth' value nothing => ?_
    obtain ⟨_, script, _, _, _, gives', _⟩ := nothing
    cases gives.symm.trans gives'
  | some script =>
    obtain ⟨workplace, runs⟩ := run_newInstance_host found depth realm gives
    rw [Attempt.Meets, runs]
    refine (meets_legacyInstance depth realm id module.name workplace script w).imp (fun _ h => h)
      (fun _ _ _ => trivial) fun _ _ given depth' value nothing => ?_
    obtain ⟨value', global, other, other', firm, ended⟩ := given
    obtain ⟨nullish, script', global', before, after, gives', ended'⟩ := nothing
    cases gives.symm.trans gives'
    have again := steady.script registered gives realm depth' global' before value after ended'
      nullish depth global other
    rw [Action.Meets, ended] at again
    rw [again, nullish] at firm
    cases firm

end Action

/-! ### Host modules in realms -/

namespace World
variable {embedding : Embedding} {w w' : World} {id : RecordId} {module : HostRecord}

theorem Revised.host {record record' : Record} (revised : Revised record record')
    (found : record = .host module) : ∃ names, record' = .host { module with names } := by
  subst found
  cases revised with
  | same => exact ⟨module.names, rfl⟩
  | memo _ memo => exact ⟨memo, rfl⟩

theorem Revised.of_host {record record' : Record} (revised : Revised record record')
    (found : record' = .host module) : ∃ names, record = .host { module with names } := by
  cases revised with
  | same => exact ⟨module.names, found⟩
  | memo _ memo =>
    cases record with
    | host before =>
      cases found
      exact ⟨before.names, rfl⟩
    | _ => cases found
  | relinked => cases found

theorem Changes.of_host (changes : Changes w w') (known : w.hasRecord id)
    (found : w'.record id = .host module) : ∃ names, w.record id = .host { module with names } := by
  induction changes using ReflTransGen.head_induction_on with
  | refl => exact ⟨module.names, found⟩
  | head change _ ih =>
    obtain ⟨_, found'⟩ := ih (change.extends.hasRecord known)
    obtain ⟨names, before⟩ := (change.revised known).of_host found'
    exact ⟨names, before⟩

/-- No registered host module that has come into a realm gives nothing there. -/
def Projected (embedding : Embedding) (w : World) : Prop :=
  ∀ realm id slot, (w.realm realm).slot? id = some slot → w.hasRecord id ∧
    ∀ module, w.record id = .host module →
      embedding.hosts.lookup module.name = some module.content →
      ∀ depth value, ¬ module.content.GivesNothing module.name depth realm value

theorem Fresh.projected (fresh : w.Fresh) : w.Projected embedding := by
  intro realm id slot found
  simp [Realm.slot?, fresh.slots] at found

namespace Projected

/-- What gives no record a slot and revises records at most keeps to this. -/
theorem of_revised (projected : w.Projected embedding)
    (slots : ∀ realm id slot, (w'.realm realm).slot? id = some slot →
      ∃ slot, (w.realm realm).slot? id = some slot)
    (present : ∀ id, w.hasRecord id → w'.hasRecord id)
    (revised : ∀ id, w.hasRecord id → Revised (w.record id) (w'.record id)) :
    w'.Projected embedding := by
  intro realm id slot found
  obtain ⟨slot', found'⟩ := slots realm id slot found
  obtain ⟨known, gives⟩ := projected realm id slot' found'
  refine ⟨present id known, fun module here registered => ?_⟩
  obtain ⟨names, before⟩ := (revised id known).of_host here
  exact gives { module with names } before registered

theorem edits (projected : w.Projected embedding) (edits : Edits w w') :
    w'.Projected embedding := by
  induction edits with
  | refl => exact projected
  | tail _ edit ih =>
    refine ih.of_revised (fun realm id slot found => ⟨slot, ?_⟩)
      (fun _ => edit.still.records.hasRecord) fun id => (Change.edit edit).revised
    rwa [Realm.slot?, edit.still.slots] at found

theorem moves (projected : w.Projected embedding) (moves : Moves w w') :
    w'.Projected embedding := by
  induction moves with
  | refl => exact projected
  | tail _ move ih =>
    refine ih.of_revised (fun realm id slot found => ?_) (fun id known => ?_) fun id _ => ?_
    all_goals cases move
    case refine_1.arrange realm' change held =>
      by_cases same : realm = realm'
      · subst same
        rw [realm_modifyRealm_same] at found
        refine Option.ne_none_iff_exists'.mp fun absent => ?_
        rw [(held _ id).mpr absent] at found
        cases found
      · rw [realm_modifyRealm_other _ same] at found
        exact ⟨slot, found⟩
    case refine_1.write => exact ⟨slot, found⟩
    all_goals first | exact known | exact .same _

theorem addInstance (projected : w.Projected embedding) {realm : RealmId}
    (absent : (w.realm realm).slot? id = none) (content : Instance) (known : w.hasRecord id)
    (gives : ∀ module, w.record id = .host module →
      embedding.hosts.lookup module.name = some module.content →
      ∀ depth value, ¬ module.content.GivesNothing module.name depth realm value) :
    (w.addInstance realm id content).Projected embedding := by
  intro other x slot found
  by_cases here : other = realm ∧ x = id
  · obtain ⟨rfl, rfl⟩ := here
    exact ⟨known, gives⟩
  · refine (?_ : ∃ slot, (w.realm other).slot? x = some slot).elim fun slot =>
      projected other x slot
    by_cases same : other = realm
    · subst same
      rw [slot?_addInstance absent, if_neg fun hx => here ⟨rfl, hx⟩] at found
      exact ⟨slot, found⟩
    · exact ⟨slot, (sameIn_addInstance content same).slot? x ▸ found⟩

end Projected

/-- When host values are steady, whatever is done, what gives nothing comes into no realm. -/
theorem sustained_projected (steady : embedding.Steady) :
    Sustained embedding (fun _ => True) (Projected embedding) := by
  have consulted : Consulted embedding (fun _ => True) (Projected embedding) :=
    .of_retained (fun _ _ => trivial) fun _ _ (edits : Edits _ _) projected => projected.edits edits
  refine ⟨⟨consulted, fun depth id _ => Embedding.upholds_link_of consulted
    (fun w id specifier projected => ?_)
    (fun w id module status requested found projected => ?_) depth id, fun _ _ _ _ _ => trivial,
    fun depth realm id => ?_⟩, fun _ _ touches projected => projected.edits touches.edits,
    fun _ _ moves projected => projected.moves moves⟩
  · exact projected.edits (.single (.write _ rfl))
  · refine projected.of_revised (fun _ _ slot found => ⟨slot, found⟩) (fun x known => ?_)
      fun x _ => revised_setRecord (found ▸ .relinked module status requested) x
    simpa [hasRecord, setRecord] using known
  · refine .of_meets fun w projected => ?_
    unfold Action.instantiate
    rw [Attempt.meets_bind, Attempt.meets_get]
    split
    · exact projected
    · rename_i absent
      split
      · rename_i known
        have made : Attempt.Keeps Touches (Action.newInstance depth realm id) :=
          Action.keeps_newInstance depth realm id
        have gives : Attempt.Meets (fun _ => True) (fun _ _ => True)
            (Action.newInstance depth realm id) (fun _ _ => ∀ module, w.record id = .host module →
              embedding.hosts.lookup module.name = some module.content →
              ∀ depth value, ¬ module.content.GivesNothing module.name depth realm value) w := by
          cases found : w.record id with
          | host module =>
            by_cases registered : embedding.hosts.lookup module.name = some module.content
            · refine (Action.meets_newInstance_host steady found registered depth realm).mono
                fun _ _ gives => ?_
              rintro _ ⟨⟩ _
              exact gives
            · refine Attempt.meets_of_forall _ w (fun _ _ => trivial) fun _ _ => ?_
              rintro _ ⟨⟩ registered'
              exact absurd registered' registered
          | _ =>
            refine Attempt.meets_of_forall _ w (fun _ _ => trivial) fun _ _ => ?_
            rintro _ ⟨⟩
        rw [Attempt.meets_bind]
        refine ((made.meets w).and gives).imp (fun _ _ => trivial)
          (fun _ w₁ h => projected.edits h.1.edits) fun content w₁ h => ?_
        obtain ⟨touches, gives⟩ := h
        have changes := touches.edits.changes
        refine (projected.edits touches.edits).addInstance ?_ content ?_
          fun module found registered => ?_
        · rw [Realm.slot?, touches.edits.still.slots]
          exact absent
        · exact touches.edits.still.records.hasRecord known
        · obtain ⟨names, before⟩ := changes.of_host known found
          exact gives { module with names } before registered
      · exact projected

end World
end ModuleGraph
