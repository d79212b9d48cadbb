import ModuleGraph.Proofs.DefaultExports
import ModuleGraph.Proofs.Namespaces

/-!
Exports on the global object. The exports of a native host module are laid over the global object of
a realm, all of them or, if anything fails, none; no module runs, and to do it again changes nothing.
What else can change there is what the module's own code does when it makes the exports.
-/
namespace ModuleGraph
open World Engine Relation

/-! ### Copying -/

namespace Setup
variable {w : World} {realm : RealmId} {exports : ObjectRef}

/-- What is there already is not changed by copying it. -/
theorem run_copyGlobally_again {keys : List String}
    (held : ∀ key ∈ keys, (w.properties (globalOf realm)).get? key =
      some ((w.properties exports).get key)) : copyGlobally realm exports keys w = .ok () w := by
  induction keys with
  | nil => rfl
  | cons key rest ih =>
    obtain ⟨here, others⟩ := List.forall_mem_cons.mp held
    have filled : w.properties (globalOf realm) ≠ {} := fun empty => by simp [empty] at here
    have same : Action.modifyObject (globalOf realm)
        (·.set key ((w.properties exports).get key)) w = .ok () w := by
      show EStateM.Result.ok () (w.setProperties (globalOf realm)
        ((w.properties (globalOf realm)).set key ((w.properties exports).get key))) = _
      rw [Properties.set_of_get? here, setProperties_self filled]
    show (Action.modifyObject (globalOf realm) (·.set key ((w.properties exports).get key)) >>=
      fun _ => copyGlobally realm exports rest) w = _
    rw [Action.run_bind, same]
    exact ih others

/-- Copying lays the entries of an object over the global one and does nothing else. -/
theorem meets_copyGlobally (global : w.HasObject (globalOf realm))
    (differs : exports ≠ globalOf realm) (keys : List String) :
    Action.Meets (fun _ => False) (copyGlobally realm exports keys)
      (fun _ w' => w'.properties exports = w.properties exports ∧
        w'.properties (globalOf realm) = (w.properties (globalOf realm)).overlay
          (keys.map fun key => (key, (w.properties exports).get key))) w := by
  induction keys generalizing w with
  | nil => exact ⟨rfl, rfl⟩
  | cons key rest ih =>
    have kept := properties_setProperties_other (w := w) differs
      ((w.properties (globalOf realm)).set key ((w.properties exports).get key))
    have set := properties_setProperties_same global
      ((w.properties (globalOf realm)).set key ((w.properties exports).get key))
    refine (ih (hasObject_setProperties.mpr global)).mono fun _ w' h => ?_
    rw [kept, set] at h
    exact h

end Setup

/-! ### Host modules that are instantiated -/

theorem World.hasRecord_of_host {w : World} {id : RecordId} {module : HostRecord}
    (found : w.record id = .host module) : w.hasRecord id := by
  by_contra absent
  rw [record_of_not_hasRecord absent] at found
  cases found

namespace Action
variable {w : World} {ref : ObjectRef} {realm : RealmId} {exports : NativeExports} {id : RecordId}
  {module : HostRecord}

/-- A native host module is never refused as an instance. -/
theorem meets_instantiate_unrefused (found : w.record id = .host module)
    (native : module.content = .native exports) (depth : Nat) (realm : RealmId) :
    Attempt.Meets (fun _ => True) (fun _ _ => False) (instantiate depth realm id)
      (fun _ _ => True) w := by
  cases present : (w.realm realm).slot? id with
  | some slot =>
    exact (meets_instantiate_found present depth).imp (fun _ => False.elim) (fun _ _ => False.elim)
      fun _ _ _ => trivial
  | none =>
    have made : Meets (fun _ => True) (nativeInstance depth realm id module.name exports)
        (fun _ _ => True) w := (meets_ended _ w).mono fun _ _ _ => trivial
    exact (meets_instantiate_native found native present (absurd (hasRecord_of_host found))
      made).mono fun _ _ _ => trivial

/-- To make sure of an instance touches an object only if it is made then and the module's code does.
-/
theorem meets_instantiate_leavesAlone (found : w.record id = .host module)
    (native : module.content = .native exports)
    (leave : (w.realm realm).slot? id = none → exports.LeaveAlone realm ref) (depth : Nat) :
    Attempt.Meets (World.LeavesAlone ref w) (fun _ _ => False) (instantiate depth realm id)
      (fun _ => World.LeavesAlone ref w) w := by
  cases present : (w.realm realm).slot? id with
  | some slot =>
    exact (meets_instantiate_found present depth).imp (fun _ => False.elim) (fun _ _ => False.elim)
      fun _ w' same => same ▸ (refl w : World.LeavesAlone ref w w)
  | none =>
    refine (meets_instantiate_native found native present (absurd (hasRecord_of_host found))
      (keeps_nativeInstance_leavesAlone (leave present) depth id module.name w)).mono
        fun _ w' h => ?_
    obtain ⟨content, w₁, left, -, rfl⟩ := h
    exact IsTrans.trans _ _ _ left (.addInstance ref w₁ realm id content)

end Action

/-- A host module stays one, with its name and its content. -/
theorem World.Changes.host {w w' : World} {id : RecordId} {module : HostRecord}
    (changes : Changes w w') (found : w.record id = .host module) :
    ∃ names, w'.record id = .host { module with names } := by
  have known := hasRecord_of_host found
  induction changes with
  | refl => exact ⟨module.names, found⟩
  | tail before change ih =>
    obtain ⟨names, found'⟩ := ih
    have revised := change.revised ((Changes.extends before).hasRecord known)
    obtain ⟨names', found''⟩ := revised.host found'
    exact ⟨names', found''⟩

/-- A host module that is in a realm has a value for its default there while its instance stays. -/
theorem World.Reached.exists_default {w : World} {realm : RealmId} {id : RecordId} {slot : Slot}
    {module : HostRecord} (reached : w.Reached) (found : w.record id = .host module)
    (present : (w.realm realm).slot? id = some slot) : ∃ value, ∀ w' : World,
      (w'.realm realm).instance? id = (w.realm realm).instance? id → ∀ depth,
        Action.readBinding (depth + 1) realm id "default" w' = .ok value w' := by
  obtain ⟨content, there, holds⟩ := reached.furnished.holds realm id slot present
  rw [found] at holds
  obtain ⟨first, begins, becomes⟩ := holds
  have there : (w.realm realm).instance? id = some content := by
    rw [Realm.instance?, present, Option.bind_some, there]
  cases begins with
  | native _ named default =>
    cases becomes
    exact ⟨default, fun w' same depth =>
      Action.readBinding_native (same.trans there) depth "default"⟩
  | legacy _ value =>
    cases becomes
    refine ⟨value, fun w' same depth => ?_⟩
    simp [Action.readBinding, Action.readInstanceBy, bind, EStateM.bind, get, getThe,
      MonadStateOf.get, EStateM.get, same, there]
    rfl

/-! ### Bodies -/

/-- Whether an event is the beginning of a body. -/
def Event.isBegan : Event → Bool
  | .began .. => true
  | _ => false

/-- The beginnings of bodies so far. -/
def World.beginnings (w : World) : List Event := w.journal.toList.filter Event.isBegan

theorem Event.isBegan_of_isOutward {event : Event} (outward : event.isOutward = true) :
    event.isBegan = false := by
  cases event <;> first | rfl | cases outward

theorem World.Changes.beginnings {w w' : World} (changes : Changes w w') :
    w'.beginnings = w.beginnings := by
  have still {w w' : World} (still : Still w w') : w'.beginnings = w.beginnings := by
    obtain ⟨events, journal, outward⟩ := still.journal
    have none : events.filter Event.isBegan = [] :=
      List.filter_eq_nil_iff.mpr fun event member => by
        simp [Event.isBegan_of_isOutward (outward event member)]
    rw [World.beginnings, journal, List.filter_append, none, List.append_nil, World.beginnings]
  induction changes with
  | refl => rfl
  | tail _ change ih =>
    rw [← ih]
    cases change with
    | edit edit => exact still edit.still
    | relink relink => exact still relink.still
    | addInstance =>
      simp [World.beginnings, World.addInstance, World.write, Event.isBegan, modifyRealm, setRealm]

/-! ### What copying leaves -/

namespace Setup

/-- What a worker looks at to find what is to be laid out has not changed. -/
structure Unmoved (realm : RealmId) (w w' : World) : Prop where
  cache : w'.cache = w.cache
  records : w'.records = w.records
  slots : (w'.realm realm).slots = (w.realm realm).slots
  instances : (w'.realm realm).instances = (w.realm realm).instances

instance {realm : RealmId} : Std.Refl (Unmoved realm) where
  refl _ := ⟨rfl, rfl, rfl, rfl⟩

instance {realm : RealmId} : IsTrans World (Unmoved realm) where
  trans _ _ _ h h' := ⟨h'.cache.trans h.cache, h'.records.trans h.records, h'.slots.trans h.slots,
    h'.instances.trans h.instances⟩

theorem keeps_copyGlobally_unmoved (realm : RealmId) (exports : ObjectRef) (keys : List String) :
    Action.Keeps (Unmoved realm) (copyGlobally realm exports keys) := by
  induction keys with
  | nil => exact .pure _
  | cons key rest ih =>
    refine .bind .get fun world => .bind (fun w => ?_) fun _ => ih
    exact ⟨rfl, rfl, realm_modifyRealm_congr Realm.slots w _ realm _ fun _ => rfl,
      realm_modifyRealm_congr Realm.instances w _ realm _ fun _ => rfl⟩

/-- A name leads to a native host module in a realm, which has a value for its default there. -/
structure Exposable (setup : Setup) (realm : RealmId) (name : String) (id : RecordId)
    (value : Value) (w : World) : Prop where
  kept : ∃ place, (Lookup.written none name).place? setup.embedding w = some place ∧
    w.cache.get? place.key = some (.ok id)
  native : (w.record id).kind = .native
  present : ∃ slot, (w.realm realm).slot? id = some slot
  read : ∀ w', Unmoved realm w w' → setup.bindingValue realm id "default" w' = .ok value w'

/-- What comes before anything is laid out: a name is looked for, and a native host module gets its
instance. -/
def prepare (setup : Setup) (realm : RealmId) (name : String) : Attempt Unit := do
  let id ← setup.embedding.resolve none name
  if ((← get).record id).kind = .native then Action.instantiate setup.engine.depth realm id

/-- Lays out the default of a module that a realm has an instance of. -/
def exposeDefault (setup : Setup) (realm : RealmId) (name : String) (id : RecordId) :
    Attempt Unit := do
  let default ← setup.bindingValue realm id "default"
  match default with
  | .object exports => copyGlobally realm exports ((← get).properties exports).keys
  | _ =>
    throw (.defect ("default export of " ++ name ++ " is a " ++ default.typeName ++
      ", not an object"))

section
variable {setup : Setup} {realm : RealmId} {name : String} {id : RecordId} {w w₁ w₂ : World}
  {value : Value}

theorem run_exposeGlobally_of_native
    (resolved : (setup.embedding.resolve none name).run w = .ok (.ok id) w₁)
    (native : (w₁.record id).kind = .native) :
    (setup.exposeGlobally realm name).run w =
      (Action.instantiate setup.engine.depth realm id >>= fun _ =>
        setup.exposeDefault realm name id).run w₁ := by
  have looked : (get : Attempt World).run w₁ = .ok (.ok w₁) w₁ := rfl
  unfold exposeGlobally
  rw [Attempt.run_bind_of_ended resolved, Attempt.run_bind_of_ended looked]
  simp only [native, ne_eq, not_true_eq_false, if_false]
  rfl

theorem run_prepare_of_native
    (resolved : (setup.embedding.resolve none name).run w = .ok (.ok id) w₁)
    (native : (w₁.record id).kind = .native) : (setup.prepare realm name).run w =
      (Action.instantiate setup.engine.depth realm id).run w₁ := by
  have looked : (get : Attempt World).run w₁ = .ok (.ok w₁) w₁ := rfl
  unfold prepare
  rw [Attempt.run_bind_of_ended resolved, Attempt.run_bind_of_ended looked, if_pos native]

namespace Exposable

theorem resolved (h : Exposable setup realm name id value w) :
    (setup.embedding.resolve none name).run w = .ok (.ok id) w := by
  obtain ⟨place, found, kept⟩ := h.kept
  exact Embedding.run_lookup_kept found kept

theorem unmoved (h : Exposable setup realm name id value w) (unmoved : Unmoved realm w w₁) :
    Exposable setup realm name id value w₁ where
  kept := by
    obtain ⟨place, found, kept⟩ := h.kept
    exact ⟨place, found, by rw [unmoved.cache, kept]⟩
  native := by rw [World.record, unmoved.records]; exact h.native
  present := by rw [Realm.slot?, unmoved.slots]; exact h.present
  read w' later := h.read w' (IsTrans.trans _ _ _ unmoved later)

theorem run (h : Exposable setup realm name id value w) :
    (setup.exposeGlobally realm name).run w = (setup.exposeDefault realm name id).run w := by
  obtain ⟨slot, present⟩ := h.present
  have there := Action.meets_instantiate_found present setup.engine.depth
  have ended : (Action.instantiate setup.engine.depth realm id).run w = .ok (.ok ()) w :=
    Action.Meets.eq <| (Attempt.meets_run fun outcome w' => outcome = .ok () ∧ w' = w).mpr <|
      there.imp (fun _ h => h) (fun _ _ => False.elim) fun _ _ same => ⟨rfl, same⟩
  rw [run_exposeGlobally_of_native h.resolved h.native, Attempt.run_bind_of_ended ended]

theorem read_run (h : Exposable setup realm name id value w) :
    (liftM (setup.bindingValue realm id "default") : Attempt Value).run w = .ok (.ok value) w := by
  rw [Attempt.run_lift, h.read w (refl w)]

/-- What is not an object is refused, and nothing has changed. -/
theorem run_other (h : Exposable setup realm name id value w) (other : value.object? = none) :
    ∃ error, (setup.exposeGlobally realm name).run w = .ok (.error error) w := by
  rw [h.run, exposeDefault, Attempt.run_bind_of_ended h.read_run]
  cases value with
  | object => cases other
  | _ => exact ⟨_, rfl⟩

theorem run_object {exports : ObjectRef} (h : Exposable setup realm name id (.object exports) w) :
    (setup.exposeGlobally realm name).run w =
      (liftM (copyGlobally realm exports (w.properties exports).keys) : Attempt Unit).run w := by
  rw [h.run, exposeDefault, Attempt.run_bind_of_ended h.read_run]
  rfl

/-- What is laid out already is laid out again without a change. -/
theorem run_again {exports : ObjectRef} (h : Exposable setup realm name id (.object exports) w)
    (held : ∀ key ∈ (w.properties exports).keys, (w.properties (globalOf realm)).get? key =
      (w.properties exports).get? key) :
    (setup.exposeGlobally realm name).run w = .ok (.ok ()) w := by
  have again : copyGlobally realm exports (w.properties exports).keys w = .ok () w := by
    refine run_copyGlobally_again fun key present => ?_
    obtain ⟨value, found⟩ := Option.ne_none_iff_exists'.mp fun none =>
      Properties.get?_eq_none_iff.mp none present
    rw [held key present, Properties.get, found, Option.getD_some]
  rw [h.run_object, Attempt.run_lift, again]

end Exposable
end

/-- Properties have been laid over others. -/
structure Overlaid (before exports after : Properties) : Prop where
  value : ∀ key ∈ exports.keys, after.get? key = exports.get? key
  other : ∀ key, key ∉ exports.keys → after.get? key = before.get? key
  keys : after.keys = before.keys ++ exports.keys.filter (· ∉ before.keys)

theorem Overlaid.overlay (before exports : Properties) :
    Overlaid before exports
      (before.overlay (exports.keys.map fun key => (key, exports.get key))) := by
  rw [← Properties.entries_eq]
  have looked := Properties.get?_overlay exports.nodup before
  refine ⟨fun key present => ?_, fun key absent => ?_, Properties.keys_overlay exports.nodup before⟩
  · obtain ⟨value, found⟩ := Option.ne_none_iff_exists'.mp fun none =>
      Properties.get?_eq_none_iff.mp none present
    rw [looked, show exports.entries.lookup key = some value from found, found, Option.some_or]
  · rw [looked, lookup_eq_none_iff.mpr absent, Option.none_or]

/-- To lay out a host module fails and changes nothing. -/
def Refuses (setup : Setup) (realm : RealmId) (name : String) (w : World) : Prop :=
  ∃ error, (setup.exposeGlobally realm name).run w = .ok (.error error) w

/-- The default of a host module was laid over the global object that there was before, and to lay it
out again changes nothing. -/
structure LaidOut (setup : Setup) (realm : RealmId) (name : String) (w w' : World) : Prop where
  again : (setup.exposeGlobally realm name).run w' = .ok (.ok ()) w'
  laid : ∃ id exports, Exposable setup realm name id (.object exports) w' ∧
    (exports ≠ globalOf realm → Overlaid (w.properties (globalOf realm)) (w'.properties exports)
      (w'.properties (globalOf realm)))

/-- Once the module is there, its default is laid out, or nothing changes if it is none that can be.
-/
theorem Exposable.meets {setup : Setup} {realm : RealmId} {name : String} {id : RecordId}
    {value : Value} {w : World} (h : Exposable setup realm name id value w)
    (global : w.HasObject (globalOf realm)) :
    Attempt.Meets (fun _ => False) (fun _ w' => w' = w ∧ Refuses setup realm name w')
      (setup.exposeGlobally realm name) (fun _ => LaidOut setup realm name w) w := by
  cases object : value.object? with
  | none =>
    obtain ⟨error, refused⟩ := h.run_other object
    rw [Attempt.Meets, refused]
    exact ⟨rfl, error, refused⟩
  | some exports =>
    obtain rfl : value = .object exports := by
      cases value <;> cases object
      rfl
    by_cases same : exports = globalOf realm
    · subst same
      have again := h.run_again fun _ _ => rfl
      rw [Attempt.Meets, again]
      exact ⟨again, id, _, h, fun differs => absurd rfl differs⟩
    · have copied := (meets_copyGlobally global same (w.properties exports).keys).and
        ((keeps_copyGlobally_unmoved realm exports (w.properties exports).keys w).imp
          (fun _ _ => trivial) fun _ _ unmoved => unmoved)
      obtain ⟨_, w', ended, ⟨kept, laid⟩, unmoved⟩ :=
        (copied.imp (fun _ h => h.1) fun _ _ h => h).exists_ended
      have overlaid := Overlaid.overlay (w.properties (globalOf realm)) (w.properties exports)
      rw [← laid, ← kept] at overlaid
      have h' := h.unmoved unmoved
      rw [Attempt.Meets, h.run_object, Attempt.run_lift, ended]
      exact ⟨h'.run_again overlaid.value, id, exports, h', fun _ => overlaid⟩

end Setup

/-! ### Resolution -/

namespace Embedding
variable {embedding : Embedding} {w : World}

/-- To resolve a name leaves all realms alone, and to do it again changes nothing. What was found is
kept, and what was not found is not found again. -/
theorem exists_run_resolve (embedding : Embedding) (name : String) (w : World) :
    ∃ outcome w', (embedding.resolve none name).run w = .ok outcome w' ∧ w'.realms = w.realms ∧
      (∀ error, outcome = .error error →
        ∃ error', (embedding.resolve none name).run w' = .ok (.error error') w') ∧
      ∀ id, outcome = .ok id → ∃ place,
        (Lookup.written none name).place? embedding w' = some place ∧
          w'.cache.get? place.key = some (.ok id) := by
  cases found : (Lookup.written none name).place? embedding w with
  | none =>
    obtain ⟨error, fails⟩ := run_of_no_place found
    exact ⟨.error error, w, fails embedding rfl, rfl, fun _ _ => ⟨error, fails embedding rfl⟩, nofun⟩
  | some place =>
    obtain ⟨outcome, w', ended, did⟩ := (lookedUp_of_place found).exists_ended
    have found' : (Lookup.written none name).place? embedding w' = some place := found
    refine ⟨outcome, w', ended, did.realms, fun error failed => ?_, fun id succeeded => ?_⟩
    · rcases did.settled with ⟨kept, -⟩ | ⟨absent, locked, -⟩
      · exact ⟨error, failed ▸ run_lookup_kept found' kept⟩
      · exact ⟨_, run_lookup_refused found' absent locked⟩
    · rcases did.settled with ⟨kept, -⟩ | ⟨-, -, ⟨-, refused⟩ | ⟨-, refused⟩⟩
      · exact ⟨place, found', succeeded ▸ kept⟩
      · cases succeeded.symm.trans refused
      · cases succeeded.symm.trans refused

end Embedding

/-! ### What a name leads to -/

namespace Setup
variable {setup : Setup} {realm : RealmId} {name : String} {id : RecordId} {w w₁ : World}

theorem keeps_exposeGlobally (setup : Setup) (realm : RealmId) (name : String) :
    Attempt.Keeps Changes (setup.exposeGlobally realm name) := by
  have edited {α : Type} {action : Action α} (keeps : Action.Keeps Edits action) :
      Attempt.Keeps Changes (liftM action : Attempt α) :=
    .lift (keeps.mono fun _ _ edits => edits.changes)
  refine .bind ((setup.embedding.keeps_resolve none name).mono fun _ _ (edits : Edits _ _) =>
    edits.changes) fun id => .bind .get fun world => ?_
  dsimp only
  split
  · exact .throw _
  · refine .bind (Action.keeps_instantiate _ realm id) fun _ =>
      .bind (edited (Action.keeps_readBinding _ realm id _)) fun value => ?_
    split
    · exact .bind .get fun _ => edited (keeps_copyGlobally realm _ _)
    · exact .throw _

/-- What is not resolved, or to no native host module, is refused where the lookup has ended, and
nothing else is done. -/
theorem run_exposeGlobally_of_other (setup : Setup) (realm : RealmId)
    {outcome : Except ModuleError RecordId}
    (resolved : (setup.embedding.resolve none name).run w = .ok outcome w₁)
    (other : ∀ id, outcome = .ok id → (w₁.record id).kind ≠ .native) :
    (∃ error, (setup.exposeGlobally realm name).run w = .ok (.error error) w₁) ∧
      (setup.prepare realm name).run.after w = w₁ := by
  unfold exposeGlobally prepare Action.after
  cases outcome with
  | error error =>
    rw [Attempt.run_bind, Attempt.run_bind, resolved]
    exact ⟨⟨error, rfl⟩, rfl⟩
  | ok id =>
    have looked : (get : Attempt World).run w₁ = .ok (.ok w₁) w₁ := rfl
    rw [Attempt.run_bind_of_ended resolved, Attempt.run_bind_of_ended looked,
      Attempt.run_bind_of_ended resolved, Attempt.run_bind_of_ended looked]
    simp only [if_pos (other id rfl), if_neg (other id rfl)]
    exact ⟨⟨_, rfl⟩, rfl⟩

/-- What the resolver keeps and is native is a host module. -/
theorem exists_native {embedding : Embedding} {key : String} (filed : w.Filed embedding)
    (kept : w.cache.get? key = some (.ok id)) (native : (w.record id).kind = .native) :
    ∃ module exports, w.record id = .host module ∧ module.content = .native exports := by
  obtain ⟨place, -, -, suits⟩ := filed.kept key (.ok id) kept
  cases place with
  | host name =>
    obtain ⟨module, found, -⟩ := suits
    rw [found, Record.kind] at native
    split at native
    · rename_i exports content
      exact ⟨module, exports, found, content⟩
    · cases native
  | location url =>
    rcases suits with ⟨_, found, -⟩ | ⟨_, found, -⟩ <;>
      · rw [found] at native
        cases native

/-- A name leads to a native host module, which is kept for it; or to lay it out is refused where the
lookup has ended, and nothing else is done. -/
theorem resolves_native_or_refused (setup : Setup) (realm : RealmId) (name : String)
    (filed : w.Filed setup.embedding) : ∃ w₁, Edits w w₁ ∧ w₁.realms = w.realms ∧
      ((∃ id place module exports, (setup.embedding.resolve none name).run w = .ok (.ok id) w₁ ∧
          (Lookup.written none name).place? setup.embedding w₁ = some place ∧
          w₁.cache.get? place.key = some (.ok id) ∧ w₁.record id = .host module ∧
          module.content = .native exports) ∨
        (setup.prepare realm name).run.after w = w₁ ∧ Refuses setup realm name w₁ ∧
          ∃ error, (setup.exposeGlobally realm name).run w = .ok (.error error) w₁) := by
  obtain ⟨outcome, w₁, resolved, realms, failed, found⟩ :=
    Embedding.exists_run_resolve setup.embedding name w
  have edits := setup.embedding.keeps_resolve (R := Edits) none name w
  have filed₁ := (sustained_filed setup.embedding.staysWithin_all).toConsulted.resolve
    (fun _ (_ : _ ∈ none) => trivial) name w filed
  rw [Action.Meets, resolved] at edits filed₁
  refine ⟨w₁, edits, realms, ?_⟩
  by_cases native : ∃ id, outcome = .ok id ∧ (w₁.record id).kind = .native
  · obtain ⟨id, rfl, native⟩ := native
    obtain ⟨place, here, kept⟩ := found id rfl
    obtain ⟨module, exports, record, content⟩ := exists_native filed₁ kept native
    exact .inl ⟨id, place, module, exports, resolved, here, kept, record, content⟩
  · have other (id : RecordId) (is : outcome = .ok id) : (w₁.record id).kind ≠ .native :=
      fun isNative => native ⟨id, is, isNative⟩
    obtain ⟨refused, prepared⟩ := setup.run_exposeGlobally_of_other realm resolved other
    refine .inr ⟨prepared, ?_, refused⟩
    cases outcome with
    | error =>
      obtain ⟨error', again⟩ := failed _ rfl
      exact (setup.run_exposeGlobally_of_other realm again fun _ isOk => by cases isOk).1
    | ok id =>
      obtain ⟨place, here, kept⟩ := found id rfl
      exact (setup.run_exposeGlobally_of_other realm (Embedding.run_lookup_kept here kept) other).1

/-! ### The whole -/

/-- The default of a native host module that is in a realm is laid out, or is none that can be. -/
theorem meets_exposeDefault (reached : w.Reached) (global : w.HasObject (globalOf realm))
    {place : Place} (found : (Lookup.written none name).place? setup.embedding w = some place)
    (kept : w.cache.get? place.key = some (.ok id)) {module : HostRecord}
    (record : w.record id = .host module) (native : (w.record id).kind = .native) {slot : Slot}
    (present : (w.realm realm).slot? id = some slot) :
    Attempt.Meets (· = w) (fun _ w' => w' = w ∧ Refuses setup realm name w')
      (setup.exposeDefault realm name id) (fun _ => LaidOut setup realm name w) w := by
  obtain ⟨value, reads⟩ := reached.exists_default record present
  cases deep : setup.engine.depth with
  | zero =>
    unfold exposeDefault
    rw [Attempt.meets_bind, Attempt.meets_lift, bindingValue, deep]
    rfl
  | succ depth =>
    have exposable : Exposable setup realm name id value w := by
      refine ⟨⟨place, found, kept⟩, native, ⟨slot, present⟩, fun w' unmoved => ?_⟩
      rw [bindingValue, deep]
      refine reads w' ?_ depth
      rw [Realm.instance?, Realm.slot?, unmoved.slots, unmoved.instances]
      rfl
    rw [Attempt.Meets, ← exposable.run]
    exact (exposable.meets global).imp (fun _ => False.elim) (fun _ _ h => h) fun _ _ h => h

/-- A native host module that was found is laid out over what its code has left, or its default is
none that can be, and no more is done. -/
theorem meets_exposeGlobally_native (reached : w.Reached) (global : w.HasObject (globalOf realm))
    {place : Place} (found : (Lookup.written none name).place? setup.embedding w = some place)
    (kept : w.cache.get? place.key = some (.ok id)) {module : HostRecord} {exports : NativeExports}
    (record : w.record id = .host module) (content : module.content = .native exports) :
    let prepared := (Action.instantiate setup.engine.depth realm id).run.after w
    Attempt.Meets (· = prepared) (fun _ w' => w' = prepared ∧ Refuses setup realm name w')
      (setup.exposeGlobally realm name) (fun _ => LaidOut setup realm name prepared) w := by
  have native : (w.record id).kind = .native := by simp [record, Record.kind, content]
  have remembers := ((sustained_remembers setup.embedding w).instantiate setup.engine.depth realm
    id).meets (refl w)
  have changes := (Action.keeps_instantiate setup.engine.depth realm id).meets w
  have slots := Action.meets_instantiate_slot setup.engine.depth realm id w
  have unrefused := Action.meets_instantiate_unrefused record content setup.engine.depth realm
  dsimp only
  rw [Action.after, Attempt.Meets,
    run_exposeGlobally_of_native (Embedding.run_lookup_kept found kept) native]
  show Attempt.Meets _ _ (Action.instantiate setup.engine.depth realm id >>= fun _ =>
    setup.exposeDefault realm name id) _ w
  rw [Attempt.meets_bind]
  unfold Attempt.Meets at remembers changes slots unrefused ⊢
  rcases ran : (Action.instantiate setup.engine.depth realm id).run w with ⟨_ | _, w₂⟩ | ⟨_, w₂⟩
  · rw [ran] at unrefused
    exact unrefused.elim
  · rw [ran] at remembers changes slots
    obtain ⟨slot, present⟩ := slots
    obtain ⟨names, record₂⟩ := World.Changes.host changes record
    exact meets_exposeDefault (reached.steps changes.steps)
      (changes.steps.keepsObjects _ global) found (remembers.outcome _ _ kept) record₂
      (by simp [record₂, Record.kind, content]) present
  · rfl

/-- Whatever a name leads to, it is laid out over what there is once it was looked for and has its
instance, or no more is done. -/
theorem meets_exposeGlobally (setup : Setup) (realm : RealmId) (name : String)
    (reached : w.Reached) (filed : w.Filed setup.embedding)
    (global : w.HasObject (globalOf realm)) :
    let prepared := (setup.prepare realm name).run.after w
    Attempt.Meets (· = prepared) (fun _ w' => w' = prepared ∧ Refuses setup realm name w')
      (setup.exposeGlobally realm name) (fun _ => LaidOut setup realm name prepared) w := by
  obtain ⟨w₁, edits, -, leads | ⟨prepared, again, error, refused⟩⟩ :=
    setup.resolves_native_or_refused realm name filed
  · obtain ⟨id, place, module, exports, resolved, here, kept, record, content⟩ := leads
    have native : (w₁.record id).kind = .native := by simp [record, Record.kind, content]
    have steps := edits.changes.steps
    have laid := meets_exposeGlobally_native (reached.steps steps) (steps.keepsObjects _ global) here
      kept record content
    dsimp only
    rw [Action.after, run_prepare_of_native resolved native, Attempt.Meets,
      run_exposeGlobally_of_native resolved native,
      ← run_exposeGlobally_of_native (Embedding.run_lookup_kept here kept) native]
    exact laid
  · dsimp only
    rw [prepared, Attempt.Meets, refused]
    exact ⟨rfl, again⟩

/-- A name leads to a native host module that a realm has no instance of yet, and whose own code does
not leave an object alone there. -/
def Meddles (setup : Setup) (realm : RealmId) (name : String) (ref : ObjectRef) (w : World) : Prop :=
  ∃ id w₁ module exports, (setup.embedding.resolve none name).run w = .ok (.ok id) w₁ ∧
    w₁.record id = .host module ∧ module.content = .native exports ∧
    (w₁.realm realm).slot? id = none ∧ ¬ exports.LeaveAlone realm ref

/-- Before anything is laid out, an object is changed by the module's own code alone. -/
theorem leavesAlone_prepare (filed : w.Filed setup.embedding) (realm : RealmId) (name : String)
    {ref : ObjectRef} (spared : ¬ setup.Meddles realm name ref w) :
    World.LeavesAlone ref w ((setup.prepare realm name).run.after w) := by
  obtain ⟨w₁, -, realms, leads | ⟨prepared, -⟩⟩ := setup.resolves_native_or_refused realm name filed
  · obtain ⟨id, place, module, exports, resolved, -, -, record, content⟩ := leads
    have leave (absent : (w₁.realm realm).slot? id = none) : exports.LeaveAlone realm ref := by
      by_contra touches
      exact spared ⟨id, w₁, module, exports, resolved, record, content, absent, touches⟩
    have instantiated := Action.meets_instantiate_leavesAlone record content leave setup.engine.depth
    have touched : Action.Meets (World.LeavesAlone ref w₁)
        (Action.instantiate setup.engine.depth realm id).run (fun _ => World.LeavesAlone ref w₁) w₁ :=
      (Attempt.meets_run fun _ => World.LeavesAlone ref w₁).mpr <|
        instantiated.imp (fun _ h => h) (fun _ _ => False.elim) fun _ _ h => h
    rw [Action.after, run_prepare_of_native resolved (by simp [record, Record.kind, content])]
    exact IsTrans.trans _ _ _ (.of_realms realms ref) touched.after
  · rw [prepared]
    exact .of_realms realms ref

end Setup

/-- Whatever was done before, the exports of a native host module are laid out on the global object
in full or not at all. They are laid over what is there when the module was looked for and has its
instance: the global object as it was, but for what the module's own code does if its instance is
made just then. If anything fails, no more is done. Otherwise the default that the module has then
is an object; unless this is the global object itself, each of its keys has its value on the global
object, every other key there has the value that it had, and those keys that are new follow the old
ones in their own order. In no case does a body begin, and to do the same again changes nothing. -/
theorem exposure_is_atomic (embedding : Embedding) (depth : Nat) (operations : List Operation)
    (realm : RealmId) (name : String) (w₀ w : World) (fresh : w₀.Fresh) (unresolved : w₀.Unresolved)
    (global : w₀.HasObject (globalOf realm))
    (ran : ((Setup.ofDepth embedding depth).run operations).after w₀ = w) :
    let setup := Setup.ofDepth embedding depth
    let prepared := (setup.prepare realm name).run.after w
    (prepared.properties (globalOf realm) = w.properties (globalOf realm) ∨
      setup.Meddles realm name (globalOf realm) w) ∧
    Attempt.Meets (fun w' => w' = prepared ∧ w'.beginnings = w.beginnings)
      (fun _ w' => w' = prepared ∧ w'.beginnings = w.beginnings ∧
        ∃ error, (setup.exposeGlobally realm name).run w' = .ok (.error error) w')
      (setup.exposeGlobally realm name)
      (fun _ w' => w'.beginnings = w.beginnings ∧
        (setup.exposeGlobally realm name).run w' = .ok (.ok ()) w' ∧
        ∃ id exports, (embedding.resolve none name).run w' = .ok (.ok id) w' ∧
          (w'.record id).kind = .native ∧
          setup.bindingValue realm id "default" w' = .ok (.object exports) w' ∧
          (exports ≠ globalOf realm → Setup.Overlaid (prepared.properties (globalOf realm))
            (w'.properties exports) (w'.properties (globalOf realm)))) w := by
  intro setup prepared
  have steps : Steps w₀ w := ran ▸ Setup.steps_run embedding depth operations fresh.orderly
  have filed : w.Filed embedding := ran ▸ (Setup.sustains_run
    (sustained_filed_of (fun _ h => h) embedding.staysWithin_all) depth operations w₀
    unresolved.filed).after
  have global := steps.keepsObjects _ global
  refine ⟨?_, ?_⟩
  · by_cases meddles : setup.Meddles realm name (globalOf realm) w
    · exact .inr meddles
    · exact .inl (setup.leavesAlone_prepare filed realm name meddles global).2
  · have met := setup.meets_exposeGlobally realm name (fresh.reached.steps steps) filed global
    refine (met.and ((Setup.keeps_exposeGlobally _ realm name).meets w)).imp
      (fun w' h => ⟨h.1, h.2.beginnings⟩) (fun _ w' h => ⟨h.1.1, h.2.beginnings, h.1.2⟩)
      fun _ w' h => ?_
    obtain ⟨⟨again, id, exports, exposable, overlaid⟩, changes⟩ := h
    exact ⟨changes.beginnings, again, id, exports, exposable.resolved, exposable.native,
      exposable.read w' (refl w'), overlaid⟩

/-- A host module that sets a global when it makes its exports, with a default that is no object. -/
def meddling : Embedding where
  hosts := [("host:kv", .native {
    default := some (.globalObject fun ref => .setProperty ref "a" .null (.give (.bool true))) })]
  load := Embedding.bare.load
  compile := Embedding.bare.compile
  compileWrapper := Embedding.bare.compileWrapper

/-- What the module's own code has done is not undone when the exposure fails. -/
theorem global_changed_by_failed_exposure :
    let global := globalOf (.worker 0)
    let w := ofModules []
    w.Fresh ∧ w.Unresolved ∧ w.HasObject global ∧ (w.properties global).get? "a" = none ∧
      ∃ error w', ((Setup.ofDepth meddling 2).exposeGlobally (.worker 0) "host:kv").run w =
        .ok (.error error) w' ∧ (w'.properties global).get? "a" = some .null := by
  intro global w
  have computed : Action.ends ((Setup.ofDepth meddling 2).exposeGlobally (.worker 0) "host:kv").run
      w (fun outcome w' => outcome =
        .error (.defect "default export of host:kv is a boolean, not an object") ∧
        (w'.properties global).get? "a" = some .null) = true := by
    cbv
  obtain ⟨_, w', ended, found⟩ := Action.exists_of_ends computed
  obtain ⟨rfl, set⟩ := of_decide_eq_true found
  exact ⟨fresh_ofModules [], ⟨rfl, rfl⟩, by decide, by cbv, _, w', ended, set⟩

/-- A host module with two named exports. -/
def exposing : Embedding where
  hosts := [("host:kv", .native {
    named := some [("b", .give (.bool true)), ("a", .give (.bool false))] })]
  load := Embedding.bare.load
  compile := Embedding.bare.compile
  compileWrapper := Embedding.bare.compileWrapper

/-- One of the two names is on the global object already, besides another one. -/
theorem exposure_is_atomic_exposing :
    let global := globalOf (.worker 0)
    let setup := Setup.ofDepth exposing 2
    ∃ w w', (setup.run [.setProperty global "b" .null, .setProperty global "c" .null]).after
        (ofModules []) = w ∧
      (setup.exposeGlobally (.worker 0) "host:kv").run w = .ok (.ok ()) w' ∧
      (w'.properties global).keys = ["b", "c", "a"] ∧
      (w'.properties global).get? "b" = some (.bool true) ∧
      (w'.properties global).get? "c" = some .null ∧
      (setup.exposeGlobally (.worker 0) "host:kv").run w' = .ok (.ok ()) w' := by
  intro global setup
  obtain ⟨-, atomic⟩ := exposure_is_atomic exposing 2
    [.setProperty global "b" .null, .setProperty global "c" .null] (.worker 0) "host:kv"
    (ofModules []) _ (fresh_ofModules []) ⟨rfl, rfl⟩ (by decide) rfl
  have before : ((setup.prepare (.worker 0) "host:kv").run.after
      ((setup.run [.setProperty global "b" .null, .setProperty global "c" .null]).after
        (ofModules []))).properties global = .ofEntries [("b", .null), ("c", .null)] := by
    cbv
  have computed : Action.ends (setup.exposeGlobally (.worker 0) "host:kv").run
      ((setup.run [.setProperty global "b" .null, .setProperty global "c" .null]).after
        (ofModules [])) (fun outcome w' => outcome = .ok () ∧
        Action.ends (exposing.resolve none "host:kv").run w' (fun found _ => found = .ok ⟨0⟩) ∧
        (setup.bindingValue (.worker 0) ⟨0⟩ "default").ends w' fun value w'' =>
          value = .object ⟨.worker 0, 1⟩ ∧ w''.properties ⟨.worker 0, 1⟩ =
            .ofEntries [("a", .bool false), ("b", .bool true)]) = true := by
    cbv
  obtain ⟨outcome, w', ended, finds⟩ := Action.exists_of_ends computed
  obtain ⟨rfl, finds, reads⟩ := of_decide_eq_true finds
  obtain ⟨_, w₁, resolved, isFirst⟩ := Action.exists_of_ends finds
  obtain ⟨_, w₂, read, isObject⟩ := Action.exists_of_ends reads
  obtain rfl := of_decide_eq_true isFirst
  obtain ⟨rfl, properties⟩ := of_decide_eq_true isObject
  rw [Attempt.Meets, ended] at atomic
  obtain ⟨-, again, id, exports, resolved', -, read', overlaid⟩ := atomic
  cases resolved'.symm.trans resolved
  cases read'.symm.trans read
  have laid := overlaid (by decide)
  rw [before, properties] at laid
  refine ⟨_, w', rfl, ended, laid.keys, ?_, ?_, again⟩
  · exact laid.value "b" (by decide)
  · exact laid.other "c" (by decide)

end ModuleGraph
