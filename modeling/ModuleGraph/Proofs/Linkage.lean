import ModuleGraph.Proofs.Providers

/-!
What linking records. A module that links records what it requests, once; it is linked when all that
it requests is linked or still links, and whatever still links leads back to it. The modules that
still link are those on the path of the walk.
-/
namespace ModuleGraph
open Relation

namespace World
variable {w w' w'' : World} {id a b r x : RecordId} {name : String} {module : StaticModule}
  {status : LinkStatus} {requested : List (String × RecordId)} {path : List RecordId}

theorem kind_eq_static : (w.record id).kind = .static ↔ ∃ module, w.record id = .static module := by
  cases found : w.record id with
  | static => simp [Record.kind]
  | host module => cases content : module.content <;> simp [Record.kind, content]
  | _ => simp [Record.kind]

theorem record_setRecord_same (found : w.record id = .static module) (record : Record) :
    (w.setRecord id record).record id = record := by
  rw [record_setRecord, if_pos ⟨rfl, hasRecord_of_static found⟩]

theorem record_setRecord_other {other : RecordId} (differs : other ≠ id) (w : World)
    (record : Record) : (w.setRecord id record).record other = w.record other := by
  rw [record_setRecord, if_neg fun same => differs same.1]

theorem mem_of_lookup {specifier : String} (found : requested.lookup specifier = some r) :
    r ∈ requested.map Prod.snd := by
  obtain ⟨before, after, split, _⟩ := List.lookup_eq_some_iff.mp found
  simp [split]

/-! ### Requests that are recorded -/

/-- A static module has recorded that it requests a record. -/
def Asks (w : World) (a b : RecordId) : Prop :=
  ∃ module, w.record a = .static module ∧ b ∈ module.requested.map Prod.snd

/-- A module requests what it exports along. -/
theorem Forwards.asks (forwards : w.Forwards name a b) : w.Asks a b := by
  obtain ⟨_, module, found, member⟩ := forwards
  obtain ⟨source, _, lookup⟩ := List.mem_filterMap.mp member
  exact ⟨module, found, mem_of_lookup lookup⟩

/-- There is a path of recorded requests through static modules. -/
abbrev LeadsTo (w : World) : RecordId → RecordId → Prop := ReflTransGen w.Asks

/-- Static modules stay what they are and keep what they have recorded, and no other record becomes
one. -/
structure Recorded (w w' : World) : Prop where
  hasRecord : ∀ id, w.hasRecord id → w'.hasRecord id
  static : ∀ id module, w.record id = .static module → ∃ status requested,
    w'.record id = .static { module with status, requested } ∧
      (module.requested = [] ∨ requested = module.requested)
  other : ∀ id, w.hasRecord id → (∀ module, w.record id ≠ .static module) →
    ∀ module, w'.record id ≠ .static module

/-- Replacing a static module by itself with another status, and requests if it had none. -/
theorem recorded_setRecord (found : w.record id = .static module) (status : LinkStatus)
    (grown : module.requested = [] ∨ requested = module.requested) :
    Recorded w (w.setRecord id (.static { module with status, requested })) where
  hasRecord other present := by simpa [World.hasRecord, World.setRecord] using present
  static other module' found' := by
    rw [record_setRecord]
    split
    · rename_i same
      cases (same.1 ▸ found).symm.trans found'
      exact ⟨status, requested, rfl, grown⟩
    · exact ⟨module'.status, module'.requested, found', .inr rfl⟩
  other other _ differs := by
    have elsewhere : ¬ (other = id ∧ w.hasRecord id = true) := fun same =>
      differs module (same.1 ▸ found)
    rwa [record_setRecord, if_neg elsewhere]

namespace Recorded

/-- What is static now was static before, if it was there. -/
theorem static_of (h : Recorded w w') (present : w.hasRecord id)
    (found : w'.record id = .static module) : ∃ module, w.record id = .static module := by
  by_contra differs
  exact h.other id present (fun module found => differs ⟨module, found⟩) module found

theorem asks (h : Recorded w w') (asks : w.Asks a b) : w'.Asks a b := by
  obtain ⟨module, found, member⟩ := asks
  obtain ⟨status, requested, found', nothing | same⟩ := h.static a module found
  · simp [nothing] at member
  · exact ⟨_, found', by rwa [same]⟩

theorem leadsTo (h : Recorded w w') (path : w.LeadsTo a b) : w'.LeadsTo a b :=
  ReflTransGen.mono (fun _ _ => h.asks) _ _ path

theorem gives (h : Recorded w w') (present : w.hasRecord id) (gives : w.Gives name id) :
    w'.Gives name id := by
  intro module found
  obtain ⟨module', before⟩ := h.static_of present found
  obtain ⟨status, requested, after, _⟩ := h.static id module' before
  cases found.symm.trans after
  exact gives module' before

theorem forwards (h : Recorded w w') (forwards : w.Forwards name a b) : w'.Forwards name a b := by
  obtain ⟨differs, module, found, member⟩ := forwards
  obtain ⟨status, requested, found', nothing | same⟩ := h.static a module found
  · obtain ⟨_, _, requested⟩ := mem_starTargets.mp member
    simp [nothing] at requested
  · exact ⟨differs, _, found', by rwa [starTargets, same]⟩

/-- A name that is provided stays so, if the records that are requested exist. -/
theorem provides (h : Recorded w w')
    (known : ∀ id module, w.record id = .static module →
      ∀ r ∈ module.requested.map Prod.snd, w.hasRecord r)
    (present : w.hasRecord id) (provides : w.Provides name id) : w'.Provides name id := by
  obtain ⟨p, path, gives⟩ := provides
  refine ⟨p, ReflTransGen.mono (fun _ _ => h.forwards) _ _ path, h.gives ?_ gives⟩
  induction path with
  | refl => exact present
  | tail _ forwards ih =>
    obtain ⟨module, found, member⟩ := forwards.asks
    exact known _ module found _ member

/-- The same imports come from static modules as before. -/
theorem imported (h : Recorded w w') {statements : List ImportStatement} {target : RecordId}
    (present : ∀ r ∈ requested.map Prod.snd, w.hasRecord r)
    (imported : w'.Imported requested statements target name) :
    w.Imported requested statements target name := by
  obtain ⟨statement, member, lookup, isStatic, asked⟩ := imported
  obtain ⟨module, found⟩ := kind_eq_static.mp isStatic
  exact ⟨statement, member, lookup,
    kind_eq_static.mpr (h.static_of (present _ (mem_of_lookup lookup)) found), asked⟩

/-- Imports that are all provided stay so. -/
theorem provided (h : Recorded w w')
    (known : ∀ id module, w.record id = .static module →
      ∀ r ∈ module.requested.map Prod.snd, w.hasRecord r)
    {statements : List ImportStatement} (present : ∀ r ∈ requested.map Prod.snd, w.hasRecord r)
    (provided : ∀ target name, w.Imported requested statements target name →
      w.Provides name target) {target : RecordId} (imported : w'.Imported requested statements target name) :
    w'.Provides name target := by
  have before := provided target name (h.imported present imported)
  obtain ⟨_, _, lookup, _⟩ := imported
  exact h.provides known (present _ (mem_of_lookup lookup)) before

end Recorded

/-! ### Changes -/

theorem Change.extends (change : Change w w') : Extends w w' := by
  cases change with
  | edit edit => exact edit.still.records
  | relink relink => exact relink.still.records
  | addInstance => exact .of_records rfl

theorem Changes.extends (changes : Changes w w') : Extends w w' := by
  induction changes with
  | refl => exact .refl w
  | tail _ change ih => exact ih.trans change.extends

/-- An edit leaves a static module alone, or makes one that is unlinked. -/
theorem Edit.static_cases (edit : Edit w w') (found : w'.record id = .static module) :
    w.record id = .static module ∨
      ¬ w.hasRecord id ∧ module.status = .unlinked ∧ module.requested = [] := by
  by_cases present : w.hasRecord id
  · obtain ⟨module', before⟩ := ((Change.edit edit).revised present).of_static found
    cases (edit.static before).symm.trans found
    exact .inl before
  · have bound : w.records.size ≤ id.index := by simpa [World.hasRecord] using present
    have absent := record_of_not_hasRecord present
    cases edit with
    | addRecord record new =>
      by_cases same : id.index = w.records.size
      · have here : (w.addRecord record).2.record id = record := by
          simp [World.record, World.addRecord, same]
        rw [here] at found
        rw [found] at new
        exact .inr ⟨present, new⟩
      · have outside : ¬ (w.addRecord record).2.hasRecord id := by
          simp only [World.hasRecord, World.addRecord, Array.size_push, decide_eq_true_eq]
          omega
        rw [record_of_not_hasRecord outside] at found
        cases found
    | setMemo other memo =>
      have elsewhere : ¬ (id = other ∧ w.hasRecord other = true) := fun same =>
        present (same.1 ▸ same.2)
      rw [record_setRecord, if_neg elsewhere, absent] at found
      cases found
    | _ =>
      rw [← found]
      exact .inl rfl

theorem Edits.static_cases (edits : Edits w w') (found : w'.record id = .static module) :
    w.record id = .static module ∨
      ¬ w.hasRecord id ∧ module.status = .unlinked ∧ module.requested = [] := by
  induction edits with
  | refl => exact .inl found
  | tail before edit ih =>
    rcases edit.static_cases found with found | ⟨absent, new⟩
    · exact ih found
    · exact .inr ⟨fun present => absent ((Edits.changes before).extends.hasRecord present), new⟩

theorem Changes.static (changes : Changes w w') (found : w.record id = .static module) :
    ∃ status requested, w'.record id = .static { module with status, requested } := by
  induction changes with
  | refl => exact ⟨module.status, module.requested, found⟩
  | tail _ change ih =>
    obtain ⟨_, _, found'⟩ := ih
    obtain ⟨status, requested, found''⟩ :=
      (change.revised (hasRecord_of_static found')).static found'
    exact ⟨status, requested, found''⟩

theorem Changes.other (changes : Changes w w') (present : w.hasRecord id)
    (found : w'.record id = .static module) : ∃ module, w.record id = .static module := by
  induction changes using ReflTransGen.head_induction_on with
  | refl => exact ⟨module, found⟩
  | head change _ ih =>
    obtain ⟨module', found'⟩ := ih (change.extends.hasRecord present)
    exact (change.revised present).of_static found'

/-- When unlinked modules have recorded nothing, linking keeps what is recorded. -/
theorem Links.recorded (h : Links w w')
    (unlinked : ∀ id module, w.record id = .static module → module.status = .unlinked →
      module.requested = []) : Recorded w w' where
  hasRecord id present := h.changes.extends.hasRecord present
  static id module found := by
    obtain ⟨status, requested, found'⟩ := h.changes.static found
    refine ⟨status, requested, found', ?_⟩
    by_cases unlinkedYet : module.status = .unlinked
    · exact .inl (unlinked id module found unlinkedYet)
    · rw [h.begun id module found unlinkedYet] at found'
      injection found' with same
      exact .inr (congrArg StaticModule.requested same).symm
  other id present differs module found := by
    obtain ⟨module', found'⟩ := h.changes.other present found
    exact differs module' found'

/-! ### Linkage -/

/-- A record is linked or still links, if it has to. -/
def Settling (w : World) (id : RecordId) : Prop :=
  ∀ module, w.record id = .static module → module.status = .linked ∨ module.status = .linking

theorem Links.settling (h : Links w w') (present : w.hasRecord id)
    (settling : w.Settling id) : w'.Settling id := by
  intro module found
  obtain ⟨module', before⟩ := h.changes.other present found
  have status := settling module' before
  have begun : module'.status ≠ .unlinked := by rcases status with status | status <;> simp [status]
  cases (h.begun id module' before begun).symm.trans found
  exact status

/-- A module has recorded what it requests, all of which has begun to link, and its imports are
provided. -/
structure Checked (w : World) (id : RecordId) (module : StaticModule) : Prop where
  asked : module.requested.map Prod.fst = module.declarations.requestedSpecifiers
  settling : ∀ r ∈ module.requested.map Prod.snd, w.Settling r
  provided : ∀ target name, w.Imported module.requested module.declarations.imports target name →
    w.Provides name target

/-- A module has been linked: it has recorded all that it requests; what of this is static is linked
or leads back to it; and all names that it imports are provided. -/
structure Complete (w : World) (id : RecordId) (module : StaticModule) : Prop where
  asked : module.requested.map Prod.fst = module.declarations.requestedSpecifiers
  settled : ∀ r ∈ module.requested.map Prod.snd, ∀ other, w.record r = .static other →
    other.status = .linked ∨ other.status ≠ .unlinked ∧ w.LeadsTo r id
  provided : ∀ target name, w.Imported module.requested module.declarations.imports target name →
    w.Provides name target

/-- What holds while modules link, of which those on a path are in the middle of it. -/
structure Linkage (w : World) (path : List RecordId) : Prop where
  present : ∀ id module, w.record id = .static module →
    ∀ r ∈ module.requested.map Prod.snd, w.hasRecord r
  unlinked : ∀ id module, w.record id = .static module → module.status = .unlinked →
    module.requested = []
  linking : ∀ id, w.IsLinking id ↔ id ∈ path
  nodup : path.Nodup
  linked : ∀ id module, w.record id = .static module → module.status = .linked →
    w.Complete id module

/-- Static modules only go on in their linking. -/
def LinksOn (w w' : World) : Prop :=
  ∀ id module module', w.record id = .static module → w'.record id = .static module' →
    (module.status = .linked → module'.status = .linked) ∧
      (module.status ≠ .unlinked → module'.status ≠ .unlinked)

theorem Complete.recorded (h : w.Complete id module) (recorded : Recorded w w')
    (known : ∀ id module, w.record id = .static module →
      ∀ r ∈ module.requested.map Prod.snd, w.hasRecord r)
    (present : ∀ r ∈ module.requested.map Prod.snd, w.hasRecord r) (on : LinksOn w w') :
    w'.Complete id module where
  asked := h.asked
  settled r member other found := by
    obtain ⟨other', before⟩ := recorded.static_of (present r member) found
    obtain ⟨linked, begun⟩ := on r other' other before found
    exact (h.settled r member other' before).imp linked fun still =>
      ⟨begun still.1, recorded.leadsTo still.2⟩
  provided _ _ imported := recorded.provided known present h.provided imported

namespace Linkage

/-- A static module is replaced by itself with another status, and requests if it had none. -/
theorem setRecord (h : w.Linkage path) (found : w.record id = .static module)
    (grown : module.requested = [] ∨ requested = module.requested)
    (open_ : module.status ≠ .linked) (begun : status ≠ .unlinked)
    (present : ∀ r ∈ requested.map Prod.snd, w.hasRecord r) {path' : List RecordId}
    (nodup : path'.Nodup)
    (linking : ∀ x, x ∈ path' ↔ if x = id then status = .linking else x ∈ path)
    (linked : status = .linked →
      (w.setRecord id (.static { module with status, requested })).Complete id
        { module with status, requested }) :
    (w.setRecord id (.static { module with status, requested })).Linkage path' := by
  have recorded := recorded_setRecord found status grown
  have here : (w.setRecord id (.static { module with status, requested })).record id =
      .static { module with status, requested } := record_setRecord_same found _
  have elsewhere {x : RecordId} (differs : x ≠ id) :
      (w.setRecord id (.static { module with status, requested })).record x = w.record x :=
    record_setRecord_other differs w _
  have on : LinksOn w (w.setRecord id (.static { module with status, requested })) := by
    intro x other other' before after
    by_cases same : x = id
    · subst same
      cases found.symm.trans before
      cases here.symm.trans after
      exact ⟨fun linked => absurd linked open_, fun _ => begun⟩
    · rw [elsewhere same, before] at after
      cases after
      exact ⟨fun h => h, fun h => h⟩
  refine ⟨fun x other after r member => ?_, fun x other after unlinked => ?_, fun x => ?_, nodup,
    fun x other after isLinked => ?_⟩
  all_goals by_cases same : x = id
  · subst same
    cases here.symm.trans after
    exact recorded.hasRecord r (present r member)
  · rw [elsewhere same] at after
    exact recorded.hasRecord r (h.present x other after r member)
  · subst same
    cases here.symm.trans after
    exact absurd unlinked begun
  · rw [elsewhere same] at after
    exact h.unlinked x other after unlinked
  · rw [linking, if_pos same, same, IsLinking, here]
    simp
  · rw [linking, if_neg same, ← h.linking, IsLinking, IsLinking, elsewhere same]
  · subst same
    cases here.symm.trans after
    exact linked isLinked
  · rw [elsewhere same] at after
    exact (h.linked x other after isLinked).recorded recorded h.present (h.present x other after) on

/-- What else code does keeps the linkage: a static module that is new is unlinked. -/
theorem edits (h : w.Linkage path) (edits : Edits w w') : w'.Linkage path := by
  have recorded := edits.links.recorded h.unlinked
  have on : LinksOn w w' := by
    intro x other other' before after
    cases (edits.static before).symm.trans after
    exact ⟨fun h => h, fun h => h⟩
  refine ⟨fun x module found r member => ?_, fun x module found unlinked => ?_, fun x => ?_, h.nodup,
    fun x module found linked => ?_⟩
  · rcases edits.static_cases found with before | ⟨_, _, nothing⟩
    · exact recorded.hasRecord r (h.present x module before r member)
    · simp [nothing] at member
  · rcases edits.static_cases found with before | ⟨_, _, nothing⟩
    · exact h.unlinked x module before unlinked
    · exact nothing
  · rw [← h.linking]
    constructor
    · rintro ⟨module, found, linking⟩
      rcases edits.static_cases found with before | ⟨_, unlinked, _⟩
      · exact ⟨module, before, linking⟩
      · simp [unlinked] at linking
    · rintro ⟨module, found, linking⟩
      exact ⟨module, edits.static found, linking⟩
  · rcases edits.static_cases found with before | ⟨_, unlinked, _⟩
    · exact (h.linked x module before linked).recorded recorded h.present (h.present x module before)
        on
    · simp [unlinked] at linked

/-- The path is no longer than there are records. -/
theorem length_le (h : w.Linkage path) : path.length ≤ w.records.size := by
  have sub : path ⊆ w.recordIds := fun x member => by
    obtain ⟨module, found, _⟩ := (h.linking x).mpr member
    exact mem_recordIds.mpr (hasRecord_of_static found)
  simpa [recordIds] using List.Nodup.length_le_of_subset h.nodup sub

/-- A module that was unlinked comes onto the path. -/
theorem enter (h : w.Linkage path) (found : w.record id = .static module)
    (unlinked : module.status = .unlinked) :
    (w.setRecord id (.static { module with status := .linking })).Linkage (id :: path) := by
  have outside : id ∉ path := by
    rw [← h.linking]
    rintro ⟨module', found', linking⟩
    cases found.symm.trans found'
    simp [unlinked] at linking
  refine h.setRecord found (.inr rfl) (by simp [unlinked]) (by simp) (h.present id module found)
    (List.nodup_cons.mpr ⟨outside, h.nodup⟩) (fun x => ?_) fun linked => by cases linked
  by_cases same : x = id <;> simp [same]

/-- The module on top of the path records what it requests. -/
theorem ask (h : w.Linkage (id :: path)) (found : w.record id = .static module)
    (linking : module.status = .linking) (nothing : module.requested = [])
    (present : ∀ r ∈ requested.map Prod.snd, w.hasRecord r) :
    (w.setRecord id (.static { module with requested })).Linkage (id :: path) := by
  refine h.setRecord found (.inl nothing) (by simp [linking]) (by simp [linking]) present h.nodup
    (fun x => ?_) fun linked => by simp [linking] at linked
  by_cases same : x = id <;> simp [same, linking]

/-- The module on top of the path leaves it, linked if it was checked and the path leads to it. -/
theorem leave (h : w.Linkage (id :: path)) (found : w.record id = .static module)
    (status : LinkStatus) (ended : status ≠ .linking) (begun : status ≠ .unlinked)
    (linked : status = .linked → (∀ x ∈ path, w.LeadsTo x id) ∧ w.Checked id module) :
    (w.setRecord id (.static { module with status })).Linkage path := by
  obtain ⟨outside, nodup⟩ := List.nodup_cons.mp h.nodup
  have linking : module.status = .linking := by
    obtain ⟨module', found', linking⟩ := (h.linking id).mpr List.mem_cons_self
    cases found.symm.trans found'
    exact linking
  refine h.setRecord found (.inr rfl) (by simp [linking]) begun (h.present id module found) nodup
    (fun x => ?_) fun isLinked => ?_
  · by_cases same : x = id <;> simp [same, outside, ended]
  · obtain ⟨leads, checked⟩ := linked isLinked
    have recorded : Recorded w (w.setRecord id (.static { module with status })) :=
      recorded_setRecord found status (.inr rfl)
    have present := h.present id module found
    refine ⟨checked.asked, fun r member other after => ?_, fun target name imported => ?_⟩
    · by_cases same : r = id
      · subst same
        cases (record_setRecord_same found _).symm.trans after
        exact .inl isLinked
      · rw [record_setRecord_other same] at after
        refine (checked.settling r member other after).imp_right fun linking => ?_
        have onPath := (h.linking r).mp ⟨other, after, linking⟩
        exact ⟨by simp [linking],
          recorded.leadsTo (leads r (List.mem_of_ne_of_mem same onPath))⟩
    · exact recorded.provided h.present present checked.provided imported

end Linkage
end World
end ModuleGraph
