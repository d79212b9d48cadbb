import ModuleGraph.Proofs.Linkage

/-!
Walks that link. A walk links depth first and has the modules that it is in the middle of on its
path. It ends with its record linked, or on the path, or it fails: for an error that is not about
names, or since a module misses a name that it imports, of a graph that is only partly recorded.
-/
namespace ModuleGraph
open Relation World

namespace World
variable {w w' : World} {id r : RecordId} {module : StaticModule} {path : List RecordId}
  {foreign : ModuleError → Prop} {error : ModuleError}

/-! ### Names that are missing -/

/-- Static modules have failed for errors of another kind only. -/
def Calm (foreign : ModuleError → Prop) (w : World) : Prop :=
  ∀ x module error, w.record x = .static module → module.status = .failed error → foreign error

theorem Calm.edits (h : w.Calm foreign) (edits : Edits w w') : w'.Calm foreign := by
  intro x module error found failed
  rcases edits.static_cases found with before | ⟨_, unlinked, _⟩
  · exact h x module error before failed
  · simp [unlinked] at failed

theorem Calm.setRecord (h : w.Calm foreign) (found : w.record id = .static module)
    {module' : StaticModule} (well : ∀ error, module'.status ≠ .failed error) :
    (w.setRecord id (.static module')).Calm foreign := by
  intro x other error after failed
  by_cases same : x = id
  · subst same
    cases (record_setRecord_same found _).symm.trans after
    exact absurd failed (well error)
  · rw [record_setRecord_other same] at after
    exact h x other error after failed

/-- A module misses a name that it imports, when all that it requests has begun to link. What has
failed by then, but for errors of another kind, leads to it. -/
structure Misses (foreign : ModuleError → Prop) (w : World) (id : RecordId) (module : StaticModule)
    (target : RecordId) (name : String) : Prop where
  found : w.record id = .static module
  asked : module.requested.map Prod.fst = module.declarations.requestedSpecifiers
  begun : ∀ r ∈ module.requested.map Prod.snd, ∀ other, w.record r = .static other →
    other.status ≠ .unlinked
  imported : w.Imported module.requested module.declarations.imports target name
  missing : ¬ w.Provides name target
  failures : ∀ x other error, w.record x = .static other → other.status = .failed error →
    foreign error ∨ w.LeadsTo x id

/-- A record leads to a module that misses a name, which the error tells. -/
def Fault (foreign : ModuleError → Prop) (w : World) (id : RecordId) (error : ModuleError) : Prop :=
  ∃ m module target name, w.LeadsTo id m ∧ Misses foreign w m module target name ∧
    error = .missingExport (w.describe target) name

theorem Fault.ahead (h : Fault foreign w r error) (leads : w.LeadsTo id r) :
    Fault foreign w id error := by
  obtain ⟨m, module, target, name, path, misses, same⟩ := h
  exact ⟨m, module, target, name, leads.trans path, misses, same⟩

/-- To give a static module another status takes back nothing of what is recorded. -/
theorem recorded_of_status (found : w.record id = .static module) (status : LinkStatus) :
    Recorded (w.setRecord id (.static { module with status })) w where
  hasRecord other present := by simpa [World.hasRecord, World.setRecord] using present
  static other module' found' := by
    by_cases same : other = id
    · subst same
      cases (record_setRecord_same found _).symm.trans found'
      exact ⟨module.status, module.requested, found, .inr rfl⟩
    · rw [record_setRecord_other same] at found'
      exact ⟨module'.status, module'.requested, found', .inr rfl⟩
  other other _ differs := by
    by_cases same : other = id
    · subst same
      exact absurd (record_setRecord_same found _) (differs _)
    · rwa [record_setRecord_other same] at differs

theorem Recorded.describe (h : Recorded w w') (found : w.record id = .static module) :
    w'.describe id = w.describe id := by
  obtain ⟨_, _, found', _⟩ := h.static id module found
  simp [World.describe, found, found', Record.location?]

/-- The reason for a failure stays when modules on the way to it fail with it. -/
theorem Fault.fails (h : Fault foreign w id error) (linkage : w.Linkage path)
    (found : w.record id = .static module) {status : LinkStatus} (begun : status ≠ .unlinked)
    {path' : List RecordId}
    (linkage' : (w.setRecord id (.static { module with status })).Linkage path') :
    Fault foreign (w.setRecord id (.static { module with status })) id error := by
  obtain ⟨m, module', target, name, leads, misses, rfl⟩ := h
  have recorded : Recorded w (w.setRecord id (.static { module with status })) :=
    recorded_setRecord found status (.inr rfl)
  have back := recorded_of_status found status
  have present := linkage.present m module' misses.found
  obtain ⟨status', found'⟩ : ∃ status', (w.setRecord id (.static { module with status })).record m =
      .static { module' with status := status' } := by
    by_cases same : m = id
    · subst same
      cases found.symm.trans misses.found
      exact ⟨status, record_setRecord_same found _⟩
    · exact ⟨module'.status, by rw [record_setRecord_other same, misses.found]⟩
  obtain ⟨statement, member, lookup, isStatic, named⟩ := misses.imported
  obtain ⟨targetModule, isStatic⟩ := kind_eq_static.mp isStatic
  refine ⟨m, { module' with status := status' }, target, name, recorded.leadsTo leads,
    ⟨found', misses.asked, fun r member other after => ?_, ?_, fun provides => ?_,
      fun x other error after failed => ?_⟩, by rw [recorded.describe isStatic]⟩
  · by_cases same : r = id
    · subst same
      cases (record_setRecord_same found _).symm.trans after
      exact begun
    · rw [record_setRecord_other same] at after
      exact misses.begun r member other after
  · exact back.imported (fun r member => recorded.hasRecord r (present r member)) misses.imported
  · exact misses.missing (back.provides linkage'.present
      (recorded.hasRecord _ (present _ (mem_of_lookup lookup))) provides)
  · by_cases same : x = id
    · subst same
      exact .inr (recorded.leadsTo leads)
    · rw [record_setRecord_other same] at after
      exact (misses.failures x other error after failed).imp_right recorded.leadsTo

end World

/-! ### Walks -/

/-- What linking needs to know of the world and of what it asks for. -/
structure LinkSetting (embedding : Embedding) (known : World → Prop)
    (foreign : ModuleError → Prop) : Prop where
  status : ∀ w id module status, known w → w.record id = .static module →
    known (w.setRecord id (.static { module with status }))
  ask : ∀ w id module, known w → w.record id = .static module →
    Attempt.Meets (fun _ => False) (fun error w' => known w' ∧ foreign error)
      (embedding.importAll module.importer id module.declarations.requestedSpecifiers)
      (fun requested w' => requested.map Prod.fst = module.declarations.requestedSpecifiers ∧
        (∀ r ∈ requested.map Prod.snd, w'.hasRecord r) ∧
        ∀ status, known (w'.setRecord id (.static { module with status, requested }))) w
  custom : ∀ w id module error, known w → w.record id = .custom module →
    module.link = .error error → foreign error

/-- What holds when a walk goes on. -/
structure LinkHolds (known : World → Prop) (foreign : ModuleError → Prop) (path : List RecordId)
    (w : World) : Prop where
  known : known w
  linkage : w.Linkage path
  calm : w.Calm foreign

/-- What holds when a walk fails to link a record. -/
structure LinkFails (known : World → Prop) (foreign : ModuleError → Prop) (path : List RecordId)
    (id : RecordId) (error : ModuleError) (w : World) : Prop where
  known : known w
  linkage : w.Linkage path
  reason : foreign error ∨ Fault foreign w id error

namespace Embedding
variable {embedding : Embedding} {known : World → Prop} {foreign : ModuleError → Prop} {w : World}
  {path : List RecordId} {id : RecordId} {module : StaticModule} {depth : Nat}

/-- What linking a record comes to while others are on the path and lead to it. -/
def LinksFrom (known : World → Prop) (foreign : ModuleError → Prop) (depth : Nat)
    (link : RecordId → Attempt Unit) (path : List RecordId) : Prop :=
  ∀ id w, LinkHolds known foreign path w → (∀ x ∈ path, w.LeadsTo x id) →
    Attempt.Meets (fun w' => known w' ∧ depth + path.length ≤ w'.records.size)
      (LinkFails known foreign path id) (link id)
      (fun _ w' => LinkHolds known foreign path w' ∧ w'.Settling id) w

theorem meets_linkAll {link : RecordId → Attempt Unit}
    (spec : LinksFrom known foreign depth link path)
    (links : ∀ id, Attempt.Keeps World.Links (link id)) (h : LinkHolds known foreign path w)
    (leads : ∀ x ∈ path, w.LeadsTo x id) (ids : List RecordId) (present : ∀ r ∈ ids, w.hasRecord r)
    (asks : ∀ r ∈ ids, w.Asks id r) :
    Attempt.Meets (fun w' => known w' ∧ depth + path.length ≤ w'.records.size)
      (LinkFails known foreign path id) (linkAll link ids)
      (fun _ w' => LinkHolds known foreign path w' ∧ Links w w' ∧ ∀ r ∈ ids, w'.Settling r) w := by
  induction ids generalizing w with
  | nil => exact ⟨h, refl w, by simp⟩
  | cons r rest ih =>
    obtain ⟨here, present⟩ := List.forall_mem_cons.mp present
    obtain ⟨asksHere, asks⟩ := List.forall_mem_cons.mp asks
    rw [linkAll, Attempt.meets_bind]
    refine ((spec r w h fun x member => (leads x member).tail asksHere).and
      ((links r).meets w)).imp (fun _ h => h.1) (fun error w₁ h₁ => ?_) fun _ w₁ h₁ => ?_
    all_goals have recorded := h₁.2.recorded h.linkage.unlinked
    · exact ⟨h₁.1.known, h₁.1.linkage,
        h₁.1.reason.imp_right fun fault => fault.ahead (.single (recorded.asks asksHere))⟩
    · obtain ⟨⟨h₁, settling⟩, steps⟩ := h₁
      refine (ih h₁ (fun x member => recorded.leadsTo (leads x member))
        (fun r member => recorded.hasRecord r (present r member))
        fun r member => recorded.asks (asks r member)).mono fun _ w₂ h₂ => ?_
      obtain ⟨h₂, steps', settled⟩ := h₂
      refine ⟨h₂, IsTrans.trans _ _ _ steps steps', List.forall_mem_cons.mpr ⟨?_, settled⟩⟩
      exact steps'.settling (recorded.hasRecord r here) settling

theorem meets_linkStatic_spec (setting : LinkSetting embedding known foreign)
    {link : RecordId → Attempt Unit} (spec : LinksFrom known foreign depth link (id :: path))
    (links : ∀ id, Attempt.Keeps World.Links (link id))
    (h : LinkHolds known foreign (id :: path) w) (found : w.record id = .static module)
    (nothing : module.requested = []) (leads : ∀ x ∈ path, w.LeadsTo x id) :
    Attempt.Meets (fun w' => known w' ∧ depth + (path.length + 1) ≤ w'.records.size)
      (fun error w' => LinkFails known foreign (id :: path) id error w' ∧
        ∃ requested, w'.record id = .static { module with requested })
      (embedding.linkStatic link id module)
      (fun _ w' => LinkHolds known foreign (id :: path) w' ∧ (∀ x ∈ path, w'.LeadsTo x id) ∧
        ∃ requested, w'.record id = .static { module with requested } ∧
          Checked w' id { module with requested }) w := by
  have linking : module.status = .linking := by
    obtain ⟨module', found', linking⟩ := (h.linkage.linking id).mpr List.mem_cons_self
    cases found.symm.trans found'
    exact linking
  unfold linkStatic
  rw [Attempt.meets_bind]
  refine ((setting.ask w id module h.known found).and
    ((embedding.keeps_importAll module.importer id _).meets w)).imp (fun _ h => h.1.elim)
    (fun error w₁ h₁ => ?_) fun requested w₁ h₁ => ?_
  · obtain ⟨⟨known₁, isForeign⟩, edits⟩ := h₁
    exact ⟨⟨known₁, h.linkage.edits edits, .inl isForeign⟩, module.requested, edits.static found⟩
  obtain ⟨⟨asked, present, known₁⟩, edits⟩ := h₁
  have found₁ := edits.static found
  have linkage₁ := h.linkage.edits edits
  have recorded₁ := edits.links.recorded h.linkage.unlinked
  -- The requests are recorded.
  have recorded₂ : Recorded w₁ (w₁.setRecord id (.static { module with requested })) :=
    recorded_setRecord found₁ module.status (.inl nothing)
  have found₂ := record_setRecord_same found₁ (.static { module with requested })
  have linkage₂ := linkage₁.ask found₁ linking nothing present
  have h₂ : LinkHolds known foreign (id :: path) _ := ⟨known₁ module.status, linkage₂,
    (h.calm.edits edits).setRecord found₁ (by simp [linking])⟩
  rw [Attempt.meets_bind, meets_modifyStatic found₁, Attempt.meets_bind]
  have leads₂ : ∀ x ∈ path, World.LeadsTo _ x id := fun x member =>
    recorded₂.leadsTo (recorded₁.leadsTo (leads x member))
  refine ((meets_linkAll spec links h₂ (List.forall_mem_cons.mpr ⟨.refl, leads₂⟩)
    (requested.map Prod.snd) (fun r member => recorded₂.hasRecord r (present r member))
    fun r member => ⟨_, found₂, member⟩).and ((keeps_linkAll links _).meets _)).imp
    (fun _ h => h.1) (fun error w₃ h₃ => ?_) fun _ w₃ h₃ => ?_
  all_goals have found₃ := h₃.2.begun id _ found₂ (by simp [linking])
  · exact ⟨h₃.1, requested, found₃⟩
  obtain ⟨⟨h₃, steps, settling⟩, _⟩ := h₃
  have recorded₃ := steps.recorded linkage₂.unlinked
  rw [Attempt.meets_bind, Attempt.meets_get]
  have judged := judged_checkImports w₃ requested module.declarations.imports
  generalize checkImports w₃ requested module.declarations.imports = outcome at judged ⊢
  cases judged with
  | passes provided =>
    exact ⟨h₃, fun x member => recorded₃.leadsTo (leads₂ x member), requested, found₃, asked,
      settling, provided⟩
  | @fails target name imported missing =>
    refine ⟨⟨h₃.known, h₃.linkage, .inr ⟨id, _, target, name, .refl, ⟨found₃, asked,
      fun r member other found => ?_, imported, missing, fun x other error found failed =>
        .inl (h₃.calm x other error found failed)⟩, rfl⟩⟩, requested, found₃⟩
    rcases settling r member other found with status | status <;> simp [status]

/-- Linking a record from a path that leads to it. -/
theorem meets_link (setting : LinkSetting embedding known foreign) (depth : Nat)
    (path : List RecordId) : LinksFrom known foreign depth (embedding.link depth) path := by
  induction depth generalizing path with
  | zero =>
    intro id w h _
    have stuck : known w ∧ 0 + path.length ≤ w.records.size :=
      ⟨h.known, by simpa using h.linkage.length_le⟩
    exact stuck
  | succ depth ih =>
    intro id w h leads
    unfold link
    rw [Attempt.meets_bind, Attempt.meets_get]
    split
    · rename_i module found
      split
      · rename_i linked
        exact ⟨h, fun module' found' => by cases found.symm.trans found'; exact .inl linked⟩
      · rename_i linking
        exact ⟨h, fun module' found' => by cases found.symm.trans found'; exact .inr linking⟩
      · rename_i error failed
        exact ⟨h.known, h.linkage, .inl (h.calm id module error found failed)⟩
      · rename_i unlinked
        have nothing := h.linkage.unlinked id module found unlinked
        have begun := h.linkage.enter found unlinked
        have recorded : Recorded w (w.setRecord id (.static { module with status := .linking })) :=
          recorded_setRecord found .linking (.inr rfl)
        have h₁ : LinkHolds known foreign (id :: path) _ :=
          ⟨setting.status w id module .linking h.known found, begun, h.calm.setRecord found (by simp)⟩
        have linked : Attempt.Meets _ _
            (embedding.linkStatic (embedding.link depth) id { module with status := .linking }) _ _ :=
          meets_linkStatic_spec setting (ih (id :: path)) (embedding.keeps_link depth) h₁
            (record_setRecord_same found _) nothing fun x member => recorded.leadsTo (leads x member)
        rw [Attempt.meets_bind, meets_modifyStatic found, Attempt.meets_bind, Attempt.meets_outcome]
        refine linked.imp (fun w' h' => ⟨h'.1, ?_⟩) (fun error w₁ h' => ?_) fun _ w₁ h' => ?_
        · have deep := h'.2
          simp only [Nat.add_assoc, Nat.add_comm 1] at deep ⊢
          exact deep
        · obtain ⟨⟨known₁, linkage₁, reason⟩, requested, found₁⟩ := h'
          have left := linkage₁.leave found₁ (.failed error) (by simp) (by simp) fun h => by cases h
          rw [Attempt.meets_bind, meets_modifyStatic found₁]
          exact ⟨setting.status w₁ id _ (.failed error) known₁ found₁, left,
            reason.imp_right fun fault => fault.fails linkage₁ found₁ (by simp) left⟩
        · obtain ⟨⟨known₁, linkage₁, calm⟩, leads₁, requested, found₁, checked⟩ := h'
          have left := linkage₁.leave found₁ .linked (by simp) (by simp) fun _ => ⟨leads₁, checked⟩
          rw [meets_modifyStatic found₁]
          refine ⟨⟨setting.status w₁ id _ .linked known₁ found₁, left,
            calm.setRecord found₁ (by simp)⟩, fun module' found' => .inl ?_⟩
          cases (record_setRecord_same found₁ _).symm.trans found'
          rfl
    · rename_i module found
      split
      · exact ⟨h, fun module' found' => by cases found.symm.trans found'⟩
      · rename_i error fails
        exact ⟨h.known, h.linkage, .inl (setting.custom w id module error h.known found fails)⟩
    · rename_i notStatic _
      exact ⟨h, fun module' found' => absurd found' (notStatic module')⟩

end Embedding
end ModuleGraph
