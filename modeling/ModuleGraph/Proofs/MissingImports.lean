import ModuleGraph.Proofs.LinkedGraphs

/-!
Imports that are missing. In a graph of unlinked modules, all of whose specifiers stand for records,
linking rejects a module that a name is missing for. It judges by the requests that are recorded by
then, so it can also reject a name that is provided, but only one from a module on a cycle with the
one that imports it.
-/
namespace ModuleGraph
open Relation World

/-! ### The resolved graph -/

namespace World
variable {w₀ w w' : World} {target : RecordId → String → RecordId} {id a b m root t x : RecordId}
  {name : String} {module : StaticModule} {status : LinkStatus}
  {requested : List (String × RecordId)}

/-- All that a module requests, with the records that its specifiers stand for. -/
def requests (target : RecordId → String → RecordId) (id : RecordId) (module : StaticModule) :
    List (String × RecordId) :=
  module.declarations.requestedSpecifiers.map fun specifier => (specifier, target id specifier)

/-- The world in which every static module has recorded all that it requests. -/
def resolved (w : World) (target : RecordId → String → RecordId) : World :=
  { w with records := w.records.mapIdx fun index record =>
      match record with
      | .static module => .static { module with requested := requests target ⟨index⟩ module }
      | record => record }

theorem map_fst_requests : (requests target id module).map Prod.fst =
    module.declarations.requestedSpecifiers := by
  simp [requests, Function.comp_def]

theorem record_resolved (w : World) (target : RecordId → String → RecordId) (id : RecordId) :
    (w.resolved target).record id =
      match w.record id with
      | .static module => .static { module with requested := requests target id module }
      | record => record := by
  obtain ⟨index⟩ := id
  by_cases bound : index < w.records.size
  · simp [World.record, resolved, bound]
  · simp [World.record, resolved, bound]

theorem static_of_resolved (found : (w.resolved target).record id = .static module) :
    ∃ module₀, w.record id = .static module₀ ∧
      module = { module₀ with requested := requests target id module₀ } := by
  rw [record_resolved] at found
  split at found
  · rename_i module₀ found₀
    cases found
    exact ⟨module₀, found₀, rfl⟩
  · rename_i differs
    exact absurd found (differs module)

/-- A static module imports a name, as its default or under a name, from a static module. -/
def Wants (w : World) (a b : RecordId) (name : String) : Prop :=
  ∃ module, w.record a = .static module ∧
    w.Imported module.requested module.declarations.imports b name

/-- A module that a record leads to imports a name that is not provided. -/
def LacksImport (w : World) (root : RecordId) : Prop :=
  ∃ m t name, w.LeadsTo root m ∧ w.Wants m t name ∧ ¬ w.Provides name t

/-- A world that has come from one of unlinked modules, where specifiers stand for records, by
linking alone. -/
structure Resolving (w₀ : World) (target : RecordId → String → RecordId) (w : World) : Prop where
  recalls : Recalls w₀ w
  size : w.records.size = w₀.records.size
  static : ∀ id module, w₀.record id = .static module → ∃ status requested,
    w.record id = .static { module with status, requested } ∧
      (requested = [] ∨ requested = requests target id module)
  other : ∀ id, (∀ module, w₀.record id ≠ .static module) → w.record id = w₀.record id

namespace Resolving

theorem refl (unlinked : w₀.Unlinked) : w₀.Resolving target w₀ where
  recalls := ⟨rfl, rfl, rfl, rfl⟩
  size := rfl
  static id module found := ⟨module.status, module.requested, found, .inl (unlinked id module found).2⟩
  other _ _ := rfl

theorem hasRecord_iff (h : w₀.Resolving target w) : w.hasRecord id ↔ w₀.hasRecord id := by
  simp [World.hasRecord, h.size]

/-- A static module is what it was, but for its status and its requests. -/
theorem static_of (h : w₀.Resolving target w) (found : w.record id = .static module) :
    ∃ module₀, w₀.record id = .static module₀ ∧
      module = { module₀ with status := module.status, requested := module.requested } ∧
      (module.requested = [] ∨ module.requested = requests target id module₀) := by
  by_cases isStatic : ∃ module₀, w₀.record id = .static module₀
  · obtain ⟨module₀, found₀⟩ := isStatic
    obtain ⟨status, requested, found', either⟩ := h.static id module₀ found₀
    cases found.symm.trans found'
    exact ⟨module₀, found₀, rfl, either⟩
  · rw [h.other id fun module₀ found₀ => isStatic ⟨module₀, found₀⟩] at found
    exact absurd ⟨module, found⟩ isStatic

theorem write (h : w₀.Resolving target w) (event : Event) : w₀.Resolving target (w.write event) :=
  ⟨⟨h.recalls.cache, h.recalls.locations, h.recalls.hasResolver, h.recalls.table⟩, h.size, h.static,
    h.other⟩

theorem setRecord (h : w₀.Resolving target w) (found : w₀.record id = .static module)
    (status : LinkStatus) (either : requested = [] ∨ requested = requests target id module) :
    w₀.Resolving target (w.setRecord id (.static { module with status, requested })) where
  recalls := ⟨h.recalls.cache, h.recalls.locations, h.recalls.hasResolver, h.recalls.table⟩
  size := by simpa [World.setRecord] using h.size
  static other module' found' := by
    by_cases same : other = id
    · subst same
      cases found.symm.trans found'
      obtain ⟨_, _, here, _⟩ := h.static other module found
      exact ⟨status, requested, record_setRecord_same here _, either⟩
    · rw [record_setRecord_other same]
      exact h.static other module' found'
  other other differs := by
    rw [record_setRecord_other fun same : other = id => differs module (same ▸ found)]
    exact h.other other differs

/-- What is recorded is recorded in the resolved world too. -/
theorem recorded (h : w₀.Resolving target w) : Recorded w (w₀.resolved target) where
  hasRecord id present := by simpa [World.hasRecord, resolved, h.size] using present
  static id module found := by
    obtain ⟨module₀, found₀, same, either⟩ := h.static_of found
    refine ⟨module₀.status, requests target id module₀, ?_, either.imp_right Eq.symm⟩
    rw [record_resolved, found₀, same]
  other id _ differs module found := by
    obtain ⟨module₀, found₀, _⟩ := static_of_resolved found
    obtain ⟨_, _, found', _⟩ := h.static id module₀ found₀
    exact differs _ found'

theorem static_of_resolved (h : w₀.Resolving target w)
    (found : (w₀.resolved target).record id = .static module) :
    ∃ module, w.record id = .static module := by
  obtain ⟨module₀, found₀, _⟩ := World.static_of_resolved found
  obtain ⟨_, _, found', _⟩ := h.static id module₀ found₀
  exact ⟨_, found'⟩

/-- A module that has recorded all its requests is in the resolved world what it is. -/
theorem record_resolved (h : w₀.Resolving target w) (found : w.record id = .static module)
    (asked : module.requested.map Prod.fst = module.declarations.requestedSpecifiers) :
    ∃ status, (w₀.resolved target).record id = .static { module with status } := by
  obtain ⟨module₀, found₀, same, either⟩ := h.static_of found
  have all : module.requested = requests target id module₀ := by
    refine either.elim (fun nothing => ?_) fun h => h
    rw [nothing] at asked ⊢
    rw [same] at asked
    exact (List.map_eq_nil_iff.mpr asked.symm).symm
  refine ⟨module₀.status, ?_⟩
  rw [World.record_resolved, found₀]
  dsimp only
  rw [← all, same]

theorem wants (h : w₀.Resolving target w) (wants : w.Wants m t name)
    (asked : ∀ module, w.record m = .static module →
      module.requested.map Prod.fst = module.declarations.requestedSpecifiers) :
    (w₀.resolved target).Wants m t name := by
  obtain ⟨module, found, statement, member, lookup, isStatic, named⟩ := wants
  obtain ⟨status, full⟩ := h.record_resolved found (asked module found)
  obtain ⟨other, foundOther⟩ := kind_eq_static.mp isStatic
  obtain ⟨_, _, fullOther, _⟩ := h.recorded.static t other foundOther
  exact ⟨_, full, statement, member, lookup, kind_eq_static.mpr ⟨_, fullOther⟩, named⟩

/-! #### Success -/

/-- When nothing links any more and nothing has failed, then a module that settles is linked. -/
theorem linked_of_settling (holds : LinkHolds (w₀.Resolving target) (fun _ => False) [] w)
    (settling : w.Settling x) (found : w.record x = .static module) : module.status = .linked :=
  (settling module found).resolve_right fun linking =>
    List.not_mem_nil ((holds.linkage.linking x).mp ⟨module, found, linking⟩)

theorem settling_of_leadsTo (holds : LinkHolds (w₀.Resolving target) (fun _ => False) [] w)
    (settling : w.Settling root) (path : (w₀.resolved target).LeadsTo root x) : w.Settling x := by
  induction path with
  | refl => exact settling
  | @tail a b _ asks ih =>
    obtain ⟨full, foundFull, member⟩ := asks
    obtain ⟨module, found⟩ := holds.known.static_of_resolved foundFull
    have linked := linked_of_settling holds ih found
    obtain ⟨status, full'⟩ := holds.known.record_resolved found
      (holds.linkage.linked a module found linked).asked
    cases foundFull.symm.trans full'
    intro other foundOther
    rcases holds.linkage.linked_or_failed ⟨module, found, linked⟩ ⟨module, found, member⟩
      (kind_eq_static.mpr ⟨other, foundOther⟩) with ⟨next, foundNext, linked⟩ | ⟨failed, _⟩
    · cases foundOther.symm.trans foundNext
      exact .inl linked
    · obtain ⟨next, error, foundNext, failed⟩ := failed
      exact (holds.calm b next error foundNext failed).elim

/-- When a record has been linked, no import is missing in what it leads to. -/
theorem not_lacksImport (holds : LinkHolds (w₀.Resolving target) (fun _ => False) [] w)
    (settling : w.Settling root) : ¬ (w₀.resolved target).LacksImport root := by
  rintro ⟨m, t, name, path, ⟨full, foundFull, imported⟩, missing⟩
  have settled := settling_of_leadsTo holds settling path
  obtain ⟨module, found⟩ := holds.known.static_of_resolved foundFull
  have complete := holds.linkage.linked m module found (linked_of_settling holds settled found)
  obtain ⟨status, full'⟩ := holds.known.record_resolved found complete.asked
  cases foundFull.symm.trans full'
  exact missing (holds.known.recorded.provided holds.linkage.present
    (holds.linkage.present m module found) complete.provided imported)

/-! #### Failure -/

/-- A name that is missing as far as requests are recorded is provided in the resolved world only if
the module that lacks it can be reached from the one that should provide it. -/
theorem leads_back (h : w₀.Resolving target w) (linkage : w.Linkage [])
    (misses : Misses (fun _ => False) w m module t name)
    (provided : (w₀.resolved target).Provides name t) : (w₀.resolved target).LeadsTo t m := by
  by_contra apart
  obtain ⟨p, path, gives⟩ := provided
  have begun : ∀ other, w.record t = .static other → other.status ≠ .unlinked := by
    obtain ⟨_, _, lookup, _⟩ := misses.imported
    exact misses.begun t (mem_of_lookup lookup)
  -- Every module on the way has begun to link and cannot have failed, so it is linked, and the next
  -- one on the way has begun as well.
  have way (x : RecordId) (path : ReflTransGen ((w₀.resolved target).Forwards name) t x) :
      ReflTransGen (w.Forwards name) t x ∧
        ∀ other, w.record x = .static other → other.status ≠ .unlinked := by
    induction path with
    | refl => exact ⟨.refl, begun⟩
    | @tail a b before forwards ih =>
      obtain ⟨recorded, begun⟩ := ih
      obtain ⟨notDefault, full, foundFull, member⟩ := forwards
      obtain ⟨other, found⟩ := h.static_of_resolved foundFull
      cases status : other.status with
      | unlinked => exact absurd status (begun other found)
      | linking =>
        exact absurd ((linkage.linking a).mp ⟨other, found, status⟩) List.not_mem_nil
      | failed error =>
        refine absurd ?_ apart
        have back := (misses.failures a other error found status).resolve_left fun h => h
        exact (ReflTransGen.mono (fun _ _ => Forwards.asks) _ _ before).trans
          (h.recorded.leadsTo back)
      | linked =>
        have complete := linkage.linked a other found status
        obtain ⟨_, full'⟩ := h.record_resolved found complete.asked
        cases foundFull.symm.trans full'
        have forwards : w.Forwards name a b := ⟨notDefault, other, found, member⟩
        refine ⟨recorded.tail forwards, fun next foundNext => ?_⟩
        obtain ⟨_, found', member⟩ := forwards.asks
        cases found.symm.trans found'
        rcases complete.settled b member next foundNext with linked | still
        · simp [linked]
        · exact still.1
  refine misses.missing ⟨p, (way p path).1, fun other found => ?_⟩
  obtain ⟨_, _, full, _⟩ := h.recorded.static p other found
  have given := gives _ full
  exact given

end Resolving
end World

/-! ### Linking -/

/-- A graph of unlinked modules in which every requested specifier resolves to a record that is
there, and whatever else links does so as it should. -/
structure Resolvable (embedding : Embedding) (w₀ : World) (target : RecordId → String → RecordId) :
    Prop where
  named : w₀.Named
  unlinked : w₀.Unlinked
  resolves : ∀ id module, w₀.record id = .static module →
    ∀ specifier ∈ module.declarations.requestedSpecifiers,
      Embedding.Finds (embedding.importFor module.importer id specifier) w₀ (target id specifier)
  links : ∀ id module, w₀.record id = .custom module → module.link = .ok ()

namespace Embedding
variable {embedding : Embedding} {w₀ w : World} {target : RecordId → String → RecordId}
  {id : RecordId}

/-- All that a module asks for is found. -/
theorem meets_importAll_finds (importer : Importer) (id : RecordId) {specifiers : List String}
    (finds : ∀ specifier ∈ specifiers,
      Finds (embedding.importFor importer id specifier) w₀ (target id specifier))
    (h : w₀.Resolving target w) :
    Attempt.Meets (fun _ => False) (fun _ _ => False) (embedding.importAll importer id specifiers)
      (fun requested w' => requested = specifiers.map (fun specifier =>
        (specifier, target id specifier)) ∧ w₀.Resolving target w') w := by
  induction specifiers generalizing w with
  | nil => exact ⟨rfl, h⟩
  | cons specifier rest ih =>
    obtain ⟨here, others⟩ := List.forall_mem_cons.mp finds
    have asked := h.write (.asked id specifier)
    have found := embedding.recollects_importFor importer id specifier _ _ _ asked.recalls here
    unfold importAll
    rw [Attempt.meets_bind, Attempt.meets_lift, Action.meets_write, Attempt.meets_bind_of_ended found,
      Attempt.meets_bind]
    exact (ih others asked).mono fun requested w' h' =>
      ⟨congrArg ((specifier, target id specifier) :: ·) h'.1, h'.2⟩

end Embedding

namespace Resolvable
variable {embedding : Embedding} {w₀ : World} {target : RecordId → String → RecordId}
  (graph : Resolvable embedding w₀ target)
include graph

theorem present {id : RecordId} {module : StaticModule} (found : w₀.record id = .static module)
    {specifier : String} (requested : specifier ∈ module.declarations.requestedSpecifiers) :
    w₀.hasRecord (target id specifier) := by
  have answers := embedding.answers_importFor module.importer id specifier w₀ graph.named
  rw [Attempt.Meets, graph.resolves id module found specifier requested] at answers
  exact answers.2

theorem linkSetting : LinkSetting embedding (w₀.Resolving target) (fun _ => False) where
  status w id module status h found := by
    obtain ⟨module₀, found₀, same, either⟩ := h.static_of found
    rw [same]
    exact h.setRecord found₀ status either
  ask w id module h found := by
    obtain ⟨module₀, found₀, same, _⟩ := h.static_of found
    have asked := Embedding.meets_importAll_finds module₀.importer id
      (graph.resolves id module₀ found₀) h
    rw [same]
    refine asked.imp (fun _ h => h) (fun _ _ h => h.elim) fun requested w' h' => ?_
    obtain ⟨rfl, h'⟩ := h'
    refine ⟨map_fst_requests, fun r member => ?_, fun status => h'.setRecord found₀ status (.inr rfl)⟩
    obtain ⟨_, entry, rfl⟩ := List.mem_map.mp member
    obtain ⟨specifier, isRequested, rfl⟩ := List.mem_map.mp entry
    exact h'.hasRecord_iff.mpr (graph.present found₀ isRequested)
  custom w id module error h found fails := by
    have before : w₀.record id = .custom module := by
      by_cases isStatic : ∃ module₀, w₀.record id = .static module₀
      · obtain ⟨module₀, found₀⟩ := isStatic
        obtain ⟨_, _, found', _⟩ := h.static id module₀ found₀
        cases found.symm.trans found'
      · rwa [← h.other id fun module₀ found₀ => isStatic ⟨module₀, found₀⟩]
    rw [graph.links id module before] at fails
    cases fails

/-- Linking any record ends: well, if no import is missing in what it leads to, or else with the
error for a module that misses a name. -/
theorem link_cases (root : RecordId) {depth : Nat} (deep : w₀.records.size < depth) :
    (∃ w, (embedding.link depth root).run w₀ = .ok (.ok ()) w ∧
      ¬ (w₀.resolved target).LacksImport root) ∨
    ∃ w m module t name, (embedding.link depth root).run w₀ =
        .ok (.error (.missingExport (w₀.describe t) name)) w ∧ w₀.Resolving target w ∧
      w.Linkage [] ∧ w.LeadsTo root m ∧ Misses (fun _ => False) w m module t name := by
  have begin_ : LinkHolds (w₀.Resolving target) (fun _ => False) [] w₀ := by
    refine ⟨.refl graph.unlinked, graph.unlinked.linkage, fun x module error found failed => ?_⟩
    simp [(graph.unlinked x module found).1] at failed
  have meets : Attempt.Meets _ _ (embedding.link depth root) _ w₀ :=
    embedding.meets_link graph.linkSetting depth [] root w₀ begin_ fun _ member => nomatch member
  unfold Attempt.Meets at meets
  split at meets
  · rename_i w ended
    exact .inl ⟨w, ended, Resolving.not_lacksImport meets.1 meets.2⟩
  · rename_i error w ended
    obtain ⟨m, module, t, name, path, misses, rfl⟩ := meets.reason.resolve_left fun h => h
    obtain ⟨_, _, _, isStatic, _⟩ := misses.imported
    obtain ⟨other, found⟩ := kind_eq_static.mp isStatic
    have described : w.describe t = w₀.describe t := by
      obtain ⟨module₀, found₀, same, _⟩ := meets.known.static_of found
      rw [World.describe, World.describe, found, found₀, same]
      rfl
    rw [described] at ended
    exact .inr ⟨w, m, module, t, name, ended, meets.known, meets.linkage, path, misses⟩
  · have size := meets.1.size
    have stuck := meets.2
    simp only [List.length_nil] at stuck
    omega

end Resolvable

/-- In a graph of unlinked modules all of whose specifiers resolve, linking any record ends. When it
ends well, no import is missing in what the record leads to. Otherwise it has failed for an import
that is missing as far as requests were recorded by then; if the resolved graph provides the name,
then there is a cycle through the module that imports it and the one that it imports it from. So
without such cycles, linking fails exactly if an import is missing. -/
theorem rejected_iff_lacks_import_but_for_cycles (embedding : Embedding) (depth : Nat) (w₀ : World)
    (target : RecordId → String → RecordId) (root : RecordId)
    (graph : Resolvable embedding w₀ target) (deep : w₀.records.size < depth) :
    let full := w₀.resolved target
    ∃ outcome w, (embedding.link depth root).run w₀ = .ok outcome w ∧
      (outcome = .ok () ∧ ¬ full.LacksImport root ∨
        ∃ m t name, outcome = .error (.missingExport (w₀.describe t) name) ∧
          full.LeadsTo root m ∧ full.Wants m t name ∧ ¬ w.Provides name t ∧
          (full.Provides name t → full.LeadsTo t m)) ∧
      ((∀ m t name, full.LeadsTo root m → full.Wants m t name → ¬ full.LeadsTo t m) →
        ((∃ t name, outcome = .error (.missingExport (w₀.describe t) name)) ↔
          full.LacksImport root)) := by
  intro full
  rcases graph.link_cases root deep with ⟨w, ended, accepted⟩ |
    ⟨w, m, module, t, name, ended, known, linkage, path, misses⟩
  · refine ⟨_, w, ended, .inl ⟨rfl, accepted⟩, fun _ => ⟨fun ⟨_, _, rejected⟩ => ?_, fun lacks => ?_⟩⟩
    · cases rejected
    · exact absurd lacks accepted
  · have leads := known.recorded.leadsTo path
    have wants : full.Wants m t name := known.wants ⟨module, misses.found, misses.imported⟩
      fun other found => by cases misses.found.symm.trans found; exact misses.asked
    have back := known.leads_back linkage misses
    refine ⟨_, w, ended, .inr ⟨m, t, name, rfl, leads, wants, misses.missing, back⟩,
      fun acyclic => ⟨fun _ => ?_, fun _ => ⟨t, name, rfl⟩⟩⟩
    exact ⟨m, t, name, leads, wants, fun provided => acyclic m t name leads wants (back provided)⟩

/-- The record that a specifier stands for in `starsAhead`. -/
def starTarget (_ : RecordId) (specifier : String) : RecordId :=
  if specifier = "a" then ⟨0⟩ else if specifier = "b" then ⟨1⟩ else if specifier = "d" then ⟨2⟩ else ⟨3⟩

/-- Four modules: `a` imports `b` and exports what `d` exports, which exports what `e` exports, a
name that `b` imports from `a`. -/
def starsAhead : World where
  records := #[tableModule 'a' [⟨"b", []⟩] [.all "d"], tableModule 'b' [⟨"a", [.named "x" none]⟩],
    tableModule 'd' [] [.all "e"], tableModule 'e' [] [.named "x" none]]
  table id specifier := some (starTarget id specifier)

theorem resolvable_starsAhead : Resolvable .bare starsAhead starTarget where
  named.cached _ _ cached := by cases cached
  named.tabled _ specifier _ tabled := by
    cases tabled
    unfold starTarget
    split_ifs <;> rfl
  unlinked := unlinked_of_all _ (by cbv)
  resolves id module found specifier requested := by
    have importer : module.importer = .table := by
      simpa using static_of_all starsAhead (fun _ module => module.importer = .table) (by cbv) found
    rw [importer]
    rfl
  links id module found := by
    by_cases present : starsAhead.hasRecord id
    · have statics : starsAhead.recordIds.all (fun id => (starsAhead.record id).static?.isSome) = true :=
        by cbv
      have isStatic := List.all_eq_true.mp statics id (mem_recordIds.mpr present)
      rw [found] at isStatic
      cases isStatic
    · rw [record_of_not_hasRecord present] at found
      cases found
      rfl

/-- What each module of `starsAhead` imports is provided in the resolved world. -/
theorem not_lacksImport_starsAhead (root : RecordId) :
    ¬ (starsAhead.resolved starTarget).LacksImport root := by
  rintro ⟨m, t, name, _, ⟨module, found, imported⟩, missing⟩
  have passes := static_of_all (starsAhead.resolved starTarget) (fun _ module =>
    (Embedding.checkImports (starsAhead.resolved starTarget) module.requested
      module.declarations.imports).isOk) (by cbv) found
  have judged := Embedding.judged_checkImports (starsAhead.resolved starTarget) module.requested
    module.declarations.imports
  generalize Embedding.checkImports (starsAhead.resolved starTarget) module.requested
    module.declarations.imports = outcome at passes judged
  cases judged with
  | passes provided => exact missing (provided t name imported)
  | fails => cases passes

/-- Linking `a` fails, since `b` is checked before `d` has recorded that it requests `e`. -/
theorem link_starsAhead : ∃ w, (Embedding.bare.link 5 ⟨0⟩).run starsAhead =
    .ok (.error (.missingExport (starsAhead.describe ⟨0⟩) "x")) w := by
  have computed : (Embedding.bare.link 5 ⟨0⟩).run.ends starsAhead (fun outcome _ =>
      match outcome with
      | .ok _ => false
      | .error error => error = .missingExport (starsAhead.describe ⟨0⟩) "x") = true := by
    cbv
  obtain ⟨outcome, w, ended, computed⟩ := Action.exists_of_ends computed
  cases outcome with
  | ok => cases computed
  | error error => exact ⟨w, by rw [ended, of_decide_eq_true computed]⟩

/-- So linking can fail though no import is missing. -/
theorem not_rejected_iff_lacks_import :
    ¬ ∀ (embedding : Embedding) (depth : Nat) (w₀ : World) (target : RecordId → String → RecordId)
        (root : RecordId), Resolvable embedding w₀ target → w₀.records.size < depth →
      ∃ outcome w, (embedding.link depth root).run w₀ = .ok outcome w ∧
        ((∃ t name, outcome = .error (.missingExport (w₀.describe t) name)) ↔
          (w₀.resolved target).LacksImport root) := by
  intro claim
  obtain ⟨outcome, w, ended, exactly⟩ := claim .bare 5 starsAhead starTarget ⟨0⟩ resolvable_starsAhead
    (by decide)
  obtain ⟨_, rejected⟩ := link_starsAhead
  cases ended.symm.trans rejected
  exact not_lacksImport_starsAhead _ (exactly.mp ⟨_, _, rfl⟩)

/-- The import that `a` is rejected for is provided, by way of a cycle. -/
theorem rejected_on_cycle_in_starsAhead :
    let full := starsAhead.resolved starTarget
    ∃ w m t name, (Embedding.bare.link 5 ⟨0⟩).run starsAhead =
        .ok (.error (.missingExport (starsAhead.describe t) name)) w ∧
      full.LeadsTo ⟨0⟩ m ∧ full.Wants m t name ∧ ¬ w.Provides name t ∧ full.Provides name t ∧
      full.LeadsTo t m := by
  intro full
  obtain ⟨outcome, w, ended, either, _⟩ := rejected_iff_lacks_import_but_for_cycles .bare 5 starsAhead
    starTarget ⟨0⟩ resolvable_starsAhead (by decide)
  obtain ⟨_, rejected⟩ := link_starsAhead
  rcases either with ⟨rfl, _⟩ | ⟨m, t, name, rfl, leads, wants, missing, back⟩
  · cases ended.symm.trans rejected
  · have provided : full.Provides name t := by
      by_contra lacks
      exact not_lacksImport_starsAhead _ ⟨m, t, name, leads, wants, lacks⟩
    exact ⟨w, m, t, name, ended, leads, wants, missing, provided, back provided⟩

end ModuleGraph
