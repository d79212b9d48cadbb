import ModuleGraph.Proofs.Fulfillment
import ModuleGraph.Proofs.LinksOnce
import ModuleGraph.Proofs.Namespaces

/-!
Graphs that the resolver has made. A module of its making asks it for what it imports, so all that
this module requests is of its making as well: no request leads from there to what an embedder made.
-/
namespace ModuleGraph
open World Engine Relation

/-- Whether the resolver makes such records: scripts that ask it for what they import, and host
modules as they are registered. -/
def Record.IsMade (embedding : Embedding) : Record → Prop
  | .static module => module.importer = .resolver
  | .wrapper _ => True
  | .host module => embedding.hosts.lookup module.name = some module.content
  | .custom _ => False

theorem Record.IsMade.isCyclic {embedding : Embedding} {record : Record}
    (made : record.IsMade embedding) : record.isCyclic = true := by
  cases record with
  | custom => exact made.elim
  | _ => rfl

namespace World
variable {embedding : Embedding} {w w' : World} {id : RecordId} {place : Place}

theorem Revised.isMade {record record' : Record} (revised : Revised record record')
    (made : record.IsMade embedding) :
    record'.IsMade embedding := by
  cases revised with
  | same => exact made
  | memo => cases record <;> exact made
  | relinked => exact made

theorem hasRecord_of_isMade (made : (w.record id).IsMade embedding) : w.hasRecord id := by
  by_contra absent
  rw [record_of_not_hasRecord absent] at made
  exact made

theorem Changes.isMade (changes : Changes w w') (made : (w.record id).IsMade embedding) :
    (w'.record id).IsMade embedding := by
  induction changes with
  | refl => exact made
  | tail _ change ih => exact (change.revised (hasRecord_of_isMade ih)).isMade ih

theorem isMade_of_suits (suits : place.Suits embedding w (.ok id)) :
    (w.record id).IsMade embedding := by
  cases place with
  | host name =>
    obtain ⟨module, found, rfl, registered⟩ := suits
    rw [found]
    exact registered
  | location url =>
    rcases suits with ⟨module, found, _, importer⟩ | ⟨module, found, _⟩
    · rw [found]
      exact importer
    · rw [found]
      trivial

theorem Filed.isMade (filed : w.Filed embedding) {key : String}
    (kept : w.cache.get? key = some (.ok id)) : (w.record id).IsMade embedding := by
  obtain ⟨_, _, _, suits⟩ := filed.kept key _ kept
  exact isMade_of_suits suits

/-- What is kept is right for its key, what is kept or a table names exists, and what the resolver
has made requests only what it has made. -/
structure Sourced (embedding : Embedding) (w : World) : Prop where
  named : w.Named
  filed : w.Filed embedding
  requested : ∀ id module, w.record id = .static module → module.importer = .resolver →
    ∀ r ∈ module.requested.map Prod.snd, (w.record r).IsMade embedding

namespace Sourced

theorem of_unlinked (named : w.Named) (empty : w.cache.entries = []) (unlinked : w.Unlinked) :
    w.Sourced embedding :=
  ⟨named, .of_entries empty fun _ _ _ => trivial, fun id module found _ r member => by
    simp [(unlinked id module found).2] at member⟩

theorem of_same (sourced : w.Sourced embedding) (records : w'.records = w.records)
    (cache : w'.cache = w.cache) (locations : w'.locations = w.locations)
    (table : w'.table = w.table) : w'.Sourced embedding := by
  have same (id : RecordId) : w'.record id = w.record id := by simp only [World.record, records]
  refine ⟨sourced.named.of_same (by rw [records]) (by simp [cache]) table,
    sourced.filed.revised (fun id _ => same id ▸ .same _) (by simp [cache])
      (locations ▸ sourced.filed.located), ?_⟩
  simpa only [same] using sourced.requested

theorem edits (sourced : w.Sourced embedding) (edits : Edits w w') (named : w'.Named)
    (filed : w'.Filed embedding) : w'.Sourced embedding := by
  refine ⟨named, filed, fun id module found importer r member => ?_⟩
  rcases edits.static_cases found with before | ⟨_, _, nothing⟩
  · exact Changes.isMade edits.changes (sourced.requested id module before importer r member)
  · simp [nothing] at member

/-- To relink a module keeps this, if its requests are of the resolver's making. -/
theorem relink (sourced : w.Sourced embedding) {module : StaticModule}
    (found : w.record id = .static module) (status : LinkStatus)
    {requested : List (String × RecordId)}
    (made : module.importer = .resolver →
      ∀ r ∈ requested.map Prod.snd, (w.record r).IsMade embedding) :
    (w.setRecord id (.static { module with status, requested })).Sourced embedding := by
  have revised : Revised (w.record id) (.static { module with status, requested }) :=
    found ▸ .relinked module status requested
  have stays {r : RecordId} (made : (w.record r).IsMade embedding) :
      ((w.setRecord id (.static { module with status, requested })).record r).IsMade embedding :=
    (revised_setRecord revised r).isMade made
  refine ⟨sourced.named.setRecord id _,
    sourced.filed.beside (.setRecord revised),
    fun x other after importer r member => ?_⟩
  by_cases same : x = id
  · subst same
    cases (record_setRecord_same found _).symm.trans after
    exact stays (made importer r member)
  · rw [record_setRecord_other same] at after
    exact stays (sourced.requested x other after importer r member)

/-- Requests do not lead out of what the resolver has made. -/
theorem isMade_of_needs (sourced : w.Sourced embedding) {root : RecordId}
    (made : (w.record root).IsMade embedding) (path : w.Needs root id) :
    (w.record id).IsMade embedding := by
  induction path with
  | refl => exact made
  | @tail a b _ requested ih =>
    cases found : w.record a with
    | static module =>
      rw [found] at ih requested
      exact sourced.requested a module found ih b requested
    | custom module =>
      rw [found] at ih
      exact ih.elim
    | _ =>
      rw [found] at requested
      exact absurd requested List.not_mem_nil

end Sourced
end World

/-! ### What the resolver answers to its modules -/

namespace Embedding
variable {embedding : Embedding} {w : World}

/-- A lookup answers what the resolver has made. -/
theorem meets_lookup_made (filed : w.Filed embedding) (lookup : Lookup) :
    Action.Meets (fun _ => True) (lookup.attempt embedding).run
      (fun outcome w' => w'.Filed embedding ∧
        ∀ id, outcome = .ok id → (w'.record id).IsMade embedding) w := by
  have upholds := (sustained_filed embedding.staysWithin_all).toConsulted.lookup lookup
  refine ((upholds w filed).and (Action.meets_ended _ w)).imp (fun _ _ => trivial)
    fun outcome w' h => ⟨h.1, fun id same => ?_⟩
  obtain ⟨filed', ended⟩ := h
  subst same
  cases found : lookup.place? embedding w with
  | none =>
    obtain ⟨error, failed⟩ := run_of_no_place found
    cases (failed embedding rfl).symm.trans ended
  | some place =>
    rcases kept_of_lookup found ended with kept | ⟨_, _, refused⟩
    · exact filed'.isMade kept
    · cases refused

theorem meets_importFor_made (filed : w.Filed embedding) (id : RecordId) (specifier : String) :
    Attempt.Meets (fun _ => True) (fun _ => World.Filed embedding)
      (embedding.importFor .resolver id specifier)
      (fun r w' => w'.Filed embedding ∧ (w'.record r).IsMade embedding) w := by
  unfold importFor
  rw [Attempt.meets_bind, Attempt.meets_get]
  dsimp only
  split
  · exact ((Attempt.meets_run _).mp (meets_lookup_made filed (.imported (some id) specifier))).imp
      (fun _ h => h) (fun _ _ h => h.1) fun r _ h => ⟨h.1, h.2 r rfl⟩
  · exact filed

/-- All that a module asks the resolver for is of the resolver's making. -/
theorem meets_importAll_made (filed : w.Filed embedding) (id : RecordId)
    (specifiers : List String) :
    Attempt.Meets (fun _ => True) (fun _ => World.Filed embedding)
      (embedding.importAll .resolver id specifiers)
      (fun requested w' => w'.Filed embedding ∧
        ∀ r ∈ requested.map Prod.snd, (w'.record r).IsMade embedding) w := by
  induction specifiers generalizing w with
  | nil => exact ⟨filed, by simp⟩
  | cons specifier rest ih =>
    have asked : (w.write (.asked id specifier)).Filed embedding :=
      filed.beside ((Beside.refl w).write rfl)
    rw [importAll, Attempt.meets_bind, Attempt.meets_lift, Action.meets_write, Attempt.meets_bind]
    refine (meets_importFor_made asked id specifier).mono fun r w₁ h => ?_
    obtain ⟨filed₁, made⟩ := h
    rw [Attempt.meets_bind]
    refine ((ih filed₁).and ((embedding.keeps_importAll .resolver id rest).meets w₁)).imp
      (fun _ h => h.1) (fun _ _ h => h.1) fun others w₂ h => ?_
    obtain ⟨⟨filed₂, answered⟩, edits⟩ := h
    exact ⟨filed₂, List.forall_mem_cons.mpr ⟨Changes.isMade edits.changes made, answered⟩⟩

/-- What linking needs to know in order to request only what the resolver has made. -/
theorem linkSetting_sourced (embedding : Embedding) :
    LinkSetting embedding (World.Sourced embedding) (fun _ => True) where
  status w id module status sourced found :=
    sourced.relink found status (sourced.requested id module found)
  ask w id module sourced found := by
    have named := embedding.meets_importAll module.importer id
      module.declarations.requestedSpecifiers sourced.named
    have edits := (embedding.keeps_importAll module.importer id
      module.declarations.requestedSpecifiers).meets w
    have made : Attempt.Meets (fun _ => True) (fun _ => World.Filed embedding)
        (embedding.importAll module.importer id module.declarations.requestedSpecifiers)
        (fun requested w' => w'.Filed embedding ∧ (module.importer = .resolver →
          ∀ r ∈ requested.map Prod.snd, (w'.record r).IsMade embedding)) w := by
      cases importer : module.importer with
      | resolver =>
        exact (meets_importAll_made sourced.filed id _).mono fun _ _ h => ⟨h.1, fun _ => h.2⟩
      | table =>
        have filed := (upholds_importAll_of (sustained_filed embedding.staysWithin_all).toConsulted
          (fun w _ _ filed => filed.beside ((Beside.refl w).write rfl)) .table id
          module.declarations.requestedSpecifiers).meets sourced.filed
        exact filed.mono fun _ _ h => ⟨h, fun same => by cases same⟩
    refine ((named.and edits).and made).imp (fun _ h => h.1.1) (fun _ w' h => ?_)
      fun requested w' h => ?_
    · obtain ⟨⟨named, edits⟩, filed⟩ := h
      exact ⟨sourced.edits edits named filed, trivial⟩
    · obtain ⟨⟨⟨named, asked, present⟩, edits⟩, filed, made⟩ := h
      refine ⟨asked, present, fun status => ?_⟩
      exact (sourced.edits edits named filed).relink (edits.static found) status made
  custom _ _ _ _ _ _ _ := trivial

end Embedding

/-- Whatever is done, what the resolver has made requests only what it has made. -/
theorem World.sustained_sourced (embedding : Embedding) :
    Sustained embedding (fun _ => True) (fun w => w.Sourced embedding ∧ w.Linkage []) := by
  have upheld {α : Type} {action : Action α}
      (named : Action.Upholds (fun _ => True) World.Named action)
      (filed : Action.Upholds (fun _ => True) (World.Filed embedding) action)
      (keeps : Action.Keeps Edits action) :
      Action.Upholds (fun _ => True) (World.Sourced embedding) action := fun w sourced =>
    ((named w sourced.named).and ((filed w sourced.filed).and (keeps w))).imp (fun _ _ => trivial)
      fun _ _ h => sourced.edits h.2.2 h.1 h.2.1
  have named := consulted_named embedding
  have sustained := sustained_filed embedding.staysWithin_all
  have filed := sustained.toConsulted
  have touched : Touched (fun _ => True) (World.Sourced embedding) :=
    ⟨fun _ _ => trivial, fun w w' touches sourced => sourced.edits touches.edits
      (sourced.named.touches touches) (sustained.touches w w' touches sourced.filed)⟩
  refine sustained_linkage_of embedding.linkSetting_sourced touched
    ⟨touched.scripted,
      embedding.staysWithin_all, fun _ _ _ _ _ => trivial,
      fun specifier isHost => upheld (named.host specifier isHost) (filed.host specifier isHost)
        (embedding.keeps_resolveHost specifier),
      fun location specifier within => upheld (named.location location specifier within)
        (filed.location location specifier within)
        (embedding.keeps_resolveLocation location specifier),
      fun location source within => upheld (named.loaded location source within)
        (filed.loaded location source within) (embedding.keeps_resolveLoaded location source)⟩
    (fun _ _ _ _ sourced => sourced.of_same rfl rfl rfl rfl) fun w w' move sourced => ?_
  cases move <;> exact sourced.of_same rfl rfl rfl rfl

end ModuleGraph
