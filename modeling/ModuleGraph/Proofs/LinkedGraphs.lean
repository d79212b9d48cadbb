import Mathlib
import ModuleGraph.Proofs.Answers
import ModuleGraph.Proofs.LinkWalks
import ModuleGraph.Proofs.Runs

/-!
Linked graphs. After any sequence of links, what a linked module requests is linked too, but for
modules on a cycle with it that have failed: a cycle lets a module be linked before the one that it
came back to has checked its own imports.
-/
namespace ModuleGraph
open Relation World

/-- What linking needs to know in order to record requests of records that exist. -/
theorem Embedding.linkSetting_named (embedding : Embedding) :
    LinkSetting embedding World.Named (fun _ => True) where
  status _ id _ _ named _ := named.setRecord id _
  ask _ id module named _ :=
    (embedding.meets_importAll module.importer id _ named).imp (fun _ h => h)
      (fun _ _ named => ⟨named, trivial⟩) fun _ _ h => ⟨h.2.1, h.2.2, fun _ => h.1.setRecord id _⟩
  custom _ _ _ _ _ _ _ := trivial

/-! ### Linked modules -/

namespace World
variable {w : World} {id s r x : RecordId} {module : StaticModule}

theorem static?_eq_some : (w.record id).static? = some module ↔ w.record id = .static module := by
  cases w.record id <;> simp [Record.static?]

/-- A static module is linked. -/
def IsLinked (w : World) (id : RecordId) : Prop :=
  ∃ module, w.record id = .static module ∧ module.status = .linked

/-- A static module has failed to link. -/
def LinkFailed (w : World) (id : RecordId) : Prop :=
  ∃ module error, w.record id = .static module ∧ module.status = .failed error

theorem LinkFailed.kind_eq (failed : w.LinkFailed x) : (w.record x).kind = .static := by
  obtain ⟨module, _, found, _⟩ := failed
  exact kind_eq_static.mpr ⟨module, found⟩

theorem LinkFailed.not_isLinked (failed : w.LinkFailed x) : ¬ w.IsLinked x := by
  rintro ⟨module, found, linked⟩
  obtain ⟨module', error, found', failed⟩ := failed
  cases found.symm.trans found'
  cases linked.symm.trans failed

/-- No static module has begun to link. -/
def Unlinked (w : World) : Prop :=
  ∀ id module, w.record id = .static module → module.status = .unlinked ∧ module.requested = []

/-- A test that all records pass holds of every static module. -/
theorem static_of_all (w : World) (test : RecordId → StaticModule → Bool)
    (all : w.recordIds.all (fun id => (w.record id).static?.all (test id)) = true)
    (found : w.record id = .static module) : test id module = true := by
  have each := List.all_eq_true.mp all id (mem_recordIds.mpr (hasRecord_of_static found))
  rwa [found] at each

theorem unlinked_of_all (w : World)
    (all : w.recordIds.all (fun id => (w.record id).static?.all fun module =>
      module.status = .unlinked && module.requested = []) = true) : w.Unlinked := by
  intro id module found
  simpa using static_of_all w _ all found

theorem Unlinked.linkage (h : w.Unlinked) : w.Linkage [] where
  present id module found := by simp [(h id module found).2]
  unlinked id module found _ := (h id module found).2
  linking id := by
    refine ⟨?_, by simp⟩
    rintro ⟨module, found, linking⟩
    simp [(h id module found).1] at linking
  nodup := .nil
  linked id module found linked := by simp [(h id module found).1] at linked

/-- When no module links, what a linked one requests is linked, or has failed and leads back. -/
theorem Linkage.linked_or_failed (h : w.Linkage []) (linked : w.IsLinked s) (asks : w.Asks s r)
    (isStatic : (w.record r).kind = .static) :
    w.IsLinked r ∨ w.LinkFailed r ∧ w.LeadsTo r s := by
  obtain ⟨module, found, linked⟩ := linked
  obtain ⟨module', found', member⟩ := asks
  cases found.symm.trans found'
  obtain ⟨other, foundOther⟩ := kind_eq_static.mp isStatic
  rcases (h.linked s module found linked).settled r member other foundOther with done | ⟨begun, leads⟩
  · exact .inl ⟨other, foundOther, done⟩
  · cases status : other.status with
    | unlinked => exact absurd status begun
    | linking => exact absurd ((h.linking r).mp ⟨other, foundOther, status⟩) List.not_mem_nil
    | linked => exact .inl ⟨other, foundOther, status⟩
    | failed error => exact .inr ⟨⟨other, error, foundOther, status⟩, leads⟩

/-- A linked module's whole static graph is linked, if no module in it has failed. -/
theorem Linkage.linked_throughout (h : w.Linkage []) (linked : w.IsLinked s)
    (spared : ∀ x, w.LeadsTo s x → ¬ w.LinkFailed x) (path : w.LeadsTo s x)
    (isStatic : (w.record x).kind = .static) : w.IsLinked x := by
  induction path with
  | refl => exact linked
  | tail before asks ih =>
    have here := ih (kind_eq_static.mpr ⟨_, asks.choose_spec.1⟩)
    refine (h.linked_or_failed here asks isStatic).resolve_right fun failed => ?_
    exact spared _ (before.tail asks) failed.1

end World

/-- Linking a record upholds the linkage and all that it needs to know, and gives up only where
there are as many records as it may nest. -/
theorem Embedding.upholds_linkage_of {embedding : Embedding} {known : World → Prop}
    (setting : LinkSetting embedding known fun _ => True) (depth : Nat) (id : RecordId) :
    Attempt.Upholds (fun w => depth ≤ w.records.size) (fun w => known w ∧ w.Linkage [])
      (embedding.link depth id) := by
  refine .of_meets fun w h => ?_
  have holds : LinkHolds known (fun _ => True) [] w := ⟨h.1, h.2, fun _ _ _ _ _ => trivial⟩
  have linked : Attempt.Meets _ _ (embedding.link depth id) _ w :=
    embedding.meets_link setting depth [] id w holds fun _ member => nomatch member
  exact linked.imp (fun _ stuck => stuck.2) (fun _ _ fails => ⟨fails.known, fails.linkage⟩)
    fun _ _ done => ⟨done.1.known, done.1.linkage⟩

theorem Embedding.upholds_linkage (embedding : Embedding) (depth : Nat) (id : RecordId) :
    Attempt.Upholds (fun w => depth ≤ w.records.size) (fun w => w.Named ∧ w.Linkage [])
      (embedding.link depth id) :=
  upholds_linkage_of embedding.linkSetting_named depth id

/-- So does any sequence of links. -/
theorem Setup.upholds_linkage (embedding : Embedding) (depth : Nat) (ids : List RecordId) :
    Action.Upholds (fun w => depth ≤ w.records.size) (fun w => w.Named ∧ w.Linkage [])
      ((Setup.ofDepth embedding depth).run (ids.map .link)) := by
  induction ids with
  | nil => exact .pure _
  | cons id rest ih =>
    refine .bind (.map (?_ : Attempt.Upholds _ _ ((Setup.ofDepth embedding depth).link id)) _)
      fun _ => ih
    rw [Setup.link, Setup.ofDepth, Engine.depth_ofDepth]
    exact embedding.upholds_linkage depth id

/-- After any sequence of links, which gives up only in a world with as many records as links may
nest, a linked module has recorded all that it requests; and what of this is static is linked as
well, but for a module that has failed and leads back to it. So the static graph behind a linked
module is linked exactly if no module in it has failed. -/
theorem linked_but_for_failed_that_lead_back (embedding : Embedding) (depth : Nat)
    (ids : List RecordId) (w₀ : World) (named : w₀.Named) (unlinked : w₀.Unlinked) :
    Action.Meets (fun w => depth ≤ w.records.size)
      ((Setup.ofDepth embedding depth).run (ids.map .link))
      (fun _ w =>
        (∀ s module, w.record s = .static module → module.status = .linked →
          module.requested.map Prod.fst = module.declarations.requestedSpecifiers ∧
          ∀ r ∈ module.requested.map Prod.snd, (w.record r).kind = .static →
            w.IsLinked r ∨ w.LinkFailed r ∧ w.LeadsTo r s) ∧
        ∀ s, w.IsLinked s →
          ((∀ x, w.LeadsTo s x → (w.record x).kind = .static → w.IsLinked x) ↔
            ¬ ∃ x, w.LeadsTo s x ∧ w.LinkFailed x)) w₀ := by
  refine (Setup.upholds_linkage embedding depth ids w₀ ⟨named, unlinked.linkage⟩).mono
    fun _ w h => ?_
  have linkage := h.2
  refine ⟨fun s module found linked => ⟨(linkage.linked s module found linked).asked,
    fun r member => ?_⟩, fun s linked => ⟨fun all => ?_, fun spared x => ?_⟩⟩
  · exact linkage.linked_or_failed ⟨module, found, linked⟩ ⟨module, found, member⟩
  · rintro ⟨x, path, failed⟩
    exact failed.not_isLinked (all x path failed.kind_eq)
  · exact linkage.linked_throughout linked fun x path failed => spared ⟨x, path, failed⟩

/-- A static module of a table, with imports and exports. -/
def tableModule (name : Char) (imports : List ImportStatement) (exports : List Export := []) :
    Record :=
  .static {
    location := .fileUrl "" ['/', name]
    declarations := { imports, exports }
    body := fun _ => .give .undefined
    importer := .table }

/-- Two records with a table that names them. -/
def tablePair (a b : Record) : World where
  records := #[a, b]
  table _ specifier := if specifier = "a" then some ⟨0⟩ else some ⟨1⟩

theorem named_tablePair (a b : Record) : (tablePair a b).Named where
  cached _ _ cached := by cases cached
  tabled _ specifier _ tabled := by
    by_cases first : specifier = "a" <;> simp [tablePair, first] at tabled <;> subst tabled <;> rfl

/-- Two modules on a cycle: `a` imports a name from `b`, which exports none and imports `a`. -/
def failingPair : World where
  records := #[tableModule 'a' [⟨"b", [.named "x" none]⟩], tableModule 'b' [⟨"a", []⟩]]
  table _ specifier := if specifier = "a" then some ⟨0⟩ else some ⟨1⟩

theorem named_failingPair : failingPair.Named := named_tablePair _ _

theorem unlinked_failingPair : failingPair.Unlinked := unlinked_of_all _ (by cbv)

/-- After `a` was linked, `b` is linked although it requests `a`, which is not. -/
theorem link_failingPair :
    ∃ w, (Setup.ofDepth .bare 3).run ([⟨0⟩].map .link) failingPair = .ok () w ∧
      w.IsLinked ⟨1⟩ ∧ w.Asks ⟨1⟩ ⟨0⟩ ∧ (w.record ⟨0⟩).kind = .static ∧ ¬ w.IsLinked ⟨0⟩ := by
  have computed : ((Setup.ofDepth .bare 3).run ([⟨0⟩].map .link)).ends failingPair (fun _ w =>
      (w.record ⟨1⟩).static?.any (fun module =>
        module.status = .linked && (module.requested.map Prod.snd).contains ⟨0⟩) &&
      (w.record ⟨0⟩).static?.any fun module => module.status ≠ .linked) = true := by
    cbv
  obtain ⟨_, w, ran, computed⟩ := Action.exists_of_ends computed
  simp only [Bool.and_eq_true, Option.any_eq_true, decide_eq_true_eq, List.contains_iff_mem,
    static?_eq_some] at computed
  obtain ⟨⟨b, foundB, linked, requested⟩, a, foundA, notLinked⟩ := computed
  refine ⟨w, ran, ⟨b, foundB, linked⟩, ⟨b, foundB, requested⟩, kind_eq_static.mpr ⟨a, foundA⟩, ?_⟩
  rintro ⟨a', foundA', linked'⟩
  cases foundA.symm.trans foundA'
  exact notLinked linked'

/-- So a linked module may request one that is not linked. -/
theorem not_linked_throughout :
    ¬ ∀ (embedding : Embedding) (depth : Nat) (ids : List RecordId) (w₀ w : World) (s r : RecordId),
      w₀.Named → w₀.Unlinked →
      (Setup.ofDepth embedding depth).run (ids.map .link) w₀ = .ok () w →
      w.IsLinked s → w.Asks s r → (w.record r).kind = .static → w.IsLinked r := by
  intro claim
  obtain ⟨w, ran, linked, asks, isStatic, notLinked⟩ := link_failingPair
  exact notLinked (claim .bare 3 [⟨0⟩] failingPair w _ _ named_failingPair unlinked_failingPair ran
    linked asks isStatic)

/-- In the pair, the module that is not linked has failed, and leads back to the linked one. -/
theorem failed_that_leads_back_in_failingPair :
    ∃ w, (Setup.ofDepth .bare 3).run ([⟨0⟩].map .link) failingPair = .ok () w ∧
      w.IsLinked ⟨1⟩ ∧ w.LinkFailed ⟨0⟩ ∧ w.LeadsTo ⟨0⟩ ⟨1⟩ := by
  obtain ⟨w, ran, linked, ⟨b, foundB, requested⟩, isStatic, notLinked⟩ := link_failingPair
  have meets := linked_but_for_failed_that_lead_back .bare 3 [⟨0⟩] failingPair named_failingPair
    unlinked_failingPair
  rw [Action.Meets, ran] at meets
  obtain ⟨b', foundB', linked'⟩ := linked
  cases foundB.symm.trans foundB'
  have either := (meets.1 ⟨1⟩ b foundB linked').2 ⟨0⟩ requested isStatic
  exact ⟨w, ran, ⟨b, foundB, linked'⟩, either.resolve_left notLinked⟩

end ModuleGraph
