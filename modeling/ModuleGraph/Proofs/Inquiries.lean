import ModuleGraph.Proofs.Memory

/-!
The loader and the compiler work at most once for a location. What they were asked for has its
outcome kept under the location, or discovery is over; in both cases nobody asks again.
-/
namespace ModuleGraph
open World Engine

/-! ### Source work -/

/-- What the loader and the compiler do for a source. -/
inductive Work where
  | load
  | compile
  | wrap
  deriving DecidableEq

/-- The work that an event asks for, with the location that it is about. -/
def Event.work? : Event → Option (Work × String)
  | .loaded location _ => some (.load, location)
  | .compiled location _ => some (.compile, location)
  | .wrapped location _ => some (.wrap, location)
  | _ => none

/-- The work that was asked for so far. -/
def World.work (w : World) : List (Work × String) := w.inquiries.filterMap Event.work?

namespace Embedding
variable (embedding : Embedding) {location : String} {events events' : List Event}

/-- A source is compiled as a wrapper only right after it was compiled and the compiler has found
that it declares nothing. -/
def Vetted (events : List Event) : Prop :=
  ∀ before after location source, events = before ++ .wrapped location source :: after →
    (embedding.compile source location).outcome = .ok .wrapper ∧
      ∃ earlier, before = earlier ++ [.compiled location source]

variable {embedding}

theorem Vetted.append (first : embedding.Vetted events) (second : embedding.Vetted events') :
    embedding.Vetted (events ++ events') := by
  intro before after location source same
  rcases List.append_eq_append_iff.mp same with ⟨between, rfl, later⟩ | ⟨between, here, later⟩
  · obtain ⟨bare, earlier, rfl⟩ := second between after location source later
    exact ⟨bare, events ++ earlier, (List.append_assoc ..).symm⟩
  · cases between with
    | nil =>
      -- the first of the later events, which is right after no other of them
      obtain ⟨_, earlier, nothing⟩ := second [] after location source later.symm
      simp at nothing
    | cons event between =>
      obtain ⟨rfl, rfl⟩ := List.cons.inj later
      exact first before between location source here

namespace Inquiry
variable (inquiry : embedding.Inquiry location events)
include inquiry

/-- Each work is asked for at most once, and all of it for the one location. -/
theorem exists_works :
    ∃ works : List Work, works.Nodup ∧ events.filterMap Event.work? = works.map (·, location) := by
  cases inquiry with
  | held compilation =>
    cases compilation with
    | unread => exact ⟨[], by decide, rfl⟩
    | read => exact ⟨[.compile], by decide, rfl⟩
    | wrapped => exact ⟨[.compile, .wrap], by decide, rfl⟩
  | loaded _ compilation =>
    cases compilation with
    | unread => exact ⟨[.load], by decide, rfl⟩
    | read => exact ⟨[.load, .compile], by decide, rfl⟩
    | wrapped => exact ⟨[.load, .compile, .wrap], by decide, rfl⟩

theorem vetted : embedding.Vetted events := by
  have compiled {events : List Event} (compilation : embedding.Compilation location events) :
      embedding.Vetted events := by
    intro before after place source same
    cases compilation with
    | unread => simp at same
    | read text => simp [List.cons_eq_append_iff] at same
    | wrapped text bare =>
      rcases List.cons_eq_append_iff.mp same with ⟨_, first⟩ | ⟨later, rfl, rest⟩
      · cases first
      rcases List.cons_eq_append_iff.mp rest with ⟨rfl, second⟩ | ⟨_, _, third⟩
      · cases second
        exact ⟨bare, [], rfl⟩
      · simp at third
  cases inquiry with
  | held compilation => exact compiled compilation
  | loaded specifier compilation =>
    have loaded : embedding.Vetted [.loaded location specifier] := by
      intro before after place source same
      simp [List.cons_eq_append_iff] at same
    exact loaded.append (compiled compilation)

end Inquiry

end Embedding

namespace World
variable {embedding : Embedding} {place : Place} {refused : String} {outcome : Outcome RecordId}
  {w w' : World}

theorem Asked.inquiries {events : List Event} (asked : Asked events w w') :
    w'.inquiries = w.inquiries ++ events.filter Event.isInquiry := by
  simp only [World.inquiries, asked.journal, List.filter_append]

@[simp] theorem inquiries_enroll (w : World) (place : Place) (record : Record) :
    (w.enroll place record).inquiries = w.inquiries := by
  cases place <;> rfl

/-- Discovery asks no more than its place calls for. -/
theorem Discovered.inquiries (discovered : Discovered embedding place w outcome w') :
    ∃ events, embedding.Inquires place events ∧ w'.inquiries = w.inquiries ++ events := by
  cases discovered with
  | made inquires asked _ =>
    exact ⟨_, inquires,
      by rw [inquiries_enroll, asked.inquiries, inquires.inquiry.filter_isInquiry]⟩
  | failed inquires asked _ =>
    exact ⟨_, inquires, by rw [asked.inquiries, inquires.inquiry.filter_isInquiry]⟩

/-! ### Work done once -/

/-- No work was asked for twice, and whatever it was asked for has an outcome that is kept, or
discovery is over. -/
structure WorkedOnce (w : World) : Prop where
  nodup : w.work.Nodup
  settled : ∀ work location, (work, location) ∈ w.work →
    w.cache.isLocked = true ∨ ∃ outcome, w.cache.get? location = some outcome

namespace WorkedOnce

theorem beside (once : w.WorkedOnce) (beside : Beside w w') : w'.WorkedOnce := by
  have same : w'.work = w.work := by rw [work, beside.inquiries, work]
  refine ⟨same ▸ once.nodup, fun work location member => ?_⟩
  rw [beside.get?]
  refine (once.settled work location (same ▸ member)).imp_left fun locked => ?_
  rcases beside.cache with same | same <;> simp [same, locked]

/-- Where a key has no outcome and discovery goes on, nothing was asked for yet. -/
theorem lookedUp (once : w.WorkedOnce) (did : LookedUp embedding place refused w outcome w') :
    w'.WorkedOnce := by
  have answered := did.answered
  cases did with
  | kept | refused => exact once
  | @discovered outcome w' absent unlocked discovered =>
    have settled (work : Work) (location : String) (member : (work, location) ∈ w.work) :
        ∃ outcome, w.cache.get? location = some outcome :=
      (once.settled work location member).resolve_left (by simp [unlocked])
    obtain ⟨events, inquires, asked⟩ := discovered.inquiries
    obtain ⟨works, nodup, new⟩ := inquires.inquiry.exists_works
    have work : w'.work = w.work ++ works.map (·, place.key) := by
      rw [World.work, asked, List.filterMap_append, new, World.work]
    show WorkedOnce { w' with cache := (w'.cache.insert place.key outcome).2 }
    refine ⟨?nodup, fun one location member => ?settled⟩
    case nodup =>
      show w'.work.Nodup
      have inj : Function.Injective fun one : Work => (one, place.key) :=
        fun _ _ same => (Prod.mk.inj same).1
      rw [work]
      refine once.nodup.append (nodup.map inj) fun entry before after => ?_
      obtain ⟨one, _, rfl⟩ := List.mem_map.mp after
      obtain ⟨_, kept⟩ := settled one place.key before
      rw [absent] at kept
      cases kept
    case settled =>
      change (one, location) ∈ w'.work at member
      rw [work, List.mem_append] at member
      rcases member with before | after
      · obtain ⟨outcome, kept⟩ := settled one location before
        exact .inr ⟨outcome, (Remembers.keep w' _ _).outcome _ _ (discovered.get? _ ▸ kept)⟩
      · obtain ⟨_, _, same⟩ := List.mem_map.mp after
        obtain ⟨rfl, rfl⟩ := Prod.mk.inj same
        rcases answered with kept | ⟨_, locked, _⟩
        · exact .inr ⟨_, kept⟩
        · exact .inl locked

end WorkedOnce

theorem sustained_workedOnce (embedding : Embedding) :
    Sustained embedding WorkedOnce WorkedOnce :=
  sustained_of_lookedUp (fun _ _ beside once => once.beside beside)
    fun _ _ _ _ _ did once => once.lookedUp did

/-- Whatever is done, only what is vetted is asked. -/
theorem sustained_vetted (embedding : Embedding) (w : World) :
    let vetted (w' : World) :=
      ∃ asked, w'.inquiries = w.inquiries ++ asked ∧ embedding.Vetted asked
    Sustained embedding vetted vetted := by
  refine sustained_of_lookedUp (fun _ _ beside h => ?_) fun place refused w₁ outcome w₂ did h => ?_
  · rwa [beside.inquiries]
  · cases did with
    | kept | refused => exact h
    | discovered _ _ discovered =>
      obtain ⟨asked, before, vetted⟩ := h
      obtain ⟨events, inquires, after⟩ := discovered.inquiries
      refine ⟨asked ++ events, ?_, vetted.append inquires.inquiry.vetted⟩
      rw [← List.append_assoc, ← before, ← after]
      rfl

end World

/-- Whatever is done, and however the embedder changes between, the loader and the compiler are
asked for each work at most once for a location: also if they fail, if a source is no text, or if
they end discovery while they work. And whatever is done, in whichever world, a source is compiled
as a wrapper only right after the compiler has found that the same text declares nothing. -/
theorem source_work_at_most_once (depth : Nat) (steps : List (Embedding × Operation)) (w₀ : World)
    (unasked : w₀.inquiries = []) :
    (∀ work location, ((Setup.runEach depth steps).after w₀).work.count (work, location) ≤ 1) ∧
    ∀ (embedding : Embedding) (operation : Operation) (w : World), ∃ asked,
      (((Setup.ofDepth embedding depth).perform operation).after w).inquiries =
        w.inquiries ++ asked ∧ embedding.Vetted asked := by
  refine ⟨fun work location => ?_, fun embedding operation w => ?_⟩
  · have nothing : w₀.work = [] := by rw [World.work, unasked, List.filterMap_nil]
    have once : w₀.WorkedOnce := ⟨by simp [nothing], by simp [nothing]⟩
    have after := Setup.sustained_after_runEach sustained_workedOnce depth steps once
    exact List.nodup_iff_count_le_one.mp after.nodup _
  · exact (Setup.sustains_perform (sustained_vetted embedding w) depth operation.staysWithin_all w
      ⟨[], (List.append_nil _).symm, by simp [Embedding.Vetted]⟩).after

/-- A loader that ends discovery whenever it is asked, for wrapper-style scripts. -/
def Embedding.lockedByLoader : Embedding where
  load _ _ := { locksFirst := true, outcome := .ok [] }
  compile _ _ := { outcome := .ok .wrapper }
  compileWrapper _ _ := { outcome := .ok (.give .undefined) }

/-- The outcome is not kept here, as discovery is over when it is there; nonetheless the work is not
done again. -/
theorem source_work_once_in_lockedByLoader :
    (ofModules []).inquiries = [] ∧ ∃ w,
      Setup.runEach 1 (List.replicate 2 (.lockedByLoader, .resolve none "/a")) (ofModules []) =
        .ok () w ∧
      w.work = [(.load, "file:///a"), (.compile, "file:///a"), (.wrap, "file:///a")] ∧
      w.cache.get? "file:///a" = none ∧ ∀ work location, w.work.count (work, location) ≤ 1 := by
  have computed : (Setup.runEach 1 (List.replicate 2 (.lockedByLoader, .resolve none "/a"))).ends
      (ofModules []) (fun _ w =>
        w.work = [(.load, "file:///a"), (.compile, "file:///a"), (.wrap, "file:///a")] &&
          (w.cache.get? "file:///a").isNone) = true := by
    cbv
  obtain ⟨_, w, ran, computed⟩ := Action.exists_of_ends computed
  simp only [Bool.and_eq_true, decide_eq_true_eq, Option.isNone_iff_eq_none] at computed
  have unasked : (ofModules []).inquiries = [] := rfl
  have once := (source_work_at_most_once 1 (List.replicate 2 (.lockedByLoader, .resolve none "/a"))
    (ofModules []) unasked).1
  rw [Action.after, ran] at once
  exact ⟨unasked, w, ran, computed.1, computed.2, once⟩

end ModuleGraph
