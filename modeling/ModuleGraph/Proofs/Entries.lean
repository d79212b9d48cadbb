import ModuleGraph.Proofs.Reinstantiation

/-!
Entry scripts that run again. What an entry script has come to in a realm is settled in one of four
places: by the resolver, by its linking, by a module of its graph that does not come into the realm,
or by its evaluation there. Each of these answers the same ever after.
-/
namespace ModuleGraph
open World Engine Relation

/-- The error that an evaluation came to, as whoever has run the entry script gets it. -/
def Settlement.error? : Settlement → Option ModuleError
  | .fulfilled => none
  | .rejected error => some error
  | .pending location => some (.unsupportedTopLevelSuspension location)

/-! ### Resolution -/

namespace Embedding
variable {embedding : Embedding} {w w₁ w₂ : World}

/-- A source that was resolved under a location is answered for any other that comes later. -/
theorem resolveLoaded_again {location : Url} {source : List UInt8} {outcome : Outcome RecordId}
    (ended : (embedding.resolveLoaded location source).run w = .ok outcome w₁)
    (remembers : Remembers w₁ w₂) (source' : List UInt8) :
    (embedding.resolveLoaded location source').run w₂ = .ok outcome w₂ := by
  have found : (Lookup.loaded location source).place? embedding w = some (.location location) := rfl
  rcases answered_of_lookup found ended with kept | ⟨absent, locked, refusal⟩
  · exact run_remember_kept (remembers.outcome _ _ kept)
  · -- the text of the lookup and the key are the same here
    have refused : outcome = .error (.resolutionLocked location.toText) := or_self_iff.mp refusal
    rw [refused]
    have same := remembers.closed locked
    exact run_remember_refused (same ▸ absent) (same ▸ locked)

/-! ### Linking -/

/-- What the resolver has made links at once if it is no static module. -/
theorem run_link_of_made {id : RecordId} (made : (w.record id).IsMade embedding)
    (other : (w.record id).kind ≠ .static) (depth : Nat) :
    (embedding.link (depth + 1) id).run w = .ok (.ok ()) w := by
  apply Action.Meets.eq
  rw [Attempt.meets_run, link, Attempt.meets_bind, Attempt.meets_get]
  cases found : w.record id with
  | static => simp [found, Record.kind] at other
  | custom =>
    rw [found] at made
    exact made.elim
  | _ => exact ⟨rfl, rfl⟩

/-- What the resolver has made links again to the outcome that it came to. -/
theorem link_again {depth : Nat} {id : RecordId} {outcome : Outcome Unit} (orderly : w.Orderly)
    (made : (w.record id).IsMade embedding) (idle : ¬ w.IsLinking id)
    (ended : (embedding.link depth id).run w = .ok outcome w₁) (later : Steps w₁ w₂) :
    (embedding.link depth id).run w₂ = .ok outcome w₂ := by
  cases depth with
  | zero => cases ended
  | succ depth =>
    by_cases isStatic : (w.record id).kind = .static
    · obtain ⟨module, found, status⟩ := linkedAs_of_link isStatic idle ended
      have found₂ := later.done found (by cases outcome <;> simp [status])
      exact LinkedAs.link ⟨module, found₂, status⟩ embedding depth
    · cases (run_link_of_made made isStatic depth).symm.trans ended
      obtain ⟨made₂, other⟩ :=
        later.carries (fun record => record.IsMade embedding ∧ record.kind ≠ .static)
          (fun _ _ revised h => ⟨revised.isMade h.1, revised.kind ▸ h.2⟩) orderly
          (hasRecord_of_isMade made) ⟨made, isStatic⟩
      exact run_link_of_made made₂ other depth

end Embedding

/-! ### Evaluation -/

namespace Engine
variable {embedding : Embedding} {depth : Nat} {realm : RealmId} {root : RecordId}
  {settlement : Settlement} {w₀ w w₁ w₂ w₃ : World}

/-- A walk that begins when none is under way leaves its root evaluated well, or failed with the
error that it came to. -/
theorem evaluated_of_walk {outcome : Except Interrupt (List RecordId)} (settled : Settled w₀ w)
    {slot : Slot} (found : (w.realm realm).slot? root = some slot)
    (cyclic : (w.record root).isCyclic = true)
    (ended : (ofDepth embedding depth).walk realm root w = .ok outcome w₁) :
    (outcome = .ok [] ∧ w₁.Fulfilled realm root) ∨
      ∃ interrupt, outcome = .error interrupt ∧
        w₁.FailedWith realm root (Interrupt.error interrupt) := by
  have order : Action.Meets Orderly ((ofDepth embedding depth).walk realm root) _ w :=
    (keepsOrder_ofDepth embedding depth).meets_walk settled.orderly root
  have walked := meets_settledWalk embedding depth settled realm root
  rw [Action.Meets, ended] at order walked
  cases outcome with
  | ok left =>
    cases order.1 left rfl
    exact .inl ⟨rfl, walked.1.fulfilled_of_ready (walked.2 [] rfl)⟩
  | error interrupt =>
    exact .inr ⟨interrupt, rfl,
      failedWith_of_walk settled.orderly (settled.idle realm) found cyclic ended⟩

/-- An evaluation leaves its root evaluated, with the error that the evaluation came to, if its
graph has come into the realm. -/
theorem evaluated_of_evaluateFrom (settled : Settled w₀ w₁)
    (instantiated : (Action.instantiateGraph depth realm root).run w = .ok (.ok ()) w₁)
    {slot : Slot} (found : (w₁.realm realm).slot? root = some slot)
    (cyclic : (w₁.record root).isCyclic = true)
    (ended : (ofDepth embedding depth).evaluateFrom realm root w = .ok settlement w₂) :
    Steps w₁ w₂ ∧ ∃ slot, (w₂.realm realm).slot? root = some slot ∧ slot.status = .evaluated ∧
      slot.error = settlement.error? := by
  have walks : Action.Meets (Steps w₁) ((ofDepth embedding depth).walk realm root) _ w₁ :=
    (keepsSteps_ofDepth embedding depth).meets_walk settled.orderly root
  have meets : Action.Meets (fun _ => True) ((ofDepth embedding depth).evaluateFrom realm root)
      (fun settlement w₂ => Steps w₁ w₂ ∧ ∃ slot, (w₂.realm realm).slot? root = some slot ∧
        slot.status = .evaluated ∧ slot.error = settlement.error?) w := by
    unfold evaluateFrom
    rw [depth_ofDepth, Action.meets_bind_of_ended instantiated, Action.meets_bind]
    refine (walks.and (Action.meets_ended _ w₁)).imp (fun _ _ => trivial) fun outcome w₂ h => ?_
    obtain ⟨steps, ended⟩ := h
    rcases evaluated_of_walk settled found cyclic ended with ⟨rfl, well⟩ | ⟨interrupt, rfl, failed⟩
    · exact ⟨steps, well⟩
    · cases interrupt <;> exact ⟨steps, failed⟩
  rwa [Action.Meets, ended] at meets

/-- An evaluation of a graph that the resolver has made and that was linked comes again to what it
came to, and does no more than scripts do by themselves. -/
theorem evaluateFrom_again (steady : embedding.Steady) (settled : Settled w₀ w)
    (sourced : w.Sourced embedding) (linkage : w.Linkage [])
    (made : (w.record root).IsMade embedding)
    (linked : (w.record root).kind = .static → w.IsLinked root)
    (ended : (ofDepth embedding (depth + 1)).evaluateFrom realm root w = .ok settlement w₁)
    (later : Steps w₁ w₂) (projected : w₂.Projected embedding) :
    Action.Meets (fun _ => False) ((ofDepth embedding (depth + 1)).evaluateFrom realm root)
      (fun settlement' w₃ => settlement'.error? = settlement.error? ∧ Touches w₂ w₃) w₂ := by
  have orderly := settled.orderly
  have changes := (Action.keeps_instantiateGraph (depth + 1) realm root).meets w
  cases instantiated : (Action.instantiateGraph (depth + 1) realm root).run w with
  | error =>
    unfold evaluateFrom at ended
    simp [depth_ofDepth, bind, EStateM.bind, instantiated] at ended
  | ok outcome w' =>
    rw [Attempt.Meets, instantiated] at changes
    cases outcome with
    | error error =>
      -- A module was refused, and will be again.
      have refused : (ofDepth embedding (depth + 1)).evaluateFrom realm root w =
          .ok (.rejected error) w' := by
        apply Action.Meets.eq
        unfold evaluateFrom
        rw [depth_ofDepth, Action.meets_bind_of_ended instantiated]
        exact ⟨rfl, rfl⟩
      cases refused.symm.trans ended
      have refuses := Action.refuses_instantiateGraph steady orderly
        (sourced.decided linkage made linked) .refl instantiated later projected
      unfold evaluateFrom
      rw [depth_ofDepth, Action.meets_bind, Attempt.meets_run]
      exact refuses.imp (fun _ h => h) (fun _ _ h => ⟨congrArg some h.1, h.2⟩) fun _ _ h => h.elim
    | ok _ =>
      -- The whole graph has come into the realm, where its root keeps what it came to.
      have settled' := settled.changes changes
      have installed := installed_of_instantiateGraph orderly (fun x path => ?graph) instantiated
      case graph =>
        have made' := sourced.isMade_of_needs made path
        refine ⟨hasRecord_of_isMade made', fun module custom => ?_⟩
        rw [custom] at made'
        exact made'.elim
      obtain ⟨slot, found⟩ := installed.slot root .refl
      have cyclic : (w'.record root).isCyclic = true :=
        (Changes.isMade changes made).isCyclic
      obtain ⟨steps, slot', found', evaluated, keeps⟩ :=
        evaluated_of_evaluateFrom settled' instantiated found cyclic ended
      have onward : Steps w' w₂ := steps.trans later
      have cyclic₁ : (w₁.record root).isCyclic = true := by
        rw [(steps.extends settled'.orderly).isCyclic, cyclic]
      have found₂ := later.evaluated (steps.orderly settled'.orderly) cyclic₁ found' evaluated
      rw [Action.Meets, evaluateFrom_evaluated embedding depth
        (installed.steps settled'.orderly onward) .refl found₂ evaluated]
      refine ⟨?_, .refl⟩
      rw [← keeps]
      cases slot'.error <;> rfl

end Engine

/-! ### Entry scripts -/

namespace Setup
variable {embedding : Embedding} {depth : Nat} {realm : RealmId} {id : RecordId}
  {w₀ w w₁ w₂ : World} {outcome : Outcome RecordId}

/-- When a record that takes part in cycles has been linked, running it evaluates it. -/
theorem meets_runRecord_linked {stuck : World → Prop} {post : Outcome RecordId → World → Prop}
    (linked : (embedding.link depth id).run w = .ok (.ok ()) w₁)
    (cyclic : (w₁.record id).isCyclic = true)
    (evaluates : Action.Meets stuck ((Setup.ofDepth embedding depth).evaluate realm id)
      (fun settlement => post <|
        match settlement.error? with
        | some error => .error error
        | none => .ok id) w₁) :
    Action.Meets stuck ((Setup.ofDepth embedding depth).runRecord realm id).run post w := by
  have linked' : ((Setup.ofDepth embedding depth).link id).run w = .ok (.ok ()) w₁ := by
    rwa [Setup.link, Setup.ofDepth, depth_ofDepth]
  rw [Attempt.meets_run, runRecord, Attempt.meets_bind_of_ended linked', Attempt.meets_bind,
    Attempt.meets_get, cyclic]
  rw [if_neg (by simp), Attempt.meets_bind, Attempt.meets_lift]
  refine evaluates.mono fun settlement w₂ h => ?_
  cases settlement <;> exact h

/-- What running a record of the resolver's has come to, it comes to again. -/
theorem runRecord_again (steady : embedding.Steady) (settled : Settled w₀ w)
    (sourced : w.Sourced embedding) (linkage : w.Linkage [])
    (made : (w.record id).IsMade embedding)
    (ended : ((Setup.ofDepth embedding depth).runRecord realm id).run w = .ok outcome w₁)
    (later : Steps w₁ w₂) (projected : w₂.Projected embedding) :
    Action.Meets (fun _ => False) ((Setup.ofDepth embedding depth).runRecord realm id).run
      (fun outcome' w₃ => outcome' = outcome ∧ Touches w₂ w₃) w₂ := by
  have orderly := settled.orderly
  have idle : ¬ w.IsLinking id := fun linking => List.not_mem_nil ((linkage.linking id).mp linking)
  have begins (w : World) : ((Setup.ofDepth embedding depth).link id).run w =
      (embedding.link depth id).run w := by rw [Setup.link, Setup.ofDepth, depth_ofDepth]
  have links := (embedding.keeps_link depth id).meets w
  have upholds := ((sustained_sourced embedding).link depth id trivial).meets ⟨sourced, linkage⟩
  cases linked : (embedding.link depth id).run w with
  | error =>
    rw [runRecord, Attempt.run_bind, begins, linked] at ended
    cases ended
  | ok answer w' =>
    rw [Attempt.Meets, linked] at links upholds
    cases answer with
    | error error =>
      rw [runRecord, Attempt.run_bind, begins, linked] at ended
      cases ended
      have again := Embedding.link_again orderly made idle linked later
      rw [runRecord, Action.Meets, Attempt.run_bind, begins, again]
      exact ⟨rfl, .refl⟩
    | ok _ =>
      have settled' := settled.changes links.changes
      have made' := links.changes.isMade made
      obtain ⟨sourced', linkage'⟩ := upholds
      have meets : Action.Meets (fun _ => True)
          ((Setup.ofDepth embedding depth).runRecord realm id).run
          (fun outcome w₁ => ∃ settlement,
            (Setup.ofDepth embedding depth).evaluate realm id w' = .ok settlement w₁ ∧
            outcome =
              match settlement.error? with
              | some error => .error error
              | none => .ok id) w :=
        meets_runRecord_linked linked made'.isCyclic <|
          (Action.meets_ended _ w').mono fun settlement _ evaluated => ⟨settlement, evaluated, rfl⟩
      rw [Action.Meets, ended] at meets
      obtain ⟨settlement, evaluated, rfl⟩ := meets
      cases depth with
      | zero => cases linked
      | succ depth =>
        have steps : Action.Meets (Steps w')
            ((Setup.ofDepth embedding (depth + 1)).evaluate realm id) (fun _ => Steps w') w' :=
          (keepsSteps_ofDepth embedding (depth + 2)).evaluate realm id w' settled'.orderly
        rw [Action.Meets, evaluated] at steps
        have onward : Steps w' w₂ := steps.trans later
        have linked₂ := Embedding.link_again orderly made idle linked onward
        have made₂ := onward.carries (Record.IsMade embedding) (fun _ _ revised => revised.isMade)
          settled'.orderly (hasRecord_of_isMade made') made'
        have isLinked (isStatic : (w'.record id).kind = .static) : w'.IsLinked id := by
          by_cases before : (w.record id).kind = .static
          · exact Embedding.linkedAs_of_link before idle linked
          · cases (Embedding.run_link_of_made made before depth).symm.trans linked
            exact absurd isStatic before
        refine meets_runRecord_linked linked₂ made₂.isCyclic ?_
        exact (evaluateFrom_again steady settled' sourced' linkage' made' isLinked evaluated later
          projected).mono fun settlement' w₃ h => ⟨by rw [h.1], h.2⟩

/-- What running an entry script has come to, it comes to again. -/
theorem runEntry_again {location : Url} {source : List UInt8} (steady : embedding.Steady)
    (settled : Settled w₀ w) (sourced : w.Sourced embedding) (linkage : w.Linkage [])
    (ended : ((Setup.ofDepth embedding depth).runEntry realm location source).run w =
      .ok outcome w₁)
    (steps : Steps w₁ w₂) (remembers : Remembers w₁ w₂) (projected : w₂.Projected embedding)
    (source' : List UInt8) :
    Action.Meets (fun _ => False)
      ((Setup.ofDepth embedding depth).runEntry realm location source').run
      (fun outcome' w₃ => outcome' = outcome ∧ Touches w₂ w₃) w₂ := by
  have resolves (source : List UInt8) (w : World) :
      ((Setup.ofDepth embedding depth).embedding.resolveLoaded location source).run w =
        (embedding.resolveLoaded location source).run w := rfl
  have edits := (embedding.keeps_resolveLoaded location source : Attempt.Keeps Edits _).meets w
  have upholds :=
    ((sustained_sourced embedding).loaded location source trivial).meets ⟨sourced, linkage⟩
  have answers : Action.Meets _ (embedding.resolveLoaded location source).run _ w :=
    Embedding.meets_lookup_made sourced.filed (.loaded location source)
  rw [runEntry_eq, Attempt.run_bind, resolves] at ended
  rw [runEntry_eq, Action.Meets, Attempt.run_bind, resolves]
  cases resolved : (embedding.resolveLoaded location source).run w with
  | error =>
    rw [resolved] at ended
    cases ended
  | ok answer w' =>
    rw [Attempt.Meets, resolved] at edits upholds
    rw [Action.Meets, resolved] at answers
    rw [resolved] at ended
    cases answer with
    | error error =>
      cases ended
      rw [Embedding.resolveLoaded_again resolved remembers]
      exact ⟨rfl, .refl⟩
    | ok id =>
      have kept : Action.Meets (Remembers w')
          ((Setup.ofDepth embedding depth).runRecord realm id).run (fun _ => Remembers w') w' := by
        have sustained := sustained_remembers embedding w'
        exact upholds_runRecord sustained.toBorne
          ((sustained.ofDepth depth).walk sustained.lasting) realm id trivial w' (refl w')
      have run : ((Setup.ofDepth embedding depth).runRecord realm id).run w' = .ok outcome w₁ :=
        ended
      rw [Action.Meets, run] at kept
      rw [Embedding.resolveLoaded_again resolved (IsTrans.trans _ _ _ kept remembers)]
      exact runRecord_again steady (settled.changes edits.changes) upholds.1 upholds.2
        (answers.2 id rfl) run steps projected

end Setup

theorem World.Touches.journal {w w' : World} (touches : Touches w w') :
    ∃ events, w'.journal.toList = w.journal.toList ++ events ∧
      ∀ event ∈ events, event.isTold = true := by
  induction touches with
  | refl => exact ⟨[], by simp, by simp⟩
  | tail _ touch ih =>
    obtain ⟨events, journal, told⟩ := ih
    cases touch with
    | write event isTold =>
      refine ⟨events ++ [event], by simp [World.write, journal], fun other member => ?_⟩
      rcases List.mem_append.mp member with member | member
      · exact told other member
      · rwa [List.mem_singleton.mp member]
    | _ => exact ⟨events, journal, told⟩

/-- When host values are steady, what running an entry script in a realm has come to, its record or
an error, it comes to again whenever a script runs there under the same location, whatever was done
meanwhile and whatever source it brings. And then nothing is written down but what scripts announce
and exported names that are passed on: no body begins, and neither the loader nor the compiler is
asked. -/
theorem entry_outcomes_recur (embedding : Embedding) (depth : Nat) (before between : List Operation)
    (realm : RealmId) (location : Url) (source source' : List UInt8)
    (outcome : Outcome RecordId) (w₀ w w₁ w₂ : World) (steady : embedding.Steady)
    (fresh : w₀.Fresh) (named : w₀.Named) (unlinked : w₀.Unlinked) (empty : w₀.cache.entries = [])
    (ran : (Setup.ofDepth embedding depth).run before w₀ = .ok () w)
    (ended : ((Setup.ofDepth embedding depth).runEntry realm location source).run w =
      .ok outcome w₁)
    (meanwhile : (Setup.ofDepth embedding depth).run between w₁ = .ok () w₂) :
    ∃ w₃ events,
      ((Setup.ofDepth embedding depth).runEntry realm location source').run w₂ = .ok outcome w₃ ∧
        w₃.journal.toList = w₂.journal.toList ++ events ∧
        ∀ event ∈ events, event.isTold = true := by
  have ran₁ : (Setup.ofDepth embedding depth).run [.runEntry realm location source] w =
      .ok () w₁ := by
    apply Action.Meets.eq
    rw [Setup.run, Setup.perform, Action.meets_bind, Action.meets_discard, Action.Meets, ended]
    exact ⟨rfl, rfl⟩
  have settled := Setup.upholds_settled embedding depth before w₀ w₀ fresh.settled
  have sourced := Setup.sustains_run (sustained_sourced embedding) depth before w₀
    ⟨.of_unlinked named empty unlinked, unlinked.linkage⟩
  have projected := Setup.sustains_run (sustained_projected steady) depth before w₀ fresh.projected
  rw [Action.Meets, ran] at settled sourced projected
  have settled₁ := Setup.upholds_settled embedding depth [.runEntry realm location source] w₀ w
    settled
  have projected₁ := Setup.sustains_run (sustained_projected steady) depth
    [.runEntry realm location source] w projected
  rw [Action.Meets, ran₁] at settled₁ projected₁
  have projected₂ := Setup.sustains_run (sustained_projected steady) depth between w₁ projected₁
  have steps := Setup.steps_run embedding depth between settled₁.orderly
  rw [Action.Meets, meanwhile] at projected₂
  rw [Action.after, meanwhile] at steps
  obtain ⟨_, w₃, again, rfl, touches⟩ := (Setup.runEntry_again steady settled sourced.1 sourced.2
    ended steps (Setup.remembers_of_run meanwhile) projected₂ source').exists_ended
  obtain ⟨events, journal, told⟩ := touches.journal
  exact ⟨w₃, events, again, journal, told⟩

/-- Scripts everywhere that import a host module without a value. -/
def valueless : Embedding where
  hosts := [("host:none", .value (.give .null) .given)]
  load _ _ := { outcome := .ok [] }
  compile _ _ :=
    { outcome := .ok (.static { imports := [⟨"host:none", []⟩] } fun _ => .give .undefined) }
  compileWrapper _ _ := { outcome := .ok (.give .undefined) }

theorem steady_valueless : valueless.Steady := by
  intro name script workplace registered
  have given : script = .give .null := by
    simp only [valueless, List.lookup_cons, List.lookup_nil] at registered
    split at registered <;> cases registered
    rfl
  subst given
  intro realm depth global w value w' ended _ depth' global' other
  cases ended
  exact rfl

/-- A script that fails because of the host module fails again after it did so in another worker,
and after discovery is over; and another source is not looked at. -/
theorem entry_fails_again_in_valueless :
    let error := ModuleError.defect "host module host:none projected to null"
    ∃ w₁ w₂ w₃, ((Setup.ofDepth valueless 3).runEntry (.worker 0)
        (.fileUrl "" ['/', 'a']) []).run (ofModules []) = .ok (.error error) w₁ ∧
      (Setup.ofDepth valueless 3).run
        [.runEntry (.worker 1) (.fileUrl "" ['/', 'a']) [], .lock] w₁ = .ok () w₂ ∧
      ((Setup.ofDepth valueless 3).runEntry (.worker 0) (.fileUrl "" ['/', 'a']) [0xff]).run w₂ =
        .ok (.error error) w₃ := by
  intro error
  have computed : ((Setup.ofDepth valueless 3).runEntry (.worker 0)
      (.fileUrl "" ['/', 'a']) []).run.ends (ofModules []) (fun outcome w₁ =>
        outcome = .error (.defect "host module host:none projected to null") &&
        ((Setup.ofDepth valueless 3).run
          [.runEntry (.worker 1) (.fileUrl "" ['/', 'a']) [], .lock]).ends w₁ fun _ _ => true) =
      true := by
    cbv
  obtain ⟨outcome, w₁, ended, computed⟩ := Action.exists_of_ends computed
  rw [Bool.and_eq_true, decide_eq_true_eq] at computed
  obtain ⟨rfl, computed⟩ := computed
  obtain ⟨_, w₂, meanwhile, _⟩ := Action.exists_of_ends computed
  have named : (ofModules []).Named := by
    constructor
    all_goals
      intros
      contradiction
  obtain ⟨w₃, _, again, _⟩ := entry_outcomes_recur valueless 3 [] _ (.worker 0) _ [] [0xff]
    _ _ _ w₁ w₂ steady_valueless (fresh_ofModules []) named (unlinked_of_all _ (by cbv)) rfl rfl
    ended meanwhile
  exact ⟨w₁, w₂, w₃, ended, meanwhile, again⟩

end ModuleGraph
