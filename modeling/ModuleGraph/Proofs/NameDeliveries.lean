import Mathlib
import ModuleGraph.NameMemo.Program

/-!
Who is told the names, and when. The first computation that begins settles the names. Everyone who
asked before that is told then, in the order in which they asked; everyone who asks later is told at
once. What they do when they are told nests in this, to any depth. What a program shows can so be
read off its steps.
-/
namespace ModuleGraph
namespace NameMemo
variable {τ : Type} {names : List String}

/-! ### What a program shows -/

/-- The names that a step computes, if it asks for a computation. -/
def Step.computed? : Step τ → Option (List String)
  | .compute names _ => some names
  | _ => none

/-- Who waits after a step, if the names are not known. -/
def Step.asker? : Step τ → Option (Asker τ)
  | .ask tag andThen => some ⟨tag, andThen⟩
  | _ => none

/-- What a step shows if the names are not known and it begins no computation. -/
def Step.waitingNote : Step τ → Note τ
  | .look => .looked none
  | .ask tag _ => .asked tag false
  | .compute _ _ => .computed false

mutual

/-- What a step shows once the names are known: who asks is told before the question is over, and
does something then. -/
def Step.shown (names : List String) : Step τ → List (Note τ)
  | .look => [.looked (some names)]
  | .ask tag andThen => .told tag names :: (shownAll names andThen ++ [.asked tag true])
  | .compute _ _ => [.computed false]

/-- What steps show once the names are known. -/
def shownAll (names : List String) : List (Step τ) → List (Note τ)
  | [] => []
  | step :: rest => step.shown names ++ shownAll names rest

end

/-- What comes of it that one who waited is told. -/
def Asker.shown (names : List String) (asker : Asker τ) : List (Note τ) :=
  .told asker.tag names :: shownAll names asker.andThen

/-- What steps show while some wait and nobody has computed the names. The first computation is
followed by what those do who waited for it: those of before, and those who asked meanwhile. -/
def transcript (waiting : List (Asker τ)) : List (Step τ) → List (Note τ)
  | [] => []
  | .look :: later => .looked none :: transcript waiting later
  | .ask tag andThen :: later => .asked tag false :: transcript (waiting ++ [⟨tag, andThen⟩]) later
  | .compute names meanwhile :: later =>
    .computing names :: meanwhile.map Step.waitingNote ++
      (waiting ++ meanwhile.filterMap Step.asker?).flatMap (Asker.shown names) ++
      .computed true :: shownAll names later

/-- Up to the first computation everyone has to wait. -/
theorem transcript_append {before : List (Step τ)} (none : ∀ step ∈ before, step.computed? = none)
    (waiting : List (Asker τ)) (later : List (Step τ)) :
    transcript waiting (before ++ later) = before.map Step.waitingNote ++
      transcript (waiting ++ before.filterMap Step.asker?) later := by
  induction before generalizing waiting with
  | nil => simp
  | cons step before ih =>
    obtain ⟨here, others⟩ := List.forall_mem_cons.mp none
    cases step with
    | look => exact congrArg (_ :: ·) (ih others waiting)
    | ask tag andThen =>
      have rest := ih others (waiting ++ [⟨tag, andThen⟩])
      rw [List.append_assoc] at rest
      exact congrArg (_ :: ·) rest
    | compute => cases here

theorem transcript_of_waits {program : List (Step τ)}
    (none : ∀ step ∈ program, step.computed? = none) :
    transcript [] program = program.map Step.waitingNote := by
  simpa [transcript] using transcript_append none [] []

/-! ### Courses -/

/-- A note of someone who has to wait: nothing was seen, or the question was put in the queue. -/
inductive Note.Waits : Note τ → Prop
  | looked : Waits (.looked none)
  | asked (tag : τ) : Waits (.asked tag false)

/-- What goes on once the names are known: they are seen, nobody computes them, and who asks is told
before the question is over. -/
inductive Settled (names : List String) : List (Note τ) → Prop
  | nil : Settled names []
  | looked {rest : List (Note τ)} (later : Settled names rest) :
      Settled names (.looked (some names) :: rest)
  | asked (tag : τ) {inner rest : List (Note τ)} (within : Settled names inner)
      (later : Settled names rest) :
      Settled names (.told tag names :: (inner ++ .asked tag true :: rest))
  | computed {rest : List (Note τ)} (later : Settled names rest) :
      Settled names (.computed false :: rest)

/-- Some are told the names one after the other, and each does something then. -/
inductive Delivered (names : List String) : List τ → List (Note τ) → Prop
  | nil : Delivered names [] []
  | told (tag : τ) {tags : List τ} {inner rest : List (Note τ)} (within : Settled names inner)
      (later : Delivered names tags rest) :
      Delivered names (tag :: tags) (.told tag names :: (inner ++ rest))

/-- Who asked. -/
def Note.asked? : Note τ → Option τ
  | .asked tag _ => some tag
  | _ => none

/-- Who was told which names. -/
def Note.told? : Note τ → Option (τ × List String)
  | .told tag names => some (tag, names)
  | _ => none

/-- Which names were computed. -/
def Note.computing? : Note τ → Option (List String)
  | .computing names => some names
  | _ => none

/-- Whether it is noted that a computation has settled the names. -/
def Note.isWin : Note τ → Bool
  | .computed won => won
  | _ => false

/-- The course of a whole program. Either all have to wait; or a computation settles the names, all
who asked before are told in their order, and from then on the names are known. -/
inductive Course : List (Note τ) → Option (List String) → Prop
  | waits {notes : List (Note τ)} (waits : ∀ note ∈ notes, note.Waits) : Course notes none
  | settles {names : List String} {early meanwhile deliveries late : List (Note τ)}
      (before : ∀ note ∈ early, note.Waits)
      (during : ∀ note ∈ meanwhile, note.Waits ∨ note = .computed false)
      (delivered : Delivered names ((early ++ meanwhile).filterMap Note.asked?) deliveries)
      (after : Settled names late) :
      Course (early ++ .computing names :: meanwhile ++ deliveries ++ .computed true :: late)
        (some names)

/-! ### Task by task -/

namespace Machine
variable {machine machine' machine'' : Machine τ} {n m : Nat}

/-- Some number of tasks leads from one machine to another. -/
inductive Leads : Nat → Machine τ → Machine τ → Prop
  | refl (machine : Machine τ) : Leads 0 machine machine
  | step {n : Nat} {machine next last : Machine τ} (does : machine.step? = some next)
      (rest : Leads n next last) : Leads (n + 1) machine last

theorem Leads.trans (first : Leads n machine machine') (second : Leads m machine' machine'') :
    Leads (n + m) machine machine'' := by
  induction first with
  | refl => rwa [Nat.zero_add]
  | step does _ ih =>
    rw [Nat.add_right_comm]
    exact .step does (ih second)

theorem Leads.run (leads : Leads n machine machine') (fuel : Nat) :
    run (n + fuel) machine = run fuel machine' := by
  induction leads with
  | refl => rw [Nat.zero_add]
  | step does _ ih =>
    rw [Nat.add_right_comm, Machine.run, does]
    exact ih

theorem run_of_done (done : machine.agenda = []) (fuel : Nat) : run fuel machine = machine := by
  have nothing : machine.step? = none := by rw [step?, done]
  cases fuel with
  | zero => rfl
  | succ fuel => rw [run, nothing]

end Machine

/-- A memo that has settled names. -/
def settled (names : List String) : NameMemo (Asker τ) := { progress := .known names }

/-- Once the names are known, steps show what they show then. -/
theorem leads_of_settled (names : List String) (steps : List (Step τ)) (rest : List (Task τ))
    (trace : List (Note τ)) :
    ∃ n, n ≤ weights steps ∧ Machine.Leads n ⟨settled names, steps.map Task.step ++ rest, trace⟩
      ⟨settled names, rest, trace ++ shownAll names steps⟩ := by
  match steps with
  | [] => exact ⟨0, Nat.zero_le _, by simpa [shownAll] using .refl _⟩
  | .look :: later =>
    obtain ⟨n, bound, leads⟩ := leads_of_settled names later rest (trace ++ [.looked (some names)])
    rw [List.append_assoc] at leads
    refine ⟨n + 1, ?_, .step rfl leads⟩
    rw [weights, Step.weight]
    omega
  | .ask tag andThen :: later =>
    obtain ⟨n, bound, leads⟩ := leads_of_settled names andThen
      (.note (.asked tag true) :: (later.map Task.step ++ rest)) (trace ++ [.told tag names])
    obtain ⟨m, bound', leads'⟩ := leads_of_settled names later rest
      (trace ++ [.told tag names] ++ shownAll names andThen ++ [.asked tag true])
    have shown : trace ++ [.told tag names] ++ shownAll names andThen ++ [.asked tag true] ++
        shownAll names later = trace ++ shownAll names (.ask tag andThen :: later) := by
      simp [shownAll, Step.shown]
    rw [shown] at leads'
    refine ⟨n + (m + 1) + 1, ?_, .step rfl (leads.trans (.step rfl leads'))⟩
    rw [weights, Step.weight]
    omega
  | .compute _ _ :: later =>
    obtain ⟨n, bound, leads⟩ := leads_of_settled names later rest (trace ++ [.computed false])
    rw [List.append_assoc] at leads
    refine ⟨n + 1, ?_, .step rfl leads⟩
    rw [weights, Step.weight]
    omega
termination_by weights steps
decreasing_by all_goals
  simp only [weights, Step.weight]
  omega

/-- What is shown then is what goes on then. -/
theorem settled_shownAll (names : List String) (steps : List (Step τ)) :
    Settled names (shownAll names steps) := by
  match steps with
  | [] => exact .nil
  | .look :: later => exact .looked (settled_shownAll names later)
  | .ask tag andThen :: later =>
    have asked := Settled.asked tag (settled_shownAll names andThen) (settled_shownAll names later)
    simpa [shownAll, Step.shown] using asked
  | .compute _ _ :: later => exact .computed (settled_shownAll names later)

/-! ### Those who wait -/

/-- The tasks that it takes to tell those who wait. -/
def delay (waiters : List (Asker τ)) : Nat :=
  (waiters.map fun asker => 1 + weights asker.andThen).sum

/-- Those who wait are told in their order. -/
theorem leads_of_waiters (names : List String) (waiters : List (Asker τ)) (rest : List (Task τ))
    (trace : List (Note τ)) :
    ∃ n, n ≤ delay waiters ∧
      Machine.Leads n ⟨settled names, waiters.map (Task.tell · names) ++ rest, trace⟩
        ⟨settled names, rest, trace ++ waiters.flatMap (Asker.shown names)⟩ := by
  induction waiters generalizing trace with
  | nil => exact ⟨0, Nat.zero_le _, by simpa using .refl _⟩
  | cons asker waiters ih =>
    obtain ⟨n, bound, leads⟩ := leads_of_settled names asker.andThen
      (waiters.map (Task.tell · names) ++ rest) (trace ++ [.told asker.tag names])
    obtain ⟨m, bound', leads'⟩ :=
      ih (trace ++ [.told asker.tag names] ++ shownAll names asker.andThen)
    have shown : trace ++ [.told asker.tag names] ++ shownAll names asker.andThen ++
        waiters.flatMap (Asker.shown names) =
          trace ++ (asker :: waiters).flatMap (Asker.shown names) := by
      simp [Asker.shown]
    rw [shown] at leads'
    refine ⟨n + m + 1, ?_, .step rfl (leads.trans leads')⟩
    simp only [delay, List.map_cons, List.sum_cons] at bound' ⊢
    omega

theorem delivered_shown (names : List String) (waiters : List (Asker τ)) :
    Delivered names (waiters.map Asker.tag) (waiters.flatMap (Asker.shown names)) := by
  induction waiters with
  | nil => exact .nil
  | cons asker waiters ih => exact .told asker.tag (settled_shownAll names asker.andThen) ih

/-- Nothing comes of a step but that its question is put in the queue. -/
def Step.Waits (progress : NameProgress) (step : Step τ) : Prop :=
  ∀ waiters agenda trace,
    Machine.step? ⟨⟨progress, waiters⟩, .step step :: agenda, trace⟩ =
      some ⟨⟨progress, waiters ++ step.asker?.toList⟩, agenda, trace ++ [step.waitingNote]⟩

theorem Step.waits_unknown {step : Step τ} (none : step.computed? = none) :
    step.Waits .unknown := by
  intro waiters agenda trace
  cases step with
  | look => simp [Machine.step?, Machine.log, names?, asker?, waitingNote]
  | ask tag andThen => rfl
  | compute => cases none

theorem Step.waits_computing (step : Step τ) : step.Waits .computing := by
  intro waiters agenda trace
  cases step with
  | look | compute =>
    simp [Machine.step?, Machine.log, names?, begin?, asker?, waitingNote]
  | ask tag andThen => rfl

theorem leads_of_waits {progress : NameProgress} {steps : List (Step τ)}
    (waits : ∀ step ∈ steps, step.Waits progress) (waiters : List (Asker τ))
    (rest : List (Task τ)) (trace : List (Note τ)) :
    Machine.Leads steps.length ⟨⟨progress, waiters⟩, steps.map Task.step ++ rest, trace⟩
      ⟨⟨progress, waiters ++ steps.filterMap Step.asker?⟩, rest,
        trace ++ steps.map Step.waitingNote⟩ := by
  induction steps generalizing waiters trace with
  | nil => simpa using .refl _
  | cons step steps ih =>
    obtain ⟨here, later⟩ := List.forall_mem_cons.mp waits
    have leads := ih later (waiters ++ step.asker?.toList) (trace ++ [step.waitingNote])
    refine .step (here ..) ?_
    cases asks : step.asker? <;> simpa [asks] using leads

theorem length_add_delay_le (steps : List (Step τ)) :
    steps.length + delay (steps.filterMap Step.asker?) ≤ weights steps := by
  induction steps with
  | nil => exact Nat.le_refl _
  | cons step steps ih =>
    cases step <;>
      simp only [delay, List.length_cons, List.filterMap_cons, Step.asker?, List.map_cons,
        List.sum_cons, weights, Step.weight] at ih ⊢ <;>
      omega

theorem asked_of_waits (steps : List (Step τ)) :
    (steps.map Step.waitingNote).filterMap Note.asked? =
      (steps.filterMap Step.asker?).map Asker.tag := by
  induction steps with
  | nil => rfl
  | cons step steps ih =>
    cases step <;>
      simp only [List.map_cons, List.filterMap_cons, Step.waitingNote, Step.asker?, Note.asked?, ih]

theorem Step.waitingNote_waits_or (step : Step τ) :
    step.waitingNote.Waits ∨ step.waitingNote = .computed false := by
  cases step with
  | look => exact .inl .looked
  | ask tag _ => exact .inl (.asked tag)
  | compute => exact .inr rfl

theorem Step.waitingNote_waits {step : Step τ} (none : step.computed? = none) :
    step.waitingNote.Waits := by
  refine step.waitingNote_waits_or.resolve_right fun computed => ?_
  cases step <;> cases none <;> cases computed

/-! ### Whole programs -/

theorem weights_append (steps steps' : List (Step τ)) :
    weights (steps ++ steps') = weights steps + weights steps' := by
  induction steps with
  | nil => exact (Nat.zero_add _).symm
  | cons step steps ih => rw [List.cons_append, weights, weights, ih, Nat.add_assoc]

/-- The first computation of a program, if it has one. -/
theorem exists_first_compute {program : List (Step τ)} {names : List String}
    (first : program.findSome? Step.computed? = some names) : ∃ before meanwhile later,
      program = before ++ .compute names meanwhile :: later ∧
        ∀ step ∈ before, step.computed? = none := by
  obtain ⟨before, step, later, rfl, computes, none⟩ := List.findSome?_eq_some_iff.mp first
  cases step with
  | look | ask => cases computes
  | compute _ meanwhile =>
    cases computes
    exact ⟨before, meanwhile, later, rfl, none⟩

/-- Every program comes to an end, and shows what can be read off its steps. -/
theorem leads_transcript (program : List (Step τ)) :
    ∃ n memo, n ≤ weights program ∧ memo.names? = program.findSome? Step.computed? ∧
      Machine.Leads n { agenda := program.map Task.step } ⟨memo, [], transcript [] program⟩ := by
  cases first : program.findSome? Step.computed? with
  | none =>
    have none := List.findSome?_eq_none_iff.mp first
    have leads := leads_of_waits (fun step member => Step.waits_unknown (none step member)) [] [] []
    rw [List.append_nil, List.nil_append, ← transcript_of_waits none] at leads
    exact ⟨_, _, (Nat.le_add_right ..).trans (length_add_delay_le program), rfl, leads⟩
  | some names =>
    obtain ⟨before, meanwhile, later, rfl, none⟩ := exists_first_compute first
    -- the questions before the first computation and those while it goes on wait for it
    let waiters := before.filterMap Step.asker? ++ meanwhile.filterMap Step.asker?
    let early := before.map Step.waitingNote
    let during := meanwhile.map Step.waitingNote
    have questions := leads_of_waits (fun step member => Step.waits_unknown (none step member)) []
      (.step (.compute names meanwhile) :: later.map Task.step) []
    have computes := leads_of_waits (fun step (_ : step ∈ meanwhile) => step.waits_computing)
      (before.filterMap Step.asker?) (.publish names :: later.map Task.step)
      (early ++ [.computing names])
    obtain ⟨n, bound, tells⟩ := leads_of_waiters names waiters
      (.note (.computed true) :: later.map Task.step) (early ++ [.computing names] ++ during)
    obtain ⟨m, bound', ends⟩ := leads_of_settled names later [] (early ++ [.computing names] ++
      during ++ waiters.flatMap (Asker.shown names) ++ [.computed true])
    have shown : early ++ [.computing names] ++ during ++ waiters.flatMap (Asker.shown names) ++
        [.computed true] ++ shownAll names later =
          transcript [] (before ++ .compute names meanwhile :: later) := by
      simp [transcript_append none, transcript, early, during, waiters]
    rw [List.append_nil, shown] at ends
    rw [← List.map_cons, ← List.map_append] at questions
    refine ⟨_, _, ?bound, rfl, questions.trans (.step rfl (computes.trans (.step rfl
      (tells.trans (.step rfl ends)))))⟩
    have bound₁ := length_add_delay_le before
    have bound₂ := length_add_delay_le meanwhile
    have split : delay waiters =
        delay (before.filterMap Step.asker?) + delay (meanwhile.filterMap Step.asker?) := by
      simp [delay, waiters]
    rw [weights_append, weights, Step.weight]
    omega

/-- What can be read off the steps of a program is its course. -/
theorem course_transcript (program : List (Step τ)) :
    Course (transcript [] program) (program.findSome? Step.computed?) := by
  cases first : program.findSome? Step.computed? with
  | none =>
    have none := List.findSome?_eq_none_iff.mp first
    rw [transcript_of_waits none]
    exact .waits <| by simpa using fun step member => Step.waitingNote_waits (none step member)
  | some names =>
    obtain ⟨before, meanwhile, later, rfl, none⟩ := exists_first_compute first
    rw [transcript_append none, transcript, List.nil_append, ← List.append_assoc,
      ← List.append_assoc]
    refine .settles ?_ ?_ ?_ (settled_shownAll names later)
    · simpa using fun step member => Step.waitingNote_waits (none step member)
    · simpa using fun step _ => step.waitingNote_waits_or
    · rw [List.filterMap_append, asked_of_waits, asked_of_waits, ← List.map_append]
      exact delivered_shown names _

/-! ### Every moment -/

/-- Whether a task publishes names. -/
def Task.publishes : Task τ → Bool
  | .publish _ => true
  | _ => false

/-- The number of times that names will be published. -/
def publications (agenda : List (Task τ)) : Nat := agenda.countP Task.publishes

@[simp] theorem publications_cons (task : Task τ) (agenda : List (Task τ)) :
    publications (task :: agenda) = publications agenda + if task.publishes then 1 else 0 :=
  List.countP_cons ..

@[simp] theorem publications_steps (steps : List (Step τ)) (agenda : List (Task τ)) :
    publications (steps.map Task.step ++ agenda) = publications agenda := by
  simp [publications, List.countP_eq_zero, Task.publishes]

@[simp] theorem publications_tells (waiters : List (Asker τ)) (agenda : List (Task τ)) :
    publications (waiters.map (Task.tell · names) ++ agenda) = publications agenda := by
  simp [publications, List.countP_eq_zero, Task.publishes]

namespace Machine
variable {machine next : Machine τ}

/-- Names are going to be published just while they are computed; and nobody waits for names that
are known. -/
structure InPhase (machine : Machine τ) : Prop where
  publishing : publications machine.agenda = if machine.memo.progress = .computing then 1 else 0
  served : ∀ names, machine.memo.progress = .known names → machine.memo.waiters = []

theorem inPhase_start (program : List (Step τ)) :
    InPhase { agenda := program.map Task.step } where
  publishing := by simp [publications, List.countP_eq_zero, Task.publishes]
  served _ known := by cases known

/-- A task keeps the phases in order, and names that are known stay the same. -/
theorem InPhase.step (phase : machine.InPhase) (does : machine.step? = some next) :
    next.InPhase ∧
      ∀ names, machine.memo.progress = .known names → next.memo.progress = .known names := by
  obtain ⟨⟨progress, waiters⟩, agenda, trace⟩ := machine
  obtain ⟨publishing, served⟩ := phase
  cases agenda with
  | nil => cases does
  | cons task rest =>
    rw [publications_cons] at publishing
    cases task with
    | note note =>
      cases does
      exact ⟨⟨publishing, served⟩, fun _ known => known⟩
    | tell asker names =>
      cases does
      exact ⟨⟨(publications_steps ..).trans publishing, served⟩, fun _ known => known⟩
    | publish names =>
      cases does
      have computing : progress = .computing := by
        by_contra other
        simp [other, Task.publishes] at publishing
      subst computing
      have none : publications rest = 0 := by simpa [Task.publishes] using publishing
      refine ⟨⟨?_, fun _ _ => rfl⟩, fun _ known => by cases known⟩
      simpa [publish, Task.publishes] using none
    | step step =>
      cases step with
      | look =>
        cases does
        exact ⟨⟨publishing, served⟩, fun _ known => known⟩
      | ask tag andThen =>
        cases progress with
        | known names =>
          cases does
          refine ⟨⟨?_, served⟩, fun _ known => known⟩
          exact (publications_steps ..).trans publishing
        | unknown | computing =>
          cases does
          exact ⟨⟨publishing, fun _ known => by cases known⟩, fun _ known => by cases known⟩
      | compute names meanwhile =>
        cases progress with
        | unknown =>
          cases does
          have none : publications rest = 0 := by simpa [Task.publishes] using publishing
          refine ⟨⟨?_, fun _ known => by cases known⟩, fun _ known => by cases known⟩
          show publications (meanwhile.map Task.step ++ .publish names :: rest) = 1
          simp [Task.publishes, none]
        | computing | known =>
          cases does
          exact ⟨⟨publishing, served⟩, fun _ known => known⟩

/-- The same holds over any number of tasks. -/
theorem InPhase.run (phase : machine.InPhase) (fuel : Nat) :
    (run fuel machine).InPhase ∧ ∀ names, machine.memo.progress = .known names →
      (Machine.run fuel machine).memo.progress = .known names := by
  induction fuel generalizing machine with
  | zero => exact ⟨phase, fun _ known => known⟩
  | succ fuel ih =>
    unfold Machine.run
    split
    · rename_i next does
      obtain ⟨phase', stays⟩ := phase.step does
      obtain ⟨phase'', stays'⟩ := ih phase'
      exact ⟨phase'', fun names known => stays' names (stays names known)⟩
    · exact ⟨phase, fun _ known => known⟩

theorem run_add (n m : Nat) (machine : Machine τ) :
    Machine.run (n + m) machine = Machine.run m (Machine.run n machine) := by
  induction n generalizing machine with
  | zero => rw [Nat.zero_add, Machine.run]
  | succ n ih =>
    rw [Nat.add_right_comm, Machine.run, Machine.run]
    split
    · exact ih _
    · rename_i nothing
      cases m with
      | zero => rfl
      | succ m => rw [Machine.run, nothing]

end Machine

/-! ### Who is told -/

theorem Settled.told_perm {notes : List (Note τ)} (settled : Settled names notes) :
    (notes.filterMap Note.told?).Perm ((notes.filterMap Note.asked?).map (·, names)) := by
  induction settled with
  | nil => exact .refl _
  | looked _ ih | computed _ ih => exact ih
  | asked tag _ _ within later =>
    simp only [List.filterMap_cons, List.filterMap_append, Note.told?, Note.asked?, List.map_append,
      List.map_cons]
    exact ((within.append later).cons _).trans List.perm_middle.symm

theorem Delivered.told_perm {tags : List τ} {notes : List (Note τ)}
    (delivered : Delivered names tags notes) : (notes.filterMap Note.told?).Perm
      ((tags ++ notes.filterMap Note.asked?).map (·, names)) := by
  induction delivered with
  | nil => exact .refl _
  | told tag within _ ih =>
    simp only [List.filterMap_cons, List.filterMap_append, Note.told?, Note.asked?, List.map_append,
      List.map_cons, List.cons_append] at ih ⊢
    refine .cons _ ((within.told_perm.append ih).trans ?_)
    rw [← List.append_assoc, ← List.append_assoc]
    exact List.perm_append_comm.append_right _

theorem Note.Waits.told? {note : Note τ} (waits : note.Waits) : note.told? = none := by
  cases waits <;> rfl

theorem filterMap_told_of_waits {notes : List (Note τ)}
    (waits : ∀ note ∈ notes, note.Waits ∨ note = .computed false) :
    notes.filterMap Note.told? = [] := by
  refine List.filterMap_eq_nil_iff.mpr fun note member => ?_
  rcases waits note member with waits | rfl
  · exact waits.told?
  · rfl

/-- Everyone who asked is told exactly once, with the names that were settled, if some were. -/
theorem Course.told_perm {notes : List (Note τ)} {names? : Option (List String)}
    (course : Course notes names?) : (notes.filterMap Note.told?).Perm
      (names?.toList.flatMap fun names => (notes.filterMap Note.asked?).map (·, names)) := by
  cases course with
  | waits waits =>
    rw [filterMap_told_of_waits fun note member => .inl (waits note member)]
    exact .refl _
  | settles before during delivered after =>
    simp only [List.filterMap_append, List.filterMap_cons, Note.told?, Note.asked?,
      filterMap_told_of_waits fun note member => .inl (before note member),
      filterMap_told_of_waits during, List.nil_append, Option.toList_some, List.flatMap_singleton]
    rw [List.map_append]
    simpa using delivered.told_perm.append after.told_perm

/-- A note that tells neither that a computation begins nor that it has settled the names. -/
def Note.IsIdle (note : Note τ) : Prop := note.computing? = none ∧ note.isWin = false

theorem Settled.isIdle {notes : List (Note τ)} (settled : Settled names notes) :
    ∀ note ∈ notes, note.IsIdle := by
  induction settled with
  | nil => simp
  | looked _ ih | computed _ ih => exact List.forall_mem_cons.mpr ⟨⟨rfl, rfl⟩, ih⟩
  | asked tag _ _ within later =>
    refine List.forall_mem_cons.mpr ⟨⟨rfl, rfl⟩, List.forall_mem_append.mpr ⟨within, ?_⟩⟩
    exact List.forall_mem_cons.mpr ⟨⟨rfl, rfl⟩, later⟩

theorem Delivered.isIdle {tags : List τ} {notes : List (Note τ)}
    (delivered : Delivered names tags notes) : ∀ note ∈ notes, note.IsIdle := by
  induction delivered with
  | nil => simp
  | told tag within _ ih =>
    exact List.forall_mem_cons.mpr ⟨⟨rfl, rfl⟩, List.forall_mem_append.mpr ⟨within.isIdle, ih⟩⟩

theorem Note.IsIdle.of_waits {note : Note τ} (waits : note.Waits ∨ note = .computed false) :
    note.IsIdle := by
  rcases waits with waits | rfl
  · cases waits <;> exact ⟨rfl, rfl⟩
  · exact ⟨rfl, rfl⟩

theorem computing_of_isIdle {notes : List (Note τ)} (idle : ∀ note ∈ notes, note.IsIdle) :
    notes.filterMap Note.computing? = [] :=
  List.filterMap_eq_nil_iff.mpr fun note member => (idle note member).1

theorem countP_isWin_of_isIdle {notes : List (Note τ)} (idle : ∀ note ∈ notes, note.IsIdle) :
    notes.countP Note.isWin = 0 :=
  List.countP_eq_zero.mpr fun note member => by simp [(idle note member).2]

/-- The names that were settled are all that was ever computed, and this is noted just once. -/
theorem Course.computed {notes : List (Note τ)} {names? : Option (List String)}
    (course : Course notes names?) : notes.filterMap Note.computing? = names?.toList ∧
      notes.countP Note.isWin = names?.toList.length := by
  cases course with
  | waits waits =>
    have idle (note : Note τ) (member : note ∈ notes) : note.IsIdle :=
      .of_waits (.inl (waits note member))
    exact ⟨computing_of_isIdle idle, countP_isWin_of_isIdle idle⟩
  | @settles names early meanwhile deliveries late before during delivered after =>
    have idle : ∀ note ∈ early, note.IsIdle := fun note member =>
      .of_waits (.inl (before note member))
    have idle' : ∀ note ∈ meanwhile, note.IsIdle := fun note member =>
      .of_waits (during note member)
    constructor
    · simp only [List.filterMap_append, List.filterMap_cons, Note.computing?,
        computing_of_isIdle idle, computing_of_isIdle idle', computing_of_isIdle delivered.isIdle,
        computing_of_isIdle after.isIdle]
      rfl
    · simp only [List.countP_append, List.countP_cons, Note.isWin, countP_isWin_of_isIdle idle,
        countP_isWin_of_isIdle idle', countP_isWin_of_isIdle delivered.isIdle,
        countP_isWin_of_isIdle after.isIdle]
      rfl

/-- Any program on a memo comes to an end, whatever those who are told and the computations do with
the memo meanwhile, and what it shows can be read off its steps: the first of them that computes
names settles them. At any moment at which the names are known nobody waits for them, and they stay
known as they are. At most one computation begins, and just this one settles the names, if any does.
Everyone who asks is told exactly once then, with these names, and nobody is told otherwise: who
asked before is told in turn, in the order of the questions, and who asks afterwards is told before
the question is over. Until the names are known nothing is seen when one looks, and from then on
they are. -/
theorem asked_are_told_once (program : List (Step τ)) :
    let moment (n : Nat) : Machine τ := Machine.run n { agenda := program.map Task.step }
    let last := moment (weights program)
    last.agenda = [] ∧ last.trace = trace program ∧
    trace program = transcript [] program ∧
    last.memo.names? = program.findSome? Step.computed? ∧
    (∀ n names, (moment n).memo.names? = some names → (moment n).memo.waiters = [] ∧
      ∀ m, n ≤ m → (moment m).memo.names? = some names) ∧
    Course (trace program) last.memo.names? ∧
    (trace program).filterMap Note.computing? = last.memo.names?.toList ∧
    (trace program).countP Note.isWin = last.memo.names?.toList.length ∧
    ((trace program).filterMap Note.told?).Perm (last.memo.names?.toList.flatMap fun names =>
      ((trace program).filterMap Note.asked?).map (·, names)) := by
  intro moment last
  obtain ⟨n, memo, bound, settles, leads⟩ := leads_transcript program
  have ended : last = ⟨memo, [], transcript [] program⟩ := by
    obtain ⟨fuel, enough⟩ := Nat.exists_eq_add_of_le bound
    show Machine.run (weights program) _ = _
    rw [enough, leads.run, Machine.run_of_done rfl]
  have shown : trace program = transcript [] program := congrArg Machine.trace ended
  have course := course_transcript program
  rw [← settles] at course
  rw [ended, shown]
  refine ⟨rfl, rfl, rfl, settles, fun n names known => ?_, course, course.computed.1,
    course.computed.2, course.told_perm⟩
  rw [names?_eq_some] at known
  have phase := ((Machine.inPhase_start program).run n).1
  refine ⟨phase.served names known, fun m later => ?_⟩
  obtain ⟨fuel, rfl⟩ := Nat.exists_eq_add_of_le later
  rw [names?_eq_some, show moment (n + fuel) = _ from Machine.run_add n fuel _]
  exact (phase.run fuel).2 names known

/-- A callback that asks again while names are delivered is told in between: two waiters, the first
of which asks again and tries to compute other names. -/
example : (trace [.ask 1 [.ask 3 [.look], .compute ["y"] []], .compute ["x"] [.look, .ask 2 []],
    .look]).filterMap Note.told? = [(1, ["x"]), (3, ["x"]), (2, ["x"])] := by
  decide

end NameMemo
end ModuleGraph
