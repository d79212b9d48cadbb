import ModuleGraph.Proofs.DependenciesFirst

/-!
What a fulfilled evaluation says of the graph. Its root has been evaluated well, and so has all that
can be reached from it by requests, but for what failed later: a module can run while an enclosing
walk holds open what it requests, and stays evaluated well when that walk fails.
-/
namespace ModuleGraph
open World Relation

namespace World
variable {w₀ w w' : World} {realm : RealmId} {id root : RecordId}

/-- There is a path of requests. -/
abbrev Needs (w : World) : RecordId → RecordId → Prop :=
  ReflTransGen fun a b => b ∈ (w.record a).requested

/-- A module was evaluated and keeps an error. -/
def Failed (w : World) (realm : RealmId) (id : RecordId) : Prop :=
  ∃ slot error, (w.realm realm).slot? id = some slot ∧ slot.status = .evaluated ∧
    slot.error = some error

theorem Failed.not_fulfilled (h : w.Failed realm id) : ¬ w.Fulfilled realm id := by
  obtain ⟨slot, error, found, _, failed⟩ := h
  rw [fulfilled_of_found found]
  simp [failed]

/-- While no walk is under way, what has begun has been evaluated well or has failed. -/
theorem Settled.fulfilled_or_failed (h : Settled w₀ w) (begun : w.Begun realm id) :
    w.Fulfilled realm id ∨ w.Failed realm id := by
  obtain ⟨slot, found, begun⟩ := begun
  have evaluated : slot.status = .evaluated := by
    cases status : slot.status with
    | instantiated => exact absurd status begun
    | evaluating =>
      have busy := ((h.orderly realm).busy id).mpr (by simp [Realm.status?, found, status])
      simp [Realm.busy, h.idle realm] at busy
    | evaluated => rfl
  cases error : slot.error with
  | none => exact .inl ⟨slot, found, evaluated, error⟩
  | some error' => exact .inr ⟨slot, error', found, evaluated, error⟩

theorem Settled.fulfilled_of_ready (h : Settled w₀ w) (ready : w.Ready realm id) :
    w.Fulfilled realm id := by
  refine (h.fulfilled_or_failed ready.begun).resolve_right fun failed => ?_
  obtain ⟨slot, error, found, evaluated, keeps⟩ := failed
  obtain ⟨slot', found', status⟩ := ready
  cases found.symm.trans found'
  simp [evaluated, keeps] at status

/-- From a module that was evaluated well, requests lead to such modules only, as long as they lead
to none that was held open and failed. -/
theorem Settled.fulfilled_of_needs (h : Settled w₀ w) (cyclic : ∀ id, (w.record id).isCyclic = true)
    (well : w.Fulfilled realm root)
    (spared : ∀ s p, w.Needs root s → p ∈ (w.record s).requested → w.RanInside realm s p →
      ¬ w.Failed realm p) {x : RecordId} (path : w.Needs root x) : w.Fulfilled realm x := by
  -- What is left out of the invariant `Kept` is just what was held open, and that has not failed.
  induction path with
  | refl => exact well
  | @tail s p path requested ih =>
    rcases h.sound.kept realm s (cyclic s) ih p requested (cyclic p) with well | ⟨opened, inside⟩
    · exact well
    · have begun := (h.orderly.begun_iff_wasOpened (cyclic p)).mpr opened
      exact (h.fulfilled_or_failed begun).resolve_right (spared s p path requested inside)

end World

/-- A top-level evaluation leaves no walk under way, and the root of one that is fulfilled has been
evaluated well. -/
theorem Setup.meets_evaluate (embedding : Embedding) (depth : Nat) {w₀ w : World}
    (h : Settled w₀ w) (realm : RealmId) (root : RecordId) :
    Action.Meets Sound ((Setup.ofDepth embedding depth).evaluate realm root)
      (fun settlement w' => Settled w₀ w' ∧
        (settlement = .fulfilled → w'.Fulfilled realm root)) w := by
  rw [Setup.evaluate, Setup.ofDepth, Engine.evaluateFrom, Action.meets_bind, Attempt.meets_run]
  refine ((Action.keeps_instantiateGraph _ realm root).meets w).imp
    (fun _ changes => (h.changes changes).sound)
    (fun error w₁ changes => ⟨h.changes changes, fun same => by cases same⟩) fun _ w₁ changes => ?_
  rw [Action.meets_bind]
  refine (Engine.meets_settledWalk embedding depth (h.changes changes) realm root).imp
    (fun _ h => h) fun outcome w₂ walked => ?_
  obtain ⟨settled, ready⟩ := walked
  split
  · exact ⟨settled, fun _ => settled.fulfilled_of_ready (ready [] rfl)⟩
  all_goals exact ⟨settled, fun same => by cases same⟩

/-- When all records take part in cycles, as those do that the resolver makes, and a top-level
evaluation is fulfilled after any run, then its root has been evaluated without an error. Everything
that can be reached from the root by requests has been evaluated without an error as well, exactly
if no module that can be reached ran while an enclosing walk held open a requested one that failed.
-/
theorem fulfilled_iff_none_held_open_failed (embedding : Embedding) (depth : Nat)
    (operations : List Operation) (w₀ w w' : World) (fresh : w₀.Fresh)
    (cyclic : ∀ id, (w₀.record id).isCyclic = true) (realm : RealmId) (root : RecordId)
    (ran : (Setup.ofDepth embedding depth).run operations w₀ = .ok () w)
    (settles : (Setup.ofDepth embedding depth).evaluate realm root w = .ok .fulfilled w') :
    w'.Fulfilled realm root ∧
      ((∀ x, w'.Needs root x → w'.Fulfilled realm x) ↔
        ¬ ∃ s p, w'.Needs root s ∧ p ∈ (w'.record s).requested ∧ w'.RanInside realm s p ∧
          w'.Failed realm p) := by
  have before := Setup.upholds_settled embedding depth operations w₀ w₀ fresh.settled
  rw [Action.Meets, ran] at before
  have meets := Setup.meets_evaluate embedding depth before realm root
  rw [Action.Meets, settles] at meets
  obtain ⟨settled, well⟩ := meets
  have cyclic' (id : RecordId) : (w'.record id).isCyclic = true := by
    rw [settled.records.isCyclic, cyclic]
  refine ⟨well rfl, fun all => ?_, fun spared x path => ?_⟩
  · rintro ⟨s, p, path, requested, _, failed⟩
    exact failed.not_fulfilled (all p (path.tail requested))
  · refine settled.fulfilled_of_needs cyclic' (well rfl) (fun s p path requested inside failed => ?_)
      path
    exact spared ⟨s, p, path, requested, inside, failed⟩

/-- Three sources: `a` imports `d` and fails, `d` requires `s` when it runs, and `s` imports `a`. -/
def heldOpen : Embedding where
  load _ _ := { outcome := .ok [] }
  compile _ location := { outcome := .ok <|
    match location with
    | "file:///a" =>
      .static { imports := [⟨"./d", []⟩] } fun _ => .raise { value := .string "boom" }
    | "file:///s" => .static { imports := [⟨"./a", []⟩] } fun _ => .give .undefined
    | _ => .wrapper }
  compileWrapper _ _ :=
    { outcome := .ok <| .newFunction "d" (fun arguments =>
        match arguments with
        | [_, _, .function require] => .call require [.string "./s"] fun _ => .give .undefined
        | _ => .give .undefined) fun wrapper => .give (.function wrapper) }

/-- Running `a` as an entry script, which fails while `s` has been evaluated inside of it. -/
def entryHeldOpen : List Operation := [.runEntry (.worker 0) (.fileUrl "" ['/', 'a']) []]

/-- After that, the evaluation of `s` is fulfilled although `s` requests `a`, which has failed. -/
theorem evaluate_heldOpen :
    ∃ w w', (Setup.ofDepth heldOpen 16).run entryHeldOpen (ofModules []) = .ok () w ∧
      (Setup.ofDepth heldOpen 16).evaluate (.worker 0) ⟨2⟩ w = .ok .fulfilled w' ∧
      ⟨0⟩ ∈ (w'.record ⟨2⟩).requested ∧ w'.Failed (.worker 0) ⟨0⟩ := by
  have computed : ((Setup.ofDepth heldOpen 16).run entryHeldOpen).ends (ofModules []) (fun _ w =>
      ((Setup.ofDepth heldOpen 16).evaluate (.worker 0) ⟨2⟩).ends w fun settlement w' =>
        settlement = .fulfilled && (w'.record ⟨2⟩).requested.contains ⟨0⟩ &&
          ((w'.realm (.worker 0)).slot? ⟨0⟩).any fun slot =>
            slot.status = .evaluated && slot.error.isSome) = true := by
    cbv
  obtain ⟨_, w, ran, computed⟩ := Action.exists_of_ends computed
  obtain ⟨settlement, w', settles, computed⟩ := Action.exists_of_ends computed
  simp only [Bool.and_eq_true, decide_eq_true_eq, Option.any_eq_true, Option.isSome_iff_exists,
    List.contains_iff_mem] at computed
  obtain ⟨⟨rfl, requested⟩, slot, found, evaluated, error, keeps⟩ := computed
  exact ⟨w, w', ran, settles, requested, slot, error, found, evaluated, keeps⟩

/-- So a fulfilled evaluation does not say that all that can be reached has been evaluated well, not
even when the resolver made all records. -/
theorem not_fulfilled_throughout :
    ¬ ∀ (embedding : Embedding) (depth : Nat) (operations : List Operation) (w w' : World)
        (realm : RealmId) (root : RecordId),
      (Setup.ofDepth embedding depth).run operations (ofModules []) = .ok () w →
      (Setup.ofDepth embedding depth).evaluate realm root w = .ok .fulfilled w' →
      ∀ x, w'.Needs root x → w'.Fulfilled realm x := by
  intro claim
  obtain ⟨w, w', ran, settles, requested, failed⟩ := evaluate_heldOpen
  exact failed.not_fulfilled (claim heldOpen 16 entryHeldOpen w w' _ _ ran settles ⟨0⟩
    (.single requested))

theorem fulfilled_iff_none_held_open_failed_of_heldOpen :
    ∃ w w', (Setup.ofDepth heldOpen 16).evaluate (.worker 0) ⟨2⟩ w = .ok .fulfilled w' ∧
      w'.Fulfilled (.worker 0) ⟨2⟩ ∧ ∃ s p, w'.Needs ⟨2⟩ s ∧ p ∈ (w'.record s).requested ∧
        w'.RanInside (.worker 0) s p ∧ w'.Failed (.worker 0) p := by
  obtain ⟨w, w', ran, settles, requested, failed⟩ := evaluate_heldOpen
  obtain ⟨well, exactly⟩ := fulfilled_iff_none_held_open_failed heldOpen 16 entryHeldOpen _ w w'
    (fresh_ofModules []) (fun _ => rfl) _ _ ran settles
  refine ⟨w, w', settles, well, ?_⟩
  by_contra spared
  exact failed.not_fulfilled (exactly.mpr spared ⟨0⟩ (.single requested))

end ModuleGraph
