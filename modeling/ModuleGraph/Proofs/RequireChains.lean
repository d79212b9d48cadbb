import ModuleGraph.Proofs.ScriptSteps
import ModuleGraph.Proofs.Wrappers

/-!
Chains of `require`. A wrapper-style module whose body lets an exception escape fails with the error
that the exception was raised for, and whoever requires it gets that error as an exception again.
However many modules require each other in a row, the error that comes out at the top is the one from
the bottom, and each of the modules keeps it.
-/
namespace ModuleGraph
open World Engine Relation

namespace Engine

/-- A function is the `require` function of a module and gets a specifier. -/
def Requires (w : World) (function : FunctionRef) (arguments : List Value) (referrer : RecordId)
    (specifier : String) : Prop :=
  (w.realm function.realm).functions[function.index]? = some (.require referrer) ∧
    arguments.head? = some (.string specifier)

/-- What such a function attempts. -/
def requiring (embedding : Embedding) (engine : Engine) (realm : RealmId) (referrer : RecordId)
    (specifier : String) : Attempt Value := do
  let id ← embedding.importFor .resolver referrer specifier
  requireFrom embedding engine realm id

/-- A wrapper-style module has not begun in a realm; when it runs, its program gives a function, and
the call of this function begins with a script in a world. -/
inductive Begins (embedding : Embedding) (depth : Nat) (realm : RealmId) (id : RecordId)
    (w : World) : Script → World → Prop
  | intro {module : WrapperModule} {slot : Slot} {wrapper : FunctionRef} {arguments : List Value}
    {descriptor : ObjectRef} {code : List Value → Script} {w₁ : World}
    (found : w.record id = .wrapper module) (fresh : ¬ w.Begun realm id)
    (present : ((w.withWrapper realm id).realm realm).slot? id = some slot)
    (opened : ((ofDepth embedding (depth + 1)).openWrapper realm id module slot.instanceIndex).run
      ((w.withWrapper realm id).opening realm id) = .ok (.ok (wrapper, arguments, descriptor)) w₁)
    (called : (w₁.realm wrapper.realm).functions[wrapper.index]? = some (.script code)) :
    Begins embedding depth realm id w (code arguments) w₁

/-- An exception escapes from a script: in the end `base` is thrown, or raised for an error that
`require` has failed with, and every script on the way passes on what it gets. Modules that are
required on the way raise it anew for the error that they fail with. -/
inductive Escapes (embedding : Embedding) (realm : RealmId) (base : Exception) :
    Nat → Script → World → Exception → List RecordId → Prop
  /-- The script throws by itself. -/
  | thrown {depth : Nat} {script : Script} {w w' : World}
    (threw : script.run (ofDepth embedding depth).powers (.of realm) w = .ok (.error base) w') :
    Escapes embedding realm base depth script w base []
  /-- Its `require` fails with an error, at whatever stage. -/
  | refused {depth : Nat} {script : Script} {w w' w₁ : World} {function : FunctionRef}
    {arguments : List Value} {referrer : RecordId} {specifier : String} {error : ModuleError}
    (passes : script.PassesOn (ofDepth embedding (depth + 1)).powers (.of realm) function arguments
      w' base w)
    (requires : Requires w' function arguments referrer specifier)
    (failed : (requiring embedding (ofDepth embedding depth) realm referrer specifier).run w' =
      .ok (.error error) w₁)
    (raises : base = .ofError error) :
    Escapes embedding realm base (depth + 1) script w base []
  /-- It calls a function that it escapes from. -/
  | called {depth : Nat} {script : Script} {w w' : World} {function : FunctionRef}
    {arguments : List Value} {code : List Value → Script} {raised : Exception} {ids : List RecordId}
    (passes : script.PassesOn (ofDepth embedding (depth + 1)).powers (.of realm) function arguments
      w' raised w)
    (calls : (w'.realm function.realm).functions[function.index]? = some (.script code))
    (escapes : Escapes embedding realm base depth (code arguments) w' raised ids) :
    Escapes embedding realm base (depth + 1) script w raised ids
  /-- It requires a module that it escapes from. -/
  | required {depth : Nat} {script body : Script} {w w' w₁ w₂ : World} {function : FunctionRef}
    {arguments : List Value} {referrer id : RecordId} {specifier : String} {raised : Exception}
    {ids : List RecordId}
    (passes : script.PassesOn (ofDepth embedding (depth + 3)).powers (.of realm) function arguments
      w' (.ofError raised.toError) w)
    (requires : Requires w' function arguments referrer specifier)
    (imported : (embedding.importFor .resolver referrer specifier).run w' = .ok (.ok id) w₁)
    (begins : Begins embedding depth realm id w₁ body w₂)
    (escapes : Escapes embedding realm base depth body w₂ raised ids) :
    Escapes embedding realm base (depth + 3) script w (.ofError raised.toError) (id :: ids)

/-- Modules that keep an error for good. -/
def Keep (w : World) (realm : RealmId) (ids : List RecordId) (error : ModuleError) : Prop :=
  ∀ x ∈ ids, (w.record x).isCyclic = true ∧ w.FailedWith realm x error

section
variable {embedding : Embedding} {depth : Nat} {realm : RealmId} {id : RecordId} {base : Exception}
  {w w₁ w₂ : World} {body : Script} {raised : Exception} {ids : List RecordId} {error : ModuleError}

theorem Keep.steps (keep : Keep w realm ids error) (h : w.Orderly) (steps : Steps w w₁) :
    Keep w₁ realm ids error := by
  intro x member
  obtain ⟨cyclic, failed⟩ := keep x member
  exact ⟨((steps.extends h).isCyclic x).trans cyclic, steps.failedWith h cyclic failed⟩

theorem Keep.cons (first : Keep w realm [id] error) (others : Keep w realm ids error) :
    Keep w realm (id :: ids) error :=
  List.forall_mem_cons.mpr ⟨first id (List.mem_singleton_self id), others⟩

/-! ### Calls -/

theorem functionCode_of_found {code : FunctionCode} {function : FunctionRef}
    (found : (w.realm function.realm).functions[function.index]? = some code) :
    Action.functionCode function w = .ok code w := by
  apply Action.Meets.eq
  unfold Action.functionCode
  rw [Action.meets_bind, Action.meets_get, found]
  exact ⟨rfl, rfl⟩

/-- A call of a function with a script ends as the script does. -/
theorem call_of_run {code : List Value → Script} {function : FunctionRef} {arguments : List Value}
    {outcome : Except Exception Value}
    (found : (w.realm function.realm).functions[function.index]? = some (.script code))
    (ran : (code arguments).run (ofDepth embedding depth).powers (.of realm) w =
      .ok outcome w₁) :
    (ofDepth embedding (depth + 1)).call (.of realm) function arguments w = .ok outcome w₁ := by
  show callFrom embedding (ofDepth embedding depth) (.of realm) function arguments w = _
  rw [callFrom, Action.run_bind, functionCode_of_found found]
  exact ran

/-- An error that `require` fails with is raised as an exception. -/
theorem call_of_requiring {function : FunctionRef} {arguments : List Value} {referrer : RecordId}
    {specifier : String} (requires : Requires w function arguments referrer specifier)
    (failed : (requiring embedding (ofDepth embedding depth) realm referrer specifier).run w =
      .ok (.error error) w₁) :
    (ofDepth embedding (depth + 1)).call (.of realm) function arguments w =
      .ok (.error (.ofError error)) w₁ := by
  obtain ⟨found, head⟩ := requires
  show callFrom embedding (ofDepth embedding depth) (.of realm) function arguments w = _
  rw [callFrom, Action.run_bind, functionCode_of_found found]
  show requireCall embedding (ofDepth embedding depth) realm referrer arguments w = _
  apply Action.Meets.eq
  unfold requireCall
  rw [head]
  exact (Action.meets_bind_of_ended failed _ _).mpr ⟨rfl, rfl⟩

/-! ### Modules -/

/-- A module that is walked by itself is evaluating when its body begins. -/
theorem slot?_opening {slot : Slot} (found : (w.realm realm).slot? id = some slot) :
    ((w.opening realm id).realm realm).slot? id =
      some { slot with status := .evaluating, index := 0, ancestor := 0 } := by
  have found₁ : ((w.walking realm id).realm realm).slot? id = some slot :=
    (slot?_rearranged (by simp) w realm realm id).trans found
  rw [World.opening, realm_write, slot?_running, slot?_opened found₁]

/-- A module that is walked by itself comes step by step to the beginning of its body. -/
theorem steps_opening {slot : Slot} (h : w.Orderly)
    (found : (w.realm realm).slot? id = some slot) (instantiated : slot.status = .instantiated)
    (cyclic : (w.record id).isCyclic = true) : Steps w (w.opening realm id) := by
  have h₁ := h.walking realm id
  have found₁ : ((w.walking realm id).realm realm).slot? id = some slot :=
    (slot?_rearranged (by simp) w realm realm id).trans found
  let entered := (w.walking realm id).entered realm id 0
  have found₂ := (slot?_running entered realm (some id) id).trans (slot?_opened found₁ 0)
  have mayRun : MayRun (entered.running realm (some id)) realm id
      { slot with status := .evaluating, index := 0, ancestor := 0 } := fun _ =>
    ⟨rfl, h₁.life_opened found₁ instantiated cyclic 0⟩
  exact (((Relation.ReflTransGen.single (.walking realm id)).tail
    (.entered realm id 0 (walks_walking w realm id) found₁ instantiated cyclic)).tail
    (.running realm (some id))).tail
    (.began realm id found₂ mayRun)

theorem Begins.isCyclic (begins : Begins embedding depth realm id w body w₁) :
    (w.record id).isCyclic = true := by
  obtain ⟨found, -⟩ := begins
  rw [found]
  rfl

/-- There is nothing to link. -/
theorem Begins.run_link (begins : Begins embedding depth realm id w body w₁) (depth : Nat) :
    (embedding.link (depth + 1) id).run w = .ok (.ok ()) w := by
  obtain ⟨found, -⟩ := begins
  rw [embedding.run_link_of_isSettled (by rw [found]; trivial), found]
  rfl

/-- A module that begins comes to its body step by step. -/
theorem Begins.steps (begins : Begins embedding depth realm id w body w₁) (h : w.Orderly) :
    Steps w w₁ := by
  obtain @⟨module, slot, _, _, _, _, _, found, fresh, present, opened, -⟩ := begins
  have changes := (Action.keeps_instantiateGraph (depth + 1) realm id).meets w
  rw [Attempt.Meets, run_instantiateGraph_wrapper found] at changes
  have h₁ := Changes.orderly changes h
  obtain ⟨_, present', instantiated⟩ := slot?_withWrapper fresh
  cases present.symm.trans present'
  have found₁ := (record_withWrapper w realm id id).trans found
  have opening := steps_opening h₁ present instantiated (by rw [found₁]; rfl)
  have h₂ := opening.orderly h₁
  have keeps := keepsSteps_ofDepth embedding (depth + 1)
  have present₂ := slot?_opening present
  have opens := (upholds_openWrapper (carried_steps _).touched.scripted (keeps.upholds realm h₂) id
    module fun _ exports steps => steps.exposed h₂ present₂ (by simp [World.opening, Event.stage?])
      fun _ => Instance.becomes_setExports exports).meets .refl
  rw [Attempt.Meets, opened] at opens
  exact (Changes.steps changes).trans (opening.trans opens)

/-- When the body of a module throws, a walk from the module fails with the error of the exception,
and the module keeps it. -/
theorem Begins.exists_walk (begins : Begins embedding depth realm id w body w₁) (h : w.Orderly)
    (threw : body.run (ofDepth embedding depth).powers (.of realm) w₁ = .ok (.error raised) w₂)
    (during : Steps w₁ w₂) :
    ∃ w₀ w₃, (∀ depth, (Action.instantiateGraph depth realm id).run w = .ok (.ok ()) w₀) ∧
      (ofDepth embedding (depth + 2)).walk realm id w₀ =
        .ok (.error (.thrown raised.toError)) w₃ ∧
      Steps w₂ w₃ ∧ Keep w₃ realm [id] raised.toError := by
  have before := begins.steps h
  have cyclic := begins.isCyclic
  obtain ⟨found, fresh, present, opened, called⟩ := begins
  have changes := (Action.keeps_instantiateGraph (depth + 1) realm id).meets w
  rw [Attempt.Meets, run_instantiateGraph_wrapper found] at changes
  have h₁ := Changes.orderly changes h
  obtain ⟨_, present', instantiated⟩ := slot?_withWrapper fresh
  cases present.symm.trans present'
  have found₁ := (record_withWrapper w realm id id).trans found
  have cyclic₁ : ((w.withWrapper realm id).record id).isCyclic = true :=
    ((changes.steps.extends h).isCyclic id).trans cyclic
  obtain ⟨w₃, walked, after⟩ := exists_walk_of_runWrapper h₁ found₁ present instantiated
    (run_runWrapper_of_error opened (call_of_run called threw))
  have failed := failedWith_of_instantiated h₁ present instantiated cyclic₁ walked
  refine ⟨_, w₃, fun depth => run_instantiateGraph_wrapper found depth realm, walked, after, ?_⟩
  intro x member
  obtain rfl := List.mem_singleton.mp member
  have whole : Steps w w₃ := (before.trans during).trans after
  exact ⟨((whole.extends h).isCyclic x).trans cyclic, failed⟩

end

/-! ### Chains -/

section
variable {embedding : Embedding} {depth : Nat} {realm : RealmId} {base : Exception}
  {w : World} {script : Script} {raised : Exception} {ids : List RecordId}

/-- An exception that escapes from a script is what the script ends with. It stands for the error
that everything has begun with, and all modules that were required on the way keep that error. -/
theorem Escapes.exists_run (escapes : Escapes embedding realm base depth script w raised ids)
    (h : w.Orderly) :
    raised.toError = base.toError ∧
    ∃ w', script.run (ofDepth embedding depth).powers (.of realm) w = .ok (.error raised) w' ∧
      Steps w w' ∧ Keep w' realm ids base.toError := by
  -- Along the chain, from the script at its bottom up.
  induction escapes with
  | @thrown depth script w w' threw =>
    have ran : Action.Meets (Steps w)
        (script.run (ofDepth embedding depth).powers (.of realm)) _ w :=
      upholds_script (carried_steps w).touched.scripted
        ((keepsSteps_ofDepth embedding depth).upholds realm h) rfl _ w .refl
    rw [Action.Meets, threw] at ran
    exact ⟨rfl, w', threw, ran, by simp [Keep]⟩
  | @refused depth script w w' w₁ function arguments referrer specifier error passes requires failed
      raises =>
    obtain ⟨before, ends⟩ := exists_run_of_passesOn h passes
    have calls := call_of_requiring requires failed
    have during := (keepsSteps_ofDepth embedding (depth + 1)).call (.of realm) function arguments w'
      (before.orderly h)
    rw [Action.Meets, calls] at during
    obtain ⟨w₂, ended, after⟩ := ends w₁ (raises ▸ calls) during
    exact ⟨rfl, w₂, ended, (before.trans during).trans after, by simp [Keep]⟩
  | called passes calls _ ih =>
    obtain ⟨before, ends⟩ := exists_run_of_passesOn h passes
    have h₁ := before.orderly h
    obtain ⟨same, w₁, ran, during, keep⟩ := ih h₁
    obtain ⟨w₂, ended, after⟩ := ends w₁ (call_of_run calls ran) during
    exact ⟨same, w₂, ended, (before.trans during).trans after,
      keep.steps (during.orderly h₁) after⟩
  | @required depth script body w w' w₁ w₂ function arguments referrer id specifier raised ids passes
      requires imported begins _ ih =>
    obtain ⟨before, ends⟩ := exists_run_of_passesOn h passes
    have h' := before.orderly h
    have edits :=
      (embedding.keeps_importFor (R := World.Edits) .resolver referrer specifier).meets w'
    rw [Attempt.Meets, imported] at edits
    have h₁ := Changes.orderly edits.changes h'
    have h₂ := (begins.steps h₁).orderly h₁
    obtain ⟨same, w₃, ran, inside, keep⟩ := ih h₂
    obtain ⟨w₀, w₄, instantiates, walked, after, keeps⟩ := begins.exists_walk h₁ ran inside
    have failed := requireFrom_of_walk (instantiates _) walked (begins.run_link _)
    have calls : (ofDepth embedding (depth + 3)).call (.of realm) function arguments w' =
        .ok (.error (.ofError raised.toError)) w₄ :=
      call_of_requiring requires ((Attempt.run_bind_of_ended imported _).trans failed)
    have during := (keepsSteps_ofDepth embedding (depth + 3)).call (.of realm) function arguments w'
      h'
    rw [Action.Meets, calls] at during
    obtain ⟨w₅, ended, later⟩ := ends w₄ calls during
    refine ⟨same, w₅, ended, (before.trans during).trans later, ?_⟩
    have h₃ := inside.orderly h₂
    exact ((same ▸ keeps).cons (keep.steps h₃ after)).steps (after.orderly h₃) later

end
end Engine

/-- However many wrapper-style modules require each other in a row and let the exception escape that
they get, an entry script that begins such a chain fails with just the error that came up at its end,
and every module of the chain keeps this error for good. A thrown value that was raised for no error
is carried as it is; and what `require` has failed with comes out as it was. -/
theorem require_chain_keeps_error (embedding : Embedding) (depth : Nat) (w w₁ w₂ : World)
    (reached : w.Reached) (realm : RealmId) (location : Url) (source : List UInt8)
    (first : RecordId) (body : Script) (base raised : Exception) (ids : List RecordId)
    (loaded : (embedding.resolveLoaded location source).run w = .ok (.ok first) w₁)
    (begins : Begins embedding depth realm first w₁ body w₂)
    (escapes : Escapes embedding realm base depth body w₂ raised ids) :
    (∃ w', ((Setup.ofDepth embedding (depth + 2)).runEntry realm location source).run w =
        .ok (.error base.toError) w' ∧
      ∀ w₃, Steps w' w₃ → ∀ id ∈ first :: ids, w₃.FailedWith realm id base.toError) ∧
    (base.cause = none → base.toError = .evaluationRejected base.value) ∧
    ∀ error, base = .ofError error → base.toError = error := by
  refine ⟨?_, fun bare => by rw [Exception.toError, bare]; rfl, by rintro error rfl; rfl⟩
  have edits := (embedding.keeps_resolveLoaded (R := World.Edits) location source).meets w
  rw [Attempt.Meets, loaded] at edits
  have h₁ := Changes.orderly edits.changes reached.orderly
  have h₂ := (begins.steps h₁).orderly h₁
  obtain ⟨same, w₃, ran, inside, keep⟩ := escapes.exists_run h₂
  obtain ⟨w₀, w₄, instantiates, walked, after, keeps⟩ := begins.exists_walk h₁ ran inside
  have h₃ := inside.orderly h₂
  have h₄ := after.orderly h₃
  have linked : ((Setup.ofDepth embedding (depth + 2)).link first).run w₁ = .ok (.ok ()) w₁ := by
    rw [Setup.link, Setup.ofDepth, depth_ofDepth]
    exact begins.run_link (depth + 1)
  have evaluated : (Setup.ofDepth embedding (depth + 2)).evaluate realm first w₁ =
      .ok (.rejected raised.toError) w₄ := evaluateFrom_of_walk (instantiates _) walked
  have runs : ((Setup.ofDepth embedding (depth + 2)).runRecord realm first).run w₁ =
      .ok (.error raised.toError) w₄ := by
    apply Action.Meets.eq
    rw [Attempt.meets_run, Setup.runRecord, Attempt.meets_bind_of_ended linked, Attempt.meets_bind,
      Attempt.meets_get, if_neg (by simp [begins.isCyclic]), Attempt.meets_bind, Attempt.meets_lift,
      Action.Meets, evaluated]
    exact ⟨rfl, rfl⟩
  refine ⟨w₄, ?_, fun w₅ later id member => ?_⟩
  · rw [Setup.runEntry_eq, ← same]
    exact (Attempt.run_bind_of_ended loaded _).trans runs
  · exact (((same ▸ keeps).cons (keep.steps h₃ after)).steps h₄ later id member).2

namespace Script

/-- Requires a module and ends as that does. -/
def relay (specifier : String) : List Value → Script
  | [_, _, .function require] => .call require [.string specifier] .done
  | _ => .give .undefined

theorem passesOn_call_done (powers : Powers) (frame : Frame) (function : FunctionRef)
    (arguments : List Value) (raised : Exception) (w : World) :
    (call function arguments .done).PassesOn powers frame function arguments w raised w :=
  ⟨.done, .here, fun w₁ _ => ⟨w₁, rfl⟩⟩

end Script

namespace World

/-- Three wrapper-style scripts: `a` requires `b`, which requires `c`, which throws. -/
def descent : World where
  records := #[
    .wrapper { location := .fileUrl "" ['/', 'a'], program := .wrapping (.relay "/b") },
    .wrapper { location := .fileUrl "" ['/', 'b'], program := .wrapping (.relay "/c") },
    .wrapper {
      location := .fileUrl "" ['/', 'c']
      program := .wrapping fun _ => .raise { value := .null } }]
  cache := { entries := [("file:///a", .ok ⟨0⟩), ("file:///b", .ok ⟨1⟩), ("file:///c", .ok ⟨2⟩)] }
  locations := [(⟨0⟩, .fileUrl "" ['/', 'a']), (⟨1⟩, .fileUrl "" ['/', 'b']),
    (⟨2⟩, .fileUrl "" ['/', 'c'])]

/-- The world in which the function of a wrapper-style module is called. -/
def openedUp (w : World) (id : RecordId) (instanceIndex : Nat) : World :=
  match w.record id with
  | .wrapper module =>
    ((ofDepth .bare 1).openWrapper (.worker 0) id module instanceIndex).run.after
      ((w.withWrapper (.worker 0) id).opening (.worker 0) id)
  | _ => w

/-- The world in which a module has found what it requires. -/
def lookedUp (w : World) (id : RecordId) (specifier : String) : World :=
  (Embedding.bare.importFor .resolver id specifier).run.after w

/-! The worlds on the way down. -/

def aRuns : World := descent.openedUp ⟨0⟩ 0
def bFound : World := aRuns.lookedUp ⟨0⟩ "/b"
def bRuns : World := bFound.openedUp ⟨1⟩ 1
def cFound : World := bRuns.lookedUp ⟨1⟩ "/c"
def cRuns : World := cFound.openedUp ⟨2⟩ 2

theorem fresh_descent : descent.Fresh := ⟨fun _ => rfl, fun _ => rfl, rfl⟩

theorem not_begun_of_absent {w : World} {realm : RealmId} {id : RecordId}
    (absent : (w.realm realm).slot? id = none) : ¬ w.Begun realm id := by
  rintro ⟨slot, found, _⟩
  cases absent.symm.trans found

theorem begins_aRuns : Begins .bare 6 (.worker 0) ⟨0⟩ descent
    (.call ⟨.worker 0, 1, "require"⟩ [.string "/b"] .done) aRuns :=
  @Begins.intro _ _ _ _ _ _ _ ⟨.worker 0, 0, "wrapper"⟩ [.object ⟨.worker 0, 1⟩,
    .object ⟨.worker 0, 2⟩, .function ⟨.worker 0, 1, "require"⟩] ⟨.worker 0, 2⟩ (.relay "/b") _
    (by cbv) (not_begun_of_absent (by cbv)) (by cbv) (by cbv) (by cbv)

theorem begins_bRuns : Begins .bare 3 (.worker 0) ⟨1⟩ bFound
    (.call ⟨.worker 0, 3, "require"⟩ [.string "/c"] .done) bRuns :=
  @Begins.intro _ _ _ _ _ _ _ ⟨.worker 0, 2, "wrapper"⟩ [.object ⟨.worker 0, 3⟩,
    .object ⟨.worker 0, 4⟩, .function ⟨.worker 0, 3, "require"⟩] ⟨.worker 0, 4⟩ (.relay "/c") _
    (by cbv) (not_begun_of_absent (by cbv)) (by cbv) (by cbv) (by cbv)

theorem begins_cRuns : Begins .bare 0 (.worker 0) ⟨2⟩ cFound (.raise { value := .null }) cRuns :=
  @Begins.intro _ _ _ _ _ _ _ ⟨.worker 0, 4, "wrapper"⟩ [.object ⟨.worker 0, 5⟩,
    .object ⟨.worker 0, 6⟩, .function ⟨.worker 0, 5, "require"⟩] ⟨.worker 0, 6⟩
    (fun _ => .raise { value := .null }) _
    (by cbv) (not_begun_of_absent (by cbv)) (by cbv) (by cbv) (by cbv)

theorem escapes_aRuns : Escapes .bare (.worker 0) { value := .null } 6
    (.call ⟨.worker 0, 1, "require"⟩ [.string "/b"] .done) aRuns
    (.ofError (.evaluationRejected .null)) [⟨1⟩, ⟨2⟩] :=
  have bottom : Escapes .bare (.worker 0) { value := .null } 0 (.raise { value := .null }) cRuns
      { value := .null } [] := .thrown rfl
  have middle := .required (Script.passesOn_call_done ..) ⟨by cbv, rfl⟩ (by cbv) begins_cRuns bottom
  .required (Script.passesOn_call_done ..) ⟨by cbv, rfl⟩ (by cbv) begins_bRuns middle

end World

/-- When `a` is run as an entry script, `c` throws, and all three keep what it has thrown. -/
theorem require_chain_keeps_error_in_descent :
    ∃ w', ((Setup.ofDepth .bare 8).runEntry (.worker 0) (.fileUrl "" ['/', 'a']) []).run descent =
        .ok (.error (.evaluationRejected .null)) w' ∧
      ∀ id ∈ [(⟨0⟩ : RecordId), ⟨1⟩, ⟨2⟩],
        w'.FailedWith (.worker 0) id (.evaluationRejected .null) := by
  obtain ⟨⟨w', ran, kept⟩, _⟩ := require_chain_keeps_error .bare 6 descent descent aRuns
    fresh_descent.reached (.worker 0) (.fileUrl "" ['/', 'a']) [] ⟨0⟩ _ { value := .null } _ _
    (by cbv) begins_aRuns escapes_aRuns
  exact ⟨w', ran, kept w' .refl⟩

end ModuleGraph
