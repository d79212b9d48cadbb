import ModuleGraph.Proofs.SteppedWalks

/-!
Scripts step by step. Each step does what a script asks for first, and what is left is a script; to
run a script is to take its steps.
-/
namespace ModuleGraph
open World Engine

namespace Script
variable {powers : Powers} {frame : Frame} {script script' : Script} {w w' : World}

/-- What a script does first; answers what is left of it. -/
def step (powers : Powers) (frame : Frame) : Script → Action Script
  | .done outcome => pure (.done outcome)
  | .newObject properties next => next <$> Action.newObject frame.realm properties
  | .inspect object next => do pure (next ((← get).properties object))
  | .setProperty object key value next => do
    Action.modifyObject object (·.set key value)
    pure next
  | .deleteProperty object key next => do
    let had := ((← get).properties object).has key
    Action.modifyObject object (·.delete key)
    pure (next had)
  | .newFunction name code next => next <$> Action.newFunction frame.realm name (.script code)
  | .call function arguments next => next <$> powers.call frame function arguments
  | .readBinding environment name next => next <$> powers.read environment name
  | .writeBinding environment name value next =>
    next <$> Action.writeEnvironment environment name value
  | .isImport environment name next => do
    pure (next ((← Action.environment environment).imports.lookup name).isSome)
  | .globalObject next => pure (next frame.global)
  | .currentRealm next => pure (next frame.realm)
  | .evaluate record next => next <$> powers.evaluate frame.realm record
  | .announce announcement next => do
    Action.write ((← get).eventOf frame.realm announcement)
    pure next
  | .lock next => do
    modify World.lock
    pure next

/-- To run a script is to take its first step and to run what is left. -/
theorem run_eq_step (powers : Powers) (frame : Frame) (script : Script) :
    script.run powers frame = script.step powers frame >>= run powers frame := by
  cases script <;> simp only [run, step, bind_map_left, bind_assoc, pure_bind]

/-- A step upholds what the powers uphold. -/
theorem upholds_step {stuck inv : World → Prop} (stop : ∀ w, inv w → stuck w)
    (strokes : ∀ w w', Strokes w w' → inv w → inv w')
    (call : ∀ function arguments, Action.Upholds stuck inv (powers.call frame function arguments))
    (evaluate : ∀ record, Action.Upholds stuck inv (powers.evaluate frame.realm record))
    (read : ∀ environment name, Action.Upholds stuck inv (powers.read environment name))
    (script : Script) : Action.Upholds stuck inv (script.step powers frame) := by
  have edited {α : Type} {action : Action α} (keeps : Action.Keeps Strokes action) :
      Action.Upholds stuck inv action := keeps.upholds strokes stop
  cases script with
  | done | globalObject | currentRealm => exact .pure _
  | newObject => exact .map (edited (Action.keeps_newObject _ _)) _
  | inspect => exact .bind .get fun _ => .pure _
  | setProperty => exact .bind (edited (Action.keeps_modifyObject _ _)) fun _ => .pure _
  | deleteProperty =>
    exact .bind .get fun _ => .bind (edited (Action.keeps_modifyObject _ _)) fun _ => .pure _
  | newFunction => exact .map (edited (Action.keeps_newFunction _ _ _)) _
  | call function arguments => exact .map (call function arguments) _
  | readBinding environment name => exact .map (read environment name) _
  | writeBinding => exact .map (edited (Action.keeps_writeEnvironment _ _ _)) _
  | isImport => exact .bind (edited (Action.keeps_environment _)) fun _ => .pure _
  | evaluate record => exact .map (evaluate record) _
  | announce announcement =>
    refine .bind .get fun world => .bind (edited (Action.keeps_write ?_)) fun _ => .pure _
    cases announcement <;> rfl
  | lock => exact .bind (edited (Action.keeps_stroke fun _ => .lock)) fun _ => .pure _

/-- A script comes, step by step, to where another one is left. -/
inductive ComesTo (powers : Powers) (frame : Frame) (script' : Script) (w' : World) :
    Script → World → Prop
  | here : ComesTo powers frame script' w' script' w'
  | step {script next : Script} {w w₁ : World}
      (stepped : script.step powers frame w = .ok next w₁)
      (later : ComesTo powers frame script' w' next w₁) : ComesTo powers frame script' w' script w

/-- Then it ends as the other one does. -/
theorem ComesTo.run_eq (comes : ComesTo powers frame script' w' script w) :
    script.run powers frame w = script'.run powers frame w' := by
  induction comes with
  | here => rfl
  | step stepped _ ih =>
    rw [run_eq_step, Action.run_bind, stepped]
    exact ih

/-- What steps uphold holds there. -/
theorem ComesTo.upholds {stuck inv : World → Prop}
    (comes : ComesTo powers frame script' w' script w)
    (steps : ∀ script : Script, Action.Upholds stuck inv (script.step powers frame)) (h : inv w) :
    inv w' := by
  induction comes with
  | here => exact h
  | @step script _ _ _ stepped _ ih =>
    have held := steps script _ h
    rw [Action.Meets, stepped] at held
    exact ih held

/-- A script comes to the call of a function, and it ends with the exception that it gets from
there: it does not catch it, or raises it again. -/
def PassesOn (powers : Powers) (frame : Frame) (function : FunctionRef) (arguments : List Value)
    (w' : World) (raised : Exception) (script : Script) (w : World) : Prop :=
  ∃ next, ComesTo powers frame (.call function arguments next) w' script w ∧
    ∀ w₁, powers.call frame function arguments w' = .ok (.error raised) w₁ →
      ∃ w₂, (next (.error raised)).run powers frame w₁ = .ok (.error raised) w₂

end Script

namespace Engine
variable {embedding : Embedding} {depth : Nat} {realm : RealmId} {w w' w₁ : World}
  {script : Script} {function : FunctionRef} {arguments : List Value} {raised : Exception}

/-- Where a script passes on what a call has raised, it only takes steps to the call, and after it.
-/
theorem exists_run_of_passesOn (h : w.Orderly)
    (passes : script.PassesOn (ofDepth embedding depth).powers (.of realm) function arguments w'
      raised w) :
    Steps w w' ∧ ∀ w₁, (ofDepth embedding depth).call (.of realm) function arguments w' =
        .ok (.error raised) w₁ → Steps w' w₁ →
      ∃ w₂, script.run (ofDepth embedding depth).powers (.of realm) w = .ok (.error raised) w₂ ∧
        Steps w₁ w₂ := by
  have keeps := keepsSteps_ofDepth embedding depth
  have scripted (w : World) : Scripted (Steps w) (Steps w) := (carried_steps w).touched.scripted
  obtain ⟨next, comes, ends⟩ := passes
  have before : Steps w w' := comes.upholds (Script.upholds_step (scripted w).stop
    (scripted w).strokes ((keeps.upholds realm h).call _ rfl) (keeps.upholds realm h).evaluate
    fun _ _ => (scripted w).kept (Action.keeps_readEnvironment _ _ _)) .refl
  refine ⟨before, fun w₁ threw during => ?_⟩
  obtain ⟨w₂, ended⟩ := ends w₁ threw
  have h₁ := during.orderly (before.orderly h)
  have after : Action.Meets (Steps w₁)
      ((next (.error raised)).run (ofDepth embedding depth).powers (.of realm)) _ w₁ :=
    upholds_script (scripted w₁) (keeps.upholds realm h₁) rfl _ w₁ .refl
  rw [Action.Meets, ended] at after
  refine ⟨w₂, ?_, after⟩
  have calls : (ofDepth embedding depth).powers.call (.of realm) function arguments w' =
      .ok (.error raised) w₁ := threw
  rw [comes.run_eq, Script.run, Action.run_bind, calls]
  exact ended

end Engine
end ModuleGraph
