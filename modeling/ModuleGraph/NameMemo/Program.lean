import ModuleGraph.NameMemo.Basic

/-!
Programs on one memo whose callbacks and computations use the same memo again. A program runs as a
list of tasks; each task leaves less work than it was, so that every program comes to an end.
-/
namespace ModuleGraph
namespace NameMemo

/-- A use of the memo: to look, to ask with something to do once told, or to compute the names and
do something meanwhile. -/
inductive Step (τ : Type) where
  | look
  | ask (tag : τ) (andThen : List (Step τ))
  | compute (names : List String) (meanwhile : List (Step τ))

/-- Someone who asked, with what is left to do once told. -/
structure Asker (τ : Type) where
  tag : τ
  andThen : List (Step τ)

/-- What a program shows of itself. -/
inductive Note (τ : Type) where
  | looked (names? : Option (List String))
  | asked (tag : τ) (told : Bool)
  | told (tag : τ) (names : List String)
  | computing (names : List String)
  | computed (won : Bool)

/-- What is left to do. -/
inductive Task (τ : Type) where
  | step (step : Step τ)
  | publish (names : List String)
  | tell (asker : Asker τ) (names : List String)
  | note (note : Note τ)

/-- A program in the middle of its run. -/
structure Machine (τ : Type) where
  memo : NameMemo (Asker τ) := {}
  agenda : List (Task τ)
  trace : List (Note τ) := []

variable {τ : Type}

namespace Machine

/-- Adds a note to the trace. -/
def log (machine : Machine τ) (note : Note τ) : Machine τ :=
  { machine with trace := machine.trace ++ [note] }

/-- Does the next task, if there is one. -/
def step? (machine : Machine τ) : Option (Machine τ) :=
  match machine.agenda with
  | [] => none
  | task :: rest =>
    let machine := { machine with agenda := rest }
    some <|
      match task with
      | .step .look => machine.log (.looked machine.memo.names?)
      | .step (.ask tag andThen) =>
        match machine.memo.names? with
        | some names =>
          let agenda := andThen.map Task.step ++ Task.note (.asked tag true) :: rest
          { machine with agenda }.log (.told tag names)
        | none =>
          { machine with memo := machine.memo.enqueue ⟨tag, andThen⟩ }.log (.asked tag false)
      | .step (.compute names meanwhile) =>
        match machine.memo.begin? with
        | some memo =>
          let agenda := meanwhile.map Task.step ++ Task.publish names :: rest
          { machine with memo, agenda }.log (.computing names)
        | none => machine.log (.computed false)
      | .publish names =>
        let (waiters, memo) := machine.memo.publish names
        { machine with
          memo
          agenda := waiters.map (Task.tell · names) ++ Task.note (.computed true) :: rest }
      | .tell asker names =>
        { machine with agenda := asker.andThen.map Task.step ++ rest }.log (.told asker.tag names)
      | .note note => machine.log note

/-- Does tasks until none is left, at most as many as given. -/
def run : Nat → Machine τ → Machine τ
  | 0, machine => machine
  | fuel + 1, machine =>
    match machine.step? with
    | some next => run fuel next
    | none => machine

end Machine

mutual

/-- The tasks that a step can lead to, counted with itself. -/
def Step.weight : Step τ → Nat
  | .look => 1
  | .ask _ andThen => 3 + weights andThen
  | .compute _ meanwhile => 3 + weights meanwhile

/-- The tasks that steps can lead to. -/
def weights : List (Step τ) → Nat
  | [] => 0
  | step :: rest => step.weight + weights rest

end

/-- Runs a program on a new memo to its end and gives what it showed. -/
def trace (program : List (Step τ)) : List (Note τ) :=
  (Machine.run (weights program) { agenda := program.map Task.step }).trace

end NameMemo
end ModuleGraph
