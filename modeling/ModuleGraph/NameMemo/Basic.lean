/-!
The memo of a module's exported names, shared by all workers: whoever learns the names first settles
them, and everyone who asked before is told then.
-/
namespace ModuleGraph

/-- What is known of the names. -/
inductive NameProgress where
  | unknown
  | computing
  | known (names : List String)
  deriving DecidableEq, Repr

/-- A memo with those who wait for the names, in the order in which they asked. -/
structure NameMemo (ω : Type) where
  progress : NameProgress := .unknown
  waiters : List ω := []

namespace NameMemo
variable {ω : Type}

instance : Inhabited (NameMemo ω) := ⟨{}⟩

/-- The names, once they are known. -/
def names? (memo : NameMemo ω) : Option (List String) :=
  match memo.progress with
  | .known names => some names
  | _ => none

/-- Puts a waiter in the queue. -/
def enqueue (memo : NameMemo ω) (waiter : ω) : NameMemo ω :=
  { memo with waiters := memo.waiters ++ [waiter] }

/-- Begins to compute the names, unless someone did so before. -/
def begin? (memo : NameMemo ω) : Option (NameMemo ω) :=
  match memo.progress with
  | .unknown => some { memo with progress := .computing }
  | _ => none

/-- Settles the names; those who waited leave the queue and are to be told. -/
def publish (memo : NameMemo ω) (names : List String) : List ω × NameMemo ω :=
  (memo.waiters, { progress := .known names })

@[simp] theorem names?_new : ({} : NameMemo ω).names? = none := rfl

@[simp] theorem names?_enqueue (memo : NameMemo ω) (waiter : ω) :
    (memo.enqueue waiter).names? = memo.names? := rfl

theorem names?_eq_some {memo : NameMemo ω} {names : List String} :
    memo.names? = some names ↔ memo.progress = .known names := by
  obtain ⟨progress, waiters⟩ := memo
  cases progress <;> simp [names?]

@[simp] theorem names?_publish (memo : NameMemo ω) (names : List String) :
    (memo.publish names).2.names? = some names := rfl

end NameMemo
end ModuleGraph
