import ModuleGraph.World

/-!
Exported names: which module provides a name, which names a module exports, and who is told of names
that become known later. Searches go through the modules behind `export *` from left to right and
visit none of them twice.
-/
namespace ModuleGraph
namespace World

/-- The records all of whose names a static module exports along. -/
def starTargets (module : StaticModule) : List RecordId :=
  module.declarations.starSources.filterMap (module.requested.lookup ·)

/-! ### Providers -/

/-- A name in the module that provides it. -/
structure Binding where
  record : RecordId
  name : String
  deriving DecidableEq, Repr

/-- The binding that a static module gives out under a name itself: a local one first, and a
namespace under the name it is exported as. -/
def ownBinding? (id : RecordId) (module : StaticModule) (name : String) : Option Binding :=
  match module.declarations.localExport? name with
  | some binding => some ⟨id, binding⟩
  | none => (module.declarations.namespaceExport? name).map fun _ => ⟨id, name⟩

/-- The first provider on the agenda. A module that is not static provides every name; a static one
that is still unvisited provides what it exports itself, and otherwise its stars come next. -/
def searchBinding (world : World) (name : String) (unvisited agenda : List RecordId) :
    Option Binding :=
  match agenda with
  | [] => none
  | id :: rest =>
    match world.record id with
    | .static module =>
      if id ∈ unvisited then
        match ownBinding? id module name with
        | some binding => some binding
        | none =>
          let stars := if name = "default" then [] else starTargets module
          searchBinding world name (unvisited.erase id) (stars ++ rest)
      else searchBinding world name unvisited rest
    | _ => some ⟨id, name⟩
termination_by (unvisited.length, agenda.length)
decreasing_by
  · apply Prod.Lex.left
    rw [List.length_erase_of_mem ‹_›]
    have := List.length_pos_of_mem ‹id ∈ unvisited›
    omega
  · apply Prod.Lex.right
    simp

/-- The binding behind an exported name of a record. -/
def resolveExport (world : World) (id : RecordId) (name : String) : Option Binding :=
  world.searchBinding name world.recordIds [id]

/-! ### Names -/

/-- Adds names that are new; `default` is never passed on. -/
def addNames (names : List String) (more : List String) : List String :=
  more.foldl (fun names name =>
    if name = "default" ∨ names.contains name then names else names ++ [name]) names

/-- Adds the names of the records on the agenda, or stops at one whose names are not known. Gives
the names and what is still unvisited. -/
def collectNames (world : World) (unvisited agenda : List RecordId) (names : List String) :
    Option (List String × List RecordId) :=
  match agenda with
  | [] => some (names, unvisited)
  | id :: rest =>
    match world.record id with
    | .static module =>
      if id ∈ unvisited then
        collectNames world (unvisited.erase id) (starTargets module ++ rest)
          (addNames names module.declarations.ownNames)
      else collectNames world unvisited rest names
    | record =>
      match record.settledNames? with
      | some more => collectNames world unvisited rest (addNames names more)
      | none => none
termination_by (unvisited.length, agenda.length)
decreasing_by
  · apply Prod.Lex.left
    rw [List.length_erase_of_mem ‹_›]
    have := List.length_pos_of_mem ‹id ∈ unvisited›
    omega
  · apply Prod.Lex.right
    simp
  · apply Prod.Lex.right
    simp

/-- The exported names of a record, if they are known now. -/
def knownNames? (world : World) (id : RecordId) : Option (List String) :=
  match world.record id with
  | .static module =>
    (world.collectNames (world.recordIds.erase id) (starTargets module)
      module.declarations.ownNames).map Prod.fst
  | record => record.settledNames?

/-- What asking a static module for its names comes to: the names, or the first star whose names are
not known yet. -/
inductive StarNames where
  | known (names : List String)
  | unknownAt (star : RecordId)
  deriving DecidableEq, Repr

/-- Adds the names of stars one after the other. -/
def collectStars (world : World) (unvisited stars : List RecordId) (names : List String) :
    StarNames :=
  match stars with
  | [] => .known names
  | star :: rest =>
    match world.collectNames unvisited [star] names with
    | some (names, unvisited) => collectStars world unvisited rest names
    | none => .unknownAt star

end World

namespace Action

/-- Passes names on to a watcher. -/
def tell (ask : RecordId → Watcher → Action Bool) (watcher : Watcher) (names : List String) :
    Action Unit :=
  match watcher with
  | .report tag => write (.named tag names)
  | .reask record andThen => discard (ask record andThen)

/-- Asks a module for its exported names: the watcher is told at once if they are known, and
otherwise as soon as they are. Answers whether that was at once. A static module is asked again when
the first of its stars with unknown names knows them. -/
def askNames : Nat → RecordId → Watcher → Action Bool
  | 0, _, _ => tooDeep
  | depth + 1, id, watcher => do
    let world ← get
    let ask := askNames depth
    match world.record id with
    | .static module =>
      match world.collectStars (world.recordIds.erase id) (World.starTargets module)
        module.declarations.ownNames with
      | .known names =>
        tell ask watcher names
        pure true
      | .unknownAt star =>
        discard (ask star (.reask id watcher))
        pure false
    | .custom module =>
      match module.names with
      | some names =>
        tell ask watcher names
        pure true
      | none => pure false
    | record =>
      match record.memo? with
      | some memo =>
        match memo.names? with
        | some names =>
          tell ask watcher names
          pure true
        | none =>
          set (world.setRecord id (record.withMemo (memo.enqueue watcher)))
          pure false
      | none => pure false

/-- Tells watchers in their order. -/
def tellAll (ask : RecordId → Watcher → Action Bool) (names : List String) :
    List Watcher → Action Unit
  | [] => pure ()
  | watcher :: rest => do
    tell ask watcher names
    tellAll ask names rest

/-- Settles the exported names of a record, unless that was done before, and tells those who waited.
-/
def publishNames (depth : Nat) (id : RecordId) (names : List String) : Action Unit := do
  let world ← get
  let record := world.record id
  match record.memo?.bind NameMemo.begin? with
  | none => pure ()
  | some memo =>
    let (waiters, memo) := memo.publish names
    set (world.setRecord id (record.withMemo memo))
    tellAll (askNames depth) names waiters

end Action
end ModuleGraph
