import ModuleGraph.Exports
import ModuleGraph.Resolver

/-!
Linking: a static module finds the records behind its specifiers, links them, and checks that static
ones export the names it imports. A module links once; the outcome stays.
-/
namespace ModuleGraph
namespace Embedding

/-- Changes a static module. -/
def modifyStatic (id : RecordId) (change : StaticModule → StaticModule) : Action Unit :=
  modify fun world =>
    match world.record id with
    | .static module => world.setRecord id (.static (change module))
    | _ => world

/-- The records behind specifiers, in order. -/
def importAll (embedding : Embedding) (importer : Importer) (id : RecordId) :
    List String → Attempt (List (String × RecordId))
  | [] => pure []
  | specifier :: rest => do
    Action.write (.asked id specifier)
    let record ← embedding.importFor importer id specifier
    let others ← importAll embedding importer id rest
    pure ((specifier, record) :: others)

/-- The name that an import asks another module for. -/
def importedName? : Import → Option String
  | .default _ => some "default"
  | .named imported _ => some imported
  | .namespace _ => none

/-- The first name that a static module does not provide although it is imported from there. -/
def missingName? (world : World) (id : RecordId) (names : List Import) : Option String :=
  if (world.record id).kind = .static then
    (names.filterMap importedName?).find? fun name => (world.resolveExport id name).isNone
  else none

/-- Fails at the first import of a name that is not provided. -/
def checkImports (world : World) (requested : List (String × RecordId)) :
    List ImportStatement → Except ModuleError Unit
  | [] => .ok ()
  | statement :: rest =>
    match requested.lookup statement.specifier with
    | none => checkImports world requested rest
    | some id =>
      match missingName? world id statement.names with
      | some name => .error (.missingExport (world.describe id) name)
      | none => checkImports world requested rest

/-- Links records one after the other. -/
def linkAll (link : RecordId → Attempt Unit) : List RecordId → Attempt Unit
  | [] => pure ()
  | id :: rest => do
    link id
    linkAll link rest

/-- What a static module does to link, once it has begun. -/
def linkStatic (embedding : Embedding) (link : RecordId → Attempt Unit) (id : RecordId)
    (module : StaticModule) : Attempt Unit := do
  let specifiers := module.declarations.requestedSpecifiers
  let requested ← embedding.importAll module.importer id specifiers
  modifyStatic id ({ · with requested })
  linkAll link (requested.map Prod.snd)
  match checkImports (← get) requested module.declarations.imports with
  | .ok () => pure ()
  | .error error => throw error

/-- Links a record and what it requests. A module met again while it links is left to the walk that
it belongs to. -/
def link (embedding : Embedding) : Nat → RecordId → Attempt Unit
  | 0, _ => Action.tooDeep
  | depth + 1, id => do
    match (← get).record id with
    | .static module =>
      match module.status with
      | .linked | .linking => pure ()
      | .failed error => throw error
      | .unlinked =>
        modifyStatic id ({ · with status := .linking })
        match ← (embedding.linkStatic (embedding.link depth) id module).outcome with
        | .ok () => modifyStatic id ({ · with status := .linked })
        | .error error =>
          modifyStatic id ({ · with status := .failed error })
          throw error
    | .custom module =>
      match module.link with
      | .ok () => pure ()
      | .error error => throw error
    | _ => pure ()

end Embedding
end ModuleGraph
