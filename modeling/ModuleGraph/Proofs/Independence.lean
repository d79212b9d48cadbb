import ModuleGraph.Proofs.ParallelWalks
import ModuleGraph.Proofs.Refusals

/-!
Workers beside each other. When resolution is over and all that it has kept was linked, whatever is
done in a world changes nothing that workers share but the memos of exported names. So what a worker
does in a fresh realm depends on other workers only through these memos.
-/
namespace ModuleGraph
open World Engine

/-! ### What workers can do to each other -/

namespace Record

theorem withMemo_withMemo (record : Record) (first second : NameMemo Watcher) :
    (record.withMemo first).withMemo second = record.withMemo second := by
  cases record <;> rfl

theorem exists_withMemo_self (record : Record) : ∃ memo, record = record.withMemo memo := by
  cases record with
  | wrapper module => exact ⟨module.names, rfl⟩
  | host module => exact ⟨module.names, rfl⟩
  | _ => exact ⟨{}, rfl⟩

/-- Two versions of a record with the same memo are the same. -/
theorem withMemo_eq_of_memo? {record : Record} {first second : NameMemo Watcher}
    (same : (record.withMemo first).memo? = (record.withMemo second).memo?) :
    record.withMemo first = record.withMemo second := by
  cases record with
  | wrapper | host =>
    obtain rfl : first = second := Option.some.inj same
    rfl
  | _ => rfl

end Record

namespace World
variable {w w' w₀ : World}

/-- Nothing that workers share has changed but memos of exported names. -/
structure Abides (w w' : World) : Prop where
  size : w'.records.size = w.records.size
  record : ∀ id, ∃ memo, w'.record id = (w.record id).withMemo memo
  firstNumber : w'.firstNumber = w.firstNumber
  cache : w'.cache = w.cache
  locations : w'.locations = w.locations
  hasResolver : w'.hasResolver = w.hasResolver
  table : w'.table = w.table

namespace Abides

theorem refl (w : World) : Abides w w :=
  ⟨rfl, fun id => (w.record id).exists_withMemo_self, rfl, rfl, rfl, rfl, rfl⟩

/-- Realms and the journal are no matter. -/
theorem of_records (abides : Abides w₀ w) (records : w'.records = w.records)
    (firstNumber : w'.firstNumber = w.firstNumber) (cache : w'.cache = w.cache)
    (locations : w'.locations = w.locations) (hasResolver : w'.hasResolver = w.hasResolver)
    (table : w'.table = w.table) : Abides w₀ w' where
  size := by rw [records, abides.size]
  record id := by simpa only [World.record, records] using abides.record id
  firstNumber := firstNumber.trans abides.firstNumber
  cache := cache.trans abides.cache
  locations := locations.trans abides.locations
  hasResolver := hasResolver.trans abides.hasResolver
  table := table.trans abides.table

theorem setMemo (abides : Abides w₀ w) (id : RecordId) (memo : NameMemo Watcher) :
    Abides w₀ (w.setRecord id ((w.record id).withMemo memo)) := by
  refine { abides with size := ?_, record := fun other => ?_ }
  · simpa [setRecord] using abides.size
  · obtain ⟨earlier, same⟩ := abides.record other
    rw [record_setRecord]
    split
    · rename_i here
      rw [← here.1, same, Record.withMemo_withMemo]
      exact ⟨memo, rfl⟩
    · exact ⟨earlier, same⟩

theorem touch (abides : Abides w₀ w) (locked : w₀.cache.isLocked = true) (touch : Touch w w') :
    Abides w₀ w' := by
  cases touch with
  | pushObject | pushFunction | setProperties | setBinding | write =>
    exact abides.of_records rfl rfl rfl rfl rfl rfl
  | setMemo id memo => exact abides.setMemo id memo
  | lock =>
    refine abides.of_records rfl rfl ?_ rfl rfl rfl
    have ended : w.cache.isLocked = true := abides.cache ▸ locked
    simp only [lock, Cache.lock, ← ended]

theorem isSettled (abides : Abides w₀ w) {id : RecordId} (settled : (w₀.record id).IsSettled) :
    (w.record id).IsSettled := by
  obtain ⟨memo, same⟩ := abides.record id
  simpa [same] using settled

end Abides

/-- A record that resolution has kept. -/
def Keeps (w : World) (id : RecordId) : Prop := ∃ key, w.cache.get? key = some (.ok id)

/-- When resolution is over and all that it has kept was linked, nothing that is done changes what
workers share but memos, unless something else is linked. -/
theorem sustained_abides (locked : w₀.cache.isLocked = true)
    (linked : ∀ id, w₀.Keeps id → (w₀.record id).IsSettled) (embedding : Embedding) :
    Sustained embedding (Abides w₀) (Abides w₀) (fun _ => True) w₀.Keeps := by
  have touched : Touched (Abides w₀) (Abides w₀) := .of_touch (fun _ h => h)
    fun _ _ touch abides => abides.touch locked touch
  have consulted : Consulted embedding (Abides w₀) (Abides w₀) :=
    .of_lookedUp touched.scripted embedding.staysWithin_all (fun _ _ _ _ _ => trivial)
      fun _ _ _ _ _ _ did abides => by rwa [did.same (abides.cache ▸ locked)]
  refine ⟨⟨consulted, fun depth id kept => ?_,
    fun w key id abides kept => ⟨key, abides.cache ▸ kept⟩, touched.instantiate
      fun _ _ _ _ _ abides => abides.of_records rfl rfl rfl rfl rfl rfl⟩,
    touched.touches, fun w w' moves abides => ?_⟩
  · cases depth with
    | zero => exact .lift (.tooDeep fun _ h => h)
    | succ depth =>
      intro w abides
      rw [Action.Meets, embedding.run_link_of_isSettled (abides.isSettled (linked id kept))]
      exact abides
  · induction moves with
    | refl => exact abides
    | tail _ move ih => cases move <;> exact ih.of_records rfl rfl rfl rfl rfl rfl

/-! ### Fresh realms -/

/-- Discovery is over: the resolver is locked, and all that it has kept was linked. As far as a
realm is concerned, programs, host modules and kept errors hold nothing of other realms, so that
they depend on nothing but the realm that they run in. -/
structure Sealed (w : World) (realm : RealmId) : Prop where
  locked : w.cache.isLocked = true
  linked : ∀ id, w.Keeps id → (w.record id).IsSettled
  programs : ∀ id, IsLocal realm (w.record id)
  errors : ∀ key error, w.cache.get? key = some (.error error) → IsLocal realm error

/-- What may become of a world as long as a realm stays fresh: whatever is done in others, with
whatever an embedder supplies by then, but that nothing else is linked by hand. -/
def Becomes (w : World) (realm : RealmId) (w' : World) : Prop :=
  ∃ depth steps, (∀ step ∈ steps, ∀ id, step.2 = .link id → w.Keeps id) ∧
    (Setup.runEach depth steps).after w = w' ∧ w'.realm realm = default

namespace Sealed
variable {realm : RealmId} (isSealed : w.Sealed realm)
include isSealed

theorem abides (becomes : w.Becomes realm w') : w.Abides w' := by
  obtain ⟨depth, steps, links, rfl, _⟩ := becomes
  have sustained (embedding : Embedding) := sustained_abides isSealed.locked isSealed.linked embedding
  exact (Setup.upholds_runEach depth (fun step _ => sustained step.1)
    (fun step _ => step.2.staysWithin_all) links w (.refl w)).after

/-- How two worlds are seen from the realm that become of one. -/
def vantage (w₁ w₂ : World) : Vantage where
  realm := realm
  cache := w.cache
  locked := isSealed.locked
  errors := isSealed.errors
  first := w₁.journal
  second := w₂.journal

theorem twins {w₁ w₂ : World} (first : w.Becomes realm w₁) (second : w.Becomes realm w₂)
    (memos : ∀ id, (w₁.record id).memo? = (w₂.record id).memo?) :
    Twins (isSealed.vantage w₁ w₂) w₁ w₂ := by
  have here := isSealed.abides first
  have there := isSealed.abides second
  have same (id : RecordId) : w₂.record id = w₁.record id := by
    obtain ⟨memo, hm⟩ := here.record id
    obtain ⟨memo', hm'⟩ := there.record id
    rw [hm, hm']
    refine Record.withMemo_eq_of_memo? ?_
    rw [← hm, ← hm', memos]
  exact {
    cache := here.cache
    settled := fun key id kept => here.isSettled (isSealed.linked id ⟨key, kept⟩)
    records := fun id => by
      obtain ⟨memo, hm⟩ := here.record id
      rw [hm]
      exact Record.isLocal_withMemo.mpr (isSealed.programs id)
    realm := by
      obtain ⟨_, _, _, _, fresh⟩ := first
      exact fresh ▸ Realm.IsClosed.default
    sameRecords := by
      refine Array.ext (there.size.trans here.size.symm) fun index inSecond inFirst => ?_
      simpa [World.record, inFirst, inSecond] using same ⟨index⟩
    firstNumber := there.firstNumber.trans here.firstNumber.symm
    sameCache := there.cache.trans here.cache.symm
    locations := there.locations.trans here.locations.symm
    hasResolver := there.hasResolver.trans here.hasResolver.symm
    table := there.table.trans here.table.symm
    sameRealm := by
      obtain ⟨_, _, _, _, fresh⟩ := first
      obtain ⟨_, _, _, _, fresh'⟩ := second
      exact fresh'.trans fresh.symm
    journal := ⟨#[], rfl, rfl⟩ }

end Sealed

/-- Two runs of an entry script have come to the same for a realm: to the same outcome, also as it
is reported, with the same events, the same realm, and the same exports of all modules, also as they
are shown. -/
structure SeenAlike (setup : Setup) (realm : RealmId) (w₁ w₂ : World) (outcome₁ : Outcome RecordId)
    (v₁ : World) (outcome₂ : Outcome RecordId) (v₂ : World) : Prop where
  outcome : outcome₂ = outcome₁
  reported : ∀ error, outcome₁ = .error error → v₂.reportError error = v₁.reportError error
  events : ∃ events, v₁.journal = w₁.journal ++ events ∧ v₂.journal = w₂.journal ++ events
  sameRealm : v₂.realm realm = v₁.realm realm
  exports : ∀ id name, Concur
    (fun value₁ u₁ value₂ u₂ => value₂ = value₁ ∧ u₂.snapshot value₂ = u₁.snapshot value₁)
    (setup.bindingValue realm id name v₁) (setup.bindingValue realm id name v₂)

end World

/-- When discovery is over and all that was kept was linked, let two worlds become of one by
whatever is done while a realm stays fresh, so that the memos of exported names are in the same state
in both. Then an entry script that runs in that realm comes to the same in both: it gives up as too
deep in both or in neither, and has the same outcome, events and exports. -/
theorem entry_depends_on_others_through_names {w w₁ w₂ : World} {realm : RealmId}
    (isSealed : w.Sealed realm) (first : w.Becomes realm w₁) (second : w.Becomes realm w₂)
    (memos : ∀ id, (w₁.record id).memo? = (w₂.record id).memo?) (embedding : Embedding)
    (depth : Nat) (location : Url) (source : List UInt8) :
    let setup := Setup.ofDepth embedding depth
    Concur (SeenAlike setup realm w₁ w₂)
      ((setup.runEntry realm location source).run w₁)
      ((setup.runEntry realm location source).run w₂) := by
  intro setup
  have parallel := Setup.parallel_runEntry embedding depth location source
    (p := isSealed.vantage w₁ w₂) w₁ w₂ (isSealed.twins first second memos)
  refine parallel.mono fun outcome₁ v₁ outcome₂ v₂ h => ?_
  obtain ⟨same, held, twins⟩ := h
  refine ⟨same, fun error failed => ?_, twins.journal, twins.sameRealm, fun id name => ?_⟩
  · subst failed
    exact twins.reportError held
  · refine (Setup.parallel_bindingValue embedding depth id name v₁ v₂ twins).mono ?_
    rintro value₁ u₁ value₂ u₂ ⟨rfl, shown, twins⟩
    exact ⟨rfl, twins.snapshot shown⟩

/-! ### Names that become known meanwhile -/

/-- The program of a wrapper-style script that requires a module and logs its namespace before it
exports a name itself. -/
def Script.namesFirst (specifier name : String) : Script :=
  .newFunction "wrapper" (fun
    | [.object exports, _, .function require] =>
      .call require [.string specifier] fun
        | .ok names => .announce (.log names) (.setProperty exports name .null (.give .undefined))
        | .error exception => .raise exception
    | _ => .give .undefined) fun wrapper => .give (.function wrapper)

theorem Script.isLocalTo_namesFirst (realm : RealmId) (specifier name : String) :
    (namesFirst specifier name).IsLocalTo realm := by
  refine ⟨fun arguments held => ?_, fun _ made => made⟩
  dsimp only
  split
  · rename_i exports _ require
    refine ⟨held (.function require) (by simp), List.forall_mem_singleton.mpr trivial,
      fun outcome given => ?_⟩
    cases outcome with
    | ok names => exact ⟨given, held (.object exports) (by simp), trivial, trivial⟩
    | error exception => exact given
  · trivial

namespace World

/-- A wrapper-style script that looks at its own names through a static module, which exports all of
them. Both are known, and discovery is over. -/
def mirror : World where
  records := #[
    .wrapper { location := .fileUrl "" ['/', 'a'], program := .namesFirst "/b" "x" },
    .static {
      location := .fileUrl "" ['/', 'b']
      declarations := { exports := [.all "/a"] }
      body := fun _ => .give .undefined
      importer := .resolver
      status := .linked
      requested := [("/a", ⟨0⟩)] }]
  cache := { entries := [("file:///a", .ok ⟨0⟩), ("file:///b", .ok ⟨1⟩)], isLocked := true }
  locations := [(⟨0⟩, .fileUrl "" ['/', 'a']), (⟨1⟩, .fileUrl "" ['/', 'b'])]

/-- The setup in which workers run the script of the mirror. -/
def mirrorSetup : Setup := .ofDepth .bare 6

/-- A worker runs the script of the mirror. -/
def runMirror (worker : Nat) : Action (Outcome RecordId) :=
  (mirrorSetup.runEntry (.worker worker) (.fileUrl "" ['/', 'a']) []).run

/-- What becomes of the mirror when workers have run its script, one after the other. -/
def mirrorAfter (workers : List Nat) : World :=
  (Setup.runEach 6 (workers.map fun worker =>
    (.bare, .runEntry (.worker worker) (.fileUrl "" ['/', 'a']) []))).after mirror

theorem sealed_mirror (realm : RealmId) : mirror.Sealed realm where
  locked := rfl
  linked id _ := by
    obtain ⟨_ | _ | index⟩ := id <;> trivial
  programs id := by
    obtain ⟨_ | _ | index⟩ := id
    · exact Script.isLocalTo_namesFirst realm "/b" "x"
    · exact ⟨fun _ => trivial, fun _ failed => by cases failed⟩
    · exact ⟨trivial, trivial, trivial, fun _ member => by cases member⟩
  errors key error kept := by
    obtain ⟨before, after, split, _⟩ := List.lookup_eq_some_iff.mp kept
    have member : (key, .error error) ∈ mirror.cache.entries := by
      rw [split]
      simp
    simp [mirror] at member

theorem becomes_mirrorAfter {workers : List Nat} {realm : RealmId}
    (fresh : (mirrorAfter workers).realm realm = default) :
    mirror.Becomes realm (mirrorAfter workers) := by
  refine ⟨6, _, fun step member id same => ?_, rfl, fresh⟩
  obtain ⟨worker, _, rfl⟩ := List.mem_map.mp member
  cases same

theorem becomes_mirrorAfter_first : mirror.Becomes (.worker 2) (mirrorAfter [1]) :=
  becomes_mirrorAfter (by cbv)

end World

/-- What scripts have told since an earlier world. -/
def World.toldSince (earlier w : World) : List Event :=
  (w.journal.toList.drop earlier.journal.size).filter Event.isTold

/-- A worker sees whether others have run before: in a fresh realm its script logs an empty
namespace if it is the first to run, and otherwise one with the name that it is still to export. -/
theorem names_of_others_are_seen :
    mirror.Sealed (.worker 2) ∧ mirror.Becomes (.worker 2) (mirrorAfter []) ∧
      mirror.Becomes (.worker 2) (mirrorAfter [1]) ∧
      ∃ outcome v₁ v₂, runMirror 2 (mirrorAfter []) = .ok outcome v₁ ∧
        runMirror 2 (mirrorAfter [1]) = .ok outcome v₂ ∧
        (mirrorAfter []).toldSince v₁ = [.log 2 (.object [])] ∧
        (mirrorAfter [1]).toldSince v₂ = [.log 2 (.object [("x", .undefined)])] := by
  have ends_well {w : World}
      (ends : (runMirror 2).ends w (fun outcome _ => outcome.toOption == some ⟨0⟩) = true) :
      runMirror 2 w = .ok (.ok ⟨0⟩) ((runMirror 2).after w) := by
    obtain ⟨outcome, v, ran, well⟩ := Action.exists_of_ends ends
    obtain error | id := outcome
    · cases well
    · simp only [Except.toOption, beq_iff_eq, Option.some.injEq] at well
      simp only [ran, well, Action.after]
  exact ⟨sealed_mirror _, becomes_mirrorAfter rfl, becomes_mirrorAfter_first, .ok ⟨0⟩, _, _,
    ends_well (by cbv), ends_well (by cbv), by cbv, by cbv⟩

/-- Worker 2 cannot tell which other worker has run before. -/
theorem entry_depends_on_others_through_names_in_mirror :
    mirror.Sealed (.worker 2) ∧ mirror.Becomes (.worker 2) (mirrorAfter [1]) ∧
      mirror.Becomes (.worker 2) (mirrorAfter [3]) ∧
      (∀ id, ((mirrorAfter [1]).record id).memo? = ((mirrorAfter [3]).record id).memo?) ∧
      Concur (SeenAlike mirrorSetup (.worker 2) (mirrorAfter [1]) (mirrorAfter [3]))
        (runMirror 2 (mirrorAfter [1])) (runMirror 2 (mirrorAfter [3])) := by
  have first := becomes_mirrorAfter_first
  have second : mirror.Becomes (.worker 2) (mirrorAfter [3]) := becomes_mirrorAfter (by cbv)
  have memos (id : RecordId) :
      ((mirrorAfter [1]).record id).memo? = ((mirrorAfter [3]).record id).memo? := by
    obtain ⟨memo, here⟩ := ((sealed_mirror _).abides first).record id
    obtain ⟨memo', there⟩ := ((sealed_mirror _).abides second).record id
    obtain ⟨_ | index⟩ := id
    · cbv
    · rw [here, there]
      cases index <;> rfl
  exact ⟨sealed_mirror _, first, second, memos, entry_depends_on_others_through_names
    (sealed_mirror _) first second memos .bare 6 (.fileUrl "" ['/', 'a']) []⟩

end ModuleGraph
