import ModuleGraph.Proofs.Entries
import ModuleGraph.Proofs.Openings
import ModuleGraph.Proofs.RequireChains

/-!
Modules with top-level await. The body of such a module never begins. A walk that opens one comes to
its end there at the latest: when all that the module requests was visited well, the walk is
suspended, and otherwise it fails with the error that one of the requested modules keeps. Everything
that is open then keeps the error, and comes to it again for good.
-/
namespace ModuleGraph
open World Engine Relation

/-- A module would have to wait at its top level, and a walk would notice: it takes part in cycles,
as all scripts do. -/
def World.Awaits (w : World) (id : RecordId) : Prop :=
  (w.record id).isCyclic = true ∧ (w.record id).hasTopLevelAwait = true

/-! ### Bodies that never begin -/

namespace World
variable {w w' : World} {realm : RealmId} {id : RecordId}

theorem isRunnable_iff : (w.record id).IsRunnable ↔ ¬ w.Awaits id := by
  simp [Record.IsRunnable, Awaits]

theorem Extends.isRunnable (h : Extends w w') (present : w.hasRecord id) :
    (w'.record id).IsRunnable ↔ (w.record id).IsRunnable := by
  rw [Record.IsRunnable, Record.IsRunnable, h.isCyclic, h.hasTopLevelAwait id present]

/-- What is in a realm has a record, and the bodies that have begun did not have to wait. -/
structure Spared (w : World) : Prop where
  present : ∀ realm id slot, (w.realm realm).slot? id = some slot → w.hasRecord id
  began : ∀ realm id moment, .began realm id moment ∈ w.journal.toList →
    w.hasRecord id ∧ (w.record id).IsRunnable

theorem Fresh.spared (h : w.Fresh) : w.Spared where
  present realm id slot found := by simp [Realm.slot?, h.slots] at found
  began realm id moment member := by simp [h.journal] at member

namespace Spared

/-- Nothing is lost when records are only added, no unknown module comes into a realm, and no body
begins. -/
theorem later (h : w.Spared) (records : Extends w w')
    (slots : ∀ realm id slot', (w'.realm realm).slot? id = some slot' →
      (∃ slot, (w.realm realm).slot? id = some slot) ∨ w.hasRecord id)
    (journal : ∀ realm id moment, .began realm id moment ∈ w'.journal.toList →
      .began realm id moment ∈ w.journal.toList) : w'.Spared where
  present realm id slot' found := by
    rcases slots realm id slot' found with ⟨slot, found⟩ | present
    · exact records.hasRecord (h.present realm id slot found)
    · exact records.hasRecord present
  began realm id moment member := by
    obtain ⟨present, runnable⟩ := h.began realm id moment (journal realm id moment member)
    exact ⟨records.hasRecord present, (records.isRunnable present).mpr runnable⟩

theorem still (h : w.Spared) (still : Still w w') : w'.Spared := by
  refine h.later still.records (fun realm id slot' found => .inl ⟨slot', ?_⟩)
    fun realm id moment member => ?_
  · rwa [(still.sameIn realm).slot? id] at found
  · obtain ⟨events, journal, outward⟩ := still.journal
    rw [journal] at member
    refine (List.mem_append.mp member).resolve_right fun member => ?_
    cases outward _ member

theorem write (h : w.Spared) {event : Event}
    (silent : ∀ realm id moment, event ≠ .began realm id moment) : (w.write event).Spared := by
  refine h.later (.of_records rfl) (fun _ _ slot found => .inl ⟨slot, found⟩)
    fun realm id moment member => ?_
  rw [World.write, Array.toList_push] at member
  refine (List.mem_append.mp member).resolve_right fun member => ?_
  exact silent realm id moment (List.mem_singleton.mp member).symm

theorem changes (h : w.Spared) (changes : Changes w w') : w'.Spared := by
  induction changes with
  | refl => exact h
  | @tail v _ _ change ih =>
    cases change with
    | edit edit => exact ih.still edit.still
    | relink relink => exact ih.still relink.still
    | addInstance realm id content absent present settled =>
      have added : (v.modifyRealm realm (·.addInstance id content)).Spared := by
        refine ih.later (.of_records rfl) (fun other x slot' found => ?_) fun _ _ _ member => member
        by_cases same : other = realm
        · subst same
          rw [realm_modifyRealm_same, Realm.slot?_addInstance _ absent] at found
          split at found
          · rename_i same
            exact .inr (same ▸ present)
          · exact .inl ⟨slot', found⟩
        · rw [realm_modifyRealm_other _ same] at found
          exact .inl ⟨slot', found⟩
      exact added.write (by simp)

theorem turns (h : w.Spared) (turns : Turns w w') : w'.Spared := by
  induction turns with
  | refl => exact h
  | @tail v _ _ turn ih =>
    cases turn with
    | arrange realm change held =>
      refine ih.later (.of_records rfl) (fun other x slot' found => .inl ?_) fun _ _ _ member => member
      by_cases same : other = realm
      · subst same
        rw [realm_modifyRealm_same] at found
        refine Option.ne_none_iff_exists'.mp fun absent => ?_
        rw [(held _ x).mpr absent] at found
        cases found
      · rw [realm_modifyRealm_other _ same] at found
        exact ⟨slot', found⟩
    | write event steers => exact ih.write (by cases event <;> simp [Event.isSteering] at steers ⊢)

end Spared
end World

namespace Engine

theorem carried_spared : Carried World.Spared World.Spared where
  stop _ h := h
  changes _ _ changes h := h.changes changes

/-- No body that would have to wait begins in the course of evaluation. -/
theorem lasting_spared (embedding : Embedding) :
    Lasting embedding World.Spared World.Spared := by
  refine ⟨carried_spared.borne embedding, fun w w' turns h => h.turns turns,
    fun depth realm id upholds w h runnable => ?_⟩
  have turned (w : World) (running : Option RecordId) (h : w.Spared) :
      (w.running realm running).Spared :=
    h.turns (.rearranged w realm fun r => r.slots_modifyWalk _)
  refine meets_executeInWalk (turned · none) ?_ (fun w error h => h.write (by simp))
    fun w h => (turned w none h).write (by simp)
  have h₁ := turned w (some id) h
  unfold Engine.execute
  rw [Attempt.meets_bind]
  refine meets_slotOf (fun _ => h₁) fun slot found => ?_
  rw [Attempt.meets_bind, Attempt.meets_get, Attempt.meets_bind, Attempt.meets_lift,
    Action.meets_write]
  refine (upholds_runInstance carried_spared.touched (upholds realm) id _
    fun w change _ h => h.still (.modifyInstance w realm _ change)).meets
    ⟨h₁.present, fun realm' id' moment member => ?_⟩
  rw [World.write, Array.toList_push] at member
  rcases List.mem_append.mp member with member | member
  · exact h₁.began realm' id' moment member
  · cases List.mem_singleton.mp member
    exact ⟨h₁.present realm id slot found, runnable⟩

end Engine

theorem Setup.spared_after_run (embedding : Embedding) (depth : Nat) (operations : List Operation)
    {w : World} (fresh : w.Fresh) :
    (((Setup.ofDepth embedding depth).run operations).after w).Spared := by
  have lasting := lasting_spared embedding
  have sustains := lasting.ofDepth depth
  exact (upholds_run lasting.toBorne carried_spared.touched (sustains.walk lasting)
    sustains.upholds operations w fresh.spared).after

/-! ### Walks that end at such a module -/

namespace Engine
section
variable {embedding : Embedding} {depth : Nat} {realm : RealmId} {graph : RecordId → Prop}
  {root id r x : RecordId} {index : Nat} {w w₁ w₂ u v : World} {error : ModuleError}

/-- A visit that opens anything opens the visited module, which takes part in cycles. -/
theorem Opens.isCyclic {d i : Nat} (opens : Opens embedding realm x d i u depth id index w)
    (poised : Poised realm graph id w) : (w.record id).isCyclic = true := by
  cases opens with
  | own enters =>
    cases poised.enters_same enters
    exact enters.cyclic
  | through enters =>
    cases poised.enters_same enters
    exact enters.cyclic

/-- When what a module with top-level await requests was visited well, the walk is suspended. -/
theorem run_visitNew_of_awaits {next : Nat}
    (visited : ((ofDepth embedding depth).visitAll realm x (u.record x).requested (index + 1)).run
      (u.entered realm x index) = .ok (.ok next) v)
    (awaits : (v.record x).hasTopLevelAwait = true) :
    ((ofDepth embedding depth).visitNew realm x index).run u =
      .ok (.error (.suspended (v.describe x))) v := by
  rw [run_visitNew, Attempt.run_bind_of_ended visited,
    Attempt.run_bind_of_ended (show (get : Walking World).run v = .ok (.ok v) v from rfl),
    if_pos awaits]
  rfl

/-- Where a walk comes to its end that has opened a module with top-level await: right after it has
visited what the module requests. If that went well, it is suspended there; otherwise one of the
requested modules has failed. -/
def HaltsAt (embedding : Embedding) (realm : RealmId) (x : RecordId) (d i : Nat) (u : World)
    (interrupt : Interrupt) (v : World) (fallen : RecordId → Prop) : Prop :=
  ∃ outcome, ((ofDepth embedding d).visitAll realm x (u.record x).requested (i + 1)).run
      (u.entered realm x i) = .ok outcome v ∧
    (∀ next, outcome = .ok next → interrupt = .suspended (v.describe x)) ∧
    ∀ interrupt', outcome = .error interrupt' → interrupt = interrupt' ∧
      ∃ r ∈ (u.record x).requested, fallen r

theorem HaltsAt.mono {d i : Nat} {interrupt : Interrupt} {fallen fallen' : RecordId → Prop}
    (halts : HaltsAt embedding realm x d i u interrupt v fallen)
    (later : ∀ r, fallen r → fallen' r) : HaltsAt embedding realm x d i u interrupt v fallen' := by
  obtain ⟨outcome, visited, suspended, failed⟩ := halts
  refine ⟨outcome, visited, suspended, fun interrupt' same => ?_⟩
  obtain ⟨same, r, requested, fell⟩ := failed interrupt' same
  exact ⟨same, r, requested, later r fell⟩

/-- A visit on the way of which a module with top-level await is opened ends there at the latest. -/
theorem Opens.halts {d i : Nat} {result : Except Interrupt Nat}
    (opens : Opens embedding realm x d i u depth root index w) (poised : Poised realm graph root w)
    (awaits : (w.record x).hasTopLevelAwait = true)
    (ended : ((ofDepth embedding depth).visit realm root index).run w = .ok result v) :
    ∃ interrupt, result = .error interrupt ∧ x ∈ (v.realm realm).stack ∧
      HaltsAt embedding realm x d i u interrupt v
        fun r => Fallen v realm r (Interrupt.error interrupt) := by
  obtain ⟨poised₁, steps, enters⟩ := opens.poised poised
  cases visited : ((ofDepth embedding d).visitAll realm x (u.record x).requested (i + 1)).run
      (u.entered realm x i) with
  | error _ v' =>
    have whole := opens.run_visitAll fun next v same => by cases visited.symm.trans same
    cases (whole.trans visited).symm.trans ended
  | ok outcome v' =>
    cases outcome with
    | error interrupt =>
      have breaks (next : Nat) (v : World) : ((ofDepth embedding d).visitAll realm x
          (u.record x).requested (i + 1)).run (u.entered realm x i) ≠ .ok (.ok next) v :=
        fun same => by cases visited.symm.trans same
      cases ((opens.run_visitAll breaks).trans visited).symm.trans ended
      have stacked := poised₁.mem_stack enters ((run_visitNew_of_breaks breaks).trans visited)
      have fails : Attempt.Meets _ _ ((ofDepth embedding d).visitAll realm x
          (u.record x).requested (i + 1)) _ (u.entered realm x i) :=
        poised₁.meets_visitAll_fails enters (List.append_nil _).symm
      rw [Attempt.Meets, visited] at fails
      refine ⟨interrupt, rfl, stacked, _, visited, fun _ same => ?_, fun _ same => ?_⟩
      · cases same
      · cases same
        exact ⟨rfl, fails⟩
    | ok next =>
      have onward : Steps w v' :=
        steps.trans (poised₁.visitAll_ended enters (fun _ member => member) visited).1
      obtain ⟨slot, found⟩ := poised.installed.slot x poised₁.member
      have present := ((poised.orderly realm).settled x slot found).1
      have suspended := run_visitNew_of_awaits visited
        (((onward.extends poised.orderly).hasTopLevelAwait x present).trans awaits)
      have whole := opens.run_visit fun next v same => by cases suspended.symm.trans same
      cases (whole.trans suspended).symm.trans ended
      refine ⟨_, rfl, poised₁.mem_stack enters suspended, _, visited, fun _ _ => rfl,
        fun _ same => ?_⟩
      cases same

/-- What a walk has left failed or open keeps the error when the walk is over. -/
theorem failedWith_of_fallen {walk : Walk}
    (gaveUp : GivesUp realm error walk w v w₁) (fallen : Fallen v realm r error) :
    w₁.FailedWith realm r error := by
  by_cases member : r ∈ walk.stack
  · obtain ⟨slot, _, marked⟩ := gaveUp.marked r member
    exact ⟨_, marked, rfl, rfl⟩
  · obtain ⟨slot, found, evaluated, keeps⟩ := fallen.resolve_right fun stacked => member <| by
      rwa [Realm.stack, gaveUp.innermost] at stacked
    exact ⟨slot, (gaveUp.spared r member).trans found, evaluated, keeps⟩

/-! ### Who runs or requires such a module -/

/-- Whoever runs a record as an entry script, or requires it, when it has been resolved in one world,
gets an error, in another. -/
structure Refuses (embedding : Embedding) (depth : Nat) (realm : RealmId) (id : RecordId)
    (error : ModuleError) (w w' : World) : Prop where
  entry : ∀ location source w₀, (embedding.resolveLoaded location source).run w₀ = .ok (.ok id) w →
    ((Setup.ofDepth embedding depth).runEntry realm location source).run w₀ = .ok (.error error) w'
  require : ∀ referrer specifier w₀,
    (embedding.importFor .resolver referrer specifier).run w₀ = .ok (.ok id) w →
    (requiring embedding (ofDepth embedding depth) realm referrer specifier).run w₀ =
      .ok (.error error) w'

/-- A record is refused when its evaluation and its requirement come to an error. -/
theorem Refuses.of_linked {settlement : Settlement}
    (linked : (embedding.link depth id).run w = .ok (.ok ()) w₁)
    (cyclic : (w₁.record id).isCyclic = true)
    (evaluated : (ofDepth embedding depth).evaluateFrom realm id w₁ = .ok settlement w₂)
    (rejected : settlement.error? = some error)
    (required : (requireFrom embedding (ofDepth embedding depth) realm id).run w =
      .ok (.error error) w₂) : Refuses embedding depth realm id error w w₂ := by
  have runs : ((Setup.ofDepth embedding depth).runRecord realm id).run w =
      .ok (.error error) w₂ := by
    apply Action.Meets.eq
    refine Setup.meets_runRecord_linked linked cyclic ?_
    rw [Action.Meets, Setup.evaluate, Setup.ofDepth, evaluated]
    dsimp only
    rw [rejected]
    exact ⟨rfl, rfl⟩
  refine ⟨fun location source w₀ resolved => ?_, fun referrer specifier w₀ imported => ?_⟩
  · rw [Setup.runEntry_eq]
    exact (Attempt.run_bind_of_ended resolved _).trans runs
  · exact (Attempt.run_bind_of_ended imported _).trans required

theorem Refuses.of_walk {interrupt : Interrupt} {w₃ : World}
    (linked : (embedding.link depth id).run w = .ok (.ok ()) w₁)
    (cyclic : (w₁.record id).isCyclic = true)
    (instantiated : (Action.instantiateGraph depth realm id).run w₁ = .ok (.ok ()) w₂)
    (failed : (ofDepth embedding depth).walk realm id w₂ = .ok (.error interrupt) w₃) :
    Refuses embedding depth realm id (Interrupt.error interrupt) w w₃ :=
  .of_linked linked cyclic (evaluateFrom_of_walk instantiated failed) (by cases interrupt <;> rfl)
    (requireFrom_of_walk instantiated failed linked)

/-- What keeps an error is refused with it, and nothing else is done. -/
theorem Refuses.of_failed (orderly : w.Orderly) (installed : w.Installed realm graph)
    (member : graph id) (cyclic : (w.record id).isCyclic = true)
    (failed : w.FailedWith realm id error) (depth : Nat) :
    Refuses embedding (depth + 1) realm id error w w := by
  have linked : (embedding.link (depth + 1) id).run w = .ok (.ok ()) w := by
    apply Action.Meets.eq
    rw [Attempt.meets_run]
    exact (installed.link orderly member embedding depth).imp (fun _ h => h) (fun _ _ h => h.elim)
      fun _ _ same => ⟨rfl, same⟩
  exact .of_linked linked cyclic (evaluateFrom_failed embedding depth installed member failed) rfl
    (requireFrom_failed embedding depth orderly installed member failed)

/-- When a record is run or required, it is linked, its graph is brought into the realm, and a walk
visits it. -/
structure Visits (embedding : Embedding) (depth : Nat) (realm : RealmId) (root : RecordId)
    (w w₁ w₂ v : World) (result : Except Interrupt Nat) : Prop where
  linked : (embedding.link depth root).run w = .ok (.ok ()) w₁
  instantiated : (Action.instantiateGraph depth realm root).run w₁ = .ok (.ok ()) w₂
  visited : ((ofDepth embedding depth).visit realm root 0).run (w₂.walking realm root) =
    .ok result v

/-- How a walk ends that began in `w` and has opened a module with top-level await: the visit to its
root fails in `v`, and it is over in `w'`. -/
structure Halted (embedding : Embedding) (depth : Nat) (realm : RealmId) (root x : RecordId)
    (interrupt : Interrupt) (w v w' : World) : Prop where
  /-- It fails where it has visited what the module requests. -/
  halts : ∃ d i u, Opens embedding realm x d i u depth root 0 (w.walking realm root) ∧
    HaltsAt embedding realm x d i u interrupt v
      fun r => w'.FailedWith realm r (Interrupt.error interrupt)
  /-- From then on no body begins, and no component is closed. -/
  silent : ∃ events, w'.journal.toList = v.journal.toList ++ events ∧
    ∀ event ∈ events, event.isQuiet = true
  /-- The module is open then, and all that is keeps the error and is refused with it for good. -/
  stacked : x ∈ (v.realm realm).stack
  kept : ∀ y ∈ (v.realm realm).stack, ∀ later, Steps w' later →
    later.FailedWith realm y (Interrupt.error interrupt) ∧
      ∀ depth, Refuses embedding (depth + 1) realm y (Interrupt.error interrupt) later later

/-- The graph is in the realm as a whole when the walk begins. -/
theorem Visits.installed {result : Except Interrupt Nat} (orderly : w.Orderly)
    (graph : ∀ y, w₁.Needs root y → w₁.hasRecord y ∧
      ∀ module, w₁.record y = .custom module → module.link = .ok ())
    (visits : Visits embedding depth realm root w w₁ w₂ v result) :
    w₂.Orderly ∧ w₂.Installed realm (w₂.Needs root) ∧
      (w₂.record root).isCyclic = (w₁.record root).isCyclic := by
  have links := (embedding.keeps_link depth root).meets w
  rw [Attempt.Meets, visits.linked] at links
  have orderly₁ := Changes.orderly links.changes orderly
  have changes := (Action.keeps_instantiateGraph depth realm root).meets w₁
  rw [Attempt.Meets, visits.instantiated] at changes
  exact ⟨Changes.orderly changes orderly₁,
    installed_of_instantiateGraph orderly₁ graph visits.instantiated,
    (changes.steps.extends orderly₁).isCyclic root⟩

/-- A walk that opens a module with top-level await has not begun the module before, and halts. -/
theorem Visits.halted {result : Except Interrupt Nat} (orderly : w.Orderly)
    (graph : ∀ y, w₁.Needs root y → w₁.hasRecord y ∧
      ∀ module, w₁.record y = .custom module → module.link = .ok ())
    (visits : Visits embedding depth realm root w w₁ w₂ v result)
    (opened : x ∈ (v.realm realm).opened) (awaits : v.Awaits x) :
    ¬ w₂.Begun realm x ∧ ∃ interrupt w₃, result = .error interrupt ∧
      Refuses embedding depth realm root (Interrupt.error interrupt) w w₃ ∧
      Halted embedding depth realm root x interrupt w₂ v w₃ := by
  obtain ⟨orderly₂, installed, same⟩ := visits.installed orderly graph
  obtain ⟨linked, instantiated, visited⟩ := visits
  have walking : Steps w₂ (w₂.walking realm root) := .single (.walking realm root)
  have walks := walks_walking w₂ realm root
  have poised : Poised realm (w₂.Needs root) root (w₂.walking realm root) :=
    ⟨walking.orderly orderly₂, installed.steps orderly₂ walking, .refl, _, _, walks, rfl⟩
  -- The module was opened on the way from the root, so the visit to the root fails.
  obtain ⟨during, account⟩ := opened_of_visit poised.orderly walks rfl visited
  obtain ⟨fresh, d, i, u, opens⟩ := (account x opened).resolve_left List.not_mem_nil
  obtain ⟨slot, found⟩ := poised.installed.slot x (opens.poised poised).1.member
  have present := ((poised.orderly realm).settled x slot found).1
  have awaited : ((w₂.walking realm root).record x).hasTopLevelAwait = true :=
    ((during.extends poised.orderly).hasTopLevelAwait x present).symm.trans awaits.2
  have cyclic : (w₁.record root).isCyclic = true := same.symm.trans (opens.isCyclic poised)
  obtain ⟨interrupt, rfl, stacked, halts⟩ := opens.halts poised awaited visited
  -- The walk gives up, and leaves everything that is open then failed.
  obtain ⟨w₃, walked, _, silent⟩ := exists_walk_of_visit orderly₂ visited
  obtain ⟨steps, v', walk, visited', gaveUp, paths⟩ := gives_up_of_error orderly₂ walked
  cases visited.symm.trans visited'
  have orderly₃ := steps.orderly orderly₂
  have installed₃ := installed.steps orderly₂ steps
  refine ⟨fun begun => fresh (walking.begun begun), interrupt, w₃, rfl,
    .of_walk linked cyclic instantiated walked,
    ⟨d, i, u, opens, halts.mono fun _ => failedWith_of_fallen gaveUp⟩, silent, stacked,
    fun y member later onward => ?_⟩
  have failed := failedWith_of_fallen gaveUp (.inr member)
  rw [Realm.stack, gaveUp.innermost] at member
  obtain ⟨path, cyclic'⟩ := paths y member
  have keeps := onward.failedWith orderly₃ cyclic' failed
  exact ⟨keeps, Refuses.of_failed (onward.orderly orderly₃) (installed₃.steps orderly₃ onward)
    (installed₃.reaches .refl path) (((onward.extends orderly₃).isCyclic y).trans cyclic') keeps⟩

end
end Engine

/-- In any run, no body begins that would have to wait at its top level. And whenever a record is run
as an entry script or required, be it in the middle of a body, and its graph is complete and no
embedder's module in it refuses to link: if the walk from it opens a module with top-level await,
which had not begun in the realm before, then it fails. It is suspended at the module, under its
location, as soon as all that the module requests has been visited well; if this does not go well,
it fails with the error of a requested module, which that keeps. No body begins any more in the walk,
and everything that is open then, the module among it, is refused with the same error for good. -/
theorem top_level_await_never_runs (embedding : Embedding) (depth : Nat) (w₀ : World)
    (fresh : w₀.Fresh) :
    (∀ operations realm id moment,
      let w := ((Setup.ofDepth embedding depth).run operations).after w₀
      .began realm id moment ∈ w.journal.toList → ¬ w.Awaits id) ∧
    ∀ realm root x w w₁ w₂ v result, Steps w₀ w →
      (∀ y, w₁.Needs root y → w₁.hasRecord y ∧
        ∀ module, w₁.record y = .custom module → module.link = .ok ()) →
      Visits embedding depth realm root w w₁ w₂ v result →
      x ∈ (v.realm realm).opened → v.Awaits x →
      ¬ w₂.Begun realm x ∧
      ∃ interrupt w₃, result = .error interrupt ∧
        Refuses embedding depth realm root (Interrupt.error interrupt) w w₃ ∧
        Halted embedding depth realm root x interrupt w₂ v w₃ := by
  refine ⟨fun operations realm id moment => ?_, fun realm root x w w₁ w₂ v result before graph visits
    opened awaits => ?_⟩
  · intro w began
    exact isRunnable_iff.mp
      ((Setup.spared_after_run embedding depth operations fresh).began realm id moment began).2
  · exact visits.halted (before.orderly fresh.orderly) graph opened awaits

/-- Four static scripts: `a` imports `b`, which has top-level await, and so has `m`, which imports
`d`, which throws. -/
def World.awaiting : World where
  records := #[
    .static {
      location := .fileUrl "" ['/', 'a']
      declarations := { imports := [⟨"/b", []⟩] }
      body := fun _ => .give .undefined
      importer := .resolver
      status := .linked
      requested := [("/b", ⟨1⟩)] },
    .static {
      location := .fileUrl "" ['/', 'b']
      declarations := { hasTopLevelAwait := true }
      body := fun _ => .give .undefined
      importer := .resolver
      status := .linked },
    .static {
      location := .fileUrl "" ['/', 'm']
      declarations := { imports := [⟨"/d", []⟩], hasTopLevelAwait := true }
      body := fun _ => .give .undefined
      importer := .resolver
      status := .linked
      requested := [("/d", ⟨3⟩)] },
    .static {
      location := .fileUrl "" ['/', 'd']
      declarations := {}
      body := fun _ => .raise { value := .string "boom" }
      importer := .resolver
      status := .linked }]
  cache := { entries := [("file:///a", .ok ⟨0⟩), ("file:///b", .ok ⟨1⟩), ("file:///m", .ok ⟨2⟩),
    ("file:///d", .ok ⟨3⟩)] }
  locations := [(⟨0⟩, .fileUrl "" ['/', 'a']), (⟨1⟩, .fileUrl "" ['/', 'b']),
    (⟨2⟩, .fileUrl "" ['/', 'm']), (⟨3⟩, .fileUrl "" ['/', 'd'])]

theorem World.fresh_awaiting : awaiting.Fresh := ⟨fun _ => rfl, fun _ => rfl, rfl⟩

theorem World.needs_in_awaiting {y : RecordId} (path : awaiting.Needs ⟨0⟩ y) :
    awaiting.hasRecord y ∧ ∀ module, awaiting.record y = .custom module → module.link = .ok () := by
  have known : y ∈ [(⟨0⟩ : RecordId), ⟨1⟩] := by
    induction path with
    | refl => simp
    | @tail a b _ requested ih =>
      fin_cases ih
      · exact List.mem_cons_of_mem _ requested
      · exact absurd requested List.not_mem_nil
  fin_cases known <;> exact ⟨rfl, by rintro _ ⟨⟩⟩

/-- To run `a` fails under the location of `b`, and both keep the error. -/
theorem suspended_in_awaiting :
    let error := ModuleError.unsupportedTopLevelSuspension "file:///b"
    ∃ w₃, ((Setup.ofDepth .bare 4).runEntry (.worker 0) (.fileUrl "" ['/', 'a']) []).run awaiting =
        .ok (.error error) w₃ ∧
      ∀ y ∈ [(⟨1⟩ : RecordId), ⟨0⟩], w₃.FailedWith (.worker 0) y error := by
  intro error
  have computed : (Action.instantiateGraph 4 (.worker 0) ⟨0⟩).run.ends awaiting (fun outcome w₂ =>
      outcome.isOk && ((ofDepth .bare 4).visit (.worker 0) ⟨0⟩ 0).run.ends
        (w₂.walking (.worker 0) ⟨0⟩) fun result v =>
          result = .error (.suspended "file:///b") &&
            (v.realm (.worker 0)).opened = [⟨1⟩, ⟨0⟩] && (v.realm (.worker 0)).stack = [⟨1⟩, ⟨0⟩] &&
            (v.record ⟨1⟩).isCyclic && (v.record ⟨1⟩).hasTopLevelAwait) = true := by
    cbv
  obtain ⟨outcome, w₂, instantiated, computed⟩ := Action.exists_of_ends computed
  simp only [Bool.and_eq_true] at computed
  obtain ⟨ok, visited⟩ := computed
  obtain ⟨result, v, visited, computed⟩ := Action.exists_of_ends visited
  simp only [Bool.and_eq_true, decide_eq_true_eq] at computed
  obtain ⟨⟨⟨⟨suspended, opened⟩, stack⟩, cyclic⟩, awaits⟩ := computed
  cases outcome with
  | error => cases ok
  | ok _ =>
    obtain ⟨-, interrupt, w₃, same, refuses, halted⟩ :=
      (top_level_await_never_runs .bare 4 awaiting fresh_awaiting).2 (.worker 0) ⟨0⟩ ⟨1⟩ awaiting
        awaiting w₂ v result .refl (fun _ => needs_in_awaiting) ⟨rfl, instantiated, visited⟩
        (by simp [opened]) ⟨cyclic, awaits⟩
    cases same.symm.trans suspended
    refine ⟨w₃, refuses.entry _ _ awaiting (by cbv), fun y member => ?_⟩
    exact (halted.kept y (stack ▸ member) w₃ .refl).1

/-- To run `m` opens it for the first time, but fails with what `d` throws. -/
theorem suspension_preceded_in_awaiting :
    awaiting.Awaits ⟨2⟩ ∧ ¬ awaiting.Begun (.worker 0) ⟨2⟩ ∧
    ∃ w', ((Setup.ofDepth .bare 4).runEntry (.worker 0) (.fileUrl "" ['/', 'm']) []).run awaiting =
        .ok (.error (.evaluationRejected (.string "boom"))) w' ∧
      w'.Begun (.worker 0) ⟨2⟩ ∧
      ModuleError.evaluationRejected (.string "boom") ≠
        .unsupportedTopLevelSuspension (awaiting.describe ⟨2⟩) := by
  have computed : ((Setup.ofDepth .bare 4).runEntry (.worker 0)
      (.fileUrl "" ['/', 'm']) []).run.ends awaiting (fun outcome w' =>
        outcome = .error (.evaluationRejected (.string "boom")) &&
          (w'.realm (.worker 0)).status? ⟨2⟩ = some .evaluated) = true := by
    cbv
  obtain ⟨_, w', ran, computed⟩ := Action.exists_of_ends computed
  simp only [Bool.and_eq_true, decide_eq_true_eq] at computed
  obtain ⟨rfl, status⟩ := computed
  obtain ⟨slot, found, evaluated⟩ := Option.map_eq_some_iff.mp status
  refine ⟨⟨rfl, rfl⟩, not_begun_of_absent (by cbv), w', ran, ⟨slot, found, ?_⟩, by simp⟩
  simp [evaluated]

end ModuleGraph
