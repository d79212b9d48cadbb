import Mathlib.Data.List.Induction
import ModuleGraph.Proofs.Soundness

/-!
Walks do at every event what they should. While the modules that a module requests are visited, the
search keeps its invariant, and all that was opened above the module has run; so the module runs
when its dependencies are met, and what it closes is a component.
-/
namespace ModuleGraph

namespace World
variable {w w' : World} {realm : RealmId}

/-- A walk waits for a body that all its open modules lead to. -/
def WaitsIn (w : World) (walk : Walk) : Prop :=
  ∃ b, walk.running = some b ∧ ∀ y, y = walk.root ∨ y ∈ walk.stack → w.Reaches y b

/-- All walks in a realm wait for the bodies that they run. -/
def Waiting (w : World) (realm : RealmId) : Prop :=
  ∀ walk ∈ (w.realm realm).walks, w.WaitsIn walk

theorem WaitsIn.extends {walk : Walk} (h : w.WaitsIn walk) (records : Extends w w') :
    w'.WaitsIn walk := by
  obtain ⟨b, running, paths⟩ := h
  exact ⟨b, running, fun y hy => records.reaches (paths y hy)⟩

theorem Waiting.passes (h : w.Waiting realm) (passes : Passes realm w w') : w'.Waiting realm := by
  intro walk member
  rw [passes.walks] at member
  exact (h walk member).extends passes.advance.records

theorem Reaches.leads {a b : RecordId} (path : w.Reaches a b) (realm : RealmId) :
    (w.moment realm).Leads a b :=
  Relation.ReflTransGen.mono (fun _ _ step => .inl step.2) _ _ path

/-- While all walks wait, the bodies that they run lead to the innermost one. -/
theorem Waiting.leads_of_running (h : w.Waiting realm) {walk : Walk} {outer : List Walk}
    (walks : (w.realm realm).walks = walk :: outer) {id : RecordId}
    (running : walk.running = some id) {before : List Walk} {o : Walk} {after : List Walk}
    (split : walk :: outer = before ++ o :: after) {b : RecordId} (runs : o.running = some b) :
    (w.moment realm).Leads b id := by
  -- From the innermost walk outwards: each body requires the root of the next inner walk.
  induction before using List.reverseRecOn generalizing o after b with
  | nil =>
    obtain ⟨rfl, _⟩ := List.cons_eq_cons.mp split
    obtain rfl := Option.some.inj (running.symm.trans runs)
    exact .refl
  | append_singleton before inner ih =>
    have split' : walk :: outer = before ++ inner :: o :: after := by
      rw [split, List.append_assoc, List.singleton_append]
    obtain ⟨b', runs', paths⟩ := h inner (by rw [walks, split']; simp)
    have required : (w.moment realm).Requires b inner.root :=
      ⟨before, inner, o, after, walks.trans split', runs, rfl⟩
    exact .head (.inr required) (((paths _ (.inl rfl)).leads realm).trans (ih split' runs'))

/-- While all walks wait, every module that is evaluating leads to the innermost body. -/
theorem Waiting.leads_of_busy (h : w.Waiting realm) {walk : Walk} {outer : List Walk}
    (walks : (w.realm realm).walks = walk :: outer) {id : RecordId}
    (running : walk.running = some id) {x : RecordId} (busy : x ∈ (w.realm realm).busy) :
    (w.moment realm).Leads x id := by
  obtain ⟨o, member, onStack⟩ := List.mem_flatMap.mp busy
  obtain ⟨b, runs, paths⟩ := h o member
  obtain ⟨before, after, split⟩ := List.append_of_mem member
  exact ((paths x (.inr onStack)).leads realm).trans
    (h.leads_of_running walks running (walks.symm.trans split) runs)

end World

theorem Walk.grow_inj {walk : Walk} {new more new' more' : List RecordId}
    (same : walk.grow new more = walk.grow new' more') : new = new' ∧ more = more' := by
  simp only [Walk.grow, Walk.mk.injEq, List.append_cancel_right_eq] at same
  exact ⟨same.2.1, same.2.2.1⟩

namespace Engine
open World
variable {engine : Engine} {w w' w'' : World} {realm : RealmId} {id c r : RecordId}
  {walk : Walk} {outer : List Walk} {slot : Slot} {new more new' more' done : List RecordId}
  {index next : Nat}

/-- A module is to be visited in the innermost walk, where all open modules lead to it. -/
structure Visiting (w : World) (realm : RealmId) (walk : Walk) (outer : List Walk) (id : RecordId)
    (next : Nat) : Prop where
  orderly : w.Orderly
  sound : w.Sound
  walks : (w.realm realm).walks = walk :: outer
  idle : walk.running = none
  waiting : ∀ o ∈ outer, w.WaitsIn o
  search : w.Searching realm walk.stack walk.opened next
  leads : ∀ y, y = walk.root ∨ y ∈ walk.stack → w.Reaches y id

/-- A visit has ended well, and has left modules open in the innermost walk, the visited one below
the others, or none. -/
structure Visited (realm : RealmId) (walk : Walk) (outer : List Walk) (id : RecordId)
    (new more : List RecordId) (next : Nat) (w : World) : Prop where
  sound : w.Sound
  search : w.Searching realm (new ++ walk.stack) (more ++ walk.opened) next
  ready : w.Ready realm id
  above : new ≠ [] → id ∈ new ∧ w.Above realm outer (new ++ walk.stack) (more ++ walk.opened) id new

/-- An engine whose walks do at every event what they should. -/
structure KeepsSound (engine : Engine) : Prop where
  order : engine.KeepsOrder
  call : ∀ (frame : Frame) function arguments (w : World), w.Orderly → w.Sound →
    w.Waiting frame.realm →
    Action.Meets Sound (engine.call frame function arguments) (fun _ => Sound) w
  evaluate : ∀ realm id (w : World), w.Orderly → w.Sound → w.Waiting realm →
    Action.Meets Sound (engine.evaluate realm id) (fun _ => Sound) w
  visit : ∀ realm id next (w : World) walk outer, Visiting w realm walk outer id next →
    Attempt.Meets Sound (fun _ => Sound) (engine.visit realm id next)
      (fun next' w' => ∃ new more, (w'.realm realm).walks = walk.grow new more :: outer ∧
        Visited realm walk outer id new more next' w') w

/-- What a visit comes to, together with the order that it keeps. -/
theorem KeepsSound.meets_visit (keeps : engine.KeepsSound)
    (visiting : Visiting w realm walk outer id next) :
    Attempt.Meets Sound (fun _ => Sound) (engine.visit realm id next)
      (fun next' w' => ∃ new more, Grown realm [] walk outer new more w w' ∧
        Visited realm walk outer id new more next' w') w := by
  have order := keeps.order.visit realm id next w walk outer visiting.orderly visiting.walks
    visiting.idle
  have sound := keeps.visit realm id next w walk outer visiting
  refine (order.and sound).imp (fun _ h => h.2) (fun _ _ h => h.2) fun next' w' h => ?_
  obtain ⟨⟨new, more, grown, _⟩, new', more', walks, visited⟩ := h
  obtain ⟨same, _⟩ := List.cons_eq_cons.mp (grown.walks.symm.trans walks)
  obtain ⟨rfl, rfl⟩ := Walk.grow_inj same
  exact ⟨new, more, grown, visited⟩

/-! ### Visiting what a module requests -/

/-- The state of a walk while the modules that an open one requests are visited: of these some are
done, and new modules are open above it. -/
structure VisitingAll (realm : RealmId) (c : RecordId) (slot : Slot) (walk : Walk)
    (outer : List Walk) (done new more : List RecordId) (next : Nat) (w w' : World) : Prop where
  visited : VisitedAll realm c slot walk outer new more w w'
  sound : w'.Sound
  search : w'.Searching realm (new ++ walk.stack) (more ++ walk.opened) next
  above : w'.Above realm outer (new ++ walk.stack) (more ++ walk.opened) c new
  own : ∀ r ∈ done, w'.Ready realm r ∧
    (r ∈ new ++ walk.stack → w'.ancestor realm c ≤ w'.index realm r)

namespace VisitingAll
variable (h : VisitingAll realm c slot walk outer done new more next w w')
include h

theorem records : Extends w w' := h.visited.grown.advance.records

/-- All open modules lead to the one whose requests are visited. -/
theorem leads (leads : ∀ y, y = walk.root ∨ y ∈ walk.stack → w.Reaches y c) {y : RecordId}
    (hy : y = walk.root ∨ y ∈ new ++ walk.stack) : w'.Reaches y c := by
  have below {y : RecordId} (hy : y = walk.root ∨ y ∈ walk.stack) : w'.Reaches y c :=
    h.records.reaches (leads y hy)
  rw [List.mem_append] at hy
  rcases hy with hy | hy | hy
  · exact below (.inl hy)
  · obtain ⟨z, hz, _, path⟩ := h.search.reach_down rfl
      (fun x hx => ⟨(h.above x hx).1.lower, (h.above x hx).2.2⟩) y hy
    exact path.reaches.trans (below (.inr hz))
  · exact below (.inr hy)

theorem visiting (waiting : ∀ o ∈ outer, w.WaitsIn o) (idle : walk.running = none)
    (leads : ∀ y, y = walk.root ∨ y ∈ walk.stack → w.Reaches y c) (edge : w.Edge c r) :
    Visiting w' realm (walk.grow new more) outer r next where
  orderly := h.visited.grown.orderly
  sound := h.sound
  walks := h.visited.grown.walks
  idle := idle
  waiting o member := (waiting o member).extends h.records
  search := h.search
  leads _ hy := (h.leads leads hy).tail (h.records.edge edge)

/-- What was visited before stays as it is during a further visit. -/
theorem onward (grown : Grown realm [] (walk.grow new more) outer new' more' w' w'')
    (evaluating : slot.status = .evaluating) :
    VisitedAll realm c slot walk outer (new' ++ new) (more' ++ more) w w'' :=
  ⟨h.visited.grown.trans (grown.mono (List.nil_subset _)),
    h.visited.own.passes evaluating grown.advance List.not_mem_nil⟩

theorem begun (member : c ∈ walk.stack) : w'.Begun realm c :=
  h.search.begun c (h.search.sub (List.mem_append_right _ member))

theorem aboveOnward (grown : Grown realm [] (walk.grow new more) outer new' more' w' w'')
    (member : c ∈ walk.stack) :
    w''.Above realm outer (new' ++ (new ++ walk.stack)) (more' ++ (more ++ walk.opened)) c new := by
  intro x hx
  obtain ⟨finished, path, least⟩ := h.above x hx
  have steady := grown.advance.steady
  have begun := h.search.begun x (h.search.sub (List.mem_append_left _ hx))
  refine ⟨finished.steady h.visited.grown.orderly begun steady fun y hy => ?_,
    steady.records.within (List.subset_append_right _ _) path, ?_⟩
  · rintro ⟨slot, found, begun⟩
    exact begun (grown.fresh h.visited.grown.orderly h.visited.grown.walks hy List.not_mem_nil found)
  · rwa [steady.ancestor (h.begun member), steady.ancestor begun]

theorem ownOnward (grown : Grown realm [] (walk.grow new more) outer new' more' w' w'')
    (member : c ∈ walk.stack) : ∀ r ∈ done, w''.Ready realm r ∧
      (r ∈ new' ++ (new ++ walk.stack) → w''.ancestor realm c ≤ w''.index realm r) := by
  intro r hr
  obtain ⟨ready, least⟩ := h.own r hr
  have steady := grown.advance.steady
  refine ⟨steady.ready ready, fun onStack => ?_⟩
  rw [steady.ancestor (h.begun member), steady.index ready.begun]
  rcases List.mem_append.mp onStack with hr | hr
  · obtain ⟨slot, found, begun⟩ := ready.begun
    exact absurd (grown.fresh h.visited.grown.orderly h.visited.grown.walks hr List.not_mem_nil found)
      begun
  · exact least hr

/-- The visited module is not open in this walk, and nothing new is. -/
theorem next_same (grown : Grown realm [] (walk.grow new more) outer new' more' w' w'')
    (visited : Visited realm (walk.grow new more) outer r new' more' index w'')
    (member : c ∈ walk.stack) (evaluating : slot.status = .evaluating)
    (off : r ∉ new' ++ (new ++ walk.stack)) :
    VisitingAll realm c slot walk outer (done ++ [r]) (new' ++ new) (more' ++ more) index w w'' := by
  have nothing : new' = [] := by
    by_contra some
    exact off (List.mem_append_left _ (visited.above some).1)
  subst nothing
  refine ⟨h.onward grown evaluating, visited.sound, ?_, ?_, fun x hx => ?_⟩
  · simpa using visited.search
  · simpa using h.aboveOnward grown member
  · rcases List.mem_append.mp hx with hx | hx
    · simpa using h.ownOnward grown member x hx
    · obtain rfl := List.mem_singleton.mp hx
      exact ⟨visited.ready, fun on => absurd (by simpa using on) off⟩

/-- The visited module is open in this walk, and its ancestor is taken. -/
theorem next_lower (grown : Grown realm [] (walk.grow new more) outer new' more' w' w'')
    (visited : Visited realm (walk.grow new more) outer r new' more' index w'')
    (member : c ∈ walk.stack) (evaluating : slot.status = .evaluating) (edge : w''.Edge c r)
    (on : r ∈ new' ++ (new ++ walk.stack)) :
    VisitingAll realm c slot walk outer (done ++ [r]) (new' ++ new) (more' ++ more) index w
      (w''.lowered realm c (w''.ancestor realm r)) := by
  have onward := h.onward grown evaluating
  have hc : c ∈ new' ++ (new ++ walk.stack) := by simp [member]
  have opened (x : RecordId) (hx : x ∈ new' ++ (new ++ walk.stack)) := visited.search.sub hx
  have begun := visited.search.begun c (opened c hc)
  have own := ancestor_lowered_same begun (w''.ancestor realm r)
  have records : Extends w'' (w''.lowered realm c (w''.ancestor realm r)) := .of_records rfl
  have differs {x : RecordId} (hx : x ∈ new' ++ new) : x ≠ c := by
    rintro rfl
    have unique := visited.search.nodup
    rw [Walk.stack_grow, ← List.append_assoc] at unique
    exact (List.nodup_append.mp unique).2.2 x hx x member rfl
  obtain ⟨least, le, found⟩ := onward.own.slot
  refine ⟨⟨onward.grown.passes (onward.grown.orderly.lowered found _) (advance_lowered w'' realm c _)
    (walks_lowered w'' realm c _), onward.own.lower _⟩,
    visited.sound.lowered c _, ?_, fun x hx => ?_, fun x hx => ?_⟩
  · simpa using visited.search.lowered hc on edge
  · rw [ancestor_lowered_other _ _ (differs hx), own]
    rcases List.mem_append.mp hx with new | old
    · obtain ⟨finished, path, least⟩ := (visited.above (List.ne_nil_of_mem new)).2 x new
      refine ⟨by simpa using finished.lowered (differs hx) _, ?_,
        Nat.le_trans (Nat.min_le_right _ _) least⟩
      simpa using records.within (List.Subset.refl _) (.head ⟨opened c hc, opened r on, edge⟩ path)
    · obtain ⟨finished, path, least⟩ := h.aboveOnward grown member x old
      refine ⟨by simpa using finished.lowered (differs hx) _, ?_,
        Nat.le_trans (Nat.min_le_left _ _) least⟩
      simpa using records.within (List.Subset.refl _) path
  · rw [own, index_lowered]
    rcases List.mem_append.mp hx with hx | hx
    · obtain ⟨ready, least⟩ := h.ownOnward grown member x hx
      exact ⟨ready_lowered ready c _, fun hx => Nat.le_trans (Nat.min_le_left _ _)
        (least (by simpa using hx))⟩
    · obtain rfl := List.mem_singleton.mp hx
      exact ⟨ready_lowered visited.ready c _, fun _ => Nat.le_trans (Nat.min_le_right _ _)
        (visited.search.le x on)⟩

end VisitingAll

theorem KeepsSound.visitAll (keeps : engine.KeepsSound) (evaluating : slot.status = .evaluating)
    (idle : walk.running = none) (member : c ∈ walk.stack) (waiting : ∀ o ∈ outer, w.WaitsIn o)
    (leads : ∀ y, y = walk.root ∨ y ∈ walk.stack → w.Reaches y c) (todo : List RecordId)
    (edges : ∀ r ∈ todo, w.Edge c r)
    (h : VisitingAll realm c slot walk outer done new more next w w') :
    Attempt.Meets Sound (fun _ => Sound) (engine.visitAll realm c todo next)
      (fun next' w'' => ∃ new more,
        VisitingAll realm c slot walk outer (done ++ todo) new more next' w w'') w' := by
  induction todo generalizing done new more next w' with
  | nil => exact ⟨new, more, by simpa using h⟩
  | cons r rest ih =>
    obtain ⟨edge, edges⟩ := List.forall_mem_cons.mp edges
    -- The visit may open modules above, which have run by then; what it finds open it leaves alone.
    rw [Engine.visitAll, Attempt.meets_bind]
    refine (keeps.meets_visit (h.visiting waiting idle leads edge)).mono fun next' w'' visited => ?_
    obtain ⟨new', more', grown, visited⟩ := visited
    have stack : (w''.realm realm).stack = new' ++ (new ++ walk.stack) := by
      rw [Realm.stack, grown.walks]
      rfl
    have later {w₃ : World} (h₃ : VisitingAll realm c slot walk outer (done ++ [r]) (new' ++ new)
        (more' ++ more) next' w w₃) := by
      simpa using ih edges h₃
    rw [Attempt.meets_bind, Attempt.meets_walking]
    refine meets_lowerAncestor (fun _ => visited.sound) (fun same => later ?_)
      fun other _ found _ on => later ?_
    · refine h.next_same grown visited member evaluating fun on => ?_
      have busy : r ∈ (w''.realm realm).busy := by
        rw [Realm.busy_of_walks grown.walks]
        exact List.mem_append_left _ on
      have status := ((grown.orderly realm).busy r).mp busy
      obtain ⟨other, found, status⟩ := Option.map_eq_some_iff.mp status
      exact same other ((grown.orderly realm).cyclic r busy) found ⟨status, stack ▸ on⟩
    · rw [← ancestor_of_found found]
      exact h.next_lower grown visited member evaluating
        ((h.records.trans grown.advance.records).edge edge) (stack ▸ on)

/-! ### Running and closing -/

/-- While all walks wait, bodies uphold order and soundness. -/
theorem KeepsSound.upholds (keeps : engine.KeepsSound) (waiting : w.Waiting realm) :
    engine.Upholds realm Sound fun w' => Holds realm w w' ∧ w'.Sound where
  call frame inRealm function arguments w' h := by
    subst inRealm
    have order := keeps.order.call frame function arguments w' h.1.1
    have sound := keeps.call frame function arguments w' h.1.1 h.2 (waiting.passes h.1.2)
    exact (order.and sound).imp (fun _ h => h.2)
      fun _ _ h' => ⟨⟨h'.1.1, h.1.2.trans h'.1.2⟩, h'.2⟩
  evaluate id w' h := by
    have order := keeps.order.evaluate realm id w' h.1.1
    have sound := keeps.evaluate realm id w' h.1.1 h.2 (waiting.passes h.1.2)
    exact (order.and sound).imp (fun _ h => h.2)
      fun _ _ h' => ⟨⟨h'.1.1, h.1.2.trans h'.1.2⟩, h'.2⟩

theorem carried_sound (realm : RealmId) (w : World) :
    Carried Sound fun w' => Holds realm w w' ∧ w'.Sound where
  stop _ h := h.2
  changes _ _ changes h :=
    ⟨(carried_holds realm w).changes _ _ changes h.1, changes.sound h.2 h.1.1⟩

theorem Visiting.waitingToRun (visiting : Visiting w realm walk outer id next) :
    (w.running realm (some id)).Waiting realm := by
  intro o member
  rw [walks_running visiting.walks] at member
  have records : Extends w (w.running realm (some id)) := .of_records rfl
  rcases List.mem_cons.mp member with rfl | member
  · exact ⟨id, rfl, fun y hy => records.reaches (visiting.leads y hy)⟩
  · exact (visiting.waiting o member).extends records

/-- A body begins when the dependencies of its module are met. -/
theorem Visiting.right (visiting : Visiting w realm walk outer id next)
    (ready : (w.record id).isCyclic = true → ∀ r ∈ (w.record id).requested, w.Ready realm r)
    (before : List Event) :
    (Event.began realm id ((w.running realm (some id)).moment realm)).Right before := by
  intro cyclic r requested
  obtain ⟨slot, found, status⟩ := ready cyclic r requested
  have found' := (slot?_running w realm (some id) r).trans found
  refine ⟨slot, found', status.imp_right fun evaluating => ⟨evaluating, ?_⟩⟩
  have orderly := visiting.orderly.running visiting.walks (some id)
  exact visiting.waitingToRun.leads_of_busy (walks_running visiting.walks (some id)) rfl
    (((orderly realm).busy r).mpr (by simp [Realm.status?, found', evaluating]))

theorem KeepsSound.execute (keeps : engine.KeepsSound) (orderly : w.Orderly) (sound : w.Sound)
    (waiting : w.Waiting realm) (found : (w.realm realm).slot? id = some slot)
    (mayRun : MayRun w realm id slot)
    (right : (Event.began realm id (w.moment realm)).Right w.journal.toList) :
    Attempt.Meets Sound
      (fun _ w' => w'.Sound ∧ .began realm id (w.moment realm) ∈ w'.journal.toList)
      (engine.execute realm id)
      (fun _ w' => w'.Sound ∧ .began realm id (w.moment realm) ∈ w'.journal.toList) w := by
  have waiting' : (w.write (.began realm id (w.moment realm))).Waiting realm := waiting
  have began : Event.began realm id (w.moment realm) ∈
      (w.write (.began realm id (w.moment realm))).journal.toList := by
    simp [World.write]
  unfold Engine.execute
  rw [Attempt.meets_bind]
  refine meets_slotOf_found found ?_
  rw [Attempt.meets_bind, Attempt.meets_get, Attempt.meets_bind, Attempt.meets_lift,
    Action.meets_write]
  have exports (w' : World) (change : Instance → Instance) :
      Still w' (w'.modifyRealm realm (·.modifyInstance slot.instanceIndex change)) :=
    .modifyInstance w' realm _ change
  refine ((upholds_runInstance (carried_sound realm _).touched (keeps.upholds waiting') id
    (w.record id) fun w' change _ h =>
      ⟨h.1.still (exports w' change), h.2.still h.1.1 (exports w' change)⟩).meets
    ⟨⟨orderly.began found mayRun _, .refl _⟩, sound.write right⟩).imp (fun _ h => h)
    (fun _ w' h => ?_) fun _ w' h => ?_
  all_goals exact ⟨h.2, h.1.2.advance.journal.subset began⟩

theorem KeepsSound.executeInWalk (keeps : engine.KeepsSound)
    (visiting : Visiting w realm walk outer id next)
    (found : (w.realm realm).slot? id = some slot) (mayRun : MayRun w realm id slot)
    (ready : (w.record id).isCyclic = true → ∀ r ∈ (w.record id).requested, w.Ready realm r) :
    Attempt.Meets Sound (fun _ => Sound) (engine.executeInWalk realm id)
      (fun _ w' => w'.Sound ∧ w'.HasRun realm outer id) w := by
  have orderly₁ := visiting.orderly.running visiting.walks (some id)
  have sound₁ : (w.running realm (some id)).Sound :=
    visiting.sound.rearranged fun r => r.slots_modifyWalk _
  have found₁ := (slot?_running w realm (some id) id).trans found
  have walks₁ := walks_running visiting.walks (some id)
  unfold Engine.executeInWalk
  rw [Attempt.meets_bind, Attempt.meets_lift, meets_setRunning, Attempt.meets_bind,
    Attempt.meets_outcome]
  refine (keeps.execute orderly₁ sound₁ visiting.waitingToRun found₁ mayRun
    (visiting.right ready _)).imp (fun _ h => h) (fun error w₂ h => ?_) fun _ w₂ h => ?_
  all_goals
    obtain ⟨sound₂, began⟩ := h
    have sound₃ : (w₂.running realm none).Sound := sound₂.rearranged fun r => r.slots_modifyWalk _
    rw [Attempt.meets_bind, Attempt.meets_lift, meets_setRunning]
  · exact sound₃.write trivial
  · refine ⟨sound₃.write trivial, ⟨(w.running realm (some id)).moment realm, _, ?_, walks₁⟩,
      by simp [World.write]⟩
    exact (journal_write (w₂.running realm none) _).subset began

/-- Paths among modules that have begun are the same at a later moment. -/
theorem connects_iff {opened : List RecordId} (begun : ∀ x ∈ opened, w.Begun realm x)
    (orderly : w.Orderly) (records : Extends w w') (x y : RecordId) :
    (w'.moment realm).Connects opened x y ↔ w.Within opened x y := by
  constructor
  · refine Relation.ReflTransGen.mono (fun a b step => ⟨step.1, step.2.1, ?_⟩) x y
    have requested := (begun a step.1).requested orderly records
    exact ⟨((begun a step.1).settled orderly).2, requested ▸ step.2.2⟩
  · exact Relation.ReflTransGen.mono
      (fun a b step => ⟨step.1, step.2.1, (records.edge step.2.2).2⟩) x y

section
variable {rest : List RecordId}
  (taken : TakenOff realm walk outer rest (new ++ [c]) (fun slot => slot) w w')
include taken

theorem TakenOff.sameNumbers : SameNumbers realm w w' := by
  have slots (x : RecordId) : (w'.realm realm).slot? x = (w.realm realm).slot? x ∨
      (w'.realm realm).slot? x =
        ((w.realm realm).slot? x).map ({ · with status := .evaluated }) := by
    by_cases member : x ∈ new ++ [c]
    · exact .inr (taken.taken x member)
    · exact .inl (taken.others x member)
  refine ⟨taken.advance.records, fun x begun => ?_, fun x begun => ?_, fun x begun => ?_⟩
  all_goals
    obtain ⟨slot, found, begun⟩ := begun
    rcases slots x with same | same
    all_goals rw [found] at same
  · exact ⟨slot, same, begun⟩
  · exact ⟨_, same, by simp⟩
  · rw [index_of_found same, index_of_found found]
  · rw [index_of_found same, index_of_found found]
  · rw [ancestor_of_found same, ancestor_of_found found]
  · rw [ancestor_of_found same, ancestor_of_found found]

variable (orderly : w.Orderly) (walks : (w.realm realm).walks = walk :: outer)
  (stack : walk.stack = new ++ c :: rest)
include orderly walks stack

/-- The modules of a component that is closed have been evaluated well. -/
theorem TakenOff.fulfilled {x : RecordId} (member : x ∈ new ++ [c]) : w'.Fulfilled realm x := by
  have onStack : x ∈ (w.realm realm).busy := by
    rw [Realm.busy_of_walks walks, stack, List.append_cons]
    exact List.mem_append_left _ (List.mem_append_left _ member)
  obtain ⟨slot, found, status⟩ := Option.map_eq_some_iff.mp (((orderly realm).busy x).mp onStack)
  exact ⟨{ slot with status := .evaluated }, (taken.taken x member).trans (by rw [found]; rfl),
    rfl, (orderly realm).clean x slot found (by simp [status])⟩

end

/-- What is closed is a component whose modules have run and have been evaluated well. -/
theorem TakenOff.right {rest : List RecordId}
    (taken : TakenOff realm walk outer rest (new ++ [c]) (fun slot => slot) w w')
    (orderly : w.Orderly) (walks : (w.realm realm).walks = walk :: outer)
    (stack : walk.stack = new ++ c :: rest)
    (closing : w.Closing realm outer walk.opened next c new rest) :
    (Event.closed realm (new ++ [c]) (w'.moment realm)).Right w'.journal.toList := by
  refine ⟨⟨_, outer, taken.walks, by simp, fun x member y => ?_⟩, fun x member =>
    ⟨taken.advance.journal.subset (closing.hasRun member).ended,
      taken.fulfilled orderly walks stack member⟩⟩
  have paths := connects_iff closing.search.begun orderly taken.advance.records
  rw [closing.component member y, paths, paths]

/-- What a closed module requests has been evaluated well, or the module ran inside of it. -/
theorem TakenOff.kept {rest opened : List RecordId}
    (taken : TakenOff realm walk outer rest (new ++ [c]) (fun slot => slot) w w')
    (orderly : w.Orderly) (walks : (w.realm realm).walks = walk :: outer)
    (stack : walk.stack = new ++ c :: rest)
    (closing : w.Closing realm outer opened next c new rest) {s p : RecordId}
    (member : s ∈ new ++ [c]) (requested : p ∈ (w.record s).requested) :
    w'.Fulfilled realm p ∨ w'.WasOpened realm p ∧ w'.RanInside realm s p := by
  obtain ⟨⟨slot, found, well | evaluating⟩, above⟩ := closing.requested member requested
  · by_cases hp : p ∈ new ++ [c]
    · exact .inl (taken.fulfilled orderly walks stack hp)
    · exact .inl ((fulfilled_congr (taken.others p hp)).mpr ⟨slot, found, well⟩)
  · have busy := ((orderly realm).busy p).mpr (by simp [Realm.status?, found, evaluating])
    rw [Realm.busy_of_walks walks, stack, List.append_cons, List.mem_append, List.mem_append] at busy
    rcases busy with (hp | hp) | hp
    · exact .inl (taken.fulfilled orderly walks stack hp)
    · exact absurd hp above
    · obtain ⟨moment, inner, began, inside⟩ := (closing.hasRun member).began
      obtain ⟨o, ho, hp'⟩ := List.mem_flatMap.mp hp
      have cyclic := (orderly realm).cyclic p (by
        rw [Realm.busy_of_walks walks]
        exact List.mem_append_right _ hp)
      have opened := (orderly.begun_iff_wasOpened cyclic).mp ⟨slot, found, by simp [evaluating]⟩
      exact .inr ⟨opened.grows taken.advance.journal,
        moment, inner, outer, taken.advance.journal.subset began, inside, o, ho, hp'⟩

/-- A walk that closes a component stays sound. -/
theorem TakenOff.sound {rest : List RecordId}
    (taken : TakenOff realm walk outer rest (new ++ [c]) (fun slot => slot) w w')
    (sound : w.Sound) (orderly : w.Orderly) (walks : (w.realm realm).walks = walk :: outer)
    (stack : walk.stack = new ++ c :: rest)
    (closing : w.Closing realm outer walk.opened next c new rest) :
    (w'.write (.closed realm (new ++ [c]) (w'.moment realm))).Sound := by
  obtain ⟨events, journal, quiet⟩ := taken.journal
  have records := taken.advance.records
  have grows := taken.advance.journal.trans
    (journal_write w' (.closed realm (new ++ [c]) (w'.moment realm)))
  have before {other : RealmId} {s : RecordId} (h : ¬ (other = realm ∧ s ∈ new ++ [c])) :
      w'.Fulfilled other s ↔ w.Fulfilled other s := by
    by_cases hr : other = realm
    · subst hr
      exact fulfilled_congr (taken.others s fun member => h ⟨rfl, member⟩)
    · exact fulfilled_congr ((taken.elsewhere other hr).slot? s)
  refine ⟨(sound.journal.append journal quiet).write (taken.right orderly walks stack closing),
    fun other s cyclic now p requested cyclic' => ?_, fun other s cyclic now => ?_⟩
  -- A module that is evaluated well now is of the component, or it was so before.
  all_goals by_cases closed : other = realm ∧ s ∈ new ++ [c]
  · obtain ⟨rfl, member⟩ := closed
    have begun : w.Begun other s := closing.search.begun s (closing.search.sub (by
      rw [List.append_cons]
      exact List.mem_append_left _ member))
    rcases taken.kept orderly walks stack closing member
      (begun.requested orderly records ▸ requested) with well | ⟨opened, inside⟩
    · exact .inl well
    · exact .inr ⟨opened.grows (journal_write _ _), inside.grows (journal_write _ _)⟩
  · have fulfilled := (before closed).mp now
    rcases sound.kept other s (records.isCyclic s ▸ cyclic) fulfilled p
      (fulfilled.begun.requested orderly records ▸ requested)
      (records.isCyclic p ▸ cyclic') with well | ⟨opened, inside⟩
    · by_cases hp : other = realm ∧ p ∈ new ++ [c]
      · obtain ⟨rfl, hp⟩ := hp
        exact .inl (taken.fulfilled orderly walks stack hp)
      · exact .inl ((before hp).mpr well)
    · exact .inr ⟨opened.grows grows, inside.grows grows⟩
  · obtain ⟨rfl, member⟩ := closed
    exact ⟨new ++ [c], w'.moment other, by simp [World.write], member⟩
  · obtain ⟨modules, moment, event, member⟩ := sound.closed other s (records.isCyclic s ▸ cyclic)
      ((before closed).mp now)
    exact ⟨modules, moment, grows.subset event, member⟩

theorem Ran.steady (ran : Ran realm id slot w w') (evaluating : slot.status = .evaluating)
    (found : (w.realm realm).slot? id = some slot) : Steady realm w w' where
  records := ran.advance.records
  journal := ran.advance.journal
  slot x other found' begun := by
    by_cases same : x = id
    · subst same
      cases found.symm.trans found'
      exact ran.slot (by simp [evaluating])
    · exact ran.advance.slot (by simpa using same) found' begun

/-- Running the body of the module changes nothing of the search. -/
theorem VisitingAll.ran (h : VisitingAll realm c slot walk outer done new more next w w')
    {slot' : Slot} (found : (w'.realm realm).slot? c = some slot')
    (evaluating : slot'.status = .evaluating) (ran : Ran realm c slot' w' w'') :
    w''.Searching realm (new ++ walk.stack) (more ++ walk.opened) next ∧
      w''.Above realm outer (new ++ walk.stack) (more ++ walk.opened) c new ∧
      ∀ r ∈ done, w''.Ready realm r ∧
        (r ∈ new ++ walk.stack → w''.ancestor realm c ≤ w''.index realm r) := by
  have steady := ran.steady evaluating found
  have orderly := h.visited.grown.orderly
  have begun : w'.Begun realm c := ⟨slot', found, by simp [evaluating]⟩
  refine ⟨h.search.steady orderly steady, fun x hx => ?_, fun r hr => ?_⟩
  · obtain ⟨finished, path, least⟩ := h.above x hx
    have hx := h.search.begun x (h.search.sub (List.mem_append_left _ hx))
    have nothing : ∀ r ∈ ([] : List RecordId), ¬ w'.Begun realm r := by simp
    refine ⟨by simpa using finished.steady orderly hx steady nothing,
      steady.records.within (List.Subset.refl _) path, ?_⟩
    rwa [steady.ancestor begun, steady.ancestor hx]
  · obtain ⟨ready, least⟩ := h.own r hr
    rw [steady.ancestor begun, steady.index ready.begun]
    exact ⟨steady.ready ready, least⟩

/-- An open module has run, and so have all above it on the stack. -/
structure RunOpen (w : World) (realm : RealmId) (walk : Walk) (outer : List Walk) (id : RecordId)
    (new more : List RecordId) (next : Nat) : Prop where
  orderly : w.Orderly
  sound : w.Sound
  walks : (w.realm realm).walks = (walk.grow [id] [id]).grow new more :: outer
  slot : ∃ slot, (w.realm realm).slot? id = some slot ∧ slot.status = .evaluating
  search : w.Searching realm (new ++ id :: walk.stack) (more ++ id :: walk.opened) next
  above : w.Above realm outer (new ++ id :: walk.stack) (more ++ id :: walk.opened) id new
  own : ∀ r ∈ (w.record id).requested, w.Ready realm r ∧
    (r ∈ new ++ id :: walk.stack → w.ancestor realm id ≤ w.index realm r)
  run : w.HasRun realm outer id

/-- A module that has run closes its component, or it is left open above a lower ancestor. -/
theorem RunOpen.meets_closeComponent (h : RunOpen w realm walk outer id new more next) :
    Attempt.Meets Sound (fun _ => Sound) (closeComponent realm id)
      (fun _ w' => ∃ new more, (w'.realm realm).walks = walk.grow new more :: outer ∧
        Visited realm walk outer id new more next w') w := by
  obtain ⟨slot, found, evaluating⟩ := h.slot
  have index := index_of_found found
  have ancestor := ancestor_of_found found
  refine (Engine.meets_closeComponent h.orderly h.walks rfl found).imp (fun _ h => h)
    (fun _ _ h => h.elim) fun _ w₁ closed => ?_
  split at closed
  · rename_i first
    obtain ⟨w₂, taken, rfl⟩ := closed
    have closing : w.Closing realm outer (more ++ (id :: walk.opened)) next id new walk.stack :=
      ⟨h.search, h.above, h.own, by rw [ancestor, index, first], h.run⟩
    have search := closing.close.sameNumbers h.orderly taken.sameNumbers
    have fulfilled : w₂.Fulfilled realm id :=
      taken.fulfilled h.orderly h.walks rfl (by simp)
    refine ⟨[], more ++ [id], ?_, taken.sound h.sound h.orderly h.walks rfl closing, ?_,
      fulfilled.ready, fun some => absurd rfl some⟩
    · rw [realm_write, taken.walks]
      simp [Walk.grow]
    · simpa using search.sameNumbers taken.orderly (w₂.sameNumbers_write _ realm)
  · rename_i differs
    subst closed
    refine ⟨new ++ [id], more ++ [id], ?_, h.sound, by simpa using h.search,
      ⟨slot, found, .inr evaluating⟩, fun _ => ⟨by simp, fun x hx => ?_⟩⟩
    · rw [h.walks, Walk.grow_grow]
    · rcases List.mem_append.mp hx with hx | hx
      · simpa using h.above x hx
      · obtain rfl := List.mem_singleton.mp hx
        refine ⟨⟨by simpa using h.own, ?_, h.run⟩, .refl, Nat.le_refl _⟩
        rw [ancestor, index]
        exact Nat.lt_of_le_of_ne (ancestor ▸ index ▸ h.search.le x (by simp)) differs

/-- A module that was opened leads to itself, as all below it do. -/
theorem Visiting.leadsOpened (visiting : Visiting w realm walk outer id next) {y : RecordId}
    (hy : y = (walk.grow [id] [id]).root ∨ y ∈ (walk.grow [id] [id]).stack) :
    (w.entered realm id next).Reaches y id := by
  have records : Extends w (w.entered realm id next) := .of_records rfl
  rcases hy with hy | hy
  · exact records.reaches (visiting.leads y (.inl hy))
  · rcases List.mem_cons.mp hy with rfl | hy
    · exact .refl
    · exact records.reaches (visiting.leads y (.inr hy))

theorem KeepsSound.visitNew (keeps : engine.KeepsSound)
    (visiting : Visiting w realm walk outer id next)
    (found : (w.realm realm).slot? id = some slot) (instantiated : slot.status = .instantiated)
    (cyclic : (w.record id).isCyclic = true) :
    Attempt.Meets Sound (fun _ => Sound) (engine.visitNew realm id next)
      (fun next' w' => ∃ new more, (w'.realm realm).walks = walk.grow new more :: outer ∧
        Visited realm walk outer id new more next' w') w := by
  have orderly := visiting.orderly
  have entered := Grown.entered orderly visiting.walks found instantiated cyclic next
  have found₁ := slot?_opened found next
  have records : Extends w (w.entered realm id next) := .of_records rfl
  have waiting : ∀ o ∈ outer, (w.entered realm id next).WaitsIn o := fun o member =>
    (visiting.waiting o member).extends records
  have begun : VisitingAll realm id _ (walk.grow [id] [id]) outer [] [] [] (next + 1)
      (w.entered realm id next) (w.entered realm id next) :=
    ⟨⟨.refl entered.orderly entered.walks, .refl found₁⟩,
      visiting.sound.entered found instantiated next,
      visiting.search.entered orderly found instantiated, by simp [World.Above], by simp⟩
  have idle₁ : (walk.grow [id] [id]).running = none := visiting.idle
  unfold Engine.visitNew
  rw [Attempt.meets_bind, Attempt.meets_lift, meets_enter, Attempt.meets_bind, Attempt.meets_get,
    Attempt.meets_bind]
  refine (keeps.visitAll rfl idle₁ (by simp) waiting (fun _ => visiting.leadsOpened) _
    (fun r requested => ⟨((orderly realm).settled id slot found).2, requested⟩) begun).imp
    (fun _ h => h) (fun _ _ h => h) fun next' w₂ h => ?_
  obtain ⟨new, more, h⟩ := h
  rw [Attempt.meets_bind, Attempt.meets_get]
  split
  · exact h.sound
  obtain ⟨slot₂, found₂, evaluating₂⟩ : ∃ slot₂, (w₂.realm realm).slot? id = some slot₂ ∧
      slot₂.status = .evaluating := by
    obtain ⟨ancestor, _, found₂⟩ := h.visited.own.slot
    exact ⟨_, found₂, rfl⟩
  have grown₂ := h.visited.grown
  have visiting₂ : Visiting w₂ realm ((walk.grow [id] [id]).grow new more) outer id next' :=
    ⟨grown₂.orderly, h.sound, grown₂.walks, idle₁,
      fun o member => (waiting o member).extends h.records, h.search,
      fun y hy => h.leads (fun _ => visiting.leadsOpened) hy⟩
  have begun₁ : (w.entered realm id next).Begun realm id := ⟨_, found₁, by simp⟩
  have own (w₃ : World) (records : Extends w₂ w₃) :
      (w₃.record id).requested = ((w.entered realm id next).record id).requested :=
    begun₁.requested entered.orderly (h.records.trans records)
  have mayRun : MayRun w₂ realm id slot₂ := fun _ =>
    ⟨evaluating₂, h.visited.own.life.trans (orderly.life_opened found instantiated cyclic next)⟩
  -- All requests have been visited, so the body may run.
  have order := keeps.order.executeInWalk grown₂.orderly grown₂.walks idle₁ found₂ mayRun
  have sound := keeps.executeInWalk visiting₂ found₂ mayRun fun _ r requested =>
    (h.own r (by simpa [own w₂ (.refl w₂)] using requested)).1
  rw [Attempt.meets_bind, Attempt.meets_walking]
  refine (order.and sound).imp (fun _ h => h.2) (fun _ _ h => h.2) fun _ w₃ h₃ => ?_
  obtain ⟨ran, sound₃, run⟩ := h₃
  obtain ⟨search₃, above₃, own₃⟩ := h.ran found₂ evaluating₂ ran
  have requested₃ : ∀ r ∈ (w₃.record id).requested, w₃.Ready realm r ∧
      (r ∈ new ++ id :: walk.stack → w₃.ancestor realm id ≤ w₃.index realm r) := by
    intro r requested
    refine own₃ r ?_
    rw [own w₃ ran.advance.records] at requested
    simpa using requested
  have runOpen : RunOpen w₃ realm walk outer id new more next' :=
    ⟨ran.orderly, sound₃, ran.walks.trans grown₂.walks,
      ⟨slot₂, ran.slot (by simp [evaluating₂]), evaluating₂⟩, search₃, above₃, requested₃, run⟩
  rw [Attempt.meets_bind, Attempt.meets_walking]
  exact runOpen.meets_closeComponent

/-- An evaluated module without an error goes on with its walk. -/
theorem meets_outcomeOf {post : Nat → World → Prop} (sound : w.Sound)
    (h : slot.error = none → post next w) :
    Attempt.Meets Sound (fun _ => Sound) (outcomeOf slot next) post w := by
  unfold outcomeOf
  split
  · exact sound
  · exact h ‹_›

theorem KeepsSound.visitPlain (keeps : engine.KeepsSound)
    (visiting : Visiting w realm walk outer id next) (plain : (w.record id).isCyclic = false) :
    Attempt.Meets Sound (fun _ => Sound) (engine.visitPlain realm id next)
      (fun next' w' => next' = next ∧ w'.Sound ∧ w'.Ready realm id) w := by
  unfold Engine.visitPlain
  rw [Attempt.meets_bind, Attempt.meets_walking]
  refine meets_slotOf (fun _ => visiting.sound) fun slot found => ?_
  have cyclic : ¬ (w.record id).isCyclic = true := by simp [plain]
  split
  · have order := keeps.order.executeInWalk visiting.orderly visiting.walks visiting.idle found
      fun h => absurd h cyclic
    have sound := keeps.executeInWalk visiting found (fun h => absurd h cyclic)
      fun h => absurd h cyclic
    have ended {w' : World} (ran : Ran realm id slot w w') (sound : w'.Sound)
        (error : Option ModuleError) :
        Attempt.Meets Sound (fun _ => Sound)
          (do
            moveSlot realm id .evaluated ({ · with error })
            outcomeOf (← (slotOf realm id).walking) next)
          (fun next' w' => next' = next ∧ w'.Sound ∧ w'.Ready realm id) w' := by
      have plain' : (w'.record id).isCyclic = false := by rw [ran.advance.records.isCyclic, plain]
      have sound' := sound.plain realm plain' ({ · with error })
      rw [Attempt.meets_bind, Attempt.meets_lift, meets_moveSlot, Attempt.meets_bind,
        Attempt.meets_walking]
      refine meets_slotOf (fun _ => sound') fun slot found =>
        meets_outcomeOf sound' fun well => ⟨rfl, sound', slot, found, .inl ⟨?_, well⟩⟩
      rw [realm_moveSlot, Realm.slot?_modifySlot, if_pos rfl] at found
      obtain ⟨before, _, rfl⟩ := Option.map_eq_some_iff.mp found
      rfl
    rw [Attempt.meets_bind, Attempt.meets_walking, Attempt.meets_outcome]
    refine (order.and sound).imp (fun _ h => h.2) (fun error w' h => ?_) fun _ w' h => ?_
    · exact ended h.1 h.2 (some error)
    · exact ended h.1 h.2.1 none
  · rename_i begun
    refine meets_outcomeOf visiting.sound fun well => ⟨rfl, visiting.sound, slot, found, ?_⟩
    cases status : slot.status with
    | instantiated => exact absurd status begun
    | evaluating => exact .inr rfl
    | evaluated => exact .inl ⟨rfl, well⟩

theorem Visiting.changes (visiting : Visiting w realm walk outer id next)
    (changes : Changes w w') : Visiting w' realm walk outer id next := by
  have passes := Changes.passes changes realm
  have records := passes.advance.records
  exact ⟨Changes.orderly changes visiting.orderly,
    Changes.sound changes visiting.sound visiting.orderly, passes.walks.trans visiting.walks,
    visiting.idle, fun o member => (visiting.waiting o member).extends records,
    visiting.search.steady visiting.orderly passes.advance.steady,
    fun y hy => records.reaches (visiting.leads y hy)⟩

/-- A visit that opens nothing. -/
theorem Visiting.visited (visiting : Visiting w realm walk outer id next)
    (grown : Grown realm [] walk outer [] [] w w') (sound : w'.Sound)
    (ready : w'.Ready realm id) : Visited realm walk outer id [] [] next w' :=
  ⟨sound, visiting.search.steady visiting.orderly grown.advance.steady, ready,
    fun some => absurd rfl some⟩

theorem KeepsSound.visitFrom (keeps : engine.KeepsSound)
    (visiting : Visiting w realm walk outer id next) :
    Attempt.Meets Sound (fun _ => Sound) (engine.visitFrom realm id next)
      (fun next' w' => ∃ new more, (w'.realm realm).walks = walk.grow new more :: outer ∧
        Visited realm walk outer id new more next' w') w := by
  unfold Engine.visitFrom
  rw [Attempt.meets_bind, Attempt.meets_walking]
  refine ((Action.keeps_instantiate engine.depth realm id).meets w).imp
    (fun _ changes => (visiting.changes changes).sound)
    (fun _ _ changes => (visiting.changes changes).sound) fun _ w₁ changes => ?_
  replace visiting := visiting.changes changes
  have here (ready : w₁.Ready realm id) : ∃ new more,
      (w₁.realm realm).walks = walk.grow new more :: outer ∧
        Visited realm walk outer id new more next w₁ :=
    ⟨[], [], visiting.walks,
      visiting.visited (.refl visiting.orderly visiting.walks) visiting.sound ready⟩
  rw [Attempt.meets_bind, Attempt.meets_get]
  split
  · rename_i cyclic
    rw [Attempt.meets_bind, Attempt.meets_walking]
    refine meets_slotOf (fun _ => visiting.sound) fun slot found => ?_
    split
    · rename_i evaluated
      exact meets_outcomeOf visiting.sound fun well => here ⟨slot, found, .inl ⟨evaluated, well⟩⟩
    · rename_i evaluating
      exact here ⟨slot, found, .inr evaluating⟩
    · rename_i instantiated
      exact keeps.visitNew visiting found instantiated cyclic
  · rename_i plain
    have plain : (w₁.record id).isCyclic = false := by simpa using plain
    have order := keeps.order.visitPlain visiting.orderly visiting.walks visiting.idle plain next
    refine (order.and (keeps.visitPlain visiting plain)).imp (fun _ h => h.2) (fun _ _ h => h.2)
      fun next' w' h => ?_
    obtain ⟨grown, rfl, sound, ready⟩ := h
    exact ⟨[], [], grown.walks, visiting.visited grown sound ready⟩

/-! ### Walks -/

/-- What a walk gives up was not evaluated well, and is not now. -/
theorem TakenOff.abandoned {error : ModuleError}
    (taken : TakenOff realm walk outer [] walk.stack ({ · with error := some error }) w w')
    (sound : w.Sound) (orderly : w.Orderly) (walks : (w.realm realm).walks = walk :: outer) :
    w'.Sound := by
  obtain ⟨events, journal, quiet⟩ := taken.journal
  refine sound.change taken.records events journal quiet taken.elsewhere walk.stack taken.others
    fun x member _ => ?_
  have onStack : x ∈ (w.realm realm).busy := by
    rw [Realm.busy_of_walks walks]
    exact List.mem_append_left _ member
  obtain ⟨slot, found, status⟩ := Option.map_eq_some_iff.mp (((orderly realm).busy x).mp onStack)
  have found' := taken.taken x member
  rw [found, Option.map_some] at found'
  rw [fulfilled_of_found found, fulfilled_of_found found']
  simp [status]

theorem KeepsSound.meets_walk (keeps : engine.KeepsSound) (orderly : w.Orderly) (sound : w.Sound)
    (waiting : w.Waiting realm) (root : RecordId) :
    Action.Meets Sound (engine.walk realm root)
      (fun outcome w' => w'.Sound ∧ ∀ left, outcome = .ok left → w'.Ready realm root) w := by
  have walks₁ := walks_walking w realm root
  have orderly₁ := orderly.walking realm root
  have records : Extends w (w.walking realm root) := .of_records rfl
  have visiting : Visiting (w.walking realm root) realm { root } (w.realm realm).walks root 0 := by
    refine ⟨orderly₁, sound.rearranged fun _ => rfl, walks₁, rfl,
      fun o member => (waiting o member).extends records, searching_nil, fun y hy => ?_⟩
    rcases hy with rfl | hy
    · exact .refl
    · exact absurd hy List.not_mem_nil
  have order := keeps.order.visit realm root 0 _ _ _ orderly₁ walks₁ rfl
  unfold Engine.walk
  rw [Action.meets_bind, Action.meets_modify, Action.meets_bind, Attempt.meets_run]
  refine (order.and (keeps.visit realm root 0 _ _ _ visiting)).imp (fun _ h => h.2)
    (fun interrupt w₂ h => ?_) fun index w₂ h => ?_
  · obtain ⟨⟨new, more, grown⟩, sound₂⟩ := h
    have stack : (w₂.realm realm).stack = (Walk.grow { root } new more).stack := by
      rw [Realm.stack, grown.walks]
    rw [Action.meets_bind, conclude, Action.meets_bind, Action.meets_get, Action.meets_bind, stack]
    refine (meets_abandon _ grown.orderly grown.walks).mono fun _ w₃ taken => ?_
    rw [Action.meets_pure, Action.meets_bind, Action.meets_modify, Action.meets_pure]
    exact ⟨(taken.abandoned sound₂ grown.orderly grown.walks).rearranged fun _ => rfl,
      fun _ left => by cases left⟩
  · obtain ⟨_, new, more, _, visited⟩ := h
    rw [Action.meets_bind, conclude, Action.meets_bind, Action.meets_get, Action.meets_pure,
      Action.meets_bind, Action.meets_modify, Action.meets_pure]
    obtain ⟨slot, found, status⟩ := visited.ready
    refine ⟨visited.sound.rearranged fun _ => rfl, fun _ _ => ⟨slot, ?_, status⟩⟩
    rw [Realm.slot?, realm_modifyRealm_same]
    exact found

theorem KeepsSound.deeper (keeps : engine.KeepsSound) (embedding : Embedding) :
    (engine.next embedding).KeepsSound := by
  have walks {realm : RealmId} {w : World} (waiting : w.Waiting realm) (root : RecordId) :
      Action.Upholds Sound (fun w' => Holds realm w w' ∧ w'.Sound) (engine.walk realm root) := by
    intro w' h
    have sound := keeps.meets_walk h.1.1 h.2 (waiting.passes h.1.2) root
    exact ((keeps.order.meets_walk h.1.1 root).and sound).imp (fun _ h => h.2)
      fun _ _ h' => ⟨⟨h'.1.2.1, h.1.2.trans h'.1.2.2⟩, h'.2.1⟩
  have bodies {realm : RealmId} {w : World} (waiting : w.Waiting realm) :=
    Upholds.next ((carried_sound realm w).borne embedding) (walks waiting) (keeps.upholds waiting)
  refine ⟨keeps.order.deeper embedding, fun frame function arguments w orderly sound waiting => ?_,
    fun realm id w orderly sound waiting => ?_,
    fun realm id next w walk outer visiting => keeps.visitFrom visiting⟩
  · exact ((bodies waiting).call frame rfl function arguments w ⟨⟨orderly, .refl w⟩, sound⟩).imp
      (fun _ h => h) fun _ _ h => h.2
  · exact ((bodies waiting).evaluate id w ⟨⟨orderly, .refl w⟩, sound⟩).imp
      (fun _ h => h) fun _ _ h => h.2

/-- However deep modules nest, walks do at every event what they should. -/
theorem keepsSound_ofDepth (embedding : Embedding) (depth : Nat) :
    (ofDepth embedding depth).KeepsSound := by
  induction depth with
  | zero =>
    exact ⟨keepsOrder_ofDepth embedding 0, fun _ _ _ _ _ h _ => h, fun _ _ _ _ h _ => h,
      fun _ _ _ _ _ _ h => h.sound⟩
  | succ depth ih => exact ih.deeper embedding

end Engine
end ModuleGraph
