import ModuleGraph.Proofs.Failures

/-!
How a walk comes to the modules that it opens. A module is opened on the way of a visit when all that
was requested before it has been visited well. So if the visit that opens it does not end well,
neither does any visit around it, up to the one from the root of the walk.
-/
namespace ModuleGraph
open World Engine Relation

/-- The modules that the innermost walk has opened. -/
def Realm.opened (realm : Realm) : List RecordId := (realm.walks.head?.map Walk.opened).getD []

theorem Realm.opened_of_walks {realm : Realm} {walk : Walk} {outer : List Walk}
    (walks : realm.walks = walk :: outer) : realm.opened = walk.opened := by
  rw [opened, walks]
  rfl

theorem Attempt.run_walking_of_ended {α : Type} {attempt : Attempt α} {a : α} {w w' : World}
    (ended : attempt.run w = .ok (.ok a) w') : attempt.walking.run w = .ok (.ok a) w' := by
  apply Action.Meets.eq
  rw [Attempt.meets_run, Attempt.meets_walking, Attempt.Meets, ended]
  exact ⟨rfl, rfl⟩

namespace Engine

theorem visitAll_append (engine : Engine) (realm : RealmId) (id : RecordId)
    (before after : List RecordId) (index : Nat) :
    engine.visitAll realm id (before ++ after) index =
      engine.visitAll realm id before index >>= engine.visitAll realm id after := by
  induction before generalizing index with
  | nil => simp [Engine.visitAll]
  | cons next rest ih => simp [Engine.visitAll, ih]

section
variable {embedding : Embedding} {depth : Nat} {realm : RealmId} {id x r : RecordId} {index : Nat}
  {w u v : World}

/-- A module that has not begun is in the realm, after it was made sure that it is. -/
structure Enters (depth : Nat) (realm : RealmId) (id : RecordId) (w u : World) : Prop where
  present : (Action.instantiate depth realm id).run w = .ok (.ok ()) u
  untouched : ∃ slot, (u.realm realm).slot? id = some slot ∧ slot.status = .instantiated
  cyclic : (u.record id).isCyclic = true

/-- On the way of a visit a module is opened, at a depth, with a number and in a world. It is the
visited one, or the visited one is opened, and it is opened on the way of the visit to a module that
this one requests. -/
inductive Opens (embedding : Embedding) (realm : RealmId) (x : RecordId) (d i : Nat) (u : World) :
    Nat → RecordId → Nat → World → Prop
  | own {w : World} (enters : Enters d realm x w u) : Opens embedding realm x d i u (d + 1) x i w
  | through {depth : Nat} {id : RecordId} {index : Nat} {w w₁ : World} {before : List RecordId}
    {r : RecordId} {rest : List RecordId} {next : Nat} {w₂ : World}
    (enters : Enters depth realm id w w₁)
    (requested : (w₁.record id).requested = before ++ r :: rest)
    (visited : ((ofDepth embedding depth).visitAll realm id before (index + 1)).run
      (w₁.entered realm id index) = .ok (.ok next) w₂)
    (opens : Opens embedding realm x d i u depth r next w₂) :
    Opens embedding realm x d i u (depth + 1) id index w

/-- A module is opened somewhere on the way of a visit. -/
def IsOpened (embedding : Embedding) (depth : Nat) (realm : RealmId) (id : RecordId) (index : Nat)
    (w : World) (x : RecordId) : Prop :=
  ∃ d i u, Opens embedding realm x d i u depth id index w

/-- A module is opened on the way of a visit to one of several that a module requests. -/
def IsOpenedAmong (embedding : Embedding) (depth : Nat) (realm : RealmId) (id : RecordId)
    (required : List RecordId) (index : Nat) (w : World) (x : RecordId) : Prop :=
  ∃ before r rest next w', required = before ++ r :: rest ∧
    ((ofDepth embedding depth).visitAll realm id before index).run w = .ok (.ok next) w' ∧
    IsOpened embedding depth realm r next w' x

/-! ### Visits that do not end well -/

theorem Enters.run_visit (enters : Enters depth realm id w u) (embedding : Embedding)
    (index : Nat) :
    ((ofDepth embedding (depth + 1)).visit realm id index).run w =
      ((ofDepth embedding depth).visitNew realm id index).run u := by
  obtain ⟨present, ⟨slot, found, instantiated⟩, cyclic⟩ := enters
  have slotFound : (slotOf realm id).run u = .ok (.ok slot) u := by
    apply Action.Meets.eq
    rw [Attempt.meets_run]
    exact meets_slotOf_found found ⟨rfl, rfl⟩
  show (visitFrom (ofDepth embedding depth) realm id index).run w = _
  rw [visitFrom, depth_ofDepth,
    Attempt.run_bind_of_ended (Attempt.run_walking_of_ended present),
    Attempt.run_bind_of_ended (show (get : Walking World).run u = .ok (.ok u) u from rfl),
    if_pos cyclic, Attempt.run_bind_of_ended (Attempt.run_walking_of_ended slotFound), instantiated]

/-- What follows the opening of a module and the look at what it requests. -/
theorem run_visitNew (engine : Engine) (realm : RealmId) (id : RecordId) (index : Nat) (w : World) :
    (engine.visitNew realm id index).run w =
      (engine.visitAll realm id (w.record id).requested (index + 1) >>= fun index => do
        let world ← get
        if (world.record id).hasTopLevelAwait then throw (.suspended (world.describe id))
        else
          (engine.executeInWalk realm id).walking
          (closeComponent realm id).walking
          pure index : Walking Nat).run (w.entered realm id index) := rfl

theorem run_visitNew_of_breaks
    (breaks : ∀ next v, ((ofDepth embedding depth).visitAll realm id (w.record id).requested
      (index + 1)).run (w.entered realm id index) ≠ .ok (.ok next) v) :
    ((ofDepth embedding depth).visitNew realm id index).run w =
      ((ofDepth embedding depth).visitAll realm id (w.record id).requested (index + 1)).run
        (w.entered realm id index) := by
  rw [run_visitNew]
  exact Attempt.run_bind_of_breaks breaks

/-- When the visit that opens a module does not end well, the visit around it ends as that does. -/
theorem Opens.run_visit {d i : Nat} (opens : Opens embedding realm x d i u depth id index w)
    (breaks : ∀ next v, ((ofDepth embedding d).visitNew realm x i).run u ≠ .ok (.ok next) v) :
    ((ofDepth embedding depth).visit realm id index).run w =
      ((ofDepth embedding d).visitNew realm x i).run u := by
  induction opens with
  | own enters => exact enters.run_visit embedding i
  | @through depth id index w w₁ before r rest next w₂ enters requested visited _ ih =>
    have visit : ((ofDepth embedding depth).visitAll realm id (w₁.record id).requested
        (index + 1)).run (w₁.entered realm id index) =
        ((ofDepth embedding d).visitNew realm x i).run u := by
      rw [requested, visitAll_append, Attempt.run_bind_of_ended visited, Engine.visitAll,
        Attempt.run_bind_of_breaks (ih.symm ▸ breaks), ih]
    rw [enters.run_visit embedding index, run_visitNew_of_breaks (visit.symm ▸ breaks), visit]

/-- When what an opened module requests is not visited well, the visit around it ends as those do. -/
theorem Opens.run_visitAll {d i : Nat} (opens : Opens embedding realm x d i u depth id index w)
    (breaks : ∀ next v, ((ofDepth embedding d).visitAll realm x (u.record x).requested
      (i + 1)).run (u.entered realm x i) ≠ .ok (.ok next) v) :
    ((ofDepth embedding depth).visit realm id index).run w =
      ((ofDepth embedding d).visitAll realm x (u.record x).requested (i + 1)).run
        (u.entered realm x i) := by
  have same := run_visitNew_of_breaks breaks
  rw [opens.run_visit (same.symm ▸ breaks), same]

end

/-! ### On the way -/

/-- A module of a graph that is in a realm can be visited: the innermost walk runs no body. -/
structure Poised (realm : RealmId) (graph : RecordId → Prop) (id : RecordId) (w : World) : Prop where
  orderly : w.Orderly
  installed : w.Installed realm graph
  member : graph id
  walks : ∃ walk outer, (w.realm realm).walks = walk :: outer ∧ walk.running = none

section
variable {embedding : Embedding} {depth : Nat} {realm : RealmId} {graph : RecordId → Prop}
  {id x r : RecordId} {index : Nat} {w u v : World}

/-- What is in the realm already is entered as it is. -/
theorem Poised.enters_same (poised : Poised realm graph id w) (enters : Enters depth realm id w u) :
    u = w := by
  obtain ⟨slot, found⟩ := poised.installed.slot id poised.member
  have same := Action.meets_instantiate_found found depth
  rw [Attempt.Meets, enters.present] at same
  exact same

/-- Visits to modules that an opened one requests leave order, and a walk that runs no body. -/
theorem Poised.visitAll_ended {required : List RecordId} {next : Nat}
    (poised : Poised realm graph id w) (enters : Enters depth realm id w w)
    (requested : ∀ r ∈ required, r ∈ (w.record id).requested)
    (visited : ((ofDepth embedding depth).visitAll realm id required (index + 1)).run
      (w.entered realm id index) = .ok (.ok next) v) :
    Steps w v ∧ v.Orderly ∧ ∃ walk outer, (v.realm realm).walks = walk :: outer ∧
      walk.running = none := by
  obtain ⟨orderly, -, -, walk, outer, walks, idle⟩ := poised
  obtain ⟨-, ⟨slot, found, instantiated⟩, cyclic⟩ := enters
  have account := (keepsSteps_ofDepth embedding depth).visitAll_entered orderly walks idle found
    instantiated cyclic index requested
  rw [Attempt.Meets, visited] at account
  obtain ⟨new, more, visited, explored⟩ := account
  exact ⟨explored.steps.head (.entered realm id index walks found instantiated cyclic),
    visited.grown.orderly, _, outer, visited.grown.walks, idle⟩

/-- After some of what a module requests was visited well, what it requests next can be visited. -/
theorem Poised.visitAll {before rest : List RecordId} {next : Nat}
    (poised : Poised realm graph id w) (enters : Enters depth realm id w w)
    (requested : (w.record id).requested = before ++ r :: rest)
    (visited : ((ofDepth embedding depth).visitAll realm id before (index + 1)).run
      (w.entered realm id index) = .ok (.ok next) v) : Poised realm graph r v ∧ Steps w v := by
  obtain ⟨steps, orderly, walks⟩ := poised.visitAll_ended enters
    (fun r member => by simp [requested, member]) visited
  exact ⟨⟨orderly, poised.installed.steps poised.orderly steps,
    poised.installed.closed id poised.member r (by simp [requested]), walks⟩, steps⟩

/-- A module is open when the visit fails that has opened it. -/
theorem Poised.mem_stack {interrupt : Interrupt} (poised : Poised realm graph id w)
    (enters : Enters depth realm id w w)
    (failed : ((ofDepth embedding depth).visitNew realm id index).run w = .ok (.error interrupt) v) :
    id ∈ (v.realm realm).stack := by
  obtain ⟨orderly, -, -, walk, outer, walks, idle⟩ := poised
  obtain ⟨-, ⟨slot, found, instantiated⟩, cyclic⟩ := enters
  have account := (keepsSteps_ofDepth embedding depth).visitNew orderly walks idle found instantiated
    cyclic index
  rw [Attempt.Meets, failed] at account
  obtain ⟨new, more, walks', -, member⟩ := account
  rw [Realm.stack, walks']
  exact List.mem_append_left _ member

/-- A module that is opened on the way can be visited there. -/
theorem Opens.poised {d i : Nat} (opens : Opens embedding realm x d i u depth id index w)
    (poised : Poised realm graph id w) :
    Poised realm graph x u ∧ Steps w u ∧ Enters d realm x u u := by
  induction opens with
  | own enters =>
    cases poised.enters_same enters
    exact ⟨poised, .refl, enters⟩
  | through enters requested visited _ ih =>
    cases poised.enters_same enters
    obtain ⟨poised', steps⟩ := poised.visitAll enters requested visited
    obtain ⟨poised'', steps', enters'⟩ := ih poised'
    exact ⟨poised'', steps.trans steps', enters'⟩

end

/-! ### Everything that is opened -/

section
variable {embedding : Embedding} {depth : Nat} {realm : RealmId} {id : RecordId} {index : Nat}
  {w : World} {walk : Walk} {outer : List Walk} {slot : Slot}

/-- The innermost walk has opened no modules but some. -/
def OpensOnly (realm : RealmId) (S : RecordId → Prop) (v : World) : Prop :=
  ∀ x ∈ (v.realm realm).opened, S x

/-- A visit that opens a module opens only what the visits to the modules that it requests open, and
the module itself. -/
theorem meets_visitNew_opened (S : RecordId → Prop) (h : w.Orderly)
    (walks : (w.realm realm).walks = walk :: outer) (idle : walk.running = none)
    (found : (w.realm realm).slot? id = some slot) (instantiated : slot.status = .instantiated)
    (cyclic : (w.record id).isCyclic = true) (index : Nat)
    (visits : Attempt.Meets (fun _ => True) (fun _ => OpensOnly realm S)
      ((ofDepth embedding depth).visitAll realm id (w.record id).requested (index + 1))
      (fun _ => OpensOnly realm S) (w.entered realm id index)) :
    Attempt.Meets (fun _ => True) (fun _ => OpensOnly realm S)
      ((ofDepth embedding depth).visitNew realm id index) (fun _ => OpensOnly realm S) w := by
  have keeps := keepsSteps_ofDepth embedding depth
  unfold Engine.visitNew
  rw [Attempt.meets_bind, Attempt.meets_lift, meets_enter, Attempt.meets_bind, Attempt.meets_get,
    Attempt.meets_bind]
  refine ((keeps.visitAll_entered h walks idle found instantiated cyclic index
    fun _ member => member).and visits).imp (fun _ _ => trivial) (fun _ _ h => h.2)
    fun index' w₂ h' => ?_
  obtain ⟨⟨new, more, visited, -⟩, opened⟩ := h'
  have walks₂ := visited.grown.walks
  rw [OpensOnly, Realm.opened_of_walks walks₂] at opened
  have same {v : World} {walk' : Walk} (walks : (v.realm realm).walks = walk' :: outer)
      (same : walk'.opened = ((walk.grow [id] [id]).grow new more).opened) :
      OpensOnly realm S v := by
    rw [OpensOnly, Realm.opened_of_walks walks, same]
    exact opened
  obtain ⟨ancestor, _, found₂⟩ := visited.own.slot
  rw [Attempt.meets_bind, Attempt.meets_get]
  split
  · exact same walks₂ rfl
  have mayRun : MayRun w₂ realm id { slot with index, ancestor, status := .evaluating } := fun _ =>
    ⟨rfl, visited.own.life.trans (h.life_opened found instantiated cyclic index)⟩
  rw [Attempt.meets_bind, Attempt.meets_walking]
  refine (keeps.order.executeInWalk visited.grown.orderly walks₂ idle found₂ mayRun).imp
    (fun _ _ => trivial) (fun _ w₃ ran => same (ran.walks.trans walks₂) rfl) fun _ w₃ ran => ?_
  have walks₃ := ran.walks.trans walks₂
  have stack₃ : ((walk.grow [id] [id]).grow new more).stack = new ++ id :: walk.stack := by simp
  rw [Attempt.meets_bind, Attempt.meets_walking]
  refine (meets_closeComponent ran.orderly walks₃ stack₃ (ran.slot (by simp))).imp (fun _ h => h)
    (fun _ _ h => h.elim) fun _ w₄ closed => ?_
  rw [Attempt.meets_pure]
  split at closed
  · obtain ⟨w₅, taken, rfl⟩ := closed
    exact same taken.walks rfl
  · exact same (closed ▸ walks₃) rfl

/-- What visits to several modules have opened is opened on the way of one of them. -/
theorem meets_visitAll_opened
    (visits : ∀ r index w walk outer, w.Orderly → (w.realm realm).walks = walk :: outer →
      walk.running = none → Attempt.Meets (fun _ => True)
        (fun _ => OpensOnly realm fun x =>
          x ∈ walk.opened ∨ IsOpened embedding depth realm r index w x)
        ((ofDepth embedding depth).visit realm r index)
        (fun _ => OpensOnly realm fun x =>
          x ∈ walk.opened ∨ IsOpened embedding depth realm r index w x) w)
    (h : w.Orderly) (walks : (w.realm realm).walks = walk :: outer) (idle : walk.running = none)
    (found : (w.realm realm).slot? id = some slot) (instantiated : slot.status = .instantiated)
    (cyclic : (w.record id).isCyclic = true) (index : Nat) (required : List RecordId)
    (requested : ∀ r ∈ required, r ∈ (w.record id).requested) :
    Attempt.Meets (fun _ => True)
      (fun _ => OpensOnly realm fun x => x ∈ id :: walk.opened ∨
        IsOpenedAmong embedding depth realm id required (index + 1) (w.entered realm id index) x)
      ((ofDepth embedding depth).visitAll realm id required (index + 1))
      (fun _ => OpensOnly realm fun x => x ∈ id :: walk.opened ∨
        IsOpenedAmong embedding depth realm id required (index + 1) (w.entered realm id index) x)
      (w.entered realm id index) := by
  -- From the last of them on: those before it are visited in the same world.
  induction required using List.reverseRecOn with
  | nil =>
    intro x member
    rw [Realm.opened_of_walks (walks_entered walks id index)] at member
    exact .inl member
  | append_singleton before r ih =>
    have requested₁ : ∀ r ∈ before, r ∈ (w.record id).requested := fun r member =>
      requested r (List.mem_append_left _ member)
    have longer {x : RecordId} (opened : IsOpenedAmong embedding depth realm id before (index + 1)
        (w.entered realm id index) x) : IsOpenedAmong embedding depth realm id (before ++ [r])
          (index + 1) (w.entered realm id index) x := by
      obtain ⟨before', r', rest, next, w', rfl, visited, opened⟩ := opened
      exact ⟨before', r', rest ++ [r], next, w', by simp, visited, opened⟩
    have account := (keepsSteps_ofDepth embedding depth).visitAll_entered h walks idle found
      instantiated cyclic index requested₁
    have ended := (Attempt.meets_run _).1 <| Action.meets_ended
      ((ofDepth embedding depth).visitAll realm id before (index + 1)).run
      (w.entered realm id index)
    rw [visitAll_append, Attempt.meets_bind]
    refine ((account.and ended).and (ih requested₁)).imp (fun _ _ => trivial)
      (fun _ v h x member => (h.2 x member).imp_right longer) fun next w₁ h => ?_
    obtain ⟨⟨⟨new, more, visited, -⟩, ended⟩, opened⟩ := h
    have walks₁ := visited.grown.walks
    rw [OpensOnly, Realm.opened_of_walks walks₁] at opened
    have last {v : World} (h : OpensOnly realm (fun x =>
        x ∈ ((walk.grow [id] [id]).grow new more).opened ∨
          IsOpened embedding depth realm r next w₁ x) v) :
        OpensOnly realm (fun x => x ∈ id :: walk.opened ∨
          IsOpenedAmong embedding depth realm id (before ++ [r]) (index + 1)
            (w.entered realm id index) x) v := by
      intro x member
      rcases h x member with member | opened'
      · exact (opened x member).imp_right longer
      · exact .inr ⟨before, r, [], next, w₁, rfl, ended, opened'⟩
    rw [Engine.visitAll, Attempt.meets_bind]
    refine (visits r next w₁ _ outer visited.grown.orderly walks₁ idle).imp (fun _ h => h)
      (fun _ _ h => last h) fun index' w₂ h => ?_
    rw [Attempt.meets_bind, Attempt.meets_walking]
    refine meets_lowerAncestor (fun _ => last h) (fun _ => last h) fun other _ _ _ _ => ?_
    refine last fun x member => h x ?_
    rwa [Realm.opened, walks_lowered] at member

/-- What a visit has opened is opened on its way. -/
theorem meets_visit_opened (h : w.Orderly) (walks : (w.realm realm).walks = walk :: outer)
    (idle : walk.running = none) :
    Attempt.Meets (fun _ => True)
      (fun _ => OpensOnly realm fun x =>
        x ∈ walk.opened ∨ IsOpened embedding depth realm id index w x)
      ((ofDepth embedding depth).visit realm id index)
      (fun _ => OpensOnly realm fun x =>
        x ∈ walk.opened ∨ IsOpened embedding depth realm id index w x) w := by
  induction depth generalizing id index w walk outer with
  | zero => trivial
  | succ depth ih =>
    have nothing {v : World} (walks : (v.realm realm).walks = walk :: outer) :
        OpensOnly realm (fun x =>
          x ∈ walk.opened ∨ IsOpened embedding (depth + 1) realm id index w x) v := by
      rw [OpensOnly, Realm.opened_of_walks walks]
      exact fun x => .inl
    have present := (Attempt.meets_run _).1 <|
      Action.meets_ended (Action.instantiate depth realm id).run w
    show Attempt.Meets _ _ (visitFrom (ofDepth embedding depth) realm id index) _ w
    unfold visitFrom
    rw [depth_ofDepth, Attempt.meets_bind, Attempt.meets_walking]
    refine (((Action.keeps_instantiate depth realm id).meets w).and present).imp
      (fun _ _ => trivial) (fun _ w₁ h => ?_) fun _ w₁ h' => ?_
    · exact nothing ((Changes.passes h.1 realm).walks.trans walks)
    obtain ⟨changes, present⟩ := h'
    have walks₁ := (Changes.passes changes realm).walks.trans walks
    have h₁ := Changes.orderly changes h
    rw [Attempt.meets_bind, Attempt.meets_get]
    split
    · rename_i cyclic
      rw [Attempt.meets_bind, Attempt.meets_walking]
      refine meets_slotOf (fun _ => nothing walks₁) fun slot found => ?_
      split
      · unfold outcomeOf
        split <;> exact nothing walks₁
      · exact nothing walks₁
      · rename_i instantiated
        have enters : Enters depth realm id w w₁ := ⟨present, ⟨slot, found, instantiated⟩, cyclic⟩
        refine meets_visitNew_opened _ h₁ walks₁ idle found instantiated cyclic index ?_
        have among {v : World} (h : OpensOnly realm (fun x => x ∈ id :: walk.opened ∨
            IsOpenedAmong embedding depth realm id (w₁.record id).requested (index + 1)
              (w₁.entered realm id index) x) v) :
            OpensOnly realm (fun x =>
              x ∈ walk.opened ∨ IsOpened embedding (depth + 1) realm id index w x) v := by
          intro x member
          rcases h x member with member | ⟨_, _, _, _, _, requested, visited, d, i, u, opens⟩
          · rcases List.mem_cons.mp member with rfl | member
            · exact .inr ⟨depth, index, w₁, .own enters⟩
            · exact .inl member
          · exact .inr ⟨d, i, u, .through enters requested visited opens⟩
        exact (meets_visitAll_opened (fun _ _ _ _ _ h walks idle => ih h walks idle) h₁ walks₁ idle
          found instantiated cyclic index _ fun _ member => member).imp (fun _ h => h)
          (fun _ _ => among) fun _ _ => among
    · rename_i plain
      exact ((keepsSteps_ofDepth embedding depth).order.visitPlain h₁ walks₁ idle
        (by simpa using plain) index).imp (fun _ _ => trivial) (fun _ _ grown => nothing grown.walks)
        fun _ _ grown => nothing grown.walks

/-- When a visit has ended, well or not, all that it has opened had not begun before, and was opened on
its way. -/
theorem opened_of_visit {result : Except Interrupt Nat} {v : World} (h : w.Orderly)
    (walks : (w.realm realm).walks = walk :: outer) (idle : walk.running = none)
    (visited : ((ofDepth embedding depth).visit realm id index).run w = .ok result v) :
    Steps w v ∧ ∀ x ∈ (v.realm realm).opened,
      x ∈ walk.opened ∨ ¬ w.Begun realm x ∧ IsOpened embedding depth realm id index w x := by
  have joined {v : World} (opened : OpensOnly realm
        (fun x => x ∈ walk.opened ∨ IsOpened embedding depth realm id index w x) v)
      (account : ∃ new more, Grown realm [] walk outer new more w v ∧
        Explored realm id new more w v) :
      Steps w v ∧ ∀ x ∈ (v.realm realm).opened,
        x ∈ walk.opened ∨ ¬ w.Begun realm x ∧ IsOpened embedding depth realm id index w x := by
    obtain ⟨new, more, grown, explored⟩ := account
    refine ⟨explored.steps, fun x member => ?_⟩
    have way := opened x member
    rw [Realm.opened_of_walks grown.walks] at member
    rcases List.mem_append.mp member with member | member
    · exact way.imp_right fun way => ⟨explored.fresh x member, way⟩
    · exact .inl member
  have account := (Attempt.meets_run fun _ v => Steps w v ∧ ∀ x ∈ (v.realm realm).opened,
      x ∈ walk.opened ∨ ¬ w.Begun realm x ∧ IsOpened embedding depth realm id index w x).mpr <|
    ((meets_visit_opened h walks idle).and
      ((keepsSteps_ofDepth embedding depth).meets_visit h walks idle id index)).imp
      (fun _ h => h) (fun _ _ h => joined h.1 h.2) fun _ _ h => joined h.1 h.2
  rwa [Action.Meets, visited] at account

end

/-! ### What a visit that fails leaves -/

section
variable {embedding : Embedding} {depth : Nat} {realm : RealmId} {graph : RecordId → Prop}
  {id r : RecordId} {w : World} {slot : Slot}

/-- A module keeps an error, or is open in the innermost walk and will keep the one that this fails
with. -/
def Fallen (w : World) (realm : RealmId) (id : RecordId) (error : ModuleError) : Prop :=
  w.FailedWith realm id error ∨ id ∈ (w.realm realm).stack

/-- A module that takes no part in cycles and fails keeps its error. -/
theorem meets_visitPlain_fails (h : w.Orderly) (found : (w.realm realm).slot? id = some slot)
    (instantiated : slot.status = .instantiated) (plain : (w.record id).isCyclic = false)
    (index : Nat) :
    Attempt.Meets (fun _ => True)
      (fun interrupt v => v.FailedWith realm id (Interrupt.error interrupt))
      ((ofDepth embedding depth).visitPlain realm id index) (fun _ _ => True) w := by
  have kept (error : Option ModuleError) {w₁ : World} (steps : Steps w w₁) :
      Attempt.Meets (fun _ => True)
        (fun interrupt v => v.FailedWith realm id (Interrupt.error interrupt))
        (do
          moveSlot realm id .evaluated ({ · with error })
          outcomeOf (← (slotOf realm id).walking) index)
        (fun _ _ => True) w₁ := by
    obtain ⟨slot₁, found₁, _⟩ := steps.onward found
    have found₂ : ((w₁.moveSlot realm id .evaluated ({ · with error })).realm realm).slot? id =
        some { slot₁ with error, status := .evaluated } := by
      rw [realm_moveSlot, Realm.slot?_modifySlot, if_pos rfl, found₁]
      rfl
    rw [Attempt.meets_bind, Attempt.meets_lift, meets_moveSlot, Attempt.meets_bind,
      Attempt.meets_walking]
    refine meets_slotOf_found found₂ ?_
    cases error with
    | none => trivial
    | some error => exact ⟨_, found₂, rfl, rfl⟩
  have mayRun : MayRun w realm id slot := fun cyclic => by simp [plain] at cyclic
  unfold Engine.visitPlain
  rw [Attempt.meets_bind, Attempt.meets_walking]
  refine meets_slotOf_found found ?_
  rw [instantiated]
  dsimp only
  rw [Attempt.meets_bind, Attempt.meets_walking, Attempt.meets_outcome]
  exact ((keepsSteps_ofDepth embedding depth).executeInWalk h found mayRun).imp (fun _ _ => trivial)
    (fun error _ => kept (some error)) fun _ _ => kept none

/-- A module the visit to which fails keeps the error, or will do so. -/
theorem Poised.meets_visit_fails (poised : Poised realm graph id w) (index : Nat) :
    Attempt.Meets (fun _ => True) (fun interrupt v => Fallen v realm id (Interrupt.error interrupt))
      ((ofDepth embedding depth).visit realm id index) (fun _ _ => True) w := by
  obtain ⟨h, installed, member, walk, outer, walks, idle⟩ := poised
  obtain ⟨slot, found⟩ := installed.slot id member
  cases depth with
  | zero => trivial
  | succ depth =>
    cases status : slot.status with
    | evaluated =>
      refine (meets_visit_evaluated embedding depth found status index).imp (fun _ _ => trivial)
        (fun interrupt v h => ?_) fun _ _ _ => trivial
      obtain ⟨kept, rfl⟩ := h
      obtain ⟨error, keeps, rfl⟩ := Option.map_eq_some_iff.mp kept
      exact .inl ⟨slot, found, status, keeps⟩
    | instantiated =>
      cases cyclic : (w.record id).isCyclic with
      | true =>
        refine meets_visit_of_instantiated found status cyclic
          (((keepsSteps_ofDepth embedding depth).visitNew h walks idle found status cyclic
            index).imp (fun _ _ => trivial) (fun _ v opened => ?_) fun _ _ _ => trivial)
        obtain ⟨new, more, walks', _, member⟩ := opened
        refine .inr ?_
        rw [Realm.stack, walks']
        exact List.mem_append_left _ member
      | false =>
        show Attempt.Meets _ _ (visitFrom (ofDepth embedding depth) realm id index) _ w
        unfold visitFrom
        rw [Attempt.meets_bind, Attempt.meets_walking]
        refine (Action.meets_instantiate_found found _).imp (fun _ h => h.elim)
          (fun _ _ h => h.elim) fun _ w' same => ?_
        rw [same, Attempt.meets_bind, Attempt.meets_get, if_neg (by simp [cyclic])]
        exact (meets_visitPlain_fails h found status cyclic index).imp (fun _ h => h)
          (fun _ _ => .inl) fun _ _ h => h
    | evaluating =>
      have busy := ((h realm).busy id).mpr (by simp [Realm.status?, found, status])
      show Attempt.Meets _ _ (visitFrom (ofDepth embedding depth) realm id index) _ w
      unfold visitFrom
      rw [Attempt.meets_bind, Attempt.meets_walking]
      refine (Action.meets_instantiate_found found _).imp (fun _ h => h.elim) (fun _ _ h => h.elim)
        fun _ w' same => ?_
      rw [same, Attempt.meets_bind, Attempt.meets_get, if_pos ((h realm).cyclic id busy),
        Attempt.meets_bind, Attempt.meets_walking]
      refine meets_slotOf_found found ?_
      rw [status]
      trivial

/-- When the visits to what a module requests fail, one of the requested modules keeps the error, or
will do so. -/
theorem Poised.meets_visitAll_fails {index : Nat} (poised : Poised realm graph id w)
    (enters : Enters depth realm id w w) {required rest : List RecordId}
    (requested : (w.record id).requested = required ++ rest) :
    Attempt.Meets (fun _ => True)
      (fun interrupt v => ∃ r ∈ required, Fallen v realm r (Interrupt.error interrupt))
      ((ofDepth embedding depth).visitAll realm id required (index + 1)) (fun _ _ => True)
      (w.entered realm id index) := by
  induction required using List.reverseRecOn generalizing rest with
  | nil => trivial
  | append_singleton before r ih =>
    have requested' : (w.record id).requested = before ++ r :: rest := by simp [requested]
    have ended := (Attempt.meets_run _).1 <| Action.meets_ended
      ((ofDepth embedding depth).visitAll realm id before (index + 1)).run
      (w.entered realm id index)
    rw [visitAll_append, Attempt.meets_bind]
    refine ((ih requested').and ended).imp (fun _ _ => trivial) (fun interrupt v h => ?_)
      fun next w₁ h => ?_
    · obtain ⟨⟨r', member, fallen⟩, -⟩ := h
      exact ⟨r', List.mem_append_left _ member, fallen⟩
    obtain ⟨poised₁, -⟩ := poised.visitAll enters requested' h.2
    obtain ⟨slot, found⟩ := poised₁.installed.slot r poised₁.member
    obtain ⟨walk, outer, walks, idle⟩ := poised₁.walks
    rw [Engine.visitAll, Attempt.meets_bind]
    refine ((poised₁.meets_visit_fails next).and ((keepsSteps_ofDepth embedding depth).visit realm r
      next w₁ walk outer poised₁.orderly walks idle)).imp (fun _ _ => trivial)
      (fun interrupt v h => ⟨r, by simp, h.1⟩) fun next' w₂ h => ?_
    obtain ⟨-, _, _, -, explored⟩ := h
    obtain ⟨slot', found', _⟩ := explored.steps.onward found
    rw [Attempt.meets_bind, Attempt.meets_walking]
    exact meets_lowerAncestor_found found' trivial fun _ => trivial

end
end Engine
end ModuleGraph
