import Mathlib.Order.Defs.Unbundled
import ModuleGraph.World

/-!
What actions and attempts come to. From a world an action gives a result, or it gives up because it
went too deep; an attempt may also fail. A specification says what holds of the world in each case.
-/
namespace ModuleGraph
variable {α β ε : Type} {R : World → World → Prop}

namespace Action

/-- The world that an action leaves, also when it gives up. -/
def after (action : Action α) (world : World) : World :=
  match action world with
  | .ok _ world => world
  | .error _ world => world

/-- An action that begins in a world ends in one where `post` holds of its result, or gives up in
one where `stuck` holds. -/
def Meets (stuck : World → Prop) (action : Action α) (post : α → World → Prop) (world : World) :
    Prop :=
  match action world with
  | .ok result world => post result world
  | .error _ world => stuck world

/-- Whether an action has a result that, with the world that it leaves, passes a test. -/
def ends (action : Action α) (world : World) (test : α → World → Bool) : Bool :=
  match action world with
  | .ok result world => test result world
  | .error _ _ => false

section
variable {stuck stuck' : World → Prop} {world : World} {action : Action α}
  {post post' : α → World → Prop}

theorem exists_of_ends {test : α → World → Bool} (ends : action.ends world test = true) :
    ∃ result world', action world = .ok result world' ∧ test result world' = true := by
  unfold Action.ends at ends
  split at ends
  · exact ⟨_, _, ‹_›, ends⟩
  · cases ends

theorem Meets.imp (meets : Meets stuck action post world) (hstuck : ∀ w, stuck w → stuck' w)
    (hpost : ∀ a w, post a w → post' a w) : Meets stuck' action post' world := by
  unfold Meets at meets ⊢
  split at meets
  · exact hpost _ _ meets
  · exact hstuck _ meets

theorem Meets.mono (meets : Meets stuck action post world)
    (hpost : ∀ a w, post a w → post' a w) : Meets stuck action post' world :=
  meets.imp (fun _ h => h) hpost

theorem Meets.and (first : Meets stuck action post world)
    (second : Meets stuck' action post' world) :
    Meets (fun w => stuck w ∧ stuck' w) action (fun a w => post a w ∧ post' a w) world := by
  unfold Meets at first second ⊢
  split at first <;> simp_all

/-- What holds however the action ends holds of the world that it leaves. -/
theorem Meets.after (meets : Meets stuck action (fun _ => stuck) world) :
    stuck (action.after world) := by
  unfold Meets at meets
  unfold Action.after
  split at meets <;> exact meets

/-- An action that cannot get stuck comes to a result. -/
theorem Meets.exists_ended (meets : Meets (fun _ => False) action post world) :
    ∃ result world', action world = .ok result world' ∧ post result world' := by
  unfold Meets at meets
  split at meets
  · exact ⟨_, _, ‹_›, meets⟩
  · exact meets.elim

/-- An action that can end in one way only ends so. -/
theorem Meets.eq {result : α} {world' : World}
    (meets : Meets (fun _ => False) action (fun a w => a = result ∧ w = world') world) :
    action world = .ok result world' := by
  obtain ⟨_, _, ended, rfl, rfl⟩ := meets.exists_ended
  exact ended

/-- An action ends as it does. -/
theorem meets_ended (action : Action α) (world : World) :
    Meets (fun _ => True) action (fun a w => action world = .ok a w) world := by
  unfold Meets
  split
  · assumption
  · trivial

@[simp] theorem meets_pure (a : α) : Meets stuck (pure a) post world ↔ post a world := Iff.rfl

@[simp] theorem meets_bind (next : α → Action β) (post : β → World → Prop) :
    Meets stuck (action >>= next) post world ↔
      Meets stuck action (fun a => Meets stuck (next a) post) world := by
  simp only [Meets, bind, EStateM.bind]
  cases action world <;> rfl

theorem run_bind (action : Action α) (next : α → Action β) (world : World) :
    (action >>= next) world =
      match action world with
      | .ok a w => next a w
      | .error u w => .error u w := by
  show EStateM.bind action next world = _
  unfold EStateM.bind
  cases action world <;> rfl

/-- What follows an action that has ended begins where it has ended. -/
theorem meets_bind_of_ended {result : α} {world' : World} (ended : action world = .ok result world')
    (next : α → Action β) (post : β → World → Prop) :
    Meets stuck (action >>= next) post world ↔ Meets stuck (next result) post world' := by
  rw [meets_bind, Meets, ended]

/-- What comes of an action whatever it follows. -/
theorem meets_bind_of_forall {next : α → Action β} {post : β → World → Prop}
    (later : ∀ a w, Meets (fun _ => True) (next a) post w) :
    Meets (fun _ => True) (action >>= next) post world := by
  rw [meets_bind]
  exact (meets_ended action world).mono fun a w _ => later a w

@[simp] theorem meets_map (f : α → β) (post : β → World → Prop) :
    Meets stuck (f <$> action) post world ↔
      Meets stuck action (fun a => post (f a)) world := by
  simp only [Meets, Functor.map, EStateM.map]
  cases action world <;> rfl

@[simp] theorem meets_discard (post : Unit → World → Prop) :
    Meets stuck (discard action) post world ↔ Meets stuck action (fun _ => post ()) world :=
  meets_map _ post

@[simp] theorem meets_get (post : World → World → Prop) :
    Meets stuck get post world ↔ post world world := Iff.rfl

@[simp] theorem meets_set (other : World) (post : PUnit → World → Prop) :
    Meets stuck (set other) post world ↔ post ⟨⟩ other := Iff.rfl

@[simp] theorem meets_modify (change : World → World) (post : PUnit → World → Prop) :
    Meets stuck (modify change) post world ↔ post ⟨⟩ (change world) := Iff.rfl

@[simp] theorem meets_tooDeep : Meets stuck tooDeep post world ↔ stuck world := Iff.rfl

@[simp] theorem meets_write (event : Event) (post : Unit → World → Prop) :
    Meets stuck (write event) post world ↔ post () (world.write event) := Iff.rfl

end

/-- Whatever an action does and however it ends, it takes the world along a relation. -/
def Keeps (R : World → World → Prop) (action : Action α) : Prop :=
  ∀ world, Meets (R world) action (fun _ => R world) world

namespace Keeps

theorem mono {R' : World → World → Prop} {action : Action α} (keeps : Keeps R action)
    (h : ∀ w w', R w w' → R' w w') : Keeps R' action :=
  fun w => (keeps w).imp (h w) fun _ => h w

theorem pure [Std.Refl R] (a : α) : Keeps R (pure a) := fun w => refl w

theorem get [Std.Refl R] : Keeps R get := fun w => refl w

theorem tooDeep [Std.Refl R] : Keeps R (tooDeep : Action α) := fun w => refl w

theorem bind [IsTrans World R] {action : Action α} {next : α → Action β} (first : Keeps R action)
    (later : ∀ a, Keeps R (next a)) : Keeps R (action >>= next) := by
  intro w
  rw [meets_bind]
  refine (first w).mono fun a w' h => ?_
  exact (later a w').imp (fun _ => IsTrans.trans _ _ _ h) fun _ _ => IsTrans.trans _ _ _ h

/-- What follows a look at the world has to keep to the relation from that world on. -/
theorem get_bind {next : World → Action β}
    (h : ∀ w, Meets (R w) (next w) (fun _ => R w) w) :
    Keeps R (MonadState.get >>= next) := fun w => (meets_bind _ _).2 (h w)

theorem map {action : Action α} (keeps : Keeps R action) (f : α → β) : Keeps R (f <$> action) := by
  intro w
  rw [meets_map]
  exact keeps w

end Keeps

/-- An action that begins where `inv` holds ends where it holds, or gives up where `stuck` holds. -/
def Upholds (stuck inv : World → Prop) (action : Action α) : Prop :=
  ∀ world, inv world → Meets stuck action (fun _ => inv) world

namespace Upholds
variable {stuck inv : World → Prop}

theorem pure (a : α) : Upholds stuck inv (pure a) := fun _ h => h

theorem get : Upholds stuck inv get := fun _ h => h

theorem tooDeep (stop : ∀ w, inv w → stuck w) : Upholds stuck inv (tooDeep : Action α) := stop

theorem bind {action : Action α} {next : α → Action β} (first : Upholds stuck inv action)
    (later : ∀ a, Upholds stuck inv (next a)) : Upholds stuck inv (action >>= next) := by
  intro w h
  rw [meets_bind]
  exact (first w h).mono fun a w' => later a w'

theorem and {stuck' inv' : World → Prop} {action : Action α} (first : Upholds stuck inv action)
    (second : Upholds stuck' inv' action) :
    Upholds (fun w => stuck w ∧ stuck' w) (fun w => inv w ∧ inv' w) action :=
  fun w h => (first w h.1).and (second w h.2)

theorem map {action : Action α} (upholds : Upholds stuck inv action) (f : α → β) :
    Upholds stuck inv (f <$> action) := by
  intro w h
  rw [meets_map]
  exact upholds w h

end Upholds

/-- What a relation carries along is upheld by an action that keeps to the relation. -/
theorem Keeps.upholds {stuck inv : World → Prop} {action : Action α} (keeps : Keeps R action)
    (carries : ∀ w w', R w w' → inv w → inv w') (stop : ∀ w, inv w → stuck w) :
    Upholds stuck inv action :=
  fun w h => (keeps w).imp (fun w' r => stop w' (carries w w' r h)) fun _ w' r => carries w w' r h

/-- An action keeps to a relation if it upholds being related to any one world. -/
theorem Keeps.of_upholds [Std.Refl R] {action : Action α}
    (upholds : ∀ w, Upholds (R w) (R w) action) : Keeps R action :=
  fun w => upholds w w (refl w)

end Action

namespace Attempt

/-- An attempt that begins in a world ends in one where `post` holds of its result, fails with an
error in one where `failed` holds, or gives up in one where `stuck` holds. -/
def Meets (stuck : World → Prop) (failed : ε → World → Prop) (attempt : ExceptT ε Action α)
    (post : α → World → Prop) (world : World) : Prop :=
  match attempt.run world with
  | .ok (.ok result) world => post result world
  | .ok (.error error) world => failed error world
  | .error _ world => stuck world

section
variable {stuck stuck' : World → Prop} {failed failed' : ε → World → Prop} {world : World}
  {attempt : ExceptT ε Action α} {post post' : α → World → Prop}

/-- An attempt as an action, the outcome of which is its result or its error. -/
theorem meets_run (post : Except ε α → World → Prop) :
    Action.Meets stuck attempt.run post world ↔
      Meets stuck (fun e => post (.error e)) attempt (fun a => post (.ok a)) world := by
  unfold Meets Action.Meets
  rcases attempt.run world with ⟨_ | _, _⟩ | _ <;> rfl

theorem Meets.imp (meets : Meets stuck failed attempt post world)
    (hstuck : ∀ w, stuck w → stuck' w) (hfailed : ∀ e w, failed e w → failed' e w)
    (hpost : ∀ a w, post a w → post' a w) : Meets stuck' failed' attempt post' world := by
  unfold Meets at meets ⊢
  split at meets
  · exact hpost _ _ meets
  · exact hfailed _ _ meets
  · exact hstuck _ meets

theorem Meets.mono (meets : Meets stuck failed attempt post world)
    (hpost : ∀ a w, post a w → post' a w) : Meets stuck failed attempt post' world :=
  meets.imp (fun _ h => h) (fun _ _ h => h) hpost

theorem Meets.and (first : Meets stuck failed attempt post world)
    (second : Meets stuck' failed' attempt post' world) :
    Meets (fun w => stuck w ∧ stuck' w) (fun e w => failed e w ∧ failed' e w) attempt
      (fun a w => post a w ∧ post' a w) world := by
  unfold Meets at first second ⊢
  split at first <;> simp_all

/-- What holds of all results and errors in all worlds holds however an attempt ends. -/
theorem meets_of_forall (attempt : ExceptT ε Action α) (world : World)
    (hfailed : ∀ e w, failed e w) (hpost : ∀ a w, post a w) :
    Meets (fun _ => True) failed attempt post world := by
  unfold Meets
  split
  · exact hpost _ _
  · exact hfailed _ _
  · trivial

/-- An attempt ends as it does. -/
theorem meets_ended (attempt : ExceptT ε Action α) (world : World) :
    Meets (fun w => attempt.run world = .error () w) (fun e w => attempt.run world = .ok (.error e) w)
      attempt (fun a w => attempt.run world = .ok (.ok a) w) world := by
  unfold Meets
  split <;> assumption

@[simp] theorem meets_pure (a : α) :
    Meets stuck failed (pure a) post world ↔ post a world := Iff.rfl

@[simp] theorem meets_throw (error : ε) :
    Meets stuck failed (throw error : ExceptT ε Action α) post world ↔ failed error world := Iff.rfl

theorem run_bind (attempt : ExceptT ε Action α) (next : α → ExceptT ε Action β) (world : World) :
    (attempt >>= next).run world =
      match attempt.run world with
      | .ok (.ok a) w => (next a).run w
      | .ok (.error e) w => .ok (.error e) w
      | .error u w => .error u w := by
  show EStateM.bind attempt.run (ExceptT.bindCont next) world = _
  unfold EStateM.bind
  rcases attempt.run world with ⟨_ | _, _⟩ | _ <;> rfl

@[simp] theorem meets_bind (next : α → ExceptT ε Action β) (post : β → World → Prop) :
    Meets stuck failed (attempt >>= next) post world ↔
      Meets stuck failed attempt (fun a => Meets stuck failed (next a) post) world := by
  unfold Meets
  rw [run_bind]
  rcases attempt.run world with ⟨_ | _, _⟩ | _ <;> rfl

/-- What comes of an attempt whatever it follows, unless that has failed. -/
theorem meets_bind_of_forall {next : α → ExceptT ε Action β} {post : β → World → Prop}
    (later : ∀ a w, Meets (fun _ => True) (fun _ _ => True) (next a) post w) :
    Meets (fun _ => True) (fun _ _ => True) (attempt >>= next) post world := by
  rw [meets_bind]
  exact meets_of_forall attempt world (fun _ _ => trivial) later

/-- Nothing follows an attempt that does not end well. -/
theorem run_bind_of_breaks {attempt : ExceptT ε Action α} {next : α → ExceptT ε Action α}
    (breaks : ∀ a w, attempt.run world ≠ .ok (.ok a) w) :
    (attempt >>= next).run world = attempt.run world := by
  rw [run_bind]
  cases ended : attempt.run world with
  | ok outcome w =>
    cases outcome with
    | ok a => exact absurd ended (breaks a w)
    | error => rfl
  | error => rfl

/-- What follows an attempt that has ended well begins where it has ended. -/
theorem run_bind_of_ended {result : α} {world' : World}
    (ended : attempt.run world = .ok (.ok result) world') (next : α → ExceptT ε Action β) :
    (attempt >>= next).run world = (next result).run world' := by
  rw [run_bind, ended]

theorem meets_bind_of_ended {result : α} {world' : World}
    (ended : attempt.run world = .ok (.ok result) world') (next : α → ExceptT ε Action β)
    (post : β → World → Prop) :
    Meets stuck failed (attempt >>= next) post world ↔
      Meets stuck failed (next result) post world' := by
  unfold Meets
  rw [run_bind_of_ended ended]

@[simp] theorem meets_map (f : α → β) (post : β → World → Prop) :
    Meets stuck failed (f <$> attempt) post world ↔
      Meets stuck failed attempt (fun a => post (f a)) world := by
  rw [map_eq_pure_bind, meets_bind]
  rfl

theorem run_lift (action : Action α) (world : World) :
    (liftM action : ExceptT ε Action α).run world =
      match action world with
      | .ok a w => .ok (.ok a) w
      | .error u w => .error u w := by
  show EStateM.map Except.ok action world = _
  unfold EStateM.map
  cases action world <;> rfl

@[simp] theorem meets_lift (action : Action α) :
    Meets stuck failed (liftM action : ExceptT ε Action α) post world ↔
      Action.Meets stuck action post world := by
  unfold Meets Action.Meets
  rw [run_lift]
  cases action world <;> rfl

@[simp] theorem meets_get (post : World → World → Prop) :
    Meets stuck failed (get : ExceptT ε Action World) post world ↔ post world world := Iff.rfl

@[simp] theorem meets_set (other : World) (post : PUnit → World → Prop) :
    Meets stuck failed (set other : ExceptT ε Action PUnit) post world ↔ post ⟨⟩ other := Iff.rfl

@[simp] theorem meets_modify (change : World → World) (post : PUnit → World → Prop) :
    Meets stuck failed (modify change : ExceptT ε Action PUnit) post world ↔
      post ⟨⟩ (change world) := Iff.rfl

@[simp] theorem meets_discard (post : Unit → World → Prop) :
    Meets stuck failed (discard attempt) post world ↔
      Meets stuck failed attempt (fun _ => post ()) world :=
  meets_map _ post

@[simp] theorem meets_outcome {failed : ModuleError → World → Prop} (attempt : Attempt α)
    (post : Outcome α → World → Prop) :
    Meets stuck failed attempt.outcome post world ↔
      Meets stuck (fun e => post (.error e)) attempt (fun a => post (.ok a)) world :=
  (meets_lift attempt.run).trans (meets_run post)

end

/-- However an attempt ends, it takes the world along a relation. -/
abbrev Keeps (R : World → World → Prop) (attempt : ExceptT ε Action α) : Prop :=
  Action.Keeps R attempt.run

namespace Keeps

theorem meets {attempt : ExceptT ε Action α} (keeps : Keeps R attempt) (world : World) :
    Meets (R world) (fun _ => R world) attempt (fun _ => R world) world :=
  (meets_run _).1 (keeps world)

theorem of_meets {attempt : ExceptT ε Action α}
    (h : ∀ w, Meets (R w) (fun _ => R w) attempt (fun _ => R w) w) : Keeps R attempt :=
  fun w => (meets_run _).2 (h w)

theorem pure [Std.Refl R] (a : α) : Keeps R (pure a : ExceptT ε Action α) := fun w => refl w

theorem throw [Std.Refl R] (error : ε) : Keeps R (throw error : ExceptT ε Action α) :=
  fun w => refl w

theorem get [Std.Refl R] : Keeps R (get : ExceptT ε Action World) := fun w => refl w

theorem lift {action : Action α} (keeps : Action.Keeps R action) :
    Keeps R (liftM action : ExceptT ε Action α) :=
  of_meets fun w => (meets_lift action).2 (keeps w)

theorem bind [IsTrans World R] {attempt : ExceptT ε Action α} {next : α → ExceptT ε Action β}
    (first : Keeps R attempt) (later : ∀ a, Keeps R (next a)) : Keeps R (attempt >>= next) := by
  refine of_meets fun w => (meets_bind next _).2 ?_
  refine (first.meets w).mono fun a w' h => ?_
  exact ((later a).meets w').imp (fun _ => IsTrans.trans _ _ _ h)
    (fun _ _ => IsTrans.trans _ _ _ h) fun _ _ => IsTrans.trans _ _ _ h

theorem get_bind {next : World → ExceptT ε Action β}
    (h : ∀ w, Meets (R w) (fun _ => R w) (next w) (fun _ => R w) w) :
    Keeps R (MonadState.get >>= next) := of_meets fun w => (meets_bind _ _).2 (h w)

theorem map {attempt : ExceptT ε Action α} (keeps : Keeps R attempt) (f : α → β) :
    Keeps R (f <$> attempt) :=
  of_meets fun w => (meets_map f _).2 (keeps.meets w)

theorem outcome {attempt : Attempt α} (keeps : Keeps R attempt) : Keeps R attempt.outcome :=
  of_meets fun w => (meets_outcome attempt _).2 (keeps.meets w)

end Keeps

/-- An attempt that begins where `inv` holds ends or fails where it holds, or gives up where `stuck`
holds. -/
abbrev Upholds (stuck inv : World → Prop) (attempt : ExceptT ε Action α) : Prop :=
  Action.Upholds stuck inv attempt.run

namespace Upholds
variable {stuck inv : World → Prop}

theorem meets {attempt : ExceptT ε Action α} (upholds : Upholds stuck inv attempt) {world : World}
    (h : inv world) : Meets stuck (fun _ => inv) attempt (fun _ => inv) world :=
  (meets_run _).1 (upholds world h)

theorem of_meets {attempt : ExceptT ε Action α}
    (h : ∀ w, inv w → Meets stuck (fun _ => inv) attempt (fun _ => inv) w) :
    Upholds stuck inv attempt :=
  fun w holds => (meets_run _).2 (h w holds)

theorem pure (a : α) : Upholds stuck inv (pure a : ExceptT ε Action α) := fun _ h => h

theorem throw (error : ε) : Upholds stuck inv (throw error : ExceptT ε Action α) := fun _ h => h

theorem get : Upholds stuck inv (get : ExceptT ε Action World) := fun _ h => h

theorem lift {action : Action α} (upholds : Action.Upholds stuck inv action) :
    Upholds stuck inv (liftM action : ExceptT ε Action α) :=
  of_meets fun w h => (meets_lift action).2 (upholds w h)

theorem bind {attempt : ExceptT ε Action α} {next : α → ExceptT ε Action β}
    (first : Upholds stuck inv attempt) (later : ∀ a, Upholds stuck inv (next a)) :
    Upholds stuck inv (attempt >>= next) := by
  refine of_meets fun w h => (meets_bind next _).2 ?_
  exact (first.meets h).mono fun a w' h => (later a).meets h

theorem map {attempt : ExceptT ε Action α} (upholds : Upholds stuck inv attempt) (f : α → β) :
    Upholds stuck inv (f <$> attempt) :=
  of_meets fun _ h => (meets_map f _).2 (upholds.meets h)

end Upholds
end Attempt
end ModuleGraph
