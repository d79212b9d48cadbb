import ModuleGraph.Proofs.Handouts

/-!
Evaluation that insists on what a running module hands out. An engine gives up as soon as a
`require` of the module answers with anything else; and while the function of the module runs, all
calls come to the same with this engine.
-/
namespace ModuleGraph
open World Engine

/-! ### Requires that insist on a value -/

namespace Engine

/-- What the `require` function of a module does if modules are required in some way. -/
def requireCallBy (embedding : Embedding) (requires : RecordId → Attempt Value)
    (referrer : RecordId) (arguments : List Value) : Action (Except Exception Value) := do
  match arguments.head? with
  | some (.string specifier) =>
    let required : Attempt Value := do
      let id ← embedding.importFor .resolver referrer specifier
      requires id
    match ← required.run with
    | .ok value => pure (.ok value)
    | .error error => pure (.error (.ofError error))
  | _ => pure (.error (.typeError "the module specifier must be a string"))

/-- What a call does if modules are required in some way. -/
def callBy (embedding : Embedding) (engine : Engine) (requires : RealmId → RecordId → Attempt Value)
    (frame : Frame) (function : FunctionRef) (arguments : List Value) :
    Action (Except Exception Value) := do
  match ← Action.functionCode function with
  | .script code => (code arguments).run engine.powers frame
  | .require referrer => requireCallBy embedding (requires frame.realm) referrer arguments

theorem callFrom_eq_callBy (embedding : Embedding) (engine : Engine) :
    callFrom embedding engine = callBy embedding engine (requireFrom embedding engine) := rfl

/-- Requires a module. A certain module of a realm has to answer with a value: where it does not,
the action gives up. -/
def requireOnly (embedding : Embedding) (engine : Engine) (realm : RealmId) (id : RecordId)
    (value : Value) (realm' : RealmId) (id' : RecordId) : Attempt Value :=
  if realm' = realm ∧ id' = id then do
    let outcome ← (requireFrom embedding engine realm' id').outcome
    if outcome = .ok value then pure value else liftM (Action.tooDeep : Action Value)
  else requireFrom embedding engine realm' id'

/-- The engine of a depth that insists on what a module of a realm answers when it is required. -/
def insisting (embedding : Embedding) (realm : RealmId) (id : RecordId) (value : Value) :
    Nat → Engine
  | 0 => exhausted
  | depth + 1 =>
    let engine := insisting embedding realm id value depth
    { engine.next embedding with
      call := callBy embedding engine (requireOnly embedding engine realm id value) }

end Engine

variable {α β ε : Type} {p : Lodging} {value : Value}

/-! ### Actions that follow others -/

/-- An action respects a module in its place; and where the module hands out a value, another action
ends in the same way, unless the module goes on in its life. -/
def Action.Follows (p : Lodging) (value : Value) (first second : Action α) : Prop :=
  ∀ w, Action.Meets (fun _ => True) first
    (fun a w' => Respects p w w' ∧ (w.Hands p value →
      w'.life p.realm p.id = w.life p.realm p.id → second w = .ok a w')) w

/-- The same for attempts. -/
abbrev Attempt.Follows (p : Lodging) (value : Value) (first second : ExceptT ε Action α) : Prop :=
  Action.Follows p value first.run second.run

namespace Action.Follows

/-- An action that respects the module follows itself. -/
theorem of_keeps {action : Action α} (keeps : Action.Keeps (Respects p) action) :
    Follows p value action action := fun w =>
  ((keeps w).and (meets_ended action w)).imp (fun _ _ => trivial) fun _ _ h => ⟨h.1, fun _ _ => h.2⟩

theorem of_changes {action : Action α} (keeps : Action.Keeps Changes action) :
    Follows p value action action :=
  of_keeps (keeps.mono fun _ _ changes => Changes.respects changes)

theorem of_edits {action : Action α} (keeps : Action.Keeps Edits action) :
    Follows p value action action :=
  of_changes (keeps.mono fun _ _ edits => Edits.changes edits)

theorem pure (a : α) : Follows p value (pure a) (pure a) := .of_keeps (.pure a)

theorem bind {first second : Action α} {next next' : α → Action β}
    (here : Follows p value first second) (later : ∀ a, Follows p value (next a) (next' a)) :
    Follows p value (first >>= next) (second >>= next') := by
  intro w
  rw [meets_bind]
  refine (here w).mono fun a w₁ h => ?_
  obtain ⟨before, same⟩ := h
  refine (later a w₁).mono fun b w₂ h => ?_
  obtain ⟨after, same'⟩ := h
  refine ⟨IsTrans.trans _ _ _ before after, fun hands unchanged => ?_⟩
  -- Nothing is added to the life of the module on the way either.
  have continues := before hands.toHouses
  have between := continues.life_between (after continues.houses) unchanged
  rw [run_bind, same hands between]
  exact same' (continues.hands hands between) (unchanged.trans between.symm)

theorem get_bind {next next' : World → Action β}
    (later : ∀ w, Follows p value (next w) (next' w)) :
    Follows p value (get >>= next) (get >>= next') := .bind (.of_keeps .get) later

theorem map {first second : Action α} (follows : Follows p value first second) (f : α → β) :
    Follows p value (f <$> first) (f <$> second) := by
  rw [map_eq_pure_bind, map_eq_pure_bind]
  exact bind follows fun a => pure (f a)

/-- What respects a module at all is what an action that follows another one does. -/
theorem lodges {first second : Action α} (follows : Follows p value first second) {w₀ w : World}
    (lodges : Lodges p w₀ w) : Action.Meets (fun _ => True) first (fun _ => Lodges p w₀) w :=
  (follows w).mono fun _ _ h => lodges.trans h.1.lodges

end Action.Follows

namespace Attempt.Follows

theorem of_keeps {attempt : ExceptT ε Action α} (keeps : Attempt.Keeps (Respects p) attempt) :
    Follows p value attempt attempt := Action.Follows.of_keeps keeps

theorem of_changes {attempt : ExceptT ε Action α} (keeps : Attempt.Keeps Changes attempt) :
    Follows p value attempt attempt := Action.Follows.of_changes keeps

theorem of_edits {attempt : ExceptT ε Action α} (keeps : Attempt.Keeps Edits attempt) :
    Follows p value attempt attempt := Action.Follows.of_edits keeps

theorem pure (a : α) : Follows p value (pure a : ExceptT ε Action α) (pure a) :=
  Action.Follows.pure _

theorem throw (error : ε) : Follows p value (throw error : ExceptT ε Action α) (throw error) :=
  Action.Follows.pure _

theorem bind {first second : ExceptT ε Action α} {next next' : α → ExceptT ε Action β}
    (here : Follows p value first second) (later : ∀ a, Follows p value (next a) (next' a)) :
    Follows p value (first >>= next) (second >>= next') :=
  Action.Follows.bind here fun outcome =>
    match outcome with
    | .ok a => later a
    | .error _ => .pure _

theorem lift {first second : Action α} (follows : Action.Follows p value first second) :
    Follows p value (liftM first : ExceptT ε Action α) (liftM second) :=
  Action.Follows.map follows _

theorem get_bind {next next' : World → ExceptT ε Action β}
    (later : ∀ w, Follows p value (next w) (next' w)) :
    Follows p value (get >>= next) (get >>= next') := bind (.of_keeps .get) later

theorem discard {first second : ExceptT ε Action α} (follows : Follows p value first second) :
    Follows p value (discard first) (discard second) := by
  show Follows p value (_ <$> first) (_ <$> second)
  rw [map_eq_pure_bind, map_eq_pure_bind]
  exact bind follows fun _ => pure _

theorem outcome {first second : Attempt α} (follows : Follows p value first second) :
    Follows p value first.outcome second.outcome := lift follows

theorem walking {first second : Attempt α} (follows : Follows p value first second) :
    Follows p value first.walking second.walking := Action.Follows.map follows _

end Attempt.Follows

namespace Engine
variable {first second : Engine}

/-- To execute a module is to run its body, once it is written down that it begins. -/
theorem run_execute {w : World} {realm : RealmId} {id : RecordId} {slot : Slot}
    (found : (w.realm realm).slot? id = some slot) (engine : Engine) :
    (engine.execute realm id).run w =
      (engine.runInstance realm id slot.instanceIndex (w.record id)).run
        (w.write (.began realm id (w.moment realm))) := by
  have there : (slotOf realm id).run w = .ok (.ok slot) w := by
    unfold slotOf
    rw [Attempt.run_bind_of_ended (show (get : Attempt World).run w = .ok (.ok w) w from rfl),
      found]
    rfl
  unfold Engine.execute
  rw [Attempt.run_bind_of_ended there]
  rfl

/-- Whatever an engine does, another one follows. -/
structure Follows (p : Lodging) (value : Value) (first second : Engine) : Prop where
  depth : second.depth = first.depth
  call : ∀ frame function arguments,
    Action.Follows p value (first.call frame function arguments)
      (second.call frame function arguments)
  evaluate : ∀ realm id,
    Action.Follows p value (first.evaluate realm id) (second.evaluate realm id)
  visit : ∀ realm id index,
    Attempt.Follows p value (first.visit realm id index) (second.visit realm id index)

namespace Follows
variable (follows : first.Follows p value second) (realm : RealmId) (id : RecordId)
include follows

/-! ### Bodies -/

theorem script (frame : Frame) (script : Script) :
    Action.Follows p value (script.run first.powers frame) (script.run second.powers frame) := by
  have same {α : Type} {action : Action α} (keeps : Action.Keeps Strokes action) :
      Action.Follows p value action action :=
    .of_edits (keeps.mono fun _ _ strokes => strokes.touches.edits)
  induction script with
  | done outcome => exact .pure _
  | newObject properties next ih => exact .bind (same (Action.keeps_newObject _ _)) fun _ => ih _
  | inspect object next ih => exact .get_bind fun _ => ih _
  | setProperty object key value next ih =>
    exact .bind (same (Action.keeps_modifyObject _ _)) fun _ => ih
  | deleteProperty object key next ih =>
    exact .get_bind fun _ => .bind (same (Action.keeps_modifyObject _ _)) fun _ => ih _
  | newFunction name code next _ ih =>
    exact .bind (same (Action.keeps_newFunction _ _ _)) fun _ => ih _
  | call function arguments next ih =>
    exact .bind (follows.call frame function arguments) fun _ => ih _
  | readBinding environment name next ih =>
    have reading : second.powers.read environment name = first.powers.read environment name := by
      rw [powers, powers, follows.depth]
    refine .bind (?_ : Action.Follows p value (first.powers.read environment name)
      (second.powers.read environment name)) fun _ => ih _
    rw [reading]
    exact same (Action.keeps_readEnvironment _ _ _)
  | writeBinding environment name value next ih =>
    exact .bind (same (Action.keeps_writeEnvironment _ _ _)) fun _ => ih _
  | isImport environment name next ih =>
    exact .bind (same (Action.keeps_environment _)) fun _ => ih _
  | globalObject next ih => exact ih _
  | currentRealm next ih => exact ih _
  | evaluate record next ih => exact .bind (follows.evaluate frame.realm record) fun _ => ih _
  | announce announcement next ih =>
    refine .get_bind fun world => .bind (same (Action.keeps_write ?_)) fun _ => ih
    cases announcement <;> rfl
  | lock next ih => exact .bind (same (Action.keeps_stroke fun _ => .lock)) fun _ => ih

theorem runBody (body : Script) :
    Attempt.Follows p value (first.runBody realm body) (second.runBody realm body) := by
  refine .bind (.lift (follows.script (.of realm) body)) fun outcome => ?_
  cases outcome with
  | ok value => exact .pure _
  | error exception => exact .throw _

/-- Running another wrapper-style module. -/
theorem runWrapper (module : WrapperModule) {index : Nat}
    (apart : realm = p.realm → index ≠ p.index) :
    Attempt.Follows p value (first.runWrapper realm id module index)
      (second.runWrapper realm id module index) := by
  have same {α : Type} {action : Action α} (keeps : Action.Keeps Edits action) :
      Attempt.Follows p value (liftM action : Attempt α) (liftM action) := .lift (.of_edits keeps)
  have modified {change : Instance → Instance}
      (becomes : ∀ content : Instance, content.Becomes (change content)) :
      Attempt.Follows p value
        (liftM (modify (·.modifyRealm realm (·.modifyInstance index change)) : Action Unit) :
          Attempt Unit)
        (liftM (modify (·.modifyRealm realm (·.modifyInstance index change)) : Action Unit)) :=
    .lift (.of_keeps fun w => respects_modifyInstance w realm apart becomes)
  unfold Engine.runWrapper
  refine .bind (follows.runBody realm module.program) fun value => ?_
  cases value with
  | function wrapper =>
    refine .bind (same (Action.keeps_newObject _ _)) fun exports =>
      .bind (same (Action.keeps_newObject _ _)) fun descriptor =>
      .bind (modified fun _ => Instance.becomes_setExports _) fun _ =>
      .bind (same (Action.keeps_newFunction _ _ _)) fun require =>
      .bind (.lift (follows.call _ _ _)) fun outcome => ?_
    cases outcome with
    | error exception => exact .throw _
    | ok value =>
      refine .get_bind fun world => ?_
      dsimp only
      split
      · exact .throw _
      · rw [follows.depth]
        exact .bind (modified fun _ => Instance.becomes_setExports _) fun _ => .get_bind fun _ =>
          .bind (same (Action.keeps_publishNames _ _ _)) fun _ => .get_bind fun _ =>
          modified fun _ => Instance.becomes_setMarked _
  | _ => exact .throw _

theorem runInstance (record : Record) {index : Nat} (apart : realm = p.realm → index ≠ p.index) :
    Attempt.Follows p value (first.runInstance realm id index record)
      (second.runInstance realm id index record) := by
  cases record with
  | static module => exact .discard (follows.runBody realm _)
  | wrapper module => exact follows.runWrapper realm id module apart
  | host module => exact .pure _
  | custom module => exact .discard (follows.runBody realm _)

/-- A body, also the module's own, leaves the module in its place. -/
theorem lodges_runInstance (record : Record) (index : Nat) (w : World) :
    Attempt.Meets (fun _ => True) (fun _ => Lodges p w) (first.runInstance realm id index record)
      (fun _ => Lodges p w) w := by
  have touched : Touched (fun _ => True) (Lodges p w) :=
    ⟨fun _ _ => trivial, fun _ _ touches lodges =>
      lodges.trans (Changes.respects touches.edits.changes).lodges⟩
  have upholds : first.Upholds realm (fun _ => True) (Lodges p w) :=
    ⟨fun frame _ function arguments _ => (follows.call frame function arguments).lodges,
      fun id _ => (follows.evaluate realm id).lodges⟩
  exact (upholds_runInstance touched upholds id record fun w' change becomes lodges =>
    lodges.trans (lodges_modifyInstance w' realm index becomes)).meets
    (refl w : Respects p w w).lodges

theorem execute : Attempt.Follows p value (first.execute realm id) (second.execute realm id) := by
  intro w
  by_cases houses : w.Houses p
  case neg =>
    exact (Action.meets_ended _ w).imp (fun _ _ => trivial) fun _ _ _ =>
      ⟨fun h => absurd h houses, fun hands => absurd hands.toHouses houses⟩
  cases found : (w.realm realm).slot? id with
  | none =>
    have absent (engine : Engine) : (engine.execute realm id).run w = .ok (.error
        (.defect ("module " ++ w.numberText id ++ " was not instantiated"))) w := by
      unfold Engine.execute slotOf
      rw [Attempt.run_bind, Attempt.run_bind_of_ended
        (show (get : Attempt World).run w = .ok (.ok w) w from rfl), found]
      rfl
    unfold Action.Meets
    rw [absent first]
    exact ⟨refl w, fun _ _ => absent second⟩
  | some slot =>
    let began := w.write (.began realm id (w.moment realm))
    have houses₁ : began.Houses p := houses.arranged (.write w _)
    by_cases own : realm = p.realm ∧ id = p.id
    · -- The module's own execution is a part of its life.
      obtain ⟨rfl, rfl⟩ := own
      have longer : began.life p.realm p.id = w.life p.realm p.id ++ [.began] := by
        simp [began, Event.stage?]
      have ran := (Attempt.meets_run (fun _ w' => Lodges p began w')).2
        (follows.lodges_runInstance p.realm p.id (w.record p.id) slot.instanceIndex began)
      unfold Action.Meets
      rw [run_execute found first]
      refine Action.Meets.mono ran fun _ w' lodges => ?_
      obtain ⟨houses', life⟩ := lodges houses₁
      rw [longer] at life
      have grown : w'.life p.realm p.id ≠ w.life p.realm p.id := by
        intro unchanged
        have short := (unchanged ▸ life).length_le
        simp at short
      exact ⟨fun _ => ⟨houses', (List.prefix_append _ _).trans life, fun unchanged =>
        absurd unchanged grown⟩, fun _ unchanged => absurd unchanged grown⟩
    · have apart : realm = p.realm → slot.instanceIndex ≠ p.index := by
        rintro rfl same
        exact own ⟨rfl, (houses.number id).mp (by rw [found, Option.map_some, same])⟩
      unfold Action.Meets
      rw [run_execute found first]
      refine Action.Meets.mono (follows.runInstance realm id (w.record id) apart began)
        fun _ w' h => ?_
      obtain ⟨after, same⟩ := h
      refine ⟨IsTrans.trans _ _ _ (respects_write w _) after, fun hands unchanged => ?_⟩
      have continues := respects_write w (.began realm id (w.moment realm)) houses
      have between := continues.life_between (after houses₁) unchanged
      rw [run_execute found second]
      exact same (continues.hands hands between) (unchanged.trans between.symm)

theorem executeInWalk :
    Attempt.Follows p value (first.executeInWalk realm id) (second.executeInWalk realm id) := by
  refine .bind (.lift (.of_keeps (keeps_respects_modifyWalk realm _))) fun _ =>
    .bind (follows.execute realm id).outcome fun outcome =>
    .bind (.lift (.of_keeps (keeps_respects_modifyWalk realm _))) fun _ => ?_
  cases outcome with
  | ok done => exact .lift (.of_keeps (keeps_respects_write _))
  | error error => exact .bind (.lift (.of_keeps (keeps_respects_write _))) fun _ => .throw _

/-! ### Walks -/

theorem visitPlain (index : Nat) :
    Attempt.Follows p value (first.visitPlain realm id index)
      (second.visitPlain realm id index) := by
  have slotOf : Attempt.Follows p value (slotOf realm id).walking (slotOf realm id).walking :=
    .walking (.of_keeps (keeps_respects_slotOf realm id))
  have settled (slot : Slot) :
      Attempt.Follows p value (outcomeOf slot index) (outcomeOf slot index) := by
    unfold outcomeOf
    split
    · exact .throw _
    · exact .pure _
  refine .bind slotOf fun slot => ?_
  cases slot.status with
  | instantiated =>
    exact .bind (follows.executeInWalk realm id).outcome.walking fun outcome =>
      .bind (.lift (.of_keeps (keeps_respects_moveSlot realm id .evaluated fun _ => rfl))) fun _ =>
      .bind slotOf settled
  | evaluating | evaluated => exact settled slot

theorem visitAll (required : List RecordId) (index : Nat) :
    Attempt.Follows p value (first.visitAll realm id required index)
      (second.visitAll realm id required index) := by
  induction required generalizing index with
  | nil => exact .pure _
  | cons next rest ih =>
    exact .bind (follows.visit realm next index) fun index =>
      .bind (.walking (.of_keeps (keeps_respects_lowerAncestor realm id next))) fun _ => ih index

theorem visitNew (index : Nat) :
    Attempt.Follows p value (first.visitNew realm id index) (second.visitNew realm id index) := by
  refine .bind (.lift (.of_keeps (keeps_respects_enter realm id index))) fun _ =>
    .get_bind fun world => .bind (follows.visitAll realm id _ _) fun index =>
    .get_bind fun world => ?_
  split
  · exact .throw _
  · exact .bind (follows.executeInWalk realm id).walking fun _ =>
      .bind (.walking (.of_keeps (keeps_respects_closeComponent realm id))) fun _ => .pure _

theorem visitFrom (index : Nat) :
    Attempt.Follows p value (first.visitFrom realm id index) (second.visitFrom realm id index) := by
  unfold Engine.visitFrom
  rw [follows.depth]
  have instantiated : Attempt.Keeps Changes (Action.instantiate first.depth realm id) :=
    Action.keeps_instantiate _ realm id
  refine .bind (.walking (.of_changes instantiated)) fun _ => .get_bind fun world => ?_
  split
  · refine .bind (.walking (.of_keeps (keeps_respects_slotOf realm id))) fun slot => ?_
    cases slot.status with
    | evaluated =>
      show Attempt.Follows p value (outcomeOf slot index) (outcomeOf slot index)
      unfold outcomeOf
      split
      · exact .throw _
      · exact .pure _
    | evaluating => exact .pure _
    | instantiated => exact follows.visitNew realm id index
  · exact follows.visitPlain realm id index

theorem walk : Action.Follows p value (first.walk realm id) (second.walk realm id) := by
  have rearranged (change : List Walk → List Walk) : Action.Keeps (Respects p)
      (modify (·.modifyRealm realm fun r => { r with walks := change r.walks }) : Action Unit) :=
    fun w => respects_rearranged w realm (fun _ => rfl) fun _ => rfl
  exact .bind (.of_keeps (rearranged ({ root := id } :: ·))) fun _ =>
    .bind (follows.visit realm id 0) fun outcome =>
    .bind (.of_keeps (keeps_respects_conclude realm outcome)) fun _ =>
    .bind (.of_keeps (rearranged List.tail)) fun _ => .pure _

theorem evaluateFrom :
    Action.Follows p value (first.evaluateFrom realm id) (second.evaluateFrom realm id) := by
  unfold Engine.evaluateFrom
  rw [follows.depth]
  refine .bind (.of_changes (Action.keeps_instantiateGraph _ realm id)) fun outcome => ?_
  cases outcome with
  | error error => exact .pure _
  | ok ready =>
    refine .bind (follows.walk realm id) fun outcome => ?_
    split <;> exact .pure _

theorem requireFrom (embedding : Embedding) :
    Attempt.Follows p value (Engine.requireFrom embedding first realm id)
      (Engine.requireFrom embedding second realm id) := by
  unfold Engine.requireFrom
  rw [follows.depth]
  have linked : Attempt.Keeps Changes (embedding.link first.depth id) :=
    (embedding.keeps_link first.depth id).mono fun _ _ links => links.changes
  refine .bind (.of_changes linked) fun _ =>
    .bind (.of_changes (Action.keeps_instantiateGraph _ realm id)) fun _ =>
    .bind (.lift (follows.walk realm id)) fun outcome => ?_
  cases outcome with
  | error interrupt => exact .throw _
  | ok left =>
    exact .bind (.discard (.of_keeps (keeps_respects_slotOf realm id))) fun _ =>
      .lift (.of_edits (Action.keeps_exportsValue _ realm id))

end Follows

/-! ### Engines that insist -/

section
variable (embedding : Embedding)

/-- A running module answers with what it exports when it is required. -/
theorem follows_requireOnly (p : Lodging) (value : Value) {second : Engine} {depth : Nat}
    (follows : (ofDepth embedding depth).Follows p value second) (realm : RealmId) (id : RecordId) :
    Attempt.Follows p value (requireFrom embedding (ofDepth embedding depth) realm id)
      (requireOnly embedding second p.realm p.id value realm id) := by
  have plain := follows.requireFrom realm id embedding
  unfold requireOnly
  split
  · rename_i own
    obtain ⟨rfl, rfl⟩ := own
    intro w
    refine ((plain w).and (Action.meets_ended _ w)).imp (fun _ _ => trivial) fun a w' h => ?_
    obtain ⟨⟨respects, same⟩, ended⟩ := h
    refine ⟨respects, fun hands unchanged => ?_⟩
    have answers := meets_requireFrom_hands embedding depth hands
    unfold Attempt.Meets at answers
    rw [ended] at answers
    cases a with
    | error error => exact answers.elim
    | ok answer =>
      obtain ⟨rfl, rfl⟩ := answers
      have outcome : (requireFrom embedding second p.realm p.id).outcome.run w' =
          .ok (.ok (.ok answer)) w' := by
        show EStateM.map Except.ok (requireFrom embedding second p.realm p.id).run w' = _
        unfold EStateM.map
        rw [same hands unchanged]
      rw [Attempt.run_bind_of_ended outcome, if_pos rfl]
      rfl
  · exact plain

theorem follows_requireCallBy {requires requires' : RecordId → Attempt Value}
    (follows : ∀ id, Attempt.Follows p value (requires id) (requires' id)) (referrer : RecordId)
    (arguments : List Value) :
    Action.Follows p value (requireCallBy embedding requires referrer arguments)
      (requireCallBy embedding requires' referrer arguments) := by
  unfold requireCallBy
  split
  · rename_i specifier _
    have required : Attempt.Follows p value
        (do requires (← embedding.importFor .resolver referrer specifier))
        (do requires' (← embedding.importFor .resolver referrer specifier)) :=
      .bind (.of_edits (embedding.keeps_importFor _ _ _)) follows
    refine .bind required fun outcome => ?_
    cases outcome <;> exact .pure _
  · exact .pure _

/-- While a module is running, calls come to the same if every `require` of the module has to answer
with what it exports. -/
theorem follows_insisting (p : Lodging) (value : Value) (depth : Nat) :
    (ofDepth embedding depth).Follows p value (insisting embedding p.realm p.id value depth) := by
  induction depth with
  | zero =>
    exact ⟨rfl, fun _ _ _ _ => trivial, fun _ _ _ => trivial, fun _ _ _ _ => trivial⟩
  | succ depth ih =>
    refine ⟨congrArg (· + 1) ih.depth, fun frame function arguments => ?_,
      ih.evaluateFrom, ih.visitFrom⟩
    show Action.Follows p value (callFrom embedding _ frame function arguments)
      (callBy embedding _ _ frame function arguments)
    rw [callFrom_eq_callBy]
    refine .bind (.of_edits (Action.keeps_functionCode function)) fun code => ?_
    cases code with
    | script code => exact ih.script frame _
    | require referrer =>
      exact follows_requireCallBy embedding
        (follows_requireOnly embedding p value ih frame.realm) _ _

end
end Engine
end ModuleGraph
