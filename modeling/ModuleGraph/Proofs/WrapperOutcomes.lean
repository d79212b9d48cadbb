import ModuleGraph.Proofs.Insistence

/-!
What comes of a wrapper-style module that runs. Up to the call of its function it may fail and leave
nothing behind; then the function decides, and what `module.exports` holds in the end. The first run
of a module is alone with its instance, so that it leaves there the object that it made at the start,
unless it ends well.
-/
namespace ModuleGraph
open World Engine

/-- Makes what the function of a wrapper-style module is called with: an object for its exports, one
that describes the module, and its `require` function. -/
def Action.equip (p : Lodging) (module : WrapperModule) :
    Action (ObjectRef × ObjectRef × FunctionRef) := do
  let exports ← newObject p.realm {}
  let descriptor ← newObject p.realm
    (.ofEntries [("exports", .object exports), ("id", .string module.location.toText)])
  modify (·.modifyRealm p.realm (·.modifyInstance p.index (.setExports (.object exports))))
  let require ← newFunction p.realm "require" (.require p.id)
  pure (exports, descriptor, require)

namespace World

/-- The world in which the body of a module begins. -/
def beginning (p : Lodging) (w : World) : World :=
  w.write (.began p.realm p.id (w.moment p.realm))

/-- A module is run for the first time: it has been opened, and its body did not begin before. -/
structure Debut (p : Lodging) (w : World) : Prop where
  reached : w.Reached
  evaluating : (w.realm p.realm).status? p.id = some .evaluating
  unbegun : Stage.began ∉ w.life p.realm p.id

/-- The evaluator runs a module that takes part in cycles only for the first time. -/
theorem debut_of_mayRun {p : Lodging} {w : World} {slot : Slot} (reached : w.Reached)
    (found : (w.realm p.realm).slot? p.id = some slot) (cyclic : (w.record p.id).isCyclic = true)
    (mayRun : MayRun w p.realm p.id slot) : w.Debut p where
  reached := reached
  evaluating := by rw [Realm.status?, found, Option.map_some, (mayRun cyclic).1]
  unbegun := by simp [(mayRun cyclic).2]

namespace Debut
variable {p : Lodging} {w w' : World} (debut : w.Debut p)
include debut

theorem exists_slot :
    ∃ slot, (w.realm p.realm).slot? p.id = some slot ∧ slot.status = .evaluating :=
  Option.map_eq_some_iff.mp debut.evaluating

theorem holds (cyclic : (w.record p.id).isCyclic = true) :
    Holds p.realm (w.beginning p) (w.beginning p) := by
  obtain ⟨slot, found, evaluating⟩ := debut.exists_slot
  refine ⟨debut.reached.orderly.began found (fun _ => ⟨evaluating, ?_⟩) _, .refl _⟩
  have life := (debut.reached.orderly p.realm).life p.id cyclic
  rw [debut.evaluating] at life
  rcases life with life | life
  · exact life
  · have began : Stage.began ∈ w.life p.realm p.id := by simp [life]
    exact absurd began debut.unbegun

/-- Until its body has ended, the module is being evaluated and nothing is added to its life. -/
theorem status? (holds : Holds p.realm (w.beginning p) w') :
    (w'.realm p.realm).status? p.id = some .evaluating := by
  obtain ⟨slot, found, evaluating⟩ := debut.exists_slot
  rw [Realm.status?, holds.2.advance.slot List.not_mem_nil found (by simp [evaluating]),
    Option.map_some, evaluating]

theorem life (holds : Holds p.realm (w.beginning p) w') :
    w'.life p.realm p.id = (w.beginning p).life p.realm p.id := by
  obtain ⟨slot, found, evaluating⟩ := debut.exists_slot
  exact holds.2.advance.life List.not_mem_nil found (by simp [evaluating])

/-- The module has exported nothing before. -/
theorem content {module : WrapperModule} (houses : w.Houses p)
    (record : w.record p.id = .wrapper module) :
    ((w.beginning p).realm p.realm).instances[p.index]? = some (.wrapper .undefined false) := by
  obtain ⟨slot, found, number⟩ := houses.exists_slot
  rw [← number]
  exact debut.reached.pristine p.realm p.id slot module record found debut.unbegun

end Debut

theorem getElem?_modifyInstance (w : World) (realm : RealmId) (index : Nat)
    (change : Instance → Instance) :
    ((w.modifyRealm realm (·.modifyInstance index change)).realm realm).instances[index]? =
      (w.realm realm).instances[index]?.map change := by
  rw [realm_modifyRealm_same, Realm.modifyInstance, Array.getElem?_modify, if_pos rfl]

/-- Objects do not depend on instances. -/
theorem property_modifyInstance (w : World) (realm : RealmId) (index : Nat)
    (change : Instance → Instance) (value : Value) (key : String) :
    (w.modifyRealm realm (·.modifyInstance index change)).property value key =
      w.property value key := by
  cases value with
  | object ref =>
    have same := realm_modifyRealm_congr Realm.objects w realm ref.realm
      (·.modifyInstance index change) fun _ => rfl
    rw [property, property, properties, properties, same]
  | _ => rfl

end World

namespace Engine

/-- The call of a wrapper-style module's function: what the program of the module has given, what
the function is called with, and the worlds after either. -/
structure WrapperCall (engine : Engine) (p : Lodging) (module : WrapperModule) (start : World) where
  function : FunctionRef
  exports : ObjectRef
  descriptor : ObjectRef
  require : FunctionRef
  ran : World
  opened : World
  program : (engine.runBody p.realm module.program).run start = .ok (.ok (.function function)) ran
  equips : Action.equip p module ran = .ok (exports, descriptor, require) opened

namespace WrapperCall
variable {engine : Engine} {p : Lodging} {module : WrapperModule} {start : World}

def arguments (call : WrapperCall engine p module start) : List Value :=
  [.object call.exports, .object call.descriptor, .function call.require]

/-- What the function answers, and the world in which it has ended. -/
def Answers (call : WrapperCall engine p module start) (answer : Except Exception Value)
    (called : World) : Prop :=
  engine.call (.of p.realm) call.function call.arguments call.opened = .ok answer called

/-- What `module.exports` holds in a world. -/
def final (call : WrapperCall engine p module start) (called : World) : Value :=
  (called.properties call.descriptor).get "exports"

/-- The function has not thrown, and what the module exports in the end is neither `undefined` nor
`null`. -/
def Delivers (call : WrapperCall engine p module start) (called : World) : Prop :=
  (∃ value, call.Answers (.ok value) called) ∧ (call.final called).isNullish = false

/-- The world in which the instance exports that. -/
def exposed (call : WrapperCall engine p module start) (called : World) : World :=
  called.modifyRealm p.realm (·.modifyInstance p.index (.setExports (call.final called)))

/-- From one world to another the names of that are passed on to those who wait for them. -/
def Publishes (call : WrapperCall engine p module start) (called published : World) : Prop :=
  Action.publishNames engine.depth p.id ((call.exposed called).keys (call.final called))
    (call.exposed called) = .ok () published

/-- The program of a module is called in one way only. -/
theorem eq (call call' : WrapperCall engine p module start) : call = call' := by
  obtain ⟨function, exports, descriptor, require, ran, opened, program, equips⟩ := call
  obtain ⟨function', exports', descriptor', require', ran', opened', program', equips'⟩ := call'
  cases program.symm.trans program'
  cases equips.symm.trans equips'
  rfl

theorem run_openWrapper (call : WrapperCall engine p module start) :
    (engine.openWrapper p.realm p.id module p.index).run start =
      .ok (.ok (call.function, call.arguments, call.descriptor)) call.opened := by
  obtain ⟨function, exports, descriptor, require, ran, opened, program, equips⟩ := call
  unfold openWrapper
  rw [Attempt.run_bind_of_ended program]
  cases equips
  rfl

/-- A module goes on to the end with what its function answers. -/
theorem run_runWrapper (call : WrapperCall engine p module start) {answer : Except Exception Value}
    {called : World} (answers : call.Answers answer called) :
    (engine.runWrapper p.realm p.id module p.index).run start =
      (engine.closeWrapper p.realm p.id module p.index call.descriptor answer).run called := by
  rw [runWrapper_eq, Attempt.run_bind_of_ended call.run_openWrapper, Attempt.run_bind,
    Attempt.run_lift, answers]

end WrapperCall

/-- How a wrapper-style module that has begun can end. -/
inductive WrapperEnds (engine : Engine) (p : Lodging) (module : WrapperModule) (start : World) :
    Outcome Unit → World → Prop
  /-- The program of the module has failed, or has given something else than a function. -/
  | uncalled {result : Outcome Value} {error : ModuleError} {ran : World}
      (ended : (engine.runBody p.realm module.program).run start = .ok result ran)
      (other : ∀ function, result ≠ .ok (.function function)) :
      WrapperEnds engine p module start (.error error) ran
  | threw (call : WrapperCall engine p module start) {exception : Exception} {called : World}
      (answers : call.Answers (.error exception) called) :
      WrapperEnds engine p module start (.error exception.toError) called
  | unusable (call : WrapperCall engine p module start) {value : Value} {called : World}
      (answers : call.Answers (.ok value) called) (nullish : (call.final called).isNullish = true) :
      WrapperEnds engine p module start (.error (.invalidExports module.location.toText)) called
  | exported (call : WrapperCall engine p module start) {value : Value} {called published : World}
      (answers : call.Answers (.ok value) called) (usable : (call.final called).isNullish = false)
      (publishes : call.Publishes called published) :
      WrapperEnds engine p module start (.ok ()) (published.modifyRealm p.realm
        (·.modifyInstance p.index
          (.setMarked (published.property (call.final called) marker).isTruthy)))

section
variable {engine : Engine} {p : Lodging} {module : WrapperModule} {start w w' : World}
  {outcome : Outcome Unit}

theorem meets_closeWrapper_ends (call : WrapperCall engine p module start)
    {answer : Except Exception Value} (answers : call.Answers answer w) :
    Attempt.Meets (fun _ => answer.isOk ∧ (call.final w).isNullish = false ∧
        ∀ published, ¬ call.Publishes w published)
      (fun error => WrapperEnds engine p module start (.error error))
      (engine.closeWrapper p.realm p.id module p.index call.descriptor answer)
      (fun _ => WrapperEnds engine p module start (.ok ())) w := by
  cases answer with
  | error exception => exact .threw call answers
  | ok value =>
    unfold closeWrapper
    rw [Attempt.meets_bind, Attempt.meets_get]
    dsimp only
    split
    · rename_i nullish
      exact .unusable call answers nullish
    · rename_i usable
      have usable : (call.final w).isNullish = false := Bool.eq_false_iff.mpr usable
      rw [Attempt.meets_bind, Attempt.meets_modify, Attempt.meets_bind, Attempt.meets_get,
        Attempt.meets_bind, Attempt.meets_lift]
      show Action.Meets _ (Action.publishNames engine.depth p.id
        ((call.exposed w).keys (call.final w))) _ (call.exposed w)
      cases passed : Action.publishNames engine.depth p.id
          ((call.exposed w).keys (call.final w)) (call.exposed w) with
      | ok done published =>
        rw [Action.Meets, passed]
        exact .exported call answers usable passed
      | error stuck w₁ =>
        rw [Action.Meets, passed]
        refine ⟨rfl, usable, fun published publishes => ?_⟩
        cases passed.symm.trans publishes

/-- However a wrapper-style module ends, it does so in one of these ways. -/
theorem wrapperEnds_of_run
    (ended : (engine.runWrapper p.realm p.id module p.index).run start = .ok outcome w') :
    WrapperEnds engine p module start outcome w' := by
  suffices ends : Attempt.Meets (fun _ => True)
      (fun error => WrapperEnds engine p module start (.error error))
      (engine.runWrapper p.realm p.id module p.index)
      (fun _ => WrapperEnds engine p module start (.ok ())) start by
    unfold Attempt.Meets at ends
    rw [ended] at ends
    cases outcome <;> exact ends
  cases program : (engine.runBody p.realm module.program).run start with
  | error stuck w₁ =>
    unfold runWrapper Attempt.Meets
    rw [Attempt.run_bind, program]
    trivial
  | ok result ran =>
    by_cases called : ∃ function, result = .ok (.function function)
    · obtain ⟨function, rfl⟩ := called
      let call : WrapperCall engine p module start :=
        { function, ran, program, equips := rfl, .. }
      rw [runWrapper_eq, Attempt.meets_bind_of_ended call.run_openWrapper, Attempt.meets_bind,
        Attempt.meets_lift]
      exact (Action.meets_ended _ _).mono fun answer called answers =>
        (meets_closeWrapper_ends call answers).imp (fun _ _ => trivial) (fun _ _ ends => ends)
          fun _ _ ends => ends
    · have other : ∀ function, result ≠ .ok (.function function) :=
        fun function same => called ⟨function, same⟩
      unfold runWrapper Attempt.Meets
      rw [Attempt.run_bind, program]
      match result, other with
      | .error error, other => exact .uncalled program other
      | .ok value, other =>
        cases value with
        | function function => exact absurd rfl (other function)
        | _ => exact .uncalled program other

/-- A module comes to an end when its function has, and its names are passed on where there are any.
-/
theorem WrapperCall.exists_ended (call : WrapperCall engine p module start)
    {answer : Except Exception Value} {called : World} (answers : call.Answers answer called)
    (publishes : answer.isOk → (call.final called).isNullish = false →
      ∃ published, call.Publishes called published) :
    ∃ outcome w', (engine.runWrapper p.realm p.id module p.index).run start = .ok outcome w' := by
  rw [call.run_runWrapper answers]
  have ends := meets_closeWrapper_ends call answers
  unfold Attempt.Meets at ends
  cases ran :
      (engine.closeWrapper p.realm p.id module p.index call.descriptor answer).run called with
  | ok outcome w' => exact ⟨outcome, w', rfl⟩
  | error stuck w' =>
    rw [ran] at ends
    obtain ⟨ok, usable, unpublished⟩ := ends
    obtain ⟨published, publishes⟩ := publishes ok usable
    exact absurd publishes (unpublished published)

/-- Where a module has ended, its function has, if it was called. -/
theorem WrapperEnds.exists_answers (ends : WrapperEnds engine p module start outcome w')
    (call : WrapperCall engine p module start) : ∃ answer called, call.Answers answer called := by
  cases ends with
  | uncalled ended other =>
    cases ended.symm.trans call.program
    exact absurd rfl (other call.function)
  | threw call' answers | unusable call' answers | exported call' answers =>
    obtain rfl := call.eq call'
    exact ⟨_, _, answers⟩

/-- It is the function, if it is called at all, that decides whether a module ends well. -/
theorem WrapperEnds.eq_ok_iff (ends : WrapperEnds engine p module start outcome w') :
    outcome = .ok () ↔
      ∃ (call : WrapperCall engine p module start) (called : World), call.Delivers called := by
  constructor
  · rintro rfl
    cases ends with
    | exported call answers usable => exact ⟨call, _, ⟨_, answers⟩, usable⟩
  · rintro ⟨call, called, ⟨value, answers⟩, usable⟩
    cases ends with
    | uncalled ended other =>
      cases ended.symm.trans call.program
      exact absurd rfl (other call.function)
    | threw call' answers' =>
      obtain rfl := call.eq call'
      cases answers.symm.trans answers'
    | unusable call' answers' nullish =>
      obtain rfl := call.eq call'
      cases answers.symm.trans answers'
      rw [usable] at nullish
      cases nullish
    | exported => rfl

end

/-! ### The instance of a module that runs -/

namespace WrapperCall
variable {p : Lodging} {module : WrapperModule} {start : World}

section
variable {engine : Engine} (call : WrapperCall engine p module start)

/-- Between its program and its function the module makes some objects, and exports one of them. -/
theorem opens : ∃ made, Edits call.ran made ∧ Edits (made.modifyRealm p.realm
    (·.modifyInstance p.index (.setExports (.object call.exports)))) call.opened := by
  have newObject (properties : Properties) :
      Action.Keeps Edits (Action.newObject p.realm properties) := Action.keeps_newObject _ _
  have newFunction : Action.Keeps Edits (Action.newFunction p.realm "require" (.require p.id)) :=
    Action.keeps_newFunction _ _ _
  have opens : Action.Meets (fun _ => True) (Action.equip p module)
      (fun made w' => ∃ v, Edits call.ran v ∧ Edits (v.modifyRealm p.realm
        (·.modifyInstance p.index (.setExports (.object made.1)))) w') call.ran := by
    unfold Action.equip
    rw [Action.meets_bind]
    refine (newObject _ call.ran).imp (fun _ _ => trivial) fun exports w₁ before => ?_
    rw [Action.meets_bind]
    refine (newObject _ w₁).imp (fun _ _ => trivial) fun descriptor w₂ after => ?_
    rw [Action.meets_bind, Action.meets_modify, Action.meets_bind]
    exact (newFunction _).imp (fun _ _ => trivial) fun require w₃ later =>
      ⟨w₂, before.trans after, later⟩
  unfold Action.Meets at opens
  rwa [call.equips] at opens

theorem houses_opened (houses : call.ran.Houses p) : call.opened.Houses p := by
  obtain ⟨made, before, after⟩ := call.opens
  have houses := (Changes.respects before.changes houses).houses
  have houses := houses.modifyInstance p.realm p.index fun _ =>
    Instance.becomes_setExports (.object call.exports)
  exact (Changes.respects after.changes houses).houses

/-- The instance exports the object then, and is marked as it was. -/
theorem content_opened {exports : Value} {isMarked : Bool}
    (there : (call.ran.realm p.realm).instances[p.index]? = some (.wrapper exports isMarked)) :
    (call.opened.realm p.realm).instances[p.index]? =
      some (.wrapper (.object call.exports) isMarked) := by
  obtain ⟨made, before, after⟩ := call.opens
  refine after.changes.wrapper ?_
  rw [getElem?_modifyInstance, before.changes.wrapper there]
  rfl

end
end WrapperCall

section
variable {embedding : Embedding} {depth : Nat} {p : Lodging} {module : WrapperModule}
  {start ran called : World} {body : Script} {result : Outcome Value}
  {answer : Except Exception Value}

theorem respects_of_runBody
    (ended : ((ofDepth embedding depth).runBody p.realm body).run start = .ok result ran) :
    Respects p start ran := by
  have respects := (follows_insisting embedding p .undefined depth).runBody p.realm body start
  unfold Action.Meets at respects
  rw [ended] at respects
  exact respects.1

theorem WrapperCall.respects_called (call : WrapperCall (ofDepth embedding depth) p module start)
    (answers : call.Answers answer called) : Respects p call.opened called := by
  have respects := (follows_insisting embedding p .undefined depth).call (.of p.realm) call.function
    call.arguments call.opened
  unfold Action.Meets at respects
  rw [answers] at respects
  exact respects.1

theorem holds_of_runBody (begins : Holds p.realm start start)
    (ended : ((ofDepth embedding depth).runBody p.realm body).run start = .ok result ran) :
    Holds p.realm start ran := by
  have holds := (upholds_runBody (carried_holds p.realm start).touched.scripted
    ((keepsOrder_ofDepth embedding depth).upholds p.realm start) body).meets begins
  unfold Attempt.Meets at holds
  rw [ended] at holds
  cases result <;> exact holds

theorem WrapperCall.holds_opened (call : WrapperCall (ofDepth embedding depth) p module start)
    (begins : Holds p.realm start start) : Holds p.realm start call.opened := by
  have upholds := upholds_openWrapper (carried_holds p.realm start).touched.scripted
    ((keepsOrder_ofDepth embedding depth).upholds p.realm start) p.id module
    fun w exports h => h.still (.modifyInstance w p.realm p.index (.setExports exports))
  have holds := upholds.meets begins
  unfold Attempt.Meets at holds
  rwa [call.run_openWrapper] at holds

theorem WrapperCall.holds_called (call : WrapperCall (ofDepth embedding depth) p module start)
    (begins : Holds p.realm start start) (answers : call.Answers answer called) :
    Holds p.realm start called := by
  have holds := ((keepsOrder_ofDepth embedding depth).upholds p.realm start).call (.of p.realm) rfl
    call.function call.arguments call.opened (call.holds_opened begins)
  unfold Action.Meets at holds
  rwa [answers] at holds

/-- A module is in its place when its function has ended. -/
theorem WrapperCall.houses_called (call : WrapperCall (ofDepth embedding depth) p module start)
    (houses : start.Houses p) (answers : call.Answers answer called) : called.Houses p :=
  have ran := (respects_of_runBody call.program houses).houses
  (call.respects_called answers (call.houses_opened ran)).houses

theorem houses_of_runWrapper {outcome : Outcome Unit} {w' : World}
    (ended : ((ofDepth embedding depth).runWrapper p.realm p.id module p.index).run start =
      .ok outcome w') (houses : start.Houses p) : w'.Houses p := by
  have lodges : Attempt.Meets (fun _ => True) (fun _ => Lodges p start)
      ((ofDepth embedding depth).runWrapper p.realm p.id module p.index)
      (fun _ => Lodges p start) start :=
    (follows_insisting embedding p .undefined depth).lodges_runInstance p.realm p.id
      (.wrapper module) p.index start
  unfold Attempt.Meets at lodges
  rw [ended] at lodges
  cases outcome <;> exact (lodges houses).1

/-- A module whose function delivers exports what it says in the end, and is marked accordingly. -/
theorem WrapperEnds.content_of_delivers {outcome : Outcome Unit} {w' : World}
    (ends : WrapperEnds (ofDepth embedding depth) p module start outcome w')
    (houses : start.Houses p) (call : WrapperCall (ofDepth embedding depth) p module start)
    (delivers : call.Delivers called) :
    (w'.realm p.realm).instances[p.index]? =
      some (.wrapper (call.final called) (w'.property (call.final called) marker).isTruthy) := by
  obtain rfl := ends.eq_ok_iff.mpr ⟨call, called, delivers⟩
  obtain ⟨⟨value, answers⟩, usable⟩ := delivers
  cases ends with
  | @exported call' _ _ published answers' usable' publishes =>
    obtain rfl := call.eq call'
    cases answers.symm.trans answers'
    obtain ⟨exports, isMarked, there⟩ := (call.houses_called houses answers).content
    have exposed : ((call.exposed called).realm p.realm).instances[p.index]? =
        some (.wrapper (call.final called) isMarked) := by
      rw [WrapperCall.exposed, getElem?_modifyInstance, there]
      rfl
    have passed : Edits (call.exposed called) published := by
      have keeps : Action.Keeps Edits (Action.publishNames (ofDepth embedding depth).depth p.id
        ((call.exposed called).keys (call.final called))) := Action.keeps_publishNames _ _ _
      have edits := keeps (call.exposed called)
      unfold Action.Meets at edits
      rwa [publishes] at edits
    rw [property_modifyInstance, getElem?_modifyInstance, passed.changes.wrapper exposed]
    rfl

end

/-! ### The first run of a module -/

section
variable {embedding : Embedding} {depth : Nat} {p : Lodging} {module : WrapperModule}
  {w ran called : World} {result : Outcome Value} {answer : Except Exception Value}
  (debut : w.Debut p) (houses : w.Houses p) (record : w.record p.id = .wrapper module)
include debut houses record

theorem content_of_runBody {body : Script} (ended : ((ofDepth embedding depth).runBody p.realm
      body).run (w.beginning p) = .ok result ran) :
    (ran.realm p.realm).instances[p.index]? = some (.wrapper .undefined false) := by
  have begins := debut.holds (by rw [record]; rfl)
  have continues := respects_of_runBody ended (houses.arranged (.write w _))
  have same := (continues.same (debut.life (holds_of_runBody begins ended))).2
  exact same.trans (debut.content houses record)

theorem WrapperCall.content_first
    (call : WrapperCall (ofDepth embedding depth) p module (w.beginning p)) :
    (call.opened.realm p.realm).instances[p.index]? =
      some (.wrapper (.object call.exports) false) :=
  call.content_opened (content_of_runBody debut houses record call.program)

/-- What its function is called with is handed out. -/
theorem WrapperCall.hands
    (call : WrapperCall (ofDepth embedding depth) p module (w.beginning p)) :
    call.opened.Hands p (.object call.exports) where
  toHouses := call.houses_opened
    (respects_of_runBody call.program (houses.arranged (.write w _))).houses
  evaluating := debut.status? (call.holds_opened (debut.holds (by rw [record]; rfl)))
  exports := ⟨false, call.content_first debut houses record⟩

omit houses in
/-- While the function runs, nothing is added to the life of the module. -/
theorem WrapperCall.life_called
    (call : WrapperCall (ofDepth embedding depth) p module (w.beginning p))
    (answers : call.Answers answer called) :
    called.life p.realm p.id = call.opened.life p.realm p.id := by
  have begins := debut.holds (by rw [record]; rfl)
  rw [debut.life (call.holds_called begins answers), debut.life (call.holds_opened begins)]

theorem WrapperCall.content_called
    (call : WrapperCall (ofDepth embedding depth) p module (w.beginning p))
    (answers : call.Answers answer called) :
    (called.realm p.realm).instances[p.index]? = some (.wrapper (.object call.exports) false) := by
  have continues := call.respects_called answers (call.hands debut houses record).toHouses
  have same := (continues.same (call.life_called debut record answers)).2
  exact same.trans (call.content_first debut houses record)

/-- Whoever requires the module meanwhile gets that object. -/
theorem WrapperCall.insists
    (call : WrapperCall (ofDepth embedding depth) p module (w.beginning p))
    (answers : call.Answers answer called) :
    (insisting embedding p.realm p.id (.object call.exports) depth).call (.of p.realm)
      call.function call.arguments call.opened = .ok answer called := by
  have follows := (follows_insisting embedding p (.object call.exports) depth).call (.of p.realm)
    call.function call.arguments call.opened
  unfold Action.Meets at follows
  rw [answers] at follows
  exact follows.2 (call.hands debut houses record) (call.life_called debut record answers)

/-- A module that has failed exports the object that its function was called with, or nothing. -/
theorem WrapperEnds.content_of_error {error : ModuleError}
    (ends : WrapperEnds (ofDepth embedding depth) p module (w.beginning p) (.error error) ran) :
    (IsEmpty (WrapperCall (ofDepth embedding depth) p module (w.beginning p)) →
        (ran.realm p.realm).instances[p.index]? = some (.wrapper .undefined false)) ∧
      ∀ call : WrapperCall (ofDepth embedding depth) p module (w.beginning p),
        (ran.realm p.realm).instances[p.index]? = some (.wrapper (.object call.exports) false) := by
  cases ends with
  | uncalled ended other =>
    refine ⟨fun _ => content_of_runBody debut houses record ended, fun call => ?_⟩
    cases ended.symm.trans call.program
    exact absurd rfl (other call.function)
  | threw call answers | unusable call answers =>
    refine ⟨fun none => none.elim call, fun call' => ?_⟩
    obtain rfl := call.eq call'
    exact call.content_called debut houses record answers

end

/-! ### Executions -/

section
variable {engine : Engine} {p : Lodging} {module : WrapperModule} {w w' : World}

theorem run_execute_wrapper (houses : w.Houses p) (record : w.record p.id = .wrapper module)
    (engine : Engine) :
    (engine.execute p.realm p.id).run w =
      (engine.runWrapper p.realm p.id module p.index).run (w.beginning p) := by
  obtain ⟨slot, found, number⟩ := houses.exists_slot
  rw [run_execute found, number, record]
  rfl

variable (embedding : Embedding) (depth : Nat)

/-- What comes of an execution of a wrapper-style module. It ends when the function of the module
has ended, and those who wait for names have been told; and it ends well if and only if the program
of the module gives a function that does not throw and leaves something in `module.exports`. The
instance exports that then, and is marked if `__esModule` says so. The first execution, the only one
by the evaluator, otherwise leaves nothing there, or the very object that the function was called
with; and nobody who requires the module in the meantime gets anything else. -/
theorem wrapper_execution_outcomes (houses : w.Houses p)
    (record : w.record p.id = .wrapper module) :
    (∀ (call : WrapperCall (ofDepth embedding depth) p module (w.beginning p)) answer called,
      call.Answers answer called →
      (call.Delivers called → ∃ published, call.Publishes called published) →
      ∃ outcome w', ((ofDepth embedding depth).execute p.realm p.id).run w = .ok outcome w') ∧
    ∀ outcome w', ((ofDepth embedding depth).execute p.realm p.id).run w = .ok outcome w' →
      (outcome = .ok () ↔
        ∃ (call : WrapperCall (ofDepth embedding depth) p module (w.beginning p)) (called : World),
          call.Delivers called) ∧
      (∀ (call : WrapperCall (ofDepth embedding depth) p module (w.beginning p)) called,
        call.Delivers called → (w'.realm p.realm).instance? p.id = some
          (.wrapper (call.final called) (w'.property (call.final called) marker).isTruthy)) ∧
      (w.Debut p →
        (∀ error, outcome = .error error →
          (IsEmpty (WrapperCall (ofDepth embedding depth) p module (w.beginning p)) →
            (w'.realm p.realm).instance? p.id = some (.wrapper .undefined false)) ∧
          ∀ call : WrapperCall (ofDepth embedding depth) p module (w.beginning p),
            (w'.realm p.realm).instance? p.id = some (.wrapper (.object call.exports) false)) ∧
        ∀ call : WrapperCall (ofDepth embedding depth) p module (w.beginning p),
          ∃ answer called, call.Answers answer called ∧
            (insisting embedding p.realm p.id (.object call.exports) depth).call (.of p.realm)
              call.function call.arguments call.opened = .ok answer called) := by
  have houses₁ : (w.beginning p).Houses p := houses.arranged (.write w _)
  rw [run_execute_wrapper houses record]
  refine ⟨fun call answer called answers publishes =>
    call.exists_ended answers fun ok usable => publishes ⟨?_, usable⟩, fun outcome w' ended => ?_⟩
  · cases answer with
    | ok value => exact ⟨value, answers⟩
    | error exception => cases ok
  have ends := wrapperEnds_of_run ended
  have houses' := houses_of_runWrapper ended houses₁
  rw [houses'.instance?]
  refine ⟨ends.eq_ok_iff, fun call called => ends.content_of_delivers houses₁ call,
    fun debut => ⟨?_, fun call => ?_⟩⟩
  · rintro error rfl
    exact ends.content_of_error debut houses record
  · obtain ⟨answer, called, answers⟩ := ends.exists_answers call
    exact ⟨answer, called, answers, call.insists debut houses record answers⟩

end
end Engine

/-! ### A module that requires itself -/

namespace World

/-- A wrapper-style script that exports `x`, requires itself, and throws. -/
def selfRequirer : WrapperModule where
  location := .fileUrl "" ['/', 'a']
  program := .wrapping fun
    | [.object exports, _, .function require] =>
      .setProperty exports "x" .null <| .call require [.string "/a"] fun _ =>
        .raise { value := .null }
    | _ => .give .undefined

def selfRequired : World where
  records := #[.wrapper selfRequirer]
  cache := { entries := [("file:///a", .ok ⟨0⟩)] }
  locations := [(⟨0⟩, .fileUrl "" ['/', 'a'])]

/-- The world in which a walk has opened the script. -/
def poised : World :=
  ((selfRequired.withWrapper (.worker 0) ⟨0⟩).walking (.worker 0) ⟨0⟩).entered (.worker 0) ⟨0⟩ 0

theorem reached_poised : poised.Reached := by
  have fresh : selfRequired.Fresh := ⟨fun _ => rfl, fun _ => rfl, rfl⟩
  have instantiated : Step selfRequired (selfRequired.withWrapper (.worker 0) ⟨0⟩) :=
    .change (.addInstance (.worker 0) ⟨0⟩ (.wrapper .undefined false) rfl rfl trivial
      (.wrapper selfRequirer))
  exact ⟨selfRequired, fresh, ((Relation.ReflTransGen.single instantiated).tail
    (.walking (.worker 0) ⟨0⟩)).tail (.entered (.worker 0) ⟨0⟩ 0 rfl rfl rfl rfl)⟩

/-- Where the first worker keeps its first instance, if that is one of the first record. -/
abbrev firstPlace : Lodging := ⟨.worker 0, ⟨0⟩, 0⟩

theorem debut_poised : poised.Debut firstPlace where
  reached := reached_poised
  evaluating := by cbv
  unbegun := by
    have life : poised.life (.worker 0) ⟨0⟩ = [.moved .instantiated, .moved .evaluating] := by cbv
    simp [life]

theorem record_poised : poised.record firstPlace.id = .wrapper selfRequirer := rfl

theorem houses_poised : poised.Houses firstPlace := by
  have found : (poised.realm (.worker 0)).slot? ⟨0⟩ =
    some { instanceIndex := 0, status := .evaluating } := by cbv
  exact reached_poised.furnished.houses record_poised found

end World

/-- Whether an execution has failed and left a wrapper-style instance that passes a test. -/
def failsLeaving (test : Value → Bool → Bool) : Outcome Unit → Option Instance → Bool
  | .error _, some (.wrapper exports isMarked) => test exports isMarked
  | _, _ => false

theorem of_failsLeaving {test : Value → Bool → Bool} {outcome : Outcome Unit}
    {content? : Option Instance} (fails : failsLeaving test outcome content? = true) :
    ∃ error exports isMarked, outcome = .error error ∧
      content? = some (.wrapper exports isMarked) ∧ test exports isMarked = true := by
  unfold failsLeaving at fails
  split at fails
  · exact ⟨_, _, _, rfl, rfl, fails⟩
  · cases fails

/-- The script gets its own exports from `require`, and leaves them behind when it throws. -/
theorem wrapper_execution_outcomes_in_poised :
    poised.Houses firstPlace ∧ poised.record firstPlace.id = .wrapper selfRequirer ∧
      poised.Debut firstPlace ∧
      ∃ (call : WrapperCall (ofDepth .bare 3) firstPlace selfRequirer (poised.beginning firstPlace))
        (error : ModuleError) (w' : World),
        ((ofDepth .bare 3).execute (.worker 0) ⟨0⟩).run poised = .ok (.error error) w' ∧
        (w'.realm (.worker 0)).instance? ⟨0⟩ = some (.wrapper (.object call.exports) false) ∧
        ∃ answer called, call.Answers answer called ∧
          (insisting .bare (.worker 0) ⟨0⟩ (.object call.exports) 3).call (.of (.worker 0))
            call.function call.arguments call.opened = .ok answer called := by
  have computed : ((ofDepth .bare 3).execute (.worker 0) ⟨0⟩).run.ends poised (fun outcome w' =>
      failsLeaving (fun exports _ => exports.object?.isSome) outcome
        ((w'.realm (.worker 0)).instance? ⟨0⟩)) = true := by cbv
  obtain ⟨outcome, w', ended, test⟩ := Action.exists_of_ends computed
  obtain ⟨-, outcomes⟩ := wrapper_execution_outcomes .bare 3 houses_poised record_poised
  obtain ⟨-, -, first⟩ := outcomes outcome w' ended
  obtain ⟨failed, insists⟩ := first debut_poised
  obtain ⟨error, exports, isMarked, rfl, there, isObject⟩ := of_failsLeaving test
  obtain ⟨uncalled, called⟩ := failed error rfl
  obtain ⟨call⟩ : Nonempty (WrapperCall (ofDepth .bare 3) firstPlace selfRequirer
      (poised.beginning firstPlace)) := by
    by_contra none
    cases there.symm.trans (uncalled (not_nonempty_iff.mp none))
    cases isObject
  exact ⟨houses_poised, rfl, debut_poised, call, error, w', ended, called call, insists call⟩

namespace World

/-- A wrapper-style script that marks what it exports, but throws if it runs once more. -/
def relapser : WrapperModule where
  location := .fileUrl "" ['/', 'a']
  program := .wrapping fun
    | .object exports :: _ =>
      .globalObject fun shared => .inspect shared fun properties =>
        if (properties.get "again").isTruthy then .raise { value := .null }
        else
          .setProperty shared "again" (.bool true) <|
            .setProperty exports marker (.bool true) (.give .undefined)
    | _ => .give .undefined

/-- The world in which the evaluator has run the script. -/
def recovered : World :=
  ((ofDepth .bare 3).evaluateFrom (.worker 0) ⟨0⟩).after { records := #[.wrapper relapser] }

end World

/-- Whoever executes an instance once more can fail with it and leave it marked. -/
theorem not_unmarked_after_failure :
    ¬ ∀ (embedding : Embedding) (depth : Nat) (realm : RealmId) (id : RecordId) (w w' : World)
      (error : ModuleError),
      ((ofDepth embedding depth).execute realm id).run w = .ok (.error error) w' →
      ∀ exports isMarked,
        (w'.realm realm).instance? id = some (.wrapper exports isMarked) → isMarked = false := by
  intro claim
  have computed : ((ofDepth .bare 3).execute (.worker 0) ⟨0⟩).run.ends recovered (fun outcome w' =>
      failsLeaving (fun _ isMarked => isMarked) outcome
        ((w'.realm (.worker 0)).instance? ⟨0⟩)) = true := by cbv
  obtain ⟨outcome, w', ended, test⟩ := Action.exists_of_ends computed
  obtain ⟨error, exports, isMarked, rfl, there, marked⟩ := of_failsLeaving test
  cases marked.symm.trans (claim .bare 3 (.worker 0) ⟨0⟩ recovered w' error ended _ _ there)

end ModuleGraph
