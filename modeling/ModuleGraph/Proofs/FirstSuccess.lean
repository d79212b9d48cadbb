import ModuleGraph.Proofs.NameAccounts
import ModuleGraph.Proofs.Wrappers

/-!
The names of a wrapper-style module come from the first of its executions that ends well, in
whatever realm that is. Until then nobody knows them, however many executions have failed; from then
on they are the keys of what that execution exported in the end, and everyone who has asked for them
is told these, once.
-/
namespace ModuleGraph
open World Engine Relation

/-! ### What goes on besides -/

namespace World
variable {id : RecordId} {tags : Json → Bool}

/-- What went on leaves every account of a module and some tags as it is. -/
def Bypasses (id : RecordId) (tags : Json → Bool) (w w' : World) : Prop :=
  ∀ ledger, Account id tags ledger w → Account id tags ledger w'

instance : Strikes (Bypasses id tags) where
  refl _ _ account := account
  trans _ _ _ first second ledger account := second ledger (first ledger account)
  stroke _ _ stroke _ account := account.stroke stroke

/-- To uphold every account is to keep to what leaves accounts alone. -/
theorem keeps_bypasses {α : Type} {action : Action α} (upholds : ∀ ledger,
      Action.Upholds (Account id tags ledger) (Account id tags ledger) action) :
    Action.Keeps (Bypasses id tags) action := by
  intro w
  unfold Action.Meets
  split
  all_goals
    rename_i ended
    intro ledger account
    simpa [Action.Meets, ended] using upholds ledger w account

end World

/-! ### The first success -/

/-- The names of a module come from an execution of it, with something that the embedder supplied, and
from events the last of which is that this execution ended well, as none had before: the call of the
module's function came to an end when the names were not known; the names are the keys of what
`module` held for exports then; and they were known when the execution was over. -/
inductive FirstSuccess (supplied : Embedding → Prop) (id : RecordId) :
    List String → List Event → Prop
  | intro {embedding : Embedding} {depth : Nat} {realm : RealmId} {module : WrapperModule}
    {slot : Slot} {wrapper : FunctionRef} {arguments : List Value} {descriptor : ObjectRef}
    {value final : Value} {began opened called ended : World}
    (isSupplied : supplied embedding) (found : began.record id = .wrapper module)
    (present : (began.realm realm).slot? id = some slot)
    (opens : ((ofDepth embedding depth).openWrapper realm id module slot.instanceIndex).run
      (began.write (.began realm id (began.moment realm))) =
        .ok (.ok (wrapper, arguments, descriptor)) opened)
    (calls : (ofDepth embedding depth).call (.of realm) wrapper arguments opened =
      .ok (.ok value) called)
    (unknown : called.knownNames? id = none)
    (holds : (called.properties descriptor).get "exports" = final)
    (usable : final.isNullish = false)
    (executes : ((ofDepth embedding depth).execute realm id).run began = .ok (.ok ()) ended)
    (known : ended.knownNames? id = some (called.keys final))
    (first : ended.successes id = []) :
    FirstSuccess supplied id (called.keys final) (ended.journal.toList ++ [.ended realm id none])

/-- Accounts in which all is in order when some have asked: before the first success nobody was told
anything; afterwards all were told the same names, which are the ones that may have been claimed
before. -/
inductive Balanced (supplied : Embedding → Prop) (id : RecordId) (asked : Nat)
    (claimed? : Option (List String)) : Ledger → Prop
  | unsettled (past : List Event) (unclaimed : claimed? = none) :
      Balanced supplied id asked claimed? { waiting := asked, past }
  | settled {names : List String} {past : List Event} (succeeded : List RealmId)
    (first : FirstSuccess supplied id names past) (claimed : ∀ claim ∈ claimed?, claim = names) :
    Balanced supplied id asked claimed?
      { progress := .known names, told := List.replicate asked names, succeeded, past }

/-- There is an account of a module in which all is in order. -/
def World.InBalance (supplied : Embedding → Prop) (id : RecordId) (tags : Json → Bool)
    (asked : Nat) (claimed? : Option (List String)) (w : World) : Prop :=
  ∃ ledger, Account id tags ledger w ∧ Balanced supplied id asked claimed? ledger

namespace World
variable {w w' : World} {supplied : Embedding → Prop} {id : RecordId} {tags : Json → Bool}
  {asked : Nat} {claimed? : Option (List String)}

/-- What an instance holds has no keys to do with. -/
theorem keys_modifyInstance (w : World) (realm : RealmId) (index : Nat)
    (change : Instance → Instance) (value : Value) :
    (w.modifyRealm realm (·.modifyInstance index change)).keys value = w.keys value := by
  cases value with
  | object ref =>
    show (((w.modifyRealm realm _).realm ref.realm).objects.getD ref.index default).keys = _
    rw [realm_modifyRealm_congr Realm.objects w realm ref.realm (·.modifyInstance index change)
      fun _ => rfl]
    rfl
  | _ => rfl

theorem InBalance.carry (balance : w.InBalance supplied id tags asked claimed?)
    (bypasses : Bypasses id tags w w') : w'.InBalance supplied id tags asked claimed? :=
  let ⟨ledger, account, balanced⟩ := balance
  ⟨ledger, bypasses ledger account, balanced⟩

theorem InBalance.modifyInstance (balance : w.InBalance supplied id tags asked claimed?)
    (realm : RealmId) (index : Nat) (change : Instance → Instance) :
    (w.modifyRealm realm (·.modifyInstance index change)).InBalance supplied id tags asked claimed? :=
  balance.carry fun _ account => account.of_records rfl rfl

theorem InBalance.running (balance : w.InBalance supplied id tags asked claimed?)
    (realm : RealmId) (running : Option RecordId) :
    (w.running realm running).InBalance supplied id tags asked claimed? :=
  balance.carry fun _ account =>
    account.turns (Turns.rearranged w realm fun r => r.slots_modifyWalk _)

end World

namespace Engine
variable {embedding : Embedding} {supplied : Embedding → Prop} {id : RecordId} {tags : Json → Bool}
  {asked : Nat} {claimed? : Option (List String)}

theorem scripted_inBalance :
    Scripted (fun _ => True) (InBalance supplied id tags asked claimed?) where
  stop _ _ := trivial
  strokes _ _ strokes balance := balance.carry strokes.struck

/-- Code that begins no walk leaves the account alone: a host module may learn its names when it is
instantiated, but is another module. -/
theorem borne_inBalance (embedding : Embedding) :
    Borne embedding (fun _ => True) (InBalance supplied id tags asked claimed?) := by
  have consulted :
      Consulted embedding (fun _ => True) (InBalance supplied id tags asked claimed?) :=
    .of_lookedUp scripted_inBalance embedding.staysWithin_all (fun _ _ _ _ _ => trivial)
      fun _ _ _ _ _ _ lookedUp balance => balance.carry fun _ account => account.lookedUp lookedUp
  refine ⟨consulted, fun depth other _ => Embedding.upholds_link_of consulted
    (fun w _ _ balance => balance.carry fun _ account => account.write ⟨rfl, rfl⟩)
    (fun w _ _ _ _ found balance => balance.carry fun _ account => account.setStatic found)
    depth other, fun _ _ _ _ _ => trivial, fun depth realm other => .of_meets fun w balance => ?_⟩
  unfold Action.instantiate
  rw [Attempt.meets_bind, Attempt.meets_get]
  split
  · exact balance
  · split
    · obtain ⟨ledger, account, balanced⟩ := balance
      have publishes (module : HostRecord) (found : w.record other = .host module)
          (names : List String) :
          Action.Keeps (Bypasses id tags) (Action.publishNames depth other names) := by
        have apart : other ≠ id := by
          rintro rfl
          obtain ⟨_, isWrapper, _⟩ := account.found
          rw [found] at isWrapper
          cases isWrapper
        exact keeps_bypasses fun _ => Account.upholds_publishNames depth apart names
      rw [Attempt.meets_bind]
      refine (Action.meets_newInstance_of publishes realm).imp (fun _ _ => trivial)
        (fun _ _ bypasses => ⟨ledger, bypasses ledger account, balanced⟩)
        fun content w' bypasses => ?_
      exact ⟨ledger, (bypasses ledger account).addInstance realm other content, balanced⟩
    · exact balance

/-! ### Executions -/

section
variable {realm : RealmId}

/-- The module has come to the end of an execution, and its names are known: from before, or from
this execution, the end of which is still to be written down. -/
def Concluded (supplied : Embedding → Prop) (realm : RealmId) (id : RecordId) (tags : Json → Bool)
    (asked : Nat) (claimed? : Option (List String)) (w : World) : Prop :=
  ∃ names past succeeded,
    Account id tags
      { progress := .known names, told := List.replicate asked names, succeeded, past } w ∧
    (∀ claim ∈ claimed?, claim = names) ∧
    (FirstSuccess supplied id names past ∨
      FirstSuccess supplied id names (w.journal.toList ++ [.ended realm id none]))

/-- When the end of the execution is written down, all is in order. -/
theorem Concluded.inBalance {w : World}
    (concluded : Concluded supplied realm id tags asked claimed? w) :
    (w.write (.ended realm id none)).InBalance supplied id tags asked claimed? := by
  obtain ⟨names, past, succeeded, account, claimed, first | first⟩ := concluded
  · exact ⟨_, account.succeed realm (account.past.trans (List.prefix_append _ _)),
      .settled _ first claimed⟩
  · exact ⟨_, account.succeed realm List.prefix_rfl, .settled _ first claimed⟩

/-- At the end of an execution that does not fail the keys of what the module exports are published.
-/
theorem meets_closeWrapper {ledger : Ledger} {called : World}
    (account : Account id tags ledger called) (engine : Engine) (realm : RealmId)
    (module : WrapperModule) (index : Nat) (descriptor : ObjectRef)
    (outcome : Except Exception Value) :
    Attempt.Meets (fun _ => True) (fun _ => Account id tags ledger)
      (engine.closeWrapper realm id module index descriptor outcome)
      (fun _ closed => ∃ value final, outcome = .ok value ∧
        (called.properties descriptor).get "exports" = final ∧ final.isNullish = false ∧
        Account id tags (ledger.publish (called.keys final)) closed) called := by
  unfold closeWrapper
  split
  · exact account
  · rename_i value
    rw [Attempt.meets_bind, Attempt.meets_get]
    dsimp only
    split
    · exact account
    · rename_i usable
      have marked {w : World} {ledger : Ledger} (account : Account id tags ledger w)
          (change : Instance → Instance) : Account id tags ledger
            (w.modifyRealm realm (·.modifyInstance index change)) :=
        account.of_records rfl rfl
      rw [Attempt.meets_bind, Attempt.meets_modify, Attempt.meets_bind, Attempt.meets_get,
        keys_modifyInstance, Attempt.meets_bind, Attempt.meets_lift]
      refine ((marked account _).meets_publishNames engine.depth _).mono fun _ w account => ?_
      rw [Attempt.meets_bind, Attempt.meets_get, Attempt.meets_modify]
      exact ⟨value, _, rfl, rfl, by simpa using usable, marked account _⟩

section
variable {depth : Nat} {w : World}
  (upholds : ∀ realm, (ofDepth embedding depth).Upholds realm (fun _ => True)
    (InBalance supplied id tags asked claimed?))
include upholds

/-- An execution of the module that ends well leaves its names known. They are from before, or this
is the first execution that ends well. -/
theorem meets_execute (isSupplied : supplied embedding)
    (balance : w.InBalance supplied id tags asked claimed?) {ends : World → Prop}
    (executes : ∀ ended, ends ended →
      ((ofDepth embedding depth).execute realm id).run w = .ok (.ok ()) ended) :
    Attempt.Meets (fun _ => True) (fun _ => InBalance supplied id tags asked claimed?)
      ((ofDepth embedding depth).execute realm id)
      (fun _ ended => ends ended → Concluded supplied realm id tags asked claimed? ended) w := by
  obtain ⟨module, found⟩ : ∃ module, w.record id = .wrapper module :=
    let ⟨_, account, _⟩ := balance
    let ⟨module, found, _⟩ := account.found
    ⟨module, found⟩
  have begun :
      (w.write (.began realm id (w.moment realm))).InBalance supplied id tags asked claimed? :=
    balance.carry fun _ account => account.write ⟨rfl, rfl⟩
  unfold execute slotOf
  rw [Attempt.meets_bind, Attempt.meets_bind, Attempt.meets_get]
  split
  · rename_i slot present
    rw [Attempt.meets_pure, Attempt.meets_bind, Attempt.meets_get, Attempt.meets_bind,
      Attempt.meets_lift, Action.meets_write, found]
    show Attempt.Meets _ _ ((ofDepth embedding depth).runWrapper realm id module slot.instanceIndex)
      _ _
    rw [runWrapper_eq, Attempt.meets_bind]
    have opens := upholds_openWrapper scripted_inBalance (upholds realm) id module
      fun _ exports balance => balance.modifyInstance realm slot.instanceIndex (.setExports exports)
    refine ((opens.meets begun).and ((Attempt.meets_run _).1 (Action.meets_ended _ _))).imp
      (fun _ _ => trivial) (fun _ _ h => h.1) fun opening opened h => ?_
    obtain ⟨balance, opens⟩ := h
    obtain ⟨wrapper, arguments, descriptor⟩ := opening
    rw [Attempt.meets_bind, Attempt.meets_lift]
    refine (((upholds realm).call _ rfl wrapper arguments _ balance).and
      (Action.meets_ended _ _)).imp (fun _ _ => trivial) fun outcome called h => ?_
    obtain ⟨⟨ledger, account, balanced⟩, calls⟩ := h
    refine (meets_closeWrapper account _ realm module slot.instanceIndex descriptor outcome).imp
      (fun _ h => h) (fun _ _ account => ⟨ledger, account, balanced⟩) fun _ ended closed isEnd => ?_
    obtain ⟨value, final, rfl, holds, usable, account'⟩ := closed
    cases balanced with
    | unsettled past unclaimed =>
      refine ⟨_, _, _, account', by simp [unclaimed], .inr ?_⟩
      exact .intro isSupplied found present opens calls account.knownNames? holds usable
        (executes ended isEnd) account'.knownNames? account'.succeeded
    | settled succeeded first claimed =>
      exact ⟨_, _, _, account', claimed, .inl first⟩
  · exact balance

/-- Another module that is executed may learn its own names only. -/
theorem upholds_execute_other {other : RecordId} (apart : other ≠ id) :
    Attempt.Upholds (fun _ => True) (InBalance supplied id tags asked claimed?)
      ((ofDepth embedding depth).execute realm other) := by
  refine .bind (upholds_slotOf realm other) fun slot => .bind .get fun world =>
    .bind (.lift fun w balance => balance.carry fun _ account => account.write ⟨rfl, rfl⟩)
      fun _ => ?_
  refine upholds_runInstance_of scripted_inBalance (upholds realm) (fun _ _ names => ?_)
    fun _ _ _ change _ balance => balance.modifyInstance realm _ change
  exact (keeps_bypasses fun _ => Account.upholds_publishNames _ apart names).upholds
    (fun _ _ bypasses balance => balance.carry bypasses) fun _ _ => trivial

end

theorem Concluded.running {w : World}
    (concluded : Concluded supplied realm id tags asked claimed? w) (running : Option RecordId) :
    Concluded supplied realm id tags asked claimed? (w.running realm running) :=
  let ⟨names, past, succeeded, account, claimed, first⟩ := concluded
  ⟨names, past, succeeded, account.turns (Turns.rearranged w realm fun r => r.slots_modifyWalk _),
    claimed, first⟩

/-- All stays in order when a body is executed, whichever it is. -/
theorem upholds_executeInWalk_inBalance (isSupplied : supplied embedding) {depth : Nat}
    (upholds : ∀ realm, (ofDepth embedding depth).Upholds realm (fun _ => True)
      (InBalance supplied id tags asked claimed?)) (realm : RealmId) (other : RecordId) :
    Attempt.Upholds (fun _ => True) (InBalance supplied id tags asked claimed?)
      ((ofDepth embedding depth).executeInWalk realm other) := by
  have fails (w : World) (error : ModuleError)
      (balance : w.InBalance supplied id tags asked claimed?) :
      (w.write (.ended realm other (some error))).InBalance supplied id tags asked claimed? :=
    balance.carry fun _ account => account.write ⟨rfl, rfl⟩
  by_cases same : other = id
  · subst same
    have ended (w : World) := (Attempt.meets_run _).1
      (Action.meets_ended ((ofDepth embedding depth).execute realm other).run w)
    have ends (w : World) (concluded : Concluded supplied realm other tags asked claimed? w) :=
      (concluded.running none).inBalance
    refine upholds_executeInWalk (fun w running balance => balance.running realm running)
      (fun w balance => ?_) fails ends
    exact ((meets_execute upholds isSupplied balance fun _ ended => ended).and (ended w)).imp
      (fun _ _ => trivial) (fun _ _ h => h.1) fun _ _ h => h.1 h.2
  · exact upholds_executeInWalk (fun w running balance => balance.running realm running)
      (fun w => (upholds_execute_other upholds same).meets) fails
      fun w balance => (balance.running realm none).carry fun _ account =>
        account.write ⟨rfl, if_neg same⟩

/-- That all is in order lasts throughout evaluation. -/
theorem lasting_inBalance (isSupplied : supplied embedding) :
    Lasting embedding (fun _ => True) (InBalance supplied id tags asked claimed?) where
  toBorne := borne_inBalance embedding
  turns _ _ turns balance := balance.carry fun _ account => account.turns turns
  executes _ realm other upholds _ balance _ :=
    (upholds_executeInWalk_inBalance isSupplied upholds realm other).meets balance

end
end Engine

/-! ### Runs -/

/-- Something that is done from outside: what an embedder does, or an execution of a module in a
realm, over again if it was executed before. -/
inductive Deed where
  | does (operation : Operation)
  | executes (realm : RealmId) (id : RecordId)

namespace Deed

/-- The module that is asked for its names, and under which tag. -/
def asks? : Deed → Option (RecordId × Json)
  | .does (.askNames id tag) => some (id, tag)
  | _ => none

/-- Does it with what the embedder supplies. -/
def act (embedding : Embedding) (depth : Nat) : Deed → Action Unit
  | .does operation => (Setup.ofDepth embedding depth).perform operation
  | .executes realm id => discard ((Engine.ofDepth embedding depth).executeInWalk realm id).run

/-- Does one thing after the other, each with what the embedder supplies by then. -/
def actEach (depth : Nat) : List (Embedding × Deed) → Action Unit
  | [] => pure ()
  | (embedding, deed) :: rest => do
    deed.act embedding depth
    actEach depth rest

/-- How often names are asked for under some tags. -/
def countAsks (tags : Json → Bool) (deeds : List (Embedding × Deed)) : Nat :=
  (deeds.filterMap (·.2.asks?)).countP (tags ·.2)

end Deed

section
variable {supplied : Embedding → Prop} {id : RecordId} {tags : Json → Bool} {asked : Nat}
  {claimed? : Option (List String)} {ledger : Ledger} {w : World}

/-- One more question is answered like all others, now or later. -/
theorem Balanced.ask (balanced : Balanced supplied id asked claimed? ledger) :
    Balanced supplied id (asked + 1) claimed? ledger.ask := by
  cases balanced with
  | unsettled past unclaimed => exact .unsettled past unclaimed
  | @settled names past succeeded first claimed =>
    show Balanced supplied id (asked + 1) claimed?
      { progress := .known names, told := List.replicate asked names ++ [names], succeeded, past }
    rw [← List.replicate_succ']
    exact .settled succeeded first claimed

/-- Whatever is done, all stays in order, and questions under the tags are accounted for. -/
theorem Deed.meets_act (deed : Deed) {embedding : Embedding} (isSupplied : supplied embedding)
    (depth : Nat) (own : ∀ ask ∈ deed.asks?, tags ask.2 = true → ask.1 = id)
    (balance : w.InBalance supplied id tags asked claimed?) :
    Action.Meets (fun _ => True) (deed.act embedding depth)
      (fun _ => InBalance supplied id tags (asked + deed.asks?.toList.countP (tags ·.2)) claimed?)
      w := by
  have lasting :
      Engine.Lasting embedding (fun _ => True) (InBalance supplied id tags asked claimed?) :=
    Engine.lasting_inBalance isSupplied
  have sustains := lasting.ofDepth depth
  cases deed with
  | executes realm other =>
    exact (Action.meets_discard _).mpr (Engine.upholds_executeInWalk_inBalance isSupplied
      sustains.upholds realm other w balance)
  | does operation =>
    by_cases asks : ∃ other tag, operation = .askNames other tag ∧ tags tag = true
    · obtain ⟨other, tag, rfl, tagged⟩ := asks
      obtain rfl : other = id := own (other, tag) rfl tagged
      obtain ⟨ledger, account, balanced⟩ := balance
      have counted : (Deed.does (.askNames other tag)).asks?.toList.countP (tags ·.2) = 1 := by
        simp [Deed.asks?, tagged]
      rw [counted]
      exact (Action.meets_discard _).mpr
        ((account.meets_askNames tagged _).mono fun _ _ account => ⟨_, account, balanced.ask⟩)
    · simp only [not_exists, not_and, Bool.not_eq_true] at asks
      have counted : (Deed.does operation).asks?.toList.countP (tags ·.2) = 0 := by
        cases operation with
        | askNames other tag => simp [Deed.asks?, asks other tag rfl]
        | _ => rfl
      rw [counted]
      refine Setup.upholds_perform lasting.toBorne (sustains.walk lasting) sustains.upholds
        operation.staysWithin_all (fun _ _ => trivial) (fun other tag is => ?_) w balance
      have apart : tags (Watcher.report tag).tag = false := asks other tag is
      exact (keeps_bypasses fun _ => Account.upholds_askNames _ other apart).upholds
        (fun _ _ bypasses balance => balance.carry bypasses) fun _ _ => trivial

theorem Deed.meets_actEach (depth : Nat) {deeds : List (Embedding × Deed)}
    (supplies : ∀ deed ∈ deeds, supplied deed.1)
    (own : ∀ deed ∈ deeds, ∀ ask ∈ deed.2.asks?, tags ask.2 = true → ask.1 = id)
    (balance : w.InBalance supplied id tags asked claimed?) :
    Action.Meets (fun _ => True) (actEach depth deeds)
      (fun _ => InBalance supplied id tags (asked + countAsks tags deeds) claimed?) w := by
  induction deeds generalizing asked w with
  | nil => exact balance
  | cons deed rest ih =>
    rw [List.forall_mem_cons] at supplies own
    have counted : countAsks tags (deed :: rest) =
        deed.2.asks?.toList.countP (tags ·.2) + countAsks tags rest := by
      unfold countAsks
      cases h : deed.2.asks? with
      | none => simp [h]
      | some ask => simp [h, List.countP_cons, Nat.add_comm]
    rw [counted, ← Nat.add_assoc]
    unfold actEach
    rw [Action.meets_bind]
    exact (deed.2.meets_act supplies.1 depth own.1 balance).mono fun _ _ => ih supplies.2 own.2

/-- Nobody has asked under some tags yet, and only one module will be asked under them. -/
structure ReservedFor (id : RecordId) (tags : Json → Bool) (w : World)
    (deeds : List (Embedding × Deed)) : Prop where
  nobody : ∀ other, w.waiting tags other = []
  untold : w.told tags = []
  own : ∀ deed ∈ deeds, ∀ ask ∈ deed.2.asks?, tags ask.2 = true → ask.1 = id

/-- No tag at all is reserved for any module. -/
theorem reservedFor_none (id : RecordId) (w : World) (deeds : List (Embedding × Deed)) :
    ReservedFor id (fun _ => false) w deeds where
  nobody _ := List.filter_eq_nil_iff.mpr (by simp)
  untold := List.filterMap_eq_nil_iff.mpr fun event _ => by cases event <;> rfl
  own _ _ _ _ tagged := nomatch tagged

namespace FirstSuccess
variable {names : List String} {past : List Event} (first : FirstSuccess supplied id names past)
include first

theorem mono {supplied' : Embedding → Prop}
    (more : ∀ embedding, supplied embedding → supplied' embedding) :
    FirstSuccess supplied' id names past := by
  cases first with
  | intro isSupplied found present opens calls unknown holds usable executes known first =>
    exact .intro (more _ isSupplied) found present opens calls unknown holds usable executes known
      first

theorem successes_ne_nil (before : past <+: w.journal.toList) : w.successes id ≠ [] := by
  obtain ⟨rest, journal⟩ := before
  cases first
  simp [World.successes, ← journal, Event.success?]

end FirstSuccess

/-- All is in order after whatever is done from where nobody knows the names of a module. -/
theorem inBalance_after_actEach {w₀ : World} {module : WrapperModule}
    (found : w₀.record id = .wrapper module) (unknown : module.names.progress = .unknown)
    (unended : w₀.successes id = []) {depth : Nat} {deeds : List (Embedding × Deed)}
    (did : Deed.actEach depth deeds w₀ = .ok () w) (reserved : ReservedFor id tags w₀ deeds) :
    w.InBalance (· ∈ deeds.map Prod.fst) id tags (Deed.countAsks tags deeds) none := by
  have start : Account id tags {} w₀ := {
    found := ⟨module, found, unknown⟩
    waiting := by rw [reserved.nobody id]; rfl
    reports := by simp [reserved.nobody id]
    elsewhere := fun other _ => reserved.nobody other
    told := reserved.untold
    succeeded := unended
    past := List.nil_prefix }
  have balance : w₀.InBalance (· ∈ deeds.map Prod.fst) id tags 0 none :=
    ⟨_, start, .unsettled [] rfl⟩
  have meets := Deed.meets_actEach depth (fun _ => List.mem_map_of_mem) reserved.own balance
  rwa [Action.Meets, did, Nat.zero_add] at meets

/-- Claimed names stay known whatever is done later. -/
theorem knownNames?_after_actEach {names : List String}
    (balance : w.InBalance (fun _ => True) id (fun _ => false) asked (some names)) {depth : Nat}
    {deeds : List (Embedding × Deed)} {w' : World}
    (did : Deed.actEach depth deeds w = .ok () w') : w'.knownNames? id = some names := by
  have meets := Deed.meets_actEach depth (fun _ _ => trivial) (reservedFor_none id w deeds).own
    balance
  rw [Action.Meets, did] at meets
  obtain ⟨ledger, account, balanced⟩ := meets
  cases balanced with
  | unsettled _ unclaimed => cases unclaimed
  | settled _ _ claimed =>
    rw [claimed names rfl]
    exact account.knownNames?

end

/-- The names of a wrapper-style module become known exactly when one of its executions, in whatever
realm, is the first to end well, however many have failed before; they are the keys of what that one
exported in the end, and stay so whatever is done later. Nobody is told anything before; after that
everyone who has asked for the names was told these, once for each time. -/
theorem names_come_from_first_success {w₀ w : World} {id : RecordId} {module : WrapperModule}
    (found : w₀.record id = .wrapper module) (unknown : module.names.progress = .unknown)
    (unended : w₀.successes id = []) {depth : Nat} {deeds : List (Embedding × Deed)}
    (did : Deed.actEach depth deeds w₀ = .ok () w) :
    (w.knownNames? id = none ∧ w.successes id = [] ∧
      ∀ tags, ReservedFor id tags w₀ deeds → w.told tags = []) ∨
    ∃ names past, w.knownNames? id = some names ∧ w.successes id ≠ [] ∧
      FirstSuccess (· ∈ deeds.map Prod.fst) id names past ∧ past <+: w.journal.toList ∧
      (∀ tags, ReservedFor id tags w₀ deeds →
        w.told tags = List.replicate (Deed.countAsks tags deeds) names) ∧
      ∀ depth later w', Deed.actEach depth later w = .ok () w' →
        w'.knownNames? id = some names := by
  have inBalance {tags : Json → Bool} (reserved : ReservedFor id tags w₀ deeds) :
      w.InBalance (· ∈ deeds.map Prod.fst) id tags (Deed.countAsks tags deeds) none :=
    inBalance_after_actEach found unknown unended did reserved
  obtain ⟨ledger, account, balanced⟩ := inBalance (reservedFor_none id w₀ deeds)
  have known := account.knownNames?
  cases balanced with
  | unsettled past =>
    refine .inl ⟨known, account.succeeded, fun tags reserved => ?_⟩
    obtain ⟨_, account', balanced'⟩ := inBalance reserved
    cases balanced' with
    | unsettled => exact account'.told
    | settled => cases known.symm.trans account'.knownNames?
  | @settled names past succeeded first =>
    refine .inr ⟨names, past, known, first.successes_ne_nil account.past, first, account.past,
      fun tags reserved => ?_, fun depth later w' => ?_⟩
    · obtain ⟨_, account', balanced'⟩ := inBalance reserved
      cases balanced' with
      | unsettled => cases known.symm.trans account'.knownNames?
      | settled =>
        obtain rfl := Option.some.inj (known.symm.trans account'.knownNames?)
        exact account'.told
    · have claim : ∀ claim ∈ some names, claim = names := by simp
      exact knownNames?_after_actEach
        ⟨_, account, .settled succeeded (first.mono fun _ _ => trivial) claim⟩

namespace World

/-- A wrapper-style script that exports `b` and then, only if it is not in the first worker, `a`; in
the first worker it throws. -/
def flakyScript : WrapperModule where
  location := .fileUrl "" ['/', 'a']
  program := .wrapping fun
    | .object exports :: _ =>
      .setProperty exports "b" .null <| .currentRealm fun realm =>
        if realm = .worker 0 then .raise { value := .null }
        else .setProperty exports "a" .null (.give .undefined)
    | _ => .give .undefined

def flaky : World := { records := #[.wrapper flakyScript] }

/-- Its names are asked for before and after it fails, and after it has succeeded in another worker,
where it is executed once more then. -/
def attempts : List (Embedding × Deed) :=
  [.does (.askNames ⟨0⟩ .null), .does (.evaluate (.worker 0) ⟨0⟩), .does (.askNames ⟨0⟩ .null),
    .does (.evaluate (.worker 1) ⟨0⟩), .does (.askNames ⟨0⟩ .null),
    .executes (.worker 1) ⟨0⟩].map (.bare, ·)

end World

/-- The script fails in the first worker and succeeds in the second one, and all three questions are
answered with the names from there. -/
theorem names_come_from_second_worker :
    ∃ w past, Deed.actEach 5 attempts flaky = .ok () w ∧ w.knownNames? ⟨0⟩ = some ["b", "a"] ∧
      FirstSuccess (· ∈ attempts.map Prod.fst) ⟨0⟩ ["b", "a"] past ∧ past <+: w.journal.toList ∧
      w.told (fun _ => true) = List.replicate 3 ["b", "a"] := by
  have computed : (Deed.actEach 5 attempts).ends flaky
      (fun _ w => w.knownNames? ⟨0⟩ = some ["b", "a"]) = true := by cbv
  obtain ⟨_, w, did, known⟩ := Action.exists_of_ends computed
  replace known : w.knownNames? ⟨0⟩ = some ["b", "a"] := by simpa using known
  have reserved : ReservedFor ⟨0⟩ (fun _ => true) flaky attempts := {
    nobody := fun other => by
      obtain ⟨index⟩ := other
      cases index <;> rfl
    untold := rfl
    own := by simp [attempts, Deed.asks?] }
  have found : flaky.record ⟨0⟩ = .wrapper flakyScript := rfl
  rcases names_come_from_first_success found rfl rfl did with
    ⟨unknown, _⟩ | ⟨names, past, known', _, first, before, told, _⟩
  · cases known.symm.trans unknown
  · obtain rfl := Option.some.inj (known.symm.trans known')
    exact ⟨w, past, did, known, first, before, told _ reserved⟩

end ModuleGraph
