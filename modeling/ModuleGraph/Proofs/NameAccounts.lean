import ModuleGraph.Proofs.Beside

/-!
Accounts of exported names. For one wrapper-style module and some tags it is accounted for how far
the names of the module are known, how many wait for them under these tags, what was passed on under
them, and which executions of the module ended well. All that goes on besides leaves such an account
as it is; only a question to the module itself, the publication of its names and the end of an
execution change it.
-/
namespace ModuleGraph
open World Engine

/-- Those who wait for the names of a record. -/
def Record.waiters (record : Record) : List Watcher := (record.memo?.map NameMemo.waiters).getD []

/-- The names that an event passes on under some tags. -/
def Event.told? (tags : Json → Bool) : Event → Option (List String)
  | .named tag names => if tags tag then some names else none
  | _ => none

/-- The realm in which an execution of a module ended well, if that is what an event says. -/
def Event.success? (id : RecordId) : Event → Option RealmId
  | .ended realm other none => if other = id then some realm else none
  | _ => none

/-- Whether an event says neither that names were passed on under some tags nor that an execution of
a module ended well. -/
structure Event.IsForeign (id : RecordId) (tags : Json → Bool) (event : Event) : Prop where
  untold : event.told? tags = none
  unended : event.success? id = none

section
variable {event : Event} {tags : Json → Bool} {id : RecordId}

theorem Event.isForeign_of_spoken (spoken : event.isSpoken = true) : event.IsForeign id tags := by
  cases event <;> first | exact ⟨rfl, rfl⟩ | cases spoken

theorem Event.isForeign_of_inquiry (inquiry : event.isInquiry = true) :
    event.IsForeign id tags := by
  cases event <;> first | exact ⟨rfl, rfl⟩ | cases inquiry

theorem Event.isForeign_of_steering (steers : event.isSteering = true) :
    event.IsForeign id tags := by
  cases event <;> first | exact ⟨rfl, rfl⟩ | cases steers

end

/-- To begin to compute the names sends nobody away. -/
theorem NameMemo.waiters_of_begin? {ω : Type} {memo begun : NameMemo ω}
    (begins : memo.begin? = some begun) : begun.waiters = memo.waiters := by
  unfold NameMemo.begin? at begins
  split at begins
  · exact Option.some.inj begins ▸ rfl
  · cases begins

namespace Record
variable {record : Record} {memo : NameMemo Watcher}

theorem waiters_of_memo? (found : record.memo? = some memo) : record.waiters = memo.waiters := by
  rw [waiters, found]
  rfl

theorem memo?_withMemo (found : record.memo? = some memo) (other : NameMemo Watcher) :
    (record.withMemo other).memo? = some other := by
  cases record <;> first | rfl | cases found

end Record

namespace World
variable {w w' : World} {id other : RecordId} {tags : Json → Bool} {memo : NameMemo Watcher}

/-- Those who wait for the names of a record under some tags. -/
def waiting (w : World) (tags : Json → Bool) (id : RecordId) : List Watcher :=
  (w.record id).waiters.filter (tags ·.tag)

/-- What was passed on under some tags so far. -/
def told (w : World) (tags : Json → Bool) : List (List String) :=
  w.journal.toList.filterMap (Event.told? tags)

/-- The realms in which executions of a module ended well so far, one for each execution. -/
def successes (w : World) (id : RecordId) : List RealmId :=
  w.journal.toList.filterMap (Event.success? id)

theorem told_write (w : World) (tags : Json → Bool) (event : Event) :
    (w.write event).told tags = w.told tags ++ (event.told? tags).toList := by
  cases h : event.told? tags <;> simp [told, write, h]

theorem successes_write (w : World) (id : RecordId) (event : Event) :
    (w.write event).successes id = w.successes id ++ (event.success? id).toList := by
  cases h : event.success? id <;> simp [successes, write, h]

theorem hasRecord_of_memo? (found : (w.record id).memo? = some memo) : w.hasRecord id := by
  by_contra absent
  rw [record_of_not_hasRecord absent] at found
  cases found

/-- Another memo only changes who waits for the names of its own record. -/
theorem waiting_setMemo {old : NameMemo Watcher} (found : (w.record other).memo? = some old)
    (memo : NameMemo Watcher) (x : RecordId) :
    (w.setRecord other ((w.record other).withMemo memo)).waiting tags x =
      if x = other then memo.waiters.filter (tags ·.tag) else w.waiting tags x := by
  unfold waiting
  rw [record_setRecord]
  by_cases same : x = other
  · rw [if_pos ⟨same, hasRecord_of_memo? found⟩, if_pos same,
      Record.waiters_of_memo? (Record.memo?_withMemo found memo)]
  · rw [if_neg fun h => same h.1, if_neg same]

end World

/-- Nobody waits yet for the names of a record that is made. -/
theorem Embedding.Makes.waiters {embedding : Embedding} {place : Place} {record : Record}
    (makes : embedding.Makes place record) : record.waiters = [] := by
  cases makes <;> rfl

/-! ### Accounts -/

/-- What is to be accounted for: how far the names of a module are known, how many wait for them,
what they were told, the realms in which executions of the module ended well, and events that there
were before others. -/
structure Ledger where
  progress : NameProgress := .unknown
  waiting : Nat := 0
  told : List (List String) := []
  succeeded : List RealmId := []
  past : List Event := []

/-- Who asks for names that are known is told them, and otherwise waits. -/
def Ledger.ask (ledger : Ledger) : Ledger :=
  match ledger.progress with
  | .known names => { ledger with told := ledger.told ++ [names] }
  | _ => { ledger with waiting := ledger.waiting + 1 }

/-- The names become known unless they are, and all who wait are told them. -/
def Ledger.publish (ledger : Ledger) (names : List String) : Ledger :=
  match ledger.progress with
  | .unknown =>
    { ledger with
      progress := .known names
      waiting := 0
      told := ledger.told ++ List.replicate ledger.waiting names }
  | _ => ledger

/-- The world agrees with what is accounted for a wrapper-style module. Under the tags nobody waits
but for the names of this module, and to report them. -/
structure Account (id : RecordId) (tags : Json → Bool) (ledger : Ledger) (w : World) : Prop where
  found : ∃ module, w.record id = .wrapper module ∧ module.names.progress = ledger.progress
  waiting : (w.waiting tags id).length = ledger.waiting
  reports : ∀ watcher ∈ w.waiting tags id, ∃ tag, watcher = .report tag
  elsewhere : ∀ other, other ≠ id → w.waiting tags other = []
  told : w.told tags = ledger.told
  succeeded : w.successes id = ledger.succeeded
  past : ledger.past <+: w.journal.toList

namespace Account
variable {id other : RecordId} {tags : Json → Bool} {ledger : Ledger} {w w' : World} {event : Event}
  {watcher : Watcher} {names : List String} {memo : NameMemo Watcher}

/-- An account stays right where the module's names and those who wait stay the same, and nothing of
what is accounted for is written down. -/
theorem carry (account : Account id tags ledger w)
    (own : ∀ module, w.record id = .wrapper module →
      ∃ module', w'.record id = .wrapper module' ∧ module'.names.progress = module.names.progress)
    (waiting : ∀ x, w'.waiting tags x = w.waiting tags x)
    (journal : ∃ events, w'.journal.toList = w.journal.toList ++ events ∧
      ∀ event ∈ events, event.IsForeign id tags) : Account id tags ledger w' := by
  obtain ⟨module, found, progress⟩ := account.found
  obtain ⟨module', found', progress'⟩ := own module found
  obtain ⟨events, grown, foreign⟩ := journal
  have untold : events.filterMap (Event.told? tags) = [] :=
    List.filterMap_eq_nil_iff.mpr fun event member => (foreign event member).untold
  have unended : events.filterMap (Event.success? id) = [] :=
    List.filterMap_eq_nil_iff.mpr fun event member => (foreign event member).unended
  refine ⟨⟨module', found', progress'.trans progress⟩, ?_, ?_, fun other apart => ?_, ?_, ?_, ?_⟩
  · rw [waiting, account.waiting]
  · rw [waiting]
    exact account.reports
  · rw [waiting, account.elsewhere other apart]
  · rw [World.told, grown, List.filterMap_append, untold, List.append_nil]
    exact account.told
  · rw [successes, grown, List.filterMap_append, unended, List.append_nil]
    exact account.succeeded
  · rw [grown]
    exact account.past.trans (List.prefix_append _ _)

/-- The same where no record changes. -/
theorem carry_of_records (account : Account id tags ledger w) (records : w'.records = w.records)
    (journal : ∃ events, w'.journal.toList = w.journal.toList ++ events ∧
      ∀ event ∈ events, event.IsForeign id tags) : Account id tags ledger w' := by
  have record (x : RecordId) : w'.record x = w.record x := by simp only [World.record, records]
  exact account.carry (fun module found => ⟨module, (record id).trans found, rfl⟩)
    (fun x => by rw [World.waiting, record, World.waiting]) journal

theorem of_records (account : Account id tags ledger w) (records : w'.records = w.records)
    (journal : w'.journal = w.journal) : Account id tags ledger w' :=
  account.carry_of_records records ⟨[], by simp [journal]⟩

theorem write (account : Account id tags ledger w) (foreign : event.IsForeign id tags) :
    Account id tags ledger (w.write event) :=
  account.carry_of_records rfl ⟨[event], by simp [World.write], by simpa using foreign⟩

/-- A static module may be replaced by another one. -/
theorem setStatic (account : Account id tags ledger w) {old new : StaticModule}
    (found : w.record other = .static old) :
    Account id tags ledger (w.setRecord other (.static new)) := by
  refine account.carry (fun module isWrapper => ⟨module, ?_, rfl⟩) (fun x => ?_)
    ⟨[], by simp [setRecord]⟩
  · rw [record_setRecord, if_neg, isWrapper]
    rintro ⟨rfl, -⟩
    rw [found] at isWrapper
    cases isWrapper
  · unfold World.waiting
    rw [record_setRecord]
    split
    · rename_i here
      rw [here.1, found]
      rfl
    · rfl

/-- One more record changes nothing if nobody waits for its names. -/
theorem addRecord (account : Account id tags ledger w) {record : Record}
    (alone : record.waiters = []) : Account id tags ledger (w.addRecord record).2 := by
  refine account.carry (fun module found => ⟨module, ?_, rfl⟩) (fun x => ?_)
    ⟨[], by simp [World.addRecord]⟩
  · rw [record_addRecord_of_hasRecord w record, found]
    exact hasRecord_of_memo? (by rw [found]; rfl)
  · unfold World.waiting
    rw [record_addRecord]
    split
    · rename_i new
      have absent : w.record x = default :=
        record_of_not_hasRecord (by simp [new, World.addRecord, hasRecord])
      rw [alone, absent]
      rfl
    · rfl

/-- Where somebody waits under another tag does not matter. -/
theorem enqueue (account : Account id tags ledger w) (found : (w.record other).memo? = some memo)
    (apart : tags watcher.tag = false) :
    Account id tags ledger
      (w.setRecord other ((w.record other).withMemo (memo.enqueue watcher))) := by
  refine account.carry (fun module isWrapper => ?_) (fun x => ?_) ⟨[], by simp [setRecord]⟩
  · rw [record_setRecord]
    split
    · rename_i here
      rw [← here.1, isWrapper] at found ⊢
      obtain rfl : module.names = memo := Option.some.inj found
      exact ⟨_, rfl, rfl⟩
    · exact ⟨module, isWrapper, rfl⟩
  · rw [waiting_setMemo found]
    split
    · rename_i here
      rw [World.waiting, here, Record.waiters_of_memo? found]
      simp [NameMemo.enqueue, apart]
    · rfl

/-- Others may learn their names, and nobody waits for these any more. -/
theorem publish (account : Account id tags ledger w) (found : (w.record other).memo? = some memo)
    (apart : other ≠ id) (names : List String) :
    Account id tags ledger
      (w.setRecord other ((w.record other).withMemo (memo.publish names).2)) := by
  refine account.carry (fun module isWrapper => ⟨module, ?_, rfl⟩) (fun x => ?_)
    ⟨[], by simp [setRecord]⟩
  · rw [record_setRecord, if_neg fun h => apart h.1.symm, isWrapper]
  · rw [waiting_setMemo found]
    split
    · rename_i here
      rw [here, account.elsewhere other apart]
      rfl
    · rfl

/-! ### What leaves accounts alone -/

theorem stroke (account : Account id tags ledger w) (stroke : Stroke w w') :
    Account id tags ledger w' := by
  cases stroke with
  | mark mark =>
    cases mark with
    | write event spoken => exact account.write (Event.isForeign_of_spoken spoken)
    | _ => exact account.of_records rfl rfl
  | _ => exact account.of_records rfl rfl

theorem turn (account : Account id tags ledger w) (turn : Turn w w') :
    Account id tags ledger w' := by
  cases turn with
  | arrange => exact account.of_records rfl rfl
  | write event steers => exact account.write (Event.isForeign_of_steering steers)

theorem turns (account : Account id tags ledger w) (turns : Turns w w') :
    Account id tags ledger w' := by
  induction turns with
  | refl => exact account
  | tail _ turn ih => exact ih.turn turn

theorem addInstance (account : Account id tags ledger w) (realm : RealmId) (other : RecordId)
    (content : Instance) : Account id tags ledger (w.addInstance realm other content) :=
  have added : Account id tags ledger (w.modifyRealm realm (·.addInstance other content)) :=
    account.of_records rfl rfl
  added.write (Event.isForeign_of_steering rfl)

section
variable {embedding : Embedding} {place : Place} {outcome : Outcome RecordId} {refused : String}

theorem discovered (account : Account id tags ledger w)
    (discovered : Discovered embedding place w outcome w') : Account id tags ledger w' := by
  have asked {events : List Event} {w' : World} (inquires : embedding.Inquires place events)
      (asked : Asked events w w') : Account id tags ledger w' :=
    account.carry_of_records asked.records ⟨events, asked.journal, fun event member =>
      Event.isForeign_of_inquiry
        (List.filter_eq_self.mp inquires.inquiry.filter_isInquiry event member)⟩
  cases discovered with
  | made inquires inquired makes =>
    have made := (asked inquires inquired).addRecord makes.waiters
    cases place with
    | host => exact made
    | location => exact made.of_records rfl rfl
  | failed inquires inquired => exact asked inquires inquired

theorem lookedUp (account : Account id tags ledger w)
    (lookedUp : LookedUp embedding place refused w outcome w') : Account id tags ledger w' := by
  cases lookedUp with
  | kept | refused => exact account
  | discovered _ _ discovered => exact (account.discovered discovered).of_records rfl rfl

end

/-! ### Questions and answers -/

section
variable {tag : Json} {watchers : List Watcher} {ask : RecordId → Watcher → Action Bool}

/-- What is passed on under one of the tags is accounted for. -/
theorem tell (account : Account id tags ledger w) (tagged : tags tag = true)
    (names : List String) :
    Account id tags { ledger with told := ledger.told ++ [names] }
      (w.write (.named tag names)) where
  found := account.found
  waiting := account.waiting
  reports := account.reports
  elsewhere := account.elsewhere
  told := by simp [told_write, account.told, Event.told?, tagged]
  succeeded := by simpa [successes_write, Event.success?] using account.succeeded
  past := by simpa [World.write] using account.past.trans (List.prefix_append _ _)

/-- A watcher under another tag is told. -/
theorem upholds_tell (asks : ∀ other watcher, tags watcher.tag = false →
      Action.Upholds (Account id tags ledger) (Account id tags ledger) (ask other watcher))
    (apart : tags watcher.tag = false) (names : List String) :
    Action.Upholds (Account id tags ledger) (Account id tags ledger)
      (Action.tell ask watcher names) := by
  cases watcher with
  | report tag =>
    exact fun w account => account.write ⟨if_neg (by simpa [Watcher.tag] using apart), rfl⟩
  | reask record andThen => exact (asks record andThen apart).map _

/-- Questions under other tags leave the account alone, whichever module is asked. -/
theorem upholds_askNames (depth : Nat) (other : RecordId) (apart : tags watcher.tag = false) :
    Action.Upholds (Account id tags ledger) (Account id tags ledger)
      (Action.askNames depth other watcher) := by
  induction depth generalizing other watcher with
  | zero => exact .tooDeep fun _ h => h
  | succ depth ih =>
    intro w account
    have told (names : List String) : Action.Upholds (Account id tags ledger)
        (Account id tags ledger) (do
          Action.tell (Action.askNames depth) watcher names
          pure true) :=
      .bind (upholds_tell (fun other _ apart => ih other apart) apart names) fun _ => .pure _
    unfold Action.askNames
    rw [Action.meets_bind, Action.meets_get]
    dsimp only
    split
    · split
      · exact told _ w account
      · rename_i star _
        have asked : Action.Upholds (Account id tags ledger) (Account id tags ledger)
            (Action.askNames depth star (.reask other watcher)) := ih star apart
        exact (Action.Upholds.bind (asked.map _) fun _ => .pure _) w account
    · split
      · exact told _ w account
      · exact account
    · split
      · rename_i memo found
        split
        · exact told _ w account
        · exact account.enqueue found apart
      · exact account

/-- Watchers are told one after the other; what those under the tags are told is accounted for. -/
theorem meets_tellAll (asks : ∀ ledger other watcher, tags watcher.tag = false →
      Action.Upholds (Account id tags ledger) (Account id tags ledger) (ask other watcher))
    (reports : ∀ watcher ∈ watchers.filter (tags ·.tag), ∃ tag, watcher = .report tag)
    (account : Account id tags ledger w) (names : List String) :
    Action.Meets (fun _ => True) (Action.tellAll ask names watchers)
      (fun _ => Account id tags { ledger with
        told := ledger.told ++ List.replicate (watchers.filter (tags ·.tag)).length names }) w := by
  induction watchers generalizing ledger w with
  | nil => simpa [Action.tellAll] using account
  | cons watcher rest ih =>
    unfold Action.tellAll
    rw [Action.meets_bind]
    by_cases tagged : tags watcher.tag = true
    · rw [List.filter_cons_of_pos (by simpa using tagged), List.forall_mem_cons] at reports
      rw [List.filter_cons_of_pos (by simpa using tagged)]
      obtain ⟨⟨tag, rfl⟩, reports⟩ := reports
      refine (ih reports (account.tell tagged names)).mono fun _ _ told => ?_
      simpa [List.replicate_succ] using told
    · rw [List.filter_cons_of_neg (by simpa using tagged)] at reports ⊢
      have apart : tags watcher.tag = false := by simpa using tagged
      exact (upholds_tell (asks ledger) apart names w account).imp (fun _ _ => trivial)
        fun _ _ account => ih reports account

/-- Watchers under other tags are told. -/
theorem upholds_tellAll (asks : ∀ other watcher, tags watcher.tag = false →
      Action.Upholds (Account id tags ledger) (Account id tags ledger) (ask other watcher))
    (apart : ∀ watcher ∈ watchers, tags watcher.tag = false) (names : List String) :
    Action.Upholds (Account id tags ledger) (Account id tags ledger)
      (Action.tellAll ask names watchers) := by
  induction watchers with
  | nil => exact .pure _
  | cons watcher rest ih =>
    obtain ⟨here, later⟩ := List.forall_mem_cons.mp apart
    exact .bind (upholds_tell asks here names) fun _ => ih later

/-- Other modules may learn their names. -/
theorem upholds_publishNames (depth : Nat) (apart : other ≠ id) (names : List String) :
    Action.Upholds (Account id tags ledger) (Account id tags ledger)
      (Action.publishNames depth other names) := by
  intro w account
  unfold Action.publishNames
  rw [Action.meets_bind, Action.meets_get]
  dsimp only
  split
  · exact account
  · rename_i memo begun
    obtain ⟨old, found, begins⟩ := Option.bind_eq_some_iff.mp begun
    have others : ∀ watcher ∈ memo.waiters, tags watcher.tag = false := by
      have nobody := account.elsewhere other apart
      rw [World.waiting, Record.waiters_of_memo? found, List.filter_eq_nil_iff] at nobody
      rw [NameMemo.waiters_of_begin? begins]
      simpa using nobody
    rw [Action.meets_bind, Action.meets_set]
    exact upholds_tellAll (fun x _ => upholds_askNames depth x) others names _
      (account.publish found apart names)

/-! ### What accounts are about -/

/-- The module's memo is replaced. -/
theorem setMemo (account : Account id tags ledger w) {module : WrapperModule}
    (found : w.record id = .wrapper module) (memo : NameMemo Watcher)
    (reports : ∀ watcher ∈ memo.waiters, tags watcher.tag = true → ∃ tag, watcher = .report tag) :
    Account id tags { ledger with
        progress := memo.progress
        waiting := (memo.waiters.filter (tags ·.tag)).length }
      (w.setRecord id ((w.record id).withMemo memo)) := by
  have memo? : (w.record id).memo? = some module.names := by rw [found]; rfl
  have waiting (x : RecordId) :
      (w.setRecord id ((w.record id).withMemo memo)).waiting tags x = _ :=
    waiting_setMemo memo? memo x
  refine ⟨⟨{ module with names := memo }, ?_, rfl⟩, ?_, fun watcher member => ?_,
    fun other apart => ?_, account.told, account.succeeded, account.past⟩
  · rw [record_setRecord, if_pos ⟨rfl, hasRecord_of_memo? memo?⟩, found]
    rfl
  · rw [waiting, if_pos rfl]
  · rw [waiting, if_pos rfl, List.mem_filter] at member
    exact reports watcher member.1 member.2
  · rw [waiting, if_neg apart, account.elsewhere other apart]

/-- Those in the module's queue that are accounted for. -/
theorem queue (account : Account id tags ledger w) {module : WrapperModule}
    (found : w.record id = .wrapper module) :
    (module.names.waiters.filter (tags ·.tag)).length = ledger.waiting ∧
      ∀ watcher ∈ module.names.waiters.filter (tags ·.tag), ∃ tag, watcher = .report tag := by
  have same : w.waiting tags id = module.names.waiters.filter (tags ·.tag) := by
    rw [World.waiting, found]
    rfl
  exact ⟨same ▸ account.waiting, same ▸ account.reports⟩

/-- One more waits in the module's queue. -/
theorem wait (account : Account id tags ledger w) {module : WrapperModule}
    (found : w.record id = .wrapper module) (tagged : tags tag = true) :
    Account id tags { ledger with waiting := ledger.waiting + 1 }
      (w.setRecord id ((w.record id).withMemo (module.names.enqueue (.report tag)))) := by
  obtain ⟨waiting, reports⟩ := account.queue found
  have progress : (module.names.enqueue (.report tag)).progress = ledger.progress := by
    obtain ⟨module', found', progress⟩ := account.found
    obtain rfl : module' = module := Record.wrapper.inj (found'.symm.trans found)
    exact progress
  have more : ((module.names.enqueue (.report tag)).waiters.filter (tags ·.tag)).length =
      ledger.waiting + 1 := by
    simp [NameMemo.enqueue, Watcher.tag, tagged, waiting]
  rw [← more, ← progress]
  refine account.setMemo found _ fun watcher member tagged => ?_
  rcases List.mem_append.mp member with old | new
  · exact reports watcher (List.mem_filter.mpr ⟨old, tagged⟩)
  · exact ⟨tag, List.mem_singleton.mp new⟩

/-- Who asks the module itself is told or waits. -/
theorem meets_askNames (account : Account id tags ledger w) (tagged : tags tag = true)
    (depth : Nat) :
    Action.Meets (fun _ => True) (Action.askNames depth id (.report tag))
      (fun _ => Account id tags ledger.ask) w := by
  obtain ⟨module, found, progress⟩ := account.found
  cases depth with
  | zero => trivial
  | succ depth =>
    unfold Action.askNames
    rw [Action.meets_bind, Action.meets_get, found]
    dsimp only [Record.memo?]
    split
    · rename_i names known
      have same : ledger.progress = .known names := progress ▸ NameMemo.names?_eq_some.mp known
      have asked : ledger.ask = { ledger with told := ledger.told ++ [names] } := by
        rw [Ledger.ask, same]
      rw [asked]
      exact account.tell tagged names
    · rename_i unknown
      have asked : ledger.ask = { ledger with waiting := ledger.waiting + 1 } := by
        unfold Ledger.ask
        split
        · rename_i known
          rw [NameMemo.names?_eq_some.mpr (progress.trans known)] at unknown
          cases unknown
        · rfl
      rw [asked, ← found]
      exact account.wait found tagged

/-- Names that the module publishes are those that are known from then on, unless others are known
already; all who wait are told. -/
theorem meets_publishNames (account : Account id tags ledger w) (depth : Nat)
    (names : List String) :
    Action.Meets (fun _ => True) (Action.publishNames depth id names)
      (fun _ => Account id tags (ledger.publish names)) w := by
  obtain ⟨module, found, progress⟩ := account.found
  have memo? : (w.record id).memo? = some module.names := by rw [found]; rfl
  unfold Action.publishNames
  rw [Action.meets_bind, Action.meets_get]
  dsimp only
  rw [memo?, Option.bind_some, NameMemo.begin?, progress]
  cases unknown : ledger.progress with
  | unknown =>
    have published := account.setMemo found (module.names.publish names).2
      (by simp [NameMemo.publish])
    obtain ⟨waiting, reports⟩ := account.queue found
    have told := meets_tellAll (fun _ x _ => upholds_askNames depth x) reports published names
    rw [waiting] at told
    rw [Ledger.publish, unknown]
    exact told
  | computing | known =>
    rw [Ledger.publish, unknown]
    exact account

/-- An execution of the module ends well. -/
theorem succeed (account : Account id tags ledger w) (realm : RealmId) {past : List Event}
    (before : past <+: w.journal.toList ++ [.ended realm id none]) :
    Account id tags { ledger with succeeded := ledger.succeeded ++ [realm], past }
      (w.write (.ended realm id none)) where
  found := account.found
  waiting := account.waiting
  reports := account.reports
  elsewhere := account.elsewhere
  told := by simpa [told_write, Event.told?] using account.told
  succeeded := by simp [successes_write, account.succeeded, Event.success?]
  past := by simpa [World.write] using before

theorem knownNames? (account : Account id tags ledger w) :
    w.knownNames? id = ({ progress := ledger.progress } : NameMemo Watcher).names? := by
  obtain ⟨module, found, progress⟩ := account.found
  unfold World.knownNames?
  rw [found]
  show module.names.names? = _
  simp only [NameMemo.names?, progress]

end
end Account
end ModuleGraph
