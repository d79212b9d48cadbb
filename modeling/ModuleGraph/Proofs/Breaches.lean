import ModuleGraph.Proofs.Order

/-!
Errors that would tell of a breach in the order of evaluation. Nothing but evaluation itself and the
instantiation of what was not linked comes up with one. A script refrains from them if it raises
none that it was not given, and a world is clean if all code in it does so and no such error is kept
anywhere; resolution, linking and scripts keep a world clean.
-/
namespace ModuleGraph

/-! ### Errors -/

/-- How the texts of the errors end that tell of a breach. -/
def breachEndings : List String :=
  ["evaluation stack underflow", " modules left on the evaluation stack", " was not instantiated",
    " was instantiated before it was linked", " was not resolved"]

/-- Whether an error tells that the stack of a walk, the modules of a realm or the records of a
graph were not what evaluation takes them for. -/
def ModuleError.IsBreach : ModuleError → Prop
  | .defect text => ∃ ending ∈ breachEndings, ending.toList <:+ text.toList
  | _ => False

/-- The last letters of a text, the very last one first. -/
def lastLetters (text : String) : List Char := text.toList.reverse.take 3

theorem lastLetters_of_suffix {ending text : String} (long : 3 ≤ ending.toList.length)
    (suffix : ending.toList <:+ text.toList) : lastLetters text = lastLetters ending := by
  obtain ⟨start, split⟩ := suffix
  rw [lastLetters, ← split, List.reverse_append, List.take_append_of_le_length (by simpa using long),
    lastLetters]

/-- Three letters tell a text from those of breaches. -/
theorem not_isBreach_of_lastLetters {text : String}
    (differs : ∀ other ∈ breachEndings, lastLetters text ≠ lastLetters other) :
    ¬ (ModuleError.defect text).IsBreach := by
  rintro ⟨other, member, suffix⟩
  have long : ∀ other ∈ breachEndings, 3 ≤ other.toList.length := by decide
  exact differs other member (lastLetters_of_suffix (long other member) suffix)

theorem not_isBreach_defect (start : String) {ending : String} (long : 3 ≤ ending.toList.length)
    (differs : ∀ other ∈ breachEndings, lastLetters ending ≠ lastLetters other) :
    ¬ (ModuleError.defect (start ++ ending)).IsBreach := by
  have same : lastLetters (start ++ ending) = lastLetters ending :=
    lastLetters_of_suffix long (by simp)
  exact not_isBreach_of_lastLetters (by rwa [same])

/-- A host module that gives nothing is no breach. -/
theorem not_isBreach_projected (name : String) {value : Value} (nullish : value.isNullish = true) :
    ¬ (ModuleError.defect ("host module " ++ name ++ " projected to " ++ value.display)).IsBreach := by
  cases value with
  | undefined => exact not_isBreach_defect _ (by decide) (by decide)
  | null => exact not_isBreach_defect _ (by decide) (by decide)
  | _ => cases nullish

theorem not_isBreach_of_canonicalize {config : Config} {referrer : Url} {specifier : String}
    {error : ModuleError} (failed : canonicalize config referrer specifier = .error error) :
    ¬ error.IsBreach := by
  unfold canonicalize at failed
  dsimp only at failed
  repeat' split at failed
  all_goals
    cases failed
    try exact id

/-- An outcome of a script is no breach. -/
def Clears {α : Type} (outcome : Except Exception α) : Prop :=
  ∀ exception, outcome = .error exception → ¬ exception.toError.IsBreach

theorem clears_ok {α : Type} (a : α) : Clears (.ok a) := fun _ same => by cases same

theorem clears_error {α : Type} {exception : Exception} (clear : ¬ exception.toError.IsBreach) :
    Clears (.error exception : Except Exception α) := fun _ same => by
  cases same
  exact clear

/-- An evaluation was not rejected with a breach. -/
def Settlement.Clears (settlement : Settlement) : Prop :=
  ∀ error, settlement = .rejected error → ¬ error.IsBreach

/-! ### Code -/

/-- A script that raises no breach, as long as it gets none from calls, nor from evaluating those
modules that were linked. -/
def Script.Refrains (linked : RecordId → Prop) : Script → Prop
  | .done outcome => Clears outcome
  | .newObject _ next => ∀ ref, (next ref).Refrains linked
  | .inspect _ next => ∀ properties, (next properties).Refrains linked
  | .setProperty _ _ _ next => next.Refrains linked
  | .deleteProperty _ _ next => ∀ had, (next had).Refrains linked
  | .newFunction _ code next =>
    (∀ arguments, (code arguments).Refrains linked) ∧ ∀ ref, (next ref).Refrains linked
  | .call _ _ next => ∀ outcome, Clears outcome → (next outcome).Refrains linked
  | .readBinding _ _ next => ∀ value, (next value).Refrains linked
  | .writeBinding _ _ _ next => ∀ refusal, (∀ exception ∈ refusal, ¬ exception.toError.IsBreach) →
    (next refusal).Refrains linked
  | .isImport _ _ next => ∀ is, (next is).Refrains linked
  | .globalObject next => ∀ ref, (next ref).Refrains linked
  | .currentRealm next => ∀ realm, (next realm).Refrains linked
  | .evaluate record next =>
    ∀ settlement, (linked record → settlement.Clears) → (next settlement).Refrains linked
  | .announce _ next => next.Refrains linked
  | .lock next => next.Refrains linked

section
variable (linked : RecordId → Prop)

def FunctionCode.Refrains : FunctionCode → Prop
  | .script code => ∀ arguments, (code arguments).Refrains linked
  | .require _ => True

def HostModule.Refrains : HostModule → Prop
  | .native exports => (∀ entries ∈ exports.named, ∀ entry ∈ entries, entry.2.Refrains linked) ∧
    ∀ script ∈ exports.default, script.Refrains linked
  | .document _ => True
  | .value script _ => script.Refrains linked

/-- A record that is not of an embedder's own making, whose code raises no breach and which has not
failed to link with one. -/
def Record.Refrains : Record → Prop
  | .static module => (∀ environment, (module.body environment).Refrains linked) ∧
    ∀ error, module.status = .failed error → ¬ error.IsBreach
  | .wrapper module => module.program.Refrains linked
  | .host module => module.content.Refrains linked
  | .custom _ => False

/-- All code that an embedding supplies raises no breach. -/
structure Embedding.Refrains (embedding : Embedding) : Prop where
  hosts : ∀ name content, embedding.hosts.lookup name = some content → content.Refrains linked
  bodies : ∀ source location declarations body,
    (embedding.compile source location).outcome = .ok (.static declarations body) →
      ∀ environment, (body environment).Refrains linked
  programs : ∀ source location program,
    (embedding.compileWrapper source location).outcome = .ok program → program.Refrains linked

end

/-! ### Worlds -/

namespace World
variable {linked : RecordId → Prop} {w w' : World} {realm : RealmId} {id : RecordId}

/-- No code in the world raises a breach, and none is kept. -/
structure Clean (linked : RecordId → Prop) (w : World) : Prop where
  functions : ∀ realm, ∀ code ∈ (w.realm realm).functions, code.Refrains linked
  records : ∀ id, w.hasRecord id → (w.record id).Refrains linked
  kept : ∀ key error, w.cache.get? key = some (.error error) → ¬ error.IsBreach
  slots : ∀ realm id slot, (w.realm realm).slot? id = some slot →
    ∀ error ∈ slot.error, ¬ error.IsBreach

namespace Clean

theorem of_same (clean : w.Clean linked) (realms : w'.realms = w.realms)
    (records : w'.records = w.records) (cache : ∀ key, w'.cache.get? key = w.cache.get? key) :
    w'.Clean linked := by
  have realm (id : RealmId) : w'.realm id = w.realm id := by simp only [World.realm, realms]
  refine ⟨?_, ?_, ?_, ?_⟩
  · simpa only [realm] using clean.functions
  · simpa only [hasRecord, World.record, records] using clean.records
  · simpa only [cache] using clean.kept
  · simpa only [realm] using clean.slots

/-- A realm may change if all its functions spare breaches and slots get no new errors but others.
-/
theorem modifyRealm (clean : w.Clean linked) (realm : RealmId) {change : Realm → Realm}
    (functions : ∀ r : Realm, ∀ code ∈ (change r).functions,
      code ∈ r.functions ∨ code.Refrains linked)
    (slots : ∀ (r : Realm) id slot, (change r).slot? id = some slot → ∀ error ∈ slot.error,
      (∃ before, r.slot? id = some before ∧ before.error = some error) ∨ ¬ error.IsBreach) :
    (w.modifyRealm realm change).Clean linked := by
  refine ⟨fun other code member => ?_, clean.records, clean.kept, fun other id slot found => ?_⟩
  · by_cases same : other = realm
    · subst same
      rw [realm_modifyRealm_same] at member
      exact (functions _ code member).elim (clean.functions other code) fun refrains => refrains
    · rw [realm_modifyRealm_other w same] at member
      exact clean.functions other code member
  · by_cases same : other = realm
    · subst same
      rw [realm_modifyRealm_same] at found
      intro error keeps
      rcases slots _ id slot found error keeps with ⟨before, there, kept⟩ | clear
      · exact clean.slots other id before there error kept
      · exact clear
    · rw [realm_modifyRealm_other w same] at found
      exact clean.slots other id slot found

/-- A realm may change beyond its functions and slots. -/
theorem rearranged (clean : w.Clean linked) (realm : RealmId) {change : Realm → Realm}
    (functions : ∀ r : Realm, (change r).functions = r.functions)
    (slots : ∀ r : Realm, (change r).slots = r.slots) : (w.modifyRealm realm change).Clean linked :=
  clean.modifyRealm realm (fun r code member => .inl (functions r ▸ member))
    fun r id slot found error keeps => .inl ⟨slot, by rwa [Realm.slot?, slots] at found, keeps⟩

theorem pushFunction (clean : w.Clean linked) (realm : RealmId) {code : FunctionCode}
    (refrains : code.Refrains linked) :
    (w.modifyRealm realm fun r => { r with functions := r.functions.push code }).Clean linked := by
  refine clean.modifyRealm realm (fun r other member => ?_) fun r id slot found error keeps =>
    .inl ⟨slot, found, keeps⟩
  rcases Array.mem_push.mp member with before | rfl
  · exact .inl before
  · exact .inr refrains

/-- A slot may change if it gets no breach for an error. -/
theorem modifySlot (clean : w.Clean linked) (realm : RealmId) (id : RecordId)
    {change : Slot → Slot} (errors : ∀ slot, ∀ error ∈ (change slot).error,
      slot.error = some error ∨ ¬ error.IsBreach) :
    (w.modifyRealm realm (·.modifySlot id change)).Clean linked := by
  refine clean.modifyRealm realm (fun r code member => .inl member) fun r other slot found => ?_
  rw [Realm.slot?_modifySlot] at found
  split at found
  · obtain ⟨before, there, rfl⟩ := Option.map_eq_some_iff.mp found
    exact fun error keeps => (errors before error keeps).imp_left fun kept => ⟨before, there, kept⟩
  · exact fun error keeps => .inl ⟨slot, found, keeps⟩

theorem addInstance (clean : w.Clean linked) (realm : RealmId) (id : RecordId)
    (content : Instance) : (w.addInstance realm id content).Clean linked := by
  have added : (w.modifyRealm realm (·.addInstance id content)).Clean linked := by
    refine clean.modifyRealm realm (fun r code member => .inl member) fun r other slot found => ?_
    simp only [Realm.slot?, Realm.addInstance, List.lookup_append, Option.or_eq_some_iff,
      List.lookup_cons, List.lookup_nil] at found
    rcases found with found | ⟨_, found⟩
    · exact fun error keeps => .inl ⟨slot, found, keeps⟩
    · split at found
      · cases found
        exact fun error keeps => by cases keeps
      · cases found
  exact added.of_same rfl rfl fun _ => rfl

theorem setRecord (clean : w.Clean linked) (id : RecordId) {record : Record}
    (refrains : w.hasRecord id → record.Refrains linked) :
    (w.setRecord id record).Clean linked := by
  refine ⟨clean.functions, fun other present => ?_, clean.kept, clean.slots⟩
  rw [record_setRecord]
  split
  · rename_i set
    exact refrains set.2
  · exact clean.records other (by simpa [World.hasRecord, World.setRecord] using present)

theorem addRecord (clean : w.Clean linked) {record : Record} (refrains : record.Refrains linked) :
    (w.addRecord record).2.Clean linked := by
  refine ⟨clean.functions, fun other present => ?_, clean.kept, clean.slots⟩
  by_cases before : w.hasRecord other
  · rw [record_addRecord_of_hasRecord w record before]
    exact clean.records other before
  · have new : other.index = w.records.size := by
      simp only [World.hasRecord, World.addRecord, Array.size_push, decide_eq_true_eq]
        at present before
      omega
    have added : (w.addRecord record).2.record other = record := by
      simp [World.record, World.addRecord, new]
    rwa [added]

theorem keep (clean : w.Clean linked) (key : String) {outcome : Outcome RecordId}
    (clear : ∀ error, outcome = .error error → ¬ error.IsBreach) :
    { w with cache := (w.cache.insert key outcome).2 }.Clean linked := by
  refine ⟨clean.functions, clean.records, fun other error kept => ?_, clean.slots⟩
  rw [Cache.get?_insert] at kept
  split at kept
  · exact clear error (Option.some.inj kept)
  · exact clean.kept other error kept

theorem brush (clean : w.Clean linked) (brush : Brush w w') : w'.Clean linked := by
  cases brush with
  | pushObject realm properties => exact clean.rearranged realm (fun _ => rfl) fun _ => rfl
  | setProperties ref properties => exact clean.rearranged _ (fun _ => rfl) fun _ => rfl
  | setBinding realm index name value => exact clean.rearranged realm (fun _ => rfl) fun _ => rfl
  | setMemo id memo =>
    refine clean.setRecord id fun present => ?_
    have refrains := clean.records id present
    cases found : w.record id <;> rw [found] at refrains <;> exact refrains
  | write event told => exact clean.of_same rfl rfl fun _ => rfl

end Clean
end World

/-! ### Scripts -/

/-- What an invariant needs to be upheld by scripts that spare breaches. -/
structure Tended (linked : RecordId → Prop) (stuck inv : World → Prop) : Prop where
  stop : ∀ w, inv w → stuck w
  brush : ∀ w w', World.Brush w w' → inv w → inv w'
  function : ∀ (w : World) realm (code : FunctionCode), code.Refrains linked → inv w →
    inv (w.modifyRealm realm fun r => { r with functions := r.functions.push code })
  lock : ∀ w, inv w → inv w.lock

theorem tended_clean (linked : RecordId → Prop) :
    Tended linked (World.Clean linked) (World.Clean linked) where
  stop _ clean := clean
  brush _ _ brush clean := clean.brush brush
  function _ realm _ refrains clean := clean.pushFunction realm refrains
  lock _ clean := clean.of_same rfl rfl fun _ => rfl

/-- Any number of edits to objects, bindings, memos and the journal. -/
abbrev World.Brushes : World → World → Prop := Relation.ReflTransGen World.Brush

instance : World.Takes World.Brushes where
  brush _ _ h := .single h

section
variable {α : Type} {linked : RecordId → Prop} {stuck inv : World → Prop}

theorem Tended.brushed (tended : Tended linked stuck inv) {action : Action α}
    (keeps : Action.Keeps World.Brushes action) : Action.Upholds stuck inv action :=
  keeps.upholds (fun w w' brushes h => by
    induction brushes with
    | refl => exact h
    | tail _ brush ih => exact tended.brush _ _ brush ih) tended.stop

theorem Tended.newFunction (tended : Tended linked stuck inv) (realm : RealmId) (name : String)
    {code : FunctionCode} (refrains : code.Refrains linked) :
    Action.Upholds stuck inv (Action.newFunction realm name code) :=
  .bind .get fun _ => .bind (fun w h => tended.function w realm code refrains h) fun _ => .pure _

/-- An action that upholds an invariant and ends in no breach. -/
def Action.EndsClear (stuck inv : World → Prop) (action : Action (Except Exception α)) : Prop :=
  ∀ w, inv w → Action.Meets stuck action (fun outcome w' => inv w' ∧ Clears outcome) w

/-- What follows an action that upholds an invariant. -/
theorem Action.EndsClear.bind {β : Type} {action : Action β}
    {next : β → Action (Except Exception α)} (first : Action.Upholds stuck inv action)
    (later : ∀ b, Action.EndsClear stuck inv (next b)) :
    Action.EndsClear stuck inv (action >>= next) := by
  intro w h
  rw [Action.meets_bind]
  exact (first w h).mono fun b w' => later b w'

/-- To refuse a write is no breach. -/
theorem Action.meets_writeEnvironment (environment : EnvironmentRef) (name : String)
    (value : Value) (w : World) :
    Action.Meets (fun _ => True) (writeEnvironment environment name value)
      (fun refusal _ => ∀ exception ∈ refusal, ¬ exception.toError.IsBreach) w := by
  unfold writeEnvironment
  rw [meets_bind]
  refine (Action.meets_ended _ w).mono fun found w' _ => ?_
  split
  · rw [meets_pure]
    rintro _ ⟨⟩
    exact id
  · rw [meets_bind, meets_modify, meets_pure]
    exact fun _ none => nomatch none

/-- A script that refrains from breaches ends in none, if what it calls and evaluates comes up with none.
-/
theorem Script.endsClear_run {powers : Powers} {frame : Frame} (tended : Tended linked stuck inv)
    (call : ∀ function arguments,
      Action.EndsClear stuck inv (powers.call frame function arguments))
    (evaluate : ∀ record w, inv w → Action.Meets stuck (powers.evaluate frame.realm record)
      (fun settlement w' => inv w' ∧ (linked record → settlement.Clears)) w)
    (read : ∀ environment name, Action.Upholds stuck inv (powers.read environment name))
    {script : Script} (refrains : script.Refrains linked) :
    Action.EndsClear stuck inv (script.run powers frame) := by
  induction script with
  | done outcome => exact fun w h => ⟨h, refrains⟩
  | newObject properties next ih =>
    exact .bind (tended.brushed (Action.keeps_newObject _ _)) fun ref => ih ref (refrains ref)
  | inspect object next ih => exact .bind .get fun w => ih _ (refrains _)
  | setProperty object key value next ih =>
    exact .bind (tended.brushed (Action.keeps_modifyObject _ _)) fun _ => ih refrains
  | deleteProperty object key next ih =>
    exact .bind .get fun _ => .bind (tended.brushed (Action.keeps_modifyObject _ _)) fun _ =>
      ih _ (refrains _)
  | newFunction name code next _ ih =>
    exact .bind (tended.newFunction _ _ refrains.1) fun ref => ih ref (refrains.2 ref)
  | call function arguments next ih =>
    intro w h
    rw [run, Action.meets_bind]
    exact (call function arguments w h).mono fun outcome w' h' =>
      ih outcome (refrains outcome h'.2) w' h'.1
  | readBinding environment name next ih =>
    exact .bind (read environment name) fun value => ih value (refrains value)
  | writeBinding environment name value next ih =>
    intro w h
    rw [run, Action.meets_bind]
    have writes := tended.brushed (Action.keeps_writeEnvironment environment name value)
    exact ((writes w h).and (Action.meets_writeEnvironment environment name value w)).imp
      (fun _ h => h.1) fun refusal w' h' => ih refusal (refrains refusal h'.2) w' h'.1
  | isImport environment name next ih =>
    exact .bind (tended.brushed (Action.keeps_environment _)) fun _ => ih _ (refrains _)
  | globalObject next ih => exact ih _ (refrains _)
  | currentRealm next ih => exact ih _ (refrains _)
  | evaluate record next ih =>
    intro w h
    rw [run, Action.meets_bind]
    exact (evaluate record w h).mono fun settlement w' h' =>
      ih settlement (refrains settlement h'.2) w' h'.1
  | announce announcement next ih =>
    refine .bind .get fun world => .bind (tended.brushed (Action.keeps_write ?_)) fun _ =>
      ih refrains
    cases announcement <;> rfl
  | lock next ih => exact .bind (fun w h => tended.lock w h) fun _ => ih refrains

end

/-! ### Attempts -/

/-- An attempt that upholds an invariant and fails with no breach. -/
def Attempt.EndsClear {α : Type} (stuck inv : World → Prop) (attempt : Attempt α) : Prop :=
  ∀ w, inv w → Attempt.Meets stuck (fun error w' => inv w' ∧ ¬ error.IsBreach) attempt
    (fun _ => inv) w

namespace Attempt.EndsClear
variable {α β : Type} {stuck inv : World → Prop}

theorem pure (a : α) : EndsClear stuck inv (pure a : Attempt α) := fun _ h => h

theorem throw {error : ModuleError} (clear : ¬ error.IsBreach) :
    EndsClear stuck inv (throw error : Attempt α) := fun _ h => ⟨h, clear⟩

theorem get : EndsClear stuck inv (get : Attempt World) := fun _ h => h

theorem lift {action : Action α} (upholds : Action.Upholds stuck inv action) :
    EndsClear stuck inv (liftM action : Attempt α) :=
  fun w h => (meets_lift action).2 (upholds w h)

theorem bind {attempt : Attempt α} {next : α → Attempt β} (first : EndsClear stuck inv attempt)
    (later : ∀ a, EndsClear stuck inv (next a)) : EndsClear stuck inv (attempt >>= next) := by
  intro w h
  rw [meets_bind]
  exact (first w h).mono fun a w' => later a w'

theorem run {attempt : Attempt α} (clear : EndsClear stuck inv attempt) {w : World} (h : inv w) :
    Action.Meets stuck attempt.run
      (fun outcome w' => inv w' ∧ ∀ error, outcome = .error error → ¬ error.IsBreach) w :=
  (meets_run _).2 <| (clear w h).imp (fun _ h => h)
    (fun _ _ h => ⟨h.1, fun _ same => by cases same; exact h.2⟩)
    fun _ _ h => ⟨h, fun _ same => by cases same⟩

end Attempt.EndsClear

/-! ### Resolution -/

namespace Embedding
variable {linked : RecordId → Prop} {embedding : Embedding}

/-- An attempt that keeps the world clean and fails with no breach. -/
abbrev KeepsClean (linked : RecordId → Prop) {α : Type} (attempt : Attempt α) : Prop :=
  attempt.EndsClear (World.Clean linked) (World.Clean linked)

theorem keepsClean_remember (key refused : String) {compute : Attempt RecordId}
    (computes : KeepsClean linked compute) : KeepsClean linked (remember key refused compute) := by
  intro w clean
  unfold remember
  rw [Attempt.meets_bind, Attempt.meets_get]
  dsimp only
  split
  · exact clean
  · exact ⟨clean, clean.kept key _ ‹_›⟩
  · split
    · exact ⟨clean, id⟩
    · rw [Attempt.meets_bind]
      refine (Attempt.meets_lift compute.run).mpr ((computes.run clean).mono fun outcome w₁ h => ?_)
      obtain ⟨clean₁, clear⟩ := h
      have keeps := clean₁.keep key clear
      unfold keep
      rw [Attempt.meets_bind, Attempt.meets_get, Attempt.meets_bind, Attempt.meets_set]
      split
      · exact keeps
      · rename_i error answered
        refine ⟨keeps, ?_⟩
        unfold Cache.insert at answered
        split at answered
        · cases answered
          exact id
        · split at answered
          · rename_i present
            exact clean₁.kept key error (present.trans (congrArg some answered))
          · exact clear error answered

theorem upholds_lockIf (locks : Bool) :
    Action.Upholds (World.Clean linked) (World.Clean linked) (lockIf locks) := by
  unfold lockIf
  split
  · exact fun w clean => (tended_clean linked).lock w clean
  · exact .pure _

theorem upholds_write (event : Event) :
    Action.Upholds (World.Clean linked) (World.Clean linked) (Action.write event) :=
  fun _ clean => clean.of_same rfl rfl fun _ => rfl

theorem upholds_register (location : Url) {record : Record} (refrains : record.Refrains linked) :
    Action.Upholds (World.Clean linked) (World.Clean linked) (register location record) := by
  intro w clean
  have added := clean.addRecord refrains
  exact added.of_same rfl rfl fun _ => rfl

section
variable (refrains : embedding.Refrains linked)
include refrains

theorem keepsClean_classify (location : Url) (source : List UInt8) :
    KeepsClean linked (embedding.classify location source) := by
  unfold classify
  dsimp only
  split
  · exact .throw id
  · rename_i text _
    refine .bind (.lift (upholds_write _)) fun _ => .bind (.lift (upholds_lockIf _)) fun _ => ?_
    split
    · exact .throw id
    · rename_i declarations body compiled
      exact .lift (upholds_register location ⟨refrains.bodies _ _ _ _ compiled, fun _ failed => by
        cases failed⟩)
    · refine .bind (.lift (upholds_write _)) fun _ => .bind (.lift (upholds_lockIf _)) fun _ => ?_
      split
      · exact .throw id
      · rename_i program compiled
        exact .lift (upholds_register location (refrains.programs _ _ _ compiled))

theorem keepsClean_discover (location : Url) (specifier : String) :
    KeepsClean linked (embedding.discover location specifier) := by
  refine .bind (.lift (upholds_write _)) fun _ => .bind (.lift (upholds_lockIf _)) fun _ => ?_
  split
  · exact .throw id
  · exact keepsClean_classify refrains location _

theorem keepsClean_resolveHost (specifier : String) :
    KeepsClean linked (embedding.resolveHost specifier) := by
  refine keepsClean_remember _ _ ?_
  unfold discoverHost
  split
  · rename_i content registered
    exact .lift fun w clean => clean.addRecord (refrains.hosts _ content registered)
  · exact .throw id

theorem keepsClean_resolveLoaded (location : Url) (source : List UInt8) :
    KeepsClean linked (embedding.resolveLoaded location source) :=
  keepsClean_remember _ _ (keepsClean_classify refrains location source)

theorem keepsClean_resolve (referrer? : Option Url) (specifier : String) :
    KeepsClean linked (embedding.resolve referrer? specifier) := by
  unfold resolve
  split
  · exact keepsClean_resolveHost refrains specifier
  · split
    · exact keepsClean_remember _ _ (keepsClean_discover refrains _ specifier)
    · exact .throw (not_isBreach_of_canonicalize ‹_›)

theorem keepsClean_resolveImported (referrer? : Option RecordId) (specifier : String) :
    KeepsClean linked (embedding.resolveImported referrer? specifier) := by
  unfold resolveImported
  split
  · exact keepsClean_resolveHost refrains specifier
  · split
    · exact keepsClean_resolve refrains none specifier
    · refine .bind (.lift (.bind .get fun _ => .pure _)) fun location => ?_
      split
      · exact keepsClean_resolve refrains _ specifier
      · exact .bind .get fun _ => .throw (not_isBreach_defect _ (by decide) (by decide))

theorem keepsClean_importFor (importer : Importer) (referrer : RecordId) (specifier : String) :
    KeepsClean linked (embedding.importFor importer referrer specifier) := by
  refine .bind .get fun world => ?_
  split
  · split
    · exact keepsClean_resolveImported refrains _ specifier
    · exact .throw (not_isBreach_of_lastLetters (by decide))
  · split
    · exact .pure _
    · exact .throw id

theorem keepsClean_importAll (importer : Importer) (id : RecordId) (specifiers : List String) :
    KeepsClean linked (embedding.importAll importer id specifiers) := by
  induction specifiers with
  | nil => exact .pure _
  | cons specifier rest ih =>
    exact .bind (.lift (upholds_write _)) fun _ =>
      .bind (keepsClean_importFor refrains importer id specifier) fun _ =>
      .bind ih fun _ => .pure _

/-! ### Linking -/

omit refrains in
theorem upholds_modifyStatic_clean (id : RecordId) {change : StaticModule → StaticModule}
    (body : ∀ module, (change module).body = module.body)
    (status : ∀ module error, (change module).status = .failed error →
      module.status = .failed error ∨ ¬ error.IsBreach) :
    Action.Upholds (World.Clean linked) (World.Clean linked) (modifyStatic id change) := by
  intro w clean
  rw [modifyStatic, Action.meets_modify]
  split
  · rename_i module found
    refine clean.setRecord id fun present => ?_
    have before := clean.records id present
    rw [found] at before
    refine ⟨fun environment => by rw [body]; exact before.1 environment, fun error failed => ?_⟩
    exact (status module error failed).elim (before.2 error) fun clear => clear
  · exact clean

omit refrains in
theorem not_isBreach_of_checkImports {world : World} {requested : List (String × RecordId)}
    {statements : List ImportStatement} {error : ModuleError}
    (failed : checkImports world requested statements = .error error) : ¬ error.IsBreach := by
  induction statements with
  | nil => cases failed
  | cons statement rest ih =>
    rw [checkImports] at failed
    split at failed
    · exact ih failed
    · split at failed
      · cases failed
        exact id
      · exact ih failed

theorem keepsClean_link (depth : Nat) (id : RecordId) :
    KeepsClean linked (embedding.link depth id) := by
  induction depth generalizing id with
  | zero => exact .lift (.tooDeep fun _ clean => clean)
  | succ depth ih =>
    have linkAll (ids : List RecordId) :
        KeepsClean linked (linkAll (embedding.link depth) ids) := by
      induction ids with
      | nil => exact .pure _
      | cons next rest ih' => exact .bind (ih next) fun _ => ih'
    have linkStatic (module : StaticModule) :
        KeepsClean linked (embedding.linkStatic (embedding.link depth) id module) := by
      refine .bind (keepsClean_importAll refrains _ id _) fun requested =>
        .bind (.lift (upholds_modifyStatic_clean id (fun _ => rfl) fun _ _ failed => .inl failed))
          fun _ => .bind (linkAll _) fun _ => .bind .get fun world => ?_
      split
      · exact .pure _
      · exact .throw (not_isBreach_of_checkImports ‹_›)
    have moves (status : LinkStatus)
        (clear : ∀ error, status = .failed error → ¬ error.IsBreach) :
        Action.Upholds (World.Clean linked) (World.Clean linked)
          (modifyStatic id ({ · with status })) :=
      upholds_modifyStatic_clean id (fun _ => rfl) fun _ error failed => .inr (clear error failed)
    intro w clean
    unfold link
    rw [Attempt.meets_bind, Attempt.meets_get]
    split
    · rename_i module found
      have refrains := clean.records id (World.hasRecord_of_static found)
      rw [found] at refrains
      split
      · exact clean
      · exact clean
      · exact ⟨clean, refrains.2 _ ‹_›⟩
      · rw [Attempt.meets_bind, Attempt.meets_lift]
        refine (moves .linking (fun _ same => by cases same) w clean).mono fun _ w₁ clean₁ => ?_
        rw [Attempt.meets_bind, Attempt.outcome]
        refine (Attempt.meets_lift _).mpr (((linkStatic _).run clean₁).mono fun outcome w₂ h => ?_)
        obtain ⟨clean₂, clear⟩ := h
        split
        · exact (Attempt.meets_lift _).mpr (moves .linked (fun _ same => by cases same) w₂ clean₂)
        · rename_i error
          rw [Attempt.meets_bind, Attempt.meets_lift]
          refine (moves (.failed error) (fun _ same => ?_) w₂ clean₂).mono fun _ _ clean₃ =>
            ⟨clean₃, clear error rfl⟩
          cases same
          exact clear error rfl
    · rename_i module found
      have absent : ¬ w.hasRecord id := fun present => by
        have refrains := clean.records id present
        rw [found] at refrains
        exact refrains
      rw [World.record_of_not_hasRecord absent] at found
      cases found
      exact clean
    · exact clean

end
end Embedding

end ModuleGraph
