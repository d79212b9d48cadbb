import ModuleGraph.Instantiation
import ModuleGraph.Linking
import ModuleGraph.Proofs.Change

/-!
Code that neither links nor instantiates nor evaluates keeps to edits: exported names, bindings,
scripts of an embedder's own, resolution.
-/
namespace ModuleGraph
open Relation

/-- Any number of edits. -/
abbrev World.Edits : World → World → Prop := ReflTransGen World.Edit

/-- Any number of edits that scripts make by themselves. -/
abbrev World.Touches : World → World → Prop := ReflTransGen World.Touch

/-- Any number of edits that a script itself makes. -/
abbrev World.Strokes : World → World → Prop := ReflTransGen World.Stroke

instance : World.Retains World.Edits where
  touch _ _ h := .single h.edit
  draw _ _ h := .single h.edit
  keep _ _ _ := .single (.setCache _)

instance : World.Absorbs World.Touches where
  touch _ _ h := .single h

instance : World.Strikes World.Strokes where
  stroke _ _ h := .single h

theorem World.Strokes.touches {w w' : World} (h : Strokes w w') : Touches w w' :=
  ReflTransGen.mono (fun _ _ => Stroke.touch) _ _ h

theorem World.Touches.edits {w w' : World} (h : Touches w w') : Edits w w' :=
  ReflTransGen.mono (fun _ _ => Touch.edit) _ _ h

/-- What takes in every edit of a script takes in any number of them. -/
theorem World.Strokes.struck {R : World → World → Prop} [Strikes R] {w w' : World}
    (h : Strokes w w') : R w w' := by
  induction h with
  | refl => exact refl w
  | tail _ stroke ih => exact IsTrans.trans _ _ _ ih (Strikes.stroke _ _ stroke)

/-- What takes in every edit of scripts takes in any number of them. -/
theorem World.Touches.absorbed {R : World → World → Prop} [Absorbs R] {w w' : World}
    (h : Touches w w') : R w w' := by
  induction h with
  | refl => exact refl w
  | tail _ touch ih => exact IsTrans.trans _ _ _ ih (Absorbs.touch _ _ touch)

namespace Action
variable {R : World → World → Prop}

theorem keeps_edit {change : World → World} (h : ∀ w, World.Edit w (change w)) :
    Keeps World.Edits (modify change) :=
  fun w => .single (h w)

theorem keeps_draw [World.Admits R] {change : World → World}
    (h : ∀ w, World.Draw w (change w)) : Keeps R (modify change) :=
  fun w => World.Admits.draw _ _ (h w)

theorem keeps_inquiry [World.Admits R] {event : Event} (inquiry : event.isInquiry = true) :
    Keeps R (write event) :=
  keeps_draw fun _ => .inquire event inquiry

theorem keeps_newRecord [World.Admits R] {record : Record} (new : record.IsNew) :
    Keeps R (newRecord record) :=
  fun _ => World.Admits.draw _ _ (.addRecord record new)

theorem keeps_stroke [World.Strikes R] {change : World → World}
    (h : ∀ w, World.Stroke w (change w)) : Keeps R (modify change) :=
  fun w => World.Strikes.stroke _ _ (h w)

theorem keeps_newFunction [World.Strikes R] (realm : RealmId) (name : String)
    (code : FunctionCode) : Keeps R (newFunction realm name code) :=
  .bind .get fun _ => .bind (keeps_stroke fun _ => .pushFunction realm code) fun _ => .pure _

section
variable [World.Marks R]

theorem keeps_mark {change : World → World} (h : ∀ w, World.Mark w (change w)) :
    Keeps R (modify change) :=
  fun w => World.Marks.mark _ _ (h w)

theorem keeps_write {event : Event} (spoken : event.isSpoken = true) : Keeps R (write event) :=
  keeps_mark fun _ => .write event spoken

theorem keeps_newObject (realm : RealmId) (properties : Properties) :
    Keeps R (newObject realm properties) :=
  .bind .get fun _ => .bind (keeps_mark fun _ => .pushObject realm properties) fun _ => .pure _

theorem keeps_globalFor (realm : RealmId) (workplace : Workplace) :
    Keeps R (globalFor realm workplace) := by
  cases workplace with
  | given => exact .pure _
  | own => exact keeps_newObject realm {}

theorem keeps_modifyObject (ref : ObjectRef) (change : Properties → Properties) :
    Keeps R (modifyObject ref change) :=
  keeps_mark fun _ => .setProperties ref _

end

/-! ### Exported names -/

section
variable (heard : Json → Prop) [World.Hears heard R]

theorem keeps_tell {ask : RecordId → Watcher → Action Bool}
    (asks : ∀ id watcher, heard watcher.tag → Keeps R (ask id watcher)) {watcher : Watcher}
    (fits : heard watcher.tag) (names : List String) : Keeps R (tell ask watcher names) := by
  cases watcher with
  | report tag => exact fun w => World.Hears.named w tag names fits
  | reask record andThen => exact (asks record andThen fits).map _

/-- Questions under certain tags keep to a relation that takes in what these bring about. -/
theorem keeps_askNames_of (depth : Nat) (id : RecordId) {watcher : Watcher}
    (fits : heard watcher.tag) : Keeps R (askNames depth id watcher) := by
  have isRefl : Std.Refl R := World.Hears.toRefl heard
  have isTrans : IsTrans World R := World.Hears.toIsTrans heard
  induction depth generalizing id watcher with
  | zero => exact .tooDeep
  | succ depth ih =>
    have told (names : List String) : Keeps R (do
        tell (askNames depth) watcher names
        pure true) := .bind (keeps_tell heard (fun id _ => ih id) fits names) fun _ => .pure _
    unfold askNames
    refine .get_bind fun w => ?_
    dsimp only
    split
    · split
      · exact told _ w
      · rename_i star _
        have asked : Keeps R (askNames depth star (.reask id watcher)) := ih star fits
        exact Keeps.bind (asked.map _) (fun _ => .pure _) w
    · split
      · exact told _ w
      · exact Keeps.pure _ w
    · split
      · rename_i memo found
        split
        · exact told _ w
        · exact World.Hears.enqueue w id memo watcher found fits
      · exact Keeps.pure _ w

theorem keeps_tellAll {ask : RecordId → Watcher → Action Bool}
    (asks : ∀ id watcher, heard watcher.tag → Keeps R (ask id watcher)) (names : List String)
    {watchers : List Watcher} (fit : ∀ watcher ∈ watchers, heard watcher.tag) :
    Keeps R (tellAll ask names watchers) := by
  have isRefl : Std.Refl R := World.Hears.toRefl heard
  have isTrans : IsTrans World R := World.Hears.toIsTrans heard
  induction watchers with
  | nil => exact .pure _
  | cons watcher rest ih =>
    rw [List.forall_mem_cons] at fit
    exact .bind (keeps_tell heard asks fit.1 names) fun _ => ih fit.2

end

theorem keeps_askNames [World.Takes R] (depth : Nat) (id : RecordId) (watcher : Watcher) :
    Keeps R (askNames depth id watcher) :=
  keeps_askNames_of (fun _ => True) depth id trivial

theorem keeps_publishNames_of [World.Hears (fun _ => True) R]
    (settles : ∀ (w : World) id memo, R w (w.setRecord id ((w.record id).withMemo memo)))
    (depth : Nat) (id : RecordId) (names : List String) : Keeps R (publishNames depth id names) := by
  have isRefl : Std.Refl R := World.Hears.toRefl fun _ => True
  have isTrans : IsTrans World R := World.Hears.toIsTrans fun _ => True
  unfold publishNames
  refine .get_bind fun w => ?_
  dsimp only
  split
  · exact Keeps.pure _ w
  · rename_i memo _
    have edited : R w (w.setRecord id ((w.record id).withMemo (memo.publish names).2)) :=
      settles w id _
    rw [meets_bind, meets_set]
    have told : Keeps R (tellAll (askNames depth) names (memo.publish names).1) :=
      keeps_tellAll (fun _ => True) (fun id watcher _ => keeps_askNames_of (fun _ => True) depth id
        trivial) names fun _ _ => trivial
    exact (told _).imp
      (fun _ => IsTrans.trans _ _ _ edited) fun _ _ => IsTrans.trans _ _ _ edited

theorem keeps_publishNames [World.Takes R] (depth : Nat) (id : RecordId) (names : List String) :
    Keeps R (publishNames depth id names) :=
  keeps_publishNames_of (fun w id memo => World.Takes.brush w _ (.setMemo id memo)) depth id names

/-! ### Bindings -/

section
variable [World.Marks R]

theorem keeps_readAll {read : Reader} (reads : ∀ realm id name, Keeps R (read realm id name))
    (realm : RealmId) (id : RecordId) (names : List String) :
    Keeps R (readAll read realm id names) := by
  induction names with
  | nil => exact .pure _
  | cons name rest ih => exact .bind (reads _ _ _) fun _ => .bind ih fun _ => .pure _

theorem keeps_namespaceBy {read : Reader}
    (reads : ∀ realm id name, Keeps R (read realm id name)) (realm : RealmId)
    (id : RecordId) : Keeps R (namespaceBy read realm id) := by
  refine .bind .get fun world => ?_
  split
  · exact .pure _
  · exact .bind (keeps_readAll reads _ _ _) fun _ => .bind (keeps_newObject _ _) fun _ => .pure _

theorem keeps_readEnvironmentBy {read : Reader}
    (reads : ∀ realm id name, Keeps R (read realm id name)) (realm : RealmId)
    (environment : Environment) (name : String) :
    Keeps R (readEnvironmentBy read realm environment name) := by
  unfold readEnvironmentBy
  split
  · exact reads _ _ _
  · exact keeps_namespaceBy reads _ _
  · exact .pure _

theorem keeps_readFirst {read : Reader}
    (reads : ∀ realm id name, Keeps R (read realm id name)) (realm : RealmId)
    (name : String) (ids : List RecordId) :
    Keeps R (readFirst read realm name ids) := by
  induction ids with
  | nil => exact .pure _
  | cons id rest ih =>
    refine .bind (reads _ _ _) fun value => ?_
    split
    · exact ih
    · exact .pure _

theorem keeps_readStaticBy {read : Reader}
    (reads : ∀ realm id name, Keeps R (read realm id name)) (realm : RealmId)
    (module : StaticModule) (environment : Environment) (name : String) :
    Keeps R (readStaticBy read realm module environment name) := by
  unfold readStaticBy
  split
  · exact keeps_readEnvironmentBy reads _ _ _
  · split
    · split
      · exact keeps_namespaceBy reads _ _
      · exact .pure _
    · split
      · exact .pure _
      · exact keeps_readFirst reads _ _ _

theorem keeps_readInstanceBy {read : Reader}
    (reads : ∀ realm id name, Keeps R (read realm id name)) (realm : RealmId)
    (record : Record) (content : Instance) (name : String) :
    Keeps R (readInstanceBy read realm record content name) := by
  refine .bind .get fun world => ?_
  split
  · split
    · exact keeps_readStaticBy reads _ _ _ _
    · exact .pure _
  · split
    · split <;> exact .pure _
    · exact .pure _
  · split
    · exact .pure _
    · split <;> exact .pure _
  · exact .pure _
  · exact .pure _

theorem keeps_readBinding (depth : Nat) (realm : RealmId) (id : RecordId) (name : String) :
    Keeps R (readBinding depth realm id name) := by
  induction depth generalizing realm id name with
  | zero => exact .tooDeep
  | succ depth ih =>
    refine .bind .get fun world => ?_
    split
    · exact .pure _
    · exact keeps_readInstanceBy ih _ _ _ _

theorem keeps_environment (ref : EnvironmentRef) : Keeps R (environment ref) := by
  refine .bind .get fun world => ?_
  split <;> exact .pure _

theorem keeps_readEnvironment (depth : Nat) (ref : EnvironmentRef) (name : String) :
    Keeps R (readEnvironment depth ref name) :=
  .bind (keeps_environment ref) fun _ => keeps_readEnvironmentBy (keeps_readBinding depth) _ _ _

theorem keeps_writeEnvironment (ref : EnvironmentRef) (name : String) (value : Value) :
    Keeps R (writeEnvironment ref name value) := by
  refine .bind (keeps_environment ref) fun environment => ?_
  split
  · exact .pure _
  · exact .bind (keeps_mark fun _ => .setBinding ..) fun _ => .pure _

theorem keeps_exportsValue (depth : Nat) (realm : RealmId) (id : RecordId) :
    Keeps R (exportsValue depth realm id) := by
  refine .bind .get fun world => ?_
  split
  · exact keeps_namespaceBy (keeps_readBinding depth) _ _
  · exact .pure _
  · exact keeps_readBinding _ _ _ _

end
end Action

/-! ### Scripts -/

/-- A script upholds what its powers uphold. -/
theorem Script.upholds_run {stuck inv : World → Prop} {powers : Powers} {frame : Frame}
    (stop : ∀ w, inv w → stuck w) (strokes : ∀ w w', World.Strokes w w' → inv w → inv w')
    (call : ∀ function arguments, Action.Upholds stuck inv (powers.call frame function arguments))
    (evaluate : ∀ record, Action.Upholds stuck inv (powers.evaluate frame.realm record))
    (read : ∀ environment name, Action.Upholds stuck inv (powers.read environment name))
    (script : Script) : Action.Upholds stuck inv (script.run powers frame) := by
  have edited {α : Type} {action : Action α} (keeps : Action.Keeps World.Strokes action) :
      Action.Upholds stuck inv action := keeps.upholds strokes stop
  induction script with
  | done outcome => exact .pure _
  | newObject properties next ih =>
    exact .bind (edited (Action.keeps_newObject _ _)) fun _ => ih _
  | inspect object next ih => exact .bind .get fun _ => ih _
  | setProperty object key value next ih =>
    exact .bind (edited (Action.keeps_modifyObject _ _)) fun _ => ih
  | deleteProperty object key next ih =>
    exact .bind .get fun _ => .bind (edited (Action.keeps_modifyObject _ _)) fun _ => ih _
  | newFunction name code next _ ih =>
    exact .bind (edited (Action.keeps_newFunction _ _ _)) fun _ => ih _
  | call function arguments next ih => exact .bind (call function arguments) fun _ => ih _
  | readBinding environment name next ih => exact .bind (read environment name) fun _ => ih _
  | writeBinding environment name value next ih =>
    exact .bind (edited (Action.keeps_writeEnvironment _ _ _)) fun _ => ih _
  | isImport environment name next ih =>
    exact .bind (edited (Action.keeps_environment _)) fun _ => ih _
  | globalObject next ih => exact ih _
  | currentRealm next ih => exact ih _
  | evaluate record next ih => exact .bind (evaluate record) fun _ => ih _
  | announce announcement next ih =>
    refine .bind .get fun world => .bind (edited (Action.keeps_write ?_)) fun _ => ih
    cases announcement <;> rfl
  | lock next ih => exact .bind (edited (Action.keeps_stroke fun _ => .lock)) fun _ => ih

namespace Action
variable {R : World → World → Prop}

section
variable [World.Strikes R]

theorem keeps_functionCode (ref : FunctionRef) : Keeps R (functionCode ref) := by
  refine .bind .get fun world => ?_
  split <;> exact .pure _

theorem keeps_runBy {powers : Powers} {frame : Frame}
    (call : ∀ function arguments, Keeps R (powers.call frame function arguments))
    (evaluate : ∀ record, Keeps R (powers.evaluate frame.realm record))
    (read : ∀ environment name, Keeps R (powers.read environment name))
    (script : Script) : Keeps R (script.run powers frame) := by
  refine .of_upholds fun w₀ => ?_
  have upheld {α : Type} {action : Action α} (keeps : Keeps R action) :
      Upholds (R w₀) (R w₀) action :=
    keeps.upholds (fun _ _ r h => IsTrans.trans _ _ _ h r) fun _ h => h
  exact Script.upholds_run (fun _ h => h)
    (fun _ _ strokes h => IsTrans.trans _ _ _ h strokes.struck)
    (fun function arguments => upheld (call function arguments))
    (fun record => upheld (evaluate record))
    (fun environment name => upheld (read environment name)) script

theorem keeps_callApart (depth : Nat) (frame : Frame) (function : FunctionRef)
    (arguments : List Value) : Keeps R (callApart depth frame function arguments) := by
  induction depth generalizing frame function arguments with
  | zero => exact .tooDeep
  | succ depth ih =>
    refine .bind (keeps_functionCode function) fun code => ?_
    split
    · exact keeps_runBy (ih _) (fun _ => .tooDeep) (keeps_readEnvironment depth) _
    · exact .tooDeep

theorem keeps_runApart (depth : Nat) (realm : RealmId) (global : ObjectRef) (script : Script) :
    Keeps R (runApart depth realm global script) :=
  keeps_runBy (keeps_callApart depth _) (fun _ => .tooDeep) (keeps_readEnvironment depth) script

theorem keeps_valueApart (depth : Nat) (realm : RealmId) (global : ObjectRef) (script : Script) :
    Keeps R (valueApart depth realm global script) := by
  refine .bind (keeps_runApart depth realm global script) fun outcome => ?_
  split <;> exact .pure _

/-! ### New instances -/

theorem keeps_namedValues (depth : Nat) (realm : RealmId) (global : ObjectRef)
    (scripts : List (String × Script)) :
    Keeps R (namedValues depth realm global scripts) := by
  induction scripts with
  | nil => exact .pure _
  | cons entry rest ih =>
    exact .bind (keeps_valueApart depth realm global _) fun _ => .bind ih fun _ => .pure _

end

section
variable {stuck inv : World → Prop} (stop : ∀ w, inv w → stuck w)
  (strokes : ∀ w w', World.Strokes w w' → inv w → inv w') {depth : Nat} {id : RecordId}
include stop strokes

theorem upholds_nativeInstance_of (publishes : ∀ names, Upholds stuck inv (publishNames depth id names))
    (realm : RealmId) (name : String) (exports : NativeExports) :
    Upholds stuck inv (nativeInstance depth realm id name exports) := by
  have edited {α : Type} {action : Action α} (keeps : Keeps World.Strokes action) :
      Upholds stuck inv action := keeps.upholds strokes stop
  refine .bind .get fun world => .bind (edited (keeps_write rfl)) fun _ =>
    .bind (edited (keeps_globalFor _ _)) fun global => .bind ?named fun named =>
    .bind ?declared fun declared => .bind (publishes _) fun _ => ?content
  case named =>
    cases exports.named with
    | some scripts => exact edited (((keeps_namedValues depth realm global scripts).map _).map _)
    | none => exact .pure _
  case declared =>
    cases exports.default with
    | some script => exact edited ((keeps_valueApart depth realm global script).map _)
    | none => exact .pure _
  case content =>
    split
    · exact .pure _
    · exact .bind (edited (keeps_newObject _ _)) fun _ => .pure _

theorem upholds_legacyInstance_of (publishes : ∀ names, Upholds stuck inv (publishNames depth id names))
    (realm : RealmId) (name : String) (workplace : Workplace) (script : Script) :
    Attempt.Upholds stuck inv (legacyInstance depth realm id name workplace script) := by
  have edited {α : Type} {action : Action α} (keeps : Keeps World.Strokes action) :
      Upholds stuck inv action := keeps.upholds strokes stop
  refine .bind (.lift (edited (keeps_globalFor _ _))) fun global =>
    .bind (.lift (edited (keeps_valueApart depth realm global script))) fun value => ?_
  split
  · exact .throw _
  · exact .bind .get fun _ => .bind (.lift (publishes _)) fun _ => .pure _

/-- To make an instance passes on names only if the module is a host module. -/
theorem meets_newInstance_of_publishes {w : World}
    (publishes : ∀ module, w.record id = .host module →
      ∀ names, Upholds stuck inv (publishNames depth id names)) (realm : RealmId) (h : inv w) :
    Attempt.Meets stuck (fun _ => inv) (newInstance depth realm id) (fun _ => inv) w := by
  have edited {α : Type} {action : Action α} (keeps : Keeps World.Strokes action) :
      Upholds stuck inv action := keeps.upholds strokes stop
  unfold newInstance
  rw [Attempt.meets_bind, Attempt.meets_get]
  split
  · split
    · exact h
    · split <;> exact h
    · exact h
  · exact h
  · rename_i module found
    have publishes := publishes module found
    split
    · exact (Attempt.Upholds.lift (upholds_nativeInstance_of stop strokes publishes realm _ _)).meets h
    · exact (upholds_legacyInstance_of stop strokes publishes realm _ _ _).meets h
    · exact (upholds_legacyInstance_of stop strokes publishes realm _ _ _).meets h
  · refine Attempt.Upholds.meets (.bind (.lift (edited (keeps_globalFor _ _))) fun global =>
      .bind (.lift (edited (keeps_runApart depth realm global _))) fun outcome => ?_) h
    split
    · exact .throw _
    · exact .map (.lift (edited (keeps_namedValues depth realm global _))) _

end

section
variable [World.Strikes R]

theorem keeps_legacyInstance {depth : Nat} {id : RecordId}
    (publishes : ∀ names, Keeps R (publishNames depth id names)) (realm : RealmId) (name : String)
    (workplace : Workplace) (script : Script) :
    Attempt.Keeps R (legacyInstance depth realm id name workplace script) :=
  .of_upholds fun _ => upholds_legacyInstance_of (fun _ h => h)
    (fun _ _ strokes h => IsTrans.trans _ _ _ h strokes.struck)
    (fun names => (publishes names).upholds (fun _ _ r h => IsTrans.trans _ _ _ h r) fun _ h => h)
    realm name workplace script

theorem meets_newInstance_of {depth : Nat} {id : RecordId} {w : World}
    (publishes : ∀ module, w.record id = .host module → ∀ names, Keeps R (publishNames depth id names))
    (realm : RealmId) :
    Attempt.Meets (R w) (fun _ => R w) (newInstance depth realm id) (fun _ => R w) w :=
  meets_newInstance_of_publishes (fun _ h => h)
    (fun _ _ strokes h => IsTrans.trans _ _ _ h strokes.struck)
    (fun module found names => (publishes module found names).upholds
      (fun _ _ r h => IsTrans.trans _ _ _ h r) fun _ h => h) realm (refl w)

end

theorem keeps_newInstance [World.Absorbs R] (depth : Nat) (realm : RealmId) (id : RecordId) :
    Attempt.Keeps R (newInstance depth realm id) :=
  .of_meets fun _ => meets_newInstance_of (fun _ _ => keeps_publishNames depth id) realm

end Action

/-! ### Resolution -/

namespace Embedding
variable (embedding : Embedding) {R : World → World → Prop}

section
variable [World.Admits R]

theorem keeps_lockIf (locks : Bool) : Action.Keeps R (lockIf locks) := by
  unfold lockIf
  split
  · exact Action.keeps_stroke fun _ => .lock
  · exact .pure _

theorem keeps_register (location : Url) {record : Record} (new : record.IsNew) :
    Action.Keeps R (register location record) :=
  .bind (Action.keeps_newRecord new) fun id =>
    .bind (Action.keeps_draw fun _ => .addLocation id location) fun _ => .pure _

theorem keeps_classify (location : Url) (source : List UInt8) :
    Attempt.Keeps R (embedding.classify location source) := by
  unfold classify
  dsimp only
  split
  · exact .throw _
  · refine .bind (.lift (Action.keeps_inquiry rfl)) fun _ =>
      .bind (.lift (keeps_lockIf _)) fun _ => ?_
    split
    · exact .throw _
    · exact .lift (keeps_register location ⟨rfl, rfl⟩)
    · refine .bind (.lift (Action.keeps_inquiry rfl)) fun _ =>
        .bind (.lift (keeps_lockIf _)) fun _ => ?_
      split
      · exact .throw _
      · exact .lift (keeps_register location trivial)

theorem keeps_discover (location : Url) (specifier : String) :
    Attempt.Keeps R (embedding.discover location specifier) := by
  refine .bind (.lift (Action.keeps_inquiry rfl)) fun _ => .bind (.lift (keeps_lockIf _)) fun _ => ?_
  split
  · exact .throw _
  · exact embedding.keeps_classify location _

theorem keeps_discoverHost (specifier : String) :
    Attempt.Keeps R (embedding.discoverHost specifier) := by
  unfold discoverHost
  split
  · exact .lift (Action.keeps_newRecord trivial)
  · exact .throw _

end

variable [World.Retains R]

theorem keeps_keep (key : String) (outcome : Outcome RecordId) :
    Attempt.Keeps R (keep key outcome) := by
  refine .get_bind fun w => ?_
  rw [Attempt.meets_bind, Attempt.meets_set]
  have edited : R w { w with cache := (w.cache.insert key outcome).2 } :=
    World.Retains.keep w key outcome
  split <;> exact edited

theorem keeps_remember (key refused : String) {compute : Attempt RecordId}
    (computes : Attempt.Keeps R compute) :
    Attempt.Keeps R (remember key refused compute) := by
  refine .bind .get fun world => ?_
  dsimp only
  split
  · exact .pure _
  · exact .throw _
  · split
    · exact .throw _
    · exact .bind computes.outcome fun outcome => keeps_keep key outcome

theorem keeps_resolveLocation (location : Url) (specifier : String) :
    Attempt.Keeps R (embedding.resolveLocation location specifier) :=
  keeps_remember _ _ (embedding.keeps_discover location specifier)

theorem keeps_resolveHost (specifier : String) :
    Attempt.Keeps R (embedding.resolveHost specifier) :=
  keeps_remember _ _ (embedding.keeps_discoverHost specifier)

theorem keeps_resolve (referrer? : Option Url) (specifier : String) :
    Attempt.Keeps R (embedding.resolve referrer? specifier) := by
  unfold resolve
  split
  · exact embedding.keeps_resolveHost specifier
  · split
    · exact embedding.keeps_resolveLocation _ specifier
    · exact .throw _

theorem keeps_resolveImported (referrer? : Option RecordId) (specifier : String) :
    Attempt.Keeps R (embedding.resolveImported referrer? specifier) := by
  unfold resolveImported
  split
  · exact embedding.keeps_resolveHost specifier
  · split
    · exact embedding.keeps_resolve none specifier
    · refine .bind (.lift (.bind .get fun _ => .pure _)) fun location => ?_
      split
      · exact embedding.keeps_resolve _ specifier
      · exact .bind .get fun _ => .throw _

theorem keeps_resolveLoaded (location : Url) (source : List UInt8) :
    Attempt.Keeps R (embedding.resolveLoaded location source) :=
  keeps_remember _ _ (embedding.keeps_classify location source)

theorem keeps_importFor (importer : Importer) (referrer : RecordId) (specifier : String) :
    Attempt.Keeps R (embedding.importFor importer referrer specifier) := by
  refine .bind .get fun world => ?_
  split
  · split
    · exact embedding.keeps_resolveImported _ specifier
    · exact .throw _
  · split
    · exact .pure _
    · exact .throw _

theorem keeps_importAll (importer : Importer) (id : RecordId) (specifiers : List String) :
    Attempt.Keeps World.Edits (embedding.importAll importer id specifiers) := by
  induction specifiers with
  | nil => exact .pure _
  | cons specifier rest ih =>
    exact .bind (.lift (Action.keeps_edit fun _ => .write _ rfl)) fun _ =>
      .bind (embedding.keeps_importFor importer id specifier) fun _ => .bind ih fun _ => .pure _

end Embedding
end ModuleGraph
