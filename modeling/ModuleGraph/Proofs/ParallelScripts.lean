import ModuleGraph.Proofs.Parallel

/-!
Scripts in parallel. A local script runs in parallel if what leads out of it does; reading what
modules export in the realm does, and so does the instantiation of modules.
-/
namespace ModuleGraph
open World
variable {p : Vantage}

namespace Action

/-! ### Bindings -/

section
variable {read : Reader} (reads : ∀ id name, Parallel p (read p.realm id name))
include reads

theorem parallel_readAll (id : RecordId) (names : List String) :
    Parallel p (readAll read p.realm id names) := by
  induction names with
  | nil => exact .pure fun _ member => by cases member
  | cons name rest ih =>
    exact .bind (reads id name) fun value here => .bind ih fun others held =>
      .pure (List.forall_mem_cons.mpr ⟨here, held⟩)

theorem parallel_namespaceBy (id : RecordId) : Parallel p (namespaceBy read p.realm id) := by
  refine .get_bind (fun w v h => ?_) fun w closed => ?_
  · simp only [h.sameRealm, namespaceNames, h.knownNames?, h.record]
  · split
    · exact .pure trivial
    · exact .bind (parallel_readAll reads id _) fun entries held =>
        .bind (parallel_newObject (Properties.isLocal_ofEntries held)) fun ref made => .pure made

theorem parallel_readEnvironmentBy {environment : Environment}
    (held : IsLocal p.realm environment) (name : String) :
    Parallel p (readEnvironmentBy read p.realm environment name) := by
  unfold readEnvironmentBy
  split
  · exact reads _ _
  · exact parallel_namespaceBy reads _
  · exact .pure (Properties.isLocal_get held name)

theorem parallel_readFirst (name : String) (ids : List RecordId) :
    Parallel p (readFirst read p.realm name ids) := by
  induction ids with
  | nil => exact .pure trivial
  | cons id rest ih =>
    refine .bind (reads id name) fun value held => ?_
    split
    · exact ih
    · exact .pure held

theorem parallel_readStaticBy (module : StaticModule) {environment : Environment}
    (held : IsLocal p.realm environment) (name : String) :
    Parallel p (readStaticBy read p.realm module environment name) := by
  unfold readStaticBy
  split
  · exact parallel_readEnvironmentBy reads held _
  · split
    · split
      · exact parallel_namespaceBy reads _
      · exact .pure trivial
    · split
      · exact .pure trivial
      · exact parallel_readFirst reads name _

theorem parallel_readInstanceBy (record : Record) {content : Instance}
    (held : IsLocal p.realm content) (name : String) :
    Parallel p (readInstanceBy read p.realm record content name) := by
  unfold readInstanceBy
  cases content with
  | static environment =>
    refine .get_bind (fun _ _ _ => rfl) fun _ _ => ?_
    cases record with
    | static module => exact parallel_readStaticBy reads module held name
    | _ => exact .pure trivial
  | wrapper exports isMarked =>
    have held : IsLocal p.realm exports := held
    refine .get_bind (fun w v h => ?_) fun w closed => ?_
    · cases exports with
      | object ref => simp only [h.properties held, h.property held]
      | _ => rfl
    · dsimp only
      split
      · cases exports with
        | object ref =>
          exact .pure (isLocal_getD (Properties.isLocal_get? (closed.properties held) _) held)
        | _ => exact .pure held
      · exact .pure (closed.property held name)
  | native named default =>
    refine .get_bind (fun w v h => by simp only [h.property held.2]) fun w closed => ?_
    dsimp only
    split
    · exact .pure held.2
    · split
      · exact .pure (isLocal_getD (isLocal_lookup (held.1 _ rfl) name) trivial)
      · exact .pure (closed.property held.2 name)
  | legacy value =>
    refine .get_bind (fun w v h => by simp only [h.property held]) fun w closed => .pure ?_
    split
    · exact held
    · exact closed.property held name
  | custom bindings =>
    exact .get_bind (fun _ _ _ => rfl) fun _ _ =>
      .pure (isLocal_getD (isLocal_lookup held name) trivial)

end

theorem parallel_readBinding (depth : Nat) (id : RecordId) (name : String) :
    Parallel p (readBinding depth p.realm id name) := by
  induction depth generalizing id name with
  | zero => exact .tooDeep
  | succ depth ih =>
    refine .get_bind (fun w v h => by simp only [h.sameRealm, h.record]) fun w closed => ?_
    split
    · exact .pure trivial
    · rename_i content found
      exact parallel_readInstanceBy ih _ (closed.realm.instance? id content found) name

theorem parallel_environment {ref : EnvironmentRef} (inRealm : IsLocal p.realm ref) :
    Parallel p (environment ref) := by
  obtain ⟨realm, index⟩ := ref
  obtain rfl : realm = p.realm := inRealm
  refine .get_bind (fun w v h => by simp only [h.sameRealm]) fun w closed => ?_
  split
  · rename_i environment found
    exact .pure (closed.realm.instances _ (Array.mem_of_getElem? found))
  · exact .pure Properties.isLocal_empty

theorem parallel_readEnvironment (depth : Nat) {ref : EnvironmentRef}
    (inRealm : IsLocal p.realm ref) (name : String) :
    Parallel p (readEnvironment depth ref name) := by
  refine .bind (parallel_environment inRealm) fun environment held => ?_
  rw [show ref.realm = p.realm from inRealm]
  exact parallel_readEnvironmentBy (parallel_readBinding depth) held name

theorem parallel_writeEnvironment {ref : EnvironmentRef} (inRealm : IsLocal p.realm ref)
    (name : String) {value : Value} (held : IsLocal p.realm value) :
    Parallel p (writeEnvironment ref name value) := by
  refine .bind (parallel_environment inRealm) fun environment here => ?_
  split
  · exact .pure fun refusal same => Option.some.inj same ▸ ⟨trivial, fun _ none => by cases none⟩
  · rw [show ref.realm = p.realm from inRealm]
    exact .bind (.modifyRealm fun _ closed =>
      closed.modifyInstance _ fun _ filled => Instance.isLocal_setBinding filled name held) fun _ _ =>
      .pure fun _ none => by cases none

theorem parallel_exportsValue (depth : Nat) (id : RecordId) :
    Parallel p (exportsValue depth p.realm id) := by
  refine .get_bind (fun w v h => by simp only [h.sameRealm]) fun w closed => ?_
  split
  · exact parallel_namespaceBy (parallel_readBinding depth) id
  · rename_i exports isMarked found
    exact .pure (closed.realm.instance? id _ found)
  · exact parallel_readBinding depth id "default"

end Action

/-! ### Scripts -/

/-- What scripts can do beyond their own steps comes to the same in twin worlds. -/
structure Powers.Parallel (p : Vantage) (powers : Powers) : Prop where
  call : ∀ frame function arguments, IsLocal p.realm frame → IsLocal p.realm function →
    IsLocal p.realm arguments → Action.Parallel p (powers.call frame function arguments)
  evaluate : ∀ id, Action.Parallel p (powers.evaluate p.realm id)
  read : ∀ environment name, IsLocal p.realm environment →
    Action.Parallel p (powers.read environment name)

/-- A local script comes to the same in twin worlds. -/
theorem Script.parallel_run {powers : Powers} (parallel : powers.Parallel p) {frame : Frame}
    (inRealm : IsLocal p.realm frame) (script : Script) (held : IsLocal p.realm script) :
    Action.Parallel p (script.run powers frame) := by
  obtain ⟨realm, global⟩ := frame
  obtain ⟨rfl : realm = p.realm, globalInRealm⟩ := inRealm
  have inRealm : IsLocal p.realm (⟨p.realm, global⟩ : Frame) := ⟨rfl, globalInRealm⟩
  induction script with
  | done outcome => exact .pure held
  | newObject properties next ih =>
    exact .bind (Action.parallel_newObject held.1) fun ref made => ih ref (held.2 ref made)
  | inspect object next ih =>
    refine .get_bind (fun w v h => by simp only [h.properties held.1]) fun w closed => ?_
    exact ih _ (held.2 _ (closed.properties held.1))
  | setProperty object key value next ih =>
    exact .bind (Action.parallel_modifyObject held.1 fun _ h =>
      Properties.isLocal_set h key held.2.1) fun _ _ => ih held.2.2
  | deleteProperty object key next ih =>
    refine .get_bind (fun w v h => by simp only [h.properties held.1]) fun w closed => ?_
    exact .bind (Action.parallel_modifyObject held.1 fun _ h => Properties.isLocal_delete h key)
      fun _ _ => ih _ (held.2 _)
  | newFunction name code next codeIh ih =>
    exact .bind (Action.parallel_newFunction name held.1) fun ref made => ih ref (held.2 ref made)
  | call function arguments next ih =>
    exact .bind (parallel.call _ function arguments inRealm held.1 held.2.1) fun outcome here =>
      ih outcome (held.2.2 outcome here)
  | readBinding environment name next ih =>
    exact .bind (parallel.read environment name held.1) fun value here =>
      ih value (held.2 value here)
  | writeBinding environment name value next ih =>
    exact .bind (Action.parallel_writeEnvironment held.1 name held.2.1) fun refusal here =>
      ih refusal (held.2.2 refusal here)
  | isImport environment name next ih =>
    exact .bind (Action.parallel_environment held.1) fun _ _ => ih _ (held.2 _)
  | globalObject next ih => exact ih global (held global globalInRealm)
  | currentRealm next ih => exact ih p.realm held
  | evaluate record next ih =>
    exact .bind (parallel.evaluate record) fun settlement here =>
      ih settlement (held settlement here)
  | announce announcement next ih =>
    refine .get_bind (fun w v h => by simp only [h.eventOf held.1]) fun w closed => ?_
    exact .bind (.write _) fun _ _ => ih held.2
  | lock next ih => exact .bind (.modify fun _ _ h => h.lock) fun _ _ => ih held

namespace Action
variable (depth : Nat) {global : ObjectRef}

theorem parallel_callApart {frame : Frame} (inRealm : IsLocal p.realm frame)
    {function : FunctionRef} (called : IsLocal p.realm function) {arguments : List Value}
    (held : IsLocal p.realm arguments) : Parallel p (callApart depth frame function arguments) := by
  induction depth generalizing frame function arguments with
  | zero => exact .tooDeep
  | succ depth ih =>
    refine .bind (parallel_functionCode called) fun code here => ?_
    split
    · refine Script.parallel_run ⟨fun _ _ _ inRealm called held => ih inRealm called held,
        fun _ => .tooDeep, fun _ name inRealm => parallel_readEnvironment depth inRealm name⟩
        inRealm _ (here arguments held)
    · exact .tooDeep

theorem parallel_apart : (apart depth).Parallel p :=
  ⟨fun _ _ _ inRealm called held => parallel_callApart depth inRealm called held,
    fun _ => .tooDeep, fun _ name inRealm => parallel_readEnvironment depth inRealm name⟩

variable (inRealm : IsLocal p.realm global)
include inRealm

theorem parallel_runApart {script : Script} (held : IsLocal p.realm script) :
    Parallel p (runApart depth p.realm global script) :=
  Script.parallel_run (parallel_apart depth) ⟨rfl, inRealm⟩ script held

theorem parallel_valueApart {script : Script} (held : IsLocal p.realm script) :
    Parallel p (valueApart depth p.realm global script) := by
  refine .bind (parallel_runApart depth inRealm held) fun outcome here => ?_
  split
  · exact .pure here
  · exact .pure trivial

/-! ### Instances -/

theorem parallel_namedValues {scripts : List (String × Script)} (held : IsLocal p.realm scripts) :
    Parallel p (namedValues depth p.realm global scripts) := by
  induction scripts with
  | nil => exact .pure fun _ member => by cases member
  | cons entry rest ih =>
    obtain ⟨here, later⟩ := List.forall_mem_cons.mp held
    exact .bind (parallel_valueApart depth inRealm here) fun value made =>
      .bind (ih later) fun others made' => .pure (List.forall_mem_cons.mpr ⟨made, made'⟩)

theorem parallel_namedExports {scripts : Option (List (String × Script))}
    (held : IsLocal p.realm scripts) :
    Parallel p (namedExports depth p.realm global scripts) := by
  cases scripts with
  | none => exact .pure fun _ none => by cases none
  | some scripts =>
    exact .map (.map (parallel_namedValues depth inRealm (held scripts rfl)) fun _ =>
      Sorted.isLocal_ofList) fun _ made _ same => Option.some.inj same ▸ made

theorem parallel_defaultExport {script : Option Script} (held : IsLocal p.realm script) :
    Parallel p (defaultExport depth p.realm global script) := by
  cases script with
  | none => exact .pure fun _ none => by cases none
  | some script =>
    exact .map (parallel_valueApart depth inRealm (held script rfl)) fun _ made _ same =>
      Option.some.inj same ▸ made

omit inRealm

theorem parallel_globalFor (workplace : Workplace) :
    Parallel p (globalFor p.realm workplace) := by
  cases workplace with
  | given => exact .pure rfl
  | own => exact parallel_newObject Properties.isLocal_empty

theorem parallel_nativeInstance (id : RecordId) (name : String) {exports : NativeExports}
    (named : IsLocal p.realm exports.named) (default : IsLocal p.realm exports.default) :
    Parallel p (nativeInstance depth p.realm id name exports) := by
  refine .get_bind (fun _ _ _ => rfl) fun w _ => .bind (.write _) fun _ _ =>
    .bind (parallel_globalFor _) fun global inRealm =>
    .bind (parallel_namedExports depth inRealm named) fun values held =>
    .bind (parallel_defaultExport depth inRealm default) fun declared given =>
    .bind (parallel_publishNames depth id _) fun _ _ => ?_
  split
  · rename_i value
    exact .pure ⟨held, given value rfl⟩
  · have entries : IsLocal p.realm (values.getD []) := by
      cases values with
      | none => exact fun _ member => by cases member
      | some values => exact held values rfl
    exact .bind (parallel_newObject (Properties.isLocal_ofEntries entries)) fun ref made =>
      .pure ⟨held, made⟩

theorem parallel_legacyInstance (id : RecordId) (name : String) (workplace : Workplace)
    {script : Script} (held : IsLocal p.realm script) :
    Attempt.Parallel p (legacyInstance depth p.realm id name workplace script) := by
  refine .bind (.lift (parallel_globalFor _)) fun global inRealm =>
    .bind (.lift (parallel_valueApart depth inRealm held)) fun value given => ?_
  split
  · exact .throw trivial
  · exact .get_bind (fun w v h => by simp only [h.keys given]) fun w closed =>
      .bind (.lift (parallel_publishNames depth id _)) fun _ _ => .pure given

theorem isLocal_importsOf {module : StaticModule} {error : ModuleError}
    (failed : importsOf module = .error error) : IsLocal p.realm error := by
  unfold importsOf at failed
  generalize ([] : List (String × ImportTarget)) = imports at failed
  generalize module.declarations.imports = statements at failed
  induction statements generalizing imports with
  | nil => cases failed
  | cons statement rest ih =>
    rw [List.foldlM_cons] at failed
    split at failed
    · cases failed
      trivial
    · exact ih _ failed

theorem parallel_newInstance (id : RecordId) :
    Attempt.Parallel p (newInstance depth p.realm id) := by
  refine .get_bind (fun w v h => by simp only [h.record]) fun w closed => ?_
  have held := closed.records id
  cases found : w.record id with
  | static module =>
    rw [found] at held
    dsimp only
    split
    · rename_i error failed
      exact .throw (held.2 error failed)
    · split
      · exact .pure Properties.isLocal_empty
      · rename_i error failed
        exact .throw (isLocal_importsOf failed)
    · exact .throw trivial
  | wrapper module => exact .pure trivial
  | host module =>
    rw [found] at held
    obtain ⟨name, content, names⟩ := module
    cases content with
    | native exports => exact .lift (parallel_nativeInstance depth id name held.1 held.2)
    | document json => exact parallel_legacyInstance depth id name _ (Script.isLocalTo_ofJson json)
    | value script workplace =>
      have announced : IsLocal p.realm (Script.announce (.happened "legacy" name true) script) :=
        ⟨trivial, held⟩
      exact parallel_legacyInstance depth id name workplace announced
  | custom module =>
    rw [found] at held
    refine .bind (.lift (parallel_globalFor _)) fun global inRealm =>
      .bind (.lift (parallel_runApart depth inRealm held.2.1)) fun outcome here => ?_
    split
    · exact .throw (Exception.isLocal_toError here)
    · exact .map (.lift (parallel_namedValues depth inRealm held.2.2.2)) fun _ given => given

theorem parallel_instantiate (id : RecordId) :
    Attempt.Parallel p (instantiate depth p.realm id) := by
  refine .get_bind (fun w v h => by simp only [h.sameRealm, h.hasRecord, h.numberText])
    fun w closed => ?_
  split
  · exact .pure trivial
  · split
    · exact .bind (parallel_newInstance depth id) fun content held =>
        .lift (.modify fun _ _ h => h.addInstance id held)
    · exact .throw trivial

theorem parallel_instantiateFrom (unvisited pending : List RecordId) :
    Attempt.Parallel p (instantiateFrom depth p.realm unvisited pending) := by
  induction unvisited, pending using instantiateFrom.induct with
  | case1 unvisited =>
    rw [instantiateFrom]
    exact .pure trivial
  | case2 unvisited id rest unvisitedYet ih =>
    rw [instantiateFrom, if_pos unvisitedYet]
    exact .bind (parallel_instantiate depth id) fun _ _ =>
      .get_bind (fun w v h => by simp only [h.record]) fun w _ => ih w
  | case3 unvisited id rest visited ih =>
    rw [instantiateFrom, if_neg visited]
    exact ih

theorem parallel_instantiateGraph (root : RecordId) :
    Attempt.Parallel p (instantiateGraph depth p.realm root) :=
  .get_bind (fun w v h => by simp only [h.recordIds]) fun _ _ => parallel_instantiateFrom depth _ _

end Action
end ModuleGraph
