import ModuleGraph.Proofs.FirstSuccess

/-!
What happens to exported names in a run. Somebody asks for names, or some are published; all else
that code does leaves the memos and those who wait as they are, and of the static modules it changes
only unlinked ones, by linking them. So a run goes, as far as exported names are concerned, by steps
between worlds in which no module links and nobody is being told.
-/
namespace ModuleGraph
open World Engine Relation

namespace World
variable {w w' w'' : World} {id : RecordId} {tags : Json → Bool}

/-! ### What leaves names alone -/

/-- What went on has only made new records and linked static modules, which are no longer unlinked
then: no other record has changed, the same wait for names, and no names were passed on. -/
structure Unheard (w w' : World) : Prop where
  hasRecord : ∀ id, w.hasRecord id → w'.hasRecord id
  other : ∀ id, w.hasRecord id → (∀ module, w.record id ≠ .static module) →
    w'.record id = w.record id
  static : ∀ id module, w.record id = .static module → ∃ status requested,
    w'.record id = .static { module with status, requested } ∧
      (status = .unlinked → module.status = .unlinked ∧ requested = module.requested)
  waiters : ∀ id, (w'.record id).waiters = (w.record id).waiters
  told : ∀ tags, w'.told tags = w.told tags

theorem Unheard.trans (h : Unheard w w') (h' : Unheard w' w'') : Unheard w w'' where
  hasRecord id present := h'.hasRecord id (h.hasRecord id present)
  other id present notStatic := by
    have same := h.other id present notStatic
    rw [h'.other id (h.hasRecord id present) (same ▸ notStatic), same]
  static id module found := by
    obtain ⟨_, _, found', before⟩ := h.static id module found
    obtain ⟨status, requested, found'', still⟩ := h'.static id _ found'
    refine ⟨status, requested, found'', fun unlinked => ?_⟩
    obtain ⟨unlinked', same⟩ := still unlinked
    exact ⟨(before unlinked').1, same.trans (before unlinked').2⟩
  waiters id := (h'.waiters id).trans (h.waiters id)
  told tags := (h'.told tags).trans (h.told tags)

theorem Unheard.setStatic (h : Unheard w w') {module : StaticModule}
    (found : w'.record id = .static module) {status : LinkStatus} (begun : status ≠ .unlinked)
    (requested : List (String × RecordId)) :
    Unheard w (w'.setRecord id (.static { module with status, requested })) := by
  refine h.trans ⟨fun x present => ?_, fun x _ notStatic => ?_, fun x module' found' => ?_,
    fun x => ?_, fun _ => rfl⟩
  · simpa [World.hasRecord, World.setRecord] using present
  · rw [record_setRecord, if_neg]
    rintro ⟨rfl, -⟩
    exact notStatic module found
  · rw [record_setRecord]
    split
    · rename_i same
      cases (same.1 ▸ found).symm.trans found'
      exact ⟨status, requested, rfl, fun unlinked => absurd unlinked begun⟩
    · exact ⟨_, _, found', fun unlinked => ⟨unlinked, rfl⟩⟩
  · rw [record_setRecord]
    split
    · rename_i same
      rw [same.1, found]
      rfl
    · rfl

/-- What went on has left alone also the static modules that were not unlinked. -/
structure Aside (w w' : World) : Prop extends Unheard w w' where
  begun : ∀ id module, w.record id = .static module → module.status ≠ .unlinked →
    w'.record id = .static module

namespace Aside

theorem trans (h : Aside w w') (h' : Aside w' w'') : Aside w w'' :=
  ⟨h.toUnheard.trans h'.toUnheard, fun id module found begun =>
    h'.begun id module (h.begun id module found begun) begun⟩

theorem of_records (records : w'.records = w.records)
    (journal : ∃ events, w'.journal.toList = w.journal.toList ++ events ∧
      ∀ event ∈ events, ∀ tags, event.told? tags = none) : Aside w w' := by
  have record (x : RecordId) : w'.record x = w.record x := by simp only [World.record, records]
  obtain ⟨events, grown, untold⟩ := journal
  refine ⟨⟨fun x present => ?_, fun x _ _ => record x, fun x module found => ?_,
    fun x => by rw [record], fun tags => ?_⟩, fun x module found _ => (record x).trans found⟩
  · rwa [World.hasRecord, records]
  · exact ⟨_, _, (record x).trans found, fun unlinked => ⟨unlinked, rfl⟩⟩
  · have nothing : events.filterMap (Event.told? tags) = [] :=
      List.filterMap_eq_nil_iff.mpr fun event member => untold event member tags
    rw [World.told, grown, List.filterMap_append, nothing, List.append_nil, World.told]

theorem refl (w : World) : Aside w w := .of_records rfl ⟨[], by simp⟩

theorem write (w : World) {event : Event} (untold : ∀ tags, event.told? tags = none) :
    Aside w (w.write event) :=
  .of_records rfl ⟨[event], by simp [World.write], by simpa using untold⟩

theorem modifyRealm (w : World) (realm : RealmId) (change : Realm → Realm) :
    Aside w (w.modifyRealm realm change) :=
  .of_records rfl ⟨[], by simp [World.modifyRealm, setRealm]⟩

theorem addRecord (w : World) {record : Record} (alone : record.waiters = []) :
    Aside w (w.addRecord record).2 where
  hasRecord x present := by
    simp only [World.hasRecord, World.addRecord, Array.size_push, decide_eq_true_eq] at present ⊢
    omega
  other x present _ := record_addRecord_of_hasRecord w record present
  static x module found := by
    refine ⟨_, _, ?_, fun unlinked => ⟨unlinked, rfl⟩⟩
    rw [record_addRecord_of_hasRecord w record (hasRecord_of_static found), found]
  waiters x := by
    rw [record_addRecord]
    split
    · rename_i new
      have absent : w.record x = default :=
        record_of_not_hasRecord (by simp [new, World.addRecord, World.hasRecord])
      rw [alone, absent]
      rfl
    · rfl
  told _ := rfl
  begun x module found _ := by
    rw [record_addRecord_of_hasRecord w record (hasRecord_of_static found), found]

theorem stroke (stroke : Stroke w w') : Aside w w' := by
  cases stroke with
  | mark mark =>
    cases mark with
    | write event spoken => exact write w fun tags => by cases event <;> first | rfl | cases spoken
    | _ => exact modifyRealm w _ _
  | pushFunction => exact modifyRealm w _ _
  | lock => exact .of_records rfl ⟨[], by simp [lock]⟩

theorem strokes (strokes : Strokes w w') : Aside w w' := by
  induction strokes with
  | refl => exact refl w
  | tail _ stroke ih => exact ih.trans (.stroke stroke)

theorem turns (turns : Turns w w') : Aside w w' := by
  induction turns with
  | refl => exact refl w
  | tail _ turn ih =>
    refine ih.trans ?_
    cases turn with
    | arrange => exact modifyRealm _ _ _
    | write event steers => exact write _ fun tags => by cases event <;> first | rfl | cases steers

theorem lookedUp {embedding : Embedding} {place : Place} {refused : String}
    {outcome : Outcome RecordId} (did : LookedUp embedding place refused w outcome w') :
    Aside w w' := by
  have asked {events : List Event} {w' : World} (inquires : embedding.Inquires place events)
      (asked : Asked events w w') : Aside w w' := by
    refine .of_records asked.records ⟨events, asked.journal, fun event member tags => ?_⟩
    have inquiry := List.filter_eq_self.mp inquires.inquiry.filter_isInquiry event member
    have foreign : event.IsForeign ⟨0⟩ tags := Event.isForeign_of_inquiry inquiry
    exact foreign.untold
  have kept {w' : World} (cache : Cache RecordId) : Aside w' { w' with cache } :=
    .of_records rfl ⟨[], by simp⟩
  cases did with
  | kept | refused => exact refl w
  | discovered _ _ discovered =>
    refine trans ?_ (kept _)
    cases discovered with
    | made inquires inquired makes =>
      have made := (asked inquires inquired).trans (addRecord _ makes.waiters)
      cases place with
      | host => exact made
      | location => exact made.trans (.of_records rfl ⟨[], by simp [enroll]⟩)
    | failed inquires inquired => exact asked inquires inquired

end Aside

/-! ### Steps -/

/-- A step that matters to exported names, or not: something else goes on; somebody asks for names,
but under none of the tags that are set apart; or names are published, and all who wait are told. -/
inductive NameStep (tags : Json → Bool) (w : World) : World → Prop
  | aside {w' : World} (aside : Aside w w') : NameStep tags w w'
  | ask {depth : Nat} {id : RecordId} {watcher : Watcher} {answer : Bool} {w' : World}
      (apart : tags watcher.tag = false)
      (asked : Action.askNames depth id watcher w = .ok answer w') : NameStep tags w w'
  | publish {depth : Nat} {id : RecordId} {names : List String} {w' : World}
      (published : Action.publishNames depth id names w = .ok () w') : NameStep tags w w'

/-- Any number of steps. -/
abbrev NameSteps (tags : Json → Bool) : World → World → Prop := ReflTransGen (NameStep tags)

end World

/-! ### Runs go by steps -/

namespace Embedding
variable {embedding : Embedding} {w : World}

theorem consulted_unheard (embedding : Embedding) (w : World) :
    Engine.Consulted embedding (fun _ => True) (Unheard w) :=
  .of_lookedUp ⟨fun _ _ => trivial, fun _ _ strokes h => h.trans (Aside.strokes strokes).toUnheard⟩
    embedding.staysWithin_all (fun _ _ _ _ _ => trivial)
    fun _ _ _ _ _ _ lookedUp h => h.trans (Aside.lookedUp lookedUp).toUnheard

/-- Linking leaves names alone. -/
theorem meets_link_aside (embedding : Embedding) (depth : Nat) (id : RecordId) (w : World) :
    Attempt.Meets (fun _ => True) (fun _ => Aside w) (embedding.link depth id) (fun _ => Aside w)
      w := by
  have asks (w' : World) (x : RecordId) (specifier : String) (h : Unheard w w') :
      Unheard w (w'.write (.asked x specifier)) := h.trans (Aside.write w' fun _ => rfl).toUnheard
  have unheard : Attempt.Upholds (fun _ => True) (Unheard w) (embedding.link depth id) := by
    refine upholds_link_with
      (fun _ _ _ _ requested found begun h => h.setStatic found begun requested)
      (fun _ _ => trivial) (fun w' x module found _ h => ?_) depth id
    exact (upholds_importAll_of (consulted_unheard embedding w) asks module.importer x _).meets
      (h.setStatic found (by simp) module.requested)
  exact ((unheard.meets (Aside.refl w).toUnheard).and ((embedding.keeps_link depth id).meets w)).imp
    (fun _ _ => trivial) (fun _ _ h => ⟨h.1, h.2.begun⟩) fun _ _ h => ⟨h.1, h.2.begun⟩

end Embedding

namespace Engine
variable {embedding : Embedding} {tags : Json → Bool} {w₀ : World}

theorem scripted_nameSteps : Scripted (fun _ => True) (NameSteps tags w₀) where
  stop _ _ := trivial
  strokes _ _ strokes h := h.tail (.aside (.strokes strokes))

theorem upholds_publishNames_steps (depth : Nat) (id : RecordId) (names : List String) :
    Action.Upholds (fun _ => True) (NameSteps tags w₀) (Action.publishNames depth id names) := by
  intro w h
  unfold Action.Meets
  split
  · exact h.tail (.publish ‹_›)
  · trivial

theorem borne_nameSteps (embedding : Embedding) :
    Borne embedding (fun _ => True) (NameSteps tags w₀) := by
  have consulted : Consulted embedding (fun _ => True) (NameSteps tags w₀) :=
    .of_lookedUp scripted_nameSteps embedding.staysWithin_all (fun _ _ _ _ _ => trivial)
      fun _ _ _ _ _ _ lookedUp h => h.tail (.aside (.lookedUp lookedUp))
  refine ⟨consulted, fun depth id _ => .of_meets fun w h => ?_, fun _ _ _ _ _ => trivial,
    fun depth realm id => .of_meets fun w h => ?_⟩
  · exact (embedding.meets_link_aside depth id w).imp (fun _ _ => trivial)
      (fun _ _ aside => h.tail (.aside aside)) fun _ _ aside => h.tail (.aside aside)
  · unfold Action.instantiate
    rw [Attempt.meets_bind, Attempt.meets_get]
    split
    · exact h
    · split
      · rw [Attempt.meets_bind]
        refine (Action.meets_newInstance_of_publishes scripted_nameSteps.stop
          scripted_nameSteps.strokes (fun _ _ names => upholds_publishNames_steps depth id names)
          realm h).mono fun content w' h => ?_
        exact h.tail (.aside ((Aside.modifyRealm w' realm _).trans (.write _ fun _ => rfl)))
      · exact h

/-- The execution of any body goes by steps of names. -/
theorem upholds_executeInWalk_steps {embedding : Embedding} {depth : Nat}
    (upholds : ∀ realm, (ofDepth embedding depth).Upholds realm (fun _ => True) (NameSteps tags w₀))
    (realm : RealmId) (id : RecordId) :
    Attempt.Upholds (fun _ => True) (NameSteps tags w₀)
      ((ofDepth embedding depth).executeInWalk realm id) := by
  have written {w : World} (h : NameSteps tags w₀ w) {event : Event}
      (untold : ∀ tags, event.told? tags = none) : NameSteps tags w₀ (w.write event) :=
    h.tail (.aside (.write w untold))
  have turned (w : World) (running : Option RecordId) (h : NameSteps tags w₀ w) :
      NameSteps tags w₀ (w.running realm running) := h.tail (.aside (.modifyRealm w realm _))
  have executed : Attempt.Upholds (fun _ => True) (NameSteps tags w₀)
      ((ofDepth embedding depth).execute realm id) :=
    .bind (upholds_slotOf realm id) fun slot => .bind .get fun world =>
      .bind (.lift fun _ h => written h fun _ => rfl) fun _ =>
      upholds_runInstance_of scripted_nameSteps (upholds realm)
        (fun _ _ names => upholds_publishNames_steps _ id names)
        fun _ _ w _ _ h => h.tail (.aside (.modifyRealm w realm _))
  exact upholds_executeInWalk turned (fun _ => executed.meets)
    (fun _ _ h => written h fun _ => rfl) fun _ h => written (turned _ none h) fun _ => rfl

/-- Evaluation goes by steps of names. -/
theorem lasting_nameSteps (embedding : Embedding) :
    Lasting embedding (fun _ => True) (NameSteps tags w₀) where
  toBorne := borne_nameSteps embedding
  turns _ _ turns h := h.tail (.aside (.turns turns))
  executes _ realm id upholds _ h _ := (upholds_executeInWalk_steps upholds realm id).meets h

end Engine

section
variable {tags : Json → Bool} {w₀ w : World}

/-- Whatever is done goes by steps of names, if nothing is asked under the tags that are set apart.
-/
theorem Deed.meets_act_steps (deed : Deed) (embedding : Embedding) (depth : Nat)
    (apart : ∀ ask ∈ deed.asks?, tags ask.2 = false) (h : NameSteps tags w₀ w) :
    Action.Meets (fun _ => True) (deed.act embedding depth) (fun _ => NameSteps tags w₀) w := by
  have lasting : Engine.Lasting embedding (fun _ => True) (NameSteps tags w₀) :=
    Engine.lasting_nameSteps embedding
  have sustains := lasting.ofDepth depth
  cases deed with
  | executes realm id =>
    exact (Action.meets_discard _).mpr
      (Engine.upholds_executeInWalk_steps sustains.upholds realm id w h)
  | does operation =>
    refine Setup.upholds_perform lasting.toBorne (sustains.walk lasting) sustains.upholds
      operation.staysWithin_all (fun _ _ => trivial) (fun id tag asks => ?_) w h
    intro w h
    unfold Action.Meets
    split
    · have free : tags (Watcher.report tag).tag = false := apart (id, tag) (by rw [asks]; rfl)
      exact h.tail (.ask free ‹_›)
    · trivial

theorem Deed.meets_actEach_steps (depth : Nat) {deeds : List (Embedding × Deed)}
    (apart : ∀ deed ∈ deeds, ∀ ask ∈ deed.2.asks?, tags ask.2 = false) (h : NameSteps tags w₀ w) :
    Action.Meets (fun _ => True) (actEach depth deeds) (fun _ => NameSteps tags w₀) w := by
  induction deeds generalizing w with
  | nil => exact h
  | cons deed rest ih =>
    rw [List.forall_mem_cons] at apart
    unfold actEach
    rw [Action.meets_bind]
    exact (deed.2.meets_act_steps deed.1 depth apart.1 h).mono fun _ _ => ih apart.2

end
end ModuleGraph
