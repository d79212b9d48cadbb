import ModuleGraph.Proofs.KnownNames

/-!
Names that are asked for before they are known. Behind a module may be records whose names nobody
knows yet. Then the question waits at one of them; when its names are published the question comes
back to the module that asked, and goes on to the next record whose names are still unknown. In all
states of this the same is true: either one watcher waits, at a record behind the module that is still
without names, or nobody waits, the names of the module are known, and they were passed on once.
-/
namespace ModuleGraph
open World Relation

/-- The modules that a watcher makes ask again, the last one first. -/
def Watcher.chain : Watcher → List RecordId
  | .report _ => []
  | .reask id andThen => id :: andThen.chain

namespace World
variable {w w' : World} {root id star x y : RecordId} {tag : Json} {tags : Json → Bool}
  {watcher : Watcher} {watchers : List Watcher} {names : List String} {memo : NameMemo Watcher}
  {before : List (List String)} {stuck : World → Prop} {depth : Nat}

/-! ### Graphs of stars -/

/-- From a record `export *` leads around nowhere, and only to static modules that are linked, to
wrapper-style scripts and to host modules. -/
structure StarGraph (w : World) (root : RecordId) : Prop where
  made : ∀ x, w.StarsTo root x →
    (∃ module, w.record x = .static module ∧ module.status = .linked) ∨ (w.record x).memo?.isSome
  acyclic : ∀ x, w.StarsTo root x → ¬ TransGen w.ExportsAlong x x

namespace StarGraph

theorem hasRecord (graph : w.StarGraph root) (path : w.StarsTo root x) : w.hasRecord x := by
  rcases graph.made x path with ⟨module, found, _⟩ | has
  · exact hasRecord_of_static found
  · obtain ⟨memo, found⟩ := Option.isSome_iff_exists.mp has
    exact hasRecord_of_memo? found

theorem along_iff (graph : w.StarGraph root) (learns : Learns w w') (path : w.StarsTo root x) :
    w'.ExportsAlong x y ↔ w.ExportsAlong x y := by
  have notAlong {w : World} (has : (w.record x).memo?.isSome) : ¬ w.ExportsAlong x y := by
    rintro ⟨module, found, _⟩
    rw [found] at has
    cases has
  rcases graph.made x path with ⟨module, found, linked⟩ | has
  · have found' := learns.begun x module found (by rw [linked]; simp)
    simp only [ExportsAlong, found, found']
  · exact iff_of_false (notAlong (learns.hasMemo x has)) (notAlong has)

/-- What lies behind the record stays the same. -/
theorem starsTo_iff (graph : w.StarGraph root) (learns : Learns w w') :
    w'.StarsTo root x ↔ w.StarsTo root x := by
  constructor <;> intro path
  · induction path with
    | refl => exact .refl
    | tail _ along ih => exact ih.tail ((graph.along_iff learns ih).mp along)
  · induction path with
    | refl => exact .refl
    | tail path along ih => exact ih.tail ((graph.along_iff learns path).mpr along)

theorem learns (graph : w.StarGraph root) (learns : Learns w w') : w'.StarGraph root where
  made x path := by
    rcases graph.made x ((graph.starsTo_iff learns).mp path) with ⟨module, found, linked⟩ | has
    · exact .inl ⟨module, learns.begun x module found (by rw [linked]; simp), linked⟩
    · exact .inr (learns.hasMemo x has)
  acyclic x path := by
    have path := (graph.starsTo_iff learns).mp path
    have back {y : RecordId} (ahead : TransGen w'.ExportsAlong x y) :
        TransGen w.ExportsAlong x y := by
      induction ahead with
      | single along => exact .single ((graph.along_iff learns path).mp along)
      | tail _ along ih =>
        exact ih.tail ((graph.along_iff learns (path.trans ih.to_reflTransGen)).mp along)
    exact fun around => graph.acyclic x path (back around)

theorem firm (graph : w.StarGraph root) (learns : Learns w w') (path : w.StarsTo root x) :
    Firm w w' x := by
  refine ⟨fun module found => ?_, learns.named x⟩
  rcases graph.made x path with ⟨_, found', linked⟩ | has
  · cases found.symm.trans found'
    exact ⟨module, learns.begun x module found (by rw [linked]; simp), rfl, rfl⟩
  · rw [found] at has
    cases has

theorem knownNames? (graph : w.StarGraph root) (learns : Learns w w')
    (known : w.knownNames? root = some names) : w'.knownNames? root = some names :=
  knownNames?_of_firm (fun _ path => graph.firm learns path) known

end StarGraph

/-! ### The way back -/

/-- A watcher that waits for the names of a record leads back to the report of those of the root:
each module on the way asks again, and exports along the one before it. -/
inductive LeadsBack (w : World) (root : RecordId) (tag : Json) : RecordId → Watcher → Prop
  | report : LeadsBack w root tag root (.report tag)
  | reask {id star : RecordId} {watcher : Watcher} (leads : LeadsBack w root tag id watcher)
      (along : w.ExportsAlong id star) : LeadsBack w root tag star (.reask id watcher)

namespace LeadsBack

theorem tag_eq (leads : w.LeadsBack root tag id watcher) : watcher.tag = tag := by
  induction leads with
  | report => rfl
  | reask _ _ ih => exact ih

theorem starsTo (leads : w.LeadsBack root tag id watcher) : w.StarsTo root id := by
  induction leads with
  | report => exact .refl
  | reask _ along ih => exact ih.tail along

theorem learns (leads : w.LeadsBack root tag id watcher) (graph : w.StarGraph root)
    (learns : Learns w w') : w'.LeadsBack root tag id watcher := by
  induction leads with
  | report => exact .report
  | reask leads along ih => exact ih.reask ((graph.along_iff learns leads.starsTo).mpr along)

theorem behind (leads : w.LeadsBack root tag id watcher) :
    ∀ x ∈ watcher.chain, w.StarsTo root x ∧ TransGen w.ExportsAlong x id := by
  induction leads with
  | report => simp [Watcher.chain]
  | reask leads along ih =>
    refine List.forall_mem_cons.mpr ⟨⟨leads.starsTo, .single along⟩, fun x member => ?_⟩
    exact ⟨(ih x member).1, (ih x member).2.tail along⟩

theorem nodup (leads : w.LeadsBack root tag id watcher) (graph : w.StarGraph root) :
    (id :: watcher.chain).Nodup := by
  induction leads with
  | report => exact List.nodup_singleton root
  | @reask id star watcher leads along ih =>
    have ahead := (leads.reask along).behind
    refine List.nodup_cons.mpr ⟨fun member => ?_, ih⟩
    exact graph.acyclic star (ahead star member).1 (ahead star member).2

/-- The way back is shorter than there are records. -/
theorem length_lt (leads : w.LeadsBack root tag id watcher) (graph : w.StarGraph root) :
    watcher.chain.length < w.records.size := by
  have sub : id :: watcher.chain ⊆ w.recordIds := by
    refine List.cons_subset.mpr ⟨mem_recordIds.mpr (graph.hasRecord leads.starsTo), fun x member => ?_⟩
    exact mem_recordIds.mpr (graph.hasRecord (leads.behind x member).1)
  simpa [recordIds] using List.Nodup.length_le_of_subset (leads.nodup graph) sub

end LeadsBack

/-! ### Other questions -/

/-- Others have asked for names, or were told them: under the tags nothing has changed. -/
structure Overheard (tags : Json → Bool) (w w' : World) : Prop extends Equinamed w w' where
  waiting : ∀ x, w'.waiting tags x = w.waiting tags x
  told : w'.told tags = w.told tags

instance : Hears (fun tag => tags tag = false) (Overheard tags) where
  refl w := ⟨.refl w, fun _ => rfl, rfl⟩
  trans _ _ _ h h' := ⟨h.toEquinamed.trans h'.toEquinamed,
    fun x => (h'.waiting x).trans (h.waiting x), h'.told.trans h.told⟩
  named w tag names apart := by
    refine ⟨.of_records rfl, fun _ => rfl, ?_⟩
    simp [told_write, Event.told?, apart]
  enqueue w id memo watcher found apart := by
    refine ⟨.enqueue found watcher, fun x => ?_, rfl⟩
    rw [waiting_setMemo found]
    split
    · rename_i here
      simp [here, World.waiting, Record.waiters_of_memo? found, NameMemo.enqueue, apart]
    · rfl

theorem overheard_askNames (depth : Nat) (id : RecordId) (apart : tags watcher.tag = false) :
    Action.Keeps (Overheard tags) (Action.askNames depth id watcher) :=
  Action.keeps_askNames_of (fun tag => tags tag = false) depth id apart

theorem overheard_tellAll (depth : Nat) (names : List String)
    (apart : ∀ watcher ∈ watchers, tags watcher.tag = false) :
    Action.Keeps (Overheard tags) (Action.tellAll (Action.askNames depth) names watchers) :=
  Action.keeps_tellAll (fun tag => tags tag = false)
    (fun id _ apart => overheard_askNames depth id apart) names apart

theorem Equinamed.unnamed (h : Equinamed w w') (unnamed : w.Unnamed id) : w'.Unnamed id := by
  refine ⟨kind_ne_static_iff.mpr fun module found => ?_, (h.settledNames? id).trans unnamed.2⟩
  exact kind_ne_static_iff.mp unnamed.1 module (h.symm.static found)

/-! ### A question that waits or was answered -/

/-- Nobody waits under the tags, and so much was passed on under them. -/
structure Unasked (tags : Json → Bool) (before : List (List String)) (w : World) : Prop where
  nobody : ∀ x, w.waiting tags x = []
  told : w.told tags = before

/-- What a question for the names of a root has come to: it waits at a record whose names nobody
knows, or the names are known and were passed on. -/
inductive Queried (root : RecordId) (tag : Json) (tags : Json → Bool) (before : List (List String))
    (w : World) : Prop
  | waits (t : RecordId) (watcher : Watcher) (leads : w.LeadsBack root tag t watcher)
      (unnamed : w.Unnamed t) (here : w.waiting tags t = [watcher])
      (elsewhere : ∀ x, x ≠ t → w.waiting tags x = []) (told : w.told tags = before)
  | answered (names : List String) (known : w.knownNames? root = some names)
      (unasked : Unasked tags (before ++ [names]) w)

namespace Queried

/-- The names were passed on exactly if they are known. -/
theorem told (queried : Queried root tag tags before w) :
    w.told tags = before ++ (w.knownNames? root).toList := by
  cases queried with
  | waits t watcher leads unnamed _ _ told =>
    rw [told, knownNames?_eq_none.mpr ⟨t, leads.starsTo, unnamed⟩, Option.toList_none,
      List.append_nil]
  | answered names known unasked => rw [unasked.told, known, Option.toList_some]

/-- A question stays where it is as long as the same wait, and the record where it waits stays without
names. -/
theorem carry (queried : Queried root tag tags before w) (graph : w.StarGraph root)
    (learns : Learns w w') (waiting : ∀ x, w'.waiting tags x = w.waiting tags x)
    (told : w'.told tags = w.told tags)
    (unnamed : ∀ t, w.StarsTo root t → w.Unnamed t → w.waiting tags t ≠ [] → w'.Unnamed t) :
    Queried root tag tags before w' := by
  cases queried with
  | waits t watcher leads unnamed' here elsewhere told' =>
    refine .waits t watcher (leads.learns graph learns) ?_ ((waiting t).trans here)
      (fun x apart => (waiting x).trans (elsewhere x apart)) (told.trans told')
    exact unnamed t leads.starsTo unnamed' (by rw [here]; simp)
  | answered names known unasked =>
    exact .answered names (graph.knownNames? learns known)
      ⟨fun x => (waiting x).trans (unasked.nobody x), told.trans unasked.told⟩

theorem overheard (queried : Queried root tag tags before w) (graph : w.StarGraph root)
    (same : Overheard tags w w') : Queried root tag tags before w' :=
  queried.carry graph (.of_equinamed same.toEquinamed) same.waiting same.told
    fun _ _ unnamed _ => same.toEquinamed.unnamed unnamed

theorem aside (queried : Queried root tag tags before w) (graph : w.StarGraph root)
    (aside : Aside w w') : Queried root tag tags before w' := by
  refine queried.carry graph (.of_aside aside) (fun x => ?_) (aside.told tags)
    fun t path unnamed _ => ?_
  · rw [World.waiting, aside.waiters, World.waiting]
  · rw [Unnamed, aside.other t (graph.hasRecord path) (kind_ne_static_iff.mp unnamed.1)]
    exact unnamed

end Queried

/-! ### Asking -/

/-- The depth is enough for a question that leads back: to descend to a record without names if there
is one, and else to go back and descend from there. -/
def Suffices (w : World) (depth : Nat) (id : RecordId) (watcher : Watcher) : Prop :=
  match w.knownNames? id with
  | some _ => w.records.size + watcher.chain.length ≤ depth
  | none => w.records.size ≤ depth + watcher.chain.length

/-- What a question that leads back brings about. -/
def Pursued (root : RecordId) (tag : Json) (tags : Json → Bool) (before : List (List String))
    (w w' : World) : Prop :=
  Equinamed w w' ∧ Queried root tag tags before w'

section
variable {ask : RecordId → Watcher → Action Bool}

/-- Who is told names asks on, or reports them. -/
theorem meets_tell_queried
    (asks : ∀ next andThen, watcher = .reask next andThen → w.LeadsBack root tag next andThen →
      Action.Meets stuck (ask next andThen) (fun _ => Pursued root tag tags before w) w)
    (tagged : tags tag = true) (unasked : Unasked tags before w)
    (leads : w.LeadsBack root tag id watcher) (known : w.knownNames? id = some names) :
    Action.Meets stuck (Action.tell ask watcher names) (fun _ => Pursued root tag tags before w) w := by
  cases leads with
  | report =>
    have same : Equinamed w (w.write (.named tag names)) := .of_records rfl
    refine ⟨same, .answered names ((same.knownNames? root).trans known) ⟨unasked.nobody, ?_⟩⟩
    simp [told_write, unasked.told, Event.told?, tagged]
  | @reask next _ andThen leads along => exact (Action.meets_discard _).mpr (asks next andThen rfl leads)

end

theorem meets_askNames_memo {post : Bool → World → Prop} (found : (w.record id).memo? = some memo) :
    Action.Meets stuck (Action.askNames (depth + 1) id watcher) post w ↔
      match memo.names? with
      | some names =>
        Action.Meets stuck (Action.tell (Action.askNames depth) watcher names) (fun _ => post true) w
      | none => post false (w.setRecord id ((w.record id).withMemo (memo.enqueue watcher))) := by
  unfold Action.askNames
  rw [Action.meets_bind, Action.meets_get]
  cases record : w.record id with
  | static | custom =>
    rw [record] at found
    cases found
  | wrapper | host =>
    rw [record] at found
    obtain rfl := Option.some.inj found
    simp only [Record.memo?]
    cases NameMemo.names? _ <;> simp

theorem kind_ne_static_of_memo? (found : (w.record id).memo? = some memo) :
    (w.record id).kind ≠ .static := by
  refine kind_ne_static_iff.mpr fun module here => ?_
  rw [here] at found
  cases found

/-- A question that leads back waits at a record that has no names yet. -/
theorem LeadsBack.waits (leads : w.LeadsBack root tag id watcher) (graph : w.StarGraph root)
    (tagged : tags tag = true) (unasked : Unasked tags before w)
    (found : (w.record id).memo? = some memo) (unknown : memo.names? = none) :
    Pursued root tag tags before w
      (w.setRecord id ((w.record id).withMemo (memo.enqueue watcher))) := by
  have equal : Equinamed w _ := .enqueue found watcher
  have unnamed : w.Unnamed id :=
    ⟨kind_ne_static_of_memo? found, (Record.settledNames?_of_memo? found).trans unknown⟩
  refine ⟨equal, .waits id watcher (leads.learns graph (.of_equinamed equal))
    (equal.unnamed unnamed) ?_ (fun x apart => ?_) unasked.told⟩
  · have nobody := unasked.nobody id
    rw [World.waiting, Record.waiters_of_memo? found] at nobody
    rw [waiting_setMemo found, if_pos rfl]
    simp [NameMemo.enqueue, nobody, leads.tag_eq, tagged]
  · rw [waiting_setMemo found, if_neg apart, unasked.nobody]

/-- A question that leads back waits then, or was answered. -/
theorem meets_askNames_queried (graph : w.StarGraph root) (tagged : tags tag = true)
    (unasked : Unasked tags before w) (leads : w.LeadsBack root tag id watcher)
    (enough : (∀ w', stuck w') ∨ w.Suffices depth id watcher) :
    Action.Meets stuck (Action.askNames depth id watcher)
      (fun answer w' => answer = (w.knownNames? id).isSome ∧ Pursued root tag tags before w w') w := by
  have short := leads.length_lt graph
  induction depth generalizing id watcher with
  | zero =>
    rcases enough with any | suffices_
    · exact any w
    · unfold Suffices at suffices_
      split at suffices_ <;> omega
  | succ depth ih =>
    have told {names : List String} (known : w.knownNames? id = some names) :
        Action.Meets stuck (Action.tell (Action.askNames depth) watcher names)
          (fun _ => Pursued root tag tags before w) w := by
      refine meets_tell_queried (fun next andThen same leads => ?_) tagged unasked leads known
      have short' := leads.length_lt graph
      refine (ih leads (enough.imp_right fun suffices_ => ?_) short').mono fun _ _ asks => asks.2
      rw [Suffices, known, same, Watcher.chain, List.length_cons] at suffices_
      unfold Suffices
      split <;> dsimp only at suffices_ <;> omega
    rcases graph.made id leads.starsTo with ⟨module, found, _⟩ | has
    · unfold Action.askNames
      rw [Action.meets_bind, Action.meets_get, found]
      dsimp only
      rcases askStars_cases found with ⟨names, known, stars⟩ | ⟨star, along, unknown, stars, behind⟩
      · rw [stars, known]
        dsimp only
        rw [Action.meets_bind]
        exact (told known).mono fun _ _ asks => ⟨rfl, asks⟩
      · rw [stars, unknown]
        dsimp only
        rw [Action.meets_bind, Action.meets_discard]
        have leads' := leads.reask along
        refine (ih leads' (enough.imp_right fun suffices_ => ?_) (leads'.length_lt graph)).mono
          fun _ _ asks => ⟨rfl, asks.2⟩
        rw [Suffices, unknown] at suffices_
        rw [Suffices, knownNames?_eq_none.mpr behind, Watcher.chain, List.length_cons]
        dsimp only at suffices_ ⊢
        omega
    · obtain ⟨memo, found⟩ := Option.isSome_iff_exists.mp has
      have same := (knownNames?_foreign (kind_ne_static_of_memo? found)).trans
        (Record.settledNames?_of_memo? found)
      rw [meets_askNames_memo found]
      split
      · rename_i names known
        rw [known] at same
        exact (told same).mono fun _ _ asks => ⟨by rw [same]; rfl, asks⟩
      · rename_i unknown
        rw [unknown] at same
        exact ⟨by rw [same]; rfl, leads.waits graph tagged unasked found unknown⟩

/-! ### Publishing -/

/-- Those who wait are told under other tags. -/
theorem meets_tellAll_apart (apart : ∀ other ∈ watchers, tags other.tag = false)
    (enough : (∀ w', stuck w') ∨ ∀ other ∈ watchers, tags other.tag = true) (w : World) :
    Action.Meets stuck (Action.tellAll (Action.askNames depth) names watchers)
      (fun _ => Overheard tags w) w := by
  rcases enough with any | all
  · exact (overheard_tellAll depth names apart w).imp (fun w' _ => any w') fun _ _ same => same
  · have none : watchers = [] := List.eq_nil_iff_forall_not_mem.mpr fun other member => by
      simpa [all other member] using apart other member
    rw [none]
    exact ⟨.refl w, fun _ => rfl, rfl⟩

/-- Of those who wait for names one is told that leads back; the others are told under other tags. -/
theorem meets_tellAll_queried (graph : w.StarGraph root) (tagged : tags tag = true)
    (unasked : Unasked tags before w) (leads : w.LeadsBack root tag id watcher)
    (known : w.knownNames? id = some names) (one : watchers.filter (tags ·.tag) = [watcher])
    (enough : (∀ w', stuck w') ∨
      2 * w.records.size ≤ depth ∧ ∀ other ∈ watchers, tags other.tag = true) :
    Action.Meets stuck (Action.tellAll (Action.askNames depth) names watchers)
      (fun _ => Queried root tag tags before) w := by
  induction watchers generalizing w with
  | nil => cases one
  | cons first rest ih =>
    unfold Action.tellAll
    rw [Action.meets_bind]
    by_cases isOne : tags first.tag = true
    · rw [List.filter_cons_of_pos (by simpa using isOne), List.cons_eq_cons] at one
      obtain ⟨rfl, nobody⟩ := one
      refine (meets_tell_queried (fun next andThen same leads => ?_) tagged unasked leads known).mono
        fun _ w' pursued => ?_
      · refine (meets_askNames_queried graph tagged unasked leads
          (enough.imp_right fun deep => ?_)).mono fun _ _ asks => asks.2
        have short := leads.length_lt graph
        unfold Suffices
        split <;> omega
      · refine (meets_tellAll_apart (by simpa using nobody) (enough.imp_right fun deep => ?_) w').mono
          fun _ _ same => pursued.2.overheard (graph.learns (.of_equinamed pursued.1)) same
        exact (List.forall_mem_cons.mp deep.2).2
    · have apart : tags first.tag = false := by simpa using isOne
      have any : ∀ w', stuck w' := enough.resolve_right fun deep =>
        isOne (List.forall_mem_cons.mp deep.2).1
      rw [List.filter_cons_of_neg (by simpa using isOne)] at one
      have told : Action.Keeps (Overheard tags) (Action.tell (Action.askNames depth) first names) :=
        Action.keeps_tell (fun tag => tags tag = false)
          (fun id _ apart => overheard_askNames depth id apart) apart names
      refine (told w).imp (fun w' _ => any w') fun _ w' same => ?_
      have learns := Learns.of_equinamed same.toEquinamed
      exact ih (graph.learns learns)
        ⟨fun x => (same.waiting x).trans (unasked.nobody x), same.told.trans unasked.told⟩
        (leads.learns graph learns) ((same.toEquinamed.knownNames? id).trans known) one (.inl any)

/-- When names are published, a question that waits for them goes on or is answered; any other stays
where it is. -/
theorem meets_publishNames_queried (graph : w.StarGraph root) (tagged : tags tag = true)
    (queried : Queried root tag tags before w) (depth : Nat) (id : RecordId) (names : List String)
    (enough : (∀ w', stuck w') ∨
      2 * w.records.size ≤ depth ∧ ∀ other ∈ (w.record id).waiters, tags other.tag = true) :
    Action.Meets stuck (Action.publishNames depth id names)
      (fun _ => Queried root tag tags before) w := by
  unfold Action.publishNames
  rw [Action.meets_bind, Action.meets_get]
  dsimp only
  split
  · exact queried
  · rename_i memo begun
    obtain ⟨old, found, begins⟩ := Option.bind_eq_some_iff.mp begun
    rw [Action.meets_bind, Action.meets_set]
    have queue : (memo.publish names).1 = (w.record id).waiters := by
      rw [Record.waiters_of_memo? found, ← NameMemo.waiters_of_begin? begins]
      rfl
    rw [queue]
    have learns := Learns.setMemo found (names?_of_begin? begins) (memo.publish names).2
    have waiting (x : RecordId) : World.waiting _ tags x = _ :=
      waiting_setMemo found (memo.publish names).2 x
    have settled : ((w.record id).withMemo (memo.publish names).2).settledNames? = some names :=
      Record.settledNames?_withMemo found _
    by_cases free : w.waiting tags id = []
    · have others : ∀ other ∈ (w.record id).waiters, tags other.tag = false := by
        simpa [World.waiting] using free
      refine (meets_tellAll_apart others (enough.imp_right (·.2)) _).mono fun _ _ same =>
        (queried.carry graph learns (fun x => ?_) rfl fun t _ unnamed waits => ?_).overheard
          (graph.learns learns) same
      · rw [waiting]
        split
        · rename_i here
          rw [here, free]
          rfl
        · rfl
      · rw [Unnamed, record_setRecord, if_neg]
        · exact unnamed
        · rintro ⟨rfl, -⟩
          exact waits free
    · cases queried with
      | answered _ _ unasked => exact absurd (unasked.nobody id) free
      | waits t watcher leads unnamed here elsewhere told =>
        obtain rfl : id = t := by
          by_contra apart
          exact free (elsewhere id apart)
        have known : World.knownNames? (w.setRecord id ((w.record id).withMemo (memo.publish names).2))
            id = some names := by
          have record : World.record (w.setRecord id ((w.record id).withMemo (memo.publish names).2))
              id = (w.record id).withMemo (memo.publish names).2 := by
            rw [record_setRecord, if_pos ⟨rfl, hasRecord_of_memo? found⟩]
          rw [← record] at settled
          rw [knownNames?_foreign (kind_ne_static_of_settledNames? settled), settled]
        refine meets_tellAll_queried (graph.learns learns) tagged ⟨fun x => ?_, told⟩
          (leads.learns graph learns) known here (enough.imp_right fun deep => ⟨?_, deep.2⟩)
        · rw [waiting]
          split
          · rfl
          · exact elsewhere x ‹_›
        · simpa [setRecord] using deep.1

/-! ### Steps -/

theorem NameStep.queried (step : NameStep tags w w') (graph : w.StarGraph root)
    (tagged : tags tag = true) (queried : Queried root tag tags before w) :
    Queried root tag tags before w' := by
  cases step with
  | aside aside => exact queried.aside graph aside
  | @ask depth id watcher _ _ apart asked =>
    have same := overheard_askNames depth id apart w
    rw [Action.Meets, asked] at same
    exact queried.overheard graph same
  | @publish depth id names _ published =>
    have goesOn : Action.Meets (fun _ => True) (Action.publishNames depth id names)
        (fun _ => Queried root tag tags before) w :=
      meets_publishNames_queried graph tagged queried depth id names (.inl fun _ => trivial)
    rwa [Action.Meets, published] at goesOn

theorem NameSteps.queried (steps : NameSteps tags w w') (graph : w.StarGraph root)
    (tagged : tags tag = true) (queried : Queried root tag tags before w) :
    Queried root tag tags before w' := by
  induction steps with
  | refl => exact queried
  | tail steps step ih => exact step.queried (graph.learns (NameSteps.learns steps)) tagged ih

/-- How a question for the names of a root stands that was asked in one world, in a later one. -/
structure Attended (root : RecordId) (tags : Json → Bool) (w₀ w : World) : Prop where
  /-- The names were passed on once if they are known, and otherwise not at all. -/
  told : w.told tags = w₀.told tags ++ (w.knownNames? root).toList
  /-- They are known as soon as none is left of those records behind the root that were without
  names. -/
  isSome_iff : (w.knownNames? root).isSome ↔ ∀ t, w₀.StarsTo root t → ¬ w.Unnamed t
  /-- From then on they stay the same. -/
  stays : ∀ names, w.knownNames? root = some names →
    ∀ w', NameSteps tags w w' → w'.knownNames? root = some names
  /-- Nothing keeps names from being published for which nobody else waits. -/
  publishes : ∀ depth id names, 2 * w.records.size ≤ depth →
    (∀ other ∈ (w.record id).waiters, tags other.tag = true) →
    ∃ w', Action.publishNames depth id names w = .ok () w'

theorem Queried.attended (queried : Queried root tag tags before w') (graph : w'.StarGraph root)
    (tagged : tags tag = true) (told : w.told tags = before)
    (path : ∀ x, w'.StarsTo root x ↔ w.StarsTo root x) : Attended root tags w w' where
  told := told ▸ queried.told
  isSome_iff := by
    rw [knownNames?_isSome]
    simp only [path]
  stays _ known _ steps := graph.knownNames? (NameSteps.learns steps) known
  publishes depth id names deep all := by
    have published : Action.Meets (fun _ => False) (Action.publishNames depth id names)
        (fun _ => Queried root tag tags before) w' :=
      meets_publishNames_queried graph tagged queried depth id names (.inr ⟨deep, all⟩)
    obtain ⟨_, w', ended, _⟩ := published.exists_ended
    exact ⟨w', ended⟩

end World

/-- A module, from which `export *` leads around nowhere and only to linked static modules,
wrapper-style scripts and host modules, is asked for its names by someone who has asked for nothing
yet. The answer says whether they are known. Whatever happens then: once they are known, in whatever
order those of the records behind the module become known, they were passed on to whom asked, one
time; until then nothing was. -/
theorem deferred_names_arrive_once (w : World) (root : RecordId) (tag : Json) (tags : Json → Bool)
    (depth : Nat) (graph : w.StarGraph root) (tagged : tags tag = true)
    (nobody : ∀ x, w.waiting tags x = []) (deep : w.records.size ≤ depth) :
    ∃ w₁, Action.askNames depth root (.report tag) w = .ok (w.knownNames? root).isSome w₁ ∧
      w₁.knownNames? root = w.knownNames? root ∧
      (∀ w₂, NameSteps tags w₁ w₂ → Attended root tags w w₂) ∧
      ∀ depth deeds, (∀ deed ∈ deeds, ∀ ask ∈ deed.2.asks?, tags ask.2 = false) →
        Action.Meets (fun _ => True) (Deed.actEach depth deeds) (fun _ => NameSteps tags w₁) w₁ := by
  have enough : w.Suffices depth root (.report tag) := by
    unfold Suffices
    split <;> exact deep
  have asks : Action.Meets (fun _ => False) (Action.askNames depth root (.report tag))
      (fun answer w₁ => answer = (w.knownNames? root).isSome ∧
        Pursued root tag tags (w.told tags) w w₁) w :=
    meets_askNames_queried graph tagged ⟨nobody, rfl⟩ .report (.inr enough)
  obtain ⟨_, w₁, asked, rfl, same, queried⟩ := asks.exists_ended
  have learns := Learns.of_equinamed same
  refine ⟨w₁, asked, same.knownNames? root, fun w₂ steps => ?_, fun depth deeds apart =>
    Deed.meets_actEach_steps depth apart .refl⟩
  have goesOn := NameSteps.queried steps (graph.learns learns) tagged queried
  have learns := learns.trans (NameSteps.learns steps)
  exact goesOn.attended (graph.learns learns) tagged rfl fun x => graph.starsTo_iff learns

namespace World

/-- A module that exports along the names of two others: those of a wrapper-style script, and those
of a module that exports along the names of a host module. -/
def lateBarrel : World where
  records := #[
    .static {
      location := .fileUrl "" ['/', 'a'], declarations := { exports := [.all "b", .all "c"] }
      body := fun _ => .give .undefined, importer := .table, status := .linked
      requested := [("b", ⟨1⟩), ("c", ⟨2⟩)] },
    .static {
      location := .fileUrl "" ['/', 'b'], declarations := { exports := [.named "x" none, .all "d"] }
      body := fun _ => .give .undefined, importer := .table, status := .linked
      requested := [("d", ⟨3⟩)] },
    .wrapper { location := .fileUrl "" ['/', 'c'], program := .give .undefined },
    .host { name := "d", content := .document .null }]

theorem starGraph_lateBarrel : lateBarrel.StarGraph ⟨0⟩ := by
  have checked {id : RecordId} {module : StaticModule} (found : lateBarrel.record id = .static module) :
      module.status = .linked ∧ ∀ s ∈ starTargets module, id.index < s.index ∧
        ((lateBarrel.record s).static?.isSome ∨ (lateBarrel.record s).memo?.isSome) := by
    simpa using static_of_all lateBarrel (fun id module => module.status = .linked &&
      (starTargets module).all fun s => id.index < s.index &&
        ((lateBarrel.record s).static?.isSome || (lateBarrel.record s).memo?.isSome)) (by cbv) found
  have onward {a b : RecordId} (ahead : TransGen lateBarrel.ExportsAlong a b) :
      a.index < b.index := by
    induction ahead with
    | single along =>
      obtain ⟨module, found, member⟩ := along
      exact ((checked found).2 _ member).1
    | tail _ along ih =>
      obtain ⟨module, found, member⟩ := along
      exact ih.trans ((checked found).2 _ member).1
  refine ⟨fun x path => ?_, fun x _ around => (onward around).ne rfl⟩
  rcases ReflTransGen.cases_tail path with rfl | ⟨_, _, module, found, member⟩
  · exact .inl ⟨_, rfl, rfl⟩
  · refine ((checked found).2 x member).2.imp_left fun isStatic => ?_
    obtain ⟨module, found⟩ := Option.isSome_iff_exists.mp isStatic
    exact ⟨module, static?_eq_some.mp found, (checked (static?_eq_some.mp found)).1⟩

end World

/-- The question first waits for the host module. The script is done before it: still nothing is
passed on. Then the host module is done, and all names are. -/
theorem deferred_names_in_lateBarrel :
    ∃ w₁ w₂ w₃, Action.askNames 4 ⟨0⟩ (.report .null) lateBarrel = .ok false w₁ ∧
      Action.publishNames 8 ⟨2⟩ ["y"] w₁ = .ok () w₂ ∧ w₂.told (fun _ => true) = [] ∧
      Action.publishNames 8 ⟨3⟩ ["z"] w₂ = .ok () w₃ ∧
      w₃.told (fun _ => true) = [["x", "z", "y"]] := by
  have nobody (x : RecordId) : lateBarrel.waiting (fun _ => true) x = [] := by
    obtain ⟨index⟩ := x
    rcases index with _ | _ | _ | _ | _ <;> rfl
  obtain ⟨w₁, asked, _, attended, _⟩ := deferred_names_arrive_once lateBarrel ⟨0⟩ .null
    (fun _ => true) 4 starGraph_lateBarrel rfl nobody (by decide)
  have computed : (Action.askNames 4 ⟨0⟩ (.report .null)).ends lateBarrel (fun _ w₁ =>
      (Action.publishNames 8 ⟨2⟩ ["y"]).ends w₁ fun _ w₂ => w₂.knownNames? ⟨0⟩ = none &&
        (Action.publishNames 8 ⟨3⟩ ["z"]).ends w₂ fun _ w₃ =>
          w₃.knownNames? ⟨0⟩ = some ["x", "z", "y"]) = true := by cbv
  obtain ⟨answer, _, asked', computed⟩ := Action.exists_of_ends computed
  cases asked.symm.trans asked'
  have unknown : (lateBarrel.knownNames? ⟨0⟩).isSome = false := by cbv
  rw [unknown] at asked
  obtain ⟨_, w₂, published, computed⟩ := Action.exists_of_ends computed
  rw [Bool.and_eq_true] at computed
  obtain ⟨_, w₃, published', known⟩ := Action.exists_of_ends computed.2
  have steps : NameSteps (fun _ => true) w₁ w₂ := .single (.publish published)
  have told := (attended w₂ steps).told
  have told' := (attended w₃ (steps.tail (.publish published'))).told
  rw [of_decide_eq_true computed.1] at told
  rw [of_decide_eq_true known] at told'
  exact ⟨w₁, w₂, w₃, asked, published, told, published', told'⟩

end ModuleGraph
