import ModuleGraph.Proofs.Order

/-!
Components of the modules that a walk has opened. Numbers fall along the stack, an ancestor is the
number of a module that one can reach, and what was closed leads to no open module. So the modules
above one that is its own ancestor are its strongly connected component.
-/
namespace ModuleGraph
namespace World
open Relation
variable {w w' w'' : World} {realm : RealmId} {a b c x y : RecordId}

/-! ### Paths -/

/-- A module that was linked requests another. -/
def Edge (w : World) (a b : RecordId) : Prop :=
  (w.record a).IsSettled ∧ b ∈ (w.record a).requested

/-- There is a path of requests. -/
abbrev Reaches (w : World) : RecordId → RecordId → Prop := ReflTransGen w.Edge

/-- There is a path of requests among some modules. -/
abbrev Within (w : World) (members : List RecordId) : RecordId → RecordId → Prop :=
  ReflTransGen fun a b => a ∈ members ∧ b ∈ members ∧ w.Edge a b

theorem Extends.edge (h : Extends w w') (edge : w.Edge a b) : w'.Edge a b := by
  have present : w.hasRecord a = true := by
    by_contra absent
    have nothing := edge.2
    rw [record_of_not_hasRecord absent] at nothing
    exact absurd nothing List.not_mem_nil
  exact ⟨h.isSettled a present edge.1, h.requested a present edge.1 ▸ edge.2⟩

theorem Extends.reaches (h : Extends w w') (path : w.Reaches a b) : w'.Reaches a b :=
  ReflTransGen.mono (fun _ _ => h.edge) _ _ path

theorem Extends.within (h : Extends w w') {members members' : List RecordId}
    (sub : members ⊆ members') (path : w.Within members a b) : w'.Within members' a b :=
  ReflTransGen.mono (fun _ _ step => ⟨sub step.1, sub step.2.1, h.edge step.2.2⟩) _ _ path

theorem Within.reaches {members : List RecordId} (path : w.Within members a b) : w.Reaches a b :=
  ReflTransGen.mono (fun _ _ step => step.2.2) _ _ path

/-! ### Numbers -/

/-- The number of a module in the walk that opened it. -/
def index (w : World) (realm : RealmId) (id : RecordId) : Nat :=
  ((w.realm realm).slot? id).elim 0 Slot.index

/-- The ancestor of a module in the walk that opened it. -/
def ancestor (w : World) (realm : RealmId) (id : RecordId) : Nat :=
  ((w.realm realm).slot? id).elim 0 Slot.ancestor

/-- A module is evaluating or evaluated. -/
def Begun (w : World) (realm : RealmId) (id : RecordId) : Prop :=
  ∃ slot, (w.realm realm).slot? id = some slot ∧ slot.status ≠ .instantiated

/-- A module was evaluated without an error, or it is evaluating. -/
def Ready (w : World) (realm : RealmId) (id : RecordId) : Prop :=
  ∃ slot, (w.realm realm).slot? id = some slot ∧
    (slot.status = .evaluated ∧ slot.error = none ∨ slot.status = .evaluating)

theorem Ready.begun (h : w.Ready realm x) : w.Begun realm x := by
  obtain ⟨slot, found, ⟨status, _⟩ | status⟩ := h <;> exact ⟨slot, found, by simp [status]⟩

/-- All modules that are evaluating or evaluated have the same slots as before. -/
structure Steady (realm : RealmId) (w w' : World) : Prop where
  records : Extends w w'
  journal : w.journal.toList <+: w'.journal.toList
  slot : ∀ id slot, (w.realm realm).slot? id = some slot → slot.status ≠ .instantiated →
    (w'.realm realm).slot? id = some slot

theorem Advance.steady (h : Advance realm [] w w') : Steady realm w w' where
  records := h.records
  journal := h.journal
  slot id _ := h.within.slot id List.not_mem_nil _

namespace Steady
variable (h : Steady realm w w')
include h

theorem slot_eq (begun : w.Begun realm x) :
    (w'.realm realm).slot? x = (w.realm realm).slot? x := by
  obtain ⟨slot, found, begun⟩ := begun
  rw [h.slot x slot found begun, found]

theorem begun (begun : w.Begun realm x) : w'.Begun realm x := by
  obtain ⟨slot, found, status⟩ := begun
  exact ⟨slot, h.slot x slot found status, status⟩

theorem ready (ready : w.Ready realm x) : w'.Ready realm x := by
  obtain ⟨slot, found, status⟩ := ready
  refine ⟨slot, h.slot x slot found ?_, status⟩
  rcases status with ⟨status, _⟩ | status <;> simp [status]

theorem index (begun : w.Begun realm x) : w'.index realm x = w.index realm x := by
  rw [World.index, h.slot_eq begun, World.index]

theorem ancestor (begun : w.Begun realm x) : w'.ancestor realm x = w.ancestor realm x := by
  rw [World.ancestor, h.slot_eq begun, World.ancestor]

end Steady

theorem Begun.settled (begun : w.Begun realm x) (orderly : w.Orderly) :
    w.hasRecord x = true ∧ (w.record x).IsSettled := by
  obtain ⟨slot, found, _⟩ := begun
  exact (orderly realm).settled x slot found

theorem Begun.requested (begun : w.Begun realm x) (orderly : w.Orderly) (records : Extends w w') :
    (w'.record x).requested = (w.record x).requested :=
  records.requested x (begun.settled orderly).1 (begun.settled orderly).2

/-- The modules that have begun keep their numbers. -/
structure SameNumbers (realm : RealmId) (w w' : World) : Prop where
  records : Extends w w'
  begun : ∀ x, w.Begun realm x → w'.Begun realm x
  index : ∀ x, w.Begun realm x → w'.index realm x = w.index realm x
  ancestor : ∀ x, w.Begun realm x → w'.ancestor realm x = w.ancestor realm x

theorem Steady.sameNumbers (h : Steady realm w w') : SameNumbers realm w w' :=
  ⟨h.records, fun _ => h.begun, fun _ => h.index, fun _ => h.ancestor⟩

theorem sameNumbers_write (w : World) (event : Event) (realm : RealmId) :
    SameNumbers realm w (w.write event) :=
  ⟨.of_records rfl, fun _ begun => begun, fun _ _ => rfl, fun _ _ => rfl⟩

/-! ### Searches -/

/-- The state of a walk: its open modules with the latest first, all that it has opened, and the
number of the next. -/
structure Searching (w : World) (realm : RealmId) (stack opened : List RecordId) (next : Nat) :
    Prop where
  begun : ∀ x ∈ opened, w.Begun realm x
  sub : stack ⊆ opened
  falling : stack.Pairwise fun a b => w.index realm b < w.index realm a
  bound : ∀ x ∈ stack, w.index realm x < next
  le : ∀ x ∈ stack, w.ancestor realm x ≤ w.index realm x
  leads : ∀ x ∈ stack, ∃ y ∈ stack,
    w.index realm y = w.ancestor realm x ∧ w.Within opened x y
  closed : ∀ x ∈ opened, x ∉ stack → ∀ r ∈ (w.record x).requested,
    w.Begun realm r ∧ r ∉ stack

/-- The body of a module ran to its end inside some walks. -/
structure HasRun (w : World) (realm : RealmId) (outer : List Walk) (x : RecordId) : Prop where
  began : ∃ moment walk, .began realm x moment ∈ w.journal.toList ∧
    moment.realm.walks = walk :: outer
  ended : .ended realm x none ∈ w.journal.toList

/-- What is known of a module that has run and is still open. -/
structure Finished (w : World) (realm : RealmId) (outer : List Walk) (stack : List RecordId)
    (x : RecordId) : Prop where
  requested : ∀ r ∈ (w.record x).requested,
    w.Ready realm r ∧ (r ∈ stack → w.ancestor realm x ≤ w.index realm r)
  lower : w.ancestor realm x < w.index realm x
  run : w.HasRun realm outer x

/-- The modules on the stack above another have run, can be reached from it, and have no lower
ancestors. -/
def Above (w : World) (realm : RealmId) (outer : List Walk) (stack opened : List RecordId)
    (c : RecordId) (new : List RecordId) : Prop :=
  ∀ x ∈ new, w.Finished realm outer stack x ∧ w.Within opened c x ∧
    w.ancestor realm c ≤ w.ancestor realm x

section
variable {stack opened new rest : List RecordId} {next : Nat} {outer : List Walk}

theorem searching_nil : w.Searching realm [] [] next := by
  constructor <;> simp

theorem Searching.nodup (h : w.Searching realm stack opened next) : stack.Nodup :=
  h.falling.imp fun falls same => by simp [same] at falls

theorem Searching.sameNumbers (h : w.Searching realm stack opened next) (orderly : w.Orderly)
    (same : SameNumbers realm w w') : w'.Searching realm stack opened next := by
  have begun (x : RecordId) (member : x ∈ stack) := h.begun x (h.sub member)
  refine ⟨fun x member => same.begun x (h.begun x member), h.sub, ?_, fun x member => ?_,
    fun x member => ?_, fun x member => ?_, fun x member closed r requested => ?_⟩
  · refine h.falling.imp_of_mem fun {a b} ha hb falls => ?_
    rwa [same.index a (begun a ha), same.index b (begun b hb)]
  · rw [same.index x (begun x member)]
    exact h.bound x member
  · rw [same.index x (begun x member), same.ancestor x (begun x member)]
    exact h.le x member
  · obtain ⟨y, hy, number, path⟩ := h.leads x member
    refine ⟨y, hy, ?_, same.records.within (List.Subset.refl _) path⟩
    rw [same.index y (begun y hy), same.ancestor x (begun x member), number]
  · rw [(h.begun x member).requested orderly same.records] at requested
    obtain ⟨begun, closed⟩ := h.closed x member closed r requested
    exact ⟨same.begun r begun, closed⟩

theorem Searching.steady (h : w.Searching realm stack opened next) (orderly : w.Orderly)
    (steady : Steady realm w w') : w'.Searching realm stack opened next :=
  h.sameNumbers orderly steady.sameNumbers

theorem HasRun.grows (h : w.HasRun realm outer x)
    (journal : w.journal.toList <+: w'.journal.toList) : w'.HasRun realm outer x where
  began := by
    obtain ⟨moment, walk, began, walks⟩ := h.began
    exact ⟨moment, walk, journal.subset began, walks⟩
  ended := journal.subset h.ended

/-- A module that has run stays so while the stack grows by modules that had not begun. -/
theorem Finished.steady (h : w.Finished realm outer stack x) (orderly : w.Orderly)
    (begun : w.Begun realm x) (steady : Steady realm w w')
    (fresh : ∀ r ∈ new, ¬ w.Begun realm r) : w'.Finished realm outer (new ++ stack) x where
  requested r requested := by
    rw [begun.requested orderly steady.records] at requested
    obtain ⟨ready, bound⟩ := h.requested r requested
    refine ⟨steady.ready ready, fun member => ?_⟩
    rw [steady.ancestor begun, steady.index ready.begun]
    rcases List.mem_append.mp member with member | member
    · exact absurd ready.begun (fresh r member)
    · exact bound member
  lower := by
    rw [steady.ancestor begun, steady.index begun]
    exact h.lower
  run := h.run.grows steady.journal

/-- From what has run above a module on the stack one can reach that module or one below it. -/
theorem Searching.reach_down (h : w.Searching realm stack opened next)
    (split : stack = new ++ rest) {least : Nat}
    (above : ∀ x ∈ new, w.ancestor realm x < w.index realm x ∧ least ≤ w.ancestor realm x) :
    ∀ x ∈ new, ∃ y ∈ rest, least ≤ w.index realm y ∧ w.Within opened x y := by
  intro x
  -- The ancestor of a new module is the number of one that it leads to. It is lower than its own, so
  -- going from ancestor to ancestor ends below the new modules.
  induction hn : w.index realm x using Nat.strongRecOn generalizing x with
  | _ n ih =>
    intro member
    obtain ⟨lower, bound⟩ := above x member
    obtain ⟨y, hy, number, path⟩ := h.leads x (by simp [split, member])
    rw [split, List.mem_append] at hy
    rcases hy with hy | hy
    · obtain ⟨z, hz, bound, further⟩ := ih (w.index realm y) (by omega) y rfl hy
      exact ⟨z, hz, bound, path.trans further⟩
    · exact ⟨y, hy, by omega, path⟩

/-! ### Opening and lowering -/

theorem index_of_found {slot : Slot} (found : (w.realm realm).slot? x = some slot) :
    w.index realm x = slot.index := by
  rw [index, found]
  rfl

theorem ancestor_of_found {slot : Slot} (found : (w.realm realm).slot? x = some slot) :
    w.ancestor realm x = slot.ancestor := by
  rw [ancestor, found]
  rfl

theorem steady_entered {slot : Slot} (found : (w.realm realm).slot? c = some slot)
    (instantiated : slot.status = .instantiated) (index : Nat) :
    Steady realm w (w.entered realm c index) where
  records := .of_records rfl
  journal := (advance_entered w realm c index).journal
  slot x slot' found' begun := by
    have differs : x ≠ c := by
      rintro rfl
      cases found.symm.trans found'
      exact begun instantiated
    rw [slot?_entered, if_neg differs, found']

/-- A module that is opened next goes on top of the stack. -/
theorem Searching.entered (h : w.Searching realm stack opened next) (orderly : w.Orderly)
    {slot : Slot} (found : (w.realm realm).slot? c = some slot)
    (instantiated : slot.status = .instantiated) :
    (w.entered realm c next).Searching realm (c :: stack) (c :: opened) (next + 1) := by
  have steady := steady_entered found instantiated next
  have fresh : ¬ w.Begun realm c := by
    rintro ⟨slot', found', begun⟩
    cases found.symm.trans found'
    exact begun instantiated
  have found' := slot?_opened found next
  have own : (w.entered realm c next).index realm c = next := index_of_found found'
  have ownAncestor : (w.entered realm c next).ancestor realm c = next := ancestor_of_found found'
  have before := h.steady orderly steady
  refine ⟨fun x member => ?_, List.cons_subset_cons c h.sub, ?_, fun x member => ?_,
    fun x member => ?_, fun x member => ?_, fun x member closed r requested => ?_⟩
  · rcases List.mem_cons.mp member with rfl | member
    · exact ⟨_, found', by simp⟩
    · exact before.begun x member
  · refine List.pairwise_cons.mpr ⟨fun x member => ?_, before.falling⟩
    rw [own]
    exact before.bound x member
  · rcases List.mem_cons.mp member with rfl | member
    · omega
    · exact Nat.lt_succ_of_lt (before.bound x member)
  · rcases List.mem_cons.mp member with rfl | member
    · omega
    · exact before.le x member
  · rcases List.mem_cons.mp member with rfl | member
    · exact ⟨x, List.mem_cons_self, by omega, .refl⟩
    · obtain ⟨y, hy, number, path⟩ := before.leads x member
      exact ⟨y, List.mem_cons_of_mem c hy, number,
        (Extends.refl _).within (List.subset_cons_self c opened) path⟩
  · rw [List.mem_cons, not_or] at closed
    have hx := (List.mem_cons.mp member).resolve_left closed.1
    obtain ⟨begun, out⟩ := before.closed x hx closed.2 r requested
    rw [(h.begun x hx).requested orderly steady.records] at requested
    refine ⟨begun, fun hr => ?_⟩
    rcases List.mem_cons.mp hr with rfl | hr
    · exact fresh (h.closed x hx closed.2 r requested).1
    · exact out hr

theorem index_lowered (w : World) (realm : RealmId) (c x : RecordId) (number : Nat) :
    (w.lowered realm c number).index realm x = w.index realm x := by
  rw [index, slot?_lowered, index]
  split
  · cases (w.realm realm).slot? x <;> rfl
  · rfl

theorem ancestor_lowered_other (w : World) (realm : RealmId) {c x : RecordId} (differs : x ≠ c)
    (number : Nat) : (w.lowered realm c number).ancestor realm x = w.ancestor realm x := by
  rw [ancestor, slot?_lowered, if_neg differs, ancestor]

theorem ancestor_lowered_same (begun : w.Begun realm c) (number : Nat) :
    (w.lowered realm c number).ancestor realm c = min (w.ancestor realm c) number := by
  obtain ⟨slot, found, _⟩ := begun
  rw [ancestor, slot?_lowered, if_pos rfl, ancestor, found]
  rfl

theorem begun_lowered (begun : w.Begun realm x) (c : RecordId) (number : Nat) :
    (w.lowered realm c number).Begun realm x := by
  obtain ⟨slot, found, status⟩ := begun
  by_cases same : x = c
  · exact ⟨{ slot with ancestor := min slot.ancestor number },
      by rw [slot?_lowered, if_pos same, found]; rfl, status⟩
  · exact ⟨slot, by rw [slot?_lowered, if_neg same, found], status⟩

theorem ready_lowered (ready : w.Ready realm x) (c : RecordId) (number : Nat) :
    (w.lowered realm c number).Ready realm x := by
  obtain ⟨slot, found, status⟩ := ready
  by_cases same : x = c
  · exact ⟨{ slot with ancestor := min slot.ancestor number },
      by rw [slot?_lowered, if_pos same, found]; rfl, status⟩
  · exact ⟨slot, by rw [slot?_lowered, if_neg same, found], status⟩

theorem Finished.lowered (h : w.Finished realm outer stack x) (differs : x ≠ c) (number : Nat) :
    (w.lowered realm c number).Finished realm outer stack x where
  requested r requested := by
    rw [index_lowered, ancestor_lowered_other w realm differs]
    exact ⟨ready_lowered (h.requested r requested).1 c number, (h.requested r requested).2⟩
  lower := by
    rw [index_lowered, ancestor_lowered_other w realm differs]
    exact h.lower
  run := ⟨h.run.began, h.run.ended⟩

/-- A module that requests another open one can take its ancestor. -/
theorem Searching.lowered (h : w.Searching realm stack opened next) (hc : c ∈ stack)
    (hr : x ∈ stack) (edge : w.Edge c x) :
    (w.lowered realm c (w.ancestor realm x)).Searching realm stack opened next := by
  have begun (y : RecordId) (member : y ∈ opened) := h.begun y member
  have records : Extends w (w.lowered realm c (w.ancestor realm x)) := .of_records rfl
  have paths {a b : RecordId} (path : w.Within opened a b) := records.within
    (List.Subset.refl opened) path
  have same := ancestor_lowered_same (begun c (h.sub hc)) (w.ancestor realm x)
  refine ⟨fun y member => begun_lowered (h.begun y member) c _, h.sub, ?_, fun y member => ?_,
    fun y member => ?_, fun y member => ?_, fun y member closed r requested => ?_⟩
  · simpa only [index_lowered] using h.falling
  · rw [index_lowered]
    exact h.bound y member
  · rw [index_lowered]
    by_cases hy : y = c
    · rw [hy, same]
      exact Nat.le_trans (Nat.min_le_left _ _) (h.le c hc)
    · rw [ancestor_lowered_other w realm hy]
      exact h.le y member
  · simp only [index_lowered]
    by_cases hy : y = c
    · subst hy
      rw [same]
      rcases Nat.le_total (w.ancestor realm y) (w.ancestor realm x) with le | le
      · obtain ⟨z, hz, number, path⟩ := h.leads y member
        exact ⟨z, hz, by rw [Nat.min_eq_left le, number], paths path⟩
      · obtain ⟨z, hz, number, path⟩ := h.leads x hr
        exact ⟨z, hz, by rw [Nat.min_eq_right le, number],
          paths (.head ⟨h.sub member, h.sub hr, edge⟩ path)⟩
    · rw [ancestor_lowered_other w realm hy]
      obtain ⟨z, hz, number, path⟩ := h.leads y member
      exact ⟨z, hz, number, paths path⟩
  · obtain ⟨began, out⟩ := h.closed y member closed r requested
    exact ⟨begun_lowered began c _, out⟩

/-! ### Closing -/

/-- A module on the stack that is its own ancestor, with all above it. -/
structure Closing (w : World) (realm : RealmId) (outer : List Walk) (opened : List RecordId)
    (next : Nat) (c : RecordId) (new rest : List RecordId) : Prop where
  search : w.Searching realm (new ++ c :: rest) opened next
  above : w.Above realm outer (new ++ c :: rest) opened c new
  own : ∀ r ∈ (w.record c).requested,
    w.Ready realm r ∧ (r ∈ new ++ c :: rest → w.ancestor realm c ≤ w.index realm r)
  first : w.ancestor realm c = w.index realm c
  run : w.HasRun realm outer c

namespace Closing
variable (h : w.Closing realm outer opened next c new rest)
include h

theorem falls : (∀ x ∈ new, w.index realm c < w.index realm x) ∧
    ∀ x ∈ rest, w.index realm x < w.index realm c := by
  have falling := List.pairwise_append.mp h.search.falling
  exact ⟨fun x member => falling.2.2 x member c (by simp),
    (List.pairwise_cons.mp falling.2.1).1⟩

/-- What a module of the component requests has begun and is not below the component. -/
theorem requested (member : x ∈ new ++ [c]) {r : RecordId}
    (requested : r ∈ (w.record x).requested) : w.Ready realm r ∧ r ∉ rest := by
  have bound : w.Ready realm r ∧
      (r ∈ new ++ c :: rest → w.index realm c ≤ w.index realm r) := by
    rcases List.mem_append.mp member with member | member
    · obtain ⟨finished, _, least⟩ := h.above x member
      obtain ⟨ready, bound⟩ := finished.requested r requested
      exact ⟨ready, fun hr => h.first ▸ Nat.le_trans least (bound hr)⟩
    · rw [List.mem_singleton.mp member] at requested
      exact h.first ▸ h.own r requested
  refine ⟨bound.1, fun below => ?_⟩
  have := bound.2 (by simp [below])
  have := h.falls.2 r below
  omega

theorem reaches (member : x ∈ new ++ [c]) : w.Within opened x c ∧ w.Within opened c x := by
  rcases List.mem_append.mp member with hx | hx
  · obtain ⟨y, hy, bound, path⟩ := h.search.reach_down rfl
      (fun z hz => ⟨(h.above z hz).1.lower, (h.above z hz).2.2⟩) x hx
    rcases List.mem_cons.mp hy with rfl | hy
    · exact ⟨path, (h.above x hx).2.1⟩
    · have := h.falls.2 y hy
      have := h.first
      omega
  · rw [List.mem_singleton.mp hx]
    exact ⟨.refl, .refl⟩

/-- A path from the component stays in it or leads to what was closed before. -/
theorem path_out (member : x ∈ new ++ [c]) (path : w.Within opened x y) :
    y ∈ new ++ [c] ∨ y ∈ opened ∧ y ∉ new ++ c :: rest := by
  induction path with
  | refl => exact .inl member
  | @tail a b _ step ih =>
    rcases ih with ha | ⟨ha, out⟩
    · have hb := (h.requested ha step.2.2.2).2
      by_cases on : b ∈ new ++ c :: rest
      · left
        simpa [hb] using on
      · exact .inr ⟨step.2.1, on⟩
    · exact .inr ⟨step.2.1, (h.search.closed a ha out b step.2.2.2).2⟩

/-- What was closed leads only to what was closed. -/
theorem path_closed (out : x ∈ opened ∧ x ∉ new ++ c :: rest) (path : w.Within opened x y) :
    y ∉ new ++ c :: rest := by
  induction path with
  | refl => exact out.2
  | tail path step ih => exact (h.search.closed _ step.1 ih _ step.2.2.2).2

/-- The modules down to one that is its own ancestor are a strongly connected component of all that
the walk has opened. -/
theorem component (member : x ∈ new ++ [c]) (y : RecordId) :
    y ∈ new ++ [c] ↔ y ∈ opened ∧ w.Within opened x y ∧ w.Within opened y x := by
  constructor
  · intro hy
    have onStack : y ∈ new ++ c :: rest := by
      rw [List.append_cons]
      exact List.mem_append_left _ hy
    exact ⟨h.search.sub onStack, (h.reaches member).1.trans (h.reaches hy).2,
      (h.reaches hy).1.trans (h.reaches member).2⟩
  · rintro ⟨_, there, back⟩
    rcases h.path_out member there with hy | out
    · exact hy
    · have onStack : x ∈ new ++ c :: rest := by
        rw [List.append_cons]
        exact List.mem_append_left _ member
      exact absurd onStack (h.path_closed out back)

theorem hasRun (member : x ∈ new ++ [c]) : w.HasRun realm outer x := by
  rcases List.mem_append.mp member with hx | hx
  · exact (h.above x hx).1.run
  · exact List.mem_singleton.mp hx ▸ h.run

/-- The search goes on with what is below the component. -/
theorem close : w.Searching realm rest opened next := by
  have below (x : RecordId) (member : x ∈ rest) : x ∈ new ++ c :: rest := by simp [member]
  have falling := List.pairwise_append.mp h.search.falling
  refine ⟨h.search.begun, fun x member => h.search.sub (below x member),
    (List.pairwise_cons.mp falling.2.1).2, fun x member => h.search.bound x (below x member),
    fun x member => h.search.le x (below x member), fun x member => ?_,
    fun x member out r requested => ?_⟩
  · obtain ⟨y, hy, number, path⟩ := h.search.leads x (below x member)
    have := h.search.le x (below x member)
    have := h.falls.2 x member
    rcases List.mem_append.mp hy with hy | hy
    · have := h.falls.1 y hy
      omega
    rcases List.mem_cons.mp hy with rfl | hy
    · omega
    · exact ⟨y, hy, number, path⟩
  · by_cases on : x ∈ new ++ c :: rest
    · obtain ⟨ready, hr⟩ := h.requested (by simpa [out] using on) requested
      exact ⟨ready.begun, hr⟩
    · obtain ⟨begun, hr⟩ := h.search.closed x member on r requested
      exact ⟨begun, fun hr' => hr (below r hr')⟩

end Closing
end
end World
end ModuleGraph
