import ModuleGraph.Proofs.CleanWalks

/-!
Runs that come up with no breach. After a graph was linked, whatever is evaluated, required, linked
and asked for in whatever order, nothing fails because of how evaluation itself goes about it.
-/
namespace ModuleGraph
open World Engine Relation

theorem Attempt.EndsClear.upholds {α : Type} {attempt : Attempt α} {stuck inv : World → Prop}
    (clear : attempt.EndsClear stuck inv) : Attempt.Upholds stuck inv attempt :=
  fun _ h => (clear.run h).mono fun _ _ h => h.1

namespace Setup
variable {linked : RecordId → Prop} {embedding : Embedding} {w : World}

/-! ### What an embedder does -/

section
variable (refrains : embedding.Refrains linked)
include refrains

theorem endsClear_resolve (referrer? : Option Url) (specifier : String) :
    (embedding.resolve referrer? specifier).EndsClear (Clean linked) (Sane linked) :=
  endsClear_sane (embedding.keepsClean_resolve refrains referrer? specifier)
    ((embedding.keeps_resolve referrer? specifier : Attempt.Keeps Edits _).mono
      fun _ _ => Edits.changes)
    ((sustained_linkage_or_linking embedding).resolve (by simp) specifier)

theorem endsClear_resolveImported (referrer? : Option RecordId) (specifier : String) :
    (embedding.resolveImported referrer? specifier).EndsClear (Clean linked) (Sane linked) :=
  endsClear_sane (embedding.keepsClean_resolveImported refrains referrer? specifier)
    ((embedding.keeps_resolveImported referrer? specifier : Attempt.Keeps Edits _).mono
      fun _ _ => Edits.changes)
    ((sustained_linkage_or_linking embedding).resolveImported referrer? specifier)

theorem endsClear_resolveLoaded (location : Url) (source : List UInt8) :
    (embedding.resolveLoaded location source).EndsClear (Clean linked) (Sane linked) :=
  endsClear_sane (embedding.keepsClean_resolveLoaded refrains location source)
    ((embedding.keeps_resolveLoaded location source : Attempt.Keeps Edits _).mono
      fun _ _ => Edits.changes)
    ((sustained_linkage_or_linking embedding).loaded location source trivial)

/-- To evaluate what was linked is rejected with no breach. -/
theorem meets_evaluate_sane (depth : Nat) (realm : RealmId) (id : RecordId) (sane : w.Sane linked) :
    Action.Meets (Clean linked) ((Setup.ofDepth embedding depth).evaluate realm id)
      (fun settlement w' => w'.Sane linked ∧ (w.IsDone id → settlement.Clears)) w :=
  (wary_ofDepth refrains depth).evaluateFrom realm id sane

theorem endsClear_runEntry (depth : Nat) (realm : RealmId) (location : Url)
    (source : List UInt8) :
    ((Setup.ofDepth embedding depth).runEntry realm location source).EndsClear (Clean linked)
      (Sane linked) := by
  intro w sane
  have answers : Attempt.Meets _ _ (embedding.resolveLoaded location source) _ w :=
    (Embedding.Discovers.holds location source).answers _ w sane.named
  rw [runEntry_eq, Attempt.meets_bind]
  refine ((endsClear_resolveLoaded refrains location source w sane).and answers).imp
    (fun _ h => h.1) (fun _ _ h => h.1) fun id w₁ h => ?_
  obtain ⟨sane₁, _, present⟩ := h
  have idle : ¬ w₁.IsLinking id := fun linking =>
    List.not_mem_nil ((sane₁.linkage.linking id).mp linking)
  unfold runRecord Setup.link
  rw [Attempt.meets_bind]
  refine ((endsClear_link refrains _ id w₁ sane₁).and
    (embedding.meets_link_settled _ present idle)).imp (fun _ h => h.1) (fun _ _ h => h.1)
    fun _ w₂ h => ?_
  obtain ⟨sane₂, present₂, settled₂⟩ := h
  rw [Attempt.meets_bind, Attempt.meets_get]
  split
  · exact sane₂
  · rw [Attempt.meets_bind, Attempt.meets_lift]
    refine (meets_evaluate_sane refrains depth realm id sane₂).mono fun settlement w₃ h => ?_
    obtain ⟨sane₃, clears⟩ := h
    split
    · exact sane₃
    · exact ⟨sane₃, clears (.of_isSettled present₂ settled₂) _ rfl⟩
    · exact ⟨sane₃, fun breach => breach⟩

omit refrains in
theorem upholds_instantiate_sane (depth : Nat) (realm : RealmId) (id : RecordId) :
    Attempt.Upholds (Clean linked) (Sane linked) (Action.instantiate depth realm id) :=
  .of_meets fun _ sane => (Action.meets_instantiate_sane depth realm id sane False False.elim).imp
    (fun _ sane => sane.clean) (fun _ _ h => h.1) fun _ _ h => h.1

theorem upholds_exposeGlobally_sane (depth : Nat) (realm : RealmId) (name : String) :
    Attempt.Upholds (Clean linked) (Sane linked)
      ((Setup.ofDepth embedding depth).exposeGlobally realm name) := by
  have brushed {α : Type} {action : Action α} (keeps : Action.Keeps Brushes action) :
      Attempt.Upholds (Clean linked) (Sane linked) (liftM action : Attempt α) :=
    .lift ((tended_sane linked).brushed keeps)
  refine .bind (endsClear_resolve refrains none name).upholds fun id => .bind .get fun world => ?_
  dsimp only
  split
  · exact .throw _
  · refine .bind (upholds_instantiate_sane _ realm id) fun _ =>
      .bind (brushed (Action.keeps_readBinding _ realm id _)) fun value => ?_
    split
    · exact .bind .get fun _ => brushed (keeps_copyGlobally realm _ _)
    · exact .throw _

/-- Whatever an embedder does, the world stays sane. -/
theorem upholds_perform_sane (depth : Nat) (operation : Operation) :
    Action.Upholds (Clean linked) (Sane linked)
      ((Setup.ofDepth embedding depth).perform operation) := by
  have brushed {α : Type} {action : Action α} (keeps : Action.Keeps Brushes action) :
      Action.Upholds (Clean linked) (Sane linked) action := (tended_sane linked).brushed keeps
  cases operation with
  | runEntry realm location source =>
    exact .map (endsClear_runEntry refrains depth realm location source).upholds _
  | evaluate realm id =>
    exact .map (fun w sane =>
      (meets_evaluate_sane refrains depth realm id sane).mono fun _ _ h => h.1) _
  | call realm function arguments =>
    exact .map (fun w sane => ((wary_ofDepth refrains depth).call (.of realm) function arguments w
      sane).mono fun _ _ h => h.1) _
  | link id => exact .map (endsClear_link refrains _ id).upholds _
  | instantiate realm id => exact .map (upholds_instantiate_sane _ realm id) _
  | instantiateGraph realm id =>
    refine .map (Attempt.Upholds.of_meets fun w sane => ?_) _
    exact (Action.meets_instantiateGraph_sane _ realm id sane).imp (fun _ sane => sane.clean)
      (fun _ _ h => h.1) fun _ _ h => h
  | resolve referrer? specifier =>
    exact .map (endsClear_resolve refrains referrer? specifier).upholds _
  | resolveImported referrer? specifier =>
    exact .map (endsClear_resolveImported refrains referrer? specifier).upholds _
  | resolveLoaded location source =>
    exact .map (endsClear_resolveLoaded refrains location source).upholds _
  | exposeGlobally realm name =>
    exact .map (upholds_exposeGlobally_sane refrains depth realm name) _
  | readBinding realm id name => exact .map (brushed (Action.keeps_readBinding _ realm id name)) _
  | setProperty ref key value => exact brushed (Action.keeps_modifyObject ref (·.set key value))
  | askNames id tag => exact .map (brushed (Action.keeps_askNames _ id _)) _
  | lock => exact fun w sane => (tended_sane linked).lock w sane

theorem upholds_run_sane (depth : Nat) (operations : List Operation) :
    Action.Upholds (Clean linked) (Sane linked)
      ((Setup.ofDepth embedding depth).run operations) := by
  induction operations with
  | nil => exact .pure _
  | cons operation rest ih => exact .bind (upholds_perform_sane refrains depth operation) fun _ => ih

end
end Setup

/-! ### No breach -/

/-- Nothing that is evaluated or required from a world on fails with a breach: neither the
evaluation of a record that was linked, nor to require any record, nor what the `require` function
of a module does, nor an entry script. -/
structure World.Unbreached (embedding : Embedding) (w : World) : Prop where
  evaluate : ∀ depth realm id settlement w', w.hasRecord id → (w.record id).IsSettled →
    (Setup.ofDepth embedding depth).evaluate realm id w = .ok settlement w' → settlement.Clears
  require : ∀ depth realm id error w', w.hasRecord id →
    (requireFrom embedding (ofDepth embedding depth) realm id).run w = .ok (.error error) w' →
      ¬ error.IsBreach
  call : ∀ depth realm referrer arguments exception w',
    requireCall embedding (ofDepth embedding depth) realm referrer arguments w =
      .ok (.error exception) w' → ¬ exception.toError.IsBreach
  entry : ∀ depth realm location source error w',
    ((Setup.ofDepth embedding depth).runEntry realm location source).run w = .ok (.error error) w' →
      ¬ error.IsBreach

section
variable {linked : RecordId → Prop} {embedding : Embedding} {w : World}

theorem World.Sane.unbreached (sane : w.Sane linked) (refrains : embedding.Refrains linked) :
    w.Unbreached embedding where
  evaluate depth realm id settlement w' present settled ended := by
    have meets := Setup.meets_evaluate_sane refrains depth realm id sane
    rw [Action.Meets, ended] at meets
    exact meets.2 (.of_isSettled present settled)
  require depth realm id error w' present ended := by
    have meets := (wary_ofDepth refrains depth).requireFrom refrains realm sane present
    rw [Attempt.Meets, ended] at meets
    exact meets.2
  call depth realm referrer arguments exception w' ended := by
    have meets := (wary_ofDepth refrains depth).requireCall refrains realm referrer arguments w sane
    rw [Action.Meets, ended] at meets
    exact meets.2 exception rfl
  entry depth realm location source error w' ended := by
    have meets := Setup.endsClear_runEntry refrains depth realm location source w sane
    rw [Attempt.Meets, ended] at meets
    exact meets.2

/-- Records that have been linked from the top are there and linked, and the world is sane if all
code in it refrains breaches. -/
theorem Embedding.meets_linkAll_sane (refrains : embedding.Refrains linked) (depth : Nat)
    (ids : List RecordId) (orderly : w.Orderly) (links : w.Named ∧ w.Linkage [])
    (clean : w.Clean linked) (present : ∀ id ∈ ids, w.hasRecord id) :
    Attempt.Meets (fun _ => True) (fun _ _ => True) (linkAll (embedding.link depth) ids)
      (fun _ w' => Extends w w' ∧ w'.Orderly ∧ (w'.Named ∧ w'.Linkage []) ∧ w'.Clean linked ∧
        ∀ id ∈ ids, (w'.record id).IsSettled) w := by
  induction ids generalizing w with
  | nil => exact ⟨.refl w, orderly, links, clean, fun _ member => absurd member List.not_mem_nil⟩
  | cons id rest ih =>
    obtain ⟨here, present⟩ := List.forall_mem_cons.mp present
    have idle : ¬ w.IsLinking id := fun linking =>
      List.not_mem_nil ((links.2.linking id).mp linking)
    have upholds := ((sustained_linkage_or_linking embedding).link depth id trivial).meets links
    rw [linkAll, Attempt.meets_bind]
    refine ((((embedding.keeps_link depth id).meets w).and upholds).and
      ((embedding.keepsClean_link refrains depth id w clean).and
        (embedding.meets_link_settled depth here idle))).imp (fun _ _ => trivial)
      (fun _ _ _ => trivial) fun _ w₁ h => ?_
    obtain ⟨⟨kept, links₁⟩, clean₁, here₁, settled₁⟩ := h
    have extends₁ := kept.changes.extends
    refine (ih (Changes.orderly kept.changes orderly) links₁ clean₁ fun x member =>
      extends₁.hasRecord (present x member)).mono fun _ w₂ h => ?_
    obtain ⟨extends₂, orderly₂, links₂, clean₂, settled₂⟩ := h
    exact ⟨extends₁.trans extends₂, orderly₂, links₂, clean₂,
      List.forall_mem_cons.mpr ⟨extends₂.isSettled id here₁ settled₁, settled₂⟩⟩

/-- Any number of links that were tried leave a clean world clean. -/
theorem Setup.upholds_links_clean (refrains : embedding.Refrains linked) (depth : Nat)
    (ids : List RecordId) :
    Action.Upholds (Clean linked) (Clean linked)
      ((Setup.ofDepth embedding depth).run (ids.map .link)) := by
  induction ids with
  | nil => exact .pure _
  | cons id rest ih =>
    exact .bind (.map (embedding.keepsClean_link refrains _ id).upholds _) fun _ => ih

end

/-- In a fresh world of records that are yet to be linked, no code of which raises a breach of its
own, any links are tried from the top and some records are linked. From then on, and whatever is
done, also where it gives up but for a module that is then in the middle of linking, these records
stay linked, and nothing that is evaluated or required comes up with a breach: no stack of a walk is
found empty too early or left with modules on it, every module that is looked for in a realm is
there, and no module is instantiated before it was linked and has got what it requests. Since a body
may pass on whatever it gets from `require`, none comes up in the middle of a body either. -/
theorem no_breach_after_linking (embedding : Embedding) (tryDepth linkDepth : Nat)
    (tried ids : List RecordId) (w₀ w w₁ : World) (fresh : w₀.Fresh) (named : w₀.Named)
    (unlinked : w₀.Unlinked) (refrains : embedding.Refrains (· ∈ ids)) (clean : w₀.Clean (· ∈ ids))
    (attempted : (Setup.ofDepth embedding tryDepth).run (tried.map .link) w₀ = .ok () w)
    (present : ∀ id ∈ ids, w.hasRecord id)
    (linked : (Embedding.linkAll (embedding.link linkDepth) ids).run w = .ok (.ok ()) w₁)
    (depth : Nat) (operations : List Operation) :
    Action.Meets (fun w => (∃ id, w.IsLinking id) ∨ w.Unbreached embedding)
      ((Setup.ofDepth embedding depth).run operations)
      (fun _ w => w.Unbreached embedding ∧
        ∀ id ∈ ids, w.hasRecord id ∧ (w.record id).IsSettled) w₁ := by
  have sustained := sustained_linkage_or_linking embedding
  have sane : w₁.Sane (· ∈ ids) := by
    have steps := Setup.steps_run embedding tryDepth (tried.map .link) fresh.orderly
    have links :=
      Setup.sustains_run sustained tryDepth (tried.map .link) w₀ ⟨named, unlinked.linkage⟩
    have cleaned := Setup.upholds_links_clean refrains tryDepth tried w₀ clean
    rw [Action.after, attempted] at steps
    rw [Action.Meets, attempted] at links cleaned
    have settles := Embedding.meets_linkAll_sane refrains linkDepth ids (steps.orderly fresh.orderly)
      links cleaned present
    rw [Attempt.Meets, linked] at settles
    obtain ⟨extended, orderly, links₁, clean₁, settled⟩ := settles
    exact ⟨orderly, links₁.1, links₁.2, clean₁, fun id member =>
      ⟨extended.hasRecord (present id member), settled id member⟩⟩
  have steps := Setup.steps_run embedding depth operations sane.orderly
  have onward := Setup.sustains_run sustained depth operations w₁ ⟨sane.named, sane.linkage⟩
  have upheld := Setup.upholds_run_sane refrains depth operations w₁ sane
  unfold Action.after at steps
  unfold Action.Meets at onward upheld ⊢
  split at upheld
  · exact ⟨upheld.unbreached refrains, upheld.ready⟩
  · rename_i ran
    rw [ran] at steps onward
    exact onward.imp_right fun onward => (sane.steps steps onward upheld).unbreached refrains

/-- A fresh world is clean if its records spare breaches. -/
theorem World.Fresh.clean {linked : RecordId → Prop} {w : World} (fresh : w.Fresh)
    (functions : ∀ realm, (w.realm realm).functions = #[]) (empty : w.cache.entries = [])
    (records : ∀ record ∈ w.records.toList, record.Refrains linked) : w.Clean linked where
  functions realm code member := by simp [functions] at member
  records id present := by
    have inside : id.index < w.records.size := by simpa [hasRecord] using present
    have here : w.record id = w.records[id.index] := by simp [World.record, inside]
    rw [here]
    exact records _ (by simp)
  kept key error kept := by simp [Cache.get?, empty] at kept
  slots realm id slot found := by simp [Realm.slot?, fresh.slots] at found

/-- Four modules. One evaluates the second and passes on what it is rejected with; the second and
the third request each other, and the third throws; and the last asks the second for a name that it
does not export. -/
def quarrel : World where
  records := #[
    .static {
      location := .fileUrl "" ['/', 'a']
      declarations := {}
      body := fun _ => .evaluate ⟨1⟩ fun
        | .rejected error => .raise { value := .undefined, cause := some error }
        | _ => .give .undefined
      importer := .table },
    tableModule 'b' [⟨"c", []⟩],
    .static {
      location := .fileUrl "" ['/', 'c']
      declarations := { imports := [⟨"b", []⟩] }
      body := fun _ => .raise { value := .null }
      importer := .table },
    tableModule 'd' [⟨"b", [.named "x" none]⟩]]
  table _ specifier := if specifier = "b" then some ⟨1⟩ else some ⟨2⟩

theorem named_quarrel : quarrel.Named where
  cached _ _ cached := by cases cached
  tabled _ specifier _ tabled := by
    by_cases first : specifier = "b" <;> simp [quarrel, first] at tabled <;> subst tabled <;> rfl

theorem refrains_bare (linked : RecordId → Prop) : Embedding.bare.Refrains linked where
  hosts _ _ registered := by cases registered
  bodies _ _ _ _ compiled := by cases compiled
  programs _ _ _ compiled := by cases compiled

theorem clean_quarrel : quarrel.Clean (· ∈ [⟨0⟩, ⟨1⟩]) := by
  refine World.Fresh.clean ⟨fun _ => rfl, fun _ => rfl, rfl⟩ (fun _ => rfl) rfl ?_
  simp only [quarrel, List.forall_mem_cons]
  refine ⟨⟨fun _ settlement clears => ?_, fun _ failed => by cases failed⟩,
    ⟨fun _ => clears_ok _, fun _ failed => by cases failed⟩,
    ⟨fun _ => clears_error fun breach => breach, fun _ failed => by cases failed⟩,
    ⟨fun _ => clears_ok _, fun _ failed => by cases failed⟩, by simp⟩
  cases settlement with
  | rejected error => exact clears_error (clears (by simp) error rfl)
  | _ => exact clears_ok _

/-- The last module fails to link, and then the first two are linked. What the third throws comes
through to whoever evaluates the first, and no breach does. -/
theorem no_breach_in_quarrel :
    ∃ w w₁ w₂, (Setup.ofDepth .bare 4).run ([⟨3⟩].map .link) quarrel = .ok () w ∧
      w.LinkFailed ⟨3⟩ ∧
      (Embedding.linkAll (Embedding.bare.link 3) [⟨0⟩, ⟨1⟩]).run w = .ok (.ok ()) w₁ ∧
      (Setup.ofDepth .bare 5).run [.evaluate (.worker 0) ⟨1⟩] w₁ = .ok () w₂ ∧
      w₂.Unbreached .bare ∧
      ∃ w', (Setup.ofDepth .bare 5).evaluate (.worker 1) ⟨0⟩ w₂ =
        .ok (.rejected (.evaluationRejected .null)) w' := by
  have computed : ((Setup.ofDepth .bare 4).run ([⟨3⟩].map .link)).ends quarrel (fun _ w =>
      ((w.record ⟨3⟩).static?.any fun module => module.status matches .failed _) &&
      w.hasRecord ⟨0⟩ && w.hasRecord ⟨1⟩ &&
      (Embedding.linkAll (Embedding.bare.link 3) [⟨0⟩, ⟨1⟩]).run.ends w fun outcome w₁ =>
        outcome.isOk && ((Setup.ofDepth .bare 5).run [.evaluate (.worker 0) ⟨1⟩]).ends w₁ fun _ w₂ =>
          ((Setup.ofDepth .bare 5).evaluate (.worker 1) ⟨0⟩).ends w₂ fun settlement _ =>
            settlement = .rejected (.evaluationRejected .null)) = true := by
    cbv
  obtain ⟨_, w, attempted, computed⟩ := Action.exists_of_ends computed
  simp only [Bool.and_eq_true] at computed
  obtain ⟨⟨⟨failed, first⟩, second⟩, computed⟩ := computed
  obtain ⟨outcome, w₁, linked, computed⟩ := Action.exists_of_ends computed
  obtain ⟨isOk, computed⟩ := Bool.and_eq_true_iff.mp computed
  obtain ⟨_, w₂, ran, computed⟩ := Action.exists_of_ends computed
  obtain ⟨settlement, w', evaluated, same⟩ := Action.exists_of_ends computed
  have same : settlement = .rejected (.evaluationRejected .null) := by simpa using same
  subst same
  have linkFailed : w.LinkFailed ⟨3⟩ := by
    obtain ⟨module, found, status⟩ := Option.any_eq_true _ _ |>.mp failed
    split at status
    · exact ⟨module, _, static?_eq_some.mp found, ‹_›⟩
    · cases status
  cases outcome with
  | error => cases isOk
  | ok _ =>
    have meets := no_breach_after_linking .bare 4 3 [⟨3⟩] [⟨0⟩, ⟨1⟩] quarrel w w₁
      ⟨fun _ => rfl, fun _ => rfl, rfl⟩ named_quarrel (unlinked_of_all _ (by cbv)) (refrains_bare _)
      clean_quarrel attempted (by simp [first, second]) linked 5 [.evaluate (.worker 0) ⟨1⟩]
    rw [Action.Meets, ran] at meets
    exact ⟨w, w₁, w₂, attempted, linkFailed, linked, ran, meets.1, w', evaluated⟩

end ModuleGraph
