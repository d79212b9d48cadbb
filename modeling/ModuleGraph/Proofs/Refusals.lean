import ModuleGraph.Proofs.Inquiries

/-!
What the end of discovery means. Nothing is asked or kept any more, and lookups answer what is kept
or are refused. A lookup that ends discovery by itself is refused for the key that it came to; if it
is made again, it is refused for its own text, which can be another one.
-/
namespace ModuleGraph
open World Engine

/-! ### After discovery -/

namespace World
variable {embedding : Embedding} {place : Place} {refused : String} {outcome : Outcome RecordId}
  {w w' : World}

/-- What resolution has kept and what it was asked are the same. -/
structure Frozen (w w' : World) : Prop where
  cache : w'.cache = w.cache
  locations : w'.locations = w.locations
  inquiries : w'.inquiries = w.inquiries

theorem Frozen.beside {w₀ : World} (frozen : Frozen w₀ w) (locked : w₀.cache.isLocked = true)
    (beside : Beside w w') : Frozen w₀ w' where
  cache := by
    rcases beside.cache with same | same
    · rw [same, frozen.cache]
    · rw [same, frozen.cache]
      exact (Remembers.lock w₀).closed locked
  locations := beside.locations.trans frozen.locations
  inquiries := beside.inquiries.trans frozen.inquiries

/-- A lookup changes nothing once discovery is over. -/
theorem LookedUp.same (did : LookedUp embedding place refused w outcome w')
    (locked : w.cache.isLocked = true) : w' = w := by
  cases did with
  | kept | refused => rfl
  | discovered _ unlocked => simp [locked] at unlocked

theorem sustained_frozen (locked : w.cache.isLocked = true) (embedding : Embedding) :
    Sustained embedding (Frozen w) (Frozen w) := by
  refine sustained_of_lookedUp (fun _ _ beside frozen => frozen.beside locked beside)
    fun _ _ _ _ _ did frozen => ?_
  rwa [did.same (frozen.cache ▸ locked)]

end World

/-- Once discovery is over, whatever is under way then and whatever is done from then on, with
whichever embedder, keeps nothing new, forgets nothing, asks nothing of the loader and the compiler,
and notes no location; discovery stays over. All lookups that come to a host module or a location
answer what was kept under the key by then, or are refused, and change nothing. -/
theorem nothing_discovered_once_locked (depth : Nat) (steps : List (Embedding × Operation))
    (w w' : World) (locked : w.cache.isLocked = true)
    (ended : (Setup.runEach depth steps).after w = w') :
    w'.cache = w.cache ∧ w'.locations = w.locations ∧ w'.inquiries = w.inquiries ∧
      ∀ (embedding : Embedding) (lookup : Lookup) (place : Place),
        lookup.place? embedding w' = some place →
        (lookup.attempt embedding).run w' =
          .ok ((w.cache.get? place.key).getD (.error (.resolutionLocked lookup.text))) w' := by
  have frozen : Frozen w w' :=
    ended ▸ Setup.sustained_after_runEach (sustained_frozen locked) depth steps ⟨rfl, rfl, rfl⟩
  obtain ⟨cache, locations, inquiries⟩ := frozen
  refine ⟨cache, locations, inquiries, fun embedding lookup place found => ?_⟩
  rw [← cache] at locked ⊢
  cases kept : w'.cache.get? place.key with
  | some outcome => exact Embedding.run_lookup_kept found kept
  | none => exact Embedding.run_lookup_refused found kept locked

/-- One location was looked for when discovery ended. It is answered for ever with what was kept for
it then, and others are refused, whatever there is to be found by now. -/
theorem nothing_discovered_once_locked_in_bare :
    ∃ w w', (Setup.ofDepth .bare 1).run [.resolve none "/a", .lock] (ofModules []) = .ok () w ∧
      w.cache.isLocked = true ∧
      (Setup.runEach 1 [(.lockedByLoader, .resolve none "/b")]).after w = w' ∧
      w'.cache = w.cache ∧ w'.inquiries = w.inquiries ∧
      (Embedding.lockedByLoader.resolve none "/a").run w' =
        .ok (.error (.load "file:///a" "file:///a")) w' ∧
      (Embedding.lockedByLoader.resolve none "/b").run w' =
        .ok (.error (.resolutionLocked "/b")) w' := by
  have computed : ((Setup.ofDepth .bare 1).run [.resolve none "/a", .lock]).ends (ofModules [])
      (fun _ w => w.cache.isLocked && (w.cache.get? "file:///b").isNone &&
        w.cache.get? "file:///a" = some (.error (.load "file:///a" "file:///a"))) = true := by
    cbv
  obtain ⟨_, w, ran, computed⟩ := Action.exists_of_ends computed
  simp only [Bool.and_eq_true, decide_eq_true_eq, Option.isNone_iff_eq_none] at computed
  obtain ⟨⟨locked, absent⟩, kept⟩ := computed
  obtain ⟨w', ended⟩ : ∃ w',
      (Setup.runEach 1 [(.lockedByLoader, .resolve none "/b")]).after w = w' := ⟨_, rfl⟩
  obtain ⟨cache, _, inquiries, answers⟩ := nothing_discovered_once_locked 1 _ w w' locked ended
  have here : (Lookup.written none "/a").place? .lockedByLoader w' =
      some (.location (.fileUrl "" ['/', 'a'])) := by
    cbv
  have there : (Lookup.written none "/b").place? .lockedByLoader w' =
      some (.location (.fileUrl "" ['/', 'b'])) := by
    cbv
  have answered := answers .lockedByLoader _ _ here
  have refused := answers .lockedByLoader _ _ there
  have keyHere : (Place.location (.fileUrl "" ['/', 'a'])).key = "file:///a" := by decide
  have keyThere : (Place.location (.fileUrl "" ['/', 'b'])).key = "file:///b" := by decide
  rw [keyHere, kept] at answered
  rw [keyThere, absent] at refused
  exact ⟨w, w', ran, locked, ended, cache, inquiries, answered, refused⟩

/-! ### Lookups made again -/

/-- What a question comes to, it comes to as long as the settings are the same. -/
theorem Lookup.place?_later {embedding later : Embedding} {lookup : Lookup} {place : Place}
    {w w' : World} (same : later.config = embedding.config) (remembers : Remembers w w')
    (found : lookup.place? embedding w = some place) : lookup.place? later w' = some place := by
  have placeOf : later.placeOf = embedding.placeOf := by
    funext referrer specifier
    simp only [Embedding.placeOf, same]
  cases lookup with
  | loaded location source => exact found
  | written referrer? specifier => simpa only [place?, placeOf, same] using found
  | imported referrer? specifier =>
    cases referrer? with
    | none => simpa only [place?, placeOf, same] using found
    | some id =>
      simp only [place?, placeOf, same] at found ⊢
      split at found
      · rwa [if_pos ‹_›]
      · obtain ⟨location, known, found⟩ := Option.bind_eq_some_iff.mp found
        rw [if_neg ‹_›, remembers.location id location known]
        exact found

/-- A lookup that is made twice in a row, whatever else the loader and the compiler would do the
second time, comes to an answer both times, and the second time changes nothing. The answers differ
just if discovery ends during the first lookup, which comes to a key that is not the text of the
lookup. It is refused both times then: first for the key, and again for the text. -/
theorem answers_differ_iff_locked_meanwhile (embedding : Embedding)
    (hosts : List (String × HostModule)) (load : Url → String → LoadReply)
    (compile : String → String → CompileReply) (compileWrapper : String → String → WrapperReply)
    (lookup : Lookup) (w : World) :
    ∃ first second w', (lookup.attempt embedding).run w = .ok first w' ∧
      (lookup.attempt ⟨embedding.config, hosts, load, compile, compileWrapper⟩).run w' =
        .ok second w' ∧
      (second ≠ first ↔ w.cache.isLocked = false ∧ w'.cache.isLocked = true ∧
        ∃ place, lookup.place? embedding w = some place ∧ place.key ≠ lookup.text) ∧
      (second ≠ first → ∃ place, lookup.place? embedding w = some place ∧
        first = .error (.resolutionLocked place.key) ∧
        second = .error (.resolutionLocked lookup.text)) := by
  let later : Embedding := ⟨embedding.config, hosts, load, compile, compileWrapper⟩
  cases found : lookup.place? embedding w with
  | none =>
    obtain ⟨error, fails⟩ := Embedding.run_of_no_place found
    exact ⟨_, _, w, fails embedding rfl, fails later rfl, by simp, by simp⟩
  | some place =>
    obtain ⟨first, w', ended, did⟩ := (Embedding.lookedUp_of_place found).exists_ended
    have found' : lookup.place? later w' = some place :=
      Lookup.place?_later rfl (Embedding.remembers_of_lookup ended) found
    rcases did.settled with ⟨kept, same⟩ | ⟨absent, locked, ⟨before, refusal⟩ | ⟨before, refusal⟩⟩
    · refine ⟨first, first, w', ended, Embedding.run_lookup_kept found' kept, ?_, by simp⟩
      simp +contextual [same]
    · have again := Embedding.run_lookup_refused found' absent locked
      refine ⟨first, _, w', ended, again, ?_, by simp [refusal]⟩
      simp [before, refusal]
    · -- discovery has ended meanwhile: the first refusal is for the key
      have again := Embedding.run_lookup_refused found' absent locked
      refine ⟨first, _, w', ended, again, ?_, fun _ => ⟨place, rfl, refusal, rfl⟩⟩
      simp [before, locked, refusal, eq_comm]

/-- So a specifier that is resolved twice in a row does not always get the same answer. -/
theorem not_same_answer_again :
    ¬ ∀ (embedding : Embedding) (depth : Nat) (operations : List Operation) (w w₁ w₂ : World),
      (Setup.ofDepth embedding depth).run operations (ofModules []) = .ok () w →
      ∀ (referrer? : Option Url) (specifier : String) (first second : Outcome RecordId),
        (embedding.resolve referrer? specifier).run w = .ok first w₁ →
        (embedding.resolve referrer? specifier).run w₁ = .ok second w₂ → second = first := by
  intro claim
  have computed : Action.ends (Embedding.lockedByLoader.resolve none "/a").run (ofModules [])
      (fun first w₁ => first = .error (.resolutionLocked "file:///a") &&
        Action.ends (Embedding.lockedByLoader.resolve none "/a").run w₁ fun second _ =>
          second = .error (.resolutionLocked "/a")) = true := by
    cbv
  obtain ⟨first, w₁, ended, computed⟩ := Action.exists_of_ends computed
  simp only [Bool.and_eq_true, decide_eq_true_eq] at computed
  obtain ⟨here, computed⟩ := computed
  obtain ⟨second, w₂, ended', there⟩ := Action.exists_of_ends computed
  have same := claim .lockedByLoader 1 [] (ofModules []) w₁ w₂ rfl none "/a" _ _ ended ended'
  simp [here, of_decide_eq_true there] at same

end ModuleGraph
