import Mathlib
import ModuleGraph.Proofs.Beside

/-!
What resolution remembers. An outcome that is kept under a key stays there, and every lookup that
comes to the key answers it and does nothing else; a lookup that is not refused keeps what it
answers. The keys are listed in ascending order.
-/
namespace ModuleGraph
open World Engine

/-! ### What stays -/

namespace World
variable {w w' : World}

/-- What resolution has kept, it keeps: the outcomes of keys and the locations of records. Once
discovery is over, nothing is kept any more. -/
structure Remembers (w w' : World) : Prop where
  outcome : ∀ key outcome, w.cache.get? key = some outcome → w'.cache.get? key = some outcome
  closed : w.cache.isLocked = true → w'.cache = w.cache
  location : ∀ id location, w.locations.lookup id = some location →
    w'.locations.lookup id = some location
  ascending : w.cache.keys.Pairwise (· < ·) → w'.cache.keys.Pairwise (· < ·)

namespace Remembers

theorem of_same (cache : w'.cache = w.cache) (locations : w'.locations = w.locations) :
    Remembers w w' := by
  constructor
  all_goals simp [cache, locations]

theorem lock (w : World) : Remembers w w.lock where
  outcome _ _ found := found
  closed locked := by
    show { w.cache with isLocked := true } = w.cache
    rw [← locked]
  location _ _ found := found
  ascending h := h

theorem keep (w : World) (key : String) (outcome : Outcome RecordId) :
    Remembers w { w with cache := (w.cache.insert key outcome).2 } where
  outcome other kept found := by
    rw [Cache.get?_insert, if_neg fun new => ?_]
    · exact found
    · rw [new.1, new.2.1] at found
      cases found
  closed locked := by simp [Cache.insert, locked]
  location _ _ found := found
  ascending h := by
    show (Cache.insert w.cache key outcome).2.keys.Pairwise (· < ·)
    unfold Cache.insert
    split
    · exact h
    · split
      · exact h
      · exact Sorted.ascending_insert h

end Remembers

instance : Retains Remembers where
  refl w := .of_same rfl rfl
  trans _ _ _ h h' := ⟨
    fun key outcome found => h'.outcome key outcome (h.outcome key outcome found),
    fun locked => by rw [h'.closed (by rw [h.closed locked, locked]), h.closed locked],
    fun id location found => h'.location id location (h.location id location found),
    fun ascending => h'.ascending (h.ascending ascending)⟩
  touch w _ touch := by
    cases touch with
    | lock => exact .lock w
    | _ => exact .of_same rfl rfl
  draw w _ draw := by
    cases draw with
    | addLocation id location =>
      refine ⟨fun _ _ found => found, fun _ => rfl, fun other place found => ?_, fun h => h⟩
      rw [List.lookup_append, found]
      rfl
    | _ => exact .of_same rfl rfl
  keep := .keep

/-- Whatever code does, resolution remembers what it has kept. -/
theorem sustained_remembers (embedding : Embedding) (w : World) :
    Sustained embedding (Remembers w) (Remembers w) :=
  sustained_of (fun _ _ _ => .of_same rfl rfl) (fun _ _ _ => .of_same rfl rfl)
    (fun _ _ _ _ => .of_same rfl rfl) (fun _ _ move => by cases move <;> exact .of_same rfl rfl)
    embedding w

end World

theorem Setup.remembers_of_run {embedding : Embedding} {depth : Nat} {operations : List Operation}
    {w w' : World} (ran : (Setup.ofDepth embedding depth).run operations w = .ok () w') :
    Remembers w w' := by
  have meets := Setup.sustains_run (sustained_remembers embedding w) depth operations w (refl w)
  rwa [Action.Meets, ran] at meets

/-! ### Lookups -/

/-- A question to the resolver: for a specifier that was written at a location, for one on behalf of
a record, or for the record of a source that is at hand. -/
inductive Lookup where
  | written (referrer? : Option Url) (specifier : String)
  | imported (referrer? : Option RecordId) (specifier : String)
  | loaded (location : Url) (source : List UInt8)

namespace Embedding
variable (embedding : Embedding)

/-- What a specifier written at a location stands for. -/
def placeOf (referrer : Url) (specifier : String) : Option Place :=
  if embedding.config.isHostSpecifier specifier then some (.host specifier)
  else
    match canonicalize embedding.config referrer specifier with
    | .ok location => some (.location location)
    | .error _ => none

end Embedding

namespace Lookup

/-- The text that a question is about. -/
def text : Lookup → String
  | .written _ specifier | .imported _ specifier => specifier
  | .loaded location _ => location.toText

/-- What the resolver does about a question. -/
def attempt (embedding : Embedding) : Lookup → Attempt RecordId
  | .written referrer? specifier => embedding.resolve referrer? specifier
  | .imported referrer? specifier => embedding.resolveImported referrer? specifier
  | .loaded location source => embedding.resolveLoaded location source

/-- What a question comes to, unless it is refused as such. -/
def place? (embedding : Embedding) (w : World) : Lookup → Option Place
  | .written referrer? specifier =>
    embedding.placeOf (referrer?.getD embedding.config.base) specifier
  | .imported none specifier => embedding.placeOf embedding.config.base specifier
  | .imported (some id) specifier =>
    if embedding.config.isHostSpecifier specifier then some (.host specifier)
    else (w.locations.lookup id).bind fun location => embedding.placeOf location specifier
  | .loaded location _ => some (.location location)

end Lookup

/-- What resolution upholds is upheld by every lookup. -/
theorem Engine.Consulted.lookup {embedding : Embedding} {stuck inv : World → Prop}
    (consulted : Consulted embedding stuck inv) (lookup : Lookup) :
    Attempt.Upholds stuck inv (lookup.attempt embedding) := by
  cases lookup with
  | written referrer? specifier => exact consulted.resolve (by simp) specifier
  | imported referrer? specifier => exact consulted.resolveImported referrer? specifier
  | loaded location source => exact consulted.loaded location source trivial

namespace Embedding
variable {embedding : Embedding} {w w' : World} {lookup : Lookup} {place : Place}
  {outcome : Outcome RecordId} {key refused : String} {compute : Attempt RecordId}

/-- What a record imports is resolved where the record is from. -/
theorem run_resolveImported_of_located {id : RecordId} {location : Url}
    (known : w.locations.lookup id = some location) (specifier : String) :
    (embedding.resolveImported (some id) specifier).run w =
      (embedding.resolve (some location) specifier).run w := by
  unfold resolveImported
  split
  · rename_i isHost
    rw [resolve, if_pos isHost]
  · have looked : (liftM (locationOf id) : Attempt _).run w = .ok (.ok (some location)) w := by
      rw [← known]
      rfl
    exact Attempt.run_bind_of_ended looked _

/-- What is not from anywhere imports host modules only. -/
theorem run_resolveImported_of_unlocated {id : RecordId} (unknown : w.locations.lookup id = none)
    {specifier : String} (notHost : ¬ embedding.config.isHostSpecifier specifier = true) :
    (embedding.resolveImported (some id) specifier).run w =
      .ok (.error (.defect ("module " ++ w.numberText id ++ " importing " ++
        Text.quoted specifier ++ " has no known location"))) w := by
  unfold resolveImported
  rw [if_neg notHost]
  have looked : (liftM (locationOf id) : Attempt _).run w = .ok (.ok none) w := by
    rw [← unknown]
    rfl
  exact Attempt.run_bind_of_ended looked _

theorem resolve_of_place (referrer? : Option Url) {specifier : String}
    (found : embedding.placeOf (referrer?.getD embedding.config.base) specifier = some place) :
    ∃ compute, embedding.Discovers place compute ∧
      embedding.resolve referrer? specifier = remember place.key specifier compute := by
  unfold placeOf at found
  unfold resolve
  split at found
  · rename_i isHost
    cases found
    exact ⟨_, .host specifier, if_pos isHost⟩
  · rename_i notHost
    rw [if_neg notHost]
    cases canonical :
        canonicalize embedding.config (referrer?.getD embedding.config.base) specifier with
    | error error =>
      rw [canonical] at found
      cases found
    | ok location =>
      rw [canonical] at found
      cases found
      exact ⟨_, .loads location specifier, rfl⟩

/-- A lookup that comes to a place answers what is remembered of the place. -/
theorem run_of_place (found : lookup.place? embedding w = some place) :
    ∃ compute, embedding.Discovers place compute ∧
      (lookup.attempt embedding).run w = (remember place.key lookup.text compute).run w := by
  cases lookup with
  | written referrer? specifier =>
    obtain ⟨compute, discovers, same⟩ := resolve_of_place referrer? found
    exact ⟨compute, discovers, by rw [Lookup.attempt, same, Lookup.text]⟩
  | loaded location source =>
    cases found
    exact ⟨_, .holds location source, rfl⟩
  | imported referrer? specifier =>
    rw [Lookup.attempt, Lookup.text]
    by_cases isHost : embedding.config.isHostSpecifier specifier = true
    · have here : place = .host specifier := by
        cases referrer? <;> simpa [Lookup.place?, placeOf, isHost] using found.symm
      subst here
      unfold resolveImported
      rw [if_pos isHost]
      exact ⟨_, .host specifier, rfl⟩
    · cases referrer? with
      | none =>
        obtain ⟨compute, discovers, same⟩ := resolve_of_place none found
        exact ⟨compute, discovers, by rw [resolveImported, if_neg isHost, same]⟩
      | some id =>
        simp only [Lookup.place?, if_neg isHost, Option.bind_eq_some_iff] at found
        obtain ⟨location, known, found⟩ := found
        obtain ⟨compute, discovers, same⟩ := resolve_of_place (some location) found
        exact ⟨compute, discovers, by rw [run_resolveImported_of_located known, same]⟩

/-- A specifier that stands for nothing is refused by the settings alone. -/
theorem resolve_of_no_place (referrer? : Option Url) {specifier : String}
    (absent : embedding.placeOf (referrer?.getD embedding.config.base) specifier = none) :
    ∃ error, ∀ later : Embedding, later.config = embedding.config →
      later.resolve referrer? specifier = throw error := by
  unfold placeOf at absent
  split at absent
  · cases absent
  · rename_i notHost
    cases canonical :
        canonicalize embedding.config (referrer?.getD embedding.config.base) specifier with
    | ok location =>
      rw [canonical] at absent
      cases absent
    | error error =>
      refine ⟨error, fun later same => ?_⟩
      rw [resolve, same, if_neg notHost, canonical]

/-- A lookup that comes to no place fails and changes nothing; the loader and the compiler have no
say in it. -/
theorem run_of_no_place (absent : lookup.place? embedding w = none) :
    ∃ error, ∀ later : Embedding, later.config = embedding.config →
      (lookup.attempt later).run w = .ok (.error error) w := by
  cases lookup with
  | loaded location source => cases absent
  | written referrer? specifier =>
    obtain ⟨error, throws⟩ := resolve_of_no_place referrer? absent
    exact ⟨error, fun later same => by rw [Lookup.attempt, throws later same]; rfl⟩
  | imported referrer? specifier =>
    have notHost : ¬ embedding.config.isHostSpecifier specifier = true := by
      intro isHost
      cases referrer? <;> simp [Lookup.place?, placeOf, isHost] at absent
    cases referrer? with
    | none =>
      obtain ⟨error, throws⟩ := resolve_of_no_place none absent
      refine ⟨error, fun later same => ?_⟩
      rw [Lookup.attempt, resolveImported, same, if_neg notHost, throws later same]
      rfl
    | some id =>
      simp only [Lookup.place?, if_neg notHost] at absent
      cases known : w.locations.lookup id with
      | none =>
        exact ⟨_, fun later same => run_resolveImported_of_unlocated known (same ▸ notHost)⟩
      | some location =>
        rw [known, Option.bind_some] at absent
        obtain ⟨error, throws⟩ := resolve_of_no_place (some location) absent
        refine ⟨error, fun later same => ?_⟩
        rw [Lookup.attempt, run_resolveImported_of_located known, throws later same]
        rfl

/-- What is remembered is answered, and the world stays as it is. -/
theorem run_remember_kept (kept : w.cache.get? key = some outcome) :
    (remember key refused compute).run w = .ok outcome w := by
  apply Action.Meets.eq
  rw [Attempt.meets_run, remember, Attempt.meets_bind, Attempt.meets_get]
  simp only [kept]
  cases outcome <;> exact ⟨rfl, rfl⟩

theorem run_remember_refused (absent : w.cache.get? key = none) (locked : w.cache.isLocked = true) :
    (remember key refused compute).run w = .ok (.error (.resolutionLocked refused)) w := by
  apply Action.Meets.eq
  rw [Attempt.meets_run, remember, Attempt.meets_bind, Attempt.meets_get]
  simp [absent, locked]

/-- The first outcome of a key is kept, if discovery is not over and did not end by that. -/
theorem run_remember_first (absent : w.cache.get? key = none) (unlocked : w.cache.isLocked = false)
    (computed : compute.run w = .ok outcome w') (same : w'.cache = w.cache) :
    (remember key refused compute).run w =
      .ok outcome { w' with cache := (w.cache.insert key outcome).2 } := by
  have kept : (keep key outcome).run w' =
      .ok outcome { w' with cache := (w.cache.insert key outcome).2 } := by
    have inserted : w'.cache.insert key outcome = (outcome, (w.cache.insert key outcome).2) := by
      simp [Cache.insert, same, absent, unlocked]
    apply Action.Meets.eq
    unfold keep
    rw [Attempt.meets_run, Attempt.meets_bind, Attempt.meets_get, Attempt.meets_bind,
      Attempt.meets_set, inserted]
    cases outcome <;> exact ⟨rfl, rfl⟩
  have known : compute.outcome.run w = .ok (.ok outcome) w' := by
    show EStateM.map Except.ok compute.run w = _
    rw [EStateM.map, computed]
  have looked : (get : Attempt World).run w = .ok (.ok w) w := rfl
  simp only [remember, Attempt.run_bind_of_ended looked, absent, unlocked, Bool.false_eq_true,
    if_false, Attempt.run_bind_of_ended known, kept]

theorem run_lookup_kept (found : lookup.place? embedding w = some place)
    (kept : w.cache.get? place.key = some outcome) :
    (lookup.attempt embedding).run w = .ok outcome w := by
  obtain ⟨compute, _, same⟩ := run_of_place found
  rw [same, run_remember_kept kept]

theorem run_lookup_refused (found : lookup.place? embedding w = some place)
    (absent : w.cache.get? place.key = none) (locked : w.cache.isLocked = true) :
    (lookup.attempt embedding).run w = .ok (.error (.resolutionLocked lookup.text)) w := by
  obtain ⟨compute, _, same⟩ := run_of_place found
  rw [same, run_remember_refused absent locked]

end Embedding

namespace World
variable {embedding : Embedding} {place : Place} {refused : String} {w w' : World}
  {outcome : Outcome RecordId}

/-- The outcome of a key is kept; or there is none and never will be, because discovery is over. -/
def Answered (w : World) (key refused : String) (outcome : Outcome RecordId) : Prop :=
  w.cache.get? key = some outcome ∨
    w.cache.get? key = none ∧ w.cache.isLocked = true ∧
      (outcome = .error (.resolutionLocked key) ∨ outcome = .error (.resolutionLocked refused))

/-- What a lookup answers is kept and discovery goes on as before; or discovery was over and the
lookup is refused for its text; or discovery has ended meanwhile and the lookup is refused for its
key. -/
theorem LookedUp.settled (did : LookedUp embedding place refused w outcome w') :
    (w'.cache.get? place.key = some outcome ∧ w'.cache.isLocked = w.cache.isLocked) ∨
    w'.cache.get? place.key = none ∧ w'.cache.isLocked = true ∧
      (w.cache.isLocked = true ∧ outcome = .error (.resolutionLocked refused) ∨
        w.cache.isLocked = false ∧ outcome = .error (.resolutionLocked place.key)) := by
  cases did with
  | kept kept => exact .inl ⟨kept, rfl⟩
  | refused absent locked => exact .inr ⟨absent, locked, .inl ⟨locked, rfl⟩⟩
  | @discovered outcome w' absent unlocked discovered =>
    rw [← discovered.get?] at absent
    cases locked : w'.cache.isLocked with
    | true =>
      have refused : w'.cache.insert place.key outcome =
          (.error (.resolutionLocked place.key), w'.cache) := if_pos locked
      rw [refused]
      exact .inr ⟨absent, locked, .inr ⟨unlocked, rfl⟩⟩
    | false =>
      have kept := Cache.get?_insert w'.cache place.key place.key outcome
      rw [if_pos ⟨rfl, absent, locked⟩] at kept
      have answered : (w'.cache.insert place.key outcome).1 = outcome := by
        simp [Cache.insert, locked, absent]
      rw [answered, unlocked, ← locked]
      exact .inl ⟨kept, Cache.isLocked_insert ..⟩

theorem LookedUp.answered (did : LookedUp embedding place refused w outcome w') :
    w'.Answered place.key refused outcome := by
  rcases did.settled with ⟨kept, _⟩ | ⟨absent, locked, refusal⟩
  · exact .inl kept
  · exact .inr ⟨absent, locked, refusal.symm.imp And.right And.right⟩

end World

namespace Embedding
variable {embedding : Embedding} {w w' : World} {lookup : Lookup} {place : Place}
  {outcome : Outcome RecordId}

/-- A lookup that comes to a place does what a lookup of that place can do. -/
theorem lookedUp_of_place (found : lookup.place? embedding w = some place) :
    Action.Meets (fun _ => False) (lookup.attempt embedding).run
      (LookedUp embedding place lookup.text w) w := by
  obtain ⟨compute, discovers, same⟩ := run_of_place found
  have lookedUp := discovers.lookedUp lookup.text w
  rwa [Action.Meets, ← same] at lookedUp

theorem remembers_of_lookup (ended : (lookup.attempt embedding).run w = .ok outcome w') :
    Remembers w w' := by
  have upholds := (sustained_remembers embedding w).toConsulted.lookup lookup
  have meets := upholds w (refl w)
  rwa [Action.Meets, ended] at meets

theorem answered_of_lookup (found : lookup.place? embedding w = some place)
    (ended : (lookup.attempt embedding).run w = .ok outcome w') :
    w'.Answered place.key lookup.text outcome := by
  have lookedUp := lookedUp_of_place found
  rw [Action.Meets, ended] at lookedUp
  exact lookedUp.answered

/-- What a lookup answers is kept, unless it is that discovery is over. -/
theorem kept_of_lookup (found : lookup.place? embedding w = some place)
    (ended : (lookup.attempt embedding).run w = .ok outcome w') :
    w'.cache.get? place.key = some outcome ∨
      w'.cache.isLocked = true ∧ ∃ specifier, outcome = .error (.resolutionLocked specifier) := by
  refine (answered_of_lookup found ended).imp_right fun ⟨_, locked, refusal⟩ => ⟨locked, ?_⟩
  rcases refusal with refusal | refusal
  · exact ⟨_, refusal⟩
  · exact ⟨_, refusal⟩

end Embedding

/-- Whatever is done meanwhile, an outcome that was kept under a key stays, and every lookup that
comes to the key answers just this outcome, also one that brings a source along, and changes
nothing. A lookup keeps what it answers, or is refused because discovery is over; so any two that
come to the same key and succeed answer the same record, whoever asks. The keys stay in ascending
order, and they are just those that have an outcome. -/
theorem outcomes_are_kept (embedding : Embedding) (depth : Nat) (operations : List Operation)
    (w w' : World) (ran : (Setup.ofDepth embedding depth).run operations w = .ok () w') :
    (∀ key outcome, w.cache.get? key = some outcome → w'.cache.get? key = some outcome ∧
      ∀ lookup place, Lookup.place? embedding w' lookup = some place → place.key = key →
        (lookup.attempt embedding).run w' = .ok outcome w') ∧
    (∀ lookup place, Lookup.place? embedding w' lookup = some place →
      ∀ outcome w'', (lookup.attempt embedding).run w' = .ok outcome w'' →
        w''.cache.get? place.key = some outcome ∨
          w''.cache.isLocked = true ∧ ∃ specifier, outcome = .error (.resolutionLocked specifier)) ∧
    (∀ (first second : Lookup) (place place' : Place) (before after : World) (id id' : RecordId),
      first.place? embedding before = some place → second.place? embedding w' = some place' →
      place.key = place'.key → (first.attempt embedding).run before = .ok (.ok id) w →
      (second.attempt embedding).run w' = .ok (.ok id') after → id' = id) ∧
    (w.cache.keys.Pairwise (· < ·) → w'.cache.keys.Pairwise (· < ·)) ∧
    ∀ key, key ∈ w'.cache.keys ↔ ∃ outcome, w'.cache.get? key = some outcome := by
  have remembers := Setup.remembers_of_run ran
  refine ⟨fun key outcome kept => ?_, fun lookup place found outcome w'' ended =>
    Embedding.kept_of_lookup found ended, ?_, remembers.ascending, fun _ => Sorted.mem_keys⟩
  · have kept' := remembers.outcome key outcome kept
    refine ⟨kept', fun lookup place found same => Embedding.run_lookup_kept found ?_⟩
    rwa [same]
  · intro first second place place' before after id id' found found' same ended ended'
    rcases Embedding.kept_of_lookup found ended with kept | ⟨_, _, refused⟩
    · rw [same] at kept
      have again := Embedding.run_lookup_kept found' (remembers.outcome _ _ kept)
      rw [again] at ended'
      cases ended'
      rfl
    · cases refused

/-- Nothing is at a location; to look for it keeps the failure, which is answered after discovery is
over to a lookup that brings a source along. -/
theorem outcomes_are_kept_in_bare :
    ∃ w w', (Setup.ofDepth .bare 1).run [.resolve none "/a"] (ofModules []) = .ok () w ∧
      (Setup.ofDepth .bare 1).run [.lock, .resolve none "host:a"] w = .ok () w' ∧
      ((Lookup.loaded (.fileUrl "" ['/', 'a']) []).attempt .bare).run w' =
        .ok (.error (.load "file:///a" "file:///a")) w' := by
  have computed : ((Setup.ofDepth .bare 1).run [.resolve none "/a"]).ends (ofModules []) (fun _ w =>
      w.cache.get? "file:///a" = some (.error (.load "file:///a" "file:///a")) &&
        ((Setup.ofDepth .bare 1).run [.lock, .resolve none "host:a"]).ends w fun _ _ => true) =
      true := by
    cbv
  obtain ⟨_, w, ran, computed⟩ := Action.exists_of_ends computed
  simp only [Bool.and_eq_true, decide_eq_true_eq] at computed
  obtain ⟨kept, computed⟩ := computed
  obtain ⟨_, w', ran', _⟩ := Action.exists_of_ends computed
  have location : (Url.fileUrl "" ['/', 'a']).toText = "file:///a" := by decide
  refine ⟨w, w', ran, ran', ?_⟩
  exact ((outcomes_are_kept .bare 1 _ w w' ran').1 "file:///a" _ kept).2 (.loaded _ [])
    (.location (.fileUrl "" ['/', 'a'])) rfl location

end ModuleGraph
