import ModuleGraph.Proofs.Memory
import ModuleGraph.Proofs.Schemes

/-!
Host modules and locations share the keys of the resolver's memory. What is kept under a key is
right for the place that came to it first. So the two never mix exactly if no location has the text
of a host specifier; such a location otherwise gets the outcome of the host module of that name, or
the other way around.
-/
namespace ModuleGraph
open World Engine Relation

/-! ### Outcomes of places -/

namespace World
variable {w w' : World} {id : RecordId}

/-- The resolver made a record from a script at a location with this text. -/
def IsScriptAt (w : World) (id : RecordId) (text : String) : Prop :=
  (∃ module, w.record id = .static module ∧ module.location.toText = text ∧
    module.importer = .resolver) ∨
  ∃ module, w.record id = .wrapper module ∧ module.location.toText = text

/-- The resolver made a record from what is registered for a host module. -/
def IsHostNamed (embedding : Embedding) (w : World) (id : RecordId) (name : String) : Prop :=
  ∃ module, w.record id = .host module ∧ module.name = name ∧
    embedding.hosts.lookup name = some module.content

theorem IsScriptAt.revised {text : String} (h : w.IsScriptAt id text)
    (revised : Revised (w.record id) (w'.record id)) : w'.IsScriptAt id text := by
  rcases h with ⟨module, found, located, importer⟩ | ⟨module, found, located⟩
  · obtain ⟨status, requested, found'⟩ := revised.static found
    exact .inl ⟨_, found', located, importer⟩
  · rw [found] at revised
    cases same : w'.record id with
    | wrapper module' =>
      rw [same] at revised
      cases revised <;> exact .inr ⟨_, same, located⟩
    | _ =>
      rw [same] at revised
      cases revised

theorem IsHostNamed.revised {embedding : Embedding} {name : String}
    (h : w.IsHostNamed embedding id name) (revised : Revised (w.record id) (w'.record id)) :
    w'.IsHostNamed embedding id name := by
  obtain ⟨module, found, named, registered⟩ := h
  rw [found] at revised
  cases same : w'.record id with
  | host module' =>
    rw [same] at revised
    cases revised <;> exact ⟨_, same, named, registered⟩
  | _ =>
    rw [same] at revised
    cases revised

theorem IsScriptAt.hasRecord {text : String} (h : w.IsScriptAt id text) : w.hasRecord id := by
  by_contra absent
  rcases h with ⟨_, found, _⟩ | ⟨_, found, _⟩ <;>
    · rw [record_of_not_hasRecord absent] at found
      cases found

theorem IsHostNamed.hasRecord {embedding : Embedding} {name : String}
    (h : w.IsHostNamed embedding id name) : w.hasRecord id := by
  by_contra absent
  obtain ⟨_, found, _⟩ := h
  rw [record_of_not_hasRecord absent] at found
  cases found

end World

namespace Place
variable {embedding : Embedding} {w w' : World} {place place' : Place} {outcome : Outcome RecordId}

/-- An outcome is right for a place: the host module that is registered under the name or that there
is none, and for a location a script from there or why there is none. -/
def Suits (embedding : Embedding) (w : World) : Place → Outcome RecordId → Prop
  | .host name, .ok id => w.IsHostNamed embedding id name
  | .host name, .error error =>
    error = .unknownHostModule name ∧ embedding.hosts.lookup name = none
  | .location url, .ok id => w.IsScriptAt id url.toText
  | .location url, .error error =>
    (∃ reason, error = .load url.toText reason) ∨
      ∃ message, error = .compileFailure url.toText message

/-- What suits a place goes on to do so, as records only get other memos, requests and statuses. -/
theorem Suits.revised (suits : place.Suits embedding w outcome)
    (revised : ∀ id, w.hasRecord id → Revised (w.record id) (w'.record id)) :
    place.Suits embedding w' outcome := by
  cases place <;> cases outcome with
  | error => exact suits
  | ok id => ?_
  · exact IsHostNamed.revised suits (revised id (IsHostNamed.hasRecord suits))
  · exact IsScriptAt.revised suits (revised id (IsScriptAt.hasRecord suits))

end Place

/-! ### Discovery -/

/-- What the discovery for a place comes to: an outcome that suits it; and no other location is
noted. -/
structure Found (embedding : Embedding) (place : Place) (w : World) (outcome : Outcome RecordId)
    (w' : World) : Prop where
  suits : place.Suits embedding w' outcome
  located : ∀ id location, w'.locations.lookup id = some location →
    w.locations.lookup id = some location ∨ place = .location location

/-- Discovery for a place comes to an outcome that suits it. -/
theorem World.Discovered.found {embedding : Embedding} {place : Place} {w w' : World}
    {outcome : Outcome RecordId} (discovered : Discovered embedding place w outcome w') :
    Found embedding place w outcome w' := by
  cases discovered with
  | @made _ w₁ record _ asked makes =>
    have found := record_enroll_new w₁ place record
    refine ⟨?suits, fun id location noted => ?located⟩
    case suits =>
      cases makes with
      | host registered => exact ⟨_, found, rfl, registered⟩
      | static => exact .inl ⟨_, found, rfl, rfl⟩
      | wrapper => exact .inr ⟨_, found, rfl⟩
    case located =>
      cases place with
      | host name => exact .inl (asked.locations ▸ noted)
      | location url =>
        simp only [enroll, asked.locations, List.lookup_append, Option.or_eq_some_iff] at noted
        rcases noted with before | ⟨_, new⟩
        · exact .inl before
        · rw [List.lookup_cons, List.lookup_nil] at new
          split at new <;> cases new
          exact .inr rfl
  | failed _ asked lacks =>
    refine ⟨?_, fun id location noted => .inl (asked.locations ▸ noted)⟩
    cases lacks with
    | unknown unregistered => exact ⟨rfl, unregistered⟩
    | load _ reason => exact .inl ⟨reason, rfl⟩
    | compile _ message => exact .inr ⟨message, rfl⟩

/-! ### What is kept -/

/-- Whatever is kept under a key suits a place with this key, and scripts come from locations of a
certain kind. -/
structure World.Filed (embedding : Embedding) (site : Url → Prop := fun _ => True) (w : World) :
    Prop where
  kept : ∀ key outcome, w.cache.get? key = some outcome → ∃ place : Place,
    place.key = key ∧ place.IsLegal embedding site ∧ place.Suits embedding w outcome
  located : ∀ id location, w.locations.lookup id = some location → site location

namespace World.Filed
variable {embedding : Embedding} {site : Url → Prop} {w w' : World} {place : Place}
  {outcome : Outcome RecordId}

theorem of_entries (empty : w.cache.entries = [])
    (located : ∀ id location, w.locations.lookup id = some location → site location) :
    w.Filed embedding site := by
  refine ⟨fun key outcome kept => ?_, located⟩
  rw [Cache.get?, empty] at kept
  cases kept

/-- To revise records changes nothing about what is kept. -/
theorem revised (filed : w.Filed embedding site)
    (revised : ∀ id, w.hasRecord id → Revised (w.record id) (w'.record id))
    (kept : ∀ key, w'.cache.get? key = w.cache.get? key)
    (located : ∀ id location, w'.locations.lookup id = some location → site location) :
    w'.Filed embedding site := by
  refine ⟨fun key outcome found => ?_, located⟩
  rw [kept] at found
  obtain ⟨place, same, legal, suits⟩ := filed.kept key outcome found
  exact ⟨place, same, legal, suits.revised revised⟩

theorem beside (filed : w.Filed embedding site) (beside : Beside w w') : w'.Filed embedding site :=
  filed.revised (fun id _ => beside.revised id) beside.get? (beside.locations ▸ filed.located)

theorem insert (filed : w.Filed embedding site) (legal : place.IsLegal embedding site)
    (suits : place.Suits embedding w outcome) :
    { w with cache := (w.cache.insert place.key outcome).2 }.Filed embedding site := by
  refine ⟨fun key other found => ?_, filed.located⟩
  rw [Cache.get?_insert] at found
  split at found
  · rename_i new
    cases found
    exact ⟨place, new.1.symm, legal, suits.revised fun _ _ => .same _⟩
  · obtain ⟨place', here, legal', suits'⟩ := filed.kept key other found
    exact ⟨place', here, legal', suits'.revised fun _ _ => .same _⟩

/-- What a lookup keeps is right. -/
theorem lookedUp (filed : w.Filed embedding site) (legal : place.IsLegal embedding site)
    {refused : String} (did : LookedUp embedding place refused w outcome w') :
    w'.Filed embedding site := by
  cases did with
  | kept | refused => exact filed
  | discovered _ _ discovered =>
    have found := discovered.found
    refine (filed.revised (fun id present => discovered.record present ▸ .same _) discovered.get?
      fun id location noted => ?_).insert legal found.suits
    rcases found.located id location noted with before | rfl
    · exact filed.located id location before
    · exact legal

end World.Filed

/-- Whatever is done at locations of a certain kind, what is kept goes on to be right, also where an
action gives up. -/
theorem World.sustained_filed_of {embedding : Embedding} {site : Url → Prop} {stuck : World → Prop}
    (stop : ∀ w : World, w.Filed embedding site → stuck w) (within : embedding.StaysWithin site) :
    Sustained embedding stuck (World.Filed embedding site) site :=
  sustained_of_beside stop within (fun _ filed => filed.located)
    (fun _ _ beside filed => filed.beside beside)
    fun _ _ _ _ _ legal did filed => filed.lookedUp legal did

theorem World.sustained_filed {embedding : Embedding} {site : Url → Prop}
    (within : embedding.StaysWithin site) :
    Sustained embedding (fun _ => True) (World.Filed embedding site) site :=
  sustained_filed_of (fun _ _ => trivial) within

/-! ### Shared keys -/

/-- Whether a place is a host module. -/
def Place.isHost : Place → Bool
  | .host _ => true
  | .location _ => false

/-- What lookups that come to a place answer is right for it, unless they are refused because
discovery is over. -/
def World.AnswersFor (embedding : Embedding) (w : World) (place : Place) : Prop :=
  ∀ lookup, Lookup.place? embedding w lookup = some place →
    ∀ outcome w', (lookup.attempt embedding).run w = .ok outcome w' →
      place.Suits embedding w' outcome ∨
        w'.cache.isLocked = true ∧ ∃ specifier, outcome = .error (.resolutionLocked specifier)

namespace Place
variable {embedding : Embedding} {w : World} {place place' : Place} {outcome : Outcome RecordId}

/-- No outcome is right for a host module and for a location. -/
theorem Suits.same_kind (suits : place.Suits embedding w outcome)
    (suits' : place'.Suits embedding w outcome) : place.isHost = place'.isHost := by
  have apart (name : String) (url : Url) : (host name).Suits embedding w outcome →
      ¬ (location url).Suits embedding w outcome := by
    cases outcome with
    | ok id =>
      rintro ⟨_, found, _⟩ (⟨_, found', _⟩ | ⟨_, found', _⟩) <;>
        · rw [found] at found'
          cases found'
    | error error => rintro ⟨rfl, _⟩ (⟨_, same⟩ | ⟨_, same⟩) <;> cases same
  cases place <;> cases place'
  case host.location name url => exact absurd suits' (apart name url suits)
  case location.host url name => exact absurd suits (apart name url suits')
  all_goals rfl

/-- Locations with the same text have the same right outcomes. -/
theorem Suits.of_same_key (suits : place.Suits embedding w outcome)
    (kind : place.isHost = place'.isHost) (key : place.key = place'.key) :
    place'.Suits embedding w outcome := by
  cases place <;> cases place' <;> cases kind
  all_goals
    simp only [Place.key] at key
    cases outcome <;> simpa only [Suits, key] using suits

theorem Suits.not_refused {specifier : String} :
    ¬ place.Suits embedding w (.error (.resolutionLocked specifier)) := by
  cases place
  · rintro ⟨same, _⟩
    cases same
  · rintro (⟨_, same⟩ | ⟨_, same⟩) <;> cases same

end Place

namespace Embedding
variable {embedding : Embedding} {site : Url → Prop} {w w' : World} {lookup : Lookup}
  {place : Place} {outcome : Outcome RecordId} {compute : Attempt RecordId}

/-- Every place that can be come to can be asked for. -/
theorem exists_lookup (legal : place.IsLegal embedding site) :
    ∃ lookup : Lookup, ∀ w, lookup.place? embedding w = some place := by
  cases place with
  | host name => exact ⟨.written none name, fun _ => if_pos legal⟩
  | location url => exact ⟨.loaded url [], fun _ => rfl⟩

/-- While what is kept is right, a lookup answers what is right for a place with its key. -/
theorem suits_of_lookup (filed : w.Filed embedding site) (legal : place.IsLegal embedding site)
    (found : lookup.place? embedding w = some place)
    (ended : (lookup.attempt embedding).run w = .ok outcome w') :
    (∃ place' : Place, place'.key = place.key ∧ place'.IsLegal embedding site ∧
      place'.Suits embedding w' outcome) ∨
      w'.cache.isLocked = true ∧ ∃ specifier, outcome = .error (.resolutionLocked specifier) := by
  have lookedUp := lookedUp_of_place found
  rw [Action.Meets, ended] at lookedUp
  exact (kept_of_lookup found ended).imp_left ((filed.lookedUp legal lookedUp).kept _ _)

/-- Every place that can be come to can be the first one that is asked for. A source that is no text
tells nothing about its module, so the compiler has no say in it. -/
theorem exists_run_first (depth : Nat) (legal : place.IsLegal embedding site) :
    ∃ operation : Operation, operation.StaysWithin site ∧ ∃ outcome w,
      (Setup.ofDepth embedding depth).run [operation] (ofModules []) = .ok () w ∧
      w.cache.get? place.key = some outcome ∧ place.Suits embedding w outcome := by
  have first (operation : Operation) (within : operation.StaysWithin site) {refused : String}
      {compute : Attempt RecordId}
      (performs : (Setup.ofDepth embedding depth).perform operation =
        discard (remember place.key refused compute).run)
      (found : Action.Meets (fun _ => False) compute.run
        (fun outcome w => w.cache = (ofModules []).cache ∧ place.Suits embedding w outcome)
        (ofModules [])) :
      ∃ operation : Operation, operation.StaysWithin site ∧ ∃ outcome w,
        (Setup.ofDepth embedding depth).run [operation] (ofModules []) = .ok () w ∧
        w.cache.get? place.key = some outcome ∧ place.Suits embedding w outcome := by
    obtain ⟨outcome, w, computed, same, suits⟩ := found.exists_ended
    have ended : (remember place.key refused compute).run (ofModules []) = _ :=
      run_remember_first rfl rfl computed same
    have kept := Cache.get?_insert (ofModules []).cache place.key place.key outcome
    rw [if_pos ⟨rfl, rfl, rfl⟩] at kept
    refine ⟨operation, within, outcome,
      { w with cache := ((ofModules []).cache.insert place.key outcome).2 }, Action.Meets.eq ?_,
      kept, suits.revised fun _ _ => .same _⟩
    rw [Setup.run, performs, Action.meets_bind, Action.meets_discard, Action.Meets, ended]
    exact ⟨rfl, rfl⟩
  cases place with
  | host name =>
    have isHost : embedding.config.isHostSpecifier name = true := legal
    have performs : (Setup.ofDepth embedding depth).perform (.resolve none name) =
        discard (remember name name (embedding.discoverHost name)).run := by
      show discard (embedding.resolve none name).run = _
      rw [resolve, if_pos isHost, resolveHost]
    have cached : Action.Meets (fun _ => False) (embedding.discoverHost name).run
        (fun _ w => w.cache = (ofModules []).cache) (ofModules []) := by
      unfold discoverHost
      split <;> rfl
    exact first _ (by simp [Operation.StaysWithin]) performs <|
      (cached.and ((Discovers.host name).discovered _)).imp (fun _ h => h.1)
        fun _ _ h => ⟨h.1, h.2.found.suits⟩
  | location url =>
    have performs : (Setup.ofDepth embedding depth).perform (.resolveLoaded url [0xff]) =
        discard (remember url.toText url.toText (embedding.classify url [0xff])).run := rfl
    exact first (.resolveLoaded url [0xff]) legal performs ⟨rfl, .inr ⟨_, rfl⟩⟩

end Embedding

/-- Nothing was resolved yet. -/
structure World.Unresolved (w : World) : Prop where
  cache : w.cache.entries = []
  locations : w.locations = []

theorem World.Unresolved.filed {embedding : Embedding} {site : Url → Prop} {w : World}
    (unresolved : w.Unresolved) : w.Filed embedding site :=
  .of_entries unresolved.cache fun id location noted => by simp [unresolved.locations] at noted

section
variable {embedding : Embedding} {site : Url → Prop} {depth : Nat} {operations : List Operation}
  {w₀ w w' : World} {place : Place} (within : embedding.StaysWithin site)
  (legal : place.IsLegal embedding site)
  (inside : ∀ operation ∈ operations, operation.StaysWithin site) (unresolved : w₀.Unresolved)
  (ran : (Setup.ofDepth embedding depth).run operations w₀ = .ok () w)
include within legal inside unresolved ran

/-- After a run, a lookup answers what is right for a place with its key. -/
theorem suits_of_lookup_of_run {lookup : Lookup} (found : lookup.place? embedding w = some place)
    {outcome : Outcome RecordId} (ended : (lookup.attempt embedding).run w = .ok outcome w') :
    (∃ other : Place, other.key = place.key ∧ other.IsLegal embedding site ∧
      other.Suits embedding w' outcome) ∨
      w'.cache.isLocked = true ∧ ∃ specifier, outcome = .error (.resolutionLocked specifier) := by
  have filed := Setup.sustains_run_within (sustained_filed within) depth inside w₀ unresolved.filed
  rw [Action.Meets, ran] at filed
  exact Embedding.suits_of_lookup filed legal found ended

theorem answersFor_of_unshared (unshared : ∀ other : Place, other.IsLegal embedding site →
    other.key = place.key → other.isHost = place.isHost) : w.AnswersFor embedding place := by
  intro lookup found outcome w' ended
  rcases suits_of_lookup_of_run within legal inside unresolved ran found ended with
    ⟨other, same, legal', suits⟩ | refused
  · exact .inl (suits.of_same_key (unshared other legal' same) same)
  · exact .inr refused

end

/-- Whatever is done before at locations of a certain kind, lookups for a host module or a location
answer what is right for it, or are refused because discovery is over: a host module gets what is
registered under its name, and a location no host module and no failure of one. This holds exactly
if no location of the kind has the text of the host specifier, or if the location has not the text
of one; the key is shared otherwise. In any case a lookup answers what is right for a host module or
location with the key that it comes to. -/
theorem answers_apart_iff_key_unshared (embedding : Embedding) (depth : Nat) (site : Url → Prop)
    (within : embedding.StaysWithin site) (place : Place) (legal : place.IsLegal embedding site) :
    ((∀ (operations : List Operation) (w₀ w : World),
        (∀ operation ∈ operations, operation.StaysWithin site) → w₀.Unresolved →
        (Setup.ofDepth embedding depth).run operations w₀ = .ok () w →
        w.AnswersFor embedding place) ↔
      ∀ other : Place, other.IsLegal embedding site → other.key = place.key →
        other.isHost = place.isHost) ∧
    ∀ (operations : List Operation) (w₀ w : World),
      (∀ operation ∈ operations, operation.StaysWithin site) → w₀.Unresolved →
      (Setup.ofDepth embedding depth).run operations w₀ = .ok () w →
      ∀ lookup, Lookup.place? embedding w lookup = some place →
        ∀ outcome w', (lookup.attempt embedding).run w = .ok outcome w' →
          (∃ other : Place, other.key = place.key ∧ other.IsLegal embedding site ∧
            other.Suits embedding w' outcome) ∨
          w'.cache.isLocked = true ∧
            ∃ specifier, outcome = .error (.resolutionLocked specifier) := by
  refine ⟨⟨fun apart other legal' same => ?_, fun unshared operations w₀ w inside unresolved ran =>
    answersFor_of_unshared within legal inside unresolved ran unshared⟩,
    fun operations w₀ w inside unresolved ran lookup found outcome w' ended =>
      suits_of_lookup_of_run within legal inside unresolved ran found ended⟩
  obtain ⟨operation, inside, outcome, w, ran, kept, suits⟩ :=
    Embedding.exists_run_first depth legal'
  obtain ⟨lookup, found⟩ := Embedding.exists_lookup legal
  rw [same] at kept
  have ended := Embedding.run_lookup_kept (found w) kept
  rcases apart [operation] _ w (by simpa using inside) ⟨rfl, rfl⟩ ran lookup (found w) outcome w
    ended with suits' | ⟨_, _, rfl⟩
  · exact suits.same_kind suits'
  · exact absurd suits Place.Suits.not_refused

/-- Local files never get what host modules of the usual namespace have. -/
theorem answers_apart_for_local_file :
    Embedding.bare.StaysWithin Url.HasScheme ∧
      (Place.location (.fileUrl "" ['/', 'a'])).IsLegal .bare Url.HasScheme ∧
      ∀ (operations : List Operation) (w₀ w : World),
        (∀ operation ∈ operations, operation.StaysWithin Url.HasScheme) → w₀.Unresolved →
        (Setup.ofDepth .bare 1).run operations w₀ = .ok () w →
        w.AnswersFor .bare (.location (.fileUrl "" ['/', 'a'])) := by
  have within : Embedding.bare.StaysWithin Url.HasScheme :=
    Embedding.staysWithin_hasScheme (show Url.isScheme _ = true by cbv)
  have legal : (Place.location (.fileUrl "" ['/', 'a'])).IsLegal .bare Url.HasScheme :=
    show Url.isScheme _ = true by cbv
  refine ⟨within, legal,
    (answers_apart_iff_key_unshared .bare 1 _ within _ legal).1.mpr fun other legal' same => ?_⟩
  cases other with
  | location url => rfl
  | host name =>
    have text : name = "file:///a" := same.trans (by decide)
    have isFile : Config.standard.isHostSpecifier "file:///a" = false := by cbv
    rw [text] at legal'
    exact absurd legal' (Bool.eq_false_iff.mp isFile)

/-- The namespace is what a host specifier has in front of its first colon. -/
theorem Config.takeWhile_of_isHostSpecifier {config : Config} {specifier : String}
    (isHost : config.isHostSpecifier specifier = true) :
    specifier.toList.takeWhile (· ≠ ':') = config.hostNamespace.toList.takeWhile (· ≠ ':') := by
  rcases (Bool.or_eq_true _ _).mp isHost with same | begins
  · rw [beq_iff_eq.mp same]
  · rw [String.startsWith_string_iff, String.toList_append] at begins
    obtain ⟨rest, text⟩ := begins
    rw [← text, List.append_assoc]
    have colon : (":" : String).toList = [':'] := rfl
    rw [colon]
    generalize config.hostNamespace.toList = front
    induction front with
    | nil => simp
    | cons c front ih =>
      by_cases isColon : c = ':'
      · simp [isColon]
      · simpa [isColon] using ih

/-- In a namespace that has not the form of a scheme, host modules and locations never get what the
other has, whatever is done at locations with schemes. -/
theorem answersFor_of_not_isScheme {embedding : Embedding} {depth : Nat}
    {operations : List Operation} {w₀ w : World} {place : Place}
    (notScheme : Url.isScheme (embedding.config.hostNamespace.toList.takeWhile (· ≠ ':')) = false)
    (base : embedding.config.base.HasScheme) (legal : place.IsLegal embedding Url.HasScheme)
    (inside : ∀ operation ∈ operations, operation.StaysWithin Url.HasScheme)
    (unresolved : w₀.Unresolved)
    (ran : (Setup.ofDepth embedding depth).run operations w₀ = .ok () w) :
    w.AnswersFor embedding place := by
  have apart (name : String) (url : Url)
      (isHost : (Place.host name).IsLegal embedding Url.HasScheme)
      (has : (Place.location url).IsLegal embedding Url.HasScheme) : name ≠ url.toText := by
    rintro rfl
    have front := Config.takeWhile_of_isHostSpecifier isHost
    rw [Url.HasScheme.takeWhile_toText has] at front
    rw [← front] at notScheme
    exact Bool.eq_false_iff.mp notScheme has
  refine answersFor_of_unshared (Embedding.staysWithin_hasScheme base) legal inside unresolved ran
    fun other legal' same => ?_
  cases place <;> cases other
  case host.location name url => exact absurd same.symm (apart name url legal legal')
  case location.host url name => exact absurd same (apart name url legal' legal)
  all_goals rfl

/-- A host module, and wrapper-style scripts everywhere. -/
def namesakes : Embedding where
  hosts := [("host:kv", .document .null)]
  load _ _ := { outcome := .ok [] }
  compile _ _ := { outcome := .ok .wrapper }
  compileWrapper _ _ := { outcome := .ok (.give .undefined) }

/-- A script whose location has the text of a host specifier is registered first: the specifier is
then answered with the script, not with the host module of that name. -/
theorem script_answered_for_host_specifier :
    ∃ location w id, Url.parse "host:kv" = .ok location ∧
      (Setup.ofDepth namesakes 1).run [.resolveLoaded location []] (ofModules []) = .ok () w ∧
      (namesakes.resolve none "host:kv").run w = .ok (.ok id) w ∧
      (w.record id).kind = .wrapper := by
  have parsed : Url.parse "host:kv" = .ok ⟨"host", none, "kv", none, none⟩ := by cbv
  have computed : ((Setup.ofDepth namesakes 1).run
      [.resolveLoaded ⟨"host", none, "kv", none, none⟩ []]).ends (ofModules []) (fun _ w =>
        w.cache.get? "host:kv" = some (.ok ⟨0⟩) && (w.record ⟨0⟩).kind = .wrapper) = true := by
    cbv
  obtain ⟨_, w, ran, computed⟩ := Action.exists_of_ends computed
  simp only [Bool.and_eq_true, decide_eq_true_eq] at computed
  have found : (Lookup.written none "host:kv").place? namesakes w = some (.host "host:kv") := by cbv
  exact ⟨_, w, ⟨0⟩, parsed, ran, Embedding.run_lookup_kept found computed.1, computed.2⟩

/-- So not every record that a host specifier is answered with was made from the host module. -/
theorem not_host_record_throughout :
    ¬ ∀ (embedding : Embedding) (depth : Nat) (operations : List Operation) (w : World),
      (∀ operation ∈ operations,
        operation.StaysWithin fun location => ∃ text, Url.parse text = .ok location) →
      (Setup.ofDepth embedding depth).run operations (ofModules []) = .ok () w →
      ∀ specifier, embedding.config.isHostSpecifier specifier = true →
        ∀ id w', (embedding.resolve none specifier).run w = .ok (.ok id) w' →
          w'.IsHostNamed embedding id specifier := by
  intro claim
  obtain ⟨location, w, id, parsed, ran, answered, wrapper⟩ := script_answered_for_host_specifier
  have inside : ∀ operation ∈ [Operation.resolveLoaded location []],
      operation.StaysWithin fun location => ∃ text, Url.parse text = .ok location := by
    simpa [Operation.StaysWithin] using ⟨_, parsed⟩
  obtain ⟨module, found, _⟩ := claim namesakes 1 _ w inside ran "host:kv" (by cbv) id w answered
  rw [found, Record.kind] at wrapper
  split at wrapper <;> cases wrapper

end ModuleGraph
