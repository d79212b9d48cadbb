import ModuleGraph.Proofs.ImportLocations
import ModuleGraph.Proofs.Inquiries

/-!
Which locations sources come from. However imports lead from one module to the next, the loader is
asked only for locations with allowed schemes; and in the usual settings no chain of imports leads
from a module that came over the network to a local file. Both come down to what a single specifier
can stand for: joined to a location it keeps the scheme (`Url.scheme_of_join`), and read by itself
its scheme is looked at.
-/
namespace ModuleGraph
open World Engine

/-! ### Admitted locations -/

/-- A location that has been read, and that modules may be loaded from. -/
structure Config.Admits (config : Config) (url : Url) : Prop where
  hasScheme : url.HasScheme
  allowed : url.scheme ∈ config.allowedSchemes

/-- The text of an admitted location begins with an allowed scheme. -/
theorem Config.Admits.takeWhile_toText {config : Config} {url : Url} (admits : config.Admits url) :
    String.ofList (url.toText.toList.takeWhile (· ≠ ':')) ∈ config.allowedSchemes := by
  rw [admits.hasScheme.takeWhile_toText, String.ofList_toList]
  exact admits.allowed

/-- What is written at an admitted location leads to no other locations, whether it goes on from
there or from the base, or stands by itself. -/
theorem Embedding.staysWithin_admits {embedding : Embedding}
    (base : embedding.config.Admits embedding.config.base) :
    embedding.StaysWithin embedding.config.Admits := by
  refine ⟨base, fun referrer specifier location admits found => ?_⟩
  rcases cases_of_canonicalize found with ⟨relative, joined⟩ | ⟨hasScheme, allowed, _⟩
  · have same := Url.scheme_of_join relative joined
    have start : embedding.config.Admits
        (if referrer = embedding.config.stdinLocation then embedding.config.base
          else referrer) := by
      split
      · exact base
      · exact admits
    exact ⟨by rw [Url.HasScheme, same]; exact start.hasScheme, same ▸ start.allowed⟩
  · exact ⟨hasScheme, by simpa [Config.isAllowedScheme] using allowed⟩

/-! ### What the loader is asked for -/

/-- The loader is asked for no location but that of the place. -/
theorem Embedding.Inquires.loaded {embedding : Embedding} {place : Place} {events : List Event}
    {text specifier : String} (inquires : embedding.Inquires place events)
    (asked : .loaded text specifier ∈ events) :
    ∃ location, place = .location location ∧ location.toText = text := by
  have compiles {location : String} {events : List Event}
      (compilation : embedding.Compilation location events) : .loaded text specifier ∉ events := by
    cases compilation <;> simp
  cases inquires with
  | host => cases asked
  | location url inquiry =>
    refine ⟨url, rfl, ?_⟩
    cases inquiry with
    | held compilation => exact absurd asked (compiles compilation)
    | loaded _ compilation =>
      rcases List.mem_cons.mp asked with same | later
      · cases same
        rfl
      · exact absurd later (compiles compilation)

namespace World
variable {config : Config} {embedding : Embedding} {place : Place} {refused : String}
  {outcome : Outcome RecordId} {earlier : List Event} {w w' : World}

/-- Scripts are from admitted locations, and since the `earlier` inquiries the loader was asked only
for such. -/
structure Screened (config : Config) (earlier : List Event) (w : World) : Prop where
  located : ∀ id location, w.locations.lookup id = some location → config.Admits location
  loaded : ∀ text specifier, .loaded text specifier ∈ w.inquiries →
    .loaded text specifier ∈ earlier ∨ ∃ location, config.Admits location ∧ location.toText = text

namespace Screened

theorem of_unresolved (unresolved : w.Unresolved) : w.Screened config w.inquiries where
  located id location noted := by simp [unresolved.locations] at noted
  loaded text specifier asked := .inl asked

theorem beside (screened : w.Screened config earlier) (beside : Beside w w') :
    w'.Screened config earlier where
  located := beside.locations ▸ screened.located
  loaded := beside.inquiries ▸ screened.loaded

theorem lookedUp (screened : w.Screened config earlier)
    (legal : place.IsLegal embedding config.Admits)
    (did : LookedUp embedding place refused w outcome w') : w'.Screened config earlier := by
  cases did with
  | kept | refused => exact screened
  | @discovered outcome w₁ _ _ discovered =>
    obtain ⟨events, inquires, after⟩ := discovered.inquiries
    refine ⟨fun id location noted => ?located, fun text specifier asked => ?loaded⟩
    case located =>
      rcases discovered.found.located id location noted with before | rfl
      · exact screened.located id location before
      · exact legal
    case loaded =>
      change _ ∈ w₁.inquiries at asked
      rw [after, List.mem_append] at asked
      rcases asked with before | now
      · exact screened.loaded text specifier before
      · obtain ⟨location, rfl, same⟩ := inquires.loaded now
        exact .inr ⟨location, legal, same⟩

end Screened

theorem sustained_screened (base : embedding.config.Admits embedding.config.base)
    (earlier : List Event) :
    Sustained embedding (Screened embedding.config earlier) (Screened embedding.config earlier)
      embedding.config.Admits :=
  sustained_of_beside (fun _ h => h) (Embedding.staysWithin_admits base)
    (fun _ screened => screened.located) (fun _ _ beside screened => screened.beside beside)
    fun _ _ _ _ _ legal did screened => screened.lookedUp legal did

end World

/-- After steps at admitted locations, and wherever one gives up, scripts are from such locations.
-/
theorem Setup.screened_after_runEach {config : Config} {depth : Nat}
    {steps : List (Embedding × Operation)} {w₀ : World} (base : config.Admits config.base)
    (unresolved : w₀.Unresolved)
    (settled : ∀ step ∈ steps, step.1.config = config ∧ step.2.StaysWithin config.Admits) :
    ((runEach depth steps).after w₀).Screened config w₀.inquiries := by
  refine (upholds_runEach depth (fun step member => ?_) (fun step member => (settled step member).2)
    (fun _ _ _ _ => trivial) w₀ (.of_unresolved unresolved)).after
  obtain ⟨rfl, _⟩ := settled step member
  exact sustained_screened base _

/-- If the base and all locations that are given have allowed schemes, then so has every location
that the loader is ever asked for, in any run, however far imports lead, and whatever the loader,
the compiler and host modules do meanwhile. Its text begins with this scheme. -/
theorem loader_sees_allowed_schemes (config : Config) (depth : Nat)
    (steps : List (Embedding × Operation)) (w₀ : World) (base : config.Admits config.base)
    (unresolved : w₀.Unresolved) (unasked : w₀.inquiries = [])
    (settled : ∀ step ∈ steps, step.1.config = config ∧ step.2.StaysWithin config.Admits) :
    ∀ text specifier,
      .loaded text specifier ∈ ((Setup.runEach depth steps).after w₀).journal.toList →
        (∃ location, config.Admits location ∧ location.toText = text) ∧
          String.ofList (text.toList.takeWhile (· ≠ ':')) ∈ config.allowedSchemes := by
  intro text specifier asked
  -- relative specifiers stay at admitted locations by `Url.scheme_of_join`, others are looked at
  have screened : ((Setup.runEach depth steps).after w₀).Screened config w₀.inquiries :=
    Setup.screened_after_runEach base unresolved settled
  rcases screened.loaded text specifier (List.mem_filter.mpr ⟨asked, rfl⟩) with
    before | ⟨location, admits, rfl⟩
  · simp [unasked] at before
  · exact ⟨⟨location, admits, rfl⟩, admits.takeWhile_toText⟩

/-- A script that is resolved from standard input, and what it imports from the folder above: both
are loaded, and from allowed schemes. -/
theorem loader_sees_allowed_schemes_in_namesakes :
    Config.standard.Admits Config.standard.base ∧ (ofModules []).Unresolved ∧
      (ofModules []).inquiries = [] ∧ ∃ w,
        Setup.runEach 1 [(namesakes, .resolve (some Config.standard.stdinLocation) "./d/a"),
            (namesakes, .resolveImported (some ⟨0⟩) "../b")] (ofModules []) = .ok () w ∧
        w.work = [(.load, "file:///d/a"), (.compile, "file:///d/a"), (.wrap, "file:///d/a"),
          (.load, "file:///b"), (.compile, "file:///b"), (.wrap, "file:///b")] ∧
        ∀ text specifier, .loaded text specifier ∈ w.journal.toList →
          (∃ location, Config.standard.Admits location ∧ location.toText = text) ∧
            String.ofList (text.toList.takeWhile (· ≠ ':')) ∈ ["file", "https"] := by
  have admits : Config.standard.Admits Config.standard.base := ⟨by cbv, by decide⟩
  have stdin : Config.standard.Admits Config.standard.stdinLocation := ⟨by cbv, by decide⟩
  have unresolved : (ofModules []).Unresolved := ⟨rfl, rfl⟩
  have unasked : (ofModules []).inquiries = [] := rfl
  have computed : (Setup.runEach 1 [
      (namesakes, .resolve (some Config.standard.stdinLocation) "./d/a"),
      (namesakes, .resolveImported (some ⟨0⟩) "../b")]).ends (ofModules []) (fun _ w =>
        w.work = [(.load, "file:///d/a"), (.compile, "file:///d/a"), (.wrap, "file:///d/a"),
          (.load, "file:///b"), (.compile, "file:///b"), (.wrap, "file:///b")]) = true := by
    cbv
  obtain ⟨_, w, ran, computed⟩ := Action.exists_of_ends computed
  have seen := loader_sees_allowed_schemes .standard 1 [
      (namesakes, .resolve (some Config.standard.stdinLocation) "./d/a"),
      (namesakes, .resolveImported (some ⟨0⟩) "../b")] (ofModules []) admits unresolved unasked
    (by simpa [Operation.StaysWithin] using ⟨⟨rfl, stdin⟩, rfl⟩)
  rw [Action.after, ran] at seen
  exact ⟨admits, unresolved, unasked, w, ran, of_decide_eq_true computed, seen⟩

/-! ### Chains of imports -/

namespace World
variable {config : Config} {w : World} {importer imported : RecordId}

/-- At some time before, an import or `require` of a record was resolved on its behalf and came to
another record. Whatever went on since, resolution has remembered what it had kept by then. -/
def HasImported (config : Config) (w : World) (importer imported : RecordId) : Prop :=
  ∃ (embedding : Embedding) (specifier : String) (before after : World),
    embedding.config = config ∧
    (embedding.importFor .resolver importer specifier).run before = .ok (.ok imported) after ∧
    Remembers after w

end World

namespace Embedding
variable {embedding : Embedding} {w w' : World} {id : RecordId}

/-- A lookup that is answered with a record comes to a place, and the record is kept for it. -/
theorem exists_place_of_lookup {lookup : Lookup}
    (ended : (lookup.attempt embedding).run w = .ok (.ok id) w') :
    ∃ place, lookup.place? embedding w = some place ∧
      w'.cache.get? place.key = some (.ok id) := by
  cases found : lookup.place? embedding w with
  | none =>
    obtain ⟨error, fails⟩ := run_of_no_place found
    rw [fails embedding rfl] at ended
    cases ended
  | some place =>
    rcases kept_of_lookup found ended with kept | ⟨_, _, refused⟩
    · exact ⟨place, rfl, kept⟩
    · cases refused

/-- What a record imports through the resolver is looked up on its behalf. -/
theorem run_importFor_ok {importer : RecordId} {specifier : String}
    (ran : (embedding.importFor .resolver importer specifier).run w = .ok (.ok id) w') :
    ((Lookup.imported (some importer) specifier).attempt embedding).run w = .ok (.ok id) w' := by
  have looked : (get : Attempt World).run w = .ok (.ok w) w := rfl
  rw [importFor, Attempt.run_bind_of_ended looked] at ran
  dsimp only at ran
  split at ran
  · exact ran
  · cases ran

end Embedding

/-! ### The usual settings -/

@[simp] theorem Url.scheme_asDirectory (url : Url) : url.asDirectory.scheme = url.scheme := by
  unfold asDirectory withPath
  split
  · rfl
  · split <;> rfl

/-- The usual settings admit local files and what comes over the network securely. -/
theorem Config.admits_withBase {base url : Url} :
    (withBase base).Admits url ↔ url.scheme = "file" ∨ url.scheme = "https" := by
  refine ⟨fun admits => ?_, fun named => ⟨?_, ?_⟩⟩
  · simpa [withBase, standard] using admits.allowed
  · rcases named with named | named <;> rw [Url.HasScheme, named] <;> cbv
  · simpa [withBase, standard] using named

/-- What is written in what came over the network stands for no local file. -/
theorem Config.remote_of_canonicalize {base referrer location : Url} {specifier : String}
    (remote : referrer.scheme = "https")
    (found : canonicalize (withBase base) referrer specifier = .ok location) :
    location.scheme = "https" := by
  have elsewhere : referrer ≠ (withBase base).stdinLocation := by
    rintro rfl
    exact absurd remote (show ("file" : String) ≠ "https" by decide)
  have leads := cases_of_canonicalize found
  dsimp only at leads
  rw [if_neg elsewhere] at leads
  rcases leads with ⟨relative, joined⟩ | ⟨hasScheme, allowed, notLocal⟩
  · exact (Url.scheme_of_join relative joined).trans remote
  · have admits : (withBase base).Admits location :=
      ⟨hasScheme, by simpa [isAllowedScheme] using allowed⟩
    exact (admits_withBase.mp admits).resolve_left fun isLocal => notLocal ⟨remote, isLocal⟩

namespace World
variable {base location : Url} {w : World} {importer imported : RecordId}

/-- A record is no script, or one that came over the network. -/
def IsRemote (w : World) (id : RecordId) : Prop :=
  ∀ location, (w.record id).location? = some location → location.scheme = "https"

section
variable (indexed : w.Indexed) (located : ∀ id location, w.locations.lookup id = some location →
  (Config.withBase base).Admits location)
include indexed located

/-- A script that is kept is from an admitted location with the text of its key. -/
theorem Indexed.admits_of_kept {key : String} {id : RecordId}
    (kept : w.cache.get? key = some (.ok id))
    (found : (w.record id).location? = some location) :
    location.toText = key ∧ (Config.withBase base).Admits location := by
  obtain ⟨named, noted⟩ := indexed.kept key id kept
  exact ⟨Option.some.inj ((Record.key?_of_location? found).symm.trans named),
    located id location (noted.trans found)⟩

/-- What is kept under a host specifier is no script. -/
theorem Indexed.isRemote_of_host {specifier : String} {id : RecordId}
    (isHost : (Config.withBase base).isHostSpecifier specifier = true)
    (kept : w.cache.get? specifier = some (.ok id)) : w.IsRemote id := by
  intro location found
  obtain ⟨text, admits⟩ := indexed.admits_of_kept located kept found
  have front := Config.takeWhile_of_isHostSpecifier isHost
  rw [← text, admits.hasScheme.takeWhile_toText] at front
  have whole : ("host" : String).toList.takeWhile (· ≠ ':') = "host".toList := by decide
  have host : location.scheme = "host" := String.toList_inj.mp (front.trans whole)
  rcases Config.admits_withBase.mp admits with scheme | scheme <;>
    exact absurd (scheme.symm.trans host) (by decide)

/-- What is kept for a location has the scheme of the location. -/
theorem Indexed.isRemote_of_location {id : RecordId} (remote : location.scheme = "https")
    (kept : w.cache.get? location.toText = some (.ok id)) : w.IsRemote id := by
  intro location' found
  obtain ⟨text, admits⟩ := indexed.admits_of_kept located kept found
  have admitted : (Config.withBase base).Admits location := Config.admits_withBase.mpr (.inr remote)
  have hasScheme := admitted.hasScheme
  have front := admits.hasScheme.takeWhile_toText
  rw [text, hasScheme.takeWhile_toText] at front
  rw [← remote, String.toList_inj.mp front]

/-- What came over the network imports no local file. -/
theorem Indexed.isRemote_of_hasImported (remote : w.IsRemote importer)
    (has : w.HasImported (Config.withBase base) importer imported) : w.IsRemote imported := by
  obtain ⟨embedding, specifier, before, after, same, ran, since⟩ := has
  obtain ⟨place, found, kept⟩ :=
    Embedding.exists_place_of_lookup (Embedding.run_importFor_ok ran)
  have kept : w.cache.get? place.key = some (.ok imported) := since.outcome _ _ kept
  rw [Lookup.place?, same] at found
  split at found
  · rename_i isHost
    cases found
    exact indexed.isRemote_of_host located isHost kept
  · rename_i notHost
    obtain ⟨origin, noted, found⟩ := Option.bind_eq_some_iff.mp found
    have imports := Embedding.remembers_of_lookup (Embedding.run_importFor_ok ran)
    have noted : w.locations.lookup importer = some origin :=
      since.location _ _ (imports.location _ _ noted)
    have remote : origin.scheme = "https" := remote origin (indexed.noted _ _ noted)
    rw [Embedding.placeOf, same, if_neg notHost] at found
    cases canonical : canonicalize (Config.withBase base) origin specifier with
    | error error =>
      rw [canonical] at found
      cases found
    | ok location =>
      rw [canonical] at found
      cases found
      exact indexed.isRemote_of_location located
        (Config.remote_of_canonicalize remote canonical) kept

end
end World

/-- In the usual settings with a base at a local file or on the network, and if only such locations
are given, no chain of imports and `require`s leads from a script that came over the network to a
local file: in any run, however the loader, the compiler and host modules change, every script in
the chain came over the network. -/
theorem no_local_file_behind_network (base : Url) (depth : Nat)
    (steps : List (Embedding × Operation)) (w₀ w : World)
    (baseScheme : base.scheme = "file" ∨ base.scheme = "https") (unresolved : w₀.Unresolved)
    (settled : ∀ step ∈ steps, step.1.config = .withBase base ∧
      step.2.StaysWithin fun url => url.scheme = "file" ∨ url.scheme = "https")
    (ended : (Setup.runEach depth steps).after w₀ = w) (first last : RecordId) (location : Url)
    (located : (w.record first).location? = some location) (remote : location.scheme = "https")
    (chain : Relation.ReflTransGen (w.HasImported (.withBase base)) first last) :
    ∀ location', (w.record last).location? = some location' → location'.scheme ≠ "file" := by
  have site : (Config.withBase base).Admits =
      fun url => url.scheme = "file" ∨ url.scheme = "https" :=
    funext fun _ => propext Config.admits_withBase
  rw [← site] at settled
  have baseAdmits : (Config.withBase base).Admits (Config.withBase base).base :=
    Config.admits_withBase.mpr (by simpa [Config.withBase] using baseScheme)
  have screened : w.Screened (.withBase base) w₀.inquiries :=
    ended ▸ Setup.screened_after_runEach baseAdmits unresolved settled
  have indexed : w.Indexed :=
    (ended ▸ Setup.sustained_after_runEach (sustained_indexed w₀.hasResolver) depth steps
      ⟨.of_unresolved unresolved, rfl⟩ : w.Indexed ∧ _).1
  -- one import at a time: a relative one keeps the scheme by `Url.scheme_of_join`
  have remote : w.IsRemote last := by
    induction chain with
    | refl =>
      intro location' found
      rw [located] at found
      exact Option.some.inj found ▸ remote
    | tail _ imports ih => exact indexed.isRemote_of_hasImported screened.located ih imports
  intro location' found isLocal
  rw [remote location' found] at isLocal
  exact absurd isLocal (by decide)

/-- A place on the network. -/
def Url.onNetwork (path : String) : Url := ⟨"https", some { host := "h" }, path, none, none⟩

/-- A script on the network, and what it imports by a path from the root. -/
theorem no_local_file_behind_network_in_namesakes :
    (ofModules []).Unresolved ∧ ∃ w,
      Setup.runEach 1 [(namesakes, .resolveLoaded (.onNetwork "/d/a") []),
          (namesakes, .resolveImported (some ⟨0⟩) "/b")] (ofModules []) = .ok () w ∧
      (w.record ⟨0⟩).location? = some (.onNetwork "/d/a") ∧
      (w.record ⟨1⟩).location? = some (.onNetwork "/b") ∧
      Relation.ReflTransGen (w.HasImported (.withBase (.fileUrl "" ['/']))) ⟨0⟩ ⟨1⟩ ∧
      ∀ location', (w.record ⟨1⟩).location? = some location' → location'.scheme ≠ "file" := by
  have unresolved : (ofModules []).Unresolved := ⟨rfl, rfl⟩
  have usual : namesakes.config = .withBase (.fileUrl "" ['/']) := by cbv
  have computed : (Setup.runEach 1 [(namesakes, .resolveLoaded (.onNetwork "/d/a") []),
      (namesakes, .resolveImported (some ⟨0⟩) "/b")]).ends (ofModules []) (fun _ w =>
        w.cache.get? "https://h/b" = some (.ok ⟨1⟩) && w.hasResolver &&
          w.locations.lookup ⟨0⟩ = some (.onNetwork "/d/a") &&
          (w.record ⟨0⟩).location? = some (.onNetwork "/d/a") &&
          (w.record ⟨1⟩).location? = some (.onNetwork "/b")) = true := by
    cbv
  obtain ⟨_, w, ran, computed⟩ := Action.exists_of_ends computed
  simp only [Bool.and_eq_true, decide_eq_true_eq] at computed
  obtain ⟨⟨⟨⟨kept, present⟩, noted⟩, first⟩, second⟩ := computed
  have found : (Lookup.written (some (.onNetwork "/d/a")) "/b").place? namesakes w =
      some (.location (.onNetwork "/b")) := by
    cbv
  have imported : (namesakes.importFor .resolver ⟨0⟩ "/b").run w = .ok (.ok ⟨1⟩) w :=
    (Embedding.run_importFor_resolver present noted "/b").trans
      (Embedding.run_lookup_kept found kept)
  have chain : Relation.ReflTransGen (w.HasImported (.withBase (.fileUrl "" ['/']))) ⟨0⟩ ⟨1⟩ :=
    .single ⟨namesakes, "/b", w, w, usual, imported, refl w⟩
  refine ⟨unresolved, w, ran, first, second, chain, ?_⟩
  refine no_local_file_behind_network (.fileUrl "" ['/']) 1
    [(namesakes, .resolveLoaded (.onNetwork "/d/a") []),
      (namesakes, .resolveImported (some ⟨0⟩) "/b")] (ofModules []) w (.inl rfl) unresolved
    ?settled ?ended ⟨0⟩ ⟨1⟩ _ first rfl chain
  case settled => simpa [Operation.StaysWithin] using ⟨⟨usual, .inr rfl⟩, usual⟩
  case ended => rw [Action.after, ran]

end ModuleGraph
