import ModuleGraph.Proofs.Edits

/-!
What a lookup can do, said once. It answers what is kept or refuses; or it discovers the module:
the embedder is asked in a fixed order, one record is made or an error tells why there is none, and
the outcome is kept if discovery is not over by then.
-/
namespace ModuleGraph

/-! ### Places -/

/-- What a lookup can come to: the name of a host module, or a location. -/
inductive Place where
  | host (name : String)
  | location (location : Url)

/-- The key under which the outcome for a place is kept. -/
def Place.key : Place → String
  | .host name => name
  | .location url => url.toText

namespace Embedding
variable (embedding : Embedding)

/-- How the record for a place is made. -/
inductive Discovers : Place → Attempt RecordId → Prop
  | host (name : String) : Discovers (.host name) (embedding.discoverHost name)
  | loads (location : Url) (specifier : String) :
      Discovers (.location location) (embedding.discover location specifier)
  | holds (location : Url) (source : List UInt8) :
      Discovers (.location location) (embedding.classify location source)

/-- The records that are made for a place. -/
inductive Makes : Place → Record → Prop
  | host {name : String} {content : HostModule}
      (registered : embedding.hosts.lookup name = some content) :
      Makes (.host name) (.host { name, content })
  | static (location : Url) (declarations : Declarations) (body : EnvironmentRef → Script) :
      Makes (.location location) (.static { location, declarations, body, importer := .resolver })
  | wrapper (location : Url) (program : Script) :
      Makes (.location location) (.wrapper { location, program })

/-- Why there is no record for a place. -/
inductive Lacks : Place → ModuleError → Prop
  | unknown {name : String} (unregistered : embedding.hosts.lookup name = none) :
      Lacks (.host name) (.unknownHostModule name)
  | load (location : Url) (reason : String) :
      Lacks (.location location) (.load location.toText reason)
  | compile (location : Url) (message : String) :
      Lacks (.location location) (.compileFailure location.toText message)

/-- What the compiler is asked about the source at a location: nothing if the source is no text, and
for a wrapper only when it has found that the same text declares nothing. -/
inductive Compilation (location : String) : List Event → Prop
  | unread : Compilation location []
  | read (text : String) : Compilation location [.compiled location text]
  | wrapped (text : String) (bare : (embedding.compile text location).outcome = .ok .wrapper) :
      Compilation location [.compiled location text, .wrapped location text]

/-- What the embedder is asked about the source at a location, which is loaded unless it is at hand.
-/
inductive Inquiry (location : String) : List Event → Prop
  | held {events : List Event} (compilation : embedding.Compilation location events) :
      Inquiry location events
  | loaded (specifier : String) {events : List Event}
      (compilation : embedding.Compilation location events) :
      Inquiry location (.loaded location specifier :: events)

/-- What the embedder is asked for a place: nothing for a host module. -/
inductive Inquires : Place → List Event → Prop
  | host (name : String) : Inquires (.host name) []
  | location (location : Url) {events : List Event}
      (inquiry : embedding.Inquiry location.toText events) : Inquires (.location location) events

variable {embedding} {events : List Event}

theorem Inquiry.filter_isInquiry {location : String} (inquiry : embedding.Inquiry location events) :
    events.filter Event.isInquiry = events := by
  cases inquiry with
  | held compilation | loaded _ compilation => cases compilation <;> rfl

theorem Inquires.inquiry {place : Place} (inquires : embedding.Inquires place events) :
    embedding.Inquiry place.key events := by
  cases inquires with
  | host => exact .held .unread
  | location _ inquiry => exact inquiry

end Embedding

/-! ### Discovery -/

namespace World
variable {events : List Event} {w₀ w w' : World}

/-- The embedder was asked questions, and the resolver may have been locked meanwhile; nothing else
has changed. -/
structure Asked (events : List Event) (w w' : World) : Prop where
  frame : w' = { w with cache := w'.cache, journal := w'.journal }
  cache : w'.cache = w.cache ∨ w'.cache = w.cache.lock
  journal : w'.journal.toList = w.journal.toList ++ events

namespace Asked

theorem records (asked : Asked events w w') : w'.records = w.records := by
  rw [asked.frame]

theorem record (asked : Asked events w w') (id : RecordId) : w'.record id = w.record id := by
  rw [World.record, asked.records, World.record]

theorem locations (asked : Asked events w w') : w'.locations = w.locations := by
  rw [asked.frame]

theorem hasResolver (asked : Asked events w w') : w'.hasResolver = w.hasResolver := by
  rw [asked.frame]

theorem table (asked : Asked events w w') : w'.table = w.table := by
  rw [asked.frame]

theorem get? (asked : Asked events w w') (key : String) :
    w'.cache.get? key = w.cache.get? key := by
  rcases asked.cache with same | same <;> simp [same]

theorem refl (w : World) : Asked [] w w := ⟨rfl, .inl rfl, by simp⟩

theorem write (asked : Asked events w₀ w) (event : Event) :
    Asked (events ++ [event]) w₀ (w.write event) where
  frame := by
    have frame := asked.frame
    rw [frame]
    rfl
  cache := asked.cache
  journal := by simp [World.write, asked.journal]

theorem lock (asked : Asked events w₀ w) : Asked events w₀ w.lock where
  frame := by
    have frame := asked.frame
    rw [frame]
    rfl
  cache := .inr (by rcases asked.cache with same | same <;> simp [World.lock, Cache.lock, same])
  journal := asked.journal

end Asked

/-- The world with a record that was made for a place; the location of a script is noted. -/
def enroll (w : World) (place : Place) (record : Record) : World :=
  match place with
  | .host _ => (w.addRecord record).2
  | .location location =>
    { (w.addRecord record).2 with
      locations := w.locations ++ [((w.addRecord record).1, location)] }

section
variable (w : World) (place : Place) (record : Record)

@[simp] theorem cache_enroll : (w.enroll place record).cache = w.cache := by cases place <;> rfl

@[simp] theorem table_enroll : (w.enroll place record).table = w.table := by cases place <;> rfl

@[simp] theorem hasResolver_enroll : (w.enroll place record).hasResolver = w.hasResolver := by
  cases place <;> rfl

/-- The new record is there. -/
@[simp] theorem record_enroll_new :
    (w.enroll place record).record (w.addRecord record).1 = record := by
  cases place <;> simp [World.record, enroll, addRecord]

/-- The other records stay what they are. -/
theorem record_enroll_of_hasRecord {id : RecordId} (present : w.hasRecord id) :
    (w.enroll place record).record id = w.record id := by
  cases place <;> exact record_addRecord_of_hasRecord w record present

end

/-- What the discovery for a place comes to. -/
inductive Discovered (embedding : Embedding) (place : Place) (w : World) :
    Outcome RecordId → World → Prop
  | made {events : List Event} {w' : World} {record : Record}
      (inquires : embedding.Inquires place events) (asked : Asked events w w')
      (makes : embedding.Makes place record) :
      Discovered embedding place w (.ok (w'.addRecord record).1) (w'.enroll place record)
  | failed {events : List Event} {w' : World} {error : ModuleError}
      (inquires : embedding.Inquires place events) (asked : Asked events w w')
      (lacks : embedding.Lacks place error) : Discovered embedding place w (.error error) w'

namespace Discovered
variable {embedding : Embedding} {place : Place} {outcome : Outcome RecordId}

/-- No outcome is kept yet. -/
theorem get? (discovered : Discovered embedding place w outcome w') (key : String) :
    w'.cache.get? key = w.cache.get? key := by
  cases discovered with
  | made _ asked _ => rw [cache_enroll, asked.get?]
  | failed _ asked _ => exact asked.get? key

theorem hasResolver (discovered : Discovered embedding place w outcome w') :
    w'.hasResolver = w.hasResolver := by
  cases discovered with
  | made _ asked _ => rw [hasResolver_enroll, asked.hasResolver]
  | failed _ asked _ => exact asked.hasResolver

/-- The records that were there stay what they are. -/
theorem record (discovered : Discovered embedding place w outcome w') {id : RecordId}
    (present : w.hasRecord id) : w'.record id = w.record id := by
  cases discovered with
  | @made _ w₁ _ _ asked _ =>
    have present₁ : w₁.hasRecord id := by rwa [hasRecord, asked.records]
    rw [record_enroll_of_hasRecord _ _ _ present₁, asked.record]
  | failed _ asked _ => exact asked.record id

end Discovered
end World

namespace Embedding
variable {embedding : Embedding} {w₀ w : World} {place : Place} {compute : Attempt RecordId}
  {before : List Event}
open World

theorem asked_of_lockIf (asked : Asked before w₀ w) (locks : Bool) :
    Action.Meets (fun _ => False) (lockIf locks) (fun _ => Asked before w₀) w := by
  unfold lockIf
  split
  · exact asked.lock
  · exact asked

/-- Classifying a source makes its record or tells why there is none, whatever was asked before it
was at hand. -/
theorem discovered_of_classify {location : Url} (asked : Asked before w₀ w)
    (inquiry : ∀ events, embedding.Compilation location.toText events →
      embedding.Inquiry location.toText (before ++ events)) (source : List UInt8) :
    Action.Meets (fun _ => False) (embedding.classify location source).run
      (Discovered embedding (.location location) w₀) w := by
  unfold classify
  rw [Attempt.meets_run]
  dsimp only
  split
  · exact .failed (.location _ (List.append_nil before ▸ inquiry [] .unread)) asked
      (.compile location _)
  · rename_i text _
    rw [Attempt.meets_bind, Attempt.meets_lift, Action.meets_write, Attempt.meets_bind,
      Attempt.meets_lift]
    refine (asked_of_lockIf (asked.write _) _).mono fun _ w₁ asked₁ => ?_
    split
    · exact .failed (.location _ (inquiry _ (.read text))) asked₁ (.compile location _)
    · exact .made (.location _ (inquiry _ (.read text))) asked₁ (.static location _ _)
    · rename_i bare
      have inquiry₂ : embedding.Inquiry location.toText
          (before ++ [.compiled location.toText text] ++ [.wrapped location.toText text]) := by
        simpa using inquiry _ (.wrapped text bare)
      rw [Attempt.meets_bind, Attempt.meets_lift, Action.meets_write, Attempt.meets_bind,
        Attempt.meets_lift]
      refine (asked_of_lockIf (asked₁.write _) _).mono fun _ w₂ asked₂ => ?_
      split
      · exact .failed (.location _ inquiry₂) asked₂ (.compile location _)
      · exact .made (.location _ inquiry₂) asked₂ (.wrapper location _)

/-- Discovery always comes to an end, and does no more than to ask the embedder and to make a record
for its place. -/
theorem Discovers.discovered (discovers : embedding.Discovers place compute) (w : World) :
    Action.Meets (fun _ => False) compute.run (Discovered embedding place w) w := by
  cases discovers with
  | host name =>
    rw [Attempt.meets_run]
    unfold discoverHost
    split
    · rename_i content registered
      exact .made (.host name) (.refl w) (.host registered)
    · rename_i unregistered
      exact .failed (.host name) (.refl w) (.unknown unregistered)
  | loads location specifier =>
    unfold discover
    rw [Attempt.meets_run, Attempt.meets_bind, Attempt.meets_lift, Action.meets_write,
      Attempt.meets_bind, Attempt.meets_lift]
    refine (asked_of_lockIf ((Asked.refl w).write _) _).mono fun _ w₁ asked => ?_
    split
    · exact .failed (.location _ (.loaded specifier .unread)) asked (.load location _)
    · exact (Attempt.meets_run _).mp
        (discovered_of_classify asked (fun _ => .loaded specifier) _)
  | holds location source =>
    exact discovered_of_classify (.refl w) (fun _ => .held) source

end Embedding

/-! ### Lookups of a place -/

namespace World

/-- What a lookup that comes to a place can do: to answer what is kept, to refuse, or to discover
the module and to keep the outcome unless discovery is over by then. -/
inductive LookedUp (embedding : Embedding) (place : Place) (refused : String) (w : World) :
    Outcome RecordId → World → Prop
  | kept {outcome : Outcome RecordId} (kept : w.cache.get? place.key = some outcome) :
      LookedUp embedding place refused w outcome w
  | refused (absent : w.cache.get? place.key = none) (locked : w.cache.isLocked = true) :
      LookedUp embedding place refused w (.error (.resolutionLocked refused)) w
  | discovered {outcome : Outcome RecordId} {w' : World}
      (absent : w.cache.get? place.key = none) (unlocked : w.cache.isLocked = false)
      (discovered : Discovered embedding place w outcome w') :
      LookedUp embedding place refused w (w'.cache.insert place.key outcome).1
        { w' with cache := (w'.cache.insert place.key outcome).2 }

/-- A lookup has nothing to do with realms. -/
theorem LookedUp.realms {embedding : Embedding} {place : Place} {refused : String}
    {w w' : World} {outcome : Outcome RecordId}
    (did : LookedUp embedding place refused w outcome w') : w'.realms = w.realms := by
  cases did with
  | kept | refused => rfl
  | discovered _ _ discovered =>
    have same {events : List Event} {w₁ : World} (asked : Asked events w w₁) :
        w₁.realms = w.realms := by rw [asked.frame]
    cases discovered with
    | failed _ asked => exact (same asked :)
    | made _ asked => cases place <;> exact (same asked :)

end World

namespace Embedding
variable {embedding : Embedding} {place : Place} {compute : Attempt RecordId}
open World

theorem meets_keep (key : String) (outcome : Outcome RecordId)
    {post : Outcome RecordId → World → Prop} {w : World}
    (h : post (w.cache.insert key outcome).1 { w with cache := (w.cache.insert key outcome).2 }) :
    Action.Meets (fun _ => False) (keep key outcome).run post w := by
  unfold keep
  rw [Attempt.meets_run, Attempt.meets_bind, Attempt.meets_get, Attempt.meets_bind,
    Attempt.meets_set]
  generalize w.cache.insert key outcome = inserted at h ⊢
  obtain ⟨answer, cache⟩ := inserted
  cases answer <;> exact h

/-- A lookup always comes to an answer. -/
theorem Discovers.lookedUp (discovers : embedding.Discovers place compute) (refused : String)
    (w : World) :
    Action.Meets (fun _ => False) (remember place.key refused compute).run
      (LookedUp embedding place refused w) w := by
  rw [Attempt.meets_run, remember, Attempt.meets_bind, Attempt.meets_get]
  dsimp only
  split
  · exact .kept ‹_›
  · exact .kept ‹_›
  · rename_i absent
    split
    · exact .refused absent ‹_›
    · rename_i notLocked
      have unlocked : w.cache.isLocked = false := by simpa using notLocked
      have kept {outcome : Outcome RecordId} {w' : World}
          (discovered : Discovered embedding place w outcome w') :
          Action.Meets (fun _ => False) (keep place.key outcome).run
            (LookedUp embedding place refused w) w' :=
        meets_keep _ _ (.discovered absent unlocked discovered)
      rw [Attempt.meets_bind, Attempt.meets_outcome]
      exact ((Attempt.meets_run _).mp (discovers.discovered w)).imp (fun _ h => h)
        (fun error _ h => (Attempt.meets_run _).mp (kept h))
        fun id _ h => (Attempt.meets_run _).mp (kept h)

end Embedding
end ModuleGraph
