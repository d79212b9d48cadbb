import Mathlib
import ModuleGraph.Proofs.Bodies

/-!
Schemes of locations. A location that was read has the scheme that its text begins with or that of
its base, and it is in lower case. So resolution never leads to locations whose schemes have another
form. Of how a text is joined to a location one fact alone is used, `Url.scheme_of_join`.
-/
namespace ModuleGraph
namespace Url
variable {scheme : String} {input rest : List Char} {base url : Url} {base? : Option Url}

/-- Whether a character can stand in a scheme. -/
def isSchemeChar (c : Char) : Bool :=
  c.isLower || c.isDigit || c == '+' || c == '-' || c == '.'

/-- Whether a text has the form of a scheme. -/
def isScheme : List Char → Bool
  | [] => false
  | c :: rest => c.isLower && rest.all isSchemeChar

/-- The location's scheme has the form of one. -/
def HasScheme (url : Url) : Prop := isScheme url.scheme.toList = true

theorem isLower_toLower {c : Char} (letter : c.isAlpha = true) : c.toLower.isLower = true := by
  unfold Char.toLower
  split
  · rename_i upper
    have least : 65 ≤ c.val.toNat := UInt32.le_iff_toNat_le.mp upper.1
    have most : c.val.toNat ≤ 90 := UInt32.le_iff_toNat_le.mp upper.2
    have shifted : (c.val + ('a'.val - 'A'.val)).toNat = c.val.toNat + 32 := by
      have gap : ('a'.val - 'A'.val).toNat = 32 := rfl
      rw [UInt32.toNat_add, gap]
      exact Nat.mod_eq_of_lt (by omega)
    simp only [Char.isLower, Bool.and_eq_true, decide_eq_true_eq, ge_iff_le,
      UInt32.le_iff_toNat_le, shifted]
    exact ⟨show 97 ≤ _ by omega, show _ ≤ 122 by omega⟩
  · rename_i notUpper
    simp only [Char.isAlpha, Char.isUpper, Bool.or_eq_true, decide_eq_true_eq] at letter
    exact letter.resolve_left notUpper

theorem isSchemeChar_toLower {c : Char} (h : c.isAlphanum ∨ c = '+' ∨ c = '-' ∨ c = '.') :
    isSchemeChar c.toLower = true := by
  rcases h with alphanum | rfl | rfl | rfl
  · rcases (Bool.or_eq_true _ _).mp alphanum with letter | digit
    · simp [isSchemeChar, isLower_toLower letter]
    · have same : c.toLower = c := by
        refine dif_neg fun upper => ?_
        simp only [Char.isDigit, Bool.and_eq_true, decide_eq_true_eq] at digit
        exact absurd (UInt32.le_trans upper.1 digit.2) (by decide)
      simp [isSchemeChar, same, digit]
  all_goals decide

theorem all_isSchemeChar_of_readScheme {text rest : List Char}
    (found : readScheme? input = some (text, rest)) : text.all isSchemeChar = true := by
  induction input generalizing text with
  | nil => cases found
  | cons c input ih =>
    unfold readScheme? at found
    split at found
    · exact ih found
    · split at found
      · cases found
        rfl
      · split at found
        · rename_i inScheme
          obtain ⟨⟨text', rest'⟩, found', same⟩ := Option.map_eq_some_iff.mp found
          cases same
          rw [List.all_cons, isSchemeChar_toLower inScheme, ih found', Bool.and_self]
        · cases found

/-- What is read as a scheme after a letter has the form of one. -/
theorem isScheme_of_readScheme {c : Char} {text after rest : List Char}
    (first : next? input = some (c, after)) (letter : c.isAlpha = true)
    (found : readScheme? input = some (text, rest)) : isScheme text = true := by
  induction input with
  | nil => cases found
  | cons d input ih =>
    unfold next? at first
    unfold readScheme? at found
    split at first
    · rw [if_pos ‹_›] at found
      exact ih first found
    · rename_i counts
      cases first
      have notColon : c ≠ ':' := by
        rintro rfl
        exact absurd letter (by decide)
      have inScheme : c.isAlphanum ∨ c = '+' ∨ c = '-' ∨ c = '.' := by
        simp [Char.isAlphanum, letter]
      rw [if_neg counts, if_neg notColon, if_pos inScheme] at found
      obtain ⟨⟨text', rest'⟩, found', same⟩ := Option.map_eq_some_iff.mp found
      cases same
      simp [isScheme, isLower_toLower letter, all_isSchemeChar_of_readScheme found']

/-! ### The scheme of what is read -/

@[simp] theorem scheme_withMarks (url : Url) (input : List Char) :
    (url.withMarks input).scheme = url.scheme := by
  unfold withMarks
  dsimp only
  split <;> rfl

theorem scheme_of_readAuthority (found : readAuthority scheme input = .ok url) :
    url.scheme = scheme := by
  unfold readAuthority at found
  simp only [bind, Except.bind] at found
  split at found
  · cases found
  · split at found
    · cases found
    · split at found
      · cases found
      · cases found
        exact scheme_withMarks _ _

theorem scheme_of_readFileHost (found : readFileHost input = .ok url) : url.scheme = "file" := by
  unfold readFileHost at found
  dsimp only at found
  split at found
  · cases found
    exact scheme_withMarks _ _
  · simp only [bind, Except.bind] at found
    split at found
    · cases found
      exact scheme_withMarks _ _
    · split at found
      · cases found
      · cases found
        exact scheme_withMarks _ _

/-- Locations of local files lead to such locations only. -/
theorem scheme_of_readFile (isFile : ∀ base ∈ base?, base.scheme = "file")
    (found : readFile input base? = .ok url) : url.scheme = "file" := by
  have rooted (after : List Char) : (readFile.rooted input base? after).scheme = "file" :=
    scheme_withMarks _ _
  unfold readFile at found
  dsimp only at found
  split at found
  · split at found
    · split at found
      · split at found
        · exact scheme_of_readFileHost found
        · cases found
          exact rooted _
      · cases found
        exact rooted _
    · split at found
      · cases found
        exact scheme_withMarks _ _
      · rename_i base
        have isFile := isFile base rfl
        split at found
        · cases found
          exact (scheme_withMarks _ _).trans isFile
        · split at found
          · cases found
            exact (scheme_withMarks _ _).trans isFile
          · split at found
            · cases found
              exact scheme_withMarks _ _
            · cases found
              exact (scheme_withMarks _ _).trans isFile
  · split at found
    · cases found
      exact scheme_withMarks _ _
    · rename_i base
      cases found
      exact isFile base rfl

theorem scheme_of_readRelative (found : readRelative input base = .ok url) :
    url.scheme = base.scheme := by
  unfold readRelative at found
  dsimp only at found
  split at found
  · cases found
    rfl
  · split at found
    · cases found
      exact scheme_withMarks _ _
    · split at found
      · cases found
        exact scheme_withMarks _ _
      · split at found
        · split at found
          · exact scheme_of_readAuthority found
          · cases found
            exact scheme_withMarks _ _
        · cases found
          exact scheme_withMarks _ _

/-- What is read after a scheme has this scheme. -/
theorem scheme_of_readWithScheme (found : readWithScheme scheme input base? = .ok url) :
    url.scheme = scheme := by
  unfold readWithScheme at found
  split at found
  · rename_i isFile
    have same : scheme = "file" := by
      unfold SchemeKind.of at isFile
      split at isFile
      · assumption
      · split at isFile <;> cases isFile
    rw [same]
    exact scheme_of_readFile (by simp [Option.mem_def, Option.filter_eq_some_iff]) found
  · dsimp only at found
    split at found
    · rename_i base filtered
      have same : base.scheme = scheme := by
        simp [Option.filter_eq_some_iff] at filtered
        exact filtered.2.2
      exact (scheme_of_readRelative found).trans same
    · exact scheme_of_readAuthority found
  · split at found
    · exact scheme_of_readAuthority found
    · split at found
      · cases found
        exact scheme_withMarks _ _
      · cases found
        exact scheme_withMarks _ _

/-- A location is read after its scheme, or else it has the scheme of its base. -/
theorem cases_of_read {text : String} (found : read text base? = .ok url) :
    (∃ c after written rest, next? (trimEnds text.toList) = some (c, after) ∧ c.isAlpha = true ∧
      readScheme? (trimEnds text.toList) = some (written, rest) ∧
      readWithScheme (String.ofList written) rest base? = .ok url) ∨
    ∃ base ∈ base?, url.scheme = base.scheme := by
  unfold Url.read at found
  dsimp only at found
  split at found
  · rename_i scheme
    split at scheme
    · rename_i first
      split at scheme
      · exact .inl ⟨_, _, _, _, first, ‹_›, scheme, found⟩
      · cases scheme
    · cases scheme
  · split at found
    · cases found
    · rename_i base
      refine .inr ⟨base, rfl, ?_⟩
      split at found
      · cases found
        exact scheme_withMarks _ _
      · split at found
        · cases found
        · split at found
          · rename_i isFile
            rw [isFile]
            exact scheme_of_readFile (by simpa using isFile) found
          · exact scheme_of_readRelative found

/-- What is read, perhaps relative to a location that has a scheme, has one. -/
theorem HasScheme.read {text : String} (has : ∀ base ∈ base?, base.HasScheme)
    (found : read text base? = .ok url) : url.HasScheme := by
  rcases cases_of_read found with ⟨c, after, written, rest, first, letter, scheme, found⟩ | inherits
  · rw [HasScheme, scheme_of_readWithScheme found, String.toList_ofList]
    exact isScheme_of_readScheme first letter scheme
  · obtain ⟨base, isBase, same⟩ := inherits
    rw [HasScheme, same]
    exact has base isBase

/-- Trimming takes nothing off the front of a text that begins with a visible character. -/
theorem trimEnds_cons {mark : Char} (visible : isTrimmed mark = false) (text : List Char) :
    ∃ rest, trimEnds (mark :: text) = mark :: rest := by
  obtain ⟨front, back⟩ : ∃ front, text.reverse.dropWhile isTrimmed = front := ⟨_, rfl⟩
  have dropped : (mark :: text).dropWhile isTrimmed = mark :: text := by
    simp [visible]
  unfold trimEnds
  rw [dropped, List.reverse_cons, List.dropWhile_append, back]
  split
  · exact ⟨[], by simp [visible]⟩
  · exact ⟨front.reverse, by simp⟩

/-- Joining keeps the scheme: a text that begins with a dot or a slash leads to no other scheme,
however many dots and slashes follow, and whatever host and path it leads to. -/
theorem scheme_of_join {text : String}
    (relative : (text.startsWith "." || text.startsWith "/") = true)
    (joined : base.join text = .ok url) : url.scheme = base.scheme := by
  rw [Bool.or_eq_true, String.startsWith_string_iff, String.startsWith_string_iff] at relative
  obtain ⟨mark, written, begins, isMark⟩ :
      ∃ mark written, text.toList = mark :: written ∧ (mark = '.' ∨ mark = '/') := by
    rcases relative with ⟨written, begins⟩ | ⟨written, begins⟩
    · exact ⟨'.', written, begins.symm, .inl rfl⟩
    · exact ⟨'/', written, begins.symm, .inr rfl⟩
  have plain : isTrimmed mark = false ∧ isIgnored mark = false ∧ mark.isAlpha = false := by
    rcases isMark with rfl | rfl <;> decide
  obtain ⟨visible, counts, noLetter⟩ := plain
  rcases cases_of_read joined with ⟨c, _, _, _, first, letter, _⟩ | ⟨_, isBase, same⟩
  · obtain ⟨rest, trimmed⟩ := trimEnds_cons visible written
    rw [begins, trimmed, next?, if_neg (by simp [counts])] at first
    cases first
    rw [noLetter] at letter
    cases letter
  · rwa [Option.some.inj isBase]

/-- The scheme is what the text of a location has in front of its first colon. -/
theorem HasScheme.takeWhile_toText (has : url.HasScheme) :
    url.toText.toList.takeWhile (· ≠ ':') = url.scheme.toList := by
  have noColon : ∀ c ∈ url.scheme.toList, c ≠ ':' := by
    rintro c member rfl
    unfold HasScheme at has
    cases scheme : url.scheme.toList with
    | nil => simp [scheme] at member
    | cons first rest =>
      rw [scheme] at has member
      simp only [isScheme, Bool.and_eq_true, List.all_eq_true] at has
      rcases List.mem_cons.mp member with rfl | member
      · exact absurd has.1 (by decide)
      · exact absurd (has.2 ':' member) (by decide)
  obtain ⟨rest, text⟩ : ∃ rest, url.toText.toList = url.scheme.toList ++ ':' :: rest := by
    simp only [toText, String.toList_append, List.append_assoc]
    exact ⟨_, rfl⟩
  rw [text, List.takeWhile_append_of_pos (by simpa using noColon)]
  simp

end Url

/-- What a specifier stands for: it is relative and joined to where it was written, or it is read by
itself and has an allowed scheme; then it is no local file if it was written in what came over the
network. -/
theorem cases_of_canonicalize {config : Config} {referrer location : Url} {specifier : String}
    (found : canonicalize config referrer specifier = .ok location) :
    let start := if referrer = config.stdinLocation then config.base else referrer
    (specifier.startsWith "." || specifier.startsWith "/") = true ∧
        start.join specifier = .ok location ∨
      location.HasScheme ∧ config.isAllowedScheme location = true ∧
        ¬ (start.scheme = "https" ∧ location.scheme = "file") := by
  unfold canonicalize at found
  dsimp only at found ⊢
  generalize (if referrer = config.stdinLocation then config.base else referrer) = start at found ⊢
  split at found
  · cases found
  · split at found
    · rename_i relative
      split at found
      · rename_i joined
        cases found
        exact .inl ⟨relative, joined⟩
      · cases found
    · split at found
      · split at found
        · cases found
        · rename_i parsed
          split at found
          · cases found
          · rename_i allowed
            split at found
            · cases found
            · rename_i noneLocal
              cases found
              exact .inr ⟨Url.HasScheme.read (by simp) parsed, by simpa using allowed, noneLocal⟩
      · cases found

/-- Resolution never leads to locations without a scheme. -/
theorem Embedding.staysWithin_hasScheme {embedding : Embedding}
    (base : embedding.config.base.HasScheme) : embedding.StaysWithin Url.HasScheme := by
  refine ⟨base, fun referrer specifier location has found => ?_⟩
  rcases cases_of_canonicalize found with ⟨relative, joined⟩ | ⟨has, _⟩
  · rw [Url.HasScheme, Url.scheme_of_join relative joined]
    split
    · exact base
    · exact has
  · exact has

end ModuleGraph
