import ModuleGraph.Url.Path

/-!
Reading locations, absolute ones and ones relative to a base.
-/
namespace ModuleGraph.Url

/-- The text up to a character of a set, without what is passed over, and what follows. -/
def takeUntil (stop : Char → Bool) (input : List Char) : List Char × List Char :=
  ((input.takeWhile fun c => !stop c).filter fun c => !isIgnored c,
    input.dropWhile fun c => !stop c)

/-- Adds the query and the fragment that follow a path. -/
def withMarks (url : Url) (input : List Char) : Url :=
  let encodeQuery (text : List Char) :=
    String.ofList (percentEncode (inQuerySet url.kind.isSpecial) text)
  let encodeFragment (text : List Char) :=
    String.ofList (percentEncode inFragmentSet (text.filter fun c => !isIgnored c))
  match next? input with
  | some ('#', rest) => { url with query := none, fragment := some (encodeFragment rest) }
  | some ('?', rest) =>
    let (query, rest) := takeUntil (· == '#') rest
    let fragment :=
      match rest with
      | '#' :: rest => some (encodeFragment rest)
      | _ => none
    { url with query := some (encodeQuery query), fragment := fragment }
  | _ => { url with query := none, fragment := none }

/-- Splits at the last occurrence of a character. -/
def splitAtLast? (mark : Char) (text : List Char) : Option (List Char × List Char) :=
  let after := (text.reverse.takeWhile (· ≠ mark)).reverse
  if text.contains mark then some (text.take (text.length - after.length - 1), after) else none

/-- Whether a character ends an authority. -/
def endsAuthority (kind : SchemeKind) (c : Char) : Bool :=
  c == '/' || c == '?' || c == '#' || (kind.isSpecial && c == '\\')

/-- The text of user information. An empty password goes without its colon. -/
def userinfoText (text : List Char) : String :=
  let name := text.takeWhile (· ≠ ':')
  let password := (text.dropWhile (· ≠ ':')).drop 1
  let encode (part : List Char) := String.ofList (percentEncode inUserinfoSet part)
  if name.isEmpty && password.isEmpty then ""
  else encode name ++ (if password.isEmpty then "" else ":" ++ encode password) ++ "@"

/-- Reads user information, which ends at the last at-sign of the authority. -/
def readUserinfo (kind : SchemeKind) (input : List Char) : Except UrlError (String × List Char) :=
  let authority := input.takeWhile fun c => !endsAuthority kind c
  match splitAtLast? '@' authority with
  | none => .ok ("", input)
  | some (before, _) =>
    let rest := input.drop (before.length + 1)
    let before := before.filter fun c => !isIgnored c
    match next? rest with
    | some (c, _) =>
      if before.isEmpty && endsAuthority kind c then .error .emptyHost
      else .ok (userinfoText before, rest)
    | none => .ok (userinfoText before, rest)

/-- Splits a host off: it ends at a colon outside of brackets or where the authority ends. -/
def splitHost (kind : SchemeKind) (bracketed : Bool) : List Char → List Char × List Char
  | [] => ([], [])
  | c :: rest =>
    if (c = ':' ∧ !bracketed) ∨ endsAuthority kind c then ([], c :: rest)
    else if isIgnored c then splitHost kind bracketed rest
    else
      let inside := if c = '[' then true else if c = ']' then false else bracketed
      let (host, rest) := splitHost kind inside rest
      (c :: host, rest)

/-- Reads the digits of a port up to where the authority ends. -/
def readPort (value : Nat) (seen : Bool) : List Char → Except UrlError (Option Nat × List Char)
  | [] => .ok (if seen then some value else none, [])
  | c :: rest =>
    if isIgnored c then readPort value seen rest
    else if c.isDigit then
      let value := value * 10 + (c.toNat - '0'.toNat)
      if 65535 < value then .error .invalidPort else readPort value true rest
    else if c = '/' ∨ c = '\\' ∨ c = '?' ∨ c = '#' then
      .ok (if seen then some value else none, c :: rest)
    else .error .invalidPort

/-- Reads a host and a port. -/
def readHostAndPort (scheme : String) (input : List Char) :
    Except UrlError (String × Option Nat × List Char) := do
  let kind := SchemeKind.of scheme
  let (text, rest) := splitHost kind false input
  if kind.isSpecial && text.isEmpty then .error .emptyHost
  let host ← if kind.isSpecial then specialHost? text else opaqueHost? text
  match next? rest with
  | some (':', rest) =>
    if host.isEmpty then .error .emptyHost
    let (port, rest) ← readPort 0 false rest
    .ok (host, if port = defaultPort? scheme then none else port, rest)
  | _ => .ok (host, none, rest)

/-- Reads what follows the two slashes of an authority. -/
def readAuthority (scheme : String) (input : List Char) : Except UrlError Url := do
  let kind := SchemeKind.of scheme
  let (userinfo, rest) ← readUserinfo kind input
  let (host, port, rest) ← readHostAndPort scheme rest
  if host.isEmpty && !userinfo.isEmpty then .error .emptyHost
  let (state, rest) := readPathStart { kind } false true rest
  .ok (withMarks ⟨scheme, some ⟨userinfo, host, port⟩, String.ofList state.path, none, none⟩ rest)

/-- The location of a local file with a host and a path. -/
def fileUrl (host : String) (path : List Char) : Url :=
  ⟨"file", some { host := host }, String.ofList path, none, none⟩

/-- How paths of local files are read. -/
def fileRule : PathRule := { kind := .file }

/-- Reads a local file's location after two slashes: a host, unless a drive letter stands there. -/
def readFileHost (input : List Char) : Except UrlError Url := do
  let isEnd (c : Char) := c == '/' || c == '\\' || c == '?' || c == '#'
  let (text, rest) := takeUntil isEnd input
  if isDrive text then
    let (state, rest) := readPath fileRule ['/'] false input
    .ok (withMarks (fileUrl "" state.path) rest)
  else
    let host ←
      if text.isEmpty then .ok ""
      else do
        let host ← specialHost? text
        .ok (if host = "localhost" then "" else host)
    let (state, rest) := readPathStart fileRule host.isEmpty (!host.isEmpty) rest
    .ok (withMarks (fileUrl (if state.hasHost then host else "") state.path) rest)

/-- The host of a location, empty when it has none. -/
def hostText (url : Url) : String :=
  match url.authority with
  | some authority => authority.host
  | none => ""

/-- The first segment of a path. -/
def firstSegment (path : String) : List Char := (path.toList.drop 1).takeWhile (· ≠ '/')

/-- Reads the location of a local file after its scheme, or without one relative to `base?`. -/
def readFile (input : List Char) (base? : Option Url) : Except UrlError Url :=
  let absolute : Url :=
    let (state, rest) := readPath fileRule ['/'] false input
    withMarks (fileUrl "" state.path) rest
  let isSlash (c : Char) : Bool := c == '/' || c == '\\'
  match next? input with
  | some (c, afterFirst) =>
    if isSlash c then
      match next? afterFirst with
      | some (d, afterSecond) =>
        if isSlash d then readFileHost afterSecond else .ok (rooted afterFirst)
      | none => .ok (rooted afterFirst)
    else
      match base? with
      | none => .ok absolute
      | some base =>
        if c = '?' then .ok (withMarks base input)
        else if c = '#' then .ok { withMarks base input with query := base.query }
        else if inputStartsWithDrive input then .ok absolute
        else
          let (state, rest) := readPath fileRule (shorten .file base.path.toList) true input
          .ok (withMarks { base with path := String.ofList state.path } rest)
  | none =>
    match base? with
    | none => .ok absolute
    | some base => .ok { base with fragment := none }
where
  /-- A path from the root, on the drive or else on the host of the base. -/
  rooted (afterSlash : List Char) : Url :=
    let (drive, host) :=
      match base? with
      | some base =>
        if inputStartsWithDrive afterSlash then ([], "")
        else if isNormalDrive (firstSegment base.path) then ('/' :: firstSegment base.path, "")
        else ([], base.hostText)
      | none => ([], "")
    let (state, rest) := readPath fileRule drive false input
    withMarks (fileUrl host state.path) rest

/-- The slashes, of either direction if `special`, at the front, and what follows them. -/
def skipSlashes : List Char → Nat × List Char
  | [] => (0, [])
  | c :: rest =>
    if isIgnored c then skipSlashes rest
    else if c = '/' ∨ c = '\\' then
      let (count, rest) := skipSlashes rest
      (count + 1, rest)
    else (0, c :: rest)

/-- What follows two plain slashes. -/
def afterTwoSlashes? (input : List Char) : Option (List Char) :=
  match next? input with
  | some ('/', rest) =>
    match next? rest with
    | some ('/', rest) => some rest
    | _ => none
  | _ => none

/-- Reads a text relative to a base that is no local file. -/
def readRelative (input : List Char) (base : Url) : Except UrlError Url :=
  let rule : PathRule := { kind := base.kind }
  let onto (path : List Char) (input : List Char) : Url :=
    let (state, rest) := readPath rule path true input
    withMarks { base with path := String.ofList state.path } rest
  match next? input with
  | none => .ok { base with fragment := none }
  | some (c, rest) =>
    if c = '?' then .ok (withMarks base input)
    else if c = '#' then .ok { withMarks base input with query := base.query }
    else if c = '/' ∨ c = '\\' then
      let (count, afterAll) := skipSlashes input
      if 2 ≤ count then readAuthority base.scheme ((afterTwoSlashes? input).getD afterAll)
      else .ok (onto ['/'] rest)
    else
      let parent := popSegment base.kind base.path.toList
      .ok (onto (if parent.isEmpty then ['/'] else parent) input)

/-- Reads an opaque path. -/
def readOpaque (scheme : String) (input : List Char) : Url :=
  let (path, rest) := takeUntil (fun c => c == '?' || c == '#') input
  withMarks ⟨scheme, none, String.ofList (percentEncode isControl path), none, none⟩ rest

/-- The scheme in front of a colon, in lower case, and what follows the colon. -/
def readScheme? : List Char → Option (List Char × List Char)
  | [] => none
  | c :: rest =>
    if isIgnored c then readScheme? rest
    else if c = ':' then some ([], rest)
    else if c.isAlphanum ∨ c = '+' ∨ c = '-' ∨ c = '.' then
      (readScheme? rest).map fun (scheme, rest) => (c.toLower :: scheme, rest)
    else none

/-- Reads a location after its scheme. -/
def readWithScheme (scheme : String) (input : List Char) (base? : Option Url) :
    Except UrlError Url :=
  match SchemeKind.of scheme with
  | .file => readFile input (base?.filter (·.scheme == "file"))
  | .special =>
    let (count, rest) := skipSlashes input
    match base?.filter fun base => count < 2 && base.scheme == scheme with
    | some base => readRelative input base
    | none => readAuthority scheme rest
  | .other =>
    match afterTwoSlashes? input with
    | some rest => readAuthority scheme rest
    | none =>
      match next? input with
      | some ('/', rest) =>
        let (state, rest) := readPath { kind := .other } ['/'] false rest
        .ok (withMarks ⟨scheme, none, String.ofList state.path, none, none⟩ rest)
      | _ => .ok (readOpaque scheme input)

/-- Whether a character is cut off at both ends of a text. -/
def isTrimmed (c : Char) : Bool := c.toNat ≤ 0x20

/-- The text without what is cut off at its ends. -/
def trimEnds (text : List Char) : List Char :=
  ((text.dropWhile isTrimmed).reverse.dropWhile isTrimmed).reverse

/-- Reads a location, relative to `base?` if the text is no absolute one. -/
def read (text : String) (base? : Option Url) : Except UrlError Url :=
  let input := trimEnds text.toList
  let scheme? : Option (List Char × List Char) :=
    match next? input with
    | some (c, _) => if c.isAlpha then readScheme? input else none
    | none => none
  match scheme? with
  | some (scheme, rest) => readWithScheme (String.ofList scheme) rest base?
  | none =>
    match base? with
    | none => .error .relativeWithoutBase
    | some base =>
      match next? input with
      | some ('#', _) => .ok { withMarks base input with query := base.query }
      | _ =>
        if base.isOpaque then .error .relativeToOpaqueBase
        else if base.scheme = "file" then readFile input (some base)
        else readRelative input base

/-- Reads an absolute location. -/
def parse (text : String) : Except UrlError Url := read text none

/-- Reads a text relative to a location. -/
def join (base : Url) (text : String) : Except UrlError Url := read text (some base)

/-- The location with another path. An opaque path stays opaque. -/
def withPath (url : Url) (path : String) : Url :=
  if url.isOpaque then
    let text :=
      match path.toList with
      | '/' :: rest => "%2F".toList ++ percentEncode isControl (rest.filter fun c => !isIgnored c)
      | rest => percentEncode isControl (rest.filter fun c => !isIgnored c)
    { url with path := String.ofList text }
  else
    let bare := url.authority.any fun authority => authority.toText.isEmpty
    let (state, _) := readPathStart { kind := url.kind, endsAtMarks := false } bare true path.toList
    { url with path := String.ofList state.path }

/-- The location with a path that ends with a slash. -/
def asDirectory (url : Url) : Url :=
  if url.path.endsWith "/" then url else url.withPath (url.path ++ "/")

end ModuleGraph.Url
