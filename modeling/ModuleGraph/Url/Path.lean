import ModuleGraph.Url.Basic

/-!
Reading the path of a location segment by segment. Segments of one or two dots are taken out as they
are met, and the drive letter of a local file is never climbed over.
-/
namespace ModuleGraph.Url

/-- Characters that are passed over wherever they stand. -/
def isIgnored (c : Char) : Bool := c == '\t' || c == '\n' || c == '\r'

/-- The first character that counts, and what follows it. -/
def next? : List Char → Option (Char × List Char)
  | [] => none
  | c :: rest => if isIgnored c then next? rest else some (c, rest)

/-- How a path is read: by the kind of its scheme, up to a query or fragment unless it is given by
itself, and with the drive letter at the root in its normal form unless the path follows an empty
host. -/
structure PathRule where
  kind : SchemeKind
  endsAtMarks : Bool := true
  settlesDrive : Bool := true

/-- Whether a text begins with a drive letter that is a whole segment. -/
def startsWithDrive (text : List Char) : Bool :=
  match text with
  | a :: b :: rest =>
    a.isAlpha && (b == ':' || b == '|') &&
      match rest with
      | [] => true
      | c :: _ => c == '/' || c == '\\' || c == '?' || c == '#'
  | _ => false

/-- Whether a segment is a drive letter. -/
def isDrive (segment : List Char) : Bool := segment.length == 2 && startsWithDrive segment

/-- Whether a segment is a drive letter in its normal form. -/
def isNormalDrive (segment : List Char) : Bool := isDrive segment && segment.getLast? == some ':'

/-- Whether the input goes on with a drive letter that is a whole segment. -/
def inputStartsWithDrive (input : List Char) : Bool :=
  startsWithDrive (input.filter fun c => !isIgnored c)

/-- Whether a path ends with a slash. -/
def endsWithSlash (path : List Char) : Bool := path.getLast? == some '/'

/-- The path without its last segment, up to and with the slash before it. A drive letter stays. -/
def popSegment (kind : SchemeKind) (path : List Char) : List Char :=
  let last := (path.reverse.takeWhile (· ≠ '/')).reverse
  if kind = .file ∧ isNormalDrive last then path else path.take (path.length - last.length)

/-- Climbs one segment; a path that is nothing but a drive letter stays. -/
def shorten (kind : SchemeKind) (path : List Char) : List Char :=
  if path.isEmpty ∨ (kind = .file ∧ isNormalDrive path) then path else popSegment kind path

/-- Whether the slash at the end is neither the root nor the one after a drive letter. -/
def isLastSlashRemovable (path : List Char) : Bool :=
  let before := path.dropLast
  let last := (before.reverse.takeWhile (· ≠ '/')).reverse
  before.contains '/' && !startsWithDrive (last ++ ['/'])

/-- Appends what is pending in its encoded form; it is kept in reverse. -/
def flush (path pending : List Char) : List Char := path ++ percentEncode inPathSet pending.reverse

/-- A path that has taken in one more segment: where that begins, whether a slash ended it, and the
rest of the input. -/
structure SegmentRead where
  path : List Char
  start : Nat
  slashed : Bool
  rest : List Char

/-- Reads characters up to the end of a segment. Text after a bare drive letter begins a segment of
its own. -/
def readSegment (rule : PathRule) (path : List Char) (start : Nat) (pending : List Char) :
    List Char → SegmentRead
  | [] => ⟨flush path pending, start, false, []⟩
  | c :: rest =>
    if isIgnored c then readSegment rule (flush path pending) start [] rest
    else if c = '/' ∨ (c = '\\' ∧ rule.kind.isSpecial) then
      ⟨flush path pending ++ ['/'], start, true, rest⟩
    else if rule.endsAtMarks ∧ (c = '?' ∨ c = '#') then
      ⟨flush path pending, start, false, c :: rest⟩
    else if rule.kind = .file ∧ !path.isEmpty ∧ isNormalDrive (path.drop 1) then
      readSegment rule (flush path pending ++ ['/']) (start + 1) [c] rest
    else readSegment rule path start (c :: pending) rest

/-- The segments that stand for the one above. -/
def isDoubleDot (segment : List Char) : Bool :=
  let text := String.ofList (segment.map Char.toLower)
  text == ".." || text == "%2e%2e" || text == "%2e." || text == ".%2e"

/-- The segments that stand for nothing. -/
def isSingleDot (segment : List Char) : Bool :=
  let text := String.ofList (segment.map Char.toLower)
  text == "." || text == "%2e"

/-- A path and whether its location still has a host. -/
structure PathState where
  path : List Char
  hasHost : Bool

/-- Settles the segment just read. A drive letter at the root takes its normal form and puts an end
to the host. -/
def settleSegment (rule : PathRule) (read : SegmentRead) (hasHost : Bool) : PathState :=
  let whole := if read.slashed then read.path.dropLast else read.path
  let segment := whole.drop read.start
  let before := read.path.take read.start
  if isDoubleDot segment then
    let before :=
      if endsWithSlash before && isLastSlashRemovable before then before.dropLast else before
    let above := shorten rule.kind before
    ⟨if read.slashed && !endsWithSlash above then above ++ ['/'] else above, hasHost⟩
  else if isSingleDot segment then
    ⟨if endsWithSlash before then before else before ++ ['/'], hasHost⟩
  else if rule.kind = .file ∧ rule.settlesDrive ∧ read.start = 1 ∧ isDrive segment then
    ⟨before ++ segment.take 1 ++ [':'] ++ (if read.slashed then ['/'] else []), false⟩
  else ⟨read.path, hasHost⟩

/-- Reads segments to the end of the path. -/
def readSegments (rule : PathRule) : Nat → PathState → List Char → PathState × List Char
  | 0, state, input => (state, input)
  | fuel + 1, state, input =>
    let read := readSegment rule state.path state.path.length [] input
    let settled := settleSegment rule read state.hasHost
    if read.slashed then readSegments rule fuel settled read.rest else (settled, read.rest)

/-- Reads a path onto one that is there already. The path of a local file has one slash in front. -/
def readPath (rule : PathRule) (path : List Char) (hasHost : Bool) (input : List Char) :
    PathState × List Char :=
  let (state, rest) := readSegments rule (input.length + 1) ⟨path, hasHost⟩ input
  if rule.kind = .file then
    (⟨'/' :: state.path.dropWhile (· = '/'), state.hasHost⟩, rest)
  else (state, rest)

/-- Reads the path that follows an authority; `bare` says that this ends with a slash of its own. -/
def readPathStart (rule : PathRule) (bare hasHost : Bool) (input : List Char) :
    PathState × List Char :=
  if rule.kind.isSpecial then
    if bare then readPath { rule with settlesDrive := false } [] hasHost input
    else
      match next? input with
      | some (c, rest) =>
        readPath rule ['/'] hasHost (if c = '/' ∨ c = '\\' then rest else input)
      | none => readPath rule ['/'] hasHost input
  else
    match next? input with
    | some (c, _) =>
      if rule.endsAtMarks ∧ (c = '?' ∨ c = '#') then (⟨[], hasHost⟩, input)
      else readPath rule (if c = '/' then [] else ['/']) hasHost input
    | none => readPath rule [] hasHost input

end ModuleGraph.Url
