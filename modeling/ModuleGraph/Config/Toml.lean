import ModuleGraph.Number.Numeral
import ModuleGraph.Text.Digits

/-!
Reading TOML documents. Texts and arrays keep their content; of numbers, truth values and dates only
the form is checked. A table knows how it came about, since that decides who may still add to it.
-/
namespace ModuleGraph

/-- A value of a document. -/
inductive Toml where
  | string (value : String)
  /-- A number, a truth value, a date or a table on one line. -/
  | atom
  | array (items : List Toml)
  /-- A table; `implicit` if only its members were ever named, `dotted` if that was by dotted keys.
  -/
  | table (implicit dotted : Bool) (entries : List (String × Toml))
  /-- Tables under one repeated header, the last one first. -/
  | tables (items : List Toml)
  deriving Inhabited

namespace Toml

/-- The entries of a table. -/
def entries : Toml → List (String × Toml)
  | .table _ _ entries => entries
  | _ => []

/-- Replaces the value of a key, or adds it at the end. -/
def put (key : String) (value : Toml) : List (String × Toml) → List (String × Toml)
  | [] => [(key, value)]
  | (k, v) :: rest => if k = key then (k, value) :: rest else (k, v) :: put key value rest

/-! ### Growing the document -/

/-- Changes the table that a path leads to, and makes tables on the way. A dotted key adds only to
tables that dotted keys made, a header walks through any. -/
def descend (byDots : Bool) (change : Toml → Option Toml) : List String → Toml → Option Toml
  | [], target => change target
  | key :: path, .table implicit dotted entries => do
    let child ←
      match entries.lookup key with
      | none => descend byDots change path (.table true byDots [])
      | some (.table i d es) =>
        if byDots && !i then none else descend byDots change path (.table i d es)
      | some (.tables (last :: earlier)) => do
        let last ← descend byDots change path last
        pure (.tables (last :: earlier))
      | some _ => none
    pure (.table implicit dotted (put key child entries))
  | _ :: _, _ => none

/-- Opens the table of a header: a table may have one header. -/
def openTable (key : String) : Toml → Option Toml
  | .table implicit dotted entries =>
    match entries.lookup key with
    | none => some (.table implicit dotted (put key (.table false false []) entries))
    | some (.table true false es) =>
      some (.table implicit dotted (put key (.table false false es) entries))
    | some _ => none
  | _ => none

/-- Opens one more table of a repeated header. -/
def openNext (key : String) : Toml → Option Toml
  | .table implicit dotted entries =>
    match entries.lookup key with
    | none => some (.table implicit dotted (put key (.tables [.table false false []]) entries))
    | some (.tables items) =>
      some (.table implicit dotted (put key (.tables (.table false false [] :: items)) entries))
    | some _ => none
  | _ => none

/-- Adds a new key; `viaDots` says that dots led to the table. -/
def addKey (viaDots : Bool) (key : String) (value : Toml) : Toml → Option Toml
  | .table implicit dotted entries =>
    if dotted != viaDots || (entries.lookup key).isSome then none
    else some (.table implicit dotted (entries ++ [(key, value)]))
  | _ => none

/-- Adds a value under a possibly dotted key to a table. -/
def addPath (path : List String) (value : Toml) (target : Toml) : Option Toml :=
  match path.getLast? with
  | none => none
  | some key => descend true (addKey (1 < path.length) key value) path.dropLast target

/-! ### Characters -/

/-- Skips blanks within a line. -/
def skipSpace (text : List Char) : List Char := text.dropWhile fun c => c = ' ' ∨ c = '\t'

/-- Whether a character may stand in a comment or a literal text. -/
def isPlain (c : Char) : Bool := c = '\t' || (0x20 ≤ c.toNat && c.toNat ≠ 0x7f)

/-- The rest after a line break, if there is one here. -/
def lineBreak? : List Char → Option (List Char)
  | '\n' :: rest => some rest
  | '\r' :: '\n' :: rest => some rest
  | _ => none

/-- Skips a comment. -/
def skipComment : List Char → List Char
  | '#' :: rest => rest.dropWhile isPlain
  | text => text

/-- Ends a line: blanks, a comment, and a line break or the end. -/
def lineEnd? (text : List Char) : Option (List Char) :=
  match skipComment (skipSpace text) with
  | [] => some []
  | rest => lineBreak? rest

/-- Skips blanks, comments and line breaks. -/
def skipLines : Nat → List Char → List Char
  | 0, text => text
  | fuel + 1, text =>
    let rest := skipComment (skipSpace text)
    match lineBreak? rest with
    | some rest => skipLines fuel rest
    | none => rest

/-! ### Texts -/

/-- The character given by a number of hexadecimal digits. -/
def unicode? (count : Nat) (text : List Char) : Option (Char × List Char) := do
  let digits := text.take count
  if digits.length < count then none
  else
    let value ← digits.foldlM (fun value c => do
      let digit ← Text.hexDigit? c
      pure (16 * value + digit)) 0
    if 0x10ffff < value ∨ (0xD800 ≤ value ∧ value < 0xE000) then none
    else pure (Char.ofNat value, text.drop count)

/-- The character of an escape, after its backslash. -/
def escaped? : List Char → Option (Char × List Char)
  | 'b' :: rest => some ('\x08', rest)
  | 't' :: rest => some ('\t', rest)
  | 'n' :: rest => some ('\n', rest)
  | 'f' :: rest => some ('\x0c', rest)
  | 'r' :: rest => some ('\r', rest)
  | '"' :: rest => some ('"', rest)
  | '\\' :: rest => some ('\\', rest)
  | 'u' :: rest => unicode? 4 rest
  | 'U' :: rest => unicode? 8 rest
  | _ => none

/-- The rest of a text on one line, after its opening quote. -/
def basicText? : Nat → List Char → Option (List Char × List Char)
  | 0, _ => none
  | fuel + 1, text =>
    match text with
    | '"' :: rest => some ([], rest)
    | '\\' :: rest => do
      let (c, rest) ← escaped? rest
      let (tail, rest) ← basicText? fuel rest
      pure (c :: tail, rest)
    | c :: rest =>
      if isPlain c then do
        let (tail, rest) ← basicText? fuel rest
        pure (c :: tail, rest)
      else none
    | [] => none

/-- A literal text on one line, after its opening quote. -/
def literalText? (text : List Char) : Option (List Char × List Char) :=
  let body := text.takeWhile fun c => isPlain c && c ≠ '\''
  match text.drop body.length with
  | '\'' :: rest => some (body, rest)
  | _ => none

/-- Skips blanks and line breaks after a backslash at the end of a line. -/
def skipFold : List Char → List Char
  | ' ' :: rest => skipFold rest
  | '\t' :: rest => skipFold rest
  | '\n' :: rest => skipFold rest
  | '\r' :: '\n' :: rest => skipFold rest
  | text => text

/-- The quotes at the front of a text. -/
def countQuotes (quote : Char) (text : List Char) : Nat := (text.takeWhile (· = quote)).length

/-- A text over several lines, after its opening quotes; up to two quotes may stand before the three
that close it. -/
def longText? (quote : Char) (escapes : Bool) : Nat → List Char → Option (List Char × List Char)
  | 0, _ => none
  | fuel + 1, text =>
    match text with
    | [] => none
    | c :: rest =>
      let cons (c : Char) (rest : List Char) := do
        let (tail, rest) ← longText? quote escapes fuel rest
        pure (c :: tail, rest)
      if c = quote then
        let count := countQuotes quote text
        if count < 3 then cons c rest
        else if 5 < count then none
        else some (List.replicate (count - 3) quote, text.drop count)
      else if c = '\\' ∧ escapes then
        match lineBreak? (skipSpace rest) with
        | some rest => longText? quote escapes fuel (skipFold rest)
        | none => do
          let (c, rest) ← escaped? rest
          cons c rest
      else
        match lineBreak? text with
        | some rest => cons '\n' rest
        | none => if isPlain c then cons c rest else none

/-- Drops the line break right after opening quotes. -/
def dropFirstBreak (text : List Char) : List Char := (lineBreak? text).getD text

/-- A text of any form. -/
def text? (input : List Char) : Option (List Char × List Char) :=
  let fuel := input.length + 1
  match input with
  | '"' :: '"' :: '"' :: rest => longText? '"' true fuel (dropFirstBreak rest)
  | '\'' :: '\'' :: '\'' :: rest => longText? '\'' false fuel (dropFirstBreak rest)
  | '"' :: rest => basicText? fuel rest
  | '\'' :: rest => literalText? rest
  | _ => none

/-! ### Keys -/

/-- Whether a character may stand in a key without quotes. -/
def isBare (c : Char) : Bool := c.isAlphanum || c == '-' || c == '_'

/-- One part of a key. -/
def simpleKey? (text : List Char) : Option (String × List Char) :=
  match text with
  | '"' :: rest => (basicText? (rest.length + 1) rest).map fun (k, r) => (String.ofList k, r)
  | '\'' :: rest => (literalText? rest).map fun (k, r) => (String.ofList k, r)
  | text =>
    let key := text.takeWhile isBare
    if key.isEmpty then none else some (String.ofList key, text.drop key.length)

/-- The parts of a key with dots between them, and blanks around. -/
def key? : Nat → List Char → Option (List String × List Char)
  | 0, _ => none
  | fuel + 1, text => do
    let (first, rest) ← simpleKey? (skipSpace text)
    match skipSpace rest with
    | '.' :: rest =>
      let (others, rest) ← key? fuel rest
      pure (first :: others, rest)
    | rest => pure ([first], rest)

/-! ### Numbers and dates -/

/-- Whether digits of a base stand in groups with single underscores between them. -/
def isGrouped (isDigit : Char → Bool) (text : List Char) : Bool :=
  let groups := Text.splitAtChar '_' text
  groups.all fun group => !group.isEmpty && group.all isDigit

/-- Whether a text is a decimal integer without a sign. -/
def isWhole (text : List Char) : Bool :=
  isGrouped Char.isDigit text && (text.length = 1 || text.head? ≠ some '0')

/-- The digits of a text without its underscores. -/
def digitsOnly (text : List Char) : List Char := text.filter (· ≠ '_')

/-- Whether a text is an integer of at most 64 bits with its sign. -/
def isInteger (text : List Char) : Bool :=
  let fits (base : Nat) (digits : List Char) : Bool :=
    isGrouped (fun c => (Text.hexDigit? c).any (· < base)) digits &&
      (Text.digitsIn? base (digitsOnly digits)).any (· < Nat.pow 2 63)
  match text with
  | '0' :: 'x' :: digits => fits 16 digits
  | '0' :: 'o' :: digits => fits 8 digits
  | '0' :: 'b' :: digits => fits 2 digits
  | '-' :: digits => isWhole digits && Decimal.digitsValue (digitsOnly digits) ≤ Nat.pow 2 63
  | '+' :: digits => isWhole digits && Decimal.digitsValue (digitsOnly digits) < Nat.pow 2 63
  | digits => isWhole digits && Decimal.digitsValue (digitsOnly digits) < Nat.pow 2 63

/-- A text without a sign in front. -/
def dropSign : List Char → List Char
  | '+' :: rest => rest
  | '-' :: rest => rest
  | text => text

/-- Whether a text is a number with a point or an exponent, or the word for a special value. Written
out in digits, a positive one is within the range of doubles. -/
def isReal (text : List Char) : Bool :=
  let body := dropSign text
  if body = ['i', 'n', 'f'] ∨ body = ['n', 'a', 'n'] then true
  else
    let isExponent (c : Char) := c == 'e' || c == 'E'
    let mantissa := body.takeWhile fun c => !isExponent c
    let exponent := body.drop mantissa.length
    let whole := mantissa.takeWhile (· ≠ '.')
    let fraction := mantissa.drop whole.length
    isWhole whole && (fraction.isEmpty || isGrouped Char.isDigit (fraction.drop 1)) &&
      (exponent.isEmpty || isGrouped Char.isDigit (dropSign (exponent.drop 1))) &&
      !(fraction.isEmpty && exponent.isEmpty) &&
      Double.ofText? (String.ofList (digitsOnly text)) != some (.infinity false)

/-- The value of a text of exactly `count` digits. -/
def digitField? (count : Nat) (text : List Char) : Option Nat :=
  if text.length = count ∧ text.all Char.isDigit then some (Decimal.digitsValue text) else none

/-- The number of days of a month. -/
def daysIn (year month : Nat) : Nat :=
  if month = 2 then
    if year % 4 = 0 ∧ (year % 100 ≠ 0 ∨ year % 400 = 0) then 29 else 28
  else if [4, 6, 9, 11].contains month then 30
  else 31

/-- Whether a text is a day of the calendar. -/
def isDate (text : List Char) : Bool :=
  match Text.splitAtChar '-' text with
  | [year, month, day] =>
    match digitField? 4 year, digitField? 2 month, digitField? 2 day with
    | some year, some month, some day =>
      1 ≤ month && month ≤ 12 && 1 ≤ day && day ≤ daysIn year month
    | _, _, _ => false
  | _ => false

/-- Whether a text is a time of day. -/
def isTime (text : List Char) : Bool :=
  let whole := text.takeWhile (· ≠ '.')
  let fraction := text.drop whole.length
  let isFraction :=
    match fraction with
    | [] => true
    | _ :: digits => !digits.isEmpty && digits.all Char.isDigit
  match Text.splitAtChar ':' whole with
  | [hour, minute, second] =>
    match digitField? 2 hour, digitField? 2 minute, digitField? 2 second with
    | some hour, some minute, some second =>
      hour ≤ 23 && minute ≤ 59 && second ≤ 60 && isFraction
    | _, _, _ => false
  | _ => false

/-- Whether a text is a difference to universal time. -/
def isOffset (text : List Char) : Bool :=
  match text with
  | ['Z'] | ['z'] => true
  | sign :: rest =>
    (sign == '+' || sign == '-') &&
      match Text.splitAtChar ':' rest with
      | [hour, minute] =>
        match digitField? 2 hour, digitField? 2 minute with
        | some hour, some minute => hour ≤ 23 && minute ≤ 59
        | _, _ => false
      | _ => false
  | [] => false

/-- Whether a text is a date, a time, or both with or without an offset. -/
def isDateTime (text : List Char) : Bool :=
  let date := text.take 10
  match text.drop 10 with
  | [] => isDate date || isTime text
  | mark :: rest =>
    if mark == 'T' || mark == 't' || mark == ' ' then
      let isTimeChar (c : Char) := c.isDigit || c == ':' || c == '.'
      let time := rest.takeWhile isTimeChar
      let offset := rest.drop time.length
      isDate date && isTime time && (offset.isEmpty || isOffset offset)
    else isTime text

/-- Whether a character may belong to a number, a truth value or a date. -/
def isAtomChar (c : Char) : Bool :=
  c.isAlphanum || c == '+' || c == '-' || c == '.' || c == '_' || c == ':'

/-- A number, a truth value or a date. A blank may stand between a date and its time. -/
def atom? (text : List Char) : Option (List Char) :=
  let word := text.takeWhile isAtomChar
  let rest := text.drop word.length
  let isAtom (word : List Char) : Bool :=
    word = "true".toList || word = "false".toList || isInteger word || isReal word ||
      isDateTime word
  let joined :=
    match rest with
    | ' ' :: more =>
      let time := more.takeWhile isAtomChar
      if isDate word && time.head?.any Char.isDigit then
        some (word ++ ' ' :: time, more.drop time.length)
      else none
    | _ => none
  match joined with
  | some (whole, rest) => if isAtom whole then some rest else none
  | none => if isAtom word then some rest else none

/-! ### Values and lines -/

mutual

/-- A value. -/
def value? : Nat → List Char → Option (Toml × List Char)
  | 0, _ => none
  | fuel + 1, input =>
    match input with
    | '"' :: _ => (text? input).map fun (t, r) => (.string (String.ofList t), r)
    | '\'' :: _ => (text? input).map fun (t, r) => (.string (String.ofList t), r)
    | '[' :: rest => do
      let (items, rest) ← items? fuel (skipLines (rest.length + 1) rest)
      pure (.array items, rest)
    | '\x7b' :: rest => do
      match skipSpace rest with
      | '\x7d' :: rest => pure (.atom, rest)
      | rest =>
        let rest ← members? fuel (.table false false []) rest
        pure (.atom, rest)
    | _ => (atom? input).map fun rest => (.atom, rest)

/-- The items of an array up to its closing bracket; a comma may follow the last one. -/
def items? : Nat → List Char → Option (List Toml × List Char)
  | 0, _ => none
  | fuel + 1, input =>
    match input with
    | ']' :: rest => some ([], rest)
    | _ => do
      let (item, rest) ← value? fuel input
      match skipLines (rest.length + 1) rest with
      | ',' :: rest =>
        let (items, rest) ← items? fuel (skipLines (rest.length + 1) rest)
        pure (item :: items, rest)
      | ']' :: rest => pure ([item], rest)
      | _ => none

/-- The members of a table on one line, at least one, up to its closing brace. -/
def members? : Nat → Toml → List Char → Option (List Char)
  | 0, _, _ => none
  | fuel + 1, members, input => do
    let (path, rest) ← key? (input.length + 1) input
    match rest with
    | '=' :: rest =>
      let (value, rest) ← value? fuel (skipSpace rest)
      let members ← addPath path value members
      match skipSpace rest with
      | ',' :: rest => members? fuel members rest
      | '\x7d' :: rest => pure rest
      | _ => none
    | _ => none

end

/-- The document so far and the path of the open table. -/
structure Growing where
  root : Toml
  path : List String

/-- Reads one line of the document that is not blank. -/
def line? (growing : Growing) (input : List Char) : Option (Growing × List Char) :=
  let fuel := input.length + 1
  match input with
  | '[' :: '[' :: rest => do
    let (path, rest) ← key? fuel rest
    let key ← path.getLast?
    match rest with
    | ']' :: ']' :: rest =>
      let rest ← lineEnd? rest
      let root ← descend false (openNext key) path.dropLast growing.root
      pure (⟨root, path⟩, rest)
    | _ => none
  | '[' :: rest => do
    let (path, rest) ← key? fuel rest
    let key ← path.getLast?
    match rest with
    | ']' :: rest =>
      let rest ← lineEnd? rest
      let root ← descend false (openTable key) path.dropLast growing.root
      pure (⟨root, path⟩, rest)
    | _ => none
  | _ => do
    let (path, rest) ← key? fuel input
    match rest with
    | '=' :: rest =>
      let (value, rest) ← value? (2 * fuel) (skipSpace rest)
      let rest ← lineEnd? rest
      let root ← descend false (addPath path value) growing.path growing.root
      pure ({ growing with root }, rest)
    | _ => none

/-- Reads lines to the end. -/
def lines? : Nat → Growing → List Char → Option Toml
  | 0, _, _ => none
  | fuel + 1, growing, input =>
    match skipLines (input.length + 1) input with
    | [] => some growing.root
    | rest => do
      let (growing, rest) ← line? growing rest
      lines? fuel growing rest

/-- The entries of a document. A byte order mark may stand in front. -/
def ofText? (source : String) : Option (List (String × Toml)) :=
  let input :=
    match source.toList with
    | '\ufeff' :: rest => rest
    | input => input
  (lines? (input.length + 1) ⟨.table false false [], []⟩ input).map entries

end Toml
end ModuleGraph
