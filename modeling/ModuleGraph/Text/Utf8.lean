/-!
UTF-8: the bytes of a text, and the text of bytes. Decoding refuses overlong forms, surrogates and
code points that do not exist, and says where the first fault lies and how many bytes it spans.
-/
namespace ModuleGraph.Text

/-- The first fault in a sequence of bytes: the index where the faulty form begins, and how many
bytes of it are wrong together, or `none` when the bytes end in the middle of a form. -/
structure Utf8Fault where
  index : Nat
  length : Option Nat
  deriving DecidableEq, Repr

/-- The text of a fault. -/
def Utf8Fault.message (fault : Utf8Fault) : String :=
  match fault.length with
  | some length => s!"invalid utf-8 sequence of {length} bytes from index {fault.index}"
  | none => s!"incomplete utf-8 byte sequence from index {fault.index}"

/-- Whether a byte continues a form. -/
def isContinuation (byte : Nat) : Bool := 0x80 ≤ byte && byte < 0xC0

/-- Whether the second byte of a form of three or four is allowed after its first: this is where
overlong forms, surrogates and code points beyond the last are refused. -/
def isSecondByte (first second : Nat) : Bool :=
  if first = 0xE0 then 0xA0 ≤ second && second < 0xC0
  else if first = 0xED then 0x80 ≤ second && second < 0xA0
  else if first = 0xF0 then 0x90 ≤ second && second < 0xC0
  else if first = 0xF4 then 0x80 ≤ second && second < 0x90
  else isContinuation second

/-- The character of a code point; a form that `decode` accepts always has one. -/
def charOf (code : Nat) : Char := Char.ofNat code

/-- The characters of a list of bytes, with the first byte at `index`. -/
def decodeFrom (index : Nat) : List Nat → Except Utf8Fault (List Char)
  | [] => .ok []
  | a :: rest =>
    if a < 0x80 then (charOf a :: ·) <$> decodeFrom (index + 1) rest
    else if 0xC2 ≤ a && a < 0xE0 then
      match rest with
      | [] => .error ⟨index, none⟩
      | b :: rest =>
        if isContinuation b then
          (charOf ((a - 0xC0) * 0x40 + (b - 0x80)) :: ·) <$> decodeFrom (index + 2) rest
        else .error ⟨index, some 1⟩
    else if 0xE0 ≤ a && a < 0xF0 then
      match rest with
      | [] => .error ⟨index, none⟩
      | b :: rest =>
        if !isSecondByte a b then .error ⟨index, some 1⟩
        else
          match rest with
          | [] => .error ⟨index, none⟩
          | c :: rest =>
            if isContinuation c then
              (charOf ((a - 0xE0) * 0x1000 + (b - 0x80) * 0x40 + (c - 0x80)) :: ·) <$>
                decodeFrom (index + 3) rest
            else .error ⟨index, some 2⟩
    else if 0xF0 ≤ a && a < 0xF5 then
      match rest with
      | [] => .error ⟨index, none⟩
      | b :: rest =>
        if !isSecondByte a b then .error ⟨index, some 1⟩
        else
          match rest with
          | [] => .error ⟨index, none⟩
          | c :: rest =>
            if !isContinuation c then .error ⟨index, some 2⟩
            else
              match rest with
              | [] => .error ⟨index, none⟩
              | d :: rest =>
                if isContinuation d then
                  (charOf ((a - 0xF0) * 0x40000 + (b - 0x80) * 0x1000 + (c - 0x80) * 0x40 +
                    (d - 0x80)) :: ·) <$> decodeFrom (index + 4) rest
                else .error ⟨index, some 3⟩
    else .error ⟨index, some 1⟩

/-- The text of a list of bytes. -/
def decode (bytes : List UInt8) : Except Utf8Fault String :=
  String.ofList <$> decodeFrom 0 (bytes.map UInt8.toNat)

/-- The bytes of one character. -/
def encodeChar (c : Char) : List Nat :=
  let code := c.toNat
  if code < 0x80 then [code]
  else if code < 0x800 then [0xC0 + code / 0x40, 0x80 + code % 0x40]
  else if code < 0x10000 then
    [0xE0 + code / 0x1000, 0x80 + code / 0x40 % 0x40, 0x80 + code % 0x40]
  else
    [0xF0 + code / 0x40000, 0x80 + code / 0x1000 % 0x40, 0x80 + code / 0x40 % 0x40,
      0x80 + code % 0x40]

/-- The bytes of a text. -/
def encode (text : String) : List UInt8 :=
  (text.toList.flatMap encodeChar).map UInt8.ofNat

end ModuleGraph.Text
