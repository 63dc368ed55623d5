import DocOutline.Text.Basic

/-!
# Bytes and lines of texts

Offsets and lengths in this library count bytes of UTF-8. What is here goes from a text to its bytes and back,
and from an offset to its line.
-/

namespace DocOutline.Text

/-! ## Bytes and UTF-8

Offsets and lengths in this library count bytes of UTF-8. A text is encoded by `encode`. Bytes are decoded in
two ways that share one step, `firstSequence`: `decode` puts U+FFFD for every maximal ill-formed
subsequence, `decode?` stops at the first one and says where it is and what is wrong with it.
-/

/-- A text in memory or in a file, byte by byte. -/
abbrev Bytes := List UInt8

def encode (s : String) : Bytes := s.toByteArray.data.toList

/-- The bytes from `start` up to `stop`; none if `stop` does not exceed `start`. -/
def slice (bytes : Bytes) (start stop : Nat) : Bytes := (bytes.drop start).take (stop - start)

/-- What is wrong with an ill-formed subsequence. -/
inductive Utf8Flaw where
  | startByte
  | continuationByte
  | unexpectedEnd
deriving DecidableEq, Repr

/-- How a byte sequence begins. The count says how many bytes after the first one belong to it. -/
inductive Sequence where
  | char (c : Char) (more : Nat)
  | flaw (flaw : Utf8Flaw) (more : Nat)

/-- Reads `need` continuation bytes. The first one has to lie between `low` and `high`, which keeps out
overlong forms, surrogates and values above U+10FFFF. -/
def continued : (need : Nat) → (low high : UInt8) → (value more : Nat) → Bytes → Sequence
  | 0, _, _, value, more, _ => .char (Char.ofNat value) more
  | _ + 1, _, _, _, more, [] => .flaw .unexpectedEnd more
  | need + 1, low, high, value, more, b :: rest =>
    if low ≤ b ∧ b ≤ high then
      continued need 0x80 0xBF (value * 64 + (b.toNat - 0x80)) (more + 1) rest
    else .flaw .continuationByte more

/-- The first character of `b :: rest`, or its first flaw. -/
def firstSequence (b : UInt8) (rest : Bytes) : Sequence :=
  if b < 0x80 then .char (Char.ofNat b.toNat) 0
  else if b < 0xC2 then .flaw .startByte 0
  else if b < 0xE0 then continued 1 0x80 0xBF (b.toNat - 0xC0) 0 rest
  else if b < 0xF0 then
    continued 2 (if b = 0xE0 then 0xA0 else 0x80) (if b = 0xED then 0x9F else 0xBF) (b.toNat - 0xE0) 0 rest
  else if b < 0xF5 then
    continued 3 (if b = 0xF0 then 0x90 else 0x80) (if b = 0xF4 then 0x8F else 0xBF) (b.toNat - 0xF0) 0 rest
  else .flaw .startByte 0

def replacement : Char := '\uFFFD'

/-- Decodes after `skip` bytes, onto the characters read so far, the latest first. -/
def decodeOnto : (skip : Nat) → (read : List Char) → Bytes → List Char
  | _, read, [] => read.reverse
  | skip + 1, read, _ :: rest => decodeOnto skip read rest
  | 0, read, b :: rest =>
    match firstSequence b rest with
    | .char c more => decodeOnto more (c :: read) rest
    | .flaw _ more => decodeOnto more (replacement :: read) rest

/-- The text of bytes that may be ill-formed, with U+FFFD in place of each maximal ill-formed subsequence. -/
def decode (bytes : Bytes) : String := String.ofList (decodeOnto 0 [] bytes)

/-- Where bytes are no UTF-8: the ill-formed bytes, their position, and the reason. -/
structure Utf8Error where
  flaw : Utf8Flaw
  position : Nat
  bad : Bytes
deriving Repr

/-- The first ill-formed subsequence of bytes that stand at `position`, after `skip` of them. -/
def firstError? : (skip position : Nat) → Bytes → Option Utf8Error
  | _, _, [] => none
  | skip + 1, position, _ :: rest => firstError? skip (position + 1) rest
  | 0, position, b :: rest =>
    match firstSequence b rest with
    | .char _ more => firstError? more (position + 1) rest
    | .flaw flaw more => some ⟨flaw, position, b :: rest.take more⟩

/-- The text of well-formed bytes. -/
def decode? (bytes : Bytes) : Except Utf8Error String :=
  match firstError? 0 0 bytes with
  | some error => .error error
  | none => .ok (decode bytes)

/-- Line ends as a reader of text files sees them: `seenReturn` tells that the character before was a
carriage return, which has been taken for a line feed already. -/
def unifyLineEndsOnto : (seenReturn : Bool) → (read : List Char) → List Char → List Char
  | _, read, [] => read.reverse
  | seenReturn, read, c :: rest =>
    if c = '\r' then unifyLineEndsOnto true ('\n' :: read) rest
    else if c = '\n' ∧ seenReturn then unifyLineEndsOnto false read rest
    else unifyLineEndsOnto false (c :: read) rest

/-- Turns `\r\n` and a lone `\r` into `\n`. -/
def unifyLineEnds (s : String) : String := String.ofList (unifyLineEndsOnto false [] s.toList)

theorem encode_append (s t : String) : encode (s ++ t) = encode s ++ encode t := by
  simp [encode]

theorem encode_ofList (cs : List Char) : encode (String.ofList cs) = cs.flatMap String.utf8EncodeChar := by
  simp [encode, List.utf8Encode]

theorem length_encode (s : String) : (encode s).length = s.utf8ByteSize := rfl

end DocOutline.Text

namespace DocOutline

/-! ## Lines

The places in a text where lines start, counted in bytes, and the lines of offsets. Lines count from zero, and
an offset outside the text stands for the nearest one inside.
-/

/-- The lines of a text (`LineIndex`, specification, section 10.5). -/
structure Lines where
  /-- The length of the text. -/
  length : Nat
  /-- The first byte of each line, in ascending order. -/
  starts : List Nat
deriving Repr

namespace Lines

/-- The offsets behind the line feeds in bytes, the first of which stands at `position`. -/
def startsAfter : (position : Nat) → Text.Bytes → List Nat
  | _, [] => []
  | position, b :: rest =>
    if b = 0x0A then (position + 1) :: startsAfter (position + 1) rest else startsAfter (position + 1) rest

def ofText (text : String) : Lines :=
  let bytes := Text.encode text
  ⟨bytes.length, 0 :: startsAfter 0 bytes⟩

/-- The offset inside the text that is nearest to a given one. -/
def clamp (lines : Lines) (offset : Int) : Nat := min offset.toNat lines.length

/-- The line of an offset (`line_of`). -/
def lineOf (lines : Lines) (offset : Int) : Nat :=
  (lines.starts.takeWhile (· ≤ lines.clamp offset)).length - 1

/-- The line of an offset, and its distance from the line's start (`position`). -/
def position (lines : Lines) (offset : Int) : Nat × Nat :=
  let line := lines.lineOf offset
  (line, lines.clamp offset - lines.starts.getD line 0)

/-- The line of the last byte of a span (`end_line_of`). -/
def endLineOf (lines : Lines) (start stop : Int) : Nat := lines.lineOf (max start (stop - 1))

end Lines

end DocOutline
