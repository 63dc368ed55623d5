import DocOutline.Json.Access

/-!
# Reading JSON text

A reader takes the characters that are left and gives a value with the characters after it. A failure says
what was expected and how many characters were left there, from which `read` computes the position, line and
column that the message names. Beyond the standard, `NaN`, `Infinity` and `-Infinity` are numbers; half of a
surrogate pair on its own reads as U+FFFD. Reading goes into arrays and objects by recursion, which ends at the limit that it
is given.
-/

namespace DocOutline.Json

/-- What is wrong with a text that is no JSON. -/
inductive Reason where
  | expectedValue
  | expectedName
  | expectedColon
  | expectedComma
  | unterminatedString
  | controlCharacter
  | badEscape
  | badUnicodeEscape
  | extraData
  | byteOrderMark
deriving DecidableEq, Repr

/-- The words for a reason. -/
def Reason.words : Reason → String
  | expectedValue => "Expecting value"
  | expectedName => "Expecting property name enclosed in double quotes"
  | expectedColon => "Expecting ':' delimiter"
  | expectedComma => "Expecting ',' delimiter"
  | unterminatedString => "Unterminated string starting at"
  | controlCharacter => "Invalid control character at"
  | badEscape => "Invalid \\escape"
  | badUnicodeEscape => "Invalid \\uXXXX escape"
  | extraData => "Extra data"
  | byteOrderMark => "Unexpected UTF-8 BOM (decode using utf-8-sig)"

/-- Why reading stopped: at a place that is told by the number of characters left there, because of an
integer of too many digits, or in front of an array or object that lies in too many others. -/
inductive Failure where
  | at (reason : Reason) (left : Nat)
  | longInteger (digits : Nat)
  | tooDeep
deriving DecidableEq, Repr

/-- Whether a character may stand between tokens. -/
def isGap (c : Char) : Bool := c = ' ' || c = '\t' || c = '\n' || c = '\r'

def skipGap (s : List Char) : List Char := s.dropWhile isGap

/-- The value of a hexadecimal digit. -/
def hexValue? (c : Char) : Option Nat :=
  if '0' ≤ c ∧ c ≤ '9' then some (c.toNat - '0'.toNat)
  else if 'a' ≤ c ∧ c ≤ 'f' then some (c.toNat - 'a'.toNat + 10)
  else if 'A' ≤ c ∧ c ≤ 'F' then some (c.toNat - 'A'.toNat + 10)
  else none

/-- The value of four hexadecimal digits. -/
def hexValue4? (a b c d : Char) : Option Nat := do
  let a ← hexValue? a
  let b ← hexValue? b
  let c ← hexValue? c
  let d ← hexValue? d
  some (((a * 16 + b) * 16 + c) * 16 + d)

/-- The character that an escape of one letter stands for. -/
def simpleEscape? (c : Char) : Option Char :=
  if c = '"' ∨ c = '\\' ∨ c = '/' then some c
  else if c = 'b' then some '\x08'
  else if c = 'f' then some '\x0c'
  else if c = 'n' then some '\n'
  else if c = 'r' then some '\r'
  else if c = 't' then some '\t'
  else none

/-- Whether a code unit is the first half of a surrogate pair. -/
def isHighSurrogate (n : Nat) : Bool := 0xD800 ≤ n && n ≤ 0xDBFF

/-- Whether a code unit is the second half of a surrogate pair. -/
def isLowSurrogate (n : Nat) : Bool := 0xDC00 ≤ n && n ≤ 0xDFFF

def pairChar (high low : Nat) : Char := Char.ofNat (0x10000 + (high - 0xD800) * 0x400 + (low - 0xDC00))

/-- The characters read so far and, if the last one was the first half of a surrogate pair that nothing
completes, U+FFFD for it. -/
def settle (pending : Option Nat) (read : List Char) : List Char :=
  match pending with
  | none => read
  | some _ => '\uFFFD' :: read

/-- Adds a code unit to the characters read so far, the latest first. The first half of a surrogate pair is
kept pending, since the next unit may complete it. -/
def addUnit (n : Nat) (pending : Option Nat) (read : List Char) : Option Nat × List Char :=
  if isHighSurrogate n then (some n, settle pending read)
  else if isLowSurrogate n then
    match pending with
    | some high => (none, pairChar high n :: read)
    | none => (none, '\uFFFD' :: read)
  else (none, Char.ofNat n :: settle pending read)

/-- Reads a string literal after its opening quote, with which the characters `start` begin. -/
def readString (start : List Char) : (pending : Option Nat) → (read : List Char) → List Char →
    Except Failure (String × List Char)
  | _, _, [] => .error (.at .unterminatedString start.length)
  | pending, read, '"' :: rest => .ok (String.ofList (settle pending read).reverse, rest)
  | _, _, ['\\'] => .error (.at .unterminatedString start.length)
  | pending, read, '\\' :: 'u' :: a :: b :: c :: d :: rest =>
    match hexValue4? a b c d, rest with
    | some unit, _ :: _ =>
      let (pending, read) := addUnit unit pending read
      readString start pending read rest
    | _, _ => .error (.at .badUnicodeEscape (rest.length + 5))
  | _, _, '\\' :: 'u' :: rest => .error (.at .badUnicodeEscape (rest.length + 1))
  | pending, read, '\\' :: c :: rest =>
    match simpleEscape? c with
    | some c => readString start none (c :: settle pending read) rest
    | none => .error (.at .badEscape (rest.length + 2))
  | pending, read, c :: rest =>
    if c.toNat < 0x20 then .error (.at .controlCharacter (rest.length + 1))
    else readString start none (c :: settle pending read) rest

def decimalValue (digits : List Char) : Nat := digits.foldl (fun n c => n * 10 + (c.toNat - '0'.toNat)) 0

def integerValue (negative : Bool) (digits : List Char) : Except Failure Json :=
  if Text.maxDigits < digits.length then .error (.longInteger digits.length)
  else .ok (int (if negative then -(decimalValue digits : Int) else decimalValue digits))

/-- The digits of an exponent with its sign, if there are some. -/
def exponent? : List Char → Option (Int × List Char)
  | e :: rest =>
    if e = 'e' ∨ e = 'E' then
      let (negative, digits) := match rest with
        | '-' :: digits => (true, digits)
        | '+' :: digits => (false, digits)
        | digits => (false, digits)
      match digits.takeWhile Char.isDigit with
      | [] => none
      | shown =>
        some (if negative then -(decimalValue shown : Int) else decimalValue shown,
          digits.dropWhile Char.isDigit)
    else none
  | [] => none

/-- The digits after a point, if there are some. -/
def fraction? : List Char → Option (List Char × List Char)
  | '.' :: digits =>
    match digits.takeWhile Char.isDigit with
    | [] => none
    | shown => some (shown, digits.dropWhile Char.isDigit)
  | _ => none

/-- A number whose digits before the point are given: an integer unless a fraction or an exponent follows. -/
def readNumberAfter (negative : Bool) (whole rest : List Char) : Except Failure (Json × List Char) :=
  match fraction? rest with
  | some (shown, rest) =>
    let (exponent, rest) := (exponent? rest).getD (0, rest)
    .ok (real (.ofDecimal negative (decimalValue (whole ++ shown)) (exponent - shown.length)), rest)
  | none =>
    match exponent? rest with
    | some (exponent, rest) => .ok (real (.ofDecimal negative (decimalValue whole) exponent), rest)
    | none => (integerValue negative whole).map fun value => (value, rest)

/-- Reads a number without its sign. The number began with the characters `start`. -/
def readUnsigned (start : List Char) (negative : Bool) : List Char → Except Failure (Json × List Char)
  | '0' :: rest => readNumberAfter negative ['0'] rest
  | c :: rest =>
    if c.isDigit then
      readNumberAfter negative (c :: rest.takeWhile Char.isDigit) (rest.dropWhile Char.isDigit)
    else .error (.at .expectedValue start.length)
  | [] => .error (.at .expectedValue start.length)

/-- Reads a number or one of the words that stand for a value. -/
def readPlain (s : List Char) : Except Failure (Json × List Char) :=
  match s with
  | 'n' :: 'u' :: 'l' :: 'l' :: rest => .ok (null, rest)
  | 't' :: 'r' :: 'u' :: 'e' :: rest => .ok (bool true, rest)
  | 'f' :: 'a' :: 'l' :: 's' :: 'e' :: rest => .ok (bool false, rest)
  | 'N' :: 'a' :: 'N' :: rest => .ok (real .notANumber, rest)
  | 'I' :: 'n' :: 'f' :: 'i' :: 'n' :: 'i' :: 't' :: 'y' :: rest => .ok (real ⟨false, Binary64.infinity⟩, rest)
  | '-' :: 'I' :: 'n' :: 'f' :: 'i' :: 'n' :: 'i' :: 't' :: 'y' :: rest =>
    .ok (real ⟨true, Binary64.infinity⟩, rest)
  | '-' :: rest => readUnsigned s true rest
  | s => readUnsigned s false s

/-- Sets a member: in its old place if the name is there already, else at the end. -/
def setMember (name : String) (value : Json) : List (String × Json) → List (String × Json)
  | [] => [(name, value)]
  | (other, old) :: rest =>
    if other = name then (name, value) :: rest else (other, old) :: setMember name value rest

def expectChar (c : Char) (reason : Reason) : List Char → Except Failure (List Char)
  | d :: rest => if d = c then .ok rest else .error (.at reason (rest.length + 1))
  | [] => .error (.at reason 0)

/-- Reads the name of a member and the colon after it. -/
def readName (s : List Char) : Except Failure (String × List Char) := do
  let inner ← expectChar '"' .expectedName s
  let (name, rest) ← readString s none [] inner
  let rest ← expectChar ':' .expectedColon (skipGap rest)
  .ok (name, skipGap rest)

mutual

/-- Reads a value that lies in `depth` others. One unit of `fuel` goes to each value and one to each item or member around it.
An item or member has at least one character of its own in front of it, so twice the number of characters is enough. -/
def readValue (limit : Limit) : (depth fuel : Nat) → List Char → Except Failure (Json × List Char)
  | _, 0, s => .error (.at .expectedValue s.length)
  | depth, fuel + 1, s =>
    match s with
    | '"' :: rest => (readString s none [] rest).map fun (text, rest) => (str text, rest)
    | '[' :: rest =>
      if limit.allows depth then
        match skipGap rest with
        | ']' :: rest => .ok (arr [], rest)
        | rest => readItems limit (depth + 1) fuel [] rest
      else .error .tooDeep
    | '\x7b' :: rest =>
      if limit.allows depth then
        match skipGap rest with
        | '\x7d' :: rest => .ok (obj [], rest)
        | rest => readMembers limit (depth + 1) fuel [] rest
      else .error .tooDeep
    | s => readPlain s

/-- Reads the items of an array that are left, after those read, the latest first. -/
def readItems (limit : Limit) : (depth fuel : Nat) → (read : List Json) → List Char → Except Failure (Json × List Char)
  | _, 0, _, s => .error (.at .expectedValue s.length)
  | depth, fuel + 1, read, s => do
    let (item, rest) ← readValue limit depth fuel s
    match skipGap rest with
    | ']' :: rest => .ok (arr (item :: read).reverse, rest)
    | rest =>
      let rest ← expectChar ',' .expectedComma rest
      readItems limit depth fuel (item :: read) (skipGap rest)

/-- Reads the members of an object that are left, after those read. -/
def readMembers (limit : Limit) :
    (depth fuel : Nat) → (read : List (String × Json)) → List Char → Except Failure (Json × List Char)
  | _, 0, _, s => .error (.at .expectedName s.length)
  | depth, fuel + 1, read, s => do
    let (name, rest) ← readName s
    let (value, rest) ← readValue limit depth fuel rest
    let read := setMember name value read
    match skipGap rest with
    | '\x7d' :: rest => .ok (obj read, rest)
    | rest =>
      let rest ← expectChar ',' .expectedComma rest
      readMembers limit depth fuel read (skipGap rest)

end

/-- Why a text is no JSON document, or none that can be read. -/
inductive ReadError where
  /-- The text breaks the grammar at a position, which is also given by line and column. -/
  | at (reason : Reason) (line column position : Nat)
  | longInteger (digits : Nat)
  /-- The stack has no room for an array or object that lies in so many others. -/
  | tooDeep
deriving DecidableEq, Repr

/-- The message about a text that is no JSON document. -/
def ReadError.message : ReadError → String
  | .at reason line column position =>
    s!"{reason.words}: line {line} column {column} (char {position})"
  | .longInteger digits => Text.longIntegerMessage digits
  | .tooDeep => Fault.tooDeep.message

/-- The error at the place where `left` characters of a text are left. -/
def ReadError.ofFailure (s : List Char) : Failure → ReadError
  | .longInteger digits => .longInteger digits
  | .tooDeep => .tooDeep
  | .at reason left =>
    let before := s.take (s.length - left)
    .at reason (before.count '\n' + 1) ((before.reverse.takeWhile (· ≠ '\n')).length + 1) before.length

/-- Reads a document: one value with white space around it. -/
def readDocument (limit : Limit) (s : List Char) : Except Failure Json :=
  match s with
  | '\uFEFF' :: _ => .error (.at .byteOrderMark s.length)
  | s => do
    let (value, rest) ← readValue limit 0 (2 * s.length + 1) (skipGap s)
    match skipGap rest with
    | [] => .ok value
    | rest => .error (.at .extraData rest.length)

/-- The value that a text stands for, if arrays and objects in it are not nested too deep. -/
def readWithin (limit : Limit) (s : String) : Except ReadError Json :=
  (readDocument limit s.toList).mapError (ReadError.ofFailure s.toList)

/-- The value that a text stands for. -/
def read (s : String) : Except ReadError Json := readWithin none s

end DocOutline.Json
