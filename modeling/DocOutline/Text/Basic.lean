/-!
# Characters, words and numbers

Texts are stripped and split at their white space, and an integer is read from the decimal digits of any script.
-/

namespace DocOutline.Text

/-! ## Character classes

A class of characters is a table of ascending, disjoint ranges of code points. The white space of this
library is here, since it is short; the larger classes have modules of their own.
-/

/-- Whether a code point lies in one of the ascending ranges. -/
def inRanges : List (Nat × Nat) → Nat → Bool
  | [], _ => false
  | (first, last) :: rest, n => if n < first then false else n ≤ last || inRanges rest n

/-- The code points of white space: those of bidirectional class B, S or WS and of category Zs. -/
def blankRanges : List (Nat × Nat) := [
  (0x9, 0xD), (0x1C, 0x20), (0x85, 0x85), (0xA0, 0xA0), (0x1680, 0x1680), (0x2000, 0x200A),
  (0x2028, 0x2029), (0x202F, 0x202F), (0x205F, 0x205F), (0x3000, 0x3000)]

def isBlank (c : Char) : Bool := inRanges blankRanges c.toNat

/-! ## Stripping, splitting and finding

White space at the ends of a text, the words between white space, and one text inside another.
-/

/-- The text without the white space at its ends. -/
def strip (s : String) : String :=
  String.ofList ((s.toList.dropWhile isBlank).reverse.dropWhile isBlank).reverse

/-- Whether a text holds nothing but white space. -/
def isBlankText (s : String) : Bool := s.toList.all isBlank

/-- The words of a text that `word`, read so far and written backwards, is in front of. -/
def wordsAfter : (word : List Char) → List Char → List String
  | word, [] => if word.isEmpty then [] else [String.ofList word.reverse]
  | word, c :: rest =>
    if isBlank c then
      if word.isEmpty then wordsAfter [] rest else String.ofList word.reverse :: wordsAfter [] rest
    else wordsAfter (c :: word) rest

/-- The words of a text: its longest stretches without white space, from left to right. -/
def words (s : String) : List String := wordsAfter [] s.toList

/-- Whether `part` stands somewhere in a list. -/
def occursIn [BEq α] (part : List α) : List α → Bool
  | [] => part.isEmpty
  | a :: rest => part.isPrefixOf (a :: rest) || occursIn part rest

/-- Whether the first text stands somewhere in the second. -/
def isPartOf (part s : String) : Bool := occursIn part.toList s.toList

def countChar (c : Char) (s : String) : Nat := s.toList.count c

theorem occursIn_iff_isInfix [BEq α] [LawfulBEq α] {part s : List α} : occursIn part s ↔ part <:+: s := by
  induction s with
  | nil => simp [occursIn]
  | cons a rest ih => simp [occursIn, ih, List.infix_cons_iff]

/-! ## Decimal digits

Every script's decimal digits come in a run of ten, from zero to nine, so the table lists the zeros.
-/

/-- The code points of the digit zero in each script. -/
def zeroDigits : List Nat := [
  0x30, 0x660, 0x6F0, 0x7C0, 0x966, 0x9E6, 0xA66, 0xAE6, 0xB66, 0xBE6, 0xC66, 0xCE6, 0xD66, 0xDE6,
  0xE50, 0xED0, 0xF20, 0x1040, 0x1090, 0x17E0, 0x1810, 0x1946, 0x19D0, 0x1A80, 0x1A90, 0x1B50,
  0x1BB0, 0x1C40, 0x1C50, 0xA620, 0xA8D0, 0xA900, 0xA9D0, 0xA9F0, 0xAA50, 0xABF0, 0xFF10, 0x104A0,
  0x10D30, 0x11066, 0x110F0, 0x11136, 0x111D0, 0x112F0, 0x11450, 0x114D0, 0x11650, 0x116C0,
  0x11730, 0x118E0, 0x11950, 0x11C50, 0x11D50, 0x11DA0, 0x16A60, 0x16AC0, 0x16B50, 0x1D7CE,
  0x1D7D8, 0x1D7E2, 0x1D7EC, 0x1D7F6, 0x1E140, 0x1E2F0, 0x1E950, 0x1FBF0]

def digitValue? (c : Char) : Option Nat :=
  (zeroDigits.find? fun first => first ≤ c.toNat && c.toNat < first + 10).map (c.toNat - ·)

/-! ## Integers in texts

An integer is written with decimal digits of any script, single underscores between digits, a sign in front
and white space around. Texts of more than `maxDigits` digits are refused, and so are numbers that would need more.
-/

/-- The longest number that is read or written, in digits. -/
def maxDigits : Nat := 4300

/-- The white space that may stand around a number: the ASCII separators U+001C to U+001F are no part of it. -/
def isNumberBlank (c : Char) : Bool := isBlank c && !(0x1C ≤ c.toNat && c.toNat ≤ 0x1F)

/-- Why a text is no integer. -/
inductive IntegerError where
  | malformed
  | tooLong (digits : Nat)
deriving DecidableEq, Repr

/-- The message about a number of too many digits. -/
def longIntegerMessage (digits : Nat) : String :=
  s!"Exceeds the limit ({maxDigits} digits) for integer string conversion: " ++
    s!"value has {digits} digits; use sys.set_int_max_str_digits() to increase the limit"

/-- The message about a number that has too many digits to be written. -/
def unwritableIntegerMessage : String :=
  s!"Exceeds the limit ({maxDigits} digits) for integer string conversion; " ++
    "use sys.set_int_max_str_digits() to increase the limit"

/-- Reads the digits at the front. `value` and `digits` are those read so far, and `afterDigit` tells that an
underscore or the end of the digits may come next. What follows the digits is left. -/
def digitsAfter : (value digits : Nat) → (afterDigit : Bool) → List Char → Option (Nat × Nat × List Char)
  | value, digits, afterDigit, [] => if afterDigit then some (value, digits, []) else none
  | value, digits, afterDigit, c :: rest =>
    if c = '_' then if afterDigit then digitsAfter value digits false rest else none
    else
      match digitValue? c with
      | some d => digitsAfter (value * 10 + d) (digits + 1) true rest
      | none => if afterDigit then some (value, digits, c :: rest) else none

/-- The number that unsigned digits stand for. Too many digits are refused whatever follows them. -/
def natural? (s : List Char) : Except IntegerError Nat :=
  match digitsAfter 0 0 false s with
  | none => .error .malformed
  | some (value, digits, rest) =>
    if maxDigits < digits then .error (.tooLong digits)
    else if rest.isEmpty then .ok value
    else .error .malformed

def integer? (s : String) : Except IntegerError Int :=
  let inner := ((s.toList.dropWhile isNumberBlank).reverse.dropWhile isNumberBlank).reverse
  match inner with
  | '-' :: digits => (natural? digits).map fun n => -(n : Int)
  | '+' :: digits => (natural? digits).map Int.ofNat
  | digits => (natural? digits).map Int.ofNat

end DocOutline.Text
