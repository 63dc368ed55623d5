import DocOutline.Json.Basic
import DocOutline.Number.Binary64
import DocOutline.Text.Basic
import DocOutline.Text.Quoted

/-!
# JSON text

A value is written in pure ASCII: whatever is not printable ASCII stands as an escape, beyond the basic plane
as a pair of them. Two styles differ in white space alone. `pretty` gives each item and member a line of its
own, two spaces deeper than its container; `line` keeps all on one line.

Integers of more than `Text.maxDigits` digits are not written, and neither are arrays and objects that lie in too many others. A
file that is written piece by piece then ends in front of the first of them (`draft`).
-/

namespace DocOutline.Json

/-- Where white space goes. Both fields take the depth of the items. -/
structure Style where
  /-- After an opening bracket, and before a closing one at the depth of its container. -/
  inside : Nat → List Char
  /-- After a comma. -/
  between : Nat → List Char

/-- A line feed, and two spaces for each level. -/
def newLine (depth : Nat) : List Char := '\n' :: List.replicate (2 * depth) ' '

def Style.pretty : Style := ⟨newLine, newLine⟩

def Style.line : Style := ⟨fun _ => [], fun _ => [' ']⟩

def unicodeEscape (n : Nat) : List Char := '\\' :: 'u' :: Text.hexDigits 4 n

/-- A character inside a string literal. -/
def escapeChar (c : Char) : List Char :=
  if c = '"' ∨ c = '\\' then ['\\', c]
  else if c = '\n' then ['\\', 'n']
  else if c = '\r' then ['\\', 'r']
  else if c = '\t' then ['\\', 't']
  else if c.toNat = 0x0C then ['\\', 'f']
  else if c.toNat = 0x08 then ['\\', 'b']
  else if 0x20 ≤ c.toNat ∧ c.toNat < 0x7F then [c]
  else if c.toNat < 0x10000 then unicodeEscape c.toNat
  else
    unicodeEscape (0xD800 + (c.toNat - 0x10000) / 0x400) ++
      unicodeEscape (0xDC00 + (c.toNat - 0x10000) % 0x400)

def stringLiteral (s : String) : List Char := '"' :: s.toList.flatMap escapeChar ++ ['"']

def integerText (n : Int) : List Char :=
  if n < 0 then '-' :: Nat.toDigits 10 n.natAbs else Nat.toDigits 10 n.natAbs

/-- A floating-point number as a JSON number, or as one of three words if it is not finite. -/
def realText (x : Binary64) : List Char :=
  if x.isFinite then x.finiteText
  else if x.magnitude = Binary64.infinity then
    (if x.negative then "-Infinity" else "Infinity").toList
  else "NaN".toList

mutual

/-- A value that stands at a depth. -/
def render (style : Style) : (depth : Nat) → Json → List Char
  | _, null => "null".toList
  | _, bool b => (if b then "true" else "false").toList
  | _, int n => integerText n
  | _, real x => realText x
  | _, str s => stringLiteral s
  | _, arr [] => ['[', ']']
  | depth, arr (item :: items) =>
    '[' :: style.inside (depth + 1) ++ render style (depth + 1) item ++ renderItems style (depth + 1) items ++
      style.inside depth ++ [']']
  | _, obj [] => ['\x7b', '\x7d']
  | depth, obj ((name, value) :: members) =>
    '\x7b' :: style.inside (depth + 1) ++ stringLiteral name ++ ':' :: ' ' :: render style (depth + 1) value ++
      renderMembers style (depth + 1) members ++ style.inside depth ++ ['\x7d']
termination_by structural _ value => value

/-- The items of an array after its first. -/
def renderItems (style : Style) : (depth : Nat) → List Json → List Char
  | _, [] => []
  | depth, item :: items =>
    ',' :: style.between depth ++ render style depth item ++ renderItems style depth items
termination_by structural _ items => items

/-- The members of an object after its first. -/
def renderMembers (style : Style) : (depth : Nat) → List (String × Json) → List Char
  | _, [] => []
  | depth, (name, value) :: members =>
    ',' :: style.between depth ++ stringLiteral name ++ ':' :: ' ' :: render style depth value ++
      renderMembers style depth members
termination_by structural _ members => members

end

def pretty (value : Json) : String := String.ofList (render .pretty 0 value)

def line (value : Json) : String := String.ofList (render .line 0 value)

def isWritable (n : Int) : Bool := (Nat.toDigits 10 n.natAbs).length ≤ Text.maxDigits

def isUnwritable : Json → Bool
  | int n => !isWritable n
  | _ => false

/-- Why writing stops. -/
inductive Stop where
  /-- An integer has too many digits. -/
  | longInteger
  /-- An array or object lies in too many others. -/
  | tooDeep
deriving DecidableEq, Repr

/-- What was written of a value, and why no more of it was. -/
structure Draft where
  text : List Char
  stop? : Option Stop
deriving DecidableEq, Repr

namespace Draft

def complete (draft : Draft) : Bool := draft.stop?.isNone

def ofText (text : List Char) : Draft := ⟨text, none⟩

def stopped (stop : Stop) : Draft := ⟨[], some stop⟩

/-- Goes on to write behind a draft, unless writing has stopped. -/
def andThen (draft next : Draft) : Draft :=
  if draft.complete then ⟨draft.text ++ next.text, next.stop?⟩ else draft

/-- The draft of an item with what is in front of it. An integer is one piece with that. -/
def ofItem (before : List Char) (item : Json) (draft : Draft) : Draft :=
  if item.isUnwritable then stopped .longInteger else (ofText before).andThen draft

def ofMember (before : List Char) (name : String) (draft : Draft) : Draft :=
  (ofText (before ++ stringLiteral name ++ [':', ' '])).andThen draft

/-- The draft of an array or object that lies in `depth` others. -/
def ofContainer (limit : Limit) (depth : Nat) (draft : Draft) : Draft :=
  if limit.allows depth then draft else stopped .tooDeep

end Draft

mutual

/-- What is written of a value at a depth. -/
def draft (limit : Limit) (style : Style) : (depth : Nat) → Json → Draft
  | _, int n => if isWritable n then .ofText (integerText n) else .stopped .longInteger
  | depth, arr [] => .ofContainer limit depth (.ofText ['[', ']'])
  | depth, arr (item :: items) =>
    .ofContainer limit depth
      ((Draft.ofItem ('[' :: style.inside (depth + 1)) item (draft limit style (depth + 1) item)).andThen
        ((draftItems limit style (depth + 1) items).andThen (.ofText (style.inside depth ++ [']']))))
  | depth, obj [] => .ofContainer limit depth (.ofText ['\x7b', '\x7d'])
  | depth, obj ((name, value) :: members) =>
    .ofContainer limit depth
      ((Draft.ofMember ('\x7b' :: style.inside (depth + 1)) name (draft limit style (depth + 1) value)).andThen
        ((draftMembers limit style (depth + 1) members).andThen (.ofText (style.inside depth ++ ['\x7d']))))
  | depth, value => .ofText (render style depth value)
termination_by structural _ value => value

/-- What is written of the items of an array after its first. -/
def draftItems (limit : Limit) (style : Style) : (depth : Nat) → List Json → Draft
  | _, [] => .ofText []
  | depth, item :: items =>
    (Draft.ofItem (',' :: style.between depth) item (draft limit style depth item)).andThen
      (draftItems limit style depth items)
termination_by structural _ items => items

/-- What is written of the members of an object after its first. -/
def draftMembers (limit : Limit) (style : Style) : (depth : Nat) → List (String × Json) → Draft
  | _, [] => .ofText []
  | depth, (name, value) :: members =>
    (Draft.ofMember (',' :: style.between depth) name (draft limit style depth value)).andThen
      (draftMembers limit style depth members)
termination_by structural _ members => members

end

end DocOutline.Json
