import DocOutline.Json.Printer
import DocOutline.Text.Basic

/-!
# Values as operations use them

How a value is shown inside a message, and what the operations on values give or complain about.
-/

namespace DocOutline.Json

/-! ## Values in messages

How a value is shown inside a message: texts in quotes, lists and objects with their items after commas, and
the words of the program's own messages for null, truth values and the types of values.
-/

/-- The word for the type of a value. -/
def typeWord : Json → String
  | null => "NoneType"
  | bool _ => "bool"
  | int _ => "int"
  | real _ => "float"
  | str _ => "str"
  | arr _ => "list"
  | obj _ => "dict"

/-- A floating-point number in a message. -/
def realLiteral (x : Binary64) : String :=
  if x.isFinite then String.ofList x.finiteText
  else if x.magnitude = Binary64.infinity then (if x.negative then "-inf" else "inf")
  else "nan"

mutual

/-- A value as it is shown in a message. -/
def literal : Json → String
  | null => "None"
  | bool b => if b then "True" else "False"
  | int n => String.ofList (integerText n)
  | real x => realLiteral x
  | str s => Text.quoted s
  | arr items => "[" ++ ", ".intercalate (itemLiterals items) ++ "]"
  | obj members => "\x7b" ++ ", ".intercalate (memberLiterals members) ++ "\x7d"
termination_by structural value => value

/-- The items of a list, each as it is shown in a message. -/
def itemLiterals : List Json → List String
  | [] => []
  | item :: items => literal item :: itemLiterals items
termination_by structural items => items

/-- The members of an object, each as it is shown in a message. -/
def memberLiterals : List (String × Json) → List String
  | [] => []
  | (name, value) :: members => (Text.quoted name ++ ": " ++ literal value) :: memberLiterals members
termination_by structural members => members

end

/-- A value as part of a running text: a text stands there without quotes. -/
def display : Json → String
  | str s => s
  | value => value.literal

/-! ## Taking values apart

Stored documents may hold any JSON value where an object, a text or a number is expected. The operations here
take a value apart and say what is wrong with one of the wrong shape.
-/

/-- What is wrong with a value. `type` is always the word for the value's type. -/
inductive Fault where
  /-- An object has no member of this name. -/
  | missingMember (name : String)
  /-- A member was asked of a value that has none. -/
  | notSubscriptable (type : String)
  | listIndex
  | textIndex
  | noLength (type : String)
  | notIterable (type : String)
  | notUnpackable (type : String)
  | notContainer (type : String)
  | noOperation (type operation : String)
  | notInteger (type : String)
  | notIndex (type : String)
  | notCount (type : String)
  | notSliceEnd
  | notPath (type : String)
  | notJoinable (type : String)
  /-- A pair was expected and `count` values, none or one, were found. -/
  | tooFewValues (count : Nat)
  | tooManyValues
  | malformedInteger (text : String)
  | longInteger (digits : Nat)
  /-- An integer has too many digits to be written. -/
  | unwritableInteger
  | integerOfNothing
  | integerOfInfinity
  /-- Offsets and counts fit in 64 bits with a sign. -/
  | largeOffset
  | largeCount
  | negativeCount
  /-- So many bytes are never in memory, or cannot even be counted with what belongs to them. -/
  | noMemory
  | uncountable
  /-- A recursion has no frame left on the stack for what is nested so deep. -/
  | tooDeep
deriving DecidableEq, Repr

/-- The families of faults. That of memory is for both the heap and the stack. -/
inductive Fault.Family where
  | member
  | type
  | operation
  | value
  | overflow
  | memory
deriving DecidableEq, Repr

namespace Fault

/-- The family of a fault. -/
def family : Fault → Family
  | missingMember _ => .member
  | noOperation _ _ => .operation
  | tooFewValues _ | tooManyValues | malformedInteger _ | longInteger _ | unwritableInteger | integerOfNothing
  | largeOffset | negativeCount => .value
  | integerOfInfinity | largeCount | uncountable => .overflow
  | noMemory | tooDeep => .memory
  | _ => .type

/-- The words for a fault. -/
def message : Fault → String
  | missingMember name => Text.quoted name
  | notSubscriptable type => s!"'{type}' object is not subscriptable"
  | listIndex => "list indices must be integers or slices, not str"
  | textIndex => "string indices must be integers, not 'str'"
  | noLength type => s!"object of type '{type}' has no len()"
  | notIterable type => s!"'{type}' object is not iterable"
  | notUnpackable type => s!"cannot unpack non-iterable {type} object"
  | notContainer type => s!"argument of type '{type}' is not iterable"
  | noOperation type operation => s!"'{type}' object has no attribute '{operation}'"
  | notInteger type =>
    s!"int() argument must be a string, a bytes-like object or a real number, not '{type}'"
  | notIndex type => s!"'{type}' object cannot be interpreted as an integer"
  | notCount type => s!"argument should be integer or None, not '{type}'"
  | notSliceEnd => "slice indices must be integers or None or have an __index__ method"
  | notPath type => s!"expected str, bytes or os.PathLike object, not {type}"
  | notJoinable type => s!"unsupported operand type(s) for /: 'PosixPath' and '{type}'"
  | tooFewValues count => s!"not enough values to unpack (expected 2, got {count})"
  | tooManyValues => "too many values to unpack (expected 2)"
  | malformedInteger text =>
    "invalid literal for int() with base 10: " ++ String.ofList ((Text.quoted text).toList.take 200)
  | longInteger digits => Text.longIntegerMessage digits
  | unwritableInteger => Text.unwritableIntegerMessage
  | integerOfNothing => "cannot convert float NaN to integer"
  | integerOfInfinity => "cannot convert float infinity to integer"
  | largeOffset => "cannot fit 'int' into an offset-sized integer"
  | largeCount => "cannot fit 'int' into an index-sized integer"
  | negativeCount => "read length must be non-negative or -1"
  | noMemory => ""
  | uncountable => "byte string is too large"
  | tooDeep => "maximum recursion depth exceeded"

end Fault

/-- The member that an object has to have. -/
def member (name : String) (value : Json) : Except Fault Json :=
  match value with
  | obj members =>
    match members.lookup name with
    | some member => .ok member
    | none => .error (.missingMember name)
  | arr _ => .error .listIndex
  | str _ => .error .textIndex
  | value => .error (.notSubscriptable value.typeWord)

def optionalMember (name : String) (value : Json) : Except Fault (Option Json) :=
  match value with
  | obj members => .ok (members.lookup name)
  | value => .error (.noOperation value.typeWord "get")

/-- Whether a text is a member's name, an item or a part of the value. -/
def holds (text : String) (value : Json) : Except Fault Bool :=
  match value with
  | obj members => .ok (members.lookup text).isSome
  | arr items => .ok (items.any (same (str text)))
  | str s => .ok (Text.isPartOf text s)
  | value => .error (.notContainer value.typeWord)

/-- The number of characters, items or members. -/
def size (value : Json) : Except Fault Nat :=
  match value with
  | str s => .ok s.length
  | arr items => .ok items.length
  | obj members => .ok members.length
  | value => .error (.noLength value.typeWord)

/-- The values that a container goes through, one by one: the characters of a text, the items of an array,
the names of an object's members. -/
def elements? : Json → Option (List Json)
  | str s => some (s.toList.map fun c => str (String.singleton c))
  | arr items => some items
  | obj members => some (members.map fun (name, _) => str name)
  | _ => none

/-- The values of a container, of which there may be any number. -/
def elements (value : Json) : Except Fault (List Json) :=
  match value.elements? with
  | some values => .ok values
  | none => .error (.notIterable value.typeWord)

/-- The values of a container, of which there have to be two. -/
def pair (value : Json) : Except Fault (Json × Json) :=
  match value.elements? with
  | some [first, second] => .ok (first, second)
  | some [] => .error (.tooFewValues 0)
  | some [_] => .error (.tooFewValues 1)
  | some _ => .error .tooManyValues
  | none => .error (.notUnpackable value.typeWord)

/-- The integer that a value converts to: a truth value is zero or one, a number loses its fraction, a text is
read. -/
def toInteger (value : Json) : Except Fault Int :=
  match value with
  | bool b => .ok (if b then 1 else 0)
  | int n => .ok n
  | real x =>
    if x.isFinite then .ok x.truncate
    else if x.magnitude = Binary64.infinity then .error .integerOfInfinity
    else .error .integerOfNothing
  | str s =>
    match Text.integer? s with
    | .ok n => .ok n
    | .error .malformed => .error (.malformedInteger s)
    | .error (.tooLong digits) => .error (.longInteger digits)
  | value => .error (.notInteger value.typeWord)

/-- The integer that a value is, without conversion. -/
def integer? : Json → Option Int
  | bool b => some (if b then 1 else 0)
  | int n => some n
  | _ => none

/-- The text that a value has to be, for an operation on texts. -/
def text (operation : String) (value : Json) : Except Fault String :=
  match value with
  | str s => .ok s
  | value => .error (.noOperation value.typeWord operation)

/-- The text that a value has to be, for a path or a pattern of paths. -/
def pathText (value : Json) : Except Fault String :=
  match value with
  | str s => .ok s
  | value => .error (.notPath value.typeWord)

/-- The part of a list in front of an end: null is no end, and a negative end counts from the back. -/
def takeTo (stop : Json) (list : List α) : Except Fault (List α) :=
  match stop with
  | null => .ok list
  | stop =>
    match stop.integer? with
    | some n => .ok (list.take (if n < 0 then (list.length + n).toNat else n.toNat))
    | none => .error .notSliceEnd

end DocOutline.Json
