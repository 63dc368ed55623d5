import DocOutline.Number.Binary64

/-!
# JSON values

Integers are unbounded, other numbers are binary floating-point numbers, and the members of an object keep
the order in which they were written. Beside the type stand the two questions that are asked of any value:
whether it counts as present, and whether it equals another.

Values are nested, and what goes through them by recursion takes a frame of the stack for each level. How many there are is a
matter of the interpreter and of its callers, so it is a parameter (`Limit`).
-/

namespace DocOutline

/-- A JSON value. -/
inductive Json where
  | null
  | bool (b : Bool)
  | int (n : Int)
  | real (x : Binary64)
  | str (s : String)
  | arr (items : List Json)
  | obj (members : List (String × Json))
deriving Repr, Inhabited

/-- How deep a recursion may go. Without a number there is no limit. -/
abbrev Limit := Option Nat

/-- Whether a recursion may go into what lies in `depth` others. -/
def Limit.allows (limit : Limit) (depth : Nat) : Bool := limit.all (depth < ·)

@[simp] theorem Limit.allows_none (depth : Nat) : Limit.allows none depth = true := rfl

namespace Json

def strings (texts : List String) : Json := arr (texts.map str)

def nat (n : Nat) : Json := int n

/-- The value, or null for none. -/
def ofOption (value : Option Json) : Json := value.getD null

/-- The member of an object with a given name. No other value has members. -/
def member? (name : String) : Json → Option Json
  | obj members => members.lookup name
  | _ => none

/-- Whether a value counts as present: null, false, zero and what is empty do not. -/
def isPresent : Json → Bool
  | null => false
  | bool b => b
  | int n => n ≠ 0
  | real x => x.magnitude ≠ 0
  | str s => s ≠ ""
  | arr items => !items.isEmpty
  | obj members => !members.isEmpty

/-- A number in units of the smallest floating-point number. A truth value counts as zero or one; infinity and
what is no number have no such measure. -/
def measure? : Json → Option Int
  | bool b => some (if b then Binary64.unitsPerOne else 0)
  | int n => some (n * Binary64.unitsPerOne)
  | real x => if x.isFinite then some x.signedUnits else none
  | _ => none

mutual

/-- Whether two values are equal: numbers by what they measure, objects regardless of the order of their
members. -/
def same : Json → Json → Bool
  | arr a, arr b => sameItems a b
  | obj a, obj b => a.length == b.length && sameMembers a b
  | null, null => true
  | str s, str t => s == t
  | a, b =>
    match measure? a, measure? b with
    | some m, some n => m == n
    | _, _ =>
      match a, b with
      | real x, real y => x.magnitude == Binary64.infinity && x == y
      | _, _ => false
termination_by structural a => a

/-- Whether two arrays are equal item by item. -/
def sameItems : List Json → List Json → Bool
  | [], [] => true
  | a :: as, b :: bs => same a b && sameItems as bs
  | _, _ => false
termination_by structural as => as

/-- Whether each member is equal to the one of the same name in another object. -/
def sameMembers : List (String × Json) → List (String × Json) → Bool
  | [], _ => true
  | (name, a) :: as, other =>
    (match other.lookup name with
      | some b => same a b
      | none => false) && sameMembers as other
termination_by structural as => as

end

end Json

end DocOutline
