import DocOutline.Symbol.Basic

/-!
# Outlines

An outline is an entry with the outlines nested in it, in document order; the outline of a document is a
list of them. An outline is stored as an object, in which an entry without nested ones has no member for them.
-/

namespace DocOutline

open DocOutline.Symbol (Entry Name ReadError attempt)

/-- An entry with the entries nested in it (`SymbolNode`). -/
inductive Outline (ν : Type) where
  | mk (entry : Entry ν) (children : List (Outline ν))
deriving Repr, Inhabited

namespace Outline

variable {ν : Type}

def entry : Outline ν → Entry ν
  | mk entry _ => entry

def children : Outline ν → List (Outline ν)
  | mk _ children => children

mutual

/-- Whether two outlines are the same. -/
def decideEq [DecidableEq ν] (outline outline' : Outline ν) : Decidable (outline = outline') :=
  match outline, outline' with
  | mk entry children, mk entry' children' =>
    match decEq entry entry', decideEqAll children children' with
    | isTrue hentry, isTrue hchildren => isTrue (by rw [hentry, hchildren])
    | isFalse hentry, _ => isFalse fun h => hentry (by cases h; rfl)
    | _, isFalse hchildren => isFalse fun h => hchildren (by cases h; rfl)
termination_by structural outline

/-- Whether two lists of outlines are the same. -/
def decideEqAll [DecidableEq ν] (outlines outlines' : List (Outline ν)) : Decidable (outlines = outlines') :=
  match outlines, outlines' with
  | [], [] => isTrue rfl
  | [], _ :: _ => isFalse (List.cons_ne_nil _ _).symm
  | _ :: _, [] => isFalse (List.cons_ne_nil _ _)
  | outline :: outlines, outline' :: outlines' =>
    match decideEq outline outline', decideEqAll outlines outlines' with
    | isTrue hfirst, isTrue hrest => isTrue (by rw [hfirst, hrest])
    | isFalse hfirst, _ => isFalse fun h => hfirst (List.cons.inj h).1
    | _, isFalse hrest => isFalse fun h => hrest (List.cons.inj h).2
termination_by structural outlines

end

instance [DecidableEq ν] : DecidableEq (Outline ν) := decideEq

mutual

/-- The entries with their depths, each in front of those nested in it. -/
def flatten (depth : Nat) : Outline ν → List (Entry ν × Nat)
  | mk entry children => (entry, depth) :: flattenAll (depth + 1) children
termination_by structural outline => outline

/-- The entries of consecutive outlines at the same depth (`flatten_tree`). -/
def flattenAll (depth : Nat) : List (Outline ν) → List (Entry ν × Nat)
  | [] => []
  | outline :: outlines => flatten depth outline ++ flattenAll depth outlines
termination_by structural outlines => outlines

end

mutual

/-- The end of the entry or of what is nested in it, whichever lies further back (`subtree_end`). -/
def subtreeEnd : Outline ν → Int
  | mk entry children => max entry.stop (endOf entry.stop children)
termination_by structural outline => outline

/-- The furthest end among outlines, at least `least`. -/
def endOf (least : Int) : List (Outline ν) → Int
  | [] => least
  | outline :: outlines => max (subtreeEnd outline) (endOf least outlines)
termination_by structural outlines => outlines

end

/-- The member that lists what is nested in an entry, if there is anything. -/
def childrenMember (children : List Json) : List (String × Json) :=
  if children.isEmpty then [] else [("children", .arr children)]

/-- The members of an entry's stored form. -/
def entryMembers [Name ν] (entry : Entry ν) : List (String × Json) :=
  [("name", Name.toJson entry.name), ("kind", entry.kind.toJson),
    ("range", .arr [.int entry.start, .int entry.stop])]

mutual

/-- The stored form of an outline (`to_dict`, specification, section 6). -/
def toJson [Name ν] : Outline ν → Json
  | mk entry children => .obj (entryMembers entry ++ childrenMember (toJsonAll children))
termination_by structural outline => outline

/-- The stored forms of outlines. -/
def toJsonAll [Name ν] : List (Outline ν) → List Json
  | [] => []
  | outline :: outlines => toJson outline :: toJsonAll outlines
termination_by structural outlines => outlines

end

mutual

/-- Whether a recursion may go through an outline that is nested in `depth` others. -/
def isWithin (limit : Limit) (depth : Nat) : Outline ν → Bool
  | mk _ children => limit.allows depth && areWithin limit (depth + 1) children
termination_by structural outline => outline

/-- Whether a recursion may go through outlines that are nested in the same `depth` others. -/
def areWithin (limit : Limit) (depth : Nat) : List (Outline ν) → Bool
  | [] => true
  | outline :: outlines => isWithin limit depth outline && areWithin limit depth outlines
termination_by structural outlines => outlines

end

/-- Checks for the members that every entry has. -/
def requireFields (value : Json) : Except ReadError Unit :=
  ["name", "kind", "range"].forM fun name => do
    if ← attempt (value.holds name) then .ok () else .error (.missingField name)

def readEntry (value : Json) : Except ReadError (Entry Json) := do
  requireFields value
  let (start, stop) ← attempt (value.member "range" >>= Json.pair)
  let name ← attempt (value.member "name")
  let kind ← Symbol.Kind.ofJson (← attempt (value.member "kind"))
  return ⟨name, kind, ← attempt start.toInteger, ← attempt stop.toInteger⟩

/-- What is wrong with a text that stands for an entry: it has no members. -/
def textError (text : String) : ReadError :=
  match requireFields (.str text) with
  | .error error => error
  | .ok _ => .access .textIndex

/-- Fails for an outline that is nested in `depth` others if a recursion may not go into it. -/
def requireWithin (limit : Limit) (depth : Nat) : Except ReadError Unit :=
  if limit.allows depth then .ok () else .error (.access .tooDeep)

mutual

/-- Reads the stored form of an outline that is nested in `depth` others (`from_dict`). -/
def ofJsonWithin (limit : Limit) (depth : Nat) (value : Json) : Except ReadError (Outline Json) := do
  requireWithin limit depth
  let entry ← readEntry value
  match value with
  | .obj members => return mk entry (← childrenIn limit (depth + 1) members)
  | _ => return mk entry []
termination_by structural value

/-- Reads what is nested in an entry with the given members. -/
def childrenIn (limit : Limit) (depth : Nat) (members : List (String × Json)) :
    Except ReadError (List (Outline Json)) :=
  match members with
  | [] => .ok []
  | (name, value) :: members =>
    if name = "children" then ofJsonForest limit depth value else childrenIn limit depth members
termination_by structural members

/-- Reads a list of stored outlines. Anything that counts as absent is the empty list, and a container of any
sort is gone through for its values. -/
def ofJsonForest (limit : Limit) (depth : Nat) (value : Json) : Except ReadError (List (Outline Json)) :=
  match value with
  | .arr items => ofJsonAllWithin limit depth items
  | .obj ((name, _) :: _) => do
    requireWithin limit depth
    .error (textError name)
  | .str text =>
    match text.toList with
    | [] => .ok []
    | c :: _ => do
      requireWithin limit depth
      .error (textError (String.singleton c))
  | value => if value.isPresent then .error (.access (.notIterable value.typeWord)) else .ok []
termination_by structural value

/-- Reads stored outlines one by one. -/
def ofJsonAllWithin (limit : Limit) (depth : Nat) (items : List Json) : Except ReadError (List (Outline Json)) :=
  match items with
  | [] => .ok []
  | item :: items => do return (← ofJsonWithin limit depth item) :: (← ofJsonAllWithin limit depth items)
termination_by structural items

end

/-- Reads the stored form of an outline. -/
def ofJson (value : Json) : Except ReadError (Outline Json) := ofJsonWithin none 0 value

end Outline

abbrev Forest := List (Outline String)

end DocOutline
