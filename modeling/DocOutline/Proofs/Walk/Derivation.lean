import DocOutline.Proofs.Walk.Stack

/-!
# Derivations of walks

What a walk that succeeds has done, as a relation between the stack before and the stack after. `Walked` reads: checking
these places one after another, each in its naming context, leads from one stack to another. It has a rule for a
node that is an entry by itself, one for a line comment, one for a closure that becomes a function, and one for all
other nodes, for which `parts` says what is looked at beneath them.

Statements about outlines are proved by induction on `Walked`, without a look at the actions; that a walk which
succeeds has a derivation is the subject of the next module.
-/

namespace DocOutline.Outline

open DocOutline.Symbol (Entry Naming Scope classify entryAt)
open DocOutline.Syntax (Cursor Node)

/-- A place to check, and the naming context for it. -/
structure Visit where
  naming : Naming
  here : Cursor

namespace Visit

def each (naming : Naming) (places : List Cursor) : List Visit := places.map fun here => ⟨naming, here⟩

/-- The visit of the first expression among places. With `after`, it has to start behind that offset. -/
def firstExpr (naming : Naming) (after : Option Nat) (places : List Cursor) : List Visit :=
  match places.find? (·.kind.isExpr) with
  | some place => if after.any (place.offset ≤ ·) then [] else [⟨naming, place⟩]
  | none => []

def pattern? (places : List Cursor) : Option Cursor := places.find? (·.kind.isPattern)

/-- What is looked at in a binding: a closure alone, or the pattern and then the value. -/
def binding (places : List Cursor) : List Visit :=
  if (pattern? places).any (·.kind.isClosure) then each .reference (pattern? places).toList
  else each .variableBinding (pattern? places).toList ++
    firstExpr .reference ((pattern? places).map (·.offset)) places.reverse

def iterable? (places : List Cursor) : Option Cursor :=
  (places.dropWhile (·.kind != .inKeyword)).find? (·.kind.isExpr)

/-- What is looked at in a loop: what it goes through, the pattern, and then the body. -/
def loop (places : List Cursor) : List Visit :=
  each .reference (iterable? places).toList ++ each .variableBinding (pattern? places).toList ++
    firstExpr .reference ((iterable? places).map (·.offset)) places.reverse

/-- What is looked at in a named pair: the value, and among parameters the name too. -/
def pair (naming : Naming) (places : List Cursor) : List Visit :=
  if naming = .parameter then
    firstExpr .reference none places.reverse ++ each .variableBinding (places.find? (·.kind = .ident)).toList
  else firstExpr naming none places.reverse

/-- The name of a closure: its first child, if that is an identifier. -/
def closureName (places : List Cursor) : List Visit :=
  each .functionName (places.head?.filter (·.kind = .ident)).toList

/-- The body of a closure: its last expression. -/
def body? (places : List Cursor) : Option Cursor := places.reverse.find? (·.kind.isExpr)

/-- The visits of everything right beneath a node. -/
def beneath (visit : Visit) : List Visit :=
  each (Outline.namingBeneath visit.here.kind visit.naming) visit.here.children

/-- What is looked at beneath a node that is no entry by itself, no comment and no function. -/
def parts (scope : Scope) (visit : Visit) : List Visit :=
  match visit.here.kind with
  | .letBinding => binding visit.here.children
  | .forLoop => loop visit.here.children
  | .closure => if scope.affectsSymbol then closureName visit.here.children else visit.beneath
  | .fieldAccess => firstExpr visit.naming none visit.here.children
  | .named => pair visit.naming visit.here.children
  | .moduleImport => []
  | kind => if kind.isTrivia || kind.isKeyword || kind.isError then [] else visit.beneath

/-! ### Parts are children -/

variable {naming : Naming} {places : List Cursor} {part visit : Visit}

theorem mem_of_mem_each (h : part ∈ each naming places) : part.here ∈ places := by
  obtain ⟨place, hplace, rfl⟩ := List.mem_map.1 h
  exact hplace

theorem mem_of_mem_toList {place? : Option Cursor} (hsome : ∀ place, place? = some place → place ∈ places)
    (h : part ∈ each naming place?.toList) : part.here ∈ places :=
  hsome _ (Option.mem_toList.1 (mem_of_mem_each h))

theorem mem_of_pattern? {place : Cursor} (h : pattern? places = some place) : place ∈ places :=
  List.mem_of_find?_eq_some h

theorem mem_of_iterable? {place : Cursor} (h : iterable? places = some place) : place ∈ places :=
  (List.dropWhile_sublist _).subset (List.mem_of_find?_eq_some h)

theorem mem_of_body? {place : Cursor} (h : body? places = some place) : place ∈ places :=
  List.mem_reverse.1 (List.mem_of_find?_eq_some h)

theorem mem_of_mem_firstExpr {after : Option Nat} (h : part ∈ firstExpr naming after places) :
    part.here ∈ places := by
  unfold firstExpr at h
  split at h
  · next place hplace =>
    split at h
    · cases h
    · rw [List.mem_singleton.1 h]
      exact List.mem_of_find?_eq_some hplace
  · cases h

theorem mem_of_mem_lastExpr {after : Option Nat} (h : part ∈ firstExpr naming after places.reverse) :
    part.here ∈ places := List.mem_reverse.1 (mem_of_mem_firstExpr h)

theorem mem_of_mem_binding (h : part ∈ binding places) : part.here ∈ places := by
  unfold binding at h
  split at h
  · exact mem_of_mem_toList (fun _ => mem_of_pattern?) h
  · rcases List.mem_append.1 h with h | h
    · exact mem_of_mem_toList (fun _ => mem_of_pattern?) h
    · exact mem_of_mem_lastExpr h

theorem mem_of_mem_loop (h : part ∈ loop places) : part.here ∈ places := by
  rcases List.mem_append.1 h with h | h
  · rcases List.mem_append.1 h with h | h
    · exact mem_of_mem_toList (fun _ => mem_of_iterable?) h
    · exact mem_of_mem_toList (fun _ => mem_of_pattern?) h
  · exact mem_of_mem_lastExpr h

theorem mem_of_mem_pair (h : part ∈ pair naming places) : part.here ∈ places := by
  unfold pair at h
  split at h
  · rcases List.mem_append.1 h with h | h
    · exact mem_of_mem_lastExpr h
    · exact mem_of_mem_toList (fun _ => List.mem_of_find?_eq_some) h
  · exact mem_of_mem_lastExpr h

theorem mem_of_mem_closureName (h : part ∈ closureName places) : part.here ∈ places := by
  refine mem_of_mem_toList (fun place hplace => ?_) h
  exact List.mem_of_head? (Option.filter_eq_some_iff.1 hplace).1

theorem mem_of_mem_beneath (h : part ∈ visit.beneath) : part.here ∈ visit.here.children := mem_of_mem_each h

theorem beneath_eq_nil (h : visit.here.node.children = []) : visit.beneath = [] := by
  rw [beneath, Cursor.children, h]
  rfl

theorem mem_of_mem_parts {scope : Scope} (h : part ∈ visit.parts scope) : part.here ∈ visit.here.children := by
  unfold parts at h
  split at h
  · exact mem_of_mem_binding h
  · exact mem_of_mem_loop h
  · split at h
    · exact mem_of_mem_closureName h
    · exact mem_of_mem_beneath h
  · exact mem_of_mem_firstExpr h
  · exact mem_of_mem_pair h
  · cases h
  · split at h
    · cases h
    · exact mem_of_mem_beneath h

end Visit

/-- The name of a function: that of its first child, if that is an identifier. There is none if that has the wrong
shape. -/
def functionName? (closure : Cursor) : Option String :=
  match closure.children with
  | first :: _ => if first.kind = .ident then first.node.identName? else some anonymousName
  | [] => some anonymousName

/-- The height down to which frames are closed behind what lies beneath an entry. A heading stays open. -/
def heightBehind (kind : Symbol.Kind) (frames : List Frame) : Nat :=
  if kind.isHeading then frames.length + 1 else frames.length

theorem closeDown_heightBehind {kind : Symbol.Kind} (h : kind.isHeading) (frame : Frame) (frames : List Frame) :
    closeDown (heightBehind kind frames) (frame :: frames) = frame :: frames := by
  rw [heightBehind, if_pos h]
  exact closeDown_of_le (Nat.le_refl _)

/-- Checking the places of the visits one after another leads from a stack to another. -/
inductive Walked (scope : Scope) : List Visit → List Frame → List Frame → Prop
  | done {frames} : Walked scope [] frames frames
  | entry {visit rest symbol frames inner after}
      (hclass : classify visit.here scope visit.naming = .ok (some symbol))
      (hinner : Walked scope visit.beneath (⟨symbol, []⟩ :: settle symbol.kind frames) inner)
      (hrest : Walked scope rest (closeDown (heightBehind symbol.kind (settle symbol.kind frames)) inner) after) :
      Walked scope (visit :: rest) frames after
  | comment {visit rest top below after}
      (hclass : classify visit.here scope visit.naming = .ok none) (hkind : visit.here.kind = .lineComment)
      (hrest : Walked scope rest (⟨top.entry, addComment visit.here top.finished⟩ :: below) after) :
      Walked scope (visit :: rest) (top :: below) after
  | function {visit rest name body frames inner after}
      (hscope : scope = .symbol) (hkind : visit.here.kind = .closure)
      (hname : functionName? visit.here = some name) (hbody : Visit.body? visit.here.children = some body)
      (hinner : Walked scope [⟨.reference, body⟩]
        (⟨entryAt visit.here name (.named .function), []⟩ :: frames) inner)
      (hrest : Walked scope rest (closeDown frames.length inner) after) :
      Walked scope (visit :: rest) frames after
  | parts {visit rest frames middle after}
      (hclass : classify visit.here scope visit.naming = .ok none) (hkind : visit.here.kind ≠ .lineComment)
      (hbody : scope = .symbol → visit.here.kind = .closure → Visit.body? visit.here.children = none)
      (hparts : Walked scope (visit.parts scope) frames middle) (hrest : Walked scope rest middle after) :
      Walked scope (visit :: rest) frames after

theorem Walked.nil_iff {scope : Scope} {frames after : List Frame} : Walked scope [] frames after ↔ after = frames := by
  constructor
  · intro h
    cases h
    rfl
  · rintro rfl
    exact .done

theorem Walked.append {scope : Scope} {visits visits' : List Visit} {frames middle after : List Frame}
    (h : Walked scope visits frames middle) (h' : Walked scope visits' middle after) :
    Walked scope (visits ++ visits') frames after := by
  induction h with
  | done => exact h'
  | entry hclass hinner _ _ ih => exact .entry hclass hinner (ih h')
  | comment hclass hkind _ ih => exact .comment hclass hkind (ih h')
  | function hscope hkind hname hbody hinner _ _ ih => exact .function hscope hkind hname hbody hinner (ih h')
  | parts hclass hkind hbody hparts _ _ ih => exact .parts hclass hkind hbody hparts (ih h')

end DocOutline.Outline
