import DocOutline.Log.Call
import DocOutline.Syntax.Kind
import DocOutline.Text.Basic
import DocOutline.Text.Bytes
import DocOutline.Text.Letter

/-!
# Syntax trees and the places in them

A node knows its text and its children, a place knows its surroundings too. What a node means beyond its tag is read
off its text and its children, and where a tree is not what it claims, the error names the place.
-/

namespace DocOutline.Syntax

/-! ## Syntax trees

A leaf carries text, an inner node children. The text of a node is the text of its leaves from left to right,
and its length is counted in bytes of UTF-8, so that lengths add up to offsets.
-/

/-- A node of a document's syntax tree (`SyntaxNode`, specification, section 10.1). -/
inductive Node where
  | leaf (kind : Kind) (text : String)
  | inner (kind : Kind) (children : List Node)
deriving Repr, Inhabited

namespace Node

def kind : Node → Kind
  | leaf kind _ => kind
  | inner kind _ => kind

def children : Node → List Node
  | leaf _ _ => []
  | inner _ children => children

def withKind (kind : Kind) : Node → Node
  | leaf _ text => leaf kind text
  | inner _ children => inner kind children

/-- The text of a leaf. An inner node without children is a leaf without text. -/
def leafText? : Node → Option String
  | leaf _ text => some text
  | inner _ [] => some ""
  | inner _ (_ :: _) => none

mutual

/-- The source text that a node covers (`full_text`). -/
def fullText : Node → String
  | leaf _ text => text
  | inner _ children => fullTexts children
termination_by structural node => node

/-- The source text that consecutive nodes cover. -/
def fullTexts : List Node → String
  | [] => ""
  | node :: nodes => fullText node ++ fullTexts nodes
termination_by structural nodes => nodes

end

mutual

/-- The length of the text that a node covers, in bytes. -/
def byteLen : Node → Nat
  | leaf _ text => text.utf8ByteSize
  | inner _ children => byteLens children
termination_by structural node => node

/-- The length of the text that consecutive nodes cover, in bytes. -/
def byteLens : List Node → Nat
  | [] => 0
  | node :: nodes => byteLen node + byteLens nodes
termination_by structural nodes => nodes

end

mutual

theorem utf8ByteSize_fullText (node : Node) : node.fullText.utf8ByteSize = node.byteLen := by
  cases node with
  | leaf => rfl
  | inner _ children => exact utf8ByteSize_fullTexts children

theorem utf8ByteSize_fullTexts (nodes : List Node) : (fullTexts nodes).utf8ByteSize = byteLens nodes := by
  match nodes with
  | [] => rfl
  | node :: nodes =>
    simp [fullTexts, byteLens, utf8ByteSize_fullText node, utf8ByteSize_fullTexts nodes]

end

@[simp] theorem fullTexts_append (as bs : List Node) :
    fullTexts (as ++ bs) = fullTexts as ++ fullTexts bs := by
  induction as with
  | nil => simp [fullTexts]
  | cons a as ih => simp [fullTexts, ih, String.append_assoc]

theorem byteLens_append (as bs : List Node) : byteLens (as ++ bs) = byteLens as + byteLens bs := by
  induction as with
  | nil => simp [byteLens]
  | cons a as ih => simp [byteLens, ih, Nat.add_assoc]

end Node

/-! ## Cursors

A cursor is a node together with its place: its parent, its index among the parent's children and its offset
in the source. Children get their offsets by adding lengths from left to right; a preceding sibling gets its
own by subtracting its length.
-/

/-- A node at its place in a tree (`LinkedNode`, specification, section 10.1). -/
inductive Cursor where
  | mk (node : Node) (parent? : Option Cursor) (index offset : Nat)
deriving Inhabited

/-- A place as messages show it: the kind of the node, and the bytes from its start to its end. -/
def placeTitle (kind : Kind) (start stop : Nat) : String := s!"LinkedNode({kind.title}, {start}..{stop})"

namespace Cursor

def node : Cursor → Node
  | mk node _ _ _ => node

/-- The place of the parent; the root has none. -/
def parent? : Cursor → Option Cursor
  | mk _ parent? _ _ => parent?

/-- The index among the parent's children. -/
def index : Cursor → Nat
  | mk _ _ index _ => index

/-- The number of bytes in front of the node. -/
def offset : Cursor → Nat
  | mk _ _ _ offset => offset

/-- The root of a tree, which starts at the beginning of the source. -/
def root (node : Node) : Cursor := mk node none 0 0

/-- The tag of the node. -/
def kind (c : Cursor) : Kind := c.node.kind

def stop (c : Cursor) : Nat := c.offset + c.node.byteLen

def fullText (c : Cursor) : String := c.node.fullText

/-- The places of consecutive nodes, the first of which has the given index and offset. -/
def siblings (parent : Cursor) : (index offset : Nat) → List Node → List Cursor
  | _, _, [] => []
  | index, offset, node :: nodes =>
    mk node (some parent) index offset :: siblings parent (index + 1) (offset + node.byteLen) nodes

def children (c : Cursor) : List Cursor := siblings c 0 c.offset c.node.children

/-- The place of the sibling in front, trivia included (`prev_raw_sibling`). -/
def prevRaw? (c : Cursor) : Option Cursor :=
  match c.parent?, c.index with
  | some parent, index + 1 =>
    parent.node.children[index]?.map fun node => mk node (some parent) index (c.offset - node.byteLen)
  | _, _ => none

/-- The place of the nearest sibling in front that is not trivia. Only the `count` nearest are looked at. -/
def prevWithin : (count : Nat) → Cursor → Option Cursor
  | 0, _ => none
  | count + 1, c => c.prevRaw?.bind fun d => if d.kind.isTrivia then prevWithin count d else some d

/-- The place of the nearest sibling in front that is not trivia (`prev_sibling`). As many siblings are in
front as the index says. -/
def prev? (c : Cursor) : Option Cursor := prevWithin c.index c

/-- The tag of the nearest sibling in front that is not trivia. -/
def prevKind? (c : Cursor) : Option Kind := c.prev?.map kind

def title (c : Cursor) : String := placeTitle c.kind c.offset c.stop

/-- The place that is reached by going down the given child indexes. -/
def descend? : Cursor → List Nat → Option Cursor
  | c, [] => some c
  | c, index :: path => c.children[index]?.bind fun d => descend? d path

end Cursor

/-! ## Typed views of nodes

What a node means beyond its tag: the name of a label or of an identifier, if the text has the right shape, and
the depth of a heading.
-/

namespace Node

/-- The name between the angle brackets of a label (`Label`). It has at least one character. -/
def labelName? (node : Node) : Option String :=
  if node.kind = .label then
    match node.leafText? with
    | some text =>
      let cs := text.toList
      if 3 ≤ cs.length ∧ cs.head? = some '<' ∧ cs.getLast? = some '>' then
        some (String.ofList cs.tail.dropLast)
      else none
    | none => none
  else none

/-- Whether a text starts like an identifier and goes on like one. -/
def isIdentText : List Char → Bool
  | [] => false
  | c :: cs =>
    (Text.isLetter c || c = '_') && (c :: cs).all fun c => Text.isAlphanumeric c || c = '_' || c = '-'

/-- The name of an identifier (`Ident`). -/
def identName? (node : Node) : Option String :=
  if node.kind = .ident then
    match node.leafText? with
    | some text => if isIdentText text.toList then some text else none
    | none => none
  else none

/-- The depth of a heading: the number of signs in its first marker, at least one (`depth`). -/
def headingDepth (node : Node) : Nat :=
  match node.children.find? (·.kind = .headingMarker) with
  | some marker => max 1 (Text.countChar '=' marker.fullText)
  | none => 1

/-- The depth of a heading; no other node has one. -/
def headingDepth? (node : Node) : Option Nat :=
  if node.kind = .heading then some node.headingDepth else none

end Node

/-! ## Trees that cannot be outlined

A tree is given up when it is nested too deeply, or when the text of a label or of an identifier does not
have the shape that its kind claims. Such an outcome is logged.
-/

/-- The deepest nesting that is followed, in nodes from the root (`MAX_NESTING_DEPTH`, specification, section
10.4). -/
def maxNesting : Nat := 200

/-- Why a tree cannot be outlined (`HierarchyError`, specification, section 7). -/
inductive StructureError where
  /-- The node at a place is no label or identifier, whatever its kind says. -/
  | castFailed (kind : Kind) (start stop : Nat)
  /-- The node at a place lies too deep. -/
  | tooDeep (kind : Kind) (start stop : Nat)
  /-- A node of the parser's tree lies too deep. -/
  | sourceTooDeep (nodeType : String) (offset : Nat)
deriving DecidableEq, Repr

namespace StructureError

def message : StructureError → String
  | castFailed kind start stop => s!"cast to ast node failed: {placeTitle kind start stop}"
  | tooDeep kind start stop =>
    s!"syntax nesting deeper than {maxNesting} levels at {placeTitle kind start stop}"
  | sourceTooDeep _ offset => s!"source nesting deeper than {maxNesting} levels at byte {offset}"

/-- What an error says beyond its message. -/
def details : StructureError → List (String × Json)
  | castFailed kind start stop => [("kind", .str kind.name), ("range", .arr [.nat start, .nat stop])]
  | tooDeep kind _ _ => [("kind", .str kind.name), ("limit", .nat maxNesting)]
  | sourceTooDeep nodeType offset =>
    [("node_type", .str nodeType), ("offset", .nat offset), ("limit", .nat maxNesting)]

def record (error : StructureError) : Log.Record :=
  ⟨"lexical hierarchy analysis failed", .error, ("error", .str error.message) :: error.details⟩

end StructureError

end DocOutline.Syntax
