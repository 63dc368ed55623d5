import DocOutline.Syntax.Cursor
import DocOutline.Syntax.Kind
import DocOutline.Text.Basic

/-!
# From a parser's tree to a syntax tree

A parser gives a tree of typed spans; a grammar says what the types stand for. `lowerRoot` makes a syntax tree of
it that covers its source.
-/

namespace DocOutline.Grammar

open DocOutline.Syntax (Kind Node StructureError)
open Text (Bytes)

/-! ## Grammars

How the node types and tokens of a parser's grammar map to kinds of syntax, and which node types need more than
a new name. There is one grammar, that of Typst.
-/

/-- What the types of a grammar stand for (`GrammarSpec`, specification, section 10.2). -/
structure Tables where
  /-- The name of the language. -/
  language : String
  /-- The kinds of named nodes. -/
  nodeKinds : List (String × Syntax.Kind)
  /-- The kinds of tokens. The type of a token is its text. -/
  tokenKinds : List (String × Syntax.Kind)
  /-- Headings, which are split into marker, white space and markup. -/
  headingTypes : List String
  /-- Comments, of which only the text tells whether they end with the line. -/
  commentTypes : List String
  /-- Bracketed groups, which are arguments, arrays, dictionaries or parentheses. -/
  groupTypes : List String
  /-- Calls: a group in one is its arguments. -/
  callTypes : List String
  /-- Closures: what stands in front of the arrow are parameters. -/
  lambdaTypes : List String
  /-- Bindings: one of a call is a function's definition. -/
  letTypes : List String
  /-- Nodes that are not looked into. -/
  leafTypes : List String
  /-- Nodes whose content is plain markup. -/
  sectionTypes : List String

/-- The kinds of the node types of Typst. -/
def typstNodeKinds : List (String × Syntax.Kind) := [
  ("source_file", .markup), ("section", .markup), ("content", .contentBlock), ("block", .codeBlock),
  ("code", .code), ("text", .text), ("space", .space), ("parbreak", .parbreak),
  ("linebreak", .linebreak), ("escape", .escape), ("quote", .smartQuote), ("strong", .strong),
  ("emph", .emph), ("raw_span", .raw), ("raw_blck", .raw), ("url", .link), ("label", .label),
  ("ref", .ref), ("heading", .heading), ("item", .listItem), ("term", .termItem), ("math", .equation),
  ("formula", .math), ("line_comment", .lineComment), ("block_comment", .blockComment),
  ("ident", .ident), ("bool", .bool), ("number", .int), ("string", .str), ("none", .noneKeyword),
  ("auto", .autoKeyword), ("group", .parenthesized), ("array", .array), ("dict", .dict),
  ("tagged", .named), ("unary", .unary), ("sign", .unary), ("binary", .binary), ("add", .binary),
  ("sub", .binary), ("mul", .binary), ("div", .binary), ("cmp", .binary), ("and", .binary),
  ("or", .binary), ("not", .unary), ("in", .binary), ("assign", .binary), ("field", .fieldAccess),
  ("call", .funcCall), ("lambda", .closure), ("let", .letBinding), ("set", .setRule),
  ("show", .showRule), ("context", .contextual), ("branch", .conditional), ("while", .whileLoop),
  ("for", .forLoop), ("import", .moduleImport), ("include", .moduleInclude), ("return", .funcReturn),
  ("break", .loopBreak), ("continue", .loopContinue), ("elude", .spread), ("wildcard", .underscore)]

/-- The kinds of the tokens of Typst. -/
def typstTokenKinds : List (String × Syntax.Kind) := [
  ("#", .hash), ("\x7b", .leftBrace), ("\x7d", .rightBrace), ("[", .leftBracket), ("]", .rightBracket),
  ("(", .leftParen), (")", .rightParen), (",", .comma), (";", .semicolon), (":", .colon), (".", .dot),
  ("$", .dollar), ("*", .star), ("_", .underscore), ("=", .eq), ("=>", .arrow), ("@", .refMarker),
  ("not", .notKeyword), ("and", .andKeyword), ("or", .orKeyword), ("none", .noneKeyword),
  ("auto", .autoKeyword), ("let", .letKeyword), ("set", .setKeyword), ("show", .showKeyword),
  ("context", .contextKeyword), ("if", .ifKeyword), ("else", .elseKeyword), ("for", .forKeyword),
  ("in", .inKeyword), ("while", .whileKeyword), ("break", .breakKeyword),
  ("continue", .continueKeyword), ("return", .returnKeyword), ("import", .importKeyword),
  ("include", .includeKeyword), ("as", .asKeyword)]

/-- The grammar of Typst. -/
def typst : Tables where
  language := "typst"
  nodeKinds := typstNodeKinds
  tokenKinds := typstTokenKinds
  headingTypes := ["heading"]
  commentTypes := ["comment"]
  groupTypes := ["group"]
  callTypes := ["call"]
  lambdaTypes := ["lambda"]
  letTypes := ["let"]
  leafTypes := ["label", "ref", "string", "raw_span", "raw_blck", "url"]
  sectionTypes := ["section"]

def languages : List (String × Tables) := [("typst", typst)]

def extensions : List (String × String) := [(".typ", "typst")]

/-! ## Trees of a parser

What a parser makes of a document: typed nodes with spans of bytes. Nothing is taken for granted about the
spans: children may overlap, stick out of their parent, come out of order, or end before they begin.
-/

/-- A node of a parser's tree. An anonymous one is a token; a missing one was put in to recover from an
error. -/
inductive Tree where
  | node (type : String) (start stop : Nat) (children : List Tree) (anonymous missing : Bool)
deriving Repr, Inhabited

namespace Tree

def type : Tree → String
  | node type _ _ _ _ _ => type

def start : Tree → Nat
  | node _ start _ _ _ _ => start

def stop : Tree → Nat
  | node _ _ stop _ _ _ => stop

def children : Tree → List Tree
  | node _ _ _ children _ _ => children

/-- Whether a node is a token. -/
def isAnonymous : Tree → Bool
  | node _ _ _ _ anonymous _ => anonymous

/-- Whether a node was put in to recover from an error. -/
def isMissing : Tree → Bool
  | node _ _ _ _ _ missing => missing

end Tree

/-! ## Reshaping constructs

A parser's tree leaves some constructs flat that a syntax tree tells apart. The rules here regroup the children
of a node: the side in front of a closure's arrow becomes its parameters, a binding of a call becomes a
closure, and a bracketed pattern becomes a destructuring.
-/

def isBracketed : Kind → Bool
  | .parenthesized | .array | .dict => true
  | _ => false

/-- A node as a list of parameters (`_as_params`). -/
def asParams (node : Node) : Node :=
  if node.kind = .ident then .inner .params [node] else node.withKind .params

/-- Makes the first name or bracketed group in front of an arrow the parameters (`_wrap_params`). -/
def wrapParams : List Node → List Node
  | [] => []
  | node :: nodes =>
    if node.kind = .arrow then node :: nodes
    else if node.kind = .ident ∨ isBracketed node.kind ∨ node.kind = .args then asParams node :: nodes
    else node :: wrapParams nodes

/-- The part of a call that is a list of parameters, if the call is a function's signature. -/
def signaturePart (node : Node) : Node :=
  if node.kind = .args ∨ isBracketed node.kind then asParams node else node

/-- Turns the first call in front of an equals sign, and all behind it, into a closure (`_let_closure`). -/
def wrapClosure : List Node → List Node
  | [] => []
  | node :: nodes =>
    if node.kind = .eq then node :: nodes
    else if node.kind = .funcCall then [.inner .closure (node.children.map signaturePart ++ nodes)]
    else node :: wrapClosure nodes

/-- Makes the first array or dictionary in front of an equals sign or `in` a destructuring
(`_mark_destructuring`). -/
def markDestructuring : List Node → List Node
  | [] => []
  | node :: nodes =>
    if node.kind = .eq ∨ node.kind = .inKeyword then node :: nodes
    else if node.kind = .array ∨ node.kind = .dict then node.withKind .destructuring :: nodes
    else node :: markDestructuring nodes

def isBareGroup : Kind → Bool
  | .leftParen | .rightParen | .space => true
  | _ => false

/-- What a bracketed group is, by what is in it (`_group_kind`). -/
def groupKind (children : List Node) : Kind :=
  if children.any fun node => node.kind == .named || node.kind == .keyed then .dict
  else if children.any (·.kind == .comma) then .array
  else if children.all (isBareGroup ·.kind) then .array
  else .parenthesized

/-! ## Syntax trees of sources

`lowerRoot` makes a syntax tree of a parser's tree. The children of a node are taken in their order, as far as
they fit behind one another and into the node; whatever lies between them is filled with leaves for the text
there, so that the tree covers its source.
-/

/-- The text of a span of the source (`_text`). -/
def textAt (source : Bytes) (start stop : Nat) : String := Text.decode (Text.slice source start stop)

/-- A leaf for source text that no child covers (`_gap`). -/
def gap (source : Bytes) (start stop : Nat) : Node :=
  let text := textAt source start stop
  .leaf (if Text.isBlankText text then .space else .text) text

/-- A leaf for a gap, if there is one. -/
def gapIfAny (source : Bytes) (start stop : Nat) : List Node :=
  if start < stop then [gap source start stop] else []

def tokenLeaf (tables : Tables) (type text : String) : Node :=
  let otherwise : Kind := if Text.isBlankText text then .space else .operator
  .leaf ((tables.tokenKinds.lookup type).getD otherwise) text

def commentLeaf (text : String) : Node :=
  .leaf (if ['/', '/'].isPrefixOf text.toList then .lineComment else .blockComment) text

/-- Where the parts of a heading are: its marker ends, its content starts and ends. -/
structure HeadingParts where
  marker : String
  markerEnd : Nat
  contentStart : Nat
  contentEnd : Nat

/-- The parts of a heading with the given text: a marker of equals signs, and content without the white space
around it. -/
def headingParts (start stop : Nat) (text : String) : HeadingParts :=
  let marker := text.toList.takeWhile (· = '=')
  let body := text.toList.dropWhile (· = '=')
  let lead := String.ofList (body.takeWhile Text.isBlank)
  let trail := String.ofList (body.reverse.takeWhile Text.isBlank)
  let markerEnd := start + marker.length
  ⟨String.ofList marker, markerEnd, markerEnd + lead.utf8ByteSize, stop - trail.utf8ByteSize⟩

/-- A heading with its parts as children; `content` are the nodes of its content (`_lower_heading`). -/
def headingNode (source : Bytes) (parts : HeadingParts) (stop : Nat) (content : List Node) : Node :=
  .inner .heading
    (.leaf .headingMarker parts.marker :: gapIfAny source parts.markerEnd parts.contentStart ++
      (if parts.contentStart < parts.contentEnd then [.inner .markup content] else []) ++
      gapIfAny source (max parts.contentEnd parts.contentStart) stop)

/-- The kind of a named node, if the grammar knows its type. Content inside a section is plain markup. -/
def namedKind? (tables : Tables) (parentType type : String) : Option Kind :=
  match tables.nodeKinds.lookup type with
  | some .contentBlock => some (if parentType ∈ tables.sectionTypes then .markup else .contentBlock)
  | kind? => kind?

/-- An inner node for a named node of the grammar, after regrouping its children. -/
def innerNode (tables : Tables) (parentType type : String) (children : List Node) : Node :=
  let kind := (namedKind? tables parentType type).getD .markup
  let (kind, children) :=
    if type ∈ tables.groupTypes then
      (if parentType ∈ tables.callTypes then .args else groupKind children, children)
    else if type ∈ tables.lambdaTypes then (kind, wrapParams children)
    else if type ∈ tables.letTypes then (kind, wrapClosure children)
    else (kind, children)
  .inner kind (if kind = .letBinding ∨ kind = .forLoop then markDestructuring children else children)

mutual

/-- The syntax node for a node of the parser, which lies `depth` levels below the root (`_lower`). -/
def lower (tables : Tables) (source : Bytes) (parentType : String) (depth : Nat) (tree : Tree) :
    Except StructureError Node :=
  match tree with
  | .node type start stop children anonymous missing =>
    let text := textAt source start stop
    if Syntax.maxNesting < depth then .error (.sourceTooDeep type start)
    else if type = "ERROR" ∨ missing then .ok (.leaf .error text)
    else if anonymous then .ok (tokenLeaf tables type text)
    else if type ∈ tables.commentTypes then .ok (commentLeaf text)
    else if type ∈ tables.headingTypes then
      let parts := headingParts start stop text
      if parts.contentStart < parts.contentEnd then do
        let content ← lowerAll tables source type (depth + 1) parts.contentStart parts.contentEnd children
        .ok (headingNode source parts stop content)
      else .ok (headingNode source parts stop [])
    else if type ∈ tables.leafTypes ∨ children.isEmpty then
      .ok (.leaf ((namedKind? tables parentType type).getD .text) text)
    else do
      let nodes ← lowerAll tables source type (depth + 1) start stop children
      .ok (innerNode tables parentType type nodes)
termination_by structural tree

/-- The syntax nodes from `cursor` up to `stop`: those of the children that fit, and gaps
(`_lower_children`). -/
def lowerAll (tables : Tables) (source : Bytes) (parentType : String) (depth cursor stop : Nat)
    (trees : List Tree) : Except StructureError (List Node) :=
  match trees with
  | [] => .ok (gapIfAny source cursor stop)
  | tree :: trees =>
    if tree.start < cursor ∨ stop < tree.stop then
      lowerAll tables source parentType depth cursor stop trees
    else do
      let node ← lower tables source parentType depth tree
      let nodes ← lowerAll tables source parentType depth tree.stop stop trees
      .ok (gapIfAny source cursor tree.start ++ node :: nodes)
termination_by structural trees

end

/-- The syntax tree of a source, by the parser's tree for it (`lower_tree`, specification, section 10.2). -/
def lowerRoot (tables : Tables) (source : Bytes) (root : Tree) : Except StructureError Node := do
  let children ← lowerAll tables source root.type 1 0 source.length root.children
  .ok (if children.isEmpty then .leaf .markup "" else .inner .markup children)

end DocOutline.Grammar
