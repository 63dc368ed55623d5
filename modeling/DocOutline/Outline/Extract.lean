import DocOutline.Grammar.Lowering
import DocOutline.Outline.Builder

/-!
# From a syntax tree to an outline

A walk through a syntax tree builds its outline; a source gets its outline with the help of a parser.
-/

namespace DocOutline.Outline

open DocOutline.Symbol (Entry Naming Scope)
open DocOutline.Syntax (Cursor Node)

/-! ## Walking through a document

`check` visits a node and what lies beneath it. What is done at a node follows from its kind and from the
places of its children alone: `visit` gets the children as branches, each a place together with the action
that checks it, and decides which branches are taken, in which order and in which naming context.

Most constructs take all their branches from left to right. A declaration names what its pattern binds and
then looks at its value; a closure becomes a function; imports, trivia, keywords and what could not be parsed
are passed over. Consecutive line comments grow into one run.
-/

/-- The place of a child, and the action that checks it. -/
structure Branch where
  here : Cursor
  check : Walk Unit

namespace Branch

/-- Checks a branch, if there is one, in a naming context (`check_node_with`). -/
def checkIn (naming : Naming) : Option Branch → Walk Unit
  | some branch => Walk.withNaming naming branch.check
  | none => pure ()

/-- Checks the first expression among branches (`_check_first_sub_expr`). With `after`, it is checked only if
it starts behind that offset. -/
def checkFirstExpr (naming : Naming) (after : Option Nat) (branches : List Branch) : Walk Unit :=
  match branches.find? (·.here.kind.isExpr) with
  | some branch =>
    if after.any (branch.here.offset ≤ ·) then pure () else checkIn naming (some branch)
  | none => pure ()

def checkAll (branches : List Branch) : Walk Unit := branches.forM (·.check)

def pattern? (branches : List Branch) : Option Branch := branches.find? (·.here.kind.isPattern)

end Branch

/-- The naming context beneath a node, where `naming` is the one around it. -/
def namingBeneath (kind : Syntax.Kind) (naming : Naming) : Naming :=
  match kind with
  | .refMarker | .letBinding => .reference
  | .closure => .functionName
  | .params => .parameter
  | _ => naming

/-- The place in front of a line comment where another one may stand: the sibling in front, or the one before
that if the former is white space with at most one line feed. -/
def commentBefore? (here : Cursor) : Option Cursor :=
  match here.prevRaw? with
  | some previous =>
    if previous.kind = .space then
      if 1 < Text.countChar '\n' previous.fullText then none else previous.prevRaw?
    else some previous
  | none => none

/-- Whether the line comment at a place goes on with the run of comments that was finished last
(`_continues_comment_run`, specification, section 10.9). -/
def continuesRun (here : Cursor) (last : Outline String) : Bool :=
  last.entry.kind == .commentRun &&
    (commentBefore? here).any fun previous =>
      previous.kind == .lineComment && (previous.stop : Int) == last.entry.stop

/-- Puts a line comment behind the outlines finished so far, the latest of which comes first
(`_check_line_comment`). -/
def addComment (here : Cursor) (finished : List (Outline String)) : List (Outline String) :=
  match finished with
  | last :: earlier =>
    if continuesRun here last then mk ⟨"", .commentRun, last.entry.start, here.stop⟩ [] :: earlier
    else mk ⟨"", .commentRun, here.offset, here.stop⟩ [] :: last :: earlier
  | [] => [mk ⟨"", .commentRun, here.offset, here.stop⟩ []]

/-- A binding that names a closure leaves the name to the closure (`_check_let_binding`,
specification, section 4.2). Otherwise what the pattern binds is declared, and then the last expression is looked at, unless
it is the pattern. -/
def checkLetBinding (branches : List Branch) : Walk Unit :=
  let pattern? := Branch.pattern? branches
  if pattern?.any (·.here.kind.isClosure) then Branch.checkIn .reference pattern?
  else do
    Branch.checkIn .variableBinding pattern?
    Branch.checkFirstExpr .reference (pattern?.map (·.here.offset)) branches.reverse

/-- A loop looks at what it goes through, declares what its pattern binds, and then looks at the body, which
is the last expression unless that is what it goes through (`_check_for_loop`, specification, section 4.2). -/
def checkForLoop (branches : List Branch) : Walk Unit := do
  let iterable? := (branches.dropWhile (·.here.kind != .inKeyword)).find? (·.here.kind.isExpr)
  Branch.checkIn .reference iterable?
  Branch.checkIn .variableBinding (Branch.pattern? branches)
  Branch.checkFirstExpr .reference (iterable?.map (·.here.offset)) branches.reverse

/-- The name under which closures without one are entered. -/
def anonymousName : String := "<anonymous>"

def anonymousEntry (here : Cursor) : Entry String := Symbol.entryAt here anonymousName (.named .function)

/-- Checks the name of a closure, if the first of its children is one. -/
def checkClosureName (branches : List Branch) : Walk Unit :=
  match branches with
  | first :: _ => if first.here.kind = .ident then Branch.checkIn .functionName (some first) else pure ()
  | [] => pure ()

/-- Takes back the entry for the name of a closure, unless no more than `before` outlines are finished, and widens
it to the closure; without a name the closure gets an entry of its own. -/
def takeClosureEntry (here : Cursor) (before : Nat) : Walk (Entry String) := do
  let outlines ← Walk.finished
  if outlines.length = before then return anonymousEntry here
  else
    match outlines with
    | [] => Walk.fail .noEntry
    | name :: earlier => do
      Walk.changeFinished fun _ => earlier
      return { name.entry with start := here.offset, stop := here.stop }

/-- A closure with a body becomes a function (`_check_closure`, specification, section 4.2). -/
def checkClosure (here : Cursor) (branches : List Branch) : Walk Unit := do
  let before := (← Walk.finished).length
  checkClosureName branches
  match branches.reverse.find? (·.here.kind.isExpr) with
  | none => pure ()
  | some body =>
    Walk.push (← takeClosureEntry here before)
    let height ← Walk.height
    Branch.checkIn .reference (some body)
    Walk.closeTo (height - 1)

/-- A named pair looks at its value (`_check_named`). Among parameters it declares its name too. -/
def checkNamed (branches : List Branch) : Walk Unit := do
  let naming := (← get).naming
  if naming = .parameter then
    Branch.checkFirstExpr .reference none branches.reverse
    Branch.checkIn .variableBinding (branches.find? (·.here.kind = .ident))
  else Branch.checkFirstExpr naming none branches.reverse

/-- Goes through what lies beneath an entry (`_check_symbol`, specification, section 4.2). A heading stays open for
the content behind it. -/
def checkSymbol (symbol : Entry String) (branches : List Branch) : Walk Unit := do
  Walk.makeRoom symbol.kind
  Walk.push symbol
  let height ← Walk.height
  Branch.checkAll branches
  Walk.closeTo (if symbol.kind.isHeading then height else height - 1)

/-- Goes through what lies beneath a node that is no entry by itself (`_check_structure`). -/
def checkStructure (here : Cursor) (branches : List Branch) : Walk Unit := do
  match here.kind with
  | .lineComment => Walk.changeFinished (addComment here)
  | .letBinding => checkLetBinding branches
  | .forLoop => checkForLoop branches
  | .closure => if (← get).scope.affectsSymbol then checkClosure here branches else Branch.checkAll branches
  | .fieldAccess => Branch.checkFirstExpr (← get).naming none branches
  | .named => checkNamed branches
  | .moduleImport => pure ()
  | kind => if kind.isTrivia || kind.isKeyword || kind.isError then pure () else Branch.checkAll branches

def requireDepth (here : Cursor) : Walk Unit := do
  if Syntax.maxNesting < (← get).depth then
    Walk.fail (.structure (.tooDeep here.kind here.offset here.stop))

/-- What is done at the place of a node. -/
def visit (here : Cursor) (branches : List Branch) : Walk Unit :=
  Walk.deeper do
    requireDepth here
    let builder ← get
    let symbol? ← Walk.ofExcept (Symbol.classify here builder.scope builder.naming)
    Walk.withNaming (namingBeneath here.kind builder.naming) do
      match symbol? with
      | some symbol => checkSymbol symbol branches
      | none => checkStructure here branches

/-- Whether the stack has room for the visit of a place and for the calls that the visit makes itself; places beneath it are
visits of their own. How many calls there are between one visit and the next is left open. -/
abbrev Room := Cursor → Bool

/-- The room of a stack that has no end. -/
def Room.endless : Room := fun _ => true

/-- What is done at the place of a node, if there is room for it. -/
def visitWithin (room : Room) (here : Cursor) (branches : List Branch) : Walk Unit :=
  if room here then visit here branches else Walk.fail .noCall

mutual

/-- Visits a node and what lies beneath it (`check_node`). -/
def check (room : Room) (node : Node) (parent? : Option Cursor) (index offset : Nat) : Walk Unit :=
  match node with
  | .leaf kind text => visitWithin room (.mk (.leaf kind text) parent? index offset) []
  | .inner kind children =>
    let here := .mk (.inner kind children) parent? index offset
    visitWithin room here (branches room here 0 offset children)
termination_by structural node

/-- The branches of consecutive children, the first of which has the given index and offset. -/
def branches (room : Room) (parent : Cursor) (index offset : Nat) (nodes : List Node) : List Branch :=
  match nodes with
  | [] => []
  | node :: nodes =>
    ⟨.mk node (some parent) index offset, check room node (some parent) index offset⟩ ::
      branches room parent (index + 1) (offset + node.byteLen) nodes
termination_by structural nodes

end

/-- Visits a place and what lies beneath it on a stack that has room for some visits. -/
def checkWithin (room : Room) (here : Cursor) : Walk Unit :=
  check room here.node here.parent? here.index here.offset

/-- Visits a place and what lies beneath it. -/
def checkAt (here : Cursor) : Walk Unit := checkWithin .endless here

theorem branches_eq_map (room : Room) (parent : Cursor) (index offset : Nat) (nodes : List Node) :
    branches room parent index offset nodes =
      (Cursor.siblings parent index offset nodes).map fun here => ⟨here, checkWithin room here⟩ := by
  induction nodes generalizing index offset with
  | nil => simp [branches, Cursor.siblings]
  | cons node nodes ih => simp [branches, Cursor.siblings, ih, checkWithin, Cursor.node, Cursor.parent?,
      Cursor.index, Cursor.offset]

/-- A place is checked by a visit with its children as branches. -/
theorem checkWithin_eq_visitWithin (room : Room) (here : Cursor) :
    checkWithin room here =
      visitWithin room here (here.children.map fun child => ⟨child, checkWithin room child⟩) := by
  obtain ⟨node, parent?, index, offset⟩ := here
  cases node with
  | leaf kind text =>
    simp [checkWithin, check, Cursor.children, Cursor.siblings, Cursor.node, Cursor.parent?, Cursor.index,
      Cursor.offset, Node.children]
  | inner kind children =>
    simp [checkWithin, check, branches_eq_map, Cursor.children, Cursor.node, Cursor.parent?, Cursor.index,
      Cursor.offset, Node.children]

theorem checkAt_eq_visit (here : Cursor) :
    checkAt here = visit here (here.children.map fun child => ⟨child, checkAt child⟩) :=
  checkWithin_eq_visitWithin .endless here

namespace Builder

/-- Starts afresh with the sentinel as the only frame. -/
def restart (builder : Builder) : Builder :=
  { builder with frames := [Frame.sentinel], naming := .reference, depth := 0 }

/-- What is finished inside the only frame that is open. -/
def forest : Builder → Except Fault Forest
  | { frames := [bottom], .. } => .ok bottom.finished.reverse
  | _ => .error .noEntry

/-- What comes of a walk at its end. Whatever is open then is closed, the sentinel included. -/
def finish (walked : Except Fault Unit × Builder) : Except Fault Forest × Builder :=
  let after := (Walk.closeTo 1 walked.2).2
  (walked.1.bind fun _ => after.forest, { after with frames := after.frames.drop 1 })

/-- Walks through the tree under a root and collects its outline (`run`). Whatever is open at the end, also
after a failure, is closed, the sentinel included. -/
def run (root : Cursor) : StateM Builder (Except Fault Forest) := fun builder =>
  finish (checkAt root builder.restart)

/-- The same on a stack that has room for some visits. A walk for which there is not enough room is broken off: what is open
then stays open. -/
def runWithin (room : Room) (root : Cursor) : StateM Builder (Except Fault Forest) := fun builder =>
  match checkWithin room root builder.restart with
  | (.error .noCall, left) => (.error .noCall, left)
  | walked => finish walked

end Builder

/-- The outline of the tree under a root, or why there is none (`build_hierarchy`). -/
def build (root : Cursor) (scope : Scope) : Except Fault Forest := (Builder.run root { scope }).1

/-! ## Outlines of sources

From the text of a document to its outline, with the help of a parser. The parser may fail in its own ways;
the tree it gives may turn out to be one that cannot be outlined.
-/

/-- A parser, from a document's text to a tree. It may fail with a message. -/
abbrev Parser := String → Except String Grammar.Tree

/-- Why a document has no outline. -/
inductive ExtractError where
  | parser (message : String)
  | outline (fault : Fault)
deriving Repr

namespace ExtractError

/-- The log records of a failure: a tree that cannot be outlined leaves one. -/
def records : ExtractError → List Log.Record
  | outline (.structure error) => [error.record]
  | _ => []

end ExtractError

/-- The syntax tree of a document in the language of the given tables (`parse_source`). -/
def parse (parser : Parser) (tables : Grammar.Tables) (content : String) :
    Except ExtractError Syntax.Node := do
  let tree ← (parser content).mapError .parser
  (Grammar.lowerRoot tables (Text.encode content) tree).mapError (.outline ∘ .structure)

/-- The outline of a document (`extract_outline`). One in an unknown language has no entries, and is not
parsed. -/
def extract (parser : Parser) (content : String) (scope : Symbol.Scope) (language : String) :
    Except ExtractError Forest :=
  match Grammar.languages.lookup language with
  | none => .ok []
  | some tables => do
    let tree ← parse parser tables content
    (build (Syntax.Cursor.root tree) scope).mapError .outline

end DocOutline.Outline
