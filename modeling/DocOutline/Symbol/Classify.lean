import DocOutline.Symbol.Basic
import DocOutline.Syntax.Cursor

/-!
# What is a symbol

Decides for a single node whether it opens an entry, without a look at its children: a label that anchors
something, an identifier that is declared, a block, or the body of a heading.
-/

namespace DocOutline.Symbol

/-- Whether a label behind a node of this kind is a value inside code, and so no anchor. -/
def precedesLabelValue : Syntax.Kind → Bool
  | .leftBracket | .leftBrace | .leftParen | .comma | .colon => true
  | kind => kind.isKeyword

def isMarkupGroup : Syntax.Kind → Bool
  | .equation | .raw | .blockComment => true
  | _ => false

def isBlockGroup : Syntax.Kind → Bool
  | .codeBlock | .contentBlock => true
  | _ => false

def isExprGroup : Syntax.Kind → Bool
  | .parenthesized | .destructuring | .args | .params | .array | .dict => true
  | _ => false

def isGroup (scope : Scope) (kind : Syntax.Kind) : Bool :=
  isMarkupGroup kind && scope.affectsMarkup || isBlockGroup kind && scope.affectsBlock ||
    isExprGroup kind && scope.affectsExpr

/-- The role of an identifier. One that is merely mentioned has none. -/
def Naming.role? : Naming → Option Role
  | .functionName => some .function
  | .variableBinding | .parameter => some .variable
  | .reference => none

def entryAt (here : Syntax.Cursor) (name : String) (kind : Kind) : Entry String :=
  ⟨name, kind, here.offset, here.stop⟩

/-- The failure to see the node at a place as what its kind claims. -/
def castFailure (here : Syntax.Cursor) : Syntax.StructureError :=
  .castFailed here.kind here.offset here.stop

/-- The entry of a label, unless the label is a value. -/
def classifyLabel (here : Syntax.Cursor) : Except Syntax.StructureError (Option (Entry String)) :=
  if here.prevKind?.any precedesLabelValue then .ok none
  else
    match here.node.labelName? with
    | some name => .ok (some (entryAt here name (.named .label)))
    | none => .error (castFailure here)

/-- The entry of an identifier, if it is declared. -/
def classifyIdent (here : Syntax.Cursor) (naming : Naming) :
    Except Syntax.StructureError (Option (Entry String)) :=
  match here.node.identName? with
  | some name => .ok (naming.role?.map fun role => entryAt here name (.named role))
  | none => .error (castFailure here)

/-- The entry of a heading, which belongs to the markup behind its marker. A heading without text has none. -/
def classifyMarkup (here : Syntax.Cursor) : Option (Entry String) :=
  match here.parent? with
  | some parent =>
    if parent.kind = .heading ∧ here.fullText ≠ "" then
      some (entryAt here here.fullText (.heading parent.node.headingDepth))
    else none
  | none => none

/-- The entry that the node at a place opens, or none if it is no symbol by itself (`classify`,
specification, section 4.1). -/
def classify (here : Syntax.Cursor) (scope : Scope) (naming : Naming) :
    Except Syntax.StructureError (Option (Entry String)) :=
  if here.kind = .label ∧ scope.affectsSymbol then classifyLabel here
  else if here.kind = .ident ∧ scope.affectsSymbol then classifyIdent here naming
  else if isGroup scope here.kind then .ok (some (entryAt here "" .group))
  else if here.kind = .markup ∧ scope.affectsHeading then .ok (classifyMarkup here)
  else .ok none

end DocOutline.Symbol
