import DocOutline.Json.Access
import DocOutline.Syntax.Kind

/-!
# Symbols

What the entries of an outline are, what decides which of them there are, and how they are stored.
-/

namespace DocOutline.Symbol

/-! ## Kinds of symbols

What an entry of an outline is: a heading with its level, a name with its role, an anonymous group, or a run
of comments. `lspKind?` gives the number under which the language server protocol knows the kind, if it
has one; an entry without such a number is no symbol to the outside.
-/

/-- How a name is used where it appears (`SymbolRole`). -/
inductive Role where
  | reference
  | labelReference
  | label
  | bibliographyKey
  | variable
  | function
deriving DecidableEq, Repr, Inhabited

def Role.name : Role → String
  | .reference => "reference"
  | .labelReference => "label_reference"
  | .label => "label"
  | .bibliographyKey => "bibliography_key"
  | .variable => "variable"
  | .function => "function"

def Role.all : List Role := [.reference, .labelReference, .label, .bibliographyKey, .variable, .function]

def Role.ofName? (text : String) : Option Role := all.find? (·.name == text)

/-- What an entry of an outline is (`SymbolKind`, specification, section 3). -/
inductive Kind where
  | heading (level : Int)
  | named (role : Role)
  | group
  | commentRun
deriving DecidableEq, Repr, Inhabited

namespace Kind

def isHeading : Kind → Bool
  | heading _ => true
  | _ => false

def isGroup : Kind → Bool
  | group => true
  | _ => false

/-- The level of a heading; nothing else has one. -/
def level? : Kind → Option Int
  | heading level => some level
  | _ => none

/-- The word for a kind. For a name it is the word for its role. -/
def label : Kind → String
  | heading _ => "heading"
  | named role => role.name
  | group => "group"
  | commentRun => "comment_run"

/-- The number of a kind in the language server protocol: a heading is a namespace, a label a constant
(`to_lsp_symbol_kind`, specification, section 10.3). -/
def lspKind? : Kind → Option Nat
  | heading _ => some 3
  | named .function => some 12
  | named .variable => some 13
  | named .label => some 14
  | _ => none

end Kind

/-! ## Scopes and naming contexts

A scope says which constructs of a document become entries of its outline. A naming context says how the next
identifier is to be understood.
-/

/-- What an outline is made of (`ScopeConfiguration`, specification, section 4.3). Under `symbol` these are
headings, labels, functions and variables; under `braced` headings and a group for every block. -/
inductive Scope where
  | symbol
  | braced
deriving DecidableEq, Repr, Inhabited

namespace Scope

def name : Scope → String
  | symbol => "symbol"
  | braced => "braced"

def all : List Scope := [symbol, braced]

def ofName? (text : String) : Option Scope := all.find? (·.name == text)

def affectsSymbol (scope : Scope) : Bool := scope == symbol

def affectsMarkup (scope : Scope) : Bool := scope == braced

def affectsBlock (scope : Scope) : Bool := scope == braced

def affectsExpr (scope : Scope) : Bool := scope == braced

def affectsHeading (_ : Scope) : Bool := true

end Scope

/-- How an identifier is understood (`NamingContext`). -/
inductive Naming where
  | reference
  | functionName
  | variableBinding
  | parameter
deriving DecidableEq, Repr, Inhabited

namespace Naming

def name : Naming → String
  | reference => "reference"
  | functionName => "function_name"
  | variableBinding => "variable_binding"
  | parameter => "parameter"

def all : List Naming := [reference, functionName, variableBinding, parameter]

def ofName? (text : String) : Option Naming := all.find? (·.name == text)

end Naming

/-! ## Entries

One named or anonymous region of a document. The names that an analysis finds are texts; a stored entry may
carry any value as its name, and keeps it.
-/

/-- What can stand as the name of an entry. -/
class Name (ν : Type) where
  /-- The name as a value. -/
  toJson : ν → Json
  /-- The name as a part of a longer one. -/
  display : ν → String

instance : Name String := ⟨.str, id⟩

instance : Name Json := ⟨id, Json.display⟩

/-- A region of a document, from byte `start` up to byte `stop` (`SymbolEntry`, specification, section 3). -/
structure Entry (ν : Type) where
  name : ν
  kind : Kind
  start : Int
  stop : Int
deriving DecidableEq, Repr, Inhabited

/-! ## Stored kinds of symbols

A group and a run of comments are stored as a word, a heading and a name as an object with one member that
holds the level or the role. Reading takes more than writing gives: the level may be anything that converts
to an integer, and further members do not matter.
-/

/-- The sets of names in which a value is looked up. -/
inductive NameSet where
  | kinds
  | roles
  | namings
  | scopes
  | syntaxKinds
deriving DecidableEq, Repr

def NameSet.words : NameSet → String
  | kinds => "KindTag"
  | roles => "SymbolRole"
  | namings => "NamingContext"
  | scopes => "ScopeConfiguration"
  | syntaxKinds => "SyntaxKind"

/-- Why a value is no stored symbol. -/
inductive ReadError where
  | missingField (name : String)
  | unknownName (set : NameSet) (value : Json)
  | needsPayload (kind : String)
  | unknownKind (value : Json)
  /-- A part of the value has the wrong shape. -/
  | access (fault : Json.Fault)
deriving Repr

namespace ReadError

def message : ReadError → String
  | missingField name => "missing field `" ++ name ++ "`"
  | unknownName set value => s!"{value.literal} is not a valid {set.words}"
  | needsPayload kind => s!"Symbol kind {Text.quoted kind} needs a payload"
  | unknownKind value => s!"Unknown symbol kind: {value.literal}"
  | access fault => fault.message

def family : ReadError → Json.Fault.Family
  | access fault => fault.family
  | _ => .value

end ReadError

/-- An attempt to take a value apart, as part of an attempt to read a symbol. -/
def attempt (found : Except Json.Fault α) : Except ReadError α := found.mapError .access

/-- The member of a set that a value names. -/
def lookUp (set : NameSet) (ofName? : String → Option α) (value : Json) : Except ReadError α :=
  match value with
  | .str text =>
    match ofName? text with
    | some a => .ok a
    | none => .error (.unknownName set value)
  | value => .error (.unknownName set value)

def Role.ofJson (value : Json) : Except ReadError Role := lookUp .roles Role.ofName? value

def Scope.ofJson (value : Json) : Except ReadError Scope := lookUp .scopes Scope.ofName? value

def Naming.ofJson (value : Json) : Except ReadError Naming := lookUp .namings Naming.ofName? value

def syntaxKindOfJson (value : Json) : Except ReadError Syntax.Kind :=
  lookUp .syntaxKinds Syntax.Kind.ofName? value

namespace Kind

/-- The stored form of a kind (`to_json`). -/
def toJson : Kind → Json
  | heading level => .obj [("heading", .int level)]
  | named role => .obj [("named", .str role.name)]
  | group => .str "group"
  | commentRun => .str "comment_run"

def ofWord (word : String) : Except ReadError Kind :=
  if word = "group" then .ok group
  else if word = "comment_run" then .ok commentRun
  else if word = "heading" ∨ word = "named" then .error (.needsPayload word)
  else .error (.unknownName .kinds (.str word))

/-- The kind of a stored form (`from_json`). -/
def ofJson (value : Json) : Except ReadError Kind :=
  match value with
  | .str word => ofWord word
  | value => do
    if ← attempt (value.holds "heading") then
      return heading (← attempt (value.member "heading" >>= Json.toInteger))
    if ← attempt (value.holds "named") then
      return named (← Role.ofJson (← attempt (value.member "named")))
    .error (.unknownKind value)

end Kind

end DocOutline.Symbol
