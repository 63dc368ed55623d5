/-!
# Kinds of syntax

The closed set of tags that nodes of a document tree carry: markup first, then white space and comments, code,
punctuation, keywords, and the tag of what could not be parsed. Each has a name in text, given by `name` and
read back by `ofName?`.
-/

namespace DocOutline.Syntax

/-- The tag of a syntax node (`SyntaxKind`). -/
inductive Kind where
  | markup | text | space | linebreak | parbreak | escape | shorthand | smartQuote | strong | emph | raw
  | link | label | ref | refMarker | heading | headingMarker | listItem | enumItem | termItem | equation
  | math
  | lineComment | blockComment
  | code | codeBlock | contentBlock | ident | bool | int | float | numeric | str | parenthesized | array
  | dict | named | keyed | unary | binary | fieldAccess | funcCall | args | spread | closure | params
  | letBinding | setRule | showRule | contextual | conditional | whileLoop | forLoop | moduleImport
  | importItems | moduleInclude | loopBreak | loopContinue | funcReturn | destructuring
  | hash | leftBrace | rightBrace | leftBracket | rightBracket | leftParen | rightParen | comma
  | semicolon | colon | dot | dollar | star | underscore | eq | arrow | operator
  | notKeyword | andKeyword | orKeyword | noneKeyword | autoKeyword | letKeyword | setKeyword
  | showKeyword | contextKeyword | ifKeyword | elseKeyword | forKeyword | inKeyword | whileKeyword
  | breakKeyword | continueKeyword | returnKeyword | importKeyword | includeKeyword | asKeyword
  | error
deriving DecidableEq, Repr, Inhabited

namespace Kind

/-- The name of a kind in text. -/
def name : Kind → String
  | .markup => "markup"
  | .text => "text"
  | .space => "space"
  | .linebreak => "linebreak"
  | .parbreak => "parbreak"
  | .escape => "escape"
  | .shorthand => "shorthand"
  | .smartQuote => "smart_quote"
  | .strong => "strong"
  | .emph => "emph"
  | .raw => "raw"
  | .link => "link"
  | .label => "label"
  | .ref => "ref"
  | .refMarker => "ref_marker"
  | .heading => "heading"
  | .headingMarker => "heading_marker"
  | .listItem => "list_item"
  | .enumItem => "enum_item"
  | .termItem => "term_item"
  | .equation => "equation"
  | .math => "math"
  | .lineComment => "line_comment"
  | .blockComment => "block_comment"
  | .code => "code"
  | .codeBlock => "code_block"
  | .contentBlock => "content_block"
  | .ident => "ident"
  | .bool => "bool"
  | .int => "int"
  | .float => "float"
  | .numeric => "numeric"
  | .str => "str"
  | .parenthesized => "parenthesized"
  | .array => "array"
  | .dict => "dict"
  | .named => "named"
  | .keyed => "keyed"
  | .unary => "unary"
  | .binary => "binary"
  | .fieldAccess => "field_access"
  | .funcCall => "func_call"
  | .args => "args"
  | .spread => "spread"
  | .closure => "closure"
  | .params => "params"
  | .letBinding => "let_binding"
  | .setRule => "set_rule"
  | .showRule => "show_rule"
  | .contextual => "contextual"
  | .conditional => "conditional"
  | .whileLoop => "while_loop"
  | .forLoop => "for_loop"
  | .moduleImport => "module_import"
  | .importItems => "import_items"
  | .moduleInclude => "module_include"
  | .loopBreak => "loop_break"
  | .loopContinue => "loop_continue"
  | .funcReturn => "func_return"
  | .destructuring => "destructuring"
  | .hash => "hash"
  | .leftBrace => "left_brace"
  | .rightBrace => "right_brace"
  | .leftBracket => "left_bracket"
  | .rightBracket => "right_bracket"
  | .leftParen => "left_paren"
  | .rightParen => "right_paren"
  | .comma => "comma"
  | .semicolon => "semicolon"
  | .colon => "colon"
  | .dot => "dot"
  | .dollar => "dollar"
  | .star => "star"
  | .underscore => "underscore"
  | .eq => "eq"
  | .arrow => "arrow"
  | .operator => "operator"
  | .notKeyword => "not"
  | .andKeyword => "and"
  | .orKeyword => "or"
  | .noneKeyword => "none"
  | .autoKeyword => "auto"
  | .letKeyword => "let"
  | .setKeyword => "set"
  | .showKeyword => "show"
  | .contextKeyword => "context"
  | .ifKeyword => "if"
  | .elseKeyword => "else"
  | .forKeyword => "for"
  | .inKeyword => "in"
  | .whileKeyword => "while"
  | .breakKeyword => "break"
  | .continueKeyword => "continue"
  | .returnKeyword => "return"
  | .importKeyword => "import"
  | .includeKeyword => "include"
  | .asKeyword => "as"
  | .error => "error"

/-- All kinds, in the order of their declaration. -/
def all : List Kind := [
  .markup, .text, .space, .linebreak, .parbreak, .escape, .shorthand, .smartQuote, .strong, .emph, .raw,
  .link, .label, .ref, .refMarker, .heading, .headingMarker, .listItem, .enumItem, .termItem, .equation,
  .math, .lineComment, .blockComment, .code, .codeBlock, .contentBlock, .ident, .bool, .int, .float,
  .numeric, .str, .parenthesized, .array, .dict, .named, .keyed, .unary, .binary, .fieldAccess,
  .funcCall, .args, .spread, .closure, .params, .letBinding, .setRule, .showRule, .contextual,
  .conditional, .whileLoop, .forLoop, .moduleImport, .importItems, .moduleInclude, .loopBreak,
  .loopContinue, .funcReturn, .destructuring, .hash, .leftBrace, .rightBrace, .leftBracket,
  .rightBracket, .leftParen, .rightParen, .comma, .semicolon, .colon, .dot, .dollar, .star, .underscore,
  .eq, .arrow, .operator, .notKeyword, .andKeyword, .orKeyword, .noneKeyword, .autoKeyword, .letKeyword,
  .setKeyword, .showKeyword, .contextKeyword, .ifKeyword, .elseKeyword, .forKeyword, .inKeyword,
  .whileKeyword, .breakKeyword, .continueKeyword, .returnKeyword, .importKeyword, .includeKeyword,
  .asKeyword, .error]

def ofName? (text : String) : Option Kind := all.find? (·.name == text)

def title (kind : Kind) : String := String.ofList (kind.name.toList.map Char.toUpper)

/-- Whether nodes of this kind carry no meaning of their own. -/
def isTrivia : Kind → Bool
  | .space | .lineComment | .blockComment => true
  | _ => false

def isKeyword : Kind → Bool
  | .notKeyword | .andKeyword | .orKeyword | .noneKeyword | .autoKeyword | .letKeyword | .setKeyword
  | .showKeyword | .contextKeyword | .ifKeyword | .elseKeyword | .forKeyword | .inKeyword
  | .whileKeyword | .breakKeyword | .continueKeyword | .returnKeyword | .importKeyword | .includeKeyword
  | .asKeyword => true
  | _ => false

def isError (kind : Kind) : Bool := kind == .error

/-- Whether nodes of this kind are expressions, of markup or of code (`Expr`, specification, section 10.1).
White space is none. -/
def isExpr : Kind → Bool
  | .text | .linebreak | .parbreak | .escape | .shorthand | .smartQuote | .strong | .emph | .raw | .link
  | .label | .ref | .heading | .listItem | .enumItem | .termItem | .equation | .ident | .noneKeyword
  | .autoKeyword | .bool | .int | .float | .numeric | .str | .codeBlock | .contentBlock | .parenthesized
  | .array | .dict | .unary | .binary | .fieldAccess | .funcCall | .closure | .letBinding | .setRule
  | .showRule | .contextual | .conditional | .whileLoop | .forLoop | .moduleImport | .moduleInclude
  | .loopBreak | .loopContinue | .funcReturn => true
  | _ => false

/-- Whether nodes of this kind can be the bound side of a declaration: a name, a wildcard or a destructuring
(`Pattern`, specification, section 10.1). Every expression counts as one. -/
def isPattern (kind : Kind) : Bool := kind == .destructuring || kind == .underscore || kind.isExpr

/-- Whether a declaration with this pattern gives a name to a closure. -/
def isClosure (kind : Kind) : Bool := kind == .closure

end Kind

end DocOutline.Syntax
