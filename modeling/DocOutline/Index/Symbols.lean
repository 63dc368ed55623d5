import DocOutline.Outline.Basic
import DocOutline.Text.Bytes

/-!
# Symbols of a document

The symbols of a document are those entries of its outline that have a kind in the language server protocol,
in the order of the outline. Each has an identifier made of the document's path and of its qualified name,
which is made of its own name and those of the symbols around it; the second and later symbols of the same
identifier get a number. Groups and runs of comments are no symbols, but what is nested in them counts as
nested in the nearest symbol around.
-/

namespace DocOutline.Index

open DocOutline.Symbol (Entry Name)

/-- A path as part of an identifier: slashes and points become hyphens (`slugify`). -/
def slugify (path : String) : String :=
  String.ofList (path.toList.map fun c => if c = '/' ∨ c = '.' then '-' else c)

/-- The identifier of a name in a document (`make_symbol_id`). -/
def symbolId (path qualifiedName : String) : String := slugify path ++ "::" ++ qualifiedName

/-- A symbol of a document. -/
structure DocSymbol (ν : Type) where
  id : String
  file : String
  name : ν
  qualifiedName : String
  kind : Symbol.Kind
  lspKind : Nat
  /-- The identifier of the symbol around this one. -/
  parent? : Option String
  line : Nat
  endLine : Nat
  byteOffset : Int
  byteLength : Int
deriving Repr

variable {ν : Type} [Name ν]

/-- The stored form of a symbol. A symbol with none around it is qualified by its name alone. -/
def DocSymbol.toJson (symbol : DocSymbol ν) : Json :=
  .obj [("id", .str symbol.id), ("file", .str symbol.file), ("name", Name.toJson symbol.name),
    ("qualified_name",
      if symbol.parent?.isSome then .str symbol.qualifiedName else Name.toJson symbol.name),
    ("kind", .str symbol.kind.label), ("lsp_kind", .nat symbol.lspKind),
    ("parent", .ofOption (symbol.parent?.map .str)),
    ("line", .nat symbol.line), ("end_line", .nat symbol.endLine),
    ("byte_offset", .int symbol.byteOffset), ("byte_length", .int symbol.byteLength)]

/-- The name of an entry, behind that of the symbol around it. -/
def qualify (parent? : Option (DocSymbol ν)) (name : ν) : String :=
  match parent? with
  | some parent => parent.qualifiedName ++ "." ++ Name.display name
  | none => Name.display name

/-- The identifier for an entry that would get `id`, where `issued` lists all that earlier entries would have
got. -/
def numbered (issued : List String) (id : String) : String :=
  if issued.contains id then id ++ "~" ++ toString (issued.count id + 1) else id

mutual

/-- The symbols of an outline inside `parent?`, and the identifiers without numbers that are given out then
(`collect_symbols`). -/
def collect (path : String) (lines : Lines) (parent? : Option (DocSymbol ν)) (issued : List String)
    (outline : Outline ν) : List (DocSymbol ν) × List String :=
  match outline with
  | .mk entry children =>
    match entry.kind.lspKind? with
    | none => collectAll path lines parent? issued children
    | some lspKind =>
      let qualifiedName := qualify parent? entry.name
      let id := symbolId path qualifiedName
      let symbol : DocSymbol ν := {
        id := numbered issued id
        file := path
        name := entry.name
        qualifiedName
        kind := entry.kind
        lspKind
        parent? := parent?.map (·.id)
        line := lines.lineOf entry.start + 1
        endLine := lines.endLineOf entry.start entry.stop + 1
        byteOffset := entry.start
        byteLength := entry.stop - entry.start }
      let (symbols, issued) := collectAll path lines (some symbol) (id :: issued) children
      (symbol :: symbols, issued)
termination_by structural outline

/-- The symbols of consecutive outlines. -/
def collectAll (path : String) (lines : Lines) (parent? : Option (DocSymbol ν)) (issued : List String)
    (outlines : List (Outline ν)) : List (DocSymbol ν) × List String :=
  match outlines with
  | [] => ([], issued)
  | outline :: outlines =>
    let (first, issued) := collect path lines parent? issued outline
    let (rest, issued) := collectAll path lines parent? issued outlines
    (first ++ rest, issued)
termination_by structural outlines

end

/-- The symbols of a document at a path, by its outline. -/
def documentSymbols (path : String) (lines : Lines) (outlines : List (Outline ν)) : List (DocSymbol ν) :=
  (collectAll path lines none [] outlines).1

end DocOutline.Index
