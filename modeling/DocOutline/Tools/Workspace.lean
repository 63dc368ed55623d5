import DocOutline.Index.Symbols
import DocOutline.Store.Basic
import DocOutline.Tools.Document

/-!
# Workspaces

The tools that index a folder of documents, and those that ask for what was indexed.
-/

namespace DocOutline.Tools

/-- A document of a folder that has an outline. -/
structure Indexed where
  file : String
  content : String
  forest : Forest

def Indexed.symbols (document : Indexed) : List Json :=
  (Index.documentSymbols document.file (Lines.ofText document.content) document.forest).map (·.toJson)

/-- Outlines the document at the end of `parts` in a folder, or says why it has no outline. -/
def indexDocument (folder : Path) (parts : List String) : Action (Except String Indexed) := do
  let file := Discovery.pathText parts
  let path : Path := { folder with parts := folder.parts ++ parts }
  match ← Action.outcome (readText path) with
  | .error fault => return .error s!"Failed to read {file}: {fault.message}"
  | .ok content =>
    match ← Action.outcome (outlineOf content .symbol ((Discovery.language? path).getD "")) with
    | .ok (some forest) => return .ok ⟨file, content, forest⟩
    | .ok none => return .error s!"Outline analysis failed for {file}"
    | .error fault =>
      Action.log ⟨"parse failed", .warning, [("file", .str file), ("error", .str fault.message)]⟩
      return .error s!"Failed to parse {file}: {fault.message}"

def outlined (tried : List (Except String Indexed)) : List Indexed := tried.filterMap Except.toOption

/-- The warnings about documents without an outline. -/
def warnings (tried : List (Except String Indexed)) : List String :=
  tried.filterMap fun
    | .ok _ => none
    | .error warning => some warning

def indexFailure (message : String) (more : List (String × Json)) : Json :=
  .obj ([("success", .bool false), ("error", .str message)] ++ more)

/-- How many documents the result of indexing names. -/
def maxNamed : Nat := 20

/-- Stores what was found in a folder, and reports on the documents that were tried. -/
def storeFolder (folder : Path) (tried : List (Except String Indexed)) : Action Json := do
  let documents := outlined tried
  let files := documents.map fun document => Json.str document.file
  let symbols := documents.flatMap Indexed.symbols
  let store ← Store.openIn (← read).storage?
  let snapshot ← store.save folder.name (.arr files) (.arr symbols)
    (documents.map fun document => (document.file, document.forest))
    (documents.map fun document => (document.file, document.content))
  let result := [("success", .bool true), ("workspace", .str folder.name), ("folder_path", .str folder.toText),
    ("indexed_at", snapshot.indexedAt), ("document_count", .nat documents.length),
    ("symbol_count", .nat symbols.length), ("documents", .arr (files.take maxNamed))]
  let warned := if (warnings tried).isEmpty then [] else [("warnings", .strings (warnings tried))]
  let noted :=
    if Discovery.maxFiles ≤ tried.length then
      [("note", .str s!"Folder has many documents; indexed first {Discovery.maxFiles}")]
    else []
  return .obj (result ++ warned ++ noted)

/-- Indexes the documents in a folder (`index_folder`). -/
def indexFolder (path : Json) : Action Json := do
  let text ← Action.access path.pathText
  let folder ← Action.ask Disk.resolve (← Action.expand (Path.ofText text))
  if !(← Action.ask Disk.exists? folder) then return indexFailure s!"Folder not found: {text}" []
  if !(← Action.ask Disk.isFolder? folder) then return indexFailure s!"Path is not a directory: {text}" []
  let sources ← Discovery.discover folder (.nat Discovery.maxFiles) Discovery.maxSize
  if sources.isEmpty then return indexFailure "No Typst documents found" []
  let tried ← sources.mapM (indexDocument folder)
  if (outlined tried).isEmpty then
    return indexFailure "No documents could be outlined" [("warnings", .strings (warnings tried))]
  storeFolder folder tried

/-- Adds up a member of all summaries. -/
def total (name : String) (summaries : List Json) : Json :=
  .int (summaries.foldl (fun sum summary => sum + ((summary.member? name).bind Json.integer?).getD 0) 0)

/-- Lists the workspaces of the store (`list_workspaces`). Its files are read within a limit. -/
def listWorkspacesWithin (limit : Limit) : Action Json := do
  let store ← Store.openIn (← read).storage?
  let summaries ← Store.listWithin limit store
  return .obj [("count", .nat summaries.length), ("document_total", total "document_count" summaries),
    ("symbol_total", total "symbol_count" summaries), ("workspaces", .arr summaries)]

def listWorkspaces : Action Json := listWorkspacesWithin none

def symbolKinds : List String := ["heading", "label", "function", "variable"]

/-- Members of a value, each under its name. -/
def membersOf (value : Json) (names : List String) : Except Json.Fault (List (String × Json)) :=
  names.mapM fun name => do return (name, ← value.member name)

/-- A symbol that was found, with its points. -/
def searchResult (query : Index.Query) (symbol : Json) : Except Json.Fault Json := do
  let members ← membersOf symbol ["id", "kind", "lsp_kind", "name", "qualified_name", "file", "line"]
  return .obj (members ++ [("score", .nat (← Index.score query symbol))])

def notIndexed (workspace : Json) : Json := failure s!"Workspace not indexed: {workspace.display}"

/-- Searches a workspace for symbols (`search_symbols`). -/
def searchSymbols (workspace query kind pattern stop : Json) : Action Json := do
  if kind.isPresent && !symbolKinds.any (fun word => kind.same (.str word)) then
    return failure s!"Unknown symbol kind: {kind.display}"
  let store ← Store.openIn (← read).storage?
  match ← store.load workspace.display with
  | none => return notIndexed workspace
  | some snapshot =>
    let words := Index.Query.ofText (← Action.access (query.text "lower"))
    let found ← Action.access (snapshot.search words kind pattern)
    let named ← Action.access (Json.takeTo stop found)
    let results ← named.mapM fun symbol => Action.access (searchResult words symbol)
    return .obj [("workspace", workspace), ("query", query), ("result_count", .nat results.length),
      ("results", .arr results)]

/-- The source of a symbol in a workspace. Only a text can name the folder of its documents. -/
def sourceIn (store : Store) (workspace id : Json) : Action (Option String) :=
  match workspace with
  | .str name => store.content name id
  | workspace => Action.access (.error (.notJoinable workspace.typeWord))

/-- Looks up a symbol and its source (`get_symbol`). -/
def getSymbol (workspace id : Json) : Action Json := do
  let store ← Store.openIn (← read).storage?
  match ← store.load workspace.display with
  | none => return notIndexed workspace
  | some snapshot =>
    match ← Store.presentSymbol? snapshot id with
    | none => return failure s!"Symbol not found: {id.display}"
    | some symbol =>
      let source ← sourceIn store workspace id
      let members ← Action.access
        (membersOf symbol ["id", "kind", "name", "qualified_name", "file", "line", "end_line"])
      let parent ← Action.access (symbol.optionalMember "parent")
      return .obj (members ++ [("parent", .ofOption parent), ("source", .str (source.getD ""))])

end DocOutline.Tools
