import DocOutline.Json.Printer
import DocOutline.Tools.Workspace

/-!
# The server

The tools as they are offered to a client, and calls of them by name. A call always gives a result: what goes
wrong inside a tool is logged and becomes a result that says so.
-/

namespace DocOutline.Tools

/-- A tool as it is offered. -/
structure Tool where
  name : String
  description : String
  /-- The arguments, each with its schema. -/
  arguments : List (String × Json)
  required : List String
deriving Repr

/-- The schema of a tool's arguments. Tools without arguments require none. -/
def Tool.schema (tool : Tool) : Json :=
  .obj ([("type", .str "object"), ("properties", .obj tool.arguments)] ++
    if tool.required.isEmpty then [] else [("required", .strings tool.required)])

def argument (type description : String) (more : List (String × Json)) : Json :=
  .obj ([("type", .str type), ("description", .str description)] ++ more)

def documentArgument : Json := argument "string" "Path to a .typ file" []

def workspaceArgument : Json := argument "string" "Workspace name (indexed folder name)" []

/-- The tools, in the order in which they are listed (`list_tools`, specification, section 10.7). -/
def tools : List Tool := [
  { name := "index_folder"
    description := "Index a local folder of Typst documents. Walks the directory, outlines every .typ file " ++
      "and saves the symbols for workspace search."
    arguments := [
      ("path", argument "string"
        "Path to local folder (absolute or relative, supports ~ for home directory)" [])]
    required := ["path"] },
  { name := "list_workspaces"
    description := "List indexed workspaces (folders of Typst documents) with document and symbol counts."
    arguments := []
    required := [] },
  { name := "get_document_outline"
    description := "Get the nested outline of a Typst document: headings, labels, functions and variables " ++
      "(scope 'symbol'), or the block structure (scope 'braced')."
    arguments := [
      ("path", documentArgument),
      ("scope", argument "string" "Which constructs count as symbols"
        [("enum", .strings (Symbol.Scope.all.map Symbol.Scope.name)), ("default", .str "symbol")])]
    required := ["path"] },
  { name := "get_folding_ranges"
    description := "Get the foldable regions of a Typst document: blocks, bracketed groups, comment runs and " ++
      "heading sections."
    arguments := [("path", documentArgument)]
    required := ["path"] },
  { name := "search_symbols"
    description := "Search for symbols matching a query across an indexed workspace."
    arguments := [
      ("workspace", workspaceArgument),
      ("query", argument "string" "Search query (matches symbol names)" []),
      ("kind", argument "string" "Optional filter by symbol kind" [("enum", .strings symbolKinds)]),
      ("file_pattern", argument "string"
        "Optional glob pattern to filter files (e.g., 'chapters/*.typ')" []),
      ("max_results", argument "integer" "Maximum number of results to return" [("default", .int 10)])]
    required := ["workspace", "query"] },
  { name := "get_symbol"
    description := "Get the source text of a specific symbol. Use after finding it with search_symbols."
    arguments := [
      ("workspace", workspaceArgument),
      ("symbol_id", argument "string" "Symbol ID from search_symbols" [])]
    required := ["workspace", "symbol_id"] }]

def requiredArgument (arguments : Json) (name : String) : Action Json := Action.access (arguments.member name)

def optionalArgument (arguments : Json) (name : String) (otherwise : Json) : Action Json := do
  return (← Action.access (arguments.optionalMember name)).getD otherwise

/-- Does what the tool of a name does. -/
def run (name : String) (arguments : Json) : Action Json :=
  match name with
  | "index_folder" => do indexFolder (← requiredArgument arguments "path")
  | "list_workspaces" => listWorkspaces
  | "get_document_outline" => do
    let path ← requiredArgument arguments "path"
    documentOutline path (← optionalArgument arguments "scope" (.str "symbol"))
  | "get_folding_ranges" => do foldingRanges (← requiredArgument arguments "path")
  | "search_symbols" => do
    let workspace ← requiredArgument arguments "workspace"
    let query ← requiredArgument arguments "query"
    let kind ← optionalArgument arguments "kind" .null
    let pattern ← optionalArgument arguments "file_pattern" .null
    searchSymbols workspace query kind pattern (← optionalArgument arguments "max_results" (.int 10))
  | "get_symbol" => do
    let workspace ← requiredArgument arguments "workspace"
    getSymbol workspace (← requiredArgument arguments "symbol_id")
  | name => return failure s!"Unknown tool: {name}"

/-- Calls a tool (`call_tool`). Its failure is logged, and the result then holds the message. -/
def call (name : String) (arguments : Json) : Action Json := do
  match ← Action.outcome (run name arguments) with
  | .ok result => return result
  | .error fault =>
    Action.log ⟨"tool failed", .error, [("tool", .str name)]⟩
    return failure fault.message

def resultText (result : Json) : String := result.pretty

end DocOutline.Tools
