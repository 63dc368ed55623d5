import DocOutline.Grammar.Lowering
import DocOutline.Json.Access
import DocOutline.Outline.View
import DocOutline.Store.Action
import DocOutline.Text.Basic
import DocOutline.Text.Case

/-!
# Documents of a folder

Which files of a folder are documents, and the tools that look at one of them.
-/

namespace DocOutline.Discovery

/-! ## Discovery

Which documents of a folder are indexed: those in a known language, below some size, and not in the folders
that are left out. Those nearer to the top come first.
-/

/-- The parts of paths for which a file is left out (`SKIP_PATTERNS`). -/
def skipPatterns : List String := [
  "node_modules/", "venv/", ".venv/", "__pycache__/", "dist/", "build/", ".git/", "target/", "test_data/",
  "testdata/", "fixtures/", "snapshots/", "generated/"]

/-- Whether a file is left out (`should_skip_file`). Backslashes in its path count as slashes. -/
def isSkipped (path : String) : Bool :=
  let path := String.ofList (path.toList.map fun c => if c = '\\' then '/' else c)
  skipPatterns.any (Text.isPartOf · path)

def maxFiles : Nat := 500

def maxSize : Nat := 500 * 1024

def pathText (parts : List String) : String := "/".intercalate parts

/-- The language of a document, by the suffix of its name. -/
def language? (path : Path) : Option String := Grammar.extensions.lookup path.suffix

/-- Whether what is at a path from the folder is a document to index. -/
def isEligible (maxSize : Int) : List String × Item → Bool
  | (parts, .file bytes) =>
    !isSkipped (pathText parts) && (language? ⟨"", parts⟩).isSome && (bytes.length : Int) ≤ maxSize
  | (_, .folder) => false

/-- The order of documents: by depth, then by path. -/
def isBefore (a b : List String) : Bool :=
  a.length < b.length || a.length == b.length && pathText a ≤ pathText b

/-- The documents among what lies in a folder, by the names that lead to them. -/
def documents (maxSize : Int) (items : List (List String × Item)) : List (List String) :=
  ((items.filter (isEligible maxSize)).map Prod.fst).mergeSort isBefore

def itemsIn (disk : Disk) (folder : Place) (path : Path) : Except Disk.Error (List (List String × Item)) := do
  if ← disk.isFolder? folder path then
    return disk.below (← disk.locate folder path)
  return []

/-- The documents in the folder at a path, as many of them as `stop` says (`discover_local_files`). -/
def discover (path : Path) (stop : Json) (maxSize : Int) : Action (List (List String)) := do
  let items ← Action.ask itemsIn path
  Action.access (Json.takeTo stop (documents maxSize items))

end DocOutline.Discovery

namespace DocOutline.Tools

open DocOutline.Symbol (Scope)

/-! ## Single documents

The tools that look at one document on the disk: its outline, and its folds.
-/

def failure (message : String) : Json := .obj [("error", .str message)]

/-- The text of a file. What is no UTF-8 is replaced. -/
def readText (path : Path) : Action String := do
  return Text.unifyLineEnds (Text.decode (← Action.ask Disk.read path))

/-- The text and the language of a document, or the reason why it cannot be used (`load_document`). -/
def loadDocument (path : Json) : Action (Except String (String × String)) := do
  let text ← Action.access path.pathText
  let path ← Action.expand (Path.ofText text)
  if ← Action.ask Disk.isFile? path then
    match Discovery.language? path with
    | none =>
      let shown := if path.suffix = "" then text else path.suffix
      return .error s!"Unsupported file type: {shown}"
    | some language =>
      match ← Action.outcome (readText path) with
      | .ok content => return .ok (content, language)
      | .error fault => return .error s!"Failed to read {text}: {fault.message}"
  else return .error s!"File not found: {text}"

/-- The outline of a document's text, or none, and a record, if its tree cannot be outlined. -/
def outlineOf (content : String) (scope : Scope) (language : String) : Action (Option Forest) := do
  match Outline.extract (← read).parser content scope language with
  | .ok forest => return some forest
  | .error error =>
    match error with
    | .outline (.structure _) =>
      error.records.forM Action.log
      return none
    | error => Action.ofExcept .extract (.error error)

/-- Loads a document and shows something of its outline. -/
def withOutline (path : Json) (scope : Scope) (view : String → String → Forest → Json) : Action Json := do
  match ← loadDocument path with
  | .error message => return failure message
  | .ok (content, language) =>
    match ← outlineOf content scope language with
    | none => return failure s!"Outline analysis failed for {path.display}"
    | some forest => return view content language forest

/-- The outline of a document (`get_document_outline`). -/
def documentOutline (path scope : Json) : Action Json := do
  let name ← Action.access (scope.text "lower")
  match Scope.ofName? (Text.lower name) with
  | none => return failure s!"Unknown scope: {name}"
  | some scope =>
    withOutline path scope fun content language forest =>
      .obj [("file", path), ("language", .str language), ("scope", .str scope.name),
        ("symbols", .arr (Outline.toShownAll (Lines.ofText content) forest))]

/-- The folds of a document (`get_folding_ranges`). -/
def foldingRanges (path : Json) : Action Json :=
  withOutline path .braced fun content _ forest =>
    let folds := Outline.foldsAll (Lines.ofText content) forest
    .obj [("file", path), ("range_count", .nat folds.length), ("ranges", .arr (folds.map Outline.Fold.toJson))]

end DocOutline.Tools
