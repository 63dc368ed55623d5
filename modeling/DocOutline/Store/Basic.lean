import DocOutline.Index.Search
import DocOutline.Outline.Basic
import DocOutline.Store.Action

/-!
# Stored workspaces

What is stored about a workspace, and the store that keeps it.
-/

namespace DocOutline

/-! ## Snapshots of a workspace

What is stored about a workspace: its documents, their symbols and their outlines. A stored snapshot has to have
the members it needs, but these may hold anything; what is wrong with them shows when they are used.
-/

/-- What is stored about a workspace (`OutlineIndex`, specification, section 10.6). -/
structure Snapshot where
  workspace : Json
  indexedAt : Json
  documents : Json
  symbols : Json
  outlines : Json
deriving Repr

namespace Snapshot

/-- The stored form of a snapshot (`_index_to_dict`). -/
def toJson (snapshot : Snapshot) : Json :=
  .obj [("workspace", snapshot.workspace), ("indexed_at", snapshot.indexedAt),
    ("documents", snapshot.documents), ("symbols", snapshot.symbols), ("outlines", snapshot.outlines)]

def draft (limit : Limit) (snapshot : Snapshot) : Json.Draft := snapshot.toJson.draft limit .pretty 0

/-- The snapshot of a stored form. Outlines may be absent. -/
def ofJson (data : Json) : Except Json.Fault Snapshot := do
  return {
    workspace := ← data.member "workspace"
    indexedAt := ← data.member "indexed_at"
    documents := ← data.member "documents"
    symbols := ← data.member "symbols"
    outlines := (← data.optionalMember "outlines").getD (.obj []) }

/-- The first of several symbols that has an identifier. -/
def symbolAmong (id : Json) : List Json → Except Json.Fault (Option Json)
  | [] => .ok none
  | symbol :: symbols => do
    if ((← symbol.optionalMember "id").getD .null).same id then return some symbol
    symbolAmong id symbols

/-- The symbol with an identifier (`get_symbol`). -/
def symbol? (snapshot : Snapshot) (id : Json) : Except Json.Fault (Option Json) := do
  symbolAmong id (← snapshot.symbols.elements)

/-- The outline of a document, if it can be taken back within a limit. -/
def outlineWithin? (limit : Limit) (snapshot : Snapshot) (document : String) :
    Except Symbol.ReadError (Option (List (Outline Json))) := do
  match (← Symbol.attempt (snapshot.outlines.optionalMember document)).getD .null with
  | .null => return none
  | data => return some (← Outline.ofJsonAllWithin limit 0 (← Symbol.attempt data.elements))

/-- The outline of a document (`get_outline`). -/
def outline? (snapshot : Snapshot) (document : String) : Except Symbol.ReadError (Option (List (Outline Json))) :=
  snapshot.outlineWithin? none document

/-- The symbols that a search finds, the best first. -/
def search (snapshot : Snapshot) (query : Index.Query) (kind pattern : Json) :
    Except Json.Fault (List Json) := do
  Index.search query kind pattern (← snapshot.symbols.elements)

def summary (data : Json) : Except Json.Fault Json := do
  let workspace ← data.member "workspace"
  let indexedAt ← data.member "indexed_at"
  let symbols ← data.member "symbols" >>= Json.size
  let documents ← data.member "documents" >>= Json.size
  return .obj [("workspace", workspace), ("indexed_at", indexedAt), ("symbol_count", .nat symbols),
    ("document_count", .nat documents)]

end Snapshot

/-! ## The index store

A store is a folder. For each workspace it holds a file with the snapshot and, in a folder beside it, the texts
of the documents as they were when the snapshot was made, so that the source of a symbol can be read by its
bytes.

What is nested is written and read by recursion, for which the stack has room up to some depth. Different recursions need frames
of different sizes, so that what was written cannot always be read back.
-/

/-- A store in a folder (`IndexStore`, specification, section 10.6). -/
structure Store where
  base : Path

/-- How deep the recursions of a store may go: those that put outlines into their stored form or take them back from it, and
those into values that are written or read. Each operation that reads has a limit of its own. -/
structure Store.Limits where
  store : Limit := none
  restore : Limit := none
  write : Limit := none
  load : Limit := none
  content : Limit := none
  list : Limit := none

namespace Store

/-- The folder of a store: the one that is set, or else one in the user's own folder. -/
def baseFolder (folder? : Option String) : Action Path :=
  match folder?.filter (· ≠ "") with
  | some folder => pure (Path.ofText folder)
  | none => do return (← Action.expand (Path.ofText "~")).join ".typst-outline"

/-- The store in a folder, which is made if it is not there. -/
def openIn (folder? : Option String) : Action Store := do
  let base ← baseFolder folder?
  Action.makeFolders base
  return ⟨base⟩

/-- The file with the snapshot of a workspace (`_index_path`). -/
def indexPath (store : Store) (workspace : String) : Path := store.base.join (workspace ++ ".json")

/-- The folder with the texts of a workspace (`_content_dir`). -/
def contentFolder (store : Store) (workspace : String) : Path := store.base.join workspace

def writeDocument (folder : Path) (file text : String) : Action Unit := do
  let path := folder.join file
  Action.makeFolders path.parent
  Action.writeFile path (Text.encode text)

def outlinesJson [Symbol.Name ν] (outlines : List (String × List (Outline ν))) : Json :=
  .obj (outlines.map fun (file, forest) => (file, .arr (Outline.toJsonAll forest)))

def writeDocuments (store : Store) (workspace : String) (texts : List (String × String)) : Action Unit :=
  texts.forM fun (file, text) => writeDocument (store.contentFolder workspace) file text

def stopFault : Json.Stop → Json.Fault
  | .longInteger => .unwritableInteger
  | .tooDeep => .tooDeep

/-- Writes the file with the snapshot of a workspace. It ends where writing stops. -/
def writeSnapshot (limit : Limit) (store : Store) (workspace : String) (snapshot : Snapshot) : Action Unit := do
  let draft := snapshot.draft limit
  Action.writeFile (store.indexPath workspace) (Text.encode (String.ofList draft.text))
  Action.access (match draft.stop? with
    | none => .ok ()
    | some stop => .error (stopFault stop))

/-- Whether the outlines of documents can be put into their stored forms. -/
def canStore (limit : Limit) (outlines : List (String × List (Outline ν))) : Bool :=
  outlines.all fun (_, forest) => Outline.areWithin limit 0 forest

/-- Logs that a workspace was stored, with the numbers of its documents and symbols. -/
def logSaved (workspace : String) (documents symbols : Json) : Action Unit := do
  let documentCount ← Action.access documents.size
  let symbolCount ← Action.access symbols.size
  Action.log ⟨"index saved", .info, [("workspace", .str workspace), ("documents", .nat documentCount),
    ("symbols", .nat symbolCount)]⟩

/-- Stores a snapshot of a workspace with the texts of its documents, within limits (`save_index`). -/
def saveWithin [Symbol.Name ν] (limits : Limits) (store : Store) (workspace : String) (documents symbols : Json)
    (outlines : List (String × List (Outline ν))) (texts : List (String × String)) : Action Snapshot := do
  Action.access (if canStore limits.store outlines then .ok () else .error .tooDeep)
  let snapshot : Snapshot := ⟨.str workspace, .str (← read).now, documents, symbols, outlinesJson outlines⟩
  writeSnapshot limits.write store workspace snapshot
  Action.makeFolders (store.contentFolder workspace)
  store.writeDocuments workspace texts
  logSaved workspace documents symbols
  return snapshot

def save [Symbol.Name ν] (store : Store) (workspace : String) (documents symbols : Json)
    (outlines : List (String × List (Outline ν))) (texts : List (String × String)) : Action Snapshot :=
  saveWithin {} store workspace documents symbols outlines texts

def readFault : Json.ReadError → Fault
  | .tooDeep => .access .tooDeep
  | error => .json error

/-- Reads a file that holds one value. -/
def readJson (limit : Limit) (path : Path) : Action Json := do
  let bytes ← Action.ask Disk.read path
  let text ← Action.ofExcept .utf8 (Text.decode? bytes)
  Action.ofExcept readFault (Json.readWithin limit (Text.unifyLineEnds text))

/-- The snapshot of a workspace, if there is one, read within a limit (`load_index`). -/
def loadWithin (limit : Limit) (store : Store) (workspace : String) : Action (Option Snapshot) := do
  let path := store.indexPath workspace
  if ← Action.ask Disk.exists? path then
    let data ← readJson limit path
    return some (← Action.access (Snapshot.ofJson data))
  else return none

/-- The snapshot of a workspace, if there is one. -/
def load (store : Store) (workspace : String) : Action (Option Snapshot) := loadWithin none store workspace

/-- The largest offset and count: the largest integer of 64 bits that has a sign. -/
def maxOffset : Int := 9223372036854775807

def offset (value : Json) : Except Fault Nat :=
  match value.integer? with
  | none => .error (.access (.notIndex value.typeWord))
  | some n =>
    if n < -maxOffset - 1 ∨ maxOffset < n then .error (.access .largeOffset)
    else if n < 0 then .error (.disk (.trouble .invalid none))
    else .ok n.toNat

/-- More bytes than this never fit into memory. -/
def maxMemory : Int := 549755813888

/-- The bytes that a byte string takes beside those it holds. -/
def stringOverhead : Int := 33

/-- The bytes that a count takes from the front. Null and -1 take all. There has to be memory for as many bytes
as the count says, however few there are. -/
def takeCount (count : Json) (bytes : Text.Bytes) : Except Fault Text.Bytes :=
  match count with
  | .null => .ok bytes
  | count =>
    match count.integer? with
    | none => .error (.access (.notCount count.typeWord))
    | some n =>
      if n < -maxOffset - 1 ∨ maxOffset < n then .error (.access .largeCount)
      else if n < -1 then .error (.access .negativeCount)
      else if n = -1 then .ok bytes
      else if maxOffset - stringOverhead < n then .error (.access .uncountable)
      else if maxMemory < n then .error (.access .noMemory)
      else .ok (bytes.take n.toNat)

/-- The path of the stored text of a document. Only a text can name the document. -/
def contentPath (store : Store) (workspace : String) (file : Json) : Except Json.Fault Path :=
  match file with
  | .str file => .ok ((store.contentFolder workspace).join file)
  | file => .error (.notJoinable file.typeWord)

/-- The source of a stored symbol, by its offset and length in the stored text of its document. -/
def sourceOf (store : Store) (workspace : String) (symbol : Json) : Action (Option String) := do
  let path ← Action.access (store.contentPath workspace (← Action.access (symbol.member "file")))
  if ← Action.ask Disk.exists? path then
    let bytes ← Action.ask Disk.read path
    let start ← Action.ofExcept id (offset (← Action.access (symbol.member "byte_offset")))
    let rest := bytes.drop start
    let source ← Action.ofExcept id (takeCount (← Action.access (symbol.member "byte_length")) rest)
    return some (Text.decode source)
  else return none

/-- The symbol of a workspace that has an identifier, if it counts as present. -/
def presentSymbol? (snapshot : Snapshot) (id : Json) : Action (Option Json) := do
  return (← Action.access (snapshot.symbol? id)).filter Json.isPresent

/-- The source of the symbol of a workspace that has an identifier (`get_symbol_content`). The snapshot is
read within a limit. -/
def contentWithin (limit : Limit) (store : Store) (workspace : String) (id : Json) : Action (Option String) := do
  match ← loadWithin limit store workspace with
  | none => return none
  | some snapshot =>
    match ← presentSymbol? snapshot id with
    | none => return none
    | some symbol => store.sourceOf workspace symbol

/-- The source of the symbol of a workspace that has an identifier. -/
def content (store : Store) (workspace : String) (id : Json) : Action (Option String) :=
  contentWithin none store workspace id

def isIndexName (name : String) : Bool := ".json".toList.isSuffixOf name.toList

/-- The names of what lies directly in a folder. -/
def namesIn (disk : Disk) (folder : Place) (path : Path) : Except Disk.Error (List String) := do
  let place ← disk.locate folder path
  return (disk.below place).filterMap fun (parts, _) =>
    match parts with
    | [name] => some name
    | _ => none

/-- The files with snapshots, by name. -/
def indexPaths (store : Store) : Action (List Path) := do
  let names ← Action.ask namesIn store.base
  return ((names.filter isIndexName).mergeSort fun a b => a ≤ b).map store.base.join

/-- Whether a fault with a stored snapshot is reason enough to leave it out of the list of workspaces. -/
def isSkipped : Fault → Bool
  | .disk _ | .json _ | .utf8 _ => true
  | .access fault => fault.family == .member || fault.family == .value
  | _ => false

/-- The summary of a stored snapshot, or a warning instead of one that cannot be read. -/
def summaryAt (limit : Limit) (path : Path) : Action (Option Json) := do
  let read : Action Json := do Action.access (Snapshot.summary (← readJson limit path))
  match ← Action.outcome read with
  | .ok summary => return some summary
  | .error fault =>
    if isSkipped fault then
      Action.log ⟨"skipping unreadable index", .warning,
        [("path", .str path.toText), ("error", .str fault.message)]⟩
      return none
    else Action.ofExcept id (.error fault)

/-- The summaries of all workspaces, which are read within a limit (`list_workspaces`). -/
def listWithin (limit : Limit) (store : Store) : Action (List Json) := do
  return (← (← store.indexPaths).mapM (summaryAt limit)).filterMap id

def list (store : Store) : Action (List Json) := listWithin none store

/-- Removes what is at a path, if there is anything, and says whether there was. -/
def removeIfThere (path : Path) (remove : Place → Path → Disk.Change Unit) : Action Bool := do
  if ← Action.ask Disk.exists? path then
    Action.change fun folder => remove folder path
    return true
  else return false

/-- Takes a workspace out of the store, and says whether there was anything to take out (`delete_index`). -/
def delete (store : Store) (workspace : String) : Action Bool := do
  let index ← removeIfThere (store.indexPath workspace) fun folder path =>
    Disk.Change.ofStep (Disk.unlink folder path)
  let texts ← removeIfThere (store.contentFolder workspace) Disk.removeTree
  return index || texts

end Store

end DocOutline
