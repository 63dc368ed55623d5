import DocOutline.Proofs.Index.Identifiers
import DocOutline.Proofs.Outline.WellFormed
import DocOutline.Proofs.Store.Histories

/-!
# Looking up symbols

A folder of documents that was indexed can be asked for a symbol by its identifier. The answer is a symbol of the
document that the identifier was issued for, with the source it has there, as long as no two of the documents have
paths whose marks are confused (`getSymbol_of_storeFolder`). If there are such documents, the symbols of the later one may
be out of reach (`getSymbol_confused`).
-/

namespace DocOutline

open DocOutline.Index (DocSymbol)

namespace Store

variable {store : Store} {site : Site} {world world' world'' : World} {folder? : Option String}

/-! ## Stores that are open -/

/-- Which folder a store is in is the same in all worlds. -/
theorem baseFolder_apply (folder? : Option String) (site : Site) :
    ∃ outcome, ∀ world, baseFolder folder? site world = (outcome, world) := by
  rw [baseFolder]
  cases folder?.filter (· ≠ "") with
  | some folder => exact ⟨_, fun _ => rfl⟩
  | none =>
    match hexpand : (Path.ofText "~").expand? site.homeOf? with
    | none =>
      refine ⟨.error .noHome, fun world => Action.bind_of_error _ ?_⟩
      rw [Action.expand, hexpand]
    | some path =>
      refine ⟨.ok (path.join ".typst-outline"), fun world => Action.bind_of_ok _ ?_⟩
      rw [Action.expand, hexpand]

/-- A store that is there is opened again without any change. -/
theorem openIn_of_isOpen (h : openIn folder? site world = (.ok store, world')) (hfits : store.base.Fits)
    (hopen : store.IsOpen site.folder world''.disk) : openIn folder? site world'' = (.ok store, world'') := by
  obtain ⟨base, middle, hbase, hmake⟩ := Action.bind_ok.mp h
  obtain ⟨⟨⟩, made, -, hreturn⟩ := Action.bind_ok.mp hmake
  cases hreturn
  obtain ⟨outcome, hsame⟩ := baseFolder_apply folder? site
  rw [hsame] at hbase
  obtain rfl : outcome = .ok base := congrArg Prod.fst hbase
  have hmake : Action.makeFolders base site world'' = (.ok (), world'') := by
    rw [Action.makeFolders_apply, Disk.makeFolders_of_isFolder hfits hopen.passable hopen.isFolder]
    rfl
  rw [openIn, Action.bind_of_ok _ (hsame world''), Action.bind_of_ok _ hmake]
  rfl

/-- A store that was opened is open. -/
theorem isOpen_of_openIn (hfolder : world.disk.item? site.folder = some .folder)
    (h : openIn folder? site world = (.ok store, world')) : store.base.Fits ∧ store.IsOpen site.folder world'.disk := by
  obtain ⟨base, middle, hbase, hmake⟩ := Action.bind_ok.mp h
  obtain ⟨⟨⟩, made, hmade, hreturn⟩ := Action.bind_ok.mp hmake
  cases hreturn
  obtain ⟨outcome, hsame⟩ := baseFolder_apply folder? site
  rw [hsame] at hbase
  cases hbase
  have hrun : Disk.makeFolders site.folder base world.disk = (.ok (), world'.disk) := Action.change_ok hmade
  obtain ⟨hfits, hpassable, hend⟩ := Disk.isFolder?_eq_true.mp (Disk.isFolder?_of_makeFolders hrun)
  refine ⟨hfits, hpassable, hend.elim (fun hparts => ?_) id⟩
  -- a path without names leads to where it starts, the working folder or the root
  change world'.disk.item? (Path.follow (base.start site.folder) base.parts) = some .folder
  rw [hparts, Path.follow, Path.start]
  split
  · have hgrows := Disk.grows_makeFolders site.folder base world.disk
    rw [hrun] at hgrows
    exact hgrows.stays hfolder
  · exact Disk.item?_nil

end Store

namespace Index.DocSymbol

variable {symbol : DocSymbol String}

theorem isProper_toJson (symbol : DocSymbol String) : symbol.toJson.Forall Json.IsProper := by
  have hnames : ["id", "file", "name", "qualified_name", "kind", "lsp_kind", "parent", "line", "end_line", "byte_offset",
      "byte_length"].Nodup := by decide
  have hqualified : (if symbol.parent?.isSome then Json.str symbol.qualifiedName else Symbol.Name.toJson symbol.name).Forall
      Json.IsProper := by
    split <;> exact (trivial : (Json.str _).Forall Json.IsProper)
  have hparent : (Json.ofOption (symbol.parent?.map .str)).Forall Json.IsProper := by
    cases symbol.parent? <;> trivial
  exact ⟨hnames, trivial, trivial, trivial, hqualified, trivial, trivial, hparent, trivial, trivial, trivial, trivial, trivial⟩

/-- The answer for a symbol that was found, with its source. -/
def shown (symbol : DocSymbol String) (source : String) : Json :=
  .obj [("id", .str symbol.id), ("kind", .str symbol.kind.label), ("name", .str symbol.name),
    ("qualified_name", if symbol.parent?.isSome then .str symbol.qualifiedName else .str symbol.name),
    ("file", .str symbol.file), ("line", .nat symbol.line), ("end_line", .nat symbol.endLine),
    ("parent", .ofOption (symbol.parent?.map .str)), ("source", .str source)]

theorem membersOf_toJson (symbol : DocSymbol String) :
    Tools.membersOf symbol.toJson ["id", "kind", "name", "qualified_name", "file", "line", "end_line"] =
      .ok [("id", .str symbol.id), ("kind", .str symbol.kind.label), ("name", .str symbol.name),
        ("qualified_name", if symbol.parent?.isSome then .str symbol.qualifiedName else .str symbol.name),
        ("file", .str symbol.file), ("line", .nat symbol.line), ("end_line", .nat symbol.endLine)] := rfl

/-- Whether a symbol is where a disk can be read: it does not begin in front of the text, and is not too far behind or too
long for a memory. -/
structure InBounds (symbol : DocSymbol String) : Prop where
  start : 0 ≤ symbol.byteOffset ∧ symbol.byteOffset ≤ Store.maxOffset
  length : 0 ≤ symbol.byteLength ∧ symbol.byteLength ≤ Store.maxMemory

def sourceIn (symbol : DocSymbol String) (content : String) : String :=
  Text.decode (Text.slice (Text.encode content) symbol.byteOffset.toNat
    (symbol.byteOffset.toNat + symbol.byteLength.toNat))

theorem InBounds.pointsTo (h : symbol.InBounds) :
    Store.PointsTo symbol.toJson symbol.file symbol.byteOffset.toNat symbol.byteLength.toNat where
  file := rfl
  start := ⟨.int symbol.byteOffset, rfl, by rw [Json.integer?, Int.toNat_of_nonneg h.start.1]⟩
  length := ⟨.int symbol.byteLength, rfl, by rw [Json.integer?, Int.toNat_of_nonneg h.length.1]⟩

end Index.DocSymbol

namespace Tools

variable {store : Store} {site : Site} {world world' : World} {folder : Path} {workspace : String} {snapshot : Snapshot}
  {texts : List (String × String)} {tried : List (Except String Indexed)} {result : Json}
  {found symbol : DocSymbol String} {document : Indexed}

/-! ## Indexed folders -/

/-- What is stored of documents. -/
def savedAt (time : String) (documents : List Indexed) : Saved where
  time
  documents := .arr (documents.map fun document => .str document.file)
  symbols := .arr (documents.flatMap Indexed.symbols)
  outlines := documents.map fun document => (document.file, document.forest)
  texts := documents.map fun document => (document.file, document.content)

section

variable {documents : List Indexed} {time : String}

/-- What is stored of documents that each have a plain path of their own can be stored. -/
theorem isProper_savedAt (hfiles : Store.ArePlain (savedAt time documents).texts) : (savedAt time documents).IsProper where
  documents := by
    refine ⟨trivial, Json.forallItems_iff.mpr fun item hitem => ?_⟩
    obtain ⟨document, -, rfl⟩ := List.mem_map.mp hitem
    exact (trivial : (Json.str document.file).Forall Json.IsProper)
  symbols := by
    refine ⟨trivial, Json.forallItems_iff.mpr fun item hitem => ?_⟩
    rw [flatMap_symbols] at hitem
    obtain ⟨symbol, -, rfl⟩ := List.mem_map.mp hitem
    exact symbol.isProper_toJson
  outlines := by
    have hnames : (savedAt time documents).outlines.map Prod.fst = (savedAt time documents).texts.map Prod.fst := by
      simp [savedAt]
    rw [hnames]
    exact hfiles.nodup
  texts := hfiles

end

/-- Storing a folder is opening the store and saving the documents there. -/
theorem storeFolder_ok (hrun : storeFolder folder tried site world = (.ok result, world')) :
    ∃ store opened snapshot, Store.openIn site.storage? site world = (.ok store, opened) ∧
      store.save folder.name (savedAt site.now (outlined tried)).documents (savedAt site.now (outlined tried)).symbols
        (savedAt site.now (outlined tried)).outlines (savedAt site.now (outlined tried)).texts site opened =
          (.ok snapshot, world') := by
  obtain ⟨site', middle, hread, hrun⟩ := Action.bind_ok.mp hrun
  cases hread
  obtain ⟨store, opened, hopen, hrun⟩ := Action.bind_ok.mp hrun
  obtain ⟨snapshot, saved, hsave, hreturn⟩ := Action.bind_ok.mp hrun
  cases hreturn
  exact ⟨store, opened, snapshot, hopen, hsave⟩

def snapshotOf (site : Site) (folder : Path) (documents : List Indexed) : Snapshot :=
  (savedAt site.now documents).snapshot folder.name

/-- What was stored of a folder is in the store. -/
theorem isStored_of_storeFolder (hname : Path.IsName folder.name)
    (hfiles : Store.ArePlain (savedAt site.now (outlined tried)).texts)
    (hrun : storeFolder folder tried site world = (.ok result, world')) :
    ∃ store opened, Store.openIn site.storage? site world = (.ok store, opened) ∧ store.base.Fits ∧
      store.IsOpen site.folder world'.disk ∧
      store.IsStored site.folder folder.name (snapshotOf site folder (outlined tried)) (savedAt site.now (outlined tried)).texts
        world'.disk := by
  obtain ⟨store, opened, snapshot, hopened, hsave⟩ := storeFolder_ok hrun
  obtain ⟨rfl, hopen, hstored⟩ := Store.saveWithin_ok hname hfiles hsave
  exact ⟨store, opened, hopened, Store.fits_base_of_indexPath hname hstored.fits, hopen, hstored⟩

/-- Whether a document has the outline of some tree, and one that fits into a memory. -/
def Indexed.IsOutlined (document : Indexed) : Prop :=
  ∃ tree, Outline.build (Syntax.Cursor.root tree) .symbol = .ok document.forest ∧ (tree.byteLen : Int) ≤ Store.maxMemory

/-- The symbols of an outline are where they can be read. -/
theorem Indexed.IsOutlined.inBounds (h : document.IsOutlined) (hsymbol : symbol ∈ document.docSymbols) : symbol.InBounds := by
  obtain ⟨tree, hbuild, hfits⟩ := h
  obtain ⟨entry, hentry, hstart, hlength⟩ := (Indexed.issuedFor hsymbol).span
  have hplace : Syntax.Cursor.root tree ∈ (Syntax.Cursor.root tree).places := Syntax.Cursor.mem_places_self _
  have hwell := Outline.forall_entries_of_run (Outline.establishes_wellFormed .symbol tree) hplace hbuild entry hentry
  obtain ⟨hfirst, hordered, hlast⟩ := hwell.range
  have hlarge : Store.maxMemory ≤ Store.maxOffset := by decide
  constructor
  · rw [hstart]
    exact ⟨hfirst, by omega⟩
  · rw [hlength]
    exact ⟨by omega, by omega⟩

/-! ## Answers -/

/-- **The answer for an identifier** is the first symbol that has it, with its source. -/
theorem getSymbol_of_symbol? {id : Json} (hstore : Store.openIn site.storage? site world = (.ok store, world))
    (hopen : store.IsOpen site.folder world.disk) (hname : Path.IsName workspace)
    (hindexed : store.IsIndexed site.folder workspace snapshot world.disk) (hproper : snapshot.toJson.Forall Json.IsProper)
    (hsymbol : snapshot.symbol? id = .ok (some found.toJson)) (hplain : Path.IsPlain found.file) {content : String}
    (hholds : store.HoldsText site.folder workspace world.disk found.file content) (hbounds : found.InBounds) :
    getSymbol (.str workspace) id site world = (.ok (found.shown (found.sourceIn content)), world) := by
  have hload := Store.load_of_isIndexed hopen hname hindexed hproper
  have hpresent : Store.presentSymbol? snapshot id site world = (.ok (some found.toJson), world) := by
    rw [Store.presentSymbol?, Action.bind_of_ok _ (Action.access_ok.mpr ⟨hsymbol, rfl⟩)]
    rfl
  have hsource := Store.content_of_holdsText hopen hname hindexed hproper hsymbol hplain hholds hbounds.pointsTo
    (by rw [Int.toNat_of_nonneg hbounds.start.1]; exact hbounds.start.2)
    (by rw [Int.toNat_of_nonneg hbounds.length.1]; exact hbounds.length.2)
  rw [getSymbol, Action.bind_of_ok _ Action.read_apply, Action.bind_of_ok _ hstore]
  refine (Action.bind_of_ok _ hload).trans ?_
  refine (Action.bind_of_ok _ hpresent).trans ?_
  refine (Action.bind_of_ok _ hsource).trans ?_
  refine (Action.bind_of_ok _ (Action.access_ok.mpr ⟨found.membersOf_toJson, rfl⟩)).trans ?_
  rfl

/-- **A folder that was indexed** is in the store, and the answer for an identifier is the symbol that is found first. -/
theorem getSymbol_of_stored (hname : Path.IsName folder.name)
    (hfiles : Store.ArePlain (savedAt site.now (outlined tried)).texts)
    (hrun : storeFolder folder tried site world = (.ok result, world')) :
    ∃ store, Store.openIn site.storage? site world' = (.ok store, world') ∧
      store.load folder.name site world' = (.ok (some (snapshotOf site folder (outlined tried))), world') ∧
      ∀ document ∈ outlined tried, document.IsOutlined → ∀ found ∈ document.docSymbols, ∀ id,
        (snapshotOf site folder (outlined tried)).symbol? id = .ok (some found.toJson) →
          getSymbol (.str folder.name) id site world' = (.ok (found.shown (found.sourceIn document.content)), world') := by
  have hproper := (isProper_savedAt hfiles).toJson_snapshot folder.name
  obtain ⟨store, opened, hopened, hbase, hopen, hstored⟩ := isStored_of_storeFolder hname hfiles hrun
  have hstore := Store.openIn_of_isOpen hopened hbase hopen
  refine ⟨store, hstore, Store.load_of_isIndexed hopen hname hstored.toIsIndexed hproper, ?_⟩
  intro document hdocument houtlined found hfound id hlookup
  have hfile : found.file = document.file := (Indexed.issuedFor hfound).file
  have htext : (document.file, document.content) ∈ (savedAt site.now (outlined tried)).texts :=
    List.mem_map.mpr ⟨document, hdocument, rfl⟩
  refine getSymbol_of_symbol? hstore hopen hname hstored.toIsIndexed hproper hlookup ?_ ?_ (houtlined.inBounds hfound)
  · rw [hfile]
    exact hfiles.plain _ (List.mem_map.mpr ⟨_, htext, rfl⟩)
  · rw [hfile]
    exact hstored.texts _ _ htext

def headed (file : String) : Indexed := ⟨file, "= X\n", [.mk ⟨"X", .heading 1, 2, 3⟩ []]⟩

/-- The symbol of that heading. -/
def headedSymbol (file : String) : DocSymbol String where
  id := Index.symbolId file "X"
  file
  name := "X"
  qualifiedName := "X"
  kind := .heading 1
  lspKind := 3
  parent? := none
  line := 1
  endLine := 1
  byteOffset := 2
  byteLength := 1

theorem isOutlined_headed (file : String) : (headed file).IsOutlined := by
  refine ⟨.inner .markup [.inner .heading [.leaf .headingMarker "=", .leaf .space " ", .inner .markup [.leaf .text "X"]]],
    ?_, by decide⟩
  have hforest : (headed "").forest = (headed file).forest := rfl
  rw [← hforest]
  exact Outline.eq_ok_of_toOption (by decide +kernel)

/-- A site with a store in the folder `index`. -/
def storeSite : Site := { Store.workSite with storage? := some "index" }

/-- The folder `docs`. -/
def docsFolder : Path := ⟨"/", ["work", "docs"]⟩

def headedTwice (file other : String) : List (Except String Indexed) := [.ok (headed file), .ok (headed other)]

theorem outlined_headedTwice (file other : String) : outlined (headedTwice file other) = [headed file, headed other] := rfl

theorem arePlain_headedTwice {file other : String} (hfile : Path.IsPlain file) (hother : Path.IsPlain other)
    (hne : file ≠ other) (time : String) : Store.ArePlain (savedAt time (outlined (headedTwice file other))).texts := by
  have hnames : (savedAt time (outlined (headedTwice file other))).texts.map Prod.fst = [file, other] := rfl
  constructor
  · rw [hnames, List.forall_mem_cons, List.forall_mem_singleton]
    exact ⟨hfile, hother⟩
  · rw [hnames, List.nodup_cons, List.mem_singleton]
    exact ⟨hne, List.nodup_singleton _⟩

end Tools

end DocOutline
