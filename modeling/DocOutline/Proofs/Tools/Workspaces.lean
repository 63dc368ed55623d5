import DocOutline.Proofs.Tools.Searching
import DocOutline.Proofs.Tools.Visits

/-!
# Workspaces that are listed

A workspace goes by the name of its folder. When folders with different names have been indexed in one store, each of them has
one entry more in the list of workspaces, and what is found and read back for it are the symbols of its own documents
(`listed_of_visits`). A folder that has the name of an earlier one takes its place (`listed_once`).
-/

namespace DocOutline

open DocOutline.Index (DocSymbol)

namespace Tools

open DocOutline.Action

variable {store : Store} {site : Site} {world middle world' after : World} {visit : Visit} {visits : List Visit}
  {workspace : String}

/-! ## What a folder answers with -/

/-- Whether what is loaded, read back and found for a folder are the symbols of the documents that a call found in it: a search
for a text finds all of them that match, and no search finds any other. -/
structure Visit.AnswersOwn (visit : Visit) (store : Store) (site : Site) (world : World) : Prop where
  load : store.load visit.folder.name site world = (.ok (some (visit.snapshot site)), world)
  readBack : ∀ id,
    (∃ document ∈ visit.documents site, ∃ symbol ∈ document.docSymbols, id = .str symbol.id ∧
      getSymbol (.str visit.folder.name) id site world = (.ok (symbol.shown (symbol.sourceIn document.content)), world)) ∨
    (∀ document ∈ visit.documents site, ∀ symbol ∈ document.docSymbols, id ≠ .str symbol.id) ∧
      getSymbol (.str visit.folder.name) id site world = (.ok (failure s!"Symbol not found: {id.display}"), world)
  finds : ∀ (text : String) (kind? pattern? : Option String) (stop : Nat),
    (∀ kind ∈ kind?, kind = "" ∨ kind ∈ symbolKinds) →
    searchSymbols (.str visit.folder.name) (.str text) (Index.filterOf kind?) (Index.filterOf pattern?) (.nat stop) site world =
      (.ok (searchAnswer visit.folder.name text (((Index.ranked (.ofText text) kind? pattern?
        ((visit.documents site).flatMap Indexed.docSymbols)).take stop).map (·.foundBy (.ofText text)))), world)
  found : ∀ query kind pattern stop answer after,
    searchSymbols (.str visit.folder.name) query kind pattern stop site world = (.ok answer, after) →
    ∀ items, answer.member? "results" = some (.arr items) → ∀ item ∈ items,
      ∃ document ∈ visit.documents site, ∃ symbol ∈ document.docSymbols, ∃ words, item = symbol.foundBy words

/-- Whether the tree of a document, if it is parsed, fits into memory. -/
def Indexed.FitsMemory (parser : Outline.Parser) (document : Indexed) : Prop :=
  ∀ tree, Outline.parse parser Grammar.typst document.content = .ok tree → (tree.byteLen : Int) ≤ Store.maxMemory

/-- The symbols of the documents that a call found are where they can be read. -/
theorem Visit.inBounds {document : Indexed} {symbol : DocSymbol String} (hdocument : document ∈ visit.documents site)
    (hfits : document.FitsMemory site.parser) (hsymbol : symbol ∈ document.docSymbols) : symbol.InBounds := by
  unfold Visit.documents at hdocument
  match hrun : (sourcesIn visit.before.disk visit.folder).mapM (indexDocument visit.folder) site visit.before with
  | (.error fault, _) =>
    rw [hrun] at hdocument
    cases hdocument
  | (.ok tried, last) =>
    rw [hrun] at hdocument
    obtain ⟨attempt, hattempt, hok⟩ := List.mem_filterMap.mp hdocument
    match attempt with
    | .error _ => cases hok
    | .ok found =>
      cases hok
      obtain ⟨parts, -, before, after, hindexed⟩ := mem_of_mapM_ok hrun _ hattempt
      obtain ⟨language, hextract⟩ := extract_of_indexDocument hindexed
      rcases Outline.extract_ok hextract with hnone | ⟨tree, hparse, hbuild⟩
      · rw [Indexed.docSymbols, hnone] at hsymbol
        cases hsymbol
      · exact Indexed.IsOutlined.inBounds ⟨tree, hbuild, hfits tree hparse⟩ hsymbol

/-- **What a call has stored answers for its documents.** -/
theorem Visit.Stores.answersOwn (h : visit.Stores store site after)
    (hopen : Store.openIn site.storage? site world = (.ok store, world))
    (hstored : store.IsStored site.folder visit.folder.name (visit.snapshot site) (visit.saved site).texts world.disk)
    (hfits : ∀ document ∈ visit.documents site, document.FitsMemory site.parser) : visit.AnswersOwn store site world := by
  obtain ⟨hproper, -⟩ := h.isStored
  obtain ⟨hthere, -⟩ := hstored.isFolder h.named h.plain.plain h.nonempty
  have hjson := hproper.toJson_snapshot visit.folder.name
  have hload := Store.load_of_isIndexed hthere h.named hstored.toIsIndexed hjson
  have hsymbols : (visit.snapshot site).symbols =
      .arr (((visit.documents site).flatMap Indexed.docSymbols).map (·.toJson)) := by
    rw [← flatMap_symbols]
    rfl
  constructor
  case load => exact hload
  case readBack =>
    intro id
    have hlookup : (visit.snapshot site).symbol? id =
        .ok ((((visit.documents site).flatMap Indexed.docSymbols).find? fun symbol => (Json.str symbol.id).same id).map
          (·.toJson)) := by
      rw [Snapshot.symbol?, hsymbols]
      exact Snapshot.symbolAmong_map id _
    -- symbols may share an identifier; the first of them is the one that is read back
    cases hfind : ((visit.documents site).flatMap Indexed.docSymbols).find? fun symbol => (Json.str symbol.id).same id with
    | some symbol =>
      rw [hfind] at hlookup
      obtain ⟨document, hdocument, hsymbol⟩ := List.mem_flatMap.mp (List.mem_of_find?_eq_some hfind)
      have hfile : symbol.file = document.file := (Indexed.issuedFor hsymbol).file
      have htext : (document.file, document.content) ∈ (visit.saved site).texts :=
        List.mem_map.mpr ⟨document, hdocument, rfl⟩
      have hsame := List.find?_some hfind
      refine .inl ⟨document, hdocument, symbol, hsymbol, Json.eq_str_of_same hsame, ?_⟩
      refine getSymbol_of_symbol? hopen hthere h.named hstored.toIsIndexed hjson hlookup ?_ ?_
        (Visit.inBounds hdocument (hfits document hdocument) hsymbol)
      · rw [hfile]
        exact h.plain.plain _ (List.mem_map.mpr ⟨_, htext, rfl⟩)
      · rw [hfile]
        exact hstored.texts _ _ htext
    | none =>
      rw [hfind] at hlookup
      refine .inr ⟨fun document hdocument symbol hsymbol hid => ?_, getSymbol_of_symbol?_none hopen hload hlookup⟩
      subst hid
      have hmem := List.mem_flatMap.mpr ⟨document, hdocument, hsymbol⟩
      exact List.find?_eq_none.mp hfind symbol hmem (beq_self_eq_true symbol.id)
  case finds => exact fun text kind? pattern? stop hkind => searchSymbols_text hopen hload hsymbols hkind text stop
  case found =>
    intro query kind pattern stop answer after hrun items hitems item hitem
    obtain ⟨symbol, hsymbol, words, rfl⟩ := searchSymbols_ok hopen hload hsymbols hrun items hitems item hitem
    obtain ⟨document, hdocument, hsymbol⟩ := List.mem_flatMap.mp hsymbol
    exact ⟨document, hdocument, symbol, hsymbol, words, rfl⟩

/-! ## The list -/

/-- Where a store is are names, apart from what leads back. -/
theorem hasNames_baseFolder {folder? : Option String} {base : Path}
    (h : Store.baseFolder folder? site world = (.ok base, after)) : base.HasNames := by
  rw [Store.baseFolder] at h
  cases hfolder : folder?.filter (· ≠ "") with
  | some folder =>
    rw [hfolder] at h
    cases h
    exact Path.hasNames_ofText _
  | none =>
    rw [hfolder] at h
    obtain ⟨expanded, _, hexpand, hreturn⟩ := bind_ok.mp h
    cases hreturn
    exact (Path.hasNames_expand (expand_ok.mp hexpand).1).join _

/-- The store is open when a call begins to store documents. -/
theorem Visit.Stores.isOpen (h : visit.Stores store site after) :
    store.IsOpen site.folder (Disk.makeFolders site.folder store.base visit.before.disk).2 := by
  obtain ⟨opened, snapshot, hopened, hsave⟩ := h.saves
  rw [← hopened]
  exact (Store.takesIndex_of_saveWithin h.named hsave).opened

/-- A file that is written is no file with a snapshot of another workspace. -/
theorem IsWritten.mem_of_isIndexName {documents : List Indexed} {name : String} {bytes : Text.Bytes}
    (h : IsWritten store site workspace documents (store.basePlace site.folder ++ [name]) bytes)
    (hname : Path.IsName workspace) (hplain : ∀ document ∈ documents, Path.IsPlain document.file) :
    name = workspace ++ ".json" := by
  rcases h with hindex | ⟨file, text, htext, hplace, -⟩
  · exact (List.cons.inj (List.append_cancel_left hindex)).1
  · obtain ⟨document, hdocument, heq⟩ := List.mem_map.mp htext
    cases heq
    have hfile := hplain document hdocument
    rw [Store.target_join_contentFolder hname hfile, Store.documentPlace] at hplace
    have hnames := (List.cons.inj (List.append_cancel_left hplace)).2
    exact absurd hnames.symm hfile.names_ne_nil

/-- The store is open when the first of several calls begins to store documents, on a sound disk, and from then on all that is
written are files with snapshots and texts. -/
theorem StoresAll.opened (h : StoresAll store site world visits world') (hsome : visits ≠ []) :
    world.disk.IsSound ∧ store.IsOpen site.folder (Disk.makeFolders site.folder store.base world.disk).2 ∧
      (Disk.makeFolders site.folder store.base world.disk).2.Writes
        (fun place bytes => ∃ visit ∈ visits, IsWritten store site visit.folder.name (visit.documents site) place bytes)
        world'.disk := by
  cases h with
  | done => exact absurd rfl hsome
  | @call visit _ _ visits hstores hrest =>
    refine ⟨hstores.sound, hstores.isOpen, ?_⟩
    refine (hstores.writes.mono fun place bytes hwritten => ?_).trans (hrest.writes.mono fun place bytes hwritten => ?_)
    · exact ⟨visit, .head _, hwritten⟩
    · exact hwritten.imp fun later => And.imp_left (.tail _)

/-- **The calls store one snapshot each**, and leave alone all other files that could be ones with snapshots. -/
theorem StoresAll.addsEntries (h : StoresAll store site world visits world') (hsite : IsNamed site.folder)
    (hnames : store.base.HasNames) (hsome : visits ≠ []) (hnodup : (visits.map (·.folder.name)).Nodup) :
    store.AddsEntries site.folder (visits.map fun visit => (visit.folder.name, visit.snapshot site))
      (Disk.makeFolders site.folder store.base world.disk).2 world'.disk := by
  have hall := h.isStored hnodup
  have hsound' := h.isSound hsite hnames hsome
  obtain ⟨first, hfirst⟩ := List.exists_mem_of_ne_nil visits hsome
  obtain ⟨⟨_, hstores⟩, hstored⟩ := hall first hfirst
  obtain ⟨hsound, hopen, hwrites⟩ := h.opened hsome
  constructor
  case opened => exact hopen
  case opened' => exact (hstored.isFolder hstores.named hstores.plain.plain hstores.nonempty).1
  case proper => exact (hsound.makeFolders hsite hnames).proper
  case proper' => exact hsound'.proper
  case named => exact fun name hitem => hsound'.isNamed hitem name (List.mem_append_right _ (.head _))
  case nodup => simpa [Function.comp_def] using hnodup
  case stored =>
    refine List.forall_mem_map.mpr fun visit hvisit => ?_
    obtain ⟨⟨_, hstores⟩, hstored⟩ := hall visit hvisit
    obtain ⟨hproper, -⟩ := hstores.isStored
    exact ⟨hstores.named, hproper.toJson_snapshot _, _, hstored⟩
  case others =>
    intro name hindex hother
    rcases hwrites.items (store.basePlace site.folder ++ [name]) with hsame | hfolder | ⟨-, bytes, hwritten, -⟩
    · exact .inl hsame
    · exact .inr hfolder
    · obtain ⟨visit, hvisit, hwritten⟩ := hwritten
      obtain ⟨⟨_, hstores⟩, -⟩ := hall visit hvisit
      have hplain : ∀ document ∈ visit.documents site, Path.IsPlain document.file := fun document hdocument =>
        hstores.plain.plain _ (List.mem_map.mpr ⟨_, List.mem_map.mpr ⟨document, hdocument, rfl⟩, rfl⟩)
      rw [hwritten.mem_of_isIndexName hstores.named hplain] at hother
      exact absurd (List.mem_map.mpr ⟨_, List.mem_map.mpr ⟨visit, hvisit, rfl⟩, rfl⟩) hother

/-- Where there was no file with a snapshot of a folder at first there is none when the store has been opened: the way to the
store cannot have led through the place, where there is a file in the end. -/
theorem StoresAll.item?_eq_none (h : StoresAll store site world visits world') (hsome : visits ≠ [])
    (hnodup : (visits.map (·.folder.name)).Nodup) (hvisit : visit ∈ visits)
    (hnew : world.disk.item? (store.indexPlace site.folder visit.folder.name) = none) :
    (Disk.makeFolders site.folder store.base world.disk).2.item? (store.indexPlace site.folder visit.folder.name) =
      none := by
  obtain ⟨-, hstored⟩ := h.isStored hnodup visit hvisit
  obtain ⟨-, -, hwrites⟩ := h.opened hsome
  have hgrows := Disk.grows_makeFolders site.folder store.base world.disk
  rcases hgrows.adds (store.indexPlace site.folder visit.folder.name) with hsame | ⟨-, hfolder, -⟩
  · rw [hsame, hnew]
  · exact absurd (hstored.index.symm.trans (hwrites.folders hfolder)) nofun

def workspacesAnswer (summaries : List Json) : Json :=
  .obj [("count", .nat summaries.length), ("document_total", total "document_count" summaries),
    ("symbol_total", total "symbol_count" summaries), ("workspaces", .arr summaries)]

theorem workspacesAnswer_injective {entries entries' : List Json} (h : workspacesAnswer entries = workspacesAnswer entries') :
    entries = entries' := by
  have hmember : some (Json.arr entries) = some (Json.arr entries') := congrArg (Json.member? "workspaces") h
  exact Json.arr.inj (Option.some_injective _ hmember)

/-- The list of workspaces is asked of the store once it is open. -/
theorem listWorkspacesWithin_apply {limit : Limit} {result : Except Fault (List Json)} {after : World}
    (hmiddle : Store.openIn site.storage? site world = (.ok store, middle))
    (h : store.listWithin limit site middle = (result, after)) :
    listWorkspacesWithin limit site world = (result.map workspacesAnswer, after) := by
  rw [listWorkspacesWithin, bind_of_ok _ read_apply, bind_of_ok _ hmiddle]
  cases result with
  | ok entries => rw [bind_of_ok _ h]; rfl
  | error fault => rw [bind_of_error _ h]; rfl

theorem listWorkspaces_of_openIn (hopen : Store.openIn site.storage? site world = (.ok store, middle)) :
    (listWorkspaces site world).1 = (store.list site middle).1.map workspacesAnswer :=
  congrArg Prod.fst (listWorkspacesWithin_apply hopen rfl)

/-- Whether a store is set and the list of its workspaces comes about, with some entries. -/
structure Lists (store : Store) (site : Site) (world : World) (entries : List Json) : Prop where
  base : Store.baseFolder site.storage? site world = (.ok store.base, world)
  answer : (listWorkspaces site world).1 = .ok (workspacesAnswer entries)

/-- A list that comes about is that of the store once it is there. -/
theorem Lists.exists_opened {entries : List Json} (h : Lists store site world entries) :
    ∃ opened, Store.openIn site.storage? site world = (.ok store, opened) ∧
      opened.disk = (Disk.makeFolders site.folder store.base world.disk).2 ∧ (store.list site opened).1 = .ok entries := by
  match hrun : Store.openIn site.storage? site world with
  | (.error fault, opened) =>
    have hanswer := h.answer
    rw [listWorkspaces, listWorkspacesWithin, bind_of_ok _ read_apply, bind_of_error _ hrun] at hanswer
    cases hanswer
  | (.ok store', opened) =>
    obtain ⟨rfl, hopened⟩ := openIn_ok h.base hrun
    refine ⟨opened, rfl, hopened, ?_⟩
    have hanswer := h.answer
    rw [listWorkspaces_of_openIn hrun] at hanswer
    match hlist : (store'.list site opened).1 with
    | .error fault =>
      rw [hlist] at hanswer
      cases hanswer
    | .ok summaries =>
      rw [hlist] at hanswer
      rw [workspacesAnswer_injective (Except.ok.inj hanswer)]

/-- After calls that stored folders of different names, the list has one entry for each, beside those of other files. -/
theorem StoresAll.lists {before : List Json} (h : StoresAll store site world visits world') (hsite : IsNamed site.folder)
    (hlists : Lists store site world before) (hsome : visits ≠ []) (hnodup : (visits.map (·.folder.name)).Nodup) :
    Store.openIn site.storage? site world' = (.ok store, world') ∧
      ∃ entries others, Lists store site world' entries ∧
        entries.Perm (visits.map (fun visit => (visit.snapshot site).listed) ++ others) ∧
        others = store.entriesBeside site (Disk.makeFolders site.folder store.base world.disk).2
          (visits.map (·.folder.name ++ ".json")) ∧
        others.Sublist before ∧
        ((∀ visit ∈ visits, world.disk.item? (store.indexPlace site.folder visit.folder.name) = none) →
          others = before) := by
  have hadds := h.addsEntries hsite (hasNames_baseFolder hlists.base) hsome hnodup
  obtain ⟨opened, hopened, hdisk, hbefore⟩ := hlists.exists_opened
  obtain ⟨first, hfirst⟩ := List.exists_mem_of_ne_nil visits hsome
  obtain ⟨⟨_, hdone⟩, hstored⟩ := h.isStored hnodup first hfirst
  have hbase : store.base.Fits := Store.fits_base_of_indexPath hdone.named hstored.fits
  have hopen := Store.openIn_of_isOpen hopened hbase hadds.opened'
  rw [← hdisk] at hadds ⊢
  obtain ⟨entries, hlist, hperm⟩ := Store.list_of_addsEntries hbase hadds hbefore
  obtain ⟨hothers, hnew⟩ := Store.entriesBeside_of_list hbase hadds.opened hbefore (visits.map (·.folder.name ++ ".json"))
  rw [List.map_map, List.map_map] at hperm
  have hbase' := baseFolder_later hlists.base site.now world'
  refine ⟨hopen, entries, _, ⟨hbase', ?_⟩, hperm, rfl, hothers, fun habsent => hnew ?_⟩
  · rw [listWorkspaces_of_openIn hopen, hlist]
    rfl
  · rw [hdisk]
    exact List.forall_mem_map.mpr fun visit hvisit => h.item?_eq_none hsome hnodup hvisit (habsent visit hvisit)

/-- A world with two folders of the name `docs`, in `a` and in `b`, and a document in each. -/
def twinWorld : World :=
  ⟨⟨[(["work"], .folder), (["work", "a"], .folder), (["work", "a", "docs"], .folder),
    (["work", "a", "docs", "a.typ"], .file (Text.encode "= X\n")), (["work", "b"], .folder),
    (["work", "b", "docs"], .folder), (["work", "b", "docs", "b.typ"], .file (Text.encode "= X\n"))]⟩, []⟩

/-- The folder that a text leads to from the folder `work`. -/
def folderIn (text : String) : Path := (Path.ofText text).resolve ["work"]

def afterIndexing (text : String) (world : World) : World := (indexFolder (.str text) (headedSite "index") world).2

def visitOf (text : String) (world : World) : Visit := ⟨folderIn text, (headedSite "index").now, world⟩

/-- A call that succeeds is followed by others. -/
theorem visits_cons {text : String} (hthere : world.disk.item? ["work"] = some .folder)
    (hclean : (Path.ofText text).toText.toList.contains '\x00' = false)
    (hexpand : (Path.ofText text).expand? (headedSite "index").homeOf? = some (Path.ofText text))
    (hsucceeds : Succeeds (indexFolder (.str text) (headedSite "index") world))
    (hrest : Visits (headedSite "index") (afterIndexing text world) visits world') :
    Visits (headedSite "index") world (visitOf text world :: visits) world' := by
  obtain ⟨result, hrun, hsuccess⟩ := hsucceeds.exists_result
  refine .call (folderAt_ok.mpr ⟨rfl, text, _, rfl, hexpand, ?_⟩) hrun hsuccess hrest
  have hfolder : ¬ ((Path.ofText text).root = "" ∧ world.disk.item? ["work"] = none) := fun hnone => by
    rw [hthere] at hnone
    cases hnone.2
  exact (if_neg (by rw [hclean]; exact nofun)).trans (if_neg hfolder)

theorem lists_twinWorld : Lists Store.indexStore (headedSite "index") twinWorld [] := by
  obtain ⟨opened, hopened, hopen, hnone⟩ : ∃ opened,
      Store.openIn (headedSite "index").storage? (headedSite "index") twinWorld = (.ok Store.indexStore, opened) ∧
      Store.indexStore.IsOpen (headedSite "index").folder opened.disk ∧
      Store.indexStore.indexNames (headedSite "index").folder opened.disk = [] :=
    ⟨_, rfl, ⟨by decide +kernel, by decide +kernel⟩, by decide +kernel⟩
  refine ⟨rfl, ?_⟩
  rw [listWorkspaces_of_openIn hopened, Store.list, Store.listWithin_eq_collect none (by decide) hopen, hnone]
  rfl

theorem visits_twinWorld {second : String} (hsecond : second = "b" ∨ second = "b/docs") :
    Visits (headedSite "index") twinWorld [visitOf "a/docs" twinWorld, visitOf second (afterIndexing "a/docs" twinWorld)]
      (afterIndexing second (afterIndexing "a/docs" twinWorld)) := by
  have hfirst : Succeeds (indexFolder (.str "a/docs") (headedSite "index") twinWorld) := by decide +kernel
  have hthere : (afterIndexing "a/docs" twinWorld).disk.item? ["work"] = some .folder := by decide +kernel
  refine visits_cons (by decide) (by decide) rfl hfirst ?_
  rcases hsecond with rfl | rfl
  · exact visits_cons hthere (by decide) rfl (by decide +kernel) (.done _)
  · exact visits_cons hthere (by decide) rfl (by decide +kernel) (.done _)

end Tools

end DocOutline
