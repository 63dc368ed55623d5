import DocOutline.Proofs.Tools.Lookup
import DocOutline.Proofs.Tools.Outlining

/-!
# Runs of indexing

What a run of indexing has done when it went well: the folder was there (`isFolder?_of_isSuccess`), its documents were outlined
and those with an outline stored (`indexSources_ok`), so that they are loaded again (`load_of_storeFolder`). The other way
round, such a run can be put together from its parts (`indexFolder_of_isFolder`, `indexSources_of_mapM`,
`storeFolder_of_save`).
-/

namespace DocOutline.Tools

open DocOutline.Action
open DocOutline.Discovery (IsDocument)

variable {store : Store} {site : Site} {world world' : World} {disk : Disk} {folder : Path} {sources : List (List String)}
  {path result : Json} {tried : List (Except String Indexed)} {documents : List Indexed}

/-! ## Runs -/

def folderAt (path : Json) : Action Path := do
  let text ← Action.access path.pathText
  Action.ask Disk.resolve (← Action.expand (Path.ofText text))

def sourcesIn (disk : Disk) (folder : Path) : List (List String) :=
  (Discovery.documents Discovery.maxSize (disk.below folder.parts)).take Discovery.maxFiles

/-- What comes after the documents of a folder have been found: they are outlined and stored. -/
def indexSources (folder : Path) (sources : List (List String)) : Action Json := do
  if sources.isEmpty then return indexFailure "No Typst documents found" []
  let tried ← sources.mapM (indexDocument folder)
  if (outlined tried).isEmpty then
    return indexFailure "No documents could be outlined" [("warnings", .strings (warnings tried))]
  storeFolder folder tried

def IsSuccess (result : Json) : Prop := result.member? "success" = some (.bool true)

instance (result : Json) : Decidable (IsSuccess result) :=
  match h : result.member? "success" with
  | some (.bool true) => isTrue h
  | none | some (.bool false) | some .null | some (.int _) | some (.real _) | some (.str _) | some (.arr _)
  | some (.obj _) => isFalse fun hsuccess => by rw [IsSuccess, h] at hsuccess; cases hsuccess

theorem not_isSuccess_indexFailure (message : String) (more : List (String × Json)) :
    ¬ IsSuccess (indexFailure message more) := by
  intro h
  cases h

theorem folderAt_ok :
    folderAt path site world = (.ok folder, world') ↔ world = world' ∧ ∃ text expanded, path.pathText = .ok text ∧
      (Path.ofText text).expand? site.homeOf? = some expanded ∧ world.disk.resolve site.folder expanded = .ok folder := by
  constructor
  · intro h
    obtain ⟨text, _, haccess, h⟩ := bind_ok.mp h
    obtain ⟨htext, rfl⟩ := access_ok.mp haccess
    obtain ⟨expanded, _, hexpanded, hask⟩ := bind_ok.mp h
    obtain ⟨hexpand, rfl⟩ := expand_ok.mp hexpanded
    obtain ⟨hresolve, rfl⟩ := ask_ok.mp hask
    exact ⟨rfl, text, expanded, htext, hexpand, hresolve⟩
  · rintro ⟨rfl, text, expanded, htext, hexpand, hresolve⟩
    refine bind_ok.mpr ⟨text, world, access_ok.mpr ⟨htext, rfl⟩, ?_⟩
    exact bind_ok.mpr ⟨expanded, world, expand_ok.mpr ⟨hexpand, rfl⟩, ask_ok.mpr ⟨hresolve, rfl⟩⟩

/-- The folder that a path stands for is found along names. -/
theorem isResolved_folderAt (hsite : IsNamed site.folder) (h : folderAt path site world = (.ok folder, world')) :
    folder.IsResolved := by
  obtain ⟨-, text, expanded, -, hexpand, hresolve⟩ := folderAt_ok.mp h
  unfold Disk.resolve at hresolve
  split at hresolve
  · cases hresolve
  split at hresolve
  · cases hresolve
  cases hresolve
  exact Path.isResolved_resolve hsite (Path.hasNames_expand hexpand)

theorem isFolder?_of_isSuccess (hfolder : folderAt path site world = (.ok folder, world))
    (hrun : indexFolder path site world = (.ok result, world')) (hsuccess : IsSuccess result) :
    world.disk.isFolder? site.folder folder = .ok true := by
  obtain ⟨-, text, expanded, htext, hexpand, hresolve⟩ := folderAt_ok.mp hfolder
  rw [indexFolder, bind_of_ok _ (access_ok.mpr ⟨htext, rfl⟩)] at hrun
  replace hrun := (bind_of_ok _ (expand_ok.mpr ⟨hexpand, rfl⟩)).symm.trans hrun
  replace hrun := (bind_of_ok _ (ask_ok.mpr ⟨hresolve, rfl⟩)).symm.trans hrun
  obtain ⟨there, _, hthere, hrun⟩ := bind_ok.mp hrun
  obtain ⟨-, rfl⟩ := ask_ok.mp hthere
  cases there with
  | false =>
    cases hrun
    exact absurd hsuccess (not_isSuccess_indexFailure _ _)
  | true =>
    obtain ⟨isFolder, _, hasked, hrun⟩ := bind_ok.mp hrun
    obtain ⟨hisFolder, rfl⟩ := ask_ok.mp hasked
    cases isFolder with
    | false =>
      cases hrun
      exact absurd hsuccess (not_isSuccess_indexFailure _ _)
    | true => exact hisFolder

/-- A folder that is found along names is where they say. -/
theorem item?_of_isFolder? {place : Place} (hresolved : folder.IsResolved) (h : disk.isFolder? place folder = .ok true) :
    disk.item? folder.parts = some .folder := by
  rcases (Disk.isFolder?_eq_true.mp h).2.2 with hroot | hend
  · rw [hroot, Disk.item?_nil]
  · rwa [hresolved.target_eq] at hend

theorem discover_of_isFolder (hresolved : folder.IsResolved) (hthere : world.disk.isFolder? site.folder folder = .ok true) :
    Discovery.discover folder (.nat Discovery.maxFiles) Discovery.maxSize site world =
      (.ok (sourcesIn world.disk folder), world) := by
  have hitems := Discovery.itemsIn_of_isFolder hthere
  rw [hresolved.target_eq] at hitems
  exact bind_ok.mpr ⟨_, world, ask_ok.mpr ⟨hitems, rfl⟩, access_ok.mpr ⟨Discovery.takeTo_nat _ _, rfl⟩⟩

theorem indexFolder_of_isFolder (hfolder : folderAt path site world = (.ok folder, world)) (hresolved : folder.IsResolved)
    (hthere : world.disk.isFolder? site.folder folder = .ok true) :
    indexFolder path site world = indexSources folder (sourcesIn world.disk folder) site world := by
  obtain ⟨-, text, expanded, htext, hexpand, hresolve⟩ := folderAt_ok.mp hfolder
  have hexists := Disk.exists?_of_isFolder? hthere
  have hsources := discover_of_isFolder hresolved hthere
  rw [indexFolder, bind_of_ok _ (access_ok.mpr ⟨htext, rfl⟩)]
  refine (bind_of_ok _ (expand_ok.mpr ⟨hexpand, rfl⟩)).trans ?_
  refine (bind_of_ok _ (ask_ok.mpr ⟨hresolve, rfl⟩)).trans ?_
  refine (bind_of_ok _ (ask_ok.mpr ⟨hexists, rfl⟩)).trans ?_
  refine (bind_of_ok _ (ask_ok.mpr ⟨hthere, rfl⟩)).trans ?_
  refine (bind_of_ok _ hsources).trans ?_
  rfl

/-! ## Documents -/

theorem indexSources_ok (hrun : indexSources folder sources site world = (.ok result, world')) (hsuccess : IsSuccess result) :
    ∃ tried middle, sources.mapM (indexDocument folder) site world = (.ok tried, middle) ∧ outlined tried ≠ [] ∧
      storeFolder folder tried site middle = (.ok result, world') := by
  unfold indexSources at hrun
  split at hrun
  · cases hrun
    exact absurd hsuccess (not_isSuccess_indexFailure _ _)
  · obtain ⟨tried, middle, htried, hrun⟩ := bind_ok.mp hrun
    split at hrun
    · cases hrun
      exact absurd hsuccess (not_isSuccess_indexFailure _ _)
    · next hsome => exact ⟨tried, middle, htried, by simpa using hsome, hrun⟩

theorem indexSources_of_mapM {middle : World} (htried : sources.mapM (indexDocument folder) site world = (.ok tried, middle))
    (hsome : outlined tried ≠ []) : indexSources folder sources site world = storeFolder folder tried site middle := by
  have hsources : ¬ sources.isEmpty = true := by
    rw [List.isEmpty_iff]
    rintro rfl
    cases htried
    exact hsome rfl
  rw [indexSources, if_neg hsources, bind_of_ok _ htried, if_neg (by simpa using hsome)]

theorem isSuccess_of_storeFolder (hrun : storeFolder folder tried site world = (.ok result, world')) : IsSuccess result := by
  obtain ⟨_, _, -, hrun⟩ := bind_ok.mp hrun
  obtain ⟨_, _, -, hrun⟩ := bind_ok.mp hrun
  obtain ⟨_, _, -, hreturn⟩ := bind_ok.mp hrun
  cases hreturn
  rfl

theorem storeFolder_of_save {opened : World} {snapshot : Snapshot}
    (hopen : Store.openIn site.storage? site world = (.ok store, opened))
    (hsave : store.save folder.name (savedAt site.now (outlined tried)).documents (savedAt site.now (outlined tried)).symbols
      (savedAt site.now (outlined tried)).outlines (savedAt site.now (outlined tried)).texts site opened =
        (.ok snapshot, world')) :
    ∃ result, storeFolder folder tried site world = (.ok result, world') :=
  ⟨_, bind_ok.mpr ⟨_, _, read_apply, bind_ok.mpr ⟨_, _, hopen, bind_ok.mpr ⟨_, _, hsave, rfl⟩⟩⟩⟩

def Succeeds (run : Except Fault Json × World) : Prop := run.1.toOption.any (fun result => decide (IsSuccess result)) = true

instance (run : Except Fault Json × World) : Decidable (Succeeds run) := inferInstanceAs (Decidable (_ = true))

theorem Succeeds.exists_result {run : Except Fault Json × World} (h : Succeeds run) :
    ∃ result, run = (.ok result, run.2) ∧ IsSuccess result := by
  match run with
  | (.error _, _) => cases h
  | (.ok result, _) => exact ⟨result, rfl, of_decide_eq_true h⟩

/-- A folder that is not the one at the root has a name. -/
theorem isName_of_isResolved (hresolved : folder.IsResolved) (hroot : folder.parts ≠ []) : Path.IsName folder.name := by
  rw [Path.name, List.getLast?_eq_some_getLast hroot]
  exact hresolved.named _ (List.getLast_mem hroot)

/-! ## Stored documents -/

/-- Whether documents with an outline are documents of a folder, no two of them the same. -/
structure AreFrom (disk : Disk) (folder : Place) (documents : List Indexed) : Prop where
  origin : ∀ document ∈ documents, ∃ parts bytes, IsDocument disk folder parts bytes ∧
    document.file = Discovery.pathText parts ∧ document.content = Text.readAs bytes
  nodup : (documents.map Indexed.file).Nodup

theorem AreFrom.arePlain (h : AreFrom disk folder.parts documents) (hsound : disk.IsSound)
    (hfolder : disk.item? folder.parts = some .folder) (time : String) : Store.ArePlain (savedAt time documents).texts := by
  have hfiles : (savedAt time documents).texts.map Prod.fst = documents.map Indexed.file := by simp [savedAt]
  refine ⟨?_, hfiles ▸ h.nodup⟩
  rw [hfiles]
  rintro _ hfile
  obtain ⟨document, hdocument, rfl⟩ := List.mem_map.mp hfile
  obtain ⟨parts, bytes, hparts, hfile, -⟩ := h.origin document hdocument
  rw [hfile]
  exact Path.isPlain_intercalate (hparts.ne_nil hfolder) (hparts.isNamed hsound)

/-- The documents of a folder that have an outline. -/
theorem areFrom_outlined (hsound : world.disk.IsSound) (hresolved : folder.IsResolved)
    (hfolder : world.disk.item? folder.parts = some .folder) {middle : World}
    (hrun : (sourcesIn world.disk folder).mapM (indexDocument folder) site world = (.ok tried, middle)) :
    AreFrom world.disk folder.parts (outlined tried) := by
  have hdocuments : ∀ parts ∈ sourcesIn world.disk folder, ∃ bytes, IsDocument world.disk folder.parts parts bytes :=
    fun parts hparts => (Discovery.mem_documents_below hsound.proper hfolder).mp (List.mem_of_mem_take hparts)
  have hnamed : ∀ parts ∈ sourcesIn world.disk folder, IsNamed parts := fun parts hparts => by
    obtain ⟨bytes, hdocument⟩ := hdocuments parts hparts
    exact hdocument.isNamed hsound
  obtain ⟨hfrom, hfiles⟩ := isFrom_of_mem_outlined (mapM_indexDocument_ok hresolved hnamed hrun)
  constructor
  case origin =>
    intro document hdocument
    obtain ⟨parts, hparts, hfile, bytes, hitem, hcontent⟩ := hfrom document hdocument
    obtain ⟨_, hold⟩ := hdocuments parts hparts
    exact ⟨parts, bytes, hold.eq hitem ▸ hold, hfile, hcontent⟩
  case nodup =>
    have hnodup : (sourcesIn world.disk folder).Nodup :=
      (Discovery.nodup_documents (Disk.nodup_below hsound.proper folder.parts)).sublist (List.take_sublist _ _)
    refine (hnodup.map_on fun parts hparts parts' hparts' htext => ?_).sublist hfiles
    exact Discovery.eq_of_pathText_eq (hnamed parts hparts) (hnamed parts' hparts') htext

/-! ## Stores -/

theorem ignoresTime_baseFolder (folder? : Option String) : IgnoresTime (Store.baseFolder folder?) := by
  rw [Store.baseFolder]
  split
  · exact ignoresTime_pure _
  · exact IgnoresTime.bind (fun _ _ => rfl) fun _ => ignoresTime_pure _

theorem ignoresTime_openIn (folder? : Option String) : IgnoresTime (Store.openIn folder?) := by
  refine (ignoresTime_baseFolder folder?).bind fun base => ?_
  have hmake : IgnoresTime (makeFolders base) := fun _ _ => rfl
  exact hmake.bind fun _ => ignoresTime_pure _

/-- Which folder a store is in does not depend on the world or the time. -/
theorem baseFolder_later {folder? : Option String} (h : Store.baseFolder folder? site world = (.ok store.base, world))
    (time : String) (later : World) :
    Store.baseFolder folder? { site with now := time } later = (.ok store.base, later) := by
  obtain ⟨outcome, hsame⟩ := Store.baseFolder_apply folder? site
  rw [ignoresTime_baseFolder, hsame]
  rw [hsame] at h
  exact congrArg (·, later) (congrArg Prod.fst h)

/-- The store is opened in its folder, which is made for that. -/
theorem openIn_ok {folder? : Option String} {store' : Store} {opened : World}
    (hbase : Store.baseFolder folder? site world = (.ok store.base, world))
    (hrun : Store.openIn folder? site world = (.ok store', opened)) :
    store' = store ∧ opened.disk = (Disk.makeFolders site.folder store.base world.disk).2 := by
  obtain ⟨base, middle, hbase', hrun⟩ := bind_ok.mp hrun
  obtain ⟨⟨⟩, made, hmake, hreturn⟩ := bind_ok.mp hrun
  rw [hbase] at hbase'
  cases hbase'
  cases hreturn
  exact ⟨rfl, (congrArg (·.2.disk) hmake).symm⟩

/-- What was stored of a folder is loaded. -/
theorem load_of_storeFolder (hname : Path.IsName folder.name)
    (hbase : Store.baseFolder site.storage? site world = (.ok store.base, world))
    (hrun : storeFolder folder tried site world = (.ok result, world'))
    (hfiles : Store.ArePlain (savedAt site.now (outlined tried)).texts) :
    store.load folder.name site world' = (.ok (some (snapshotOf site folder (outlined tried))), world') := by
  obtain ⟨store', opened, hopened, -, hopen, hstored⟩ := isStored_of_storeFolder hname hfiles hrun
  obtain ⟨rfl, -⟩ := openIn_ok hbase hopened
  exact Store.load_of_isIndexed hopen hname hstored.toIsIndexed ((isProper_savedAt hfiles).toJson_snapshot folder.name)

/-- A run of which the documents are known. -/
theorem indexFolder_of_sources {files : List String} (hname : Path.IsName folder.name)
    (hbase : Store.baseFolder site.storage? site world = (.ok store.base, world))
    (hfolder : folderAt path site world = (.ok folder, world)) (hresolved : folder.IsResolved)
    (hthere : world.disk.isFolder? site.folder folder = .ok true) (hsources : sourcesIn world.disk folder = sources)
    (hfiles : (sources.mapM (indexDocument folder) site world).1.toOption.map
      (fun tried => (outlined tried).map Indexed.file) = some files)
    (hplain : (∀ file ∈ files, Path.IsPlain file) ∧ files.Nodup)
    (hsucceeds : Succeeds (indexSources folder sources site world)) :
    ∃ result snapshot,
      indexFolder path site world = (.ok result, (indexSources folder sources site world).2) ∧ IsSuccess result ∧
      store.load folder.name site (indexSources folder sources site world).2 =
        (.ok (some snapshot), (indexSources folder sources site world).2) ∧
      snapshot.documents = .strings files := by
  obtain ⟨result, hrun, hsuccess⟩ := hsucceeds.exists_result
  obtain ⟨tried, middle, htried, -, hstore⟩ := indexSources_ok hrun hsuccess
  rw [htried] at hfiles
  have hnames : (outlined tried).map Indexed.file = files := Option.some.inj hfiles
  have htexts : (savedAt site.now (outlined tried)).texts.map Prod.fst = files := by simp [savedAt, ← hnames]
  have hbase' := baseFolder_later hbase site.now middle
  refine ⟨result, snapshotOf site folder (outlined tried), ?_, hsuccess, ?_, ?_⟩
  · rw [indexFolder_of_isFolder hfolder hresolved hthere, hsources, hrun]
  · exact load_of_storeFolder hname hbase' hstore ⟨htexts ▸ hplain.1, htexts ▸ hplain.2⟩
  · rw [← hnames, Json.strings, List.map_map]
    rfl

end DocOutline.Tools
