import DocOutline.Proofs.Store.Respecting
import DocOutline.Proofs.Tools.Failing
import DocOutline.Proofs.Tools.Reindexing

/-!
# Folders with documents that fail

A document without an outline does not spoil the index of its folder (`indexFolder_withoutFailing`): what is stored is what
would be stored without it, as long as the store needs no folder in its place. If the store does, nothing can be stored although
all would be well without that document (`indexFolder_inTheWay`).
-/

namespace DocOutline.Tools

open DocOutline.Action
open DocOutline.Discovery (IsDocument)

variable {store : Store} {site : Site} {world world' : World} {disk disk' : Disk} {folder : Path} {path result : Json}
  {tried tried' : List (Except String Indexed)} {documents : List Indexed} {surplus : Place → Text.Bytes → Prop}
  {folder? : Option String}

/-! ## Storing -/

/-- Whether two runs of indexing end alike: with the same fault, or with results that both say that it went well. -/
inductive EndAlike (run run' : Except Fault Json × World) : Prop where
  | faults (fault : Fault) (h : run.1 = .error fault) (h' : run'.1 = .error fault)
  | results (result result' : Json) (h : run.1 = .ok result) (h' : run'.1 = .ok result') (success : IsSuccess result)
      (success' : IsSuccess result')

/-- A store that was opened is in the folder that is set, in all worlds. -/
theorem baseFolder_of_openIn {opened : World} (h : Store.openIn folder? site world = (.ok store, opened)) (later : World) :
    Store.baseFolder folder? site later = (.ok store.base, later) := by
  obtain ⟨outcome, hbase⟩ := Store.baseFolder_apply folder? site
  obtain ⟨base, middle, hfound, hrest⟩ := bind_ok.mp h
  obtain ⟨⟨⟩, made, -, hreturn⟩ := bind_ok.mp hrest
  cases hreturn
  rw [hbase] at hfound ⊢
  exact congrArg (·, later) (congrArg Prod.fst hfound)

theorem respects_openIn
    (hclear : ∀ store : Store, (∀ world, Store.baseFolder folder? site world = (.ok store.base, world)) →
      ∀ place bytes, surplus place bytes → ¬ Disk.OnWay site.folder store.base place) :
    Respects site (Disk.Exceeds surplus) (Store.openIn folder?) := by
  obtain ⟨outcome, hbase⟩ := Store.baseFolder_apply folder? site
  have hsame : Respects site (Disk.Exceeds surplus) (Store.baseFolder folder?) := fun world world' h => by
    rw [hbase, hbase]
    exact ⟨rfl, h⟩
  refine hsame.bind_of fun base world after hrun => ?_
  rw [hbase] at hrun
  obtain rfl : outcome = .ok base := congrArg Prod.fst hrun
  exact (respects_change (Disk.respects_makeFolders (hclear ⟨base⟩ hbase))).bind fun _ => respects_pure _

def LeavesWays (site : Site) (folder : Path) (documents : List Indexed) (surplus : Place → Text.Bytes → Prop) : Prop :=
  ∀ store : Store, (∀ world, Store.baseFolder site.storage? site world = (.ok store.base, world)) →
    ∀ place bytes, surplus place bytes → ∀ document ∈ documents,
      place ∉ store.wayTo site.folder folder.name document.file

/-- Opening the store and saving the documents of a folder there. -/
def storeDocuments (folder : Path) (documents : List Indexed) : Action Snapshot := do
  let store ← Store.openIn (← read).storage?
  store.save folder.name (.arr (documents.map fun document => .str document.file)) (.arr (documents.flatMap Indexed.symbols))
    (documents.map fun document => (document.file, document.forest))
    (documents.map fun document => (document.file, document.content))

/-- Whether a result has the warnings, if there are any. -/
def HasWarnings (warnings : List String) (result : Json) : Prop :=
  result.member? "warnings" = if warnings.isEmpty then none else some (.strings warnings)

/-- Storing a folder is storing its documents and reporting on them. -/
theorem storeFolder_eq (folder : Path) (tried : List (Except String Indexed)) :
    ∃ report : Snapshot → Json,
      storeFolder folder tried = (storeDocuments folder (outlined tried) >>= fun snapshot => pure (report snapshot)) ∧
      ∀ snapshot, IsSuccess (report snapshot) ∧ HasWarnings (warnings tried) (report snapshot) := by
  simp only [storeFolder, storeDocuments, bind_assoc]
  refine ⟨_, rfl, fun snapshot => ⟨rfl, ?_⟩⟩
  rw [HasWarnings]
  cases (warnings tried).isEmpty with
  | true => by_cases hmany : Discovery.maxFiles ≤ tried.length <;> simp only [hmany, if_true, if_false] <;> rfl
  | false => rfl

/-- Storing the documents of a folder does the same whether there are such files or not. -/
theorem respects_storeDocuments (hname : Store.IsFolderName folder.name)
    (hplain : ∀ document ∈ documents, Path.IsPlain document.file) (hsome : documents ≠ [])
    (hways : LeavesWays site folder documents surplus) :
    Respects site (Disk.Exceeds surplus) (storeDocuments folder documents) := by
  have htexts :
      (documents.map fun document => (document.file, document.content)).map Prod.fst = documents.map Indexed.file := by
    rw [List.map_map]
    rfl
  have hfiles : ∀ file ∈ (documents.map fun document => (document.file, document.content)).map Prod.fst, Path.IsPlain file := by
    rw [htexts, List.forall_mem_map]
    exact hplain
  have hne : (documents.map fun document => (document.file, document.content)) ≠ [] := by simpa using hsome
  have hclear (store : Store) (hbase : ∀ world, Store.baseFolder site.storage? site world = (.ok store.base, world)) :
      store.IsClear site.folder folder.name (documents.map fun document => (document.file, document.content)) surplus := by
    intro place bytes hplace
    rw [htexts, List.forall_mem_map]
    exact hways store hbase place bytes hplace
  refine respects_read.bind_of fun site' world after hread => ?_
  cases hread
  have hopen : Respects site (Disk.Exceeds surplus) (Store.openIn site.storage?) :=
    respects_openIn fun store hbase place bytes => (hclear store hbase).not_onWay hname hfiles hne
  refine hopen.bind_of fun store world after hrun => ?_
  exact Store.respects_save hname hfiles (hclear store (baseFolder_of_openIn hrun)) hne _ _ _

/-- Whether a run has saved documents: it has made the folder of the store and saved all that it has of the documents there. Of
a folder with a name this is read back. -/
structure HasSaved (store : Store) (site : Site) (folder : Path) (documents : List Indexed) (before : Disk) (after : World) :
    Prop where
  base : ∀ world, Store.baseFolder site.storage? site world = (.ok store.base, world)
  saves : ∃ opened snapshot, opened.disk = (Disk.makeFolders site.folder store.base before).2 ∧
    store.save folder.name (.arr (documents.map fun document => .str document.file)) (.arr (documents.flatMap Indexed.symbols))
      (documents.map fun document => (document.file, document.forest))
      (documents.map fun document => (document.file, document.content)) site opened = (.ok snapshot, after)
  loads : folder.parts ≠ [] →
    store.load folder.name site after = (.ok (some (snapshotOf site folder documents)), after)
  texts : folder.parts ≠ [] →
    ∀ document ∈ documents, store.HoldsText site.folder folder.name after.disk document.file document.content

theorem hasSaved_of_storeDocuments (hresolved : folder.IsResolved) (hfiles : Store.ArePlain (savedAt site.now documents).texts)
    {snapshot : Snapshot} (hrun : storeDocuments folder documents site world = (.ok snapshot, world')) :
    ∃ store, HasSaved store site folder documents world.disk world' := by
  obtain ⟨_, _, hread, hrun⟩ := bind_ok.mp hrun
  cases hread
  obtain ⟨store, opened, hopen, hsave⟩ := bind_ok.mp hrun
  have hbase := baseFolder_of_openIn hopen
  have hsaved (hroot : folder.parts ≠ []) := Store.saveWithin_ok (isName_of_isResolved hresolved hroot) hfiles hsave
  refine ⟨store, hbase, ⟨opened, snapshot, (openIn_ok (hbase world) hopen).2, hsave⟩, fun hroot => ?_, fun hroot => ?_⟩
  · obtain ⟨rfl, hthere, hstored⟩ := hsaved hroot
    exact Store.load_of_isIndexed hthere (isName_of_isResolved hresolved hroot) hstored.toIsIndexed
      ((isProper_savedAt hfiles).toJson_snapshot folder.name)
  · intro document hdocument
    exact (hsaved hroot).2.2.texts _ _ (List.mem_map_of_mem hdocument)

/-- Whether two runs of indexing store the same documents of a folder, on two disks of which the first holds the more. -/
structure StoreAlike (site : Site) (folder : Path) (documents : List Indexed) (surplus : Place → Text.Bytes → Prop)
    (disk disk' : Disk) (run run' : Except Fault Json × World) : Prop where
  ends : EndAlike run run'
  disks : run.2.disk.Exceeds surplus run'.2.disk
  stored : ∀ result, run.1 = .ok result →
    ∃ store, HasSaved store site folder documents disk run.2 ∧ HasSaved store site folder documents disk' run'.2

/-- **What is stored is the same**, whatever warnings there are. -/
theorem storeAlike_of_exceeds (hresolved : folder.IsResolved)
    (hfiles : Store.ArePlain (savedAt site.now (outlined tried)).texts) (hsome : outlined tried ≠ [])
    (hways : LeavesWays site folder (outlined tried) surplus) (h : outlined tried' = outlined tried)
    (hexceeds : world.disk.Exceeds surplus world'.disk) :
    StoreAlike site folder (outlined tried) surplus world.disk world'.disk (storeFolder folder tried site world)
      (storeFolder folder tried' site world') := by
  have hname : Store.IsFolderName folder.name := by
    by_cases hroot : folder.parts = []
    · exact .inl (by rw [Path.name, hroot]; rfl)
    · exact .inr (isName_of_isResolved hresolved hroot)
  have hplain : ∀ document ∈ outlined tried, Path.IsPlain document.file := fun document hdocument =>
    hfiles.plain _ (List.mem_map_of_mem (f := Prod.fst) (List.mem_map_of_mem hdocument))
  obtain ⟨houtcome, hafter⟩ := respects_storeDocuments hname hplain hsome hways world world' hexceeds
  obtain ⟨report, hreport, hsuccess⟩ := storeFolder_eq folder tried
  obtain ⟨report', hreport', hsuccess'⟩ := storeFolder_eq folder tried'
  rw [hreport, hreport', h]
  obtain ⟨outcome, after, hrun⟩ : ∃ outcome after, storeDocuments folder (outlined tried) site world = (outcome, after) :=
    ⟨_, _, rfl⟩
  obtain ⟨outcome', after', hrun'⟩ : ∃ outcome after, storeDocuments folder (outlined tried) site world' = (outcome, after) :=
    ⟨_, _, rfl⟩
  rw [hrun, hrun'] at houtcome hafter
  obtain rfl : outcome' = outcome := houtcome
  cases outcome' with
  | ok snapshot =>
    rw [bind_of_ok _ hrun, bind_of_ok _ hrun']
    refine ⟨.results _ _ rfl rfl (hsuccess snapshot).1 (hsuccess' snapshot).1, hafter, fun _ _ => ?_⟩
    obtain ⟨⟨base⟩, hsaved⟩ := hasSaved_of_storeDocuments hresolved hfiles hrun
    obtain ⟨⟨base'⟩, hsaved'⟩ := hasSaved_of_storeDocuments hresolved hfiles hrun'
    obtain rfl : base' = base := Except.ok.inj (congrArg Prod.fst ((hsaved'.base world).symm.trans (hsaved.base world)))
    exact ⟨⟨base'⟩, hsaved, hsaved'⟩
  | error fault =>
    rw [bind_of_error _ hrun, bind_of_error _ hrun']
    exact ⟨.faults fault rfl rfl, hafter, fun result hresult => by cases hresult⟩

/-! ## Runs of indexing -/

/-- If no document has an outline nothing is stored. -/
theorem indexSources_of_none {sources : List (List String)} {middle : World}
    (htried : sources.mapM (indexDocument folder) site world = (.ok tried, middle)) (hnone : outlined tried = [])
    (hlength : tried.length = sources.length) (hdisk : middle.disk = world.disk) :
    ∃ result after, indexSources folder sources site world = (.ok result, after) ∧ ¬ IsSuccess result ∧
      HasWarnings (warnings tried) result ∧ after.disk = world.disk := by
  unfold indexSources
  cases sources with
  | nil =>
    obtain rfl := List.length_eq_zero_iff.mp hlength
    exact ⟨_, world, rfl, not_isSuccess_indexFailure _ _, rfl, rfl⟩
  | cons parts sources =>
    rw [if_neg nofun, bind_of_ok _ htried, if_pos (by rw [hnone]; rfl)]
    refine ⟨_, middle, rfl, not_isSuccess_indexFailure _ _, ?_, hdisk⟩
    match tried with
    | .ok document :: others => cases hnone
    | .error warning :: others => rfl

section

variable (hresolved : folder.IsResolved) (hfolder : folderAt path site world = (.ok folder, world))
  (hthere : world.disk.isFolder? site.folder folder = .ok true)

include hresolved hfolder hthere

/-- **If no document of a folder has an outline nothing is written.** -/
theorem indexFolder_of_none (hnone : outlinedIn site world.disk folder = []) :
    ∃ result after, indexFolder path site world = (.ok result, after) ∧ ¬ IsSuccess result ∧
      HasWarnings (warningsIn site world.disk folder) result ∧ after.disk = world.disk := by
  obtain ⟨records, htried⟩ := mapM_indexDocument site world.disk folder (sourcesIn world.disk folder)
  rw [indexFolder_of_isFolder hfolder hresolved hthere]
  exact indexSources_of_none (htried world.records) hnone (List.length_map _) rfl

/-- Otherwise the documents that have one are stored. -/
theorem indexFolder_of_some (hsome : outlinedIn site world.disk folder ≠ []) :
    ∃ middle, middle.disk = world.disk ∧ indexFolder path site world =
      storeFolder folder ((sourcesIn world.disk folder).map (outcomeOf site world.disk folder)) site middle := by
  obtain ⟨records, htried⟩ := mapM_indexDocument site world.disk folder (sourcesIn world.disk folder)
  refine ⟨⟨world.disk, world.records ++ records⟩, rfl, ?_⟩
  rw [indexFolder_of_isFolder hfolder hresolved hthere]
  exact indexSources_of_mapM (htried world.records) hsome

/-- A result has the warnings about all documents without an outline. -/
theorem hasWarnings_of_indexFolder (hrun : indexFolder path site world = (.ok result, world')) :
    HasWarnings (warningsIn site world.disk folder) result := by
  by_cases hnone : outlinedIn site world.disk folder = []
  · obtain ⟨_, _, hends, -, hwarnings, -⟩ := indexFolder_of_none hresolved hfolder hthere hnone
    rw [hrun] at hends
    cases hends
    exact hwarnings
  · obtain ⟨middle, -, hstores⟩ := indexFolder_of_some hresolved hfolder hthere hnone
    obtain ⟨report, hreport, hsuccess⟩ := storeFolder_eq folder
      ((sourcesIn world.disk folder).map (outcomeOf site world.disk folder))
    rw [hstores, hreport] at hrun
    obtain ⟨snapshot, _, -, hreturn⟩ := bind_ok.mp hrun
    cases hreturn
    exact (hsuccess snapshot).2

end

/-! ## Two runs -/

/-- The folder that a path stands for is the same without some files. -/
theorem folderAt_of_exceeds (h : folderAt path site world = (.ok folder, world))
    (hwork : ∀ bytes, world.disk.item? site.folder ≠ some (.file bytes)) (hexceeds : world.disk.Exceeds surplus world'.disk) :
    folderAt path site world' = (.ok folder, world') := by
  obtain ⟨-, text, expanded, htext, hexpand, hresolve⟩ := folderAt_ok.mp h
  refine folderAt_ok.mpr ⟨rfl, text, expanded, htext, hexpand, ?_⟩
  have hsame : world'.disk.item? site.folder = world.disk.item? site.folder :=
    (hexceeds site.folder).resolve_right fun ⟨bytes, _, hfile, _⟩ => hwork bytes hfile
  rw [← hresolve, Disk.resolve, Disk.resolve, hsame]

theorem isFolder?_of_exceeds {place : Place} {path : Path} (h : disk.isFolder? place path = .ok true)
    (hexceeds : disk.Exceeds surplus disk') : disk'.isFolder? place path = .ok true := by
  obtain ⟨hfits, hpassable, hend⟩ := Disk.isFolder?_eq_true.mp h
  exact Disk.isFolder?_eq_true.mpr ⟨hfits, hexceeds.isPassable_iff.mpr hpassable, hend.imp_right hexceeds.isFolder_iff.mpr⟩

def spoiledSite (storage : String) : Site :=
  { headedSite storage with parser := fun content => if content = "bad\n" then .error "no tree" else .ok headedTree }

def spoiledWorld : World :=
  ⟨⟨docsWorld.disk.items ++ [(["work", "docs", "bad.typ"], .file (Text.encode "bad\n"))]⟩, []⟩

theorem documents_spoiledWorld :
    Discovery.documents Discovery.maxSize (spoiledWorld.disk.below docsFolder.parts) = [["a.typ"], ["bad.typ"]] := by
  have hfound : ((spoiledWorld.disk.below docsFolder.parts).filter (Discovery.isEligible Discovery.maxSize)).map Prod.fst =
      [["a.typ"], ["bad.typ"]] := by decide +kernel
  rw [Discovery.documents, hfound]
  exact List.mergeSort_of_pairwise (by decide +kernel)

theorem sourcesIn_spoiledWorld : sourcesIn spoiledWorld.disk docsFolder = [["a.typ"], ["bad.typ"]] := by
  rw [sourcesIn, documents_spoiledWorld]
  rfl

theorem failing_spoiledWorld {storage : String} (h : storage = "index" ∨ storage = "docs/bad.typ") :
    failing (spoiledSite storage) spoiledWorld.disk docsFolder = [["bad.typ"]] := by
  rw [failing, sourcesIn_spoiledWorld]
  rcases h with rfl | rfl <;> decide +kernel

theorem files_spoiledWorld {storage : String} (h : storage = "index" ∨ storage = "docs/bad.typ") :
    (outlinedIn (spoiledSite storage) spoiledWorld.disk docsFolder).map Indexed.file = ["a.typ"] := by
  rw [outlinedIn, sourcesIn_spoiledWorld]
  rcases h with rfl | rfl <;> decide +kernel

theorem folderAt_spoiledSite (h : HasDocs world.disk) (storage : String) :
    folderAt (.str "docs") (spoiledSite storage) world = (.ok docsFolder, world) := folderAt_docs h storage

end DocOutline.Tools
