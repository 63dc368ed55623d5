import DocOutline.Proofs.Store.Resaving
import DocOutline.Proofs.Tools.Indexing

/-!
# Indexing a folder again

The store keeps copies of the documents of a folder. As long as these are not taken for documents of the folder themselves
(`HidesCopies`), the folder can be indexed again with the same outcome (`indexFolder_again`): what the first run has written is
not seen by the second (`unseen_isWritten`), which writes the same in the same places (`storeFolder_again`). A store inside the
folder shows its copies, and each run finds those of the one before (`indexFolder_inside`).
-/

namespace DocOutline.Tools

open DocOutline.Action
open DocOutline.Discovery (IsDocument Unseen)

variable {store : Store} {site : Site} {world world' : World} {disk disk' : Disk} {folder : Path} {parts : List String}
  {path result : Json} {tried : List (Except String Indexed)} {documents : List Indexed} {workspace : String}
  {bytes : Text.Bytes}

/-! ## Copies -/

/-- Whether the copies that a store keeps of the documents of a folder are not taken for documents themselves: each of them,
below `content`, lies outside of the folder or where files are left out, or takes the place of its document without getting
too long for one. The folder at the root holds every store. -/
structure HidesCopies (disk : Disk) (folder content : Place) : Prop where
  belowRoot : folder ≠ []
  hidden : ∀ parts bytes parts', IsDocument disk folder parts bytes → content ++ parts = folder ++ parts' →
    Discovery.isSkipped (Discovery.pathText parts') = true ∨
      parts' = parts ∧ ((Text.encode (Text.readAs bytes)).length : Int) ≤ Discovery.maxSize

/-- So they are if the store keeps them in another place altogether. -/
theorem hidesCopies_of_apart {folder content : Place} (hroot : folder ≠ []) (h : ¬ folder <+: content)
    (h' : ¬ content <+: folder) : HidesCopies disk folder content := by
  refine ⟨hroot, fun parts bytes parts' _ heq => ?_⟩
  have hprefix : folder <+: content ++ parts := heq ▸ List.prefix_append _ _
  rcases List.prefix_or_prefix_of_prefix hprefix (List.prefix_append _ _) with hinside | haround
  · exact absurd hinside h
  · exact absurd haround h'

def IsWritten (store : Store) (site : Site) (workspace : String) (documents : List Indexed) (place : Place)
    (bytes : Text.Bytes) : Prop :=
  place = store.indexPlace site.folder workspace ∨
    store.IsTextAt site.folder workspace (savedAt site.now documents).texts place bytes

section

variable {documents : List Indexed} {workspace : String}

/-- The copies of documents lie where those do, below the folder of the copies. -/
theorem IsWritten.origin {place : Place} (h : IsWritten store site workspace documents place bytes)
    (hfrom : AreFrom disk folder.parts documents) (hsound : disk.IsSound)
    (hfolder : disk.item? folder.parts = some .folder) (hname : Path.IsName workspace)  :
    place = store.indexPlace site.folder workspace ∨ ∃ parts old, IsDocument disk folder.parts parts old ∧
      place = store.basePlace site.folder ++ [workspace] ++ parts ∧ bytes = Text.encode (Text.readAs old) := by
  refine h.imp_right ?_
  rintro ⟨file, text, htext, hplace, rfl⟩
  have hplain := (hfrom.arePlain hsound hfolder site.now).plain file (List.mem_map_of_mem (f := Prod.fst) htext)
  obtain ⟨document, hdocument, heq⟩ := List.mem_map.mp htext
  obtain ⟨parts, old, hold, hfile, hcontent⟩ := hfrom.origin document hdocument
  cases heq
  refine ⟨parts, old, hold, ?_, by rw [hcontent]⟩
  rw [hplace, Store.target_join_contentFolder hname hplain, Store.documentPlace, hfile, Discovery.pathText,
    Path.names_intercalate (hold.isNamed hsound)]
  simp

/-- What is written in a folder is no document, or a document that is written in its own place. -/
theorem IsWritten.hidden (h : IsWritten store site workspace documents (folder.parts ++ parts) bytes)
    (hfrom : AreFrom disk folder.parts documents) (hsound : disk.IsSound)
    (hfolder : disk.item? folder.parts = some .folder) (hname : Path.IsName workspace)
    (hhides : HidesCopies disk folder.parts (store.basePlace site.folder ++ [workspace])) :
    (∀ bytes, Discovery.isEligible Discovery.maxSize (parts, .file bytes) = false) ∨
      ∃ old, IsDocument disk folder.parts parts old ∧ bytes = Text.encode (Text.readAs old) ∧
        (bytes.length : Int) ≤ Discovery.maxSize := by
  rcases h.origin hfrom hsound hfolder hname with hindex | ⟨parts', old, hold, hplace, rfl⟩
  · exact .inl (Discovery.not_isEligible_json hname.2.1 hindex)
  · rcases hhides.hidden parts' old parts hold hplace.symm with hskipped | ⟨rfl, hsize⟩
    · exact .inl (Discovery.not_isEligible_of_isSkipped hskipped)
    · exact .inr ⟨old, hold, rfl, hsize⟩

/-- **What is written is not seen** when the folder is looked through again. -/
theorem unseen_isWritten (hfrom : AreFrom disk folder.parts documents) (hsound : disk.IsSound)
    (hfolder : disk.item? folder.parts = some .folder) (hname : Path.IsName workspace)
    (hhides : HidesCopies disk folder.parts (store.basePlace site.folder ++ [workspace])) :
    Unseen (IsWritten store site workspace documents) disk folder.parts := by
  constructor
  case eligible =>
    intro parts bytes hwritten
    rcases hwritten.hidden hfrom hsound hfolder hname hhides with hnot | ⟨old, hold, -, hsize⟩
    · rw [hnot]
      exact ⟨nofun, fun ⟨old, hold⟩ => by rw [← hnot old, hold.eligible]⟩
    · obtain ⟨hkept, hlanguage, -⟩ := Discovery.isEligible_iff.mp hold.eligible
      exact ⟨fun _ => ⟨old, hold⟩, fun _ => Discovery.isEligible_iff.mpr ⟨hkept, hlanguage, hsize⟩⟩
  case text =>
    intro parts bytes old hwritten hdocument
    rcases hwritten.hidden hfrom hsound hfolder hname hhides with hnot | ⟨old', hold', rfl, -⟩
    · exact absurd hdocument.eligible (by rw [hnot]; exact nofun)
    · rw [hold'.eq hdocument.item, Text.readAs_encode_readAs]

end

/-! ## Two runs -/

/-- The folder that a path stands for is the same later. -/
theorem folderAt_of_writes {written : Place → Text.Bytes → Prop} (h : folderAt path site world = (.ok folder, world))
    (hwrites : world.disk.Writes written world'.disk) (time : String) :
    folderAt path { site with now := time } world' = (.ok folder, world') := by
  obtain ⟨-, text, expanded, htext, hexpand, hresolve⟩ := folderAt_ok.mp h
  refine folderAt_ok.mpr ⟨rfl, text, expanded, htext, hexpand, ?_⟩
  unfold Disk.resolve at hresolve ⊢
  split at hresolve
  · cases hresolve
  · next hclean =>
    rw [if_neg hclean]
    split at hresolve
    · cases hresolve
    · next hthere => rw [if_neg fun hnone => hthere ⟨hnone.1, of_not_not fun hitem => hwrites.stays hitem hnone.2⟩, hresolve]

theorem isFolder?_of_writes {written : Place → Text.Bytes → Prop} (h : disk.isFolder? site.folder folder = .ok true)
    (hwrites : disk.Writes written disk') : disk'.isFolder? site.folder folder = .ok true := by
  obtain ⟨hfits, hpassable, hend⟩ := Disk.isFolder?_eq_true.mp h
  exact Disk.isFolder?_eq_true.mpr ⟨hfits, hwrites.keeps.isPassable hpassable, hend.imp_right hwrites.folders⟩

/-- What is done with the documents of a folder is done alike after files were written that are not seen. -/
theorem agrees_mapM_indexDocument {written : Place → Text.Bytes → Prop} (hsound : world.disk.IsSound)
    (hresolved : folder.IsResolved) (hfolder : world.disk.item? folder.parts = some .folder)
    (hunseen : Unseen written world.disk folder.parts) (hwrites : world.disk.Writes written world'.disk) :
    Agrees site world.disk world'.disk ((sourcesIn world.disk folder).mapM (indexDocument folder)) := by
  refine Agrees.mapM fun parts hparts => agrees_indexDocument ?_
  obtain ⟨bytes, hdocument⟩ := (Discovery.mem_documents_below hsound.proper hfolder).mp (List.mem_of_mem_take hparts)
  obtain ⟨bytes', hdocument', htext⟩ := hdocument.writes hunseen hwrites
  have hpath := isResolved_documentPath hresolved (hdocument.isNamed hsound)
  have hpassable : world.disk.IsPassable [] (documentPath folder parts).parts :=
    hsound.isPassable fun hnone => absurd (hdocument.item.symm.trans hnone) nofun
  refine agrees_readText ?_ ?_ ?_ ?_ htext
  · exact List.append_ne_nil_of_right_ne_nil _ (hdocument.ne_nil hfolder)
  · rw [hpath.start_eq]
    exact fun stop hstop => (hwrites.folders (hpassable stop hstop)).trans (hpassable stop hstop).symm
  · rw [hpath.target_eq]
    exact hdocument.item
  · rw [hpath.target_eq]
    exact hdocument'.item

/-- All that storing a folder writes. -/
theorem writes_storeFolder (hname : Path.IsName folder.name)
    (hbase : Store.baseFolder site.storage? site world = (.ok store.base, world))
    (hrun : storeFolder folder tried site world = (.ok result, world')) :
    world.disk.Writes (IsWritten store site folder.name (outlined tried)) world'.disk := by
  obtain ⟨store', opened, snapshot, hopen, hsave⟩ := storeFolder_ok hrun
  obtain ⟨rfl, hopened⟩ := openIn_ok hbase hopen
  have hsaved : opened.disk.Writes (IsWritten store' site folder.name (outlined tried))
      (store'.save folder.name (savedAt site.now (outlined tried)).documents (savedAt site.now (outlined tried)).symbols
        (savedAt site.now (outlined tried)).outlines (savedAt site.now (outlined tried)).texts site opened).2.disk :=
    Store.writes_saveWithin {} hname _ _ _ _ _
  rw [hsave] at hsaved
  have hmade := Disk.grows_makeFolders site.folder store'.base world.disk
  exact (hopened ▸ Disk.Writes.of_grows hmade).trans hsaved

/-- What was stored of a folder can be stored again. -/
theorem storeFolder_again (hname : Path.IsName folder.name)
    (hfiles : Store.ArePlain (savedAt site.now (outlined tried)).texts) (hsome : outlined tried ≠ [])
    (hrun : storeFolder folder tried site world = (.ok result, world')) (time : String) {later : World}
    (hlater : later.disk = world'.disk) :
    ∃ again world'', storeFolder folder tried { site with now := time } later = (.ok again, world'') := by
  obtain ⟨store, opened, hopened, hfits, hopen, hstored⟩ := isStored_of_storeFolder hname hfiles hrun
  rw [← hlater] at hopen hstored
  have hreopened : Store.openIn site.storage? { site with now := time } later = (.ok store, later) := by
    rw [ignoresTime_openIn]
    exact Store.openIn_of_isOpen hopened hfits hopen
  have hne : (savedAt site.now (outlined tried)).texts ≠ [] := by simpa [savedAt] using hsome
  obtain ⟨snapshot, world'', hsave⟩ : ∃ snapshot world'', store.save folder.name
      (savedAt time (outlined tried)).documents (savedAt time (outlined tried)).symbols (savedAt time (outlined tried)).outlines
      (savedAt time (outlined tried)).texts { site with now := time } later = (.ok snapshot, world'') :=
    Store.save_of_isStored hname hfiles hne hopen hstored
  obtain ⟨again, hagain⟩ := storeFolder_of_save hreopened hsave
  exact ⟨again, world'', hagain⟩

def headedTree : Grammar.Tree :=
  .node "source_file" 0 4 [.node "section" 0 4 [.node "heading" 0 3
    [.node "=" 0 1 [] true false, .node "text" 2 3 [] false false] false false] false false] false false

def headedSite (storage : String) : Site := { Store.workSite with storage? := some storage, parser := fun _ => .ok headedTree }

/-- A world with one document, in the folder `docs`. -/
def docsWorld : World :=
  ⟨⟨[(["work"], .folder), (["work", "docs"], .folder), (["work", "docs", "a.typ"], .file (Text.encode "= X\n"))]⟩, []⟩

def HasDocs (disk : Disk) : Prop := disk.item? ["work"] = some .folder ∧ disk.item? ["work", "docs"] = some .folder

instance (disk : Disk) : Decidable (HasDocs disk) := inferInstanceAs (Decidable (_ ∧ _))

theorem folderAt_docs (h : HasDocs world.disk) (storage : String) :
    folderAt (.str "docs") (headedSite storage) world = (.ok docsFolder, world) := by
  refine folderAt_ok.mpr ⟨rfl, "docs", ⟨"", ["docs"]⟩, rfl, rfl, ?_⟩
  have hthere : ¬ (("" : String) = "" ∧ world.disk.item? ["work"] = none) := fun hnone => by
    rw [h.1] at hnone
    cases hnone.2
  exact (if_neg (by decide)).trans (if_neg hthere)

theorem isFolder?_docs (h : HasDocs world.disk) (storage : String) :
    world.disk.isFolder? (headedSite storage).folder docsFolder = .ok true := by
  refine Disk.isFolder?_eq_true.mpr ⟨by decide, ?_, .inr h.2⟩
  rintro stop (_ | ⟨_, _ | ⟨_, ⟨⟩⟩⟩)
  · exact Disk.item?_nil
  · exact h.1

def insideStore : Store := ⟨⟨"", ["docs", "index"]⟩⟩

/-- The world after the folder was indexed into that store. -/
def insideWorld : World := (indexSources docsFolder [["a.typ"]] (headedSite "docs/index") docsWorld).2

/-- The world after the folder was indexed once more. -/
def insideWorld' : World :=
  (indexSources docsFolder [["a.typ"], ["index", "docs", "a.typ"]] (headedSite "docs/index") insideWorld).2

/-- The copy of the first document has become one. -/
theorem sourcesIn_insideWorld : sourcesIn insideWorld.disk docsFolder = [["a.typ"], ["index", "docs", "a.typ"]] := by
  have hfound : ((insideWorld.disk.below docsFolder.parts).filter (Discovery.isEligible Discovery.maxSize)).map Prod.fst =
      [["index", "docs", "a.typ"], ["a.typ"]] := by decide +kernel
  rw [sourcesIn, Discovery.documents, hfound]
  simp [List.mergeSort, List.MergeSort.Internal.splitInTwo, Discovery.isBefore, Discovery.maxFiles]

end DocOutline.Tools
