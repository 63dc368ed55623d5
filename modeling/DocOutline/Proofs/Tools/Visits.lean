import DocOutline.Proofs.Store.Neighbours
import DocOutline.Proofs.Tools.Reindexing

/-!
# Folders that are indexed one after the other

Each call that goes well stores the documents of its folder (`Visit.Stores`). As long as the folders have different names, what
one call has stored stays when others follow (`Visit.Stores.keeps`, `StoresAll.isStored`), on a disk that stays sound
(`Visit.Stores.isSound`).
-/

namespace DocOutline.Tools

open DocOutline.Action

/-- A call that indexed a folder: the folder, the time, and the world that the call found. -/
structure Visit where
  folder : Path
  time : String
  before : World

namespace Visit

def documents (visit : Visit) (site : Site) : List Indexed :=
  match ((sourcesIn visit.before.disk visit.folder).mapM (indexDocument visit.folder) site visit.before).1 with
  | .ok tried => outlined tried
  | .error _ => []

def saved (visit : Visit) (site : Site) : Saved := savedAt visit.time (visit.documents site)

def snapshot (visit : Visit) (site : Site) : Snapshot := (visit.saved site).snapshot visit.folder.name

end Visit

/-- Calls that index folders one after the other, in the same store and with nothing else done in between, and that all say
that it went well. -/
inductive Visits (site : Site) : World → List Visit → World → Prop where
  | done (world : World) : Visits site world [] world
  | call {world middle world' : World} {path result : Json} {folder : Path} {time : String} {visits : List Visit}
    (found : folderAt path site world = (.ok folder, world))
    (run : indexFolder path { site with now := time } world = (.ok result, middle))
    (success : IsSuccess result) (rest : Visits site middle visits world') :
    Visits site world (⟨folder, time, world⟩ :: visits) world'

variable {store : Store} {site : Site} {world middle world' : World} {folder : Path} {path result : Json} {time : String}
  {visit : Visit} {visits : List Visit}

/-! ## One call -/

/-- Whether a call has stored the documents of its folder. -/
structure Visit.Stores (visit : Visit) (store : Store) (site : Site) (after : World) : Prop where
  sound : visit.before.disk.IsSound
  named : Path.IsName visit.folder.name
  origin : AreFrom visit.before.disk visit.folder.parts (visit.documents site)
  plain : Store.ArePlain (visit.saved site).texts
  nonempty : (visit.saved site).texts ≠ []
  saves : ∃ opened snapshot, opened.disk = (Disk.makeFolders site.folder store.base visit.before.disk).2 ∧
    store.save visit.folder.name (visit.saved site).documents (visit.saved site).symbols (visit.saved site).outlines
      (visit.saved site).texts { site with now := visit.time } opened = (.ok snapshot, after)

/-- **A call that goes well stores** the documents of its folder. -/
theorem stores_of_indexFolder (hsound : world.disk.IsSound) (hsite : IsNamed site.folder)
    (hbase : Store.baseFolder site.storage? site world = (.ok store.base, world))
    (hfolder : folderAt path site world = (.ok folder, world)) (hroot : folder.parts ≠ [])
    (hrun : indexFolder path { site with now := time } world = (.ok result, middle)) (hsuccess : IsSuccess result) :
    (Visit.mk folder time world).Stores store site middle := by
  have hresolved := isResolved_folderAt hsite hfolder
  have hfolder' : folderAt path { site with now := time } world = (.ok folder, world) :=
    folderAt_of_writes hfolder (Disk.Writes.refl (fun _ _ => False) world.disk) time
  have hthere := isFolder?_of_isSuccess hfolder' hrun hsuccess
  have hitem := item?_of_isFolder? hresolved hthere
  rw [indexFolder_of_isFolder hfolder' hresolved hthere] at hrun
  obtain ⟨tried, found, htried, hsome, hstore⟩ := indexSources_ok hrun hsuccess
  have hdisk : found.disk = world.disk := disk_mapM_indexDocument htried
  rw [ignoresTime_mapM fun _ => ignoresTime_indexDocument _ _] at htried
  have hdocuments : (Visit.mk folder time world).documents site = outlined tried := by
    rw [Visit.documents, htried]
  obtain ⟨store', opened, snapshot, hopen, hsave⟩ := storeFolder_ok hstore
  obtain ⟨rfl, hopened⟩ := openIn_ok (baseFolder_later hbase time found) hopen
  have hfrom := areFrom_outlined hsound hresolved hitem htried
  rw [hdisk] at hopened
  constructor
  case sound => exact hsound
  case named => exact isName_of_isResolved hresolved hroot
  case origin =>
    rw [hdocuments]
    exact hfrom
  case plain =>
    rw [Visit.saved, hdocuments]
    exact hfrom.arePlain hsound hitem time
  case nonempty =>
    rw [Visit.saved, hdocuments]
    simpa [savedAt] using hsome
  case saves =>
    rw [Visit.saved, hdocuments]
    exact ⟨opened, snapshot, hopened, hsave⟩

namespace Visit.Stores

/-- The disk stays sound. -/
theorem isSound (h : visit.Stores store site world') (hsite : IsNamed site.folder) (hnames : store.base.HasNames) :
    world'.disk.IsSound := by
  obtain ⟨opened, snapshot, hopened, hsave⟩ := h.saves
  have hsound : opened.disk.IsSound := hopened ▸ h.sound.makeFolders hsite hnames
  have hkept := @Store.keepsSound_save store { site with now := visit.time } String _ hsite hnames visit.folder.name
    (visit.saved site).documents (visit.saved site).symbols (visit.saved site).outlines (visit.saved site).texts opened hsound
  rwa [hsave] at hkept

/-- What is stored is there, in the store. -/
theorem isStored (h : visit.Stores store site world') :
    (visit.saved site).IsProper ∧ store.IsOpen site.folder world'.disk ∧
      store.IsStored site.folder visit.folder.name (visit.snapshot site) (visit.saved site).texts world'.disk := by
  obtain ⟨opened, snapshot, -, hsave⟩ := h.saves
  obtain ⟨rfl, hopen, hstored⟩ := Store.saveWithin_ok h.named h.plain hsave
  exact ⟨isProper_savedAt h.plain, hopen, hstored⟩

/-- All that the call writes are the file with the snapshot and the texts. -/
theorem writes (h : visit.Stores store site world') :
    (Disk.makeFolders site.folder store.base visit.before.disk).2.Writes
      (IsWritten store site visit.folder.name (visit.documents site)) world'.disk := by
  obtain ⟨opened, snapshot, hopened, hsave⟩ := h.saves
  have hsaved := @Store.writes_saveWithin store visit.folder.name { site with now := visit.time } _ _ {} h.named
    (visit.saved site).documents (visit.saved site).symbols (visit.saved site).outlines (visit.saved site).texts opened
  rw [Store.save] at hsave
  rw [hsave, hopened] at hsaved
  exact hsaved

/-- **What was stored under another name stays.** -/
theorem keeps {workspace : String} {saved : Saved} (h : visit.Stores store site world')
    (hstored : store.IsStored site.folder workspace (saved.snapshot workspace) saved.texts visit.before.disk)
    (hname : Path.IsName workspace) (hplain : Store.ArePlain saved.texts) (hsome : saved.texts ≠ [])
    (hne : workspace ≠ visit.folder.name) :
    store.IsStored site.folder workspace (saved.snapshot workspace) saved.texts world'.disk := by
  obtain ⟨opened, snapshot, hopened, hsave⟩ := h.saves
  -- the store is open already, so that nothing is made for it
  obtain ⟨hopen, -⟩ := hstored.isFolder hname hplain.plain hsome
  have hfits := Store.fits_base_of_indexPath hname hstored.fits
  have hmade := Disk.makeFolders_of_isFolder hfits hopen.passable hopen.isFolder
  have hsame : opened.disk = visit.before.disk := hopened.trans (congrArg Prod.snd hmade)
  have halters := @Store.alters_saveWithin store visit.folder.name { site with now := visit.time } (visit.saved site).texts _ _
    {} h.named h.plain.plain (visit.saved site).documents (visit.saved site).symbols (visit.saved site).outlines opened
    (hsame.symm ▸ hopen)
  rw [Store.save] at hsave
  rw [hsave, hsame] at halters
  have hwrites := h.writes
  rw [hmade] at hwrites
  exact hstored.beside hname hplain.plain hsome h.isStored.2.2 h.named h.plain.plain h.nonempty hne halters hwrites

end Visit.Stores

/-! ## All calls -/

/-- **Calls that all go well store** the documents of their folders, one after the other. -/
inductive StoresAll (store : Store) (site : Site) : World → List Visit → World → Prop where
  | done (world : World) : StoresAll store site world [] world
  | call {visit : Visit} {middle world' : World} {visits : List Visit} (stores : visit.Stores store site middle)
    (rest : StoresAll store site middle visits world') : StoresAll store site visit.before (visit :: visits) world'

theorem Visits.storesAll (h : Visits site world visits world') (hsound : world.disk.IsSound) (hsite : IsNamed site.folder)
    (hbase : Store.baseFolder site.storage? site world = (.ok store.base, world)) (hnames : store.base.HasNames)
    (hroot : ∀ visit ∈ visits, visit.folder.parts ≠ []) : StoresAll store site world visits world' := by
  induction h with
  | done world => exact .done world
  | call hfolder hrun hsuccess _ ih =>
    rw [List.forall_mem_cons] at hroot
    have hstores := stores_of_indexFolder hsound hsite hbase hfolder hroot.1 hrun hsuccess
    exact .call hstores (ih (hstores.isSound hsite hnames) (baseFolder_later hbase site.now _) hroot.2)

namespace StoresAll

theorem of_cons (h : StoresAll store site world (visit :: visits) world') :
    world = visit.before ∧ ∃ middle, visit.Stores store site middle ∧ StoresAll store site middle visits world' := by
  cases h with
  | call hstores hrest => exact ⟨rfl, _, hstores, hrest⟩

/-- What was stored under another name than those of the folders stays. -/
theorem keeps {workspace : String} {saved : Saved} (h : StoresAll store site world visits world')
    (hstored : store.IsStored site.folder workspace (saved.snapshot workspace) saved.texts world.disk)
    (hname : Path.IsName workspace) (hplain : Store.ArePlain saved.texts) (hsome : saved.texts ≠ [])
    (hne : workspace ∉ visits.map (·.folder.name)) :
    store.IsStored site.folder workspace (saved.snapshot workspace) saved.texts world'.disk := by
  induction h with
  | done world => exact hstored
  | call hstores _ ih =>
    rw [List.map_cons, List.mem_cons, not_or] at hne
    exact ih (hstores.keeps hstored hname hplain hsome hne.1) hne.2

/-- **The documents of each folder are stored in the end.** -/
theorem isStored (h : StoresAll store site world visits world') (hnodup : (visits.map (·.folder.name)).Nodup) :
    ∀ visit ∈ visits, (∃ after, visit.Stores store site after) ∧
      store.IsStored site.folder visit.folder.name (visit.snapshot site) (visit.saved site).texts world'.disk := by
  induction h with
  | done world => exact nofun
  | call hstores hrest ih =>
    rw [List.map_cons, List.nodup_cons] at hnodup
    refine List.forall_mem_cons.mpr ⟨⟨⟨_, hstores⟩, ?_⟩, ih hnodup.2⟩
    exact hrest.keeps hstores.isStored.2.2 hstores.named hstores.plain hstores.nonempty hnodup.1

/-- The disk stays sound. -/
theorem isSound (h : StoresAll store site world visits world') (hsite : IsNamed site.folder) (hnames : store.base.HasNames)
    (hsome : visits ≠ []) : world'.disk.IsSound := by
  induction h with
  | done world => exact absurd rfl hsome
  | @call visit _ _ visits hstores hrest ih =>
    cases hrest with
    | done => exact hstores.isSound hsite hnames
    | call => exact ih (List.cons_ne_nil _ _)

/-- All that is written are files with snapshots and texts of the folders. -/
theorem writes (h : StoresAll store site world visits world') :
    world.disk.Writes
      (fun place bytes => ∃ visit ∈ visits, IsWritten store site visit.folder.name (visit.documents site) place bytes)
      world'.disk := by
  induction h with
  | done world => exact .refl _ _
  | @call visit _ _ _ hstores _ ih =>
    have hmade := Disk.grows_makeFolders site.folder store.base visit.before.disk
    have hfirst := (Disk.Writes.of_grows hmade).trans hstores.writes
    refine (hfirst.mono fun place bytes hwritten => ?_).trans (ih.mono fun place bytes hwritten => ?_)
    · exact ⟨visit, .head _, hwritten⟩
    · obtain ⟨later, hlater, hwritten⟩ := hwritten
      exact ⟨later, .tail _ hlater, hwritten⟩

end StoresAll

end DocOutline.Tools
