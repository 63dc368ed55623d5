import DocOutline.Proofs.Disk.Sound
import DocOutline.Proofs.Store.Histories

/-!
# Workspaces side by side

Workspaces that are saved one after the other under different names keep out of each other's way. A name may even be that of
another one's file with a snapshot, since then one of the two cannot be saved (`IsStored.beside`). So each of them has one entry
in the list of workspaces, beside those that other workspaces had before (`list_of_addsEntries`).
-/

namespace DocOutline

namespace Action

variable {α β : Type} {site : Site} {action : Action α}

def KeepsSound (site : Site) (action : Action α) : Prop :=
  ∀ world : World, world.disk.IsSound → (action site world).2.disk.IsSound

theorem KeepsSound.of_disk_eq (h : ∀ world, (action site world).2.disk = world.disk) : KeepsSound site action :=
  fun world hsound => (h world).symm ▸ hsound

theorem KeepsSound.bind {next : α → Action β} (h : KeepsSound site action) (h' : ∀ a, KeepsSound site (next a)) :
    KeepsSound site (action >>= next) := by
  intro world hsound
  have hfirst := h world hsound
  match hrun : action site world with
  | (.ok a, middle) =>
    rw [hrun] at hfirst
    rw [bind_of_ok next hrun]
    exact h' a middle hfirst
  | (.error fault, middle) =>
    rw [hrun] at hfirst
    rw [bind_of_error next hrun]
    exact hfirst

theorem keepsSound_pure (a : α) : KeepsSound site (pure a) := .of_disk_eq fun _ => rfl

theorem KeepsSound.forM {as : List α} {action : α → Action Unit} (h : ∀ a ∈ as, KeepsSound site (action a)) :
    KeepsSound site (as.forM action) := by
  induction as with
  | nil => exact keepsSound_pure ()
  | cons a as ih =>
    rw [List.forall_mem_cons] at h
    exact h.1.bind fun _ => ih h.2

variable {path : Path}

theorem keepsSound_makeFolders (hsite : IsNamed site.folder) (hnames : path.HasNames) :
    KeepsSound site (makeFolders path) := fun _ hsound => hsound.makeFolders hsite hnames

theorem keepsSound_writeFile (hsite : IsNamed site.folder) (hnames : path.HasNames) (bytes : Text.Bytes) :
    KeepsSound site (writeFile path bytes) := by
  intro world hsound
  rw [writeFile_apply]
  split
  · next hwrite => exact hsound.write hsite hnames hwrite
  · exact hsound

end Action

namespace Store

open DocOutline.Action

variable {store : Store} {site : Site} {world world' : World} {disk disk' : Disk} {folder : Place} {workspace other : String}
  {snapshot snapshot' : Snapshot} {texts texts' : List (String × String)}

/-! ## Sound disks -/

theorem keepsSound_save {ν : Type} [Symbol.Name ν] (hsite : IsNamed site.folder) (hbase : store.base.HasNames)
    (workspace : String) (documents symbols : Json) (outlines : List (String × List (Outline ν)))
    (texts : List (String × String)) : KeepsSound site (store.save workspace documents symbols outlines texts) := by
  have hlog : KeepsSound site (logSaved workspace documents symbols) := .of_disk_eq fun world => (disk_logSaved ..).symm
  have hwrite (entry : String × String) :
      KeepsSound site (writeDocument (store.contentFolder workspace) entry.1 entry.2) :=
    (keepsSound_makeFolders hsite ((hbase.join _).join _).parent).bind fun _ =>
      keepsSound_writeFile hsite ((hbase.join _).join _) _
  have haccess {α : Type} (result : Except Json.Fault α) : KeepsSound site (access result) :=
    .of_disk_eq fun _ => by rw [access_apply]
  have hindex (snapshot : Snapshot) : KeepsSound site (store.writeSnapshot none workspace snapshot) :=
    (keepsSound_writeFile hsite (hbase.join _) _).bind fun _ => haccess _
  refine (haccess _).bind fun _ => ?_
  refine KeepsSound.bind (.of_disk_eq fun _ => rfl) fun site' => (hindex _).bind fun _ => ?_
  refine (keepsSound_makeFolders hsite (hbase.join _)).bind fun _ => ?_
  refine (KeepsSound.forM fun entry _ => hwrite entry).bind fun _ => ?_
  exact hlog.bind fun _ => keepsSound_pure _

/-! ## Different names -/

/-- A workspace with texts has a folder for them, in the folder of the store. -/
theorem IsStored.isFolder (h : store.IsStored folder workspace snapshot texts disk) (hname : Path.IsName workspace)
    (hplain : ∀ file ∈ texts.map Prod.fst, Path.IsPlain file) (hsome : texts ≠ []) :
    store.IsOpen folder disk ∧ disk.item? (store.basePlace folder ++ [workspace]) = some .folder := by
  obtain ⟨⟨file, text⟩, htext⟩ := List.exists_mem_of_ne_nil texts hsome
  have hfile := hplain file (List.mem_map_of_mem (f := Prod.fst) htext)
  have hpassable := (h.texts file text htext).passable
  obtain ⟨first, more, hnames⟩ := List.exists_cons_of_ne_nil hfile.names_ne_nil
  rw [join_contentFolder_eq hname hfile, hnames] at hpassable
  obtain ⟨hbase, hbelow⟩ := Disk.isPassable_append.mp hpassable
  rw [Disk.IsPassable, Path.stops, if_neg hname.2.2.2, Path.stops, List.forall_mem_cons, List.forall_mem_cons] at hbelow
  exact ⟨⟨hbase, hbelow.1⟩, hbelow.2.1⟩

/-- **A workspace stays stored when another one is saved.** If one of them had the name of the other's file with a snapshot,
that file would be in the place of a folder with texts. -/
theorem IsStored.beside {written : Place → Text.Bytes → Prop} (h : store.IsStored folder other snapshot texts disk)
    (hother : Path.IsName other) (hplain : ∀ file ∈ texts.map Prod.fst, Path.IsPlain file) (hsome : texts ≠ [])
    (h' : store.IsStored folder workspace snapshot' texts' disk') (hname : Path.IsName workspace)
    (hplain' : ∀ file ∈ texts'.map Prod.fst, Path.IsPlain file) (hsome' : texts' ≠ []) (hne : other ≠ workspace)
    (hchanges : disk.ChangesOnly (store.IsPlaceOf folder workspace) disk') (hwrites : disk.Writes written disk') :
    store.IsStored folder other snapshot texts disk' := by
  obtain ⟨-, hfolder⟩ := h.isFolder hother hplain hsome
  obtain ⟨hopen', hfolder'⟩ := h'.isFolder hname hplain' hsome'
  have happart : other ≠ workspace ++ ".json" := by
    rintro rfl
    have hfile := h'.index.symm.trans (hwrites.folders hfolder)
    cases hfile
  have happart' : workspace ≠ other ++ ".json" := by
    rintro rfl
    rcases hwrites.files h.index with hkept | ⟨bytes, -, hfile⟩
    · have hfile := hkept.symm.trans hfolder'
      cases hfile
    · have hfile := hfile.symm.trans hfolder'
      cases hfile
  exact h.mono hother hplain hopen' fun place hplace =>
    hchanges.elsewhere place (not_isPlaceOf_of_apart hne happart happart' hplace)

/-! ## The list -/

/-- Whether a disk has become another one by storing snapshots of different workspaces, while all other files that could be
ones with snapshots stayed as they were. -/
structure AddsEntries (store : Store) (folder : Place) (entries : List (String × Snapshot)) (disk disk' : Disk) : Prop where
  opened : store.IsOpen folder disk
  opened' : store.IsOpen folder disk'
  proper : disk.IsProper
  proper' : disk'.IsProper
  named : ∀ name, disk'.item? (store.basePlace folder ++ [name]) ≠ none → Path.IsName name
  nodup : (entries.map Prod.fst).Nodup
  stored : ∀ entry ∈ entries, Path.IsName entry.1 ∧ entry.2.toJson.Forall Json.IsProper ∧
    ∃ texts, store.IsStored folder entry.1 entry.2 texts disk'
  others : ∀ name, isIndexName name = true → name ∉ entries.map (·.1 ++ ".json") →
    disk'.item? (store.basePlace folder ++ [name]) = disk.item? (store.basePlace folder ++ [name]) ∨
      disk.item? (store.basePlace folder ++ [name]) = none ∧ disk'.item? (store.basePlace folder ++ [name]) = some .folder

namespace AddsEntries

variable {entries : List (String × Snapshot)} {name : String}

/-- What the file of a workspace that was stored gives for the list. -/
theorem outcomeAt_stored (h : store.AddsEntries site.folder entries disk disk') {entry : String × Snapshot}
    (hentry : entry ∈ entries) : store.outcomeAt none site disk' (entry.1 ++ ".json") = .ok (some entry.2.listed) := by
  obtain ⟨hname, hproper, texts, hstored⟩ := h.stored entry hentry
  have hworld : store.IsOpen site.folder (World.mk disk' []).disk := h.opened'
  have hsummary := summaryAt_of_isIndexed none hworld hname hstored.toIsIndexed hstored.sized hproper
  rw [if_pos (Snapshot.isWithin_none _)] at hsummary
  exact congrArg Prod.fst hsummary

/-- What any other file gives for the list it gave before, if it was there. -/
theorem outcomeAt_other (h : store.AddsEntries site.folder entries disk disk')
    (hname : name ∈ store.indexNames site.folder disk') (hother : name ∉ entries.map (·.1 ++ ".json")) :
    name ∈ store.indexNames site.folder disk ∧ store.outcomeAt none site disk' name = store.outcomeAt none site disk name ∨
      name ∉ store.indexNames site.folder disk ∧ store.outcomeAt none site disk' name = .ok none := by
  obtain ⟨hitem, hindex⟩ := mem_indexNames.mp hname
  rcases h.others name hindex hother with hsame | ⟨hnone, hfolder⟩
  · refine .inl ⟨mem_indexNames.mpr ⟨hsame ▸ hitem, hindex⟩, ?_⟩
    have halong := sameAlong_join h.opened h.opened' (h.named name hitem) hsame
    have hagree : Agrees site (World.mk disk []).disk (World.mk disk' []).disk (summaryAt none (store.base.join name)) :=
      agrees_summaryAt none halong
    exact hagree.fst_eq
  · exact .inr ⟨fun hbefore => (mem_indexNames.mp hbefore).1 hnone, outcomeAt_of_isFolder none (h.named name hitem) hfolder⟩

/-- The files with snapshots are those of the workspaces that were stored, and others. -/
theorem indexNames_perm (h : store.AddsEntries folder entries disk disk') :
    (store.indexNames folder disk').Perm (entries.map (·.1 ++ ".json") ++
      (store.indexNames folder disk').filter (· ∉ entries.map (·.1 ++ ".json"))) := by
  have hnodup : (entries.map (·.1 ++ ".json")).Nodup := by
    have hmap : entries.map (·.1 ++ ".json") = (entries.map Prod.fst).map (· ++ ".json") := by simp
    rw [hmap]
    exact h.nodup.map fun _ _ => append_json_injective
  refine (List.perm_ext_iff_of_nodup (nodup_indexNames h.proper' store folder) ?_).mpr fun name => ?_
  · refine List.nodup_append.mpr ⟨hnodup, (nodup_indexNames h.proper' store folder).filter _, ?_⟩
    rintro name hname _ hother rfl
    exact of_decide_eq_true (List.mem_filter.mp hother).2 hname
  · rw [List.mem_append, List.mem_filter, decide_eq_true_eq]
    refine ⟨fun hname => (Classical.em _).imp_right fun hother => ⟨hname, hother⟩, ?_⟩
    rintro (hadded | ⟨hname, -⟩)
    · obtain ⟨entry, hentry, rfl⟩ := List.mem_map.mp hadded
      obtain ⟨-, -, texts, hstored⟩ := h.stored entry hentry
      exact mem_indexNames.mpr ⟨fun hnone => absurd (hstored.index.symm.trans hnone) nofun, isIndexName_append _⟩
    · exact hname

/-- Another one that was there before is still there. -/
theorem mem_indexNames_of_before (h : store.AddsEntries folder entries disk disk')
    (hname : name ∈ store.indexNames folder disk) (hother : name ∉ entries.map (·.1 ++ ".json")) :
    name ∈ store.indexNames folder disk' := by
  obtain ⟨hitem, hindex⟩ := mem_indexNames.mp hname
  refine mem_indexNames.mpr ⟨?_, hindex⟩
  rcases h.others name hindex hother with hsame | ⟨hnone, -⟩
  · rwa [hsame]
  · exact absurd hnone hitem

/-- The others give the entries that they gave before. -/
theorem filterMap_others (h : store.AddsEntries site.folder entries disk disk') :
    (((store.indexNames site.folder disk').filter (· ∉ entries.map (·.1 ++ ".json"))).filterMap
        (entryOf ∘ store.outcomeAt none site disk')).Perm
      (((store.indexNames site.folder disk).filter (· ∉ entries.map (·.1 ++ ".json"))).filterMap
        (entryOf ∘ store.outcomeAt none site disk)) := by
  generalize hothers : (store.indexNames site.folder disk').filter (· ∉ entries.map (·.1 ++ ".json")) = others
  have hentries : ∀ name ∈ others, (entryOf ∘ store.outcomeAt none site disk') name =
      if decide (name ∈ store.indexNames site.folder disk) then (entryOf ∘ store.outcomeAt none site disk) name else none := by
    intro name hname
    rw [Function.comp_apply, Function.comp_apply]
    rw [← hothers, List.mem_filter, decide_eq_true_eq] at hname
    rcases h.outcomeAt_other hname.1 hname.2 with ⟨hbefore, hsame⟩ | ⟨hnew, hnone⟩
    · rw [if_pos (decide_eq_true hbefore), hsame]
    · rw [if_neg (by simpa using hnew), hnone]
      rfl
  have hbefore : (others.filter (· ∈ store.indexNames site.folder disk)).Perm
      ((store.indexNames site.folder disk).filter (· ∉ entries.map (·.1 ++ ".json"))) := by
    have hnodup : others.Nodup := hothers ▸ (nodup_indexNames h.proper' store site.folder).filter _
    refine (List.perm_ext_iff_of_nodup (hnodup.filter _) ((nodup_indexNames h.proper store site.folder).filter _)).mpr
      fun name => ?_
    simp only [← hothers, List.mem_filter, decide_eq_true_eq]
    refine ⟨fun hname => ⟨hname.2, hname.1.2⟩, fun hname => ⟨⟨?_, hname.2⟩, hname.1⟩⟩
    exact h.mem_indexNames_of_before hname.1 hname.2
  rw [List.filterMap_congr hentries, ← List.filterMap_filter]
  exact hbefore.filterMap _

end AddsEntries

/-- The entries of a list that do not come from certain files. -/
def entriesBeside (store : Store) (site : Site) (disk : Disk) (names : List String) : List Json :=
  ((store.indexNames site.folder disk).filter (· ∉ names)).filterMap (entryOf ∘ store.outcomeAt none site disk)

/-- They are entries of the list, and all of them if there are no such files. -/
theorem entriesBeside_of_list {before : List Json} (hfits : store.base.Fits)
    (hopen : store.IsOpen site.folder world.disk) (h : (store.list site world).1 = .ok before) (names : List String) :
    (store.entriesBeside site world.disk names).Sublist before ∧
      ((∀ name ∈ names, world.disk.item? (store.basePlace site.folder ++ [name]) = none) →
        store.entriesBeside site world.disk names = before) := by
  rw [list, listWithin_eq_collect none hfits hopen, collect_eq_ok, List.filterMap_map] at h
  obtain ⟨-, rfl⟩ := h
  refine ⟨List.filter_sublist.filterMap _, fun habsent => ?_⟩
  have hall : (store.indexNames site.folder world.disk).filter (· ∉ names) = store.indexNames site.folder world.disk :=
    List.filter_eq_self.mpr fun name hname => decide_eq_true fun hmem => (mem_indexNames.mp hname).1 (habsent name hmem)
  rw [entriesBeside, hall]

/-- **Each workspace that is stored has one entry in the list**, and all others keep theirs. -/
theorem list_of_addsEntries {entries : List (String × Snapshot)} {before : List Json} (hfits : store.base.Fits)
    (h : store.AddsEntries site.folder entries world.disk world'.disk) (hbefore : (store.list site world).1 = .ok before) :
    ∃ listed, (store.list site world').1 = .ok listed ∧ listed.Perm
      (entries.map (·.2.listed) ++ store.entriesBeside site world.disk (entries.map (·.1 ++ ".json"))) := by
  rw [list, listWithin_eq_collect none hfits h.opened, collect_eq_ok, List.forall_mem_map] at hbefore
  obtain ⟨hall, -⟩ := hbefore
  refine ⟨_, (listWithin_eq_collect none hfits h.opened').trans (collect_eq_ok.mpr ⟨?_, rfl⟩), ?_⟩
  · refine List.forall_mem_map.mpr fun name hname => ?_
    by_cases hstored : name ∈ entries.map (·.1 ++ ".json")
    · obtain ⟨entry, hentry, rfl⟩ := List.mem_map.mp hstored
      rw [h.outcomeAt_stored hentry]
      rfl
    · rcases h.outcomeAt_other hname hstored with ⟨hold, hsame⟩ | ⟨-, hnone⟩
      · rw [hsame]
        exact hall name hold
      · rw [hnone]
        rfl
  · have hstored : ∀ entry ∈ entries,
        ((entryOf ∘ store.outcomeAt none site world'.disk) ∘ (·.1 ++ ".json")) entry = some entry.2.listed := by
      intro entry hentry
      rw [Function.comp_apply, Function.comp_apply, h.outcomeAt_stored hentry]
      rfl
    rw [List.filterMap_map]
    refine (h.indexNames_perm.filterMap _).trans ?_
    rw [List.filterMap_append, List.filterMap_map, List.filterMap_congr hstored, List.filterMap_eq_map']
    exact (List.Perm.refl _).append h.filterMap_others

end Store

end DocOutline
