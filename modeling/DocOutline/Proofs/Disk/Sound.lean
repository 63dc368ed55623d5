import DocOutline.Proofs.Disk.Folders

/-!
# Sound disks

A disk that there can be lists no place twice, all that is on it has a name, and there is a folder around it. On such a disk
the way to all that is there is passable (`IsSound.isPassable`), and what lies below a folder is what is found behind it
(`mem_below`). Writing files and making folders keeps it so (`IsSound.write`, `IsSound.makeFolders`).
-/

namespace DocOutline.Disk

variable {disk disk' : Disk} {place folder : Place} {parts : List String} {item : Item}

/-- Whether a disk is one that there can be. -/
structure IsSound (disk : Disk) : Prop where
  proper : disk.IsProper
  named : ∀ place ∈ disk.items.map Prod.fst, IsNamed place
  housed : ∀ place ∈ disk.items.map Prod.fst, disk.item? place.dropLast = some .folder

instance (disk : Disk) : Decidable disk.IsSound :=
  decidable_of_iff (disk.IsProper ∧ (∀ place ∈ disk.items.map Prod.fst, IsNamed place) ∧
      ∀ place ∈ disk.items.map Prod.fst, disk.item? place.dropLast = some .folder)
    ⟨fun h => ⟨h.1, h.2.1, h.2.2⟩, fun h => ⟨h.proper, h.named, h.housed⟩⟩

namespace IsSound

theorem isNamed (h : disk.IsSound) (hitem : disk.item? place ≠ none) : IsNamed place := by
  by_cases hroot : place = []
  · subst hroot
    exact nofun
  · rw [item?_of_ne_nil hroot, lookup_ne_none] at hitem
    exact h.named place hitem

/-- What something lies below is a folder. -/
theorem isFolder (h : disk.IsSound) {name : String} {more : List String}
    (hitem : disk.item? (folder ++ name :: more) ≠ none) : disk.item? folder = some .folder := by
  induction more using List.reverseRecOn with
  | nil =>
    rw [item?_of_ne_nil (by simp), lookup_ne_none] at hitem
    have hhoused := h.housed _ hitem
    rwa [List.dropLast_concat] at hhoused
  | append_singleton more last ih =>
    refine ih ?_
    have hsplit : folder ++ name :: (more ++ [last]) = (folder ++ name :: more) ++ [last] := by simp
    rw [hsplit, item?_of_ne_nil (by simp), lookup_ne_none] at hitem
    have hhoused := h.housed _ hitem
    rw [List.dropLast_concat] at hhoused
    rw [hhoused]
    exact nofun

/-- **The way to all that is there is passable.** -/
theorem isPassable (h : disk.IsSound) (hitem : disk.item? place ≠ none) : disk.IsPassable [] place := by
  intro stop hstop
  obtain ⟨before, part, after, rfl, rfl⟩ := (Path.mem_stops_of_plain (h.isNamed hitem).not_mem).mp hstop
  exact h.isFolder hitem

/-- A disk is sound if all that is there has a name and a folder around it. -/
theorem of_item? (hproper : disk.IsProper)
    (h : ∀ place, disk.item? place ≠ none → IsNamed place ∧ disk.item? place.dropLast = some .folder) : disk.IsSound := by
  have hthere : ∀ place ∈ disk.items.map Prod.fst, disk.item? place ≠ none := by
    intro place hplace
    by_cases hroot : place = []
    · rw [hroot, item?_nil]
      exact nofun
    · rwa [item?_of_ne_nil hroot, lookup_ne_none]
  exact ⟨hproper, fun place hplace => (h place (hthere place hplace)).1, fun place hplace => (h place (hthere place hplace)).2⟩

/-- There is a folder around all that is there. -/
theorem isFolder_dropLast (h : disk.IsSound) (hitem : disk.item? place ≠ none) :
    disk.item? place.dropLast = some .folder := by
  rcases List.eq_nil_or_concat place with rfl | ⟨folder, name, rfl⟩
  · exact item?_nil
  · rw [List.concat_eq_append] at hitem ⊢
    rw [List.dropLast_concat]
    exact h.isFolder hitem

/-! ## Changes of sound disks -/

/-- Something new in a folder that is there. -/
theorem put (h : disk.IsSound) (hnamed : IsNamed place) (hhoused : disk.item? place.dropLast = some .folder)
    (hfree : disk.item? place ≠ some .folder) (item : Item) : (disk.put place item).IsSound := by
  have hne : place ≠ [] := by
    rintro rfl
    exact hfree item?_nil
  -- nothing lies below the place, since there was no folder
  have hfolder {folder : Place} (hitem : disk.item? folder = some .folder) :
      (disk.put place item).item? folder = some .folder := by
    rw [item?_put_of_ne (by rintro rfl; exact hfree hitem), hitem]
  refine .of_item? (h.proper.put place item) fun other hother => ?_
  by_cases heq : other = place
  · subst heq
    exact ⟨hnamed, hfolder hhoused⟩
  · rw [item?_put_of_ne heq] at hother
    exact ⟨h.isNamed hother, hfolder (h.isFolder_dropLast hother)⟩

variable {path : Path}

/-- Where a path leads that can be followed there is a folder around. -/
theorem target (h : disk.IsSound) (hstart : IsNamed folder) (hnames : path.HasNames)
    (hpassable : disk.IsPassable (path.start folder) path.parts) (hparts : path.parts ≠ [])
    (hfree : disk.item? (path.target folder) ≠ some .folder) :
    IsNamed (path.target folder) ∧ disk.item? (path.target folder).dropLast = some .folder := by
  constructor
  · intro name hname
    rcases Path.mem_follow hname with hfolder | ⟨hpart, hback⟩
    · unfold Path.start at hfolder
      split at hfolder
      · exact hstart name hfolder
      · cases hfolder
    · exact hnames name hpart hback
  · obtain ⟨before, last, hlast⟩ := (List.eq_nil_or_concat path.parts).resolve_left hparts
    rw [List.concat_eq_append] at hlast
    rw [Path.target, hlast, Path.follow_append, Path.follow, Path.follow] at hfree ⊢
    rw [hlast, isPassable_append] at hpassable
    have hhere : disk.item? (Path.follow (path.start folder) before) = some .folder := hpassable.2 _ (.head _)
    split at hfree
    · exact absurd (h.isFolder_dropLast (hhere ▸ Option.some_ne_none _)) hfree
    · next hback => rwa [if_neg hback, List.dropLast_concat]

/-- Writing a file. -/
theorem write {bytes : Text.Bytes} (h : disk.IsSound) (hstart : IsNamed folder) (hnames : path.HasNames)
    (hwrite : Disk.write folder path bytes disk = .ok disk') :
    disk'.IsSound := by
  obtain ⟨-, hpassable, hparts, hfree, rfl⟩ := write_eq_ok.mp hwrite
  obtain ⟨hnamed, hhoused⟩ := h.target hstart hnames hpassable hparts hfree
  exact h.put hnamed hhoused hfree _

/-- Making folders. -/
theorem makeFolders (h : disk.IsSound) (hstart : IsNamed folder) (hnames : path.HasNames) : (Disk.makeFolders folder path disk).2.IsSound := by
  refine @makeFolders_disk folder path (fun disk disk' => disk.IsSound → disk'.IsSound) (fun _ => id)
    (fun hfirst hsecond => hsecond ∘ hfirst) ?_ disk h
  intro parts disk disk' hbefore hmake h
  obtain ⟨hpassable, hparts, hnone, rfl⟩ := makeFolder_ok hmake
  have hfree : disk.item? (Path.target folder ⟨path.root, parts⟩) ≠ some .folder := by
    rw [hnone]
    exact nofun
  obtain ⟨hnamed, hhoused⟩ := h.target hstart (fun part hpart => hnames part (hbefore.subset hpart)) hpassable hparts hfree
  exact h.put hnamed hhoused hfree _

end IsSound

/-! ## What lies below a folder -/

theorem IsProper.lookup_eq_some (h : disk.IsProper) : disk.items.lookup place = some item ↔ (place, item) ∈ disk.items := by
  rw [List.lookup_eq_some_iff]
  constructor
  · rintro ⟨before, after, heq, -⟩
    rw [heq]
    exact List.mem_append_right _ (.head _)
  · intro hmem
    obtain ⟨before, after, heq⟩ := List.append_of_mem hmem
    refine ⟨before, after, heq, fun entry hentry => bne_iff_ne.mpr ?_⟩
    rintro rfl
    rw [IsProper, heq, List.map_append, List.map_cons] at h
    exact (List.nodup_append.mp h).2.2 _ (List.mem_map_of_mem hentry) _ (.head _) rfl

/-- **What lies below a folder** is what is at the places behind it. -/
theorem mem_below (h : disk.IsProper) :
    (parts, item) ∈ disk.below folder ↔ parts ≠ [] ∧ disk.item? (folder ++ parts) = some item := by
  rw [below, List.mem_map]
  constructor
  · rintro ⟨⟨place, found⟩, hfound, heq⟩
    obtain ⟨hmem, hbelow⟩ := List.mem_filter.mp hfound
    obtain ⟨name, names, rfl⟩ := isBelow_iff.mp hbelow
    simp only [List.drop_left] at heq
    cases heq
    refine ⟨List.cons_ne_nil _ _, ?_⟩
    rw [item?_of_ne_nil (by simp)]
    exact h.lookup_eq_some.mpr hmem
  · rintro ⟨hparts, hitem⟩
    obtain ⟨name, names, rfl⟩ := List.exists_cons_of_ne_nil hparts
    rw [item?_of_ne_nil (by simp), h.lookup_eq_some] at hitem
    refine ⟨_, List.mem_filter.mpr ⟨hitem, isBelow_iff.mpr ⟨name, names, rfl⟩⟩, ?_⟩
    simp only [List.drop_left]

theorem nodup_below (h : disk.IsProper) (folder : Place) : ((disk.below folder).map Prod.fst).Nodup := by
  have hplaces : (disk.below folder).map (fun entry => folder ++ entry.1) =
      (disk.items.filter fun entry => isBelow folder entry.1).map Prod.fst := by
    rw [below, List.map_map]
    refine List.map_congr_left fun entry hentry => ?_
    obtain ⟨name, names, heq⟩ := isBelow_iff.mp (List.mem_filter.mp hentry).2
    change folder ++ entry.1.drop folder.length = entry.1
    rw [heq, List.drop_left]
  have hnodup : ((disk.below folder).map fun entry => folder ++ entry.1).Nodup := hplaces ▸ h.filter _
  refine List.Nodup.of_map (folder ++ ·) ?_
  rwa [List.map_map]

end DocOutline.Disk
