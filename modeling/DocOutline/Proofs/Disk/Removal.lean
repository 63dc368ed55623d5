import DocOutline.Proofs.Disk.Folders

/-!
# Taking files and folders away

A file that is taken away was at the target of its path (`unlink_eq_ok`). Taking a folder away with all that is in it
spares what is neither the folder nor below it, even if it stops half-way (`spares_removeTree`).
-/

namespace DocOutline.Disk

variable {disk disk' disk'' : Disk} {folder place : Place} {path : Path} {allowed allowed' : Place → Prop}

/-- Whether a disk has become another one by changes at `allowed` places alone, where anything may have happened. -/
structure Spares (allowed : Place → Prop) (disk disk' : Disk) : Prop where
  elsewhere : ∀ place, ¬ allowed place → disk'.item? place = disk.item? place
  proper : disk.IsProper → disk'.IsProper

theorem ChangesOnly.spares (h : ChangesOnly allowed disk disk') : Spares allowed disk disk' := ⟨h.elsewhere, h.proper⟩

namespace Spares

theorem refl (allowed : Place → Prop) (disk : Disk) : Spares allowed disk disk := ⟨fun _ _ => rfl, id⟩

theorem trans (h : Spares allowed disk disk') (h' : Spares allowed disk' disk'') : Spares allowed disk disk'' :=
  ⟨fun place hplace => (h'.elsewhere place hplace).trans (h.elsewhere place hplace), h'.proper ∘ h.proper⟩

theorem mono (h : Spares allowed disk disk') (hallowed : ∀ place, allowed place → allowed' place) :
    Spares allowed' disk disk' :=
  ⟨fun place hplace => h.elsewhere place (mt (hallowed place) hplace), h.proper⟩

theorem drop (disk : Disk) (place : Place) : Spares (· = place) disk (disk.drop place) :=
  ⟨fun _ => item?_drop, fun hproper => hproper.drop place⟩

theorem clear (disk : Disk) (folder : Place) : Spares (folder <+: ·) disk (disk.clear folder) := by
  refine ⟨fun place hplace => ?_, fun hproper => hproper.clear folder⟩
  rw [item?_clear, if_neg fun hbelow => hplace ?_]
  obtain ⟨name, names, rfl⟩ := isBelow_iff.mp hbelow
  exact List.prefix_append _ _

end Spares

/-- When a file is taken away, and what is left. -/
theorem unlink_eq_ok (hparts : path.parts ≠ []) :
    unlink folder path disk = .ok disk' ↔
      path.Fits ∧ disk.IsPassable (path.start folder) path.parts ∧
        (∃ bytes, disk.item? (path.target folder) = some (.file bytes)) ∧ disk' = disk.drop (path.target folder) := by
  unfold unlink
  cases hlocate : disk.locate folder path with
  | error _ =>
    refine error_eq_ok fun h => ?_
    rw [locate_eq_ok.mpr ⟨h.1, h.2.1, rfl⟩] at hlocate
    cases hlocate
  | ok place =>
    obtain ⟨hfits, hpassable, rfl⟩ := locate_eq_ok.mp hlocate
    simp only [bind, Except.bind, itemAt?, if_neg hparts]
    cases hitem : disk.item? (path.target folder) with
    | none =>
      refine error_eq_ok fun h => ?_
      obtain ⟨-, -, ⟨bytes, hbytes⟩, -⟩ := h
      cases hbytes
    | some item =>
      cases item with
      | folder =>
        refine error_eq_ok fun h => ?_
        obtain ⟨-, -, ⟨bytes, hbytes⟩, -⟩ := h
        cases hbytes
      | file bytes =>
        constructor
        · intro h
          cases h
          exact ⟨hfits, hpassable, ⟨bytes, rfl⟩, rfl⟩
        · exact fun h => by rw [h.2.2.2]

theorem spares_removeFolder (h : removeFolder folder path disk = .ok disk') :
    Spares (· = path.target folder) disk disk' := by
  unfold removeFolder at h
  split at h
  · cases h
  · cases h
  · match hlocate : disk.locate folder path with
    | .error _ => rw [hlocate] at h; cases h
    | .ok place =>
      obtain ⟨-, -, rfl⟩ := locate_eq_ok.mp hlocate
      rw [hlocate] at h
      simp only [bind, Except.bind] at h
      split at h
      · cases h
      · cases h
        exact .drop disk _

/-- **Taking a folder away spares what is neither the folder nor below it**, whether it succeeds or not. -/
theorem spares_removeTree (folder : Place) (path : Path) (disk : Disk) :
    Spares (path.target folder <+: ·) disk (removeTree folder path disk).2 := by
  refine Change.andThen_disk .trans (fun disk => Change.ofStep_disk (.refl _ _) fun disk' hclear => ?_)
    (fun disk => Change.ofStep_disk (.refl _ _) fun disk' hremove => ?_) disk
  · match hlocate : disk.locate folder path with
    | .error _ => rw [hlocate] at hclear; cases hclear
    | .ok place =>
      obtain ⟨-, -, rfl⟩ := locate_eq_ok.mp hlocate
      rw [hlocate] at hclear
      simp only [bind, Except.bind] at hclear
      split at hclear
      · cases hclear
        exact .clear disk _
      · cases hclear
      · cases hclear
  · exact (spares_removeFolder hremove).mono fun place hplace => hplace ▸ List.prefix_refl _

end DocOutline.Disk
