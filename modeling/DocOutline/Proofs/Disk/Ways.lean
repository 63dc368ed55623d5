import DocOutline.Proofs.Disk.Paths

/-!
# Ways along paths

Whether a path can be followed to where it leads is a matter of the places that are passed on the way, which have to be
folders, and of the lengths of its names (`locate_eq_ok`). What is found at its end is a matter of the target.
-/

namespace DocOutline.Disk

variable {disk disk' : Disk} {here folder place : Place} {parts more : List String} {path : Path}

/-- What fails succeeds just where something holds that does not. -/
theorem error_eq_ok {ε α : Type} {e : ε} {a : α} {p : Prop} (h : ¬ p) : (Except.error e : Except ε α) = Except.ok a ↔ p :=
  ⟨fun hok => Except.noConfusion rfl rfl (heq_of_eq hok), fun hp => absurd hp h⟩

/-- Whether all places are folders that are left again along names. -/
def IsPassable (disk : Disk) (here : Place) (parts : List String) : Prop :=
  ∀ stop ∈ Path.stops here parts, disk.item? stop = some .folder

instance (disk : Disk) (here : Place) (parts : List String) : Decidable (disk.IsPassable here parts) :=
  inferInstanceAs (Decidable (∀ _ ∈ _, _))

/-- Names are followed to their target if the way there is passable. -/
theorem follow_eq_ok :
    follow disk here parts = .ok place ↔
      disk.IsPassable here parts ∧ Path.HasShortNames parts ∧ place = Path.follow here parts := by
  induction parts generalizing here with
  | nil => simp [follow, IsPassable, Path.HasShortNames, Path.stops, Path.follow, eq_comm]
  | cons part parts ih =>
    have hpassable : disk.IsPassable here (part :: parts) ↔ disk.item? here = some .folder ∧
        disk.IsPassable (if part = ".." then here.dropLast else here ++ [part]) parts := by
      rw [IsPassable, Path.stops, List.forall_mem_cons]
      rfl
    have hshort : Path.HasShortNames (part :: parts) ↔
        (part = ".." ∨ part.utf8ByteSize ≤ maxName) ∧ Path.HasShortNames parts := List.forall_mem_cons
    rw [hpassable, hshort, follow, Path.follow]
    cases disk.item? here with
    | none => simp
    | some item =>
      cases item with
      | file _ => simp
      | folder =>
        by_cases hback : part = ".."
        · simp only [hback, if_true, ih]
          simp
        · by_cases hlong : maxName < part.utf8ByteSize
          · simp only [hback, hlong, if_true, if_false]
            simp [Nat.not_le.mpr hlong]
          · simp only [hback, hlong, if_false, ih]
            simp [Nat.not_lt.mp hlong]

/-- **Where a path is located**: at its target, if the disk can look it up and the way there is passable. -/
theorem locate_eq_ok :
    locate disk folder path = .ok place ↔
      path.Fits ∧ disk.IsPassable (path.start folder) path.parts ∧ place = path.target folder := by
  simp only [locate, List.contains_iff_mem]
  by_cases hclean : '\x00' ∈ path.toText.toList
  · rw [if_pos hclean]
    exact error_eq_ok fun h => h.1.clean hclean
  rw [if_neg hclean]
  by_cases hlong : maxPath < path.toText.utf8ByteSize
  · rw [if_pos hlong]
    exact error_eq_ok fun h => Nat.not_le.mpr hlong h.1.short
  rw [if_neg hlong]
  have hok : (follow disk (path.start folder) path.parts).mapError
      (fun trouble => Error.trouble trouble (some path.toText)) = .ok place ↔
      follow disk (path.start folder) path.parts = .ok place := by
    cases follow disk (path.start folder) path.parts <;> simp [Except.mapError]
  refine hok.trans (follow_eq_ok.trans ?_)
  constructor
  · exact fun h => ⟨⟨hclean, Nat.not_lt.mp hlong, h.2.1⟩, h.1, h.2.2⟩
  · exact fun h => ⟨h.2.1, h.1.names, h.2.2⟩

theorem isPassable_append :
    disk.IsPassable here (parts ++ more) ↔
      disk.IsPassable here parts ∧ disk.IsPassable (Path.follow here parts) more := by
  rw [IsPassable, Path.stops_append, List.forall_mem_append]
  rfl

/-- A way stays passable while the folders on it stay. -/
theorem IsPassable.mono (h : disk.IsPassable here parts)
    (hstay : ∀ stop ∈ Path.stops here parts, disk.item? stop = some .folder → disk'.item? stop = some .folder) :
    disk'.IsPassable here parts := fun stop hstop => hstay stop hstop (h stop hstop)

/-- What can be looked up on a disk is looked up, if the way there is passable. -/
theorem look?_of_isPassable (hfits : path.Fits) (hpassable : disk.IsPassable (path.start folder) path.parts)
    (hparts : path.parts ≠ []) : look? disk folder path = .ok (disk.item? (path.target folder)) := by
  rw [look?, locate_eq_ok.mpr ⟨hfits, hpassable, rfl⟩]
  simp only [itemAt?, if_neg hparts]

/-- There is a folder at the end of a path if it can be followed to one. -/
theorem isFolder?_eq_true :
    isFolder? disk folder path = .ok true ↔
      path.Fits ∧ disk.IsPassable (path.start folder) path.parts ∧
        (path.parts = [] ∨ disk.item? (path.target folder) = some .folder) := by
  have hend : disk.itemAt? (path.target folder) path = some .folder ↔
      path.parts = [] ∨ disk.item? (path.target folder) = some .folder := by
    by_cases hparts : path.parts = [] <;> simp [itemAt?, hparts]
  rw [← hend, isFolder?, look?]
  split
  · next place hlocate =>
    obtain ⟨hfits, hpassable, rfl⟩ := locate_eq_ok.mp hlocate
    simp only [Except.map, Except.ok.injEq, hfits, hpassable, true_and]
    split <;> simp_all
  all_goals
    next hlocate =>
    have hnot : ¬ (path.Fits ∧ disk.IsPassable (path.start folder) path.parts ∧
        disk.itemAt? (path.target folder) path = some .folder) := fun h => by
      rw [locate_eq_ok.mpr ⟨h.1, h.2.1, rfl⟩] at hlocate
      cases hlocate
    simpa [Except.map] using hnot

theorem exists?_of_isFolder? (h : isFolder? disk folder path = .ok true) : exists? disk folder path = .ok true := by
  unfold isFolder? at h
  unfold exists?
  match hlook : look? disk folder path with
  | .ok (some .folder) => rfl
  | .ok none | .ok (some (.file _)) | .error _ => rw [hlook] at h; cases h

/-- Names that are too long are not followed. -/
theorem follow_of_long (hpassable : disk.IsPassable here parts) (hlong : ¬ Path.HasShortNames parts) :
    follow disk here parts = .error .nameTooLong := by
  induction parts generalizing here with
  | nil => exact absurd nofun hlong
  | cons part parts ih =>
    rw [IsPassable, Path.stops, List.forall_mem_cons] at hpassable
    rw [Path.HasShortNames, List.forall_mem_cons, not_and] at hlong
    simp only [follow, hpassable.1]
    by_cases hback : part = ".."
    · rw [if_pos hback] at hpassable ⊢
      exact ih hpassable.2 (hlong (.inl hback))
    · rw [if_neg hback] at hpassable ⊢
      by_cases hname : maxName < part.utf8ByteSize
      · rw [if_pos hname]
      · rw [if_neg hname]
        exact ih hpassable.2 (hlong (.inr (Nat.not_lt.mp hname)))

/-- A path that is too long is not looked up. -/
theorem look?_of_not_isShort (hclean : '\x00' ∉ path.toText.toList) (hlong : ¬ path.IsShort)
    (hpassable : disk.IsPassable (path.start folder) path.parts) :
    look? disk folder path = .error (.trouble .nameTooLong (some path.toText)) := by
  have hlocate : locate disk folder path = .error (.trouble .nameTooLong (some path.toText)) := by
    simp only [locate, List.contains_iff_mem, if_neg hclean]
    split
    · rfl
    · next hshort =>
      have hnames : ¬ Path.HasShortNames path.parts := fun hnames => hlong ⟨Nat.not_lt.mp hshort, hnames⟩
      have hfollow := follow_of_long hpassable hnames
      rw [Path.start] at hfollow
      rw [hfollow]
      rfl
  rw [look?, hlocate]

/-- Nothing is looked up where there is nothing. A path that no disk can hold counts as nothing as well. -/
theorem look?_of_item?_eq_none (hshort : path.IsShort) (hpassable : disk.IsPassable (path.start folder) path.parts)
    (hparts : path.parts ≠ []) (hitem : disk.item? (path.target folder) = none) :
    look? disk folder path = .ok none := by
  by_cases hclean : '\x00' ∈ path.toText.toList
  · rw [look?, locate]
    simp only [List.contains_iff_mem, if_pos hclean]
  · rw [look?_of_isPassable ⟨hclean, hshort.short, hshort.names⟩ hpassable hparts, hitem]

/-- A file is read that is where its path leads. -/
theorem read_of_isPassable {bytes : Text.Bytes} (hfits : path.Fits)
    (hpassable : disk.IsPassable (path.start folder) path.parts) (hparts : path.parts ≠ [])
    (hitem : disk.item? (path.target folder) = some (.file bytes)) : read disk folder path = .ok bytes := by
  unfold read
  rw [locate_eq_ok.mpr ⟨hfits, hpassable, rfl⟩]
  simp only [bind, Except.bind, itemAt?, if_neg hparts, hitem]

/-- A file is read just when its path can be followed. -/
theorem read_of_item? {bytes : Text.Bytes} (hparts : path.parts ≠ [])
    (hitem : disk.item? (path.target folder) = some (.file bytes)) :
    read disk folder path = (locate disk folder path).map fun _ => bytes := by
  unfold read
  cases hlocate : locate disk folder path with
  | error error => rfl
  | ok place =>
    obtain ⟨-, -, rfl⟩ := locate_eq_ok.mp hlocate
    simp only [bind, Except.bind, Except.map, itemAt?, if_neg hparts, hitem]

/-- What was read is in a file. -/
theorem item?_of_read {bytes : Text.Bytes} (h : read disk folder path = .ok bytes) :
    disk.item? (path.target folder) = some (.file bytes) := by
  unfold read at h
  cases hlocate : locate disk folder path with
  | error error => rw [hlocate] at h; cases h
  | ok place =>
    obtain ⟨-, -, rfl⟩ := locate_eq_ok.mp hlocate
    rw [hlocate] at h
    simp only [bind, Except.bind, itemAt?] at h
    split at h
    · next hitem =>
      cases h
      split at hitem
      · cases hitem
      · exact hitem
    · cases h
    · cases h

/-! ## Two disks -/

/-- Whether two disks hold the same on the way along a path and at its end. -/
structure SameAlong (folder : Place) (path : Path) (disk disk' : Disk) : Prop where
  stops : ∀ stop ∈ Path.stops (path.start folder) path.parts, disk'.item? stop = disk.item? stop
  target : disk'.item? (path.target folder) = disk.item? (path.target folder)

theorem SameAlong.refl (folder : Place) (path : Path) (disk : Disk) : SameAlong folder path disk disk :=
  ⟨fun _ _ => rfl, rfl⟩

theorem follow_congr (h : ∀ stop ∈ Path.stops here parts, disk'.item? stop = disk.item? stop) :
    follow disk' here parts = follow disk here parts := by
  induction parts generalizing here with
  | nil => rfl
  | cons part parts ih =>
    rw [Path.stops, List.forall_mem_cons] at h
    simp only [follow, h.1]
    split
    · rfl
    · rfl
    · by_cases hback : part = ".."
      · rw [if_pos hback] at h
        simp only [if_pos hback, ih h.2]
      · rw [if_neg hback] at h
        simp only [if_neg hback, ih h.2]

theorem locate_congr (h : ∀ stop ∈ Path.stops (path.start folder) path.parts, disk'.item? stop = disk.item? stop) :
    locate disk' folder path = locate disk folder path := by
  have hfollow := follow_congr h
  rw [Path.start] at hfollow
  simp only [locate, hfollow]

theorem SameAlong.locate (h : SameAlong folder path disk disk') : locate disk' folder path = locate disk folder path :=
  locate_congr h.stops

theorem SameAlong.look? (h : SameAlong folder path disk disk') : look? disk' folder path = look? disk folder path := by
  simp only [Disk.look?, h.locate]
  split
  · next hlocate =>
    obtain ⟨-, -, rfl⟩ := locate_eq_ok.mp hlocate
    simp only [itemAt?, h.target]
  all_goals rfl

theorem SameAlong.read (h : SameAlong folder path disk disk') : read disk' folder path = read disk folder path := by
  simp only [Disk.read, h.locate]
  match hlocate : Disk.locate disk folder path with
  | .error _ => rfl
  | .ok place =>
    obtain ⟨-, -, rfl⟩ := locate_eq_ok.mp hlocate
    simp only [bind, Except.bind, itemAt?, h.target]

end DocOutline.Disk
