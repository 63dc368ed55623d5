import DocOutline.Proofs.Disk.Items
import DocOutline.Proofs.Disk.Ways

/-!
# Making folders and writing files

What these do to a disk, whether they succeed or not. Making folders takes nothing away and changes nothing that is there:
the disk grows by folders on the way (`grows_makeFolders`), and the folder is there if it succeeds (`isFolder?_of_makeFolders`).
Writing puts a file at the target of its path, where no folder may be (`write_eq_ok`). What many of these do together is said in
one relation: some files were written, and the rest stays as it was (`Writes`).
-/

namespace DocOutline.Disk

variable {disk disk' disk'' : Disk} {folder place : Place} {path : Path} {bytes : Text.Bytes}

/-- Whether a disk has become another one by adding folders at some of the places that are `allowed`. -/
structure Grows (allowed : Place → Prop) (disk disk' : Disk) : Prop where
  adds : ∀ place, disk'.item? place = disk.item? place ∨
    (disk.item? place = none ∧ disk'.item? place = some .folder ∧ allowed place)
  proper : disk.IsProper → disk'.IsProper

namespace Grows

variable {allowed allowed' : Place → Prop}

theorem refl (allowed : Place → Prop) (disk : Disk) : Grows allowed disk disk := ⟨fun _ => .inl rfl, id⟩

theorem trans (h : Grows allowed disk disk') (h' : Grows allowed disk' disk'') : Grows allowed disk disk'' := by
  refine ⟨fun place => ?_, h'.proper ∘ h.proper⟩
  rcases h'.adds place with heq' | ⟨hnone', hfolder', hallowed'⟩
  · rcases h.adds place with heq | ⟨hnone, hfolder, hallowed⟩
    · exact .inl (heq'.trans heq)
    · exact .inr ⟨hnone, heq'.trans hfolder, hallowed⟩
  · rcases h.adds place with heq | ⟨-, hfolder, -⟩
    · exact .inr ⟨heq.symm.trans hnone', hfolder', hallowed'⟩
    · rw [hfolder] at hnone'
      cases hnone'

/-- Only places matter at which there was nothing. -/
theorem mono (h : Grows allowed disk disk') (hallowed : ∀ place, allowed place → disk.item? place = none → allowed' place) :
    Grows allowed' disk disk' :=
  ⟨fun place => (h.adds place).imp_right fun ⟨hnone, hfolder, hplace⟩ =>
    ⟨hnone, hfolder, hallowed place hplace hnone⟩, h.proper⟩

/-- What is there stays. -/
theorem stays {item : Item} (h : Grows allowed disk disk') (hitem : disk.item? place = some item) :
    disk'.item? place = some item := by
  rcases h.adds place with heq | ⟨hnone, -, -⟩
  · exact heq.trans hitem
  · rw [hitem] at hnone
    cases hnone

theorem elsewhere (h : Grows allowed disk disk') (hplace : ¬ allowed place) : disk'.item? place = disk.item? place :=
  (h.adds place).resolve_right fun hadded => hplace hadded.2.2

end Grows

/-- The places on the way along a path, its target included. -/
def OnWay (folder : Place) (path : Path) (place : Place) : Prop :=
  ∃ parts, parts <+: path.parts ∧ place = Path.follow (path.start folder) parts

theorem onWay_target (folder : Place) (path : Path) : OnWay folder path (path.target folder) :=
  ⟨path.parts, List.prefix_refl _, rfl⟩

theorem OnWay.of_isPrefix {path' : Path} (h : OnWay folder path place) (hroot : path.root = path'.root)
    (hparts : path.parts <+: path'.parts) : OnWay folder path' place := by
  obtain ⟨parts, hprefix, rfl⟩ := h
  exact ⟨parts, hprefix.trans hparts, by rw [Path.start, Path.start, hroot]⟩

/-! ## Steps of changes -/

/-- A step that fails changes nothing. -/
theorem Change.ofStep_disk {relation : Disk → Disk → Prop} {step : Disk → Except Error Disk} (hrefl : relation disk disk)
    (h : ∀ disk', step disk = .ok disk' → relation disk disk') : relation disk (Change.ofStep step disk).2 := by
  unfold Change.ofStep
  split
  · next hstep => exact h _ hstep
  · exact hrefl

/-- What two steps do one after the other keeps a relation between disks that chains them. -/
theorem Change.andThen_disk {relation : Disk → Disk → Prop} {first second : Change Unit}
    (htrans : ∀ {disk disk' disk''}, relation disk disk' → relation disk' disk'' → relation disk disk'')
    (h : ∀ disk, relation disk (first disk).2) (h' : ∀ disk, relation disk (second disk).2) (disk : Disk) :
    relation disk ((do first; second : Change Unit) disk).2 := by
  have hfirst := h disk
  simp only [bind, ExceptT.bind, ExceptT.mk, StateT.bind, ExceptT.bindCont]
  match hrun : first disk with
  | (.ok _, disk') =>
    rw [hrun] at hfirst
    exact htrans hfirst (h' disk')
  | (.error _, disk') =>
    rw [hrun] at hfirst
    exact hfirst

/-! ## Making folders -/

theorem grows_put_folder (h : disk.item? place = none) : Grows (· = place) disk (disk.put place .folder) := by
  have hne : place ≠ [] := by
    rintro rfl
    rw [item?_nil] at h
    cases h
  refine ⟨fun other => ?_, fun hproper => hproper.put place .folder⟩
  by_cases heq : other = place
  · subst heq
    exact .inr ⟨h, item?_put hne, rfl⟩
  · exact .inl (item?_put_of_ne heq)

/-- A folder is made at the target of its path, if the way there is passable and there is nothing. -/
theorem makeFolder_ok (h : makeFolder folder path disk = .ok disk') :
    disk.IsPassable (path.start folder) path.parts ∧ path.parts ≠ [] ∧ disk.item? (path.target folder) = none ∧
      disk' = disk.put (path.target folder) .folder := by
  unfold makeFolder at h
  match hlocate : disk.locate folder path with
  | .error _ => rw [hlocate] at h; cases h
  | .ok place =>
    obtain ⟨-, hpassable, rfl⟩ := locate_eq_ok.mp hlocate
    rw [hlocate] at h
    simp only [bind, Except.bind] at h
    split at h
    · cases h
    · next hitem =>
      cases h
      unfold itemAt? at hitem
      split at hitem
      · cases hitem
      · next hparts => exact ⟨hpassable, hparts, hitem, rfl⟩

theorem grows_makeFolder (h : makeFolder folder path disk = .ok disk') : Grows (OnWay folder path) disk disk' := by
  obtain ⟨-, -, hnone, rfl⟩ := makeFolder_ok h
  exact (grows_put_folder hnone).mono fun other heq _ => heq ▸ onWay_target folder path

/-- A folder that is there in the end was made or there before. -/
theorem ensureFolder_eq_ok (h : ensureFolder folder path disk = .ok disk') :
    makeFolder folder path disk = .ok disk' ∨ disk' = disk := by
  unfold ensureFolder at h
  split at h
  · next hmake =>
    cases h
    exact .inl hmake
  · cases h
  · cases h
  · next error _ _ _ =>
    match hfolder : disk.isFolder? folder path with
    | .error _ => rw [hfolder] at h; cases h
    | .ok true => rw [hfolder] at h; cases h; exact .inr rfl
    | .ok false => rw [hfolder] at h; cases h

/-- Making folders keeps a relation between disks that chains the making of each folder on the way. -/
theorem makeFolders_disk {relation : Disk → Disk → Prop} (hrefl : ∀ disk, relation disk disk)
    (htrans : ∀ {disk disk' disk''}, relation disk disk' → relation disk' disk'' → relation disk disk'')
    (hmake : ∀ parts disk disk', parts <+: path.parts → makeFolder folder ⟨path.root, parts⟩ disk = .ok disk' →
      relation disk disk') (disk : Disk) :
    relation disk (makeFolders folder path disk).2 := by
  have hensure (parts : List String) (hparts : parts <+: path.parts) (disk : Disk) :
      relation disk (Change.ofStep (ensureFolder folder ⟨path.root, parts⟩) disk).2 := by
    refine Change.ofStep_disk (hrefl disk) fun disk' h => ?_
    rcases ensureFolder_eq_ok h with hmade | rfl
    · exact hmake parts disk disk' hparts hmade
    · exact hrefl _
  have hall (above : List String) (habove : above.reverse <+: path.parts) (disk : Disk) :
      relation disk (ensureFolders folder path.root above disk).2 := by
    induction above generalizing disk with
    | nil => exact hensure [] habove disk
    | cons name above ih =>
      have hself (disk : Disk) := hensure (name :: above).reverse habove disk
      rw [List.reverse_cons] at habove
      simp only [ensureFolders]
      split
      · exact @Change.andThen_disk relation _ _ htrans (ih ((List.prefix_append _ _).trans habove)) hself disk
      · exact hself disk
  exact hall path.parts.reverse (by rw [List.reverse_reverse]) disk

/-- **Making folders only adds folders**, on the way along the path, whether it succeeds or not. -/
theorem grows_makeFolders (folder : Place) (path : Path) (disk : Disk) :
    Grows (OnWay folder path) disk (makeFolders folder path disk).2 := by
  refine makeFolders_disk (.refl _) .trans (fun parts disk disk' hparts hmake => ?_) disk
  exact (grows_makeFolder hmake).mono fun _ hplace _ => hplace.of_isPrefix rfl hparts

/-- A folder that is there is not made again. -/
theorem ensureFolder_of_isFolder (hfits : path.Fits) (hpassable : disk.IsPassable (path.start folder) path.parts)
    (hfolder : disk.item? (path.target folder) = some .folder) :
    makeFolder folder path disk = fail .alreadyThere path ∧ ensureFolder folder path disk = .ok disk := by
  have hlocate := locate_eq_ok.mpr ⟨hfits, hpassable, rfl⟩
  have hitem : disk.itemAt? (path.target folder) path = some .folder := by
    unfold itemAt?
    split
    · rfl
    · exact hfolder
  have hmake : makeFolder folder path disk = fail .alreadyThere path := by
    simp only [makeFolder, hlocate, bind, Except.bind, hitem]
  refine ⟨hmake, ?_⟩
  simp only [ensureFolder, hmake, fail, isFolder?, look?, hlocate, hitem]
  rfl

theorem makeFolders_of_isFolder (hfits : path.Fits) (hpassable : disk.IsPassable (path.start folder) path.parts)
    (hfolder : disk.item? (path.target folder) = some .folder) : makeFolders folder path disk = (.ok (), disk) := by
  obtain ⟨hmake, hensure⟩ := ensureFolder_of_isFolder hfits hpassable hfolder
  obtain ⟨root, parts⟩ := path
  simp only [makeFolders]
  match hparts : parts.reverse with
  | [] =>
    rw [List.reverse_eq_nil_iff.mp hparts] at hensure
    simp only [ensureFolders, Change.ofStep, hensure]
  | name :: above =>
    rw [List.reverse_eq_cons_iff.mp hparts, ← List.reverse_cons] at hmake hensure
    simp only [ensureFolders, hmake, fail, Change.ofStep, hensure]

/-- Folders on a way that is passable are not made again. -/
theorem makeFolders_of_isPassable {root name : String} {parts more : List String}
    (hfits : Path.Fits ⟨root, parts ++ name :: more⟩)
    (hpassable : disk.IsPassable (Path.start folder ⟨root, parts ++ name :: more⟩) (parts ++ name :: more)) :
    makeFolders folder ⟨root, parts⟩ disk = (.ok (), disk) := by
  obtain ⟨hbefore, hbehind⟩ := isPassable_append.mp hpassable
  exact makeFolders_of_isFolder hfits.of_append hbefore (hbehind _ (.head _))

/-- A folder that was made, or did not have to be, is there. -/
theorem isFolder?_of_ensureFolder (h : ensureFolder folder path disk = .ok disk') : disk'.isFolder? folder path = .ok true := by
  unfold ensureFolder at h
  split at h
  · next hmake =>
    cases h
    have hfits : path.Fits := by
      unfold makeFolder at hmake
      match hlocate : disk.locate folder path with
      | .ok place => exact (locate_eq_ok.mp hlocate).1
      | .error _ => rw [hlocate] at hmake; cases hmake
    have hgrows := grows_makeFolder hmake
    obtain ⟨hpassable, -, -, rfl⟩ := makeFolder_ok hmake
    refine isFolder?_eq_true.mpr ⟨hfits, hpassable.mono fun _ _ => hgrows.stays, .inr ?_⟩
    by_cases hroot : path.target folder = []
    · rw [hroot, item?_nil]
    · exact item?_put hroot
  · cases h
  · cases h
  · match hfolder : disk.isFolder? folder path with
    | .error _ => rw [hfolder] at h; cases h
    | .ok true => rw [hfolder] at h; cases h; exact hfolder
    | .ok false => rw [hfolder] at h; cases h

/-- The last step in the making of folders is that for the folder itself. -/
theorem exists_ensureFolder_of_makeFolders (h : makeFolders folder path disk = (.ok (), disk')) :
    ∃ before, ensureFolder folder path before = .ok disk' := by
  have hlast {before : Disk} (h : Change.ofStep (ensureFolder folder path) before = (.ok (), disk')) :
      ∃ before, ensureFolder folder path before = .ok disk' := by
    unfold Change.ofStep at h
    split at h
    · next hstep =>
      cases h
      exact ⟨before, hstep⟩
    · cases h
  obtain ⟨root, parts⟩ := path
  simp only [makeFolders] at h
  match hparts : parts.reverse with
  | [] =>
    rw [hparts] at h
    rw [List.reverse_eq_nil_iff.mp hparts] at hlast ⊢
    exact hlast h
  | name :: above =>
    rw [hparts] at h
    rw [List.reverse_eq_cons_iff.mp hparts, ← List.reverse_cons] at hlast ⊢
    simp only [ensureFolders] at h
    split at h
    · simp only [bind, ExceptT.bind, ExceptT.mk, StateT.bind, ExceptT.bindCont] at h
      split at h
      next outcome middle hfirst =>
      cases outcome with
      | ok _ => exact hlast h
      | error _ => cases h
    · exact hlast h

theorem isFolder?_of_makeFolders (h : makeFolders folder path disk = (.ok (), disk')) :
    disk'.isFolder? folder path = .ok true :=
  let ⟨_, hlast⟩ := exists_ensureFolder_of_makeFolders h
  isFolder?_of_ensureFolder hlast

/-! ## Changes -/

/-- Whether a disk has become another one by changes at `allowed` places alone. No folder is taken away. -/
structure ChangesOnly (allowed : Place → Prop) (disk disk' : Disk) : Prop where
  elsewhere : ∀ place, ¬ allowed place → disk'.item? place = disk.item? place
  folders : ∀ place, disk.item? place = some .folder → disk'.item? place = some .folder
  proper : disk.IsProper → disk'.IsProper

namespace ChangesOnly

variable {allowed allowed' : Place → Prop}

theorem refl (allowed : Place → Prop) (disk : Disk) : ChangesOnly allowed disk disk :=
  ⟨fun _ _ => rfl, fun _ => id, id⟩

theorem trans (h : ChangesOnly allowed disk disk') (h' : ChangesOnly allowed disk' disk'') :
    ChangesOnly allowed disk disk'' :=
  ⟨fun place hplace => (h'.elsewhere place hplace).trans (h.elsewhere place hplace),
    fun place hfolder => h'.folders place (h.folders place hfolder), h'.proper ∘ h.proper⟩

theorem mono (h : ChangesOnly allowed disk disk') (hallowed : ∀ place, allowed place → allowed' place) :
    ChangesOnly allowed' disk disk' :=
  ⟨fun place hplace => h.elsewhere place (mt (hallowed place) hplace), h.folders, h.proper⟩

theorem of_grows (h : Grows allowed disk disk') : ChangesOnly allowed disk disk' :=
  ⟨fun _ hplace => h.elsewhere hplace, fun _ hfolder => h.stays hfolder, h.proper⟩

theorem put_file (h : disk.item? place ≠ some .folder) :
    ChangesOnly (· = place) disk (disk.put place (.file bytes)) := by
  refine ⟨fun other hne => item?_put_of_ne hne, fun other hfolder => ?_, fun hproper => hproper.put place _⟩
  rw [item?_put_of_ne (by rintro rfl; exact h hfolder), hfolder]

/-- A way that was passable stays so. -/
theorem isPassable {here : Place} {parts : List String} (h : ChangesOnly allowed disk disk')
    (hpassable : disk.IsPassable here parts) : disk'.IsPassable here parts :=
  hpassable.mono fun stop _ => h.folders stop

end ChangesOnly

/-- Whether all that is on a disk stays as it is, apart from what is at `allowed` places. -/
def Keeps (allowed : Place → Prop) (disk disk' : Disk) : Prop :=
  disk.ChangesOnly (fun place => disk.item? place = none ∨ allowed place) disk'

namespace Keeps

variable {allowed : Place → Prop}

/-- What is there stays. -/
theorem stays {item : Item} (h : Keeps allowed disk disk') (hitem : disk.item? place = some item)
    (hplace : ¬ allowed place) : disk'.item? place = some item := by
  rw [h.elsewhere place (not_or.mpr ⟨by rw [hitem]; exact nofun, hplace⟩), hitem]

end Keeps

/-- Whether a disk has become another one by adding folders and by writing files: `written` says which bytes where. -/
structure Writes (written : Place → Text.Bytes → Prop) (disk disk' : Disk) : Prop where
  items : ∀ place, disk'.item? place = disk.item? place ∨
    (disk.item? place = none ∧ disk'.item? place = some .folder) ∨
    (disk.item? place ≠ some .folder ∧ ∃ bytes, written place bytes ∧ disk'.item? place = some (.file bytes))
  proper : disk.IsProper → disk'.IsProper

namespace Writes

variable {written written' : Place → Text.Bytes → Prop}

theorem refl (written : Place → Text.Bytes → Prop) (disk : Disk) : Writes written disk disk := ⟨fun _ => .inl rfl, id⟩

theorem trans (h : Writes written disk disk') (h' : Writes written disk' disk'') : Writes written disk disk'' := by
  refine ⟨fun place => ?_, h'.proper ∘ h.proper⟩
  rcases h'.items place with heq' | ⟨hnone', hfolder'⟩ | ⟨hfree', hwritten'⟩
  · rw [heq']
    exact h.items place
  · rcases h.items place with heq | ⟨-, hfolder⟩ | ⟨-, bytes, -, hfile⟩
    · exact .inr (.inl ⟨heq.symm.trans hnone', hfolder'⟩)
    · exact absurd (hfolder.symm.trans hnone') nofun
    · exact absurd (hfile.symm.trans hnone') nofun
  · rcases h.items place with heq | ⟨-, hfolder⟩ | ⟨hfree, -⟩
    · exact .inr (.inr ⟨heq ▸ hfree', hwritten'⟩)
    · exact absurd hfolder hfree'
    · exact .inr (.inr ⟨hfree, hwritten'⟩)

theorem mono (h : Writes written disk disk') (hwritten : ∀ place bytes, written place bytes → written' place bytes) :
    Writes written' disk disk' :=
  ⟨fun place => (h.items place).imp_right (.imp_right (.imp_right fun ⟨bytes, hbytes, hfile⟩ =>
    ⟨bytes, hwritten place bytes hbytes, hfile⟩)), h.proper⟩

theorem of_grows {allowed : Place → Prop} (h : Grows allowed disk disk') : Writes written disk disk' :=
  ⟨fun place => (h.adds place).imp_right fun hadded => .inl ⟨hadded.1, hadded.2.1⟩, h.proper⟩

theorem put_file (h : disk.item? place ≠ some .folder) :
    Writes (fun other content => other = place ∧ content = bytes) disk (disk.put place (.file bytes)) := by
  refine ⟨fun other => ?_, fun hproper => hproper.put place _⟩
  by_cases hother : other = place
  · subst hother
    have hne : other ≠ [] := by
      rintro rfl
      exact h item?_nil
    exact .inr (.inr ⟨h, bytes, ⟨rfl, rfl⟩, item?_put hne⟩)
  · exact .inl (item?_put_of_ne hother)

/-- Folders stay. -/
theorem folders (h : Writes written disk disk') (hfolder : disk.item? place = some .folder) :
    disk'.item? place = some .folder := by
  rcases h.items place with heq | ⟨hnone, -⟩ | ⟨hfree, -⟩
  · exact heq.trans hfolder
  · exact absurd (hfolder.symm.trans hnone) nofun
  · exact absurd hfolder hfree

/-- Nothing is taken away. -/
theorem stays (h : Writes written disk disk') (hitem : disk.item? place ≠ none) : disk'.item? place ≠ none := by
  rcases h.items place with heq | ⟨hnone, -⟩ | ⟨-, bytes, -, hfile⟩
  · rwa [heq]
  · exact absurd hnone hitem
  · rw [hfile]
    exact nofun

/-- A file stays as it is or is written again. -/
theorem files (h : Writes written disk disk') (hfile : disk.item? place = some (.file bytes)) :
    disk'.item? place = some (.file bytes) ∨ ∃ content, written place content ∧ disk'.item? place = some (.file content) := by
  rcases h.items place with heq | ⟨hnone, -⟩ | ⟨-, hwritten⟩
  · exact .inl (heq.trans hfile)
  · exact absurd (hfile.symm.trans hnone) nofun
  · exact .inr hwritten

/-- A file that is there later was there before or has been written. -/
theorem files_before (h : Writes written disk disk') (hfile : disk'.item? place = some (.file bytes)) :
    disk.item? place = some (.file bytes) ∨ written place bytes := by
  rcases h.items place with heq | ⟨-, hfolder⟩ | ⟨-, content, hwritten, hcontent⟩
  · exact .inl (heq.symm.trans hfile)
  · exact absurd (hfolder.symm.trans hfile) nofun
  · rw [hcontent] at hfile
    cases hfile
    exact .inr hwritten

/-- Nothing else that is there changes. -/
theorem keeps (h : Writes written disk disk') : Keeps (fun place => ∃ bytes, written place bytes) disk disk' := by
  refine ⟨fun place hplace => ?_, fun place => h.folders, h.proper⟩
  rcases h.items place with heq | ⟨hnone, -⟩ | ⟨-, bytes, hbytes, -⟩
  · exact heq
  · exact absurd (.inl hnone) hplace
  · exact absurd (.inr ⟨bytes, hbytes⟩) hplace

end Writes

/-! ## Writing files -/

/-- **When a file is written and where**: at the target of its path, if that can be looked up, the way there is passable
and there is no folder. -/
theorem write_eq_ok :
    write folder path bytes disk = .ok disk' ↔
      path.Fits ∧ disk.IsPassable (path.start folder) path.parts ∧ path.parts ≠ [] ∧
        disk.item? (path.target folder) ≠ some .folder ∧ disk' = disk.put (path.target folder) (.file bytes) := by
  unfold write
  cases hlocate : disk.locate folder path with
  | error _ =>
    refine error_eq_ok fun h => ?_
    rw [locate_eq_ok.mpr ⟨h.1, h.2.1, rfl⟩] at hlocate
    cases hlocate
  | ok place =>
    obtain ⟨hfits, hpassable, rfl⟩ := locate_eq_ok.mp hlocate
    simp only [bind, Except.bind, itemAt?]
    by_cases hparts : path.parts = []
    · rw [if_pos hparts]
      exact error_eq_ok fun h => h.2.2.1 hparts
    · rw [if_neg hparts]
      split
      · next hfolder => exact error_eq_ok fun h => h.2.2.2.1 hfolder
      · next hfile =>
        constructor
        · intro h
          cases h
          exact ⟨hfits, hpassable, hparts, hfile, rfl⟩
        · exact fun h => by rw [h.2.2.2.2]

end DocOutline.Disk
