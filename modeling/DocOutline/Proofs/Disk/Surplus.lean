import DocOutline.Proofs.Disk.Folders

/-!
# Disks that hold more

One disk may hold some files more than another one, and otherwise the same (`Exceeds`). A change that does not come past these
files does the same on both disks and leaves it at that (`Respects`): so does making folders (`respects_makeFolders`), and so
does writing a file, even in the place of one of them (`respects_write`).
-/

namespace DocOutline.Disk

variable {disk disk' : Disk} {folder place : Place} {path : Path} {parts : List String} {α : Type}
  {surplus : Place → Text.Bytes → Prop} {related : Disk → Disk → Prop}

/-- Whether a disk holds what another one holds and beside that only files, each of them in `surplus`. -/
def Exceeds (surplus : Place → Text.Bytes → Prop) (disk disk' : Disk) : Prop :=
  ∀ place, disk'.item? place = disk.item? place ∨
    ∃ bytes, surplus place bytes ∧ disk.item? place = some (.file bytes) ∧ disk'.item? place = none

/-! ## Ways past the files -/

/-- What is passed on the way along a path is on that way. -/
theorem onWay_of_mem_stops (h : place ∈ Path.stops (path.start folder) path.parts) : OnWay folder path place := by
  have hall (parts : List String) (here : Place) (h : place ∈ Path.stops here parts) :
      ∃ before, before <+: parts ∧ place = Path.follow here before := by
    induction parts generalizing here with
    | nil => cases h
    | cons part parts ih =>
      rw [Path.stops, List.mem_cons] at h
      rcases h with rfl | hlater
      · exact ⟨[], List.nil_prefix, rfl⟩
      · obtain ⟨before, hbefore, heq⟩ := ih _ hlater
        exact ⟨part :: before, List.cons_prefix_cons.mpr ⟨rfl, hbefore⟩, heq⟩
  exact hall _ _ h

/-- What is on the way along a path is passed on the way further on. -/
theorem OnWay.mem_stops {root : String} (h : OnWay folder ⟨root, parts⟩ place) (part : String) (more : List String) :
    place ∈ Path.stops (Path.start folder ⟨root, parts ++ part :: more⟩) (parts ++ part :: more) := by
  obtain ⟨before, ⟨rest, hrest⟩, rfl⟩ := h
  simp only at hrest
  have hne : rest ++ part :: more ≠ [] := List.append_ne_nil_of_right_ne_nil rest (List.cons_ne_nil part more)
  obtain ⟨next, others, hnext⟩ := List.exists_cons_of_ne_nil hne
  rw [← hrest, List.append_assoc, hnext, Path.stops_append]
  exact List.mem_append_right _ (.head _)

namespace Exceeds

theorem item?_eq (h : Exceeds surplus disk disk') (hfree : ∀ bytes, ¬ surplus place bytes) :
    disk'.item? place = disk.item? place :=
  (h place).resolve_right fun ⟨bytes, hbytes, _⟩ => hfree bytes hbytes

theorem sameAlong (h : Exceeds surplus disk disk') (hfree : ∀ place bytes, surplus place bytes → ¬ OnWay folder path place) :
    SameAlong folder path disk disk' :=
  ⟨fun stop hstop => h.item?_eq fun bytes hbytes => hfree stop bytes hbytes (onWay_of_mem_stops hstop),
    h.item?_eq fun bytes hbytes => hfree _ bytes hbytes (onWay_target folder path)⟩

/-- Both disks have the same folders. -/
theorem isFolder_iff (h : Exceeds surplus disk disk') :
    disk'.item? place = some .folder ↔ disk.item? place = some .folder := by
  rcases h place with heq | ⟨bytes, -, hfile, hnone⟩
  · rw [heq]
  · rw [hfile, hnone]
    exact ⟨nofun, nofun⟩

theorem isPassable_iff (h : Exceeds surplus disk disk') :
    disk'.IsPassable place parts ↔ disk.IsPassable place parts :=
  forall₂_congr fun _ _ => h.isFolder_iff

/-- What is put on both disks leaves the rest as it is. -/
theorem put (h : Exceeds surplus disk disk') (hplace : place ≠ []) (item : Item) :
    Exceeds surplus (disk.put place item) (disk'.put place item) := by
  intro other
  by_cases hother : other = place
  · subst hother
    rw [item?_put hplace, item?_put hplace]
    exact .inl rfl
  · rw [item?_put_of_ne hother, item?_put_of_ne hother]
    exact h other

end Exceeds

/-- A disk holds no more than some files beside what it holds without them. -/
theorem exceeds_filter (keeps : Place → Bool)
    (h : ∀ place item, disk.item? place = some item → keeps place = false → ∃ bytes, item = .file bytes ∧ surplus place bytes) :
    Exceeds surplus disk ⟨disk.items.filter fun entry => keeps entry.1⟩ := by
  intro place
  by_cases hroot : place = []
  · subst hroot
    rw [item?_nil, item?_nil]
    exact .inl rfl
  have hleft : item? ⟨disk.items.filter fun entry => keeps entry.1⟩ place = _ := item?_of_ne_nil hroot
  rw [hleft, lookup_filter]
  cases hkeeps : keeps place with
  | true =>
    rw [if_pos rfl, item?_of_ne_nil hroot]
    exact .inl rfl
  | false =>
    rw [if_neg nofun]
    cases hitem : disk.item? place with
    | none => exact .inl rfl
    | some item =>
      obtain ⟨bytes, rfl, hbytes⟩ := h place item hitem hkeeps
      exact .inr ⟨bytes, hbytes, rfl, rfl⟩

/-! ## Steps on two disks -/

/-- Whether the same step came out alike on two disks. -/
inductive Alike (related : Disk → Disk → Prop) : Except Error Disk → Except Error Disk → Prop where
  | ok {disk disk' : Disk} (h : related disk disk') : Alike related (.ok disk) (.ok disk')
  | error (error : Error) : Alike related (.error error) (.error error)

/-- Whether a change does the same to related disks and leaves them related. -/
def Change.Respects (related : Disk → Disk → Prop) (change : Change α) : Prop :=
  ∀ disk disk', related disk disk' → (change disk').1 = (change disk).1 ∧ related (change disk).2 (change disk').2

theorem Change.respects_ofStep {step : Disk → Except Error Disk}
    (h : ∀ disk disk', related disk disk' → Alike related (step disk) (step disk')) : Respects related (ofStep step) := by
  intro disk disk' hrelated
  have halike := h disk disk' hrelated
  unfold ofStep
  generalize step disk = made, step disk' = made' at halike
  cases halike with
  | ok hmade => exact ⟨rfl, hmade⟩
  | error error => exact ⟨rfl, hrelated⟩

theorem Change.Respects.andThen {first second : Change Unit} (h : Respects related first) (h' : Respects related second) :
    Respects related (do first; second) := by
  intro disk disk' hrelated
  obtain ⟨houtcome, hnext⟩ := h disk disk' hrelated
  simp only [bind, ExceptT.bind, ExceptT.mk, StateT.bind, ExceptT.bindCont]
  generalize first disk = run, first disk' = run' at houtcome hnext
  obtain ⟨outcome, middle⟩ := run
  obtain ⟨outcome', middle'⟩ := run'
  obtain rfl : outcome' = outcome := houtcome
  cases outcome' with
  | ok a => exact h' _ _ hnext
  | error error => exact ⟨rfl, hnext⟩

/-! ## Making folders -/

section

variable (hfree : ∀ place bytes, surplus place bytes → ¬ OnWay folder path place)

include hfree

theorem alike_makeFolder (h : Exceeds surplus disk disk') :
    Alike (Exceeds surplus) (makeFolder folder path disk) (makeFolder folder path disk') := by
  have hsame := h.sameAlong hfree
  unfold makeFolder
  rw [hsame.locate]
  cases hlocate : locate disk folder path with
  | error error => exact .error error
  | ok place =>
    obtain ⟨-, -, rfl⟩ := locate_eq_ok.mp hlocate
    simp only [bind, Except.bind, itemAt?, hsame.target]
    by_cases hparts : path.parts = []
    · simp only [if_pos hparts]
      exact .error _
    · simp only [if_neg hparts]
      cases hitem : disk.item? (path.target folder) with
      | some item => exact .error _
      | none =>
        refine .ok (h.put ?_ .folder)
        intro hroot
        rw [hroot, item?_nil] at hitem
        cases hitem

theorem alike_ensureFolder (h : Exceeds surplus disk disk') :
    Alike (Exceeds surplus) (ensureFolder folder path disk) (ensureFolder folder path disk') := by
  have halike := alike_makeFolder hfree h
  have hisFolder : isFolder? disk' folder path = isFolder? disk folder path := by
    rw [isFolder?, isFolder?, (h.sameAlong hfree).look?]
  -- what is not a folder on one disk is none on the other
  have hkept (error : Error) : Alike (Exceeds surplus)
      (do if ← isFolder? disk folder path then .ok disk else .error error)
      (do if ← isFolder? disk' folder path then .ok disk' else .error error) := by
    rw [hisFolder]
    cases isFolder? disk folder path with
    | error other => exact .error other
    | ok there =>
      cases there with
      | true => exact .ok h
      | false => exact .error error
  unfold ensureFolder
  generalize makeFolder folder path disk = made, makeFolder folder path disk' = made' at halike
  cases halike with
  | ok hmade => exact .ok hmade
  | error error =>
    cases error with
    | nullByte => exact .error _
    | trouble trouble path? =>
      cases trouble with
      | notFound => exact .error _
      | alreadyThere | notFolder | isFolder | invalid | nameTooLong | notEmpty => exact hkept _

/-- **Making folders does the same on both disks**, if no surplus file is on the way. -/
theorem respects_makeFolders : Change.Respects (Exceeds surplus) (makeFolders folder path) := by
  have hbefore (parts : List String) (hparts : parts <+: path.parts) (place : Place) (bytes : Text.Bytes)
      (hsurplus : surplus place bytes) : ¬ OnWay folder ⟨path.root, parts⟩ place :=
    fun hway => hfree place bytes hsurplus (hway.of_isPrefix rfl hparts)
  have hensure (parts : List String) (hparts : parts <+: path.parts) :
      Change.Respects (Exceeds surplus) (Change.ofStep (ensureFolder folder ⟨path.root, parts⟩)) :=
    Change.respects_ofStep fun _ _ h => alike_ensureFolder (hbefore parts hparts) h
  have hall (above : List String) (habove : above.reverse <+: path.parts) :
      Change.Respects (Exceeds surplus) (ensureFolders folder path.root above) := by
    induction above with
    | nil => exact hensure [] habove
    | cons name above ih =>
      have hself := hensure (name :: above).reverse habove
      intro disk disk' h
      have halike := alike_makeFolder (hbefore (name :: above).reverse habove) h
      rw [List.reverse_cons] at habove
      have hboth := (ih ((List.prefix_append _ _).trans habove)).andThen hself
      -- the folder around is made on both disks or on none, since the first attempt ends alike
      simp only [ensureFolders]
      generalize makeFolder folder ⟨path.root, (name :: above).reverse⟩ disk = made,
        makeFolder folder ⟨path.root, (name :: above).reverse⟩ disk' = made' at halike
      cases halike with
      | ok hmade => exact hself disk disk' h
      | error error =>
        cases error with
        | nullByte => exact hself disk disk' h
        | trouble trouble path? =>
          cases trouble with
          | notFound => exact hboth disk disk' h
          | alreadyThere | notFolder | isFolder | invalid | nameTooLong | notEmpty => exact hself disk disk' h
  exact hall path.parts.reverse (by rw [List.reverse_reverse])

end

/-! ## Writing files -/

/-- **Writing a file does the same on both disks**, if the way to its place does not go past a surplus file. -/
theorem respects_write
    (hfree : ∀ place bytes, surplus place bytes → place ∉ Path.stops (path.start folder) path.parts) (bytes : Text.Bytes) :
    Change.Respects (Exceeds surplus) (Change.ofStep (write folder path bytes)) := by
  refine Change.respects_ofStep fun disk disk' h => ?_
  have hlocate' : locate disk' folder path = locate disk folder path :=
    locate_congr fun stop hstop => h.item?_eq fun bytes hbytes => hfree stop bytes hbytes hstop
  cases hlocate : locate disk folder path with
  | error error =>
    unfold write
    rw [hlocate', hlocate]
    exact .error error
  | ok place =>
    obtain ⟨hfits, hpassable, rfl⟩ := locate_eq_ok.mp hlocate
    have hfolder : disk'.itemAt? (path.target folder) path = some .folder ↔
        disk.itemAt? (path.target folder) path = some .folder := by
      by_cases hparts : path.parts = [] <;> simp only [itemAt?, hparts, if_true, if_false, h.isFolder_iff]
    by_cases hthere : disk.itemAt? (path.target folder) path = some .folder
    · unfold write
      rw [hlocate', hlocate]
      simp only [bind, Except.bind, hthere, hfolder.mpr hthere]
      exact .error _
    · have hparts : path.parts ≠ [] := fun hparts => hthere (if_pos hparts)
      rw [itemAt?, if_neg hparts] at hthere
      have hroot : path.target folder ≠ [] := fun hroot => hthere (hroot ▸ item?_nil)
      rw [write_eq_ok.mpr ⟨hfits, hpassable, hparts, hthere, rfl⟩,
        write_eq_ok.mpr ⟨hfits, h.isPassable_iff.mpr hpassable, hparts, mt h.isFolder_iff.mp hthere, rfl⟩]
      exact .ok (h.put hroot _)

end DocOutline.Disk
