import DocOutline.Proofs.Disk.Removal
import DocOutline.Proofs.Store.Saving

/-!
# What deleting does to the disk

Deleting a workspace changes nothing but at the workspace's own places, whether it succeeds or not (`spares_delete`). When it
has succeeded there is no snapshot any more (`delete_ok`). A store stays open when a workspace is deleted, as long as the
way to the store does not lead through what is in it.
-/

namespace DocOutline

namespace Store

variable {store : Store} {folder place : Place} {disk disk' : Disk} {workspace : String}

/-- Whether the way to a store keeps out of what is in the store. -/
def IsDirect (store : Store) (folder : Place) : Prop :=
  ∀ stop ∈ Path.stops (store.base.start folder) store.base.parts, Disk.isBelow (store.basePlace folder) stop = false

/-- A way that does not lead back is direct. -/
theorem isDirect_of_plain (h : ".." ∉ store.base.parts) (folder : Place) : store.IsDirect folder := by
  intro stop hstop
  obtain ⟨before, part, after, hparts, rfl⟩ := (Path.mem_stops_of_plain h).mp hstop
  rw [basePlace, Path.target, Path.follow_of_plain h, Disk.isBelow, hparts]
  simp

theorem isBelow_of_isPlaceOf (h : store.IsPlaceOf folder workspace place) :
    Disk.isBelow (store.basePlace folder) place = true := by
  rw [Disk.isBelow_iff]
  rcases h with rfl | ⟨rest, rfl⟩
  · exact ⟨_, [], rfl⟩
  · exact ⟨workspace, rest, by simp⟩

/-- A store stays open when the places of a workspace change. -/
theorem IsOpen.spares (h : store.IsOpen folder disk) (hdirect : store.IsDirect folder)
    (hspares : disk.Spares (store.IsPlaceOf folder workspace) disk') : store.IsOpen folder disk' := by
  have hsame {place : Place} (hplace : Disk.isBelow (store.basePlace folder) place = false) :
      disk'.item? place = disk.item? place := by
    refine hspares.elsewhere place fun hof => ?_
    rw [isBelow_of_isPlaceOf hof] at hplace
    cases hplace
  constructor
  · exact fun stop hstop => (hsame (hdirect stop hstop)).trans (h.passable stop hstop)
  · exact (hsame (by simp [Disk.isBelow])).trans h.isFolder

variable {site : Site} {world world' : World} {path : Path} {remove : Place → Path → Disk.Change Unit} {removed : Bool}

theorem spares_removeIfThere {allowed : Place → Prop}
    (h : ∀ disk : Disk, disk.Spares allowed (remove site.folder path disk).2) (world : World) :
    world.disk.Spares allowed (removeIfThere path remove site world).2.disk := by
  refine Action.bind_disk .trans (fun world => ?_) (fun there world => ?_) world
  · rw [Action.ask_apply]
    exact .refl _ _
  · cases there with
    | false => exact .refl _ _
    | true => exact Action.bind_disk .trans (fun world => h world.disk) (fun _ _ => .refl _ _) world

/-- What is there is removed, and what is not there stays away. -/
theorem removeIfThere_ok (hrun : removeIfThere path remove site world = (.ok removed, world')) :
    world.disk.exists? site.folder path = .ok removed ∧
      if removed then remove site.folder path world.disk = (.ok (), world'.disk) else world' = world := by
  obtain ⟨there, middle, hask, hrest⟩ := Action.bind_ok.mp hrun
  obtain ⟨hthere, rfl⟩ := Action.ask_ok.mp hask
  cases there with
  | false =>
    cases hrest
    exact ⟨hthere, rfl⟩
  | true =>
    obtain ⟨⟨⟩, after, hremove, hreturn⟩ := Action.bind_ok.mp hrest
    cases hreturn
    exact ⟨hthere, Action.change_ok hremove⟩

/-! ## Deleting -/

theorem spares_unlinkIndex (h : Path.IsName workspace) (disk : Disk) :
    disk.Spares (· = store.indexPlace folder workspace)
      (Disk.Change.ofStep (Disk.unlink folder (store.indexPath workspace)) disk).2 := by
  refine Disk.Change.ofStep_disk (.refl _ _) fun disk' hunlink => ?_
  obtain ⟨-, -, -, rfl⟩ := (Disk.unlink_eq_ok (parts_indexPath_ne_nil h)).mp hunlink
  rw [target_indexPath h]
  exact .drop disk _

theorem spares_removeContent (h : Path.IsName workspace) (disk : Disk) :
    disk.Spares (store.IsContentPlace folder workspace)
      (Disk.removeTree folder (store.contentFolder workspace) disk).2 := by
  have hspares := Disk.spares_removeTree folder (store.contentFolder workspace) disk
  rwa [target_contentFolder h] at hspares

/-- **Deleting changes nothing but at the places of the workspace**, whether it succeeds or not. -/
theorem spares_delete (h : Path.IsName workspace) (world : World) :
    world.disk.Spares (store.IsPlaceOf site.folder workspace) (store.delete workspace site world).2.disk := by
  have hindex (world : World) : world.disk.Spares (store.IsPlaceOf site.folder workspace)
      (removeIfThere (store.indexPath workspace) (fun folder path => Disk.Change.ofStep (Disk.unlink folder path))
        site world).2.disk := by
    refine spares_removeIfThere (fun disk => ?_) world
    exact (spares_unlinkIndex h disk).mono fun _ => .inl
  have hcontent (world : World) : world.disk.Spares (store.IsPlaceOf site.folder workspace)
      (removeIfThere (store.contentFolder workspace) Disk.removeTree site world).2.disk := by
    refine spares_removeIfThere (fun disk => ?_) world
    exact (spares_removeContent h disk).mono fun _ => .inr
  unfold delete
  refine Action.bind_disk .trans hindex (fun _ world => ?_) world
  refine Action.bind_disk .trans hcontent (fun _ world => ?_) world
  rw [Action.pure_apply]
  exact .refl _ _

/-- **What was deleted is gone.** A snapshot that is there can be looked up, which one has to know of it. -/
theorem delete_ok (h : IsWorkspaceName workspace) (hopen : store.IsOpen site.folder world.disk)
    (hfits : world.disk.item? (store.indexPlace site.folder workspace) ≠ none → (store.indexPath workspace).Fits)
    (hrun : store.delete workspace site world = (.ok removed, world')) :
    world'.disk.item? (store.indexPlace site.folder workspace) = none := by
  unfold delete at hrun
  obtain ⟨index, middle, hindex, hrest⟩ := Action.bind_ok.mp hrun
  have hmiddle : middle.disk.item? (store.indexPlace site.folder workspace) = none := by
    obtain ⟨hthere, hremoved⟩ := removeIfThere_ok hindex
    cases index with
    | true =>
      have hunlink : Disk.unlink site.folder (store.indexPath workspace) world.disk = .ok middle.disk := by
        rw [if_pos rfl, Disk.Change.ofStep] at hremoved
        split at hremoved
        · next hstep => cases hremoved; exact hstep
        · cases hremoved
      obtain ⟨-, -, -, hdrop⟩ := (Disk.unlink_eq_ok (parts_indexPath_ne_nil h.1)).mp hunlink
      rw [hdrop, target_indexPath h.1, Disk.item?_drop_self indexPlace_ne_nil]
    | false =>
      rw [if_neg Bool.false_ne_true] at hremoved
      rw [hremoved]
      by_cases hitem : world.disk.item? (store.indexPlace site.folder workspace) = none
      · exact hitem
      · rw [hopen.exists?_indexPath h.1 (hfits hitem)] at hthere
        exact Option.isSome_eq_false_iff.mp (Except.ok.inj hthere) |> Option.isNone_iff_eq_none.mp
  obtain ⟨texts, after, htexts, hreturn⟩ := Action.bind_ok.mp hrest
  cases hreturn
  have hspares : middle.disk.Spares (store.IsContentPlace site.folder workspace)
      (removeIfThere (store.contentFolder workspace) Disk.removeTree site middle).2.disk :=
    spares_removeIfThere (spares_removeContent h.1) middle
  rw [htexts] at hspares
  rw [hspares.elsewhere _ (not_isContentPlace_indexPlace (ne_append_json h workspace)), hmiddle]

end Store

end DocOutline
