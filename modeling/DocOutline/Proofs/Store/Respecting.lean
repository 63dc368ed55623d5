import DocOutline.Proofs.Disk.Surplus
import DocOutline.Proofs.Store.Saving

/-!
# Saving on two disks

Saving a workspace does the same on a disk that holds some files more than another one, as long as the store needs none of their
places for a folder (`respects_save`). The folders that a store needs to take the text of a document are those on the way to it
(`wayTo`).
-/

namespace DocOutline

namespace Action

variable {α β : Type} {site : Site} {related : Disk → Disk → Prop} {action : Action α}

/-- Whether an action has the same outcome on related disks and leaves them related. -/
def Respects (site : Site) (related : Disk → Disk → Prop) (action : Action α) : Prop :=
  ∀ world world' : World, related world.disk world'.disk →
    (action site world').1 = (action site world).1 ∧ related (action site world).2.disk (action site world').2.disk

theorem Respects.bind_of {next : α → Action β} (h : Respects site related action)
    (h' : ∀ a world after, action site world = (.ok a, after) → Respects site related (next a)) :
    Respects site related (action >>= next) := by
  intro world world' hrelated
  obtain ⟨houtcome, hnext⟩ := h world world' hrelated
  obtain ⟨outcome, middle, hrun⟩ : ∃ outcome middle, action site world = (outcome, middle) := ⟨_, _, rfl⟩
  obtain ⟨outcome', middle', hrun'⟩ : ∃ outcome middle, action site world' = (outcome, middle) := ⟨_, _, rfl⟩
  rw [hrun, hrun'] at houtcome hnext
  obtain rfl : outcome' = outcome := houtcome
  cases outcome' with
  | ok a =>
    rw [bind_of_ok next hrun, bind_of_ok next hrun']
    exact h' a world middle hrun middle middle' hnext
  | error fault =>
    rw [bind_of_error next hrun, bind_of_error next hrun']
    exact ⟨rfl, hnext⟩

theorem Respects.bind {next : α → Action β} (h : Respects site related action) (h' : ∀ a, Respects site related (next a)) :
    Respects site related (action >>= next) := h.bind_of fun a _ _ _ => h' a

theorem respects_ofExcept {ε : Type} (faultOf : ε → Fault) (result : Except ε α) :
    Respects site related (ofExcept faultOf result) := by
  intro world world' hrelated
  rw [ofExcept_apply, ofExcept_apply]
  exact ⟨rfl, hrelated⟩

theorem respects_pure (a : α) : Respects site related (pure a) := respects_ofExcept id (.ok a)

theorem respects_read : Respects site related (read : Action Site) := fun _ _ hrelated => ⟨rfl, hrelated⟩

theorem respects_log (record : Log.Record) : Respects site related (log record) := fun _ _ hrelated => ⟨rfl, hrelated⟩

theorem respects_forM {as : List α} {action : α → Action Unit} (h : ∀ a ∈ as, Respects site related (action a)) :
    Respects site related (as.forM action) := by
  induction as with
  | nil => exact respects_pure ()
  | cons a as ih =>
    rw [List.forall_mem_cons] at h
    exact h.1.bind fun _ => ih h.2

theorem respects_change {step : Place → Disk.Change α} (h : Disk.Change.Respects related (step site.folder)) :
    Respects site related (change step) := by
  intro world world' hrelated
  obtain ⟨houtcome, hnext⟩ := h _ _ hrelated
  exact ⟨congrArg (Except.mapError Fault.disk) houtcome, hnext⟩

end Action

namespace Store

open DocOutline.Action

variable {store : Store} {site : Site} {folder place : Place} {workspace file text : String} {texts : List (String × String)}
  {surplus : Place → Text.Bytes → Prop}

/-! ## Ways to texts -/

/-- Whether a text is the name of a folder. The folder at the root has an empty one. -/
def IsFolderName (text : String) : Prop := text = "" ∨ Path.IsName text

theorem contentFolder_of_isFolderName (h : IsFolderName workspace) :
    store.contentFolder workspace = ⟨store.base.root, store.base.parts ++ Path.names workspace⟩ := by
  rcases h with rfl | hname
  · rfl
  · rw [contentFolder, hname.isPlain.join_eq]

theorem indexPath_of_isFolderName (h : IsFolderName workspace) :
    store.indexPath workspace = ⟨store.base.root, store.base.parts ++ [workspace ++ ".json"]⟩ := by
  rcases h with rfl | hname
  · rfl
  · exact indexPath_eq hname

/-- The folders that a store needs to take the text of a document. -/
def wayTo (store : Store) (folder : Place) (workspace file : String) : List Place :=
  let path := (store.contentFolder workspace).join file
  Path.stops (path.start folder) path.parts

section

variable (h : IsFolderName workspace) (hfile : Path.IsPlain file)

include h hfile

theorem join_contentFolder_of_isFolderName :
    (store.contentFolder workspace).join file =
      ⟨store.base.root, store.base.parts ++ (Path.names workspace ++ Path.names file)⟩ := by
  rw [contentFolder_of_isFolderName h, hfile.join_eq, List.append_assoc]

/-- All on the way to the folder of a store, and that folder itself, are among them. -/
theorem mem_wayTo_of_base (hplace : Disk.OnWay folder store.base place) : place ∈ store.wayTo folder workspace file := by
  obtain ⟨part, more, hmore⟩ := List.exists_cons_of_ne_nil
    (List.append_ne_nil_of_right_ne_nil (Path.names workspace) hfile.names_ne_nil)
  rw [wayTo, join_contentFolder_of_isFolderName h hfile, hmore]
  exact hplace.mem_stops part more

/-- So are those on the way to the folder of the texts. -/
theorem mem_wayTo_of_contentFolder (hplace : Disk.OnWay folder (store.contentFolder workspace) place) :
    place ∈ store.wayTo folder workspace file := by
  obtain ⟨part, more, hmore⟩ := List.exists_cons_of_ne_nil hfile.names_ne_nil
  rw [contentFolder_of_isFolderName h] at hplace
  rw [wayTo, join_contentFolder_of_isFolderName h hfile, ← List.append_assoc, hmore]
  exact hplace.mem_stops part more

/-- So are those on the way to the folder in which the text lies. -/
theorem mem_wayTo_of_parent (hplace : Disk.OnWay folder ((store.contentFolder workspace).join file).parent place) :
    place ∈ store.wayTo folder workspace file := by
  have hparts : ((store.contentFolder workspace).join file).parts ≠ [] := by
    rw [join_contentFolder_of_isFolderName h hfile]
    exact List.append_ne_nil_of_right_ne_nil _ (List.append_ne_nil_of_right_ne_nil _ hfile.names_ne_nil)
  rw [wayTo]
  generalize (store.contentFolder workspace).join file = path at hplace hparts
  obtain ⟨root, parts⟩ := path
  have hmem := hplace.mem_stops (parts.getLast hparts) []
  simp only [List.dropLast_concat_getLast] at hmem
  exact hmem

end

/-! ## Saving -/

def IsClear (store : Store) (folder : Place) (workspace : String) (texts : List (String × String))
    (surplus : Place → Text.Bytes → Prop) : Prop :=
  ∀ place bytes, surplus place bytes → ∀ file ∈ texts.map Prod.fst, place ∉ store.wayTo folder workspace file

section

variable (h : IsFolderName workspace)

include h

theorem respects_writeDocument (hfile : Path.IsPlain file)
    (hclear : ∀ place bytes, surplus place bytes → place ∉ store.wayTo site.folder workspace file) :
    Respects site (Disk.Exceeds surplus) (writeDocument (store.contentFolder workspace) file text) := by
  have hmake : Respects site (Disk.Exceeds surplus) (makeFolders ((store.contentFolder workspace).join file).parent) :=
    respects_change (Disk.respects_makeFolders fun place bytes hplace hway =>
      hclear place bytes hplace (mem_wayTo_of_parent h hfile hway))
  exact hmake.bind fun _ => respects_change (Disk.respects_write hclear _)

variable (hplain : ∀ file ∈ texts.map Prod.fst, Path.IsPlain file)
  (hclear : store.IsClear site.folder workspace texts surplus)

include hplain hclear

theorem respects_writeDocuments : Respects site (Disk.Exceeds surplus) (store.writeDocuments workspace texts) := by
  refine respects_forM fun entry hentry => ?_
  have hfile : entry.1 ∈ texts.map Prod.fst := List.mem_map_of_mem hentry
  exact respects_writeDocument h (hplain _ hfile) fun place bytes hplace => hclear place bytes hplace _ hfile

variable (hsome : texts ≠ [])

include hsome

/-- No surplus file lies on the way to the folder of a store that takes texts. -/
theorem IsClear.not_onWay {bytes : Text.Bytes} (hplace : surplus place bytes) : ¬ Disk.OnWay site.folder store.base place := by
  obtain ⟨entry, hentry⟩ := List.exists_mem_of_ne_nil texts hsome
  have hfile : entry.1 ∈ texts.map Prod.fst := List.mem_map_of_mem hentry
  exact fun hway => hclear place bytes hplace _ hfile (mem_wayTo_of_base h (hplain _ hfile) hway)

theorem respects_writeSnapshot (limit : Limit) (snapshot : Snapshot) :
    Respects site (Disk.Exceeds surplus) (store.writeSnapshot limit workspace snapshot) := by
  refine (respects_change (Disk.respects_write (fun place bytes hplace hstop => ?_) _)).bind fun _ => respects_ofExcept _ _
  refine hclear.not_onWay h hplain hsome hplace ?_
  rw [indexPath_of_isFolderName h, Path.stops_append, List.mem_append] at hstop
  rcases hstop with hbase | hend
  · exact Disk.onWay_of_mem_stops hbase
  · rw [List.mem_singleton.mp hend]
    exact Disk.onWay_target _ _

/-- **Saving does the same on both disks**, if the store needs none of the places of surplus files for a folder. -/
theorem respects_save {ν : Type} [Symbol.Name ν] (documents symbols : Json) (outlines : List (String × List (Outline ν))) :
    Respects site (Disk.Exceeds surplus) (store.save workspace documents symbols outlines texts) := by
  have hmake : Respects site (Disk.Exceeds surplus) (makeFolders (store.contentFolder workspace)) := by
    obtain ⟨entry, hentry⟩ := List.exists_mem_of_ne_nil texts hsome
    have hfile : entry.1 ∈ texts.map Prod.fst := List.mem_map_of_mem hentry
    exact respects_change (Disk.respects_makeFolders fun place bytes hplace hway =>
      hclear place bytes hplace _ hfile (mem_wayTo_of_contentFolder h (hplain _ hfile) hway))
  have hlog : Respects site (Disk.Exceeds surplus) (logSaved workspace documents symbols) :=
    (respects_ofExcept _ _).bind fun _ => (respects_ofExcept _ _).bind fun _ => respects_log _
  refine (respects_ofExcept _ _).bind fun _ => respects_read.bind fun _ => (respects_writeSnapshot h hplain hclear hsome _ _).bind fun _ => hmake.bind fun _ => ?_
  exact (respects_writeDocuments h hplain hclear).bind fun _ => hlog.bind fun _ => respects_pure _

end

end Store

end DocOutline
