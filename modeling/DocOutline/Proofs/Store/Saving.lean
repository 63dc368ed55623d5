import DocOutline.Proofs.Disk.Folders
import DocOutline.Proofs.Json.RoundTrip
import DocOutline.Proofs.Outline.Stored
import DocOutline.Proofs.Store.Actions
import DocOutline.Proofs.Store.Places

/-!
# What saving does to the disk

Saving a workspace changes nothing but at the workspace's own places, whether it succeeds or not (`alters_saveWithin`): the
folders it makes lie below the folder with the texts, since the store itself is there by then. When it has succeeded the
file with the snapshot and the texts are there (`saveWithin_ok`).
-/

namespace DocOutline

namespace Store

variable {store : Store} {folder place : Place} {disk disk' disk'' : Disk} {allowed allowed' : Place → Prop}
  {workspace file text : String}

/-- Whether the folder of a store is there and can be reached. -/
structure IsOpen (store : Store) (folder : Place) (disk : Disk) : Prop where
  passable : disk.IsPassable (store.base.start folder) store.base.parts
  isFolder : disk.item? (store.basePlace folder) = some .folder

theorem IsOpen.changesOnly (h : store.IsOpen folder disk) (hchanges : disk.ChangesOnly allowed disk') :
    store.IsOpen folder disk' :=
  ⟨hchanges.isPassable h.passable, hchanges.folders _ h.isFolder⟩

/-- The way to what is called `name` in the store is passable when the store is open. -/
theorem isPassable_join_base {name : String} (h : Path.IsName name) :
    disk.IsPassable ((store.base.join name).start folder) (store.base.join name).parts ↔ store.IsOpen folder disk := by
  rw [join_base_eq h, Disk.isPassable_append]
  constructor
  · exact fun h => ⟨h.1, h.2 _ (.head _)⟩
  · refine fun h => ⟨h.passable, fun stop hstop => ?_⟩
    rw [List.mem_singleton.mp hstop]
    exact h.isFolder

theorem IsOpen.isPassable_indexPath (hopen : store.IsOpen folder disk) (h : Path.IsName workspace) :
    disk.IsPassable ((store.indexPath workspace).start folder) (store.indexPath workspace).parts :=
  (isPassable_join_base (isName_append_json h)).mpr hopen

theorem IsOpen.exists?_indexPath (hopen : store.IsOpen folder disk) (h : Path.IsName workspace)
    (hfits : (store.indexPath workspace).Fits) :
    disk.exists? folder (store.indexPath workspace) = .ok (disk.item? (store.indexPlace folder workspace)).isSome := by
  rw [Disk.exists?, Disk.look?_of_isPassable hfits (hopen.isPassable_indexPath h) (parts_indexPath_ne_nil h),
    target_indexPath h]
  rfl

/-- Whether a disk has become another one by changes at `allowed` places alone, provided the store was open. -/
def Alters (store : Store) (folder : Place) (allowed : Place → Prop) (disk disk' : Disk) : Prop :=
  store.IsOpen folder disk → disk.ChangesOnly allowed disk'

theorem Alters.refl (store : Store) (folder : Place) (allowed : Place → Prop) (disk : Disk) :
    store.Alters folder allowed disk disk := fun _ => .refl _ _

theorem Alters.trans (h : store.Alters folder allowed disk disk') (h' : store.Alters folder allowed disk' disk'') :
    store.Alters folder allowed disk disk'' := fun hopen =>
  (h hopen).trans (h' (hopen.changesOnly (h hopen)))

/-! ## Folders for texts -/

/-- What is on the way to a store that is open, and the store itself, are folders. -/
theorem IsOpen.isFolder_of_isPrefix (h : store.IsOpen folder disk) {parts : List String}
    (hbefore : parts <+: store.base.parts) : disk.item? (Path.follow (store.base.start folder) parts) = some .folder := by
  obtain ⟨rest, hrest⟩ := hbefore
  cases rest with
  | nil =>
    rw [List.append_nil] at hrest
    rw [hrest]
    exact h.isFolder
  | cons part rest =>
    refine h.passable _ ?_
    rw [← hrest, Path.stops_append]
    exact List.mem_append_right _ (.head _)

/-- Making folders for texts makes them where the texts of the workspace are. -/
theorem alters_makeFolders {parts : List String} (hparts : ".." ∉ workspace :: parts) (disk : Disk) :
    store.Alters folder (store.IsContentPlace folder workspace) disk
      (Disk.makeFolders folder ⟨store.base.root, store.base.parts ++ workspace :: parts⟩ disk).2 := by
  intro hopen
  refine .of_grows ((Disk.grows_makeFolders folder _ disk).mono ?_)
  rintro place ⟨way, hway, rfl⟩ hnone
  have hnew (hbase : way <+: store.base.parts) : False := by
    have hfolder := hopen.isFolder_of_isPrefix hbase
    exact absurd (hfolder.symm.trans hnone) nofun
  rcases List.prefix_or_prefix_of_prefix hway (List.prefix_append _ _) with hbase | ⟨more, rfl⟩
  · exact (hnew hbase).elim
  rw [List.prefix_append_right_inj] at hway
  cases more with
  | nil => exact (hnew (by simp)).elim
  | cons name more =>
    obtain ⟨rfl, hmore⟩ := List.cons_prefix_cons.mp hway
    have hplain : ".." ∉ name :: more := fun h => hparts ((List.cons_prefix_cons.mpr ⟨rfl, hmore⟩).subset h)
    change store.IsContentPlace folder name (Path.follow (store.base.start folder) (store.base.parts ++ name :: more))
    rw [Path.follow_append, Path.follow_of_plain hplain]
    exact ⟨more, by simp [basePlace, Path.target]⟩

/-! ## Texts -/

section

variable {site : Site} {world world' : World} {texts : List (String × String)}

theorem alters_makeContentFolder (h : Path.IsName workspace) (world : World) :
    store.Alters site.folder (store.IsContentPlace site.folder workspace) world.disk
      (Action.makeFolders (store.contentFolder workspace) site world).2.disk := by
  rw [Action.makeFolders_apply, contentFolder_eq h]
  exact alters_makeFolders (by simpa using Ne.symm h.2.2.2) world.disk

/-- Whether a list of texts names each document once, and each by a plain path. -/
structure ArePlain (texts : List (String × String)) : Prop where
  plain : ∀ file ∈ texts.map Prod.fst, Path.IsPlain file
  nodup : (texts.map Prod.fst).Nodup

/-- The folder in which the text of a document lies. -/
theorem parent_join_contentFolder (h : Path.IsName workspace) (hfile : Path.IsPlain file) :
    ((store.contentFolder workspace).join file).parent =
      ⟨store.base.root, store.base.parts ++ workspace :: (Path.names file).dropLast⟩ := by
  rw [join_contentFolder_eq h hfile, Path.parent]
  congr 1
  rw [List.dropLast_append_of_ne_nil (List.cons_ne_nil _ _), List.dropLast_cons_of_ne_nil hfile.names_ne_nil]

/-- Storing a text changes nothing but where the texts of its workspace are. -/
theorem alters_writeDocument (h : Path.IsName workspace) (hfile : Path.IsPlain file) (text : String)
    (world : World) :
    store.Alters site.folder (store.IsContentPlace site.folder workspace) world.disk
      (writeDocument (store.contentFolder workspace) file text site world).2.disk := by
  have hparent : ".." ∉ workspace :: (Path.names file).dropLast := fun hmem =>
    not_mem_cons_names h hfile (List.mem_cons.mpr ((List.mem_cons.mp hmem).imp_right (List.dropLast_subset _ ·)))
  refine Action.bind_disk .trans (fun world => ?_) (fun _ world => ?_) world
  · rw [Action.makeFolders_apply, parent_join_contentFolder h hfile]
    exact alters_makeFolders hparent world.disk
  · rw [Action.writeFile_apply]
    split
    · next disk' hwrite =>
      obtain ⟨-, -, -, hitem, rfl⟩ := Disk.write_eq_ok.mp hwrite
      rw [target_join_contentFolder h hfile] at hitem ⊢
      exact fun _ => (Disk.ChangesOnly.put_file hitem).mono fun place hplace => hplace ▸ isContentPlace_documentPlace
    · exact .refl _ _ _ _

theorem writeDocuments_cons (file text : String) (texts : List (String × String)) :
    store.writeDocuments workspace ((file, text) :: texts) =
      (writeDocument (store.contentFolder workspace) file text >>= fun _ => store.writeDocuments workspace texts) := rfl

theorem alters_writeDocuments (h : Path.IsName workspace) (hplain : ∀ file ∈ texts.map Prod.fst, Path.IsPlain file)
    (world : World) :
    store.Alters site.folder (store.IsContentPlace site.folder workspace) world.disk
      (store.writeDocuments workspace texts site world).2.disk := by
  induction texts generalizing world with
  | nil => exact .refl _ _ _ _
  | cons entry texts ih =>
    obtain ⟨file, text⟩ := entry
    rw [List.map_cons, List.forall_mem_cons] at hplain
    rw [writeDocuments_cons]
    exact Action.bind_disk .trans (alters_writeDocument h hplain.1 text) (fun _ => ih hplain.2) world

/-- Whether bytes are one of some texts of a workspace, at the place of its document. -/
def IsTextAt (store : Store) (folder : Place) (workspace : String) (texts : List (String × String)) (place : Place)
    (bytes : Text.Bytes) : Prop :=
  ∃ file text, (file, text) ∈ texts ∧ place = ((store.contentFolder workspace).join file).target folder ∧
    bytes = Text.encode text

/-- Storing a text makes folders and writes the text, if it writes anything. -/
theorem writes_writeDocument (htext : (file, text) ∈ texts) (world : World) :
    world.disk.Writes (store.IsTextAt site.folder workspace texts)
      (writeDocument (store.contentFolder workspace) file text site world).2.disk := by
  refine Action.bind_disk .trans (fun world => ?_) (fun _ world => ?_) world
  · rw [Action.makeFolders_apply]
    exact .of_grows (Disk.grows_makeFolders _ _ _)
  · rw [Action.writeFile_apply]
    split
    · next hwrite =>
      obtain ⟨-, -, -, hfree, rfl⟩ := Disk.write_eq_ok.mp hwrite
      exact (Disk.Writes.put_file hfree).mono fun place bytes hput => ⟨file, text, htext, hput⟩
    · exact .refl _ _

theorem writes_writeDocuments {stored : List (String × String)} (h : stored ⊆ texts) (world : World) :
    world.disk.Writes (store.IsTextAt site.folder workspace texts)
      (store.writeDocuments workspace stored site world).2.disk := by
  induction stored generalizing world with
  | nil => exact .refl _ _
  | cons entry stored ih =>
    obtain ⟨file, text⟩ := entry
    obtain ⟨hfirst, hrest⟩ := List.cons_subset.mp h
    rw [writeDocuments_cons]
    exact Action.bind_disk .trans (writes_writeDocument hfirst) (fun _ => ih hrest) world

/-- Whether the text of a document is where it can be read. -/
structure HoldsText (store : Store) (folder : Place) (workspace : String) (disk : Disk) (file text : String) : Prop where
  fits : ((store.contentFolder workspace).join file).Fits
  passable : disk.IsPassable (((store.contentFolder workspace).join file).start folder)
    ((store.contentFolder workspace).join file).parts
  item : disk.item? (((store.contentFolder workspace).join file).target folder) = some (.file (Text.encode text))

/-- A text that was stored is there. -/
theorem writeDocument_ok
    (h : writeDocument (store.contentFolder workspace) file text site world = (.ok (), world')) :
    store.HoldsText site.folder workspace world'.disk file text := by
  obtain ⟨-, middle, -, hwrite⟩ := Action.bind_ok.mp h
  rw [Action.writeFile_apply] at hwrite
  split at hwrite
  · next disk' hdisk =>
    cases hwrite
    obtain ⟨hfits, hpassable, -, hitem, rfl⟩ := Disk.write_eq_ok.mp hdisk
    refine ⟨hfits, (Disk.ChangesOnly.put_file hitem).isPassable hpassable, Disk.item?_put ?_⟩
    intro hroot
    rw [hroot] at hitem
    exact hitem Disk.item?_nil
  · cases hwrite

/-- Texts that were stored are there. Each one stays while those behind it are stored, since its place is not theirs. -/
theorem writeDocuments_ok (h : Path.IsName workspace) (hplain : ArePlain texts)
    (hrun : store.writeDocuments workspace texts site world = (.ok (), world')) :
    ∀ file text, (file, text) ∈ texts → store.HoldsText site.folder workspace world'.disk file text := by
  induction texts generalizing world with
  | nil => exact nofun
  | cons entry texts ih =>
    obtain ⟨first, firstText⟩ := entry
    obtain ⟨hfiles, hnodup⟩ := hplain
    rw [List.map_cons, List.forall_mem_cons] at hfiles
    rw [List.map_cons, List.nodup_cons] at hnodup
    rw [writeDocuments_cons] at hrun
    obtain ⟨⟨⟩, middle, hfirst, hrest⟩ := Action.bind_ok.mp hrun
    have hwrites : middle.disk.Writes (store.IsTextAt site.folder workspace texts)
        (store.writeDocuments workspace texts site middle).2.disk := writes_writeDocuments (List.Subset.refl _) middle
    rw [hrest] at hwrites
    rintro file text (_ | ⟨_, hmem⟩)
    · obtain ⟨hfits, hpassable, hitem⟩ := writeDocument_ok hfirst
      refine ⟨hfits, hwrites.keeps.isPassable hpassable, hwrites.keeps.stays hitem ?_⟩
      rintro ⟨_, other, _, hother, hplace, -⟩
      have hother : other ∈ texts.map Prod.fst := List.mem_map_of_mem (f := Prod.fst) hother
      rw [target_join_contentFolder h hfiles.1, target_join_contentFolder h (hfiles.2 other hother), documentPlace,
        documentPlace, List.append_cancel_left_eq, List.cons.injEq] at hplace
      exact hnodup.1 (hfiles.1.eq_of_names_eq (hfiles.2 other hother) hplace.2 ▸ hother)
    · exact ih ⟨hfiles.2, hnodup.2⟩ hrest file text hmem

/-! ## Snapshots -/

variable {limit : Limit} {snapshot : Snapshot}

/-- Whether the file with the snapshot of a workspace can be written. -/
structure TakesIndex (store : Store) (folder : Place) (workspace : String) (disk : Disk) : Prop where
  fits : (store.indexPath workspace).Fits
  opened : store.IsOpen folder disk
  free : disk.item? (store.indexPlace folder workspace) ≠ some .folder

/-- A snapshot is written only if the store is open, and at the place of its workspace. -/
theorem write_indexPath_eq_ok (h : Path.IsName workspace) {bytes : Text.Bytes} :
    Disk.write folder (store.indexPath workspace) bytes disk = .ok disk' ↔
      store.TakesIndex folder workspace disk ∧ disk' = disk.put (store.indexPlace folder workspace) (.file bytes) := by
  have hpassable : disk.IsPassable ((store.indexPath workspace).start folder) (store.indexPath workspace).parts ↔
      store.IsOpen folder disk := isPassable_join_base (isName_append_json h)
  rw [Disk.write_eq_ok, hpassable, target_indexPath h]
  constructor
  · rintro ⟨hfits, hopen, -, hfree, rfl⟩
    exact ⟨⟨hfits, hopen, hfree⟩, rfl⟩
  · rintro ⟨⟨hfits, hopen, hfree⟩, rfl⟩
    exact ⟨hfits, hopen, parts_indexPath_ne_nil h, hfree, rfl⟩

/-- A world after what was written of a snapshot has been put at the place of its workspace. -/
def withIndex (limit : Limit) (store : Store) (folder : Place) (workspace : String) (snapshot : Snapshot) (world : World) :
    World :=
  { world with
    disk := world.disk.put (store.indexPlace folder workspace)
      (.file (Text.encode (String.ofList (snapshot.draft limit).text))) }

theorem changesOnly_withIndex (limit : Limit) (h : store.TakesIndex folder workspace world.disk) (snapshot : Snapshot) :
    world.disk.ChangesOnly (· = store.indexPlace folder workspace)
      (store.withIndex limit folder workspace snapshot world).disk := .put_file h.free

/-- What is written of a snapshot is put at the place of its workspace, even if it is not all of the snapshot. -/
theorem writeSnapshot_of_takesIndex (limit : Limit) (h : Path.IsName workspace)
    (htakes : store.TakesIndex site.folder workspace world.disk) (snapshot : Snapshot) :
    store.writeSnapshot limit workspace snapshot site world =
      (match (snapshot.draft limit).stop? with
        | none => .ok ()
        | some stop => .error (.access (stopFault stop)), store.withIndex limit site.folder workspace snapshot world) := by
  have hwrite : Action.writeFile (store.indexPath workspace)
      (Text.encode (String.ofList (snapshot.draft limit).text)) site world =
      (.ok (), store.withIndex limit site.folder workspace snapshot world) := by
    rw [Action.writeFile_apply, (write_indexPath_eq_ok h).mpr ⟨htakes, rfl⟩]
    rfl
  rw [writeSnapshot, Action.bind_of_ok _ hwrite, Action.access_apply]
  cases (snapshot.draft limit).stop? <;> rfl

/-- Nothing changes when the file with a snapshot cannot be written. -/
theorem writeSnapshot_of_not_takesIndex (limit : Limit) (h : Path.IsName workspace)
    (htakes : ¬ store.TakesIndex site.folder workspace world.disk) (snapshot : Snapshot) :
    ∃ fault, store.writeSnapshot limit workspace snapshot site world = (.error fault, world) := by
  match hwrite : Disk.write site.folder (store.indexPath workspace)
      (Text.encode (String.ofList (snapshot.draft limit).text)) world.disk with
  | .ok disk => exact absurd ((write_indexPath_eq_ok h).mp hwrite).1 htakes
  | .error error =>
    refine ⟨.disk error, ?_⟩
    rw [writeSnapshot]
    exact Action.bind_of_error _ (by rw [Action.writeFile_apply, hwrite])

/-- Whether a snapshot of a workspace is where it can be read. -/
structure IsIndexed (store : Store) (folder : Place) (workspace : String) (snapshot : Snapshot) (disk : Disk) : Prop where
  fits : (store.indexPath workspace).Fits
  index : disk.item? (store.indexPlace folder workspace) = some (.file (Text.encode snapshot.toJson.pretty))
  digits : snapshot.toJson.Forall Json.HasFewDigits

/-- A snapshot that was written to its end is where it belongs. -/
theorem isIndexed_withIndex (htakes : store.TakesIndex folder workspace world.disk)
    (hcomplete : (snapshot.draft limit).complete = true) :
    store.IsIndexed folder workspace snapshot (store.withIndex limit folder workspace snapshot world).disk := by
  obtain ⟨htext, hdigits⟩ := Json.draft_complete limit .pretty 0 snapshot.toJson hcomplete
  refine ⟨htakes.fits, ?_, hdigits⟩
  rw [withIndex, Disk.item?_put indexPlace_ne_nil, Snapshot.draft, htext]
  rfl

/-- A snapshot stays where it is while only texts change. -/
theorem IsIndexed.changesOnly (hindexed : store.IsIndexed folder workspace snapshot disk)
    (hchanges : disk.ChangesOnly (store.IsContentPlace folder workspace) disk') :
    store.IsIndexed folder workspace snapshot disk' :=
  ⟨hindexed.fits, (hchanges.elsewhere _ not_isContentPlace_own).trans hindexed.index, hindexed.digits⟩

/-! ## Saving -/

variable {ν : Type} {limits : Limits} {documents symbols : Json} {outlines : List (String × List (Outline ν))}

theorem disk_logSaved (workspace : String) (documents symbols : Json) (world : World) :
    world.disk = (logSaved workspace documents symbols site world).2.disk := by
  refine Action.bind_disk .trans (fun world => by rw [Action.access_apply]) (fun _ world => ?_) world
  exact Action.bind_disk .trans (fun world => by rw [Action.access_apply]) (fun _ _ => rfl) world

/-- Only what has a size is counted. -/
theorem logSaved_ok (hrun : logSaved workspace documents symbols site world = (.ok (), world')) :
    ∃ documentCount symbolCount, documents.size = .ok documentCount ∧ symbols.size = .ok symbolCount := by
  obtain ⟨documentCount, _, hdocuments, hrest⟩ := Action.bind_ok.mp hrun
  obtain ⟨symbolCount, _, hsymbols, -⟩ := Action.bind_ok.mp hrest
  exact ⟨documentCount, symbolCount, (Action.access_ok.mp hdocuments).1, (Action.access_ok.mp hsymbols).1⟩

/-- What comes after the file with a snapshot has been written: the texts are stored. -/
def saveTexts (store : Store) (workspace : String) (snapshot : Snapshot) (texts : List (String × String)) :
    Action Snapshot := do
  Action.makeFolders (store.contentFolder workspace)
  store.writeDocuments workspace texts
  logSaved workspace snapshot.documents snapshot.symbols
  return snapshot

/-- Storing the texts changes nothing but where the texts of the workspace are. -/
theorem alters_saveTexts (h : Path.IsName workspace) (hplain : ∀ file ∈ texts.map Prod.fst, Path.IsPlain file)
    (snapshot : Snapshot) (world : World) :
    store.Alters site.folder (store.IsContentPlace site.folder workspace) world.disk
      (store.saveTexts workspace snapshot texts site world).2.disk := by
  unfold saveTexts
  refine Action.bind_disk .trans (fun world => ?_) (fun _ world => ?_) world
  · exact alters_makeContentFolder h world
  refine Action.bind_disk .trans (fun world => alters_writeDocuments h hplain world) (fun _ world => ?_) world
  refine Action.bind_disk .trans (fun world => ?_) (fun _ _ => .refl _ _ _ _) world
  rw [← disk_logSaved]
  exact .refl _ _ _ _

/-- However far storing the texts comes, it makes folders and writes texts. -/
theorem writes_saveTexts (snapshot : Snapshot) (texts : List (String × String)) (world : World) :
    world.disk.Writes (store.IsTextAt site.folder workspace texts)
      (store.saveTexts workspace snapshot texts site world).2.disk := by
  unfold saveTexts
  refine Action.bind_disk .trans (fun world => ?_) (fun _ world => ?_) world
  · rw [Action.makeFolders_apply]
    exact .of_grows (Disk.grows_makeFolders _ _ _)
  refine Action.bind_disk .trans (writes_writeDocuments (List.Subset.refl _)) (fun _ world => ?_) world
  refine Action.bind_disk .trans (fun world => ?_) (fun _ _ => .refl _ _) world
  rw [← disk_logSaved]
  exact .refl _ _

/-- Texts that were stored are there. -/
theorem saveTexts_ok (h : Path.IsName workspace) (htexts : ArePlain texts) {result : Snapshot}
    (hrun : store.saveTexts workspace snapshot texts site world = (.ok result, world')) :
    result = snapshot ∧
      (∃ documents symbols, snapshot.documents.size = .ok documents ∧ snapshot.symbols.size = .ok symbols) ∧
      ∀ file text, (file, text) ∈ texts → store.HoldsText site.folder workspace world'.disk file text := by
  obtain ⟨⟨⟩, made, -, hrun⟩ := Action.bind_ok.mp hrun
  obtain ⟨⟨⟩, stored, hstore, hrun⟩ := Action.bind_ok.mp hrun
  obtain ⟨⟨⟩, logged, hlog, hreturn⟩ := Action.bind_ok.mp hrun
  cases hreturn
  have hdisk : stored.disk = (logSaved workspace snapshot.documents snapshot.symbols site stored).2.disk :=
    disk_logSaved _ _ _ _
  rw [hlog] at hdisk
  exact ⟨rfl, logSaved_ok hlog, hdisk ▸ writeDocuments_ok h htexts hstore⟩

/-- Without limits all outlines have their stored forms. -/
@[simp] theorem canStore_none (outlines : List (String × List (Outline ν))) : canStore none outlines = true := by
  simp [canStore]

/-- How a save goes. -/
inductive Saves (limits : Limits) (store : Store) (site : Site) (workspace : String) (snapshot : Snapshot)
    (outlines : List (String × List (Outline ν))) (texts : List (String × String)) (world : World) :
    Except Fault Snapshot × World → Prop
  /-- It has no effect, since the outlines are nested too deep. -/
  | deep (hstore : canStore limits.store outlines = false) :
      Saves limits store site workspace snapshot outlines texts world (.error (.access .tooDeep), world)
  /-- It has no effect, since the file with the snapshot cannot be written. -/
  | barred (fault : Fault) (htakes : ¬ store.TakesIndex site.folder workspace world.disk) :
      Saves limits store site workspace snapshot outlines texts world (.error fault, world)
  /-- It ends where writing the snapshot stops. -/
  | stopped (stop : Json.Stop) (htakes : store.TakesIndex site.folder workspace world.disk)
      (hstop : (snapshot.draft limits.write).stop? = some stop) :
      Saves limits store site workspace snapshot outlines texts world
        (.error (.access (stopFault stop)), store.withIndex limits.write site.folder workspace snapshot world)
  /-- It goes on with the texts once the snapshot is written. -/
  | goesOn (htakes : store.TakesIndex site.folder workspace world.disk) (hcomplete : (snapshot.draft limits.write).complete = true) :
      Saves limits store site workspace snapshot outlines texts world
        (store.saveTexts workspace snapshot texts site (store.withIndex limits.write site.folder workspace snapshot world))

/-- A save that gives a result has gone on to the texts. -/
theorem Saves.of_ok {result : Snapshot} (h : store.Saves limits site workspace snapshot outlines texts world (.ok result, world')) :
    store.TakesIndex site.folder workspace world.disk ∧ (snapshot.draft limits.write).complete = true ∧
      store.saveTexts workspace snapshot texts site (store.withIndex limits.write site.folder workspace snapshot world) =
        (.ok result, world') := by
  generalize houtcome : ((.ok result, world') : Except Fault Snapshot × World) = outcome at h
  cases h with
  | deep | barred | stopped => cases houtcome
  | goesOn htakes hcomplete => exact ⟨htakes, hcomplete, rfl⟩

variable [Symbol.Name ν]

/-- Nothing is saved if the outlines are nested too deep for their stored forms. -/
theorem saveWithin_of_canStore_eq_false (hstore : canStore limits.store outlines = false) (documents symbols : Json) (world : World) :
    store.saveWithin limits workspace documents symbols outlines texts site world = (.error (.access .tooDeep), world) := by
  rw [saveWithin, hstore]
  exact Action.bind_of_error _ rfl

/-- Saving, step by step, once the outlines have their stored forms. -/
theorem saveWithin_apply (hstore : canStore limits.store outlines = true) (world : World) :
    store.saveWithin limits workspace documents symbols outlines texts site world =
      (do
        store.writeSnapshot limits.write workspace ⟨.str workspace, .str site.now, documents, symbols, outlinesJson outlines⟩
        store.saveTexts workspace ⟨.str workspace, .str site.now, documents, symbols, outlinesJson outlines⟩ texts) site world := by
  rw [saveWithin, hstore, if_pos rfl, Action.bind_of_ok _ (Action.access_ok.mpr ⟨rfl, rfl⟩), Action.bind_of_ok _ Action.read_apply]
  rfl

/-- **A save goes in one of these ways.** -/
theorem saves_saveWithin (limits : Limits) (store : Store) (h : Path.IsName workspace)
    (hsnapshot : snapshot = ⟨.str workspace, .str site.now, documents, symbols, outlinesJson outlines⟩)
    (texts : List (String × String)) (world : World) :
    store.Saves limits site workspace snapshot outlines texts world
      (store.saveWithin limits workspace documents symbols outlines texts site world) := by
  match hstore : canStore limits.store outlines with
  | false =>
    rw [saveWithin_of_canStore_eq_false hstore]
    exact .deep hstore
  | true =>
    rw [saveWithin_apply hstore, ← hsnapshot]
    by_cases htakes : store.TakesIndex site.folder workspace world.disk
    · have hwrite := writeSnapshot_of_takesIndex limits.write h htakes snapshot
      match hstop : (snapshot.draft limits.write).stop? with
      | none =>
        rw [hstop] at hwrite
        rw [Action.bind_of_ok _ hwrite]
        exact .goesOn htakes (by rw [Json.Draft.complete, hstop]; rfl)
      | some stop =>
        rw [hstop] at hwrite
        rw [Action.bind_of_error _ hwrite]
        exact .stopped stop htakes hstop
    · obtain ⟨fault, hwrite⟩ := writeSnapshot_of_not_takesIndex limits.write h htakes snapshot
      rw [Action.bind_of_error _ hwrite]
      exact .barred fault htakes

/-- A save whose snapshot is written goes on with the texts. -/
theorem saveWithin_of_complete (h : Path.IsName workspace) (htakes : store.TakesIndex site.folder workspace world.disk)
    (hsnapshot : snapshot = ⟨.str workspace, .str site.now, documents, symbols, outlinesJson outlines⟩)
    (hstore : canStore limits.store outlines = true) (hcomplete : (snapshot.draft limits.write).complete = true)
    (texts : List (String × String)) :
    store.saveWithin limits workspace documents symbols outlines texts site world =
      store.saveTexts workspace snapshot texts site (store.withIndex limits.write site.folder workspace snapshot world) := by
  have hwrite := writeSnapshot_of_takesIndex limits.write h htakes snapshot
  rw [Option.isNone_iff_eq_none.mp hcomplete] at hwrite
  rw [saveWithin_apply hstore, ← hsnapshot, Action.bind_of_ok _ hwrite]

/-- **Saving changes nothing but at the places of the workspace**, whether it succeeds or not. -/
theorem alters_saveWithin (limits : Limits) (h : Path.IsName workspace) (hplain : ∀ file ∈ texts.map Prod.fst, Path.IsPlain file)
    (documents symbols : Json) (outlines : List (String × List (Outline ν))) (world : World) :
    store.Alters site.folder (store.IsPlaceOf site.folder workspace) world.disk
      (store.saveWithin limits workspace documents symbols outlines texts site world).2.disk := by
  intro hopen
  generalize hsnapshot : (⟨.str workspace, .str site.now, documents, symbols, outlinesJson outlines⟩ : Snapshot) = snapshot
  have hwritten (htakes : store.TakesIndex site.folder workspace world.disk) :
      world.disk.ChangesOnly (store.IsPlaceOf site.folder workspace)
        (store.withIndex limits.write site.folder workspace snapshot world).disk :=
    (changesOnly_withIndex _ htakes snapshot).mono fun _ => .inl
  have hsaves := saves_saveWithin limits store h hsnapshot.symm texts world
  generalize store.saveWithin limits workspace documents symbols outlines texts site world = result at hsaves ⊢
  cases hsaves with
  | deep | barred => exact .refl _ _
  | stopped _ htakes => exact hwritten htakes
  | goesOn htakes =>
    have hopen' := hopen.changesOnly (hwritten htakes)
    exact (hwritten htakes).trans ((alters_saveTexts h hplain snapshot _ hopen').mono fun _ => .inr)

/-- **All that saving writes** is the file with the snapshot and the texts, whether it succeeds or not. -/
theorem writes_saveWithin (limits : Limits) (h : Path.IsName workspace) (documents symbols : Json) (outlines : List (String × List (Outline ν)))
    (texts : List (String × String)) (world : World) :
    world.disk.Writes
      (fun place bytes => place = store.indexPlace site.folder workspace ∨
        store.IsTextAt site.folder workspace texts place bytes)
      (store.saveWithin limits workspace documents symbols outlines texts site world).2.disk := by
  generalize hsnapshot : (⟨.str workspace, .str site.now, documents, symbols, outlinesJson outlines⟩ : Snapshot) = snapshot
  have hwritten (htakes : store.TakesIndex site.folder workspace world.disk) :
      world.disk.Writes
        (fun place bytes => place = store.indexPlace site.folder workspace ∨
          store.IsTextAt site.folder workspace texts place bytes)
        (store.withIndex limits.write site.folder workspace snapshot world).disk :=
    (Disk.Writes.put_file htakes.free).mono fun _ _ hput => .inl hput.1
  have hsaves := saves_saveWithin limits store h hsnapshot.symm texts world
  generalize store.saveWithin limits workspace documents symbols outlines texts site world = result at hsaves ⊢
  cases hsaves with
  | deep | barred => exact .refl _ _
  | stopped _ htakes => exact hwritten htakes
  | goesOn htakes => exact (hwritten htakes).trans ((writes_saveTexts snapshot texts _).mono fun _ _ => .inr)

/-- Whether a snapshot of a workspace and its texts are where they can be read. -/
structure IsStored (store : Store) (folder : Place) (workspace : String) (snapshot : Snapshot)
    (texts : List (String × String)) (disk : Disk) : Prop extends store.IsIndexed folder workspace snapshot disk where
  sized : ∃ documents symbols, snapshot.documents.size = .ok documents ∧ snapshot.symbols.size = .ok symbols
  texts : ∀ file text, (file, text) ∈ texts → store.HoldsText folder workspace disk file text

/-- A save that succeeds finds the store open. -/
theorem takesIndex_of_saveWithin (h : Path.IsName workspace)
    (hrun : store.saveWithin limits workspace documents symbols outlines texts site world = (.ok snapshot, world')) :
    store.TakesIndex site.folder workspace world.disk :=
  (Saves.of_ok (hrun ▸ saves_saveWithin limits store h rfl texts world)).1

/-- **What was saved is there.** -/
theorem saveWithin_ok (h : Path.IsName workspace) (htexts : ArePlain texts)
    (hrun : store.saveWithin limits workspace documents symbols outlines texts site world = (.ok snapshot, world')) :
    snapshot = ⟨.str workspace, .str site.now, documents, symbols, outlinesJson outlines⟩ ∧
      store.IsOpen site.folder world'.disk ∧ store.IsStored site.folder workspace snapshot texts world'.disk := by
  generalize hsaved : (⟨.str workspace, .str site.now, documents, symbols, outlinesJson outlines⟩ : Snapshot) = saved
  obtain ⟨htakes, hcomplete, hrest⟩ := Saves.of_ok (hrun ▸ saves_saveWithin limits store h hsaved.symm texts world)
  have hopen := htakes.opened.changesOnly (changesOnly_withIndex limits.write htakes saved)
  have hchanges := alters_saveTexts h htexts.plain saved (store.withIndex limits.write site.folder workspace saved world) hopen
  rw [hrest] at hchanges
  obtain ⟨rfl, hsized, htexts⟩ := saveTexts_ok h htexts hrest
  exact ⟨rfl, hopen.changesOnly hchanges, (isIndexed_withIndex htakes hcomplete).changesOnly hchanges, hsized, htexts⟩

end

end Store

end DocOutline
