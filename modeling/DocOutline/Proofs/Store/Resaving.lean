import DocOutline.Proofs.Store.Saving

/-!
# Saving again

What was saved can be saved once more, at any time (`save_of_isStored`): all folders are there, and where a file is written
there is one already. The time of a snapshot does not matter to whether it can be written, since it is a text.
-/

namespace DocOutline.Store

variable {store : Store} {site : Site} {world world' : World} {disk disk' : Disk} {folder : Place}
  {workspace file text : String} {texts : List (String × String)} {snapshot : Snapshot}

/-- Whether there is a file at the place for the text of a document. -/
structure HasFile (store : Store) (folder : Place) (workspace : String) (disk : Disk) (file : String) : Prop where
  fits : ((store.contentFolder workspace).join file).Fits
  passable : disk.IsPassable (((store.contentFolder workspace).join file).start folder)
    ((store.contentFolder workspace).join file).parts
  item : ∃ bytes, disk.item? (((store.contentFolder workspace).join file).target folder) = some (.file bytes)

theorem HoldsText.hasFile (h : store.HoldsText folder workspace disk file text) : store.HasFile folder workspace disk file :=
  ⟨h.fits, h.passable, _, h.item⟩

/-- Files stay when others are written. -/
theorem HasFile.writes {written : Place → Text.Bytes → Prop} (h : store.HasFile folder workspace disk file)
    (hwrites : disk.Writes written disk') : store.HasFile folder workspace disk' file := by
  obtain ⟨bytes, hitem⟩ := h.item
  refine ⟨h.fits, hwrites.keeps.isPassable h.passable, ?_⟩
  rcases hwrites.files hitem with hkept | ⟨content, -, hcontent⟩
  · exact ⟨bytes, hkept⟩
  · exact ⟨content, hcontent⟩

/-! ## Texts -/

/-- The folder with the texts of a workspace is there if there is a text in it. -/
theorem makeContentFolder_of_hasFile (h : Path.IsName workspace) (hplain : Path.IsPlain file)
    (hfile : store.HasFile site.folder workspace world.disk file) :
    Action.makeFolders (store.contentFolder workspace) site world = (.ok (), world) := by
  obtain ⟨hfits, hpassable, -⟩ := hfile
  obtain ⟨name, more, hnames⟩ := List.exists_cons_of_ne_nil hplain.names_ne_nil
  have hparts : store.base.parts ++ workspace :: Path.names file = (store.base.parts ++ [workspace]) ++ name :: more := by
    simp [hnames]
  rw [join_contentFolder_eq h hplain, hparts] at hfits hpassable
  rw [Action.makeFolders_apply, contentFolder_eq h, Disk.makeFolders_of_isPassable hfits hpassable]
  rfl

/-- A text takes the place of another one. -/
theorem writeDocument_of_hasFile (h : Path.IsName workspace) (hplain : Path.IsPlain file)
    (hfile : store.HasFile site.folder workspace world.disk file) (text : String) :
    ∃ world', writeDocument (store.contentFolder workspace) file text site world = (.ok (), world') := by
  obtain ⟨hfits, hpassable, bytes, hitem⟩ := hfile
  have hpath : (store.contentFolder workspace).join file = _ := join_contentFolder_eq h hplain
  have hparts : store.base.parts ++ workspace :: Path.names file =
      (store.base.parts ++ workspace :: (Path.names file).dropLast) ++ [(Path.names file).getLast hplain.names_ne_nil] := by
    rw [List.append_assoc, List.cons_append, List.dropLast_concat_getLast]
  have hfolders : Action.makeFolders ((store.contentFolder workspace).join file).parent site world = (.ok (), world) := by
    rw [hpath, hparts] at hfits hpassable
    rw [Action.makeFolders_apply, parent_join_contentFolder h hplain, Disk.makeFolders_of_isPassable hfits hpassable]
    rfl
  have hne : ((store.contentFolder workspace).join file).parts ≠ [] := by
    rw [hpath]
    exact List.append_ne_nil_of_right_ne_nil _ (List.cons_ne_nil _ _)
  obtain ⟨disk, hdisk⟩ : ∃ disk, Disk.write site.folder ((store.contentFolder workspace).join file) (Text.encode text)
      world.disk = .ok disk := ⟨_, Disk.write_eq_ok.mpr ⟨hfits, hpassable, hne, by rw [hitem]; exact nofun, rfl⟩⟩
  have hwrite : Action.writeFile ((store.contentFolder workspace).join file) (Text.encode text) site world =
      (.ok (), { world with disk }) := by rw [Action.writeFile_apply, hdisk]
  exact ⟨_, (Action.bind_of_ok _ hfolders).trans hwrite⟩

theorem writeDocuments_of_hasFile (h : Path.IsName workspace) (hplain : ∀ file ∈ texts.map Prod.fst, Path.IsPlain file)
    (hfiles : ∀ file ∈ texts.map Prod.fst, store.HasFile site.folder workspace world.disk file) :
    ∃ world', store.writeDocuments workspace texts site world = (.ok (), world') := by
  induction texts generalizing world with
  | nil => exact ⟨world, rfl⟩
  | cons entry texts ih =>
    obtain ⟨file, text⟩ := entry
    rw [List.map_cons, List.forall_mem_cons] at hplain hfiles
    obtain ⟨middle, hfirst⟩ := writeDocument_of_hasFile h hplain.1 hfiles.1 text
    have hwrites : world.disk.Writes (store.IsTextAt site.folder workspace [(file, text)])
        (writeDocument (store.contentFolder workspace) file text site world).2.disk := writes_writeDocument (.head _) world
    rw [hfirst] at hwrites
    rw [writeDocuments_cons, Action.bind_of_ok _ hfirst]
    exact ih hplain.2 fun other hother => (hfiles.2 other hother).writes hwrites

/-- What has a size is counted. -/
theorem logSaved_of_sized {documents symbols : Json} {documentCount symbolCount : Nat}
    (hdocuments : documents.size = .ok documentCount) (hsymbols : symbols.size = .ok symbolCount) (world : World) :
    ∃ world', logSaved workspace documents symbols site world = (.ok (), world') := by
  have hcounted {value : Json} {count : Nat} (h : value.size = .ok count) :
      Action.access value.size site world = (.ok count, world) := Action.access_ok.mpr ⟨h, rfl⟩
  exact ⟨_, Action.bind_ok.mpr ⟨_, _, hcounted hdocuments, Action.bind_ok.mpr ⟨_, _, hcounted hsymbols, rfl⟩⟩⟩

theorem saveTexts_of_hasFile (h : Path.IsName workspace) (hplain : ∀ file ∈ texts.map Prod.fst, Path.IsPlain file)
    (hne : texts ≠ [])
    (hsized : ∃ documents symbols, snapshot.documents.size = .ok documents ∧ snapshot.symbols.size = .ok symbols)
    (hfiles : ∀ file ∈ texts.map Prod.fst, store.HasFile site.folder workspace world.disk file) :
    ∃ world', store.saveTexts workspace snapshot texts site world = (.ok snapshot, world') := by
  obtain ⟨entry, hentry⟩ := List.exists_mem_of_ne_nil texts hne
  have hfirst : entry.1 ∈ texts.map Prod.fst := List.mem_map_of_mem hentry
  have hfolder := makeContentFolder_of_hasFile h (hplain _ hfirst) (hfiles _ hfirst)
  obtain ⟨stored, hstored⟩ := writeDocuments_of_hasFile h hplain hfiles
  obtain ⟨documents, symbols, hdocuments, hsymbols⟩ := hsized
  obtain ⟨logged, hlogged⟩ := logSaved_of_sized hdocuments hsymbols stored
  refine ⟨logged, ?_⟩
  rw [saveTexts, Action.bind_of_ok _ hfolder, Action.bind_of_ok _ hstored, Action.bind_of_ok _ hlogged]
  rfl

/-! ## Snapshots -/

/-- A snapshot that was written can be written with another time. -/
theorem complete_of_hasFewDigits (h : snapshot.toJson.Forall Json.HasFewDigits) (time : String) :
    (({ snapshot with indexedAt := .str time } : Snapshot).draft none).complete = true := by
  obtain ⟨hself, hworkspace, -, hdocuments, hsymbols, houtlines, hend⟩ := h
  exact Json.draft_of_hasFewDigits none .pretty 0 _ ⟨hself, hworkspace, rfl, hdocuments, hsymbols, houtlines, hend⟩
    (Json.isWithin_none _ _)

/-- **What was saved can be saved again.** -/
theorem save_of_isStored {ν : Type} [Symbol.Name ν] {documents symbols : Json} {outlines : List (String × List (Outline ν))}
    {time : Json} (h : Path.IsName workspace) (htexts : ArePlain texts) (hne : texts ≠ [])
    (hopen : store.IsOpen site.folder world.disk)
    (hstored : store.IsStored site.folder workspace ⟨.str workspace, time, documents, symbols, outlinesJson outlines⟩ texts
      world.disk) :
    ∃ snapshot world', store.save workspace documents symbols outlines texts site world = (.ok snapshot, world') := by
  have hcomplete := complete_of_hasFewDigits hstored.digits site.now
  have htakes : store.TakesIndex site.folder workspace world.disk :=
    ⟨hstored.fits, hopen, by rw [hstored.index]; exact nofun⟩
  generalize hsnapshot :
    ({ workspace := .str workspace, indexedAt := .str site.now, documents, symbols, outlines := outlinesJson outlines } :
      Snapshot) = snapshot at hcomplete
  have hwrites : world.disk.Writes _ (store.withIndex none site.folder workspace snapshot world).disk :=
    Disk.Writes.put_file htakes.free
  have hfiles : ∀ file ∈ texts.map Prod.fst, store.HasFile site.folder workspace
      (store.withIndex none site.folder workspace snapshot world).disk file := by
    intro file hfile
    obtain ⟨⟨_, text⟩, htext, rfl⟩ := List.mem_map.mp hfile
    exact (hstored.texts _ text htext).hasFile.writes hwrites
  have hsized : ∃ documents symbols, snapshot.documents.size = .ok documents ∧ snapshot.symbols.size = .ok symbols :=
    hsnapshot ▸ hstored.sized
  obtain ⟨world', hrun⟩ := saveTexts_of_hasFile h htexts.plain hne hsized hfiles
  exact ⟨snapshot, world', by rw [save, saveWithin_of_complete h htakes hsnapshot.symm (canStore_none _) hcomplete, hrun]⟩

end DocOutline.Store
