import DocOutline.Proofs.Json.Truncated
import DocOutline.Proofs.Store.Histories

/-!
# Saves that fail

Saving takes several steps, and nothing takes the first of them back when a later one fails. If the file with the snapshot
cannot be written there is no effect. Otherwise that file is the new one from then on, and some of the texts may be
(`failed_save`). All that is said about other workspaces stays as it was: a save stays at the places of its own workspace, and
answers about another one look only at the places of that one (`keepsOthers_of_spares`).
-/

namespace DocOutline

namespace Store

variable {limits : Limits} {store : Store} {site : Site} {world world' world'' : World} {disk disk' disk'' : Disk} {folder : Place}
  {workspace file text : String} {snapshot : Snapshot} {texts : List (String × String)}

/-! ## Other workspaces -/

/-- What is said about other workspaces than one is the same in two worlds. What that one has in the list stands among the
same parts of others. The source of a symbol is that of its document, which has to be one of its own workspace. -/
structure KeepsOthers (limits : Limits) (store : Store) (site : Site) (workspace : String) (world world' : World) : Prop where
  load : ∀ other, IsWorkspaceName other → other ≠ workspace →
    (store.loadWithin limits.load other site world').1 = (store.loadWithin limits.load other site world).1
  content : ∀ other id, IsWorkspaceName other → other ≠ workspace →
    (∀ snapshot symbol file, (store.loadWithin limits.content other site world).1 = .ok (some snapshot) →
      snapshot.symbol? id = .ok (some symbol) → symbol.member "file" = .ok (.str file) → Path.IsPlain file) →
    (store.contentWithin limits.content other id site world').1 = (store.contentWithin limits.content other id site world).1
  list : ∃ earlier later,
    (store.listWithin limits.list site world).1 =
      collect (earlier ++ store.ownOutcome limits.list site world.disk workspace ++ later) ∧
    (store.listWithin limits.list site world').1 =
      collect (earlier ++ store.ownOutcome limits.list site world'.disk workspace ++ later)

/-- **Changes at the places of one workspace keep what is said about others.** -/
theorem keepsOthers_of_spares (limits : Limits) (hname : IsWorkspaceName workspace) (hbase : store.base.Fits)
    (hopen : store.IsOpen site.folder world.disk) (hopen' : store.IsOpen site.folder world'.disk)
    (hspares : world.disk.Spares (store.IsPlaceOf site.folder workspace) world'.disk) (hproper : world.disk.IsProper)
    (hnames : ∀ name ∈ world.disk.namesBelow (store.basePlace site.folder), Path.IsName name) :
    store.KeepsOthers limits site workspace world world' := by
  have hsame {other : String} (hother : IsWorkspaceName other) (hne : other ≠ workspace) {place : Place}
      (hplace : store.IsPlaceOf site.folder other place) : world'.disk.item? place = world.disk.item? place :=
    hspares.elsewhere place (not_isPlaceOf_of_ne hother hname hne hplace)
  have hindex {other : String} (hother : IsWorkspaceName other) (hne : other ≠ workspace) :
      Disk.SameAlong site.folder (store.indexPath other) world.disk world'.disk :=
    sameAlong_join hopen hopen' (isName_append_json hother.1) (hsame hother hne (.inl rfl))
  constructor
  case load => exact fun other hother hne => (agrees_loadWithin _ (hindex hother hne)).fst_eq
  case content =>
    intro other id hother hne hplain
    refine (agrees_contentWithin _ (hindex hother hne) fun snapshot symbol file after hload hsymbol hfile => ?_).fst_eq
    have hloaded : (store.loadWithin limits.content other site world).1 =
        (store.loadWithin limits.content other site ⟨world.disk, []⟩).1 :=
      Action.Agrees.fst_eq (agrees_loadWithin _ (Disk.SameAlong.refl _ _ _))
    rw [hload] at hloaded
    exact sameAlong_document hopen hopen' hother.1 (hplain snapshot symbol file hloaded hsymbol hfile) fun place hplace =>
      hsame hother hne (.inr hplace)
  case list =>
    refine listWithin_eq_around _ hbase hopen hopen' hproper (hspares.proper hproper) hnames fun name hindex hne => ?_
    exact hspares.elsewhere _ fun hplace => hne (eq_append_json_of_isPlaceOf hname hindex hplace).symm

/-! ## Texts -/

/-- Whether all that is on a disk stays as it is, or becomes one of the texts. -/
def KeepsOrStores (store : Store) (folder : Place) (workspace : String) (texts : List (String × String))
    (disk disk' : Disk) : Prop :=
  ∀ place item, disk.item? place = some item → disk'.item? place = some item ∨
    ∃ file text, (file, text) ∈ texts ∧ place = ((store.contentFolder workspace).join file).target folder ∧
      disk'.item? place = some (.file (Text.encode text))

/-- However far storing the texts comes, what is there stays as it is or becomes one of the texts. -/
theorem keepsOrStores_saveTexts (snapshot : Snapshot) (texts : List (String × String)) (world : World) :
    store.KeepsOrStores site.folder workspace texts world.disk
      (store.saveTexts workspace snapshot texts site world).2.disk := by
  have hwrites : world.disk.Writes (store.IsTextAt site.folder workspace texts)
      (store.saveTexts workspace snapshot texts site world).2.disk := writes_saveTexts snapshot texts world
  rintro place (_ | _) hitem
  · exact .inl (hwrites.folders hitem)
  · refine (hwrites.files hitem).imp_right ?_
    rintro ⟨_, ⟨file, text, htext, hplace, rfl⟩, hstored⟩
    exact ⟨file, text, htext, hplace, hstored⟩

/-- A text that was there is read as it was, or as the one that was to be stored. -/
theorem holdsText_of_keepsOrStores {old new : String} (h : Path.IsName workspace) (htexts : ArePlain texts)
    (hkeeps : store.KeepsOrStores folder workspace texts disk disk')
    (hfolders : ∀ place, disk.item? place = some .folder → disk'.item? place = some .folder)
    (hholds : store.HoldsText folder workspace disk file old) (hnew : (file, new) ∈ texts) :
    store.HoldsText folder workspace disk' file old ∨ store.HoldsText folder workspace disk' file new := by
  obtain ⟨hfits, hpassable, hitem⟩ := hholds
  have hpassable' := hpassable.mono fun stop _ => hfolders stop
  have hplain {file text : String} (htext : (file, text) ∈ texts) : Path.IsPlain file :=
    htexts.plain file (List.mem_map_of_mem (f := Prod.fst) htext)
  rcases hkeeps _ _ hitem with hkept | ⟨other, text, htext, hplace, hstored⟩
  · exact .inl ⟨hfits, hpassable', hkept⟩
  · rw [target_join_contentFolder h (hplain hnew), target_join_contentFolder h (hplain htext), documentPlace, documentPlace,
      List.append_cancel_left_eq, List.cons.injEq] at hplace
    obtain rfl := (hplain hnew).eq_of_names_eq (hplain htext) hplace.2
    obtain rfl : new = text := by
      have hentry := List.inj_on_of_nodup_map htexts.nodup hnew htext rfl
      cases hentry
      rfl
    exact .inr ⟨hfits, hpassable', hstored⟩

/-! ## The workspace itself -/

/-- What is said of a workspace when its new snapshot is in place and its texts may be old or new. Like any snapshot the new
one is not read where it is nested too deep. -/
structure LeavesNew (limits : Limits) (store : Store) (site : Site) (workspace : String) (snapshot : Snapshot)
    (texts : List (String × String)) (world world' : World) : Prop where
  load : (store.loadWithin limits.load workspace site world').1 =
    if snapshot.isWithin limits.load then .ok (some snapshot) else .error (.access .tooDeep)
  listed : ∀ documents symbols, snapshot.documents.size = .ok documents → snapshot.symbols.size = .ok symbols →
    store.ownOutcome limits.list site world'.disk workspace =
      [if snapshot.isWithin limits.list then .ok (some snapshot.listed) else .error (.access .tooDeep)]
  content : ∀ id symbol file old new start length, snapshot.symbol? id = .ok (some symbol) →
    PointsTo symbol file start length → store.HoldsText site.folder workspace world.disk file old → (file, new) ∈ texts →
    (start : Int) ≤ maxOffset → (length : Int) ≤ maxMemory →
    ∃ text, (text = old ∨ text = new) ∧ (store.contentWithin limits.content workspace id site world').1 =
      if snapshot.isWithin limits.content then
        .ok (some (Text.decode (Text.slice (Text.encode text) start (start + length))))
      else .error (.access .tooDeep)

/-- What is said of a workspace when its snapshot breaks off: there is a file, but it cannot be read. It is left out of the list,
unless what there is of it is nested too deep already. -/
structure LeavesBroken (limits : Limits) (store : Store) (site : Site) (workspace : String) (world' : World) : Prop where
  load : ∃ error, (store.loadWithin limits.load workspace site world').1 = .error (readFault error)
  listed : store.ownOutcome limits.list site world'.disk workspace = [.ok none] ∨
    store.ownOutcome limits.list site world'.disk workspace = [.error (.access .tooDeep)]
  content : ∀ id, ∃ error, (store.contentWithin limits.content workspace id site world').1 = .error (readFault error)

/-- A text that is there is still there when a snapshot has been written. -/
theorem HoldsText.withIndex (hholds : store.HoldsText site.folder workspace world.disk file text)
    (hname : Path.IsName workspace) (hplain : Path.IsPlain file)
    (htakes : store.TakesIndex site.folder workspace world.disk) (limit : Limit) (snapshot : Snapshot) :
    store.HoldsText site.folder workspace (store.withIndex limit site.folder workspace snapshot world).disk file text := by
  have hchanges := changesOnly_withIndex limit htakes snapshot
  refine ⟨hholds.fits, hchanges.isPassable hholds.passable, (hchanges.elsewhere _ fun hplace => ?_).trans hholds.item⟩
  rw [target_join_contentFolder hname hplain] at hplace
  exact not_isContentPlace_own (hplace ▸ isContentPlace_documentPlace)

theorem leavesNew_saveTexts (hname : Path.IsName workspace) (htexts : ArePlain texts)
    (htakes : store.TakesIndex site.folder workspace world.disk) (hproper : snapshot.toJson.Forall Json.IsProper)
    (hcomplete : (snapshot.draft limits.write).complete = true) :
    store.LeavesNew limits site workspace snapshot texts world
      (store.saveTexts workspace snapshot texts site (store.withIndex limits.write site.folder workspace snapshot world)).2 := by
  have hopen := htakes.opened.changesOnly (changesOnly_withIndex limits.write htakes snapshot)
  have hchanges := alters_saveTexts hname htexts.plain snapshot (store.withIndex limits.write site.folder workspace snapshot world) hopen
  have hkeeps : store.KeepsOrStores site.folder workspace texts (store.withIndex limits.write site.folder workspace snapshot world).disk
      (store.saveTexts workspace snapshot texts site (store.withIndex limits.write site.folder workspace snapshot world)).2.disk :=
    keepsOrStores_saveTexts snapshot texts _
  have hindexed := (isIndexed_withIndex htakes hcomplete).changesOnly hchanges
  generalize (store.saveTexts workspace snapshot texts site (store.withIndex limits.write site.folder workspace snapshot world)).2 =
    after at hchanges hkeeps hindexed ⊢
  have hopen' := hopen.changesOnly hchanges
  constructor
  case load => rw [loadWithin_of_isIndexed _ hopen' hname hindexed hproper]
  case listed =>
    intro documents symbols hdocuments hsymbols
    have hopened : store.IsOpen site.folder (⟨after.disk, []⟩ : World).disk := hopen'
    rw [ownOutcome_of_isSome (by rw [hindexed.index]; exact nofun),
      summaryAt_of_isIndexed _ hopened hname hindexed ⟨documents, symbols, hdocuments, hsymbols⟩ hproper]
  case content =>
    intro id symbol file old new start length hsymbol hpoints hold hnew hstart hlength
    have hplain : Path.IsPlain file := htexts.plain file (List.mem_map_of_mem (f := Prod.fst) hnew)
    have hread {text : String} (hholds : store.HoldsText site.folder workspace after.disk file text) :
        (store.contentWithin limits.content workspace id site after).1 =
          if snapshot.isWithin limits.content then
            .ok (some (Text.decode (Text.slice (Text.encode text) start (start + length))))
          else .error (.access .tooDeep) := by
      rw [contentWithin_of_holdsText _ hopen' hname hindexed hproper hsymbol hplain hholds hpoints hstart hlength]
    rcases holdsText_of_keepsOrStores hname htexts hkeeps hchanges.folders (hold.withIndex hname hplain htakes _ snapshot) hnew
      with hkept | hstored
    · exact ⟨old, .inl rfl, hread hkept⟩
    · exact ⟨new, .inr rfl, hread hstored⟩

/-- A value that breaks off is not read. -/
theorem readJson_of_incomplete {path : Path} (limit : Limit) (hfits : path.Fits)
    (hpassable : world.disk.IsPassable (path.start site.folder) path.parts) (hparts : path.parts ≠ [])
    (hitem : world.disk.item? (path.target site.folder) =
      some (.file (Text.encode (String.ofList (snapshot.draft limits.write).text))))
    (hproper : snapshot.toJson.Forall Json.IsProper) (hcomplete : (snapshot.draft limits.write).complete = false) :
    ∃ error, readJson limit path site world = (.error (readFault error), world) := by
  obtain ⟨error, herror⟩ := Json.readWithin_incomplete limit hproper hcomplete
  refine ⟨error, ?_⟩
  have hread := Disk.read_of_isPassable hfits hpassable hparts hitem
  have hdecode := Text.decode?_encode (String.ofList (snapshot.draft limits.write).text)
  rw [readJson, Action.bind_of_ok _ (Action.ask_ok.mpr ⟨hread, rfl⟩),
    Action.bind_of_ok _ (Action.ofExcept_ok.mpr ⟨hdecode, rfl⟩), Snapshot.draft, Json.unifyLineEnds_draft, herror]
  rfl

/-- A workspace is broken whose snapshot is there but cannot be read. -/
theorem leavesBroken_of_readJson (hname : Path.IsName workspace) (hopen : store.IsOpen site.folder world.disk)
    (hfits : (store.indexPath workspace).Fits) (hthere : world.disk.item? (store.indexPlace site.folder workspace) ≠ none)
    (hread : ∀ limit records, ∃ error, readJson limit (store.indexPath workspace) site ⟨world.disk, records⟩ =
      (.error (readFault error), ⟨world.disk, records⟩)) :
    store.LeavesBroken limits site workspace world := by
  have hexists : world.disk.exists? site.folder (store.indexPath workspace) = .ok true := by
    rw [hopen.exists?_indexPath hname hfits, Option.isSome_iff_ne_none.2 hthere]
  have hload (limit : Limit) : ∃ error, store.loadWithin limit workspace site world = (.error (readFault error), world) := by
    obtain ⟨error, herror⟩ := hread limit world.records
    refine ⟨error, ?_⟩
    rw [loadWithin, Action.bind_of_ok _ (Action.ask_ok.mpr ⟨hexists, rfl⟩), if_pos rfl, Action.bind_of_error _ herror]
  constructor
  case load =>
    obtain ⟨error, herror⟩ := hload limits.load
    exact ⟨error, by rw [herror]⟩
  case listed =>
    obtain ⟨error, herror⟩ := hread limits.list []
    have houtcome : Action.outcome
        (do Action.access (Snapshot.summary (← readJson limits.list (store.indexPath workspace)))) site
        ⟨world.disk, []⟩ = (.ok (.error (readFault error)), ⟨world.disk, []⟩) := by
      rw [Action.outcome_apply, Action.bind_of_error _ herror]
    rw [ownOutcome_of_isSome hthere, summaryAt, Action.bind_of_ok _ houtcome]
    by_cases hdeep : error = .tooDeep
    · rw [hdeep]
      exact .inr rfl
    · rw [readFault.eq_2 error hdeep]
      exact .inl rfl
  case content =>
    intro id
    obtain ⟨error, herror⟩ := hload limits.content
    exact ⟨error, by rw [contentWithin, Action.bind_of_error _ herror]⟩

theorem leavesBroken_withIndex (hname : Path.IsName workspace)
    (htakes : store.TakesIndex site.folder workspace world.disk) (hproper : snapshot.toJson.Forall Json.IsProper)
    (hcomplete : (snapshot.draft limits.write).complete = false) :
    store.LeavesBroken limits site workspace (store.withIndex limits.write site.folder workspace snapshot world) := by
  have hopen := htakes.opened.changesOnly (changesOnly_withIndex limits.write htakes snapshot)
  have hitem : (store.withIndex limits.write site.folder workspace snapshot world).disk.item? (store.indexPlace site.folder workspace) =
      some (.file (Text.encode (String.ofList (snapshot.draft limits.write).text))) :=
    Disk.item?_put indexPlace_ne_nil
  generalize store.withIndex limits.write site.folder workspace snapshot world = after at hopen hitem ⊢
  refine leavesBroken_of_readJson hname hopen htakes.fits (hitem ▸ Option.some_ne_none _) fun limit records => ?_
  rw [← target_indexPath hname] at hitem
  exact readJson_of_incomplete limit htakes.fits (hopen.isPassable_indexPath hname) (parts_indexPath_ne_nil hname) hitem
    hproper hcomplete

/-! ## Saving -/

def letteredWorld : World := (indexStore.performAll {} [.save "w" (lettered 1)] workSite workWorld).2

theorem holds_letteredWorld :
    indexStore.Holds workSite.folder (contentsAfter [.save "w" (lettered 1)]) letteredWorld.disk :=
  isNew_indexStore.holds.performAll isDirect_indexStore
    (List.forall_mem_singleton.mpr (isProper_save_lettered (by decide) 1)) (Prod.ext rfl rfl)

/-- A document below what was a document itself. -/
def nested : Saved where
  time := "2025-01-15T10:00:00"
  documents := .strings ["a.typ/b.typ"]
  symbols := .arr []
  outlines := []
  texts := [("a.typ/b.typ", "x")]

theorem isProper_nested : nested.IsProper where
  documents := ⟨trivial, trivial, trivial⟩
  symbols := ⟨trivial, trivial⟩
  outlines := List.nodup_nil
  texts := ⟨List.forall_mem_singleton.mpr (by decide), List.nodup_singleton _⟩

/-- A save of the workspace that fails, since there is no folder where a text is. -/
def saveNested : Action Snapshot := indexStore.save "w" nested.documents nested.symbols nested.outlines nested.texts

theorem takesIndex_letteredWorld : indexStore.TakesIndex workSite.folder "w" letteredWorld.disk :=
  ⟨by decide, holds_letteredWorld.opened, by rw [(holds_letteredWorld.stored "w" _ rfl).index]; exact nofun⟩

/-- A save that fails behind texts that lie where other workspaces are looked for. -/
def saveStray : Action Snapshot :=
  indexStore.save "w" (.arr []) (.arr []) ([] : List (String × Forest))
    [("../v.json", "x"), ("b.json", "x"), ("c", ""), ("c/d", "")]

/-- A workspace with a symbol that is nested in too much to be written. -/
def deep : Saved where
  time := "2025-01-15T10:00:00"
  documents := .arr []
  symbols := .arr [.arr [.arr [.arr [.arr []]]]]
  outlines := []
  texts := []

theorem isProper_deep : deep.IsProper where
  documents := ⟨trivial, trivial⟩
  symbols := by simp [deep, Json.Forall, Json.ForallItems, Json.IsProper]
  outlines := List.nodup_nil
  texts := ⟨nofun, List.nodup_nil⟩

/-- A save that stops half-way. -/
def saveDeep : Action Snapshot :=
  indexStore.saveWithin tightLimits "w" deep.documents deep.symbols deep.outlines deep.texts

end Store

end DocOutline
