import DocOutline.Proofs.Store.Listing

/-!
# A store is a map from workspaces to snapshots

Workspaces are saved and deleted one after the other. What a store then answers is what a map says that was changed in the
same way (`answers_of_performAll`). The two are kept together by an invariant (`Holds`): the snapshot and the texts of each
workspace of the map are at the workspace's own places, and there is no other file that could be one with a snapshot. A
change of one workspace stays at its places, so that all others are kept (`Holds.update`).
-/

namespace DocOutline

/-- What is stored of a workspace at once. -/
structure Saved where
  time : String
  documents : Json
  symbols : Json
  outlines : List (String × Forest)
  texts : List (String × String)

namespace Saved

def snapshot (saved : Saved) (workspace : String) : Snapshot :=
  ⟨.str workspace, .str saved.time, saved.documents, saved.symbols, Store.outlinesJson saved.outlines⟩

/-- Whether all that is to be stored can be: values that text can stand for, and each document once. -/
structure IsProper (saved : Saved) : Prop where
  documents : saved.documents.Forall Json.IsProper
  symbols : saved.symbols.Forall Json.IsProper
  outlines : (saved.outlines.map Prod.fst).Nodup
  texts : Store.ArePlain saved.texts

theorem forallMembers_outlines (outlines : List (String × Forest)) :
    Json.ForallMembers Json.IsProper (outlines.map fun (file, forest) => (file, .arr (Outline.toJsonAll forest))) := by
  induction outlines with
  | nil => trivial
  | cons entry outlines ih =>
    have hname (name : String) : (Symbol.Name.toJson name).Forall Json.IsProper :=
      (trivial : (Json.str name).Forall Json.IsProper)
    exact ⟨⟨trivial, Outline.isProper_toJsonAll hname entry.2⟩, ih⟩

/-- The stored form of a proper snapshot is proper. -/
theorem IsProper.toJson_snapshot {saved : Saved} (h : saved.IsProper) (workspace : String) :
    (saved.snapshot workspace).toJson.Forall Json.IsProper := by
  have hfiles : (saved.outlines.map fun (file, forest) => (file, Json.arr (Outline.toJsonAll forest))).map Prod.fst =
      saved.outlines.map Prod.fst := by simp
  refine Snapshot.isProper_toJson trivial trivial h.documents h.symbols ⟨?_, forallMembers_outlines saved.outlines⟩
  rw [Json.IsProper, hfiles]
  exact h.outlines

end Saved

namespace Store

/-! ## Operations -/

/-- A change of a store. -/
inductive Operation where
  | save (workspace : String) (saved : Saved)
  | delete (workspace : String)

/-- What is stored, by workspaces. -/
abbrev Contents := String → Option Saved

def Contents.snapshot? (contents : Contents) (workspace : String) : Option Snapshot :=
  (contents workspace).map (·.snapshot workspace)

namespace Operation

def workspace : Operation → String
  | save workspace _ => workspace
  | delete workspace => workspace

/-- What is to be stored of the workspace from now on. -/
def saved? : Operation → Option Saved
  | save _ saved => some saved
  | delete _ => none

/-- The change of a map. -/
def apply (operation : Operation) (contents : Contents) : Contents :=
  Function.update contents operation.workspace operation.saved?

/-- The change of a store. A save takes place at its own time, within limits. -/
def perform (limits : Limits) (store : Store) : Operation → Action Unit
  | save workspace saved => fun site world =>
    (do
      let _ ← store.saveWithin limits workspace saved.documents saved.symbols saved.outlines saved.texts
      return : Action Unit) { site with now := saved.time } world
  | delete workspace => do
    let _ ← store.delete workspace
    return

/-- Whether a change can be made: the workspace has its places for itself, and what is to be stored can be. -/
structure IsProper (operation : Operation) : Prop where
  workspace : IsWorkspaceName operation.workspace
  saved : ∀ saved, operation.saved? = some saved → saved.IsProper

end Operation

/-- Changes of a store, one after the other. -/
def performAll (limits : Limits) (store : Store) (operations : List Operation) : Action Unit :=
  operations.forM (·.perform limits store)

/-- What is stored after changes of a map that was empty. -/
def contentsAfter (operations : List Operation) : Contents :=
  operations.foldl (fun contents operation => operation.apply contents) fun _ => none

/-! ## The invariant -/

variable {store : Store} {folder place : Place} {disk disk' : Disk} {contents : Contents} {workspace : String}
  {saved? : Option Saved}

/-- What a store holds: the snapshots and texts of workspaces, and no other file that could be one with a snapshot. -/
structure Holds (store : Store) (folder : Place) (contents : Contents) (disk : Disk) : Prop where
  opened : store.IsOpen folder disk
  proper : disk.IsProper
  named : ∀ workspace saved, contents workspace = some saved → IsWorkspaceName workspace ∧ saved.IsProper
  stored : ∀ workspace saved, contents workspace = some saved →
    store.IsStored folder workspace (saved.snapshot workspace) saved.texts disk
  absent : ∀ workspace, IsWorkspaceName workspace → contents workspace = none →
    disk.item? (store.indexPlace folder workspace) = none
  owned : ∀ name, isIndexName name = true → disk.item? (store.basePlace folder ++ [name]) ≠ none →
    ∃ workspace, IsWorkspaceName workspace ∧ workspace ++ ".json" = name

/-- What is stored of a workspace stays stored while all that is at its places stays. -/
theorem IsStored.mono {snapshot : Snapshot} {texts : List (String × String)}
    (h : store.IsStored folder workspace snapshot texts disk) (hname : Path.IsName workspace)
    (hplain : ∀ file ∈ texts.map Prod.fst, Path.IsPlain file) (hopen : store.IsOpen folder disk')
    (hsame : ∀ place, store.IsPlaceOf folder workspace place → disk'.item? place = disk.item? place) :
    store.IsStored folder workspace snapshot texts disk' := by
  refine ⟨⟨h.fits, (hsame _ (.inl rfl)).trans h.index, h.digits⟩, h.sized, fun file text htext => ?_⟩
  obtain ⟨hfits, hpassable, hitem⟩ := h.texts file text htext
  have hfile : Path.IsPlain file := hplain file (List.mem_map_of_mem (f := Prod.fst) htext)
  refine ⟨hfits, ?_, ?_⟩
  · rw [join_contentFolder_eq hname hfile] at hpassable ⊢
    refine Disk.isPassable_append.mpr ⟨hopen.passable, fun stop hstop => ?_⟩
    have hfolder := (Disk.isPassable_append.mp hpassable).2 stop hstop
    obtain ⟨before, part, after, hparts, rfl⟩ :=
      (Path.mem_stops_of_plain (not_mem_cons_names hname hfile)).mp hstop
    cases before with
    | nil => exact (List.append_nil _).symm ▸ hopen.isFolder
    | cons first before =>
      obtain ⟨rfl, -⟩ := List.cons.inj hparts
      rw [← hfolder]
      exact hsame _ (.inr ⟨before, by simp [basePlace, Path.target]; rfl⟩)
  · rw [target_join_contentFolder hname hfile] at hitem ⊢
    rw [hsame _ (.inr isContentPlace_documentPlace), hitem]

/-- **A change of one workspace keeps all others.** -/
theorem Holds.update (h : store.Holds folder contents disk) (hname : IsWorkspaceName workspace)
    (hspares : disk.Spares (store.IsPlaceOf folder workspace) disk') (hopen : store.IsOpen folder disk')
    (hsaved : ∀ saved, saved? = some saved →
      saved.IsProper ∧ store.IsStored folder workspace (saved.snapshot workspace) saved.texts disk')
    (habsent : saved? = none → disk'.item? (store.indexPlace folder workspace) = none) :
    store.Holds folder (Function.update contents workspace saved?) disk' := by
  have hother {other : String} (hne : other ≠ workspace) (hof : IsWorkspaceName other) {place : Place}
      (hplace : store.IsPlaceOf folder other place) : disk'.item? place = disk.item? place :=
    hspares.elsewhere place (not_isPlaceOf_of_ne hof hname hne hplace)
  constructor
  case opened => exact hopen
  case proper => exact hspares.proper h.proper
  case named =>
    intro other saved hcontents
    by_cases hne : other = workspace
    · subst hne
      rw [Function.update_self] at hcontents
      exact ⟨hname, (hsaved saved hcontents).1⟩
    · rw [Function.update_of_ne hne] at hcontents
      exact h.named other saved hcontents
  case stored =>
    intro other saved hcontents
    by_cases hne : other = workspace
    · subst hne
      rw [Function.update_self] at hcontents
      exact (hsaved saved hcontents).2
    · rw [Function.update_of_ne hne] at hcontents
      obtain ⟨hof, hproper⟩ := h.named other saved hcontents
      exact (h.stored other saved hcontents).mono hof.1 hproper.texts.plain hopen fun place => hother hne hof
  case absent =>
    intro other hof hcontents
    by_cases hne : other = workspace
    · subst hne
      rw [Function.update_self] at hcontents
      exact habsent hcontents
    · rw [Function.update_of_ne hne] at hcontents
      rw [hother hne hof (.inl rfl), h.absent other hof hcontents]
  case owned =>
    intro name hindex hitem
    by_cases hplace : store.IsPlaceOf folder workspace (store.basePlace folder ++ [name])
    · exact ⟨workspace, hname, eq_append_json_of_isPlaceOf hname hindex hplace⟩
    · rw [hspares.elsewhere _ hplace] at hitem
      exact h.owned name hindex hitem

/-- Whether the folder of a store is there, with no file in it that could be one with a snapshot. -/
structure IsNew (store : Store) (folder : Place) (disk : Disk) : Prop where
  opened : store.IsOpen folder disk
  proper : disk.IsProper
  empty : ∀ name ∈ disk.namesBelow (store.basePlace folder), isIndexName name = false

theorem IsNew.item?_eq_none (h : store.IsNew folder disk) {name : String} (hindex : isIndexName name = true) :
    disk.item? (store.basePlace folder ++ [name]) = none := by
  by_cases hitem : disk.item? (store.basePlace folder ++ [name]) = none
  · exact hitem
  · rw [h.empty name (Disk.mem_namesBelow.mpr hitem)] at hindex
    cases hindex

theorem IsNew.holds (h : store.IsNew folder disk) : store.Holds folder (fun _ => none) disk where
  opened := h.opened
  proper := h.proper
  named := nofun
  stored := nofun
  absent workspace _ _ := h.item?_eq_none (isIndexName_append workspace)
  owned _ hindex hitem := absurd (h.item?_eq_none hindex) hitem

variable {limits : Limits} {site : Site} {world world' : World} {operation : Operation} {operations : List Operation}

theorem Holds.of_save {saved : Saved} {snapshot : Snapshot}
    (hrun : store.saveWithin limits workspace saved.documents saved.symbols saved.outlines saved.texts site world =
      (.ok snapshot, world'))
    (h : store.Holds site.folder contents world.disk) (hname : IsWorkspaceName workspace) (hsaved : saved.IsProper)
    (htime : site.now = saved.time) :
    store.Holds site.folder (Function.update contents workspace (some saved)) world'.disk := by
  have halters := alters_saveWithin limits hname.1 hsaved.texts.plain saved.documents saved.symbols saved.outlines world h.opened
  rw [hrun] at halters
  obtain ⟨rfl, hopen, hstored⟩ := saveWithin_ok hname.1 hsaved.texts hrun
  refine h.update hname halters.spares hopen (fun other hother => ?_) nofun
  cases hother
  rw [htime] at hstored
  exact ⟨hsaved, hstored⟩

theorem Holds.of_delete {removed : Bool} (hrun : store.delete workspace site world = (.ok removed, world'))
    (h : store.Holds site.folder contents world.disk) (hname : IsWorkspaceName workspace)
    (hdirect : store.IsDirect site.folder) :
    store.Holds site.folder (Function.update contents workspace none) world'.disk := by
  have hspares : world.disk.Spares (store.IsPlaceOf site.folder workspace)
      (store.delete workspace site world).2.disk := spares_delete hname.1 world
  rw [hrun] at hspares
  have hfits : world.disk.item? (store.indexPlace site.folder workspace) ≠ none →
      (store.indexPath workspace).Fits := by
    intro hitem
    match hcontents : contents workspace with
    | none => exact absurd (h.absent workspace hname hcontents) hitem
    | some saved => exact (h.stored workspace saved hcontents).fits
  exact h.update hname hspares (h.opened.spares hdirect hspares) nofun fun _ => delete_ok hname h.opened hfits hrun

/-- **A change of a store is the change of the map.** -/
theorem Holds.perform (h : store.Holds site.folder contents world.disk) (hdirect : store.IsDirect site.folder)
    (hproper : operation.IsProper) (hrun : operation.perform limits store site world = (.ok (), world')) :
    store.Holds site.folder (operation.apply contents) world'.disk := by
  cases operation with
  | save workspace saved =>
    obtain ⟨snapshot, middle, hsave, hreturn⟩ := Action.bind_ok.mp hrun
    cases hreturn
    have hafter := Holds.of_save hsave h hproper.workspace (hproper.saved saved rfl) rfl
    exact hafter
  | delete workspace =>
    obtain ⟨removed, middle, hdelete, hreturn⟩ := Action.bind_ok.mp hrun
    cases hreturn
    exact Holds.of_delete hdelete h hproper.workspace hdirect

/-- Changes of a store are the changes of the map, one after the other. -/
theorem Holds.performAll (h : store.Holds site.folder contents world.disk) (hdirect : store.IsDirect site.folder)
    (hproper : ∀ operation ∈ operations, operation.IsProper)
    (hrun : store.performAll limits operations site world = (.ok (), world')) :
    store.Holds site.folder (operations.foldl (fun contents operation => operation.apply contents) contents)
      world'.disk := by
  induction operations generalizing contents world with
  | nil =>
    cases hrun
    exact h
  | cons operation operations ih =>
    rw [List.forall_mem_cons] at hproper
    obtain ⟨⟨⟩, middle, hfirst, hrest⟩ := Action.bind_ok.mp hrun
    exact ih (h.perform hdirect hproper.1 hfirst) hproper.2 hrest

/-! ## Answers -/

/-- What a store answers that holds what a map says. What is nested too deep to be read back is a failure of each operation
that has to read it. Names of workspaces that no disk finds short enough are not asked for, and neither are sources so far
behind or so long that no memory holds them. -/
structure Answers (limits : Limits) (store : Store) (site : Site) (contents : Contents) (world : World) : Prop where
  load_none : ∀ workspace, IsWorkspaceName workspace → (store.indexPath workspace).IsShort → contents workspace = none →
    store.loadWithin limits.load workspace site world = (.ok none, world)
  load_some : ∀ workspace saved, contents workspace = some saved →
    store.loadWithin limits.load workspace site world =
      (if (saved.snapshot workspace).isWithin limits.load then .ok (some (saved.snapshot workspace))
        else .error (.access .tooDeep), world)
  outline : ∀ workspace saved document, contents workspace = some saved →
    (saved.snapshot workspace).outlineWithin? limits.restore document =
      match saved.outlines.lookup document with
      | none => .ok none
      | some forest =>
        if Outline.areWithin limits.restore 0 forest then .ok (some (Outline.renameAll Json.str forest))
        else .error (.access .tooDeep)
  content : ∀ workspace saved id symbol file text start length, contents workspace = some saved →
    (saved.snapshot workspace).symbol? id = .ok (some symbol) → PointsTo symbol file start length →
    (file, text) ∈ saved.texts → (start : Int) ≤ maxOffset → (length : Int) ≤ maxMemory →
    store.contentWithin limits.content workspace id site world =
      (if (saved.snapshot workspace).isWithin limits.content then
          .ok (some (Text.decode (Text.slice (Text.encode text) start (start + length))))
        else .error (.access .tooDeep), world)
  list : ∃ live : List (String × Snapshot), (live.map Prod.fst).Nodup ∧
    (∀ workspace snapshot, (workspace, snapshot) ∈ live ↔ contents.snapshot? workspace = some snapshot) ∧
    store.listWithin limits.list site world =
      (if live.all fun entry => entry.2.isWithin limits.list then .ok (live.map fun entry => entry.2.listed)
        else .error (.access .tooDeep), world)

/-- All files with snapshots are those of workspaces that are stored. -/
theorem Holds.exists_of_isIndexName (h : store.Holds folder contents disk) {name : String} (hindex : isIndexName name = true)
    (hitem : disk.item? (store.basePlace folder ++ [name]) ≠ none) :
    ∃ workspace saved, contents workspace = some saved ∧ workspace ++ ".json" = name := by
  obtain ⟨workspace, hname, rfl⟩ := h.owned name hindex hitem
  match hcontents : contents workspace with
  | none => exact absurd (h.absent workspace hname hcontents) hitem
  | some saved => exact ⟨workspace, saved, hcontents, rfl⟩

theorem Holds.answers (limits : Limits) (h : store.Holds site.folder contents world.disk) (hbase : store.base.Fits) :
    store.Answers limits site contents world where
  load_none workspace hname hshort hcontents :=
    loadWithin_of_item?_eq_none _ h.opened hname.1 hshort (h.absent workspace hname hcontents)
  load_some workspace saved hcontents := by
    obtain ⟨hname, hsaved⟩ := h.named workspace saved hcontents
    have hstored := h.stored workspace saved hcontents
    exact loadWithin_of_isIndexed _ h.opened hname.1 hstored.toIsIndexed (hsaved.toJson_snapshot workspace)
  outline workspace saved document _ := by
    rw [Saved.snapshot, Snapshot.outlineWithin?_outlinesJson]
    cases saved.outlines.lookup document <;> rfl
  content workspace saved id symbol file text start length hcontents hsymbol hpoints htext hstart hlength := by
    obtain ⟨hname, hsaved⟩ := h.named workspace saved hcontents
    have hplain : Path.IsPlain file := hsaved.texts.plain file (List.mem_map_of_mem (f := Prod.fst) htext)
    have hstored := h.stored workspace saved hcontents
    exact contentWithin_of_holdsText _ h.opened hname.1 hstored.toIsIndexed (hsaved.toJson_snapshot workspace)
      hsymbol hplain (hstored.texts file text htext) hpoints hstart hlength
  list := by
    refine listWithin_of_isStored _ hbase h.opened h.proper (fun name hindex hitem => ?_) fun workspace snapshot hsnapshot => ?_
    · obtain ⟨workspace, saved, hcontents, hname⟩ := h.exists_of_isIndexName hindex hitem
      exact ⟨workspace, saved.snapshot workspace, Option.map_eq_some_iff.mpr ⟨saved, hcontents, rfl⟩, hname⟩
    · obtain ⟨saved, hcontents, rfl⟩ := Option.map_eq_some_iff.mp hsnapshot
      obtain ⟨hname, hsaved⟩ := h.named workspace saved hcontents
      exact ⟨hname.1, hsaved.toJson_snapshot workspace, saved.texts, h.stored workspace saved hcontents⟩

/-- A site in a folder `work`, without a parser. -/
def workSite : Site := ⟨["work"], fun _ => none, none, "2025-01-15T10:00:00", fun _ => .error "no parser"⟩

/-- A world in which there is a folder `index`, and nothing in it. -/
def workWorld : World := ⟨⟨[(["work"], .folder), (["work", "index"], .folder)]⟩, []⟩

/-- The store in the folder `index`. -/
def indexStore : Store := ⟨⟨"", ["index"]⟩⟩

theorem isNew_indexStore : indexStore.IsNew workSite.folder workWorld.disk :=
  ⟨⟨by decide, by decide⟩, by decide, by decide⟩

theorem isDirect_indexStore : indexStore.IsDirect workSite.folder := isDirect_of_plain (by decide) _

/-- A symbol whose source are two bytes of the document `a.typ`. -/
def letter (start : Nat) : Json :=
  .obj [("id", .str "s"), ("file", .str "a.typ"), ("byte_offset", .nat start), ("byte_length", .nat 2)]

/-- A document with one symbol. -/
def lettered (start : Nat) : Saved where
  time := "2025-01-15T10:00:00"
  documents := .strings ["a.typ"]
  symbols := .arr [letter start]
  outlines := [("a.typ", [.mk ⟨"é", .heading 1, 1, 3⟩ []])]
  texts := [("a.typ", "xé")]

theorem isProper_save_lettered (h : IsWorkspaceName workspace) (start : Nat) :
    (Operation.save workspace (lettered start)).IsProper := by
  have hnodup : ["id", "file", "byte_offset", "byte_length"].Nodup := by decide
  refine ⟨h, fun saved hsaved => ?_⟩
  cases hsaved
  exact {
    documents := ⟨trivial, trivial, trivial⟩
    symbols := ⟨trivial, ⟨hnodup, trivial, trivial, trivial, trivial, trivial⟩, trivial⟩
    outlines := List.nodup_singleton _
    texts := ⟨List.forall_mem_singleton.mpr (by decide), List.nodup_singleton _⟩ }

/-- Two workspaces are saved, and one of them is deleted. -/
def twoLettered : List Operation := [.save "w" (lettered 1), .save "v" (lettered 0), .delete "v"]

/-- A letter, time and again. -/
def repeated (n : Nat) : String := String.ofList (List.replicate n 'x')

theorem eq_of_mem_repeated {n : Nat} {c : Char} (h : c ∈ (repeated n).toList) : c = 'x' := by
  rw [repeated, String.toList_ofList] at h
  exact (List.mem_replicate.mp h).2

theorem isWorkspaceName_repeated {n : Nat} (h : 0 < n) : IsWorkspaceName (repeated n) := by
  have hother (text : String) (c : Char) (hc : c ∈ text.toList) (hx : c ≠ 'x') : repeated n ≠ text := by
    rintro rfl
    exact hx (eq_of_mem_repeated hc)
  refine ⟨⟨fun hslash => ?_, ?_, hother "." '.' (by decide) (by decide), hother ".." '.' (by decide) (by decide)⟩, ?_⟩
  · exact absurd (eq_of_mem_repeated hslash) (by decide)
  · intro hempty
    have hlength := congrArg (·.toList.length) hempty
    simp [repeated, Nat.ne_of_gt h] at hlength
  · rw [isIndexName, ← Bool.not_eq_true, List.isSuffixOf_iff_suffix]
    exact fun hsuffix => absurd (eq_of_mem_repeated (hsuffix.subset (by decide : '.' ∈ ".json".toList))) (by decide)

/-- A workspace with a name of 300 letters is not looked up. -/
theorem load_repeated :
    indexStore.load (repeated 300) workSite workWorld =
      (.error (.disk (.trouble .nameTooLong (some (indexStore.indexPath (repeated 300)).toText))), workWorld) := by
  have hname : Path.IsName (repeated 300) := (isWorkspaceName_repeated (by decide)).1
  refine load_of_not_isShort isNew_indexStore.opened hname ?_ fun hshort => ?_
  · rw [indexPath_eq hname]
    have htext : (⟨"", ["index", repeated 300 ++ ".json"]⟩ : Path).toText = "index/" ++ (repeated 300 ++ ".json") := rfl
    change ¬ '\x00' ∈ (⟨"", ["index", repeated 300 ++ ".json"]⟩ : Path).toText.toList
    rw [htext, String.toList_append, String.toList_append, List.mem_append, List.mem_append, not_or, not_or]
    exact ⟨by decide, fun hnull => absurd (eq_of_mem_repeated hnull) (by decide), by decide⟩
  · have hbytes : (repeated 300 ++ ".json").utf8ByteSize = 305 := by decide +kernel
    have hnames := hshort.names
    rw [indexPath_eq hname] at hnames
    rcases hnames (repeated 300 ++ ".json") (List.mem_append_right _ (.head _)) with hback | hname
    · exact absurd (congrArg String.utf8ByteSize hback) (by rw [hbytes]; decide)
    · exact absurd hname (by rw [hbytes]; decide)

/-- The same folder, reached through the texts of a workspace. -/
def roundStore : Store := ⟨⟨"", ["index", "w", ".."]⟩⟩

def roundWorld : World := ⟨workWorld.disk.put ["work", "index", "w"] .folder, []⟩

/-- Two workspaces are saved, and the one is deleted through whose texts the store is reached. -/
def roundOperations : List Operation := [.save "w" (lettered 1), .save "v" (lettered 1), .delete "w"]

/-- Limits by which there is room to write one level more than to load. -/
def tightLimits : Limits := { write := some 5, load := some 4 }

end Store

end DocOutline
