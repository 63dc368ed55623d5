import DocOutline.Proofs.Grammar.Coverage
import DocOutline.Proofs.Store.Agreement
import DocOutline.Proofs.Tools.Discovery
import DocOutline.Tools.Workspace

/-!
# Outlining the documents of a folder

What comes of a document depends on its text alone: two disks on which its file is read alike give the same outcome
(`agrees_indexDocument`), whatever time it is. The documents that have an outline are some of those that were tried, each
with its own path and the text of its file (`isFrom_of_mem_outlined`).
-/

namespace DocOutline

namespace Outline

theorem eq_typst_of_lookup {language : String} {tables : Grammar.Tables}
    (h : Grammar.languages.lookup language = some tables) : tables = Grammar.typst := by
  rw [Grammar.languages, List.lookup_cons] at h
  split at h
  · exact (Option.some_injective _ h).symm
  · cases h

/-- The outline of a text comes from the tree that it is parsed to, if there is a grammar for it. -/
theorem extract_ok {parser : Parser} {content language : String} {scope : Symbol.Scope} {forest : Forest}
    (h : extract parser content scope language = .ok forest) :
    forest = [] ∨ ∃ tree, parse parser Grammar.typst content = .ok tree ∧ build (Syntax.Cursor.root tree) scope = .ok forest := by
  unfold extract at h
  split at h
  · cases h
    exact .inl rfl
  · next tables htables =>
    obtain ⟨tree, hparse, hbuild⟩ := Grammar.exists_of_bind_eq_ok h
    rw [eq_typst_of_lookup htables] at hparse
    exact .inr ⟨tree, hparse, Grammar.eq_ok_of_mapError hbuild⟩

end Outline

namespace Tools

open DocOutline.Action
open DocOutline.Symbol (Scope)

variable {site : Site} {world world' : World} {disk disk' : Disk} {folder path : Path} {parts : List String}
  {sources : List (List String)} {tried : List (Except String Indexed)} {document : Indexed} {bytes bytes' : Text.Bytes}

/-! ## Texts -/

theorem readText_apply (path : Path) (site : Site) (world : World) :
    readText path site world = (((world.disk.read site.folder path).map Text.readAs).mapError .disk, world) := by
  have hask : ask Disk.read path site world = _ := ask_apply Disk.read path
  unfold readText
  cases hread : world.disk.read site.folder path with
  | error error =>
    rw [hread] at hask
    exact bind_of_error _ hask
  | ok bytes =>
    rw [hread] at hask
    exact bind_of_ok _ hask

theorem readText_ok {content : String} (h : (readText path site world).1 = .ok content) :
    ∃ bytes, world.disk.read site.folder path = .ok bytes ∧ content = Text.readAs bytes := by
  rw [readText_apply] at h
  cases hread : world.disk.read site.folder path with
  | error error => rw [hread] at h; cases h
  | ok bytes => rw [hread] at h; cases h; exact ⟨bytes, rfl, rfl⟩

/-- A file with the same text on two disks is read alike, if the way there is. -/
theorem agrees_readText (hparts : path.parts ≠ [])
    (hstops : ∀ stop ∈ Path.stops (path.start site.folder) path.parts, disk'.item? stop = disk.item? stop)
    (hitem : disk.item? (path.target site.folder) = some (.file bytes))
    (hitem' : disk'.item? (path.target site.folder) = some (.file bytes'))
    (htext : Text.readAs bytes' = Text.readAs bytes) : Agrees site disk disk' (readText path) := by
  refine ⟨((disk.read site.folder path).map Text.readAs).mapError .disk, [], fun before => ?_⟩
  rw [readText_apply, readText_apply, List.append_nil, Disk.read_of_item? hparts hitem, Disk.read_of_item? hparts hitem',
    Disk.locate_congr hstops]
  refine ⟨rfl, ?_⟩
  cases disk.locate site.folder path with
  | error error => rfl
  | ok place => simp only [Except.map, htext]

/-! ## Documents -/

theorem agrees_outlineOf (content : String) (scope : Scope) (language : String) :
    Agrees site disk disk' (outlineOf content scope language) := by
  refine agrees_read.bind fun site => ?_
  split
  · exact agrees_pure _
  · split
    · exact (agrees_forM fun record _ => agrees_log record).bind fun _ => agrees_pure none
    · exact agrees_ofExcept _ _

/-- The outline of a text is what the parser's tree gives. -/
theorem outlineOf_ok {content language : String} {scope : Scope} {forest : Forest}
    (h : outlineOf content scope language site world = (.ok (some forest), world')) :
    Outline.extract site.parser content scope language = .ok forest := by
  rw [outlineOf, bind_of_ok _ read_apply] at h
  cases hextract : Outline.extract site.parser content scope language with
  | ok found =>
    rw [hextract] at h
    cases h
    rfl
  | error error =>
    rw [hextract] at h
    match error with
    | .outline (.structure _) =>
      obtain ⟨⟨⟩, last, -, hreturn⟩ := bind_ok.mp h
      cases hreturn
    | .outline .noFrame | .parser _ => cases h

def documentPath (folder : Path) (parts : List String) : Path := { folder with parts := folder.parts ++ parts }

/-- **What comes of a document depends on its text.** -/
theorem agrees_indexDocument (h : Agrees site disk disk' (readText (documentPath folder parts))) :
    Agrees site disk disk' (indexDocument folder parts) := by
  refine h.outcome.bind fun outcome => ?_
  match outcome with
  | .error _ => exact agrees_pure _
  | .ok content =>
    refine (agrees_outlineOf content _ _).outcome.bind fun forest? => ?_
    match forest? with
    | .ok (some _) => exact agrees_pure _
    | .ok none => exact agrees_pure _
    | .error _ => exact (agrees_log _).bind fun _ => agrees_pure _

theorem ignoresTime_outlineOf (content : String) (scope : Scope) (language : String) :
    IgnoresTime (outlineOf content scope language) := by
  intro site time
  funext world
  rw [outlineOf, bind_of_ok _ read_apply, bind_of_ok _ read_apply]
  match Outline.extract site.parser content scope language with
  | .ok forest => rfl
  | .error error =>
    have hlogged : IgnoresTime (do error.records.forM Action.log; return none : Action (Option Forest)) :=
      (ignoresTime_forM fun _ => ignoresTime_log _).bind fun _ => ignoresTime_pure none
    match error with
    | .outline (.structure _) => exact congrFun (hlogged site time) world
    | .outline .noFrame | .parser _ => rfl

/-- It does not depend on the time. -/
theorem ignoresTime_indexDocument (folder : Path) (parts : List String) : IgnoresTime (indexDocument folder parts) := by
  have hread : IgnoresTime (readText (documentPath folder parts)) := (ignoresTime_ask _ _).bind fun _ => ignoresTime_pure _
  refine hread.outcome.bind fun outcome => ?_
  match outcome with
  | .error _ => exact ignoresTime_pure _
  | .ok content =>
    refine (ignoresTime_outlineOf content _ _).outcome.bind fun forest? => ?_
    match forest? with
    | .ok (some _) => exact ignoresTime_pure _
    | .ok none => exact ignoresTime_pure _
    | .error _ => exact (ignoresTime_log _).bind fun _ => ignoresTime_pure _

/-! ## Documents with an outline -/

/-- Whether a document is the one at the end of `parts` in a folder, with the text of the file there. -/
structure Indexed.IsFrom (document : Indexed) (disk : Disk) (folder : Place) (parts : List String) : Prop where
  file : document.file = Discovery.pathText parts
  content : ∃ bytes, disk.item? (folder ++ parts) = some (.file bytes) ∧ document.content = Text.readAs bytes

theorem agrees_indexDocument_self (folder : Path) (parts : List String) :
    Agrees site disk disk (indexDocument folder parts) :=
  agrees_indexDocument ((agrees_ask rfl).bind fun _ => agrees_pure _)

/-- Outlining documents leaves the disk alone. -/
theorem disk_mapM_indexDocument (hrun : sources.mapM (indexDocument folder) site world = (.ok tried, world')) :
    world'.disk = world.disk := by
  have hmap : Agrees site world.disk world.disk (sources.mapM (indexDocument folder)) :=
    Agrees.mapM fun parts _ => agrees_indexDocument_self folder parts
  have hdisk := hmap.disk_eq
  rwa [hrun] at hdisk

theorem isResolved_documentPath (hfolder : folder.IsResolved) (hparts : IsNamed parts) :
    (documentPath folder parts).IsResolved :=
  ⟨hfolder.root, List.forall_mem_append.mpr ⟨hfolder.named, hparts⟩⟩

/-- A document that has an outline has the text of its file. -/
theorem indexDocument_ok (hfolder : folder.IsResolved) (hparts : IsNamed parts)
    (hrun : indexDocument folder parts site world = (.ok (.ok document), world')) :
    document.IsFrom world.disk folder.parts parts := by
  obtain ⟨outcome, middle, hread, hrun⟩ := bind_ok.mp hrun
  have houtcome : (readText (documentPath folder parts) site world).1 = outcome := Except.ok.inj (congrArg Prod.fst hread)
  match outcome with
  | .error _ => cases hrun
  | .ok content =>
    obtain ⟨bytes, hbytes, rfl⟩ := readText_ok houtcome
    have hitem := Disk.item?_of_read hbytes
    rw [(isResolved_documentPath hfolder hparts).target_eq] at hitem
    obtain ⟨forest?, last, -, hreturn⟩ := bind_ok.mp hrun
    match forest? with
    | .ok (some forest) =>
      cases hreturn
      exact ⟨rfl, bytes, hitem, rfl⟩
    | .ok none => cases hreturn
    | .error fault => cases hreturn

/-- A document that has an outline has the one of its text. -/
theorem extract_of_indexDocument (hrun : indexDocument folder parts site world = (.ok (.ok document), world')) :
    ∃ language, Outline.extract site.parser document.content .symbol language = .ok document.forest := by
  obtain ⟨outcome, middle, -, hrun⟩ := bind_ok.mp hrun
  match outcome with
  | .error _ => cases hrun
  | .ok content =>
    obtain ⟨forest?, last, houtline, hreturn⟩ := bind_ok.mp hrun
    match forest? with
    | .ok (some forest) =>
      cases hreturn
      exact ⟨_, outlineOf_ok (Prod.ext (Except.ok.inj (congrArg Prod.fst houtline)) rfl)⟩
    | .ok none => cases hreturn
    | .error fault => cases hreturn

/-- What came of each document of a folder. -/
theorem mapM_indexDocument_ok (hfolder : folder.IsResolved) (hsources : ∀ parts ∈ sources, IsNamed parts)
    (hrun : sources.mapM (indexDocument folder) site world = (.ok tried, world')) :
    List.Forall₂ (fun parts tried => ∀ document, tried = .ok document → document.IsFrom world.disk folder.parts parts)
      sources tried := by
  induction sources generalizing world tried with
  | nil =>
    cases hrun
    exact .nil
  | cons parts sources ih =>
    rw [List.forall_mem_cons] at hsources
    rw [List.mapM_cons] at hrun
    obtain ⟨first, middle, hfirst, hrun⟩ := bind_ok.mp hrun
    obtain ⟨others, last, hothers, hreturn⟩ := bind_ok.mp hrun
    cases hreturn
    have hdisk : (indexDocument folder parts site world).2.disk = world.disk := (agrees_indexDocument_self folder parts).disk_eq
    rw [hfirst] at hdisk
    refine .cons (fun document hdocument => ?_) (hdisk ▸ ih hsources.2 hothers)
    exact indexDocument_ok hfolder hsources.1 (hdocument ▸ hfirst)

/-- **Each document with an outline comes from one that was tried**, and no two from one. -/
theorem isFrom_of_mem_outlined
    (h : List.Forall₂ (fun parts tried => ∀ document, tried = .ok document → document.IsFrom disk folder.parts parts)
      sources tried) :
    (∀ document ∈ outlined tried, ∃ parts ∈ sources, document.IsFrom disk folder.parts parts) ∧
      ((outlined tried).map Indexed.file).Sublist (sources.map Discovery.pathText) := by
  induction h with
  | nil => exact ⟨nofun, .slnil⟩
  | @cons parts first sources tried hfirst _ ih =>
    obtain ⟨hfrom, hfiles⟩ := ih
    have hothers : ∀ document ∈ outlined tried, ∃ other ∈ parts :: sources, document.IsFrom disk folder.parts other :=
      fun document hdocument => (hfrom document hdocument).imp fun _ => And.imp_left (.tail _)
    match first with
    | .error _ => exact ⟨hothers, hfiles.cons _⟩
    | .ok document =>
      have hdocument := hfirst document rfl
      refine ⟨List.forall_mem_cons.mpr ⟨⟨parts, .head _, hdocument⟩, hothers⟩, ?_⟩
      rw [List.map_cons, ← hdocument.file]
      exact hfiles.cons_cons _

end Tools

end DocOutline
