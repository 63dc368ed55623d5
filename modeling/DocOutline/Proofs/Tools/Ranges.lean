import DocOutline.Proofs.Grammar.Coverage
import DocOutline.Proofs.Outline.Names
import DocOutline.Proofs.Outline.Stored
import DocOutline.Proofs.Outline.WellFormed
import DocOutline.Proofs.Text.LineEnds
import DocOutline.Proofs.Tools.Outlining
import DocOutline.Tools.Document

/-!
# Ranges and files

The outline of a document is shown with the ranges of its entries. They are ranges of the text that the file is read as,
whose line ends are unified. So a range addresses the file itself only where no line end in front of it has got shorter
(`names_at_ranges`): behind a `\r\n` it is off (`name_beside_range`).
-/

namespace DocOutline

open DocOutline.Symbol (Entry Scope)
open DocOutline.Text (Spans decode? encode slice unifyLineEnds)

/-- Whether the spans of a parser's tree lie between characters of a source, and no call in it is without children. -/
structure Grammar.Tree.FitsSource (source : String) (root : Grammar.Tree) : Prop where
  placed : ∀ tree ∈ root.subtrees, tree.PlacedIn source
  calls : ∀ tree ∈ root.subtrees, tree.NoBareCall

namespace Outline

/-! ## Shown outlines -/

theorem toShownAll_eq_map (lines : Lines) (outlines : Forest) : toShownAll lines outlines = outlines.map (toShown lines) := by
  induction outlines with
  | nil => rfl
  | cons outline outlines ih => rw [toShownAll, ih, List.map_cons]

/-- An entry is shown with its name, its kind and its range. -/
theorem member?_toShown (lines : Lines) (outline : Outline String) :
    (toShown lines outline).member? "name" = some (.str outline.entry.name) ∧
      (toShown lines outline).member? "kind" = some (.str outline.entry.kind.label) ∧
      (toShown lines outline).member? "range" = some (.arr [.int outline.entry.start, .int outline.entry.stop]) := by
  obtain ⟨entry, children⟩ := outline
  exact ⟨rfl, rfl, rfl⟩

/-- What is shown as nested in an entry is what is nested in it. -/
theorem of_member?_children {lines : Lines} {outline : Outline String} {items : List Json}
    (h : (toShown lines outline).member? "children" = some (.arr items)) : items = outline.children.map (toShown lines) := by
  obtain ⟨⟨name, kind, start, stop⟩, children⟩ := outline
  have hmember : (toShown lines (mk ⟨name, kind, start, stop⟩ children)).member? "children" =
      (childrenMember (toShownAll lines children)).lookup "children" := by
    cases kind <;> rfl
  rw [hmember, toShownAll_eq_map] at h
  cases children with
  | nil => cases h
  | cons child children =>
    cases h
    rfl

/-- Each node of a shown outline shows an outline that is nested in it. -/
theorem exists_eq_toShown_of_isNode {lines : Lines} {outline : Outline String} {node : Json}
    (h : IsNode (toShown lines outline) node) : ∃ inner ∈ outline.nodes, node = toShown lines inner := by
  induction h with
  | top => exact ⟨outline, mem_nodes_self outline, rfl⟩
  | nested _ hitems hitem ih =>
    obtain ⟨inner, hinner, rfl⟩ := ih
    rw [of_member?_children hitems] at hitem
    obtain ⟨child, hchild, rfl⟩ := List.mem_map.1 hitem
    exact ⟨child, mem_nodes_child outline hinner hchild, rfl⟩

end Outline

namespace Symbol

theorem Kind.eq_heading_of_label {kind : Kind} (h : kind.label = "heading") : ∃ level, kind = .heading level := by
  match kind with
  | .heading level => exact ⟨level, rfl⟩
  | .named role => cases role <;> exact absurd h (by decide)
  | .group | .commentRun => exact absurd h (by decide)

theorem Kind.eq_variable_of_label {kind : Kind} (h : kind.label = "variable") : kind = .named .variable := by
  match kind with
  | .heading level => exact absurd (show "heading" = "variable" from h) (by decide)
  | .named role => cases role <;> first | rfl | exact absurd h (by decide)
  | .group | .commentRun => exact absurd h (by decide)

end Symbol

namespace Outline

/-- A tree that was parsed reads its source. -/
theorem fullText_of_parse {parser : Parser} {content : String} {tree : Syntax.Node}
    (hparser : ∀ tree, parser content = .ok tree → tree.FitsSource content)
    (h : parse parser Grammar.typst content = .ok tree) : tree.fullText = content := by
  obtain ⟨root, hparsed, hlower⟩ := Grammar.exists_of_bind_eq_ok h
  have hfits := hparser root (Grammar.eq_ok_of_mapError hparsed)
  exact (Grammar.spans_lowerRoot hfits.placed hfits.calls (Grammar.eq_ok_of_mapError hlower)).eq_source

/-- In the outline of a source, the bytes at the range of a heading or a variable decode to its name. -/
theorem namedAtRange_of_extract {parser : Parser} {content language : String} {scope : Scope} {forest : Forest}
    (hparser : ∀ tree, parser content = .ok tree → tree.FitsSource content)
    (h : extract parser content scope language = .ok forest) :
    ∀ entry ∈ (flattenAll 0 forest).map Prod.fst, entry.NamedAtRange content := by
  rcases extract_ok h with rfl | ⟨tree, hparse, hbuild⟩
  · exact nofun
  · intro entry hentry
    have hstands := forall_entries_of_run (establishes_nameStands tree.fullText scope) (Syntax.Cursor.spans_root tree)
      hbuild entry hentry
    rw [fullText_of_parse hparser hparse] at hstands
    exact hstands.namedAtRange

end Outline

namespace Tools

open DocOutline.Action

variable {site : Site} {world world' : World} {path text content language : String} {scope result : Json} {file : Path}
  {forest : Forest}

/-- A document that is loaded has the text of its file. -/
theorem loadDocument_ok (hexpand : (Path.ofText path).expand? site.homeOf? = some file)
    (h : loadDocument (.str path) site world = (.ok (.ok (content, language)), world')) :
    ∃ bytes, world.disk.read site.folder file = .ok bytes ∧ content = Text.readAs bytes := by
  obtain ⟨text, middle, haccess, h⟩ := bind_ok.mp h
  obtain ⟨htext, rfl⟩ := access_ok.mp haccess
  cases htext
  obtain ⟨expanded, middle, hexpanded, h⟩ := bind_ok.mp h
  obtain ⟨hsame, rfl⟩ := expand_ok.mp hexpanded
  obtain rfl : expanded = file := Option.some_injective _ (hsame.symm.trans hexpand)
  obtain ⟨isFile, middle, hask, h⟩ := bind_ok.mp h
  obtain ⟨-, rfl⟩ := ask_ok.mp hask
  cases isFile with
  | false => cases h
  | true =>
    rw [if_pos rfl] at h
    cases hlanguage : Discovery.language? expanded with
    | none =>
      rw [hlanguage] at h
      cases h
    | some known =>
      rw [hlanguage] at h
      obtain ⟨outcome, middle, hread, h⟩ := bind_ok.mp h
      have houtcome : (readText expanded site world).1 = outcome := Except.ok.inj (congrArg Prod.fst hread)
      match outcome with
      | .error fault => cases h
      | .ok read =>
        cases h
        exact readText_ok houtcome

/-- What is shown of an outline comes from the outline of the text that the file is read as. -/
theorem withOutline_ok {path : Json} {scope : Scope} {view : String → String → Forest → Json}
    (h : withOutline path scope view site world = (.ok result, world')) :
    (∃ message, result = failure message) ∨
      ∃ content language forest middle, loadDocument path site world = (.ok (.ok (content, language)), middle) ∧
        Outline.extract site.parser content scope language = .ok forest ∧ result = view content language forest := by
  obtain ⟨loaded, middle, hload, h⟩ := bind_ok.mp h
  match loaded with
  | .error message =>
    cases h
    exact .inl ⟨message, rfl⟩
  | .ok (content, language) =>
    obtain ⟨forest?, last, houtline, h⟩ := bind_ok.mp h
    match forest? with
    | none =>
      cases h
      exact .inl ⟨_, rfl⟩
    | some forest =>
      cases h
      exact .inr ⟨content, language, forest, middle, hload, outlineOf_ok houtline, rfl⟩

/-- Whether a value is a node of an answer: one of the symbols there, or nested in one at any depth. -/
def IsShownIn (answer node : Json) : Prop :=
  ∃ items item, answer.member? "symbols" = some (.arr items) ∧ item ∈ items ∧ Outline.IsNode item node

theorem not_isShownIn_failure (message : String) (node : Json) : ¬ IsShownIn (failure message) node := by
  rintro ⟨items, item, hitems, -⟩
  cases hitems

/-- The nodes of an answer show the outline of the text that the file is read as. -/
theorem exists_toShown_of_isShownIn {node : Json} (hexpand : (Path.ofText path).expand? site.homeOf? = some file)
    (hrun : documentOutline (.str path) scope site world = (.ok result, world')) (hnode : IsShownIn result node) :
    ∃ bytes scope language forest, world.disk.read site.folder file = .ok bytes ∧
      Outline.extract site.parser (Text.readAs bytes) scope language = .ok forest ∧
      ∃ outline ∈ Outline.nodesAll forest, node = outline.toShown (Lines.ofText (Text.readAs bytes)) := by
  obtain ⟨name, middle, haccess, hrun⟩ := bind_ok.mp hrun
  obtain ⟨-, rfl⟩ := access_ok.mp haccess
  cases hscope : Scope.ofName? (Text.lower name) with
  | none =>
    rw [hscope] at hrun
    cases hrun
    exact absurd hnode (not_isShownIn_failure _ node)
  | some found =>
    rw [hscope] at hrun
    rcases withOutline_ok hrun with ⟨message, rfl⟩ | ⟨content, language, forest, middle, hload, hextract, rfl⟩
    · exact absurd hnode (not_isShownIn_failure message node)
    obtain ⟨bytes, hread, rfl⟩ := loadDocument_ok hexpand hload
    obtain ⟨items, item, hitems, hitem, hnode⟩ := hnode
    obtain rfl : Outline.toShownAll (Lines.ofText (Text.readAs bytes)) forest = items :=
      Json.arr.inj (Option.some_injective _ hitems)
    rw [Outline.toShownAll_eq_map] at hitem
    obtain ⟨top, htop, rfl⟩ := List.mem_map.1 hitem
    obtain ⟨outline, houtline, rfl⟩ := Outline.exists_eq_toShown_of_isNode hnode
    exact ⟨bytes, found, language, forest, hread, hextract, outline, Outline.mem_nodesAll.2 ⟨top, htop, houtline⟩, rfl⟩

/-- **At the range of a heading or a variable stands its name**, in the text that the file is read as, and in the file
itself if no `\r\n` begins in front of the end of the range, and no `\r` is in it (`load_document` and
`get_document_outline`). -/
theorem names_at_ranges (hexpand : (Path.ofText path).expand? site.homeOf? = some file)
    (hfile : world.disk.read site.folder file = .ok (encode text))
    (hparser : ∀ tree, site.parser (unifyLineEnds text) = .ok tree → tree.FitsSource (unifyLineEnds text))
    (hrun : documentOutline (.str path) scope site world = (.ok result, world')) :
    ∀ node, IsShownIn result node →
      node.member? "kind" = some (.str "heading") ∨ node.member? "kind" = some (.str "variable") →
      ∃ (name : String) (start stop : Nat), node.member? "name" = some (.str name) ∧
        node.member? "range" = some (.arr [.int start, .int stop]) ∧
        decode? (slice (encode (unifyLineEnds text)) start stop) = .ok name ∧
        (Text.Addresses (encode text) start stop → decode? (slice (encode text) start stop) = .ok name) := by
  intro node hnode hkind
  obtain ⟨bytes, scope, language, forest, hread, hextract, outline, houtline, rfl⟩ :=
    exists_toShown_of_isShownIn hexpand hrun hnode
  obtain rfl : encode text = bytes := Except.ok.inj (hfile.symm.trans hread)
  rw [Text.readAs, Text.decode_encode] at hextract hkind ⊢
  have hentry : outline.entry ∈ (Outline.flattenAll 0 forest).map Prod.fst := by
    rw [← Outline.entry_nodesAll]
    exact List.mem_map_of_mem houtline
  have hnamed := Outline.namedAtRange_of_extract hparser hextract outline.entry hentry
  obtain ⟨hname, hlabel, hrange⟩ := Outline.member?_toShown (Lines.ofText (unifyLineEnds text)) outline
  rw [hlabel] at hkind
  have hdecode : outline.entry.kind ≠ .commentRun ∧
      decode? (outline.entry.bytes (unifyLineEnds text)) = .ok outline.entry.name := by
    rcases hkind with hkind | hkind
    · obtain ⟨level, hkind⟩ := Symbol.Kind.eq_heading_of_label (Json.str.inj (Option.some_injective _ hkind))
      exact ⟨by simp [hkind], hnamed.ofHeading level hkind⟩
    · have hkind := Symbol.Kind.eq_variable_of_label (Json.str.inj (Option.some_injective _ hkind))
      exact ⟨by simp [hkind], hnamed.ofVariable hkind⟩
  obtain ⟨hstart, hstop, -⟩ := hnamed.bounds hdecode.1
  refine ⟨outline.entry.name, outline.entry.start.toNat, outline.entry.stop.toNat, hname, ?_, hdecode.2, fun haddresses => ?_⟩
  · rw [hrange, Int.toNat_of_nonneg hstart, Int.toNat_of_nonneg (by omega)]
  · rw [Text.slice_encode_of_addresses haddresses]
    exact hdecode.2

/-! ## Files with carriage returns -/

/-- A document that is loaded and has an outline is shown with it. -/
theorem documentOutline_of_extract {path : Json} {scope : Scope} (hload : loadDocument path site world =
      (.ok (.ok (content, language)), world')) (hextract : Outline.extract site.parser content scope language = .ok forest) :
    documentOutline path (.str scope.name) site world =
      (.ok (.obj [("file", path), ("language", .str language), ("scope", .str scope.name),
        ("symbols", .arr (Outline.toShownAll (Lines.ofText content) forest))]), world') := by
  have hname : Scope.ofName? (Text.lower scope.name) = some scope := by
    cases scope <;> rfl
  have houtline : outlineOf content scope language site world' = (.ok (some forest), world') := by
    rw [outlineOf, bind_of_ok _ read_apply, hextract]
    rfl
  have haccess : access (Json.text "lower" (.str scope.name)) site world = (.ok scope.name, world) :=
    access_ok.mpr ⟨rfl, rfl⟩
  rw [documentOutline, bind_of_ok _ haccess, hname]
  refine (bind_of_ok _ hload).trans ?_
  exact bind_of_ok _ houtline

/-- The parser's tree of a document with one heading, which is at an offset. -/
def headedTreeAt (offset : Nat) : Grammar.Tree :=
  .node "source_file" 0 (offset + 4) [.node "section" offset (offset + 4) [.node "heading" offset (offset + 3)
    [.node "=" offset (offset + 1) [] true false, .node "text" (offset + 2) (offset + 3) [] false false] false false]
      false false] false false

def headedOutlineAt (offset : Nat) : Outline String := .mk ⟨"X", .heading 1, offset + 2, offset + 3⟩ []

def readingSite (offset : Nat) : Site :=
  ⟨["work"], fun _ => none, none, "2025-01-15T10:00:00", fun _ => .ok (headedTreeAt offset)⟩

def documentWorld (text : String) : World := ⟨⟨[(["work"], .folder), (["work", "a.typ"], .file (encode text))]⟩, []⟩

/-- The answer for that document, if it is read as another text. -/
def headedAnswer (content : String) (offset : Nat) : Json :=
  .obj [("file", .str "a.typ"), ("language", .str "typst"), ("scope", .str "symbol"),
    ("symbols", .arr [(headedOutlineAt offset).toShown (Lines.ofText content)])]

/-- What the answer shows of the heading. -/
theorem member?_headedOutlineAt (content : String) (offset : Nat) :
    ((headedOutlineAt offset).toShown (Lines.ofText content)).member? "name" = some (.str "X") ∧
      ((headedOutlineAt offset).toShown (Lines.ofText content)).member? "kind" = some (.str "heading") ∧
      ((headedOutlineAt offset).toShown (Lines.ofText content)).member? "range" =
        some (.arr [.int (offset + 2), .int (offset + 3)]) :=
  Outline.member?_toShown (Lines.ofText content) (headedOutlineAt offset)

theorem isShownIn_headedAnswer (content : String) (offset : Nat) :
    IsShownIn (headedAnswer content offset) ((headedOutlineAt offset).toShown (Lines.ofText content)) :=
  ⟨_, _, rfl, List.mem_singleton_self _, .top⟩

/-- A document whose text has that heading is answered so. -/
theorem documentOutline_headed {content : String} {offset : Nat}
    (hload : loadDocument (.str "a.typ") site world = (.ok (.ok (content, "typst")), world'))
    (hextract : Outline.extract site.parser content .symbol "typst" = .ok [headedOutlineAt offset]) :
    documentOutline (.str "a.typ") (.str "symbol") site world = (.ok (headedAnswer content offset), world') :=
  documentOutline_of_extract hload hextract

/-- The carriage return behind a heading does not matter. -/
theorem names_at_ranges_headed :
    documentOutline (.str "a.typ") (.str "symbol") (readingSite 0) (documentWorld "= X\r\n") =
        (.ok (headedAnswer "= X\n" 0), documentWorld "= X\r\n") ∧
      ∃ name, ((headedOutlineAt 0).toShown (Lines.ofText "= X\n")).member? "name" = some (.str name) ∧
        ((headedOutlineAt 0).toShown (Lines.ofText "= X\n")).member? "range" = some (.arr [.int 2, .int 3]) ∧
        decode? (slice (encode "= X\r\n") 2 3) = .ok name := by
  have hload : loadDocument (.str "a.typ") (readingSite 0) (documentWorld "= X\r\n") =
      (.ok (.ok ("= X\n", "typst")), documentWorld "= X\r\n") := rfl
  have hextract : Outline.extract (readingSite 0).parser "= X\n" .symbol "typst" = .ok [headedOutlineAt 0] :=
    Outline.eq_ok_of_toOption (by decide +kernel)
  have hrun := documentOutline_headed hload hextract
  have hunify : unifyLineEnds "= X\r\n" = "= X\n" := by decide
  have hparser : ∀ tree, (readingSite 0).parser (unifyLineEnds "= X\r\n") = .ok tree →
      tree.FitsSource (unifyLineEnds "= X\r\n") := by
    rw [hunify]
    rintro tree ⟨⟩
    exact ⟨by decide +kernel, by decide⟩
  have hexpand : (Path.ofText "a.typ").expand? (readingSite 0).homeOf? = some (Path.ofText "a.typ") := rfl
  have hfile : (documentWorld "= X\r\n").disk.read (readingSite 0).folder (Path.ofText "a.typ") =
      .ok (encode "= X\r\n") := rfl
  obtain ⟨-, hkind, hshown⟩ := member?_headedOutlineAt "= X\n" 0
  obtain ⟨name, start, stop, hname, hrange, -, hread⟩ :=
    names_at_ranges hexpand hfile hparser hrun _ (isShownIn_headedAnswer "= X\n" 0) (.inl hkind)
  have hbounds : 2 = start ∧ 3 = stop := by
    simpa [hshown, ← Int.natCast_inj] using hrange
  obtain ⟨rfl, rfl⟩ := hbounds
  exact ⟨hrun, name, hname, hshown, hread (by decide)⟩

/-- **Behind a `\r\n` ranges are off.** The range of the heading addresses the byte in front of it. -/
theorem name_beside_range :
    documentOutline (.str "a.typ") (.str "symbol") (readingSite 2) (documentWorld "a\r\n= X\r\n") =
        (.ok (headedAnswer "a\n= X\n" 2), documentWorld "a\r\n= X\r\n") ∧
      (∀ tree, (readingSite 2).parser (unifyLineEnds "a\r\n= X\r\n") = .ok tree →
        tree.FitsSource (unifyLineEnds "a\r\n= X\r\n")) ∧
      ∃ node, IsShownIn (headedAnswer "a\n= X\n" 2) node ∧ node.member? "kind" = some (.str "heading") ∧
        node.member? "name" = some (.str "X") ∧ node.member? "range" = some (.arr [.int 4, .int 5]) ∧
        decode? (slice (encode "a\r\n= X\r\n") 4 5) = .ok " " := by
  have hload : loadDocument (.str "a.typ") (readingSite 2) (documentWorld "a\r\n= X\r\n") =
      (.ok (.ok ("a\n= X\n", "typst")), documentWorld "a\r\n= X\r\n") := rfl
  have hextract : Outline.extract (readingSite 2).parser "a\n= X\n" .symbol "typst" = .ok [headedOutlineAt 2] :=
    Outline.eq_ok_of_toOption (by decide +kernel)
  have hunify : unifyLineEnds "a\r\n= X\r\n" = "a\n= X\n" := by decide
  have hdecode : decode? (slice (encode "a\r\n= X\r\n") 4 5) = .ok " " := rfl
  obtain ⟨hname, hkind, hrange⟩ := member?_headedOutlineAt "a\n= X\n" 2
  refine ⟨documentOutline_headed hload hextract, ?_, _, isShownIn_headedAnswer "a\n= X\n" 2, hkind, hname, hrange, hdecode⟩
  rw [hunify]
  rintro tree ⟨⟩
  exact ⟨by decide +kernel, by decide⟩

end Tools

end DocOutline
