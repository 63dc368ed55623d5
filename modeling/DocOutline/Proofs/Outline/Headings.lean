import DocOutline.Proofs.Grammar.Titles
import DocOutline.Proofs.Outline.Definitions
import DocOutline.Proofs.Outline.Shared

/-!
# Headings of a source

The lowering takes a heading of a parser's tree apart, and the walk puts its title and its level together again, from the
content and the marker. The headings of an outline come about place by place (`located_headings`), in both scopes: each is
the content of a heading that the walk enters.

Main statement `headings_of_extract`: whatever a heading has in it, and however its children lie, its title is an entry of
the outline, with the bytes that it has in the source, if the walk comes to it; one without a title has none.
-/

namespace DocOutline

open DocOutline.Grammar (Tree lower lowerRoot textAt typst headingParts headingNode signsOf titleOf bytesBefore)
open DocOutline.Symbol (Entry Scope classify entryAt headingAt?)
open DocOutline.Syntax (Cursor Node)
open DocOutline.Syntax.Node (fullTexts)
open Text (Spans encode)

/-- The entry that a heading should have: its title, its level, and the bytes of the title. Without a title it has none. -/
def Grammar.headingEntry? (start : Nat) (text : String) : Option (Entry String) :=
  if titleOf text = "" then none
  else
    let front := start + bytesBefore text
    some ⟨titleOf text, .heading (max 1 (signsOf text) : Nat), front, (front + (titleOf text).utf8ByteSize : Nat)⟩

/-- The entry that a node should have, if that is a heading. -/
def Grammar.Tree.headingEntry? (source : String) (tree : Tree) : Option (Entry String) :=
  Grammar.headingEntry? tree.start (textAt (encode source) tree.start tree.stop)

namespace Outline

def headings (entries : List (Entry String)) : List (Entry String) := entries.filter (·.kind.isHeading)

variable {source text : String} {scope : Scope} {root tree : Tree} {here parent : Cursor} {nodes content : List Node}
  {start stop : Nat}

/-! ## Headings come about place by place -/

theorem headingAt?_of_ne_markup (hkind : here.kind ≠ .markup) : headingAt? here = none := if_neg hkind

theorem isShared_of_opens {naming : Symbol.Naming} {entry : Entry String} (h : Symbol.Opens here scope naming entry) :
    entry.kind.isShared = entry.kind.isHeading := by
  cases h <;> rfl

/-- The headings of an outline come about place by place: the content of a heading has its entry. -/
theorem located_headings (scope : Scope) (root : Cursor) : Located scope root (·.kind.isHeading) headingAt? where
  entry _ hclass := by
    have hopens := Symbol.opens_of_classify hclass
    rw [hopens.toList_headingAt?, List.filter_singleton, List.filter_singleton, isShared_of_opens hopens]
  function hkind _ _ := by
    rw [headingAt?_of_ne_markup (by simp [hkind])]
    rfl
  structural hclass _ := Symbol.headingAt?_eq_none hclass
  name hident := headingAt?_of_ne_markup (by simp [hident])
  commentRun _ hkind := by rw [hkind]; rfl

/-- All children of a heading are entered with it. -/
theorem Traverses.children_subset {visits : List Visit} {entered : List Cursor} (h : Traverses scope visits entered)
    (hhere : here ∈ entered) (hkind : here.kind = .heading) : here.children ⊆ entered := by
  obtain ⟨visit, symbol?, inner, rfl, hclass, hinner, hsubset⟩ := h.exists_visit hhere
  have hnone : classify visit.here scope visit.naming = .ok none := by
    simp [classify, hkind, Symbol.isGroup, Symbol.isMarkupGroup, Symbol.isBlockGroup, Symbol.isExprGroup]
  cases hclass.symm.trans hnone
  have hlooks : visit.looks scope none = visit.beneath := by
    rw [Visit.looks_of_parts fun _ hclosure => (by cases hkind.symm.trans hclosure), Visit.parts, hkind]
    rfl
  rw [hlooks] at hinner
  exact fun child hchild => hsubset (hinner.here_mem (List.mem_map_of_mem hchild))

/-! ## Lowered headings -/

theorem filterMap_headingAt?_siblings {index offset : Nat} (h : ∀ node ∈ nodes, node.kind ≠ .markup) :
    (Cursor.siblings parent index offset nodes).filterMap headingAt? = [] :=
  List.filterMap_eq_nil_iff.2 fun _ hplace => headingAt?_of_ne_markup (h _ (Cursor.mem_siblings hplace).1)

/-- The content of a heading has the entry of the heading. -/
theorem headingAt?_content {place : Cursor} (hparent : place.parent? = some here) (hheading : here.kind = .heading)
    (hkind : place.kind = .markup) (htext : place.fullText ≠ "") :
    headingAt? place = some (entryAt place place.fullText (.heading here.node.headingDepth)) := by
  rw [headingAt?, if_pos hkind, Symbol.classifyMarkup, hparent]
  exact if_pos ⟨hheading, htext⟩

/-- **Among the children of a heading, the content has the entry with the title**, and no other child has one. -/
theorem filterMap_headingAt?_headingNode (hspan : Spans source start stop text)
    (hnode : here.node = headingNode (encode source) (headingParts start stop text) stop content)
    (hoffset : here.offset = start)
    (hcontent : (headingParts start stop text).contentStart < (headingParts start stop text).contentEnd →
      Spans source (headingParts start stop text).contentStart (headingParts start stop text).contentEnd
        (fullTexts content)) :
    here.children.filterMap headingAt? = (Grammar.headingEntry? start text).toList := by
  obtain ⟨hiff, htitleSpan⟩ := Grammar.spans_content hspan
  by_cases htitle : titleOf text = ""
  · -- Without a title there is no content, and the marker and the gaps are no markup.
    obtain ⟨children, hchildren, hmarkup⟩ := Grammar.headingNode_of_no_content (encode source) stop content
      fun hlt => hiff.1 hlt htitle
    rw [Cursor.children, hnode, hchildren, Grammar.headingEntry?, if_pos htitle]
    exact filterMap_headingAt?_siblings hmarkup
  have hlt := hiff.2 htitle
  -- Whatever nodes the content consists of, they read the stretch of the title.
  have hread : fullTexts content = titleOf text := (hcontent hlt).text_unique (htitleSpan htitle)
  have hdepth : here.node.headingDepth = max 1 (signsOf text) := by
    rw [hnode]
    exact Grammar.headingDepth_headingNode _
  obtain ⟨front, rest, hheading, hfront, hmarkup⟩ := Grammar.exists_headingNode_eq hspan hlt
  rw [hheading] at hnode
  have hkind : here.kind = .heading := by
    rw [Cursor.kind, hnode]
    rfl
  have hstart : here.offset + Node.byteLens front = start + bytesBefore text := by
    rw [hoffset, hfront, Grammar.contentStart_headingParts]
  have hplace :
      headingAt? (.mk (.inner .markup content) (some here) (0 + front.length) (here.offset + Node.byteLens front)) =
        Grammar.headingEntry? start text := by
    rw [headingAt?_content rfl hkind rfl (by rwa [← hread] at htitle), hdepth, hstart, Grammar.headingEntry?, if_neg htitle,
      ← hread, Node.utf8ByteSize_fullTexts]
    rfl
  rw [Cursor.children, hnode, Node.children, Cursor.siblings_append, Cursor.siblings, List.filterMap_append,
    filterMap_cons_toList, hplace,
    filterMap_headingAt?_siblings fun node hnode => hmarkup node (List.mem_append_left _ hnode),
    filterMap_headingAt?_siblings fun node hnode => hmarkup node (List.mem_append_right _ hnode), List.nil_append,
    List.append_nil]

/-- At the place of a lowered heading, the content has the entry that the heading should have. -/
theorem filterMap_headingAt?_of_loweredAt (hat : tree.LoweredAt source here) (hsound : tree.SoundIn source)
    (hnamed : tree.IsNamed "heading") :
    here.kind = .heading ∧ here.children.filterMap headingAt? = (tree.headingEntry? source).toList := by
  obtain ⟨hoffset, parentType, depth, hlower⟩ := hat
  obtain ⟨hle, hbstart, hbstop⟩ := hsound.placed
  obtain ⟨content, hnode, hcontent⟩ := Grammar.exists_lowered_content hsound hnamed hlower
  refine ⟨by rw [Cursor.kind, hnode]; rfl, ?_⟩
  exact filterMap_headingAt?_headingNode (Grammar.textAt_spans hbstart hbstop hle) hnode hoffset hcontent

/-- The entry that a heading should have covers its title in the source. -/
theorem spans_of_headingEntry? {entry : Entry String} (hsound : tree.SoundIn source)
    (hentry : tree.headingEntry? source = some entry) : Spans source entry.start.toNat entry.stop.toNat entry.name := by
  obtain ⟨hle, hbstart, hbstop⟩ := hsound.placed
  obtain ⟨-, hspan⟩ := Grammar.spans_content (Grammar.textAt_spans hbstart hbstop hle)
  rw [Grammar.Tree.headingEntry?, Grammar.headingEntry?] at hentry
  split at hentry
  · cases hentry
  · next htitle =>
    have hspan := hspan htitle
    have hstop := hspan.stop_eq
    rw [Grammar.contentStart_headingParts] at hspan hstop
    rw [← hstop] at hspan
    simpa only [← Option.some.inj hentry, Int.toNat_natCast] using hspan

/-! ## Headings in outlines -/

variable {parser : Parser} {forest : Forest}

/-- **Headings survive the lowering.** The headings of an outline are those of the places that the walk enters. Each
named heading of the parser's tree that is kept has its place in the syntax tree. If it has a title, then among its
children there is one that has an entry: with the title, the number of signs as its level, and the bytes of the title in
the source. If it has none, no child of it has an entry. If the walk comes to the heading, it comes to its children, and
so the entry is one of the outline (`_lower_heading` and `classify`). -/
theorem headings_of_extract (hparser : parser source = .ok root) (hsound : root.SoundIn source)
    (h : extract parser source scope "typst" = .ok forest) :
    ∃ node entered, lowerRoot typst (encode source) root = .ok node ∧
      Traverses scope [⟨.reference, Cursor.root node⟩] entered ∧
      headings ((flattenAll 0 forest).map Prod.fst) = entered.filterMap headingAt? ∧
      ∀ tree, root.Kept source tree → tree.IsNamed "heading" →
        (∃ here ∈ (Cursor.root node).places, tree.LoweredAt source here) ∧
        (∀ entry ∈ tree.headingEntry? source, Spans source entry.start.toNat entry.stop.toNat entry.name) ∧
        ∀ here, tree.LoweredAt source here →
          here.children.filterMap headingAt? = (tree.headingEntry? source).toList ∧
          (here ∈ entered → here.children ⊆ entered ∧
            ∀ entry ∈ tree.headingEntry? source, entry ∈ (flattenAll 0 forest).map Prod.fst) := by
  obtain ⟨node, hlower, hbuild⟩ := exists_of_extract (show Grammar.languages.lookup "typst" = some typst from rfl) hparser h
  obtain ⟨entered, htraverses, hheadings⟩ := exists_entered_of_run (located_headings scope (Cursor.root node)) hbuild
  refine ⟨node, entered, hlower, htraverses, hheadings, fun tree hkept hnamed => ?_⟩
  have htree := hkept.sound hsound
  refine ⟨?_, fun entry hentry => spans_of_headingEntry? htree hentry, fun here hat => ?_⟩
  · refine hkept.exists_place hsound hlower fun _ _ _ hlowered => ?_
    obtain ⟨content, rfl, -⟩ := Grammar.exists_lowered_content htree hnamed hlowered
    simp [Grammar.IsRegrouped, Grammar.isBracketed, headingNode, Node.kind]
  obtain ⟨hkind, hchildren⟩ := filterMap_headingAt?_of_loweredAt hat htree hnamed
  refine ⟨hchildren, fun hhere => ?_⟩
  have hsubset := htraverses.children_subset hhere hkind
  refine ⟨hsubset, fun entry hentry => ?_⟩
  have hmem : entry ∈ here.children.filterMap headingAt? := by
    rw [hchildren]
    exact Option.mem_toList.2 hentry
  obtain ⟨place, hplace, hat⟩ := List.mem_filterMap.1 hmem
  have hheading : entry ∈ headings ((flattenAll 0 forest).map Prod.fst) := by
    rw [headings, hheadings]
    exact List.mem_filterMap.2 ⟨place, hsubset hplace, hat⟩
  exact (List.mem_filter.1 hheading).1

/-- A heading with wide spaces around its title, and one without a title. -/
def spacedTitle : String := "==\u00a0é b\u2003\n= \n"

/-- A heading with one child across the front of its title, and two that overlap. -/
def crossedHeading : Tree :=
  .node "heading" 0 11
    [.node "=" 0 2 [] true false, .node "text" 2 6 [] false false, .node "text" 4 7 [] false false,
      .node "text" 6 8 [] false false] false false

def blankHeading : Tree := .node "heading" 12 14 [.node "=" 12 13 [] true false] false false

def headingSection : Tree := .node "section" 0 15 [crossedHeading, blankHeading] false false

def spacedTitleTree : Tree := .node "source_file" 0 15 [headingSection] false false

def spacedTitleOutline : Forest := [mk ⟨"é b", .heading 2, 4, 8⟩ []]

theorem headings_of_extract_spacedTitle :
    spacedTitleTree.SoundIn spacedTitle ∧
      extract (fun _ => .ok spacedTitleTree) spacedTitle .symbol "typst" = .ok spacedTitleOutline ∧
      crossedHeading.headingEntry? spacedTitle = some ⟨"é b", .heading 2, 4, 8⟩ ∧
      Spans spacedTitle 4 8 "é b" ∧ ⟨"é b", .heading 2, 4, 8⟩ ∈ (flattenAll 0 spacedTitleOutline).map Prod.fst ∧
      ∃ here, blankHeading.LoweredAt spacedTitle here ∧ here.children.filterMap headingAt? = [] := by
  have hsound : spacedTitleTree.SoundIn spacedTitle := by decide +kernel
  have hextract : extract (fun _ => .ok spacedTitleTree) spacedTitle .symbol "typst" = .ok spacedTitleOutline :=
    eq_ok_of_toOption (by decide +kernel)
  obtain ⟨node, entered, hlower, htraverses, -, hheadings⟩ := headings_of_extract rfl hsound hextract
  have hsize : spacedTitle.utf8ByteSize = 15 := by decide +kernel
  have hfits : headingSection ∈ Tree.fitting 0 spacedTitle.utf8ByteSize spacedTitleTree.children := by
    rw [hsize]
    exact List.mem_singleton_self _
  have hopen : headingSection.IsOpen := by decide
  have hcrossed : headingSection.Keeps spacedTitle crossedHeading :=
    ⟨by decide, by decide, by decide, by decide, by exact List.mem_cons_self ..⟩
  have hblank : headingSection.Keeps spacedTitle blankHeading :=
    ⟨by decide, by decide, by decide, by decide, by exact List.mem_cons_of_mem _ (List.mem_singleton_self _)⟩
  have hentry : crossedHeading.headingEntry? spacedTitle = some ⟨"é b", .heading 2, 4, 8⟩ := by decide +kernel
  obtain ⟨-, hspans, hat⟩ := hheadings crossedHeading (.beneath (.child hfits) hcrossed) (by decide)
  obtain ⟨⟨here, -, hblankAt⟩, -, hblankAll⟩ := hheadings blankHeading (.beneath (.child hfits) hblank) (by decide)
  obtain ⟨place, hplace, hreached⟩ := exists_reached_of_root hsound hfits hlower
  obtain ⟨heading, hheading, hreached⟩ := hreached.of_keeps hplace (hsound.child (List.mem_singleton_self _)) hopen hcrossed
  obtain ⟨-, inner, -, -, hentered⟩ := htraverses.of_reached (List.mem_singleton_self _) hreached
  have hmem := ((hat heading hheading).2 (hentered (List.mem_cons_self ..))).2 _ hentry
  have hnone : blankHeading.headingEntry? spacedTitle = none := by decide +kernel
  refine ⟨hsound, hextract, hentry, hspans _ hentry, hmem, here, hblankAt, ?_⟩
  rw [(hblankAll here hblankAt).1, hnone]
  rfl

end Outline

end DocOutline
