import DocOutline.Proofs.Outline.Order
import DocOutline.Proofs.Walk.Shelter

/-!
# Folds

The folds of an outline are nested as its entries are, although the extent of an entry is taken differently for headings,
groups and runs of comments. What is nested in an entry starts no earlier than the entry (`Rising`), and ends no later than
its fold: a block contains it, and a heading is folded up to its end. Lines follow offsets. Main statement `foldsNest_of_build`.
-/

namespace DocOutline.Outline

open DocOutline.Symbol (Entry Scope classify)
open DocOutline.Syntax (Cursor Node)

/-! ## Starts -/

/-- Whether at every depth of an outline what is nested in an entry starts no earlier than the entry. -/
def Rising (outline : Outline String) : Prop :=
  ∀ node ∈ outline.nodes, ∀ inner ∈ nodesAll node.children, node.entry.start ≤ inner.entry.start

theorem rising_mk {entry : Entry String} {children : List (Outline String)}
    (h : ∀ child ∈ children, entry.start ≤ child.entry.start ∧ child.Rising) : (mk entry children).Rising := by
  refine List.forall_mem_cons.2 ⟨fun inner hinner => ?_, fun node hnode => ?_⟩
  · obtain ⟨child, hchild, hmem⟩ := mem_nodesAll.1 hinner
    obtain ⟨hstart, hrising⟩ := h child hchild
    obtain ⟨childEntry, grandchildren⟩ := child
    rcases List.mem_cons.1 hmem with rfl | hmem
    · exact hstart
    · exact Int.le_trans hstart (hrising _ (mem_nodes_self _) inner hmem)
  · obtain ⟨child, hchild, hmem⟩ := mem_nodesAll.1 hnode
    exact (h child hchild).2 node hmem

/-- Whether open entries start in the order in which they were opened, and what is finished in one of them starts no earlier
than it. -/
structure Rises (frames : List Frame) : Prop where
  opened : frames.Pairwise fun upper lower => lower.entry.start ≤ upper.entry.start
  finished : ∀ frame ∈ frames, ∀ outline ∈ frame.finished, frame.entry.start ≤ outline.entry.start ∧ outline.Rising

namespace Rises

variable {frames rest : List Frame} {top below : Frame} {entry : Entry String} {outline : Outline String}

theorem sentinel : Rises [Frame.sentinel] := ⟨List.pairwise_singleton .., List.forall_mem_singleton.2 nofun⟩

theorem push (h : Rises frames) (hopened : OpenedBy entry.start frames) : Rises (⟨entry, []⟩ :: frames) :=
  ⟨List.pairwise_cons.2 ⟨hopened, h.opened⟩, List.forall_mem_cons.2 ⟨nofun, h.finished⟩⟩

/-- What is finished in the top frame may change, as long as it starts no earlier. -/
theorem change {finished : List (Outline String)} (h : Rises (top :: rest))
    (hfinished : ∀ outline ∈ finished, top.entry.start ≤ outline.entry.start ∧ outline.Rising) :
    Rises (⟨top.entry, finished⟩ :: rest) :=
  ⟨List.pairwise_cons.2 (List.pairwise_cons.1 h.opened),
    List.forall_mem_cons.2 ⟨hfinished, (List.forall_mem_cons.1 h.finished).2⟩⟩

theorem adopt (h : Rises (top :: rest)) (hstart : top.entry.start ≤ outline.entry.start) (houtline : outline.Rising) :
    Rises (top.adopt outline :: rest) :=
  h.change (List.forall_mem_cons.2 ⟨⟨hstart, houtline⟩, (List.forall_mem_cons.1 h.finished).1⟩)

theorem close (h : Rises (top :: below :: rest)) : Rises (below.adopt top.close :: rest) := by
  obtain ⟨htop, hbelow⟩ := List.pairwise_cons.1 h.opened
  obtain ⟨hfinished, hrest⟩ := List.forall_mem_cons.1 h.finished
  refine adopt ⟨hbelow, hrest⟩ (htop below (List.mem_cons_self ..)) (rising_mk fun child hchild => ?_)
  exact hfinished child (List.mem_reverse.1 hchild)

theorem closeTops (n : Nat) (h : Rises frames) : Rises (closeTops n frames) := by
  induction n generalizing frames with
  | zero => rwa [closeTops_zero]
  | succ n ih =>
    match frames, h with
    | [], h => exact h
    | [_], h => exact h
    | top :: below :: rest, h =>
      rw [closeTops_cons_cons]
      exact ih h.close

theorem closeDown (height : Nat) (h : Rises frames) : Rises (closeDown height frames) := h.closeTops _

theorem settle (kind : Symbol.Kind) (h : Rises frames) : Rises (settle kind frames) := by
  unfold Outline.settle
  split
  · exact h.closeTops _
  · exact h

/-- A run of comments that is widened starts where it did. -/
theorem addComment {here : Cursor} (h : Rises (top :: rest)) (hstart : top.entry.start ≤ here.offset) :
    Rises (⟨top.entry, addComment here top.finished⟩ :: rest) := by
  have hleaf : ∀ start, (Outline.mk (commentEntry start here) []).Rising := fun _ => rising_mk nofun
  have hfinished := (List.forall_mem_cons.1 h.finished).1
  rcases addComment_cases here top.finished with heq | ⟨last, earlier, hcons, -, heq⟩
  · rw [heq]
    exact h.adopt hstart (hleaf _)
  · rw [heq]
    rw [hcons, List.forall_mem_cons] at hfinished
    exact h.change (List.forall_mem_cons.2 ⟨⟨hfinished.1.1, hleaf _⟩, hfinished.2⟩)

end Rises

/-- **A walk keeps what is finished behind the entries around it**, as long as these start in front of the places it comes
to. -/
theorem Walked.rises {root : Cursor} {visits : List Visit} {frames after : List Frame}
    (h : Walked .braced visits frames after) (hroot : Tame root) (hplaces : ∀ visit ∈ visits, visit.here ∈ root.places)
    (hturn : visits.Pairwise Visit.InTurn) (hne : frames ≠ [])
    (hopened : ∀ visit ∈ visits, visit.IsMute ∨ OpenedBy visit.here.offset frames) (hframes : Rises frames) :
    Rises after := by
  -- What the first visit leaves open starts in front of those behind it that add something.
  have hlater : ∀ {visit rest frames middle}, Walked .braced [visit] frames middle → frames ≠ [] →
      (visit :: rest).Pairwise Visit.InTurn →
      (∀ other ∈ rest, other.IsMute ∨ OpenedBy other.here.offset frames) →
      ∀ other ∈ rest, other.IsMute ∨ OpenedBy other.here.offset middle := by
    intro visit rest frames middle hwalked hne hturn hopened other hother
    rcases hopened other hother with hmute | hopen
    · exact .inl hmute
    rcases (List.pairwise_cons.1 hturn).1 other hother with hprecedes | hsheltered | hmute
    · refine .inr (hwalked.openedBy hne hopen (List.forall_mem_singleton.2 (.inr ?_)))
      exact_mod_cast hprecedes.2
    · exact .inr (hwalked.openedBy hne hopen (List.forall_mem_singleton.2 (.inl hsheltered)))
    · exact .inl hmute
  induction h with
  | done => exact hframes
  | @entry visit rest symbol frames inner after hclass hinner hrest ihinner ihrest =>
    obtain ⟨hplace, hrestplaces⟩ := List.forall_mem_cons.1 hplaces
    obtain ⟨hfirst, hrestopened⟩ := List.forall_mem_cons.1 hopened
    have hfirst : OpenedBy visit.here.offset frames := hfirst.resolve_left fun hmute => by
      rw [hmute.classify_eq] at hclass
      cases hclass
    have hstart : symbol.start = visit.here.offset := (Symbol.opens_of_classify hclass).range.1
    have hwalked : Walked .braced [visit] frames _ := .entry hclass hinner .done
    have hpushed : Rises (⟨symbol, []⟩ :: settle symbol.kind frames) :=
      (hframes.settle _).push (hstart ▸ hfirst.settle _)
    have hbeneath := ihinner (fun part hpart => Cursor.mem_places_child hplace (Visit.mem_of_mem_beneath hpart))
      (visit.pairwise_beneath.imp .inl) (List.cons_ne_nil _ _) (fun part hpart => .inr ?_) hpushed
    · exact ihrest hrestplaces (List.pairwise_cons.1 hturn).2 (hwalked.leaves hne).1
        (hlater hwalked hne hturn hrestopened) (hbeneath.closeDown _)
    · have hrange := Cursor.range_of_mem_children (Visit.mem_of_mem_beneath hpart)
      have hle : (visit.here.offset : Int) ≤ part.here.offset := by omega
      exact ((hfirst.settle _).mono hle).push (hstart ▸ hle)
  | @comment visit rest top below after hclass hkind hrest ihrest =>
    obtain ⟨-, hrestplaces⟩ := List.forall_mem_cons.1 hplaces
    obtain ⟨hfirst, hrestopened⟩ := List.forall_mem_cons.1 hopened
    have hfirst : OpenedBy visit.here.offset (top :: below) := hfirst.resolve_left fun hmute => by
      rw [hmute.1] at hkind
      cases hkind
    exact ihrest hrestplaces (List.pairwise_cons.1 hturn).2 (List.cons_ne_nil _ _)
      (hlater (.comment hclass hkind .done) hne hturn hrestopened)
      (hframes.addComment (hfirst top (List.mem_cons_self ..)))
  | function hscope hkind hname hbody hinner hrest ihinner ihrest => cases hscope
  | @parts visit rest frames middle after hclass hkind hbody hparts hrest ihparts ihrest =>
    obtain ⟨hplace, hrestplaces⟩ := List.forall_mem_cons.1 hplaces
    obtain ⟨hfirst, hrestopened⟩ := List.forall_mem_cons.1 hopened
    have hwalked : Walked .braced [visit] frames middle := .parts hclass hkind hbody hparts .done
    refine ihrest hrestplaces (List.pairwise_cons.1 hturn).2 (hwalked.leaves hne).1
      (hlater hwalked hne hturn hrestopened) ?_
    refine ihparts (fun part hpart => Cursor.mem_places_child hplace (Visit.mem_of_mem_parts hpart))
      (Visit.inTurn_parts hroot hplace) hne (fun part hpart => .inr ?_) hframes
    rcases hfirst with hmute | hopen
    · rw [hmute.parts_eq_nil] at hpart
      cases hpart
    · have hrange := Cursor.range_of_mem_children (Visit.mem_of_mem_parts hpart)
      exact hopen.mono (by omega)

/-- What is nested in an entry of an outline starts no earlier than the entry. -/
theorem rising_of_build {root : Cursor} {forest : Forest} (hroot : Tame root) (h : build root .braced = .ok forest) :
    ∀ outline ∈ forest, outline.Rising := by
  obtain ⟨frames, bottom, hwalked, hclosed, rfl⟩ := walked_of_run h
  have hopened : OpenedBy root.offset [Frame.sentinel] := List.forall_mem_singleton.2 (Int.natCast_nonneg _)
  have hrises := (hwalked.rises hroot (List.forall_mem_singleton.2 (Cursor.mem_places_self root))
    (List.pairwise_singleton ..) (List.cons_ne_nil _ _) (List.forall_mem_singleton.2 (.inr hopened)) .sentinel).closeDown 1
  rw [hclosed] at hrises
  exact fun outline houtline =>
    (hrises.finished bottom (List.mem_singleton_self _) outline (List.mem_reverse.1 houtline)).2

/-! ## Ends -/

mutual

theorem subtreeEnd_le {bound : Int} (outline : Outline String) (h : ∀ node ∈ outline.nodes, node.entry.stop ≤ bound) :
    outline.subtreeEnd ≤ bound := by
  match outline with
  | mk entry children =>
    obtain ⟨hentry, hchildren⟩ := List.forall_mem_cons.1 h
    rw [subtreeEnd]
    exact Int.max_le.2 ⟨hentry, endOf_le hentry children hchildren⟩
termination_by structural outline

/-- The end of outlines is that of some entry at some depth, or the least one. -/
theorem endOf_le {least bound : Int} (hleast : least ≤ bound) (outlines : Forest)
    (h : ∀ node ∈ nodesAll outlines, node.entry.stop ≤ bound) : endOf least outlines ≤ bound := by
  match outlines with
  | [] => exact hleast
  | outline :: outlines =>
    obtain ⟨hfirst, hrest⟩ := List.forall_mem_append.1 h
    rw [endOf]
    exact Int.max_le.2 ⟨subtreeEnd_le outline hfirst, endOf_le hleast outlines hrest⟩
termination_by structural outlines

end

mutual

theorem stop_le_subtreeEnd (outline : Outline String) : ∀ node ∈ outline.nodes, node.entry.stop ≤ outline.subtreeEnd := by
  match outline with
  | mk entry children =>
    rw [subtreeEnd]
    refine List.forall_mem_cons.2 ⟨Int.le_max_left _ _, fun node hnode => ?_⟩
    exact Int.le_trans (stop_le_endOf entry.stop children node hnode) (Int.le_max_right _ _)
termination_by structural outline

theorem stop_le_endOf (least : Int) (outlines : Forest) :
    ∀ node ∈ nodesAll outlines, node.entry.stop ≤ endOf least outlines := by
  match outlines with
  | [] => exact nofun
  | outline :: outlines =>
    rw [endOf]
    refine List.forall_mem_append.2 ⟨fun node hnode => ?_, fun node hnode => ?_⟩
    · exact Int.le_trans (stop_le_subtreeEnd outline node hnode) (Int.le_max_left _ _)
    · exact Int.le_trans (stop_le_endOf least outlines node hnode) (Int.le_max_right _ _)
termination_by structural outlines

end

mutual

/-- What is nested in an outline at some depth has nothing nested in it that the outline has not. -/
theorem nodes_subset {inner : Outline String} (outline : Outline String) (h : inner ∈ outline.nodes) :
    inner.nodes ⊆ outline.nodes := by
  match outline with
  | mk entry children =>
    rcases List.mem_cons.1 h with rfl | h
    · exact List.Subset.refl _
    · exact List.subset_cons_of_subset _ (nodes_subset_nodesAll children h)
termination_by structural outline

theorem nodes_subset_nodesAll {inner : Outline String} (outlines : Forest) (h : inner ∈ nodesAll outlines) :
    inner.nodes ⊆ nodesAll outlines := by
  match outlines with
  | [] => cases h
  | outline :: outlines =>
    rcases List.mem_append.1 h with h | h
    · exact List.subset_append_of_subset_left _ (nodes_subset outline h)
    · exact List.subset_append_of_subset_right _ (nodes_subset_nodesAll outlines h)
termination_by structural outlines

end

def foldStop (outline : Outline String) : Int :=
  if outline.entry.kind.isHeading then outline.subtreeEnd else outline.entry.stop

/-- What is nested in an entry ends no later than the fold of the entry. -/
theorem stop_le_foldStop {outer : Outline String} (hhoused : outer.Housed) (hcontained : outer.Contained) :
    ∀ inner ∈ nodesAll outer.children, inner.entry.stop ≤ outer.foldStop := by
  intro inner hinner
  have hholds : outer.entry.kind.holds := hhoused fun hnil => by
    rw [hnil] at hinner
    cases hinner
  unfold foldStop
  by_cases hheading : outer.entry.kind.isHeading
  · rw [if_pos hheading]
    obtain ⟨entry, children⟩ := outer
    exact stop_le_subtreeEnd (mk entry children) inner (List.mem_cons_of_mem _ hinner)
  · rw [if_neg hheading]
    refine (hcontained inner hinner ?_).2
    -- What can hold something and is no heading is a group or a function.
    cases hkind : outer.entry.kind with
    | heading level => rw [hkind] at hheading; exact absurd rfl hheading
    | named role =>
      rw [hkind] at hholds
      cases role with
      | function => rfl
      | _ => cases hholds
    | group => rfl
    | commentRun => rw [hkind] at hholds; cases hholds

theorem foldStop_le_foldStop {outer inner : Outline String} (hhoused : outer.Housed) (hcontained : outer.Contained)
    (hinner : inner ∈ nodesAll outer.children) : inner.foldStop ≤ outer.foldStop := by
  have hbound : ∀ node ∈ inner.nodes, node.entry.stop ≤ outer.foldStop := fun node hnode =>
    stop_le_foldStop hhoused hcontained node (nodes_subset_nodesAll outer.children hinner hnode)
  unfold foldStop
  split
  · exact subtreeEnd_le inner hbound
  · exact hbound inner (mem_nodes_self inner)

theorem contained_of_build {root : Cursor} {forest : Forest} (h : build root .braced = .ok forest) :
    ∀ outline ∈ nodesAll forest, outline.Contained := by
  obtain ⟨frames, bottom, hwalked, hclosed, rfl⟩ := walked_of_run h
  have hcovers : ∀ outer ∈ [Frame.sentinel].map Frame.entry, outer.Covers root := List.forall_mem_singleton.2 nofun
  have henclosing := (hwalked.enclosing (List.cons_ne_nil _ _) .sentinel
    (List.forall_mem_singleton.2 hcovers)).closeDown 1
  rw [hclosed] at henclosing
  intro outline houtline
  obtain ⟨finished, hfinished, hmem⟩ := mem_nodesAll.1 houtline
  exact henclosing.1.contained outline (mem_nodesAll.2 ⟨finished, List.mem_reverse.1 hfinished, hmem⟩)

/-! ## Folds -/

/-- Whether a fold lies inside another one. -/
structure Fold.Within (fold outer : Fold) : Prop where
  start : outer.startLine ≤ fold.startLine
  stop : fold.endLine ≤ outer.endLine

variable {lines : Lines} {outline outer inner : Outline String} {fold : Fold}

theorem fold?_eq_some : fold? lines outline = some fold ↔
    lines.lineOf outline.entry.start < lines.endLineOf outline.entry.start outline.foldStop ∧
      fold = ⟨lines.lineOf outline.entry.start, lines.endLineOf outline.entry.start outline.foldStop,
        outline.entry.kind == .commentRun⟩ := by
  rw [fold?, ← foldStop, Option.ite_none_right_eq_some, Option.some.injEq, eq_comm (a := fold)]

/-- An entry that starts no later and ends no earlier than one with a fold has a fold around that. -/
theorem exists_fold_of_le (hstart : outer.entry.start ≤ inner.entry.start) (hstop : inner.foldStop ≤ outer.foldStop)
    (h : fold? lines inner = some fold) : ∃ outerFold, fold? lines outer = some outerFold ∧ fold.Within outerFold := by
  obtain ⟨hlines, rfl⟩ := fold?_eq_some.1 h
  have hstartLine := lines.lineOf_mono hstart
  have hendLine : lines.endLineOf inner.entry.start inner.foldStop ≤ lines.endLineOf outer.entry.start outer.foldStop := by
    -- Otherwise the fold would end on the line on which it starts.
    have hlast : inner.entry.start < inner.foldStop - 1 := by
      by_contra hle
      rw [Lines.endLineOf, Int.max_eq_left (by omega)] at hlines
      exact Nat.lt_irrefl _ hlines
    refine lines.lineOf_mono ?_
    omega
  exact ⟨_, fold?_eq_some.2 ⟨by omega, rfl⟩, hstartLine, hendLine⟩

mutual

theorem folds_eq (lines : Lines) (outline : Outline String) : folds lines outline = outline.nodes.filterMap (fold? lines) := by
  match outline with
  | mk entry children =>
    rw [folds, nodes, foldsAll_eq lines children]
    cases hfold : fold? lines (mk entry children) <;> simp [hfold]
termination_by structural outline

/-- The folds of outlines are those of their entries at any depth. -/
theorem foldsAll_eq (lines : Lines) (outlines : Forest) :
    foldsAll lines outlines = (nodesAll outlines).filterMap (fold? lines) := by
  match outlines with
  | [] => rfl
  | outline :: outlines => rw [foldsAll, nodesAll, List.filterMap_append, folds_eq lines outline, foldsAll_eq lines outlines]
termination_by structural outlines

end

/-- **Folds nest.** Whatever has a fold is nested in entries that have folds around it (`folding_ranges` and
`subtree_end`). -/
theorem foldsNest_of_build {tree : Node} {forest : Forest} (htame : Tame (Cursor.root tree))
    (h : build (Cursor.root tree) .braced = .ok forest) (lines : Lines) :
    foldsAll lines forest = (nodesAll forest).filterMap (fold? lines) ∧
      ∀ outer ∈ nodesAll forest, ∀ inner ∈ nodesAll outer.children, ∀ fold, fold? lines inner = some fold →
        ∃ outerFold, fold? lines outer = some outerFold ∧ fold.Within outerFold := by
  refine ⟨foldsAll_eq lines forest, fun outer houter inner hinner fold hfold => ?_⟩
  obtain ⟨outline, houtline, hmem⟩ := mem_nodesAll.1 houter
  exact exists_fold_of_le (rising_of_build htame h outline houtline outer hmem inner hinner)
    (foldStop_le_foldStop (housed_of_run h outer houter) (contained_of_build h outer houter) hinner) hfold

/-- A section with a loop, in the body of which there is a heading over a block. -/
def loopedSection : Node :=
  .inner .markup
    [.inner .heading [.leaf .headingMarker "=", .inner .markup [.leaf .text "A"]], .leaf .parbreak "\n\n", .leaf .hash "#",
      .inner .forLoop
        [.leaf .forKeyword "for", .leaf .space " ", .leaf .ident "x", .leaf .space " ", .leaf .inKeyword "in",
          .leaf .space " ", .leaf .ident "xs", .leaf .space " ",
          .inner .contentBlock
            [.leaf .leftBracket "[", .leaf .parbreak "\n\n",
              .inner .heading [.leaf .headingMarker "==", .inner .markup [.leaf .text "B"]], .leaf .parbreak "\n\n",
              .inner .codeBlock [.leaf .leftBrace "\x7b", .leaf .space "\n", .leaf .rightBrace "\x7d"],
              .leaf .rightBracket "]"]]]

def loopedSectionOutline : Forest :=
  [mk ⟨"A", .heading 1, 1, 2⟩
    [mk ⟨"", .group, 17, 29⟩ [mk ⟨"B", .heading 2, 22, 23⟩ [mk ⟨"", .group, 25, 28⟩ []]]]]

theorem foldsNest_of_build_loopedSection :
    Tame (Cursor.root loopedSection) ∧ build (Cursor.root loopedSection) .braced = .ok loopedSectionOutline ∧
      ∀ lines, foldsAll lines loopedSectionOutline = (nodesAll loopedSectionOutline).filterMap (fold? lines) ∧
        ∀ outer ∈ nodesAll loopedSectionOutline, ∀ inner ∈ nodesAll outer.children, ∀ fold,
          fold? lines inner = some fold → ∃ outerFold, fold? lines outer = some outerFold ∧ fold.Within outerFold := by
  have hidents : ∀ here ∈ (Cursor.root loopedSection).places, here.kind = .ident → here.node.children = [] := by decide
  have hloops : ∀ loop ∈ (Cursor.root loopedSection).places, loop.kind = .forLoop →
      ∀ child ∈ loop.children,
        Symbol.isBlockGroup child.kind ∨ ∀ inner ∈ child.node.subtrees, inner.kind ≠ .heading := by decide
  have htame : Tame (Cursor.root loopedSection) :=
    ⟨hidents, fun loop hloop hkind => Cursor.shelters_of_children (by rw [hkind]; decide) (hloops loop hloop hkind)⟩
  have hbuild : build (Cursor.root loopedSection) .braced = .ok loopedSectionOutline :=
    eq_ok_of_toOption (by decide +kernel)
  exact ⟨htame, hbuild, foldsNest_of_build htame hbuild⟩

/-- All four entries of the section fold. -/
example : foldsAll (Lines.ofText loopedSection.fullText) loopedSectionOutline =
    [⟨0, 7, false⟩, ⟨2, 7, false⟩, ⟨4, 7, false⟩, ⟨6, 7, false⟩] := by decide +kernel

end DocOutline.Outline
