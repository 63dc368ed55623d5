import DocOutline.Outline.View
import DocOutline.Proofs.Text.Lines
import DocOutline.Proofs.Walk.Additions
import DocOutline.Proofs.Walk.Reach

/-!
# Document order

The entries of an outline are in the order of their starts, and with them siblings and folds (`inDocumentOrder_of_run`).
What is looked at from left to right comes out from left to right. So the order is only at stake where it is not: in a
loop, whose pattern comes after what the loop goes through, and in a pair among parameters, whose name comes after its
value. It is kept there if one of the two adds nothing (`Orderly`).
-/

namespace DocOutline

open DocOutline.Symbol (Entry Scope classify entryAt)
open DocOutline.Syntax (Cursor Node)

namespace Outline

/-! ## Outlines in order -/

mutual

/-- Whether siblings everywhere beneath an entry are in the order of their starts. -/
def SiblingsSorted : Outline String → Prop
  | mk _ children => AllSorted children
termination_by structural outline => outline

/-- Whether outlines, and siblings everywhere beneath them, are in the order of their starts. -/
def AllSorted : Forest → Prop
  | [] => True
  | outline :: outlines =>
    (∀ other ∈ outlines, outline.entry.start ≤ other.entry.start) ∧ SiblingsSorted outline ∧ AllSorted outlines
termination_by structural outlines => outlines

end

/-- Whether an outline is in document order. -/
structure InDocumentOrder (forest : Forest) : Prop where
  entries : ((flattenAll 0 forest).map (·.1.start)).Pairwise (· ≤ ·)
  siblings : AllSorted forest
  folds : ∀ lines, ((foldsAll lines forest).map Fold.startLine).Pairwise (· ≤ ·)

theorem flatten_eq_cons (depth : Nat) (outline : Outline String) :
    flatten depth outline = (outline.entry, depth) :: flattenAll (depth + 1) outline.children := by
  cases outline
  rfl

theorem mem_flattenAll {depth : Nat} {outline : Outline String} {outlines : Forest} (h : outline ∈ outlines) :
    (outline.entry, depth) ∈ flattenAll depth outlines := by
  induction outlines with
  | nil => cases h
  | cons first outlines ih =>
    rw [flattenAll, List.mem_append]
    rcases List.mem_cons.1 h with rfl | h
    · left
      rw [flatten_eq_cons]
      exact List.mem_cons_self ..
    · exact .inr (ih h)

mutual

theorem siblingsSorted_of_flatten (depth : Nat) (outline : Outline String)
    (h : ((flatten depth outline).map (·.1.start)).Pairwise (· ≤ ·)) : SiblingsSorted outline := by
  match outline with
  | mk entry children =>
    rw [flatten, List.map_cons, List.pairwise_cons] at h
    exact allSorted_of_flattenAll (depth + 1) children h.2

/-- Where all entries are in order, siblings are. -/
theorem allSorted_of_flattenAll (depth : Nat) (outlines : Forest)
    (h : ((flattenAll depth outlines).map (·.1.start)).Pairwise (· ≤ ·)) : AllSorted outlines := by
  match outlines with
  | [] => exact trivial
  | outline :: outlines =>
    rw [flattenAll, List.map_append, List.pairwise_append] at h
    obtain ⟨hfirst, hrest, hcross⟩ := h
    refine ⟨fun other hother => ?_, siblingsSorted_of_flatten depth outline hfirst,
      allSorted_of_flattenAll depth outlines hrest⟩
    refine hcross _ (List.mem_map.2 ⟨(outline.entry, depth), ?_, rfl⟩) _
      (List.mem_map.2 ⟨(other.entry, depth), mem_flattenAll hother, rfl⟩)
    rw [flatten_eq_cons]
    exact List.mem_cons_self ..

end

/-- A fold begins on the line on which the entry starts. -/
theorem startLine_of_fold? {lines : Lines} {outline : Outline String} {fold : Fold}
    (h : fold? lines outline = some fold) : fold.startLine = lines.lineOf outline.entry.start := by
  simp only [fold?, Option.ite_none_right_eq_some, Option.some.injEq] at h
  obtain ⟨-, rfl⟩ := h
  rfl

mutual

theorem folds_sublist (lines : Lines) (depth : Nat) (outline : Outline String) :
    ((folds lines outline).map Fold.startLine).Sublist
      ((flatten depth outline).map fun shown => lines.lineOf shown.1.start) := by
  match outline with
  | mk entry children =>
    rw [folds, flatten, List.map_append, List.map_cons]
    have hrest := foldsAll_sublist lines (depth + 1) children
    cases hfold : fold? lines (mk entry children) with
    | none => exact hrest.cons _
    | some fold =>
      rw [Option.toList_some, List.map_singleton, startLine_of_fold? hfold]
      exact hrest.cons_cons _

/-- Folds begin on the lines of some of the entries. -/
theorem foldsAll_sublist (lines : Lines) (depth : Nat) (outlines : Forest) :
    ((foldsAll lines outlines).map Fold.startLine).Sublist
      ((flattenAll depth outlines).map fun shown => lines.lineOf shown.1.start) := by
  match outlines with
  | [] => exact .slnil
  | outline :: outlines =>
    rw [foldsAll, flattenAll, List.map_append, List.map_append]
    exact (folds_sublist lines depth outline).append (foldsAll_sublist lines depth outlines)

end

/-- Where all entries are in order, siblings and folds are. -/
theorem inDocumentOrder_of_entries {forest : Forest}
    (h : ((flattenAll 0 forest).map (·.1.start)).Pairwise (· ≤ ·)) : InDocumentOrder forest where
  entries := h
  siblings := allSorted_of_flattenAll 0 forest h
  folds lines := by
    refine List.Pairwise.sublist (foldsAll_sublist lines 0 forest) ?_
    rw [List.pairwise_map] at h ⊢
    exact h.imp fun hle => lines.lineOf_mono hle

/-! ## Visits in order -/

namespace Visit

def Silent (scope : Scope) (visit : Visit) : Prop := ∀ added, Adds scope [visit] added → added = []

/-- Whether a visit may come before another one: because it is in front of it, or because one of the two is silent. -/
def MayPrecede (scope : Scope) (visit other : Visit) : Prop :=
  visit.Precedes other ∨ visit.Silent scope ∨ other.Silent scope

variable {scope : Scope} {visit : Visit} {here : Cursor}

/-- A node without children that opens no entry is silent, unless it is a comment. -/
theorem silent_of_childless (hchildren : visit.here.node.children = [])
    (hclass : classify visit.here scope visit.naming = .ok none) (hkind : visit.here.kind ≠ .lineComment) :
    visit.Silent scope := by
  have hnone : ∀ place, place ∉ visit.here.children := by
    intro place hplace
    have hmem := Cursor.node_mem_children hplace
    rw [hchildren] at hmem
    cases hmem
  intro added h
  cases h with
  | entry hclass' => rw [hclass] at hclass'; cases hclass'
  | comment _ hcomment => exact absurd hcomment hkind
  | run _ hcomment => exact absurd hcomment hkind
  | function _ _ _ hbody => exact absurd (mem_of_body? hbody) (hnone _)
  | parts _ _ _ hinner hrest =>
    have hparts : visit.parts scope = [] :=
      List.eq_nil_iff_forall_not_mem.2 fun part hpart => hnone _ (mem_of_mem_parts hpart)
    rw [hparts] at hinner
    cases hinner
    cases hrest
    rfl

/-- An identifier that is merely mentioned is silent. -/
theorem silent_mention {name : String} (hkind : here.kind = .ident) (hname : here.node.identName? = some name) :
    Silent scope ⟨.reference, here⟩ := by
  apply silent_of_childless (Syntax.Node.identName?_eq_some hname).1
  · cases scope with
    | symbol => simp [classify, hkind, Symbol.classifyIdent, hname, Scope.affectsSymbol, Symbol.Naming.role?]
    | braced =>
      simp [classify, hkind, Scope.affectsSymbol, Symbol.isGroup, Symbol.isMarkupGroup, Symbol.isBlockGroup,
        Symbol.isExprGroup]
  · change here.kind ≠ .lineComment
    rw [hkind]
    exact Syntax.Kind.noConfusion

end Visit

/-- Whether, wherever a tree is not looked at from left to right, no two visits in the wrong order add entries. -/
structure Orderly (scope : Scope) (root : Cursor) : Prop where
  loops : ∀ loop ∈ root.places, loop.kind = .forLoop →
    (Visit.loop loop.children).Pairwise (Visit.MayPrecede scope)
  parameters : ∀ params ∈ root.places, params.kind = .params → ∀ pair ∈ params.places, pair.kind = .named →
    (Visit.pair .parameter pair.children).Pairwise (Visit.MayPrecede scope)

variable {scope : Scope} {visit : Visit} {visits rest : List Visit} {root : Cursor}
  {front later added : List (Entry String)}

/-- A complete loop that goes through something silent is orderly. -/
theorem mayPrecede_loop {loop iterable : Cursor} (hcomplete : IsComplete loop)
    (hiterable : Visit.iterable? loop.children = some iterable) (hsilent : Visit.Silent scope ⟨.reference, iterable⟩) :
    (Visit.loop loop.children).Pairwise (Visit.MayPrecede scope) := by
  obtain ⟨pattern, iterable', hpattern, hiterable', hprecedes⟩ := precedes_of_isComplete hcomplete
  rw [hiterable] at hiterable'
  cases hiterable'
  unfold Visit.loop
  rw [hpattern, hiterable]
  simp only [Visit.each, Option.toList, Option.map_some, List.map_cons, List.map_nil, List.cons_append,
    List.nil_append, List.pairwise_cons]
  refine ⟨fun _ _ => .inr (.inl hsilent), fun body hbody => .inl ?_, (Visit.pairwise_firstExpr _ _).imp .inl⟩
  obtain ⟨place, hplace, hafter, rfl⟩ := Visit.mem_firstExpr.1 hbody
  refine Cursor.precedes_of_offset_lt (Visit.mem_of_pattern? hpattern) (Visit.mem_of_body? hplace) ?_
  calc pattern.offset ≤ pattern.stop := pattern.offset_le_stop
    _ ≤ iterable.offset := hprecedes.2
    _ < place.offset := hafter _ rfl

theorem Orderly.parts (h : Orderly scope root) (hreached : Reached scope ⟨.reference, root⟩ visit) :
    (visit.parts scope).Pairwise (Visit.MayPrecede scope) := by
  by_cases hfor : visit.here.kind = .forLoop
  · have hparts : visit.parts scope = Visit.loop visit.here.children := by simp only [Visit.parts, hfor]
    rw [hparts]
    exact h.loops _ hreached.mem_places hfor
  by_cases hpair : visit.here.kind = .named ∧ visit.naming = .parameter
  · have hparts : visit.parts scope = Visit.pair .parameter visit.here.children := by
      simp only [Visit.parts, hpair.1, hpair.2]
    obtain ⟨params, hparams, hkind, hhere⟩ := hreached.namingFits.parameter hpair.2
    rw [hparts]
    exact h.parameters params hparams hkind _ hhere hpair.1
  · exact (Visit.pairwise_parts hfor fun hkind hnaming => hpair ⟨hkind, hnaming⟩).imp .inl

/-! ## Entries in order -/

/-- Whether entries are in the order of their starts, and each of them starts at a visit that adds something. -/
structure InOrder (scope : Scope) (visits : List Visit) (added : List (Entry String)) : Prop where
  sorted : (added.map Entry.start).Pairwise (· ≤ ·)
  located : ∀ entry ∈ added, ∃ visit ∈ visits, ¬ visit.Silent scope ∧
    (visit.here.offset : Int) ≤ entry.start ∧ entry.start ≤ (visit.here.stop : Int)

namespace InOrder

theorem nil (scope : Scope) (visits : List Visit) : InOrder scope visits [] := ⟨.nil, fun _ h => nomatch h⟩

/-- What is beneath a place starts in its range. -/
theorem range {parts : List Visit} (h : InOrder scope parts added)
    (hparts : ∀ part ∈ parts, part.here ∈ visit.here.children) :
    ∀ entry ∈ added, (visit.here.offset : Int) ≤ entry.start ∧ entry.start ≤ (visit.here.stop : Int) := by
  intro entry hentry
  obtain ⟨part, hpart, -, hoffset, hstop⟩ := h.located entry hentry
  have hrange := Cursor.range_of_mem_children (hparts part hpart)
  omega

/-- What a visit adds, in its range, may stand in front of what later visits add. -/
theorem append (hfront : Adds scope [visit] front) (hsorted : (front.map Entry.start).Pairwise (· ≤ ·))
    (hrange : ∀ entry ∈ front, (visit.here.offset : Int) ≤ entry.start ∧ entry.start ≤ (visit.here.stop : Int))
    (hvisits : (visit :: rest).Pairwise (Visit.MayPrecede scope)) (hlater : InOrder scope rest later) :
    InOrder scope (visit :: rest) (front ++ later) := by
  have hlocated : ∀ entry ∈ later, ∃ other ∈ visit :: rest, ¬ other.Silent scope ∧
      (other.here.offset : Int) ≤ entry.start ∧ entry.start ≤ (other.here.stop : Int) := by
    intro entry hentry
    obtain ⟨other, hother, h⟩ := hlater.located entry hentry
    exact ⟨other, List.mem_cons_of_mem _ hother, h⟩
  by_cases hsilent : visit.Silent scope
  · rw [hsilent front hfront, List.nil_append]
    exact ⟨hlater.sorted, hlocated⟩
  · constructor
    · rw [List.map_append, List.pairwise_append]
      refine ⟨hsorted, hlater.sorted, ?_⟩
      intro start hstart start' hstart'
      obtain ⟨entry, hentry, rfl⟩ := List.mem_map.1 hstart
      obtain ⟨entry', hentry', rfl⟩ := List.mem_map.1 hstart'
      obtain ⟨other, hother, hloud, hoffset, -⟩ := hlater.located entry' hentry'
      rcases (List.pairwise_cons.1 hvisits).1 other hother with hprecedes | hsilent' | hsilent'
      · have hstop := (hrange entry hentry).2
        have hbetween := hprecedes.2
        omega
      · exact absurd hsilent' hsilent
      · exact absurd hsilent' hloud
    · refine List.forall_mem_append.2 ⟨fun entry hentry => ?_, hlocated⟩
      exact ⟨visit, List.mem_cons_self .., hsilent, hrange entry hentry⟩

/-- An entry at the place of a visit may stand in front of what is added beneath it. -/
theorem cons {entry : Entry String} {parts : List Visit} (h : InOrder scope parts added)
    (hparts : ∀ part ∈ parts, part.here ∈ visit.here.children) (hentry : entry.start = visit.here.offset) :
    ((entry :: added).map Entry.start).Pairwise (· ≤ ·) ∧
      ∀ symbol ∈ entry :: added,
        (visit.here.offset : Int) ≤ symbol.start ∧ symbol.start ≤ (visit.here.stop : Int) := by
  have hrange := h.range hparts
  constructor
  · rw [List.map_cons, List.pairwise_cons]
    refine ⟨fun start hstart => ?_, h.sorted⟩
    obtain ⟨inner, hinner, rfl⟩ := List.mem_map.1 hstart
    rw [hentry]
    exact (hrange inner hinner).1
  · refine List.forall_mem_cons.2 ⟨?_, hrange⟩
    have hle := visit.here.offset_le_stop
    omega

end InOrder

/-- **A walk adds entries in the order of their starts**, if its visits are in order. -/
theorem Adds.inOrder (h : Adds scope visits added) (horderly : Orderly scope root)
    (hreached : ∀ visit ∈ visits, Reached scope ⟨.reference, root⟩ visit)
    (hvisits : visits.Pairwise (Visit.MayPrecede scope)) : InOrder scope visits added := by
  induction h with
  | done => exact .nil scope []
  | @entry visit rest symbol inner later hclass hinner hrest ihinner ihrest =>
    obtain ⟨hfirst, hrestreached⟩ := List.forall_mem_cons.1 hreached
    have hbeneath := ihinner (fun part hpart => hfirst.beneath hclass hpart) (visit.pairwise_beneath.imp .inl)
    have hstart : symbol.start = visit.here.offset := by
      cases Symbol.opens_of_classify hclass <;> rfl
    obtain ⟨hsorted, hrange⟩ := hbeneath.cons (fun _ => Visit.mem_of_mem_beneath) hstart
    have hfront := Adds.entry hclass hinner .done
    rw [List.append_nil] at hfront
    exact .append hfront hsorted hrange hvisits (ihrest hrestreached (List.pairwise_cons.1 hvisits).2)
  | @comment visit rest later hclass hkind hrest ihrest =>
    have hlater := ihrest (List.forall_mem_cons.1 hreached).2 (List.pairwise_cons.1 hvisits).2
    obtain ⟨hsorted, hrange⟩ := (InOrder.nil scope []).cons (fun _ hpart => nomatch hpart)
      (show (commentEntry visit.here.offset visit.here).start = visit.here.offset from rfl)
    exact .append (.comment hclass hkind .done) hsorted hrange hvisits hlater
  | @run visit rest later hclass hkind hrest ihrest =>
    have hlater := ihrest (List.forall_mem_cons.1 hreached).2 (List.pairwise_cons.1 hvisits).2
    exact .append (.run hclass hkind .done) .nil (fun _ hentry => nomatch hentry) hvisits hlater
  | @function visit rest name body inner later hscope hkind hname hbody hinner hrest ihinner ihrest =>
    obtain ⟨hfirst, hrestreached⟩ := List.forall_mem_cons.1 hreached
    have hbeneath := ihinner (List.forall_mem_singleton.2 (hfirst.body hscope hkind hbody))
      (List.pairwise_singleton ..)
    obtain ⟨hsorted, hrange⟩ := hbeneath.cons (List.forall_mem_singleton.2 (Visit.mem_of_body? hbody))
      (show (entryAt visit.here name (.named .function)).start = visit.here.offset from rfl)
    have hfront := Adds.function hscope hkind hname hbody hinner .done
    rw [List.append_nil] at hfront
    exact .append hfront hsorted hrange hvisits (ihrest hrestreached (List.pairwise_cons.1 hvisits).2)
  | @parts visit rest inner later hclass hkind hbody hinner hrest ihinner ihrest =>
    obtain ⟨hfirst, hrestreached⟩ := List.forall_mem_cons.1 hreached
    have hparts := ihinner (fun part hpart => hfirst.parts hclass hbody hpart) (horderly.parts hfirst)
    have hfront := Adds.parts hclass hkind hbody hinner .done
    rw [List.append_nil] at hfront
    exact .append hfront hparts.sorted (hparts.range fun _ => Visit.mem_of_mem_parts) hvisits
      (ihrest hrestreached (List.pairwise_cons.1 hvisits).2)

/-- **Outlines are in document order**, if their trees are orderly (`build_hierarchy`, `flatten_tree`,
`folding_ranges`). -/
theorem inDocumentOrder_of_run {builder : Builder} {forest : Forest} (horderly : Orderly builder.scope root)
    (h : (Builder.run root builder).1 = .ok forest) : InDocumentOrder forest := by
  apply inDocumentOrder_of_entries
  obtain ⟨added, hadds, hentries⟩ := adds_of_run h
  have horder := hadds.inOrder horderly (List.forall_mem_singleton.2 .start) (List.pairwise_singleton ..)
  have hstarts := congrArg (List.map Entry.start) hentries
  simp only [List.map_map, Function.comp_def, Entry.start_lasting] at hstarts
  rw [hstarts]
  exact horder.sorted

/-- A comment, and a loop over identifiers with a label in its body. -/
def listing : Node :=
  .inner .markup
    [.leaf .lineComment "// é", .leaf .space "\n", .leaf .hash "#",
      .inner .forLoop
        [.leaf .forKeyword "for", .leaf .space " ", .leaf .ident "x", .leaf .space " ", .leaf .inKeyword "in",
          .leaf .space " ", .leaf .ident "xs", .leaf .space " ",
          .inner .contentBlock
            [.leaf .leftBracket "[", .leaf .text "t", .leaf .space " ", .leaf .label "<a>",
              .leaf .rightBracket "]"]]]

def listingOutline : Forest :=
  [mk ⟨"", .commentRun, 0, 5⟩ [], mk ⟨"x", .named .variable, 11, 12⟩ [], mk ⟨"a", .named .label, 22, 25⟩ []]

theorem inDocumentOrder_of_run_listing :
    Orderly .symbol (Cursor.root listing) ∧
      (Builder.run (Cursor.root listing) { scope := .symbol }).1 = .ok listingOutline ∧
      InDocumentOrder listingOutline := by
  have hloops : ∀ loop ∈ (Cursor.root listing).places, loop.kind = .forLoop → IsComplete loop ∧
      (Visit.iterable? loop.children).any fun iterable =>
        iterable.kind = .ident ∧ iterable.node.identName? = some "xs" := by decide
  have hparams : ∀ params ∈ (Cursor.root listing).places, params.kind ≠ .params := by decide
  have horderly : Orderly .symbol (Cursor.root listing) := by
    constructor
    · intro loop hloop hkind
      obtain ⟨hcomplete, hiterable⟩ := hloops loop hloop hkind
      obtain ⟨iterable, hsome, hmention⟩ := (Option.any_eq_true _ _).1 hiterable
      rw [decide_eq_true_eq] at hmention
      exact mayPrecede_loop hcomplete hsome (Visit.silent_mention hmention.1 hmention.2)
    · exact fun params hmem hkind => absurd hkind (hparams params hmem)
  have hrun : (Builder.run (Cursor.root listing) { scope := .symbol }).1 = .ok listingOutline :=
    eq_ok_of_toOption (by decide +kernel)
  exact ⟨horderly, hrun, inDocumentOrder_of_run horderly hrun⟩

/-- A loop that goes through content with a label in it. -/
def contentLoop : Node :=
  .inner .markup
    [.leaf .hash "#",
      .inner .forLoop
        [.leaf .forKeyword "for", .leaf .space " ", .leaf .ident "x", .leaf .space " ", .leaf .inKeyword "in",
          .leaf .space " ",
          .inner .contentBlock
            [.leaf .leftBracket "[", .leaf .text "t", .leaf .space " ", .leaf .label "<a>", .leaf .rightBracket "]"],
          .leaf .space " ", .inner .codeBlock [.leaf .leftBrace "\x7b", .leaf .rightBrace "\x7d"]]]

def contentLoopOutline : Forest := [mk ⟨"a", .named .label, 13, 16⟩ [], mk ⟨"x", .named .variable, 5, 6⟩ []]

/-- The pattern of a loop comes out behind a label that it stands in front of. -/
theorem not_inDocumentOrder_contentLoop :
    (Builder.run (Cursor.root contentLoop) { scope := .symbol }).1 = .ok contentLoopOutline ∧
      ¬ InDocumentOrder contentLoopOutline := by
  constructor
  · exact eq_ok_of_toOption (by decide +kernel)
  · intro h
    have hentries := h.entries
    revert hentries
    decide

end Outline

end DocOutline
