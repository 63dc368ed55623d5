import DocOutline.Proofs.Walk.Isolation
import DocOutline.Proofs.Walk.OpenHeadings

/-!
# Nesting of headings

The invariant of the open frames holds behind whatever is visited (`Walked.sound`), and so all entries of an outline
have the parents that they should have.

Main statement `nested_of_run`, for trees in which headings are apart: a heading inside a closure would close the
function around it, and one inside the text of another heading could close that heading.
-/

namespace DocOutline

open DocOutline.Symbol (Entry Scope classify entryAt)
open DocOutline.Syntax (Cursor Node)

/-- Whether no heading is inside another one, nor, where functions are entries, inside a closure. -/
def Syntax.Node.HeadingsApart (scope : Scope) (tree : Node) : Prop :=
  ∀ node ∈ tree.subtrees, node.kind = .heading ∨ scope = .symbol ∧ node.kind = .closure →
    ∀ inner ∈ node.beneath, inner.kind ≠ .heading

instance (scope : Scope) (tree : Node) : Decidable (tree.HeadingsApart scope) :=
  inferInstanceAs (Decidable (∀ node ∈ tree.subtrees, _ → ∀ inner ∈ node.beneath, inner.kind ≠ .heading))

namespace Outline

/-- Whether the tree at the place of a visit keeps headings apart, also from a heading right around it. -/
structure Visit.Fits (scope : Scope) (visit : Visit) : Prop where
  apart : visit.here.node.HeadingsApart scope
  inHeading : ∀ parent, visit.here.parent? = some parent → parent.kind = .heading → visit.here.node.HeadingFree

theorem Visit.Fits.child {scope : Scope} {visit part : Visit} (h : visit.Fits scope)
    (hpart : part.here ∈ visit.here.children) : part.Fits scope := by
  have hnode := Cursor.node_mem_children hpart
  constructor
  · intro node hmem
    exact h.apart node (Node.beneath_subset_subtrees _ (Node.subtrees_subset_beneath hnode hmem))
  · intro parent hparent hheading inner hinner
    rw [Cursor.parent?_of_mem_children hpart] at hparent
    cases hparent
    exact h.apart _ (Node.mem_subtrees_self _) (.inl hheading) inner (Node.subtrees_subset_beneath hnode hinner)

/-- In the text of a heading, everything is quiet. -/
theorem Visit.Fits.quiet_of_heading {scope : Scope} {visit part : Visit} {parent : Cursor} (h : visit.Fits scope)
    (hparent : visit.here.parent? = some parent) (hheading : parent.kind = .heading)
    (hpart : part.here ∈ visit.here.children) : part.Quiet := by
  have hfree := h.inHeading parent hparent hheading
  exact quiet_of_mem_children hpart (hfree _ (Node.mem_subtrees_self _))
    (hfree.child (Cursor.node_mem_children hpart))

/-- In a closure, everything is quiet. -/
theorem Visit.Fits.quiet_of_closure {visit part : Visit} (h : visit.Fits .symbol)
    (hkind : visit.here.kind = .closure) (hpart : part.here ∈ visit.here.children) : part.Quiet := by
  have hfree : part.here.node.HeadingFree := fun inner hinner =>
    h.apart _ (Node.mem_subtrees_self _) (.inr ⟨rfl, hkind⟩) inner
      (Node.subtrees_subset_beneath (Cursor.node_mem_children hpart) hinner)
  exact quiet_of_mem_children hpart (by rw [hkind]; decide) hfree

/-- Whether quiet places alone are visited while a function is open. -/
def Calm (frames : List Frame) (visits : List Visit) : Prop := Clear frames ∨ ∀ visit ∈ visits, visit.Quiet

theorem Calm.rest {frames next : List Frame} {visit : Visit} {rest : List Visit} (h : Calm frames (visit :: rest))
    (hclear : Clear frames → Clear next) : Calm next rest := by
  rcases h with h | h
  · exact .inl (hclear h)
  · exact .inr (List.forall_mem_cons.1 h).2

theorem Calm.parts {frames next : List Frame} {visit : Visit} {rest parts : List Visit}
    (h : Calm frames (visit :: rest)) (hclear : Clear frames → Clear next)
    (hparts : ∀ part ∈ parts, part.here ∈ visit.here.children) : Calm next parts := by
  rcases h with h | h
  · exact .inl (hclear h)
  · exact .inr fun part hpart => (List.forall_mem_cons.1 h).1.child (hparts part hpart)

/-- Behind what was visited, the invariant holds, and no function has stayed open. -/
def Keeps (frames after : List Frame) : Prop := Sound after ∧ (Clear frames → Clear after)

theorem Keeps.trans {frames next after : List Frame} (h : Keeps frames next) (h' : Keeps next after) :
    Keeps frames after := ⟨h'.1, fun hclear => h'.2 (h.2 hclear)⟩

theorem Sound.keeps_leaf {frames : List Frame} {entry : Entry String} (hsound : Sound frames)
    (hheading : entry.kind.isHeading = false) : Keeps frames (closeDown frames.length (⟨entry, []⟩ :: frames)) := by
  match frames, hsound with
  | [], hsound => exact absurd rfl hsound.ne_nil
  | top :: below, hsound =>
    rw [closeDown_cons]
    exact ⟨hsound.adopt_leaf hheading, fun hclear => hclear.change _⟩

theorem Sound.keeps_block {top : Frame} {below inner : List Frame} {entry : Entry String}
    {children : List (Outline String)} (hsound : Sound (top :: below)) (hinner : Sound inner)
    (hblock : entry.kind.isBlock)
    (hclosed : closeDown (top :: below).length inner = top.adopt (.mk entry children) :: below) :
    Keeps (top :: below) (closeDown (top :: below).length inner) := by
  have hnested := hinner.nested
  rw [← rows_reading_closeDown (top :: below).length, hclosed] at hnested
  rw [hclosed]
  exact ⟨hsound.adopt (.inl hblock) hnested, fun hclear => hclear.change _⟩

/-- **The invariant of the open frames.** It holds behind whatever is visited, where headings are apart. -/
theorem Walked.sound {scope : Scope} {visits : List Visit} {frames after : List Frame}
    (h : Walked scope visits frames after) (hfits : ∀ visit ∈ visits, visit.Fits scope)
    (hcalm : Calm frames visits) (hsound : Sound frames) : Keeps frames after := by
  induction h with
  | done => exact ⟨hsound, id⟩
  | @entry visit rest symbol frames inner after hclass hinner hrest ihinner ihrest =>
    obtain ⟨hfirst, hrestfits⟩ := List.forall_mem_cons.1 hfits
    have hbeneath : ∀ part ∈ visit.beneath, part.here ∈ visit.here.children := fun _ => Visit.mem_of_mem_beneath
    have hbeneathfits : ∀ part ∈ visit.beneath, part.Fits scope := fun _ hpart => hfirst.child (hbeneath _ hpart)
    suffices hnext : Keeps frames (closeDown (heightBehind symbol.kind (settle symbol.kind frames)) inner) from
      hnext.trans (ihrest hrestfits (hcalm.rest hnext.2) hnext.1)
    cases Symbol.opens_of_classify hclass with
    | @label name hscope hkind hname =>
      rw [Visit.beneath_eq_nil (Node.labelName?_eq_some hname).1, Walked.nil_iff] at hinner
      rw [hinner]
      exact hsound.keeps_leaf rfl
    | @ident name role hscope hkind hname hrole =>
      rw [Visit.beneath_eq_nil (Node.identName?_eq_some hname).1, Walked.nil_iff] at hinner
      rw [hinner]
      exact hsound.keeps_leaf rfl
    | group hscope hkind =>
      have hpush : Clear frames → Clear (⟨entryAt visit.here "" .group, []⟩ :: frames) := fun hclear =>
        List.forall_mem_cons.2 ⟨nofun, hclear⟩
      obtain ⟨hsoundinner, -⟩ := ihinner hbeneathfits (hcalm.parts hpush hbeneath) (hsound.push_block rfl)
      match frames, hsound with
      | [], hsound => exact absurd rfl hsound.ne_nil
      | top :: below, hsound =>
        obtain ⟨children, hclosed⟩ := (hinner.rests rfl ⟨[], [], rfl⟩).closeDown_base
        exact hsound.keeps_block hsoundinner rfl hclosed
    | @heading parent hkind hparent hheading htext =>
      -- The place itself is not quiet, so no function is open.
      have hclear : Clear frames := hcalm.resolve_right fun hquiet =>
        (List.forall_mem_cons.1 hquiet).1.1 parent hparent hheading
      have hclearpush : Clear (⟨entryAt visit.here visit.here.fullText (.heading parent.node.headingDepth), []⟩ ::
          settle (.heading parent.node.headingDepth) frames) :=
        List.forall_mem_cons.2 ⟨nofun, hclear.settle _⟩
      obtain ⟨hsoundinner, hclearinner⟩ := ihinner hbeneathfits (.inl hclearpush) (hsound.push_heading hclear rfl)
      -- Nothing in the text of the heading closes its frame, so the heading is on top when its text has been visited.
      obtain ⟨finished, rfl⟩ := hinner.keeps_top
        (fun part hpart => hfirst.quiet_of_heading hparent hheading (hbeneath part hpart)) rfl
      rw [closeDown_heightBehind rfl]
      exact ⟨hsoundinner, fun _ => hclearinner hclearpush⟩
  | @comment visit rest top below after hclass hkind hrest ihrest =>
    have hnext : Keeps (top :: below) (⟨top.entry, addComment visit.here top.finished⟩ :: below) :=
      ⟨hsound.addComment _, fun hclear => hclear.change _⟩
    exact hnext.trans (ihrest (List.forall_mem_cons.1 hfits).2 (hcalm.rest hnext.2) hnext.1)
  | @function visit rest name body frames inner after hscope hkind hname hbody hinner hrest ihinner ihrest =>
    obtain ⟨hfirst, hrestfits⟩ := List.forall_mem_cons.1 hfits
    have hbodychild : (Visit.mk .reference body).here ∈ visit.here.children := Visit.mem_of_body? hbody
    suffices hnext : Keeps frames (closeDown frames.length inner) from
      hnext.trans (ihrest hrestfits (hcalm.rest hnext.2) hnext.1)
    subst hscope
    have hquiet : ∀ part ∈ [Visit.mk .reference body], part.Quiet :=
      List.forall_mem_singleton.2 (hfirst.quiet_of_closure hkind hbodychild)
    obtain ⟨hsoundinner, -⟩ := ihinner (List.forall_mem_singleton.2 (hfirst.child hbodychild)) (.inr hquiet)
      (hsound.push_block rfl)
    match frames, hsound with
    | [], hsound => exact absurd rfl hsound.ne_nil
    | top :: below, hsound =>
      obtain ⟨finished, rfl⟩ := hinner.keeps_top hquiet rfl
      exact hsound.keeps_block hsoundinner rfl (closeDown_cons _ _ _)
  | @parts visit rest frames middle after hclass hkind hbody hparts hrest ihparts ihrest =>
    obtain ⟨hfirst, hrestfits⟩ := List.forall_mem_cons.1 hfits
    have hchildren : ∀ part ∈ visit.parts scope, part.here ∈ visit.here.children :=
      fun _ => Visit.mem_of_mem_parts
    have hnext : Keeps frames middle :=
      ihparts (fun part hpart => hfirst.child (hchildren part hpart)) (hcalm.parts id hchildren) hsound
    exact hnext.trans (ihrest hrestfits (hcalm.rest hnext.2) hnext.1)

/-- **Headings nest.** In every outline of a tree in which headings are apart, a heading belongs to the last heading in
front of it with the same block around it and a smaller level, and everything else to the last heading in front of it
with the same block around it; where there is none, to that block (`_check_symbol` and `_close_lower_headings`;
specification, section 4.2). -/
theorem nested_of_run {tree : Node} {index offset : Nat} {builder : Builder} {forest : Forest}
    (hapart : tree.HeadingsApart builder.scope)
    (h : (Builder.run (.mk tree none index offset) builder).1 = .ok forest) : Nested (forestRows forest) := by
  obtain ⟨frames, bottom, hwalked, hclosed, rfl⟩ := walked_of_run h
  have hroot : Visit.Fits builder.scope ⟨.reference, .mk tree none index offset⟩ :=
    ⟨hapart, fun parent hparent => nomatch hparent⟩
  have hclear : Clear [Frame.sentinel] := List.forall_mem_singleton.2 nofun
  obtain ⟨hsound, -⟩ := hwalked.sound (List.forall_mem_singleton.2 hroot) (.inl hclear) Sound.sentinel
  rw [rows_of_closeDown hclosed]
  exact hsound.nested

def headingOf (marker text : String) : Node :=
  .inner .heading [.leaf .headingMarker marker, .leaf .space " ", .inner .markup [.leaf .text text]]

/-- Headings of levels one, three and two, the second of them followed by a block with a heading of level one. -/
def chapter : Node :=
  .inner .markup
    [headingOf "=" "A", .leaf .space "\n", headingOf "===" "B", .leaf .space "\n",
      .inner .contentBlock [.leaf .leftBracket "[", headingOf "=" "C", .leaf .rightBracket "]"], .leaf .space "\n",
      headingOf "==" "D"]

def chapterOutline : Forest :=
  [mk ⟨"A", .heading 1, 2, 3⟩
    [mk ⟨"B", .heading 3, 8, 9⟩ [mk ⟨"", .group, 10, 15⟩ [mk ⟨"C", .heading 1, 13, 14⟩ []]],
      mk ⟨"D", .heading 2, 19, 20⟩ []]]

theorem nested_of_run_chapter :
    chapter.HeadingsApart .braced ∧
      (Builder.run (.mk chapter none 0 0) { scope := .braced }).1 = .ok chapterOutline ∧
      Nested (forestRows chapterOutline) := by
  have hapart : chapter.HeadingsApart .braced := by decide
  have hrun : (Builder.run (.mk chapter none 0 0) { scope := .braced }).1 = .ok chapterOutline :=
    eq_ok_of_toOption (by decide +kernel)
  exact ⟨hapart, hrun, nested_of_run hapart hrun⟩

end Outline

end DocOutline
