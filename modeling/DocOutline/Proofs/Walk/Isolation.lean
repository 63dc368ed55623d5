import DocOutline.Proofs.Syntax.Places
import DocOutline.Proofs.Walk.Adequacy

/-!
# What a walk leaves alone

Everything that a walk closes, it closes at the top of one shared stack. Two facts keep it from closing too much. A
frame in front of which all headings end is never closed from within, since whatever else closes frames does so down to
a height that was taken above it (`Walked.rests_of_holds`); groups are such frames. And where there are no headings,
everything that is opened is closed again (`Walked.keeps_top`).

Main statement `checkAt_group`: checking a block adds the block to the top frame, and does nothing else.
-/

namespace DocOutline.Outline

open DocOutline.Symbol (Entry Naming Scope classify entryAt)
open DocOutline.Syntax (Cursor Node)

/-! ## Frames that stay -/

/-- The frame of an entry is open, right above the given ones. -/
def Rests (base : List Frame) (entry : Entry String) (frames : List Frame) : Prop :=
  ∃ above finished, frames = above ++ ⟨entry, finished⟩ :: base

namespace Rests

variable {base frames : List Frame} {entry : Entry String}

theorem length_lt (h : Rests base entry frames) : base.length < frames.length := by
  obtain ⟨above, finished, rfl⟩ := h
  simp
  omega

theorem push (h : Rests base entry frames) (frame : Frame) : Rests base entry (frame :: frames) := by
  obtain ⟨above, finished, rfl⟩ := h
  exact ⟨frame :: above, finished, rfl⟩

theorem change {top : Frame} {below : List Frame} (h : Rests base entry (top :: below))
    (finished : List (Outline String)) : Rests base entry (⟨top.entry, finished⟩ :: below) := by
  obtain ⟨above, finished', heq⟩ := h
  cases above with
  | nil =>
    cases heq
    exact ⟨[], finished, rfl⟩
  | cons frame above =>
    cases heq
    exact ⟨⟨top.entry, finished⟩ :: above, finished', rfl⟩

/-- Closing the top frame leaves the frame, as long as it is not the top frame itself. -/
theorem close {top below : Frame} {rest : List Frame} (h : Rests base entry (top :: below :: rest))
    (hlength : base.length < (below :: rest).length) : Rests base entry (below.adopt top.close :: rest) := by
  obtain ⟨above, finished, heq⟩ := h
  cases above with
  | nil =>
    cases heq
    exact absurd hlength (Nat.lt_irrefl _)
  | cons frame above =>
    rw [List.cons_append, List.cons.injEq] at heq
    exact change ⟨above, finished, heq.2⟩ _

theorem closeTops {n : Nat} (h : Rests base entry frames) (hlength : base.length + n < frames.length) :
    Rests base entry (closeTops n frames) := by
  induction n generalizing frames with
  | zero => rwa [closeTops_zero]
  | succ n ih =>
    match frames, h, hlength with
    | [], h, hlength => simp at hlength
    | [_], h, hlength => simp at hlength
    | top :: below :: rest, h, hlength =>
      simp only [List.length_cons] at hlength
      rw [closeTops_cons_cons]
      exact ih (h.close (by simp only [List.length_cons]; omega)) (by simp only [List.length_cons]; omega)

theorem closeDown {height : Nat} (h : Rests base entry frames) (hheight : base.length < height) :
    Rests base entry (closeDown height frames) := by
  have hlt := h.length_lt
  exact h.closeTops (by omega)

/-- A heading ends in front of a frame that holds it. -/
theorem settle {kind : Symbol.Kind} (h : Rests base entry frames)
    (hholds : ∀ level, kind.level? = some level → Frame.holdsHeading level ⟨entry, []⟩) :
    Rests base entry (settle kind frames) := by
  cases hlevel : kind.level? with
  | none => rwa [Outline.settle, hlevel]
  | some level =>
    obtain ⟨above, finished, rfl⟩ := h
    have hholds : Frame.holdsHeading level ⟨entry, finished⟩ := hholds level hlevel
    have hclosed := closedBy_le hholds above base
    rw [settle_of_level hlevel]
    refine closeTops ⟨above, finished, rfl⟩ ?_
    simp only [List.length_append, List.length_cons]
    omega

/-- Closing everything above the frame leaves it on top. -/
theorem closeDown_frame (h : Rests base entry frames) :
    ∃ finished, Outline.closeDown (base.length + 1) frames = ⟨entry, finished⟩ :: base := by
  have hlt := h.length_lt
  have hlength : (Outline.closeDown (base.length + 1) frames).length = base.length + 1 :=
    length_closeDown (Nat.succ_pos _) (by omega)
  obtain ⟨above, finished, hclosed⟩ := h.closeDown (Nat.lt_succ_self _)
  have hnil : above = [] := by
    rw [hclosed, List.length_append, List.length_cons] at hlength
    exact List.length_eq_zero_iff.1 (by omega)
  rw [hnil, List.nil_append] at hclosed
  exact ⟨finished, hclosed⟩

/-- Closing everything above the base closes the frame last, into the top of the base. -/
theorem closeDown_base {top : Frame} {below : List Frame} (h : Rests (top :: below) entry frames) :
    ∃ children, Outline.closeDown (top :: below).length frames = top.adopt (.mk entry children) :: below := by
  obtain ⟨finished, hclosed⟩ := h.closeDown_frame
  have htwo : Outline.closeDown (top :: below).length (Outline.closeDown ((top :: below).length + 1) frames) =
      Outline.closeDown (top :: below).length frames :=
    closeDown_closeDown (Nat.succ_pos _) (Nat.le_succ _) frames
  refine ⟨finished.reverse, ?_⟩
  rw [← htwo, hclosed, closeDown_cons]
  rfl

end Rests

/-! ## Where there are no headings -/

/-- Whether the place of a visit is no text of a heading, and no heading and none is beneath it. -/
def Visit.Quiet (visit : Visit) : Prop :=
  (∀ parent, visit.here.parent? = some parent → parent.kind ≠ .heading) ∧ visit.here.node.HeadingFree

theorem Visit.quiet_of_mem_children {visit part : Visit} (hpart : part.here ∈ visit.here.children)
    (hkind : visit.here.kind ≠ .heading) (hfree : part.here.node.HeadingFree) : part.Quiet := by
  refine ⟨fun parent hparent => ?_, hfree⟩
  rw [Cursor.parent?_of_mem_children hpart] at hparent
  cases hparent
  exact hkind

theorem Visit.Quiet.child {visit part : Visit} (h : visit.Quiet) (hpart : part.here ∈ visit.here.children) :
    part.Quiet :=
  quiet_of_mem_children hpart (h.2 _ (Node.mem_subtrees_self _)) (h.2.child (Cursor.node_mem_children hpart))

/-- A quiet place opens no heading. -/
theorem Visit.Quiet.not_heading {visit : Visit} (h : visit.Quiet) {scope : Scope} {symbol : Entry String}
    (hclass : classify visit.here scope visit.naming = .ok (some symbol)) : symbol.kind.isHeading = false := by
  cases Symbol.opens_of_classify hclass with
  | label _ _ _ => rfl
  | ident _ _ _ _ => rfl
  | group _ _ => rfl
  | heading _ hparent hheading _ => exact absurd hheading (h.1 _ hparent)

/-- Where there are no headings, everything that is opened is closed again, into the top frame. -/
theorem Walked.keeps_top {scope : Scope} {visits : List Visit} {frames after : List Frame}
    (h : Walked scope visits frames after) (hquiet : ∀ visit ∈ visits, visit.Quiet) {top : Frame} {below : List Frame}
    (hframes : frames = top :: below) : ∃ finished, after = ⟨top.entry, finished⟩ :: below := by
  induction h generalizing top below with
  | done => exact ⟨top.finished, hframes⟩
  | entry hclass hinner hrest ihinner ihrest =>
    obtain ⟨hfirst, hrestquiet⟩ := List.forall_mem_cons.1 hquiet
    have hheading := hfirst.not_heading hclass
    rw [heightBehind, hheading, if_neg Bool.false_ne_true, settle_of_not_heading hheading, hframes] at ihrest
    rw [settle_of_not_heading hheading, hframes] at ihinner
    obtain ⟨finished, rfl⟩ := ihinner (fun part hpart => hfirst.child (Visit.mem_of_mem_beneath hpart)) rfl
    rw [closeDown_cons] at ihrest
    obtain ⟨finished', hafter⟩ := ihrest hrestquiet rfl
    exact ⟨finished', hafter⟩
  | comment hclass hkind hrest ihrest =>
    cases hframes
    obtain ⟨finished, hafter⟩ := ihrest (List.forall_mem_cons.1 hquiet).2 rfl
    exact ⟨finished, hafter⟩
  | @function visit rest name body frames inner after hscope hkind hname hbody hinner hrest ihinner ihrest =>
    obtain ⟨hfirst, hrestquiet⟩ := List.forall_mem_cons.1 hquiet
    have hbodyquiet : Visit.Quiet ⟨.reference, body⟩ := hfirst.child (Visit.mem_of_body? hbody)
    obtain ⟨finished, rfl⟩ := ihinner (List.forall_mem_singleton.2 hbodyquiet) rfl
    rw [hframes, closeDown_cons] at ihrest
    obtain ⟨finished', hafter⟩ := ihrest hrestquiet rfl
    exact ⟨finished', hafter⟩
  | parts hclass hkind hbody hparts hrest ihparts ihrest =>
    obtain ⟨hfirst, hrestquiet⟩ := List.forall_mem_cons.1 hquiet
    obtain ⟨finished, rfl⟩ := ihparts (fun part hpart => hfirst.child (Visit.mem_of_mem_parts hpart)) hframes
    obtain ⟨finished', hafter⟩ := ihrest hrestquiet rfl
    exact ⟨finished', hafter⟩

/-! ## Frames that hold headings -/

theorem length_le_heightBehind (kind : Symbol.Kind) (frames : List Frame) :
    frames.length ≤ heightBehind kind frames := by
  unfold heightBehind
  split
  · exact Nat.le_succ _
  · exact Nat.le_refl _

/-- Whether all headings that are written at a place or beneath it end in front of an entry. -/
def HoldsHeadings (entry : Entry String) (here : Cursor) : Prop :=
  ∀ inner ∈ here.places, ∀ level ∈ Symbol.headingLevel? inner, Frame.holdsHeading level ⟨entry, []⟩

instance (entry : Entry String) (here : Cursor) : Decidable (HoldsHeadings entry here) :=
  inferInstanceAs (Decidable (∀ inner ∈ here.places, ∀ level ∈ Symbol.headingLevel? inner, _))

theorem HoldsHeadings.child {entry : Entry String} {here child : Cursor} (h : HoldsHeadings entry here)
    (hchild : child ∈ here.children) : HoldsHeadings entry child :=
  fun inner hinner => h inner (Cursor.mem_places_of_mem_children hchild hinner)

theorem holdsHeadings_of_group {entry : Entry String} (hgroup : entry.kind = .group) (here : Cursor) :
    HoldsHeadings entry here := by
  intro inner _ level _
  rw [Frame.holdsHeading, hgroup]
  rfl

/-- The frame of an entry stays open, and the frames below it stay as they are, if the headings that are checked end in
front of the entry. -/
theorem Walked.rests_of_holds {scope : Scope} {visits : List Visit} {frames after base : List Frame}
    {entry : Entry String} (h : Walked scope visits frames after)
    (hholds : ∀ visit ∈ visits, HoldsHeadings entry visit.here) (hrests : Rests base entry frames) :
    Rests base entry after := by
  induction h with
  | done => exact hrests
  | @entry visit rest symbol frames inner after hclass hinner hrest ihinner ihrest =>
    obtain ⟨hfirst, hrestholds⟩ := List.forall_mem_cons.1 hholds
    have hopens := Symbol.opens_of_classify hclass
    have hsettled := hrests.settle fun level hlevel =>
      hfirst _ (Cursor.mem_places_self _) level (hopens.headingLevel? hlevel)
    apply ihrest hrestholds
    -- The frame is below the height down to which frames are closed behind the entry.
    apply (ihinner (fun part hpart => hfirst.child (Visit.mem_of_mem_beneath hpart)) (hsettled.push _)).closeDown
    exact Nat.lt_of_lt_of_le hsettled.length_lt (length_le_heightBehind _ _)
  | comment hclass hkind hrest ihrest => exact ihrest (List.forall_mem_cons.1 hholds).2 (hrests.change _)
  | @function visit rest name body frames inner after hscope hkind hname hbody hinner hrest ihinner ihrest =>
    obtain ⟨hfirst, hrestholds⟩ := List.forall_mem_cons.1 hholds
    have hbodyholds : HoldsHeadings entry body := hfirst.child (Visit.mem_of_body? hbody)
    exact ihrest hrestholds
      ((ihinner (List.forall_mem_singleton.2 hbodyholds) (hrests.push _)).closeDown hrests.length_lt)
  | parts hclass hkind hbody hparts hrest ihparts ihrest =>
    obtain ⟨hfirst, hrestholds⟩ := List.forall_mem_cons.1 hholds
    exact ihrest hrestholds (ihparts (fun part hpart => hfirst.child (Visit.mem_of_mem_parts hpart)) hrests)

/-! ## Groups -/

/-- The frame of a group stays open, and the frames below it stay as they are, whatever is checked above. -/
theorem Walked.rests {scope : Scope} {visits : List Visit} {frames after base : List Frame} {entry : Entry String}
    (h : Walked scope visits frames after) (hgroup : entry.kind = .group) (hrests : Rests base entry frames) :
    Rests base entry after :=
  h.rests_of_holds (fun visit _ => holdsHeadings_of_group hgroup visit.here) hrests

/-- A group that is checked is added to the top frame when it is finished. -/
theorem Walked.group {scope : Scope} {visit : Visit} {rest : List Visit} {symbol : Entry String} {top : Frame}
    {below after : List Frame} (hclass : classify visit.here scope visit.naming = .ok (some symbol))
    (hgroup : symbol.kind = .group) (h : Walked scope (visit :: rest) (top :: below) after) :
    ∃ children, Walked scope rest (top.adopt (.mk symbol children) :: below) after := by
  cases h with
  | entry hclass' hinner hrest =>
    rw [hclass] at hclass'
    cases hclass'
    have hheading : symbol.kind.isHeading = false := by rw [hgroup]; rfl
    rw [settle_of_not_heading hheading] at hinner hrest
    obtain ⟨children, hclosed⟩ := (hinner.rests hgroup ⟨[], [], rfl⟩).closeDown_base
    rw [heightBehind, hheading, if_neg Bool.false_ne_true, hclosed] at hrest
    exact ⟨children, hrest⟩
  | comment hclass' _ _ => rw [hclass] at hclass'; cases hclass'
  | function hscope hkind _ _ _ _ => rw [Symbol.classify_closure hkind] at hclass; cases hclass
  | parts hclass' _ _ _ _ => rw [hclass] at hclass'; cases hclass'

/-- **A block isolates what is in it.** When a block has been checked, in whatever state of the walk, the block is
finished inside the frame that was at the top, and nothing else has changed (`check_node` on what `classify` takes for a
group). -/
theorem checkAt_group {here : Cursor} {builder after : Builder} {symbol : Entry String} {top : Frame}
    {below : List Frame} (hscope : builder.scope = .braced) (hframes : builder.frames = top :: below)
    (hclass : classify here .braced builder.naming = .ok (some symbol)) (hgroup : symbol.kind = .group)
    (hok : checkAt here builder = (.ok (), after)) :
    ∃ children, after = { builder with frames := ⟨top.entry, .mk symbol children :: top.finished⟩ :: below } := by
  obtain ⟨hafter, hwalked⟩ := walked_of_checkAt hok
  rw [hframes, hscope] at hwalked
  obtain ⟨children, hrest⟩ := hwalked.group hclass hgroup
  rw [Walked.nil_iff] at hrest
  rw [hrest] at hafter
  exact ⟨children, hafter⟩

/-- A block of content with a heading of the first level in it, and text behind the heading. -/
def contentBlock : Node :=
  .inner .contentBlock
    [.leaf .leftBracket "[",
      .inner .heading [.leaf .headingMarker "=", .leaf .space " ", .inner .markup [.leaf .text "É"]],
      .leaf .parbreak "\n\n", .inner .equation [.leaf .dollar "$", .leaf .dollar "$"], .leaf .rightBracket "]"]

/-- A walk in the middle of a section of the second level, with a comment finished in it. -/
def sectionBuilder : Builder where
  scope := .braced
  frames := [⟨⟨"Section", .heading 2, 3, 10⟩, [.mk ⟨"", .commentRun, 11, 20⟩ []]⟩, Frame.sentinel]
  naming := .parameter
  depth := 7

theorem checkAt_group_section :
    sectionBuilder.scope = .braced ∧
      classify (.mk contentBlock none 0 21) .braced sectionBuilder.naming = .ok (some ⟨"", .group, 21, 31⟩) ∧
      (checkAt (.mk contentBlock none 0 21) sectionBuilder).1 = .ok () ∧
      ∃ children, (checkAt (.mk contentBlock none 0 21) sectionBuilder).2 =
        { sectionBuilder with
          frames := [⟨⟨"Section", .heading 2, 3, 10⟩,
            [.mk ⟨"", .group, 21, 31⟩ children, .mk ⟨"", .commentRun, 11, 20⟩ []]⟩, Frame.sentinel] } := by
  have hclass : classify (.mk contentBlock none 0 21) .braced sectionBuilder.naming =
      .ok (some ⟨"", .group, 21, 31⟩) := eq_ok_of_toOption (by decide +kernel)
  have hok : (checkAt (.mk contentBlock none 0 21) sectionBuilder).1 = .ok () :=
    eq_ok_of_toOption (by decide +kernel)
  have hafter : checkAt (.mk contentBlock none 0 21) sectionBuilder =
      (.ok (), (checkAt (.mk contentBlock none 0 21) sectionBuilder).2) := Prod.ext hok rfl
  exact ⟨rfl, hclass, hok, checkAt_group rfl rfl hclass rfl hafter⟩

end DocOutline.Outline
