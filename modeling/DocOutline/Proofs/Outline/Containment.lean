import DocOutline.Proofs.Outline.WellFormed
import DocOutline.Proofs.Walk.OpenHeadings
import DocOutline.Proofs.Walk.Outcome

/-!
# What blocks hold

Groups and functions hold nothing that reaches out of them. Where an entry is nested is decided by the stack when it is
closed, not by the tree: a heading that stays open takes in what comes behind it, and a heading may end a function early.
But whatever is left open by the places visited so far is a heading or was open before (`Walked.leaves`). So the blocks
that are open lie around every place that is still to be visited, and all that is finished in them or open above them
lies within them (`Enclosing`).

Main statement `contained_of_run`.
-/

namespace DocOutline

open DocOutline.Symbol (Entry Scope classify entryAt)
open DocOutline.Syntax (Cursor Node)

/-- Whether a place lies in the range of an entry, if that is a block. -/
def Symbol.Entry.Covers (outer : Entry String) (here : Cursor) : Prop :=
  outer.kind.isBlock → outer.start ≤ here.offset ∧ (here.stop : Int) ≤ outer.stop

/-- Whether an entry lies in the range of another one, if that is a block. -/
def Symbol.Entry.Within (entry outer : Entry String) : Prop :=
  outer.kind.isBlock → outer.start ≤ entry.start ∧ entry.stop ≤ outer.stop

theorem Symbol.Entry.Covers.child {outer : Entry String} {here child : Cursor} (h : outer.Covers here)
    (hchild : child ∈ here.children) : outer.Covers child := by
  intro hblock
  have hrange := Cursor.range_of_mem_children hchild
  have hcovers := h hblock
  omega

/-- An entry covers the place that opens it. -/
theorem Symbol.Opens.range {here : Cursor} {scope : Scope} {naming : Symbol.Naming} {entry : Entry String}
    (h : Symbol.Opens here scope naming entry) : entry.start = here.offset ∧ entry.stop = here.stop := by
  cases h <;> exact ⟨rfl, rfl⟩

namespace Outline

variable {scope : Scope} {visits : List Visit} {frames after : List Frame}

/-! ## What is left open -/

/-- Whether what is open later is what was open, but for some entries closed from the top and some others opened there,
none of which is a block. -/
def Leaves (entries later : List (Entry String)) : Prop :=
  ∃ above k, later = above ++ entries.drop k ∧ ∀ entry ∈ above, entry.kind.isBlock = false

namespace Leaves

variable {entries middle later : List (Entry String)} {entry : Entry String}

theorem refl (entries : List (Entry String)) : Leaves entries entries := ⟨[], 0, rfl, nofun⟩

theorem drop (h : Leaves entries later) (n : Nat) : Leaves entries (later.drop n) := by
  obtain ⟨above, k, rfl, habove⟩ := h
  refine ⟨above.drop n, k + (n - above.length), ?_, fun entry hentry => habove entry (List.mem_of_mem_drop hentry)⟩
  rw [List.drop_append, List.drop_drop]

theorem trans (h : Leaves entries middle) (h' : Leaves middle later) : Leaves entries later := by
  obtain ⟨above, k, rfl, habove⟩ := h'
  obtain ⟨above', k', heq, habove'⟩ := h.drop k
  refine ⟨above ++ above', k', by rw [heq, List.append_assoc], fun entry hentry => ?_⟩
  exact (List.mem_append.1 hentry).elim (habove entry) (habove' entry)

/-- An entry that is no block may stay open. -/
theorem of_cons (h : Leaves (entry :: entries) later) (hentry : entry.kind.isBlock = false) : Leaves entries later := by
  obtain ⟨above, k, rfl, habove⟩ := h
  cases k with
  | zero =>
    refine ⟨above ++ [entry], 0, by simp, fun other hother => ?_⟩
    rcases List.mem_append.1 hother with hother | hother
    · exact habove other hother
    · rwa [List.mem_singleton.1 hother]
  | succ k => exact ⟨above, k, rfl, habove⟩

/-- Closing down to the number of entries that were open in front of an entry closes that entry. -/
theorem drop_of_cons (h : Leaves (entry :: entries) later) :
    Leaves entries (later.drop (later.length - entries.length)) := by
  obtain ⟨above, k, rfl, habove⟩ := h
  cases k with
  | zero =>
    have hdrop : (above ++ entry :: entries).length - entries.length = (above ++ [entry]).length := by
      simp
      omega
    rw [List.drop_zero, hdrop, List.append_cons above entry entries, List.drop_left]
    exact refl entries
  | succ k => exact drop ⟨above, k, rfl, habove⟩ _

/-- What is open later covers what was covered by what was open. -/
theorem covers {here : Cursor} (h : Leaves entries later) (hcovers : ∀ outer ∈ entries, outer.Covers here) :
    ∀ outer ∈ later, outer.Covers here := by
  obtain ⟨above, k, rfl, habove⟩ := h
  intro outer houter
  rcases List.mem_append.1 houter with houter | houter
  · exact fun hblock => by rw [habove outer houter] at hblock; cases hblock
  · exact hcovers outer (List.mem_of_mem_drop houter)

end Leaves

theorem map_entry_closeTops {n : Nat} (h : n < frames.length) :
    (closeTops n frames).map Frame.entry = (frames.map Frame.entry).drop n := by
  induction n generalizing frames with
  | zero => rw [closeTops_zero, List.drop_zero]
  | succ n ih =>
    match frames, h with
    | [_], h => simp at h
    | top :: below :: rest, h =>
      rw [closeTops_cons_cons, ih (by simpa using h)]
      rfl

theorem map_entry_closeDown {height : Nat} (hpos : 0 < height) (hne : frames ≠ []) :
    (closeDown height frames).map Frame.entry = (frames.map Frame.entry).drop (frames.length - height) := by
  have hlength := List.length_pos_iff.2 hne
  exact map_entry_closeTops (by omega)

theorem leaves_settle (kind : Symbol.Kind) (hne : frames ≠ []) :
    Leaves (frames.map Frame.entry) ((settle kind frames).map Frame.entry) := by
  cases hlevel : kind.level? with
  | none => rw [settle, hlevel]; exact .refl _
  | some level =>
    rw [settle_of_level hlevel, map_entry_closeTops (closedBy_lt level hne)]
    exact (Leaves.refl _).drop _

/-- What is left open behind an entry: the entry itself only if it is a heading. -/
theorem leaves_closeDown {symbol : Entry String} {inner : List Frame} (hne : frames ≠ []) (hinnerne : inner ≠ [])
    (h : Leaves (symbol :: frames.map Frame.entry) (inner.map Frame.entry)) :
    Leaves (frames.map Frame.entry) ((closeDown (heightBehind symbol.kind frames) inner).map Frame.entry) := by
  have hlength := List.length_pos_iff.2 hne
  unfold heightBehind
  split
  · next hheading =>
    rw [map_entry_closeDown (Nat.succ_pos _) hinnerne]
    exact (h.of_cons (isBlock_of_isHeading hheading)).drop _
  · rw [map_entry_closeDown hlength hinnerne]
    simpa only [List.length_map] using h.drop_of_cons

theorem heightBehind_pos (kind : Symbol.Kind) (hne : frames ≠ []) : 0 < heightBehind kind frames := by
  have hlength := List.length_pos_iff.2 hne
  unfold heightBehind
  split <;> omega

/-- **A walk leaves nothing open but headings and what was open before.** -/
theorem Walked.leaves (h : Walked scope visits frames after) (hne : frames ≠ []) :
    after ≠ [] ∧ Leaves (frames.map Frame.entry) (after.map Frame.entry) := by
  induction h with
  | done => exact ⟨hne, .refl _⟩
  | @entry visit rest symbol frames inner after hclass hinner hrest ihinner ihrest =>
    have hsettled := settle_ne_nil symbol.kind hne
    obtain ⟨hinnerne, hleaves⟩ := ihinner (List.cons_ne_nil _ _)
    obtain ⟨hafter, hlater⟩ := ihrest (closeDown_ne_nil (heightBehind_pos symbol.kind hsettled) hinnerne)
    have hclosed := leaves_closeDown hsettled hinnerne hleaves
    exact ⟨hafter, (leaves_settle symbol.kind hne).trans (hclosed.trans hlater)⟩
  | comment hclass hkind hrest ihrest => exact ihrest (List.cons_ne_nil _ _)
  | @function visit rest name body frames inner after hscope hkind hname hbody hinner hrest ihinner ihrest =>
    obtain ⟨hinnerne, hleaves⟩ := ihinner (List.cons_ne_nil _ _)
    obtain ⟨hafter, hlater⟩ := ihrest (closeDown_ne_nil (List.length_pos_iff.2 hne) hinnerne)
    exact ⟨hafter, (leaves_closeDown hne hinnerne hleaves).trans hlater⟩
  | parts hclass hkind hbody hparts hrest ihparts ihrest =>
    obtain ⟨hmiddle, hleaves⟩ := ihparts hne
    obtain ⟨hafter, hlater⟩ := ihrest hmiddle
    exact ⟨hafter, hleaves.trans hlater⟩

/-! ## What is finished and what is open -/

/-- Whether everything nested in an outline, at any depth, lies within its entry. -/
def Contained (outline : Outline String) : Prop :=
  ∀ inner ∈ nodesAll outline.children, inner.entry.Within outline.entry

/-- Whether what is finished inside a frame is contained at every depth and lies within the frame and those below, as
the entry of the frame lies within those below. -/
structure Frame.Fits (frame : Frame) (outers : List (Entry String)) : Prop where
  entry : ∀ outer ∈ outers, frame.entry.Within outer
  contained : ∀ node ∈ nodesAll frame.finished, node.Contained
  finished : ∀ node ∈ nodesAll frame.finished, ∀ outer ∈ frame.entry :: outers, node.entry.Within outer

/-- Whether each frame of a stack fits those below it. -/
def Enclosing : List Frame → Prop
  | [] => True
  | frame :: below => frame.Fits (below.map Frame.entry) ∧ Enclosing below

namespace Enclosing

variable {rest : List Frame} {top below : Frame} {entry : Entry String} {outline : Outline String}

theorem sentinel : Enclosing [Frame.sentinel] := ⟨⟨nofun, nofun, nofun⟩, trivial⟩

theorem push (h : Enclosing frames) (hentry : ∀ outer ∈ frames.map Frame.entry, entry.Within outer) :
    Enclosing (⟨entry, []⟩ :: frames) := ⟨⟨hentry, nofun, nofun⟩, h⟩

theorem adopt (h : Enclosing (top :: rest)) (hcontained : ∀ node ∈ outline.nodes, node.Contained)
    (hwithin : ∀ node ∈ outline.nodes, ∀ outer ∈ top.entry :: rest.map Frame.entry, node.entry.Within outer) :
    Enclosing (top.adopt outline :: rest) :=
  ⟨⟨h.1.entry, List.forall_mem_append.2 ⟨hcontained, h.1.contained⟩,
    List.forall_mem_append.2 ⟨hwithin, h.1.finished⟩⟩, h.2⟩

theorem adopt_leaf (h : Enclosing (top :: rest))
    (hentry : ∀ outer ∈ top.entry :: rest.map Frame.entry, entry.Within outer) :
    Enclosing (top.adopt (.mk entry []) :: rest) := by
  refine h.adopt (fun node hnode => ?_) fun node hnode => ?_
  · rw [List.mem_singleton.1 hnode]
    exact nofun
  · rw [List.mem_singleton.1 hnode]
    exact hentry

theorem drop_finished {finished : List (Outline String)} (h : Enclosing (⟨entry, outline :: finished⟩ :: rest)) :
    Enclosing (⟨entry, finished⟩ :: rest) :=
  ⟨⟨h.1.entry, (List.forall_mem_append.1 h.1.contained).2, (List.forall_mem_append.1 h.1.finished).2⟩, h.2⟩

/-- A frame that is closed fits into the one below. -/
theorem close (h : Enclosing (top :: below :: rest)) : Enclosing (below.adopt top.close :: rest) := by
  have hnodes : ∀ node ∈ nodesAll top.finished.reverse, node ∈ nodesAll top.finished := fun node hnode => by
    obtain ⟨outline, houtline, hmem⟩ := mem_nodesAll.1 hnode
    exact mem_nodesAll.2 ⟨outline, List.mem_reverse.1 houtline, hmem⟩
  have hcontained : ∀ node ∈ top.close.nodes, node.Contained :=
    List.forall_mem_cons.2 ⟨fun inner hinner => h.1.finished inner (hnodes inner hinner) _ (List.mem_cons_self ..),
      fun node hnode => h.1.contained node (hnodes node hnode)⟩
  have hwithin : ∀ node ∈ top.close.nodes, ∀ outer ∈ below.entry :: rest.map Frame.entry, node.entry.Within outer :=
    List.forall_mem_cons.2 ⟨h.1.entry,
      fun node hnode outer houter => h.1.finished node (hnodes node hnode) outer (List.mem_cons_of_mem _ houter)⟩
  exact adopt h.2 hcontained hwithin

theorem closeTops (n : Nat) (h : Enclosing frames) : Enclosing (closeTops n frames) := by
  induction n generalizing frames with
  | zero => rwa [closeTops_zero]
  | succ n ih =>
    match frames, h with
    | [], h => exact h
    | [_], h => exact h
    | top :: below :: rest, h =>
      rw [closeTops_cons_cons]
      exact ih h.close

theorem closeDown (height : Nat) (h : Enclosing frames) : Enclosing (closeDown height frames) := h.closeTops _

theorem settle (kind : Symbol.Kind) (h : Enclosing frames) : Enclosing (settle kind frames) := by
  unfold Outline.settle
  split
  · exact h.closeTops _
  · exact h

/-- A run of comments that is widened starts where it did, and ends with a comment that the open blocks cover. -/
theorem addComment {here : Cursor} (h : Enclosing (top :: rest))
    (hcovers : ∀ outer ∈ top.entry :: rest.map Frame.entry, outer.Covers here) :
    Enclosing (⟨top.entry, addComment here top.finished⟩ :: rest) := by
  rcases addComment_cases here top.finished with heq | ⟨last, earlier, hfinished, -, heq⟩
  · rw [heq]
    exact h.adopt_leaf hcovers
  · rw [heq]
    obtain ⟨entry, finished⟩ := top
    cases hfinished
    refine h.drop_finished.adopt_leaf fun outer houter hblock => ?_
    have hlast := h.1.finished last (List.mem_append_left _ (mem_nodes_self last)) outer houter hblock
    exact ⟨hlast.1, (hcovers outer houter hblock).2⟩

end Enclosing

/-- What is covered where an entry is opened at a place is covered beneath that place, by the entry too. -/
theorem covers_cons {entry : Entry String} {entries : List (Entry String)} {here child : Cursor}
    (hstart : entry.start = here.offset) (hstop : entry.stop = here.stop)
    (hcovers : ∀ outer ∈ entries, outer.Covers here) (hchild : child ∈ here.children) :
    ∀ outer ∈ entry :: entries, outer.Covers child := by
  have hentry : entry.Covers here := fun _ => by rw [hstart, hstop]; exact ⟨Int.le_refl _, Int.le_refl _⟩
  exact List.forall_mem_cons.2 ⟨hentry.child hchild, fun outer houter => (hcovers outer houter).child hchild⟩

/-- **A walk keeps what is finished within the blocks around it**, as long as these cover the places it comes to. -/
theorem Walked.enclosing (h : Walked scope visits frames after) (hne : frames ≠ []) (hframes : Enclosing frames)
    (hcovers : ∀ visit ∈ visits, ∀ outer ∈ frames.map Frame.entry, outer.Covers visit.here) : Enclosing after := by
  induction h with
  | done => exact hframes
  | @entry visit rest symbol frames inner after hclass hinner hrest ihinner ihrest =>
    obtain ⟨hfirst, hrestcovers⟩ := List.forall_mem_cons.1 hcovers
    obtain ⟨hstart, hstop⟩ := (Symbol.opens_of_classify hclass).range
    have hsettled := (leaves_settle symbol.kind hne).covers hfirst
    have hpushed : Enclosing (⟨symbol, []⟩ :: settle symbol.kind frames) :=
      (hframes.settle _).push fun outer houter hblock => by rw [hstart, hstop]; exact hsettled outer houter hblock
    have hclosed := (ihinner (List.cons_ne_nil _ _) hpushed fun part hpart =>
      covers_cons hstart hstop hsettled (Visit.mem_of_mem_beneath hpart)).closeDown
        (heightBehind symbol.kind (settle symbol.kind frames))
    obtain ⟨hnextne, hleaves⟩ := Walked.leaves (.entry hclass hinner .done) hne
    exact ihrest hnextne hclosed fun other hother => hleaves.covers (hrestcovers other hother)
  | comment hclass hkind hrest ihrest =>
    obtain ⟨hfirst, hrestcovers⟩ := List.forall_mem_cons.1 hcovers
    exact ihrest (List.cons_ne_nil _ _) (hframes.addComment hfirst) hrestcovers
  | @function visit rest name body frames inner after hscope hkind hname hbody hinner hrest ihinner ihrest =>
    obtain ⟨hfirst, hrestcovers⟩ := List.forall_mem_cons.1 hcovers
    have hpushed : Enclosing (⟨entryAt visit.here name (.named .function), []⟩ :: frames) := hframes.push hfirst
    have hclosed := (ihinner (List.cons_ne_nil _ _) hpushed (List.forall_mem_singleton.2
      (covers_cons rfl rfl hfirst (Visit.mem_of_body? hbody)))).closeDown frames.length
    obtain ⟨hnextne, hleaves⟩ := Walked.leaves (.function hscope hkind hname hbody hinner .done) hne
    exact ihrest hnextne hclosed fun other hother => hleaves.covers (hrestcovers other hother)
  | parts hclass hkind hbody hparts hrest ihparts ihrest =>
    obtain ⟨hfirst, hrestcovers⟩ := List.forall_mem_cons.1 hcovers
    obtain ⟨hmiddlene, hleaves⟩ := hparts.leaves hne
    have hmiddle := ihparts hne hframes fun part hpart outer houter =>
      (hfirst outer houter).child (Visit.mem_of_mem_parts hpart)
    exact ihrest hmiddlene hmiddle fun other hother => hleaves.covers (hrestcovers other hother)

/-- **Blocks hold what is nested in them.** Whatever is nested in a group or a function of an outline, at any depth,
lies in its range (`_check_symbol`, `_check_closure` and `close_to`). -/
theorem contained_of_run {root : Cursor} {builder : Builder} {forest : Forest}
    (h : (Builder.run root builder).1 = .ok forest) :
    ∀ outline ∈ nodesAll forest, outline.entry.kind = .group ∨ outline.entry.kind = .named .function →
      ∀ inner ∈ nodesAll outline.children,
        outline.entry.start ≤ inner.entry.start ∧ inner.entry.stop ≤ outline.entry.stop := by
  obtain ⟨frames, bottom, hwalked, hclosed, rfl⟩ := walked_of_run h
  have hcovers : ∀ outer ∈ [Frame.sentinel].map Frame.entry, outer.Covers root :=
    List.forall_mem_singleton.2 nofun
  have henclosing := (hwalked.enclosing (List.cons_ne_nil _ _) .sentinel
    (List.forall_mem_singleton.2 hcovers)).closeDown 1
  rw [hclosed] at henclosing
  intro outline houtline hkind
  obtain ⟨finished, hfinished, hmem⟩ := mem_nodesAll.1 houtline
  have hcontained := henclosing.1.contained outline (mem_nodesAll.2 ⟨finished, List.mem_reverse.1 hfinished, hmem⟩)
  have hblock : outline.entry.kind.isBlock := by
    rcases hkind with hkind | hkind <;> rw [hkind] <;> rfl
  exact fun inner hinner => hcontained inner hinner hblock

/-- A block with two lines of comments, a heading and what follows it, and then another heading. -/
def blockWithHeading : Node :=
  .inner .markup
    [.inner .contentBlock
        [.leaf .leftBracket "[", .leaf .lineComment "// a", .leaf .space "\n", .leaf .lineComment "// b",
          .leaf .space "\n", .inner .heading [.leaf .headingMarker "=", .inner .markup [.leaf .text "É"]],
          .inner .codeBlock [.leaf .leftBrace "\x7b", .leaf .rightBrace "\x7d"], .leaf .rightBracket "]"],
      .leaf .parbreak "\n\n", .inner .heading [.leaf .headingMarker "==", .inner .markup [.leaf .text "B"]]]

def blockWithHeadingOutline : Forest :=
  [mk ⟨"", .group, 0, 17⟩
      [mk ⟨"", .commentRun, 1, 10⟩ [], mk ⟨"É", .heading 1, 12, 14⟩ [mk ⟨"", .group, 14, 16⟩ []]],
    mk ⟨"B", .heading 2, 21, 22⟩ []]

theorem contained_of_run_blockWithHeading :
    (Builder.run (Cursor.root blockWithHeading) { scope := .braced }).1 = .ok blockWithHeadingOutline ∧
      ∀ outline ∈ nodesAll blockWithHeadingOutline,
        outline.entry.kind = .group ∨ outline.entry.kind = .named .function → ∀ inner ∈ nodesAll outline.children,
          outline.entry.start ≤ inner.entry.start ∧ inner.entry.stop ≤ outline.entry.stop := by
  have hrun : (Builder.run (Cursor.root blockWithHeading) { scope := .braced }).1 = .ok blockWithHeadingOutline :=
    eq_ok_of_toOption (by decide +kernel)
  exact ⟨hrun, contained_of_run hrun⟩

end Outline

end DocOutline
