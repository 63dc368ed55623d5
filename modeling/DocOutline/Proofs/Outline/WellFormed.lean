import DocOutline.Proofs.Syntax.Places
import DocOutline.Proofs.Walk.Additions

/-!
# Well-formed outlines

What every outline of a document has in common, whatever the tree: ranges lie in the source, each kind of entry has the
name that belongs to it, only names that are declared become entries, no scope has entries of the other one, and
variables, labels and runs of comments hold nothing (`wellFormed_of_run`).

All but the last is said of single entries and follows from how entries come about. What an entry holds is decided by
the frames: an entry that can hold nothing is closed as soon as it is opened (`Holding`).
-/

namespace DocOutline

open DocOutline.Symbol (Entry Scope classify entryAt)
open DocOutline.Syntax (Cursor Node)

/-- Whether other entries can be nested in one of this kind. -/
def Symbol.Kind.holds : Symbol.Kind → Bool
  | heading _ | group | named .function => true
  | _ => false

/-- What holds of an entry under a scope, in a source of `length` bytes. -/
structure Symbol.Entry.WellFormed (scope : Scope) (length : Nat) (entry : Entry String) : Prop where
  range : 0 ≤ entry.start ∧ entry.start ≤ entry.stop ∧ entry.stop ≤ length
  heading : ∀ level, entry.kind = .heading level → 1 ≤ level ∧ entry.name ≠ ""
  unnamed : entry.kind = .group ∨ entry.kind = .commentRun → entry.name = ""
  named : ∀ role, entry.kind = .named role →
    entry.name ≠ "" ∧ (role = .label ∨ role = .function ∨ role = .variable) ∧ scope = .symbol
  group : entry.kind = .group → scope = .braced

namespace Outline

mutual

/-- An outline and all outlines nested in it, at any depth. -/
def nodes {ν : Type} : Outline ν → List (Outline ν)
  | mk entry children => mk entry children :: nodesAll children
termination_by structural outline => outline

/-- Consecutive outlines and all outlines nested in them. -/
def nodesAll {ν : Type} : List (Outline ν) → List (Outline ν)
  | [] => []
  | outline :: outlines => nodes outline ++ nodesAll outlines
termination_by structural outlines => outlines

end

/-- What holds of an outline at any depth: of its entry, of what is nested in it, and of its stored form, which has no
member for what is nested in it rather than an empty one. -/
structure WellFormed (scope : Scope) (length : Nat) (outline : Outline String) : Prop where
  entry : outline.entry.WellFormed scope length
  children : outline.children ≠ [] → outline.entry.kind.holds
  stored : outline.toJson.member? "children" = none ∨
    ∃ child children, outline.toJson.member? "children" = some (.arr (child :: children))

theorem mem_nodesAll {ν : Type} {node : Outline ν} {outlines : List (Outline ν)} :
    node ∈ nodesAll outlines ↔ ∃ outline ∈ outlines, node ∈ outline.nodes := by
  induction outlines with
  | nil => simp [nodesAll]
  | cons outline outlines ih => simp [nodesAll, ih]

theorem mem_nodes_self {ν : Type} (outline : Outline ν) : outline ∈ outline.nodes := by
  cases outline
  exact List.mem_cons_self ..

mutual

/-- What is nested in an outline at some depth is itself an outline at some depth. -/
theorem mem_nodes_child {ν : Type} {inner child : Outline ν} (outline : Outline ν) (h : inner ∈ outline.nodes)
    (hchild : child ∈ inner.children) : child ∈ outline.nodes := by
  match outline with
  | mk entry children =>
    rcases List.mem_cons.1 h with rfl | h
    · exact List.mem_cons_of_mem _ (mem_nodesAll.2 ⟨child, hchild, mem_nodes_self child⟩)
    · exact List.mem_cons_of_mem _ (mem_nodesAll_child children h hchild)
termination_by structural outline

theorem mem_nodesAll_child {ν : Type} {inner child : Outline ν} (outlines : List (Outline ν))
    (h : inner ∈ nodesAll outlines) (hchild : child ∈ inner.children) : child ∈ nodesAll outlines := by
  match outlines with
  | [] => cases h
  | outline :: outlines =>
    rcases List.mem_append.1 h with h | h
    · exact List.mem_append_left _ (mem_nodes_child outline h hchild)
    · exact List.mem_append_right _ (mem_nodesAll_child outlines h hchild)
termination_by structural outlines

end

mutual

/-- The entries of an outline are those of the outlines at any depth. -/
theorem entry_nodes {ν : Type} (depth : Nat) (outline : Outline ν) :
    outline.nodes.map entry = (flatten depth outline).map Prod.fst := by
  match outline with
  | mk entry children => rw [nodes, flatten, List.map_cons, List.map_cons, entry_nodesAll (depth + 1)]; rfl

theorem entry_nodesAll {ν : Type} (depth : Nat) (outlines : List (Outline ν)) :
    (nodesAll outlines).map entry = (flattenAll depth outlines).map Prod.fst := by
  match outlines with
  | [] => rfl
  | outline :: outlines =>
    rw [nodesAll, flattenAll, List.map_append, List.map_append, entry_nodes depth, entry_nodesAll depth]

end

/-- Where nothing is nested in an outline, its stored form has no member for that. -/
theorem member?_children_toJson (outline : Outline String) :
    outline.toJson.member? "children" = none ∨
      ∃ child children, outline.toJson.member? "children" = some (.arr (child :: children)) := by
  obtain ⟨entry, children⟩ := outline
  cases children with
  | nil => exact .inl rfl
  | cons child children => exact .inr ⟨child.toJson, toJsonAll children, rfl⟩

/-! ## Entries -/

theorem one_le_headingDepth (node : Node) : 1 ≤ node.headingDepth := by
  unfold Node.headingDepth
  split
  · exact Nat.le_max_left _ _
  · exact Nat.le_refl _

theorem isIdentText_ne_empty {name : String} (h : Node.isIdentText name.toList) : name ≠ "" := by
  rintro rfl
  cases h

section

variable {scope : Scope} {naming : Symbol.Naming} {here : Cursor} {entry : Entry String} {length : Nat}

theorem wellFormed_of_opens (h : Symbol.Opens here scope naming entry) (hstop : here.stop ≤ length) :
    entry.WellFormed scope length := by
  have hrange : (0 : Int) ≤ here.offset ∧ (here.offset : Int) ≤ here.stop ∧ (here.stop : Int) ≤ length := by
    have := here.offset_le_stop
    omega
  cases h with
  | label hscope _ hname =>
    refine ⟨hrange, nofun, by simp [entryAt], ?_, nofun⟩
    rintro role ⟨⟩
    exact ⟨(Node.labelName?_eq_some hname).2.2, .inl rfl, hscope⟩
  | ident hscope _ hname hrole =>
    refine ⟨hrange, nofun, by simp [entryAt], ?_, nofun⟩
    rintro role ⟨⟩
    refine ⟨isIdentText_ne_empty (Node.identName?_eq_some hname).2.2, ?_, hscope⟩
    cases naming with
    | reference => cases hrole
    | functionName => cases hrole; exact .inr (.inl rfl)
    | variableBinding => cases hrole; exact .inr (.inr rfl)
    | parameter => cases hrole; exact .inr (.inr rfl)
  | group hscope _ => exact ⟨hrange, nofun, fun _ => rfl, nofun, fun _ => hscope⟩
  | @heading parent _ _ _ htext =>
    refine ⟨hrange, ?_, by simp [entryAt], nofun, nofun⟩
    rintro level ⟨⟩
    have := one_le_headingDepth parent.node
    exact ⟨by omega, htext⟩

theorem functionName?_ne_empty {name : String} (h : functionName? here = some name) : name ≠ "" := by
  have hanonymous : anonymousName ≠ "" := by decide
  unfold functionName? at h
  split at h
  · split at h
    · exact isIdentText_ne_empty (Node.identName?_eq_some h).2.2
    · cases h
      exact hanonymous
  · cases h
    exact hanonymous

theorem wellFormed_function {name : String} (hname : functionName? here = some name) (hscope : scope = .symbol)
    (hstop : here.stop ≤ length) : (entryAt here name (.named .function)).WellFormed scope length := by
  have := here.offset_le_stop
  refine ⟨by simp only [entryAt]; omega, nofun, by simp [entryAt], ?_, nofun⟩
  rintro role ⟨⟩
  exact ⟨functionName?_ne_empty hname, .inr (.inl rfl), hscope⟩

theorem wellFormed_comment {start : Int} (hstart : 0 ≤ start) (hle : start ≤ here.stop) (hstop : here.stop ≤ length) :
    (commentEntry start here).WellFormed scope length :=
  ⟨⟨hstart, hle, by simp only [commentEntry]; omega⟩, nofun, fun _ => rfl, nofun, nofun⟩

/-- What stands in front of a line comment ends in front of it. -/
theorem stop_le_of_commentBefore? {root previous : Cursor} (hhere : here ∈ root.places) (hroot : root.parent? = none)
    (h : commentBefore? here = some previous) : previous.stop ≤ here.offset := by
  have hparent : ∀ {place before : Cursor}, place ∈ root.places → place.prevRaw? = some before →
      before.stop ≤ place.offset ∧ before ∈ root.places := by
    intro place before hplace hbefore
    rcases Cursor.exists_parent_of_mem_places hplace with rfl | ⟨parent, hmem, hchild⟩
    · unfold Cursor.prevRaw? at hbefore
      rw [hroot] at hbefore
      cases hbefore
    · obtain ⟨hchild', -, hstop⟩ := Cursor.of_prevRaw? hchild hbefore
      exact ⟨Nat.le_of_eq hstop, Cursor.mem_places_child hmem hchild'⟩
  unfold commentBefore? at h
  split at h
  · next first hfirst =>
    obtain ⟨hle, hmem⟩ := hparent hhere hfirst
    split at h
    · split at h
      · cases h
      · have := (hparent hmem h).1
        have := first.offset_le_stop
        omega
    · cases h
      exact hle
  · cases h

end

theorem stop_le_byteLen {tree : Node} {here : Cursor} (h : here ∈ (Cursor.root tree).places) :
    here.stop ≤ tree.byteLen := by
  have hstop := (Cursor.range_of_mem_places h).2
  rwa [show (Cursor.root tree).stop = tree.byteLen from Nat.zero_add _] at hstop

/-- All entries of a tree are well-formed as they come about. -/
theorem establishes_wellFormed (scope : Scope) (tree : Node) :
    Establishes scope (fun visit => visit.here ∈ (Cursor.root tree).places)
      (fun entry => entry.WellFormed scope tree.byteLen) where
  beneath hplace _ hpart := Cursor.mem_places_child hplace (Visit.mem_of_mem_beneath hpart)
  parts hplace _ hpart := Cursor.mem_places_child hplace (Visit.mem_of_mem_parts hpart)
  body hplace _ hbody := Cursor.mem_places_child hplace (Visit.mem_of_body? hbody)
  entry hplace hclass := wellFormed_of_opens (Symbol.opens_of_classify hclass) (stop_le_byteLen hplace)
  function hplace hscope _ hname := wellFormed_function hname hscope (stop_le_byteLen hplace)
  comment {visit} hplace _ := by
    have := visit.here.offset_le_stop
    exact wellFormed_comment (by omega) (by omega) (stop_le_byteLen hplace)
  run {visit last} hplace _ hrun hlast := by
    obtain ⟨-, previous, hprevious, hstop⟩ := of_continuesRun hrun
    have hbefore := stop_le_of_commentBefore? hplace rfl hprevious
    have hrange := hlast.range
    have := visit.here.offset_le_stop
    exact wellFormed_comment hrange.1 (by omega) (stop_le_byteLen hplace)

/-! ## What entries hold -/

/-- Whether what is nested in an outline is nested in an entry that can hold something. -/
def Housed (outline : Outline String) : Prop := outline.children ≠ [] → outline.entry.kind.holds

/-- Whether a frame is open, all open frames can hold something, and what is finished is housed at every depth. -/
structure Holding (frames : List Frame) : Prop where
  ne_nil : frames ≠ []
  open_holds : ∀ frame ∈ frames, frame.entry.kind.holds
  housed : ∀ frame ∈ frames, ∀ node ∈ nodesAll frame.finished, node.Housed

namespace Holding

variable {frames rest : List Frame} {top below : Frame} {entry : Entry String} {outline : Outline String}

theorem sentinel : Holding [Frame.sentinel] := by
  refine ⟨List.cons_ne_nil _ _, fun frame hframe => ?_, fun frame hframe => ?_⟩
  · rw [List.mem_singleton.1 hframe]
    rfl
  · rw [List.mem_singleton.1 hframe]
    nofun

theorem push (h : Holding frames) (hentry : entry.kind.holds) : Holding (⟨entry, []⟩ :: frames) :=
  ⟨List.cons_ne_nil _ _, List.forall_mem_cons.2 ⟨hentry, h.open_holds⟩, List.forall_mem_cons.2 ⟨nofun, h.housed⟩⟩

theorem tail (h : Holding (top :: below :: rest)) : Holding (below :: rest) :=
  ⟨List.cons_ne_nil _ _, (List.forall_mem_cons.1 h.open_holds).2, (List.forall_mem_cons.1 h.housed).2⟩

theorem adopt (h : Holding (top :: rest)) (houtline : ∀ node ∈ outline.nodes, node.Housed) :
    Holding (top.adopt outline :: rest) := by
  obtain ⟨htop, hrest⟩ := List.forall_mem_cons.1 h.housed
  exact ⟨List.cons_ne_nil _ _, List.forall_mem_cons.2 (List.forall_mem_cons.1 h.open_holds),
    List.forall_mem_cons.2 ⟨List.forall_mem_append.2 ⟨houtline, htop⟩, hrest⟩⟩

theorem adopt_leaf (h : Holding (top :: rest)) (entry : Entry String) : Holding (top.adopt (.mk entry []) :: rest) := by
  refine h.adopt fun node hnode => ?_
  rw [List.mem_singleton.1 hnode]
  exact fun hne => absurd rfl hne

theorem drop_finished {finished : List (Outline String)} (h : Holding (⟨entry, outline :: finished⟩ :: rest)) :
    Holding (⟨entry, finished⟩ :: rest) := by
  obtain ⟨htop, hrest⟩ := List.forall_mem_cons.1 h.housed
  exact ⟨List.cons_ne_nil _ _, List.forall_mem_cons.2 (List.forall_mem_cons.1 h.open_holds),
    List.forall_mem_cons.2 ⟨(List.forall_mem_append.1 htop).2, hrest⟩⟩

/-- The outline of a frame that can hold something is housed. -/
theorem housed_close (h : Holding (top :: rest)) : ∀ node ∈ top.close.nodes, node.Housed := by
  refine List.forall_mem_cons.2 ⟨fun _ => h.open_holds top (List.mem_cons_self ..), fun node hnode => ?_⟩
  obtain ⟨outline, houtline, hmem⟩ := mem_nodesAll.1 hnode
  exact h.housed top (List.mem_cons_self ..) node (mem_nodesAll.2 ⟨outline, List.mem_reverse.1 houtline, hmem⟩)

theorem closeTops (n : Nat) (h : Holding frames) : Holding (closeTops n frames) := by
  induction n generalizing frames with
  | zero => rwa [closeTops_zero]
  | succ n ih =>
    match frames, h with
    | [], h => exact h
    | [_], h => exact h
    | top :: below :: rest, h =>
      rw [closeTops_cons_cons]
      exact ih (h.tail.adopt h.housed_close)

theorem closeDown (height : Nat) (h : Holding frames) : Holding (closeDown height frames) := h.closeTops _

theorem settle (kind : Symbol.Kind) (h : Holding frames) : Holding (settle kind frames) := by
  unfold Outline.settle
  split
  · exact h.closeTops _
  · exact h

theorem addComment (h : Holding (top :: rest)) (here : Cursor) :
    Holding (⟨top.entry, addComment here top.finished⟩ :: rest) := by
  rcases addComment_cases here top.finished with heq | ⟨last, earlier, hfinished, -, heq⟩
  · rw [heq]
    exact h.adopt_leaf _
  · rw [heq]
    obtain ⟨entry, finished⟩ := top
    cases hfinished
    exact h.drop_finished.adopt_leaf _

end Holding

/-- A node whose entry can hold nothing has no children. -/
theorem beneath_eq_nil_of_opens {visit : Visit} {scope : Scope} {entry : Entry String}
    (h : Symbol.Opens visit.here scope visit.naming entry) (hkind : entry.kind.holds = false) : visit.beneath = [] := by
  cases h with
  | label _ _ hname => exact Visit.beneath_eq_nil (Node.labelName?_eq_some hname).1
  | ident _ _ hname _ => exact Visit.beneath_eq_nil (Node.identName?_eq_some hname).1
  | group _ _ => cases hkind
  | heading _ _ _ _ => cases hkind

/-- An entry that can hold nothing is closed as soon as it is opened. -/
theorem closeDown_of_not_holds {entry : Entry String} (hkind : entry.kind.holds = false) (below : Frame)
    (rest : List Frame) :
    closeDown (heightBehind entry.kind (settle entry.kind (below :: rest)))
      (⟨entry, []⟩ :: settle entry.kind (below :: rest)) = below.adopt (mk entry []) :: rest := by
  have hheading : entry.kind.isHeading = false := by
    cases hentry : entry.kind with
    | heading level => rw [hentry] at hkind; cases hkind
    | named role => rfl
    | group => rfl
    | commentRun => rfl
  rw [settle_of_not_heading hheading, heightBehind, hheading, if_neg Bool.false_ne_true, closeDown_cons]
  rfl

/-- **A walk keeps what is finished housed.** -/
theorem Walked.holding {scope : Scope} {visits : List Visit} {frames after : List Frame}
    (h : Walked scope visits frames after) (hframes : Holding frames) : Holding after := by
  induction h with
  | done => exact hframes
  | @entry visit rest symbol frames inner after hclass hinner hrest ihinner ihrest =>
    apply ihrest
    cases hkind : symbol.kind.holds with
    | true => exact (ihinner ((hframes.settle _).push hkind)).closeDown _
    | false =>
      rw [beneath_eq_nil_of_opens (Symbol.opens_of_classify hclass) hkind, Walked.nil_iff] at hinner
      obtain ⟨below, rest', rfl⟩ := List.exists_cons_of_ne_nil hframes.ne_nil
      rw [hinner, closeDown_of_not_holds hkind]
      exact hframes.adopt_leaf symbol
  | comment hclass hkind hrest ihrest => exact ihrest (hframes.addComment _)
  | function hscope hkind hname hbody hinner hrest ihinner ihrest => exact ihrest ((ihinner (hframes.push rfl)).closeDown _)
  | parts hclass hkind hbody hparts hrest ihparts ihrest => exact ihrest (ihparts hframes)

theorem housed_of_run {builder : Builder} {root : Cursor} {forest : Forest}
    (h : (Builder.run root builder).1 = .ok forest) : ∀ node ∈ nodesAll forest, node.Housed := by
  obtain ⟨frames, bottom, hwalked, hclosed, rfl⟩ := walked_of_run h
  have hholding := (hwalked.holding Holding.sentinel).closeDown 1
  rw [hclosed] at hholding
  intro node hnode
  obtain ⟨outline, houtline, hmem⟩ := mem_nodesAll.1 hnode
  exact hholding.housed bottom (List.mem_singleton_self _) node
    (mem_nodesAll.2 ⟨outline, List.mem_reverse.1 houtline, hmem⟩)

/-- **Every outline is well-formed at every depth.** (`run` and `finish_node`; specification, section 8.) -/
theorem wellFormed_of_run {tree : Node} {builder : Builder} {forest : Forest}
    (h : (Builder.run (Cursor.root tree) builder).1 = .ok forest) :
    ∀ outline ∈ nodesAll forest, outline.WellFormed builder.scope tree.byteLen := by
  intro outline houtline
  have hentry : outline.entry ∈ (flattenAll 0 forest).map Prod.fst := by
    rw [← entry_nodesAll]
    exact List.mem_map_of_mem houtline
  have hplace : Cursor.root tree ∈ (Cursor.root tree).places := Cursor.mem_places_self _
  exact {
    entry := forall_entries_of_run (establishes_wellFormed builder.scope tree) hplace h _ hentry
    children := housed_of_run h outline houtline
    stored := member?_children_toJson outline }

/-- Two comments that are one run, and a heading with a label and a function in which a variable is bound. -/
def commented : Node :=
  .inner .markup
    [.leaf .lineComment "// é", .leaf .space "\n", .leaf .lineComment "// b", .leaf .parbreak "\n\n",
      .inner .heading [.leaf .headingMarker "==", .leaf .space " ", .inner .markup [.leaf .text "A"]],
      .leaf .space " ", .leaf .label "<a>", .leaf .parbreak "\n\n", .leaf .hash "#",
      .inner .letBinding
        [.leaf .letKeyword "let", .leaf .space " ",
          .inner .closure
            [.leaf .ident "f", .inner .params [.leaf .leftParen "(", .leaf .rightParen ")"], .leaf .space " ",
              .leaf .eq "=", .leaf .space " ",
              .inner .codeBlock
                [.leaf .leftBrace "\x7b",
                  .inner .letBinding
                    [.leaf .letKeyword "let", .leaf .space " ", .leaf .ident "n", .leaf .space " ", .leaf .eq "=",
                      .leaf .space " ", .leaf .int "1"],
                  .leaf .rightBrace "\x7d"]]]]

def commentedOutline : Forest :=
  [mk ⟨"", .commentRun, 0, 10⟩ [],
    mk ⟨"A", .heading 2, 15, 16⟩
      [mk ⟨"a", .named .label, 17, 20⟩ [],
        mk ⟨"f", .named .function, 27, 44⟩ [mk ⟨"n", .named .variable, 38, 39⟩ []]]]

theorem wellFormed_of_run_commented :
    (Builder.run (Cursor.root commented) { scope := .symbol }).1 = .ok commentedOutline ∧
      ∀ outline ∈ nodesAll commentedOutline, outline.WellFormed .symbol commented.byteLen := by
  have hrun : (Builder.run (Cursor.root commented) { scope := .symbol }).1 = .ok commentedOutline :=
    eq_ok_of_toOption (by decide +kernel)
  exact ⟨hrun, wellFormed_of_run hrun⟩

end Outline

end DocOutline
