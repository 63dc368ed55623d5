import DocOutline.Proofs.Outline.Containment
import DocOutline.Proofs.Walk.Isolation
import DocOutline.Proofs.Walk.Reach

/-!
# What stays open, and where it starts

A heading stays open for what the walk comes to later, which is behind it as long as the walk goes from left to right. Where
entries are groups, it may go back at two places only: in a loop, and in a pair among parameters. From a loop no heading
comes out open if all headings beneath it have blocks around them (`Cursor.Shelters`), and the name in a pair adds nothing if
it is a leaf; so all that is open when a place is visited starts no later than the place (`Walked.openedBy`,
`Visit.inTurn_parts`).
-/

namespace DocOutline

open DocOutline.Symbol (Entry Scope classify isBlockGroup)
open DocOutline.Syntax (Cursor Node)

/-! ## Headings in blocks -/

namespace Syntax.Cursor

variable {here : Cursor}

/-- Whether every heading beneath a place lies in a block beneath it. -/
def Shelters (here : Cursor) : Prop :=
  ∀ heading ∈ here.places, heading.kind = .heading →
    ∃ block ∈ here.places, isBlockGroup block.kind ∧ heading ∈ block.places

theorem Shelters.not_heading (h : here.Shelters) : here.kind ≠ .heading := by
  intro hkind
  obtain ⟨block, hblock, hisBlock, hmem⟩ := h here (mem_places_self here) hkind
  rw [← eq_of_mem_places_of_depth_le hmem (depth_le_of_mem_places hblock), hkind] at hisBlock
  cases hisBlock

/-- The blocks around headings lie beneath the children of what is no block itself. -/
theorem Shelters.child {place : Cursor} (h : here.Shelters) (hblock : isBlockGroup here.kind = false)
    (hplace : place ∈ here.children) : place.Shelters := by
  intro heading hheading hkind
  obtain ⟨block, hmem, hisBlock, hinner⟩ := h heading (mem_places_of_mem_children hplace hheading) hkind
  rcases mem_places.1 hmem with rfl | ⟨other, hother, hbeneath⟩
  · rw [hblock] at hisBlock
    cases hisBlock
  · have hdepth : other.depth = place.depth := by rw [depth_of_mem_children hother, depth_of_mem_children hplace]
    obtain rfl := eq_of_mem_places (mem_places_trans hbeneath hinner) hheading hdepth
    exact ⟨block, hbeneath, hisBlock, hinner⟩

/-- A place shelters headings if it is none, and those of its children that are no blocks have none. -/
theorem shelters_of_children (hkind : here.kind ≠ .heading)
    (h : ∀ child ∈ here.children, isBlockGroup child.kind ∨ child.node.HeadingFree) : here.Shelters := by
  intro heading hheading hheadingKind
  rcases mem_places.1 hheading with rfl | ⟨child, hchild, hbeneath⟩
  · exact absurd hheadingKind hkind
  · rcases h child hchild with hblock | hfree
    · exact ⟨child, mem_places_child (mem_places_self here) hchild, hblock, hbeneath⟩
    · have hnode : heading.node ∈ child.node.subtrees := map_node_places child ▸ List.mem_map_of_mem hbeneath
      exact absurd hheadingKind (hfree _ hnode)

end Syntax.Cursor

namespace Outline

/-- Whether the walk can only go back where nothing is lost by it: identifiers are leaves, and all headings beneath a loop
have blocks around them. -/
structure Tame (root : Cursor) : Prop where
  idents : ∀ here ∈ root.places, here.kind = .ident → here.node.children = []
  loops : ∀ loop ∈ root.places, loop.kind = .forLoop → loop.Shelters

namespace Visit

variable {visit other part : Visit} {root : Cursor}

/-- Whether no heading comes out open from a visit. -/
structure IsSheltered (visit : Visit) : Prop where
  shelters : visit.here.Shelters
  parent : ∀ parent, visit.here.parent? = some parent → parent.kind ≠ .heading

theorem isSheltered_of_mem_children (h : visit.here.Shelters) (hblock : isBlockGroup visit.here.kind = false)
    (hpart : part.here ∈ visit.here.children) : part.IsSheltered where
  shelters := h.child hblock hpart
  parent parent hparent := by
    rw [Cursor.parent?_of_mem_children hpart] at hparent
    cases hparent
    exact h.not_heading

/-- Whether a visit is at an identifier without anything beneath it. -/
def IsMute (visit : Visit) : Prop := visit.here.kind = .ident ∧ visit.here.node.children = []

/-- Whether a visit may be made before another one: what it leaves open starts in front of that, or it leaves nothing open,
or the other one adds nothing. -/
def InTurn (visit other : Visit) : Prop := visit.Precedes other ∨ visit.IsSheltered ∨ other.IsMute

theorem isBlockGroup_of_classify (hclass : classify visit.here .braced visit.naming = .ok none) :
    isBlockGroup visit.here.kind = false := by
  by_contra hblock
  rw [Bool.not_eq_false] at hblock
  simp [classify, Scope.affectsSymbol, Symbol.isGroup, Scope.affectsBlock, hblock] at hclass

theorem IsMute.classify_eq (h : visit.IsMute) : classify visit.here .braced visit.naming = .ok none := by
  simp [classify, h.1, Scope.affectsSymbol, Symbol.isGroup, Symbol.isMarkupGroup, isBlockGroup, Symbol.isExprGroup]

theorem IsMute.parts_eq_nil (h : visit.IsMute) : visit.parts .braced = [] := by
  refine List.eq_nil_iff_forall_not_mem.2 fun part hpart => ?_
  have hmem := Cursor.node_mem_children (mem_of_mem_parts hpart)
  rw [h.2] at hmem
  cases hmem

/-- What is looked at beneath a node is looked at in turn. -/
theorem inTurn_parts (h : Tame root) (hplace : visit.here ∈ root.places) : (visit.parts .braced).Pairwise InTurn := by
  by_cases hloop : visit.here.kind = .forLoop
  · have hblock : isBlockGroup visit.here.kind = false := by rw [hloop]; rfl
    refine List.pairwise_of_forall_mem_list fun part hpart _ _ => .inr (.inl ?_)
    exact isSheltered_of_mem_children (h.loops _ hplace hloop) hblock (mem_of_mem_parts hpart)
  by_cases hpair : visit.here.kind = .named ∧ visit.naming = .parameter
  · have hparts : visit.parts .braced = firstExpr .reference none visit.here.children.reverse ++
        each .variableBinding (visit.here.children.find? (·.kind = .ident)).toList := by
      simp only [parts, hpair.1, pair, hpair.2, if_true]
    rw [hparts]
    refine List.pairwise_append.2 ⟨(pairwise_firstExpr _ _).imp .inl, (pairwise_each_toList _).imp .inl,
      fun value _ name hname => .inr (.inr ?_)⟩
    obtain ⟨place, hfind, rfl⟩ := eq_of_mem_each_toList hname
    have hkind : place.kind = .ident := by simpa using List.find?_some hfind
    exact ⟨hkind, h.idents place (Cursor.mem_places_child hplace (List.mem_of_find?_eq_some hfind)) hkind⟩
  · exact (pairwise_parts hloop fun hkind hnaming => hpair ⟨hkind, hnaming⟩).imp .inl

end Visit

/-! ## What is open -/

def OpenedBy (offset : Int) (frames : List Frame) : Prop := ∀ frame ∈ frames, frame.entry.start ≤ offset

namespace OpenedBy

variable {offset offset' : Int} {frames below : List Frame} {top : Frame} {entry : Entry String}

theorem mono (h : OpenedBy offset frames) (hle : offset ≤ offset') : OpenedBy offset' frames :=
  fun frame hframe => Int.le_trans (h frame hframe) hle

theorem push (h : OpenedBy offset frames) (hentry : entry.start ≤ offset) : OpenedBy offset (⟨entry, []⟩ :: frames) :=
  List.forall_mem_cons.2 ⟨hentry, h⟩

theorem change (h : OpenedBy offset (top :: below)) (finished : List (Outline String)) :
    OpenedBy offset (⟨top.entry, finished⟩ :: below) := List.forall_mem_cons.2 (List.forall_mem_cons.1 h)

theorem closeTops (n : Nat) (h : OpenedBy offset frames) : OpenedBy offset (closeTops n frames) := by
  induction n generalizing frames with
  | zero => rwa [closeTops_zero]
  | succ n ih =>
    match frames, h with
    | [], h => exact h
    | [_], h => exact h
    | top :: below :: rest, h =>
      rw [closeTops_cons_cons]
      exact ih (change (List.forall_mem_cons.1 h).2 _)

theorem closeDown (height : Nat) (h : OpenedBy offset frames) : OpenedBy offset (closeDown height frames) := h.closeTops _

theorem settle (kind : Symbol.Kind) (h : OpenedBy offset frames) : OpenedBy offset (settle kind frames) := by
  unfold Outline.settle
  split
  · exact h.closeTops _
  · exact h

end OpenedBy

variable {visits : List Visit} {frames after : List Frame}

/-- **What a walk leaves open starts no later than where the visits end**, or was open before, but for visits from which no
heading comes out open. -/
theorem Walked.openedBy {offset : Int} (h : Walked .braced visits frames after) (hne : frames ≠ [])
    (hframes : OpenedBy offset frames)
    (hvisits : ∀ visit ∈ visits, visit.IsSheltered ∨ (visit.here.stop : Int) ≤ offset) : OpenedBy offset after := by
  induction h with
  | done => exact hframes
  | @entry visit rest symbol frames inner after hclass hinner hrest ihinner ihrest =>
    obtain ⟨hfirst, hrestvisits⟩ := List.forall_mem_cons.1 hvisits
    have hnextne := (Walked.leaves (.entry hclass hinner .done) hne).1
    refine ihrest hnextne ?_ hrestvisits
    cases Symbol.opens_of_classify hclass with
    | label hscope _ _ => cases hscope
    | ident hscope _ _ _ => cases hscope
    | group _ _ =>
      -- All that is opened in a group is closed with it.
      obtain ⟨top, below, rfl⟩ := List.exists_cons_of_ne_nil hne
      obtain ⟨children, hclosed⟩ := (hinner.rests rfl ⟨[], [], rfl⟩).closeDown_base
      change OpenedBy offset (closeDown (top :: below).length inner)
      rw [hclosed]
      exact hframes.change _
    | heading _ hparent hheading _ =>
      have hstop := hfirst.resolve_left fun hsheltered => hsheltered.parent _ hparent hheading
      have hoffset := visit.here.offset_le_stop
      refine (ihinner (List.cons_ne_nil _ _) ((hframes.settle _).push ?_) fun part hpart => .inr ?_).closeDown _
      · change (visit.here.offset : Int) ≤ offset
        omega
      · have hrange := Cursor.range_of_mem_children (Visit.mem_of_mem_beneath hpart)
        omega
  | comment hclass hkind hrest ihrest =>
    exact ihrest (List.cons_ne_nil _ _) (hframes.change _) (List.forall_mem_cons.1 hvisits).2
  | function hscope hkind hname hbody hinner hrest ihinner ihrest => cases hscope
  | @parts visit rest frames middle after hclass hkind hbody hparts hrest ihparts ihrest =>
    obtain ⟨hfirst, hrestvisits⟩ := List.forall_mem_cons.1 hvisits
    refine ihrest (hparts.leaves hne).1 (ihparts hne hframes fun part hpart => ?_) hrestvisits
    have hchild := Visit.mem_of_mem_parts hpart
    rcases hfirst with hsheltered | hstop
    · exact .inl (Visit.isSheltered_of_mem_children hsheltered.shelters (Visit.isBlockGroup_of_classify hclass) hchild)
    · have hrange := Cursor.range_of_mem_children hchild
      exact .inr (by omega)

end Outline

end DocOutline
