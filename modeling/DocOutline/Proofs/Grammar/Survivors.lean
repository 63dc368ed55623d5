import DocOutline.Proofs.Grammar.Slots
import DocOutline.Proofs.Syntax.Places

/-!
# Nodes that survive the lowering

Behind the lowering of a node its children are regrouped: groups become parameters or destructurings, and a call may be
taken apart. Nodes of all other kinds stay as they are and where they are (`has_innerNode`). So each of these that is kept at
every level has its lowered node in the syntax tree, at the place where it starts, however the nodes lie to one another
(`Kept.has`). Where they lie in order, everything that the lowering comes to is kept (`Lowered.kept`).
-/

namespace DocOutline

namespace Syntax

/-! ## Nodes at places -/

namespace Node

mutual

/-- Whether a node that starts at `offset` has `inner` in it, at `place`. -/
inductive Has : (offset : Nat) → Node → (place : Nat) → Node → Prop
  | self {offset node} : Has offset node offset node
  | beneath {offset kind children place inner} (h : HasAll offset children place inner) :
      Has offset (.inner kind children) place inner

/-- Whether consecutive nodes, the first of which starts at `offset`, have `inner` in them, at `place`. -/
inductive HasAll : (offset : Nat) → List Node → (place : Nat) → Node → Prop
  | head {offset node nodes place inner} (h : Has offset node place inner) : HasAll offset (node :: nodes) place inner
  | tail {offset node nodes place inner} (h : HasAll (offset + node.byteLen) nodes place inner) :
      HasAll offset (node :: nodes) place inner

end

variable {offset place : Nat} {inner : Node} {nodes nodes' : List Node}

theorem HasAll.append_left (h : HasAll offset nodes place inner) (nodes' : List Node) :
    HasAll offset (nodes ++ nodes') place inner := by
  induction nodes generalizing offset with
  | nil => cases h
  | cons node nodes ih =>
    cases h with
    | head h => exact .head h
    | tail h => exact .tail (ih h)

theorem HasAll.append_right (h : HasAll (offset + byteLens nodes) nodes' place inner) :
    HasAll offset (nodes ++ nodes') place inner := by
  induction nodes generalizing offset with
  | nil => exact h
  | cons node nodes ih =>
    rw [byteLens, ← Nat.add_assoc] at h
    exact .tail (ih h)

theorem HasAll.of_slot {before after : List Node} {node : Node} (h : node.Has (offset + byteLens before) place inner) :
    HasAll offset (before ++ node :: after) place inner := .append_right (.head h)

end Node

namespace Cursor

variable {place : Nat} {inner : Node}

theorem exists_sibling_of_has (parent : Cursor) (index : Nat) {offset : Nat} {nodes : List Node}
    (h : Node.HasAll offset nodes place inner) :
    ∃ child ∈ siblings parent index offset nodes, child.node.Has child.offset place inner := by
  induction nodes generalizing index offset with
  | nil => cases h
  | cons node nodes ih =>
    cases h with
    | head h => exact ⟨_, List.mem_cons_self .., h⟩
    | tail h =>
      obtain ⟨child, hchild, hhas⟩ := ih (index + 1) h
      exact ⟨child, List.mem_cons_of_mem _ hchild, hhas⟩

/-- What a node has in it is found at a place of the tree. -/
theorem exists_place_of_has {here : Cursor} (h : here.node.Has here.offset place inner) :
    ∃ found ∈ here.places, found.offset = place ∧ found.node = inner := by
  induction here using Cursor.induction with
  | h here ih =>
    generalize hnode : here.node = node at h
    cases h with
    | self => exact ⟨here, mem_places_self here, rfl, hnode⟩
    | beneath h =>
      obtain ⟨child, hchild, hhas⟩ := exists_sibling_of_has here 0 h
      have hmem : child ∈ here.children := by
        rw [children, hnode]
        exact hchild
      obtain ⟨found, hfound, hplace⟩ := ih child hmem hhas
      exact ⟨found, mem_places_of_mem_children hmem hfound, hplace⟩

end Cursor

end Syntax

namespace Grammar

open DocOutline.Syntax (Kind Node StructureError)
open DocOutline.Syntax.Node (Has HasAll byteLens fullTexts)
open Text (IsBoundary Spans encode)

/-! ## Regrouping -/

/-- Whether nodes of this kind may be regrouped with their siblings: groups, and calls. -/
def IsRegrouped (kind : Kind) : Prop := isBracketed kind ∨ kind = .args ∨ kind = .funcCall

/-- Whether nodes of this kind are definitions, which stay as they are when their siblings are regrouped. -/
def IsStable (kind : Kind) : Prop := kind = .closure ∨ kind = .letBinding

theorem IsStable.not_isRegrouped {kind : Kind} (h : IsStable kind) : ¬ IsRegrouped kind := by
  rcases h with rfl | rfl <;> simp [IsRegrouped, isBracketed]

variable {offset place : Nat} {node inner : Node} {nodes : List Node}

theorem byteLen_eq_of_fullText {node node' : Node} (h : node.fullText = node'.fullText) : node.byteLen = node'.byteLen := by
  rw [← Node.utf8ByteSize_fullText, h, Node.utf8ByteSize_fullText]

theorem byteLens_eq_of_fullTexts {nodes nodes' : List Node} (h : fullTexts nodes = fullTexts nodes') :
    byteLens nodes = byteLens nodes' := by
  rw [← Node.utf8ByteSize_fullTexts, h, Node.utf8ByteSize_fullTexts]

theorem has_withKind (kind : Kind) (hinner : ¬ IsRegrouped inner.kind) (hnode : IsRegrouped node.kind)
    (h : node.Has offset place inner) : (node.withKind kind).Has offset place inner := by
  cases h with
  | self => exact absurd hnode hinner
  | beneath h => exact .beneath h

theorem has_asParams (hinner : ¬ IsRegrouped inner.kind) (hnode : node.kind = .ident ∨ IsRegrouped node.kind)
    (h : node.Has offset place inner) : (asParams node).Has offset place inner := by
  unfold asParams
  split
  · exact .beneath (.head h)
  · next hident => exact has_withKind .params hinner (hnode.resolve_left hident) h

theorem has_signaturePart (hinner : ¬ IsRegrouped inner.kind) (h : node.Has offset place inner) :
    (signaturePart node).Has offset place inner := by
  unfold signaturePart
  split
  · next hgroup =>
    refine has_asParams hinner (.inr ?_) h
    rcases hgroup with hargs | hbracketed
    · exact .inr (.inl hargs)
    · exact .inl hbracketed
  · exact h

theorem hasAll_map_signaturePart (hinner : ¬ IsRegrouped inner.kind) (h : HasAll offset nodes place inner) :
    HasAll offset (nodes.map signaturePart) place inner := by
  induction nodes generalizing offset with
  | nil => cases h
  | cons node nodes ih =>
    cases h with
    | head h => exact .head (has_signaturePart hinner h)
    | tail h =>
      refine .tail ?_
      rw [byteLen_eq_of_fullText (fullText_signaturePart node)]
      exact ih h

theorem hasAll_wrapParams (hinner : ¬ IsRegrouped inner.kind) (h : HasAll offset nodes place inner) :
    HasAll offset (wrapParams nodes) place inner := by
  induction nodes generalizing offset with
  | nil => cases h
  | cons node nodes ih =>
    rw [wrapParams]
    split
    · exact h
    split
    · next hparams =>
      have hnode : node.kind = .ident ∨ IsRegrouped node.kind :=
        hparams.imp_right (Or.imp_right .inl)
      cases h with
      | head h => exact .head (has_asParams hinner hnode h)
      | tail h =>
        refine .tail ?_
        rwa [byteLen_eq_of_fullText (fullText_asParams node)]
    · cases h with
      | head h => exact .head h
      | tail h => exact .tail (ih h)

/-- A call that is taken apart leaves what is in it where it is. -/
theorem hasAll_wrapClosure (hinner : ¬ IsRegrouped inner.kind) (hcovered : ∀ node ∈ nodes, Covered node)
    (h : HasAll offset nodes place inner) : HasAll offset (wrapClosure nodes) place inner := by
  induction nodes generalizing offset with
  | nil => cases h
  | cons node nodes ih =>
    obtain ⟨hfirst, hrest⟩ := List.forall_mem_cons.1 hcovered
    rw [wrapClosure]
    split
    · exact h
    split
    · next hcall =>
      refine .head (.beneath ?_)
      cases h with
      | head h =>
        cases h with
        | self => exact absurd (.inr (.inr hcall)) hinner
        | beneath h => exact (hasAll_map_signaturePart hinner h).append_left nodes
      | tail h =>
        have hlength : node.byteLen = byteLens (node.children.map signaturePart) := by
          rw [byteLens_eq_of_fullTexts (fullTexts_map_signaturePart _), ← Node.utf8ByteSize_fullText, ← hfirst hcall,
            Node.utf8ByteSize_fullTexts]
        rw [hlength] at h
        exact h.append_right
    · cases h with
      | head h => exact .head h
      | tail h => exact .tail (ih hrest h)

theorem hasAll_markDestructuring (hinner : ¬ IsRegrouped inner.kind) (h : HasAll offset nodes place inner) :
    HasAll offset (markDestructuring nodes) place inner := by
  induction nodes generalizing offset with
  | nil => cases h
  | cons node nodes ih =>
    rw [markDestructuring]
    split
    · exact h
    split
    · next hpattern =>
      have hnode : IsRegrouped node.kind := by
        rcases hpattern with hkind | hkind <;> simp [IsRegrouped, isBracketed, hkind]
      cases h with
      | head h => exact .head (has_withKind _ hinner hnode h)
      | tail h =>
        refine .tail ?_
        rwa [byteLen_eq_of_fullText (fullText_withKind _ node)]
    · cases h with
      | head h => exact .head h
      | tail h => exact .tail (ih h)

/-- **All but groups and calls survives.** However the children of a node are regrouped, whatever is in them stays as it is
and where it is, apart from groups and calls. -/
theorem has_innerNode {tables : Tables} {parentType type : String} (hinner : ¬ IsRegrouped inner.kind)
    (hcovered : ∀ node ∈ nodes, Covered node) (h : HasAll offset nodes place inner) :
    (innerNode tables parentType type nodes).Has offset place inner := by
  unfold innerNode
  simp only
  generalize hregrouped : (if type ∈ tables.groupTypes then _ else _ : Kind × List Node) = regrouped
  have hall : HasAll offset regrouped.2 place inner := by
    rw [← hregrouped]
    split
    · exact h
    split
    · exact hasAll_wrapParams hinner h
    split
    · exact hasAll_wrapClosure hinner hcovered h
    · exact h
  refine .beneath ?_
  split
  · exact hasAll_markDestructuring hinner hall
  · exact hall

/-! ## Lowered nodes -/

namespace Tree

/-- Where the parts of a node are, if that is a heading. -/
def parts (source : String) (tree : Tree) : HeadingParts :=
  headingParts tree.start tree.stop (textAt (encode source) tree.start tree.stop)

/-- Whether the lowering of a node comes to one of its children: it does not look into tokens, comments and some other
nodes, and in a heading only at its content. -/
def GoesTo (source : String) (tree child : Tree) : Prop :=
  child ∈ tree.children ∧ tree.IsNamed tree.type ∧ tree.type ≠ "ERROR" ∧ tree.type ∉ typst.commentTypes ∧
    tree.type ∉ typst.leafTypes ∧
    (tree.type ∈ typst.headingTypes → (tree.parts source).contentStart < (tree.parts source).contentEnd ∧
      (tree.parts source).contentStart ≤ child.start ∧ child.stop ≤ (tree.parts source).contentEnd)

/-- The nodes beneath a root that the lowering of the root comes to. -/
inductive Lowered (source : String) (root : Tree) : Tree → Prop
  | child {tree} (h : tree ∈ root.children) : Lowered source root tree
  | beneath {tree child} (h : Lowered source root tree) (hgoes : tree.GoesTo source child) : Lowered source root child

/-- Whether the lowering of a node keeps a child of it, which may lie anywhere. It keeps no children of tokens, comments
and some other nodes. -/
def Keeps (source : String) (tree child : Tree) : Prop :=
  tree.IsNamed tree.type ∧ tree.type ≠ "ERROR" ∧ tree.type ∉ typst.commentTypes ∧ tree.type ∉ typst.leafTypes ∧
    if tree.type ∈ typst.headingTypes then
      (tree.parts source).contentStart < (tree.parts source).contentEnd ∧
        child ∈ fitting (tree.parts source).contentStart (tree.parts source).contentEnd tree.children
    else child ∈ fitting tree.start tree.stop tree.children

/-- The nodes beneath a root that are kept, each in the lowering of the one that it is in. -/
inductive Kept (source : String) (root : Tree) : Tree → Prop
  | child {tree} (h : tree ∈ fitting 0 source.utf8ByteSize root.children) : Kept source root tree
  | beneath {tree child} (h : Kept source root tree) (hkeeps : tree.Keeps source child) : Kept source root child

variable {source : String} {root tree child : Tree}

theorem Keeps.mem_children (h : tree.Keeps source child) : child ∈ tree.children := by
  obtain ⟨-, -, -, -, h⟩ := h
  split at h
  · exact mem_of_mem_fitting h.2
  · exact mem_of_mem_fitting h

theorem Kept.sound (h : root.Kept source tree) (hsound : root.SoundIn source) : tree.SoundIn source := by
  induction h with
  | child h => exact hsound.child (mem_of_mem_fitting h)
  | beneath _ hkeeps ih => exact ih.child hkeeps.mem_children

/-- Where nodes lie in order, what the lowering comes to is kept. -/
theorem GoesTo.keeps (h : tree.GoesTo source child) (hplaced : tree.WellPlaced source) : tree.Keeps source child := by
  obtain ⟨hchild, hnamed, herror, hcomment, hleaf, hheading⟩ := h
  have hchildren : ∀ t ∈ tree.children, t.start ≤ t.stop := fun t ht => (hplaced.child ht).placed.1
  refine ⟨hnamed, herror, hcomment, hleaf, ?_⟩
  split
  · next hkind =>
    obtain ⟨hcontent, hfront, hback⟩ := hheading hkind
    exact ⟨hcontent, mem_fitting hchildren hplaced.ordered.2 hchild hfront hback⟩
  · obtain ⟨hfront, hback⟩ := hplaced.ordered.1 child hchild
    exact mem_fitting hchildren hplaced.ordered.2 hchild hfront hback

theorem Lowered.wellPlaced (h : root.Lowered source tree) (hplaced : root.WellPlaced source) : tree.WellPlaced source := by
  induction h with
  | child h => exact hplaced.child h
  | beneath _ hgoes ih => exact ih.child hgoes.1

theorem Lowered.kept (h : root.Lowered source tree) (hplaced : root.WellPlaced source) : root.Kept source tree := by
  induction h with
  | child h => exact .child (hplaced.mem_fitting h)
  | beneath h hgoes ih => exact .beneath ih (hgoes.keeps (h.wellPlaced hplaced))

end Tree

section

variable {source parentType : String} {depth : Nat} {tree child : Tree}

/-- A named node that is no comment and no heading becomes a leaf, or what it has in it is lowered and regrouped. -/
theorem lower_named {bytes : Text.Bytes} {type : String} (hnamed : tree.IsNamed type)
    (hplain : type ≠ "ERROR" ∧ type ∉ typst.commentTypes ∧ type ∉ typst.headingTypes)
    (h : lower typst bytes parentType depth tree = .ok node) :
    (type ∈ typst.leafTypes ∨ tree.children = []) ∧
        node = .leaf ((namedKind? typst parentType type).getD .text) (textAt bytes tree.start tree.stop) ∨
      (type ∉ typst.leafTypes ∧ tree.children ≠ []) ∧ ∃ nodes,
        lowerAll typst bytes type (depth + 1) tree.start tree.stop tree.children = .ok nodes ∧
          node = innerNode typst parentType type nodes := by
  obtain ⟨type', start, stop, children, anonymous, missing⟩ := tree
  obtain ⟨rfl, rfl, rfl⟩ : type' = type ∧ anonymous = false ∧ missing = false := hnamed
  obtain ⟨herror, hcomment, hheading⟩ := hplain
  simp only [lower, herror, hcomment, hheading, if_false, Bool.false_eq_true, or_self] at h
  split at h
  · cases h
  split at h
  · next hleaf =>
    cases h
    exact .inl ⟨by simpa [Tree.children] using hleaf, rfl⟩
  · next hinner =>
    obtain ⟨nodes, hnodes, h⟩ := exists_of_bind_eq_ok h
    cases h
    exact .inr ⟨by simpa [Tree.children, not_or] using hinner, nodes, hnodes, rfl⟩

/-- What a node with children has in it is lowered and regrouped, if the node is looked into. -/
theorem lower_inner {bytes : Text.Bytes} {type : String} (hnamed : tree.IsNamed type)
    (hplain : type ≠ "ERROR" ∧ type ∉ typst.commentTypes ∧ type ∉ typst.headingTypes) (hleaf : type ∉ typst.leafTypes)
    (hchildren : tree.children ≠ []) (h : lower typst bytes parentType depth tree = .ok node) :
    ∃ nodes, lowerAll typst bytes type (depth + 1) tree.start tree.stop tree.children = .ok nodes ∧
      node = innerNode typst parentType type nodes := by
  rcases lower_named hnamed hplain h with ⟨hempty, -⟩ | ⟨-, hinner⟩
  · rcases hempty with hempty | hempty
    · exact absurd hempty hleaf
    · exact absurd hempty hchildren
  · exact hinner

/-- A heading has the lowered nodes of its content, if there is any. -/
theorem lower_heading (hnamed : tree.IsNamed tree.type)
    (hplain : tree.type ≠ "ERROR" ∧ tree.type ∉ typst.commentTypes) (hheading : tree.type ∈ typst.headingTypes)
    (h : lower typst (encode source) parentType depth tree = .ok node) :
    ∃ content, ((tree.parts source).contentStart < (tree.parts source).contentEnd →
        lowerAll typst (encode source) tree.type (depth + 1) (tree.parts source).contentStart
          (tree.parts source).contentEnd tree.children = .ok content) ∧
      node = headingNode (encode source) (tree.parts source) tree.stop content := by
  obtain ⟨type, start, stop, children, anonymous, missing⟩ := tree
  obtain ⟨-, hanonymous, hmissing⟩ := hnamed
  obtain rfl : anonymous = false := hanonymous
  obtain rfl : missing = false := hmissing
  obtain ⟨herror, hcomment⟩ := hplain
  simp only [Tree.parts, Tree.type, Tree.start, Tree.stop, Tree.children] at herror hcomment hheading ⊢
  simp only [lower, herror, hcomment, hheading, if_false, if_true, Bool.false_eq_true, or_self] at h
  split at h
  · cases h
  split at h
  · obtain ⟨content, hlowered, h⟩ := exists_of_bind_eq_ok h
    cases h
    exact ⟨content, fun _ => hlowered, rfl⟩
  · next hcontent =>
    cases h
    exact ⟨[], fun hlt => absurd hlt hcontent, rfl⟩

theorem gap_ne_markup {bytes : Text.Bytes} {start stop : Nat} {node : Node} (h : node ∈ gapIfAny bytes start stop) :
    node.kind ≠ .markup := by
  rcases kind_of_mem_gapIfAny h with hkind | hkind <;> simp [hkind]

/-- What is in front of the content of a heading ends where the content starts, and nothing around it is markup. -/
theorem exists_headingNode_eq {start stop : Nat} {text : String} {content : List Node} (hspan : Spans source start stop text)
    (hcontent : (headingParts start stop text).contentStart < (headingParts start stop text).contentEnd) :
    ∃ front rest, headingNode (encode source) (headingParts start stop text) stop content =
        .inner .heading (front ++ .inner .markup content :: rest) ∧
      start + byteLens front = (headingParts start stop text).contentStart ∧
      ∀ node ∈ front ++ rest, node.kind ≠ .markup := by
  obtain ⟨hmarker, hlead, -, -, hboundary, -⟩ := headingParts_spans hspan
  generalize headingParts start stop text = parts at hcontent hmarker hlead hboundary
  have hgap := (gapIfAny_spans hmarker.isBoundary_stop hboundary hlead).stop_eq
  have hmarkerEnd := hmarker.stop_eq
  rw [Node.utf8ByteSize_fullTexts] at hgap
  refine ⟨.leaf .headingMarker parts.marker :: gapIfAny (encode source) parts.markerEnd parts.contentStart,
    gapIfAny (encode source) (max parts.contentEnd parts.contentStart) stop, ?_, ?_, ?_⟩
  · rw [headingNode, if_pos hcontent, List.append_assoc, List.singleton_append]
  · simp only [byteLens, Node.byteLen]
    omega
  · intro node hnode
    rw [List.cons_append, List.mem_cons, List.mem_append] at hnode
    rcases hnode with rfl | hgap | hgap
    · intro hkind
      cases hkind
    · exact gap_ne_markup hgap
    · exact gap_ne_markup hgap

/-- A heading without content has no markup. -/
theorem headingNode_of_no_content (bytes : Text.Bytes) {parts : HeadingParts} (stop : Nat) (content : List Node)
    (hcontent : ¬ parts.contentStart < parts.contentEnd) :
    ∃ children, headingNode bytes parts stop content = .inner .heading children ∧
      ∀ node ∈ children, node.kind ≠ .markup := by
  refine ⟨_, rfl, fun node hnode => ?_⟩
  rw [if_neg hcontent, List.append_nil, List.cons_append, List.mem_cons, List.mem_append] at hnode
  rcases hnode with rfl | hgap | hgap
  · intro hkind
    cases hkind
  · exact gap_ne_markup hgap
  · exact gap_ne_markup hgap

/-- A child that is kept has a slot: in the content of a heading, or else among the children before they are regrouped. -/
theorem Tree.Keeps.exists_slot (hkeeps : tree.Keeps source child) (hsound : tree.SoundIn source)
    (h : lower typst (encode source) parentType depth tree = .ok node) :
    ∃ parentType' depth' lowered before after,
      lower typst (encode source) parentType' depth' child = .ok lowered ∧
        ((∃ front rest, node = .inner .heading (front ++ .inner .markup (before ++ lowered :: after) :: rest) ∧
            tree.start + byteLens front + byteLens before = child.start) ∨
          node = innerNode typst parentType tree.type (before ++ lowered :: after) ∧
            (∀ node ∈ before ++ lowered :: after, Covered node) ∧ tree.start + byteLens before = child.start) := by
  have hchild := hkeeps.mem_children
  obtain ⟨hnamed, herror, hcomment, hleaf, hfits⟩ := hkeeps
  obtain ⟨hle, hstart, hstop⟩ := hsound.placed
  have hchildren : ∀ t ∈ tree.children, t.SoundIn source := fun t ht => hsound.child ht
  by_cases hkind : tree.type ∈ typst.headingTypes
  · rw [if_pos hkind] at hfits
    obtain ⟨hcontent, hfits⟩ := hfits
    obtain ⟨content, hlowered, rfl⟩ := lower_heading hnamed ⟨herror, hcomment⟩ hkind h
    have hspan := textAt_spans hstart hstop hle
    obtain ⟨-, -, -, -, hboundary, -⟩ := headingParts_spans hspan
    obtain ⟨before, lowered, after, hlower, hlength, rfl⟩ :=
      exists_slot_of_fitting hchildren hfits hboundary (hlowered hcontent)
    obtain ⟨front, rest, hnode, hplace, -⟩ := exists_headingNode_eq hspan hcontent
    refine ⟨_, _, lowered, before, after, hlower, .inl ⟨front, rest, hnode, ?_⟩⟩
    rw [hplace]
    exact hlength
  · rw [if_neg hkind] at hfits
    obtain ⟨nodes, hnodes, rfl⟩ := lower_inner hnamed ⟨herror, hcomment, hkind⟩ hleaf (List.ne_nil_of_mem hchild) h
    have hcovered := (lowerAll_covered hchildren hstart hstop hle hnodes).2
    obtain ⟨before, lowered, after, hlower, hlength, rfl⟩ := exists_slot_of_fitting hchildren hfits hstart hnodes
    exact ⟨_, _, lowered, before, after, hlower, .inr ⟨rfl, hcovered, hlength⟩⟩

/-- What the lowered child of a node has in it, the lowered node has in it at the same place, groups and calls apart. -/
theorem Tree.Keeps.has (hkeeps : tree.Keeps source child) (hsound : tree.SoundIn source)
    (h : lower typst (encode source) parentType depth tree = .ok node) :
    ∃ parentType depth lowered, lower typst (encode source) parentType depth child = .ok lowered ∧
      ∀ place inner, ¬ IsRegrouped inner.kind → lowered.Has child.start place inner → node.Has tree.start place inner := by
  obtain ⟨parentType', depth', lowered, before, after, hlower, hslot⟩ := hkeeps.exists_slot hsound h
  refine ⟨parentType', depth', lowered, hlower, fun place inner hinner hhas => ?_⟩
  rcases hslot with ⟨front, rest, rfl, hlength⟩ | ⟨rfl, hcovered, hlength⟩
  · rw [← hlength] at hhas
    exact .beneath (HasAll.of_slot (.beneath (HasAll.of_slot hhas)))
  · rw [← hlength] at hhas
    exact has_innerNode hinner hcovered (HasAll.of_slot hhas)

/-- **What is kept survives.** Each node that is kept beneath a root has a lowered node, and whatever that has in it, itself
included, the syntax tree has in it at the same place, groups and calls apart. -/
theorem Tree.Kept.has {root : Tree} (h : root.Kept source tree) (hsound : root.SoundIn source)
    (hlower : lowerRoot typst (encode source) root = .ok node) :
    ∃ parentType depth lowered, lower typst (encode source) parentType depth tree = .ok lowered ∧
      ∀ place inner, ¬ IsRegrouped inner.kind → lowered.Has tree.start place inner → node.Has 0 place inner := by
  induction h with
  | @child tree htree =>
    obtain ⟨before, lowered, after, hlowered, hlength, rfl⟩ := exists_slot_of_root hsound htree hlower
    refine ⟨_, _, lowered, hlowered, fun place inner hinner hhas => ?_⟩
    rw [← hlength, ← Nat.zero_add (byteLens before)] at hhas
    exact .beneath (HasAll.of_slot hhas)
  | @beneath tree child hkept hkeeps ih =>
    obtain ⟨parentType, depth, lowered, hlowered, hhas⟩ := ih
    obtain ⟨parentType', depth', lowered', hlowered', hhas'⟩ := hkeeps.has (hkept.sound hsound) hlowered
    exact ⟨parentType', depth', lowered', hlowered',
      fun place inner hinner hinside => hhas place inner hinner (hhas' place inner hinner hinside)⟩

end

end Grammar

end DocOutline
