import DocOutline.Proofs.Grammar.Fitting

/-!
# Where lowered nodes stand

What is lowered splits at each child of a parser's node that is kept: what is in front of the child ends where the child
starts (`exists_slot_of_fitting`). Where the children lie one behind another inside the node, none of them is left out
(`exists_slot_of_mem`).
-/

namespace DocOutline.Grammar

open DocOutline.Syntax (Kind Node StructureError)
open DocOutline.Syntax.Node (byteLens fullTexts)
open Text (Bytes IsBoundary Spans encode)

/-! ## Trees in order -/

namespace Tree

/-- Whether the children of a node lie inside it, one behind another. -/
def Ordered (tree : Tree) : Prop :=
  (∀ child ∈ tree.children, tree.start ≤ child.start ∧ child.stop ≤ tree.stop) ∧
    tree.children.Pairwise fun child later => child.stop ≤ later.start

instance (tree : Tree) : Decidable tree.Ordered := inferInstanceAs (Decidable (_ ∧ _))

/-- Whether all nodes of a tree span stretches of the source between characters, and none is a call without children. How
the spans lie to one another is left open. -/
def SoundIn (source : String) (tree : Tree) : Prop := ∀ t ∈ tree.subtrees, t.PlacedIn source ∧ t.NoBareCall

/-- Whether all nodes of a tree span stretches of the source between characters, with their children in order inside
them, and none is a call without children. -/
def WellPlaced (source : String) (tree : Tree) : Prop :=
  ∀ t ∈ tree.subtrees, t.PlacedIn source ∧ t.NoBareCall ∧ t.Ordered

instance (source : String) (tree : Tree) : Decidable (tree.SoundIn source) :=
  inferInstanceAs (Decidable (∀ t ∈ tree.subtrees, _))

instance (source : String) (tree : Tree) : Decidable (tree.WellPlaced source) :=
  inferInstanceAs (Decidable (∀ t ∈ tree.subtrees, _))

theorem mem_subtreesAll {t : Tree} {trees : List Tree} : t ∈ subtreesAll trees ↔ ∃ tree ∈ trees, t ∈ tree.subtrees := by
  induction trees with
  | nil => simp [subtreesAll]
  | cons tree trees ih => simp [subtreesAll, ih]

variable {source : String} {tree inner : Tree}

theorem SoundIn.child (h : tree.SoundIn source) (hinner : inner ∈ tree.children) : inner.SoundIn source :=
  fun t ht => h t (mem_subtrees_of_children (mem_subtreesAll.2 ⟨inner, hinner, ht⟩))

theorem SoundIn.placed (h : tree.SoundIn source) : tree.PlacedIn source := (h tree (mem_subtrees_self tree)).1

theorem WellPlaced.sound (h : tree.WellPlaced source) : tree.SoundIn source := fun t ht => ⟨(h t ht).1, (h t ht).2.1⟩

theorem WellPlaced.child (h : tree.WellPlaced source) (hinner : inner ∈ tree.children) : inner.WellPlaced source :=
  fun t ht => h t (mem_subtrees_of_children (mem_subtreesAll.2 ⟨inner, hinner, ht⟩))

theorem WellPlaced.placed (h : tree.WellPlaced source) : tree.PlacedIn source := (h tree (mem_subtrees_self tree)).1

theorem WellPlaced.ordered (h : tree.WellPlaced source) : tree.Ordered := (h tree (mem_subtrees_self tree)).2.2

/-- Whether a node is no token, was not put in, and has the given type. -/
def IsNamed (type : String) (tree : Tree) : Prop :=
  tree.type = type ∧ tree.isAnonymous = false ∧ tree.isMissing = false

instance (type : String) (tree : Tree) : Decidable (tree.IsNamed type) := inferInstanceAs (Decidable (_ ∧ _))

end Tree

/-! ## Lengths -/

section

variable {source parentType : String} {depth cursor stop : Nat} {tree : Tree} {trees : List Tree} {node : Node}
  {nodes : List Node}

theorem spans_lower (hsound : tree.SoundIn source)
    (h : lower typst (encode source) parentType depth tree = .ok node) :
    Spans source tree.start tree.stop node.fullText :=
  (lower_spans tree (fun t ht => (hsound t ht).1) (fun t ht => (hsound t ht).2) h).1

/-- A lowered node is as long as the span of its node. -/
theorem byteLen_lower (hsound : tree.SoundIn source)
    (h : lower typst (encode source) parentType depth tree = .ok node) : tree.start + node.byteLen = tree.stop := by
  rw [← Node.utf8ByteSize_fullText]
  exact (spans_lower hsound h).stop_eq

theorem lowerAll_sound (hsound : ∀ tree ∈ trees, tree.SoundIn source) (hcursor : IsBoundary source cursor)
    (hstop : IsBoundary source stop) (hle : cursor ≤ stop)
    (h : lowerAll typst (encode source) parentType depth cursor stop trees = .ok nodes) :
    Spans source cursor stop (fullTexts nodes) ∧ ∀ node ∈ nodes, Covered node := by
  have hall : ∀ t ∈ Tree.subtreesAll trees, t.PlacedIn source ∧ t.NoBareCall := fun t ht => by
    obtain ⟨tree, htree, hmem⟩ := Tree.mem_subtreesAll.1 ht
    exact hsound tree htree t hmem
  exact lowerAll_spans trees (fun t ht => (hall t ht).1) (fun t ht => (hall t ht).2) hcursor hstop hle h

theorem lowerAll_covered (hsound : ∀ tree ∈ trees, tree.SoundIn source) (hcursor : IsBoundary source cursor)
    (hstop : IsBoundary source stop) (hle : cursor ≤ stop)
    (h : lowerAll typst (encode source) parentType depth cursor stop trees = .ok nodes) :
    cursor + byteLens nodes = stop ∧ ∀ node ∈ nodes, Covered node := by
  obtain ⟨hspans, hcovered⟩ := lowerAll_sound hsound hcursor hstop hle h
  refine ⟨?_, hcovered⟩
  rw [← Node.utf8ByteSize_fullTexts]
  exact hspans.stop_eq

end

/-! ## Slots -/

section

variable {tables : Tables} {source : Bytes} {parentType : String} {depth cursor stop : Nat} {trees front rest : List Tree}
  {tree : Tree} {nodes : List Node} {node : Node}

/-- **A child that fits has a slot of its own.** What is in front of it is lowered up to where it starts, and what is
behind it from where it ends. -/
theorem exists_slot (hfront : ∀ earlier ∈ front, earlier.stop ≤ tree.start) (hcursor : cursor ≤ tree.start)
    (hle : tree.start ≤ tree.stop) (hstop : tree.stop ≤ stop)
    (h : lowerAll tables source parentType depth cursor stop (front ++ tree :: rest) = .ok nodes) :
    ∃ before node after, lowerAll tables source parentType depth cursor tree.start front = .ok before ∧
      lower tables source parentType depth tree = .ok node ∧
      lowerAll tables source parentType depth tree.stop stop rest = .ok after ∧ nodes = before ++ node :: after := by
  induction front generalizing cursor nodes with
  | nil =>
    rw [List.nil_append, lowerAll, if_neg (by omega)] at h
    obtain ⟨node, hnode, h⟩ := exists_of_bind_eq_ok h
    obtain ⟨after, hafter, h⟩ := exists_of_bind_eq_ok h
    cases h
    exact ⟨gapIfAny source cursor tree.start, node, after, rfl, hnode, hafter, rfl⟩
  | cons first front ih =>
    obtain ⟨hfirst, hfront⟩ := List.forall_mem_cons.1 hfront
    rw [List.cons_append, lowerAll] at h
    rw [lowerAll]
    by_cases hskip : first.start < cursor
    · rw [if_pos (.inl hskip)] at h ⊢
      exact ih hfront hcursor h
    · rw [if_neg (by omega)] at h ⊢
      obtain ⟨node, hnode, h⟩ := exists_of_bind_eq_ok h
      obtain ⟨nodes', hnodes', h⟩ := exists_of_bind_eq_ok h
      cases h
      obtain ⟨before, slot, after, hbefore, hslot, hafter, rfl⟩ := ih hfront hfirst hnodes'
      refine ⟨gapIfAny source cursor first.start ++ node :: before, slot, after, ?_, hslot, hafter, by simp⟩
      rw [hnode, hbefore]
      rfl

end

section

variable {source parentType : String} {depth cursor stop : Nat} {root tree : Tree} {trees : List Tree} {node : Node}
  {nodes : List Node}

/-- **What is kept has a slot of its own.** Each of consecutive nodes that fits is lowered to a node at the place where it
starts. -/
theorem exists_slot_of_fitting (hsound : ∀ tree ∈ trees, tree.SoundIn source)
    (htree : tree ∈ Tree.fitting cursor stop trees) (hboundary : IsBoundary source cursor)
    (h : lowerAll typst (encode source) parentType depth cursor stop trees = .ok nodes) :
    ∃ before node after, lower typst (encode source) parentType depth tree = .ok node ∧
      cursor + byteLens before = tree.start ∧ nodes = before ++ node :: after := by
  induction trees generalizing cursor nodes with
  | nil => cases htree
  | cons first rest ih =>
    obtain ⟨hfirst, hrest⟩ := List.forall_mem_cons.1 hsound
    obtain ⟨hle, hbstart, hbstop⟩ := hfirst.placed
    rw [Tree.fitting] at htree
    rw [lowerAll] at h
    by_cases hskip : first.start < cursor ∨ stop < first.stop
    · rw [if_pos hskip] at htree h
      exact ih hrest htree hboundary h
    rw [if_neg hskip] at htree h
    obtain ⟨lowered, hlowered, h⟩ := exists_of_bind_eq_ok h
    obtain ⟨nodes', hnodes', h⟩ := exists_of_bind_eq_ok h
    cases h
    have hgap := (gapIfAny_spans hboundary hbstart (by omega)).stop_eq
    rw [Node.utf8ByteSize_fullTexts] at hgap
    rcases List.mem_cons.1 htree with rfl | htree
    · exact ⟨_, lowered, nodes', hlowered, hgap, rfl⟩
    · obtain ⟨before, node, after, hnode, hlength, rfl⟩ := ih hrest htree hbstop hnodes'
      refine ⟨gapIfAny (encode source) cursor first.start ++ lowered :: before, node, after, hnode, ?_, by simp⟩
      have hlowered := byteLen_lower hfirst hlowered
      rw [Node.byteLens_append, byteLens]
      omega

/-- Nodes that lie one behind another are all kept, as far as they lie between the cursor and the end. -/
theorem Tree.mem_fitting (hplaced : ∀ tree ∈ trees, tree.start ≤ tree.stop)
    (hsorted : trees.Pairwise fun child later => child.stop ≤ later.start) (htree : tree ∈ trees)
    (hcursor : cursor ≤ tree.start) (hstop : tree.stop ≤ stop) : tree ∈ fitting cursor stop trees := by
  induction trees generalizing cursor with
  | nil => cases htree
  | cons first rest ih =>
    obtain ⟨hfirst, hrest⟩ := List.forall_mem_cons.1 hplaced
    obtain ⟨hbehind, hsorted⟩ := List.pairwise_cons.1 hsorted
    rw [fitting]
    rcases List.mem_cons.1 htree with rfl | htree
    · rw [if_neg (by omega)]
      exact List.mem_cons_self ..
    · split
      · exact ih hrest hsorted htree hcursor
      · exact List.mem_cons_of_mem _ (ih hrest hsorted htree (hbehind tree htree))

/-- In a tree whose children are in order, each child that fits between the cursor and the end has its slot, at the place
where it starts. -/
theorem exists_slot_of_mem (hplaced : ∀ tree ∈ trees, tree.WellPlaced source)
    (hsorted : trees.Pairwise fun child later => child.stop ≤ later.start) (htree : tree ∈ trees)
    (hboundary : IsBoundary source cursor) (hcursor : cursor ≤ tree.start) (hstop : tree.stop ≤ stop)
    (h : lowerAll typst (encode source) parentType depth cursor stop trees = .ok nodes) :
    ∃ before node after, lower typst (encode source) parentType depth tree = .ok node ∧
      cursor + byteLens before = tree.start ∧ nodes = before ++ node :: after :=
  exists_slot_of_fitting (fun t ht => (hplaced t ht).sound)
    (Tree.mem_fitting (fun t ht => (hplaced t ht).placed.1) hsorted htree hcursor hstop) hboundary h

/-- The children of a root that are kept have slots in the lowered root. -/
theorem exists_slot_of_root (hsound : root.SoundIn source)
    (htree : tree ∈ Tree.fitting 0 source.utf8ByteSize root.children)
    (h : lowerRoot typst (encode source) root = .ok node) :
    ∃ before lowered after, lower typst (encode source) root.type 1 tree = .ok lowered ∧
      byteLens before = tree.start ∧ node = .inner .markup (before ++ lowered :: after) := by
  obtain ⟨nodes, hnodes, hroot⟩ := exists_of_bind_eq_ok h
  cases hroot
  rw [Text.length_encode] at hnodes
  obtain ⟨before, lowered, after, hlower, hlength, rfl⟩ := exists_slot_of_fitting (fun t ht => hsound.child ht) htree
    (Text.isBoundary_zero source) hnodes
  refine ⟨before, lowered, after, hlower, by omega, ?_⟩
  rw [if_neg (by simp)]

/-- The root of a tree in order keeps all its children. -/
theorem Tree.WellPlaced.mem_fitting (hplaced : root.WellPlaced source) (htree : tree ∈ root.children) :
    tree ∈ fitting 0 source.utf8ByteSize root.children := by
  obtain ⟨-, -, hstop⟩ := (hplaced.child htree).placed
  exact Tree.mem_fitting (fun t ht => (hplaced.child ht).placed.1) hplaced.ordered.2 htree (Nat.zero_le _)
    (Spans.empty hstop).stop_le

end

/-- What is lowered is the lowered node of a child, or a gap that has some text. -/
theorem mem_lowerAll {source parentType : String} {depth cursor stop : Nat} {trees : List Tree} {node : Node}
    {nodes : List Node} (hplaced : ∀ tree ∈ trees, tree.WellPlaced source) (hcursor : IsBoundary source cursor)
    (hstop : IsBoundary source stop)
    (h : lowerAll typst (encode source) parentType depth cursor stop trees = .ok nodes) (hnode : node ∈ nodes) :
    (∃ tree ∈ trees, lower typst (encode source) parentType depth tree = .ok node) ∨
      (node.kind = .space ∨ node.kind = .text) ∧ 0 < node.byteLen := by
  have hgap : ∀ {start stop : Nat}, IsBoundary source start → IsBoundary source stop →
      node ∈ gapIfAny (encode source) start stop → (node.kind = .space ∨ node.kind = .text) ∧ 0 < node.byteLen := by
    intro start stop hstart hstop hmem
    refine ⟨kind_of_mem_gapIfAny hmem, ?_⟩
    unfold gapIfAny at hmem
    split at hmem
    · next hlt =>
      have hlength := (textAt_spans hstart hstop (Nat.le_of_lt hlt)).stop_eq
      rw [List.mem_singleton.1 hmem]
      simp only [gap, Node.byteLen]
      omega
    · cases hmem
  induction trees generalizing cursor nodes with
  | nil =>
    rw [lowerAll] at h
    cases h
    exact .inr (hgap hcursor hstop hnode)
  | cons tree trees ih =>
    obtain ⟨hfirst, hrest⟩ := List.forall_mem_cons.1 hplaced
    obtain ⟨-, hbstart, hbstop⟩ := hfirst.placed
    have hlater : ∀ {cursor : Nat} {nodes : List Node}, IsBoundary source cursor →
        lowerAll typst (encode source) parentType depth cursor stop trees = .ok nodes → node ∈ nodes →
        (∃ tree' ∈ tree :: trees, lower typst (encode source) parentType depth tree' = .ok node) ∨
          (node.kind = .space ∨ node.kind = .text) ∧ 0 < node.byteLen := by
      intro cursor nodes hcursor hnodes hmem
      rcases ih hrest hcursor hnodes hmem with ⟨later, hlater, hlower⟩ | hgap
      · exact .inl ⟨later, List.mem_cons_of_mem _ hlater, hlower⟩
      · exact .inr hgap
    rw [lowerAll] at h
    split at h
    · exact hlater hcursor h hnode
    · obtain ⟨first, hlower, h⟩ := exists_of_bind_eq_ok h
      obtain ⟨rest, hnodes, h⟩ := exists_of_bind_eq_ok h
      cases h
      rcases List.mem_append.1 hnode with hnode | hnode
      · exact .inr (hgap hcursor hbstart hnode)
      rcases List.mem_cons.1 hnode with rfl | hnode
      · exact .inl ⟨tree, List.mem_cons_self .., hlower⟩
      · exact hlater hbstop hnodes hnode

end DocOutline.Grammar
