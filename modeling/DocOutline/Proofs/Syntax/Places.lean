import Mathlib
import DocOutline.Proofs.Syntax.Cursor

/-!
# Places of a tree

All places of a tree in document order, each in front of those beneath it. What is beneath a place lies in its range,
and siblings lie one behind another; so two places whose ranges overlap are nested (`nested_of_overlap`). What is beneath
a place is beneath no other one that lies equally deep (`eq_of_mem_places`).
-/

namespace DocOutline.Syntax.Cursor

mutual

def placesOf (node : Node) (parent? : Option Cursor) (index offset : Nat) : List Cursor :=
  match node with
  | .leaf kind text => [mk (.leaf kind text) parent? index offset]
  | .inner kind children =>
    let here := mk (.inner kind children) parent? index offset
    here :: placesOfAll here 0 offset children
termination_by structural node

/-- The places of consecutive nodes, the first of which has the given index and offset, and all places beneath
them. -/
def placesOfAll (parent : Cursor) (index offset : Nat) (nodes : List Node) : List Cursor :=
  match nodes with
  | [] => []
  | node :: nodes =>
    placesOf node (some parent) index offset ++ placesOfAll parent (index + 1) (offset + node.byteLen) nodes
termination_by structural nodes

end

def places (here : Cursor) : List Cursor := placesOf here.node here.parent? here.index here.offset

theorem placesOfAll_eq_flatMap (parent : Cursor) (index offset : Nat) (nodes : List Node) :
    placesOfAll parent index offset nodes = (siblings parent index offset nodes).flatMap places := by
  induction nodes generalizing index offset with
  | nil => rfl
  | cons node nodes ih => rw [placesOfAll, siblings, List.flatMap_cons, ih]; rfl

theorem places_eq (here : Cursor) : here.places = here :: here.children.flatMap places := by
  obtain ⟨node, parent?, index, offset⟩ := here
  cases node with
  | leaf kind text => rfl
  | inner kind children =>
    change placesOf (.inner kind children) parent? index offset = _
    rw [placesOf, placesOfAll_eq_flatMap]
    rfl

variable {here child outer middle inner : Cursor}

/-! ## Beneath a place -/

theorem mem_places_self (here : Cursor) : here ∈ here.places := by
  rw [places_eq]
  exact List.mem_cons_self ..

theorem mem_places : inner ∈ here.places ↔ inner = here ∨ ∃ child ∈ here.children, inner ∈ child.places := by
  rw [places_eq, List.mem_cons, List.mem_flatMap]

theorem mem_places_of_mem_children (hchild : child ∈ here.children) (h : inner ∈ child.places) :
    inner ∈ here.places := mem_places.2 (.inr ⟨child, hchild, h⟩)

theorem mem_places_trans (hmiddle : middle ∈ outer.places) (hinner : inner ∈ middle.places) :
    inner ∈ outer.places := by
  induction outer using Cursor.induction with
  | h outer ih =>
    rcases mem_places.1 hmiddle with rfl | ⟨child, hchild, hmiddle⟩
    · exact hinner
    · exact mem_places_of_mem_children hchild (ih child hchild hmiddle)

theorem mem_places_child (hhere : here ∈ outer.places) (hchild : child ∈ here.children) : child ∈ outer.places :=
  mem_places_trans hhere (mem_places_of_mem_children hchild (mem_places_self child))

/-- Beneath a place, every place is a child of another one. -/
theorem exists_parent_of_mem_places (h : inner ∈ outer.places) :
    inner = outer ∨ ∃ parent ∈ outer.places, inner ∈ parent.children := by
  induction outer using Cursor.induction with
  | h outer ih =>
    rcases mem_places.1 h with rfl | ⟨child, hchild, h⟩
    · exact .inl rfl
    · right
      rcases ih child hchild h with rfl | ⟨parent, hparent, hinner⟩
      · exact ⟨outer, mem_places_self outer, hchild⟩
      · exact ⟨parent, mem_places_of_mem_children hchild hparent, hinner⟩

/-- The nodes at the places are the nodes of the tree. -/
theorem map_node_places (here : Cursor) : here.places.map node = here.node.subtrees := by
  induction here using Cursor.induction with
  | h here ih =>
    suffices hall : ∀ index offset nodes, (∀ child ∈ siblings here index offset nodes,
        child.places.map node = child.node.subtrees) →
        ((siblings here index offset nodes).flatMap places).map node = Node.subtreesAll nodes by
      rw [places_eq, Node.subtrees_eq, List.map_cons, children, hall 0 here.offset here.node.children ih]
    intro index offset nodes h
    induction nodes generalizing index offset with
    | nil => rfl
    | cons first rest ihrest =>
      obtain ⟨hfirst, hrest⟩ := List.forall_mem_cons.1 h
      rw [siblings, List.flatMap_cons, List.map_append, hfirst, ihrest _ _ hrest]
      rfl

/-- A property of places holds of as many places as it holds of the place itself and of those beneath its children. -/
theorem countP_places (p : Cursor → Bool) (here : Cursor) :
    here.places.countP p =
      (if p here then 1 else 0) + (here.children.map fun child => child.places.countP p).sum := by
  rw [places_eq, List.countP_cons, List.countP_flatMap, Nat.add_comm]
  rfl

/-! ## Ancestors -/

theorem depth_le_of_mem_places (h : inner ∈ outer.places) : outer.depth ≤ inner.depth := by
  induction outer using Cursor.induction with
  | h outer ih =>
    rcases mem_places.1 h with rfl | ⟨child, hchild, h⟩
    · exact Nat.le_refl _
    · have hdepth := depth_of_mem_children hchild
      have hinner := ih child hchild h
      omega

/-- Beneath a place there are only places that lie deeper. -/
theorem eq_of_mem_places_of_depth_le (h : inner ∈ outer.places) (hdepth : inner.depth ≤ outer.depth) :
    inner = outer := by
  rcases mem_places.1 h with heq | ⟨child, hchild, h⟩
  · exact heq
  · have hchilddepth := depth_of_mem_children hchild
    have hinner := depth_le_of_mem_places h
    omega

/-- A place is beneath what its parent is beneath, unless it is that place itself. -/
theorem parent_mem_places (hchild : child ∈ here.children) (h : child ∈ outer.places) (hne : child ≠ outer) :
    here ∈ outer.places := by
  rcases exists_parent_of_mem_places h with heq | ⟨parent, hparent, hmem⟩
  · exact absurd heq hne
  · have hsame := (parent?_of_mem_children hchild).symm.trans (parent?_of_mem_children hmem)
    cases hsame
    exact hparent

/-- Parents of places of a tree are places of the tree. -/
theorem parent_mem_places_root {tree : Node} (hchild : child ∈ here.children) (h : child ∈ (root tree).places) :
    here ∈ (root tree).places := by
  refine parent_mem_places hchild h ?_
  rintro rfl
  cases parent?_of_mem_children hchild

/-- What is beneath two places that lie equally deep is beneath the same one. -/
theorem eq_of_mem_places {other : Cursor} (h : inner ∈ outer.places) (hother : inner ∈ other.places)
    (hdepth : outer.depth = other.depth) : outer = other := by
  generalize hn : inner.depth = n
  induction n using Nat.strong_induction_on generalizing inner with
  | h n ih =>
    rcases exists_parent_of_mem_places h with rfl | ⟨parent, hparent, hchild⟩
    · exact eq_of_mem_places_of_depth_le hother (Nat.le_of_eq hdepth)
    have hparentdepth := depth_of_mem_children hchild
    have houter := depth_le_of_mem_places hparent
    -- The depth tells the place itself from those that are beneath it.
    have hne : inner ≠ other := by
      rintro rfl
      omega
    exact ih parent.depth (by omega) hparent (parent_mem_places hchild hother hne) rfl

/-! ## Ranges -/

/-- Consecutive nodes lie between the end of what is in front of them and the end of the last one. -/
theorem siblings_bounds {parent : Cursor} {index offset : Nat} {nodes : List Node}
    (h : child ∈ siblings parent index offset nodes) :
    index ≤ child.index ∧ offset ≤ child.offset ∧ child.stop ≤ offset + Node.byteLens nodes := by
  induction nodes generalizing index offset with
  | nil => cases h
  | cons node nodes ih =>
    rw [Node.byteLens]
    rcases List.mem_cons.1 h with rfl | h
    · refine ⟨Nat.le_refl _, Nat.le_refl _, ?_⟩
      change offset + node.byteLen ≤ _
      omega
    · obtain ⟨hindex, hoffset, hstop⟩ := ih h
      exact ⟨by omega, by omega, by omega⟩

theorem getElem?_siblings (parent : Cursor) (index offset : Nat) (nodes : List Node) (k : Nat) :
    (siblings parent index offset nodes)[k]? =
      nodes[k]?.map fun node => mk node (some parent) (index + k) (offset + Node.byteLens (nodes.take k)) := by
  induction nodes generalizing index offset k with
  | nil => rfl
  | cons node nodes ih =>
    cases k with
    | zero => rfl
    | succ k =>
      rw [siblings, List.getElem?_cons_succ, List.getElem?_cons_succ, ih, List.take_succ_cons, Node.byteLens,
        Nat.add_assoc offset, Nat.add_assoc index, Nat.add_comm 1 k]

theorem getElem?_children (here : Cursor) (k : Nat) :
    here.children[k]? = here.node.children[k]?.map fun node =>
      mk node (some here) k (here.offset + Node.byteLens (here.node.children.take k)) := by
  rw [children, getElem?_siblings, Nat.zero_add]

theorem siblings_append (parent : Cursor) (index offset : Nat) (nodes nodes' : List Node) :
    siblings parent index offset (nodes ++ nodes') = siblings parent index offset nodes ++
      siblings parent (index + nodes.length) (offset + Node.byteLens nodes) nodes' := by
  induction nodes generalizing index offset with
  | nil => rfl
  | cons node nodes ih =>
    rw [List.cons_append, siblings, siblings, ih, List.cons_append, List.length_cons, Node.byteLens]
    congr 3 <;> omega

/-- The places of the children hold the children. -/
theorem map_node_children (here : Cursor) : here.children.map node = here.node.children := by
  refine List.ext_getElem? fun k => ?_
  rw [List.getElem?_map, getElem?_children]
  cases here.node.children[k]? <;> rfl

/-- A child has its place behind the children in front of it. -/
theorem exists_child {here : Cursor} {before after : List Node} {node : Node}
    (h : here.node.children = before ++ node :: after) :
    ∃ child ∈ here.children, child.node = node ∧ child.offset = here.offset + Node.byteLens before := by
  rw [children, h, siblings_append]
  exact ⟨_, List.mem_append_right _ (List.mem_cons_self ..), rfl, rfl⟩

theorem byteLens_take_succ {nodes : List Node} {k : Nat} {node : Node} (h : nodes[k]? = some node) :
    Node.byteLens (nodes.take (k + 1)) = Node.byteLens (nodes.take k) + node.byteLen := by
  rw [List.take_add_one, h, Node.byteLens_append]
  rfl

/-- The sibling in front of a child is the child with the index before. -/
theorem prevRaw?_of_getElem?_succ {k : Nat} (h : here.children[k + 1]? = some child) :
    child.prevRaw? = here.children[k]? := by
  rw [getElem?_children, Option.map_eq_some_iff] at h
  obtain ⟨node, hnode, rfl⟩ := h
  obtain ⟨hlt, -⟩ := List.getElem?_eq_some_iff.1 hnode
  have hfirst : here.node.children[k]? = some here.node.children[k] := List.getElem?_eq_getElem (Nat.lt_of_succ_lt hlt)
  simp only [prevRaw?, parent?, index, offset, getElem?_children, hfirst, byteLens_take_succ hfirst, Option.map_some,
    ← Nat.add_assoc, Nat.add_sub_cancel]

theorem prevRaw?_of_getElem?_zero (h : here.children[0]? = some child) : child.prevRaw? = none := by
  rw [getElem?_children, Option.map_eq_some_iff] at h
  obtain ⟨node, -, rfl⟩ := h
  rfl

/-- The sibling in front of a child ends where the child starts. -/
theorem stop_of_getElem?_succ {k : Nat} {previous : Cursor} (hprevious : here.children[k]? = some previous)
    (hchild : here.children[k + 1]? = some child) : previous.stop = child.offset := by
  rw [getElem?_children, Option.map_eq_some_iff] at hprevious hchild
  obtain ⟨first, hfirst, rfl⟩ := hprevious
  obtain ⟨node, -, rfl⟩ := hchild
  change here.offset + _ + first.byteLen = here.offset + _
  rw [byteLens_take_succ hfirst, Nat.add_assoc]

theorem index_of_getElem? {k : Nat} (h : here.children[k]? = some child) : child.index = k := by
  rw [getElem?_children, Option.map_eq_some_iff] at h
  obtain ⟨node, -, rfl⟩ := h
  rfl

theorem of_prevRaw? {previous : Cursor} (hchild : child ∈ here.children) (h : child.prevRaw? = some previous) :
    previous ∈ here.children ∧ previous.index + 1 = child.index ∧ previous.stop = child.offset := by
  obtain ⟨k, hk⟩ := List.getElem?_of_mem hchild
  cases k with
  | zero =>
    rw [prevRaw?_of_getElem?_zero hk] at h
    cases h
  | succ k =>
    rw [prevRaw?_of_getElem?_succ hk] at h
    rw [index_of_getElem? h, index_of_getElem? hk]
    exact ⟨List.mem_of_getElem? h, rfl, stop_of_getElem?_succ h hk⟩

theorem offset_le_stop (here : Cursor) : here.offset ≤ here.stop := Nat.le_add_right _ _

/-- Whether one of two siblings stands in front of the other. -/
def Precedes (here other : Cursor) : Prop := here.index < other.index ∧ here.stop ≤ other.offset

theorem Precedes.ne {other : Cursor} (h : here.Precedes other) : here ≠ other := by
  rintro rfl
  exact Nat.lt_irrefl _ h.1

theorem Precedes.trans (h : here.Precedes child) (h' : child.Precedes inner) : here.Precedes inner :=
  ⟨Nat.lt_trans h.1 h'.1, Nat.le_trans h.2 (Nat.le_trans child.offset_le_stop h'.2)⟩

theorem pairwise_siblings (parent : Cursor) (index offset : Nat) (nodes : List Node) :
    (siblings parent index offset nodes).Pairwise Precedes := by
  induction nodes generalizing index offset with
  | nil => exact .nil
  | cons node nodes ih =>
    refine .cons (fun other hother => ?_) (ih _ _)
    obtain ⟨hindex, hoffset, -⟩ := siblings_bounds hother
    exact ⟨hindex, hoffset⟩

/-- The children of a place lie one behind another. -/
theorem pairwise_children (here : Cursor) : here.children.Pairwise Precedes :=
  pairwise_siblings here 0 here.offset here.node.children

/-- Of two children, one stands in front of the other. -/
theorem precedes_trichotomy {other : Cursor} (hchild : child ∈ here.children) (hother : other ∈ here.children) :
    child.Precedes other ∨ child = other ∨ other.Precedes child := by
  obtain ⟨i, hi, rfl⟩ := List.getElem_of_mem hchild
  obtain ⟨j, hj, rfl⟩ := List.getElem_of_mem hother
  have hpairwise := List.pairwise_iff_getElem.1 here.pairwise_children
  rcases Nat.lt_trichotomy i j with hlt | rfl | hlt
  · exact .inl (hpairwise i j hi hj hlt)
  · exact .inr (.inl rfl)
  · exact .inr (.inr (hpairwise j i hj hi hlt))

theorem precedes_of_offset_lt {other : Cursor} (hchild : child ∈ here.children) (hother : other ∈ here.children)
    (h : child.offset < other.offset) : child.Precedes other := by
  rcases precedes_trichotomy hchild hother with hprecedes | rfl | hprecedes
  · exact hprecedes
  · exact absurd h (Nat.lt_irrefl _)
  · exact absurd (Nat.le_trans other.offset_le_stop hprecedes.2) (Nat.not_le_of_lt h)

/-- A child lies in the range of its parent. -/
theorem range_of_mem_children (h : child ∈ here.children) : here.offset ≤ child.offset ∧ child.stop ≤ here.stop := by
  obtain ⟨-, hoffset, hstop⟩ := siblings_bounds h
  refine ⟨hoffset, ?_⟩
  have hne : here.node.children ≠ [] := List.ne_nil_of_mem (node_mem_children h)
  have hlength : here.node.byteLen = Node.byteLens here.node.children := by
    cases hnode : here.node with
    | leaf kind text => rw [hnode] at hne; exact absurd rfl hne
    | inner kind children => rfl
  change child.stop ≤ here.offset + here.node.byteLen
  rwa [hlength]

/-- What is beneath a place lies in its range. -/
theorem range_of_mem_places (h : inner ∈ outer.places) : outer.offset ≤ inner.offset ∧ inner.stop ≤ outer.stop := by
  induction outer using Cursor.induction with
  | h outer ih =>
    rcases mem_places.1 h with rfl | ⟨child, hchild, h⟩
    · exact ⟨Nat.le_refl _, Nat.le_refl _⟩
    · have hrange := range_of_mem_children hchild
      have hinner := ih child hchild h
      exact ⟨Nat.le_trans hrange.1 hinner.1, Nat.le_trans hinner.2 hrange.2⟩

/-- Two places of a tree whose ranges overlap are nested. -/
theorem nested_of_overlap {root : Cursor} (houter : outer ∈ root.places) (hinner : inner ∈ root.places)
    (h : outer.offset < inner.stop) (h' : inner.offset < outer.stop) :
    inner ∈ outer.places ∨ outer ∈ inner.places := by
  induction root using Cursor.induction with
  | h root ih =>
    rcases mem_places.1 houter with rfl | ⟨child, hchild, houter'⟩
    · exact .inl hinner
    rcases mem_places.1 hinner with rfl | ⟨other, hother, hinner'⟩
    · exact .inr houter
    have hrange := range_of_mem_places houter'
    have hrange' := range_of_mem_places hinner'
    -- Different children do not overlap, so both places are beneath the same one.
    rcases precedes_trichotomy hchild hother with hprecedes | rfl | hprecedes
    · have := hprecedes.2
      omega
    · exact ih _ hchild houter' hinner'
    · have := hprecedes.2
      omega

end DocOutline.Syntax.Cursor
