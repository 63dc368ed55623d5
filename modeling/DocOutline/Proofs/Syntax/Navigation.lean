import DocOutline.Proofs.Syntax.Places

/-!
# Finding one's way in a tree

A place of a tree is reached from the root by going down child by child. Going down adds up lengths and looking back takes them away
again, and both agree (`isPlaced_of_descend`): the range of a place is where its text stands in the source, and the sibling in
front is the child with the index before, whichever of the two ways it is found.
-/

namespace DocOutline.Syntax

open Text (encode slice Spans)
open Node (fullTexts byteLens)

/-! ## What lies around a place -/

namespace Node

/-- The nodes in front of the place that child indexes lead to: at each step down, the siblings in front. -/
def before : Node → List Nat → List Node
  | _, [] => []
  | node, index :: path => node.children.take index ++ (node.children[index]?.elim [] fun child => before child path)

def behind : Node → List Nat → List Node
  | _, [] => []
  | node, index :: path => (node.children[index]?.elim [] fun child => behind child path) ++ node.children.drop (index + 1)

theorem byteLens_eq_sum (nodes : List Node) : byteLens nodes = (nodes.map byteLen).sum := by
  induction nodes with
  | nil => rfl
  | cons node nodes ih => rw [byteLens, ih, List.map_cons, List.sum_cons]

end Node

namespace Cursor

variable {here child parent : Cursor} {tree : Node} {path : List Nat} {index : Nat}

theorem descend?_cons_eq_some :
    here.descend? (index :: path) = some child ↔
      ∃ middle, here.children[index]? = some middle ∧ middle.descend? path = some child := by
  rw [descend?, Option.bind_eq_some_iff]

/-- **A step down adds the lengths of the siblings in front**, so all steps add the lengths of all that is in front. -/
theorem offset_of_descend? (h : here.descend? path = some child) :
    child.offset = here.offset + byteLens (here.node.before path) := by
  induction path generalizing here with
  | nil =>
    cases h
    rfl
  | cons index path ih =>
    obtain ⟨middle, hmiddle, h⟩ := descend?_cons_eq_some.mp h
    rw [getElem?_children, Option.map_eq_some_iff] at hmiddle
    obtain ⟨node, hnode, rfl⟩ := hmiddle
    rw [ih h, Node.before, hnode, Option.elim_some, Node.byteLens_append, ← Nat.add_assoc]
    rfl

/-- The text of a node is what is in front of a place, the text at the place, and what is behind. -/
theorem fullText_of_descend? (h : here.descend? path = some child) :
    here.fullText = fullTexts (here.node.before path) ++ (child.fullText ++ fullTexts (here.node.behind path)) := by
  induction path generalizing here with
  | nil =>
    cases h
    simp [Node.before, Node.behind, fullTexts]
  | cons index path ih =>
    obtain ⟨middle, hmiddle, h⟩ := descend?_cons_eq_some.mp h
    have hfull := fullText_eq here (List.ne_nil_of_mem (node_mem_children (List.mem_of_getElem? hmiddle)))
    rw [getElem?_children, Option.map_eq_some_iff] at hmiddle
    obtain ⟨node, hnode, rfl⟩ := hmiddle
    obtain ⟨hlt, hget⟩ := List.getElem?_eq_some_iff.mp hnode
    have hsplit : here.node.children = here.node.children.take index ++ (node :: here.node.children.drop (index + 1)) := by
      rw [← hget, List.getElem_cons_drop, List.take_append_drop]
    have hmiddle : node.fullText = _ := ih h
    rw [hfull, Node.before, Node.behind, hnode, Option.elim_some, Option.elim_some]
    conv_lhs => rw [hsplit]
    rw [Node.fullTexts_append, fullTexts, hmiddle]
    simp only [Node.fullTexts_append, String.append_assoc]
    rfl

/-- What is reached by going down is where one started, or a child of what is reached by all steps but the last. -/
theorem parent_of_descend? (h : here.descend? path = some child) :
    path = [] ∧ child = here ∨ ∃ steps parent, path = steps ++ [child.index] ∧ here.descend? steps = some parent ∧
      child ∈ parent.children := by
  induction path generalizing here with
  | nil =>
    cases h
    exact .inl ⟨rfl, rfl⟩
  | cons index path ih =>
    obtain ⟨middle, hmiddle, h⟩ := descend?_cons_eq_some.mp h
    right
    rcases ih h with ⟨rfl, rfl⟩ | ⟨steps, parent, rfl, hparent, hchild⟩
    · exact ⟨[], here, by rw [index_of_getElem? hmiddle]; rfl, rfl, List.mem_of_getElem? hmiddle⟩
    · exact ⟨index :: steps, parent, rfl, descend?_cons_eq_some.mpr ⟨middle, hmiddle, hparent⟩, hchild⟩

/-! ## Looking back -/

theorem getElem?_index (h : child ∈ here.children) : here.children[child.index]? = some child := by
  obtain ⟨k, hk⟩ := List.getElem?_of_mem h
  rwa [index_of_getElem? hk]

/-- The sibling in front is the last of the children in front. -/
theorem prevRaw?_eq_getLast? (h : child ∈ here.children) : child.prevRaw? = (here.children.take child.index).getLast? := by
  have hindex := getElem?_index h
  cases hk : child.index with
  | zero =>
    rw [hk] at hindex
    rw [prevRaw?_of_getElem?_zero hindex]
    rfl
  | succ k =>
    rw [hk] at hindex
    obtain ⟨hlt, -⟩ := List.getElem?_eq_some_iff.mp hindex
    rw [prevRaw?_of_getElem?_succ hindex, List.getLast?_take, if_neg (Nat.succ_ne_zero k), Nat.add_sub_cancel,
      List.getElem?_eq_getElem (Nat.lt_of_succ_lt hlt), Option.some_or]

/-- **Looking back over trivia finds the last of the children in front that is none.** -/
theorem prevWithin_eq_getLast? {k : Nat} (h : here.children[k]? = some child) :
    prevWithin k child = ((here.children.take k).filter fun sibling => !sibling.kind.isTrivia).getLast? := by
  induction k generalizing child with
  | zero => rfl
  | succ k ih =>
    obtain ⟨hlt, -⟩ := List.getElem?_eq_some_iff.mp h
    have hprevious := List.getElem?_eq_getElem (Nat.lt_of_succ_lt hlt)
    generalize here.children[k] = previous at hprevious
    rw [prevWithin, prevRaw?_of_getElem?_succ h, hprevious, Option.bind_some, List.take_add_one, hprevious, Option.toList_some,
      List.filter_append]
    by_cases htrivia : previous.kind.isTrivia
    · rw [if_pos htrivia, ih hprevious]
      simp [htrivia]
    · rw [if_neg htrivia]
      simp [htrivia]

theorem prev?_eq_getLast? (h : child ∈ here.children) :
    child.prev? = ((here.children.take child.index).filter fun sibling => !sibling.kind.isTrivia).getLast? :=
  prevWithin_eq_getLast? (getElem?_index h)

/-! ## Places of a tree -/

/-- Whether a place is the one that child indexes lead to in a tree: its range is where its text stands in the source, and its
siblings in front are found as the children of its parent. -/
structure IsPlaced (tree : Node) (path : List Nat) (here : Cursor) : Prop where
  offset : here.offset = ((tree.before path).map Node.byteLen).sum
  stop : here.stop = here.offset + here.node.byteLen
  text : tree.fullText = fullTexts (tree.before path) ++ (here.fullText ++ fullTexts (tree.behind path))
  bytes : slice (encode tree.fullText) here.offset here.stop = encode here.fullText
  atRoot : path = [] → here.prevRaw? = none ∧ here.prev? = none
  inParent : ∀ steps index, path = steps ++ [index] → ∃ parent, (root tree).descend? steps = some parent ∧
    here.parent? = some parent ∧ parent.children[index]? = some here ∧
    here.prevRaw? = (parent.children.take index).getLast? ∧
    here.prev? = ((parent.children.take index).filter fun sibling => !sibling.kind.isTrivia).getLast?

/-- **Going down and looking back agree** at every place of a tree (`children`, `prev_raw_sibling` and `prev_sibling`;
specification, section 10.1). -/
theorem isPlaced_of_descend (h : (root tree).descend? path = some here) : IsPlaced tree path here := by
  have hoffset : here.offset = byteLens (tree.before path) := (offset_of_descend? h).trans (Nat.zero_add _)
  have htext : tree.fullText = _ := fullText_of_descend? h
  have hspans : Spans tree.fullText here.offset here.stop here.fullText := by
    refine ⟨_, _, htext, ?_, ?_⟩
    · rw [Node.utf8ByteSize_fullTexts, hoffset]
      rfl
    · rw [fullText, Node.utf8ByteSize_fullText]
      rfl
  constructor
  case offset => rw [hoffset, Node.byteLens_eq_sum]
  case stop => rfl
  case text => exact htext
  case bytes => exact hspans.slice_eq
  case atRoot =>
    rintro rfl
    cases h
    exact ⟨rfl, rfl⟩
  case inParent =>
    rintro steps index rfl
    rcases parent_of_descend? h with ⟨hnil, -⟩ | ⟨steps', parent, hpath, hparent, hchild⟩
    · exact absurd hnil (List.append_ne_nil_of_right_ne_nil _ (List.cons_ne_nil _ _))
    · obtain ⟨rfl, hindex⟩ := List.append_inj' hpath rfl
      obtain rfl : index = here.index := (List.cons.inj hindex).1
      exact ⟨parent, hparent, parent?_of_mem_children hchild, getElem?_index hchild, prevRaw?_eq_getLast? hchild,
        prev?_eq_getLast? hchild⟩

def commentedLabel : Node :=
  .inner .markup [.leaf .text "ä", .inner .heading [.leaf .headingMarker "=", .inner .markup [], .leaf .space " ",
    .leaf .lineComment "// c", .leaf .label "<k>"]]

theorem isPlaced_commentedLabel :
    ∃ here, (root commentedLabel).descend? [1, 4] = some here ∧ here.offset = 8 ∧
      here.prevRaw?.map (fun sibling => (sibling.kind, sibling.index, sibling.offset, sibling.stop)) =
        some (.lineComment, 3, 4, 8) ∧
      here.prev?.map (fun sibling => (sibling.kind, sibling.index, sibling.offset, sibling.stop)) = some (.markup, 1, 3, 3) ∧
      IsPlaced commentedLabel [1, 4] here :=
  ⟨_, rfl, by decide, by decide, by decide, isPlaced_of_descend rfl⟩

end Cursor

end DocOutline.Syntax
