import DocOutline.Proofs.Text.Span
import DocOutline.Syntax.Cursor

/-!
# Places and nodes of a tree

The places beneath a place, and the nodes that are there.
-/

namespace DocOutline.Syntax.Cursor

open Text (Spans)
open Node (fullTexts)

/-! ## Going down a tree

The children of a place are the places of the children of its node: they know it as their parent, and what a child
covers is the part of the source that its offset and its length say (`spans_children`). Statements about all places are
proved by going down (`Cursor.induction`).
-/

variable {here child parent : Cursor}

theorem mem_siblings {index offset : Nat} {nodes : List Node} (h : child ∈ siblings parent index offset nodes) :
    child.node ∈ nodes ∧ child.parent? = some parent := by
  induction nodes generalizing index offset with
  | nil => cases h
  | cons node nodes ih =>
    rcases List.mem_cons.1 h with rfl | h
    · exact ⟨List.mem_cons_self .., rfl⟩
    · exact ⟨List.mem_cons_of_mem _ (ih h).1, (ih h).2⟩

theorem node_mem_children (h : child ∈ here.children) : child.node ∈ here.node.children := (mem_siblings h).1

theorem parent?_of_mem_children (h : child ∈ here.children) : child.parent? = some here := (mem_siblings h).2

theorem sizeOf_lt_of_mem_children (h : child ∈ here.children) : sizeOf child.node < sizeOf here.node := by
  have hmem := node_mem_children h
  cases hnode : here.node with
  | leaf kind text => rw [hnode] at hmem; cases hmem
  | inner kind children =>
    rw [hnode] at hmem
    have hlt : sizeOf child.node < sizeOf children := List.sizeOf_lt_of_mem hmem
    simp only [Node.inner.sizeOf_spec]
    omega

/-- What holds of a place as soon as it holds of its children holds of every place. -/
theorem induction {motive : Cursor → Prop}
    (h : ∀ here, (∀ child ∈ here.children, motive child) → motive here) (here : Cursor) : motive here :=
  h here fun child hchild =>
    have := sizeOf_lt_of_mem_children hchild
    induction h child
termination_by sizeOf here.node

/-! ### How deep places lie -/

mutual

/-- The number of nodes on the way from the root down to a place, both counted. -/
def depth : Cursor → Nat
  | mk _ parent? _ _ => depthOf parent? + 1
termination_by structural here => here

/-- The number of nodes on the way from the root down to a parent. -/
def depthOf : Option Cursor → Nat
  | none => 0
  | some parent => depth parent
termination_by structural parent? => parent?

end

theorem depth_root (node : Node) : (root node).depth = 1 := rfl

theorem depth_of_mem_children (h : child ∈ here.children) : child.depth = here.depth + 1 := by
  have hparent := parent?_of_mem_children h
  cases child with
  | mk node parent? index offset =>
    obtain rfl : parent? = some here := hparent
    rfl

/-! ### What places cover -/

theorem fullText_eq (here : Cursor) (h : here.node.children ≠ []) : here.fullText = fullTexts here.node.children := by
  unfold fullText
  cases hnode : here.node with
  | leaf kind text => rw [hnode] at h; exact absurd rfl h
  | inner kind children => rfl

theorem spans_siblings {source : String} {index offset stop : Nat} {nodes : List Node}
    (h : Spans source offset stop (fullTexts nodes)) :
    ∀ child ∈ siblings parent index offset nodes, Spans source child.offset child.stop child.fullText := by
  induction nodes generalizing index offset with
  | nil => intro child hchild; cases hchild
  | cons node nodes ih =>
    intro child hchild
    have hright := h.right
    rw [Node.utf8ByteSize_fullText] at hright
    rcases List.mem_cons.1 hchild with rfl | hchild
    · have hleft := h.left
      rwa [Node.utf8ByteSize_fullText] at hleft
    · exact ih hright child hchild

/-- If the source reads at a place what its node covers, so it does at the places of the children. -/
theorem spans_children {source : String} (h : Spans source here.offset here.stop here.fullText) :
    ∀ child ∈ here.children, Spans source child.offset child.stop child.fullText := by
  intro child hchild
  have hne : here.node.children ≠ [] := List.ne_nil_of_mem (node_mem_children hchild)
  rw [fullText_eq here hne] at h
  exact spans_siblings h child hchild

theorem spans_root (node : Node) :
    Spans node.fullText (root node).offset (root node).stop (root node).fullText := by
  have h := Spans.whole node.fullText
  rw [Node.utf8ByteSize_fullText] at h
  simpa [stop, offset, root, fullText, Cursor.node] using h

end DocOutline.Syntax.Cursor

namespace DocOutline.Syntax

/-! ## Nodes of a tree

All nodes of a tree in document order, each in front of those beneath it. Whatever is asked of all nodes beneath a
place is handed on to its children.
-/

namespace Node

mutual

def subtrees : Node → List Node
  | leaf kind text => [leaf kind text]
  | inner kind children => inner kind children :: subtreesAll children
termination_by structural node => node

/-- Consecutive nodes and all nodes beneath them. -/
def subtreesAll : List Node → List Node
  | [] => []
  | node :: nodes => subtrees node ++ subtreesAll nodes
termination_by structural nodes => nodes

end

theorem subtrees_eq (node : Node) : node.subtrees = node :: subtreesAll node.children := by
  cases node <;> rfl

theorem mem_subtrees_self (node : Node) : node ∈ node.subtrees := by
  rw [subtrees_eq]
  exact List.mem_cons_self ..

theorem subtrees_subset_subtreesAll {node : Node} {nodes : List Node} (h : node ∈ nodes) :
    node.subtrees ⊆ subtreesAll nodes := by
  induction nodes with
  | nil => cases h
  | cons first rest ih =>
    intro inner hinner
    rcases List.mem_cons.1 h with rfl | h
    · exact List.mem_append_left _ hinner
    · exact List.mem_append_right _ (ih h hinner)

def beneath (node : Node) : List Node := subtreesAll node.children

theorem subtrees_subset_beneath {child node : Node} (h : child ∈ node.children) : child.subtrees ⊆ node.beneath :=
  subtrees_subset_subtreesAll h

theorem beneath_subset_subtrees (node : Node) : node.beneath ⊆ node.subtrees := by
  rw [subtrees_eq]
  exact List.subset_cons_self ..

end Node

def Node.HeadingFree (node : Node) : Prop := ∀ inner ∈ node.subtrees, inner.kind ≠ .heading

theorem Node.HeadingFree.child {node child : Node} (h : node.HeadingFree) (hchild : child ∈ node.children) :
    child.HeadingFree :=
  fun inner hinner => h inner (node.beneath_subset_subtrees (subtrees_subset_beneath hchild hinner))

end DocOutline.Syntax
