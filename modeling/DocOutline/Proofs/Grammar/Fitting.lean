import DocOutline.Proofs.Grammar.Coverage
import DocOutline.Proofs.Text.Span

/-!
# Children that fit

The lowering takes consecutive nodes in their order and passes over each one that starts in front of the cursor or ends
behind the end; the others are kept (`Tree.fitting`), and the cursor moves to where they end. A node may end before it
starts. If it is kept, the cursor goes back, and what lies between its end and its start is read once more.

Main statement `fullTexts_lowerAll_iff`: over nodes without children, the lowering reads the stretch up to the end once,
and besides that only what a kept node goes back over.
-/

namespace DocOutline.Grammar

open DocOutline.Syntax (Node StructureError)
open DocOutline.Syntax.Node (byteLens fullTexts)
open Text (Bytes IsAscii encode slice)

namespace Tree

/-- The nodes among consecutive ones that fit between a cursor and an end, each behind the one that is kept before it. -/
def fitting (cursor stop : Nat) : List Tree → List Tree
  | [] => []
  | tree :: trees =>
    if tree.start < cursor ∨ stop < tree.stop then fitting cursor stop trees
    else tree :: fitting tree.stop stop trees

theorem mem_of_mem_fitting {cursor stop : Nat} {tree : Tree} {trees : List Tree}
    (h : tree ∈ fitting cursor stop trees) : tree ∈ trees := by
  induction trees generalizing cursor with
  | nil => exact h
  | cons first rest ih =>
    rw [fitting] at h
    split at h
    · exact List.mem_cons_of_mem _ (ih h)
    · rcases List.mem_cons.1 h with rfl | h
      · exact List.mem_cons_self ..
      · exact List.mem_cons_of_mem _ (ih h)

/-- What a node goes back over: the bytes from its end up to its start, if it ends before it starts. -/
def goesBackOver (source : Bytes) (tree : Tree) : Bytes := slice source tree.stop tree.start

end Tree

variable {tables : Tables} {source parentType : String} {depth cursor stop : Nat} {tree : Tree} {trees : List Tree}
  {node : Node} {nodes : List Node}

/-! ## Pieces -/

theorem encode_gapIfAny (hascii : IsAscii source) (cursor stop : Nat) :
    encode (fullTexts (gapIfAny (encode source) cursor stop)) = slice (encode source) cursor stop := by
  unfold gapIfAny
  split
  · rw [fullTexts, fullTexts, String.append_empty, gap, Node.fullText, textAt]
    exact hascii.encode_decode_slice cursor stop
  · next hge =>
    rw [Text.slice_eq_nil (Nat.le_of_not_lt hge)]
    rfl

/-- A node without children becomes a leaf for its text, or a heading with a gap as its content. -/
theorem exists_lower_of_childless (tables : Tables) (bytes : Bytes) (parentType : String) (hchildren : tree.children = [])
    (hdepth : depth ≤ Syntax.maxNesting) :
    ∃ node, lower tables bytes parentType depth tree = .ok node ∧
      ((∃ kind, node = .leaf kind (textAt bytes tree.start tree.stop)) ∨
        ∃ parts content, parts = headingParts tree.start tree.stop (textAt bytes tree.start tree.stop) ∧
          (parts.contentStart < parts.contentEnd → content = gapIfAny bytes parts.contentStart parts.contentEnd) ∧
          node = headingNode bytes parts tree.stop content) := by
  obtain ⟨type, start, stop, children, anonymous, missing⟩ := tree
  obtain rfl : children = [] := hchildren
  simp only [lower, if_neg (Nat.not_lt.2 hdepth), lowerAll, Tree.start, Tree.stop]
  split
  · exact ⟨_, rfl, .inl ⟨_, rfl⟩⟩
  split
  · exact ⟨_, rfl, .inl ⟨_, rfl⟩⟩
  split
  · exact ⟨_, rfl, .inl ⟨_, rfl⟩⟩
  split
  · split
    · exact ⟨_, rfl, .inr ⟨_, _, rfl, fun _ => rfl, rfl⟩⟩
    · next hge => exact ⟨_, rfl, .inr ⟨_, [], rfl, fun hlt => absurd hlt hge, rfl⟩⟩
  · exact ⟨_, if_pos (.inr rfl), .inl ⟨_, rfl⟩⟩

/-- What is lowered lies no deeper than the limit. -/
theorem depth_le_of_lower {bytes : Bytes} (h : lower tables bytes parentType depth tree = .ok node) :
    depth ≤ Syntax.maxNesting := by
  obtain ⟨type, start, stop, children, anonymous, missing⟩ := tree
  rw [lower] at h
  split at h
  · cases h
  · next hdepth => exact Nat.le_of_not_lt hdepth

/-- A node without children reads what its span reads. -/
theorem encode_lower_of_childless (hascii : IsAscii source) (hchildren : tree.children = [])
    (hstop : tree.stop ≤ source.utf8ByteSize) (h : lower tables (encode source) parentType depth tree = .ok node) :
    encode node.fullText = slice (encode source) tree.start tree.stop := by
  obtain ⟨node', hnode, hshape⟩ := exists_lower_of_childless tables (encode source) parentType hchildren
    (depth_le_of_lower h)
  cases h.symm.trans hnode
  rcases hshape with ⟨kind, rfl⟩ | ⟨parts, content, hparts, hcontent, rfl⟩
  · exact hascii.encode_decode_slice tree.start tree.stop
  rcases Nat.lt_or_ge tree.start tree.stop with hlt | hge
  · have hspan := textAt_spans (hascii.isBoundary (Nat.le_trans (Nat.le_of_lt hlt) hstop)) (hascii.isBoundary hstop)
      (Nat.le_of_lt hlt)
    subst hparts
    obtain ⟨-, -, -, -, hbstart, hbend⟩ := headingParts_spans hspan
    refine (headingNode_spans hspan fun hcontent' => ?_).slice_eq.symm
    rw [hcontent hcontent']
    exact gapIfAny_spans hbstart hbend (Nat.le_of_lt hcontent')
  · -- A heading that ends before it starts has no text, and so neither marker nor content.
    have htext : textAt (encode source) tree.start tree.stop = "" := by
      rw [textAt, Text.slice_eq_nil hge]
      rfl
    rw [htext] at hparts
    have hmarker : parts.marker = "" := by rw [hparts]; rfl
    have hmarkerEnd : parts.markerEnd = tree.start := by rw [hparts]; rfl
    have hcontentStart : parts.contentStart = tree.start := by rw [hparts]; rfl
    have hcontentEnd : parts.contentEnd = tree.stop := by rw [hparts]; rfl
    rw [headingNode, hmarker, hmarkerEnd, hcontentStart, hcontentEnd, if_neg (Nat.not_lt.2 hge), Nat.max_eq_right hge,
      gapIfAny, if_neg (Nat.lt_irrefl _), gapIfAny, if_neg (Nat.not_lt.2 hge), Text.slice_eq_nil hge]
    rfl

/-! ## Windows -/

/-- What is read for one node and the rest behind it, if the node goes back over nothing. -/
theorem slice_append_of_goesBackOver {bytes : Bytes} (hcursor : cursor ≤ tree.start) (hstop : tree.stop ≤ stop)
    (hend : stop ≤ bytes.length) (hle : cursor ≤ stop) (hback : tree.goesBackOver bytes = []) :
    slice bytes cursor tree.start ++ (slice bytes tree.start tree.stop ++ slice bytes tree.stop stop) =
      slice bytes cursor stop := by
  have hlength : min tree.start bytes.length - tree.stop = 0 := by
    rw [← Text.length_slice, ← Tree.goesBackOver, hback, List.length_nil]
  rcases Nat.lt_or_ge tree.stop tree.start with hlt | hordered
  · -- Only at the end of the source is there nothing to go back over.
    obtain ⟨rfl, hsource⟩ : tree.stop = stop ∧ tree.stop = bytes.length := by omega
    rw [Text.slice_eq_nil (Nat.le_of_lt hlt), Text.slice_eq_nil (Nat.le_refl _), List.append_nil, List.append_nil,
      Text.slice_min, Nat.min_eq_right (by omega), hsource]
  · rw [Text.slice_append_slice hordered hstop, Text.slice_append_slice hcursor (Nat.le_trans hordered hstop)]

/-- The lowering of nodes without children reads the stretch from the cursor to the end, and what they go back over. -/
theorem encode_lowerAll_of_childless (hascii : IsAscii source) (hchildren : ∀ tree ∈ trees, tree.children = [])
    (hle : cursor ≤ stop) (hstop : stop ≤ source.utf8ByteSize)
    (h : lowerAll tables (encode source) parentType depth cursor stop trees = .ok nodes) :
    byteLens nodes = stop - cursor +
        ((Tree.fitting cursor stop trees).flatMap (·.goesBackOver (encode source))).length ∧
      ((∀ tree ∈ Tree.fitting cursor stop trees, tree.goesBackOver (encode source) = []) →
        encode (fullTexts nodes) = slice (encode source) cursor stop) := by
  induction trees generalizing cursor nodes with
  | nil =>
    rw [lowerAll] at h
    cases h
    have hgap := encode_gapIfAny hascii cursor stop
    refine ⟨?_, fun _ => hgap⟩
    rw [← Node.utf8ByteSize_fullTexts, ← Text.length_encode, hgap, Text.length_slice, Text.length_encode,
      Nat.min_eq_left hstop]
    rfl
  | cons tree trees ih =>
    obtain ⟨hfirst, hrest⟩ := List.forall_mem_cons.1 hchildren
    rw [lowerAll] at h
    rw [Tree.fitting]
    split at h
    · next hskip =>
      rw [if_pos hskip]
      exact ih hrest hle h
    next hfits =>
    rw [if_neg hfits, List.flatMap_cons, List.length_append]
    obtain ⟨hcursor, htree⟩ : cursor ≤ tree.start ∧ tree.stop ≤ stop := by omega
    obtain ⟨node, hnode, h⟩ := exists_of_bind_eq_ok h
    obtain ⟨nodes', hnodes, h⟩ := exists_of_bind_eq_ok h
    cases h
    obtain ⟨hlength, htext⟩ := ih hrest htree hnodes
    have hgap := encode_gapIfAny hascii cursor tree.start
    have hread := encode_lower_of_childless hascii hfirst (Nat.le_trans htree hstop) hnode
    refine ⟨?_, fun hback => ?_⟩
    · have hgapLength := congrArg List.length hgap
      have hreadLength := congrArg List.length hread
      rw [Text.length_encode, Node.utf8ByteSize_fullTexts, Text.length_slice, Text.length_encode] at hgapLength
      rw [Text.length_encode, Node.utf8ByteSize_fullText, Text.length_slice, Text.length_encode] at hreadLength
      rw [Node.byteLens_append, byteLens, hgapLength, hreadLength, hlength, Tree.goesBackOver, Text.length_slice,
        Text.length_encode]
      omega
    · obtain ⟨hnone, hback⟩ := List.forall_mem_cons.1 hback
      rw [Node.fullTexts_append, fullTexts, Text.encode_append, Text.encode_append, hgap, hread, htext hback]
      exact slice_append_of_goesBackOver hcursor htree hstop hle hnone

theorem exists_lowerAll_of_childless {bytes : Bytes} (hchildren : ∀ tree ∈ trees, tree.children = [])
    (hdepth : depth ≤ Syntax.maxNesting) :
    ∃ nodes, lowerAll tables bytes parentType depth cursor stop trees = .ok nodes := by
  induction trees generalizing cursor with
  | nil => exact ⟨_, rfl⟩
  | cons tree trees ih =>
    obtain ⟨hfirst, hrest⟩ := List.forall_mem_cons.1 hchildren
    rw [lowerAll]
    split
    · exact ih hrest
    · obtain ⟨node, hnode, -⟩ := exists_lower_of_childless tables bytes parentType hfirst hdepth
      obtain ⟨nodes, hnodes⟩ : ∃ nodes, lowerAll tables bytes parentType depth tree.stop stop trees = .ok nodes := ih hrest
      rw [hnode, hnodes]
      exact ⟨_, rfl⟩

/-- **Nodes without children read their stretch once.** Whatever the spans of the nodes, what is lowered between two
offsets is as long as the stretch between them and all that kept nodes go back over, and it is the text of the stretch
exactly if they go back over nothing (`_lower_children`). -/
theorem fullTexts_lowerAll_iff (hascii : IsAscii source) (hchildren : ∀ tree ∈ trees, tree.children = [])
    (hle : cursor ≤ stop) (hstop : stop ≤ source.utf8ByteSize) :
    (depth ≤ Syntax.maxNesting →
        ∃ nodes, lowerAll tables (encode source) parentType depth cursor stop trees = .ok nodes) ∧
      ∀ nodes, lowerAll tables (encode source) parentType depth cursor stop trees = .ok nodes →
        byteLens nodes = stop - cursor +
          ((Tree.fitting cursor stop trees).flatMap (·.goesBackOver (encode source))).length ∧
        (fullTexts nodes = textAt (encode source) cursor stop ↔
          ∀ tree ∈ Tree.fitting cursor stop trees, tree.goesBackOver (encode source) = []) := by
  refine ⟨fun hdepth => exists_lowerAll_of_childless hchildren hdepth, fun nodes h => ?_⟩
  obtain ⟨hlength, htext⟩ := encode_lowerAll_of_childless hascii hchildren hle hstop h
  refine ⟨hlength, fun hread tree htree => ?_, fun hback => ?_⟩
  · have hstretch : byteLens nodes = stop - cursor := by
      rw [← Node.utf8ByteSize_fullTexts, hread, ← Text.length_encode, textAt, hascii.encode_decode_slice, Text.length_slice,
        Text.length_encode, Nat.min_eq_left hstop]
    have hnone := List.length_eq_zero_iff.1 (Nat.left_eq_add.1 (hstretch.symm.trans hlength))
    exact List.flatMap_eq_nil_iff.1 hnone tree htree
  · rw [textAt, ← htext hback, Text.decode_encode]

/-- Nodes of which one is too long, one overlaps a heading, and one inside the heading ends before it starts. -/
def scatteredTrees : List Tree :=
  [.node "text" 1 2 [] false false, .node "code" 0 9 [] false false, .node "heading" 3 7 [] false false,
    .node "text" 6 8 [] false false, .node "text" 5 4 [] false false, .node "text" 8 9 [] false false]

theorem fullTexts_lowerAll_iff_scattered :
    IsAscii "ab == c d" ∧ (∀ tree ∈ scatteredTrees, tree.children = []) ∧ 1 ≤ 9 ∧ 9 ≤ "ab == c d".utf8ByteSize ∧
      ∃ nodes, lowerAll typst (encode "ab == c d") "section" 1 1 9 scatteredTrees = .ok nodes ∧ byteLens nodes = 8 ∧
        fullTexts nodes = textAt (encode "ab == c d") 1 9 := by
  have hascii : IsAscii "ab == c d" := by decide
  have hchildren : ∀ tree ∈ scatteredTrees, tree.children = [] := by decide
  have hstop : 9 ≤ "ab == c d".utf8ByteSize := by decide
  obtain ⟨hexists, hread⟩ := @fullTexts_lowerAll_iff typst "ab == c d" "section" 1 1 9 scatteredTrees hascii hchildren
    (by decide) hstop
  obtain ⟨nodes, hnodes⟩ := hexists (by decide)
  obtain ⟨hlength, htext⟩ := hread nodes hnodes
  have hback : ∀ tree ∈ Tree.fitting 1 9 scatteredTrees, tree.goesBackOver (encode "ab == c d") = [] := by decide
  exact ⟨hascii, hchildren, by decide, hstop, nodes, hnodes, hlength, htext.2 hback⟩

/-- A node that ends before it starts goes back over the text between. -/
theorem fullTexts_lowerAll_goingBack :
    lowerAll typst (encode "abcd") "source_file" 1 0 4 [.node "text" 3 1 [] false false] =
        .ok [.leaf .text "abc", .leaf .text "", .leaf .text "bcd"] ∧
      fullTexts [.leaf .text "abc", .leaf .text "", .leaf .text "bcd"] ≠ textAt (encode "abcd") 0 4 ∧
      byteLens [.leaf .text "abc", .leaf .text "", .leaf .text "bcd"] = 6 :=
  ⟨by rfl, by decide, by decide⟩

end DocOutline.Grammar
