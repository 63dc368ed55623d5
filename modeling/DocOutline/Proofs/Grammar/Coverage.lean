import DocOutline.Proofs.Grammar.Regrouping
import DocOutline.Proofs.Text.Span

/-!
# The lowered tree covers its source

Children of a parser's node may overlap, stand out of order or stick out of it. The lowering takes those that fit
behind one another and fills the rest with gaps: whatever is left out as a node is there as text. The claim for one
node is that its lowered node reads exactly what its span reads (`lower_spans`); for a list of children it is a
statement about a cursor, from which the rest of the stretch is still to be covered (`lowerAll_spans`).

Regrouping moves no text as long as no call that has text is without children, which `Covered` says of a lowered node.

Main statement `fullText_lowerRoot`: the syntax tree of a source reads that source, whatever the parser's tree.
-/

namespace DocOutline.Grammar

open DocOutline.Syntax (Kind Node StructureError)
open DocOutline.Syntax.Node (fullTexts)
open Text (IsBoundary Spans encode)

/-! ## What is asked of a parser's tree -/

namespace Tree

mutual

/-- A node and all nodes beneath it, each in front of those beneath it. -/
def subtrees : Tree → List Tree
  | node type start stop children anonymous missing =>
    node type start stop children anonymous missing :: subtreesAll children
termination_by structural tree => tree

/-- Consecutive nodes and all nodes beneath them. -/
def subtreesAll : List Tree → List Tree
  | [] => []
  | tree :: trees => subtrees tree ++ subtreesAll trees
termination_by structural trees => trees

end

theorem mem_subtrees_self (tree : Tree) : tree ∈ tree.subtrees := by
  cases tree
  simp [subtrees]

theorem mem_subtrees_of_children {tree inner : Tree} (h : inner ∈ subtreesAll tree.children) :
    inner ∈ tree.subtrees := by
  cases tree
  exact List.mem_cons_of_mem _ h

/-- A node spans a stretch of the source that begins and ends between two characters. How the spans of different
nodes lie to one another is left open. -/
def PlacedIn (source : String) (tree : Tree) : Prop :=
  tree.start ≤ tree.stop ∧ IsBoundary source tree.start ∧ IsBoundary source tree.stop

/-- A node is no call without children; tokens and missing nodes of that type do not count. -/
def NoBareCall (tree : Tree) : Prop :=
  tree.type = "call" → tree.isAnonymous = false → tree.isMissing = false → tree.children ≠ []

instance (source : String) (tree : Tree) : Decidable (tree.PlacedIn source) :=
  inferInstanceAs (Decidable (_ ∧ _ ∧ _))

instance (tree : Tree) : Decidable tree.NoBareCall := inferInstanceAs (Decidable (_ → _ → _ → _))

end Tree

/-! ## Spans of the parts -/

section
variable {source : String} {start stop : Nat}

theorem textAt_spans (hstart : IsBoundary source start) (hstop : IsBoundary source stop) (hle : start ≤ stop) :
    Spans source start stop (textAt (encode source) start stop) := Spans.of_isBoundary hstart hstop hle

theorem gapIfAny_spans (hstart : IsBoundary source start) (hstop : IsBoundary source stop) (hle : start ≤ stop) :
    Spans source start stop (fullTexts (gapIfAny (encode source) start stop)) := by
  unfold gapIfAny
  split
  · simpa [fullTexts, gap, Node.fullText] using textAt_spans hstart hstop hle
  · obtain rfl : start = stop := by omega
    exact Spans.empty hstart

theorem utf8ByteSize_ofList_reverse (cs : List Char) :
    (String.ofList cs.reverse).utf8ByteSize = (String.ofList cs).utf8ByteSize := by
  induction cs with
  | nil => rfl
  | cons c cs ih =>
    rw [List.reverse_cons, String.ofList_append, String.utf8ByteSize_append, ih, Nat.add_comm,
      ← String.utf8ByteSize_append, ← String.ofList_append, List.singleton_append]

theorem utf8ByteSize_ofList_eqSigns {cs : List Char} (h : ∀ c ∈ cs, c = '=') :
    (String.ofList cs).utf8ByteSize = cs.length :=
  Text.utf8ByteSize_ofList_of_ascii fun c hc => h c hc ▸ by decide

/-- White space at the front of a text ends between two characters. -/
theorem isBoundary_lead {cs : List Char} (h : Spans source start stop (String.ofList cs)) (p : Char → Bool) :
    start + (String.ofList (cs.takeWhile p)).utf8ByteSize ≤ stop ∧
      IsBoundary source (start + (String.ofList (cs.takeWhile p)).utf8ByteSize) := by
  rw [← List.takeWhile_append_dropWhile (p := p) (l := cs), String.ofList_append] at h
  refine ⟨?_, h.left.isBoundary_stop⟩
  rw [← h.stop_eq, String.utf8ByteSize_append]
  omega

/-- White space at the end of a text starts between two characters. -/
theorem isBoundary_trail {cs : List Char} (h : Spans source start stop (String.ofList cs)) (p : Char → Bool) :
    IsBoundary source (stop - (String.ofList (cs.reverse.takeWhile p)).utf8ByteSize) := by
  have hsplit : cs = (cs.reverse.dropWhile p).reverse ++ (cs.reverse.takeWhile p).reverse := by
    rw [← List.reverse_append, List.takeWhile_append_dropWhile, List.reverse_reverse]
  rw [hsplit, String.ofList_append] at h
  have hstop := h.stop_eq
  rw [String.utf8ByteSize_append, utf8ByteSize_ofList_reverse (cs.reverse.takeWhile p)] at hstop
  have hsub : stop - (String.ofList (cs.reverse.takeWhile p)).utf8ByteSize =
      start + (String.ofList (cs.reverse.dropWhile p).reverse).utf8ByteSize := by omega
  rw [hsub]
  exact h.left.isBoundary_stop

/-- The marker of a heading is the start of its text, and the ends of its content lie between characters. The
content may end before it starts, namely when there is nothing but white space behind the marker. -/
theorem headingParts_spans {text : String} (h : Spans source start stop text) :
    Spans source start (headingParts start stop text).markerEnd (headingParts start stop text).marker ∧
      (headingParts start stop text).markerEnd ≤ (headingParts start stop text).contentStart ∧
      (headingParts start stop text).contentStart ≤ stop ∧ (headingParts start stop text).contentEnd ≤ stop ∧
      IsBoundary source (headingParts start stop text).contentStart ∧
      IsBoundary source (headingParts start stop text).contentEnd := by
  have hsigns : (String.ofList (text.toList.takeWhile (· = '='))).utf8ByteSize =
      (text.toList.takeWhile (· = '=')).length :=
    utf8ByteSize_ofList_eqSigns fun c hc => by simpa using List.all_eq_true.1 List.all_takeWhile c hc
  have htext : text = String.ofList (text.toList.takeWhile (· = '=')) ++
      String.ofList (text.toList.dropWhile (· = '=')) := by
    rw [← String.ofList_append, List.takeWhile_append_dropWhile, String.ofList_toList]
  rw [htext] at h
  have hbody := h.right
  rw [hsigns] at hbody
  refine ⟨?_, Nat.le_add_right .., (isBoundary_lead hbody _).1, Nat.sub_le .., (isBoundary_lead hbody _).2,
    isBoundary_trail hbody _⟩
  have hmarker := h.left
  rwa [hsigns] at hmarker

/-- A heading reads what its span reads, if its content does. -/
theorem headingNode_spans {text : String} {content : List Node} (h : Spans source start stop text)
    (hcontent : (headingParts start stop text).contentStart < (headingParts start stop text).contentEnd →
      Spans source (headingParts start stop text).contentStart (headingParts start stop text).contentEnd
        (fullTexts content)) :
    Spans source start stop
      (headingNode (encode source) (headingParts start stop text) stop content).fullText := by
  obtain ⟨hmarker, hlead, hstart, hend, hbstart, hbend⟩ := headingParts_spans h
  generalize headingParts start stop text = parts at hcontent hmarker hlead hstart hend hbstart hbend
  have hfront := gapIfAny_spans hmarker.isBoundary_stop hbstart hlead
  have hbmax : IsBoundary source (max parts.contentEnd parts.contentStart) := by
    rcases Nat.le_total parts.contentEnd parts.contentStart with hle | hle
    · rwa [Nat.max_eq_right hle]
    · rwa [Nat.max_eq_left hle]
  have hback := gapIfAny_spans hbmax h.isBoundary_stop (Nat.max_le.2 ⟨hend, hstart⟩)
  have hmiddle : Spans source parts.contentStart (max parts.contentEnd parts.contentStart)
      (fullTexts (if parts.contentStart < parts.contentEnd then [.inner .markup content] else [])) := by
    split
    · next hlt =>
      rw [Nat.max_eq_left (Nat.le_of_lt hlt)]
      simpa [fullTexts, Node.fullText] using hcontent hlt
    · next hge =>
      rw [Nat.max_eq_right (Nat.le_of_not_lt hge)]
      exact Spans.empty hbstart
  have hall := ((hmarker.append hfront).append hmiddle).append hback
  simpa [headingNode, Node.fullText, fullTexts, String.append_assoc] using hall

end

/-! ## Which nodes are calls -/

theorem mem_of_lookup_eq_some {entries : List (String × Kind)} {type : String} {kind : Kind}
    (h : entries.lookup type = some kind) : (type, kind) ∈ entries := by
  obtain ⟨front, back, rfl, -⟩ := List.lookup_eq_some_iff.1 h
  simp

theorem tokenLeaf_covered (type text : String) : Covered (tokenLeaf typst type text) := by
  intro hcall
  unfold tokenLeaf at hcall
  cases hlookup : typst.tokenKinds.lookup type with
  | none =>
    rw [hlookup] at hcall
    simp only [Option.getD_none, Node.kind] at hcall
    split at hcall <;> contradiction
  | some kind =>
    rw [hlookup] at hcall
    obtain rfl : kind = .funcCall := hcall
    have hnone : ∀ entry ∈ typstTokenKinds, entry.2 ≠ .funcCall := by decide
    exact absurd rfl (hnone _ (mem_of_lookup_eq_some hlookup))

theorem type_eq_call {parentType type : String} (h : namedKind? typst parentType type = some .funcCall) :
    type = "call" := by
  have hlookup : typst.nodeKinds.lookup type = some .funcCall := by
    unfold namedKind? at h
    split at h
    · split at h <;> cases h
    · exact h
  have hcall : ∀ entry ∈ typstNodeKinds, entry.2 = .funcCall → entry.1 = "call" := by decide
  exact hcall _ (mem_of_lookup_eq_some hlookup) rfl

/-- A named node that becomes a leaf is no call, as a call has children. -/
theorem leaf_covered {parentType type text : String} {start stop : Nat} {children : List Tree}
    {anonymous missing : Bool} (hleaf : type ∈ typst.leafTypes ∨ children.isEmpty)
    (hmissing : type ≠ "ERROR" ∧ missing = false) (hnamed : anonymous = false)
    (hcall : (Tree.node type start stop children anonymous missing).NoBareCall) :
    Covered (.leaf ((namedKind? typst parentType type).getD .text) text) := by
  intro hkind
  simp only [Node.kind] at hkind
  cases hlookup : namedKind? typst parentType type with
  | none => rw [hlookup] at hkind; cases hkind
  | some kind =>
    rw [hlookup] at hkind
    obtain rfl : kind = .funcCall := hkind
    obtain rfl := type_eq_call hlookup
    have hchildren : children ≠ [] := hcall rfl hnamed hmissing.2
    have hempty : children = [] := by
      rcases hleaf with hmem | hempty
      · exact absurd hmem (by decide)
      · exact List.isEmpty_iff.1 hempty
    exact absurd hempty hchildren

/-- A gap is white space or text. -/
theorem kind_of_mem_gapIfAny {source : Text.Bytes} {start stop : Nat} {node : Node}
    (h : node ∈ gapIfAny source start stop) : node.kind = .space ∨ node.kind = .text := by
  unfold gapIfAny at h
  split at h
  · obtain rfl := List.mem_singleton.1 h
    simp only [gap, Node.kind]
    split
    · exact .inl rfl
    · exact .inr rfl
  · cases h

theorem gapIfAny_covered (source : Text.Bytes) (start stop : Nat) :
    ∀ node ∈ gapIfAny source start stop, Covered node := by
  intro node hnode hcall
  rcases kind_of_mem_gapIfAny hnode with hkind | hkind <;> cases hkind.symm.trans hcall

theorem inner_covered (kind : Kind) (children : List Node) : Covered (.inner kind children) := fun _ => rfl

/-! ## The lowering -/

theorem exists_of_bind_eq_ok {ε α β : Type} {x : Except ε α} {f : α → Except ε β} {b : β} (h : x >>= f = .ok b) :
    ∃ a, x = .ok a ∧ f a = .ok b := by
  cases x with
  | error error => cases h
  | ok a => exact ⟨a, rfl, h⟩

theorem eq_ok_of_mapError {ε ε' α : Type} {f : ε → ε'} {x : Except ε α} {a : α} (h : x.mapError f = .ok a) :
    x = .ok a := by
  cases x with
  | error error => cases h
  | ok found =>
    cases h
    rfl

mutual

/-- The lowered node of a node reads what the span of the node reads. -/
theorem lower_spans {source parentType : String} {depth : Nat} (tree : Tree) {node : Node}
    (hplaced : ∀ t ∈ tree.subtrees, t.PlacedIn source) (hcalls : ∀ t ∈ tree.subtrees, t.NoBareCall)
    (h : lower typst (encode source) parentType depth tree = .ok node) :
    Spans source tree.start tree.stop node.fullText ∧ Covered node := by
  match tree with
  | .node type start stop children anonymous missing =>
    obtain ⟨hle, hstart, hstop⟩ := hplaced _ (Tree.mem_subtrees_self _)
    have hspan := textAt_spans hstart hstop hle
    have hplaced' : ∀ t ∈ Tree.subtreesAll children, t.PlacedIn source :=
      fun t ht => hplaced t (Tree.mem_subtrees_of_children ht)
    have hcalls' : ∀ t ∈ Tree.subtreesAll children, t.NoBareCall :=
      fun t ht => hcalls t (Tree.mem_subtrees_of_children ht)
    simp only [lower] at h
    split at h
    · cases h
    split at h
    · cases h
      exact ⟨hspan, fun hcall => by cases hcall⟩
    next hmissing =>
    split at h
    · cases h
      exact ⟨hspan, tokenLeaf_covered _ _⟩
    next hnamed =>
    split at h
    · cases h
      refine ⟨hspan, fun hcall => ?_⟩
      simp only [commentLeaf, Node.kind] at hcall
      split at hcall <;> cases hcall
    split at h
    · split at h
      · next hlt =>
        obtain ⟨content, hcontent, h⟩ := exists_of_bind_eq_ok h
        cases h
        obtain ⟨-, -, -, -, hbstart, hbend⟩ := headingParts_spans hspan
        refine ⟨headingNode_spans hspan fun _ => ?_, inner_covered _ _⟩
        exact (lowerAll_spans children hplaced' hcalls' hbstart hbend (Nat.le_of_lt hlt) hcontent).1
      · next hge =>
        cases h
        exact ⟨headingNode_spans hspan fun hlt => absurd hlt hge, inner_covered _ _⟩
    split at h
    · next hleaf =>
      cases h
      exact ⟨hspan, leaf_covered hleaf (by simpa using hmissing) (by simpa using hnamed)
        (hcalls _ (Tree.mem_subtrees_self _))⟩
    · obtain ⟨nodes, hnodes, h⟩ := exists_of_bind_eq_ok h
      cases h
      obtain ⟨htext, hcovered⟩ := lowerAll_spans children hplaced' hcalls' hstart hstop hle hnodes
      refine ⟨?_, inner_covered _ _⟩
      rwa [fullText_innerNode typst parentType type hcovered]
termination_by structural tree

/-- From the cursor to the end, the lowered children and the gaps between them read what the source reads. -/
theorem lowerAll_spans {source parentType : String} {depth cursor stop : Nat} (trees : List Tree)
    {nodes : List Node} (hplaced : ∀ t ∈ Tree.subtreesAll trees, t.PlacedIn source)
    (hcalls : ∀ t ∈ Tree.subtreesAll trees, t.NoBareCall) (hcursor : IsBoundary source cursor)
    (hstop : IsBoundary source stop) (hle : cursor ≤ stop)
    (h : lowerAll typst (encode source) parentType depth cursor stop trees = .ok nodes) :
    Spans source cursor stop (fullTexts nodes) ∧ ∀ node ∈ nodes, Covered node := by
  match trees with
  | [] =>
    rw [lowerAll] at h
    cases h
    exact ⟨gapIfAny_spans hcursor hstop hle, gapIfAny_covered _ _ _⟩
  | tree :: trees =>
    have hplaced' : ∀ t ∈ Tree.subtreesAll trees, t.PlacedIn source :=
      fun t ht => hplaced t (List.mem_append_right _ ht)
    have hcalls' : ∀ t ∈ Tree.subtreesAll trees, t.NoBareCall :=
      fun t ht => hcalls t (List.mem_append_right _ ht)
    rw [lowerAll] at h
    split at h
    · exact lowerAll_spans trees hplaced' hcalls' hcursor hstop hle h
    next hfits =>
    obtain ⟨node, hnode, h⟩ := exists_of_bind_eq_ok h
    obtain ⟨rest, hrest, h⟩ := exists_of_bind_eq_ok h
    cases h
    obtain ⟨htree, hbstart, hbstop⟩ := hplaced tree (List.mem_append_left _ (Tree.mem_subtrees_self tree))
    obtain ⟨hspan, hcovered⟩ := lower_spans tree (fun t ht => hplaced t (List.mem_append_left _ ht))
      (fun t ht => hcalls t (List.mem_append_left _ ht)) hnode
    obtain ⟨hspans, hcovereds⟩ := lowerAll_spans trees hplaced' hcalls' hbstop hstop (by omega) hrest
    have hgap := gapIfAny_spans hcursor hbstart (by omega)
    refine ⟨?_, ?_⟩
    · rw [Node.fullTexts_append]
      exact hgap.append (hspan.append hspans)
    · intro other hother
      rcases List.mem_append.1 hother with hother | hother
      · exact gapIfAny_covered _ _ _ other hother
      rcases List.mem_cons.1 hother with rfl | hother
      · exact hcovered
      · exact hcovereds other hother
termination_by structural trees

end

/-- A syntax tree reads its source from one end to the other. -/
theorem spans_lowerRoot {source : String} {root : Tree} {node : Node}
    (hplaced : ∀ t ∈ root.subtrees, t.PlacedIn source) (hcalls : ∀ t ∈ root.subtrees, t.NoBareCall)
    (h : lowerRoot typst (encode source) root = .ok node) : Spans source 0 source.utf8ByteSize node.fullText := by
  obtain ⟨children, hchildren, h⟩ := exists_of_bind_eq_ok h
  cases h
  rw [Text.length_encode] at hchildren
  have hspans := (lowerAll_spans root.children (fun t ht => hplaced t (Tree.mem_subtrees_of_children ht))
    (fun t ht => hcalls t (Tree.mem_subtrees_of_children ht)) (Text.isBoundary_zero source) (Text.isBoundary_size source)
    (Nat.zero_le _) hchildren).1
  cases children with
  | nil => exact hspans
  | cons child children => exact hspans

/-- **The lowered tree covers its source.** Whatever the parser's tree, as long as its spans lie between characters and
no call is without children, the text of the lowered tree is the source, byte for byte (`lower_tree`;
specification, section 10.2). -/
theorem fullText_lowerRoot {source : String} {root : Tree} {node : Node}
    (hplaced : ∀ t ∈ root.subtrees, t.PlacedIn source) (hcalls : ∀ t ∈ root.subtrees, t.NoBareCall)
    (h : lowerRoot typst (encode source) root = .ok node) :
    node.fullText = source ∧ node.byteLen = source.utf8ByteSize := by
  obtain ⟨children, hchildren, h⟩ := exists_of_bind_eq_ok h
  cases h
  rw [Text.length_encode] at hchildren
  have hspans := (lowerAll_spans root.children
    (fun t ht => hplaced t (Tree.mem_subtrees_of_children ht))
    (fun t ht => hcalls t (Tree.mem_subtrees_of_children ht))
    (Text.isBoundary_zero source) (Text.isBoundary_size source) (Nat.zero_le _) hchildren).1
  have htext : fullTexts children = source := hspans.eq_source
  have hroot : (if children.isEmpty then Node.leaf .markup "" else .inner .markup children).fullText = source := by
    split
    · next hempty =>
      rw [List.isEmpty_iff.1 hempty] at htext
      exact htext
    · exact htext
  exact ⟨hroot, by rw [← Node.utf8ByteSize_fullText, hroot]⟩

/-- The definition of a function, with a child out of order and one that overlaps another. -/
def functionTree : Tree :=
  .node "source_file" 0 15
    [.node "#" 0 1 [] true false,
      .node "let" 1 14
        [.node "let" 1 4 [] true false,
          .node "call" 5 9
            [.node "ident" 5 6 [] false false,
              .node "group" 6 9 [.node "ident" 7 8 [] false false] false false] false false,
          .node "=" 10 11 [] true false, .node "text" 12 14 [] false false,
          .node "ident" 5 6 [] false false] false false,
      .node "ident" 7 8 [] false false] false false

/-- The definition of a function after lowering. -/
def functionNode : Node :=
  .inner .markup
    [.leaf .hash "#",
      .inner .letBinding
        [.leaf .letKeyword "let", .leaf .space " ",
          .inner .closure
            [.leaf .ident "f",
              .inner .params [.leaf .text "(", .leaf .ident "x", .leaf .text ")"],
              .leaf .space " ", .leaf .eq "=", .leaf .space " ", .leaf .text "é"]],
      .leaf .text "."]

theorem fullText_lowerRoot_function :
    (∀ t ∈ functionTree.subtrees, t.PlacedIn "#let f(x) = é.") ∧ (∀ t ∈ functionTree.subtrees, t.NoBareCall) ∧
      lowerRoot typst (encode "#let f(x) = é.") functionTree = .ok functionNode ∧
      functionNode.fullText = "#let f(x) = é." ∧ functionNode.byteLen = "#let f(x) = é.".utf8ByteSize := by
  have hplaced : ∀ t ∈ functionTree.subtrees, t.PlacedIn "#let f(x) = é." := by decide +kernel
  have hcalls : ∀ t ∈ functionTree.subtrees, t.NoBareCall := by decide
  have hlower : lowerRoot typst (encode "#let f(x) = é.") functionTree = .ok functionNode := by rfl
  exact ⟨hplaced, hcalls, hlower, fullText_lowerRoot hplaced hcalls hlower⟩

end DocOutline.Grammar
