import DocOutline.Proofs.Grammar.Survivors

/-!
# Lowered definitions

What the lowering makes of the two constructs that define functions. A let whose bound side is a call becomes a binding
whose last child is a closure, with the name of the call in front (`lower_let`); a lambda becomes a closure whose first
child is no identifier (`lower_lambda`), because the lowering puts a lone parameter into a list of parameters.

Nodes of most other types keep their children as they are (`innerNode_of_isOpen`).
-/

namespace DocOutline

/-- Whether a walk goes through all children of a node of this kind in the naming context around the node. -/
def Syntax.Kind.isOpen : Syntax.Kind → Bool
  | .label | .ident | .refMarker | .letBinding | .forLoop | .closure | .params | .fieldAccess | .named | .moduleImport =>
    false
  | kind => !(kind.isTrivia || kind.isKeyword || kind.isError)

namespace Grammar

open DocOutline.Syntax (Kind Node StructureError)
open DocOutline.Syntax.Node (byteLens fullTexts)
open Text (IsBoundary Spans encode)

/-! ## Shapes -/

namespace Tree

/-- Whether a node is a token of the given type that was not put in. -/
def IsToken (type : String) (tree : Tree) : Prop :=
  tree.type = type ∧ tree.isAnonymous = true ∧ tree.isMissing = false

instance (type : String) (tree : Tree) : Decidable (tree.IsToken type) := inferInstanceAs (Decidable (_ ∧ _))

/-- Whether a node is nothing but white space or a comment. -/
def IsSpacer (source : String) (tree : Tree) : Prop :=
  tree.type ≠ "ERROR" ∧ tree.isMissing = false ∧
    if tree.isAnonymous then
      typst.tokenKinds.lookup tree.type = none ∧ Text.isBlankText (textAt (encode source) tree.start tree.stop)
    else tree.type ∈ typst.commentTypes ∨ (typst.nodeKinds.lookup tree.type).any (·.isTrivia)

instance (source : String) (tree : Tree) : Decidable (tree.IsSpacer source) := inferInstanceAs (Decidable (_ ∧ _ ∧ _))

/-- Whether a let defines a function: behind the keyword and what spaces the two out, it has a call, which starts with a
name. What follows the call is left open. -/
def DefinesFunction (source : String) (tree call name : Tree) : Prop :=
  tree.IsNamed "let" ∧ call.IsNamed "call" ∧ name.IsNamed "ident" ∧ name.start = call.start ∧
    call.children.head? = some name ∧ ∃ keyword spacers rest, keyword.IsToken "let" ∧
      (∀ spacer ∈ spacers, spacer.IsSpacer source) ∧ tree.children = keyword :: (spacers ++ call :: rest)

/-- Whether a node becomes an expression beneath a lambda. -/
def IsExpression (tree : Tree) : Prop :=
  tree.IsNamed tree.type ∧ tree.type ≠ "ERROR" ∧ tree.type ∉ typst.commentTypes ∧ tree.type ∉ typst.headingTypes ∧
    (typst.nodeKinds.lookup tree.type).any (·.isExpr)

instance (tree : Tree) : Decidable tree.IsExpression := inferInstanceAs (Decidable (_ ∧ _ ∧ _ ∧ _ ∧ _))

/-- Whether a lambda has a body: an expression behind its arrow. -/
def HasBody (tree : Tree) : Prop :=
  ∃ front arrow back, tree.children = front ++ arrow :: back ∧ arrow.IsToken "=>" ∧ ∃ body ∈ back, body.IsExpression

/-- Whether the nodes of a type are open. Types that the grammar does not know stand for markup. -/
def IsOpen (tree : Tree) : Prop := ((typst.nodeKinds.lookup tree.type).getD .markup).isOpen

instance (tree : Tree) : Decidable tree.IsOpen := inferInstanceAs (Decidable (_ = true))

end Tree

variable {source parentType : String} {depth : Nat} {tree call name : Tree} {node : Node} {nodes : List Node}

/-! ## Kinds -/

theorem namedKind?_of_lookup {type : String} {kind : Kind} (hkind : typst.nodeKinds.lookup type = some kind)
    (hcontent : kind ≠ .contentBlock) : namedKind? typst parentType type = some kind := by
  unfold namedKind?
  rw [hkind]
  cases kind <;> first | rfl | exact absurd rfl hcontent

theorem kind_innerNode {type : String} (hgroup : type ∉ typst.groupTypes) :
    (innerNode typst parentType type nodes).kind = (namedKind? typst parentType type).getD .markup := by
  by_cases hlambda : type ∈ typst.lambdaTypes
  · simp only [innerNode, if_neg hgroup, if_pos hlambda, Node.kind]
  by_cases hlet : type ∈ typst.letTypes
  · simp only [innerNode, if_neg hgroup, if_neg hlambda, if_pos hlet, Node.kind]
  · simp only [innerNode, if_neg hgroup, if_neg hlambda, if_neg hlet, Node.kind]

/-- Apart from groups and content, the type of a node tells the kind of its lowered node. -/
theorem kind_lower {bytes : Text.Bytes} {type : String} {kind : Kind} (hnamed : tree.IsNamed type)
    (hplain : type ≠ "ERROR" ∧ type ∉ typst.commentTypes ∧ type ∉ typst.headingTypes) (hgroup : type ∉ typst.groupTypes)
    (hkind : typst.nodeKinds.lookup type = some kind) (hcontent : kind ≠ .contentBlock)
    (h : lower typst bytes parentType depth tree = .ok node) : node.kind = kind := by
  have hlookup : namedKind? typst parentType type = some kind := namedKind?_of_lookup hkind hcontent
  rcases lower_named hnamed hplain h with ⟨-, rfl⟩ | ⟨-, nodes, -, rfl⟩
  · rw [hlookup]
    rfl
  · rw [kind_innerNode hgroup, hlookup]
    rfl

/-- An open node keeps its children as they are. -/
theorem innerNode_of_isOpen (parentType : String) (nodes : List Node) (hopen : tree.IsOpen) :
    ∃ kind : Kind, kind.isOpen ∧ innerNode typst parentType tree.type nodes = .inner kind nodes := by
  generalize htype : tree.type = type
  rw [Tree.IsOpen, htype] at hopen
  have hlambda : type ∉ typst.lambdaTypes := fun h => by
    obtain rfl : type = "lambda" := by simpa [typst] using h
    exact absurd hopen (by decide)
  have hlet : type ∉ typst.letTypes := fun h => by
    obtain rfl : type = "let" := by simpa [typst] using h
    exact absurd hopen (by decide)
  have hkind : ((namedKind? typst parentType type).getD .markup).isOpen := by
    unfold namedKind?
    split
    · split <;> rfl
    · exact hopen
  have hgroupKind : (groupKind nodes).isOpen := by
    unfold groupKind
    split_ifs <;> rfl
  have hkeeps : ∀ {kind : Kind}, kind.isOpen →
      (if kind = .letBinding ∨ kind = .forLoop then markDestructuring nodes else nodes) = nodes := by
    intro kind hkind
    rw [if_neg]
    rintro (rfl | rfl) <;> cases hkind
  unfold innerNode
  by_cases hgroup : type ∈ typst.groupTypes
  · by_cases hcall : parentType ∈ typst.callTypes
    · exact ⟨.args, rfl, by simp only [if_pos hgroup, if_pos hcall, hkeeps (show Kind.isOpen .args from rfl)]⟩
    · exact ⟨groupKind nodes, hgroupKind, by simp only [if_pos hgroup, if_neg hcall, hkeeps hgroupKind]⟩
  · exact ⟨_, hkind, by simp only [if_neg hgroup, if_neg hlambda, if_neg hlet, hkeeps hkind]⟩

/-! ## Tokens and comments -/

/-- A token becomes a leaf with the kind of its type. -/
theorem lower_token {bytes : Text.Bytes} (hreal : tree.type ≠ "ERROR" ∧ tree.isMissing = false)
    (htoken : tree.isAnonymous = true) (h : lower typst bytes parentType depth tree = .ok node) :
    node = tokenLeaf typst tree.type (textAt bytes tree.start tree.stop) := by
  obtain ⟨type, start, stop, children, anonymous, missing⟩ := tree
  obtain ⟨herror, rfl⟩ : type ≠ "ERROR" ∧ missing = false := hreal
  obtain rfl : anonymous = true := htoken
  simp only [lower, herror, if_false, if_true, Bool.false_eq_true, or_self] at h
  split at h
  · cases h
  · cases h
    rfl

theorem lower_comment {bytes : Text.Bytes} (hreal : tree.type ≠ "ERROR" ∧ tree.isMissing = false)
    (hnamed : tree.isAnonymous = false) (hcomment : tree.type ∈ typst.commentTypes)
    (h : lower typst bytes parentType depth tree = .ok node) :
    node = commentLeaf (textAt bytes tree.start tree.stop) := by
  obtain ⟨type, start, stop, children, anonymous, missing⟩ := tree
  obtain ⟨herror, rfl⟩ : type ≠ "ERROR" ∧ missing = false := hreal
  obtain rfl : anonymous = false := hnamed
  simp only [Tree.type] at hcomment
  simp only [lower, herror, hcomment, if_false, if_true, Bool.false_eq_true, or_self] at h
  split at h
  · cases h
  · cases h
    rfl

/-! ## Lambdas -/

theorem kind_asParams (node : Node) : (asParams node).kind = .params := by
  unfold asParams
  split
  · rfl
  · cases node <;> rfl

/-- The first child of a closure that a lambda becomes is no identifier. -/
theorem head?_wrapParams (nodes : List Node) : ∀ node ∈ (wrapParams nodes).head?, node.kind ≠ .ident := by
  intro node hnode
  cases nodes with
  | nil => cases hnode
  | cons first rest =>
    rw [wrapParams] at hnode
    split at hnode
    · next harrow =>
      cases hnode
      simp [harrow]
    split at hnode
    · cases hnode
      rw [kind_asParams]
      decide
    · next hother =>
      cases hnode
      exact fun hident => hother (.inl hident)

/-- A lambda becomes a closure that does not start with an identifier. -/
theorem lower_lambda {bytes : Text.Bytes} (hnamed : tree.IsNamed "lambda")
    (h : lower typst bytes parentType depth tree = .ok node) :
    node.kind = .closure ∧ ∀ first ∈ node.children.head?, first.kind ≠ .ident := by
  rcases lower_named hnamed (by decide) h with ⟨-, rfl⟩ | ⟨-, nodes, -, rfl⟩
  · exact ⟨rfl, nofun⟩
  · exact ⟨rfl, head?_wrapParams nodes⟩

/-- What stands behind the arrow is not regrouped. -/
theorem mem_wrapParams {before after : List Node} {arrow body : Node} (harrow : arrow.kind = .arrow)
    (hbody : body ∈ after) : body ∈ wrapParams (before ++ arrow :: after) := by
  induction before with
  | nil =>
    rw [List.nil_append, wrapParams, if_pos harrow]
    exact List.mem_cons_of_mem _ hbody
  | cons first before ih =>
    rw [List.cons_append, wrapParams]
    split
    · exact List.mem_cons_of_mem _ (List.mem_append_right _ (List.mem_cons_of_mem _ hbody))
    split
    · exact List.mem_cons_of_mem _ (List.mem_append_right _ (List.mem_cons_of_mem _ hbody))
    · exact List.mem_cons_of_mem _ ih

theorem isExpr_groupKind (nodes : List Node) : (groupKind nodes).isExpr := by
  unfold groupKind
  split_ifs <;> rfl

theorem isExpr_lower {bytes : Text.Bytes} (hexpr : tree.IsExpression)
    (h : lower typst bytes "lambda" depth tree = .ok node) : node.kind.isExpr := by
  obtain ⟨hnamed, herror, hcomment, hheading, hexpr⟩ := hexpr
  obtain ⟨kind, hkind, hexpr⟩ := (Option.any_eq_true ..).1 hexpr
  -- Content beneath a lambda is no part of a section.
  have hlookup : namedKind? typst "lambda" tree.type = some kind := by
    unfold namedKind?
    rw [hkind]
    cases kind <;> rfl
  rcases lower_named hnamed ⟨herror, hcomment, hheading⟩ h with ⟨-, rfl⟩ | ⟨-, nodes, -, rfl⟩
  · rw [hlookup]
    exact hexpr
  by_cases hgroup : tree.type ∈ typst.groupTypes
  · have hcall : "lambda" ∉ typst.callTypes := by decide
    have hinner : (innerNode typst "lambda" tree.type nodes).kind = groupKind nodes := by
      simp only [innerNode, if_pos hgroup, if_neg hcall, Node.kind]
    rw [hinner]
    exact isExpr_groupKind nodes
  · rw [kind_innerNode hgroup, hlookup]
    exact hexpr

/-- A lambda with a body becomes a closure with an expression. -/
theorem exists_isExpr_of_hasBody (hplaced : tree.WellPlaced source) (hnamed : tree.IsNamed "lambda") (hbody : tree.HasBody)
    (h : lower typst (encode source) parentType depth tree = .ok node) : ∃ body ∈ node.children, body.kind.isExpr := by
  obtain ⟨front, arrow, back, hchildren, ⟨harrow, htoken, hmissing⟩, body, hmem, hexpr⟩ := hbody
  obtain ⟨nodes, hnodes, rfl⟩ := lower_inner hnamed (by decide) (by decide) (by simp [hchildren]) h
  have hwell : ∀ t ∈ tree.children, t.WellPlaced source := fun t ht => hplaced.child ht
  have hsorted := hplaced.ordered.2
  have hinside := hplaced.ordered.1
  rw [hchildren] at hwell hsorted hinside hnodes
  obtain ⟨hle, -, hbstop⟩ := (hwell arrow (by simp)).placed
  obtain ⟨hfront, hback⟩ := hinside arrow (by simp)
  obtain ⟨before, slot, after, -, hslot, hafter, rfl⟩ := exists_slot
    (fun t ht => (List.pairwise_append.1 hsorted).2.2 t ht arrow (List.mem_cons_self ..)) hfront hle hback hnodes
  have hkind : slot.kind = .arrow := by
    rw [lower_token ⟨by rw [harrow]; decide, hmissing⟩ htoken hslot, harrow]
    rfl
  obtain ⟨-, hsorted, -⟩ := List.pairwise_append.1 hsorted
  obtain ⟨hbehind, hsorted⟩ := List.pairwise_cons.1 hsorted
  obtain ⟨-, lowered, later, hlowered, -, rfl⟩ := exists_slot_of_mem (fun t ht => hwell t (by simp [ht])) hsorted hmem hbstop
    (hbehind body hmem) (hinside body (by simp [hmem])).2 hafter
  exact ⟨lowered, mem_wrapParams hkind (by simp), isExpr_lower hexpr hlowered⟩

/-! ## Lets -/

/-- Whether a node can stand between a let and the closure in it: white space, a comment, the keyword, or a gap with
other text. -/
def IsPreface (node : Node) : Prop :=
  node.kind ∈ [.space, .lineComment, .blockComment, .letKeyword] ∨ node.kind = .text ∧ 0 < node.byteLen

/-- Neither the search for a call nor that for a bracketed pattern ends at such a node, and it is no closure. -/
theorem IsPreface.kind_ne (h : IsPreface node) :
    (node.kind ≠ .eq ∧ node.kind ≠ .funcCall) ∧ (node.kind ≠ .array ∧ node.kind ≠ .dict) ∧ node.kind ≠ .closure := by
  have hmem : node.kind ∈ [.space, .lineComment, .blockComment, .letKeyword, .text] := by
    rcases h with h | ⟨h, -⟩
    · exact List.mem_append_left [.text] h
    · simp [h]
  generalize node.kind = kind at hmem
  revert hmem
  cases kind <;> decide

theorem isPreface_of_isTrivia (h : node.kind.isTrivia) : IsPreface node := by
  refine .inl ?_
  generalize node.kind = kind at h
  cases kind <;> first | decide | cases h

theorem IsPreface.not_isPattern (h : IsPreface node) (hempty : node.byteLen = 0) : node.kind.isPattern = false := by
  rcases h with h | ⟨-, hpos⟩
  · simp only [List.mem_cons, List.not_mem_nil, or_false] at h
    rcases h with h | h | h | h <;> rw [h] <;> rfl
  · omega

theorem isPreface_of_isSpacer (hspacer : tree.IsSpacer source)
    (h : lower typst (encode source) parentType depth tree = .ok node) : IsPreface node := by
  obtain ⟨herror, hmissing, hspacer⟩ := hspacer
  refine isPreface_of_isTrivia ?_
  by_cases hanonymous : tree.isAnonymous
  · rw [if_pos hanonymous] at hspacer
    rw [lower_token ⟨herror, hmissing⟩ hanonymous h, tokenLeaf, hspacer.1, if_pos hspacer.2]
    rfl
  rw [if_neg hanonymous] at hspacer
  rw [Bool.not_eq_true] at hanonymous
  by_cases hcomment : tree.type ∈ typst.commentTypes
  · rw [lower_comment ⟨herror, hmissing⟩ hanonymous hcomment h]
    simp only [commentLeaf, Node.kind]
    split <;> rfl
  · obtain ⟨kind, hkind, htrivia⟩ := (Option.any_eq_true ..).1 (hspacer.resolve_left hcomment)
    have hother : ∀ {type : String} {kind' : Kind}, typst.nodeKinds.lookup type = some kind' →
        kind'.isTrivia = false → tree.type ≠ type := by
      rintro type kind' hkind' hnot rfl
      cases hkind.symm.trans hkind'
      rw [htrivia] at hnot
      cases hnot
    have hheading : tree.type ∉ typst.headingTypes := by
      simpa [typst] using hother (show typst.nodeKinds.lookup "heading" = some .heading from rfl) rfl
    have hgroup : tree.type ∉ typst.groupTypes := by
      simpa [typst] using hother (show typst.nodeKinds.lookup "group" = some .parenthesized from rfl) rfl
    rw [kind_lower ⟨rfl, hanonymous, hmissing⟩ ⟨herror, hcomment, hheading⟩ hgroup hkind (by rintro rfl; cases htrivia) h]
    exact htrivia

theorem isPreface_of_letKeyword {bytes : Text.Bytes} (hkeyword : tree.IsToken "let")
    (h : lower typst bytes parentType depth tree = .ok node) : IsPreface node := by
  obtain ⟨htype, htoken, hmissing⟩ := hkeyword
  have hkind : ∀ text, (tokenLeaf typst "let" text).kind = .letKeyword := fun _ => rfl
  refine .inl ?_
  rw [lower_token ⟨by rw [htype]; decide, hmissing⟩ htoken h, htype, hkind]
  decide

/-- A call in a binding is taken apart into a closure, if nothing in front of it ends the search. -/
theorem wrapClosure_append {before after : List Node} (hcall : node.kind = .funcCall)
    (hbefore : ∀ earlier ∈ before, earlier.kind ≠ .eq ∧ earlier.kind ≠ .funcCall) :
    wrapClosure (before ++ node :: after) = before ++ [.inner .closure (node.children.map signaturePart ++ after)] := by
  induction before with
  | nil => simp [wrapClosure, hcall]
  | cons first before ih =>
    obtain ⟨⟨heq, hcall'⟩, hbefore⟩ := List.forall_mem_cons.1 hbefore
    rw [List.cons_append, wrapClosure, if_neg heq, if_neg hcall', ih hbefore, List.cons_append]

theorem markDestructuring_eq_self (h : ∀ node ∈ nodes, node.kind ≠ .array ∧ node.kind ≠ .dict) :
    markDestructuring nodes = nodes := by
  induction nodes with
  | nil => rfl
  | cons first nodes ih =>
    obtain ⟨hfirst, hrest⟩ := List.forall_mem_cons.1 h
    rw [markDestructuring, if_neg (not_or.2 hfirst), ih hrest, ite_self]

/-- A let of a call becomes a binding of a closure. -/
theorem innerNode_let {before signature after : List Node} {first : Node} (hbefore : ∀ earlier ∈ before, IsPreface earlier)
    (hfirst : first.kind = .ident) :
    innerNode typst parentType "let" (before ++ .inner .funcCall (first :: signature) :: after) =
      .inner .letBinding (before ++ [.inner .closure (first :: (signature.map signaturePart ++ after))]) := by
  have hsignature : signaturePart first = first := by
    unfold signaturePart
    rw [if_neg]
    simp [hfirst, isBracketed]
  have hwrap : wrapClosure (before ++ .inner .funcCall (first :: signature) :: after) =
      before ++ [.inner .closure (first :: (signature.map signaturePart ++ after))] := by
    rw [wrapClosure_append rfl fun earlier hmem => (hbefore earlier hmem).kind_ne.1]
    simp only [Node.children, List.map_cons, hsignature, List.cons_append]
  have hmark : markDestructuring (before ++ [.inner .closure (first :: (signature.map signaturePart ++ after))]) =
      before ++ [.inner .closure (first :: (signature.map signaturePart ++ after))] := by
    refine markDestructuring_eq_self fun node hmem => ?_
    rcases List.mem_append.1 hmem with hmem | hmem
    · exact (hbefore node hmem).kind_ne.2.1
    · simp [List.mem_singleton.1 hmem, Node.kind]
  calc innerNode typst parentType "let" (before ++ .inner .funcCall (first :: signature) :: after)
      = .inner .letBinding (markDestructuring (wrapClosure (before ++ .inner .funcCall (first :: signature) :: after))) := rfl
    _ = _ := by rw [hwrap, hmark]

/-- A call with a name in front becomes a call with that name in front. -/
theorem lower_call (hplaced : call.WellPlaced source) (hcall : call.IsNamed "call") (hname : name.IsNamed "ident")
    (hhead : call.children.head? = some name) (hstart : name.start = call.start)
    (h : lower typst (encode source) parentType depth call = .ok node) :
    ∃ first rest, node = .inner .funcCall (first :: rest) ∧ first.kind = .ident ∧
      first.fullText = textAt (encode source) name.start name.stop := by
  obtain ⟨arguments, harguments⟩ := List.head?_eq_some_iff.1 hhead
  have hmem : name ∈ call.children := List.mem_of_head? hhead
  obtain ⟨nodes, hnodes, rfl⟩ := lower_inner hcall (by decide) (by decide) (List.ne_nil_of_mem hmem) h
  have hwell := hplaced.child hmem
  obtain ⟨hle, hbstart, hbstop⟩ := hwell.placed
  obtain ⟨-, hstop⟩ := hplaced.ordered.1 name hmem
  rw [harguments, ← List.nil_append (name :: arguments)] at hnodes
  obtain ⟨before, first, rest, hbefore, hfirst, -, rfl⟩ := exists_slot (by simp) hstart.ge hle hstop hnodes
  rw [lowerAll, gapIfAny, if_neg (by omega)] at hbefore
  cases hbefore
  refine ⟨first, rest, rfl, ?_, ?_⟩
  · exact kind_lower hname (by decide) (by decide) rfl (by decide) hfirst
  · exact (spans_lower hwell.sound hfirst).text_unique (textAt_spans hbstart hbstop hle)

theorem kind_lower_let {bytes : Text.Bytes} (hnamed : tree.IsNamed "let")
    (h : lower typst bytes parentType depth tree = .ok node) : node.kind = .letBinding :=
  kind_lower hnamed (by decide) (by decide) rfl (by decide) h

/-- **A let that defines a function becomes a binding of a closure.** The closure is the last child and starts where the
call does, and its first child is the name; in front of it there is nothing that could be bound instead. -/
theorem lower_let (hplaced : tree.WellPlaced source) (hdefines : tree.DefinesFunction source call name)
    (h : lower typst (encode source) parentType depth tree = .ok node) :
    ∃ before first rest, node = .inner .letBinding (before ++ [.inner .closure (first :: rest)]) ∧
      tree.start + byteLens before = call.start ∧ (∀ earlier ∈ before, IsPreface earlier) ∧ first.kind = .ident ∧
      first.fullText = textAt (encode source) name.start name.stop := by
  obtain ⟨hlet, hcall, hname, hstart, hhead, keyword, spacers, rest, hkeyword, hspacers, hchildren⟩ := hdefines
  have hmem : call ∈ tree.children := by simp [hchildren]
  obtain ⟨nodes, hnodes, rfl⟩ := lower_inner hlet (by decide) (by decide) (List.ne_nil_of_mem hmem) h
  have hwell : ∀ t ∈ tree.children, t.WellPlaced source := fun t ht => hplaced.child ht
  obtain ⟨-, hbstart, -⟩ := hplaced.placed
  obtain ⟨hle, hbcall, -⟩ := (hwell call hmem).placed
  obtain ⟨hfront, hback⟩ := hplaced.ordered.1 call hmem
  have hsorted := hplaced.ordered.2
  rw [hchildren, ← List.cons_append] at hnodes hsorted hwell
  have hearlier : ∀ t ∈ keyword :: spacers, t.WellPlaced source := fun t ht => hwell t (List.mem_append_left _ ht)
  obtain ⟨before, slot, after, hbefore, hslot, -, rfl⟩ := exists_slot
    (fun t ht => (List.pairwise_append.1 hsorted).2.2 t ht call (List.mem_cons_self ..)) hfront hle hback hnodes
  obtain ⟨hlength, -⟩ := lowerAll_covered (fun t ht => (hearlier t ht).sound) hbstart hbcall hfront hbefore
  obtain ⟨first, signature, rfl, hident, htext⟩ := lower_call (hwell call (by simp)) hcall hname hhead hstart hslot
  have hpreface : ∀ earlier ∈ before, IsPreface earlier := by
    intro earlier hmem
    rcases mem_lowerAll hearlier hbstart hbcall hbefore hmem with ⟨t, ht, hlower⟩ | ⟨hspace | htext, hpos⟩
    · rcases List.mem_cons.1 ht with rfl | ht
      · exact isPreface_of_letKeyword hkeyword hlower
      · exact isPreface_of_isSpacer (hspacers t ht) hlower
    · exact .inl (by simp [hspace])
    · exact .inr ⟨htext, hpos⟩
  exact ⟨before, first, signature.map signaturePart ++ after, innerNode_let hpreface hident, hlength, hpreface, hident,
    htext⟩

end Grammar

end DocOutline
