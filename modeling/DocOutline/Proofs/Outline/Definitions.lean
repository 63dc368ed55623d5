import DocOutline.Proofs.Grammar.Definitions
import DocOutline.Proofs.Outline.Functions

/-!
# Definitions of functions

What defines a function in a parser's tree is a function of the outline, if the walk comes to its lowered node: a let
whose bound side is a call, under the name of that call, and a lambda without a name. The walk does come to a let
around which all nodes are open (`reached_of_exposed`); it does not look into imports, for example, and so not at what is
defined there.

Main statement `definitions_of_extract`.
-/

namespace DocOutline

open DocOutline.Grammar (Tree lower lowerRoot textAt typst IsPreface IsRegrouped IsStable)
open DocOutline.Symbol (Entry Naming Scope classify entryAt)
open DocOutline.Syntax (Cursor Node)
open Text (encode)

/-! ## Places of lowered nodes -/

namespace Grammar.Tree

/-- Whether the node at a place is what a node of the parser becomes, and starts where that starts. -/
def LoweredAt (source : String) (tree : Tree) (here : Cursor) : Prop :=
  here.offset = tree.start ∧ ∃ parentType depth, lower typst (encode source) parentType depth tree = .ok here.node

/-- The nodes beneath a root around which all nodes but the root are open. -/
inductive Exposed (source : String) (root : Tree) : Tree → Prop
  | child {tree} (h : tree ∈ root.children) : Exposed source root tree
  | beneath {tree child} (h : Exposed source root tree) (hopen : tree.IsOpen) (hgoes : tree.GoesTo source child) :
      Exposed source root child

variable {source : String} {root tree call name : Tree} {node : Node} {here : Cursor}

theorem Exposed.lowered (h : root.Exposed source tree) : root.Lowered source tree := by
  induction h with
  | child h => exact .child h
  | beneath _ _ hgoes ih => exact .beneath ih hgoes

theorem LoweredAt.stop_eq (h : tree.LoweredAt source here) (hsound : tree.SoundIn source) : here.stop = tree.stop := by
  obtain ⟨hoffset, _, _, hlower⟩ := h
  rw [Cursor.stop, hoffset, Grammar.byteLen_lower hsound hlower]

/-- A node that is kept has a place, if its lowered node survives the regrouping of others. -/
theorem Kept.exists_place (h : root.Kept source tree) (hsound : root.SoundIn source)
    (hroot : lowerRoot typst (encode source) root = .ok node)
    (hkind : ∀ parentType depth lowered, lower typst (encode source) parentType depth tree = .ok lowered →
      ¬ IsRegrouped lowered.kind) :
    ∃ here ∈ (Cursor.root node).places, tree.LoweredAt source here := by
  obtain ⟨parentType, depth, lowered, hlower, hhas⟩ := h.has hsound hroot
  have hself : (Cursor.root node).node.Has (Cursor.root node).offset tree.start lowered :=
    hhas _ _ (hkind _ _ _ hlower) .self
  obtain ⟨here, hhere, hoffset, rfl⟩ := Cursor.exists_place_of_has hself
  exact ⟨here, hhere, hoffset, parentType, depth, hlower⟩

/-- In a tree in order, a definition that the lowering comes to has a place. -/
theorem Lowered.exists_place (h : root.Lowered source tree) (hplaced : root.WellPlaced source)
    (hroot : lowerRoot typst (encode source) root = .ok node)
    (hstable : ∀ parentType depth lowered, lower typst (encode source) parentType depth tree = .ok lowered →
      IsStable lowered.kind) :
    tree.WellPlaced source ∧ ∃ here ∈ (Cursor.root node).places, tree.LoweredAt source here := by
  have hkept := h.kept hplaced
  exact ⟨h.wellPlaced hplaced, hkept.exists_place hplaced.sound hroot fun _ _ _ hlower =>
    (hstable _ _ _ hlower).not_isRegrouped⟩

end Grammar.Tree

namespace Outline

variable {source : String} {root tree call name : Tree} {node : Node} {visit start : Visit} {child here : Cursor}

/-! ## Open nodes -/

theorem Visit.beneath_of_isOpen (hopen : visit.here.kind.isOpen) (hchild : child ∈ visit.here.children) :
    ⟨visit.naming, child⟩ ∈ visit.beneath := by
  have hnaming : namingBeneath visit.here.kind visit.naming = visit.naming := by
    unfold namingBeneath
    split <;> first | rfl | (next hkind => rw [hkind] at hopen; cases hopen)
  rw [beneath, hnaming]
  exact List.mem_map_of_mem hchild

theorem Visit.parts_of_isOpen {scope : Scope} (hopen : visit.here.kind.isOpen) : visit.parts scope = visit.beneath := by
  unfold parts
  generalize visit.here.kind = kind at hopen
  cases kind <;> first | rfl | cases hopen

/-- Beneath an open node all children are reached, whether it is an entry or not. -/
theorem Reached.of_isOpen (h : Reached .symbol start visit) (hopen : visit.here.kind.isOpen)
    (hchild : child ∈ visit.here.children) : Reached .symbol start ⟨visit.naming, child⟩ := by
  have hbeneath := Visit.beneath_of_isOpen hopen hchild
  have hclass : ∃ symbol?, classify visit.here .symbol visit.naming = .ok symbol? := by
    unfold classify
    split
    · next hlabel => rw [hlabel.1] at hopen; cases hopen
    split
    · next hident => rw [hident.1] at hopen; cases hopen
    split_ifs <;> exact ⟨_, rfl⟩
  obtain ⟨symbol?, hclass⟩ := hclass
  cases symbol? with
  | some symbol => exact .beneath h hclass hbeneath
  | none =>
    refine .parts h hclass (fun _ hkind => ?_) (by rwa [Visit.parts_of_isOpen hopen])
    rw [hkind] at hopen
    cases hopen

/-- The walk comes to every child that has a slot in an open node. -/
theorem Reached.slot {before after : List Node} (h : Reached .symbol start ⟨.reference, here⟩) (hopen : here.kind.isOpen)
    (hslot : here.node.children = before ++ node :: after) :
    ∃ child, Reached .symbol start ⟨.reference, child⟩ ∧ child.node = node ∧
      child.offset = here.offset + Node.byteLens before := by
  obtain ⟨child, hchild, hnode, hoffset⟩ := Cursor.exists_child hslot
  exact ⟨child, h.of_isOpen hopen hchild, hnode, hoffset⟩

/-- The walk comes to what is kept beneath an open node. -/
theorem Reached.of_keeps {inner : Tree} (h : Reached .symbol start ⟨.reference, here⟩) (hat : tree.LoweredAt source here)
    (hsound : tree.SoundIn source) (hopen : tree.IsOpen) (hkeeps : tree.Keeps source inner) :
    ∃ place, inner.LoweredAt source place ∧ Reached .symbol start ⟨.reference, place⟩ := by
  obtain ⟨hoffset, parentType, depth, hlower⟩ := hat
  obtain ⟨parentType', depth', lowered, before, after, hlowered, hslot⟩ := hkeeps.exists_slot hsound hlower
  rcases hslot with ⟨front, rest, hnode, hlength⟩ | ⟨hnode, -, hlength⟩
  · -- The content of a heading is one level deeper, in the markup behind the marker.
    obtain ⟨markup, hmarkup, hnode', hplace⟩ := h.slot (by rw [Cursor.kind, hnode]; rfl) (by rw [hnode]; rfl)
    obtain ⟨place, hplace', hnode'', hplace''⟩ := hmarkup.slot (by rw [Cursor.kind, hnode']; rfl) (by rw [hnode']; rfl)
    exact ⟨place, ⟨by rw [hplace'', hplace, hoffset, hlength], _, _, by rw [hnode'']; exact hlowered⟩, hplace'⟩
  · obtain ⟨kind, hkind, hinner⟩ := Grammar.innerNode_of_isOpen parentType (before ++ lowered :: after) hopen
    rw [hinner] at hnode
    obtain ⟨place, hplace, hnode', hplace'⟩ := h.slot (by rw [Cursor.kind, hnode]; exact hkind) (by rw [hnode]; rfl)
    exact ⟨place, ⟨by rw [hplace', hoffset, hlength], _, _, by rw [hnode']; exact hlowered⟩, hplace⟩

/-- The walk comes to what is kept beneath the root. -/
theorem exists_reached_of_root (hsound : root.SoundIn source)
    (htree : tree ∈ Tree.fitting 0 source.utf8ByteSize root.children)
    (hroot : lowerRoot typst (encode source) root = .ok node) :
    ∃ here, tree.LoweredAt source here ∧ Reached .symbol ⟨.reference, Cursor.root node⟩ ⟨.reference, here⟩ := by
  obtain ⟨before, lowered, after, hlower, hlength, rfl⟩ := Grammar.exists_slot_of_root hsound htree hroot
  have hchildren : (Cursor.root (.inner .markup (before ++ lowered :: after))).node.children =
      before ++ lowered :: after := rfl
  obtain ⟨here, hreached, hnode, hoffset⟩ := Reached.start.slot rfl hchildren
  refine ⟨here, ⟨?_, _, _, by rw [hnode]; exact hlower⟩, hreached⟩
  rw [hoffset, hlength]
  exact Nat.zero_add _

/-- **The walk comes to each exposed node.** -/
theorem reached_of_exposed (h : root.Exposed source tree) (hplaced : root.WellPlaced source)
    (hroot : lowerRoot typst (encode source) root = .ok node) :
    tree.WellPlaced source ∧ ∃ here, tree.LoweredAt source here ∧
      Reached .symbol ⟨.reference, Cursor.root node⟩ ⟨.reference, here⟩ := by
  induction h with
  | child htree =>
    exact ⟨hplaced.child htree, exists_reached_of_root hplaced.sound (hplaced.mem_fitting htree) hroot⟩
  | beneath _ hopen hgoes ih =>
    obtain ⟨htree, here, hat, hreached⟩ := ih
    obtain ⟨place, hplace, hreached'⟩ := hreached.of_keeps hat htree.sound hopen (hgoes.keeps htree)
    exact ⟨htree.child hgoes.1, place, hplace, hreached'⟩

/-! ## Lets -/

/-- A closure at the end of a binding is looked at, if every pattern in front of it is another one that starts earlier:
if there is none, the closure is what is bound, and else it is the last expression. -/
theorem Visit.mem_binding_of_last {earlier : List Cursor} {place : Cursor} (hclosure : place.kind = .closure)
    (hearlier : ∀ pattern ∈ earlier, pattern.kind.isPattern → pattern.kind ≠ .closure ∧ pattern.offset < place.offset) :
    ⟨.reference, place⟩ ∈ binding (earlier ++ [place]) := by
  have hplace : place.kind.isPattern ∧ place.kind.isClosure ∧ place.kind.isExpr := by simp [hclosure]; decide
  obtain ⟨hpattern, hisClosure, hexpr⟩ := hplace
  cases hfind : earlier.find? (·.kind.isPattern) with
  | none =>
    have hfound : pattern? (earlier ++ [place]) = some place := by
      rw [pattern?, List.find?_append, hfind, Option.none_or, List.find?_singleton, if_pos hpattern]
    rw [binding, hfound, if_pos (by rwa [Option.any_some])]
    exact List.mem_singleton_self _
  | some pattern =>
    obtain ⟨hkind, hoffset⟩ := hearlier pattern (List.mem_of_find?_eq_some hfind) (by simpa using List.find?_some hfind)
    have hfound : pattern? (earlier ++ [place]) = some pattern := by
      rw [pattern?, List.find?_append, hfind, Option.some_or]
    have hlast : (earlier ++ [place]).reverse.find? (·.kind.isExpr) = some place := by
      simp [hexpr]
    rw [binding, hfound, if_neg (by simpa [Syntax.Kind.isClosure] using hkind)]
    refine List.mem_append_right _ ?_
    rw [firstExpr, hlast]
    simp [hoffset]

/-- In a binding whose last child is a closure behind white space, comments and the keyword, the closure is looked at. -/
theorem Visit.exists_mem_binding {before : List Node} {closure : Node}
    (hchildren : here.node.children = before ++ [closure]) (hclosure : closure.kind = .closure)
    (hbefore : ∀ earlier ∈ before, IsPreface earlier) :
    ∃ place, ⟨.reference, place⟩ ∈ binding here.children ∧ place.node = closure ∧
      place.offset = here.offset + Node.byteLens before := by
  rw [Cursor.children, hchildren, Cursor.siblings_append]
  refine ⟨.mk closure (some here) _ _, mem_binding_of_last hclosure fun pattern hmem hpattern => ?_, rfl, rfl⟩
  obtain ⟨hnode, -⟩ := Cursor.mem_siblings hmem
  obtain ⟨-, -, hstop⟩ := Cursor.siblings_bounds hmem
  have hpreface := hbefore pattern.node hnode
  constructor
  · exact hpreface.kind_ne.2.2
  · have hlength : pattern.node.byteLen ≠ 0 := fun hempty => by
      rw [show pattern.kind.isPattern = false from hpreface.not_isPattern hempty] at hpattern
      cases hpattern
    rw [Cursor.stop] at hstop
    exact show pattern.offset < here.offset + Node.byteLens before by omega

def functionAt (name : String) (start stop : Nat) : Entry String := ⟨name, .named .function, start, stop⟩

/-- The walk comes from the place of a let that defines a function to a closure with the name and the span of that
function. -/
theorem Reached.function_of_let {naming : Naming} (h : Reached .symbol start ⟨naming, here⟩)
    (hat : tree.LoweredAt source here) (hplaced : tree.WellPlaced source)
    (hdefines : tree.DefinesFunction source call name) :
    ∃ place, Reached .symbol start ⟨.reference, place⟩ ∧ place.isFunction ∧
      functionEntry place = functionAt (textAt (encode source) name.start name.stop) call.start tree.stop := by
  have hstop := hat.stop_eq hplaced.sound
  obtain ⟨hoffset, parentType, depth, hlower⟩ := hat
  obtain ⟨before, first, rest, hnode, hlength, hpreface, hident, htext⟩ := Grammar.lower_let hplaced hdefines hlower
  have hkind : here.kind = .letBinding := by
    rw [Cursor.kind, hnode]
    rfl
  have hclass : classify here .symbol naming = .ok none := by
    simp [classify, hkind, Symbol.isGroup, Symbol.isMarkupGroup, Symbol.isBlockGroup, Symbol.isExprGroup]
  obtain ⟨place, hpart, hplace, hstart⟩ := Visit.exists_mem_binding (by rw [hnode]; rfl) rfl hpreface
  have hreached : Reached .symbol start ⟨.reference, place⟩ := by
    refine .parts h hclass (fun _ hclosure => ?_) ?_
    · cases hkind.symm.trans hclosure
    · simp only [Visit.parts, hkind]
      exact hpart
  have hhead : ∃ child, place.children.head? = some child ∧ child.node = first := by
    rw [Cursor.children, hplace]
    exact ⟨_, rfl, rfl⟩
  obtain ⟨child, hchild, rfl⟩ := hhead
  have hname : functionName place = child.node.fullText := by
    rw [functionName, hchild]
    exact if_pos hident
  refine ⟨place, hreached, ?_, ?_⟩
  · rw [Cursor.isFunction, Bool.and_eq_true, List.any_eq_true]
    refine ⟨by rw [Cursor.kind, hplace]; rfl, child, List.mem_of_head? hchild, ?_⟩
    rw [show child.kind = .ident from hident]
    rfl
  · have hend : place.stop = tree.stop := by
      rw [← hstop, Cursor.stop, Cursor.stop, hstart, hplace, hnode]
      simp only [Node.byteLen, Node.byteLens_append, Node.byteLens]
      omega
    rw [functionEntry, hname, htext, entryAt, hend, hstart, hoffset, hlength, functionAt]

/-! ## Lambdas -/

/-- The entry of a closure that a lambda becomes has no name. -/
theorem functionEntry_of_lambda (hat : tree.LoweredAt source here) (hplaced : tree.WellPlaced source)
    (hnamed : tree.IsNamed "lambda") : functionEntry here = functionAt anonymousName tree.start tree.stop := by
  have hstop := hat.stop_eq hplaced.sound
  obtain ⟨hoffset, parentType, depth, hlower⟩ := hat
  obtain ⟨-, hfirst⟩ := Grammar.lower_lambda hnamed hlower
  have hname : functionName here = anonymousName := by
    unfold functionName
    cases hchildren : here.children with
    | nil => rfl
    | cons child rest =>
      have hhead : here.node.children.head? = some child.node := by
        have hmap := congrArg (List.map Cursor.node) hchildren
        rw [Cursor.map_node_children] at hmap
        rw [hmap]
        rfl
      exact if_neg (hfirst _ hhead)
  rw [functionEntry, hname, entryAt, hstop, hoffset, functionAt]

/-- A lambda with a body becomes a function. -/
theorem isFunction_of_lambda (hat : tree.LoweredAt source here) (hplaced : tree.WellPlaced source)
    (hnamed : tree.IsNamed "lambda") (hbody : tree.HasBody) : here.isFunction := by
  obtain ⟨-, parentType, depth, hlower⟩ := hat
  obtain ⟨hkind, -⟩ := Grammar.lower_lambda hnamed hlower
  obtain ⟨body, hmem, hexpr⟩ := Grammar.exists_isExpr_of_hasBody hplaced hnamed hbody hlower
  rw [← Cursor.map_node_children] at hmem
  obtain ⟨child, hchild, rfl⟩ := List.mem_map.1 hmem
  rw [Cursor.isFunction, Bool.and_eq_true, List.any_eq_true]
  exact ⟨by rw [Cursor.kind, hkind]; rfl, child, hchild, hexpr⟩

/-! ## Definitions in outlines -/

def HasFunction (forest : Forest) (name : String) (start stop : Nat) : Prop :=
  functionAt name start stop ∈ (flattenAll 0 forest).map Prod.fst

instance (forest : Forest) (name : String) (start stop : Nat) : Decidable (HasFunction forest name start stop) :=
  inferInstanceAs (Decidable (_ ∈ _))

variable {parser : Parser} {forest : Forest}

theorem exists_of_extract {language : String} {tables : Grammar.Tables} {scope : Scope}
    (htables : Grammar.languages.lookup language = some tables) (hparser : parser source = .ok root)
    (h : extract parser source scope language = .ok forest) :
    ∃ node, lowerRoot tables (encode source) root = .ok node ∧ build (Cursor.root node) scope = .ok forest := by
  rw [extract, htables] at h
  obtain ⟨node, hparse, hbuild⟩ := Grammar.exists_of_bind_eq_ok h
  rw [parse, hparser] at hparse
  exact ⟨node, Grammar.eq_ok_of_mapError hparse, Grammar.eq_ok_of_mapError hbuild⟩

theorem hasFunction_of_let (hbuild : build (Cursor.root node) .symbol = .ok forest)
    (hreached : Reached .symbol ⟨.reference, Cursor.root node⟩ visit) (hat : tree.LoweredAt source visit.here)
    (hplaced : tree.WellPlaced source) (hdefines : tree.DefinesFunction source call name) :
    HasFunction forest (textAt (encode source) name.start name.stop) call.start tree.stop := by
  obtain ⟨place, hreached', hfunction, hentry⟩ := hreached.function_of_let hat hplaced hdefines
  have hmem : functionEntry place ∈ (flattenAll 0 forest).map Prod.fst :=
    functionEntry_mem_of_run rfl hbuild hreached' hfunction
  rwa [hentry] at hmem

/-- **What defines a function is a function of the outline.** Each let whose bound side is a call, and each lambda, has
a place in the syntax tree if the lowering comes to it. If the walk comes to that place, the let is a function with the
name of the call, from the start of the call to the end of the let, and the lambda is one without a name, with its own
span, if the closure has an expression, for example a body. The walk comes to all lets around which all nodes are open
(`_let_closure`, `_wrap_params` and `_check_closure`). -/
theorem definitions_of_extract (hparser : parser source = .ok root) (hplaced : root.WellPlaced source)
    (h : extract parser source .symbol "typst" = .ok forest) :
    ∃ node, lowerRoot typst (encode source) root = .ok node ∧ build (Cursor.root node) .symbol = .ok forest ∧
      (∀ tree call name, root.Lowered source tree → tree.DefinesFunction source call name →
        (∃ here ∈ (Cursor.root node).places, tree.LoweredAt source here) ∧
        ∀ visit, Reached .symbol ⟨.reference, Cursor.root node⟩ visit → tree.LoweredAt source visit.here →
          HasFunction forest (textAt (encode source) name.start name.stop) call.start tree.stop) ∧
      (∀ tree call name, root.Exposed source tree → tree.DefinesFunction source call name →
        HasFunction forest (textAt (encode source) name.start name.stop) call.start tree.stop) ∧
      ∀ tree, root.Lowered source tree → tree.IsNamed "lambda" →
        (∃ here ∈ (Cursor.root node).places, tree.LoweredAt source here) ∧
        ∀ visit, Reached .symbol ⟨.reference, Cursor.root node⟩ visit → tree.LoweredAt source visit.here →
          (tree.HasBody → visit.here.isFunction) ∧
          (visit.here.isFunction → functionEntry visit.here = functionAt anonymousName tree.start tree.stop ∧
            HasFunction forest anonymousName tree.start tree.stop) := by
  obtain ⟨node, hlower, hbuild⟩ := exists_of_extract (show Grammar.languages.lookup "typst" = some typst from rfl) hparser h
  refine ⟨node, hlower, hbuild, ?_, ?_, ?_⟩
  · intro tree call name hlowered hdefines
    obtain ⟨htree, hplace⟩ := hlowered.exists_place hplaced hlower fun _ _ _ hkind =>
      .inr (Grammar.kind_lower_let hdefines.1 hkind)
    exact ⟨hplace, fun visit hreached hat => hasFunction_of_let hbuild hreached hat htree hdefines⟩
  · intro tree call name hexposed hdefines
    obtain ⟨htree, here, hat, hreached⟩ := reached_of_exposed hexposed hplaced hlower
    exact hasFunction_of_let hbuild hreached hat htree hdefines
  · intro tree hlowered hnamed
    obtain ⟨htree, hplace⟩ := hlowered.exists_place hplaced hlower fun _ _ _ hkind =>
      .inl (Grammar.lower_lambda hnamed hkind).1
    refine ⟨hplace, fun visit hreached hat => ⟨isFunction_of_lambda hat htree hnamed, fun hfunction => ?_⟩⟩
    have hentry := functionEntry_of_lambda hat htree hnamed
    have hmem : functionEntry visit.here ∈ (flattenAll 0 forest).map Prod.fst :=
      functionEntry_mem_of_run rfl hbuild hreached hfunction
    exact ⟨hentry, by rwa [hentry] at hmem⟩

/-- A function behind a comment, and a lambda in brackets. -/
def spacedFunction : String := "#let/**/é(x) = x\n#(y => y)"

def spacedName : Tree := .node "ident" 8 10 [] false false

def spacedCall : Tree :=
  .node "call" 8 13
    [spacedName, .node "group" 10 13
      [.node "(" 10 11 [] true false, .node "ident" 11 12 [] false false, .node ")" 12 13 [] true false] false false]
    false false

def spacedLet : Tree :=
  .node "let" 1 17
    [.node "let" 1 4 [] true false, .node "comment" 4 8 [] false false, spacedCall, .node "=" 14 15 [] true false,
      .node "ident" 16 17 [] false false] false false

def bracketedLambda : Tree :=
  .node "lambda" 20 26
    [.node "ident" 20 21 [] false false, .node "=>" 22 24 [] true false, .node "ident" 25 26 [] false false] false false

def lambdaGroup : Tree :=
  .node "group" 19 27 [.node "(" 19 20 [] true false, bracketedLambda, .node ")" 26 27 [] true false] false false

def letCode : Tree := .node "code" 0 17 [.node "#" 0 1 [] true false, spacedLet] false false

def lambdaCode : Tree := .node "code" 18 27 [.node "#" 18 19 [] true false, lambdaGroup] false false

def spacedFunctionTree : Tree := .node "source_file" 0 27 [letCode, lambdaCode] false false

def spacedFunctionOutline : Forest :=
  [mk ⟨"é", .named .function, 8, 17⟩ [], mk ⟨"<anonymous>", .named .function, 20, 26⟩ []]

theorem definitions_of_extract_spacedFunction :
    spacedFunctionTree.WellPlaced spacedFunction ∧
      extract (fun _ => .ok spacedFunctionTree) spacedFunction .symbol "typst" = .ok spacedFunctionOutline ∧
      HasFunction spacedFunctionOutline "é" 8 17 ∧ HasFunction spacedFunctionOutline anonymousName 20 26 := by
  have hplaced : spacedFunctionTree.WellPlaced spacedFunction := by decide +kernel
  have hextract : extract (fun _ => .ok spacedFunctionTree) spacedFunction .symbol "typst" = .ok spacedFunctionOutline :=
    eq_ok_of_toOption (by decide +kernel)
  obtain ⟨node, hlower, -, -, hlets, hlambdas⟩ := definitions_of_extract rfl hplaced hextract
  have hletCode : spacedFunctionTree.Exposed spacedFunction letCode := .child (by simp [spacedFunctionTree, Tree.children])
  have hlet : spacedFunctionTree.Exposed spacedFunction spacedLet :=
    .beneath hletCode (by decide) ⟨by simp [letCode, Tree.children], by decide⟩
  have hdefines : spacedLet.DefinesFunction spacedFunction spacedCall spacedName :=
    ⟨by decide, by decide, by decide, rfl, rfl, _, [.node "comment" 4 8 [] false false], _, by decide, by decide +kernel, rfl⟩
  have hlambdaCode : spacedFunctionTree.Exposed spacedFunction lambdaCode :=
    .child (by simp [spacedFunctionTree, Tree.children])
  have hgroup : spacedFunctionTree.Exposed spacedFunction lambdaGroup :=
    .beneath hlambdaCode (by decide) ⟨by simp [lambdaCode, Tree.children], by decide⟩
  have hlambda : spacedFunctionTree.Exposed spacedFunction bracketedLambda :=
    .beneath hgroup (by decide) ⟨by simp [lambdaGroup, Tree.children], by decide⟩
  have hbody : bracketedLambda.HasBody := ⟨[.node "ident" 20 21 [] false false], _, _, rfl, by decide,
    .node "ident" 25 26 [] false false, by simp, by decide⟩
  obtain ⟨-, here, hat, hreached⟩ := reached_of_exposed hlambda hplaced hlower
  obtain ⟨hfunction, hentry⟩ := (hlambdas bracketedLambda hlambda.lowered (by decide)).2 _ hreached hat
  exact ⟨hplaced, hextract, hlets spacedLet spacedCall spacedName hlet hdefines, (hentry (hfunction hbody)).2⟩

def importedFunction : String := "#import [#let f(x) = x]"

def importedName : Tree := .node "ident" 14 15 [] false false

def importedCall : Tree :=
  .node "call" 14 18
    [importedName, .node "group" 15 18
      [.node "(" 15 16 [] true false, .node "ident" 16 17 [] false false, .node ")" 17 18 [] true false] false false]
    false false

def importedLet : Tree :=
  .node "let" 10 22
    [.node "let" 10 13 [] true false, importedCall, .node "=" 19 20 [] true false, .node "ident" 21 22 [] false false]
    false false

def importedCode : Tree := .node "code" 9 22 [.node "#" 9 10 [] true false, importedLet] false false

def importedFunctionTree : Tree :=
  .node "source_file" 0 23
    [.node "code" 0 23
      [.node "#" 0 1 [] true false,
        .node "import" 1 23
          [.node "import" 1 7 [] true false,
            .node "content" 8 23 [.node "[" 8 9 [] true false, importedCode, .node "]" 22 23 [] true false] false false]
          false false]
      false false]
    false false

/-- The walk does not look into imports, and so not at the functions that are defined there. -/
theorem not_hasFunction_of_importedFunction :
    importedFunctionTree.WellPlaced importedFunction ∧ importedCode ∈ importedFunctionTree.subtrees ∧
      importedCode.IsNamed "code" ∧ importedLet ∈ importedCode.children ∧
      importedLet.DefinesFunction importedFunction importedCall importedName ∧
      extract (fun _ => .ok importedFunctionTree) importedFunction .symbol "typst" = .ok [] ∧
      ¬ HasFunction [] (textAt (encode importedFunction) importedName.start importedName.stop) importedCall.start
        importedLet.stop := by
  have hplaced : importedFunctionTree.WellPlaced importedFunction := by decide +kernel
  have hcode : importedCode ∈ importedFunctionTree.subtrees := by
    simp [importedFunctionTree, importedCode, Tree.subtrees, Tree.subtreesAll]
  have hlet : importedLet ∈ importedCode.children := by simp [importedCode, Tree.children]
  have hdefines : importedLet.DefinesFunction importedFunction importedCall importedName :=
    ⟨by decide, by decide, by decide, rfl, rfl, _, [], _, by decide, by simp, rfl⟩
  have hextract : extract (fun _ => .ok importedFunctionTree) importedFunction .symbol "typst" = .ok [] :=
    eq_ok_of_toOption (by decide +kernel)
  exact ⟨hplaced, hcode, by decide, hlet, hdefines, hextract, by simp [HasFunction, flattenAll]⟩

end Outline

end DocOutline
