import Mathlib.Data.List.Forall2
import Mathlib.Data.Option.Defs
import DocOutline.Proofs.Walk.Composition

/-!
# What the walk does not look into

Imports and what could not be parsed are passed over, whatever is in them: of such a node only the kind and the length
count. Two trees are alike if they differ in nothing else (`Node.Alike`), where headings and white space, which are read
as a whole, are the same. At places that are alike (`Cursor.Alike`) each rule of the walk gives the same; so checking
them is the same action (`checkAt_eq_of_alike`).

Main statement `build_eq_of_alike`: trees that are alike have the same outline, or fail in the same way.
-/

namespace DocOutline

namespace Syntax

/-- Whether the walk passes over nodes of this kind without a look at what is in them. -/
def Kind.isSealed : Kind → Bool
  | .moduleImport | .error => true
  | _ => false

/-- Whether the text of nodes of this kind is read as a whole: that of a heading for its entry, that of white space for
its line feeds. -/
def Kind.isRead : Kind → Bool
  | .heading | .space => true
  | _ => false

theorem Kind.not_isSealed_of_isRead {kind : Kind} (h : kind.isRead) : kind.isSealed = false := by
  cases kind <;> first | rfl | cases h

/-- Whether two nodes are the same but for what is in imports and in what could not be parsed, outside headings and
white space. -/
inductive Node.Alike : Node → Node → Prop
  | same (node) : Alike node node
  | sealed {node node'} (hsealed : node.kind.isSealed) (hkind : node.kind = node'.kind)
      (hlength : node.byteLen = node'.byteLen) : Alike node node'
  | inner {kind children children'} (hkind : kind.isRead = false) (hchildren : List.Forall₂ Alike children children') :
      Alike (.inner kind children) (.inner kind children')

namespace Node

variable {node node' : Node}

theorem Alike.kind_eq (h : node.Alike node') : node.kind = node'.kind := by
  cases h with
  | same => rfl
  | sealed _ hkind _ => exact hkind
  | inner => rfl

mutual

theorem byteLen_eq_of_alike (node : Node) {node' : Node} (h : node.Alike node') : node.byteLen = node'.byteLen := by
  match node, h with
  | _, .same _ => rfl
  | _, .sealed _ _ hlength => exact hlength
  | .inner _ children, .inner _ hchildren => exact byteLens_eq_of_alike children hchildren
termination_by structural node

theorem byteLens_eq_of_alike (nodes : List Node) {nodes' : List Node} (h : List.Forall₂ Alike nodes nodes') :
    byteLens nodes = byteLens nodes' := by
  match nodes, h with
  | [], .nil => rfl
  | node :: nodes, .cons hnode hnodes =>
    rw [byteLens, byteLens, byteLen_eq_of_alike node hnode, byteLens_eq_of_alike nodes hnodes]
termination_by structural nodes

end

/-- What is read as a whole is the same. -/
theorem Alike.eq_of_isRead (h : node.Alike node') (hread : node.kind.isRead) : node = node' := by
  cases h with
  | same => rfl
  | sealed hsealed _ _ => rw [Kind.not_isSealed_of_isRead hread] at hsealed; cases hsealed
  | inner hkind _ => cases hkind.symm.trans hread

/-- The children of nodes that are looked into are alike in turn. -/
theorem Alike.children (h : node.Alike node') (hsealed : node.kind.isSealed = false) :
    List.Forall₂ (fun child child' => child.Alike child' ∧ (node.kind.isRead → child = child'))
      node.children node'.children := by
  cases h with
  | same => exact List.forall₂_same.2 fun child _ => ⟨.same child, fun _ => rfl⟩
  | sealed hsealed' _ _ => cases hsealed.symm.trans hsealed'
  | inner hkind hchildren =>
    exact hchildren.imp fun child child' halike => ⟨halike, fun hread => absurd hread (Bool.eq_false_iff.1 hkind)⟩

theorem Alike.leafText?_eq (h : node.Alike node') (hsealed : node.kind.isSealed = false) :
    node.leafText? = node'.leafText? := by
  cases h with
  | same => rfl
  | sealed hsealed' _ _ => cases hsealed.symm.trans hsealed'
  | inner _ hchildren =>
    cases hchildren with
    | nil => rfl
    | cons _ _ => rfl

theorem Alike.labelName?_eq (h : node.Alike node') : node.labelName? = node'.labelName? := by
  unfold labelName?
  rw [← h.kind_eq]
  split
  · next hlabel => rw [h.leafText?_eq (by rw [hlabel]; rfl)]
  · rfl

theorem Alike.identName?_eq (h : node.Alike node') : node.identName? = node'.identName? := by
  unfold identName?
  rw [← h.kind_eq]
  split
  · next hident => rw [h.leafText?_eq (by rw [hident]; rfl)]
  · rfl

end Node

/-! ## Places -/

/-- Whether two places hold nodes that are alike, at the same offset and with siblings that are alike. -/
structure Cursor.Alike (here here' : Cursor) : Prop where
  node : here.node.Alike here'.node
  index : here.index = here'.index
  offset : here.offset = here'.offset
  parent? : Option.Rel (fun parent parent' => parent.node.Alike parent'.node ∧ parent.kind.isSealed = false)
    here.parent? here'.parent?
  /-- Beneath a heading everything is the same. -/
  read : ∀ parent, here.parent? = some parent → parent.kind.isRead → here.node = here'.node

namespace Cursor

variable {here here' : Cursor}

theorem alike_root {node node' : Node} (h : node.Alike node') : Alike (root node) (root node') :=
  ⟨h, rfl, rfl, .none, nofun⟩

namespace Alike

variable (h : here.Alike here')

include h

theorem kind_eq : here.kind = here'.kind := h.node.kind_eq

theorem stop_eq : here.stop = here'.stop := by
  rw [stop, stop, h.offset, Node.byteLen_eq_of_alike _ h.node]

theorem fullText_eq_of_isRead (hread : here.kind.isRead) : here.fullText = here'.fullText :=
  congrArg Node.fullText (h.node.eq_of_isRead hread)

theorem children (hsealed : here.kind.isSealed = false) : List.Forall₂ Alike here.children here'.children := by
  have hnodes := h.node.children hsealed
  have hhere := h.node
  unfold Cursor.children
  rw [← h.offset]
  generalize 0 = index, here.offset = offset
  generalize here.node.children = nodes, here'.node.children = nodes' at hnodes
  induction hnodes generalizing index offset with
  | nil => exact .nil
  | cons hchild _ ih =>
    refine .cons ⟨hchild.1, rfl, rfl, .some ⟨h.node, hsealed⟩, ?_⟩ ?_
    · rintro parent ⟨⟩ hread
      exact hchild.2 hread
    · rw [← Node.byteLen_eq_of_alike _ hchild.1]
      exact ih _ _

theorem prevRaw? : Option.Rel Alike here.prevRaw? here'.prevRaw? := by
  obtain ⟨node, parent?, index, offset⟩ := here
  obtain ⟨node', parent?', index', offset'⟩ := here'
  obtain ⟨hnode, hindex, hoffset, hparent, hread⟩ := h
  obtain rfl : index = index' := hindex
  obtain rfl : offset = offset' := hoffset
  cases hparent with
  | none => exact .none
  | @some parent parent' hparent =>
    cases index with
    | zero => exact .none
    | succ index =>
      -- The sibling in front is a child of alike parents, with the same index.
      have hchildren := hparent.1.children hparent.2
      simp only [Cursor.prevRaw?, Cursor.parent?, Cursor.index, Cursor.offset]
      by_cases hlt : index < parent.node.children.length
      · have hlt' : index < parent'.node.children.length := by rwa [← hchildren.length_eq]
        have hchild := hchildren.get hlt hlt'
        simp only [List.get_eq_getElem] at hchild
        rw [List.getElem?_eq_getElem hlt, List.getElem?_eq_getElem hlt', Option.map_some, Option.map_some,
          Node.byteLen_eq_of_alike _ hchild.1]
        refine .some ⟨hchild.1, rfl, rfl, .some hparent, ?_⟩
        rintro parent ⟨⟩ hread
        exact hchild.2 hread
      · have hlt' : ¬ index < parent'.node.children.length := by rwa [← hchildren.length_eq]
        rw [List.getElem?_eq_none (Nat.le_of_not_lt hlt), List.getElem?_eq_none (Nat.le_of_not_lt hlt')]
        exact .none

omit h in
theorem prevWithin (count : Nat) (h : here.Alike here') :
    Option.Rel Alike (prevWithin count here) (prevWithin count here') := by
  induction count generalizing here here' with
  | zero => exact .none
  | succ count ih =>
    unfold Cursor.prevWithin
    have hbefore := h.prevRaw?
    generalize here.prevRaw? = before?, here'.prevRaw? = before?' at hbefore
    cases hbefore with
    | none => exact .none
    | some hprevious =>
      simp only [Option.bind_some]
      rw [hprevious.kind_eq]
      split
      · exact ih hprevious
      · exact .some hprevious

theorem prevKind?_eq : here.prevKind? = here'.prevKind? := by
  unfold Cursor.prevKind? Cursor.prev?
  have hbefore := prevWithin here.index h
  rw [← h.index]
  generalize Cursor.prevWithin here.index here = before?, Cursor.prevWithin here.index here' = before?' at hbefore
  cases hbefore with
  | none => rfl
  | some hprevious => exact congrArg some hprevious.kind_eq

end Alike

end Cursor

end Syntax

/-! ## Entries -/

namespace Symbol

variable {here here' : Syntax.Cursor} (h : here.Alike here')

include h

theorem entryAt_eq_of_alike (name : String) (kind : Kind) : entryAt here name kind = entryAt here' name kind := by
  rw [entryAt, entryAt, h.offset, h.stop_eq]

theorem castFailure_eq_of_alike : castFailure here = castFailure here' := by
  rw [castFailure, castFailure, h.kind_eq, h.offset, h.stop_eq]

theorem classifyMarkup_eq_of_alike : classifyMarkup here = classifyMarkup here' := by
  have hparents := h.parent?
  have hread := h.read
  unfold classifyMarkup
  generalize here.parent? = parent?, here'.parent? = parent?' at hparents hread
  cases hparents with
  | none => rfl
  | @some parent parent' hparent =>
    have hkind : parent.kind = parent'.kind := hparent.1.kind_eq
    simp only [← hkind]
    by_cases hheading : parent.kind = .heading
    · have hisRead : parent.kind.isRead := by rw [hheading]; rfl
      have htext : here.fullText = here'.fullText := congrArg Syntax.Node.fullText (hread parent rfl hisRead)
      rw [← hparent.1.eq_of_isRead hisRead, ← htext, entryAt_eq_of_alike h]
    · rw [if_neg fun hand => hheading hand.1, if_neg fun hand => hheading hand.1]

theorem classify_eq_of_alike (scope : Scope) (naming : Naming) : classify here scope naming = classify here' scope naming := by
  unfold classify classifyLabel classifyIdent
  rw [← h.kind_eq, ← h.prevKind?_eq, ← h.node.labelName?_eq, ← h.node.identName?_eq, ← castFailure_eq_of_alike h,
    ← classifyMarkup_eq_of_alike h]
  simp only [entryAt_eq_of_alike h]

end Symbol

namespace Outline

open DocOutline.Symbol (Entry Naming Scope classify)
open DocOutline.Syntax (Cursor Node)

/-! ## Branches -/

/-- Whether two branches cannot be told apart by a construct: they are checked in the same way, and their places agree
in what decides which branches are taken. -/
structure Branch.Alike (branch branch' : Branch) : Prop where
  kind : branch.here.kind = branch'.here.kind
  offset : branch.here.offset = branch'.here.offset
  check : branch.check = branch'.check

namespace Branch

variable {branch? branch?' : Option Branch} {branches branches' : List Branch}

theorem checkIn_eq_of_alike (naming : Naming) (h : Option.Rel Alike branch? branch?') :
    checkIn naming branch? = checkIn naming branch?' := by
  cases h with
  | none => rfl
  | some h => rw [checkIn, checkIn, h.check]

theorem offset_eq_of_alike (h : Option.Rel Alike branch? branch?') :
    branch?.map (·.here.offset) = branch?'.map (·.here.offset) := by
  cases h with
  | none => rfl
  | some h => exact congrArg some h.offset

theorem any_eq_of_alike (p : Syntax.Kind → Bool) (h : Option.Rel Alike branch? branch?') :
    branch?.any (p ·.here.kind) = branch?'.any (p ·.here.kind) := by
  cases h with
  | none => rfl
  | some h => exact congrArg p h.kind

section

variable (h : List.Forall₂ Alike branches branches')

include h

theorem find?_alike (p : Syntax.Kind → Bool) :
    Option.Rel Alike (branches.find? (p ·.here.kind)) (branches'.find? (p ·.here.kind)) := by
  induction h with
  | nil => exact .none
  | cons hfirst _ ih =>
    rw [List.find?_cons, List.find?_cons, ← hfirst.kind]
    split
    · exact .some hfirst
    · exact ih

theorem dropWhile_alike (p : Syntax.Kind → Bool) :
    List.Forall₂ Alike (branches.dropWhile (p ·.here.kind)) (branches'.dropWhile (p ·.here.kind)) := by
  induction h with
  | nil => exact .nil
  | cons hfirst hrest ih =>
    rw [List.dropWhile_cons, List.dropWhile_cons, ← hfirst.kind]
    split
    · exact ih
    · exact .cons hfirst hrest

theorem checkAll_eq_of_alike : checkAll branches = checkAll branches' := by
  induction h with
  | nil => rfl
  | @cons branch branch' rest rest' hfirst _ ih =>
    change (branch.check >>= fun _ => checkAll rest) = (branch'.check >>= fun _ => checkAll rest')
    rw [hfirst.check, ih]

theorem checkFirstExpr_eq_of_alike (naming : Naming) (after : Option Nat) :
    checkFirstExpr naming after branches = checkFirstExpr naming after branches' := by
  have hfound := find?_alike h (·.isExpr)
  unfold checkFirstExpr
  generalize branches.find? (·.here.kind.isExpr) = found?, branches'.find? (·.here.kind.isExpr) = found?' at hfound
  cases hfound with
  | none => rfl
  | some hfound => simp only [hfound.offset, checkIn, hfound.check]

theorem checkLastExpr_eq_of_alike (naming : Naming) (after : Option Nat) :
    checkFirstExpr naming after branches.reverse = checkFirstExpr naming after branches'.reverse :=
  checkFirstExpr_eq_of_alike (List.forall₂_reverse_iff.2 h) naming after

theorem pattern?_alike : Option.Rel Alike (pattern? branches) (pattern? branches') := find?_alike h (·.isPattern)

end

end Branch

/-! ## Constructs -/

section

variable {here here' : Cursor} {branches branches' : List Branch} (hbranches : List.Forall₂ Branch.Alike branches branches')

include hbranches

theorem checkLetBinding_eq_of_alike : checkLetBinding branches = checkLetBinding branches' := by
  have hpattern := Branch.pattern?_alike hbranches
  unfold checkLetBinding
  simp only [Branch.any_eq_of_alike (·.isClosure) hpattern, Branch.checkIn_eq_of_alike _ hpattern, Branch.offset_eq_of_alike hpattern,
    Branch.checkLastExpr_eq_of_alike hbranches]

theorem checkForLoop_eq_of_alike : checkForLoop branches = checkForLoop branches' := by
  have hiterable := Branch.find?_alike (Branch.dropWhile_alike hbranches (· != .inKeyword)) (·.isExpr)
  unfold checkForLoop
  simp only [Branch.checkIn_eq_of_alike _ hiterable, Branch.offset_eq_of_alike hiterable,
    Branch.checkIn_eq_of_alike _ (Branch.pattern?_alike hbranches), Branch.checkLastExpr_eq_of_alike hbranches]

theorem checkNamed_eq_of_alike : checkNamed branches = checkNamed branches' := by
  have hname := Branch.find?_alike hbranches (fun kind => decide (kind = .ident))
  unfold checkNamed
  simp only [Branch.checkLastExpr_eq_of_alike hbranches, Branch.checkIn_eq_of_alike _ hname]

theorem checkClosureName_eq_of_alike : checkClosureName branches = checkClosureName branches' := by
  cases hbranches with
  | nil => rfl
  | cons hfirst _ => simp only [checkClosureName, hfirst.kind, Branch.checkIn_eq_of_alike _ (.some hfirst)]

theorem checkSymbol_eq_of_alike (symbol : Entry String) : checkSymbol symbol branches = checkSymbol symbol branches' := by
  rw [checkSymbol, checkSymbol, Branch.checkAll_eq_of_alike hbranches]

variable (h : here.Alike here')

include h

theorem checkClosure_eq_of_alike : checkClosure here branches = checkClosure here' branches' := by
  have htake : takeClosureEntry here = takeClosureEntry here' := by
    unfold takeClosureEntry anonymousEntry
    rw [Symbol.entryAt_eq_of_alike h, h.offset, h.stop_eq]
  have hbody := Branch.find?_alike (List.forall₂_reverse_iff.2 hbranches) (·.isExpr)
  unfold checkClosure
  rw [htake, checkClosureName_eq_of_alike hbranches]
  generalize branches.reverse.find? (·.here.kind.isExpr) = body?, branches'.reverse.find? (·.here.kind.isExpr) = body?'
    at hbody
  cases hbody with
  | none => rfl
  | some hbody => simp only [Branch.checkIn, hbody.check]

omit hbranches in
theorem commentBefore?_alike : Option.Rel Cursor.Alike (commentBefore? here) (commentBefore? here') := by
  have hbefore := h.prevRaw?
  unfold commentBefore?
  generalize here.prevRaw? = before?, here'.prevRaw? = before?' at hbefore
  cases hbefore with
  | none => exact .none
  | @some before before' hbefore =>
    have hkind : before.kind = before'.kind := hbefore.kind_eq
    simp only [← hkind]
    by_cases hspace : before.kind = .space
    · rw [if_pos hspace, if_pos hspace, ← hbefore.fullText_eq_of_isRead (by rw [hspace]; rfl)]
      split
      · exact .none
      · exact hbefore.prevRaw?
    · rw [if_neg hspace, if_neg hspace]
      exact .some hbefore

omit hbranches in
theorem addComment_eq_of_alike : addComment here = addComment here' := by
  have hcontinues : continuesRun here = continuesRun here' := by
    have hbefore := commentBefore?_alike h
    funext last
    unfold continuesRun
    generalize commentBefore? here = before?, commentBefore? here' = before?' at hbefore
    cases hbefore with
    | none => rfl
    | some hbefore => simp only [Option.any_some, hbefore.kind_eq, hbefore.stop_eq]
  funext finished
  unfold addComment
  rw [hcontinues, h.offset, h.stop_eq]

theorem checkStructure_eq_of_alike : checkStructure here branches = checkStructure here' branches' := by
  unfold checkStructure
  rw [← h.kind_eq, addComment_eq_of_alike h, checkLetBinding_eq_of_alike hbranches, checkForLoop_eq_of_alike hbranches,
    checkClosure_eq_of_alike hbranches h, checkNamed_eq_of_alike hbranches, Branch.checkAll_eq_of_alike hbranches]
  simp only [Branch.checkFirstExpr_eq_of_alike hbranches]

end

/-! ## Places are checked alike -/

variable {here here' : Cursor}

/-- What follows a computation without state matters only for the outcome it has. -/
theorem bind_ofExcept_congr {α β : Type} {result : Except Syntax.StructureError α} {next next' : α → Walk β}
    (h : ∀ a, result = .ok a → next a = next' a) :
    (Walk.ofExcept result >>= next) = (Walk.ofExcept result >>= next') := by
  cases result with
  | error error => rfl
  | ok a =>
    change (pure a >>= next) = (pure a >>= next')
    rw [pure_bind, pure_bind, h a rfl]

/-- A visit does the same if what is done beneath an entry, and beneath a node that is none, is the same. -/
theorem visit_eq_of_alike (h : here.Alike here') {branches branches' : List Branch}
    (hsymbol : ∀ scope naming symbol, classify here scope naming = .ok (some symbol) →
      checkSymbol symbol branches = checkSymbol symbol branches')
    (hstructure : checkStructure here branches = checkStructure here' branches') :
    visit here branches = visit here' branches' := by
  have hrequire : requireDepth here = requireDepth here' := by
    unfold requireDepth
    rw [h.kind_eq, h.offset, h.stop_eq]
  unfold visit
  rw [← hrequire, ← h.kind_eq]
  refine congrArg Walk.deeper (congrArg (requireDepth here >>= ·) (funext fun _ => ?_))
  refine congrArg (get >>= ·) (funext fun builder => ?_)
  rw [← Symbol.classify_eq_of_alike h]
  refine bind_ofExcept_congr fun symbol? hclass => ?_
  cases symbol? with
  | none => simp only [hstructure]
  | some symbol => simp only [hsymbol _ _ symbol hclass]

/-- What is passed over is no entry. -/
theorem classify_of_isSealed (hsealed : here.kind.isSealed) (scope : Scope) (naming : Naming) (symbol : Entry String) :
    classify here scope naming ≠ .ok (some symbol) := by
  intro hclass
  cases Symbol.opens_of_classify hclass with
  | label _ hkind _ | ident _ hkind _ _ | heading hkind _ _ _ => rw [hkind] at hsealed; cases hsealed
  | group hscope hgroup =>
    subst hscope
    cases hkind : here.kind <;> rw [hkind] at hsealed hgroup <;>
      first | exact absurd hsealed (by decide) | exact absurd hgroup (by decide)

/-- Nothing is done beneath what is passed over. -/
theorem checkStructure_of_isSealed (hsealed : here.kind.isSealed) (branches : List Branch) :
    checkStructure here branches = pure () := by
  unfold checkStructure
  cases hkind : here.kind <;> rw [hkind] at hsealed <;> first | rfl | cases hsealed

/-- **Places that are alike are checked alike.** -/
theorem checkAt_eq_of_alike (h : here.Alike here') : checkAt here = checkAt here' := by
  induction here using Cursor.induction generalizing here' with
  | h here ih =>
    rw [checkAt_eq_visit_branchOf, checkAt_eq_visit_branchOf]
    cases hsealed : here.kind.isSealed with
    | true =>
      refine visit_eq_of_alike h (fun scope naming symbol hclass => ?_) ?_
      · exact absurd hclass (classify_of_isSealed hsealed scope naming symbol)
      · rw [checkStructure_of_isSealed hsealed, checkStructure_of_isSealed (h.kind_eq ▸ hsealed)]
    | false =>
      have hbranches : List.Forall₂ Branch.Alike (here.children.map (branchOf checkAt)) (here'.children.map (branchOf checkAt)) := by
        refine List.forall₂_map_left_iff.2 (List.forall₂_map_right_iff.2 ?_)
        refine ((List.forall₂_and_left _ _).2 ⟨fun child hchild => hchild, h.children hsealed⟩).imp ?_
        rintro child child' ⟨hchild, halike⟩
        exact ⟨halike.kind_eq, halike.offset, ih child hchild halike⟩
      exact visit_eq_of_alike h (fun _ _ symbol _ => checkSymbol_eq_of_alike hbranches symbol)
        (checkStructure_eq_of_alike hbranches h)

/-- **Imports and what could not be parsed are passed over.** (`_check_structure`; specification, section 8.) -/
theorem build_eq_of_alike {node node' : Node} (h : node.Alike node') (scope : Scope) :
    build (Cursor.root node) scope = build (Cursor.root node') scope := by
  unfold build Builder.run
  rw [checkAt_eq_of_alike (Cursor.alike_root h)]

/-- An import in a block, with the given nodes in it, and then a label. -/
def importing (beneath : List Node) : Node :=
  .inner .markup
    [.leaf .hash "#", .inner .codeBlock [.leaf .leftBrace "\x7b", .inner .moduleImport beneath, .leaf .rightBrace "\x7d"],
      .leaf .space " ", .leaf .label "<a>"]

def fileImport : Node := importing [.leaf .importKeyword "import", .leaf .space " ", .leaf .str "'a.typ'"]

def functionImport : Node :=
  importing [.inner .closure [.leaf .ident "f", .leaf .leftParen "(x)", .leaf .eq "=", .leaf .ident "a.typ(é)"]]

theorem build_eq_of_alike_imports :
    fileImport.Alike functionImport ∧
      build (Cursor.root fileImport) .symbol = build (Cursor.root functionImport) .symbol := by
  have halike : fileImport.Alike functionImport := by
    refine .inner rfl (.cons (.same _) (.cons (.inner rfl (.cons (.same _) (.cons ?_ ?_))) ?_))
    · exact .sealed rfl rfl (by decide)
    · exact List.forall₂_same.2 fun node _ => .same node
    · exact List.forall₂_same.2 fun node _ => .same node
  exact ⟨halike, build_eq_of_alike halike .symbol⟩

end Outline

end DocOutline
