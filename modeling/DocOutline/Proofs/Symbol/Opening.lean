import DocOutline.Symbol.Classify

/-!
# Which entry a node opens

The names of labels and identifiers are parts of their texts, and nodes that have one have no children. A node opens
an entry in one of four ways (`Opens`): as a label, as an identifier, as a group, or as the body of a heading.
-/

namespace DocOutline

namespace Syntax.Node

theorem leafText?_eq_some {node : Node} {text : String} (h : node.leafText? = some text) :
    node.children = [] ∧ node.fullText = text := by
  match node with
  | .leaf _ _ => cases h; exact ⟨rfl, rfl⟩
  | .inner _ [] => cases h; exact ⟨rfl, rfl⟩
  | .inner _ (_ :: _) => cases h

theorem identName?_eq_some {node : Node} {name : String} (h : node.identName? = some name) :
    node.children = [] ∧ node.fullText = name ∧ isIdentText name.toList := by
  unfold identName? at h
  split at h
  · split at h
    · next text htext =>
      split at h
      · next hident =>
        cases h
        exact ⟨(leafText?_eq_some htext).1, (leafText?_eq_some htext).2, hident⟩
      · cases h
    · cases h
  · cases h

/-- The characters of a text in angle brackets. -/
theorem toList_eq_bracketed {cs : List Char} {first last : Char} (hlength : 2 ≤ cs.length)
    (hfirst : cs.head? = some first) (hlast : cs.getLast? = some last) :
    cs = first :: (cs.tail.dropLast ++ [last]) := by
  match cs with
  | [] => cases hfirst
  | [_] => simp at hlength
  | c :: d :: rest =>
    obtain rfl : c = first := by simpa using hfirst
    obtain ⟨front, hfront⟩ := List.getLast?_eq_some_iff.1 (show (d :: rest).getLast? = some last by simpa using hlast)
    rw [List.tail_cons, hfront, List.dropLast_concat]

theorem labelName?_eq_some {node : Node} {name : String} (h : node.labelName? = some name) :
    node.children = [] ∧ node.fullText = "<" ++ name ++ ">" ∧ name ≠ "" := by
  unfold labelName? at h
  split at h
  · split at h
    · next text htext =>
      simp only at h
      split at h
      · next hshape =>
        cases h
        obtain ⟨hlength, hfirst, hlast⟩ := hshape
        have htoList := toList_eq_bracketed (by omega) hfirst hlast
        refine ⟨(leafText?_eq_some htext).1, ?_, ?_⟩
        · rw [(leafText?_eq_some htext).2, ← String.toList_inj, htoList]
          simp
        · intro hempty
          have hnil : text.toList.tail.dropLast = [] := by simpa using congrArg String.toList hempty
          rw [hnil] at htoList
          rw [htoList] at hlength
          simp at hlength
      · cases h
    · cases h
  · cases h

end Syntax.Node

namespace Symbol

open Syntax (Cursor)

/-- The ways in which the node at a place opens an entry. -/
inductive Opens (here : Cursor) (scope : Scope) (naming : Naming) : Entry String → Prop
  | label {name} (hscope : scope = .symbol) (hkind : here.kind = .label) (hname : here.node.labelName? = some name) :
      Opens here scope naming (entryAt here name (.named .label))
  | ident {name role} (hscope : scope = .symbol) (hkind : here.kind = .ident)
      (hname : here.node.identName? = some name) (hrole : naming.role? = some role) :
      Opens here scope naming (entryAt here name (.named role))
  | group (hscope : scope = .braced) (hkind : isGroup scope here.kind) :
      Opens here scope naming (entryAt here "" .group)
  | heading {parent} (hkind : here.kind = .markup) (hparent : here.parent? = some parent)
      (hheading : parent.kind = .heading) (htext : here.fullText ≠ "") :
      Opens here scope naming (entryAt here here.fullText (.heading parent.node.headingDepth))

theorem affectsSymbol_iff {scope : Scope} : scope.affectsSymbol ↔ scope = .symbol := by
  cases scope <;> decide

theorem isGroup_symbol (kind : Syntax.Kind) : isGroup .symbol kind = false := by
  simp [isGroup, Scope.affectsMarkup, Scope.affectsBlock, Scope.affectsExpr]

variable {here : Cursor} {scope : Scope} {naming : Naming} {entry : Entry String}

theorem opens_of_classify (h : classify here scope naming = .ok (some entry)) : Opens here scope naming entry := by
  unfold classify at h
  split at h
  · next hlabel =>
    unfold classifyLabel at h
    split at h
    · cases h
    split at h
    · next name hname =>
      cases h
      exact .label (affectsSymbol_iff.1 hlabel.2) hlabel.1 hname
    · cases h
  split at h
  · next hident =>
    unfold classifyIdent at h
    split at h
    · next name hname =>
      cases hrole : naming.role? with
      | none => rw [hrole] at h; cases h
      | some role =>
        rw [hrole] at h
        cases h
        exact .ident (affectsSymbol_iff.1 hident.2) hident.1 hname hrole
    · cases h
  split at h
  · next hgroup =>
    cases h
    cases scope with
    | symbol => rw [isGroup_symbol] at hgroup; cases hgroup
    | braced => exact .group rfl hgroup
  split at h
  · next hmarkup =>
    unfold classifyMarkup at h
    split at h
    · next parent hparent =>
      split at h
      · next hheading =>
        cases h
        exact .heading hmarkup.1 hparent hheading.1 hheading.2
      · cases h
    · cases h
  · cases h

/-- Whether the text of a label or of an identifier has not the shape that its kind claims. -/
def Misshapen (here : Cursor) : Prop :=
  here.kind = .label ∧ here.node.labelName? = none ∨ here.kind = .ident ∧ here.node.identName? = none

instance : Decidable (Misshapen here) := inferInstanceAs (Decidable (_ ∧ _ ∨ _ ∧ _))

/-- Only what should be the name of a symbol can have the wrong shape. -/
theorem misshapen_of_classify {error : Syntax.StructureError} (h : classify here scope naming = .error error) :
    scope = .symbol ∧ Misshapen here ∧ error = castFailure here := by
  unfold classify at h
  split at h
  · next hlabel =>
    unfold classifyLabel at h
    split at h
    · cases h
    split at h
    · cases h
    · next hname =>
      cases h
      exact ⟨affectsSymbol_iff.1 hlabel.2, .inl ⟨hlabel.1, hname⟩, rfl⟩
  split at h
  · next hident =>
    unfold classifyIdent at h
    split at h
    · cases h
    · next hname =>
      cases h
      exact ⟨affectsSymbol_iff.1 hident.2, .inr ⟨hident.1, hname⟩, rfl⟩
  split at h
  · cases h
  split at h
  · cases h
  · cases h

/-- The level of the heading whose text is at a place. -/
def headingLevel? (here : Cursor) : Option Int :=
  if here.kind = .markup then (classifyMarkup here).bind (·.kind.level?) else none

/-- A heading is opened by its text. -/
theorem Opens.headingLevel? (h : Opens here scope naming entry) {level : Int}
    (hlevel : entry.kind.level? = some level) : headingLevel? here = some level := by
  cases h with
  | label _ _ _ => cases hlevel
  | ident _ _ _ _ => cases hlevel
  | group _ _ => cases hlevel
  | heading hkind hparent hheading htext =>
    rw [Symbol.headingLevel?, if_pos hkind, classifyMarkup, hparent, ← hlevel]
    simp [hheading, htext]

/-- No node that separates others opens an entry. -/
theorem Opens.not_separator (h : Opens here scope naming entry) : here.kind ≠ .lineComment ∧ here.kind ≠ .space := by
  cases h with
  | label _ hkind _ => simp [hkind]
  | ident _ hkind _ _ => simp [hkind]
  | group _ hkind => constructor <;> intro hseparator <;> rw [hseparator] at hkind <;> cases hkind
  | heading hkind _ _ _ => simp [hkind]

/-- Whatever its name, a closure is no entry by itself. -/
theorem classify_closure (hkind : here.kind = .closure) : classify here scope naming = .ok none := by
  cases scope <;> simp [classify, hkind, isGroup, isMarkupGroup, isBlockGroup, isExprGroup]

/-- Where a function's name is expected, an identifier is an entry or an error. -/
theorem classify_functionName (hkind : here.kind = .ident) :
    classify here .symbol .functionName ≠ .ok none := by
  rw [classify, if_neg (by simp [hkind]), if_pos ⟨hkind, rfl⟩, classifyIdent]
  split
  · intro h; cases h
  · intro h; cases h

end Symbol

end DocOutline
