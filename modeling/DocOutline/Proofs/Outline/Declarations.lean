import DocOutline.Proofs.Walk.Additions

/-!
# Declared variables

A variable of an outline is an identifier in the bound side of a binding or a loop, that is in front of its `=` or its
`in`, or one among parameters (`declared_of_run`). There is one way for an identifier to become a variable that is not
declared: where nothing in front of the sign can be a pattern, the walk takes the first expression behind it for one.
-/

namespace DocOutline

open DocOutline.Symbol (Entry entryAt)
open DocOutline.Syntax (Cursor Node)

/-- The sign behind the bound side of a declaration. -/
def Syntax.Kind.boundSign? : Syntax.Kind → Option Syntax.Kind
  | .letBinding => some .eq
  | .forLoop => some .inKeyword
  | _ => none

/-- The bound side of a declaration: its children in front of the sign. Other nodes have none. -/
def Syntax.Cursor.boundSide (here : Cursor) : List Cursor :=
  match here.kind.boundSign? with
  | some sign => here.children.takeWhile (·.kind != sign)
  | none => []

namespace Outline

/-- Whether a place is in the bound side of a declaration, or among parameters. -/
def Declared (root here : Cursor) : Prop :=
  ∃ holder ∈ root.places, here ∈ holder.places ∧
    (holder.kind = .params ∨ ∃ declaration ∈ root.places, holder ∈ declaration.boundSide)

def Misread (root here : Cursor) : Prop :=
  ∃ declaration ∈ root.places, declaration.kind.boundSign?.isSome ∧
    (∀ child ∈ declaration.boundSide, child.kind.isPattern = false) ∧
    ∃ value, Visit.pattern? declaration.children = some value ∧ here ∈ value.places

/-- The pattern of a declaration is in its bound side, unless nothing there can be one. -/
theorem mem_boundSide_of_pattern? {declaration pattern : Cursor} (hsign : declaration.kind.boundSign?.isSome)
    (hpattern : Visit.pattern? declaration.children = some pattern) :
    pattern ∈ declaration.boundSide ∨ ∀ child ∈ declaration.boundSide, child.kind.isPattern = false := by
  obtain ⟨sign, hsign⟩ := Option.isSome_iff_exists.1 hsign
  have hside : declaration.boundSide = declaration.children.takeWhile (·.kind != sign) := by
    rw [Syntax.Cursor.boundSide, hsign]
  rw [hside]
  rw [Visit.pattern?, ← List.takeWhile_append_dropWhile (p := (·.kind != sign)) (l := declaration.children),
    List.find?_append] at hpattern
  cases hfront : (declaration.children.takeWhile (·.kind != sign)).find? (·.kind.isPattern) with
  | some first =>
    rw [hfront] at hpattern
    cases hpattern
    exact .inl (List.mem_of_find?_eq_some hfront)
  | none =>
    right
    simpa using List.find?_eq_none.1 hfront

/-- What holds bound names is declared, or misread. -/
theorem declared_of_binds {root holder here : Cursor} (hholder : holder ∈ root.places) (hbinds : Binds root holder)
    (hhere : here ∈ holder.places) : Declared root here ∨ Misread root here := by
  rcases hbinds with hparams | ⟨declaration, hdeclaration, hkind, hpattern⟩
  · exact .inl ⟨holder, hholder, hhere, .inl hparams⟩
  · have hsign : declaration.kind.boundSign?.isSome := by
      rcases hkind with hkind | hkind <;> rw [hkind] <;> rfl
    rcases mem_boundSide_of_pattern? hsign hpattern with hmem | hnone
    · exact .inl ⟨holder, hholder, hhere, .inr ⟨declaration, hdeclaration, hmem⟩⟩
    · exact .inr ⟨declaration, hdeclaration, hsign, hnone, holder, hpattern, hhere⟩

/-- **Only what is declared is a variable.** Every variable of an outline covers an identifier that is in front of the
sign of a declaration or among parameters, or else one that is misread for want of a pattern in front of the sign
(`_check_let_binding` and `Pattern`; specification, section 4.2). -/
theorem declared_of_run {root : Cursor} {builder : Builder} {forest : Forest} {entry : Entry String}
    (h : (Builder.run root builder).1 = .ok forest) (hentry : entry ∈ (flattenAll 0 forest).map Prod.fst)
    (hkind : entry.kind = .named .variable) :
    ∃ here ∈ root.places, here.kind = .ident ∧ here.node.identName? = some entry.name ∧
      entry = entryAt here entry.name (.named .variable) ∧ (Declared root here ∨ Misread root here) := by
  obtain ⟨visit, added, hreached, hyields, hlasting⟩ := exists_reached_of_run h entry hentry
  obtain rfl : added = entry := Entry.eq_of_lasting_eq hlasting.symm (by rw [hkind]; nofun)
  refine ⟨visit.here, hreached.mem_places, ?_⟩
  have hfits := hreached.namingFits
  cases hyields with
  | comment => cases hkind
  | function => cases hkind
  | entry hclass =>
    cases Symbol.opens_of_classify hclass with
    | label => cases hkind
    | group => cases hkind
    | heading => cases hkind
    | @ident name role hscope hident hname hrole =>
      cases hkind
      refine ⟨hident, hname, rfl, ?_⟩
      cases hnaming : visit.naming with
      | reference => rw [hnaming] at hrole; cases hrole
      | functionName => rw [hnaming] at hrole; cases hrole
      | variableBinding =>
        obtain ⟨holder, hholder, hbinds, hhere⟩ := hfits.variableBinding hnaming
        exact declared_of_binds hholder hbinds hhere
      | parameter =>
        obtain ⟨holder, hholder, hparams, hhere⟩ := hfits.parameter hnaming
        exact declared_of_binds hholder (.inl hparams) hhere

/-- A loop over pairs, with a binding in its body. -/
def pairLoop : Node :=
  .inner .markup
    [.leaf .hash "#",
      .inner .forLoop
        [.leaf .forKeyword "for", .leaf .space " ",
          .inner .destructuring
            [.leaf .leftParen "(", .leaf .ident "k", .leaf .comma ",", .leaf .space " ", .leaf .ident "v",
              .leaf .rightParen ")"],
          .leaf .space " ", .leaf .inKeyword "in", .leaf .space " ", .leaf .ident "d", .leaf .space " ",
          .inner .codeBlock
            [.leaf .leftBrace "\x7b",
              .inner .letBinding
                [.leaf .letKeyword "let", .leaf .space " ", .leaf .ident "n", .leaf .space " ", .leaf .eq "=",
                  .leaf .space " ", .leaf .ident "k"],
              .leaf .rightBrace "\x7d"]]]

def pairLoopOutline : Forest :=
  [mk ⟨"k", .named .variable, 6, 7⟩ [], mk ⟨"v", .named .variable, 9, 10⟩ [], mk ⟨"n", .named .variable, 22, 23⟩ []]

theorem declared_of_run_pairLoop :
    (Builder.run (Cursor.root pairLoop) { scope := .symbol }).1 = .ok pairLoopOutline ∧
      ∃ here ∈ (Cursor.root pairLoop).places, here.kind = .ident ∧ here.node.identName? = some "n" ∧
        ⟨"n", .named .variable, 22, 23⟩ = entryAt here "n" (.named .variable) ∧
        (Declared (Cursor.root pairLoop) here ∨ Misread (Cursor.root pairLoop) here) := by
  have hrun : (Builder.run (Cursor.root pairLoop) { scope := .symbol }).1 = .ok pairLoopOutline :=
    eq_ok_of_toOption (by decide +kernel)
  have hentry : ⟨"n", .named .variable, 22, 23⟩ ∈ (flattenAll 0 pairLoopOutline).map Prod.fst := by decide
  exact ⟨hrun, declared_of_run hrun hentry rfl⟩

/-- A binding without a name. -/
def brokenBinding : Node :=
  .inner .markup
    [.leaf .hash "#",
      .inner .letBinding
        [.leaf .letKeyword "let", .leaf .space " ", .leaf .eq "=", .leaf .space " ", .leaf .ident "x"]]

/-- In a binding without a name, the identifier behind the sign becomes a variable. -/
theorem not_declared_brokenBinding :
    (Builder.run (Cursor.root brokenBinding) { scope := .symbol }).1 = .ok [mk ⟨"x", .named .variable, 7, 8⟩ []] ∧
      ∀ here ∈ (Cursor.root brokenBinding).places, here.kind = .ident →
        ¬ Declared (Cursor.root brokenBinding) here := by
  constructor
  · exact eq_ok_of_toOption (by decide +kernel)
  · have hparams : ∀ holder ∈ (Cursor.root brokenBinding).places, holder.kind ≠ .params := by decide
    have hside : ∀ declaration ∈ (Cursor.root brokenBinding).places, ∀ holder ∈ declaration.boundSide,
        ∀ inner ∈ holder.places, inner.kind ≠ .ident := by decide
    rintro here - hident ⟨holder, hholder, hhere, hkind | ⟨declaration, hdeclaration, hmem⟩⟩
    · exact hparams holder hholder hkind
    · exact hside declaration hdeclaration holder hmem here hhere hident

end Outline

end DocOutline
