import DocOutline.Proofs.Walk.Traversal

/-!
# Functions of an outline

Where names are entries, a closure becomes a function if one of its children is an expression. The entry covers the
closure, and has the name of its first child if that is an identifier. The entry for the name alone, which the walk makes
first, does not stay.

So functions come about place by place (`located_functions`). Main statement `functions_of_run`: the functions of an outline,
in pre-order, are the entries of the closures with an expression that the walk enters, one for each time.
-/

namespace DocOutline

open DocOutline.Symbol (Entry Naming Scope classify entryAt)
open DocOutline.Syntax (Cursor Node)

/-- Whether a place is that of a closure which becomes a function: one of its children is an expression. -/
def Syntax.Cursor.isFunction (here : Cursor) : Bool := here.kind == .closure && here.children.any (·.kind.isExpr)

namespace Outline

/-- The name under which a closure is entered: the text of its first child, if that is an identifier. -/
def functionName (closure : Cursor) : String :=
  match closure.children.head? with
  | some first => if first.kind = .ident then first.fullText else anonymousName
  | none => anonymousName

def functionEntry (closure : Cursor) : Entry String := entryAt closure (functionName closure) (.named .function)

def functions (entries : List (Entry String)) : List (Entry String) :=
  entries.filter (·.kind == .named .function)

theorem functionName_of_some {closure : Cursor} {name : String} (h : functionName? closure = some name) :
    name = functionName closure := by
  unfold functionName? at h
  unfold functionName
  cases hchildren : closure.children with
  | nil =>
    rw [hchildren] at h
    cases h
    rfl
  | cons first rest =>
    simp only [hchildren] at h
    simp only [List.head?_cons]
    by_cases hident : first.kind = .ident
    · rw [if_pos hident] at h ⊢
      exact (Node.identName?_eq_some h).2.1.symm
    · rw [if_neg hident] at h ⊢
      cases h
      rfl

theorem body?_eq_none_iff {places : List Cursor} : Visit.body? places = none ↔ places.any (·.kind.isExpr) = false := by
  rw [Visit.body?, List.find?_eq_none, List.any_eq_false]
  simp only [List.mem_reverse]

theorem isFunction_of_body? {closure body : Cursor} (hkind : closure.kind = .closure)
    (hbody : Visit.body? closure.children = some body) : closure.isFunction := by
  have hany : closure.children.any (·.kind.isExpr) ≠ false := fun h => by
    rw [body?_eq_none_iff.2 h] at hbody
    cases hbody
  rw [Cursor.isFunction, hkind, Bool.eq_true_of_not_eq_false hany]
  rfl

theorem not_isFunction_of_body? {closure : Cursor}
    (h : closure.kind = .closure → Visit.body? closure.children = none) : closure.isFunction = false := by
  rw [Cursor.isFunction, Bool.and_eq_false_iff]
  by_cases hkind : closure.kind = .closure
  · exact .inr (body?_eq_none_iff.1 (h hkind))
  · exact .inl (beq_eq_false_iff_ne.2 hkind)

/-- Where functions are entries, no identifier is an entry under the name of one. -/
theorem Reached.not_function {root : Cursor} {visit : Visit} {symbol : Entry String}
    (h : Reached .symbol ⟨.reference, root⟩ visit)
    (hclass : classify visit.here .symbol visit.naming = .ok (some symbol)) : symbol.kind ≠ .named .function := by
  cases Symbol.opens_of_classify hclass with
  | label | group | heading => nofun
  | @ident name role hscope hkind hname hrole =>
    rintro ⟨⟩
    cases hnaming : visit.naming with
    | functionName => cases h.namingFits.functionName hnaming
    | reference | variableBinding | parameter => rw [hnaming] at hrole; cases hrole

/-- The functions of an outline come about place by place: each closure with an expression has its entry. -/
theorem located_functions (root : Cursor) :
    Located .symbol root (·.kind == .named .function) fun here =>
      if here.isFunction then some (functionEntry here) else none where
  entry hreached hclass := by
    have hnot := not_isFunction_of_body? fun hkind => by cases hclass.symm.trans (Symbol.classify_closure hkind)
    rw [hnot, List.filter_cons_of_neg (by simpa using hreached.not_function hclass)]
    rfl
  function hkind hname hbody := by
    rw [isFunction_of_body? hkind hbody, functionName_of_some hname]
    rfl
  structural hclass hbody := by rw [not_isFunction_of_body? (hbody rfl), if_neg Bool.false_ne_true]
  name hident := by
    rw [not_isFunction_of_body? fun hkind => (by cases hident.symm.trans hkind), if_neg Bool.false_ne_true]
  commentRun _ hkind := by rw [hkind]; rfl

/-! ## Functions of an outline -/

/-- Entering a closure opens one entry for it, and nothing but its body is looked at; a closure without an expression
leaves everything as it is. -/
theorem checkAt_closure {closure : Cursor} {before after : Builder} (hkind : closure.kind = .closure)
    (hscope : before.scope = .symbol) (h : checkAt closure before = (.ok (), after)) :
    (closure.isFunction = false → after = before) ∧
      (closure.isFunction → ∃ body ∈ closure.children, ∃ inner,
        Walked .symbol [⟨.reference, body⟩] (⟨functionEntry closure, []⟩ :: before.frames) inner ∧
          after = { before with frames := closeDown before.frames.length inner }) := by
  obtain ⟨scope, frames, naming, depth⟩ := before
  obtain rfl : scope = .symbol := hscope
  obtain ⟨hframes, hwalked⟩ := walked_of_checkAt h
  cases hwalked with
  | entry hclass => cases hclass.symm.trans (Symbol.classify_closure hkind)
  | comment _ hcomment => cases hkind.symm.trans hcomment
  | @function _ _ name body _ inner _ _ _ hname hbody hinner hrest =>
    rw [Walked.nil_iff] at hrest
    rw [functionName_of_some hname] at hinner
    refine ⟨fun hnot => ?_, fun _ => ⟨body, Visit.mem_of_body? hbody, inner, hinner, by rw [hframes, hrest]⟩⟩
    rw [isFunction_of_body? hkind hbody] at hnot
    cases hnot
  | parts _ _ hbody hparts hrest =>
    have hnone := hbody rfl hkind
    rw [Visit.parts_closure_eq_nil hkind hnone, Walked.nil_iff] at hparts
    rw [Walked.nil_iff, hparts] at hrest
    refine ⟨fun _ => by rw [hframes, hrest], fun hfunction => ?_⟩
    rw [not_isFunction_of_body? fun _ => hnone] at hfunction
    cases hfunction

/-- The functions of an outline, in pre-order, are the entries of the closures that the walk enters. -/
theorem exists_traverses_of_run {root : Cursor} {builder : Builder} {forest : Forest} (hscope : builder.scope = .symbol)
    (h : (Builder.run root builder).1 = .ok forest) :
    ∃ entered, Traverses .symbol [⟨.reference, root⟩] entered ∧
      functions ((flattenAll 0 forest).map Prod.fst) = (entered.filter (·.isFunction)).map functionEntry := by
  have hlocated := located_functions root
  rw [← hscope] at hlocated
  obtain ⟨entered, htraverses, hfunctions⟩ := exists_entered_of_run hlocated h
  rw [hscope] at htraverses
  refine ⟨entered, htraverses, hfunctions.trans ?_⟩
  rw [← List.filterMap_eq_map, List.filterMap_filter]
  rfl

/-- A closure that is reached and has an expression is a function of the outline. -/
theorem functionEntry_mem_of_run {root : Cursor} {builder : Builder} {forest : Forest} {visit : Visit}
    (hscope : builder.scope = .symbol) (h : (Builder.run root builder).1 = .ok forest)
    (hreached : Reached .symbol ⟨.reference, root⟩ visit) (hfunction : visit.here.isFunction) :
    functionEntry visit.here ∈ (flattenAll 0 forest).map Prod.fst := by
  obtain ⟨entered, htraverses, hfunctions⟩ := exists_traverses_of_run hscope h
  obtain ⟨-, inner, -, -, hsubset⟩ := htraverses.of_reached (List.mem_singleton_self _) hreached
  have hmem : visit.here ∈ entered.filter (·.isFunction) :=
    List.mem_filter.2 ⟨hsubset (List.mem_cons_self ..), hfunction⟩
  have hentry := List.mem_map_of_mem (f := functionEntry) hmem
  rw [← hfunctions] at hentry
  exact (List.mem_filter.1 hentry).1

/-- **Functions cover their closures.** Each function of an outline covers a closure and has the name of its first
child, if that is an identifier. In pre-order, the functions are the entries of the closures with an expression that the
walk enters, one for each time: such a closure opens one entry and nothing but its body is looked at, and a closure
without an expression leaves everything as it is (`_check_closure`; specification, section 4.2). -/
theorem functions_of_run {root : Cursor} {builder : Builder} {forest : Forest} (hscope : builder.scope = .symbol)
    (h : (Builder.run root builder).1 = .ok forest) :
    (∀ entry ∈ (flattenAll 0 forest).map Prod.fst, entry.kind = .named .function →
      ∃ closure ∈ root.places, closure.kind = .closure ∧ entry.start = closure.offset ∧ entry.stop = closure.stop ∧
        entry.name = functionName closure) ∧
    (∃! entered, Traverses .symbol [⟨.reference, root⟩] entered ∧
      functions ((flattenAll 0 forest).map Prod.fst) = (entered.filter (·.isFunction)).map functionEntry) ∧
    ∀ closure before after, closure.kind = .closure → before.scope = .symbol →
      checkAt closure before = (.ok (), after) →
        (closure.isFunction = false → after = before) ∧
        (closure.isFunction → ∃ body ∈ closure.children, ∃ inner,
          Walked .symbol [⟨.reference, body⟩] (⟨functionEntry closure, []⟩ :: before.frames) inner ∧
            after = { before with frames := closeDown before.frames.length inner }) := by
  refine ⟨fun entry hentry hkind => ?_, ?_, fun closure before after hkind hbefore => checkAt_closure hkind hbefore⟩
  · obtain ⟨visit, added, hreached, hyields, hlasting⟩ := exists_reached_of_run h entry hentry
    obtain rfl : added = entry := Entry.eq_of_lasting_eq hlasting.symm (by rw [hkind]; nofun)
    rw [hscope] at hreached hyields
    cases hyields with
    | entry hclass => exact absurd hkind (hreached.not_function hclass)
    | comment => cases hkind
    | function _ hclosure hname =>
      exact ⟨visit.here, hreached.mem_places, hclosure, rfl, rfl, functionName_of_some hname⟩
  · obtain ⟨entered, htraverses, hfunctions⟩ := exists_traverses_of_run hscope h
    exact ⟨entered, ⟨htraverses, hfunctions⟩, fun entered' h' => h'.1.unique htraverses⟩

/-- A function that gives a function, a closure without an expression, and a heading in the body. -/
def nestedClosures : Node :=
  .inner .markup
    [.leaf .hash "#",
      .inner .letBinding
        [.leaf .letKeyword "let", .leaf .space " ",
          .inner .closure
            [.leaf .ident "é", .inner .params [.leaf .leftParen "(", .leaf .ident "x", .leaf .rightParen ")"],
              .leaf .eq "=",
              .inner .closure
                [.inner .params [.leaf .leftParen "(", .leaf .ident "y", .leaf .rightParen ")"], .leaf .arrow "=>",
                  .inner .contentBlock
                    [.leaf .leftBracket "[",
                      .inner .heading [.leaf .headingMarker "=", .inner .markup [.leaf .text "A"]],
                      .inner .closure [.inner .params [.leaf .leftParen "(", .leaf .rightParen ")"]],
                      .leaf .rightBracket "]"]]]],
      .leaf .label "<b>"]

def nestedClosuresOutline : Forest :=
  [mk ⟨"é", .named .function, 5, 22⟩ [mk ⟨"<anonymous>", .named .function, 11, 22⟩ []],
    mk ⟨"A", .heading 1, 18, 19⟩ [], mk ⟨"b", .named .label, 22, 25⟩ []]

theorem functions_of_run_nestedClosures :
    (Builder.run (Cursor.root nestedClosures) { scope := .symbol }).1 = .ok nestedClosuresOutline ∧
      ∃! entered, Traverses .symbol [⟨.reference, Cursor.root nestedClosures⟩] entered ∧
        functions ((flattenAll 0 nestedClosuresOutline).map Prod.fst) =
          (entered.filter (·.isFunction)).map functionEntry := by
  have hrun : (Builder.run (Cursor.root nestedClosures) { scope := .symbol }).1 = .ok nestedClosuresOutline :=
    eq_ok_of_toOption (by decide +kernel)
  exact ⟨hrun, (functions_of_run rfl hrun).2.1⟩

end Outline

end DocOutline
