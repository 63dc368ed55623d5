import DocOutline.Proofs.Walk.Composition

/-!
# Walks have derivations

`Performs` says of an action that it does some visits: whenever it succeeds, it has changed nothing but the frames,
and those as checking the places of the visits does. Each function of the walk performs the visits that belong to it,
given that checking a child does the visit of the child; so checking any place does the visit of that place
(`walked_of_checkAt`), and a run that gives an outline has a derivation from the sentinel (`walked_of_run`).
-/

namespace DocOutline.Outline

open DocOutline.Symbol (Entry Naming Scope classify entryAt)
open DocOutline.Syntax (Cursor Node)

/-! ## Actions and their visits -/

/-- In the given scope and naming context, an action that succeeds does the visits: it changes nothing but the frames,
and those as checking the places of the visits does. -/
def Performs (scope : Scope) (naming : Naming) (action : Walk Unit) (visits : List Visit) : Prop :=
  ∀ frames depth after, action ⟨scope, frames, naming, depth⟩ = (.ok (), after) →
    ∃ frames', after = ⟨scope, frames', naming, depth⟩ ∧ Walked scope visits frames frames'

/-- Checking a place does the visit of it, if there is room. -/
def Checks (room : Room) (here : Cursor) : Prop :=
  ∀ scope naming, Performs scope naming (checkWithin room here) [⟨naming, here⟩]

theorem performs_composes (scope : Scope) : Composes scope (Performs scope) where
  skip naming frames depth after h := by
    obtain ⟨-, rfl⟩ := Walk.pure_ok.1 h
    exact ⟨frames, rfl, .done⟩
  andThen h h' frames depth after hok := by
    obtain ⟨u, middle, hfirst, hsecond⟩ := Walk.bind_ok.1 hok
    obtain ⟨frames', rfl, hwalked⟩ := h frames depth middle hfirst
    obtain ⟨frames'', rfl, hwalked'⟩ := h' frames' depth after hsecond
    exact ⟨frames'', rfl, hwalked.append hwalked'⟩
  withNaming h frames depth after hok := by
    obtain ⟨inner, hinner, rfl⟩ := Walk.withNaming_ok.1 hok
    obtain ⟨frames', rfl, hwalked⟩ := h frames depth inner hinner
    exact ⟨frames', rfl, hwalked⟩
  ofState h frames depth after hok := by
    obtain ⟨builder, middle, hget, hok⟩ := Walk.bind_ok.1 hok
    obtain ⟨rfl, rfl⟩ := Walk.get_ok.1 hget
    exact h _ rfl rfl frames depth after hok

/-! ## Nodes -/

section
variable {room : Room} {scope : Scope} {naming naming' : Naming} {here : Cursor}

/-- The name of a closure becomes a finished function without anything in it. -/
theorem walked_name {first : Cursor} {top : Frame} {below after : List Frame} (hkind : first.kind = .ident)
    (h : Walked .symbol [⟨.functionName, first⟩] (top :: below) after) :
    ∃ name, first.node.identName? = some name ∧
      after = top.adopt (.mk (entryAt first name (.named .function)) []) :: below := by
  cases h with
  | entry hclass hinner hrest =>
    cases Symbol.opens_of_classify hclass with
    | label _ hkind' _ => rw [hkind] at hkind'; cases hkind'
    | group hscope _ => cases hscope
    | heading hkind' _ _ _ => rw [hkind] at hkind'; cases hkind'
    | @ident name role hscope _ hname hrole =>
      obtain rfl : Symbol.Role.function = role := Option.some.inj hrole
      have hnone : (⟨.functionName, first⟩ : Visit).beneath = [] := by
        simp [Visit.beneath, Visit.each, Cursor.children, (Syntax.Node.identName?_eq_some hname).1, Cursor.siblings]
      rw [hnone, Walked.nil_iff] at hinner
      rw [Walked.nil_iff, hinner] at hrest
      refine ⟨name, hname, ?_⟩
      rw [hrest]
      exact closeDown_cons _ _ _
  | comment hclass hkind' hrest => rw [hkind] at hkind'; cases hkind'
  | function hscope hkind' hname hbody hinner hrest => rw [hkind] at hkind'; cases hkind'
  | parts hclass hkind' hbody hparts hrest => exact absurd hclass (Symbol.classify_functionName hkind)

theorem performs_checkSymbol {symbol : Entry String} (hclass : classify here scope naming = .ok (some symbol))
    (h : ∀ child ∈ here.children, Checks room child) :
    Performs scope (namingBeneath here.kind naming) (checkSymbol symbol (here.children.map (branchOf (checkWithin room))))
      [⟨naming, here⟩] := by
  intro frames depth after hok
  obtain ⟨u, settled, hroom, hok⟩ := Walk.bind_ok.1 hok
  obtain rfl := Walk.makeRoom_ok hroom
  obtain ⟨u, pushed, hpush, hok⟩ := Walk.bind_ok.1 hok
  obtain rfl := Walk.push_ok.1 hpush
  obtain ⟨n, builder, hheight, hok⟩ := Walk.bind_ok.1 hok
  obtain ⟨rfl, rfl⟩ := Walk.height_ok.1 hheight
  obtain ⟨u, inner, hinner, hok⟩ := Walk.bind_ok.1 hok
  obtain ⟨frames', rfl, hwalked⟩ := (performs_composes scope).checkAll (fun child hchild => h child hchild scope) _ _ _ hinner
  obtain rfl := Walk.closeTo_ok hok
  exact ⟨_, rfl, .entry hclass hwalked .done⟩

/-- Without a name, a closure is entered under one of its own. -/
theorem takeClosureEntry_of_unnamed (top : Frame) (below : List Frame) (depth : Nat) :
    takeClosureEntry here top.finished.length ⟨scope, top :: below, naming, depth⟩ =
      (.ok (anonymousEntry here), ⟨scope, top :: below, naming, depth⟩) := by
  refine Walk.bind_ok.2 ⟨top.finished, _, Walk.finished_ok.2 ⟨rfl, top, below, rfl, rfl⟩, ?_⟩
  rw [if_pos rfl]
  exact Walk.pure_ok.2 ⟨rfl, rfl⟩

/-- The entry that was made for the name is taken back, and widened. -/
theorem takeClosureEntry_of_named (first : Cursor) (name : String) (top : Frame) (below : List Frame) (depth : Nat) :
    takeClosureEntry here top.finished.length
        ⟨scope, top.adopt (.mk (entryAt first name (.named .function)) []) :: below, naming, depth⟩ =
      (.ok (entryAt here name (.named .function)), ⟨scope, top :: below, naming, depth⟩) := by
  have hlonger (outline : Outline String) : (top.adopt outline).finished.length ≠ top.finished.length :=
    Nat.succ_ne_self _
  refine Walk.bind_ok.2 ⟨_, _, Walk.finished_ok.2 ⟨rfl, _, below, rfl, rfl⟩, ?_⟩
  rw [if_neg (hlonger _)]
  refine Walk.bind_ok.2 ⟨(), _, Walk.changeFinished_ok.2 ⟨_, below, rfl, rfl⟩, ?_⟩
  exact Walk.pure_ok.2 ⟨rfl, rfl⟩

/-- Behind the check of its name, a closure gets its entry, and the frames are as before. -/
theorem takeClosureEntry_of_walked {top : Frame} {below frames : List Frame}
    (hname : Walked .symbol (Visit.closureName here.children) (top :: below) frames) (naming : Naming) (depth : Nat) :
    ∃ name, functionName? here = some name ∧
      takeClosureEntry here top.finished.length ⟨.symbol, frames, naming, depth⟩ =
        (.ok (entryAt here name (.named .function)), ⟨.symbol, top :: below, naming, depth⟩) := by
  unfold functionName?
  cases hchildren : here.children with
  | nil =>
    rw [hchildren] at hname
    obtain rfl := Walked.nil_iff.1 hname
    exact ⟨anonymousName, rfl, takeClosureEntry_of_unnamed top below depth⟩
  | cons first rest =>
    rw [hchildren] at hname
    by_cases hident : first.kind = .ident
    · have hvisits : Visit.closureName (first :: rest) = [⟨.functionName, first⟩] := by
        simp [Visit.closureName, Visit.each, hident]
      rw [hvisits] at hname
      obtain ⟨name, hcast, rfl⟩ := walked_name hident hname
      exact ⟨name, by simp [hident, hcast], takeClosureEntry_of_named first name top below depth⟩
    · have hvisits : Visit.closureName (first :: rest) = [] := by
        simp [Visit.closureName, Visit.each, hident]
      rw [hvisits] at hname
      obtain rfl := Walked.nil_iff.1 hname
      exact ⟨anonymousName, by simp [hident], takeClosureEntry_of_unnamed top below depth⟩

theorem performs_checkClosure (hkind : here.kind = .closure) (h : ∀ child ∈ here.children, Checks room child) :
    Performs .symbol naming' (checkClosure here (here.children.map (branchOf (checkWithin room)))) [⟨naming, here⟩] := by
  intro frames depth after hok
  obtain ⟨outlines, builder, hfinished, hok⟩ := Walk.bind_ok.1 hok
  obtain ⟨rfl, top, below, rfl, rfl⟩ := Walk.finished_ok.1 hfinished
  obtain ⟨u, named, hnamed, hok⟩ := Walk.bind_ok.1 hok
  obtain ⟨frames', rfl, hwalked⟩ :=
    (performs_composes .symbol).checkClosureName (fun child hchild => h child hchild .symbol) _ _ _ hnamed
  rw [← List.map_reverse, Composes.find?_map_branchOf (·.kind.isExpr)] at hok
  cases hbody : here.children.reverse.find? (·.kind.isExpr) with
  | none =>
    rw [hbody] at hok
    obtain ⟨-, rfl⟩ := Walk.pure_ok.1 hok
    have hparts : Visit.parts .symbol ⟨naming, here⟩ = Visit.closureName here.children := by
      simp only [Visit.parts, hkind]
      rfl
    exact ⟨frames', rfl, .parts (Symbol.classify_closure hkind) (by simp [hkind]) (fun _ _ => hbody)
      (hparts ▸ hwalked) .done⟩
  | some body =>
    rw [hbody] at hok
    obtain ⟨entry, taken, htake, hok⟩ := Walk.bind_ok.1 hok
    obtain ⟨name, hname, htaken⟩ := takeClosureEntry_of_walked hwalked naming' depth
    rw [htaken] at htake
    cases htake
    obtain ⟨u, pushed, hpush, hok⟩ := Walk.bind_ok.1 hok
    obtain rfl := Walk.push_ok.1 hpush
    obtain ⟨n, builder, hheight, hok⟩ := Walk.bind_ok.1 hok
    obtain ⟨rfl, rfl⟩ := Walk.height_ok.1 hheight
    obtain ⟨u, inner, hinner, hok⟩ := Walk.bind_ok.1 hok
    have hchecks : Checks room body := h body (List.mem_reverse.1 (List.mem_of_find?_eq_some hbody))
    obtain ⟨frames'', rfl, hwalked'⟩ := (performs_composes .symbol).withNaming (hchecks .symbol .reference) _ _ _ hinner
    obtain rfl := Walk.closeTo_ok hok
    exact ⟨_, rfl, .function rfl hkind hname hbody hwalked' .done⟩

theorem performs_parts {action : Walk Unit} (hclass : classify here scope naming = .ok none)
    (hkind : here.kind ≠ .lineComment) (hclosure : scope = .symbol → here.kind ≠ .closure)
    (h : Performs scope (namingBeneath here.kind naming) action (Visit.parts scope ⟨naming, here⟩)) :
    Performs scope (namingBeneath here.kind naming) action [⟨naming, here⟩] := by
  intro frames depth after hok
  obtain ⟨frames', rfl, hwalked⟩ := h frames depth after hok
  exact ⟨frames', rfl, .parts hclass hkind (fun hscope hk => absurd hk (hclosure hscope)) hwalked .done⟩

theorem performs_addComment (hclass : classify here scope naming = .ok none) (hkind : here.kind = .lineComment) :
    Performs scope naming' (Walk.changeFinished (addComment here)) [⟨naming, here⟩] := by
  intro frames depth after hok
  obtain ⟨top, below, rfl, rfl⟩ := Walk.changeFinished_ok.1 hok
  exact ⟨_, rfl, .comment hclass hkind .done⟩

theorem performs_checkStructure (hclass : classify here scope naming = .ok none)
    (h : ∀ child ∈ here.children, Checks room child) :
    Performs scope (namingBeneath here.kind naming) (checkStructure here (here.children.map (branchOf (checkWithin room))))
      [⟨naming, here⟩] := by
  by_cases hcomment : here.kind = .lineComment
  · have haction : checkStructure here (here.children.map (branchOf (checkWithin room))) = Walk.changeFinished (addComment here) := by
      simp only [checkStructure, hcomment]
    rw [haction]
    exact performs_addComment hclass hcomment
  by_cases hfunction : scope = .symbol ∧ here.kind = .closure
  · obtain ⟨rfl, hkind⟩ := hfunction
    simp only [checkStructure, hkind]
    intro frames depth after hok
    obtain ⟨builder, middle, hget, hok⟩ := Walk.bind_ok.1 hok
    obtain ⟨rfl, rfl⟩ := Walk.get_ok.1 hget
    exact performs_checkClosure hkind h _ _ _ hok
  · have hclosure : scope = .symbol → here.kind ≠ .closure := fun hscope hkind => hfunction ⟨hscope, hkind⟩
    exact performs_parts hclass hcomment hclosure
      ((performs_composes scope).checkStructure (fun child hchild => h child hchild scope) hcomment hclosure)

theorem requireDepth_ok {builder after : Builder} (h : requireDepth here builder = (.ok (), after)) :
    builder.depth ≤ Syntax.maxNesting ∧ after = builder := by
  obtain ⟨builder', middle, hget, hfail⟩ := Walk.bind_ok.1 h
  obtain ⟨rfl, rfl⟩ := Walk.get_ok.1 hget
  split at hfail
  · cases congrArg Prod.fst hfail
  · next hdepth => exact ⟨Nat.le_of_not_lt hdepth, (Walk.pure_ok.1 hfail).2⟩

/-- A visit that succeeds is not too deep, and goes on with what the node is classified as. -/
theorem visit_ok {branches : List Branch} {frames : List Frame} {depth : Nat} {after : Builder}
    (h : visit here branches ⟨scope, frames, naming, depth⟩ = (.ok (), after)) :
    depth < Syntax.maxNesting ∧ ∃ (symbol? : Option (Entry String)) (inner : Builder),
      classify here scope naming = .ok symbol? ∧
      (match symbol? with
        | some symbol => checkSymbol symbol branches
        | none => checkStructure here branches : Walk Unit) ⟨scope, frames, namingBeneath here.kind naming, depth + 1⟩ =
          (.ok (), inner) ∧
      after = { inner with naming, depth := inner.depth - 1 } := by
  obtain ⟨outer, hdeeper, rfl⟩ := Walk.deeper_ok.1 h
  obtain ⟨u, middle, hdepth, hget⟩ := Walk.bind_ok.1 hdeeper
  obtain ⟨hle, rfl⟩ := requireDepth_ok hdepth
  obtain ⟨builder, middle, hbuilder, hclassify⟩ := Walk.bind_ok.1 hget
  obtain ⟨rfl, rfl⟩ := Walk.get_ok.1 hbuilder
  obtain ⟨symbol?, middle, hclass, hnaming⟩ := Walk.bind_ok.1 hclassify
  obtain ⟨hclass', rfl⟩ := Walk.ofExcept_ok.1 hclass
  obtain ⟨inner, hinner, rfl⟩ := Walk.withNaming_ok.1 hnaming
  exact ⟨hle, symbol?, inner, hclass', hinner, rfl⟩

theorem performs_visit (h : ∀ child ∈ here.children, Checks room child) :
    Performs scope naming (visit here (here.children.map (branchOf (checkWithin room)))) [⟨naming, here⟩] := by
  intro frames depth after hok
  obtain ⟨-, symbol?, inner, hclass, hinner, rfl⟩ := visit_ok hok
  cases symbol? with
  | some symbol =>
    obtain ⟨frames', rfl, hwalked⟩ := performs_checkSymbol hclass h _ _ _ hinner
    exact ⟨frames', rfl, hwalked⟩
  | none =>
    obtain ⟨frames', rfl, hwalked⟩ := performs_checkStructure hclass h _ _ _ hinner
    exact ⟨frames', rfl, hwalked⟩

end

theorem checks (room : Room) (here : Cursor) : Checks room here := by
  induction here using Cursor.induction with
  | h here ih =>
    intro scope naming
    rw [checkWithin_eq_visitWithin_branchOf, visitWithin]
    split
    · exact performs_visit ih
    · intro frames depth after hok
      cases congrArg Prod.fst hok

/-- **A walk that succeeds is derivable.** It changes nothing but the frames, and those as the rules say. -/
theorem walked_of_checkAt {here : Cursor} {builder after : Builder} (h : checkAt here builder = (.ok (), after)) :
    after = { builder with frames := after.frames } ∧
      Walked builder.scope [⟨builder.naming, here⟩] builder.frames after.frames := by
  obtain ⟨frames, rfl, hwalked⟩ := checks .endless here builder.scope builder.naming builder.frames builder.depth after h
  exact ⟨rfl, hwalked⟩

/-- A run that gives an outline has walked through the tree with nothing but the sentinel open, and the outline is what
is finished in the sentinel once everything else is closed. -/
theorem walked_of_run {root : Cursor} {builder : Builder} {forest : Forest}
    (h : (Builder.run root builder).1 = .ok forest) :
    ∃ frames bottom, Walked builder.scope [⟨.reference, root⟩] [Frame.sentinel] frames ∧
      closeDown 1 frames = [bottom] ∧ forest = bottom.finished.reverse := by
  rcases hwalk : checkAt root builder.restart with ⟨result, after⟩
  have hclose : Walk.closeTo 1 after = (.ok (), { after with frames := closeDown 1 after.frames }) :=
    Walk.closeTo_apply Nat.one_pos
  simp only [Builder.run, Builder.finish, hwalk, hclose] at h
  cases result with
  | error fault => cases h
  | ok u =>
    obtain ⟨-, hwalked⟩ := walked_of_checkAt hwalk
    simp only [Except.bind] at h
    unfold Builder.forest at h
    split at h
    · next scope bottom naming depth hbottom =>
      cases h
      exact ⟨after.frames, bottom, hwalked, congrArg Builder.frames hbottom, rfl⟩
    · cases h

/-- What a walk gives can be computed where its failures cannot be compared. -/
theorem eq_ok_of_toOption {ε α : Type} {result : Except ε α} {a : α} (h : result.toOption = some a) :
    result = .ok a := by
  cases result with
  | error _ => cases h
  | ok _ => cases h; rfl

end DocOutline.Outline
