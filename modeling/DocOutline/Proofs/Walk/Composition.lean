import DocOutline.Proofs.Symbol.Opening
import DocOutline.Proofs.Syntax.Cursor
import DocOutline.Proofs.Walk.Derivation

/-!
# Actions put together

A walk is put together from few things: doing nothing, doing one thing after another, doing something in a naming context
of its own, and looking at the state. A relation between actions and the visits they do that is kept by these (`Composes`)
holds of each construct and its parts as soon as it holds of each place beneath and its visit (`Composes.checkStructure`).
-/

namespace DocOutline.Outline

open DocOutline.Symbol (Naming Scope)
open DocOutline.Syntax (Cursor)

def branchOf (check : Cursor → Walk Unit) (here : Cursor) : Branch := ⟨here, check here⟩

theorem checkWithin_eq_visitWithin_branchOf (room : Room) (here : Cursor) :
    checkWithin room here = visitWithin room here (here.children.map (branchOf (checkWithin room))) :=
  checkWithin_eq_visitWithin room here

theorem checkAt_eq_visit_branchOf (here : Cursor) :
    checkAt here = visit here (here.children.map (branchOf checkAt)) := checkAt_eq_visit here

/-- Whether a relation between naming contexts, actions and visits is kept when actions are put together. -/
structure Composes (scope : Scope) (Does : Naming → Walk Unit → List Visit → Prop) : Prop where
  skip : ∀ naming, Does naming (pure ()) []
  andThen : ∀ {naming action action' visits visits'}, Does naming action visits → Does naming action' visits' →
    Does naming (action >>= fun _ => action') (visits ++ visits')
  withNaming : ∀ {naming naming' action visits}, Does naming' action visits →
    Does naming (Walk.withNaming naming' action) visits
  ofState : ∀ {naming visits} {action : Builder → Walk Unit},
    (∀ builder, builder.scope = scope → builder.naming = naming → Does naming (action builder) visits) →
      Does naming (get >>= action) visits

namespace Composes

variable {check : Cursor → Walk Unit} {scope : Scope} {Does : Naming → Walk Unit → List Visit → Prop} {naming naming' : Naming}
  {here : Cursor} {places : List Cursor}

theorem checkIn (h : Composes scope Does) {place? : Option Cursor}
    (hplaces : ∀ place ∈ place?, ∀ naming, Does naming (check place) [⟨naming, place⟩]) :
    Does naming (Branch.checkIn naming' (place?.map (branchOf check))) (Visit.each naming' place?.toList) := by
  cases place? with
  | none => exact h.skip naming
  | some place => exact h.withNaming (hplaces place rfl naming')

theorem find?_map_branchOf (p : Cursor → Bool) (places : List Cursor) :
    (places.map (branchOf check)).find? (fun branch => p branch.here) = (places.find? p).map (branchOf check) := by
  rw [List.find?_map]
  rfl

theorem pattern?_map_branchOf (places : List Cursor) :
    Branch.pattern? (places.map (branchOf check)) = (Visit.pattern? places).map (branchOf check) :=
  find?_map_branchOf (·.kind.isPattern) places

section

variable (h : Composes scope Does) (hplaces : ∀ place ∈ places, ∀ naming, Does naming (check place) [⟨naming, place⟩])

include h hplaces

theorem checkAll : Does naming (Branch.checkAll (places.map (branchOf check))) (Visit.each naming places) := by
  induction places with
  | nil => exact h.skip naming
  | cons place places ih =>
    obtain ⟨hfirst, hrest⟩ := List.forall_mem_cons.1 hplaces
    change Does naming (check place >>= fun _ => Branch.checkAll (places.map (branchOf check)))
      ([⟨naming, place⟩] ++ Visit.each naming places)
    exact h.andThen (hfirst naming) (ih hrest)

theorem checkFirstExpr (after : Option Nat) :
    Does naming (Branch.checkFirstExpr naming' after (places.map (branchOf check))) (Visit.firstExpr naming' after places) := by
  rw [Branch.checkFirstExpr, Visit.firstExpr, find?_map_branchOf (·.kind.isExpr)]
  cases hfind : places.find? (·.kind.isExpr) with
  | none => exact h.skip naming
  | some place =>
    have hmem : place ∈ places := List.mem_of_find?_eq_some hfind
    simp only [Option.map_some, branchOf]
    split
    · exact h.skip naming
    · exact h.withNaming (hplaces place hmem naming')

theorem checkLastExpr (after : Option Nat) :
    Does naming (Branch.checkFirstExpr naming' after (places.map (branchOf check)).reverse)
      (Visit.firstExpr naming' after places.reverse) := by
  rw [← List.map_reverse]
  exact h.checkFirstExpr (fun place hplace => hplaces place (List.mem_reverse.1 hplace)) after

theorem checkFound (p : Cursor → Bool) :
    Does naming (Branch.checkIn naming' ((places.find? p).map (branchOf check))) (Visit.each naming' (places.find? p).toList) :=
  h.checkIn fun place hplace => hplaces place (List.mem_of_find?_eq_some hplace)

theorem checkLetBinding : Does naming (checkLetBinding (places.map (branchOf check))) (Visit.binding places) := by
  have hclosure : ((Visit.pattern? places).map (branchOf check)).any (·.here.kind.isClosure) =
      (Visit.pattern? places).any (·.kind.isClosure) := by
    cases Visit.pattern? places <;> rfl
  have hoffset : ((Visit.pattern? places).map (branchOf check)).map (·.here.offset) =
      (Visit.pattern? places).map (·.offset) := by
    cases Visit.pattern? places <;> rfl
  unfold Outline.checkLetBinding Visit.binding
  rw [pattern?_map_branchOf]
  simp only [hclosure, hoffset]
  split
  · exact h.checkFound hplaces _
  · exact h.andThen (h.checkFound hplaces _) (h.checkLastExpr hplaces _)

theorem checkForLoop : Does naming (checkForLoop (places.map (branchOf check))) (Visit.loop places) := by
  have hiterable : ((places.map (branchOf check)).dropWhile (·.here.kind != .inKeyword)).find? (·.here.kind.isExpr) =
      (Visit.iterable? places).map (branchOf check) := by
    rw [List.dropWhile_map, find?_map_branchOf (·.kind.isExpr)]
    rfl
  have hoffset : ((Visit.iterable? places).map (branchOf check)).map (·.here.offset) =
      (Visit.iterable? places).map (·.offset) := by
    cases Visit.iterable? places <;> rfl
  unfold Outline.checkForLoop Visit.loop
  rw [pattern?_map_branchOf]
  simp only [hiterable, hoffset, List.append_assoc]
  refine h.andThen (h.checkIn fun place hplace => ?_) (h.andThen (h.checkFound hplaces _) (h.checkLastExpr hplaces _))
  exact hplaces place (Visit.mem_of_iterable? hplace)

theorem checkNamed : Does naming (checkNamed (places.map (branchOf check))) (Visit.pair naming places) := by
  refine h.ofState fun builder _ hnaming => ?_
  rw [hnaming, find?_map_branchOf (·.kind = .ident)]
  unfold Visit.pair
  by_cases hparameter : naming = .parameter
  · simp only [hparameter, if_true]
    exact h.andThen (h.checkLastExpr hplaces _) (h.checkFound hplaces _)
  · simp only [if_neg hparameter]
    exact h.checkLastExpr hplaces _

theorem checkClosureName : Does naming (checkClosureName (places.map (branchOf check))) (Visit.closureName places) := by
  unfold Outline.checkClosureName Visit.closureName
  cases places with
  | nil => exact h.skip naming
  | cons first rest =>
    simp only [List.map_cons, List.head?_cons, Option.filter]
    split
    · next hident =>
      have hkind : first.kind = .ident := hident
      rw [if_pos (by simpa using hkind)]
      exact h.withNaming (hplaces first (List.mem_cons_self ..) .functionName)
    · next hident =>
      have hkind : first.kind ≠ .ident := hident
      rw [if_neg (by simpa using hkind)]
      exact h.skip naming

end

/-- **The parts of a construct.** Line comments and, where they become functions, closures are apart from this. -/
theorem checkStructure (h : Composes scope Does)
    (hplaces : ∀ place ∈ here.children, ∀ naming, Does naming (check place) [⟨naming, place⟩])
    (hcomment : here.kind ≠ .lineComment) (hfunction : scope = .symbol → here.kind ≠ .closure) :
    Does (namingBeneath here.kind naming) (checkStructure here (here.children.map (branchOf check)))
      (Visit.parts scope ⟨naming, here⟩) := by
  unfold Outline.checkStructure
  split
  · next hkind => exact absurd hkind hcomment
  · next hkind =>
    simp only [Visit.parts, hkind]
    exact h.checkLetBinding hplaces
  · next hkind =>
    simp only [Visit.parts, hkind]
    exact h.checkForLoop hplaces
  · next hkind =>
    have hscope : ¬ scope.affectsSymbol := fun hs => hfunction (Symbol.affectsSymbol_iff.1 hs) hkind
    have hparts : Visit.parts scope ⟨naming, here⟩ = Visit.beneath ⟨naming, here⟩ := by
      simp only [Visit.parts, hkind, if_neg hscope]
    rw [hparts]
    refine h.ofState fun builder hbuilder _ => ?_
    rw [hbuilder, if_neg hscope]
    exact h.checkAll hplaces
  · next hkind =>
    have hnaming : namingBeneath here.kind naming = naming := by rw [hkind]; rfl
    simp only [Visit.parts, hkind]
    refine h.ofState fun builder _ hbuilder => ?_
    rw [hbuilder]
    exact h.checkFirstExpr hplaces _
  · next hkind =>
    have hnaming : namingBeneath here.kind naming = naming := by rw [hkind]; rfl
    rw [hnaming]
    simp only [Visit.parts, hkind]
    exact h.checkNamed hplaces
  · next hkind =>
    simp only [Visit.parts, hkind]
    exact h.skip _
  · next hlet hloop hclosure hfield hnamed himport =>
    have hparts : Visit.parts scope ⟨naming, here⟩ =
        if here.kind.isTrivia || here.kind.isKeyword || here.kind.isError then []
        else Visit.beneath ⟨naming, here⟩ := by
      unfold Visit.parts
      split
      · exact absurd ‹_› hlet
      · exact absurd ‹_› hloop
      · exact absurd ‹_› hclosure
      · exact absurd ‹_› hfield
      · exact absurd ‹_› hnamed
      · exact absurd ‹_› himport
      · rfl
    rw [hparts]
    split
    · exact h.skip _
    · exact h.checkAll hplaces

end Composes

end DocOutline.Outline
