import DocOutline.Outline.Extract
import DocOutline.Proofs.Syntax.Places
import DocOutline.Proofs.Walk.Adequacy

/-!
# When there is an outline

Checking a place ends early for three reasons only: a place lies too deep, a label or an identifier has not the shape that
its kind claims, or the stack of calls has no room for a place. Which of the places beneath is the first such one follows from
the tree and the room (`Fares`). As long as a frame is open, an action fares as its visits do, and leaves a frame open behind
it (`Meets`); so the frames never run out, and neither does the list from which a closure takes its name back.

Main statement `run_gives_or_blames`: what a run needs to give an outline, and whom it blames if it gives none.
-/

namespace DocOutline.Outline

open DocOutline.Symbol (Entry Naming Scope Misshapen classify entryAt castFailure)
open DocOutline.Syntax (Cursor Node StructureError maxNesting)

/-! ## How visits fare -/

/-- What is looked at beneath a node with the given classification. -/
def Visit.looks (scope : Scope) (symbol? : Option (Entry String)) (visit : Visit) : List Visit :=
  match symbol? with
  | some _ => visit.beneath
  | none =>
    visit.parts scope ++
      if scope = .symbol ∧ visit.here.kind = .closure then each .reference (body? visit.here.children).toList else []

def nestingFailure (here : Cursor) : StructureError := .tooDeep here.kind here.offset here.stop

/-- Whether a visit begins with a classification: there is room for it, and its place does not lie too deep. -/
structure Begins (room : Room) (scope : Scope) (visit : Visit) (symbol? : Option (Entry String)) : Prop where
  room : room visit.here = true
  depth : visit.here.depth ≤ maxNesting
  class_eq : classify visit.here scope visit.naming = .ok symbol?

/-- Checking the places of the visits one after another meets no failure, or the given one. -/
inductive Fares (room : Room) (scope : Scope) : List Visit → Option Fault → Prop
  | done : Fares room scope [] none
  | noRoom {visit rest} (hroom : room visit.here = false) : Fares room scope (visit :: rest) (some .noCall)
  | tooDeep {visit rest} (hroom : room visit.here = true) (hdepth : maxNesting < visit.here.depth) :
      Fares room scope (visit :: rest) (some (.structure (nestingFailure visit.here)))
  | misshapen {visit rest error} (hroom : room visit.here = true) (hdepth : visit.here.depth ≤ maxNesting)
      (hclass : classify visit.here scope visit.naming = .error error) :
      Fares room scope (visit :: rest) (some (.structure error))
  | inside {visit rest symbol? fault} (hbegins : Begins room scope visit symbol?)
      (hlooks : Fares room scope (visit.looks scope symbol?) (some fault)) : Fares room scope (visit :: rest) (some fault)
  | next {visit rest symbol? outcome} (hbegins : Begins room scope visit symbol?)
      (hlooks : Fares room scope (visit.looks scope symbol?) none) (hrest : Fares room scope rest outcome) :
      Fares room scope (visit :: rest) outcome

theorem Visit.mem_of_mem_looks {scope : Scope} {symbol? : Option (Entry String)} {visit part : Visit}
    (h : part ∈ visit.looks scope symbol?) : part.here ∈ visit.here.children := by
  unfold looks at h
  split at h
  · exact mem_of_mem_beneath h
  · rcases List.mem_append.1 h with h | h
    · exact mem_of_mem_parts h
    · split at h
      · exact mem_of_mem_toList (fun _ => mem_of_body?) h
      · cases h

namespace Fares

variable {room : Room} {scope : Scope} {visits visits' : List Visit} {visit : Visit} {symbol? : Option (Entry String)}
  {outcome : Option Fault} {fault : Fault}

theorem append (h : Fares room scope visits none) (h' : Fares room scope visits' outcome) :
    Fares room scope (visits ++ visits') outcome := by
  generalize hnone : (none : Option Fault) = first at h
  induction h with
  | done => exact h'
  | noRoom => cases hnone
  | tooDeep => cases hnone
  | misshapen => cases hnone
  | inside => cases hnone
  | next hbegins hlooks _ _ ih => exact .next hbegins hlooks (ih hnone)

theorem append_of_fault (h : Fares room scope visits (some fault)) (visits' : List Visit) :
    Fares room scope (visits ++ visits') (some fault) := by
  generalize hsome : some fault = first at h
  induction h with
  | done => cases hsome
  | noRoom hroom => exact .noRoom hroom
  | tooDeep hroom hdepth => exact .tooDeep hroom hdepth
  | misshapen hroom hdepth hclass => exact .misshapen hroom hdepth hclass
  | inside hbegins hlooks _ => exact .inside hbegins hlooks
  | next hbegins hlooks _ _ ih => exact .next hbegins hlooks (ih hsome)

/-- A single place fares as what is looked at beneath it, unless it fails itself. -/
theorem single (hbegins : Begins room scope visit symbol?) (hlooks : Fares room scope (visit.looks scope symbol?) outcome) :
    Fares room scope [visit] outcome := by
  cases outcome with
  | none => exact .next hbegins hlooks .done
  | some fault => exact .inside hbegins hlooks

/-- How visits fare follows from the tree and the room. -/
theorem unique {outcome' : Option Fault} (h : Fares room scope visits outcome) (h' : Fares room scope visits outcome') :
    outcome = outcome' := by
  induction h generalizing outcome' with
  | done =>
    cases h'
    rfl
  | noRoom hnone =>
    cases h' with
    | noRoom => rfl
    | tooDeep hroom | misshapen hroom => cases hnone.symm.trans hroom
    | inside hbegins | next hbegins => cases hnone.symm.trans hbegins.room
  | tooDeep hroom hdeep =>
    cases h' with
    | noRoom hnone => cases hnone.symm.trans hroom
    | tooDeep => rfl
    | misshapen _ hdepth => exact absurd hdepth (Nat.not_le_of_lt hdeep)
    | inside hbegins | next hbegins => exact absurd hbegins.depth (Nat.not_le_of_lt hdeep)
  | misshapen hroom hdepth hclass =>
    cases h' with
    | noRoom hnone => cases hnone.symm.trans hroom
    | tooDeep _ hdeep => exact absurd hdepth (Nat.not_le_of_lt hdeep)
    | misshapen _ _ hclass' =>
      cases hclass.symm.trans hclass'
      rfl
    | inside hbegins | next hbegins => cases hclass.symm.trans hbegins.class_eq
  | inside hbegins hlooks ih =>
    cases h' with
    | noRoom hnone => cases hnone.symm.trans hbegins.room
    | tooDeep _ hdeep => exact absurd hbegins.depth (Nat.not_le_of_lt hdeep)
    | misshapen _ _ hclass => cases hclass.symm.trans hbegins.class_eq
    | inside hbegins' hlooks' =>
      cases hbegins.class_eq.symm.trans hbegins'.class_eq
      exact ih hlooks'
    | next hbegins' hlooks' =>
      cases hbegins.class_eq.symm.trans hbegins'.class_eq
      cases ih hlooks'
  | next hbegins hlooks hrest ihlooks ihrest =>
    cases h' with
    | noRoom hnone => cases hnone.symm.trans hbegins.room
    | tooDeep _ hdeep => exact absurd hbegins.depth (Nat.not_le_of_lt hdeep)
    | misshapen _ _ hclass => cases hclass.symm.trans hbegins.class_eq
    | inside hbegins' hlooks' =>
      cases hbegins.class_eq.symm.trans hbegins'.class_eq
      cases ihlooks hlooks'
    | next hbegins' hlooks' hrest' => exact ihrest hrest'

end Fares

/-- An error names a place that lies too deep, or one that should name a symbol and has not the shape for it. -/
inductive Blames (scope : Scope) (place : Cursor) : StructureError → Prop
  | tooDeep (hdepth : maxNesting < place.depth) : Blames scope place (nestingFailure place)
  | misshapen (hscope : scope = .symbol) (hshape : Misshapen place) : Blames scope place (castFailure place)

/-- Why a walk may fail at a place: the place is to blame, or there is no room for it. -/
inductive FailsAt (room : Room) (scope : Scope) (place : Cursor) : Fault → Prop
  | blames {error} (hblames : Blames scope place error) : FailsAt room scope place (.structure error)
  | noRoom (hroom : room place = false) : FailsAt room scope place .noCall

/-- A failure comes up at a place. -/
theorem Fares.exists_failsAt {room : Room} {scope : Scope} {visits : List Visit} {fault : Fault}
    (h : Fares room scope visits (some fault)) :
    ∃ visit ∈ visits, ∃ place ∈ visit.here.places, FailsAt room scope place fault := by
  generalize hsome : some fault = outcome at h
  induction h with
  | done => cases hsome
  | @noRoom visit rest hroom =>
    cases hsome
    exact ⟨visit, List.mem_cons_self .., visit.here, Cursor.mem_places_self _, .noRoom hroom⟩
  | @tooDeep visit rest hroom hdepth =>
    cases hsome
    exact ⟨visit, List.mem_cons_self .., visit.here, Cursor.mem_places_self _, .blames (.tooDeep hdepth)⟩
  | @misshapen visit rest error hroom hdepth hclass =>
    cases hsome
    obtain ⟨hscope, hshape, rfl⟩ := Symbol.misshapen_of_classify hclass
    exact ⟨visit, List.mem_cons_self .., visit.here, Cursor.mem_places_self _, .blames (.misshapen hscope hshape)⟩
  | @inside visit rest symbol? fault' hbegins hlooks ih =>
    obtain ⟨part, hpart, place, hplace, hfails⟩ := ih hsome
    have hchild := Visit.mem_of_mem_looks hpart
    exact ⟨visit, List.mem_cons_self .., place, Cursor.mem_places_of_mem_children hchild hplace, hfails⟩
  | next hbegins hlooks hrest _ ih =>
    obtain ⟨visit, hvisit, hfails⟩ := ih hsome
    exact ⟨visit, List.mem_cons_of_mem _ hvisit, hfails⟩

theorem Fares.exists_failsAt_single {room : Room} {scope : Scope} {visit : Visit} {fault : Fault}
    (h : Fares room scope [visit] (some fault)) : ∃ place ∈ visit.here.places, FailsAt room scope place fault := by
  obtain ⟨visit', hvisit, hfails⟩ := h.exists_failsAt
  exact List.mem_singleton.1 hvisit ▸ hfails

/-- At a place that is not too deep, for which there is room and which has the shape that it claims, nothing fails. -/
theorem not_failsAt {room : Room} {scope : Scope} {place : Cursor} {fault : Fault} (hdepth : place.depth ≤ maxNesting)
    (hroom : room place = true) (hshape : scope = .symbol → ¬ Misshapen place) : ¬ FailsAt room scope place fault := by
  rintro (⟨hdeep | ⟨hscope, hmisshapen⟩⟩ | hnone)
  · exact Nat.not_le_of_lt hdeep hdepth
  · exact hshape hscope hmisshapen
  · cases hnone.symm.trans hroom

/-! ## Frames that stay open -/

theorem closeTops_ne_nil {n : Nat} {frames : List Frame} (h : n < frames.length) : closeTops n frames ≠ [] := by
  intro hnil
  have hlength := length_closeTops h
  rw [hnil, List.length_nil] at hlength
  omega

theorem closeDown_ne_nil {height : Nat} (hpos : 0 < height) {frames : List Frame} (h : frames ≠ []) :
    closeDown height frames ≠ [] := by
  have hlength := List.length_pos_iff.2 h
  exact closeTops_ne_nil (by omega)

/-- As long as a frame is open, room can be made for an entry. -/
theorem Walk.makeRoom_apply (kind : Symbol.Kind) (builder : Builder) (h : builder.frames ≠ []) :
    Walk.makeRoom kind builder = (.ok (), { builder with frames := settle kind builder.frames }) := by
  unfold Walk.makeRoom settle
  cases hlevel : kind.level? with
  | none => rfl
  | some level =>
    refine Walk.bind_ok.2 ⟨builder, builder, rfl, ?_⟩
    exact Walk.finishTops_apply (closedBy_lt level h)

/-! ## Actions and how their visits fare -/

/-- What an action gives that meets no failure, or the given one. -/
def resultOf : Option Fault → Except Fault Unit
  | none => .ok ()
  | some fault => .error fault

theorem resultOf_eq_error {outcome : Option Fault} {fault : Fault} : resultOf outcome = .error fault ↔ outcome = some fault := by
  cases outcome <;> simp [resultOf]

/-- In the given scope and naming context, `depth` nodes down, an action fares as the visits do, as long as a frame is
open: it gives what they give, changes nothing but the frames, and leaves one of them open. -/
def Meets (room : Room) (scope : Scope) (depth : Nat) (naming : Naming) (action : Walk Unit) (visits : List Visit) : Prop :=
  ∀ frames, frames ≠ [] → ∃ outcome frames', Fares room scope visits outcome ∧ frames' ≠ [] ∧
    action ⟨scope, frames, naming, depth⟩ = (resultOf outcome, ⟨scope, frames', naming, depth⟩)

theorem meets_composes (room : Room) (scope : Scope) (depth : Nat) : Composes scope (Meets room scope depth) where
  skip naming frames hopen := ⟨none, frames, .done, hopen, rfl⟩
  andThen := by
    intro naming action action' visits visits' h h' frames hopen
    obtain ⟨outcome, middle, hfares, hmiddle, haction⟩ := h frames hopen
    cases outcome with
    | some fault =>
      exact ⟨some fault, middle, hfares.append_of_fault visits', hmiddle, Walk.bind_of_error _ haction⟩
    | none =>
      obtain ⟨outcome, frames', hfares', hopen', haction'⟩ := h' middle hmiddle
      exact ⟨outcome, frames', hfares.append hfares', hopen', (Walk.bind_of_ok _ haction).trans haction'⟩
  withNaming := by
    intro naming naming' action visits h frames hopen
    obtain ⟨outcome, frames', hfares, hopen', haction⟩ := h frames hopen
    refine ⟨outcome, frames', hfares, hopen', ?_⟩
    simp only [Walk.withNaming, Walk.andFinally, haction]
  ofState := by
    intro naming visits action h frames hopen
    exact h ⟨scope, frames, naming, depth⟩ rfl rfl frames hopen

section
variable {room : Room} {scope : Scope} {depth : Nat} {naming naming' : Naming} {here : Cursor}

/-- An action that is done inside a frame of its own, and then closed down to some height. -/
theorem meets_within (entry : Entry String) (height : Nat → Nat) {frames : List Frame} {action : Walk Unit}
    {visits : List Visit} (hheight : 0 < height (frames.length + 1)) (h : Meets room scope depth naming action visits) :
    ∃ outcome frames', Fares room scope visits outcome ∧ frames' ≠ [] ∧
      (do
        Walk.push entry
        let n ← Walk.height
        action
        Walk.closeTo (height n) : Walk Unit) ⟨scope, frames, naming, depth⟩ =
          (resultOf outcome, ⟨scope, frames', naming, depth⟩) := by
  obtain ⟨outcome, inner, hfares, hinner, haction⟩ := h (⟨entry, []⟩ :: frames) (List.cons_ne_nil _ _)
  have hpush : Walk.push entry ⟨scope, frames, naming, depth⟩ =
      (.ok (), ⟨scope, ⟨entry, []⟩ :: frames, naming, depth⟩) := rfl
  have hlength : Walk.height ⟨scope, ⟨entry, []⟩ :: frames, naming, depth⟩ =
      (.ok (frames.length + 1), ⟨scope, ⟨entry, []⟩ :: frames, naming, depth⟩) := rfl
  rw [Walk.bind_of_ok _ hpush, Walk.bind_of_ok _ hlength]
  cases outcome with
  | some fault => exact ⟨some fault, inner, hfares, hinner, Walk.bind_of_error _ haction⟩
  | none =>
    refine ⟨none, closeDown (height (frames.length + 1)) inner, hfares, closeDown_ne_nil hheight hinner, ?_⟩
    rw [Walk.bind_of_ok _ haction]
    exact Walk.closeTo_apply hheight

theorem meets_checkSymbol (symbol : Entry String)
    (h : ∀ child ∈ here.children, ∀ naming, Meets room scope depth naming (checkWithin room child) [⟨naming, child⟩]) :
    Meets room scope depth (namingBeneath here.kind naming) (checkSymbol symbol (here.children.map (branchOf (checkWithin room))))
      (Visit.looks scope (some symbol) ⟨naming, here⟩) := by
  intro frames hopen
  have hpos := List.length_pos_iff.2 (settle_ne_nil symbol.kind hopen)
  have hroom := Walk.makeRoom_apply symbol.kind ⟨scope, frames, namingBeneath here.kind naming, depth⟩ hopen
  unfold checkSymbol
  rw [Walk.bind_of_ok _ hroom]
  have hheight : 0 < if symbol.kind.isHeading then (settle symbol.kind frames).length + 1
      else (settle symbol.kind frames).length + 1 - 1 := by
    split <;> omega
  exact meets_within symbol (fun n => if symbol.kind.isHeading then n else n - 1) hheight
    ((meets_composes room scope depth).checkAll h)

/-- A closure fares as its name and its body. The name is finished, and so can be taken back, before the body is looked
at. -/
theorem meets_checkClosure (hkind : here.kind = .closure)
    (h : ∀ child ∈ here.children, ∀ naming, Meets room .symbol depth naming (checkWithin room child) [⟨naming, child⟩]) :
    Meets room .symbol depth naming' (checkClosure here (here.children.map (branchOf (checkWithin room))))
      (Visit.looks .symbol none ⟨naming, here⟩) := by
  have hlooks : Visit.looks .symbol none ⟨naming, here⟩ =
      Visit.closureName here.children ++ Visit.each .reference (Visit.body? here.children).toList := by
    simp [Visit.looks, Visit.parts, hkind, Scope.affectsSymbol]
  rw [hlooks]
  intro frames hopen
  obtain ⟨top, below, rfl⟩ := List.exists_cons_of_ne_nil hopen
  have hfinished : Walk.finished ⟨.symbol, top :: below, naming', depth⟩ =
      (.ok top.finished, ⟨.symbol, top :: below, naming', depth⟩) := rfl
  have hmeets : Meets room .symbol depth naming' (checkClosureName (here.children.map (branchOf (checkWithin room))))
      (Visit.closureName here.children) := (meets_composes room .symbol depth).checkClosureName h
  have hperforms : Performs .symbol naming' (checkClosureName (here.children.map (branchOf (checkWithin room))))
      (Visit.closureName here.children) :=
    (performs_composes .symbol).checkClosureName fun child _ => checks room child .symbol
  obtain ⟨outcome, named, hfares, hnamed, hname⟩ := hmeets (top :: below) hopen
  unfold checkClosure
  rw [Walk.bind_of_ok _ hfinished]
  cases outcome with
  | some fault => exact ⟨some fault, named, hfares.append_of_fault _, hnamed, Walk.bind_of_error _ hname⟩
  | none =>
    rw [Walk.bind_of_ok _ hname, ← List.map_reverse, Composes.find?_map_branchOf (·.kind.isExpr)]
    obtain ⟨frames', hsame, hwalked⟩ := hperforms _ _ _ hname
    cases hsame
    cases hbody : Visit.body? here.children with
    | none =>
      rw [show here.children.reverse.find? (·.kind.isExpr) = none from hbody]
      exact ⟨none, named, hfares.append .done, hnamed, rfl⟩
    | some body =>
      rw [show here.children.reverse.find? (·.kind.isExpr) = some body from hbody]
      obtain ⟨name, -, htaken⟩ := takeClosureEntry_of_walked hwalked naming' depth
      have hchecked : Meets room .symbol depth naming' (Branch.checkIn .reference (some (branchOf (checkWithin room) body)))
          [⟨.reference, body⟩] := (meets_composes room .symbol depth).withNaming (h body (Visit.mem_of_body? hbody) .reference)
      have hheight : 0 < (top :: below).length + 1 - 1 := Nat.succ_pos _
      obtain ⟨outcome, after, hfares', hafter, haction⟩ :=
        meets_within (entryAt here name (.named .function)) (fun n => n - 1) hheight hchecked
      refine ⟨outcome, after, hfares.append hfares', hafter, ?_⟩
      rw [← haction]
      exact Walk.bind_of_ok _ htaken

theorem meets_addComment (hkind : here.kind = .lineComment) :
    Meets room scope depth naming' (Walk.changeFinished (addComment here)) (Visit.looks scope none ⟨naming, here⟩) := by
  intro frames hopen
  obtain ⟨top, below, rfl⟩ := List.exists_cons_of_ne_nil hopen
  have hlooks : Visit.looks scope none ⟨naming, here⟩ = [] := by
    simp [Visit.looks, Visit.parts, hkind, Syntax.Kind.isTrivia]
  rw [hlooks]
  exact ⟨none, _, .done, List.cons_ne_nil _ _, rfl⟩

theorem meets_checkStructure
    (h : ∀ child ∈ here.children, ∀ naming, Meets room scope depth naming (checkWithin room child) [⟨naming, child⟩]) :
    Meets room scope depth (namingBeneath here.kind naming) (checkStructure here (here.children.map (branchOf (checkWithin room))))
      (Visit.looks scope none ⟨naming, here⟩) := by
  by_cases hcomment : here.kind = .lineComment
  · have haction : checkStructure here (here.children.map (branchOf (checkWithin room))) = Walk.changeFinished (addComment here) := by
      simp only [checkStructure, hcomment]
    rw [haction]
    exact meets_addComment hcomment
  by_cases hfunction : scope = .symbol ∧ here.kind = .closure
  · obtain ⟨rfl, hkind⟩ := hfunction
    simp only [checkStructure, hkind]
    refine (meets_composes room .symbol depth).ofState fun builder hscope _ => ?_
    rw [hscope, if_pos (Symbol.affectsSymbol_iff.2 rfl)]
    exact meets_checkClosure hkind h
  · have hlooks : Visit.looks scope none ⟨naming, here⟩ = Visit.parts scope ⟨naming, here⟩ := by
      simp only [Visit.looks, if_neg hfunction, List.append_nil]
    rw [hlooks]
    exact (meets_composes room scope depth).checkStructure h hcomment fun hscope hkind => hfunction ⟨hscope, hkind⟩

/-- One level further down, an action fares the same. -/
theorem Meets.deeper {action : Walk Unit} {visits : List Visit} (h : Meets room scope (depth + 1) naming action visits) :
    Meets room scope depth naming (Walk.deeper action) visits := by
  intro frames hopen
  obtain ⟨outcome, frames', hfares, hopen', haction⟩ := h frames hopen
  refine ⟨outcome, frames', hfares, hopen', ?_⟩
  simp only [Walk.deeper, Walk.andFinally, haction, Nat.add_sub_cancel]

theorem requireDepth_apply (here : Cursor) (builder : Builder) :
    requireDepth here builder =
      (if maxNesting < builder.depth then .error (.structure (nestingFailure here)) else .ok (), builder) := by
  unfold requireDepth
  rw [Walk.bind_of_ok _ (Walk.get_ok.2 ⟨rfl, rfl⟩)]
  split <;> rfl

/-- A place fares as its depth and its classification say, and then as what is looked at beneath it. -/
theorem meets_visit (hroom : room here = true) (hdepth : here.depth = depth + 1)
    (h : ∀ child ∈ here.children, ∀ naming,
      Meets room scope (depth + 1) naming (checkWithin room child) [⟨naming, child⟩]) :
    Meets room scope depth naming (visit here (here.children.map (branchOf (checkWithin room)))) [⟨naming, here⟩] := by
  refine Meets.deeper fun frames hopen => ?_
  by_cases hdeep : maxNesting < depth + 1
  · have hrequire := requireDepth_apply here ⟨scope, frames, naming, depth + 1⟩
    rw [if_pos hdeep] at hrequire
    exact ⟨some (.structure (nestingFailure here)), frames, .tooDeep hroom (hdepth ▸ hdeep), hopen,
      Walk.bind_of_error _ hrequire⟩
  have hle : here.depth ≤ maxNesting := hdepth ▸ Nat.le_of_not_lt hdeep
  have hrequire := requireDepth_apply here ⟨scope, frames, naming, depth + 1⟩
  rw [if_neg hdeep] at hrequire
  rw [Walk.bind_of_ok _ hrequire, Walk.bind_of_ok _ (Walk.get_ok.2 ⟨rfl, rfl⟩)]
  have hlooks (symbol? : Option (Entry String)) : Meets room scope (depth + 1) (namingBeneath here.kind naming)
      (match symbol? with
        | some symbol => checkSymbol symbol (here.children.map (branchOf (checkWithin room)))
        | none => checkStructure here (here.children.map (branchOf (checkWithin room))))
      (Visit.looks scope symbol? ⟨naming, here⟩) := by
    cases symbol? with
    | some symbol => exact meets_checkSymbol symbol h
    | none => exact meets_checkStructure h
  cases hclass : classify here scope naming with
  | error error =>
    exact ⟨some (.structure error), frames, .misshapen hroom hle hclass, hopen, Walk.bind_of_error _ rfl⟩
  | ok symbol? =>
    have hmeets : Meets room scope (depth + 1) naming _ _ :=
      (meets_composes room scope (depth + 1)).withNaming (hlooks symbol?)
    obtain ⟨outcome, frames', hfares, hopen', haction⟩ := hmeets frames hopen
    refine ⟨outcome, frames', .single ⟨hroom, hle, hclass⟩ hfares, hopen', ?_⟩
    rw [← haction]
    exact Walk.bind_of_ok _ rfl

end

/-- **Checking a place fares as the tree and the room say**, as long as a frame is open and the depth is counted right. -/
theorem meets_checkWithin (room : Room) (scope : Scope) (here : Cursor) {depth : Nat} (hdepth : here.depth = depth + 1)
    (naming : Naming) : Meets room scope depth naming (checkWithin room here) [⟨naming, here⟩] := by
  induction here using Cursor.induction generalizing depth naming with
  | h here ih =>
    rw [checkWithin_eq_visitWithin_branchOf, visitWithin]
    cases hroom : room here with
    | false => exact fun frames hopen => ⟨some .noCall, frames, .noRoom hroom, hopen, rfl⟩
    | true =>
      refine meets_visit hroom hdepth fun child hchild naming => ih child hchild ?_ naming
      rw [Cursor.depth_of_mem_children hchild, hdepth]

/-! ## Runs -/

/-- As long as a frame is open, closing leaves the bottom frame. -/
theorem closeTo_one (builder : Builder) (h : builder.frames ≠ []) :
    ∃ bottom, Walk.closeTo 1 builder = (.ok (), { builder with frames := [bottom] }) := by
  have hlength : (closeDown 1 builder.frames).length = 1 := length_closeDown Nat.one_pos (List.length_pos_iff.2 h)
  obtain ⟨bottom, hbottom⟩ := List.length_eq_one_iff.1 hlength
  exact ⟨bottom, hbottom ▸ Walk.closeTo_apply Nat.one_pos⟩

/-- A walk fares as the visit of the root. At its end, be it that it has failed, the sentinel is there to be taken from the
stack. -/
theorem walk_fares (room : Room) (node : Node) (builder : Builder) :
    ∃ outcome bottom, Fares room builder.scope [⟨.reference, Cursor.root node⟩] outcome ∧
      Walk.closeTo 1 (checkWithin room (Cursor.root node) builder.restart).2 =
        (.ok (), { builder.restart with frames := [bottom] }) ∧
      (checkWithin room (Cursor.root node) builder.restart).1 = resultOf outcome ∧
      (Builder.finish (checkWithin room (Cursor.root node) builder.restart)).1 =
        (resultOf outcome).map fun _ => bottom.finished.reverse := by
  obtain ⟨outcome, frames, hfares, hopen, hcheck⟩ := meets_checkWithin room builder.scope (Cursor.root node)
    (Cursor.depth_root node) .reference [Frame.sentinel] (List.cons_ne_nil _ _)
  change checkWithin room (Cursor.root node) builder.restart = _ at hcheck
  obtain ⟨bottom, hclose⟩ := closeTo_one ⟨builder.scope, frames, .reference, 0⟩ hopen
  refine ⟨outcome, bottom, hfares, by rw [hcheck]; exact hclose, by rw [hcheck], ?_⟩
  simp only [Builder.finish, hcheck, hclose]
  cases outcome <;> rfl

/-- A run fares as the visit of the root. -/
theorem run_fares (node : Node) (builder : Builder) :
    ∃ outcome, ∃ bottom : Frame, Fares .endless builder.scope [⟨.reference, Cursor.root node⟩] outcome ∧
      (Builder.run (Cursor.root node) builder).1 = (resultOf outcome).map fun _ => bottom.finished.reverse := by
  obtain ⟨outcome, bottom, hfares, -, -, hrun⟩ := walk_fares .endless node builder
  exact ⟨outcome, bottom, hfares, hrun⟩

/-- A run for which there is room enough ends as any other, with what is open being closed. -/
theorem runWithin_eq_finish {room : Room} {root : Cursor} {builder : Builder}
    (h : (checkWithin room root builder.restart).1 ≠ .error .noCall) :
    Builder.runWithin room root builder = Builder.finish (checkWithin room root builder.restart) := by
  unfold Builder.runWithin
  split
  · next left hwalk => exact absurd (congrArg Prod.fst hwalk) h
  · rfl

/-- A run for which there is not room enough is broken off. -/
theorem fst_runWithin_of_noCall {room : Room} {root : Cursor} {builder : Builder}
    (h : (checkWithin room root builder.restart).1 = .error .noCall) :
    (Builder.runWithin room root builder).1 = .error .noCall := by
  unfold Builder.runWithin
  split
  · rfl
  · next hwalk => exact (hwalk _ (Prod.ext h rfl)).elim

/-- Where there is room for all places, they are checked as on a stack that has no end. -/
theorem checkWithin_eq_checkAt {room : Room} {here : Cursor} (h : ∀ place ∈ here.places, room place = true) :
    checkWithin room here = checkAt here := by
  induction here using Cursor.induction with
  | h here ih =>
    have hchildren : here.children.map (branchOf (checkWithin room)) = here.children.map (branchOf checkAt) := by
      refine List.map_congr_left fun child hchild => ?_
      rw [branchOf, ih child hchild fun place hplace => h place (Cursor.mem_places_of_mem_children hchild hplace), branchOf]
    rw [checkWithin_eq_visitWithin_branchOf, visitWithin, if_pos (h here (Cursor.mem_places_self here)), hchildren,
      checkAt_eq_visit_branchOf]

def strongText : Node := .inner .markup [.inner .strong [.leaf .text "a"]]

end DocOutline.Outline
