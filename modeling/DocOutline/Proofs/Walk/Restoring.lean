import DocOutline.Proofs.Walk.Composition

/-!
# What a walk restores

Each construct sets the naming context and the depth for what lies beneath it, and takes both back when it is left, be it
because of a failure. So checking a place changes nothing but the frames (`restores_checkAt`), also if it fails. Since a
run starts with nothing but the sentinel open and closes everything, a builder is as new after each run, whatever it has
been used for before (`Builder.runs_eq_map`).
-/

namespace DocOutline.Outline

open DocOutline.Symbol (Entry Naming Scope)
open DocOutline.Syntax (Cursor)

/-- In the given scope and naming context, an action changes nothing but the frames, be it that it succeeds or that it
fails. -/
def Restores (scope : Scope) (naming : Naming) {α : Type} (action : Walk α) : Prop :=
  ∀ frames depth, ∃ result frames', action ⟨scope, frames, naming, depth⟩ = (result, ⟨scope, frames', naming, depth⟩)

namespace Restores

variable {scope : Scope} {naming naming' : Naming} {α β : Type} {action : Walk Unit} {here : Cursor}

/-! ## Primitives -/

theorem pure (a : α) : Restores scope naming (pure a : Walk α) := fun _ _ => ⟨_, _, rfl⟩

theorem fail (fault : Fault) : Restores scope naming (Walk.fail fault : Walk α) := fun _ _ => ⟨_, _, rfl⟩

theorem ofExcept (result : Except Syntax.StructureError α) : Restores scope naming (Walk.ofExcept result) := by
  cases result with
  | error error => exact fail _
  | ok a => exact pure a

theorem push (entry : Entry String) : Restores scope naming (Walk.push entry) := fun _ _ => ⟨_, _, rfl⟩

theorem height : Restores scope naming Walk.height := fun _ _ => ⟨_, _, rfl⟩

theorem finished : Restores scope naming Walk.finished := by
  intro frames depth
  cases frames <;> exact ⟨_, _, rfl⟩

theorem changeFinished (change : List (Outline String) → List (Outline String)) :
    Restores scope naming (Walk.changeFinished change) := by
  intro frames depth
  cases frames <;> exact ⟨_, _, rfl⟩

theorem finishTop : Restores scope naming Walk.finishTop := by
  intro frames depth
  rcases frames with _ | ⟨top, _ | ⟨below, rest⟩⟩ <;> exact ⟨_, _, rfl⟩

/-- What two actions do one after the other. The second is not reached if the first one fails. -/
theorem bind {x : Walk α} {f : α → Walk β} (h : Restores scope naming x) (h' : ∀ a, Restores scope naming (f a)) :
    Restores scope naming (x >>= f) := by
  intro frames depth
  obtain ⟨result, middle, hx⟩ := h frames depth
  cases result with
  | error fault => exact ⟨_, _, Walk.bind_of_error f hx⟩
  | ok a =>
    obtain ⟨result', frames', hf⟩ := h' a middle depth
    exact ⟨result', frames', by rw [Walk.bind_of_ok f hx, hf]⟩

theorem ofState {f : Builder → Walk β}
    (h : ∀ builder, builder.scope = scope → builder.naming = naming → Restores scope naming (f builder)) :
    Restores scope naming (get >>= f) := by
  intro frames depth
  have hget : (get : Walk Builder) ⟨scope, frames, naming, depth⟩ =
      (.ok ⟨scope, frames, naming, depth⟩, ⟨scope, frames, naming, depth⟩) := rfl
  rw [Walk.bind_of_ok f hget]
  exact h _ rfl rfl frames depth

theorem finishTops (n : Nat) : Restores scope naming (Walk.finishTops n) := by
  induction n with
  | zero => exact pure ()
  | succ n ih => exact finishTop.bind fun _ => ih

theorem closeTo (n : Nat) : Restores scope naming (Walk.closeTo n) := height.bind fun _ => finishTops _

theorem makeRoom (kind : Symbol.Kind) : Restores scope naming (Walk.makeRoom kind) := by
  unfold Walk.makeRoom
  split
  · exact ofState fun _ _ _ => finishTops _
  · exact pure ()

/-- The naming context is restored behind an action in one of its own. -/
theorem withNaming (h : Restores scope naming' action) : Restores scope naming (Walk.withNaming naming' action) := by
  intro frames depth
  obtain ⟨result, frames', hinner⟩ := h frames depth
  refine ⟨result, frames', ?_⟩
  simp only [Walk.withNaming, Walk.andFinally, hinner]

/-- The depth is counted back behind an action one level further down. -/
theorem deeper (h : Restores scope naming action) : Restores scope naming (Walk.deeper action) := by
  intro frames depth
  obtain ⟨result, frames', hinner⟩ := h frames (depth + 1)
  refine ⟨result, frames', ?_⟩
  simp only [Walk.deeper, Walk.andFinally, hinner, Nat.add_sub_cancel]

theorem composes (scope : Scope) : Composes scope fun naming action _ => Restores scope naming action where
  skip _ := pure ()
  andThen h h' := h.bind fun _ => h'
  withNaming := withNaming
  ofState := ofState

/-! ## Nodes -/

theorem checkSymbol (symbol : Entry String)
    (h : ∀ child ∈ here.children, ∀ naming, Restores scope naming (checkAt child)) :
    Restores scope naming (checkSymbol symbol (here.children.map (branchOf checkAt))) :=
  (makeRoom _).bind fun _ => (push symbol).bind fun _ => height.bind fun _ =>
    ((composes scope).checkAll h).bind fun _ => closeTo _

theorem takeClosureEntry (here : Cursor) (before : Nat) : Restores scope naming (takeClosureEntry here before) := by
  refine finished.bind fun outlines => ?_
  split
  · exact pure _
  · split
    · exact fail _
    · exact (changeFinished _).bind fun _ => pure _

theorem checkClosure (h : ∀ child ∈ here.children, ∀ naming, Restores scope naming (checkAt child)) :
    Restores scope naming (checkClosure here (here.children.map (branchOf checkAt))) := by
  refine finished.bind fun outlines => ((composes scope).checkClosureName h).bind fun _ => ?_
  rw [← List.map_reverse, Composes.find?_map_branchOf (·.kind.isExpr)]
  cases hbody : here.children.reverse.find? (·.kind.isExpr) with
  | none => exact pure ()
  | some body =>
    have hchild : body ∈ here.children := Visit.mem_of_body? hbody
    refine (takeClosureEntry _ _).bind fun entry => (push entry).bind fun _ => height.bind fun n => ?_
    exact (withNaming (h body hchild .reference)).bind fun _ => closeTo _

theorem checkStructure (h : ∀ child ∈ here.children, ∀ naming, Restores scope naming (checkAt child)) :
    Restores scope (namingBeneath here.kind naming) (checkStructure here (here.children.map (branchOf checkAt))) := by
  by_cases hcomment : here.kind = .lineComment
  · simp only [Outline.checkStructure, hcomment]
    exact changeFinished _
  by_cases hfunction : scope = .symbol ∧ here.kind = .closure
  · obtain ⟨rfl, hkind⟩ := hfunction
    simp only [Outline.checkStructure, hkind]
    refine ofState fun builder hscope _ => ?_
    rw [hscope, if_pos (Symbol.affectsSymbol_iff.2 rfl)]
    exact checkClosure h
  · exact (composes scope).checkStructure h hcomment fun hscope hkind => hfunction ⟨hscope, hkind⟩

theorem requireDepth (here : Cursor) : Restores scope naming (requireDepth here) := by
  refine ofState fun builder _ _ => ?_
  split
  · exact fail _
  · exact pure ()

theorem visit (h : ∀ child ∈ here.children, ∀ naming, Restores scope naming (checkAt child)) :
    Restores scope naming (visit here (here.children.map (branchOf checkAt))) := by
  refine deeper ((requireDepth here).bind fun _ => ofState fun builder _ hnaming => (ofExcept _).bind fun symbol? => ?_)
  rw [hnaming]
  refine withNaming ?_
  cases symbol? with
  | some symbol => exact checkSymbol symbol h
  | none => exact checkStructure h

end Restores

/-- Checking a place changes nothing but the frames, be it that it succeeds or that it fails. -/
theorem restores_checkAt (here : Cursor) (builder : Builder) :
    (checkAt here builder).2 = { builder with frames := (checkAt here builder).2.frames } := by
  have hrestores (scope : Scope) (naming : Naming) : Restores scope naming (checkAt here) := by
    induction here using Cursor.induction generalizing naming with
    | h here ih =>
      rw [checkAt_eq_visit_branchOf]
      exact Restores.visit ih
  obtain ⟨result, frames, hcheck⟩ := hrestores builder.scope builder.naming builder.frames builder.depth
  rw [hcheck]

/-! ## Runs -/

theorem length_closeDown_le {height : Nat} (hpos : 0 < height) (frames : List Frame) :
    (closeDown height frames).length ≤ height := by
  rcases Nat.le_total frames.length height with hle | hle
  · rwa [closeDown_of_le hle]
  · exact Nat.le_of_eq (length_closeDown hpos hle)

namespace Builder

/-- A run leaves the builder as new, whatever state it has found it in and whether it gives an outline or not. -/
theorem run_eq (root : Cursor) (builder : Builder) :
    run root builder = (build root builder.scope, { scope := builder.scope }) := by
  have hclosed : Walk.closeTo 1 (checkAt root builder.restart).2 =
      (.ok (), { (checkAt root builder.restart).2 with
        frames := closeDown 1 (checkAt root builder.restart).2.frames }) := Walk.closeTo_apply Nat.one_pos
  have hnone : (closeDown 1 (checkAt root builder.restart).2.frames).drop 1 = [] :=
    List.drop_eq_nil_of_le (length_closeDown_le Nat.one_pos _)
  refine Prod.ext rfl ?_
  simp only [run, finish, hclosed, hnone]
  rw [restores_checkAt root builder.restart]
  rfl

/-- The outcomes of runs one after another on the same builder, each with the state that it leaves. -/
def runs (builder : Builder) : List Cursor → List (Except Fault Forest × Builder)
  | [] => []
  | root :: roots => run root builder :: runs (run root builder).2 roots

theorem runs_eq_map (builder : Builder) (roots : List Cursor) :
    builder.runs roots = roots.map fun root => (build root builder.scope, { scope := builder.scope }) := by
  induction roots generalizing builder with
  | nil => rfl
  | cons root roots ih => rw [runs, ih, run_eq, List.map_cons]

end Builder

/-- **A builder leaks nothing**: checking a place restores the naming context and the depth, also if it fails, and of
runs one after another each gives what a new builder gives, and leaves no frame open (`naming`, `check_node` and `run`;
specification, section 8). -/
theorem checkAt_restores_runs_fresh :
    (∀ here builder, (checkAt here builder).2.naming = builder.naming ∧ (checkAt here builder).2.depth = builder.depth) ∧
      ∀ (builder : Builder) (roots : List Cursor), builder.runs roots = roots.map fun root =>
        ((Builder.run root { scope := builder.scope }).1,
          { scope := builder.scope, frames := [], naming := .reference, depth := 0 }) := by
  refine ⟨fun here builder => ?_, fun builder roots => builder.runs_eq_map roots⟩
  rw [restores_checkAt here builder]
  exact ⟨rfl, rfl⟩

end DocOutline.Outline
