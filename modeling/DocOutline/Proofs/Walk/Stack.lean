import DocOutline.Outline.Extract

/-!
# Closing frames

What the primitives of a walk do to the stack, as functions of the stack alone. Closing hangs the top frame into the
one below (`closeTops`); it stops at a height (`closeDown`) or where an entry makes room for itself (`settle`).
Each primitive that succeeds changes the frames in this way and nothing else.
-/

namespace DocOutline.Outline

open DocOutline.Symbol (Entry Naming Scope)

/-! ## The stack -/

/-- Closes a number of frames, each into the one below. The bottom frame stays. -/
def closeTops : Nat → List Frame → List Frame
  | n + 1, top :: below :: rest => closeTops n (below.adopt top.close :: rest)
  | _, frames => frames

/-- Closes frames until no more than `height` of them are open. -/
def closeDown (height : Nat) (frames : List Frame) : List Frame := closeTops (frames.length - height) frames

/-- Closes the frames that end where an entry of the given kind begins. -/
def settle (kind : Symbol.Kind) (frames : List Frame) : List Frame :=
  match kind.level? with
  | some level => closeTops (Walk.closedBy level frames) frames
  | none => frames

@[simp] theorem closeTops_zero (frames : List Frame) : closeTops 0 frames = frames := by
  cases frames <;> rfl

theorem closeTops_cons_cons (n : Nat) (top below : Frame) (rest : List Frame) :
    closeTops (n + 1) (top :: below :: rest) = closeTops n (below.adopt top.close :: rest) := rfl

theorem length_closeTops {n : Nat} {frames : List Frame} (h : n < frames.length) :
    (closeTops n frames).length = frames.length - n := by
  induction n generalizing frames with
  | zero => simp
  | succ n ih =>
    match frames, h with
    | top :: below :: rest, h =>
      rw [closeTops_cons_cons, ih (by simpa using h)]
      simp
    | [_], h => simp at h

theorem closeTops_closeTops (m n : Nat) (frames : List Frame) :
    closeTops m (closeTops n frames) = closeTops (n + m) frames := by
  induction n generalizing frames with
  | zero => rw [closeTops_zero, Nat.zero_add]
  | succ n ih =>
    match frames with
    | [] => cases m <;> simp [closeTops]
    | [bottom] => cases m <;> simp [closeTops]
    | top :: below :: rest => rw [closeTops_cons_cons, ih, Nat.add_right_comm, closeTops_cons_cons]

theorem closeDown_of_le {height : Nat} {frames : List Frame} (h : frames.length ≤ height) :
    closeDown height frames = frames := by
  rw [closeDown, Nat.sub_eq_zero_of_le h, closeTops_zero]

/-- Closing down to the height below a frame closes that frame. -/
theorem closeDown_cons (top below : Frame) (rest : List Frame) :
    closeDown (below :: rest).length (top :: below :: rest) = below.adopt top.close :: rest := by
  have hsub : (top :: below :: rest).length - (below :: rest).length = 1 := by simp
  rw [closeDown, hsub, closeTops_cons_cons, closeTops_zero]

theorem length_closeDown {height : Nat} {frames : List Frame} (hpos : 0 < height) (h : height ≤ frames.length) :
    (closeDown height frames).length = height := by
  rw [closeDown, length_closeTops (by omega)]
  omega

/-- Frames may be closed down to a height in two steps. -/
theorem closeDown_closeDown {low high : Nat} (hpos : 0 < low) (hle : low ≤ high) (frames : List Frame) :
    closeDown low (closeDown high frames) = closeDown low frames := by
  rcases Nat.le_total frames.length high with hhigh | hhigh
  · rw [closeDown_of_le hhigh]
  · rw [closeDown, length_closeDown (by omega) hhigh, closeDown, closeTops_closeTops, closeDown]
    congr 1
    omega

theorem closedBy_cons_cons (level : Int) (frame below : Frame) (rest : List Frame) :
    Walk.closedBy level (frame :: below :: rest) =
      if frame.holdsHeading level then 0 else Walk.closedBy level (below :: rest) + 1 := by
  rw [Walk.closedBy]
  simp

theorem closedBy_lt (level : Int) {frames : List Frame} (h : frames ≠ []) :
    Walk.closedBy level frames < frames.length := by
  induction frames with
  | nil => exact absurd rfl h
  | cons frame frames ih =>
    cases frames with
    | nil => simp [Walk.closedBy]
    | cons below rest =>
      rw [closedBy_cons_cons]
      split
      · simp
      · simpa using ih (List.cons_ne_nil below rest)

/-- A frame that holds a heading, and all below it, are not closed by the heading. -/
theorem closedBy_le {level : Int} {frame : Frame} (h : frame.holdsHeading level) (above base : List Frame) :
    Walk.closedBy level (above ++ frame :: base) ≤ above.length := by
  induction above with
  | nil =>
    cases base with
    | nil => exact Nat.le_refl _
    | cons below rest => rw [List.nil_append, closedBy_cons_cons, if_pos h]; exact Nat.le_refl _
  | cons top above ih =>
    rw [List.cons_append]
    generalize hrest : above ++ frame :: base = rest at ih
    cases rest with
    | nil => simp at hrest
    | cons below rest =>
      rw [closedBy_cons_cons]
      split
      · exact Nat.zero_le _
      · exact Nat.succ_le_succ ih

/-- How many frames a heading closes does not depend on what is finished inside them. -/
theorem closedBy_adopt (level : Int) (outline : Outline String) (frame : Frame) (rest : List Frame) :
    Walk.closedBy level (frame.adopt outline :: rest) = Walk.closedBy level (frame :: rest) := by
  cases rest with
  | nil => rfl
  | cons below rest => rw [closedBy_cons_cons, closedBy_cons_cons]; rfl

theorem settle_of_level {kind : Symbol.Kind} {level : Int} (h : kind.level? = some level) (frames : List Frame) :
    settle kind frames = closeTops (Walk.closedBy level frames) frames := by
  rw [settle, h]

theorem settle_of_not_heading {kind : Symbol.Kind} (h : kind.isHeading = false) (frames : List Frame) :
    settle kind frames = frames := by
  cases kind with
  | heading level => cases h
  | named role => rfl
  | group => rfl
  | commentRun => rfl

/-- A heading closes the top frame, unless the frame holds it or is the last one. -/
theorem settle_heading_cons (level : Int) (top below : Frame) (rest : List Frame) :
    settle (.heading level) (top :: below :: rest) =
      if top.holdsHeading level then top :: below :: rest
      else settle (.heading level) (below.adopt top.close :: rest) := by
  simp only [settle, Symbol.Kind.level?]
  rw [closedBy_cons_cons]
  split
  · rw [closeTops_zero]
  · rw [closeTops_cons_cons, closedBy_adopt]

theorem settle_heading_singleton (level : Int) (bottom : Frame) : settle (.heading level) [bottom] = [bottom] := by
  simp [settle, Symbol.Kind.level?, Walk.closedBy]

theorem settle_ne_nil (kind : Symbol.Kind) {frames : List Frame} (h : frames ≠ []) : settle kind frames ≠ [] := by
  intro hnil
  have hlength := congrArg List.length hnil
  cases hlevel : kind.level? with
  | none => rw [settle, hlevel] at hnil; exact h hnil
  | some level =>
    have hlt := closedBy_lt level h
    rw [settle_of_level hlevel, length_closeTops hlt, List.length_nil] at hlength
    omega

/-! ## The primitives of a walk -/

namespace Walk

variable {α β : Type} {builder after : Builder}

/-- An action that succeeds hands its result and the state to the next one. -/
theorem bind_of_ok {x : Walk α} {a : α} (f : α → Walk β) (h : x builder = (.ok a, after)) :
    (x >>= f) builder = f a after := by
  change (ExceptT.bindCont f : Except Fault α → StateM Builder (Except Fault β)) (x builder).1 (x builder).2 = _
  rw [h]
  rfl

/-- Behind an action that fails nothing is done. -/
theorem bind_of_error {x : Walk α} {fault : Fault} (f : α → Walk β) (h : x builder = (.error fault, after)) :
    (x >>= f) builder = (.error fault, after) := by
  change (ExceptT.bindCont f : Except Fault α → StateM Builder (Except Fault β)) (x builder).1 (x builder).2 = _
  rw [h]
  rfl

theorem bind_ok {x : Walk α} {f : α → Walk β} {b : β} :
    (x >>= f) builder = (.ok b, after) ↔ ∃ a middle, x builder = (.ok a, middle) ∧ f a middle = (.ok b, after) := by
  rcases hx : x builder with ⟨result, middle⟩
  cases result with
  | error fault =>
    rw [bind_of_error f hx]
    refine ⟨fun h => ?_, ?_⟩
    · cases congrArg Prod.fst h
    · rintro ⟨a, middle', h, -⟩
      cases congrArg Prod.fst h
  | ok a =>
    rw [bind_of_ok f hx]
    refine ⟨fun h => ⟨a, middle, rfl, h⟩, ?_⟩
    rintro ⟨a', middle', h, hf⟩
    cases h
    exact hf

theorem pure_ok {a b : α} : (pure a : Walk α) builder = (.ok b, after) ↔ b = a ∧ after = builder := by
  constructor
  · intro h
    cases h
    exact ⟨rfl, rfl⟩
  · rintro ⟨rfl, rfl⟩
    rfl

theorem get_ok {builder' : Builder} : (get : Walk Builder) builder = (.ok builder', after) ↔
    builder' = builder ∧ after = builder := by
  constructor
  · intro h
    cases h
    exact ⟨rfl, rfl⟩
  · rintro ⟨rfl, rfl⟩
    rfl

theorem ofExcept_ok {x : Except Syntax.StructureError α} {a : α} :
    ofExcept x builder = (.ok a, after) ↔ x = .ok a ∧ after = builder := by
  cases x with
  | error error =>
    constructor
    · intro h
      cases congrArg Prod.fst h
    · rintro ⟨h, -⟩
      cases h
  | ok b =>
    constructor
    · intro h
      cases h
      exact ⟨rfl, rfl⟩
    · rintro ⟨h, rfl⟩
      cases h
      rfl

/-- An action that is cleaned up after succeeds when the action does. -/
theorem andFinally_ok {body : Walk Unit} {change : Builder → Builder} :
    andFinally body change builder = (.ok (), after) ↔
      ∃ inner, body builder = (.ok (), inner) ∧ after = change inner := by
  rcases hbody : body builder with ⟨result, inner⟩
  unfold andFinally
  rw [hbody]
  constructor
  · intro h
    cases h
    exact ⟨inner, rfl, rfl⟩
  · rintro ⟨inner', h, rfl⟩
    cases h
    rfl

theorem withNaming_ok {naming : Naming} {body : Walk Unit} :
    withNaming naming body builder = (.ok (), after) ↔
      ∃ inner, body { builder with naming } = (.ok (), inner) ∧ after = { inner with naming := builder.naming } :=
  andFinally_ok

theorem deeper_ok {body : Walk Unit} :
    deeper body builder = (.ok (), after) ↔
      ∃ inner, body { builder with depth := builder.depth + 1 } = (.ok (), inner) ∧
        after = { inner with depth := inner.depth - 1 } :=
  andFinally_ok

theorem push_ok {entry : Entry String} :
    push entry builder = (.ok (), after) ↔ after = { builder with frames := ⟨entry, []⟩ :: builder.frames } := by
  constructor
  · intro h
    cases h
    rfl
  · rintro rfl
    rfl

theorem height_ok {n : Nat} :
    height builder = (.ok n, after) ↔ n = builder.frames.length ∧ after = builder := by
  constructor
  · intro h
    cases h
    exact ⟨rfl, rfl⟩
  · rintro ⟨rfl, rfl⟩
    rfl

theorem finished_ok {outlines : List (Outline String)} :
    finished builder = (.ok outlines, after) ↔
      after = builder ∧ ∃ top below, builder.frames = top :: below ∧ outlines = top.finished := by
  unfold finished
  cases hframes : builder.frames with
  | nil =>
    constructor
    · intro h
      cases congrArg Prod.fst h
    · rintro ⟨-, top, below, h, -⟩
      cases h
  | cons top below =>
    constructor
    · intro h
      cases h
      exact ⟨rfl, top, below, rfl, rfl⟩
    · rintro ⟨rfl, top', below', h, rfl⟩
      cases h
      rfl

theorem changeFinished_ok {change : List (Outline String) → List (Outline String)} :
    changeFinished change builder = (.ok (), after) ↔
      ∃ top below, builder.frames = top :: below ∧
        after = { builder with frames := { top with finished := change top.finished } :: below } := by
  unfold changeFinished
  cases hframes : builder.frames with
  | nil =>
    constructor
    · intro h
      cases congrArg Prod.fst h
    · rintro ⟨top, below, h, -⟩
      cases h
  | cons top below =>
    constructor
    · intro h
      cases h
      exact ⟨top, below, rfl, rfl⟩
    · rintro ⟨top', below', h, rfl⟩
      cases h
      rfl

theorem finishTops_ok {n : Nat} (h : finishTops n builder = (.ok (), after)) :
    after = { builder with frames := closeTops n builder.frames } := by
  induction n generalizing builder with
  | zero =>
    obtain ⟨-, rfl⟩ := pure_ok.1 h
    rw [closeTops_zero]
  | succ n ih =>
    obtain ⟨u, middle, hfinish, h⟩ := bind_ok.1 h
    unfold finishTop at hfinish
    split at hfinish
    · next top below rest hframes =>
      cases hfinish
      rw [ih h, hframes, closeTops_cons_cons]
    · cases congrArg Prod.fst hfinish

/-- As long as a frame stays, any number of frames can be closed. -/
theorem finishTops_apply {n : Nat} (h : n < builder.frames.length) :
    finishTops n builder = (.ok (), { builder with frames := closeTops n builder.frames }) := by
  induction n generalizing builder with
  | zero => rw [closeTops_zero]; rfl
  | succ n ih =>
    rcases hframes : builder.frames with _ | ⟨top, _ | ⟨below, rest⟩⟩
    · simp [hframes] at h
    · simp [hframes] at h
    · refine bind_ok.2 ⟨(), { builder with frames := below.adopt top.close :: rest }, ?_, ?_⟩
      · simp only [finishTop, hframes]
      · rw [ih (by simpa [hframes] using h), closeTops_cons_cons]

theorem closeTo_ok {n : Nat} (h : closeTo n builder = (.ok (), after)) :
    after = { builder with frames := closeDown n builder.frames } := by
  obtain ⟨k, middle, hheight, h⟩ := bind_ok.1 h
  obtain ⟨rfl, rfl⟩ := height_ok.1 hheight
  exact finishTops_ok h

theorem closeTo_apply {n : Nat} (hn : 0 < n) :
    closeTo n builder = (.ok (), { builder with frames := closeDown n builder.frames }) := by
  refine bind_ok.2 ⟨_, builder, height_ok.2 ⟨rfl, rfl⟩, ?_⟩
  rcases hframes : builder.frames with _ | ⟨top, below⟩
  · cases builder
    cases hframes
    simp [finishTops, closeDown]
    rfl
  · rw [finishTops_apply (by simp [hframes]; omega), closeDown, hframes]

theorem makeRoom_ok {kind : Symbol.Kind} (h : makeRoom kind builder = (.ok (), after)) :
    after = { builder with frames := settle kind builder.frames } := by
  unfold makeRoom at h
  cases hlevel : kind.level? with
  | none =>
    rw [hlevel] at h
    obtain ⟨-, rfl⟩ := pure_ok.1 h
    rw [settle, hlevel]
  | some level =>
    rw [hlevel] at h
    obtain ⟨builder', middle, hget, h⟩ := bind_ok.1 h
    obtain ⟨rfl, rfl⟩ := get_ok.1 hget
    rw [finishTops_ok h, settle_of_level hlevel]

end Walk

end DocOutline.Outline
