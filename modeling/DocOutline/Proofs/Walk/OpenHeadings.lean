import DocOutline.Proofs.Outline.Rows
import DocOutline.Proofs.Walk.Additions

/-!
# Open headings

A walk never looks for the heading that an entry belongs to: it closes frames. The headings that stay open above the
topmost open block have strictly growing levels from below, so the topmost one with a small enough level is the last
such heading of the document. This is the invariant of the frames (`Sound.tracks`), with one lemma for each way in which
a walk changes them.
-/

namespace DocOutline.Outline

open DocOutline.Symbol (Entry)
open DocOutline.Syntax (Cursor)

variable {fits : Int → Bool}

/-! ## Frames and their headings -/

/-- Whether no function is open. -/
def Clear (frames : List Frame) : Prop := ∀ frame ∈ frames, frame.entry.kind ≠ .named .function

/-- Whether only headings and blocks are open, and finished runs of comments have nothing nested in them. -/
def Regular (frames : List Frame) : Prop :=
  ∀ frame ∈ frames, (frame.entry.kind.isHeading ∨ frame.entry.kind.isBlock) ∧
    ∀ outline ∈ frame.finished, outline.entry.kind = .commentRun → outline.children = []

/-- Whether with a level also all smaller ones fit. -/
def DownClosed (fits : Int → Bool) : Prop := ∀ level level', level ≤ level' → fits level' → fits level

/-- The position of the topmost open heading whose level fits, above the topmost open block. -/
def openHeading? (fits : Int → Bool) : List Frame → Option Nat
  | top :: below :: rest =>
    if top.entry.kind.isBlock then none
    else if top.entry.kind.level?.any fits then some (reading (below :: rest)).rows.length
    else openHeading? fits (below :: rest)
  | _ => none

theorem openHeading?_cons_cons (top below : Frame) (rest : List Frame) :
    openHeading? fits (top :: below :: rest) =
      if top.entry.kind.isBlock then none
      else if top.entry.kind.level?.any fits then some (reading (below :: rest)).rows.length
      else openHeading? fits (below :: rest) := rfl

theorem openHeading?_adopt (top : Frame) (below : List Frame) (outline : Outline String) :
    openHeading? fits (top.adopt outline :: below) = openHeading? fits (top :: below) := by
  cases below <;> rfl

theorem isBlock_of_isHeading {kind : Symbol.Kind} (h : kind.isHeading) : kind.isBlock = false := by
  cases kind with
  | heading level => rfl
  | named role => cases h
  | group => cases h
  | commentRun => cases h

theorem not_isHeading_of_isBlock {kind : Symbol.Kind} (h : kind.isBlock) : kind.isHeading = false := by
  cases kind with
  | heading level => cases h
  | named role => rfl
  | group => rfl
  | commentRun => rfl

/-! ### Making room for a heading -/

/-- Whether a heading of the given level closes nothing. -/
def Held (level : Int) : List Frame → Prop
  | top :: _ :: _ => top.holdsHeading level
  | _ => True

/-- A heading closes frames one after another, until the frames hold it. -/
theorem settle_heading_induction {level : Int} {motive : List Frame → List Frame → Prop}
    (stay : ∀ frames, Held level frames → motive frames frames)
    (close : ∀ top below rest after, ¬ top.holdsHeading level →
      motive (below.adopt top.close :: rest) after → motive (top :: below :: rest) after)
    (frames : List Frame) : motive frames (settle (.heading level) frames) := by
  match frames with
  | [] => exact stay [] trivial
  | top :: frames =>
    induction frames generalizing top with
    | nil =>
      rw [settle_heading_singleton]
      exact stay [top] trivial
    | cons below rest ih =>
      rw [settle_heading_cons]
      by_cases hholds : top.holdsHeading level
      · rw [if_pos hholds]
        exact stay _ hholds
      · rw [if_neg hholds]
        exact close _ _ _ _ hholds (ih _)

theorem held_settle (level : Int) (frames : List Frame) : Held level (settle (.heading level) frames) := by
  apply settle_heading_induction (motive := fun _ after => Held level after)
  · exact fun _ h => h
  · exact fun _ _ _ _ _ h => h

theorem Clear.tail {top : Frame} {below : List Frame} (h : Clear (top :: below)) : Clear below :=
  (List.forall_mem_cons.1 h).2

theorem Clear.change {top : Frame} {below : List Frame} (h : Clear (top :: below))
    (finished : List (Outline String)) : Clear (⟨top.entry, finished⟩ :: below) :=
  List.forall_mem_cons.2 ⟨(List.forall_mem_cons.1 h).1, h.tail⟩

theorem Clear.settle {frames : List Frame} (level : Int) (h : Clear frames) :
    Clear (settle (.heading level) frames) := by
  revert h
  apply settle_heading_induction (motive := fun frames after => Clear frames → Clear after)
  · exact fun _ _ h => h
  · exact fun _ _ _ _ _ ih h => ih (h.tail.change _)

/-- What is closed has no comment run's kind, since it was open. -/
theorem Regular.settle {frames : List Frame} (level : Int) (h : Regular frames) :
    Regular (settle (.heading level) frames) := by
  revert h
  apply settle_heading_induction (motive := fun frames after => Regular frames → Regular after)
  · exact fun _ _ h => h
  · intro top below rest after _ ih h
    apply ih
    intro frame hframe
    rcases List.mem_cons.1 hframe with rfl | hframe
    · obtain ⟨hkind, hruns⟩ := h below (by simp)
      refine ⟨hkind, fun outline houtline hrun => ?_⟩
      rcases List.mem_cons.1 houtline with rfl | houtline
      · have htop : top.entry.kind = .commentRun := hrun
        have hopen := (h top (by simp)).1
        rw [htop] at hopen
        rcases hopen with hopen | hopen <;> cases hopen
      · exact hruns outline houtline hrun
    · exact h frame (by simp [hframe])

/-- What a heading closes, if no function is open, is a heading of at least its level. -/
theorem not_isBlock_of_not_holds {level : Int} {frame : Frame} (h : ¬ frame.holdsHeading level)
    (hfunction : frame.entry.kind ≠ .named .function) :
    frame.entry.kind.isBlock = false ∧ ∀ level', frame.entry.kind = .heading level' → level ≤ level' := by
  rw [Frame.holdsHeading, Bool.or_eq_true, not_or] at h
  obtain ⟨hgroup, hlevel⟩ := h
  cases hkind : frame.entry.kind with
  | heading level' =>
    refine ⟨rfl, fun _ heq => ?_⟩
    cases heq
    rw [hkind] at hlevel
    simpa [Symbol.Kind.level?] using hlevel
  | named role =>
    refine ⟨?_, fun _ heq => ?_⟩
    · cases role with
      | function => exact absurd hkind hfunction
      | _ => rfl
    · cases heq
  | group => rw [hkind] at hgroup; exact absurd rfl hgroup
  | commentRun =>
    refine ⟨rfl, fun _ heq => ?_⟩
    cases heq

theorem block?_settle {frames : List Frame} (level : Int) (h : Clear frames) :
    (reading (settle (.heading level) frames)).block? = (reading frames).block? := by
  revert h
  apply settle_heading_induction
    (motive := fun frames after => Clear frames → (reading after).block? = (reading frames).block?)
  · exact fun _ _ _ => rfl
  · intro top below rest after hholds ih h
    have hblock := (not_isBlock_of_not_holds hholds (h top (by simp))).1
    rw [ih (h.tail.change _), reading_adopt, reading_cons_cons]
    simp [Reading.enter, hblock]

/-- A heading closes no heading that a smaller level could need. -/
theorem openHeading?_settle {level : Int} {frames : List Frame} (hfits : ∀ level', fits level' → level' < level)
    (h : Clear frames) : openHeading? fits (settle (.heading level) frames) = openHeading? fits frames := by
  revert h
  apply settle_heading_induction
    (motive := fun frames after => Clear frames → openHeading? fits after = openHeading? fits frames)
  · exact fun _ _ _ => rfl
  · intro top below rest after hholds ih h
    obtain ⟨hblock, hlevel⟩ := not_isBlock_of_not_holds hholds (h top (by simp))
    have htop : top.entry.kind.level?.any fits = false := by
      cases hkind : top.entry.kind with
      | heading level' =>
        have hle := hlevel level' hkind
        have hnot : ¬ fits level' := fun hfit => absurd (hfits level' hfit) (by omega)
        simpa [Symbol.Kind.level?] using hnot
      | _ => rfl
    rw [ih (h.tail.change _), openHeading?_adopt, openHeading?_cons_cons, hblock, htop]
    rfl

/-- What a heading is put into: the topmost heading of a smaller level that is open, or else the block. -/
theorem parent?_of_held {level : Int} {frames : List Frame} (h : Held level frames) :
    (reading frames).parent? = (openHeading? (· < level) frames).or (reading frames).block? := by
  match frames, h with
  | [], _ => rfl
  | [bottom], _ => rfl
  | top :: below :: rest, h =>
    rw [openHeading?_cons_cons, reading_cons_cons]
    simp only [Held, Frame.holdsHeading, Bool.or_eq_true] at h
    by_cases hblock : top.entry.kind.isBlock
    · rw [if_pos hblock]
      simp [Reading.enter, hblock]
    · have hgroup : top.entry.kind.isGroup ≠ true := by
        intro hgroup
        cases hkind : top.entry.kind with
        | group => rw [hkind] at hblock; exact hblock rfl
        | _ => rw [hkind] at hgroup; cases hgroup
      rw [if_neg hblock, if_pos (h.resolve_left hgroup)]
      rfl

/-! ## The invariant -/

/-- What holds of the frames at every moment of a walk. -/
structure Sound (frames : List Frame) : Prop where
  ne_nil : frames ≠ []
  regular : Regular frames
  nested : Nested (reading frames).rows
  /-- The last heading around the current place whose level fits is the topmost one that is open. -/
  tracks : ∀ fits, DownClosed fits →
    lastHeading? (reading frames).rows (reading frames).block? fits = openHeading? fits frames

namespace Sound

variable {frames below : List Frame} {top : Frame} {entry : Entry String}

theorem sentinel : Sound [Frame.sentinel] where
  ne_nil := List.cons_ne_nil _ _
  regular := by
    intro frame hframe
    rw [List.mem_singleton.1 hframe]
    exact ⟨.inl rfl, fun _ houtline => (nomatch houtline)⟩
  nested := nested_nil
  tracks _ _ := rfl

/-- What is not a heading is put into the topmost heading that is open, or else the block. -/
theorem parent?_eq (h : Sound frames) :
    (reading frames).parent? = (openHeading? (fun _ => true) frames).or (reading frames).block? := by
  match frames, h with
  | [], h => rfl
  | [bottom], h => rfl
  | top :: below :: rest, h =>
    rw [openHeading?_cons_cons, reading_cons_cons]
    rcases (h.regular top (List.mem_cons_self ..)).1 with hheading | hblock
    · have hlevel : top.entry.kind.level?.any (fun _ => true) = true := by
        cases hkind : top.entry.kind with
        | heading level => rfl
        | _ => rw [hkind] at hheading; cases hheading
      rw [isBlock_of_isHeading hheading, if_neg Bool.false_ne_true, if_pos hlevel]
      rfl
    · rw [if_pos hblock]
      simp [Reading.enter, hblock]

theorem placed (h : Sound frames) (hentry : entry.kind.isHeading = false) :
    Row.Placed (reading frames).rows ⟨entry, (reading frames).parent?, (reading frames).block?⟩ := by
  constructor
  · intro level hkind
    rw [show entry.kind = .heading level from hkind] at hentry
    cases hentry
  · intro _
    rw [h.tracks _ (fun _ _ _ _ => rfl)]
    exact h.parent?_eq

/-- Finishing a block, or an entry with nothing nested in it, inside the top frame. -/
theorem adopt {children : List (Outline String)} (h : Sound (top :: below))
    (hentry : entry.kind.isBlock ∨ entry.kind.isHeading = false ∧ children = [])
    (hnested : Nested (reading (top.adopt (.mk entry children) :: below)).rows) :
    Sound (top.adopt (.mk entry children) :: below) where
  ne_nil := List.cons_ne_nil _ _
  regular := by
    obtain ⟨⟨hkind, hruns⟩, hbelow⟩ := List.forall_mem_cons.1 h.regular
    refine List.forall_mem_cons.2 ⟨⟨hkind, List.forall_mem_cons.2 ⟨fun hrun => ?_, hruns⟩⟩, hbelow⟩
    rcases hentry with hblock | ⟨-, hchildren⟩
    · rw [show entry.kind = .commentRun from hrun] at hblock
      cases hblock
    · exact hchildren
  nested := hnested
  tracks fits hfits := by
    have hbounded := bounded_reading (top :: below)
    rw [reading_adopt, Reading.block?_add, openHeading?_adopt, ← h.tracks fits hfits]
    apply lastHeading?_append
    intro row hrow
    rw [rowsAll_cons, List.mem_append] at hrow
    rcases hrow with hrow | hrow
    · rcases hentry with hblock | ⟨hheading, rfl⟩
      · rcases block?_ne_of_mem_block hblock hbounded.block? hrow with rfl | hne
        · exact isHeadingIn_of_not_heading (not_isHeading_of_isBlock hblock)
        · exact isHeadingIn_of_block?_ne hne
      · rcases List.mem_cons.1 hrow with rfl | hrow
        · exact isHeadingIn_of_not_heading hheading
        · cases hrow
    · cases hrow

theorem adopt_leaf (h : Sound (top :: below)) (hheading : entry.kind.isHeading = false) :
    Sound (top.adopt (.mk entry []) :: below) := by
  apply h.adopt (.inr ⟨hheading, rfl⟩)
  rw [reading_adopt, Reading.rows_add_leaf]
  exact nested_concat.2 ⟨h.nested, h.placed hheading⟩

theorem of_adopt_leaf (h : Sound (top.adopt (.mk entry []) :: below)) (hheading : entry.kind.isHeading = false) :
    Sound (top :: below) where
  ne_nil := List.cons_ne_nil _ _
  regular := by
    obtain ⟨⟨hkind, hruns⟩, hbelow⟩ := List.forall_mem_cons.1 h.regular
    exact List.forall_mem_cons.2 ⟨⟨hkind, (List.forall_mem_cons.1 hruns).2⟩, hbelow⟩
  nested := by
    have hnested := h.nested
    rw [reading_adopt, Reading.rows_add_leaf] at hnested
    exact (nested_concat.1 hnested).1
  tracks fits hfits := by
    have htracks := h.tracks fits hfits
    rwa [reading_adopt, Reading.rows_add_leaf, Reading.block?_add, lastHeading?_concat,
      isHeadingIn_of_not_heading hheading, if_neg Bool.false_ne_true, openHeading?_adopt] at htracks

/-- A comment is an entry without anything nested in it, or takes the place of one. -/
theorem addComment (h : Sound (top :: below)) (here : Cursor) :
    Sound (⟨top.entry, addComment here top.finished⟩ :: below) := by
  rcases addComment_cases here top.finished with heq | ⟨last, earlier, hfinished, hrun, heq⟩
  · rw [heq]
    exact h.adopt_leaf rfl
  · rw [heq]
    have hlast := (of_continuesRun hrun).1
    obtain ⟨topEntry, finished⟩ := top
    obtain ⟨lastEntry, children⟩ := last
    cases hfinished
    obtain ⟨⟨-, hruns⟩, -⟩ := List.forall_mem_cons.1 h.regular
    obtain rfl : children = [] := hruns _ (List.mem_cons_self ..) hlast
    have hheading : lastEntry.kind.isHeading = false := by
      rw [show lastEntry.kind = .commentRun from hlast]
      rfl
    have hearlier : Sound (⟨topEntry, earlier⟩ :: below) := of_adopt_leaf h hheading
    exact hearlier.adopt_leaf rfl

/-- Opening a block. -/
theorem push_block (h : Sound frames) (hblock : entry.kind.isBlock) : Sound (⟨entry, []⟩ :: frames) where
  ne_nil := List.cons_ne_nil _ _
  regular := List.forall_mem_cons.2 ⟨⟨.inr hblock, fun _ houtline => (nomatch houtline)⟩, h.regular⟩
  nested := by
    rw [reading_push entry h.ne_nil, Reading.enter]
    exact nested_concat.2 ⟨h.nested, h.placed (not_isHeading_of_isBlock hblock)⟩
  tracks fits hfits := by
    have hbounded := bounded_reading frames
    rw [reading_push entry h.ne_nil, Reading.enter, if_pos hblock, lastHeading?_concat,
      isHeadingIn_of_not_heading (not_isHeading_of_isBlock hblock), if_neg Bool.false_ne_true,
      lastHeading?_eq_none]
    · cases frames with
      | nil => exact absurd rfl h.ne_nil
      | cons top below => rw [openHeading?_cons_cons, if_pos hblock]
    · intro row hrow
      refine isHeadingIn_of_block?_ne fun heq => ?_
      exact Nat.lt_irrefl _ (hbounded.rows row hrow _ heq)

/-- Opening a heading, where no function is open. -/
theorem push_heading {level : Int} (h : Sound frames) (hclear : Clear frames) (hkind : entry.kind = .heading level) :
    Sound (⟨entry, []⟩ :: settle (.heading level) frames) where
  ne_nil := List.cons_ne_nil _ _
  regular := by
    refine List.forall_mem_cons.2 ⟨⟨.inl ?_, fun _ houtline => (nomatch houtline)⟩, h.regular.settle level⟩
    rw [hkind]
    rfl
  nested := by
    rw [reading_push entry (settle_ne_nil _ h.ne_nil), Reading.enter, rows_reading_settle]
    refine nested_concat.2 ⟨h.nested, ?_, ?_⟩
    · intro level' hkind'
      obtain rfl : level = level' := by
        have heq := hkind.symm.trans hkind'
        cases heq
        rfl
      have hfits : DownClosed (· < level) := by
        intro low high hle hhigh
        simp only [decide_eq_true_eq] at hhigh ⊢
        omega
      have hopen : openHeading? (· < level) (settle (.heading level) frames) = openHeading? (· < level) frames :=
        openHeading?_settle (fun _ hfit => of_decide_eq_true hfit) hclear
      rw [block?_settle level hclear, h.tracks _ hfits, ← hopen, ← block?_settle level hclear]
      exact parent?_of_held (held_settle level frames)
    · intro hheading
      rw [show entry.kind = .heading level from hkind] at hheading
      cases hheading
  tracks fits hfits := by
    have hrow : Row.isHeadingIn (reading frames).block? fits
        ⟨entry, (reading (settle (.heading level) frames)).parent?, (reading frames).block?⟩ = fits level := by
      rw [Row.isHeadingIn, hkind]
      simp [Symbol.Kind.level?]
    have hblock : entry.kind.isBlock = false := by rw [hkind]; rfl
    have hlevel : entry.kind.level?.any fits = fits level := by rw [hkind]; rfl
    rw [reading_push entry (settle_ne_nil _ h.ne_nil), Reading.enter, rows_reading_settle, hblock,
      if_neg Bool.false_ne_true, block?_settle level hclear, lastHeading?_concat, hrow]
    -- If the level of the new heading fits, it is the last one. If not, no level that fits was closed.
    cases hsettled : settle (.heading level) frames with
    | nil => exact absurd hsettled (settle_ne_nil _ h.ne_nil)
    | cons top below =>
      rw [openHeading?_cons_cons, hblock, if_neg Bool.false_ne_true, hlevel, ← hsettled, rows_reading_settle]
      by_cases hfit : fits level
      · rw [if_pos hfit, if_pos hfit]
      · rw [if_neg hfit, if_neg hfit, h.tracks fits hfits]
        refine (openHeading?_settle (fun level' hfit' => ?_) hclear).symm
        exact Int.not_le.1 fun hle => hfit (hfits level level' hle hfit')

end Sound

end DocOutline.Outline
