import DocOutline.Proofs.Walk.Stack

/-!
# Rows of an outline

An outline is read in pre-order, row by row, and where an entry belongs is said by the rows in front of it.
-/

namespace DocOutline

/-! ## Outlines as rows

An outline is read in pre-order. What stands where in it is said by positions: each entry becomes a row with the
position of its parent and the position of the nearest block around it, where the blocks are groups and functions.

The frames of a walk are read in the same way, as the outline that they would become if they were closed now
(`reading`). So closing a frame changes no row (`rows_reading_closeTops`), opening one adds a row at the end, and
finishing an outline inside the top frame adds its rows there.
-/

def Symbol.Kind.isBlock : Kind → Bool
  | group | named .function => true
  | _ => false

namespace Outline

open DocOutline.Symbol (Entry)

/-- An entry with the positions of its parent and of the nearest block around it. -/
structure Row where
  entry : Entry String
  parent? : Option Nat
  block? : Option Nat
deriving DecidableEq, Repr

mutual

/-- The rows of an outline, the first of which has position `next`. -/
def rows (next : Nat) (parent? block? : Option Nat) : Outline String → List Row
  | mk entry children =>
    ⟨entry, parent?, block?⟩ ::
      rowsAll (next + 1) (some next) (if entry.kind.isBlock then some next else block?) children
termination_by structural outline => outline

/-- The rows of consecutive outlines, the first of which has position `next`. -/
def rowsAll (next : Nat) (parent? block? : Option Nat) : List (Outline String) → List Row
  | [] => []
  | outline :: outlines =>
    let first := rows next parent? block? outline
    first ++ rowsAll (next + first.length) parent? block? outlines
termination_by structural outlines => outlines

end

def forestRows (forest : Forest) : List Row := rowsAll 0 none none forest

theorem rowsAll_cons (next : Nat) (parent? block? : Option Nat) (outline : Outline String)
    (outlines : List (Outline String)) :
    rowsAll next parent? block? (outline :: outlines) = rows next parent? block? outline ++
      rowsAll (next + (rows next parent? block? outline).length) parent? block? outlines := rfl

theorem rowsAll_append (next : Nat) (parent? block? : Option Nat) (outlines outlines' : List (Outline String)) :
    rowsAll next parent? block? (outlines ++ outlines') = rowsAll next parent? block? outlines ++
      rowsAll (next + (rowsAll next parent? block? outlines).length) parent? block? outlines' := by
  induction outlines generalizing next with
  | nil => rfl
  | cons outline outlines ih =>
    rw [List.cons_append, rowsAll_cons, rowsAll_cons, ih, List.append_assoc, List.length_append, Nat.add_assoc]

mutual

/-- The rows have the entries of an outline in pre-order. -/
theorem entries_rows (depth next : Nat) (parent? block? : Option Nat) (outline : Outline String) :
    (rows next parent? block? outline).map Row.entry = (flatten depth outline).map Prod.fst := by
  match outline with
  | mk entry children =>
    rw [rows, flatten, List.map_cons, List.map_cons, entries_rowsAll (depth + 1)]

theorem entries_rowsAll (depth next : Nat) (parent? block? : Option Nat) (outlines : List (Outline String)) :
    (rowsAll next parent? block? outlines).map Row.entry = (flattenAll depth outlines).map Prod.fst := by
  match outlines with
  | [] => rfl
  | outline :: outlines =>
    rw [rowsAll_cons, flattenAll, List.map_append, List.map_append, entries_rows depth, entries_rowsAll depth]

end

example :
    (forestRows [mk ⟨"A", .heading 1, 0, 1⟩ [mk ⟨"", .group, 2, 5⟩ [mk ⟨"B", .heading 1, 3, 4⟩ []]],
      mk ⟨"", .commentRun, 6, 8⟩ []]).map (fun row => (row.parent?, row.block?)) =
      [(none, none), (some 0, none), (some 1, some 1), (none, none)] := by decide

mutual

/-- The block around an entry is the one around the whole outline, or an entry of the outline itself. -/
theorem block?_of_mem_rows {next : Nat} {parent? block? : Option Nat} {outline : Outline String} {row : Row}
    (h : row ∈ rows next parent? block? outline) :
    row.block? = block? ∨
      ∃ position, row.block? = some position ∧ next ≤ position ∧
        position < next + (rows next parent? block? outline).length := by
  match outline, h with
  | mk entry children, h =>
    rcases List.mem_cons.1 h with rfl | h
    · exact .inl rfl
    rw [rows, List.length_cons]
    rcases block?_of_mem_rowsAll h with hblock | ⟨position, hblock, hle, hlt⟩
    · split at hblock
      · exact .inr ⟨next, hblock, Nat.le_refl _, by omega⟩
      · exact .inl hblock
    · exact .inr ⟨position, hblock, by omega, by omega⟩

theorem block?_of_mem_rowsAll {next : Nat} {parent? block? : Option Nat} {outlines : List (Outline String)} {row : Row}
    (h : row ∈ rowsAll next parent? block? outlines) :
    row.block? = block? ∨
      ∃ position, row.block? = some position ∧ next ≤ position ∧
        position < next + (rowsAll next parent? block? outlines).length := by
  match outlines, h with
  | outline :: outlines, h =>
    rw [rowsAll_cons, List.length_append]
    rcases List.mem_append.1 h with h | h
    · rcases block?_of_mem_rows h with hblock | ⟨position, hblock, hle, hlt⟩
      · exact .inl hblock
      · exact .inr ⟨position, hblock, hle, by omega⟩
    · rcases block?_of_mem_rowsAll h with hblock | ⟨position, hblock, hle, hlt⟩
      · exact .inl hblock
      · exact .inr ⟨position, hblock, by omega, by omega⟩

end

/-- Beneath a block, nothing has the block around it in common with the block itself. -/
theorem block?_ne_of_mem_block {next : Nat} {parent? block? : Option Nat} {entry : Entry String}
    {children : List (Outline String)} (hblock : entry.kind.isBlock)
    (hlt : ∀ position, block? = some position → position < next) {row : Row}
    (h : row ∈ rows next parent? block? (mk entry children)) :
    row = ⟨entry, parent?, block?⟩ ∨ row.block? ≠ block? := by
  rcases List.mem_cons.1 h with rfl | h
  · exact .inl rfl
  right
  intro heq
  rw [if_pos hblock] at h
  rcases block?_of_mem_rowsAll h with hnext | ⟨position, hposition, hle, -⟩
  · exact Nat.lt_irrefl _ (hlt _ (heq.symm.trans hnext))
  · have := hlt _ (heq.symm.trans hposition)
    omega

/-! ### Reading the frames -/

/-- What has been read so far, with the positions of the entry that is open and of the nearest block that is open. -/
structure Reading where
  rows : List Row := []
  parent? : Option Nat := none
  block? : Option Nat := none

namespace Reading

/-- Reads an entry that is still open. -/
def enter (reading : Reading) (entry : Entry String) : Reading where
  rows := reading.rows ++ [⟨entry, reading.parent?, reading.block?⟩]
  parent? := some reading.rows.length
  block? := if entry.kind.isBlock then some reading.rows.length else reading.block?

/-- Reads outlines that are finished inside the entry that is open. -/
def add (reading : Reading) (outlines : List (Outline String)) : Reading :=
  { reading with
    rows := reading.rows ++ rowsAll reading.rows.length reading.parent? reading.block? outlines }

@[simp] theorem parent?_add (reading : Reading) (outlines : List (Outline String)) :
    (reading.add outlines).parent? = reading.parent? := rfl

@[simp] theorem block?_add (reading : Reading) (outlines : List (Outline String)) :
    (reading.add outlines).block? = reading.block? := rfl

@[simp] theorem add_nil (reading : Reading) : reading.add [] = reading := by
  simp [add, rowsAll]

theorem add_add (reading : Reading) (outlines outlines' : List (Outline String)) :
    (reading.add outlines).add outlines' = reading.add (outlines ++ outlines') := by
  simp [add, rowsAll_append]

theorem rows_add_leaf (reading : Reading) (entry : Entry String) :
    (reading.add [.mk entry []]).rows = reading.rows ++ [⟨entry, reading.parent?, reading.block?⟩] := rfl

/-- Whether an entry is read while it is open or when it is finished makes no difference to the rows. -/
theorem rows_add_mk (reading : Reading) (entry : Entry String) (children : List (Outline String)) :
    (reading.add [.mk entry children]).rows = ((reading.enter entry).add children).rows := by
  simp [add, enter, rowsAll, Outline.rows]

end Reading

/-- What is read of the frames. The bottom frame has no entry of its own. -/
def reading : List Frame → Reading
  | [] => {}
  | [bottom] => Reading.add {} bottom.finished.reverse
  | frame :: below => ((reading below).enter frame.entry).add frame.finished.reverse

theorem reading_singleton (bottom : Frame) : (reading [bottom]).rows = forestRows bottom.finished.reverse := rfl

theorem reading_cons_cons (top below : Frame) (rest : List Frame) :
    reading (top :: below :: rest) = ((reading (below :: rest)).enter top.entry).add top.finished.reverse := rfl

/-- Opening a frame reads its entry. -/
theorem reading_push (entry : Entry String) {frames : List Frame} (h : frames ≠ []) :
    reading (⟨entry, []⟩ :: frames) = (reading frames).enter entry := by
  cases frames with
  | nil => exact absurd rfl h
  | cons below rest => rw [reading_cons_cons, List.reverse_nil, Reading.add_nil]

/-- Finishing an outline inside the top frame reads the outline. -/
theorem reading_adopt (top : Frame) (below : List Frame) (outline : Outline String) :
    reading (top.adopt outline :: below) = (reading (top :: below)).add [outline] := by
  have hreverse : (top.adopt outline).finished.reverse = top.finished.reverse ++ [outline] := List.reverse_cons
  cases below with
  | nil => rw [reading, reading, hreverse, Reading.add_add]
  | cons below rest => rw [reading_cons_cons, reading_cons_cons, hreverse, ← Reading.add_add]; rfl

/-- Closing a frame changes no row. -/
theorem rows_reading_close (top below : Frame) (rest : List Frame) :
    (reading (below.adopt top.close :: rest)).rows = (reading (top :: below :: rest)).rows := by
  rw [reading_adopt, Frame.close, Reading.rows_add_mk, reading_cons_cons]

theorem rows_reading_closeTops (n : Nat) (frames : List Frame) :
    (reading (closeTops n frames)).rows = (reading frames).rows := by
  induction n generalizing frames with
  | zero => rw [closeTops_zero]
  | succ n ih =>
    match frames with
    | [] => rfl
    | [bottom] => rfl
    | top :: below :: rest => rw [closeTops_cons_cons, ih, rows_reading_close]

theorem rows_reading_closeDown (height : Nat) (frames : List Frame) :
    (reading (closeDown height frames)).rows = (reading frames).rows := rows_reading_closeTops _ _

theorem rows_reading_settle (kind : Symbol.Kind) (frames : List Frame) :
    (reading (settle kind frames)).rows = (reading frames).rows := by
  unfold settle
  split
  · exact rows_reading_closeTops _ _
  · rfl

/-! ### Positions of blocks -/

/-- All blocks that are mentioned have been read. -/
structure Reading.Bounded (reading : Reading) : Prop where
  block? : ∀ position, reading.block? = some position → position < reading.rows.length
  rows : ∀ row ∈ reading.rows, ∀ position, row.block? = some position → position < reading.rows.length

namespace Reading.Bounded

variable {reading : Reading}

theorem enter (h : reading.Bounded) (entry : Entry String) : (reading.enter entry).Bounded := by
  have hlength : (reading.enter entry).rows.length = reading.rows.length + 1 := by
    rw [Reading.enter, List.length_append, List.length_singleton]
  constructor
  · intro position hposition
    rw [hlength]
    rw [Reading.enter] at hposition
    split at hposition
    · cases hposition
      exact Nat.lt_succ_self _
    · exact Nat.lt_succ_of_lt (h.block? position hposition)
  · intro row hrow position hposition
    rw [hlength]
    rcases List.mem_append.1 hrow with hrow | hrow
    · exact Nat.lt_succ_of_lt (h.rows row hrow position hposition)
    · rw [List.mem_singleton.1 hrow] at hposition
      exact Nat.lt_succ_of_lt (h.block? position hposition)

theorem add (h : reading.Bounded) (outlines : List (Outline String)) : (reading.add outlines).Bounded := by
  have hlength : reading.rows.length ≤ (reading.add outlines).rows.length := by
    rw [Reading.add, List.length_append]
    exact Nat.le_add_right _ _
  constructor
  · intro position hposition
    exact Nat.lt_of_lt_of_le (h.block? position hposition) hlength
  · intro row hrow position hposition
    rcases List.mem_append.1 hrow with hrow | hrow
    · exact Nat.lt_of_lt_of_le (h.rows row hrow position hposition) hlength
    · rcases block?_of_mem_rowsAll hrow with hblock | ⟨position', hblock, -, hlt⟩
      · exact Nat.lt_of_lt_of_le (h.block? position (hblock.symm.trans hposition)) hlength
      · rw [hposition] at hblock
        cases hblock
        rwa [Reading.add, List.length_append]

end Reading.Bounded

theorem bounded_reading (frames : List Frame) : (reading frames).Bounded := by
  have hempty : Reading.Bounded {} := ⟨fun _ h => (nomatch h), fun _ h => (nomatch h)⟩
  induction frames with
  | nil => exact hempty
  | cons frame below ih =>
    cases below with
    | nil => exact hempty.add _
    | cons next rest => exact (ih.enter _).add _

end Outline

end DocOutline

namespace DocOutline.Outline

/-! ## Where entries belong

An entry belongs to the last heading in front of it that has the same block around it, and a heading only to one of a
smaller level; without such a heading it belongs to the block. `Nested` says so of all rows of an outline. It can be
checked row by row, in the order in which a walk adds them (`nested_concat`).
-/

def Row.isHeadingIn (block? : Option Nat) (fits : Int → Bool) (row : Row) : Bool :=
  row.block? == block? && row.entry.kind.level?.any fits

/-- The position of the last heading with the given block around it whose level fits. -/
def lastHeading? (rows : List Row) (block? : Option Nat) (fits : Int → Bool) : Option Nat :=
  (rows.zipIdx.reverse.find? fun (row, _) => row.isHeadingIn block? fits).map Prod.snd

/-- Whether an entry has the parent that it should have, given the rows in front of it. -/
structure Row.Placed (earlier : List Row) (row : Row) : Prop where
  heading : ∀ level, row.entry.kind = .heading level →
    row.parent? = (lastHeading? earlier row.block? (· < level)).or row.block?
  other : row.entry.kind.isHeading = false →
    row.parent? = (lastHeading? earlier row.block? fun _ => true).or row.block?

/-- Whether all entries have the parents that they should have. -/
def Nested (rows : List Row) : Prop :=
  ∀ (position : Nat) (row : Row), rows[position]? = some row → row.Placed (rows.take position)

variable {block? : Option Nat} {fits : Int → Bool} {rows rows' : List Row} {row : Row}

theorem lastHeading?_concat :
    lastHeading? (rows ++ [row]) block? fits =
      if row.isHeadingIn block? fits then some rows.length else lastHeading? rows block? fits := by
  simp only [lastHeading?, List.zipIdx_append, List.zipIdx_singleton, Nat.zero_add, List.reverse_append,
    List.reverse_singleton, List.singleton_append, List.find?_cons]
  split
  · next h => rw [if_pos h]; rfl
  · next h => rw [if_neg (by rw [h]; exact Bool.false_ne_true)]

theorem lastHeading?_append (h : ∀ row ∈ rows', row.isHeadingIn block? fits = false) :
    lastHeading? (rows ++ rows') block? fits = lastHeading? rows block? fits := by
  induction rows' generalizing rows with
  | nil => rw [List.append_nil]
  | cons row rows' ih =>
    obtain ⟨hrow, hrows'⟩ := List.forall_mem_cons.1 h
    rw [List.append_cons, ih hrows', lastHeading?_concat, hrow, if_neg Bool.false_ne_true]

theorem lastHeading?_eq_none (h : ∀ row ∈ rows, row.isHeadingIn block? fits = false) :
    lastHeading? rows block? fits = none := by
  have happend : lastHeading? ([] ++ rows) block? fits = none := lastHeading?_append h
  rwa [List.nil_append] at happend

theorem isHeadingIn_of_not_heading (h : row.entry.kind.isHeading = false) : row.isHeadingIn block? fits = false := by
  have hlevel : row.entry.kind.level? = none := by
    cases hkind : row.entry.kind with
    | heading level => rw [hkind] at h; cases h
    | _ => rfl
  rw [Row.isHeadingIn, hlevel, Option.any_none, Bool.and_false]

theorem isHeadingIn_of_block?_ne (h : row.block? ≠ block?) : row.isHeadingIn block? fits = false := by
  rw [Row.isHeadingIn, beq_eq_false_iff_ne.2 h, Bool.false_and]

/-- What is said of each row and those in front of it can be checked row by row. -/
theorem forall_rows_concat {P : List Row → Row → Prop} :
    (∀ position inner, (rows ++ [row])[position]? = some inner → P ((rows ++ [row]).take position) inner) ↔
      (∀ position inner, rows[position]? = some inner → P (rows.take position) inner) ∧ P rows row := by
  constructor
  · intro h
    constructor
    · intro position inner hinner
      obtain ⟨hlt, -⟩ := List.getElem?_eq_some_iff.1 hinner
      have hinner' := h position inner (by rwa [List.getElem?_append_left hlt])
      rwa [List.take_append_of_le_length (Nat.le_of_lt hlt)] at hinner'
    · have hrow := h rows.length row (by simp)
      rwa [List.take_left] at hrow
  · rintro ⟨hrows, hrow⟩ position inner hinner
    rcases Nat.lt_trichotomy position rows.length with hlt | rfl | hgt
    · rw [List.getElem?_append_left hlt] at hinner
      rw [List.take_append_of_le_length (Nat.le_of_lt hlt)]
      exact hrows position inner hinner
    · rw [List.getElem?_concat_length] at hinner
      cases hinner
      rwa [List.take_left]
    · rw [List.getElem?_eq_none (by simp; omega)] at hinner
      cases hinner

theorem nested_nil : Nested [] := fun _ _ h => nomatch h

theorem nested_concat : Nested (rows ++ [row]) ↔ Nested rows ∧ row.Placed rows :=
  forall_rows_concat (P := fun earlier row => row.Placed earlier)

end DocOutline.Outline
