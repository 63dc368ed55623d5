import DocOutline.Proofs.Walk.Additions

/-!
# Open entries

The entries around an entry are those that are open when it is added (`around_reading`). Once read, a row stays as it is
and where it is, if it is no run of comments (`exists_row_of_isPrefix`); so what is said of the entries around it in the
finished outline can be said of the frames that were open.
-/

namespace DocOutline.Outline

open DocOutline.Symbol (Entry)

variable {frames : List Frame} {rows : List Row}

/-! ## What is around an entry -/

/-- The row of the entry that the entry of a row is nested in. -/
def Row.outer? (rows : List Row) (row : Row) : Option Row := row.parent?.bind (rows[·]?)

theorem Row.outer?_eq_some {row outer : Row} :
    row.outer? rows = some outer ↔ ∃ parent, row.parent? = some parent ∧ rows[parent]? = some outer :=
  Option.bind_eq_some_iff

/-- Whether the entry of a row is nested in that of another one, at whatever depth. -/
inductive Around (rows : List Row) : (row outer : Row) → Prop
  | parent {row outer} (houter : row.outer? rows = some outer) : Around rows row outer
  | above {row middle outer} (hmiddle : row.outer? rows = some middle) (h : Around rows middle outer) :
      Around rows row outer

theorem Around.parent?_ne_none {row outer : Row} (h : Around rows row outer) : row.parent? ≠ none := by
  intro hnone
  cases h with
  | parent houter => rw [Row.outer?, hnone] at houter; cases houter
  | above hmiddle _ => rw [Row.outer?, hnone] at hmiddle; cases hmiddle

mutual

theorem parent?_lt_rows {next position parent : Nat} {parent? block? : Option Nat} {outline : Outline String}
    {row : Row} (hnext : ∀ parent, parent? = some parent → parent < next)
    (hrow : (Outline.rows next parent? block? outline)[position]? = some row) (hparent : row.parent? = some parent) :
    parent < next + position := by
  match outline, hrow with
  | mk entry children, hrow =>
    rw [Outline.rows] at hrow
    cases position with
    | zero =>
      cases hrow
      exact hnext parent hparent
    | succ position =>
      rw [List.getElem?_cons_succ] at hrow
      have hlt := parent?_lt_rowsAll (fun _ heq => by cases heq; exact Nat.lt_succ_self next) hrow hparent
      omega

/-- Parents come first. -/
theorem parent?_lt_rowsAll {next position parent : Nat} {parent? block? : Option Nat} {outlines : List (Outline String)}
    {row : Row} (hnext : ∀ parent, parent? = some parent → parent < next)
    (hrow : (rowsAll next parent? block? outlines)[position]? = some row) (hparent : row.parent? = some parent) :
    parent < next + position := by
  match outlines, hrow with
  | outline :: outlines, hrow =>
    rw [rowsAll_cons] at hrow
    by_cases hlt : position < (Outline.rows next parent? block? outline).length
    · rw [List.getElem?_append_left hlt] at hrow
      exact parent?_lt_rows hnext hrow hparent
    · rw [List.getElem?_append_right (Nat.le_of_not_lt hlt)] at hrow
      have hlater := parent?_lt_rowsAll (fun parent heq => Nat.lt_add_right _ (hnext parent heq)) hrow hparent
      omega

end

/-- What is around a row is in front of it. -/
theorem Around.take {forest : Forest} {position : Nat} {row outer : Row}
    (hrow : (forestRows forest)[position]? = some row) (h : Around (forestRows forest) row outer) :
    Around ((forestRows forest).take position) row outer := by
  have hparents : ∀ {position parent : Nat} {row : Row}, (forestRows forest)[position]? = some row →
      row.parent? = some parent → parent < position := by
    intro position parent row hrow hparent
    have hlt := parent?_lt_rowsAll (by nofun) hrow hparent
    omega
  have hlt : ∀ parent, row.parent? = some parent → parent < position := fun _ => hparents hrow
  clear hrow
  induction h with
  | parent houter =>
    obtain ⟨parent, hparent, hget⟩ := Row.outer?_eq_some.1 houter
    exact .parent (Row.outer?_eq_some.2 ⟨parent, hparent, by rw [List.getElem?_take_of_lt (hlt parent hparent), hget]⟩)
  | above hmiddle _ ih =>
    obtain ⟨parent, hparent, hget⟩ := Row.outer?_eq_some.1 hmiddle
    refine .above (Row.outer?_eq_some.2 ⟨parent, hparent, ?_⟩) (ih fun next hnext => ?_)
    · rw [List.getElem?_take_of_lt (hlt parent hparent), hget]
    · -- What is further out has a smaller position still.
      exact Nat.lt_trans (hparents hget hnext) (hlt parent hparent)

/-! ## Open entries -/

/-- The entries that are open, the innermost first. The bottom frame has no entry of its own. -/
def openEntries : List Frame → List (Entry String)
  | top :: below :: rest => top.entry :: openEntries (below :: rest)
  | _ => []

theorem openEntries_push (entry : Entry String) (h : frames ≠ []) :
    openEntries (⟨entry, []⟩ :: frames) = entry :: openEntries frames := by
  cases frames with
  | nil => exact absurd rfl h
  | cons below rest => rfl

theorem openEntries_change (entry : Entry String) (finished finished' : List (Outline String)) (below : List Frame) :
    openEntries (⟨entry, finished⟩ :: below) = openEntries (⟨entry, finished'⟩ :: below) := by
  cases below <;> rfl

theorem openEntries_closeTops_subset (n : Nat) (frames : List Frame) :
    openEntries (closeTops n frames) ⊆ openEntries frames := by
  induction n generalizing frames with
  | zero => rw [closeTops_zero]; exact fun _ h => h
  | succ n ih =>
    match frames with
    | [] => exact fun _ h => h
    | [_] => exact fun _ h => h
    | top :: below :: rest =>
      rw [closeTops_cons_cons]
      have hbelow : openEntries (below.adopt top.close :: rest) = openEntries (below :: rest) :=
        openEntries_change below.entry _ _ rest
      exact fun entry hentry => List.mem_cons_of_mem _ (hbelow ▸ ih _ hentry)

theorem openEntries_settle_subset (kind : Symbol.Kind) (frames : List Frame) :
    openEntries (settle kind frames) ⊆ openEntries frames := by
  unfold settle
  split
  · exact openEntries_closeTops_subset _ _
  · exact fun _ h => h

theorem getElem?_of_isPrefix {rows rows' : List Row} {position : Nat} {row : Row} (hfront : rows <+: rows')
    (h : rows[position]? = some row) : rows'[position]? = some row := by
  obtain ⟨hlt, rfl⟩ := List.getElem?_eq_some_iff.1 h
  exact List.prefix_iff_getElem?.1 hfront position hlt

theorem rows_isPrefix_cons (top below : Frame) (rest : List Frame) :
    (reading (below :: rest)).rows <+: (reading (top :: below :: rest)).rows :=
  List.IsPrefix.trans (List.prefix_append _ _) (List.prefix_append _ _)

/-- An entry that is open is read behind all that was there when it was opened. -/
theorem getElem?_rows_open (top below : Frame) (rest : List Frame) :
    (reading (top :: below :: rest)).rows[(reading (below :: rest)).rows.length]? =
      some ⟨top.entry, (reading (below :: rest)).parent?, (reading (below :: rest)).block?⟩ := by
  rw [reading_cons_cons, Reading.add, Reading.enter]
  simp

/-- What is around an entry that is added now is open. -/
theorem around_reading {row outer : Row} (hrows : (reading frames).rows <+: rows)
    (hparent : row.parent? = (reading frames).parent?) (h : Around rows row outer) :
    outer.entry ∈ openEntries frames := by
  induction frames generalizing row with
  | nil => exact absurd hparent h.parent?_ne_none
  | cons top frames ih =>
    cases frames with
    | nil => exact absurd hparent h.parent?_ne_none
    | cons below rest =>
      have houter : row.outer? rows =
          some ⟨top.entry, (reading (below :: rest)).parent?, (reading (below :: rest)).block?⟩ :=
        Row.outer?_eq_some.2 ⟨_, hparent, getElem?_of_isPrefix hrows (getElem?_rows_open top below rest)⟩
      cases h with
      | parent hrow =>
        rw [houter] at hrow
        cases hrow
        exact List.mem_cons_self ..
      | above hrow habove =>
        rw [houter] at hrow
        cases hrow
        exact List.mem_cons_of_mem _ (ih ((rows_isPrefix_cons top below rest).trans hrows) rfl habove)

/-! ## Rows of the finished outline -/

/-- A row that has been read is in the finished outline too, if it is no run of comments. -/
theorem exists_row_of_isPrefix {row : Row} {position : Nat} (hrows : lastingRows frames <+: rows.map Row.lasting)
    (hrow : (reading frames).rows[position]? = some row) (hkind : row.entry.kind ≠ .commentRun) :
    ∃ last, rows[position]? = some last ∧ last.entry = row.entry ∧ last.parent? = row.parent? := by
  have hlasting : (lastingRows frames)[position]? = some row.lasting := by
    rw [lastingRows, List.getElem?_map, hrow]
    rfl
  have hmap := getElem?_of_isPrefix hrows hlasting
  rw [List.getElem?_map, Option.map_eq_some_iff] at hmap
  obtain ⟨last, hlast, heq⟩ := hmap
  have hentry : last.lasting.entry = row.lasting.entry := by rw [heq]
  have hparent : last.lasting.parent? = row.lasting.parent? := by rw [heq]
  exact ⟨last, hlast, Entry.eq_of_lasting_eq hentry hkind, hparent⟩

end DocOutline.Outline
