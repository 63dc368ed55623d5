import Mathlib
import DocOutline.Text.Bytes

/-!
# Looking up lines

The table of a text's lines holds the beginning of the text and what stands behind each line feed, in ascending order. So the line
of an offset is the number of line feeds in front of it, and its start is behind the last of them (`looksUp_ofText`). It makes no
difference whether the starts up to the offset are counted or found by halving the table (`bisect_eq`).
-/

namespace DocOutline.Lines

open Text (Bytes encode slice)

variable {position start offset : Nat} {starts : List Nat} {bytes front : Bytes}

/-! ## The table -/

theorem startsAfter_append (position : Nat) (front back : Bytes) :
    startsAfter position (front ++ back) = startsAfter position front ++ startsAfter (position + front.length) back := by
  induction front generalizing position with
  | nil => rfl
  | cons b front ih =>
    have hposition : position + (b :: front).length = position + 1 + front.length := by
      rw [List.length_cons, Nat.add_assoc, Nat.add_comm 1]
    rw [List.cons_append, startsAfter, startsAfter, ih, hposition]
    split <;> rfl

/-- There is a start behind each line feed. -/
theorem length_startsAfter (position : Nat) (bytes : Bytes) : (startsAfter position bytes).length = bytes.count 0x0A := by
  induction bytes generalizing position with
  | nil => rfl
  | cons b bytes ih =>
    rw [startsAfter, List.count_cons]
    by_cases hfeed : b = 0x0A <;> simp [hfeed, ih]

theorem bounds_of_mem_startsAfter (h : start ∈ startsAfter position bytes) :
    position < start ∧ start ≤ position + bytes.length := by
  induction bytes generalizing position with
  | nil => cases h
  | cons b bytes ih =>
    have hrest (hmem : start ∈ startsAfter (position + 1) bytes) :
        position < start ∧ start ≤ position + (b :: bytes).length := by
      obtain ⟨hlt, hle⟩ := ih hmem
      rw [List.length_cons]
      omega
    rw [startsAfter] at h
    split at h
    · rcases List.mem_cons.mp h with rfl | h
      · rw [List.length_cons]
        omega
      · exact hrest h
    · exact hrest h

theorem pairwise_startsAfter (position : Nat) (bytes : Bytes) : (startsAfter position bytes).Pairwise (· < ·) := by
  induction bytes generalizing position with
  | nil => exact .nil
  | cons b bytes ih =>
    rw [startsAfter]
    split
    · exact .cons (fun _ hmem => (bounds_of_mem_startsAfter hmem).1) (ih _)
    · exact ih _

/-- The starts are in ascending order. -/
theorem pairwise_starts (text : String) : (ofText text).starts.Pairwise (· < ·) :=
  .cons (fun _ hmem => (bounds_of_mem_startsAfter hmem).1) (pairwise_startsAfter 0 (encode text))

/-- The starts in the front of a text come first. -/
theorem starts_append (front back : Bytes) :
    0 :: startsAfter 0 (front ++ back) = (0 :: startsAfter 0 front) ++ startsAfter front.length back := by
  rw [startsAfter_append, Nat.zero_add, List.cons_append]

/-- They are the starts up to its end. -/
theorem takeWhile_starts (front back : Bytes) :
    (0 :: startsAfter 0 (front ++ back)).takeWhile (· ≤ front.length) = 0 :: startsAfter 0 front := by
  have hfront : ∀ start ∈ 0 :: startsAfter 0 front, decide (start ≤ front.length) = true := by
    refine List.forall_mem_cons.mpr ⟨decide_eq_true (Nat.zero_le _), fun start hmem => ?_⟩
    simpa using (bounds_of_mem_startsAfter hmem).2
  have hback : (startsAfter front.length back).takeWhile (· ≤ front.length) = [] := by
    rw [List.takeWhile_eq_nil_iff]
    intro hpos hle
    have hlt := (bounds_of_mem_startsAfter (List.getElem_mem hpos)).1
    exact Nat.not_le.mpr hlt (of_decide_eq_true hle)
  rw [starts_append, List.takeWhile_append_of_pos hfront, hback, List.append_nil]

/-- The last line of the front of a text starts behind the last line feed. -/
theorem exists_start (front : Bytes) :
    ∃ start, (0 :: startsAfter 0 front)[front.count 0x0A]? = some start ∧ start ≤ front.length ∧ 0x0A ∉ front.drop start := by
  induction front using List.reverseRecOn with
  | nil => exact ⟨0, rfl, Nat.le_refl _, nofun⟩
  | append_singleton front b ih =>
    obtain ⟨start, hstart, hle, hnone⟩ := ih
    rw [starts_append, List.count_append, List.length_append]
    by_cases hfeed : b = 0x0A
    · subst hfeed
      refine ⟨front.length + 1, ?_, Nat.le_refl _, ?_⟩
      · rw [List.getElem?_append_right (by rw [List.length_cons, length_startsAfter]; exact Nat.le_refl _), List.length_cons,
          length_startsAfter]
        simp [startsAfter]
      · rw [List.drop_of_length_le (by rw [List.length_append]; exact Nat.le_refl _)]
        exact nofun
    · have hsame : startsAfter front.length [b] = [] := by simp [startsAfter, hfeed]
      have hcount : [b].count 0x0A = 0 := List.count_eq_zero_of_not_mem fun hmem => hfeed (List.mem_singleton.mp hmem).symm
      rw [hsame, hcount, List.append_nil, Nat.add_zero]
      refine ⟨start, hstart, Nat.le_add_right_of_le hle, ?_⟩
      rw [List.drop_append_of_le_length hle, List.mem_append, not_or]
      exact ⟨hnone, fun hmem => hfeed (List.mem_singleton.mp hmem).symm⟩

/-! ## Lines of offsets -/

theorem length_takeWhile_le (starts : List Nat) {offset offset' : Nat} (h : offset ≤ offset') :
    (starts.takeWhile (· ≤ offset)).length ≤ (starts.takeWhile (· ≤ offset')).length := by
  induction starts with
  | nil => simp
  | cons start starts ih =>
    by_cases hstart : start ≤ offset
    · simpa [hstart, Nat.le_trans hstart h] using ih
    · simp [hstart]

/-- What starts further back does not start on an earlier line. -/
theorem lineOf_mono (lines : Lines) {offset offset' : Int} (h : offset ≤ offset') :
    lines.lineOf offset ≤ lines.lineOf offset' := by
  have hclamp : lines.clamp offset ≤ lines.clamp offset' := by
    simp only [clamp]
    omega
  have hlength := length_takeWhile_le lines.starts hclamp
  simp only [lineOf]
  omega

theorem clamp_le (text : String) (offset : Int) : (ofText text).clamp offset ≤ (encode text).length := Nat.min_le_right _ _

/-- An offset splits the bytes of a text. -/
theorem exists_split (text : String) (offset : Int) :
    ∃ front back, encode text = front ++ back ∧ front.length = (ofText text).clamp offset :=
  ⟨_, _, (List.take_append_drop _ _).symm, List.length_take_of_le (clamp_le text offset)⟩

/-- **The line of an offset is the number of line feeds in front of it.** -/
theorem lineOf_ofText (text : String) (offset : Int) :
    (ofText text).lineOf offset = ((encode text).take ((ofText text).clamp offset)).count 0x0A := by
  obtain ⟨front, back, hbytes, hlength⟩ := exists_split text offset
  have hstarts : (ofText text).starts = 0 :: startsAfter 0 (front ++ back) := by rw [← hbytes]; rfl
  rw [lineOf, hstarts, ← hlength, takeWhile_starts, List.length_cons, length_startsAfter, Nat.add_sub_cancel, hbytes,
    List.take_left]

/-- The line of an offset starts at the offset or in front of it, with no line feed between. -/
theorem exists_start_lineOf (text : String) (offset : Int) :
    ∃ start, (ofText text).starts[(ofText text).lineOf offset]? = some start ∧ start ≤ (ofText text).clamp offset ∧
      0x0A ∉ slice (encode text) start ((ofText text).clamp offset) := by
  obtain ⟨front, back, hbytes, hlength⟩ := exists_split text offset
  obtain ⟨start, hstart, hle, hnone⟩ := exists_start front
  have hstarts : (ofText text).starts = (0 :: startsAfter 0 front) ++ startsAfter front.length back := by
    rw [← starts_append, ← hbytes]
    rfl
  obtain ⟨hlt, -⟩ := List.getElem?_eq_some_iff.mp hstart
  refine ⟨start, ?_, hlength ▸ hle, ?_⟩
  · rw [lineOf_ofText, hstarts, hbytes, ← hlength, List.take_left, List.getElem?_append_left hlt, hstart]
  · rwa [slice, ← List.drop_take, hbytes, ← hlength, List.take_left]

/-! ## Halving the table -/

/-- The number of starts up to an offset, which lies between two bounds, found by halving what is between them. -/
def bisect (starts : List Nat) (offset low high : Nat) : Nat :=
  if low < high then
    if offset < starts.getD ((low + high) / 2) 0 then bisect starts offset low ((low + high) / 2)
    else bisect starts offset ((low + high) / 2 + 1) high
  else low
termination_by high - low

/-- In ascending order, the starts up to an offset stand in front of all others. -/
theorem lt_length_takeWhile_iff (h : starts.Pairwise (· < ·)) {k : Nat} (hk : k < starts.length) :
    k < (starts.takeWhile (· ≤ offset)).length ↔ starts.getD k 0 ≤ offset := by
  induction starts generalizing k with
  | nil => cases hk
  | cons start starts ih =>
    obtain ⟨hfirst, hrest⟩ := List.pairwise_cons.mp h
    by_cases hstart : start ≤ offset
    · cases k with
      | zero => simp [hstart]
      | succ k => simpa [hstart] using ih hrest (Nat.lt_of_succ_lt_succ hk)
    · cases k with
      | zero => simp [hstart]
      | succ k =>
        have hlt : k < starts.length := Nat.lt_of_succ_lt_succ hk
        have hbehind : start < starts.getD k 0 := by
          rw [List.getD_eq_getElem _ _ hlt]
          exact hfirst _ (List.getElem_mem hlt)
        have hfar : ¬ starts.getD k 0 ≤ offset := by omega
        simpa [hstart] using hfar

/-- **Halving finds the number of starts up to an offset**, if it lies between the bounds. -/
theorem bisect_eq (h : starts.Pairwise (· < ·)) {low high : Nat} (hlow : low ≤ (starts.takeWhile (· ≤ offset)).length)
    (hhigh : (starts.takeWhile (· ≤ offset)).length ≤ high) (hlength : high ≤ starts.length) :
    bisect starts offset low high = (starts.takeWhile (· ≤ offset)).length := by
  fun_induction bisect starts offset low high with
  | case1 low high hlt hfront ih =>
    have hmiddle : _ ↔ starts.getD ((low + high) / 2) 0 ≤ offset := lt_length_takeWhile_iff h (by omega)
    exact ih hlow (by omega) (by omega)
  | case2 low high hlt hback ih =>
    have hmiddle : _ ↔ starts.getD ((low + high) / 2) 0 ≤ offset := lt_length_takeWhile_iff h (by omega)
    exact ih (by omega) hhigh hlength
  | case3 low high hlt => omega

/-! ## Looking up -/

/-- Whether lines are those of a text, given by its bytes: all that is asked of an offset or a span is what counting line feeds
says. Offsets outside the text stand for the nearest one inside. -/
structure LooksUp (lines : Lines) (bytes : Bytes) : Prop where
  clamp : ∀ offset : Int, (lines.clamp offset : Int) = max 0 (min offset bytes.length)
  line : ∀ offset, lines.lineOf offset = (bytes.take (lines.clamp offset)).count 0x0A
  halved : ∀ offset, lines.lineOf offset = bisect lines.starts (lines.clamp offset) 0 lines.starts.length - 1
  position : ∀ offset, ∃ start column, lines.starts[lines.lineOf offset]? = some start ∧
    lines.position offset = (lines.lineOf offset, column) ∧ start + column = lines.clamp offset ∧
    0x0A ∉ slice bytes start (lines.clamp offset)
  mono : ∀ offset offset', offset ≤ offset' → lines.lineOf offset ≤ lines.lineOf offset'
  lastLine : ∀ start stop : Int, 0 ≤ start → start < stop → stop ≤ bytes.length →
    lines.endLineOf start stop = (bytes.take (stop - 1).toNat).count 0x0A
  emptySpan : ∀ start : Int, lines.endLineOf start start = lines.lineOf start

/-- **Looking up lines is exact.** (`LineIndex`; specification, section 10.5.) -/
theorem looksUp_ofText (text : String) : LooksUp (ofText text) (encode text) := by
  have hclamp (offset : Int) : ((ofText text).clamp offset : Int) = max 0 (min offset (encode text).length) := by
    simp only [Lines.clamp, ofText]
    omega
  constructor
  case clamp => exact hclamp
  case line => exact lineOf_ofText text
  case halved =>
    intro offset
    rw [bisect_eq (pairwise_starts text) (Nat.zero_le _) (List.takeWhile_prefix _).length_le (Nat.le_refl _), lineOf]
  case position =>
    intro offset
    obtain ⟨start, hstart, hle, hnone⟩ := exists_start_lineOf text offset
    refine ⟨start, (ofText text).clamp offset - start, hstart, ?_, by omega, hnone⟩
    rw [Lines.position, List.getD_eq_getElem?_getD, hstart, Option.getD_some]
  case mono => exact fun offset offset' => (ofText text).lineOf_mono
  case lastLine =>
    intro start stop hstart hlt hstop
    have hlast : (ofText text).clamp (stop - 1) = (stop - 1).toNat := by
      have := hclamp (stop - 1)
      omega
    rw [endLineOf, Int.max_eq_right (by omega), lineOf_ofText, hlast]
  case emptySpan =>
    intro start
    rw [endLineOf, Int.max_eq_left (by omega)]

/-- An offset on a line feed belongs to the line that ends there, one behind it to the next line. -/
example : (ofText "ä\n\nb").lineOf 2 = 0 ∧ (ofText "ä\n\nb").lineOf 3 = 1 ∧ (ofText "ä\n\nb").position 9 = (2, 1) := by decide

end DocOutline.Lines
