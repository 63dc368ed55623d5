import DocOutline.Proofs.Text.RoundTrip

/-!
# Spans of a text

A span is given by two offsets between which whole characters stand. In a text of ASCII characters any two offsets
give one.
-/

namespace DocOutline.Text

/-! ## Spans

Offsets are places in a text only when they lie between two characters. `Spans` says that the bytes from one
offset up to another are the bytes of a text, so both are such places; adjacent spans join, a span splits where
its text does, and the text of a span is what its bytes decode to (`Spans.decode_slice`).
-/

/-- Whether an offset lies between two characters of a text, or at one of its ends. -/
def IsBoundary (source : String) (offset : Nat) : Prop := (⟨offset⟩ : String.Pos.Raw).IsValid source

instance (source : String) (offset : Nat) : Decidable (IsBoundary source offset) :=
  inferInstanceAs (Decidable ((⟨offset⟩ : String.Pos.Raw).IsValid source))

/-- From byte `start` up to byte `stop`, the source reads `text`. -/
def Spans (source : String) (start stop : Nat) (text : String) : Prop :=
  ∃ before after, source = before ++ (text ++ after) ∧ before.utf8ByteSize = start ∧
    start + text.utf8ByteSize = stop

namespace Spans

variable {source text text' : String} {start middle stop : Nat}

theorem whole (source : String) : Spans source 0 source.utf8ByteSize source :=
  ⟨"", "", by simp, by simp, by simp⟩

theorem stop_eq (h : Spans source start stop text) : start + text.utf8ByteSize = stop := by
  obtain ⟨_, _, _, _, h⟩ := h
  exact h

theorem stop_le (h : Spans source start stop text) : stop ≤ source.utf8ByteSize := by
  obtain ⟨before, after, rfl, rfl, rfl⟩ := h
  simp only [String.utf8ByteSize_append]
  omega

theorem slice_eq (h : Spans source start stop text) : slice (encode source) start stop = encode text := by
  obtain ⟨before, after, rfl, rfl, rfl⟩ := h
  rw [slice, Nat.add_sub_cancel_left, encode_append, encode_append, ← length_encode before, List.drop_left,
    ← length_encode text, List.take_left]

theorem decode_slice (h : Spans source start stop text) : decode (slice (encode source) start stop) = text := by
  rw [h.slice_eq, decode_encode]

theorem text_unique (h : Spans source start stop text) (h' : Spans source start stop text') : text = text' := by
  rw [← h.decode_slice, h'.decode_slice]

theorem eq_source (h : Spans source 0 source.utf8ByteSize text) : text = source := h.text_unique (whole source)

/-! ### Splitting and joining -/

theorem left (h : Spans source start stop (text ++ text')) :
    Spans source start (start + text.utf8ByteSize) text := by
  obtain ⟨before, after, rfl, rfl, -⟩ := h
  exact ⟨before, text' ++ after, by simp only [String.append_assoc], rfl, rfl⟩

theorem right (h : Spans source start stop (text ++ text')) :
    Spans source (start + text.utf8ByteSize) stop text' := by
  obtain ⟨before, after, rfl, rfl, rfl⟩ := h
  refine ⟨before ++ text, after, by simp only [String.append_assoc], String.utf8ByteSize_append .., ?_⟩
  rw [String.utf8ByteSize_append, Nat.add_assoc]

theorem append (h : Spans source start middle text) (h' : Spans source middle stop text') :
    Spans source start stop (text ++ text') := by
  obtain ⟨before, after, rfl, rfl, rfl⟩ := h
  obtain ⟨before', after', heq, hsize, rfl⟩ := h'
  rw [← String.append_assoc] at heq
  obtain ⟨-, rfl⟩ := append_inj_of_size heq (by rw [hsize, String.utf8ByteSize_append])
  exact ⟨before, after', by simp only [String.append_assoc], rfl, by rw [String.utf8ByteSize_append, Nat.add_assoc]⟩

/-! ### Boundaries -/

theorem empty (h : IsBoundary source start) : Spans source start start "" := by
  obtain ⟨before, after, rfl, hstart⟩ := String.Pos.Raw.isValid_iff_exists_append.1 h
  exact ⟨before, after, by simp, (congrArg String.Pos.Raw.byteIdx hstart).symm, by simp⟩

theorem isBoundary_start (h : Spans source start stop text) : IsBoundary source start := by
  obtain ⟨before, after, rfl, rfl, -⟩ := h
  exact String.Pos.Raw.isValid_iff_exists_append.2 ⟨before, text ++ after, rfl, rfl⟩

theorem isBoundary_stop (h : Spans source start stop text) : IsBoundary source stop := by
  have happend : Spans source start stop (text ++ "") := by simpa using h
  rw [← h.stop_eq]
  exact happend.right.isBoundary_start

/-- What is read between two boundaries is a text. -/
theorem of_isBoundary (hstart : IsBoundary source start) (hstop : IsBoundary source stop) (hle : start ≤ stop) :
    Spans source start stop (decode (slice (encode source) start stop)) := by
  suffices h : ∃ text, Spans source start stop text by
    obtain ⟨text, h⟩ := h
    rwa [h.decode_slice]
  rcases Nat.eq_or_lt_of_le hle with rfl | hlt
  · exact ⟨"", empty hstart⟩
  obtain ⟨k, hk⟩ := String.Pos.Raw.isValid_iff_exists_take_toList.1 hstart
  obtain ⟨l, hl⟩ := String.Pos.Raw.isValid_iff_exists_take_toList.1 hstop
  simp only at hk hl
  have hkl : k ≤ l := by
    apply Nat.le_of_not_lt
    intro hlk
    have htake : source.toList.take k = source.toList.take l ++ (source.toList.drop l).take (k - l) := by
      rw [← List.take_add, Nat.add_sub_cancel' (Nat.le_of_lt hlk)]
    rw [htake, String.ofList_append, String.utf8ByteSize_append] at hk
    omega
  have htake : source.toList.take l = source.toList.take k ++ (source.toList.drop k).take (l - k) := by
    rw [← List.take_add, Nat.add_sub_cancel' hkl]
  refine ⟨String.ofList ((source.toList.drop k).take (l - k)), String.ofList (source.toList.take k),
    String.ofList (source.toList.drop l), ?_, hk.symm, ?_⟩
  · rw [← String.append_assoc, ← String.ofList_append, ← String.ofList_append, ← htake, List.take_append_drop,
      String.ofList_toList]
  · rw [htake, String.ofList_append, String.utf8ByteSize_append] at hl
    omega

end Spans

theorem isBoundary_zero (source : String) : IsBoundary source 0 := (Spans.whole source).isBoundary_start

theorem isBoundary_size (source : String) : IsBoundary source source.utf8ByteSize :=
  (Spans.whole source).isBoundary_stop

/-! ## ASCII texts

In a text of ASCII characters every character is one byte. So every offset is a boundary, and any stretch of bytes decodes
to a text with these bytes (`IsAscii.encode_decode_slice`).
-/

def IsAscii (s : String) : Prop := ∀ c ∈ s.toList, c.toNat < 0x80

instance (s : String) : Decidable (IsAscii s) :=
  List.decidableBAll (fun c : Char => c.toNat < 0x80) s.toList

theorem utf8ByteSize_ofList_of_ascii {cs : List Char} (h : ∀ c ∈ cs, c.toNat < 0x80) :
    (String.ofList cs).utf8ByteSize = cs.length := by
  induction cs with
  | nil => rfl
  | cons c cs ih =>
    obtain ⟨hc, hcs⟩ := List.forall_mem_cons.1 h
    have hsize : (String.singleton c).utf8ByteSize = 1 := by
      rw [String.utf8ByteSize_singleton, Char.utf8Size_eq_one_iff, UInt32.le_iff_toNat_le]
      exact Nat.le_of_lt_succ hc
    rw [← List.singleton_append, String.ofList_append, String.utf8ByteSize_append, ih hcs, List.length_append]
    exact congrArg (· + cs.length) hsize

/-! ### Slices -/

theorem slice_eq_nil {bytes : Bytes} {start stop : Nat} (h : stop ≤ start) : slice bytes start stop = [] := by
  rw [slice, Nat.sub_eq_zero_of_le h, List.take_zero]

theorem length_slice (bytes : Bytes) (start stop : Nat) :
    (slice bytes start stop).length = min stop bytes.length - start := by
  rw [slice, List.length_take, List.length_drop]
  omega

/-- Beyond the end there is nothing. -/
theorem slice_min (bytes : Bytes) (start stop : Nat) :
    slice bytes start stop = slice bytes start (min stop bytes.length) := by
  rw [slice, slice, List.take_eq_take_min, List.take_eq_take_min (i := min stop bytes.length - start), List.length_drop]
  congr 1
  omega

/-- Two stretches, one behind the other, make one. -/
theorem slice_append_slice {bytes : Bytes} {start middle stop : Nat} (hstart : start ≤ middle) (hstop : middle ≤ stop) :
    slice bytes start middle ++ slice bytes middle stop = slice bytes start stop := by
  have hlength : stop - start = (middle - start) + (stop - middle) := by omega
  rw [slice, slice, slice, hlength, List.take_add, List.drop_drop, Nat.add_sub_cancel' hstart]

/-! ### Boundaries -/

variable {source : String}

theorem IsAscii.isBoundary (h : IsAscii source) {offset : Nat} (hle : offset ≤ source.utf8ByteSize) :
    IsBoundary source offset := by
  have hsource : source.toList.length = source.utf8ByteSize := by
    rw [← utf8ByteSize_ofList_of_ascii h, String.ofList_toList]
  refine String.Pos.Raw.isValid_iff_exists_take_toList.2 ⟨offset, ?_⟩
  rw [utf8ByteSize_ofList_of_ascii fun c hc => h c (List.mem_of_mem_take hc), List.length_take, hsource]
  exact (Nat.min_eq_left hle).symm

/-- Any stretch of bytes decodes to a text with these bytes. -/
theorem IsAscii.encode_decode_slice (h : IsAscii source) (start stop : Nat) :
    encode (decode (slice (encode source) start stop)) = slice (encode source) start stop := by
  rw [slice_min, length_encode]
  rcases Nat.le_total (min stop source.utf8ByteSize) start with hle | hle
  · rw [slice_eq_nil hle]
    rfl
  · have hspans := Spans.of_isBoundary (h.isBoundary (Nat.le_trans hle (Nat.min_le_right ..)))
      (h.isBoundary (Nat.min_le_right ..)) hle
    exact hspans.slice_eq.symm

end DocOutline.Text
