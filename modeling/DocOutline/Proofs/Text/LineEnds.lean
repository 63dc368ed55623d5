import DocOutline.Proofs.Text.Span

/-!
# Line ends and offsets

A file is read with its line ends unified: each `\r\n` gets shorter by a byte, and a lone `\r` becomes `\n`. So an offset in
the text that was read is one in the file only up to the first `\r\n` (`take_unifyBytes`). What is read at a span
stands at the same place in the file if no `\r\n` is in front of its end and it holds no `\r` (`slice_encode_of_addresses`).
-/

namespace DocOutline.Text

def carriageReturn : UInt8 := 13

def lineFeed : UInt8 := 10

def unifyBytes : (seenReturn : Bool) → Bytes → Bytes
  | _, [] => []
  | seenReturn, b :: rest =>
    if b = carriageReturn then lineFeed :: unifyBytes true rest
    else if b = lineFeed ∧ seenReturn then unifyBytes false rest
    else b :: unifyBytes false rest

/-! ## Line ends in UTF-8 -/

/-- A byte below 128 is a character by itself. -/
theorem toNat_of_mem_utf8EncodeChar {c : Char} {b : UInt8} (h : b ∈ String.utf8EncodeChar c) (hb : b.toNat < 128) :
    c.toNat = b.toNat := by
  have hval : c.val.toNat = c.toNat := rfl
  unfold String.utf8EncodeChar at h
  simp only [hval] at h
  split at h
  · rw [List.mem_singleton.1 h, toNat_ofNat_byte (by omega)]
  -- All bytes of longer sequences have their highest bit set.
  · exfalso
    split at h
    · simp only [List.mem_cons, List.not_mem_nil, or_false] at h
      rcases h with rfl | rfl <;> rw [toNat_ofNat_byte (by omega)] at hb <;> omega
    split at h
    · simp only [List.mem_cons, List.not_mem_nil, or_false] at h
      rcases h with rfl | rfl | rfl <;> rw [toNat_ofNat_byte (by omega)] at hb <;> omega
    · simp only [List.mem_cons, List.not_mem_nil, or_false] at h
      rcases h with rfl | rfl | rfl | rfl <;> rw [toNat_ofNat_byte (by omega)] at hb <;> omega

theorem utf8EncodeChar_ne_nil (c : Char) : String.utf8EncodeChar c ≠ [] := by
  obtain ⟨b, more, heq, -⟩ := firstSequence_utf8EncodeChar c
  rw [heq]
  exact List.cons_ne_nil b more

theorem unifyBytes_append {bytes : Bytes} (hreturn : carriageReturn ∉ bytes) (hfeed : lineFeed ∉ bytes) (hne : bytes ≠ [])
    (seenReturn : Bool) (rest : Bytes) : unifyBytes seenReturn (bytes ++ rest) = bytes ++ unifyBytes false rest := by
  induction bytes generalizing seenReturn with
  | nil => exact absurd rfl hne
  | cons b bytes ih =>
    rw [List.mem_cons, not_or] at hreturn hfeed
    rw [List.cons_append, unifyBytes, if_neg (Ne.symm hreturn.1), if_neg fun h => hfeed.1 h.1.symm]
    cases bytes with
    | nil => rfl
    | cons next bytes => rw [ih hreturn.2 hfeed.2 (List.cons_ne_nil _ _)]; rfl

theorem unifyLineEndsOnto_eq (seenReturn : Bool) (read cs : List Char) :
    unifyLineEndsOnto seenReturn read cs = read.reverse ++ unifyLineEndsOnto seenReturn [] cs := by
  induction cs generalizing seenReturn read with
  | nil => simp [unifyLineEndsOnto]
  | cons c cs ih =>
    rw [unifyLineEndsOnto, unifyLineEndsOnto]
    split
    · rw [ih, ih _ ['\n']]
      simp
    split
    · exact ih _ _
    · rw [ih, ih _ [c]]
      simp

/-- Line ends can be unified byte by byte. -/
theorem unifyBytes_flatMap (seenReturn : Bool) (cs : List Char) :
    (unifyLineEndsOnto seenReturn [] cs).flatMap String.utf8EncodeChar =
      unifyBytes seenReturn (cs.flatMap String.utf8EncodeChar) := by
  induction cs generalizing seenReturn with
  | nil => rfl
  | cons c cs ih =>
    rw [unifyLineEndsOnto, List.flatMap_cons]
    by_cases hreturn : c = '\r'
    · subst hreturn
      rw [if_pos rfl, unifyLineEndsOnto_eq, List.flatMap_append, ih]
      rfl
    rw [if_neg hreturn]
    by_cases hfeed : c = '\n'
    · subst hfeed
      cases seenReturn with
      | true =>
        rw [if_pos ⟨rfl, rfl⟩, ih]
        rfl
      | false =>
        rw [if_neg (by simp), unifyLineEndsOnto_eq, List.flatMap_append, ih]
        rfl
    · have hbytes (b : UInt8) (hb : b.toNat < 128) (hne : c ≠ Char.ofNat b.toNat) : b ∉ String.utf8EncodeChar c :=
        fun h => hne (by rw [← toNat_of_mem_utf8EncodeChar h hb, Char.ofNat_toNat])
      rw [if_neg fun h => hfeed h.1, unifyLineEndsOnto_eq, List.flatMap_append, ih,
        unifyBytes_append (hbytes carriageReturn (by decide) hreturn) (hbytes lineFeed (by decide) hfeed)
          (utf8EncodeChar_ne_nil c)]
      simp

theorem encode_unifyLineEnds (text : String) : encode (unifyLineEnds text) = unifyBytes false (encode text) := by
  rw [unifyLineEnds, encode_ofList, unifyBytes_flatMap, ← encode_ofList, String.ofList_toList]

/-! ## Offsets -/

/-- The byte that a byte becomes in front of the first `\r\n`. -/
def unifyByte (b : UInt8) : UInt8 := if b = carriageReturn then lineFeed else b

/-- As long as no `\r\n` has begun, bytes stay in their places. -/
theorem take_unifyBytes {bytes : Bytes} {stop : Nat}
    (h : ∀ i < stop, bytes[i]? = some carriageReturn → bytes[i + 1]? ≠ some lineFeed) {seenReturn : Bool}
    (hseen : seenReturn → bytes[0]? ≠ some lineFeed) :
    (unifyBytes seenReturn bytes).take stop = (bytes.take stop).map unifyByte := by
  induction bytes generalizing stop seenReturn with
  | nil => rw [unifyBytes, List.take_nil, List.map_nil]
  | cons b rest ih =>
    cases stop with
    | zero => rfl
    | succ stop =>
      have hrest : ∀ i < stop, rest[i]? = some carriageReturn → rest[i + 1]? ≠ some lineFeed := fun i hi =>
        h (i + 1) (Nat.succ_lt_succ hi)
      rw [unifyBytes, List.take_succ_cons, List.map_cons]
      by_cases hreturn : b = carriageReturn
      · have hnext : rest[0]? ≠ some lineFeed := h 0 (Nat.succ_pos _) (by rw [hreturn]; rfl)
        rw [if_pos hreturn, List.take_succ_cons, ih hrest fun _ => hnext, unifyByte, if_pos hreturn]
      · have hfeed : ¬ (b = lineFeed ∧ seenReturn = true) := by
          rintro ⟨rfl, hreturned⟩
          exact hseen hreturned rfl
        have htake : (unifyBytes false rest).take stop = (rest.take stop).map unifyByte := ih hrest nofun
        rw [if_neg hreturn, if_neg hfeed, List.take_succ_cons, htake, unifyByte, if_neg hreturn]

/-- Whether a range addresses the same bytes in a file as in the text that it is read as: no `\r\n` begins in front of its
end, and there is no `\r` in it. -/
def Addresses (bytes : Bytes) (start stop : Nat) : Prop :=
  ∀ i < stop, bytes[i]? = some carriageReturn → i < start ∧ bytes[i + 1]? ≠ some lineFeed

instance (bytes : Bytes) (start stop : Nat) : Decidable (Addresses bytes start stop) :=
  inferInstanceAs (Decidable (∀ i < stop, _))

theorem map_unifyByte {bytes : Bytes} (h : carriageReturn ∉ bytes) : bytes.map unifyByte = bytes := by
  refine (List.map_congr_left fun b hb => ?_).trans (List.map_id _)
  refine if_neg ?_
  rintro rfl
  exact h hb

theorem slice_eq_drop_take (bytes : Bytes) (start stop : Nat) : slice bytes start stop = (bytes.take stop).drop start := by
  rw [slice, List.drop_take]

/-- **What is read at a range stands there in the file**, if the range addresses the same bytes. -/
theorem slice_encode_of_addresses {text : String} {start stop : Nat} (h : Addresses (encode text) start stop) :
    slice (encode text) start stop = slice (encode (unifyLineEnds text)) start stop := by
  have htake : (unifyBytes false (encode text)).take stop = ((encode text).take stop).map unifyByte :=
    take_unifyBytes (fun i hi hreturn => (h i hi hreturn).2) nofun
  have hnone : carriageReturn ∉ ((encode text).take stop).drop start := by
    intro hmem
    obtain ⟨i, hi⟩ := List.getElem?_of_mem hmem
    rw [List.getElem?_drop, List.getElem?_take] at hi
    split at hi
    · next hlt =>
      have := (h _ hlt hi).1
      omega
    · cases hi
  rw [slice_eq_drop_take, slice_eq_drop_take, encode_unifyLineEnds, htake, ← List.map_drop, map_unifyByte hnone]

end DocOutline.Text
