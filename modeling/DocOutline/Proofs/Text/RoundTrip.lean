import DocOutline.Text.Bytes

/-!
# Decoding what was encoded

The bytes of a character are read back by one step of the decoder, whatever follows them: a first byte and up
to three continuation bytes, each of which adds six bits. From this the bytes of a text decode to the text, by
either decoder (`decode_encode`, `decode?_encode`), so that a text is determined by its bytes. A text that was read from a
file, with its line ends unified, is read again as it was when it is stored (`readAs_encode_readAs`).
-/

namespace DocOutline.Text

/-! ## One character -/

/-- A continuation byte that holds the six bits `x` is taken, if the range for it allows. -/
theorem continued_cons {need value more x : Nat} {low high : UInt8} {rest : Bytes} (hx : x < 64)
    (hlow : low.toNat ≤ x + 128) (hhigh : x + 128 ≤ high.toNat) :
    continued (need + 1) low high value more (UInt8.ofNat (x + 128) :: rest) =
      continued need 0x80 0xBF (value * 64 + x) (more + 1) rest := by
  have hb : (UInt8.ofNat (x + 128)).toNat = x + 128 := by simp; omega
  have hin : low ≤ UInt8.ofNat (x + 128) ∧ UInt8.ofNat (x + 128) ≤ high := by
    simp only [UInt8.le_iff_toNat_le, hb]
    exact ⟨hlow, hhigh⟩
  rw [continued, if_pos hin, hb, Nat.add_sub_cancel]

/-- The first byte decides by its number how many continuation bytes are read, and in which range the first of
them has to lie. -/
theorem firstSequence_eq (b : UInt8) (rest : Bytes) :
    firstSequence b rest =
      if b.toNat < 0x80 then .char (Char.ofNat b.toNat) 0
      else if b.toNat < 0xC2 then .flaw .startByte 0
      else if b.toNat < 0xE0 then continued 1 0x80 0xBF (b.toNat - 0xC0) 0 rest
      else if b.toNat < 0xF0 then
        continued 2 (if b.toNat = 0xE0 then 0xA0 else 0x80) (if b.toNat = 0xED then 0x9F else 0xBF)
          (b.toNat - 0xE0) 0 rest
      else if b.toNat < 0xF5 then
        continued 3 (if b.toNat = 0xF0 then 0x90 else 0x80) (if b.toNat = 0xF4 then 0x8F else 0xBF)
          (b.toNat - 0xF0) 0 rest
      else .flaw .startByte 0 := by
  simp only [firstSequence, UInt8.lt_iff_toNat_lt, ← UInt8.toNat_inj]
  rfl

theorem toNat_ofNat_byte {m : Nat} (h : m < 256) : (UInt8.ofNat m).toNat = m := by
  simp; omega

section
variable {n : Nat} (rest : Bytes)

theorem firstSequence_one (h : n ≤ 0x7F) :
    firstSequence (UInt8.ofNat n) rest = .char (Char.ofNat n) 0 := by
  rw [firstSequence_eq, toNat_ofNat_byte (by omega), if_pos (by omega)]

theorem firstSequence_two (h : 0x7F < n) (h' : n ≤ 0x7FF) :
    firstSequence (UInt8.ofNat (n / 64 % 32 + 192)) (UInt8.ofNat (n % 64 + 128) :: rest) =
      .char (Char.ofNat n) 1 := by
  rw [firstSequence_eq, toNat_ofNat_byte (by omega), if_neg (by omega), if_neg (by omega), if_pos (by omega),
    continued_cons (by omega) (by simp) (by simp; omega), continued]
  rw [show (n / 64 % 32 + 192 - 192) * 64 + n % 64 = n by omega]

/-- Three bytes: the range of the second keeps out overlong forms and surrogates. -/
theorem firstSequence_three (h : 0x7FF < n) (h' : n ≤ 0xFFFF) (hn : n < 0xD800 ∨ 0xDFFF < n) :
    firstSequence (UInt8.ofNat (n / 4096 % 16 + 224))
      (UInt8.ofNat (n / 64 % 64 + 128) :: UInt8.ofNat (n % 64 + 128) :: rest) = .char (Char.ofNat n) 2 := by
  rw [firstSequence_eq, toNat_ofNat_byte (by omega), if_neg (by omega), if_neg (by omega), if_neg (by omega),
    if_pos (by omega), continued_cons (by omega) (by split <;> simp; omega) (by split <;> simp <;> omega),
    continued_cons (by omega) (by simp) (by simp; omega), continued]
  rw [show ((n / 4096 % 16 + 224 - 224) * 64 + n / 64 % 64) * 64 + n % 64 = n by omega]

/-- Four bytes: the range of the second keeps out overlong forms and values above U+10FFFF. -/
theorem firstSequence_four (h : 0xFFFF < n) (h' : n < 0x110000) :
    firstSequence (UInt8.ofNat (n / 262144 % 8 + 240))
      (UInt8.ofNat (n / 4096 % 64 + 128) :: UInt8.ofNat (n / 64 % 64 + 128) :: UInt8.ofNat (n % 64 + 128) :: rest) =
      .char (Char.ofNat n) 3 := by
  rw [firstSequence_eq, toNat_ofNat_byte (by omega), if_neg (by omega), if_neg (by omega), if_neg (by omega),
    if_neg (by omega), if_pos (by omega),
    continued_cons (by omega) (by split <;> simp; omega) (by split <;> simp <;> omega),
    continued_cons (by omega) (by simp) (by simp; omega), continued_cons (by omega) (by simp) (by simp; omega),
    continued]
  rw [show (((n / 262144 % 8 + 240 - 240) * 64 + n / 4096 % 64) * 64 + n / 64 % 64) * 64 + n % 64 = n by omega]

end

/-- The bytes of a character are read back in one step, whatever follows them. -/
theorem firstSequence_utf8EncodeChar (c : Char) :
    ∃ b more, String.utf8EncodeChar c = b :: more ∧
      ∀ rest, firstSequence b (more ++ rest) = .char c more.length := by
  have hvalid : c.toNat < 0xD800 ∨ 0xDFFF < c.toNat ∧ c.toNat < 0x110000 := c.valid
  have hval : c.val.toNat = c.toNat := rfl
  unfold String.utf8EncodeChar
  simp only [hval]
  split
  · refine ⟨_, [], rfl, fun rest => ?_⟩
    rw [List.nil_append, firstSequence_one rest (by omega), Char.ofNat_toNat]; rfl
  split
  · refine ⟨_, [_], rfl, fun rest => ?_⟩
    rw [List.cons_append, List.nil_append, firstSequence_two rest (by omega) (by omega), Char.ofNat_toNat]; rfl
  split
  · refine ⟨_, [_, _], rfl, fun rest => ?_⟩
    rw [List.cons_append, List.cons_append, List.nil_append,
      firstSequence_three rest (by omega) (by omega) (by omega), Char.ofNat_toNat]; rfl
  · refine ⟨_, [_, _, _], rfl, fun rest => ?_⟩
    rw [List.cons_append, List.cons_append, List.cons_append, List.nil_append,
      firstSequence_four rest (by omega) (by omega), Char.ofNat_toNat]; rfl

/-! ## Texts -/

theorem decodeOnto_append (skipped rest : Bytes) (read : List Char) :
    decodeOnto skipped.length read (skipped ++ rest) = decodeOnto 0 read rest := by
  induction skipped with
  | nil => rfl
  | cons b skipped ih => exact ih

theorem decodeOnto_encode (cs read : List Char) (rest : Bytes) :
    decodeOnto 0 read (cs.flatMap String.utf8EncodeChar ++ rest) = decodeOnto 0 (cs.reverse ++ read) rest := by
  induction cs generalizing read with
  | nil => rfl
  | cons c cs ih =>
    obtain ⟨b, more, hc, hfirst⟩ := firstSequence_utf8EncodeChar c
    rw [List.flatMap_cons, hc, List.cons_append, List.cons_append, List.append_assoc, decodeOnto, hfirst]
    simp only [decodeOnto_append, ih, List.reverse_cons, List.append_assoc, List.singleton_append]

theorem decode_encode (s : String) : decode (encode s) = s := by
  have h := decodeOnto_encode s.toList [] []
  rw [List.append_nil, ← encode_ofList, String.ofList_toList] at h
  simp [decode, h, decodeOnto]

theorem firstError?_append (skipped rest : Bytes) (position : Nat) :
    firstError? skipped.length position (skipped ++ rest) = firstError? 0 (position + skipped.length) rest := by
  induction skipped generalizing position with
  | nil => rfl
  | cons b skipped ih =>
    rw [List.length_cons, List.cons_append, firstError?, ih, Nat.add_assoc, Nat.add_comm 1]

theorem firstError?_encode (cs : List Char) (position : Nat) :
    firstError? 0 position (cs.flatMap String.utf8EncodeChar) = none := by
  induction cs generalizing position with
  | nil => rfl
  | cons c cs ih =>
    obtain ⟨b, more, hc, hfirst⟩ := firstSequence_utf8EncodeChar c
    rw [List.flatMap_cons, hc, List.cons_append, firstError?, hfirst]
    simp only [firstError?_append, ih]

theorem decode?_encode (s : String) : decode? (encode s) = .ok s := by
  have h := firstError?_encode s.toList 0
  rw [← encode_ofList, String.ofList_toList] at h
  simp [decode?, h, decode_encode]

theorem encode_injective {s t : String} (h : encode s = encode t) : s = t := by
  rw [← decode_encode s, h, decode_encode]

/-- A text can be cut in one way only at a given number of bytes. -/
theorem append_inj_of_size {a b c d : String} (h : a ++ b = c ++ d) (hsize : a.utf8ByteSize = c.utf8ByteSize) :
    a = c ∧ b = d := by
  have hbytes : encode a ++ encode b = encode c ++ encode d := by rw [← encode_append, h, encode_append]
  obtain ⟨hac, hbd⟩ := List.append_inj hbytes (by rw [length_encode, length_encode, hsize])
  exact ⟨encode_injective hac, encode_injective hbd⟩

/-! ## Line ends -/

theorem unifyLineEnds_eq_self {s : String} (h : '\r' ∉ s.toList) : unifyLineEnds s = s := by
  have hunify (cs read : List Char) (hcs : '\r' ∉ cs) : unifyLineEndsOnto false read cs = read.reverse ++ cs := by
    induction cs generalizing read with
    | nil => simp [unifyLineEndsOnto]
    | cons c cs ih =>
      rw [List.mem_cons, not_or] at hcs
      rw [unifyLineEndsOnto, if_neg (Ne.symm hcs.1), if_neg (by simp), ih (c :: read) hcs.2]
      simp
  rw [unifyLineEnds, hunify _ _ h, List.reverse_nil, List.nil_append, String.ofList_toList]

/-- No carriage return is left. -/
theorem return_not_mem_unifyLineEnds (s : String) : '\r' ∉ (unifyLineEnds s).toList := by
  have honto (seenReturn : Bool) (read cs : List Char) (hread : '\r' ∉ read) :
      '\r' ∉ unifyLineEndsOnto seenReturn read cs := by
    induction cs generalizing seenReturn read with
    | nil => rwa [unifyLineEndsOnto, List.mem_reverse]
    | cons c cs ih =>
      rw [unifyLineEndsOnto]
      split
      · exact ih _ _ (by simp [hread])
      · next hc =>
        split
        · exact ih _ _ hread
        · exact ih _ _ (by simp [hread, Ne.symm hc])
  rw [unifyLineEnds, String.toList_ofList]
  exact honto false [] s.toList List.not_mem_nil

def readAs (bytes : Bytes) : String := unifyLineEnds (decode bytes)

/-- **A text that was read and stored is read again as it was.** -/
theorem readAs_encode_readAs (bytes : Bytes) : readAs (encode (readAs bytes)) = readAs bytes := by
  rw [readAs, decode_encode]
  exact unifyLineEnds_eq_self (return_not_mem_unifyLineEnds _)

end DocOutline.Text
