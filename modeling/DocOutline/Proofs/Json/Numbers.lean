import DocOutline.Json.Printer
import DocOutline.Json.Reader
import DocOutline.Proofs.Number.Shortest

/-!
# Numbers in JSON text

A number that was written is read back, whatever follows it that is no part of a number: an integer by its digits, a
floating-point number in each of the four layouts of its shortest decimal.
-/

namespace DocOutline.Json

/-- Whether a text can stand behind a number without being taken for a part of it. -/
def EndsNumber (rest : List Char) : Prop :=
  ∀ c ∈ rest.head?, c.isDigit = false ∧ c ≠ '.' ∧ c ≠ 'e' ∧ c ≠ 'E'

def AllDigits (digits : List Char) : Prop := ∀ c ∈ digits, c.isDigit = true

variable {digits more rest : List Char}

theorem allDigits_toDigits (n : Nat) : AllDigits (Nat.toDigits 10 n) := fun _ hc =>
  Nat.isDigit_of_mem_toDigits (by decide) (by decide) hc

theorem allDigits_replicate (n : Nat) : AllDigits (List.replicate n '0') := fun c hc => by
  rw [List.eq_of_mem_replicate hc]; rfl

theorem allDigits_zero : AllDigits ['0'] := allDigits_replicate 1

theorem AllDigits.append (h : AllDigits digits) (hmore : AllDigits more) : AllDigits (digits ++ more) := fun c hc =>
  (List.mem_append.mp hc).elim (h c) (hmore c)

theorem AllDigits.take (h : AllDigits digits) (n : Nat) : AllDigits (digits.take n) := fun c hc =>
  h c (List.mem_of_mem_take hc)

theorem AllDigits.drop (h : AllDigits digits) (n : Nat) : AllDigits (digits.drop n) := fun c hc =>
  h c (List.mem_of_mem_drop hc)

theorem takeWhile_isDigit (h : AllDigits digits) (hrest : ∀ c ∈ rest.head?, c.isDigit = false) :
    (digits ++ rest).takeWhile Char.isDigit = digits := by
  rw [List.takeWhile_append_of_pos h]
  cases rest with
  | nil => simp
  | cons c rest => simp [hrest c rfl]

theorem dropWhile_isDigit (h : AllDigits digits) (hrest : ∀ c ∈ rest.head?, c.isDigit = false) :
    (digits ++ rest).dropWhile Char.isDigit = rest := by
  rw [List.dropWhile_append_of_pos h]
  cases rest with
  | nil => rfl
  | cons c rest => simp [hrest c rfl]

/-! ## Values of digits -/

theorem decimalValue_eq (digits : List Char) : decimalValue digits = Nat.ofDigitChars 10 digits 0 := by
  simp only [decimalValue, Nat.ofDigitChars, Nat.mul_comm]

theorem decimalValue_toDigits (n : Nat) : decimalValue (Nat.toDigits 10 n) = n := by
  rw [decimalValue_eq, Nat.ofDigitChars_ten_toDigits]

theorem decimalValue_zeros_append (n : Nat) (digits : List Char) :
    decimalValue (List.replicate n '0' ++ digits) = decimalValue digits := by
  rw [decimalValue_eq, decimalValue_eq, Nat.ofDigitChars_append, Nat.ofDigitChars_replicate_zero, Nat.mul_zero]

theorem decimalValue_append_zeros (digits : List Char) (n : Nat) :
    decimalValue (digits ++ List.replicate n '0') = decimalValue digits * 10 ^ n := by
  rw [decimalValue_eq, decimalValue_eq, Nat.ofDigitChars_append, Nat.ofDigitChars_replicate_zero, Nat.mul_comm]

/-- Without leading zeros: only the digits of zero begin with one. -/
theorem toDigits_eq_cons {n : Nat} (h : n ≠ 0) :
    ∃ c digits, Nat.toDigits 10 n = c :: digits ∧ c.isDigit = true ∧ c ≠ '0' := by
  induction n using Nat.strongRecOn with
  | _ n ih =>
    rw [Nat.toDigits_eq_if (by decide)]
    split
    · next hlt =>
      exact ⟨n.digitChar, [], rfl, by simpa [Nat.isDigit_digitChar] using hlt, by simpa using h⟩
    · obtain ⟨c, digits, hdigits, hc⟩ := ih (n / 10) (by omega) (by omega)
      exact ⟨c, digits ++ [(n % 10).digitChar], by rw [hdigits]; rfl, hc⟩

/-! ## Parts of numbers -/

theorem fraction?_digits (h : AllDigits digits) (hne : digits ≠ []) (hrest : ∀ c ∈ rest.head?, c.isDigit = false) :
    fraction? ('.' :: (digits ++ rest)) = some (digits, rest) := by
  simp only [fraction?, takeWhile_isDigit h hrest, dropWhile_isDigit h hrest]

theorem fraction?_eq_none (h : ∀ c ∈ rest.head?, c ≠ '.') : fraction? rest = none := by
  unfold fraction?
  split
  · exact absurd rfl (h '.' rfl)
  · rfl

theorem exponent?_digits (isNegative : Prop) [Decidable isNegative] (h : AllDigits digits) (hne : digits ≠ [])
    (hrest : ∀ c ∈ rest.head?, c.isDigit = false) :
    exponent? ('e' :: (if isNegative then '-' else '+') :: (digits ++ rest)) =
      some (if isNegative then -(decimalValue digits : Int) else decimalValue digits, rest) := by
  split <;> simp [exponent?, takeWhile_isDigit h hrest, dropWhile_isDigit h hrest]

theorem exponent?_eq_none (h : ∀ c ∈ rest.head?, c ≠ 'e' ∧ c ≠ 'E') : exponent? rest = none := by
  cases rest with
  | nil => rfl
  | cons c rest => simp [exponent?, h c rfl]

theorem EndsNumber.fraction? (h : EndsNumber rest) : fraction? rest = none :=
  fraction?_eq_none fun c hc => (h c hc).2.1

theorem EndsNumber.exponent? (h : EndsNumber rest) : exponent? rest = none :=
  exponent?_eq_none fun c hc => (h c hc).2.2

theorem EndsNumber.isDigit (h : EndsNumber rest) : ∀ c ∈ rest.head?, c.isDigit = false := fun c hc => (h c hc).1

/-- The digits in front of a point are all read, if there is no zero at their front but a lone one. -/
theorem readUnsigned_digits (start : List Char) (negative : Bool) (h : AllDigits digits)
    (hlead : digits = ['0'] ∨ ∃ c more, digits = c :: more ∧ c ≠ '0') (hrest : ∀ c ∈ rest.head?, c.isDigit = false) :
    readUnsigned start negative (digits ++ rest) = readNumberAfter negative digits rest := by
  rcases hlead with rfl | ⟨c, more, rfl, hc⟩
  · rfl
  · have hmore : AllDigits more := fun d hd => h d (.tail _ hd)
    rw [List.cons_append, readUnsigned]
    · rw [if_pos (h c (.head _)), takeWhile_isDigit hmore hrest, dropWhile_isDigit hmore hrest]
    · exact fun hzero => hc hzero

theorem readNumberAfter_fraction (negative : Bool) (whole : List Char) (h : AllDigits digits) (hne : digits ≠ [])
    (hrest : EndsNumber rest) :
    readNumberAfter negative whole ('.' :: (digits ++ rest)) =
      .ok (real (.ofDecimal negative (decimalValue (whole ++ digits)) (-digits.length)), rest) := by
  rw [readNumberAfter, fraction?_digits h hne hrest.isDigit]
  simp only [hrest.exponent?, Option.getD_none, Int.zero_sub]

theorem readNumberAfter_exponent (negative : Bool) (whole : List Char) (isNegative : Prop) [Decidable isNegative]
    (h : AllDigits digits) (hne : digits ≠ []) (hrest : EndsNumber rest) :
    readNumberAfter negative whole ('e' :: (if isNegative then '-' else '+') :: (digits ++ rest)) =
      .ok (real (.ofDecimal negative (decimalValue whole)
        (if isNegative then -(decimalValue digits : Int) else decimalValue digits)), rest) := by
  rw [readNumberAfter, fraction?_eq_none (by simp), exponent?_digits isNegative h hne hrest.isDigit]

theorem readNumberAfter_fraction_exponent (negative : Bool) (whole : List Char) (isNegative : Prop)
    [Decidable isNegative] (hmore : AllDigits more) (hmorene : more ≠ []) (h : AllDigits digits) (hne : digits ≠ [])
    (hrest : EndsNumber rest) :
    readNumberAfter negative whole
        ('.' :: (more ++ 'e' :: (if isNegative then '-' else '+') :: (digits ++ rest))) =
      .ok (real (.ofDecimal negative (decimalValue (whole ++ more))
        ((if isNegative then -(decimalValue digits : Int) else decimalValue digits) - more.length)), rest) := by
  rw [readNumberAfter, fraction?_digits hmore hmorene (by simp)]
  simp only [exponent?_digits isNegative h hne hrest.isDigit, Option.getD_some]

/-! ## Layouts of decimals -/

section

variable {first : Char} {others : List Char} (start : List Char) (negative : Bool)

/-- All digits stand behind the point. -/
theorem readUnsigned_behind (zeros : Nat) (h : AllDigits digits) (hne : digits ≠ []) (hrest : EndsNumber rest) :
    readUnsigned start negative ('0' :: '.' :: (List.replicate zeros '0' ++ digits ++ rest)) =
      .ok (real (.ofDecimal negative (decimalValue digits) (-(zeros + digits.length : Nat))), rest) := by
  have hshown : AllDigits (List.replicate zeros '0' ++ digits) := (allDigits_replicate zeros).append h
  have hread : decimalValue (['0'] ++ (List.replicate zeros '0' ++ digits)) = decimalValue digits := by
    rw [← List.append_assoc, ← List.replicate_one, List.replicate_append_replicate, decimalValue_zeros_append]
  change readUnsigned start negative (['0'] ++ _) = _
  rw [readUnsigned_digits start negative allDigits_zero (.inl rfl) (by simp),
    readNumberAfter_fraction negative _ hshown (by simp [hne]) hrest, hread, List.length_append,
    List.length_replicate]

/-- Zeros fill up the places in front of the point. -/
theorem readUnsigned_front {zeros : Nat} (hzeros : zeros ≤ Binary64.maxPower) (h : AllDigits (first :: others))
    (hfirst : first ≠ '0') (hvalue : decimalValue (first :: others) ≠ 0) (hrest : EndsNumber rest) :
    readUnsigned start negative (first :: others ++ List.replicate zeros '0' ++ '.' :: (['0'] ++ rest)) =
      .ok (real (.ofDecimal negative (decimalValue (first :: others)) zeros), rest) := by
  have hwhole : AllDigits (first :: others ++ List.replicate zeros '0') := h.append (allDigits_replicate zeros)
  have hread : decimalValue (first :: others ++ List.replicate zeros '0' ++ ['0']) =
      decimalValue (first :: others) * 10 ^ (zeros + 1) := by
    rw [List.append_assoc, ← List.replicate_one, List.replicate_append_replicate, decimalValue_append_zeros]
  rw [readUnsigned_digits start negative hwhole (.inr ⟨first, _, rfl, hfirst⟩) (by simp),
    readNumberAfter_fraction negative _ allDigits_zero (by simp) hrest, hread, Binary64.ofDecimal, Binary64.ofDecimal,
    ← Binary64.magnitudeOfDecimal_point hvalue hzeros]
  rfl

/-- The point stands among the digits. -/
theorem readUnsigned_among (h : AllDigits (first :: others)) (hfirst : first ≠ '0') (hdigits : AllDigits digits)
    (hne : digits ≠ []) (hrest : EndsNumber rest) :
    readUnsigned start negative (first :: others ++ '.' :: (digits ++ rest)) =
      .ok (real (.ofDecimal negative (decimalValue (first :: others ++ digits)) (-digits.length)), rest) := by
  rw [readUnsigned_digits start negative h (.inr ⟨first, _, rfl, hfirst⟩) (by simp),
    readNumberAfter_fraction negative _ hdigits hne hrest]

/-- One digit stands in front of the point, and a power of ten behind all. -/
theorem readUnsigned_power (h : AllDigits (first :: others)) (hfirst : first ≠ '0') (point : Int)
    (hrest : EndsNumber rest) :
    let power := Nat.toDigits 10 (point - 1).natAbs
    readUnsigned start negative ([first] ++ (if others = [] then [] else '.' :: others) ++
        'e' :: (if point ≤ 0 then '-' else '+') :: (List.replicate (2 - power.length) '0' ++ power ++ rest)) =
      .ok (real (.ofDecimal negative (decimalValue (first :: others)) (point - 1 - others.length)), rest) := by
  intro power
  have hshown : AllDigits (List.replicate (2 - power.length) '0' ++ power) :=
    (allDigits_replicate _).append (allDigits_toDigits _)
  have hne : List.replicate (2 - power.length) '0' ++ power ≠ [] := fun h =>
    Nat.toDigits_ne_nil (List.append_eq_nil_iff.mp h).2
  have hsigned : (if point ≤ 0 then -(decimalValue (List.replicate (2 - power.length) '0' ++ power) : Int)
      else decimalValue (List.replicate (2 - power.length) '0' ++ power)) = point - 1 := by
    rw [decimalValue_zeros_append, decimalValue_toDigits]
    split <;> omega
  have hone : AllDigits [first] := h.take 1
  have hothersdigits : AllDigits others := h.drop 1
  by_cases hothers : others = []
  · rw [if_pos hothers, List.append_nil, hothers,
      readUnsigned_digits start negative hone (.inr ⟨first, [], rfl, hfirst⟩) (by simp),
      readNumberAfter_exponent negative [first] (point ≤ 0) hshown hne hrest, hsigned, List.length_nil]
    simp
  · rw [if_neg hothers, List.append_assoc, List.cons_append (a := '.'),
      readUnsigned_digits start negative hone (.inr ⟨first, [], rfl, hfirst⟩) (by simp),
      readNumberAfter_fraction_exponent negative [first] (point ≤ 0) hothersdigits hothers hshown hne hrest, hsigned]
    rfl

/-- A decimal is read back from each of its layouts. -/
theorem readUnsigned_layout {n : Nat} (exponent : Int) (hn : n ≠ 0) (hrest : EndsNumber rest) :
    readUnsigned start negative
        (Binary64.layout (Nat.toDigits 10 n) ((Nat.toDigits 10 n).length + exponent) ++ rest) =
      .ok (real (.ofDecimal negative n exponent), rest) := by
  obtain ⟨first, others, hdigits, -, hfirst⟩ := toDigits_eq_cons hn
  have hall := allDigits_toDigits n
  have hvalue := decimalValue_toDigits n
  rw [hdigits] at hall hvalue ⊢
  generalize hpoint : (((first :: others).length : Nat) : Int) + exponent = point
  have hlength : (first :: others).length = others.length + 1 := List.length_cons
  rw [← hvalue] at hn ⊢
  unfold Binary64.layout
  by_cases hplain : -4 < point ∧ point ≤ 16
  · rw [if_pos hplain]
    by_cases hsmall : point ≤ 0
    · have hread := readUnsigned_behind start negative (-point).toNat hall (List.cons_ne_nil _ _) hrest
      rw [if_pos hsmall]
      rw [show exponent = -((-point).toNat + (first :: others).length : Nat) by omega]
      simpa using hread
    rw [if_neg hsmall]
    by_cases hlong : (first :: others).length ≤ point.toNat
    · have hpower : point.toNat - (first :: others).length ≤ Binary64.maxPower := by
        simp only [Binary64.maxPower]
        omega
      have hread := readUnsigned_front start negative hpower hall hfirst hn hrest
      rw [if_pos hlong, show exponent = (point.toNat - (first :: others).length : Nat) by omega]
      simpa using hread
    · obtain ⟨k, hk⟩ : ∃ k, point.toNat = k + 1 := ⟨point.toNat - 1, by omega⟩
      have hbehind : (first :: others).drop point.toNat ≠ [] := fun h => hlong (List.drop_eq_nil_iff.mp h)
      have htake : (first :: others).take point.toNat = first :: others.take k := by rw [hk, List.take_succ_cons]
      have hread := readUnsigned_among start negative (htake ▸ hall.take point.toNat) hfirst
        (hall.drop point.toNat) hbehind hrest
      rw [← htake, List.take_append_drop, List.length_drop] at hread
      rw [if_neg hlong, List.append_assoc, List.cons_append, hread]
      congr 4
      omega
  · have hread := readUnsigned_power start negative hall hfirst point hrest
    rw [if_neg hplain, show exponent = point - 1 - others.length by omega, ← hread]
    cases others <;> simp

end

/-! ## Numbers -/

/-- A number without a sign begins with a digit. -/
theorem isDigit_of_readUnsigned {start text : List Char} {negative : Bool} {result : Json × List Char}
    (h : readUnsigned start negative text = .ok result) : ∃ c more, text = c :: more ∧ c.isDigit = true := by
  unfold readUnsigned at h
  split at h
  · exact ⟨'0', _, rfl, rfl⟩
  · next c rest _ =>
    split at h
    · next hc => exact ⟨c, rest, rfl, hc⟩
    · cases h
  · cases h

/-- A text that can be read as a number without a sign is read as one. -/
theorem readPlain_of_unsigned {text : List Char} {result : Json × List Char}
    (h : ∀ start, readUnsigned start false text = .ok result) : readPlain text = .ok result := by
  obtain ⟨c, more, rfl, hc⟩ := isDigit_of_readUnsigned (h [])
  unfold readPlain
  split <;> first | exact h _ | (rename_i heq; cases heq; cases hc)

/-- A text that can be read as a number without a sign is read as one behind a minus. -/
theorem readPlain_of_signed {text : List Char} {result : Json × List Char}
    (h : ∀ start, readUnsigned start true text = .ok result) : readPlain ('-' :: text) = .ok result := by
  obtain ⟨c, more, rfl, hc⟩ := isDigit_of_readUnsigned (h [])
  unfold readPlain
  split <;> rename_i heq
  case h_7 => cases heq; exact h _
  case h_8 => exact absurd rfl (heq _)
  all_goals cases heq
  cases hc

/-- **An integer is read back from its text.** -/
theorem readPlain_integerText {n : Int} (hfits : (Nat.toDigits 10 n.natAbs).length ≤ Text.maxDigits)
    (hrest : EndsNumber rest) : readPlain (integerText n ++ rest) = .ok (int n, rest) := by
  have hall := allDigits_toDigits n.natAbs
  have hlead : Nat.toDigits 10 n.natAbs = ['0'] ∨ ∃ c more, Nat.toDigits 10 n.natAbs = c :: more ∧ c ≠ '0' := by
    by_cases h : n.natAbs = 0
    · exact .inl (by rw [h]; rfl)
    · obtain ⟨c, more, hdigits, -, hc⟩ := toDigits_eq_cons h
      exact .inr ⟨c, more, hdigits, hc⟩
  have hread (start : List Char) (negative : Bool) :
      readUnsigned start negative (Nat.toDigits 10 n.natAbs ++ rest) =
        .ok (int (if negative then -(n.natAbs : Int) else n.natAbs), rest) := by
    rw [readUnsigned_digits start negative hall hlead hrest.isDigit, readNumberAfter, hrest.fraction?, hrest.exponent?,
      integerValue, if_neg (Nat.not_lt.mpr hfits), decimalValue_toDigits]
    rfl
  unfold integerText
  by_cases hneg : n < 0
  · rw [if_pos hneg, List.cons_append, readPlain_of_signed (hread · true)]
    simp only [if_true, Except.ok.injEq, Prod.mk.injEq, int.injEq, and_true]
    omega
  · rw [if_neg hneg, readPlain_of_unsigned (hread · false)]
    simp only [Bool.false_eq_true, if_false, Except.ok.injEq, Prod.mk.injEq, int.injEq, and_true]
    omega

/-- The floating-point numbers that JSON text can stand for: all finite ones and the infinities, but only one value that
is no number. -/
def IsWritten (x : Binary64) : Prop := x.isFinite ∨ x.magnitude = Binary64.infinity ∨ x = .notANumber

instance (x : Binary64) : Decidable (IsWritten x) := inferInstanceAs (Decidable (_ ∨ _))

/-- A finite number is its sign and the text of its magnitude. -/
theorem readUnsigned_magnitude {m : Nat} (hfinite : m < Binary64.infinity) (start : List Char) (negative : Bool)
    (hrest : EndsNumber rest) :
    readUnsigned start negative ((if m = 0 then ['0', '.', '0'] else
        Binary64.layout (Nat.toDigits 10 (Binary64.shortest m).1)
          ((Nat.toDigits 10 (Binary64.shortest m).1).length + (Binary64.shortest m).2)) ++ rest) =
      .ok (real ⟨negative, m⟩, rest) := by
  by_cases hzero : m = 0
  · rw [if_pos hzero, hzero]
    exact readUnsigned_behind start negative 0 allDigits_zero (by simp) hrest
  · have hpos : 0 < m := Nat.pos_of_ne_zero hzero
    rw [if_neg hzero, readUnsigned_layout start negative _ (Binary64.shortest_ne_zero hpos hfinite) hrest,
      Binary64.ofDecimal, Binary64.magnitudeOfDecimal_shortest hpos hfinite]

/-- **A floating-point number is read back from its text.** -/
theorem readPlain_realText {x : Binary64} (hx : IsWritten x) (hrest : EndsNumber rest) :
    readPlain (realText x ++ rest) = .ok (real x, rest) := by
  unfold realText
  by_cases hfinite : x.isFinite
  · have hread (start) (negative) := readUnsigned_magnitude (of_decide_eq_true hfinite) start negative hrest
    rw [if_pos hfinite]
    unfold Binary64.finiteText
    obtain ⟨negative, m⟩ := x
    cases negative
    · exact readPlain_of_unsigned (hread · false)
    · exact readPlain_of_signed (hread · true)
  rw [if_neg hfinite]
  by_cases hinfinite : x.magnitude = Binary64.infinity
  · obtain ⟨negative, m⟩ := x
    cases hinfinite
    cases negative <;> rfl
  · rw [if_neg hinfinite, (hx.resolve_left hfinite).resolve_left hinfinite]
    rfl

end DocOutline.Json
