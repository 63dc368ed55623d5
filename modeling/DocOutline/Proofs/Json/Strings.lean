import DocOutline.Json.Printer
import DocOutline.Json.Reader

/-!
# String literals in JSON text

A text that was written as a string literal is read back (`readString_stringLiteral`): character by character, each with
the escape it got, and a character beyond the basic plane by the two halves of its surrogate pair.
-/

namespace DocOutline.Json

theorem hexValue?_hexDigit : ∀ n < 16, hexValue? (Text.hexDigit n) = some n := by decide

theorem hexDigits_four (n : Nat) :
    Text.hexDigits 4 n = [Text.hexDigit (n / 16 / 16 / 16 % 16), Text.hexDigit (n / 16 / 16 % 16),
      Text.hexDigit (n / 16 % 16), Text.hexDigit (n % 16)] := rfl

theorem hexValue4?_hexDigits {n : Nat} (h : n < 0x10000) :
    hexValue4? (Text.hexDigit (n / 16 / 16 / 16 % 16)) (Text.hexDigit (n / 16 / 16 % 16))
      (Text.hexDigit (n / 16 % 16)) (Text.hexDigit (n % 16)) = some n := by
  have hdigit (k : Nat) := hexValue?_hexDigit (k % 16) (Nat.mod_lt k (by decide))
  simp only [hexValue4?, hdigit, Option.bind_eq_bind, Option.bind_some, Option.some.injEq]
  omega

section

variable {start read more : List Char} {pending : Option Nat}

/-- An escape of four digits adds its code unit. Behind it the literal goes on, at least with its closing quote. -/
theorem readString_unicodeEscape {n : Nat} (h : n < 0x10000) (hmore : more ≠ []) :
    readString start pending read (unicodeEscape n ++ more) =
      readString start (addUnit n pending read).1 (addUnit n pending read).2 more := by
  obtain ⟨next, more, rfl⟩ := List.exists_cons_of_ne_nil hmore
  rw [unicodeEscape, hexDigits_four]
  simp only [List.cons_append, List.nil_append]
  rw [readString]
  exact hexValue4?_hexDigits h

theorem readString_plain {c : Char} (hquote : c ≠ '"') (hslash : c ≠ '\\') (hprintable : 0x20 ≤ c.toNat) :
    readString start none read (c :: more) = readString start none (c :: read) more := by
  rw [readString, if_neg (by omega)]
  · rfl
  · exact hquote
  · exact fun h => absurd h hslash
  · exact fun _ _ _ _ _ h => absurd h hslash
  · exact fun _ h => absurd h hslash
  · exact fun _ _ h => absurd h hslash

/-! ## Code units -/

theorem not_isHighSurrogate {n : Nat} (h : n < 0xD800 ∨ 0xDBFF < n) : isHighSurrogate n = false := by
  simp only [isHighSurrogate, Bool.and_eq_false_iff, decide_eq_false_iff_not]
  omega

theorem not_isLowSurrogate {n : Nat} (h : n < 0xDC00 ∨ 0xDFFF < n) : isLowSurrogate n = false := by
  simp only [isLowSurrogate, Bool.and_eq_false_iff, decide_eq_false_iff_not]
  omega

/-- A character of the basic plane is a code unit of its own. -/
theorem addUnit_toNat {c : Char} (h : c.toNat < 0x10000) (read : List Char) :
    addUnit c.toNat none read = (none, c :: read) := by
  have hvalid : c.toNat < 0xD800 ∨ 0xDFFF < c.toNat ∧ c.toNat < 0x110000 := c.valid
  rw [addUnit, not_isHighSurrogate (by omega), not_isLowSurrogate (by omega), Char.ofNat_toNat]
  rfl

/-- The first half of a surrogate pair is kept pending. -/
theorem addUnit_high {k : Nat} (h : k < 0x400) (read : List Char) :
    addUnit (0xD800 + k) none read = (some (0xD800 + k), read) := by
  have hhigh : isHighSurrogate (0xD800 + k) = true := by
    simp only [isHighSurrogate, Bool.and_eq_true, decide_eq_true_eq]
    omega
  rw [addUnit, hhigh]
  rfl

/-- The second half of a surrogate pair completes it. -/
theorem addUnit_low {high k : Nat} (h : k < 0x400) (read : List Char) :
    addUnit (0xDC00 + k) (some high) read = (none, pairChar high (0xDC00 + k) :: read) := by
  have hlow : isLowSurrogate (0xDC00 + k) = true := by
    simp only [isLowSurrogate, Bool.and_eq_true, decide_eq_true_eq]
    omega
  rw [addUnit, not_isHighSurrogate (by omega), hlow]
  rfl

theorem pairChar_halves {c : Char} (h : 0x10000 ≤ c.toNat) :
    pairChar (0xD800 + (c.toNat - 0x10000) / 0x400) (0xDC00 + (c.toNat - 0x10000) % 0x400) = c := by
  have hsum : 0x10000 + (0xD800 + (c.toNat - 0x10000) / 0x400 - 0xD800) * 0x400 +
      (0xDC00 + (c.toNat - 0x10000) % 0x400 - 0xDC00) = c.toNat := by omega
  rw [pairChar, hsum, Char.ofNat_toNat]

/-! ## Characters -/

/-- A character that was written is read back. -/
theorem readString_escapeChar (c : Char) (hmore : more ≠ []) :
    readString start none read (escapeChar c ++ more) = readString start none (c :: read) more := by
  obtain ⟨next, others, hnext⟩ := List.exists_cons_of_ne_nil hmore
  unfold escapeChar
  split
  · next h => rw [hnext]; rcases h with rfl | rfl <;> rfl
  split
  · next h => rw [hnext, h]; rfl
  split
  · next h => rw [hnext, h]; rfl
  split
  · next h => rw [hnext, h]; rfl
  split
  · next h => rw [hnext, show c = '\x0c' from Char.ext (UInt32.toNat_inj.mp h)]; rfl
  split
  · next h => rw [hnext, show c = '\x08' from Char.ext (UInt32.toNat_inj.mp h)]; rfl
  split
  · next hquoted _ _ _ _ _ h =>
    exact readString_plain (fun h => hquoted (.inl h)) (fun h => hquoted (.inr h)) h.1
  split
  · next h => rw [readString_unicodeEscape h hmore, addUnit_toNat h]
  · next h =>
    have hvalid : c.toNat < 0xD800 ∨ 0xDFFF < c.toNat ∧ c.toNat < 0x110000 := c.valid
    rw [List.append_assoc, readString_unicodeEscape (by omega) (by simp [unicodeEscape]),
      readString_unicodeEscape (by omega) hmore, addUnit_high (by omega), addUnit_low (by omega),
      pairChar_halves (by omega)]

/-- **A text is read back from its literal.** -/
theorem readString_stringLiteral (s : String) (start rest : List Char) :
    readString start none [] (s.toList.flatMap escapeChar ++ '"' :: rest) = .ok (s, rest) := by
  have hread (cs read : List Char) :
      readString start none read (cs.flatMap escapeChar ++ '"' :: rest) =
        .ok (String.ofList (read.reverse ++ cs), rest) := by
    induction cs generalizing read with
    | nil => simp [readString, settle]
    | cons c cs ih =>
      rw [List.flatMap_cons, List.append_assoc, readString_escapeChar c (by simp), ih]
      simp
  rw [hread, List.reverse_nil, List.nil_append, String.ofList_toList]

end

end DocOutline.Json
