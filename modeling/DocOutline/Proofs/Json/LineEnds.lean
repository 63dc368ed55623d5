import DocOutline.Proofs.Json.RoundTrip
import DocOutline.Proofs.Text.RoundTrip

/-!
# Line ends in JSON text

A reader of text files takes a carriage return for a line end. JSON text holds none, since it is written with line feeds
and a carriage return inside a text is escaped, so a file reads as what was written to it (`unifyLineEnds_pretty`).
-/

namespace DocOutline.Json

theorem hexDigit_ne_return : ∀ n < 16, Text.hexDigit n ≠ '\r' := by decide

theorem return_not_mem_unicodeEscape (n : Nat) : '\r' ∉ unicodeEscape n := by
  have hdigit (k : Nat) := (hexDigit_ne_return (k % 16) (Nat.mod_lt k (by decide))).symm
  simp [unicodeEscape, hexDigits_four, hdigit]

theorem return_not_mem_escapeChar (c : Char) : '\r' ∉ escapeChar c := by
  unfold escapeChar
  split
  · next h => rcases h with rfl | rfl <;> decide
  iterate 5
    split
    · decide
  split
  · next h =>
    rintro hmem
    rw [← List.mem_singleton.mp hmem] at h
    exact absurd h.1 (by decide)
  split
  · exact return_not_mem_unicodeEscape _
  · simp [return_not_mem_unicodeEscape]

theorem return_not_mem_stringLiteral (s : String) : '\r' ∉ stringLiteral s := by
  simp [stringLiteral, return_not_mem_escapeChar]

theorem AllDigits.return_not_mem {digits : List Char} (h : AllDigits digits) : '\r' ∉ digits := fun hmem =>
  absurd (h '\r' hmem) (by decide)

theorem return_not_mem_integerText (n : Int) : '\r' ∉ integerText n := by
  have hdigits := (allDigits_toDigits n.natAbs).return_not_mem
  unfold integerText
  split <;> simp [hdigits]

theorem return_not_mem_layout {digits : List Char} (h : AllDigits digits) (point : Int) :
    '\r' ∉ Binary64.layout digits point := by
  have hdigits := h.return_not_mem
  have htake (n : Nat) := (h.take n).return_not_mem
  have hdrop (n : Nat) := (h.drop n).return_not_mem
  have hpower := (allDigits_toDigits (point - 1).natAbs).return_not_mem
  unfold Binary64.layout
  split
  · split
    · simp [hdigits]
    · split <;> simp [hdigits, htake, hdrop]
  · split <;> split <;> simp [htake, (h.drop 1).return_not_mem, hpower, -List.drop_one]

theorem return_not_mem_realText (x : Binary64) : '\r' ∉ realText x := by
  have hlayout := return_not_mem_layout (allDigits_toDigits (Binary64.shortest x.magnitude).1)
  unfold realText
  split
  · simp only [Binary64.finiteText]
    split <;> split <;> simp [hlayout]
  · split
    · split <;> decide
    · decide

mutual

theorem return_not_mem_render (depth : Nat) (value : Json) : '\r' ∉ render .pretty depth value := by
  match value with
  | null => simp [render]
  | bool b => cases b <;> simp [render]
  | int n => exact return_not_mem_integerText n
  | real x => exact return_not_mem_realText x
  | str s => exact return_not_mem_stringLiteral s
  | arr [] => simp [render]
  | arr (item :: items) =>
    have hitem := return_not_mem_render (depth + 1) item
    have hitems := return_not_mem_renderItems (depth + 1) items
    simp [render, Style.pretty, newLine] at hitem hitems ⊢
    exact ⟨hitem, hitems⟩
  | obj [] => simp [render]
  | obj ((name, value) :: members) =>
    have hvalue := return_not_mem_render (depth + 1) value
    have hmembers := return_not_mem_renderMembers (depth + 1) members
    simp [render, Style.pretty, newLine, return_not_mem_stringLiteral] at hvalue hmembers ⊢
    exact ⟨hvalue, hmembers⟩

theorem return_not_mem_renderItems (depth : Nat) (items : List Json) : '\r' ∉ renderItems .pretty depth items := by
  match items with
  | [] => simp [renderItems]
  | item :: items =>
    have hitem := return_not_mem_render depth item
    have hitems := return_not_mem_renderItems depth items
    simp [renderItems, Style.pretty, newLine] at hitem hitems ⊢
    exact ⟨hitem, hitems⟩

theorem return_not_mem_renderMembers (depth : Nat) (members : List (String × Json)) :
    '\r' ∉ renderMembers .pretty depth members := by
  match members with
  | [] => simp [renderMembers]
  | (name, value) :: members =>
    have hvalue := return_not_mem_render depth value
    have hmembers := return_not_mem_renderMembers depth members
    simp [renderMembers, Style.pretty, newLine, return_not_mem_stringLiteral] at hvalue hmembers ⊢
    exact ⟨hvalue, hmembers⟩

end

/-- A file reads as the text that was written to it. -/
theorem unifyLineEnds_pretty (value : Json) : Text.unifyLineEnds value.pretty = value.pretty :=
  Text.unifyLineEnds_eq_self (by rw [pretty, String.toList_ofList]; exact return_not_mem_render 0 value)

end DocOutline.Json
