import Mathlib.Data.List.Count
import Mathlib.Data.List.Induction
import Mathlib.Data.List.Nodup
import DocOutline.Index.Symbols

/-!
# Numbers in identifiers

The first symbol of a qualified name gets an identifier without a number, and each later one gets its number behind a
tilde. So identifiers differ for the same name, and a number can be read off again (`withNumber_inj`); but a name may
itself end like a numbered one, and then its symbol shares an identifier with a later symbol of the shorter name. Main
statement `nodup_ids_iff`: this is the only way in which two symbols of a document get the same identifier.
-/

namespace DocOutline.Index

open DocOutline.Symbol (Name)

/-! ## Numbered texts -/

def withNumber (text : String) (n : Nat) : String := text ++ "~" ++ toString n

theorem toList_withNumber (text : String) (n : Nat) :
    (withNumber text n).toList = text.toList ++ '~' :: Nat.toDigits 10 n := by
  simp [withNumber, Nat.toString_eq_repr]

theorem tilde_not_mem_toDigits (n : Nat) : '~' ∉ Nat.toDigits 10 n := fun h =>
  absurd (Nat.isDigit_of_mem_toDigits (by decide) (by decide) h) (by decide)

/-- The last separator splits a list, if the parts behind it have none. -/
theorem append_cons_inj_of_not_mem {α : Type} {a b x y : List α} {separator : α} (hx : separator ∉ x) (hy : separator ∉ y)
    (h : a ++ separator :: x = b ++ separator :: y) : a = b ∧ x = y := by
  rcases List.append_eq_append_iff.1 h with ⟨more, rfl, hmore⟩ | ⟨more, rfl, hmore⟩
  · cases more with
    | nil => exact ⟨(List.append_nil a).symm, (List.cons.inj hmore).2⟩
    | cons c more =>
      rw [(List.cons.inj hmore).2] at hx
      exact absurd (List.mem_append_right _ (List.mem_cons_self ..)) hx
  · cases more with
    | nil => exact ⟨List.append_nil b, (List.cons.inj hmore).2.symm⟩
    | cons c more =>
      rw [(List.cons.inj hmore).2] at hy
      exact absurd (List.mem_append_right _ (List.mem_cons_self ..)) hy

/-- A numbered text tells both the text and the number. -/
theorem withNumber_inj {text text' : String} {n n' : Nat} (h : withNumber text n = withNumber text' n') :
    text = text' ∧ n = n' := by
  have hlists := congrArg String.toList h
  rw [toList_withNumber, toList_withNumber] at hlists
  obtain ⟨htext, hdigits⟩ := append_cons_inj_of_not_mem (tilde_not_mem_toDigits n) (tilde_not_mem_toDigits n') hlists
  refine ⟨String.toList_inj.1 htext, ?_⟩
  rw [← Nat.ofDigitChars_ten_toDigits (n := n), hdigits, Nat.ofDigitChars_ten_toDigits]

/-! ## Numbers for repeated identifiers -/

/-- Identifiers with numbers for repetitions, where `issued` are those given out before, without their numbers. -/
def numberAll (issued : List String) : List String → List String
  | [] => []
  | id :: ids => numbered issued id :: numberAll (id :: issued) ids

theorem numberAll_append (issued ids ids' : List String) :
    numberAll issued (ids ++ ids') = numberAll issued ids ++ numberAll (ids.reverse ++ issued) ids' := by
  induction ids generalizing issued with
  | nil => rfl
  | cons id ids ih => simp [numberAll, ih]

/-- Whether an identifier is repeated so often that the number is given to it. -/
def IsNumber (ids : List String) (id : String) (n : Nat) : Prop := 2 ≤ n ∧ n ≤ ids.count id

/-- One more identifier uses up one more number, unless it is new. -/
theorem isNumber_concat {ids : List String} {id id' : String} {n : Nat} :
    IsNumber (ids ++ [id]) id' n ↔ IsNumber ids id' n ∨ id ∈ ids ∧ id' = id ∧ n = ids.count id + 1 := by
  have hpos : id ∈ ids ↔ 0 < ids.count id := List.count_pos_iff.symm
  rw [IsNumber, IsNumber, List.count_append, List.count_singleton, hpos]
  by_cases h : id = id'
  · subst h
    simp only [beq_self_eq_true, if_true, true_and]
    omega
  · rw [if_neg (by simpa using h)]
    simp only [Ne.symm h, false_and, and_false, or_false, Nat.add_zero]

/-- What an identifier at the end becomes. -/
theorem numberAll_concat (ids : List String) (id : String) :
    numberAll [] (ids ++ [id]) =
      numberAll [] ids ++ [if id ∈ ids then withNumber id (ids.count id + 1) else id] := by
  rw [numberAll_append, List.append_nil, numberAll, numberAll, numbered]
  simp [withNumber]

/-- What is given out is each identifier, and each with the numbers of its repetitions. -/
theorem mem_numberAll {ids : List String} {x : String} :
    x ∈ numberAll [] ids ↔ x ∈ ids ∨ ∃ id n, IsNumber ids id n ∧ x = withNumber id n := by
  induction ids using List.reverseRecOn with
  | nil => simp [numberAll, IsNumber]
  | append_singleton ids id ih =>
    rw [numberAll_concat, List.mem_append, List.mem_append, ih]
    simp only [isNumber_concat]
    by_cases hmem : id ∈ ids
    · simp only [hmem, if_true, List.mem_singleton, true_and]
      constructor
      · rintro ((h | ⟨id', n, hn, rfl⟩) | rfl)
        · exact .inl (.inl h)
        · exact .inr ⟨id', n, .inl hn, rfl⟩
        · exact .inr ⟨id, _, .inr ⟨rfl, rfl⟩, rfl⟩
      · rintro ((h | rfl) | ⟨id', n, hn | ⟨rfl, rfl⟩, rfl⟩)
        · exact .inl (.inl h)
        · exact .inl (.inl hmem)
        · exact .inl (.inr ⟨id', n, hn, rfl⟩)
        · exact .inr rfl
    · simp only [hmem, if_false, List.mem_singleton, false_and, or_false]
      exact or_right_comm

/-- **Numbers keep identifiers apart, unless one of them looks like a numbered one.** -/
theorem nodup_numberAll_iff {ids : List String} :
    (numberAll [] ids).Nodup ↔ ∀ id n, IsNumber ids id n → withNumber id n ∉ ids := by
  induction ids using List.reverseRecOn with
  | nil => simp [numberAll]
  | append_singleton ids id ih =>
    rw [numberAll_concat, ← List.concat_eq_append, List.nodup_concat, ih, mem_numberAll, and_comm]
    simp only [isNumber_concat]
    by_cases hmem : id ∈ ids
    · simp only [hmem, if_true, true_and]
      have hnew : ¬ ∃ id' n, IsNumber ids id' n ∧ withNumber id (ids.count id + 1) = withNumber id' n := by
        rintro ⟨id', n, hn, heq⟩
        obtain ⟨rfl, rfl⟩ := withNumber_inj heq
        exact absurd hn.2 (by omega)
      have hsame : ∀ x, x ∈ ids ++ [id] ↔ x ∈ ids := fun x => by
        rw [List.mem_append, List.mem_singleton, or_iff_left_of_imp (fun h => h ▸ hmem)]
      simp only [hsame, hnew, or_false]
      constructor
      · rintro ⟨hold, hlast⟩ id' n (hn | ⟨rfl, rfl⟩)
        · exact hold id' n hn
        · exact hlast
      · exact fun h => ⟨fun id' n hn => h id' n (.inl hn), h id _ (.inr ⟨rfl, rfl⟩)⟩
    · simp only [hmem, if_false, false_and, or_false, false_or, List.mem_append, List.mem_singleton, not_or]
      constructor
      · exact fun h id' n hn => ⟨h.1 id' n hn, fun heq => h.2 ⟨id', n, hn, heq.symm⟩⟩
      · exact fun h => ⟨fun id' n hn => (h id' n hn).1, fun ⟨id', n, hn, heq⟩ => (h id' n hn).2 heq.symm⟩

/-! ## Symbols -/

section

variable {ν : Type}

/-- The identifiers that symbols of a document would get without numbers. -/
def plainIds (path : String) (symbols : List (DocSymbol ν)) : List String :=
  symbols.map fun symbol => symbolId path symbol.qualifiedName

theorem plainIds_cons (path : String) (symbol : DocSymbol ν) (symbols : List (DocSymbol ν)) :
    plainIds path (symbol :: symbols) = symbolId path symbol.qualifiedName :: plainIds path symbols := rfl

theorem plainIds_append (path : String) (symbols symbols' : List (DocSymbol ν)) :
    plainIds path (symbols ++ symbols') = plainIds path symbols ++ plainIds path symbols' := List.map_append

variable [Name ν]

mutual

/-- The symbols of an outline have numbered identifiers, and those without numbers are given out then. -/
theorem numbered_collect (path : String) (lines : Lines) (parent? : Option (DocSymbol ν)) (issued : List String)
    (outline : Outline ν) {symbols : List (DocSymbol ν)} {later : List String}
    (h : collect path lines parent? issued outline = (symbols, later)) :
    symbols.map (·.id) = numberAll issued (plainIds path symbols) ∧ later = (plainIds path symbols).reverse ++ issued := by
  match outline with
  | .mk entry children =>
    rw [collect] at h
    split at h
    · exact numbered_collectAll path lines parent? issued children h
    · obtain ⟨hids, hlater⟩ := numbered_collectAll path lines _ _ children rfl
      cases h
      refine ⟨?_, ?_⟩
      · rw [List.map_cons, plainIds_cons, numberAll, hids]
      · rw [hlater, plainIds_cons, List.reverse_cons, List.append_assoc, List.singleton_append]

theorem numbered_collectAll (path : String) (lines : Lines) (parent? : Option (DocSymbol ν)) (issued : List String)
    (outlines : List (Outline ν)) {symbols : List (DocSymbol ν)} {later : List String}
    (h : collectAll path lines parent? issued outlines = (symbols, later)) :
    symbols.map (·.id) = numberAll issued (plainIds path symbols) ∧ later = (plainIds path symbols).reverse ++ issued := by
  match outlines with
  | [] =>
    cases h
    exact ⟨rfl, rfl⟩
  | outline :: outlines =>
    rcases hfirst : collect path lines parent? issued outline with ⟨first, middle⟩
    rcases hrest : collectAll path lines parent? middle outlines with ⟨rest, last⟩
    obtain ⟨hids, rfl⟩ := numbered_collect path lines parent? issued outline hfirst
    obtain ⟨hids', rfl⟩ := numbered_collectAll path lines parent? _ outlines hrest
    simp only [collectAll, hfirst, hrest] at h
    cases h
    refine ⟨?_, ?_⟩
    · rw [List.map_append, plainIds_append, numberAll_append, hids, hids']
    · rw [plainIds_append, List.reverse_append, List.append_assoc]

end

theorem symbolId_injective (path : String) : Function.Injective (symbolId path) := fun name name' h => by
  have hlists := congrArg String.toList h
  simpa [symbolId, String.toList_inj] using hlists

theorem withNumber_symbolId (path name : String) (n : Nat) :
    withNumber (symbolId path name) n = symbolId path (withNumber name n) := by
  simp [withNumber, symbolId, String.append_assoc]

/-- **Identifiers within a document.** Two symbols of a document get the same identifier exactly if some qualified name
that comes up several times gives another symbol's name when the number of one of its repetitions is put behind it
(`collect_symbols`). -/
theorem nodup_ids_iff (path : String) (lines : Lines) (outlines : List (Outline ν)) :
    ((documentSymbols path lines outlines).map (·.id)).Nodup ↔
      ∀ name n, 2 ≤ n → n ≤ ((documentSymbols path lines outlines).map (·.qualifiedName)).count name →
        withNumber name n ∉ (documentSymbols path lines outlines).map (·.qualifiedName) := by
  obtain ⟨hids, -⟩ := numbered_collectAll path lines none [] outlines rfl
  rw [← documentSymbols] at hids
  generalize documentSymbols path lines outlines = symbols at hids
  have hplain : plainIds path symbols = (symbols.map (·.qualifiedName)).map (symbolId path) := by
    rw [plainIds, List.map_map]
    rfl
  rw [hids, hplain, nodup_numberAll_iff]
  generalize symbols.map (·.qualifiedName) = names
  have hinj := symbolId_injective path
  constructor
  · intro h name n hn hcount hmem
    refine h (symbolId path name) n ⟨hn, ?_⟩ ?_
    · rwa [List.count_map_of_injective _ _ hinj]
    · rw [withNumber_symbolId]
      exact List.mem_map_of_mem hmem
  · rintro h id n ⟨hn, hcount⟩ hmem
    obtain ⟨name, -, rfl⟩ := List.mem_map.1 (List.count_pos_iff.1 (by omega : 0 < (names.map (symbolId path)).count id))
    rw [List.count_map_of_injective _ _ hinj] at hcount
    rw [withNumber_symbolId] at hmem
    exact h name n hn hcount ((List.mem_map_of_injective hinj).1 hmem)

end

/-- Two headings of the same name, and one that is named like the second of them. -/
def numberedHeadings : Forest :=
  [.mk ⟨"X", .heading 1, 2, 3⟩ [], .mk ⟨"X", .heading 1, 6, 7⟩ [], .mk ⟨"X~2", .heading 1, 10, 13⟩ []]

theorem not_nodup_ids_numberedHeadings :
    (documentSymbols "a.typ" (Lines.ofText "= X\n= X\n= X~2\n") numberedHeadings).map (·.id) =
        ["a-typ::X", "a-typ::X~2", "a-typ::X~2"] ∧
      ¬ ((documentSymbols "a.typ" (Lines.ofText "= X\n= X\n= X~2\n") numberedHeadings).map (·.id)).Nodup := by
  have hids : (documentSymbols "a.typ" (Lines.ofText "= X\n= X\n= X~2\n") numberedHeadings).map (·.id) =
      ["a-typ::X", "a-typ::X~2", "a-typ::X~2"] := by decide +kernel
  refine ⟨hids, ?_⟩
  rw [hids]
  decide

end DocOutline.Index
