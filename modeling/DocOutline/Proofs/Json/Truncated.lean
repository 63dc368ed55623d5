import DocOutline.Proofs.Json.LineEnds
import DocOutline.Proofs.Json.RoundTrip

/-!
# What was written half-way cannot be read

Writing stops in front of an integer of too many digits, and of an array or object that lies in too many others. What was
written until then is no document (`readWithin_incomplete`): each array and object around it has been opened and not closed.
-/

namespace DocOutline.Json

/-! ## Incomplete drafts -/

namespace Draft

variable {draft next : Draft} {before behind : List Char} {item : Json} {name : String}

theorem andThen_incomplete (h : (draft.andThen next).complete = false) :
    draft.complete = false ∧ (draft.andThen next).text = draft.text ∨
      draft.complete = true ∧ next.complete = false ∧ (draft.andThen next).text = draft.text ++ next.text := by
  unfold andThen at h ⊢
  by_cases hdraft : draft.complete = true
  · rw [if_pos hdraft] at h ⊢
    exact .inr ⟨hdraft, h, rfl⟩
  · rw [if_neg hdraft]
    exact .inl ⟨Bool.eq_false_iff.mpr hdraft, rfl⟩

/-- What can be written is not what was left out. -/
theorem andThen_ofText_incomplete (h : (draft.andThen (ofText behind)).complete = false) :
    draft.complete = false ∧ (draft.andThen (ofText behind)).text = draft.text := by
  rcases andThen_incomplete h with hdraft | ⟨-, hbehind, -⟩
  · exact hdraft
  · cases hbehind

/-- Where writing stops at an item or behind it. -/
theorem ofItem_andThen_incomplete (h : ((ofItem before item draft).andThen next).complete = false) :
    ((ofItem before item draft).andThen next).text = [] ∨
      draft.complete = false ∧ ((ofItem before item draft).andThen next).text = before ++ draft.text ∨
      draft.complete = true ∧ next.complete = false ∧
        ((ofItem before item draft).andThen next).text = before ++ (draft.text ++ next.text) := by
  rcases andThen_incomplete h with ⟨hitem, htext⟩ | ⟨hitem, hnext, htext⟩
  · rw [htext]
    unfold ofItem at hitem ⊢
    split
    · exact .inl rfl
    · next hwritable =>
      rw [if_neg hwritable] at hitem
      rcases andThen_incomplete hitem with ⟨hbefore, -⟩ | ⟨-, hdraft, hbehind⟩
      · cases hbefore
      · exact .inr (.inl ⟨hdraft, hbehind⟩)
  · obtain ⟨hdraft, hbehind⟩ := ofItem_complete hitem
    exact .inr (.inr ⟨hdraft, hnext, by rw [htext, hbehind, List.append_assoc]⟩)

/-- Where writing stops at a member or behind it. -/
theorem ofMember_andThen_incomplete (h : ((ofMember before name draft).andThen next).complete = false) :
    draft.complete = false ∧ ((ofMember before name draft).andThen next).text =
        before ++ (stringLiteral name ++ ':' :: ' ' :: draft.text) ∨
      draft.complete = true ∧ next.complete = false ∧ ((ofMember before name draft).andThen next).text =
        before ++ (stringLiteral name ++ ':' :: ' ' :: (draft.text ++ next.text)) := by
  rcases andThen_incomplete h with ⟨hmember, htext⟩ | ⟨hmember, hnext, htext⟩
  · rcases andThen_incomplete hmember with ⟨hbefore, -⟩ | ⟨-, hdraft, hbehind⟩
    · cases hbefore
    · exact .inl ⟨hdraft, by rw [htext, ofMember, hbehind]; simp [ofText]⟩
  · obtain ⟨hdraft, hbehind⟩ := ofMember_complete hmember
    exact .inr ⟨hdraft, hnext, by rw [htext, hbehind]; simp⟩

end Draft

theorem Draft.ofContainer_incomplete {limit : Limit} {depth : Nat} {draft : Draft}
    (h : (ofContainer limit depth draft).complete = false) :
    (ofContainer limit depth draft).text = [] ∨ draft.complete = false ∧ ofContainer limit depth draft = draft := by
  unfold ofContainer at h ⊢
  split at h
  · next hallows => exact .inr ⟨h, if_pos hallows⟩
  · next hallows => exact .inl (by rw [if_neg hallows]; rfl)

variable {written limit : Limit}

/-- Whether a text is empty or begins with an array or an object. -/
def OpensOrEnds (text : List Char) : Prop := ∀ c ∈ text.head?, c = '[' ∨ c = '\x7b'

theorem opensOrEnds_draft {style : Style} {depth : Nat} {value : Json}
    (h : (draft written style depth value).complete = false) : OpensOrEnds (draft written style depth value).text := by
  match value with
  | null | bool _ | real _ | str _ => cases h
  | int n =>
    rw [draft] at h ⊢
    split at h
    · cases h
    · next hn =>
      rw [if_neg hn]
      exact nofun
  | arr [] | obj [] =>
    rw [draft] at h ⊢
    rcases Draft.ofContainer_incomplete h with htext | ⟨h, -⟩
    · rw [htext]
      exact nofun
    · cases h
  | arr (item :: items) =>
    rw [draft] at h ⊢
    rcases Draft.ofContainer_incomplete h with htext | ⟨h, hinside⟩
    · rw [htext]
      exact nofun
    rw [hinside]
    rcases Draft.ofItem_andThen_incomplete h with htext | ⟨-, htext⟩ | ⟨-, -, htext⟩ <;> rw [htext]
    · exact nofun
    all_goals exact fun c hc => .inl (Option.mem_some.mp hc).symm
  | obj ((name, value) :: members) =>
    rw [draft] at h ⊢
    rcases Draft.ofContainer_incomplete h with htext | ⟨h, hinside⟩
    · rw [htext]
      exact nofun
    rw [hinside]
    rcases Draft.ofMember_andThen_incomplete h with ⟨-, htext⟩ | ⟨-, -, htext⟩ <;> rw [htext]
    all_goals exact fun c hc => .inr (Option.mem_some.mp hc).symm

theorem endsNumber_draftItems (depth : Nat) {items : List Json} (h : (draftItems written .pretty depth items).complete = false) :
    EndsNumber (draftItems written .pretty depth items).text := by
  match items with
  | [] => cases h
  | item :: items =>
    rw [draftItems] at h ⊢
    rcases Draft.ofItem_andThen_incomplete h with htext | ⟨-, htext⟩ | ⟨-, -, htext⟩ <;> rw [htext]
    · exact nofun
    all_goals
      rintro c hc
      cases hc
      decide

theorem endsNumber_draftMembers (depth : Nat) {members : List (String × Json)}
    (h : (draftMembers written .pretty depth members).complete = false) :
    EndsNumber (draftMembers written .pretty depth members).text := by
  match members with
  | [] => cases h
  | (name, value) :: members =>
    rw [draftMembers] at h ⊢
    rcases Draft.ofMember_andThen_incomplete h with ⟨-, htext⟩ | ⟨-, -, htext⟩ <;> rw [htext]
    all_goals
      rintro c hc
      cases hc
      decide

theorem OpensOrEnds.skipGap {text : List Char} (h : OpensOrEnds text) : skipGap text = text := by
  match text with
  | [] => rfl
  | c :: more => rcases h c rfl with rfl | rfl <;> exact skipGap_cons rfl

/-! ## Reading -/

section

variable {fuel depth : Nat} {text : List Char} {failure : Failure}

theorem readValue_nil (limit : Limit) (depth fuel : Nat) : ∃ failure, readValue limit depth fuel [] = .error failure := by
  cases fuel <;> exact ⟨_, rfl⟩

/-- An array is read by its items, unless it is nested too deep. -/
theorem readValue_array (hgap : skipGap text = text) (hclose : ∀ rest, text ≠ ']' :: rest)
    (h : ∃ failure, readItems limit (depth + 1) fuel [] text = .error failure) :
    ∃ failure, readValue limit depth (fuel + 1) ('[' :: (newLine (depth + 1) ++ text)) = .error failure := by
  rw [readValue, skipGap_newLine_append, hgap]
  split
  · split
    · next rest => exact absurd rfl (hclose rest)
    · exact h
  · exact ⟨_, rfl⟩

/-- An object is read by its members, unless it is nested too deep. -/
theorem readValue_object (name : String)
    (h : ∃ failure, readMembers limit (depth + 1) fuel [] (stringLiteral name ++ text) = .error failure) :
    ∃ failure, readValue limit depth (fuel + 1) ('\x7b' :: (newLine (depth + 1) ++ (stringLiteral name ++ text))) =
      .error failure := by
  have hgap : skipGap (stringLiteral name ++ text) = stringLiteral name ++ text := skipGap_cons rfl
  rw [readValue, skipGap_newLine_append, hgap]
  split
  · exact h
  · exact ⟨_, rfl⟩

theorem readItems_error (h : readValue limit depth fuel text = .error failure) (read : List Json) :
    readItems limit depth (fuel + 1) read text = .error failure := by
  rw [readItems, h]
  rfl

theorem readMembers_error (h : readValue limit depth fuel text = .error failure) (hgap : skipGap text = text)
    (read : List (String × Json)) (name : String) :
    readMembers limit depth (fuel + 1) read (stringLiteral name ++ ':' :: ' ' :: text) = .error failure := by
  rw [readMembers, readName_stringLiteral name hgap]
  simp only [bind, Except.bind, h]

theorem OpensOrEnds.ne_close (h : OpensOrEnds text) (rest : List Char) : text ≠ ']' :: rest := by
  rintro rfl
  have := h ']' rfl
  simp at this

theorem IsReadAs.skipGap {value : Json} (h : IsReadAs limit depth text value) (rest : List Char) :
    skipGap (text ++ rest) = text ++ rest := by
  obtain ⟨c, more, rfl, hgap, -⟩ := h.begins
  exact skipGap_cons hgap

theorem IsReadAs.ne_close {value : Json} (h : IsReadAs limit depth text value) (behind rest : List Char) :
    text ++ behind ≠ ']' :: rest := by
  obtain ⟨c, more, rfl, -, hclose, -⟩ := h.begins
  exact fun heq => hclose (List.cons.inj heq).1

/-- What was written of a value to its end is read as the value. -/
theorem isReadAs_draft (limit : Limit) {value : Json} (hproper : value.Forall IsProper)
    (h : (draft written .pretty depth value).complete = true) :
    IsReadAs limit depth (draft written .pretty depth value).text value := by
  obtain ⟨htext, hdigits⟩ := draft_complete written .pretty depth value h
  rw [htext]
  exact isReadAs_render limit depth value hproper hdigits

end

section

variable (written limit : Limit)

mutual

/-- What was written of a value half-way is no value. -/
theorem readValue_draft (depth : Nat) (value : Json) (hproper : value.Forall IsProper)
    (h : (draft written .pretty depth value).complete = false) (fuel : Nat)
    (hfuel : 2 * (draft written .pretty depth value).text.length < fuel) :
    ∃ failure, readValue limit depth fuel (draft written .pretty depth value).text = .error failure := by
  obtain ⟨fuel, rfl⟩ : ∃ k, fuel = k + 1 := ⟨fuel - 1, by omega⟩
  match value with
  | null | bool _ | real _ | str _ => cases h
  | int n =>
    rw [draft] at h ⊢
    split at h
    · cases h
    · next hn =>
      rw [if_neg hn]
      exact readValue_nil _ _ _
  | arr [] | obj [] =>
    rw [draft] at h ⊢
    rcases Draft.ofContainer_incomplete h with htext | ⟨h, -⟩
    · rw [htext]
      exact readValue_nil _ _ _
    · cases h
  | arr (item :: items) =>
    rw [draft] at h hfuel ⊢
    rcases Draft.ofContainer_incomplete h with htext | ⟨h, hinside⟩
    · rw [htext]
      exact readValue_nil _ _ _
    rw [hinside] at hfuel ⊢
    rcases Draft.ofItem_andThen_incomplete h with htext | ⟨hitem, htext⟩ | ⟨hitem, hclosed, htext⟩ <;>
      rw [htext] at hfuel ⊢
    · exact readValue_nil _ _ _
    · have hopens := opensOrEnds_draft hitem
      rw [List.length_append, List.length_cons] at hfuel
      obtain ⟨fuel, rfl⟩ : ∃ k, fuel = k + 1 := ⟨fuel - 1, by omega⟩
      obtain ⟨failure, hread⟩ := readValue_draft (depth + 1) item hproper.2.1 hitem fuel (by omega)
      exact readValue_array hopens.skipGap hopens.ne_close ⟨failure, readItems_error hread []⟩
    · obtain ⟨hitems, hbehind⟩ := Draft.andThen_ofText_incomplete hclosed
      rw [hbehind] at hfuel ⊢
      rw [List.length_append, List.length_cons, List.length_append] at hfuel
      have hfirst := isReadAs_draft limit hproper.2.1 hitem
      exact readValue_array (hfirst.skipGap _) (hfirst.ne_close _)
        (readItems_draftItems (depth + 1) items hproper.2.2 hitems hfirst fuel [] (by omega))
  | obj ((name, value) :: members) =>
    rw [draft] at h hfuel ⊢
    rcases Draft.ofContainer_incomplete h with htext | ⟨h, hinside⟩
    · rw [htext]
      exact readValue_nil _ _ _
    rw [hinside] at hfuel ⊢
    rcases Draft.ofMember_andThen_incomplete h with ⟨hvalue, htext⟩ | ⟨hvalue, hclosed, htext⟩ <;>
      rw [htext] at hfuel ⊢
    · rw [List.length_append, List.length_cons, List.length_append, List.length_cons, List.length_cons] at hfuel
      obtain ⟨fuel, rfl⟩ : ∃ k, fuel = k + 1 := ⟨fuel - 1, by omega⟩
      obtain ⟨failure, hread⟩ := readValue_draft (depth + 1) value hproper.2.1 hvalue fuel (by omega)
      exact readValue_object name ⟨failure, readMembers_error hread (opensOrEnds_draft hvalue).skipGap [] name⟩
    · obtain ⟨hmembers, hbehind⟩ := Draft.andThen_ofText_incomplete hclosed
      rw [hbehind] at hfuel ⊢
      rw [List.length_append, List.length_cons, List.length_append, List.length_cons, List.length_cons,
        List.length_append] at hfuel
      exact readValue_object name (readMembers_draftMembers (depth + 1) members hproper.2.2 hmembers
        (isReadAs_draft limit hproper.2.1 hvalue) fuel [] name (by omega))
termination_by structural value

theorem readItems_draftItems (depth : Nat) (items : List Json) (hproper : ForallItems IsProper items)
    (h : (draftItems written .pretty depth items).complete = false) {text : List Char} {first : Json}
    (hfirst : IsReadAs limit depth text first) (fuel : Nat) (read : List Json)
    (hfuel : 2 * (text.length + (draftItems written .pretty depth items).text.length) + 1 < fuel) :
    ∃ failure, readItems limit depth fuel read (text ++ (draftItems written .pretty depth items).text) = .error failure := by
  obtain ⟨fuel, rfl⟩ : ∃ k, fuel = k + 1 := ⟨fuel - 1, by omega⟩
  rw [readItems, hfirst fuel _ (by omega) (endsNumber_draftItems depth h)]
  cases hwithin : first.isWithin limit depth with
  | false => exact ⟨_, rfl⟩
  | true =>
  match items with
  | [] => cases h
  | item :: items =>
    rw [draftItems] at h hfuel ⊢
    rcases Draft.ofItem_andThen_incomplete h with htext | ⟨hitem, htext⟩ | ⟨hitem, hrest, htext⟩ <;>
      rw [htext] at hfuel ⊢
    · exact ⟨_, rfl⟩
    · rw [List.length_append, List.length_cons] at hfuel
      obtain ⟨fuel, rfl⟩ : ∃ k, fuel = k + 1 := ⟨fuel - 1, by omega⟩
      obtain ⟨failure, hread⟩ := readValue_draft depth item hproper.1 hitem fuel (by omega)
      refine ⟨failure, ?_⟩
      change readItems limit depth (fuel + 1) (first :: read) (skipGap (newLine depth ++ _)) = _
      rw [skipGap_newLine_append, (opensOrEnds_draft hitem).skipGap, readItems_error hread]
    · rw [List.length_append, List.length_cons, List.length_append] at hfuel
      have hitem' := isReadAs_draft limit hproper.1 hitem
      obtain ⟨failure, hread⟩ := readItems_draftItems depth items hproper.2 hrest hitem' fuel (first :: read) (by omega)
      refine ⟨failure, ?_⟩
      change readItems limit depth fuel (first :: read) (skipGap (newLine depth ++ _)) = _
      rw [skipGap_newLine_append, hitem'.skipGap, hread]
termination_by structural items

theorem readMembers_draftMembers (depth : Nat) (members : List (String × Json))
    (hproper : ForallMembers IsProper members) (h : (draftMembers written .pretty depth members).complete = false)
    {text : List Char} {value : Json} (hvalue : IsReadAs limit depth text value) (fuel : Nat)
    (read : List (String × Json)) (name : String)
    (hfuel : 2 * (text.length + (draftMembers written .pretty depth members).text.length) + 1 < fuel) :
    ∃ failure, readMembers limit depth fuel read
      (stringLiteral name ++ ':' :: ' ' :: (text ++ (draftMembers written .pretty depth members).text)) =
        .error failure := by
  obtain ⟨fuel, rfl⟩ : ∃ k, fuel = k + 1 := ⟨fuel - 1, by omega⟩
  rw [readMembers, readName_stringLiteral name (hvalue.skipGap _)]
  simp only [bind, Except.bind, hvalue fuel _ (by omega) (endsNumber_draftMembers depth h)]
  cases hwithin : value.isWithin limit depth with
  | false => exact ⟨_, rfl⟩
  | true =>
  simp only [readBack, if_true]
  match members with
  | [] => cases h
  | (name', value') :: members =>
    rw [draftMembers] at h hfuel ⊢
    rcases Draft.ofMember_andThen_incomplete h with ⟨hvalue', htext⟩ | ⟨hvalue', hrest, htext⟩ <;>
      rw [htext] at hfuel ⊢
    · rw [List.length_append, List.length_cons, List.length_append, List.length_cons, List.length_cons] at hfuel
      obtain ⟨fuel, rfl⟩ : ∃ k, fuel = k + 1 := ⟨fuel - 1, by omega⟩
      obtain ⟨failure, hread⟩ := readValue_draft depth value' hproper.1 hvalue' fuel (by omega)
      refine ⟨failure, ?_⟩
      change readMembers limit depth (fuel + 1) (setMember name value read) (skipGap (newLine depth ++ _)) = _
      rw [skipGap_newLine_append]
      exact readMembers_error hread (opensOrEnds_draft hvalue').skipGap _ name'
    · rw [List.length_append, List.length_cons, List.length_append, List.length_cons, List.length_cons,
        List.length_append] at hfuel
      obtain ⟨failure, hread⟩ := readMembers_draftMembers depth members hproper.2 hrest
        (isReadAs_draft limit hproper.1 hvalue') fuel (setMember name value read) name' (by omega)
      refine ⟨failure, ?_⟩
      change readMembers limit depth fuel (setMember name value read) (skipGap (newLine depth ++ _)) = _
      rw [skipGap_newLine_append]
      exact hread
termination_by structural members

end

end

/-- **What was written of a document half-way cannot be read.** -/
theorem readWithin_incomplete (limit : Limit) {value : Json} (hproper : value.Forall IsProper)
    (h : (draft written .pretty 0 value).complete = false) :
    ∃ error, readWithin limit (String.ofList (draft written .pretty 0 value).text) = .error error := by
  have hopens := opensOrEnds_draft h
  obtain ⟨failure, hread⟩ := readValue_draft written limit 0 value hproper h _ (Nat.lt_succ_self _)
  rw [readWithin, String.toList_ofList, readDocument]
  · rw [hopens.skipGap, hread]
    exact ⟨_, rfl⟩
  · intro rest hmark
    have := hopens '\uFEFF' (by rw [hmark]; rfl)
    simp at this

/-! ## Files -/

section

variable {draft next : Draft} {before text behind : List Char}

theorem Draft.andThen_subset (h : draft.text ⊆ text) (h' : next.text ⊆ behind) :
    (draft.andThen next).text ⊆ text ++ behind := by
  unfold andThen
  split
  · exact List.append_subset.mpr ⟨List.subset_append_of_subset_left _ h, List.subset_append_of_subset_right _ h'⟩
  · exact List.subset_append_of_subset_left _ h

theorem Draft.ofItem_subset (h : draft.text ⊆ text) (item : Json) : (ofItem before item draft).text ⊆ before ++ text := by
  unfold ofItem
  split
  · exact List.nil_subset _
  · exact andThen_subset (List.Subset.refl _) h

theorem Draft.ofContainer_subset {limit : Limit} {depth : Nat} (h : draft.text ⊆ text) :
    (ofContainer limit depth draft).text ⊆ text := by
  unfold ofContainer
  split
  · exact h
  · exact List.nil_subset _

end

section

variable (written : Limit) (style : Style)

mutual

/-- What was written of a value is part of its text. -/
theorem draft_subset (depth : Nat) (value : Json) : (draft written style depth value).text ⊆ render style depth value := by
  match value with
  | null | bool _ | real _ | str _ => exact List.Subset.refl _
  | int n =>
    rw [draft]
    split
    · exact List.Subset.refl _
    · exact List.nil_subset _
  | arr [] | obj [] => exact Draft.ofContainer_subset (List.Subset.refl _)
  | arr (item :: items) =>
    rw [draft]
    refine Draft.ofContainer_subset
      (List.Subset.trans (Draft.andThen_subset (Draft.ofItem_subset (draft_subset (depth + 1) item) item)
        (Draft.andThen_subset (draftItems_subset (depth + 1) items) (List.Subset.refl _))) ?_)
    simp [render, Draft.ofText]
  | obj ((name, value) :: members) =>
    rw [draft]
    refine Draft.ofContainer_subset (List.Subset.trans
      (Draft.andThen_subset (Draft.andThen_subset (List.Subset.refl _) (draft_subset (depth + 1) value))
        (Draft.andThen_subset (draftMembers_subset (depth + 1) members) (List.Subset.refl _))) ?_)
    simp [render, Draft.ofText]
termination_by structural value

theorem draftItems_subset (depth : Nat) (items : List Json) :
    (draftItems written style depth items).text ⊆ renderItems style depth items := by
  match items with
  | [] => exact List.Subset.refl _
  | item :: items =>
    exact Draft.andThen_subset (Draft.ofItem_subset (draft_subset depth item) item) (draftItems_subset depth items)
termination_by structural items

theorem draftMembers_subset (depth : Nat) (members : List (String × Json)) :
    (draftMembers written style depth members).text ⊆ renderMembers style depth members := by
  match members with
  | [] => exact List.Subset.refl _
  | (name, value) :: members =>
    rw [draftMembers]
    refine List.Subset.trans
      (Draft.andThen_subset (Draft.andThen_subset (List.Subset.refl _) (draft_subset depth value))
        (draftMembers_subset depth members)) ?_
    simp [renderMembers, Draft.ofText]
termination_by structural members

end

end

/-- A file reads as what was written to it, whether it is complete or not. -/
theorem unifyLineEnds_draft (written : Limit) (value : Json) :
    Text.unifyLineEnds (String.ofList (draft written .pretty 0 value).text) =
      String.ofList (draft written .pretty 0 value).text := by
  refine Text.unifyLineEnds_eq_self fun hmem => return_not_mem_render 0 value (draft_subset written .pretty 0 value ?_)
  rwa [String.toList_ofList] at hmem

end DocOutline.Json
