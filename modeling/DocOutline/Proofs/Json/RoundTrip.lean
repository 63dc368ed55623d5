import DocOutline.Proofs.Json.Numbers
import DocOutline.Proofs.Json.Strings

/-!
# Values are read back from their text

A value is read back from its pretty text unless it is nested too deep (`readWithin_pretty`). Three more things can stand in the
way: an integer of too many digits, which is refused, a floating-point number that is none of those a text can stand for, and
an object with two members of one name, of which the second takes the place of the first.

The text that is written of a value piece by piece is its pretty text, if it is complete (`draft_complete`), which it is
if all integers have few enough digits and nothing is nested too deep (`draft_of_hasFewDigits`).
-/

namespace DocOutline.Json

mutual

/-- Whether a value and all values in it have a property. -/
def Forall (p : Json → Prop) : Json → Prop
  | arr items => p (arr items) ∧ ForallItems p items
  | obj members => p (obj members) ∧ ForallMembers p members
  | value => p value
termination_by structural value => value

/-- Whether all items and all values in them have a property. -/
def ForallItems (p : Json → Prop) : List Json → Prop
  | [] => True
  | item :: items => Forall p item ∧ ForallItems p items
termination_by structural items => items

def ForallMembers (p : Json → Prop) : List (String × Json) → Prop
  | [] => True
  | (_, value) :: members => Forall p value ∧ ForallMembers p members
termination_by structural members => members

end

theorem forallItems_iff {p : Json → Prop} {items : List Json} : ForallItems p items ↔ ∀ item ∈ items, item.Forall p := by
  induction items with
  | nil => simp [ForallItems]
  | cons item items ih => rw [ForallItems, ih, List.forall_mem_cons]

/-- Whether a value, apart from those in it, is one that text can stand for: no two members have one name, and a
floating-point number is one of those that are written. -/
def IsProper : Json → Prop
  | real x => IsWritten x
  | obj members => (members.map Prod.fst).Nodup
  | _ => True

/-- Whether a value is none but an integer of few enough digits. -/
def HasFewDigits (value : Json) : Prop := value.isUnwritable = false

mutual

/-- Whether a recursion may go through a value that lies in `depth` others. -/
def isWithin (limit : Limit) (depth : Nat) : Json → Bool
  | arr items => limit.allows depth && itemsAreWithin limit (depth + 1) items
  | obj members => limit.allows depth && membersAreWithin limit (depth + 1) members
  | _ => true
termination_by structural value => value

/-- Whether a recursion may go through items that lie in the same `depth` others. -/
def itemsAreWithin (limit : Limit) (depth : Nat) : List Json → Bool
  | [] => true
  | item :: items => isWithin limit depth item && itemsAreWithin limit depth items
termination_by structural items => items

/-- Whether a recursion may go through the values of members that lie in the same `depth` others. -/
def membersAreWithin (limit : Limit) (depth : Nat) : List (String × Json) → Bool
  | [] => true
  | (_, value) :: members => isWithin limit depth value && membersAreWithin limit depth members
termination_by structural members => members

end

mutual

@[simp]
theorem isWithin_none (depth : Nat) (value : Json) : value.isWithin none depth = true := by
  match value with
  | null | bool _ | int _ | real _ | str _ => rfl
  | arr items => rw [isWithin, itemsAreWithin_none (depth + 1) items]; rfl
  | obj members => rw [isWithin, membersAreWithin_none (depth + 1) members]; rfl
termination_by structural value

theorem itemsAreWithin_none (depth : Nat) (items : List Json) : itemsAreWithin none depth items = true := by
  match items with
  | [] => rfl
  | item :: items => rw [itemsAreWithin, isWithin_none depth item, itemsAreWithin_none depth items]; rfl
termination_by structural items

theorem membersAreWithin_none (depth : Nat) (members : List (String × Json)) : membersAreWithin none depth members = true := by
  match members with
  | [] => rfl
  | (_, value) :: members => rw [membersAreWithin, isWithin_none depth value, membersAreWithin_none depth members]; rfl
termination_by structural members

end

/-! ## Drafts -/

theorem Draft.andThen_complete {draft next : Draft} (h : (draft.andThen next).complete = true) :
    draft.complete = true ∧ next.complete = true ∧ (draft.andThen next).text = draft.text ++ next.text := by
  unfold andThen at h ⊢
  by_cases hdraft : draft.complete = true
  · rw [if_pos hdraft] at h ⊢
    exact ⟨hdraft, h, rfl⟩
  · rw [if_neg hdraft] at h
    exact absurd h hdraft

theorem Draft.ofItem_complete {before : List Char} {item : Json} {draft : Draft}
    (h : (ofItem before item draft).complete = true) :
    draft.complete = true ∧ (ofItem before item draft).text = before ++ draft.text := by
  unfold ofItem at h ⊢
  split at h
  · cases h
  · next hitem =>
    obtain ⟨-, hcomplete, htext⟩ := andThen_complete h
    exact ⟨hcomplete, by rw [if_neg hitem, htext]; rfl⟩

theorem Draft.ofMember_complete {before : List Char} {name : String} {draft : Draft}
    (h : (ofMember before name draft).complete = true) :
    draft.complete = true ∧
      (ofMember before name draft).text = before ++ stringLiteral name ++ ':' :: ' ' :: draft.text := by
  obtain ⟨-, hcomplete, htext⟩ := andThen_complete h
  refine ⟨hcomplete, htext.trans ?_⟩
  simp [ofText]

theorem Draft.ofContainer_complete {limit : Limit} {depth : Nat} {draft : Draft}
    (h : (ofContainer limit depth draft).complete = true) :
    draft.complete = true ∧ ofContainer limit depth draft = draft := by
  unfold ofContainer at h ⊢
  split at h
  · next hallows => exact ⟨h, if_pos hallows⟩
  · cases h

section

variable (limit : Limit) (style : Style)

mutual

/-- **A complete draft is the text of the value**, all of whose integers then have few enough digits. -/
theorem draft_complete (depth : Nat) (value : Json) (h : (draft limit style depth value).complete = true) :
    (draft limit style depth value).text = render style depth value ∧ value.Forall HasFewDigits := by
  match value with
  | null | bool _ | real _ | str _ => exact ⟨rfl, rfl⟩
  | int n =>
    by_cases hn : isWritable n
    · exact ⟨by rw [draft, if_pos hn]; rfl, by simp [Forall, HasFewDigits, isUnwritable, hn]⟩
    · rw [draft, if_neg hn] at h
      cases h
  | arr [] =>
    rw [draft] at h ⊢
    exact ⟨by rw [(Draft.ofContainer_complete h).2]; rfl, rfl, trivial⟩
  | arr (item :: items) =>
    rw [draft] at h ⊢
    obtain ⟨h, hinside⟩ := Draft.ofContainer_complete h
    obtain ⟨hfirst, hrest, htext⟩ := Draft.andThen_complete h
    obtain ⟨hitem, hbefore⟩ := Draft.ofItem_complete hfirst
    obtain ⟨hitems, -, hclosed⟩ := Draft.andThen_complete hrest
    obtain ⟨hitemtext, hitemdigits⟩ := draft_complete (depth + 1) item hitem
    obtain ⟨hitemstext, hitemsdigits⟩ := draftItems_complete (depth + 1) items hitems
    refine ⟨?_, rfl, hitemdigits, hitemsdigits⟩
    rw [hinside, htext, hbefore, hclosed, hitemtext, hitemstext]
    simp [render, Draft.ofText]
  | obj [] =>
    rw [draft] at h ⊢
    exact ⟨by rw [(Draft.ofContainer_complete h).2]; rfl, rfl, trivial⟩
  | obj ((name, value) :: members) =>
    rw [draft] at h ⊢
    obtain ⟨h, hinside⟩ := Draft.ofContainer_complete h
    obtain ⟨hfirst, hrest, htext⟩ := Draft.andThen_complete h
    obtain ⟨hvalue, hbefore⟩ := Draft.ofMember_complete hfirst
    obtain ⟨hmembers, -, hclosed⟩ := Draft.andThen_complete hrest
    obtain ⟨hvaluetext, hvaluedigits⟩ := draft_complete (depth + 1) value hvalue
    obtain ⟨hmemberstext, hmembersdigits⟩ := draftMembers_complete (depth + 1) members hmembers
    refine ⟨?_, rfl, hvaluedigits, hmembersdigits⟩
    rw [hinside, htext, hbefore, hclosed, hvaluetext, hmemberstext]
    simp [render, Draft.ofText]

theorem draftItems_complete (depth : Nat) (items : List Json) (h : (draftItems limit style depth items).complete = true) :
    (draftItems limit style depth items).text = renderItems style depth items ∧ ForallItems HasFewDigits items := by
  match items with
  | [] => exact ⟨rfl, trivial⟩
  | item :: items =>
    rw [draftItems] at h ⊢
    obtain ⟨hfirst, hrest, htext⟩ := Draft.andThen_complete h
    obtain ⟨hitem, hbefore⟩ := Draft.ofItem_complete hfirst
    obtain ⟨hitemtext, hitemdigits⟩ := draft_complete depth item hitem
    obtain ⟨hitemstext, hitemsdigits⟩ := draftItems_complete depth items hrest
    exact ⟨by rw [htext, hbefore, hitemtext, hitemstext, renderItems], hitemdigits, hitemsdigits⟩

theorem draftMembers_complete (depth : Nat) (members : List (String × Json))
    (h : (draftMembers limit style depth members).complete = true) :
    (draftMembers limit style depth members).text = renderMembers style depth members ∧
      ForallMembers HasFewDigits members := by
  match members with
  | [] => exact ⟨rfl, trivial⟩
  | (name, value) :: members =>
    rw [draftMembers] at h ⊢
    obtain ⟨hfirst, hrest, htext⟩ := Draft.andThen_complete h
    obtain ⟨hvalue, hbefore⟩ := Draft.ofMember_complete hfirst
    obtain ⟨hvaluetext, hvaluedigits⟩ := draft_complete depth value hvalue
    obtain ⟨hmemberstext, hmembersdigits⟩ := draftMembers_complete depth members hrest
    exact ⟨by rw [htext, hbefore, hvaluetext, hmemberstext, renderMembers], hvaluedigits, hmembersdigits⟩

end

end

theorem Draft.andThen_of_complete {draft next : Draft} (h : draft.complete = true) (h' : next.complete = true) :
    (draft.andThen next).complete = true := by
  rw [andThen, if_pos h]
  exact h'

theorem Draft.ofItem_of_complete {before : List Char} {item : Json} {draft : Draft} (hitem : item.Forall HasFewDigits)
    (h : draft.complete = true) : (ofItem before item draft).complete = true := by
  have hwritable : item.isUnwritable = false := by
    match item with
    | int n => exact hitem
    | null | bool _ | real _ | str _ | arr _ | obj _ => rfl
  rw [ofItem, hwritable, if_neg (by decide)]
  refine andThen_of_complete ?_ h
  rfl

theorem Draft.ofMember_of_complete {draft : Draft} (before : List Char) (name : String) (h : draft.complete = true) :
    (ofMember before name draft).complete = true := by
  refine andThen_of_complete ?_ h
  rfl

theorem Draft.ofContainer_of_complete {limit : Limit} {depth : Nat} {draft : Draft} (hallows : limit.allows depth = true)
    (h : draft.complete = true) : (ofContainer limit depth draft).complete = true := by
  rw [ofContainer, if_pos hallows, h]

section

variable (limit : Limit) (style : Style)

mutual

/-- A draft is complete if all integers have few enough digits and nothing is nested too deep. -/
theorem draft_of_hasFewDigits (depth : Nat) (value : Json) (h : value.Forall HasFewDigits) (hwithin : value.isWithin limit depth = true) :
    (draft limit style depth value).complete = true := by
  match value with
  | null | bool _ | real _ | str _ => rfl
  | int n =>
    have hn : isWritable n = true := by simpa [Forall, HasFewDigits, isUnwritable] using h
    rw [draft, if_pos hn]
    rfl
  | arr [] | obj [] => exact Draft.ofContainer_of_complete (Bool.and_eq_true_iff.mp hwithin).1 rfl
  | arr (item :: items) =>
    obtain ⟨-, hitem, hitems⟩ := h
    obtain ⟨hallows, hinside⟩ := Bool.and_eq_true_iff.mp hwithin
    obtain ⟨hitemwithin, hitemswithin⟩ := Bool.and_eq_true_iff.mp hinside
    have hfirst := draft_of_hasFewDigits (depth + 1) item hitem hitemwithin
    have hrest := draftItems_of_hasFewDigits (depth + 1) items hitems hitemswithin
    exact Draft.ofContainer_of_complete hallows
      (Draft.andThen_of_complete (Draft.ofItem_of_complete hitem hfirst) (Draft.andThen_of_complete hrest rfl))
  | obj ((name, value) :: members) =>
    obtain ⟨-, hvalue, hmembers⟩ := h
    obtain ⟨hallows, hinside⟩ := Bool.and_eq_true_iff.mp hwithin
    obtain ⟨hvaluewithin, hmemberswithin⟩ := Bool.and_eq_true_iff.mp hinside
    have hfirst := draft_of_hasFewDigits (depth + 1) value hvalue hvaluewithin
    have hrest := draftMembers_of_hasFewDigits (depth + 1) members hmembers hmemberswithin
    exact Draft.ofContainer_of_complete hallows
      (Draft.andThen_of_complete (Draft.ofMember_of_complete _ name hfirst) (Draft.andThen_of_complete hrest rfl))

theorem draftItems_of_hasFewDigits (depth : Nat) (items : List Json) (h : ForallItems HasFewDigits items)
    (hwithin : itemsAreWithin limit depth items = true) : (draftItems limit style depth items).complete = true := by
  match items with
  | [] => rfl
  | item :: items =>
    obtain ⟨hitemwithin, hitemswithin⟩ := Bool.and_eq_true_iff.mp hwithin
    have hfirst := draft_of_hasFewDigits depth item h.1 hitemwithin
    exact Draft.andThen_of_complete (Draft.ofItem_of_complete h.1 hfirst)
      (draftItems_of_hasFewDigits depth items h.2 hitemswithin)

theorem draftMembers_of_hasFewDigits (depth : Nat) (members : List (String × Json)) (h : ForallMembers HasFewDigits members)
    (hwithin : membersAreWithin limit depth members = true) : (draftMembers limit style depth members).complete = true := by
  match members with
  | [] => rfl
  | (name, value) :: members =>
    obtain ⟨hvaluewithin, hmemberswithin⟩ := Bool.and_eq_true_iff.mp hwithin
    have hfirst := draft_of_hasFewDigits depth value h.1 hvaluewithin
    exact Draft.andThen_of_complete (Draft.ofMember_of_complete _ name hfirst)
      (draftMembers_of_hasFewDigits depth members h.2 hmemberswithin)

end

end

/-! ## Reading -/

section

variable {rest text : List Char} {c : Char}

theorem skipGap_cons (h : isGap c = false) : skipGap (c :: rest) = c :: rest := by
  rw [skipGap, List.dropWhile_cons_of_neg (by rw [h]; decide)]

theorem skipGap_newLine_append (depth : Nat) (text : List Char) : skipGap (newLine depth ++ text) = skipGap text := by
  have hgap : ∀ d ∈ newLine depth, isGap d = true := by
    intro d hd
    rcases List.mem_cons.mp hd with rfl | hd
    · rfl
    · rw [List.eq_of_mem_replicate hd]; rfl
  exact List.dropWhile_append_of_pos hgap

theorem skipGap_newLine (depth : Nat) (h : isGap c = false) : skipGap (newLine depth ++ c :: rest) = c :: rest := by
  rw [skipGap_newLine_append, skipGap_cons h]

/-- Whether a value may begin with a character. It begins with neither white space, nor the end of an array, nor a mark of
the byte order. -/
def BeginsValue (c : Char) : Prop := isGap c = false ∧ c ≠ ']' ∧ c ≠ '\uFEFF'

/-- What can be read as a value, or is one that is nested too deep, begins like one. -/
theorem beginsValue_of_readValue {limit : Limit} {depth fuel : Nat}
    (h : (∃ result, readValue limit depth fuel text = .ok result) ∨ readValue limit depth fuel text = .error .tooDeep) :
    ∃ c more, text = c :: more ∧ BeginsValue c := by
  match fuel, text with
  | 0, _ => rcases h with ⟨_, h⟩ | h <;> cases h
  | _ + 1, [] => rcases h with ⟨_, h⟩ | h <;> cases h
  | fuel + 1, c :: more =>
    refine ⟨c, more, rfl, ?_, ?_, ?_⟩
    · cases hgap : isGap c with
      | false => rfl
      | true =>
        simp only [isGap, Bool.or_eq_true, decide_eq_true_eq] at hgap
        rcases hgap with ((rfl | rfl) | rfl) | rfl <;> rcases h with ⟨_, h⟩ | h <;> cases h
    all_goals rintro rfl; rcases h with ⟨_, h⟩ | h <;> cases h

/-- What can be read as a number or a word is read so. -/
theorem readValue_of_readPlain {limit : Limit} {depth fuel : Nat} {result : Json × List Char}
    (h : readPlain text = .ok result) : readValue limit depth (fuel + 1) text = .ok result := by
  unfold readValue
  split
  · cases h
  · cases h
  · cases h
  · exact h

/-- The text behind the first of several items, up to the end of the array. -/
def itemsBehind (depth : Nat) (items : List Json) (rest : List Char) : List Char :=
  renderItems .pretty (depth + 1) items ++ (newLine depth ++ ']' :: rest)

/-- The text behind the first of several members, up to the end of the object. -/
def membersBehind (depth : Nat) (members : List (String × Json)) (rest : List Char) : List Char :=
  renderMembers .pretty (depth + 1) members ++ (newLine depth ++ '\x7d' :: rest)

theorem endsNumber_itemsBehind (depth : Nat) (items : List Json) (rest : List Char) :
    EndsNumber (itemsBehind depth items rest) := by
  rintro c hc
  cases items <;> cases hc <;> decide

theorem endsNumber_membersBehind (depth : Nat) (members : List (String × Json)) (rest : List Char) :
    EndsNumber (membersBehind depth members rest) := by
  rintro c hc
  cases members <;> cases hc <;> decide

theorem setMember_of_not_mem {name : String} {value : Json} {read : List (String × Json)}
    (h : name ∉ read.map Prod.fst) : setMember name value read = read ++ [(name, value)] := by
  induction read with
  | nil => rfl
  | cons member read ih =>
    obtain ⟨other, old⟩ := member
    rw [List.map_cons, List.mem_cons, not_or] at h
    rw [setMember, if_neg (Ne.symm h.1), ih h.2, List.cons_append]

theorem readName_stringLiteral (name : String) (h : skipGap text = text) :
    readName (stringLiteral name ++ ':' :: ' ' :: text) = .ok (name, text) := by
  have hliteral : stringLiteral name ++ ':' :: ' ' :: text =
      '"' :: (name.toList.flatMap escapeChar ++ '"' :: ':' :: ' ' :: text) := by
    simp [stringLiteral]
  rw [hliteral, readName, expectChar, if_pos rfl]
  simp only [bind, Except.bind]
  rw [readString_stringLiteral]
  simp only [skipGap_cons (c := ':') rfl, expectChar, if_true]
  rw [skipGap, List.dropWhile_cons_of_pos rfl, ← skipGap, h]

end

/-- What reading gives for a value from its text, with `rest` behind it: the value, unless it is nested too deep. -/
def readBack (within : Bool) (value : Json) (rest : List Char) : Except Failure (Json × List Char) :=
  if within then .ok (value, rest) else .error .tooDeep

/-- Whether a text is read as a value that lies in `depth` others, whatever stands behind it that is no part of a number. -/
def IsReadAs (limit : Limit) (depth : Nat) (text : List Char) (value : Json) : Prop :=
  ∀ fuel rest, 2 * text.length < fuel → EndsNumber rest →
    readValue limit depth fuel (text ++ rest) = readBack (value.isWithin limit depth) value rest

theorem IsReadAs.begins {limit : Limit} {depth : Nat} {text : List Char} {value : Json} (h : IsReadAs limit depth text value) :
    ∃ c more, text = c :: more ∧ BeginsValue c := by
  have hread := h (2 * text.length + 1) [] (Nat.lt_succ_self _) nofun
  rw [List.append_nil] at hread
  cases hwithin : value.isWithin limit depth with
  | false => exact beginsValue_of_readValue (.inr (by rw [hread, hwithin]; rfl))
  | true => exact beginsValue_of_readValue (.inl ⟨(value, []), by rw [hread, hwithin]; rfl⟩)

section

variable (limit : Limit)

mutual

/-- A value is read back from its text. -/
theorem isReadAs_render (depth : Nat) (value : Json) (hproper : value.Forall IsProper) (hdigits : value.Forall HasFewDigits) :
    IsReadAs limit depth (render .pretty depth value) value := by
  intro fuel rest hfuel hrest
  obtain ⟨fuel, rfl⟩ : ∃ k, fuel = k + 1 := ⟨fuel - 1, by omega⟩
  match value with
  | null => exact readValue_of_readPlain rfl
  | bool b => cases b <;> exact readValue_of_readPlain rfl
  | int n =>
    refine readValue_of_readPlain (readPlain_integerText ?_ hrest)
    simpa [Forall, HasFewDigits, isUnwritable, isWritable] using hdigits
  | real x => exact readValue_of_readPlain (readPlain_realText hproper hrest)
  | str s =>
    have hliteral : stringLiteral s ++ rest = '"' :: (s.toList.flatMap escapeChar ++ '"' :: rest) := by
      simp [stringLiteral]
    rw [render, hliteral, readValue, readString_stringLiteral]
    rfl
  | arr [] =>
    rw [render, List.cons_append, readValue, isWithin, itemsAreWithin, Bool.and_true]
    rfl
  | arr (item :: items) =>
    have hitem := isReadAs_render (depth + 1) item hproper.2.1 hdigits.2.1
    obtain ⟨c, more, htext, hgap, hclose, -⟩ := hitem.begins
    have hread := readItems_render depth items hproper.2.2 hdigits.2.2 hitem fuel [] rest (by
      simp only [render, List.length_append, List.length_cons] at hfuel
      omega)
    have harray : render .pretty depth (arr (item :: items)) ++ rest =
        '[' :: (newLine (depth + 1) ++ (render .pretty (depth + 1) item ++ itemsBehind depth items rest)) := by
      simp [render, itemsBehind, Style.pretty]
    rw [harray, readValue, isWithin]
    cases hallows : limit.allows depth with
    | false => rfl
    | true =>
      rw [if_pos rfl, Bool.true_and, htext, List.cons_append, skipGap_newLine _ hgap]
      rw [htext, List.cons_append] at hread
      split
      · next h => exact absurd (List.cons.inj h).1 hclose
      · exact hread
  | obj [] =>
    rw [render, List.cons_append, readValue, isWithin, membersAreWithin, Bool.and_true]
    rfl
  | obj ((name, value) :: members) =>
    have hvalue := isReadAs_render (depth + 1) value hproper.2.1 hdigits.2.1
    have hread := readMembers_render depth members hproper.2.2 hdigits.2.2 hvalue fuel [] name rest hproper.1 (by
      simp only [render, List.length_append, List.length_cons] at hfuel
      omega)
    have hobject : render .pretty depth (obj ((name, value) :: members)) ++ rest =
        '\x7b' :: (newLine (depth + 1) ++ '"' :: ((stringLiteral name).tail ++
          ':' :: ' ' :: (render .pretty (depth + 1) value ++ membersBehind depth members rest))) := by
      simp [render, membersBehind, Style.pretty, stringLiteral]
    rw [hobject, readValue, isWithin]
    cases hallows : limit.allows depth with
    | false => rfl
    | true =>
      rw [if_pos rfl, Bool.true_and, skipGap_newLine _ rfl]
      exact hread

theorem readItems_render (depth : Nat) (items : List Json) (hproper : ForallItems IsProper items) (hdigits : ForallItems HasFewDigits items)
    {text : List Char} {first : Json} (hfirst : IsReadAs limit (depth + 1) text first) (fuel : Nat) (read : List Json)
    (rest : List Char) (hfuel : 2 * (text.length + (renderItems .pretty (depth + 1) items).length) + 1 < fuel) :
    readItems limit (depth + 1) fuel read (text ++ itemsBehind depth items rest) =
      readBack (itemsAreWithin limit (depth + 1) (first :: items)) (arr (read.reverse ++ first :: items)) rest := by
  obtain ⟨fuel, rfl⟩ : ∃ k, fuel = k + 1 := ⟨fuel - 1, by omega⟩
  rw [readItems, hfirst fuel _ (by omega) (endsNumber_itemsBehind depth items rest), itemsAreWithin]
  cases hwithin : first.isWithin limit (depth + 1) with
  | false => rfl
  | true =>
  rw [Bool.true_and, readBack, if_pos rfl]
  match items with
  | [] =>
    simp only [bind, Except.bind, itemsBehind, renderItems, List.nil_append, skipGap_newLine depth (c := ']') rfl,
      List.reverse_cons, itemsAreWithin, readBack, if_true]
  | item :: items =>
    have hitem := isReadAs_render (depth + 1) item hproper.1 hdigits.1
    obtain ⟨c, more, htext, hgap, -⟩ := hitem.begins
    have hbehind : itemsBehind depth (item :: items) rest =
        ',' :: (newLine (depth + 1) ++ (render .pretty (depth + 1) item ++ itemsBehind depth items rest)) := by
      simp [itemsBehind, renderItems, Style.pretty]
    have hskip : skipGap (newLine (depth + 1) ++ (render .pretty (depth + 1) item ++ itemsBehind depth items rest)) =
        render .pretty (depth + 1) item ++ itemsBehind depth items rest := by
      rw [htext, List.cons_append, skipGap_newLine _ hgap]
    have hread := readItems_render depth items hproper.2 hdigits.2 hitem fuel (first :: read) rest (by
      simp only [renderItems, List.length_append, List.length_cons] at hfuel
      omega)
    rw [List.reverse_cons, List.append_assoc, List.singleton_append] at hread
    rw [hbehind]
    simp only [bind, Except.bind, skipGap_cons (c := ',') rfl]
    change readItems limit (depth + 1) fuel (first :: read) (skipGap _) = _
    rw [hskip, hread]

theorem readMembers_render (depth : Nat) (members : List (String × Json)) (hproper : ForallMembers IsProper members)
    (hdigits : ForallMembers HasFewDigits members) {text : List Char} {value : Json}
    (hvalue : IsReadAs limit (depth + 1) text value) (fuel : Nat) (read : List (String × Json)) (name : String)
    (rest : List Char) (hnames : ((read ++ (name, value) :: members).map Prod.fst).Nodup)
    (hfuel : 2 * (text.length + (renderMembers .pretty (depth + 1) members).length) + 1 < fuel) :
    readMembers limit (depth + 1) fuel read
        (stringLiteral name ++ ':' :: ' ' :: (text ++ membersBehind depth members rest)) =
      readBack (membersAreWithin limit (depth + 1) ((name, value) :: members)) (obj (read ++ (name, value) :: members)) rest := by
  obtain ⟨fuel, rfl⟩ : ∃ k, fuel = k + 1 := ⟨fuel - 1, by omega⟩
  obtain ⟨c, more, rfl, hgap, -⟩ := hvalue.begins
  have hnew : name ∉ read.map Prod.fst := by
    rw [List.map_append, List.nodup_append] at hnames
    exact fun h => hnames.2.2 name h name (.head _) rfl
  have hmember := hvalue fuel (membersBehind depth members rest) (by omega)
    (endsNumber_membersBehind depth members rest)
  rw [List.cons_append] at hmember ⊢
  rw [readMembers, readName_stringLiteral name (skipGap_cons hgap), membersAreWithin]
  simp only [bind, Except.bind, hmember]
  cases hwithin : value.isWithin limit (depth + 1) with
  | false => rfl
  | true =>
  simp only [readBack, if_true, setMember_of_not_mem hnew, Bool.true_and]
  match members with
  | [] =>
    simp only [membersBehind, renderMembers, List.nil_append, skipGap_newLine depth (c := '\x7d') rfl, membersAreWithin,
      if_true]
  | (name', value') :: members =>
    have hvalue' := isReadAs_render (depth + 1) value' hproper.1 hdigits.1
    have hread := readMembers_render depth members hproper.2 hdigits.2 hvalue' fuel (read ++ [(name, value)]) name' rest
      (by simpa using hnames) (by
        simp only [renderMembers, List.length_append, List.length_cons] at hfuel
        omega)
    have hbehind : membersBehind depth ((name', value') :: members) rest =
        ',' :: (newLine (depth + 1) ++ '"' :: ((stringLiteral name').tail ++
          ':' :: ' ' :: (render .pretty (depth + 1) value' ++ membersBehind depth members rest))) := by
      simp [membersBehind, renderMembers, Style.pretty, stringLiteral]
    rw [hbehind, skipGap_cons (c := ',') rfl]
    change readMembers limit (depth + 1) fuel (read ++ [(name, value)]) (skipGap _) = _
    rw [skipGap_newLine _ rfl]
    refine hread.trans ?_
    rw [List.append_assoc, List.singleton_append]
    rfl

end

end

/-- The text of a value can be read as a document. -/
theorem readDocument_render (limit : Limit) {value : Json} (hproper : value.Forall IsProper)
    (hdigits : value.Forall HasFewDigits) :
    readDocument limit (render .pretty 0 value) = if value.isWithin limit 0 then .ok value else .error .tooDeep := by
  have hread := isReadAs_render limit 0 value hproper hdigits
  obtain ⟨c, more, htext, hgap, -, hmark⟩ := hread.begins
  have hvalue := hread (2 * (c :: more).length + 1) [] (by rw [htext]; exact Nat.lt_succ_self _) nofun
  rw [htext, List.append_nil] at hvalue
  rw [htext, readDocument]
  · rw [skipGap_cons hgap, hvalue]
    cases value.isWithin limit 0 <;> rfl
  · exact fun _ h => hmark (List.cons.inj h).1

/-- **A value is read back from its text**, unless it is nested too deep. -/
theorem readWithin_pretty (limit : Limit) {value : Json} (hproper : value.Forall IsProper)
    (hdigits : value.Forall HasFewDigits) :
    readWithin limit value.pretty = if value.isWithin limit 0 then .ok value else .error .tooDeep := by
  rw [readWithin, pretty, String.toList_ofList, readDocument_render limit hproper hdigits]
  cases value.isWithin limit 0 <;> rfl

end DocOutline.Json
