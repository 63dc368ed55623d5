import DocOutline.Proofs.Tools.Searching

/-!
# The order of what is found

The points of a symbol are a sum over the words of a query, but what they amount to is simple: symbols that are named as the
query come first, then those whose names contain it, and then the others, those with more of its words in their names first.
Main statement `search_ranked`: a search finds each symbol that passes the filters and matches, once, and in this order,
provided that the documents that it compares with a pattern are texts; otherwise it fails (`search_error`).
-/

namespace DocOutline

/-! ## Words -/

namespace Text

variable {part text name : String}

theorem isPartOf_iff : isPartOf part text ↔ part.toList <:+: text.toList := occursIn_iff_isInfix

theorem isPartOf_self (text : String) : isPartOf text text := isPartOf_iff.mpr (List.infix_refl _)

theorem isPartOf_trans (h : isPartOf part text) (h' : isPartOf text name) : isPartOf part name :=
  isPartOf_iff.mpr ((isPartOf_iff.mp h).trans (isPartOf_iff.mp h'))

/-- A word is a stretch of the text that it is read from, where `read` is what is read of it so far. -/
theorem isInfix_of_mem_wordsAfter {read rest : List Char} {word : String} (h : word ∈ wordsAfter read rest) :
    word.toList <:+: read.reverse ++ rest := by
  induction rest generalizing read with
  | nil =>
    rw [wordsAfter] at h
    split at h
    · cases h
    · rw [List.mem_singleton.mp h, String.toList_ofList, List.append_nil]
  | cons c rest ih =>
    have hbehind : rest <:+: read.reverse ++ c :: rest := ⟨read.reverse ++ [c], [], by simp⟩
    rw [wordsAfter] at h
    split at h
    · split at h
      · exact (ih h).trans hbehind
      · obtain rfl | h := List.mem_cons.mp h
        · rw [String.toList_ofList]
          exact (List.prefix_append _ _).isInfix
        · exact (ih h).trans hbehind
    · simpa using ih h

theorem isPartOf_of_mem_words {word : String} (h : word ∈ words text) : isPartOf word text :=
  isPartOf_iff.mpr (isInfix_of_mem_wordsAfter h)

end Text

/-! ## Repetitions -/

theorem nodup_eraseDups {α : Type} [BEq α] [LawfulBEq α] (list : List α) : list.eraseDups.Nodup := by
  match list with
  | [] => exact List.nodup_nil
  | a :: list =>
    rw [List.eraseDups_cons, List.nodup_cons, List.mem_eraseDups]
    exact ⟨by simp, nodup_eraseDups _⟩
termination_by list.length
decreasing_by exact Nat.lt_succ_of_le (List.length_filter_le _ _)

theorem countP_eraseDups {α : Type} [DecidableEq α] (list : List α) (test : α → Bool) :
    list.eraseDups.countP test = (list.toFinset.filter (test ·)).card := by
  have hset : list.toFinset = list.eraseDups.toFinset := by
    ext a
    simp
  rw [hset, ← List.toFinset_filter, List.toFinset_card_of_nodup ((nodup_eraseDups list).filter _),
    List.countP_eq_length_filter]

/-! ## Sorting -/

section

variable {α : Type} {le : α → α → Bool} {list : List α} (htrans : ∀ a b c, le a b → le b c → le a c)
  (htotal : ∀ a b, le a b || le b a)

include htrans htotal

/-- Sorting leaves those that are equal for it in their order. -/
theorem filter_mergeSort {test : α → Bool} (htest : ∀ a b, test a → test b → le a b) :
    (list.mergeSort le).filter test = list.filter test := by
  have hequal : (list.filter test).Pairwise (le · ·) :=
    List.pairwise_of_forall_mem_list fun a ha b hb => htest a b (List.mem_filter.mp ha).2 (List.mem_filter.mp hb).2
  have hsublist := (List.sublist_mergeSort htrans htotal hequal List.filter_sublist).filter test
  rw [List.filter_filter] at hsublist
  simp only [Bool.and_self] at hsublist
  exact (hsublist.eq_of_length ((List.mergeSort_perm list le).filter test).length_eq.symm).symm

/-- What is sorted is in order, and in the order of before where that leaves a choice. -/
theorem pairwise_mergeSort_of_pairwise {r : α → α → Prop} (h : list.Pairwise r) :
    (list.mergeSort le).Pairwise fun a b => le a b ∧ (le b a → r a b) := by
  have hsorted := List.pairwise_mergeSort htrans htotal list
  rw [List.pairwise_iff_forall_sublist] at hsorted h ⊢
  intro a b hab
  refine ⟨hsorted hab, fun hba => h ?_⟩
  -- Those that are equal to both stand in the sorted list as they stood before.
  have htest : ∀ c d, (le a c && le c a) → (le a d && le d a) → le c d := fun c d hc hd => by
    rw [Bool.and_eq_true] at hc hd
    exact htrans c a d hc.2 hd.1
  have hboth := hab.filter fun c => le a c && le c a
  rw [filter_mergeSort htrans htotal htest] at hboth
  have hself : le a a := by simpa using htotal a a
  simp only [List.filter_cons, hself, hsorted hab, hba, Bool.and_self, if_true, List.filter_nil] at hboth
  exact hboth.trans List.filter_sublist

end

namespace Index

variable {text query name qualified : String} {symbol : Json} {symbols : List Json} {kind? pattern? : Option String}

/-! ## Points -/

/-- The points for the distinct words of a query: five for each in the name, one for each that is only in the qualified name. -/
def wordPoints (query name qualified : String) : Nat :=
  5 * ((Text.words query).toFinset.filter (Text.isPartOf · name)).card +
    ((Text.words query).toFinset.filter fun word => Text.isPartOf word qualified && !Text.isPartOf word name).card

theorem points_ofText (text name qualified : String) : (Query.ofText text).points name qualified =
    (if Text.lower text = name then 20 else if Text.isPartOf (Text.lower text) name then 10 else 0) +
      wordPoints (Text.lower text) name qualified := by
  rw [Query.points, Query.ofText, countP_eraseDups, countP_eraseDups, wordPoints, Nat.add_assoc]

/-- A name that contains a query contains all its words. -/
theorem wordPoints_of_isPartOf (h : Text.isPartOf query name) :
    wordPoints query name qualified = 5 * (Text.words query).toFinset.card := by
  have hword : ∀ word ∈ (Text.words query).toFinset, Text.isPartOf word name := fun word hword =>
    Text.isPartOf_trans (Text.isPartOf_of_mem_words (List.mem_toFinset.mp hword)) h
  have hnone : ((Text.words query).toFinset.filter fun word =>
      Text.isPartOf word qualified && !Text.isPartOf word name) = ∅ :=
    Finset.filter_eq_empty_iff.mpr fun word hmem => by simp [hword word hmem]
  rw [wordPoints, Finset.filter_true_of_mem hword, hnone, Finset.card_empty, Nat.add_zero]

/-- No symbol gets more points for words than one whose name contains all of them. -/
theorem wordPoints_le (query name qualified : String) :
    wordPoints query name qualified ≤ 5 * (Text.words query).toFinset.card := by
  have hsplit := Finset.card_filter_add_card_filter_not (s := (Text.words query).toFinset) (fun word => Text.isPartOf word name)
  have hrest : ((Text.words query).toFinset.filter fun word =>
        Text.isPartOf word qualified && !Text.isPartOf word name).card ≤
      ((Text.words query).toFinset.filter fun word => ¬ Text.isPartOf word name).card :=
    Finset.card_le_card (Finset.monotone_filter_right _ fun word h => by simp_all)
  rw [wordPoints]
  omega

theorem wordPoints_pos_iff : 0 < wordPoints query name qualified ↔
    ∃ word ∈ Text.words query, Text.isPartOf word name ∨ Text.isPartOf word qualified := by
  simp only [wordPoints, Nat.add_pos_iff_pos_or_pos, Nat.mul_pos_iff_of_pos_left (Nat.succ_pos 4), Finset.card_pos,
    Finset.Nonempty, Finset.mem_filter, List.mem_toFinset, Bool.and_eq_true, Bool.not_eq_true', ← exists_or, ← and_or_left]
  refine exists_congr fun word => and_congr_right fun _ => ?_
  cases Text.isPartOf word name <;> simp

theorem points_of_eq (h : Text.lower text = name) :
    (Query.ofText text).points name qualified = 20 + 5 * (Text.words (Text.lower text)).toFinset.card := by
  rw [points_ofText, if_pos h, wordPoints_of_isPartOf (h ▸ Text.isPartOf_self _)]

theorem points_of_isPartOf (hne : Text.lower text ≠ name) (h : Text.isPartOf (Text.lower text) name) :
    (Query.ofText text).points name qualified = 10 + 5 * (Text.words (Text.lower text)).toFinset.card := by
  rw [points_ofText, if_neg hne, if_pos h, wordPoints_of_isPartOf h]

theorem points_of_not_isPartOf (h : ¬ Text.isPartOf (Text.lower text) name) :
    (Query.ofText text).points name qualified = wordPoints (Text.lower text) name qualified := by
  have hne : Text.lower text ≠ name := fun heq => h (heq ▸ Text.isPartOf_self _)
  rw [points_ofText, if_neg hne, if_neg h, Nat.zero_add]

/-- A symbol has points for a query that its name contains, or with a word that is in its name or in its qualified one. -/
theorem points_pos_iff : 0 < (Query.ofText text).points name qualified ↔ Text.isPartOf (Text.lower text) name ∨
    ∃ word ∈ Text.words (Text.lower text), Text.isPartOf word name ∨ Text.isPartOf word qualified := by
  by_cases hpart : Text.isPartOf (Text.lower text) name
  · simp only [hpart, true_or, iff_true]
    by_cases heq : Text.lower text = name
    · rw [points_of_eq heq]
      omega
    · rw [points_of_isPartOf heq hpart]
      omega
  · simp only [points_of_not_isPartOf hpart, wordPoints_pos_iff, hpart, Bool.false_eq_true, false_or]

/-- No name that does not contain the query gets the points of one that does. -/
theorem isPartOf_of_points_le {name' qualified' : String}
    (hle : (Query.ofText text).points name' qualified' ≤ (Query.ofText text).points name qualified)
    (h : Text.isPartOf (Text.lower text) name') : Text.isPartOf (Text.lower text) name := by
  by_contra hnot
  have hwords := wordPoints_le (Text.lower text) name qualified
  rw [points_of_not_isPartOf hnot] at hle
  by_cases heq : Text.lower text = name'
  · rw [points_of_eq heq] at hle
    omega
  · rw [points_of_isPartOf heq h] at hle
    omega

/-- No other name gets the points of one that equals the query. -/
theorem eq_of_points_le {name' qualified' : String}
    (hle : (Query.ofText text).points name' qualified' ≤ (Query.ofText text).points name qualified)
    (h : Text.lower text = name') : Text.lower text = name := by
  by_contra hne
  have hpart := isPartOf_of_points_le hle (h ▸ Text.isPartOf_self _)
  rw [points_of_eq h, points_of_isPartOf hne hpart] at hle
  omega

/-! ## Symbols of an index -/

/-- The text that is a member of a symbol, and the empty one if there is none. -/
def textOf (member : String) (symbol : Json) : String :=
  match symbol.member? member with
  | some (.str text) => text
  | _ => ""

def HasText (member : String) (symbol : Json) : Prop := symbol.member? member = some (.str (textOf member symbol))

def nameOf (symbol : Json) : String := Text.lower (textOf "name" symbol)

def qualifiedNameOf (symbol : Json) : String := Text.lower (textOf "qualified_name" symbol)

/-- Whether a symbol is of a kind. None and the empty one stand for any. -/
def isOfKind (kind? : Option String) (symbol : Json) : Bool :=
  kind?.all fun kind => kind = "" || textOf "kind" symbol == kind

/-- Whether a symbol's document matches a pattern, or the pattern behind any folders. None and the empty one stand for any. -/
def isIn (pattern? : Option String) (symbol : Json) : Bool :=
  pattern?.all fun pattern =>
    pattern = "" || Text.matchesGlob pattern (textOf "file" symbol) || Text.matchesGlob ("*/" ++ pattern) (textOf "file" symbol)

def passes (kind? pattern? : Option String) (symbol : Json) : Bool := isOfKind kind? symbol && isIn pattern? symbol

/-- Whether a query is part of a symbol's name, or one of its words is part of the name or the qualified name. -/
def matchesQuery (text : String) (symbol : Json) : Bool :=
  Text.isPartOf (Text.lower text) (nameOf symbol) ||
    (Text.words (Text.lower text)).any fun word =>
      Text.isPartOf word (nameOf symbol) || Text.isPartOf word (qualifiedNameOf symbol)

/-- Whether it can be told if a symbol's document matches a pattern. -/
def HasFile (symbol : Json) : Prop := symbol.member? "file" = none ∨ HasText "file" symbol

/-- How two symbols that were found follow one another, each given with its position in the index. -/
structure Precedes (text : String) (first second : Json × Nat) : Prop where
  equal : nameOf second.1 = Text.lower text → nameOf first.1 = Text.lower text
  containing : Text.isPartOf (Text.lower text) (nameOf second.1) → Text.isPartOf (Text.lower text) (nameOf first.1)
  words : ¬ Text.isPartOf (Text.lower text) (nameOf first.1) →
    wordPoints (Text.lower text) (nameOf second.1) (qualifiedNameOf second.1) ≤
      wordPoints (Text.lower text) (nameOf first.1) (qualifiedNameOf first.1)
  order : score (Query.ofText text) first.1 = score (Query.ofText text) second.1 → first.2 < second.2

/-! ## The search -/

section

variable {other member : String} (hother : HasText other symbol)

include hother

theorem optionalMember_of_hasText : symbol.optionalMember member = .ok (symbol.member? member) := by
  cases symbol with
  | obj members => rfl
  | null | bool _ | int _ | real _ | str _ | arr _ => cases hother

theorem hasKind_of_hasText {kind : String} (hkind : kind ≠ "") :
    hasKind (filterOf (some kind)) symbol = .ok (textOf "kind" symbol == kind) := by
  have hempty : ("" == kind) = false := beq_false_of_ne hkind.symm
  change hasKind (.str kind) symbol = _
  rw [hasKind, optionalMember_of_hasText hother, textOf]
  refine congrArg Except.ok ?_
  cases symbol.member? "kind" with
  | none => exact hempty.symm
  | some value =>
    cases value with
    | str label => rfl
    | null | bool _ | int _ | arr _ | obj _ => exact hempty.symm
    | real x => cases (Json.real x).measure? <;> simp [Json.same, Json.measure?, hempty]

theorem inFiles_of_hasText {pattern : String} (hfile : HasFile symbol) : inFiles (filterOf (some pattern)) symbol =
    .ok (Text.matchesGlob pattern (textOf "file" symbol) || Text.matchesGlob ("*/" ++ pattern) (textOf "file" symbol)) := by
  change inFiles (.str pattern) symbol = _
  rw [inFiles, optionalMember_of_hasText hother]
  obtain hnone | htext := hfile
  · rw [textOf, hnone]
    rfl
  · rw [htext]
    rfl

theorem exists_error_of_not_hasFile (pattern : String) (hfile : ¬ HasFile symbol) :
    ∃ fault, inFiles (filterOf (some pattern)) symbol = .error fault := by
  rw [inFiles, optionalMember_of_hasText hother]
  cases hmember : symbol.member? "file" with
  | none => exact absurd (.inl hmember) hfile
  | some value =>
    cases value with
    | str file => exact absurd (.inr (by rw [HasText, textOf, hmember])) hfile
    | null | bool _ | int _ | real _ | arr _ | obj _ => exact ⟨_, rfl⟩

theorem kindFilter_of_hasText : (if (filterOf kind?).isPresent then hasKind (filterOf kind?) symbol else .ok true) =
    .ok (isOfKind kind? symbol) := by
  cases kind? with
  | none => rfl
  | some kind =>
    by_cases hempty : kind = ""
    · simp [isPresent_filterOf, isOfKind, hempty]
    · simpa [isPresent_filterOf, isOfKind, hempty] using hasKind_of_hasText hother hempty

theorem isAdmitted_of_hasText
    (hfile : ∀ pattern ∈ pattern?, pattern ≠ "" → isOfKind kind? symbol → HasFile symbol) :
    isAdmitted (filterOf kind?) (filterOf pattern?) symbol = .ok (passes kind? pattern? symbol) := by
  rw [isAdmitted, kindFilter_of_hasText hother, passes]
  cases hpasses : isOfKind kind? symbol with
  | false => rfl
  | true =>
    change (if (filterOf pattern?).isPresent then inFiles (filterOf pattern?) symbol else .ok true) = .ok (isIn pattern? symbol)
    cases pattern? with
    | none => rfl
    | some pattern =>
      by_cases hempty : pattern = ""
      · simp [isPresent_filterOf, isIn, hempty]
      · simpa [isPresent_filterOf, isIn, hempty] using inFiles_of_hasText hother (hfile pattern rfl hempty hpasses)

end

theorem lowerMember_of_hasText {member : String} (h : HasText member symbol) :
    lowerMember member symbol = .ok (Text.lower (textOf member symbol)) := by
  rw [lowerMember, optionalMember_of_hasText h, h]
  rfl

/-- Whether a symbol has texts as its names. -/
structure IsNamed (symbol : Json) : Prop where
  name : HasText "name" symbol
  qualifiedName : HasText "qualified_name" symbol

theorem IsNamed.score_eq (h : IsNamed symbol) (query : Query) :
    score query symbol = .ok (query.points (nameOf symbol) (qualifiedNameOf symbol)) := by
  rw [score, lowerMember_of_hasText h.name, lowerMember_of_hasText h.qualifiedName]
  rfl

theorem forall_of_mapM_eq_ok {ε α β : Type} {f : α → Except ε β} {as : List α} {bs : List β}
    (h : as.mapM f = .ok bs) : ∀ a ∈ as, ∃ b, f a = .ok b := by
  induction as generalizing bs with
  | nil => exact nofun
  | cons a as ih =>
    rw [List.mapM_cons] at h
    obtain ⟨first, hfirst, h⟩ := Grammar.exists_of_bind_eq_ok h
    obtain ⟨others, hothers, -⟩ := Grammar.exists_of_bind_eq_ok h
    exact List.forall_mem_cons.mpr ⟨⟨first, hfirst⟩, ih hothers⟩

theorem mapM_eq_ok_of_forall {ε α β : Type} {f : α → Except ε β} {g : α → β} {as : List α}
    (h : ∀ a ∈ as, f a = .ok (g a)) : as.mapM f = .ok (as.map g) := by
  induction as with
  | nil => rfl
  | cons a as ih =>
    obtain ⟨hfirst, hrest⟩ := List.forall_mem_cons.mp h
    rw [List.mapM_cons, hfirst, ih hrest]
    rfl

def isFound (text : String) (kind? pattern? : Option String) (symbol : Json) : Bool :=
  passes kind? pattern? symbol && matchesQuery text symbol

def pointsFor (text : String) (symbol : Json) : Nat := (Query.ofText text).points (nameOf symbol) (qualifiedNameOf symbol)

theorem pointsFor_pos_iff : 0 < pointsFor text symbol ↔ matchesQuery text symbol := by
  rw [pointsFor, points_pos_iff, matchesQuery]
  simp

theorem found_of_named (hnamed : ∀ symbol ∈ symbols, IsNamed symbol)
    (hfiles : ∀ pattern ∈ pattern?, pattern ≠ "" → ∀ symbol ∈ symbols, isOfKind kind? symbol → HasFile symbol) :
    found (Query.ofText text) (filterOf kind?) (filterOf pattern?) symbols =
      .ok ((symbols.filter (isFound text kind? pattern?)).map fun symbol => (pointsFor text symbol, symbol)) := by
  have hscored : ∀ symbol ∈ symbols, (do
      return (← scoreIfAdmitted (Query.ofText text) (filterOf kind?) (filterOf pattern?) symbol).map
        fun points => (points, symbol)) =
      Except.ok (if passes kind? pattern? symbol then some (pointsFor text symbol, symbol) else none) := by
    intro symbol hsymbol
    have hfile := fun pattern hpattern hne => hfiles pattern hpattern hne symbol hsymbol
    rw [scoreIfAdmitted, isAdmitted_of_hasText (hnamed symbol hsymbol).name hfile, (hnamed symbol hsymbol).score_eq]
    cases passes kind? pattern? symbol <;> rfl
  rw [found, mapM_eq_ok_of_forall hscored]
  refine congrArg Except.ok ?_
  rw [List.filterMap_map, List.filter_filterMap, ← List.filterMap_eq_filter, List.map_filterMap]
  refine List.filterMap_congr fun symbol _ => ?_
  have hpoints : decide (0 < pointsFor text symbol) = matchesQuery text symbol :=
    Bool.eq_iff_iff.mpr (decide_eq_true_iff.trans pointsFor_pos_iff)
  cases hpasses : passes kind? pattern? symbol <;> cases hmatches : matchesQuery text symbol <;>
    simp [isFound, Option.guard, Option.filter, hpasses, hmatches, hpoints]

/-- Symbols that are put in the order of their points, and of the index where these are equal, come in tiers. -/
theorem Precedes.of_points {first second : Json × Nat} (hfirst : IsNamed first.1) (hsecond : IsNamed second.1)
    (hpoints : pointsFor text second.1 ≤ pointsFor text first.1)
    (horder : pointsFor text first.1 ≤ pointsFor text second.1 → first.2 < second.2) : Precedes text first second := by
  have hle := hpoints
  rw [pointsFor, pointsFor] at hle
  constructor
  case equal => exact fun heq => (eq_of_points_le hle heq.symm).symm
  case containing => exact isPartOf_of_points_le hle
  case words =>
    intro hnot
    have hnot' := mt (isPartOf_of_points_le hle) hnot
    rwa [points_of_not_isPartOf hnot, points_of_not_isPartOf hnot'] at hle
  case order =>
    intro heq
    rw [hfirst.score_eq, hsecond.score_eq] at heq
    exact horder (Except.ok.inj heq).le

/-- **What is found, and in which order.** (`search` and `score_symbol`; specification, section 10.6.) -/
theorem search_ranked (hnamed : ∀ symbol ∈ symbols, IsNamed symbol)
    (hfiles : ∀ pattern ∈ pattern?, pattern ≠ "" → ∀ symbol ∈ symbols, isOfKind kind? symbol → HasFile symbol) :
    ∃ ranked : List (Json × Nat),
      search (Query.ofText text) (filterOf kind?) (filterOf pattern?) symbols = .ok (ranked.map Prod.fst) ∧
      ranked.Perm (symbols.zipIdx.filter (isFound text kind? pattern? ·.1)) ∧ ranked.Pairwise (Precedes text) := by
  let le (first second : Json × Nat) : Bool := pointsFor text second.1 ≤ pointsFor text first.1
  have hpositions : (symbols.zipIdx.filter (isFound text kind? pattern? ·.1)).Pairwise (·.2 < ·.2) := by
    refine List.Pairwise.filter _ (List.pairwise_map.mp ?_)
    rw [List.zipIdx_map_snd]
    exact List.pairwise_lt_range'
  have htrans : ∀ a b c, le a b → le b c → le a c := by
    simp [le]
    omega
  have htotal : ∀ a b, le a b || le b a := by
    simp [le]
    omega
  have hsorted := pairwise_mergeSort_of_pairwise htrans htotal hpositions
  refine ⟨_, ?_, List.mergeSort_perm _ le, hsorted.imp_of_mem fun hfirst hsecond hle => ?_⟩
  case refine_1 =>
    have hcandidates : symbols.filter (isFound text kind? pattern?) =
        (symbols.zipIdx.filter (isFound text kind? pattern? ·.1)).map Prod.fst := by
      conv_lhs => rw [← List.zipIdx_map_fst 0 symbols, List.filter_map]
      rfl
    have hsort := List.map_mergeSort (r := le) (s := fun first second : Nat × Json => second.1 ≤ first.1)
      (f := fun symbol => (pointsFor text symbol.1, symbol.1)) (l := symbols.zipIdx.filter (isFound text kind? pattern? ·.1))
      fun _ _ _ _ => rfl
    rw [search, found_of_named hnamed hfiles, hcandidates, List.map_map]
    refine congrArg Except.ok ?_
    rw [Function.comp_def, ← hsort, List.map_map]
    rfl
  case refine_2 =>
    have hmem : ∀ symbol ∈ (symbols.zipIdx.filter (isFound text kind? pattern? ·.1)).mergeSort le, IsNamed symbol.1 := by
      intro symbol hsymbol
      rw [List.mem_mergeSort, List.mem_filter] at hsymbol
      exact hnamed _ (List.fst_mem_of_mem_zipIdx hsymbol.1)
    exact .of_points (hmem _ hfirst) (hmem _ hsecond) (of_decide_eq_true hle.1) fun h => hle.2 (decide_eq_true h)

/-- Two symbols of the same document, the second of which is named as the query `x`. -/
def filedSymbols : List Json :=
  [.obj [("name", .str "x and y"), ("qualified_name", .str "x and y"), ("file", .str "docs/a.typ")],
    .obj [("name", .str "X"), ("qualified_name", .str "x and y.X"), ("file", .str "docs/a.typ")]]

theorem search_ranked_filedSymbols : ∃ ranked : List (Json × Nat),
    search (Query.ofText "x") (filterOf none) (filterOf (some "*.typ")) filedSymbols = .ok (ranked.map Prod.fst) ∧
    ranked.Perm (filedSymbols.zipIdx.filter (isFound "x" none (some "*.typ") ·.1)) ∧ ranked.Pairwise (Precedes "x") := by
  have hnamed : ∀ symbol ∈ filedSymbols, IsNamed symbol ∧ HasFile symbol := by
    simp only [filedSymbols, List.forall_mem_cons, List.not_mem_nil, false_imp_iff, implies_true, and_true]
    exact ⟨⟨⟨rfl, rfl⟩, .inr rfl⟩, ⟨⟨rfl, rfl⟩, .inr rfl⟩⟩
  exact search_ranked (fun symbol hsymbol => (hnamed symbol hsymbol).1) fun _ _ _ symbol hsymbol _ => (hnamed symbol hsymbol).2

/-- A search fails if it has to compare a pattern with a document that is no text. -/
theorem search_error {pattern : String} (hpattern : pattern ≠ "") (hsymbol : symbol ∈ symbols) (hnamed : IsNamed symbol)
    (hkind : isOfKind kind? symbol) (hfile : ¬ HasFile symbol) :
    ∃ fault, search (Query.ofText text) (filterOf kind?) (filterOf (some pattern)) symbols = .error fault := by
  cases hsearch : search (Query.ofText text) (filterOf kind?) (filterOf (some pattern)) symbols with
  | error fault => exact ⟨fault, rfl⟩
  | ok results =>
    obtain ⟨pairs, hfound, -⟩ := Grammar.exists_of_bind_eq_ok hsearch
    obtain ⟨scored, hscored, -⟩ := Grammar.exists_of_bind_eq_ok hfound
    obtain ⟨_, hrun⟩ := forall_of_mapM_eq_ok hscored symbol hsymbol
    obtain ⟨points?, hscore, -⟩ := Grammar.exists_of_bind_eq_ok hrun
    obtain ⟨admitted, hadmitted, -⟩ := Grammar.exists_of_bind_eq_ok hscore
    obtain ⟨fault, hfault⟩ := exists_error_of_not_hasFile hnamed.name pattern hfile
    rw [isAdmitted, kindFilter_of_hasText hnamed.name, hkind, isPresent_filterOf, hfault,
      decide_eq_true hpattern] at hadmitted
    cases hadmitted

def unfiledSymbol : Json :=
  .obj [("id", .str "s"), ("name", .str "x"), ("qualified_name", .str "x"), ("file", .null)]

theorem search_unfiledSymbol : IsNamed unfiledSymbol ∧
    search (Query.ofText "x") (filterOf none) (filterOf (some "*.typ")) [unfiledSymbol] = .error (.notPath "NoneType") :=
  ⟨⟨rfl, rfl⟩, rfl⟩

end Index

end DocOutline
