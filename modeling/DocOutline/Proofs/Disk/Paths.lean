import Mathlib
import DocOutline.Disk.Basic

/-!
# Paths by their texts

Where a path leads is a matter of its text alone (`Path.target`), and so are the places that are passed on the way there
(`Path.stops`). A plain text, without roots, points and empty names, leads from any folder to what is called so below it.
Names with slashes between them make a plain text, from which they are read back (`names_intercalate`). What stands in front of
a slash in a text is the end of one of its pieces (`isInfix_iff_pieces`).
-/

namespace DocOutline

namespace Path

variable {here : Place} {parts more : List String} {text text' part : String}

def start (folder : Place) (path : Path) : Place := if path.root = "" then folder else []

/-- Where a path leads from a working folder, if it can be followed. -/
def target (folder : Place) (path : Path) : Place := follow (path.start folder) path.parts

/-- The places that are left again on the way along names. -/
def stops : (here : Place) → List String → List Place
  | _, [] => []
  | here, part :: parts => here :: stops (if part = ".." then here.dropLast else here ++ [part]) parts

theorem follow_append (here : Place) (parts more : List String) :
    follow here (parts ++ more) = follow (follow here parts) more := by
  induction parts generalizing here with
  | nil => rfl
  | cons part parts ih => rw [List.cons_append, follow, follow, ih]

theorem stops_append (here : Place) (parts more : List String) :
    stops here (parts ++ more) = stops here parts ++ stops (follow here parts) more := by
  induction parts generalizing here with
  | nil => rfl
  | cons part parts ih => rw [List.cons_append, stops, stops, follow, ih, List.cons_append]

theorem follow_of_plain (h : ".." ∉ parts) : follow here parts = here ++ parts := by
  induction parts generalizing here with
  | nil => rw [follow, List.append_nil]
  | cons part parts ih =>
    rw [List.mem_cons, not_or] at h
    rw [follow, if_neg (Ne.symm h.1), ih h.2, List.append_assoc]
    rfl

/-- The place that names lead to has the names of the place they start from, and of them those that do not lead back. -/
theorem mem_follow (h : part ∈ follow here parts) : part ∈ here ∨ part ∈ parts ∧ part ≠ ".." := by
  induction parts generalizing here with
  | nil => exact .inl h
  | cons next parts ih =>
    rw [follow] at h
    rcases ih h with hhere | ⟨hpart, hback⟩
    · split at hhere
      · exact .inl (List.dropLast_subset _ hhere)
      · next hnext =>
        rcases List.mem_append.mp hhere with hhere | hlast
        · exact .inl hhere
        · rw [List.mem_singleton.mp hlast]
          exact .inr ⟨.head _, hnext⟩
    · exact .inr ⟨.tail _ hpart, hback⟩

/-- Along plain names, the stops are the places that the first few of them lead to. -/
theorem mem_stops_of_plain (h : ".." ∉ parts) {stop : Place} :
    stop ∈ stops here parts ↔ ∃ before part after, parts = before ++ part :: after ∧ stop = here ++ before := by
  induction parts generalizing here with
  | nil => simp [stops]
  | cons part parts ih =>
    rw [List.mem_cons, not_or] at h
    rw [stops, if_neg (Ne.symm h.1), List.mem_cons, ih h.2]
    constructor
    · rintro (rfl | ⟨before, next, after, rfl, rfl⟩)
      · exact ⟨[], part, parts, rfl, (List.append_nil _).symm⟩
      · exact ⟨part :: before, next, after, rfl, by simp⟩
    · rintro ⟨before, next, after, heq, rfl⟩
      cases before with
      | nil => exact .inl (List.append_nil _)
      | cons first before =>
        obtain ⟨rfl, rfl⟩ := List.cons.inj heq
        exact .inr ⟨before, next, after, rfl, by simp⟩

/-! ## Plain texts -/

def IsName (text : String) : Prop := '/' ∉ text.toList ∧ text ≠ "" ∧ text ≠ "." ∧ text ≠ ".."

instance (text : String) : Decidable (IsName text) := inferInstanceAs (Decidable (_ ∧ _))

/-- Whether a text is a path without a root, empty names or points. -/
def IsPlain (text : String) : Prop := ∀ piece ∈ pieces text.toList, isName piece = true ∧ piece ≠ ['.', '.']

instance (text : String) : Decidable (IsPlain text) := inferInstanceAs (Decidable (∀ _ ∈ _, _))

theorem pieces_slash (rest : List Char) : pieces ('/' :: rest) = [] :: pieces rest := rfl

/-- A character that is no slash belongs to the first piece. -/
theorem pieces_cons {c : Char} (h : c ≠ '/') (rest : List Char) :
    ∃ piece others, pieces rest = piece :: others ∧ pieces (c :: rest) = (c :: piece) :: others := by
  induction rest generalizing c with
  | nil => exact ⟨[], [], rfl, by rw [pieces, if_neg h]; rfl⟩
  | cons d rest ih =>
    by_cases hd : d = '/'
    · subst hd
      exact ⟨[], pieces rest, rfl, by rw [pieces, if_neg h]; rfl⟩
    · obtain ⟨piece, others, -, hpieces⟩ := ih hd
      exact ⟨d :: piece, others, hpieces, by rw [pieces, if_neg h, hpieces]⟩

theorem pieces_ne_nil (cs : List Char) : pieces cs ≠ [] := by
  cases cs with
  | nil => exact List.cons_ne_nil _ _
  | cons c rest =>
    by_cases h : c = '/'
    · rw [h, pieces_slash]
      exact List.cons_ne_nil _ _
    · obtain ⟨piece, others, -, hpieces⟩ := pieces_cons h rest
      rw [hpieces]
      exact List.cons_ne_nil _ _

theorem pieces_of_not_mem {cs : List Char} (h : '/' ∉ cs) : pieces cs = [cs] := by
  induction cs with
  | nil => rfl
  | cons c rest ih =>
    rw [List.mem_cons, not_or] at h
    rw [pieces, if_neg (Ne.symm h.1), ih h.2]

/-- A slash parts the pieces in front of it from those behind it. -/
theorem pieces_append (cs rest : List Char) : pieces (cs ++ '/' :: rest) = pieces cs ++ pieces rest := by
  induction cs with
  | nil => rfl
  | cons c cs ih =>
    by_cases hc : c = '/'
    · subst hc
      rw [List.cons_append, pieces_slash, ih, pieces_slash, List.cons_append]
    · obtain ⟨piece, others, hcs, hpieces⟩ := pieces_cons hc cs
      obtain ⟨piece', others', hall, hpieces'⟩ := pieces_cons hc (cs ++ '/' :: rest)
      rw [ih, hcs, List.cons_append] at hall
      obtain ⟨rfl, rfl⟩ := List.cons.inj hall
      rw [List.cons_append, hpieces', hpieces, List.cons_append]

theorem pieces_append_slash {cs : List Char} (h : '/' ∉ cs) (rest : List Char) :
    pieces (cs ++ '/' :: rest) = cs :: pieces rest := by
  rw [pieces_append, pieces_of_not_mem h, List.singleton_append]

theorem slash_not_mem_of_mem_pieces {cs piece : List Char} (h : piece ∈ pieces cs) : '/' ∉ piece := by
  induction cs generalizing piece with
  | nil => rw [List.mem_singleton.mp h]; exact List.not_mem_nil
  | cons c rest ih =>
    by_cases hc : c = '/'
    · subst hc
      rcases List.mem_cons.mp h with rfl | hrest
      · exact List.not_mem_nil
      · exact ih hrest
    · obtain ⟨first, others, hrest, hpieces⟩ := pieces_cons hc rest
      rw [hpieces] at h
      rw [hrest] at ih
      rcases List.mem_cons.mp h with rfl | hother
      · rw [List.mem_cons, not_or]
        exact ⟨Ne.symm hc, ih (.head _)⟩
      · exact ih (.tail _ hother)

/-- The pieces of names with slashes between them are the names. -/
theorem pieces_intercalate (hparts : parts ≠ []) (h : ∀ part ∈ parts, '/' ∉ part.toList) :
    pieces ("/".intercalate parts).toList = parts.map String.toList := by
  rw [String.toList_intercalate]
  induction parts with
  | nil => exact absurd rfl hparts
  | cons part parts ih =>
    rw [List.forall_mem_cons] at h
    cases parts with
    | nil => simpa using pieces_of_not_mem h.1
    | cons next parts =>
      rw [List.map_cons, List.intercalate_cons_of_ne_nil (by simp), List.append_assoc]
      exact (pieces_append_slash h.1 _).trans (congrArg _ (ih (List.cons_ne_nil _ _) h.2))

/-- The pieces of a text say what the text is. -/
theorem pieces_injective {cs cs' : List Char} (h : pieces cs = pieces cs') : cs = cs' := by
  induction cs generalizing cs' with
  | nil =>
    cases cs' with
    | nil => rfl
    | cons c' rest' =>
      by_cases hc' : c' = '/'
      · subst hc'
        exact absurd (List.cons.inj h).2.symm (pieces_ne_nil rest')
      · obtain ⟨piece, others, -, hpieces⟩ := pieces_cons hc' rest'
        rw [hpieces] at h
        cases h
  | cons c rest ih =>
    by_cases hc : c = '/'
    · subst hc
      cases cs' with
      | nil => exact absurd (List.cons.inj h).2 (pieces_ne_nil rest)
      | cons c' rest' =>
        by_cases hc' : c' = '/'
        · subst hc'
          rw [ih (List.cons.inj h).2]
        · obtain ⟨piece, others, -, hpieces⟩ := pieces_cons hc' rest'
          rw [hpieces] at h
          cases h
    · obtain ⟨piece, others, hrest, hpieces⟩ := pieces_cons hc rest
      rw [hpieces] at h
      cases cs' with
      | nil => cases h
      | cons c' rest' =>
        by_cases hc' : c' = '/'
        · subst hc'
          cases h
        · obtain ⟨piece', others', hrest', hpieces'⟩ := pieces_cons hc' rest'
          rw [hpieces'] at h
          cases h
          rw [ih (hrest.trans hrest'.symm)]

/-! ## Pieces with a slash behind them -/

/-- Characters that are no slashes, at the end of a text, are at the end of its last piece. -/
theorem exists_pieces_append {name : List Char} (h : '/' ∉ name) (cs : List Char) :
    ∃ front last, pieces (cs ++ name) = front ++ [last ++ name] := by
  induction cs with
  | nil => exact ⟨[], [], pieces_of_not_mem h⟩
  | cons c cs ih =>
    obtain ⟨front, last, hpieces⟩ := ih
    by_cases hc : c = '/'
    · subst hc
      exact ⟨[] :: front, last, by rw [List.cons_append, pieces_slash, hpieces, List.cons_append]⟩
    · obtain ⟨piece, others, hrest, hall⟩ := pieces_cons hc (cs ++ name)
      rw [hpieces] at hrest
      cases front with
      | nil =>
        obtain ⟨rfl, rfl⟩ := List.cons.inj hrest
        exact ⟨[], c :: last, hall⟩
      | cons first front =>
        obtain ⟨rfl, rfl⟩ := List.cons.inj hrest
        exact ⟨(c :: first) :: front, last, hall⟩

/-- Behind the first of several pieces there is a slash, and then the others. -/
theorem exists_behind_first {cs first : List Char} {others : List (List Char)} (h : pieces cs = first :: others)
    (hothers : others ≠ []) : ∃ behind, cs = first ++ '/' :: behind ∧ pieces behind = others := by
  induction cs generalizing first with
  | nil =>
    obtain ⟨-, rfl⟩ := List.cons.inj h
    exact absurd rfl hothers
  | cons c rest ih =>
    by_cases hc : c = '/'
    · subst hc
      obtain ⟨rfl, rfl⟩ := List.cons.inj h
      exact ⟨rest, rfl, rfl⟩
    · obtain ⟨piece, others', hrest, hpieces⟩ := pieces_cons hc rest
      rw [hpieces] at h
      obtain ⟨rfl, rfl⟩ := List.cons.inj h
      obtain ⟨behind, hsplit, hbehind⟩ := ih hrest
      exact ⟨behind, congrArg (c :: ·) hsplit, hbehind⟩

/-- Every piece but the last has a slash behind it. -/
theorem exists_of_mem_dropLast {cs piece : List Char} (h : piece ∈ (pieces cs).dropLast) :
    ∃ before behind, cs = before ++ piece ++ '/' :: behind := by
  induction hpieces : pieces cs generalizing cs with
  | nil => exact absurd hpieces (pieces_ne_nil cs)
  | cons first others ih =>
    by_cases hothers : others = []
    · rw [hpieces, hothers] at h
      cases h
    · rw [hpieces, List.dropLast_cons_of_ne_nil hothers] at h
      obtain ⟨behind, rfl, hbehind⟩ := exists_behind_first hpieces hothers
      rcases List.mem_cons.mp h with rfl | hmem
      · exact ⟨[], behind, rfl⟩
      · rw [← hbehind] at hmem
        obtain ⟨before, after, rfl⟩ := ih hmem hbehind
        exact ⟨first ++ '/' :: before, after, by simp⟩

/-- **A name stands in front of a slash** in a text just where a piece ends with it that is not the last. -/
theorem isInfix_iff_pieces {cs name : List Char} (h : '/' ∉ name) :
    name ++ ['/'] <:+: cs ↔ ∃ piece ∈ (pieces cs).dropLast, name <:+ piece := by
  constructor
  · rintro ⟨before, behind, rfl⟩
    obtain ⟨front, last, hpieces⟩ := exists_pieces_append h before
    have hsplit : before ++ (name ++ ['/']) ++ behind = (before ++ name) ++ '/' :: behind := by simp
    rw [hsplit, pieces_append, hpieces, List.dropLast_append_of_ne_nil (pieces_ne_nil behind)]
    exact ⟨last ++ name, by simp, List.suffix_append _ _⟩
  · rintro ⟨piece, hpiece, front, rfl⟩
    obtain ⟨before, behind, rfl⟩ := exists_of_mem_dropLast hpiece
    exact ⟨before ++ front, behind, by simp⟩

/-- A character that is no slash is in a piece. -/
theorem exists_mem_pieces {cs : List Char} {c : Char} (h : c ∈ cs) (hc : c ≠ '/') : ∃ piece ∈ pieces cs, c ∈ piece := by
  induction cs with
  | nil => cases h
  | cons d rest ih =>
    rw [List.mem_cons] at h
    by_cases hd : d = '/'
    · subst hd
      obtain ⟨piece, hpiece, hmem⟩ := ih (h.resolve_left hc)
      exact ⟨piece, .tail _ hpiece, hmem⟩
    · obtain ⟨first, others, hrest, hpieces⟩ := pieces_cons hd rest
      rw [hpieces]
      rcases h with rfl | hbehind
      · exact ⟨c :: first, .head _, .head _⟩
      · obtain ⟨piece, hpiece, hmem⟩ := ih hbehind
        rw [hrest] at hpiece
        rcases List.mem_cons.mp hpiece with rfl | hother
        · exact ⟨d :: piece, .head _, .tail _ hmem⟩
        · exact ⟨piece, .tail _ hother, hmem⟩

theorem IsName.isPlain (h : IsName text) : IsPlain text := by
  obtain ⟨hslash, hempty, hpoint, hpoints⟩ := h
  have hne {s : String} (hs : text ≠ s) : text.toList ≠ s.toList := mt String.toList_inj.mp hs
  intro piece hpiece
  rw [pieces_of_not_mem hslash, List.mem_singleton] at hpiece
  subst hpiece
  refine ⟨?_, hne hpoints⟩
  simp only [isName, Bool.and_eq_true, bne_iff_ne]
  exact ⟨hne hempty, hne hpoint⟩

theorem IsPlain.names_eq (h : IsPlain text) : names text = (pieces text.toList).map String.ofList := by
  rw [names, List.filter_eq_self.mpr fun piece hpiece => (h piece hpiece).1]

theorem IsPlain.names_ne_nil (h : IsPlain text) : names text ≠ [] := by
  rw [h.names_eq, Ne, List.map_eq_nil_iff]
  exact pieces_ne_nil _

/-- A plain text does not lead back. -/
theorem IsPlain.not_mem_names (h : IsPlain text) : ".." ∉ names text := by
  rw [h.names_eq, List.mem_map]
  rintro ⟨piece, hpiece, heq⟩
  exact (h piece hpiece).2 (by rw [← String.toList_ofList (l := piece), heq]; rfl)

/-- Different plain texts have different names. -/
theorem IsPlain.eq_of_names_eq (h : IsPlain text) (h' : IsPlain text') (heq : names text = names text') :
    text = text' := by
  rw [h.names_eq, h'.names_eq] at heq
  have hofList : Function.Injective String.ofList := fun cs cs' hcs => by
    rw [← String.toList_ofList (l := cs), hcs, String.toList_ofList]
  exact String.toList_inj.mp (pieces_injective (List.map_injective_iff.mpr hofList heq))

theorem IsPlain.rootOf_eq (h : IsPlain text) : rootOf text = "" := by
  rw [rootOf]
  cases hcs : text.toList with
  | nil => rfl
  | cons c rest =>
    have hc : c ≠ '/' := by
      rintro rfl
      have := (h [] (by rw [hcs, pieces_slash]; exact .head _)).1
      cases this
    rw [List.takeWhile_cons_of_neg (by simpa using hc)]
    rfl

/-- A plain text is joined to a path by its names. -/
theorem IsPlain.join_eq (h : IsPlain text) (path : Path) :
    path.join text = ⟨path.root, path.parts ++ names text⟩ := by
  rw [join, ofText, h.rootOf_eq, if_pos rfl]

theorem IsName.names_eq (h : IsName text) : names text = [text] := by
  rw [h.isPlain.names_eq, pieces_of_not_mem h.1]
  simp

/-- A name in a text leads back or is one name. -/
theorem isName_of_mem_names (h : part ∈ names text) (hback : part ≠ "..") : IsName part := by
  obtain ⟨piece, hpiece, rfl⟩ := List.mem_map.mp h
  obtain ⟨hmem, hname⟩ := List.mem_filter.mp hpiece
  simp only [isName, Bool.and_eq_true, bne_iff_ne] at hname
  have hne {s : String} (hs : piece ≠ s.toList) : String.ofList piece ≠ s := by
    rintro rfl
    exact hs String.toList_ofList.symm
  refine ⟨?_, hne hname.1, hne hname.2, hback⟩
  rw [String.toList_ofList]
  exact slash_not_mem_of_mem_pieces hmem

theorem isPlain_intercalate (hparts : parts ≠ []) (h : ∀ part ∈ parts, IsName part) : IsPlain ("/".intercalate parts) := by
  intro piece hpiece
  rw [pieces_intercalate hparts fun part hpart => (h part hpart).1] at hpiece
  obtain ⟨part, hpart, rfl⟩ := List.mem_map.mp hpiece
  exact (h part hpart).isPlain _ (by rw [pieces_of_not_mem (h part hpart).1]; exact .head _)

/-- Names with slashes between them are read back. -/
theorem names_intercalate (h : ∀ part ∈ parts, IsName part) : names ("/".intercalate parts) = parts := by
  by_cases hparts : parts = []
  · subst hparts
    rfl
  · rw [(isPlain_intercalate hparts h).names_eq, pieces_intercalate hparts fun part hpart => (h part hpart).1,
      List.map_map]
    exact List.map_id'' (fun part => String.ofList_toList) parts

/-! ## Limits -/

def HasShortNames (parts : List String) : Prop := ∀ part ∈ parts, part = ".." ∨ part.utf8ByteSize ≤ Disk.maxName

instance (parts : List String) : Decidable (HasShortNames parts) := inferInstanceAs (Decidable (∀ _ ∈ _, _))

/-- Whether a disk can look up a path, wherever it leads. -/
structure Fits (path : Path) : Prop where
  clean : '\x00' ∉ path.toText.toList
  short : path.toText.utf8ByteSize ≤ Disk.maxPath
  names : HasShortNames path.parts

/-- Whether a disk finds a path, and the names in it, short enough. -/
structure IsShort (path : Path) : Prop where
  short : path.toText.utf8ByteSize ≤ Disk.maxPath
  names : HasShortNames path.parts

instance (path : Path) : Decidable path.Fits :=
  decidable_of_iff ('\x00' ∉ path.toText.toList ∧ path.toText.utf8ByteSize ≤ Disk.maxPath ∧ HasShortNames path.parts)
    ⟨fun h => ⟨h.1, h.2.1, h.2.2⟩, fun h => ⟨h.clean, h.short, h.names⟩⟩

/-- What is on the way along a path can be looked up if the path can. -/
theorem Fits.of_append {root : String} (h : Fits ⟨root, parts ++ more⟩) : Fits ⟨root, parts⟩ := by
  have hnames : HasShortNames parts := fun part hpart => h.names part (List.mem_append_left _ hpart)
  by_cases hempty : root = "" ∧ parts = []
  · obtain ⟨rfl, rfl⟩ := hempty
    decide
  obtain ⟨behind, htext⟩ : ∃ behind, toText ⟨root, parts ++ more⟩ = toText ⟨root, parts⟩ ++ behind := by
    have hlonger : ¬ (root = "" ∧ parts ++ more = []) := fun h => hempty ⟨h.1, (List.append_eq_nil_iff.mp h.2).1⟩
    rw [toText, toText, if_neg hempty, if_neg hlonger]
    by_cases hparts : parts = []
    · subst hparts
      exact ⟨"/".intercalate more, by simp⟩
    · by_cases hmore : more = []
      · subst hmore
        exact ⟨"", by simp⟩
      · rw [String.intercalate_append_of_ne_nil hparts hmore, String.append_assoc, ← String.append_assoc]
        exact ⟨_, rfl⟩
  refine ⟨fun hnull => h.clean ?_, Nat.le_trans ?_ h.short, hnames⟩
  · rw [htext, String.toList_append]
    exact List.mem_append_left _ hnull
  · rw [htext, String.utf8ByteSize_append]
    exact Nat.le_add_right _ _

end Path

def IsNamed (place : Place) : Prop := ∀ name ∈ place, Path.IsName name

instance (place : Place) : Decidable (IsNamed place) := inferInstanceAs (Decidable (∀ _ ∈ _, _))

/-- Names do not lead back. -/
theorem IsNamed.not_mem {place : Place} (h : IsNamed place) : ".." ∉ place := fun hback => (h _ hback).2.2.2 rfl

namespace Path

variable {folder : Place} {path expanded : Path}

/-- Whether a path leads from the root along names. -/
structure IsResolved (path : Path) : Prop where
  root : path.root = "/"
  named : IsNamed path.parts

theorem IsResolved.start_eq (h : path.IsResolved) (folder : Place) : path.start folder = [] := by
  rw [start, h.root, if_neg (by decide)]

theorem IsResolved.target_eq (h : path.IsResolved) (folder : Place) : path.target folder = path.parts := by
  rw [target, h.start_eq, follow_of_plain h.named.not_mem, List.nil_append]

/-- Whether all of a path are names, apart from what leads back. -/
def HasNames (path : Path) : Prop := ∀ part ∈ path.parts, part ≠ ".." → IsName part

theorem isResolved_resolve (hfolder : IsNamed folder) (hparts : path.HasNames) : (path.resolve folder).IsResolved := by
  refine ⟨rfl, fun name hname => ?_⟩
  rcases mem_follow hname with hstart | ⟨hpart, hback⟩
  · split at hstart
    · exact hfolder name hstart
    · cases hstart
  · exact hparts name hpart hback

theorem hasNames_ofText (text : String) : (ofText text).HasNames := fun _ => isName_of_mem_names

/-- What a text leads along are names, also when it begins in the folder of a user. -/
theorem hasNames_expand {text : String} {homeOf? : String → Option String}
    (h : (ofText text).expand? homeOf? = some expanded) : expanded.HasNames := by
  intro part hpart hback
  unfold expand? at h
  split at h
  · next first rest hroot hparts =>
    split at h
    · obtain ⟨home, -, rfl⟩ := Option.map_eq_some_iff.mp h
      rcases List.mem_append.mp hpart with hhome | hrest
      · exact isName_of_mem_names hhome hback
      · exact isName_of_mem_names (hparts ▸ List.mem_cons_of_mem first hrest) hback
    · cases h
      exact isName_of_mem_names hpart hback
  · cases h
    exact isName_of_mem_names hpart hback

theorem HasNames.join (h : path.HasNames) (text : String) : (path.join text).HasNames := by
  simp only [Path.join]
  split
  · intro part hpart hback
    exact (List.mem_append.mp hpart).elim (h part · hback) (hasNames_ofText text part · hback)
  · exact hasNames_ofText text

theorem HasNames.parent (h : path.HasNames) : path.parent.HasNames := fun part hpart => h part (List.dropLast_subset _ hpart)

end Path

end DocOutline
