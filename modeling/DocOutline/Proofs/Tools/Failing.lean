import DocOutline.Proofs.Disk.Surplus
import DocOutline.Proofs.Tools.Indexing

/-!
# Documents without an outline

Every document of a folder that is tried comes out one way or the other, with an outline or with a warning about it
(`areTried_sourcesIn`). Those without an outline could as well not be in the folder: without them (`withoutFailing`) the others
are found in the same order (`sourcesIn_withoutFailing`), and have the same outlines (`outlinedIn_withoutFailing`).
-/

namespace DocOutline

namespace Disk

/-- What lies below a folder when some of it is left out. -/
theorem below_filter (disk : Disk) (folder : Place) (keeps : Place → Bool) :
    below ⟨disk.items.filter fun entry => keeps entry.1⟩ folder =
      (disk.below folder).filter fun entry => keeps (folder ++ entry.1) := by
  rw [below, below, List.filter_map, List.filter_filter, List.filter_filter]
  congr 1
  refine List.filter_congr fun entry _ => ?_
  obtain ⟨place, item⟩ := entry
  change (isBelow folder place && keeps place) = (keeps (folder ++ place.drop folder.length) && isBelow folder place)
  cases hbelow : isBelow folder place with
  | false => rw [Bool.false_and, Bool.and_false]
  | true =>
    obtain ⟨name, names, rfl⟩ := isBelow_iff.mp hbelow
    rw [List.drop_left, Bool.true_and, Bool.and_true]

end Disk

namespace Discovery

variable {items : List (List String × Item)} {limit : Int}

theorem pairwise_documents (limit : Int) (items : List (List String × Item)) :
    (documents limit items).Pairwise fun parts parts' => isBefore parts parts' = true := by
  rw [documents]
  exact @List.pairwise_mergeSort _ isBefore (fun _ _ _ => isBefore_trans) isBefore_total _

/-- The documents that are left are in the same order when others are left out. -/
theorem documents_filter (hnamed : ∀ parts ∈ documents limit items, IsNamed parts) (keeps : List String → Bool) :
    documents limit (items.filter fun entry => keeps entry.1) = (documents limit items).filter keeps := by
  have hperm : (documents limit (items.filter fun entry => keeps entry.1)).Perm ((documents limit items).filter keeps) := by
    refine (List.mergeSort_perm _ _).trans (.trans (.of_eq ?_) ((List.mergeSort_perm _ _).symm.filter keeps))
    rw [List.filter_map, List.filter_filter, List.filter_filter]
    exact congrArg _ (List.filter_congr fun entry _ => Bool.and_comm _ _)
  refine List.Perm.eq_of_pairwise ?_ (pairwise_documents _ _) ((pairwise_documents _ _).filter _) hperm
  intro parts parts' hparts hparts'
  exact isBefore_antisymm (hnamed parts (List.mem_filter.mp (hperm.mem_iff.mp hparts)).1)
    (hnamed parts' (List.mem_filter.mp hparts').1)

end Discovery

namespace Tools

open DocOutline.Action
open DocOutline.Discovery (IsDocument)

variable {site : Site} {disk disk' : Disk} {folder : Path} {parts : List String} {sources : List (List String)}

/-! ## What comes of documents -/

/-- Whether a text is a warning about a document: that it cannot be read, that the parser fails, or that its tree cannot be
outlined. -/
inductive IsWarning (file : String) : String → Prop where
  | unread (reason : String) : IsWarning file s!"Failed to read {file}: {reason}"
  | unparsed (reason : String) : IsWarning file s!"Failed to parse {file}: {reason}"
  | notOutlined : IsWarning file s!"Outline analysis failed for {file}"

/-- **No document stops the others**: whatever is wrong with it, there is an outline or a warning. -/
theorem indexDocument_cases (folder : Path) (parts : List String) (site : Site) (world : World) :
    ∃ outcome after, indexDocument folder parts site world = (.ok outcome, after) ∧
      ∀ warning, outcome = .error warning → IsWarning (Discovery.pathText parts) warning := by
  have hread : indexDocument folder parts site world = _ :=
    bind_of_ok _ (outcome_apply (readText (documentPath folder parts)))
  rw [hread]
  match (readText (documentPath folder parts) site world).1 with
  | .error fault =>
    refine ⟨_, _, rfl, fun warning hwarning => ?_⟩
    cases hwarning
    exact .unread fault.message
  | .ok content =>
    dsimp only
    generalize (Discovery.language? { folder with parts := folder.parts ++ parts }).getD "" = language
    rw [bind_of_ok _ (outcome_apply (outlineOf content .symbol language))]
    match (outlineOf content .symbol language site (readText (documentPath folder parts) site world).2).1 with
    | .ok (some forest) => exact ⟨_, _, rfl, nofun⟩
    | .ok none =>
      refine ⟨_, _, rfl, fun warning hwarning => ?_⟩
      cases hwarning
      exact .notOutlined
    | .error fault =>
      refine ⟨_, _, rfl, fun warning hwarning => ?_⟩
      cases hwarning
      exact .unparsed fault.message

/-- What comes of the document at the end of `parts` in a folder. -/
def outcomeOf (site : Site) (disk : Disk) (folder : Path) (parts : List String) : Except String Indexed :=
  match (indexDocument folder parts site ⟨disk, []⟩).1 with
  | .ok outcome => outcome
  | .error fault => .error fault.message

theorem indexDocument_apply (site : Site) (disk : Disk) (folder : Path) (parts : List String) :
    ∃ records, ∀ before, indexDocument folder parts site ⟨disk, before⟩ =
      (.ok (outcomeOf site disk folder parts), ⟨disk, before ++ records⟩) := by
  obtain ⟨outcome, records, hrun⟩ := @agrees_indexDocument_self site disk folder parts
  obtain ⟨found, after, hfound, -⟩ := indexDocument_cases folder parts site ⟨disk, []⟩
  have hfirst := (hrun []).1
  obtain rfl : outcome = .ok found := congrArg Prod.fst (hfirst.symm.trans hfound)
  refine ⟨records, fun before => ?_⟩
  rw [(hrun before).1, outcomeOf, hfirst]

theorem isWarning_of_outcomeOf {warning : String} (h : outcomeOf site disk folder parts = .error warning) :
    IsWarning (Discovery.pathText parts) warning := by
  obtain ⟨outcome, after, hrun, hwarns⟩ := indexDocument_cases folder parts site ⟨disk, []⟩
  rw [outcomeOf, hrun] at h
  exact hwarns warning h

theorem mapM_indexDocument (site : Site) (disk : Disk) (folder : Path) (sources : List (List String)) :
    ∃ records, ∀ before, sources.mapM (indexDocument folder) site ⟨disk, before⟩ =
      (.ok (sources.map (outcomeOf site disk folder)), ⟨disk, before ++ records⟩) := by
  induction sources with
  | nil => exact ⟨[], fun before => by rw [List.append_nil]; rfl⟩
  | cons parts sources ih =>
    obtain ⟨records, hfirst⟩ := indexDocument_apply site disk folder parts
    obtain ⟨others, hothers⟩ := ih
    refine ⟨records ++ others, fun before => ?_⟩
    rw [List.mapM_cons, bind_of_ok _ (hfirst before), bind_of_ok _ (hothers _), ← List.append_assoc]
    rfl

/-- A document comes out alike where it has the same text. -/
theorem outcomeOf_of_agrees (h : Agrees site disk disk' (indexDocument folder parts)) :
    outcomeOf site disk' folder parts = outcomeOf site disk folder parts := by
  have hsame := @Agrees.fst_eq _ _ ⟨disk, []⟩ ⟨disk', []⟩ _ h
  rw [outcomeOf, hsame, outcomeOf]

/-! ## The documents of a folder -/

def succeeding (site : Site) (disk : Disk) (folder : Path) : List (List String) :=
  (sourcesIn disk folder).filter fun parts => (outcomeOf site disk folder parts).toOption.isSome

def failing (site : Site) (disk : Disk) (folder : Path) : List (List String) :=
  (sourcesIn disk folder).filter fun parts => (outcomeOf site disk folder parts).toOption.isNone

/-- What is found in a folder, with the outlines. -/
def outlinedIn (site : Site) (disk : Disk) (folder : Path) : List Indexed :=
  outlined ((sourcesIn disk folder).map (outcomeOf site disk folder))

def warningsIn (site : Site) (disk : Disk) (folder : Path) : List String :=
  warnings ((sourcesIn disk folder).map (outcomeOf site disk folder))

/-- Whether a document has the text of the file at the end of `parts` in a folder, and the outline of that text. -/
structure Indexed.IsOutlineOf (document : Indexed) (site : Site) (disk : Disk) (folder : Path) (parts : List String) : Prop
    extends document.IsFrom disk folder.parts parts where
  outline : ∃ language, Outline.extract site.parser document.content .symbol language = .ok document.forest

/-- What is taken from a list belongs to the elements that give something, in their order. -/
theorem forall₂_filterMap {α β : Type} {f : α → Option β} {gives : α → Bool} {r : α → β → Prop} {list : List α}
    (hgives : ∀ a, (f a).isSome = gives a) (h : ∀ a ∈ list, ∀ b, f a = some b → r a b) :
    List.Forall₂ r (list.filter gives) (list.filterMap f) := by
  induction list with
  | nil => exact .nil
  | cons a list ih =>
    rw [List.forall_mem_cons] at h
    have hfirst := hgives a
    rw [List.filter_cons, List.filterMap_cons]
    cases hf : f a with
    | none =>
      rw [hf] at hfirst
      rw [if_neg (by rw [← hfirst]; exact nofun)]
      exact ih h.2
    | some b =>
      rw [hf] at hfirst
      have hkept : gives a = true := hfirst.symm
      rw [if_pos hkept]
      exact .cons (h.1 b hf) (ih h.2)

/-- What comes of the documents of a folder: all of them are found, in their order, and each of them has an outline or a
warning, in the same order. -/
structure AreTried (site : Site) (disk : Disk) (folder : Path) : Prop where
  found : ∀ parts, parts ∈ sourcesIn disk folder ↔ ∃ bytes, IsDocument disk folder.parts parts bytes
  order : (sourcesIn disk folder).Pairwise fun parts parts' => Discovery.isBefore parts parts' = true
  outlined : List.Forall₂ (fun parts document => document.IsOutlineOf site disk folder parts)
    (succeeding site disk folder) (outlinedIn site disk folder)
  warned : List.Forall₂ (fun parts warning => IsWarning (Discovery.pathText parts) warning)
    (failing site disk folder) (warningsIn site disk folder)

section

variable (hsound : disk.IsSound) (hresolved : folder.IsResolved) (hfolder : disk.item? folder.parts = some .folder)

include hsound hfolder

theorem exists_isDocument (h : parts ∈ sourcesIn disk folder) : ∃ bytes, IsDocument disk folder.parts parts bytes :=
  (Discovery.mem_documents_below hsound.proper hfolder).mp (List.mem_of_mem_take h)

include hresolved

theorem areTried_sourcesIn
    (hfew : (Discovery.documents Discovery.maxSize (disk.below folder.parts)).length ≤ Discovery.maxFiles) (site : Site) :
    AreTried site disk folder := by
  constructor
  case found =>
    intro parts
    rw [sourcesIn, List.take_of_length_le hfew, Discovery.mem_documents_below hsound.proper hfolder]
  case order => exact (Discovery.pairwise_documents _ _).sublist (List.take_sublist _ _)
  case outlined =>
    rw [outlinedIn, outlined, List.filterMap_map]
    refine forall₂_filterMap (fun _ => rfl) fun parts hparts document hdocument => ?_
    obtain ⟨bytes, hbytes⟩ := exists_isDocument hsound hfolder hparts
    obtain ⟨records, hrun⟩ := indexDocument_apply site disk folder parts
    have hok : outcomeOf site disk folder parts = .ok document := by
      simp only [Function.comp] at hdocument
      cases houtcome : outcomeOf site disk folder parts with
      | error warning => rw [houtcome] at hdocument; cases hdocument
      | ok found => rw [houtcome] at hdocument; cases hdocument; rfl
    rw [hok] at hrun
    exact ⟨indexDocument_ok hresolved (hbytes.isNamed hsound) (hrun []), extract_of_indexDocument (hrun [])⟩
  case warned =>
    rw [warningsIn, warnings, List.filterMap_map]
    refine forall₂_filterMap (fun parts => ?_) fun parts _ warning hwarning => ?_
    · simp only [Function.comp]
      cases outcomeOf site disk folder parts <;> rfl
    · simp only [Function.comp] at hwarning
      cases houtcome : outcomeOf site disk folder parts with
      | ok document => rw [houtcome] at hwarning; cases hwarning
      | error found =>
        rw [houtcome] at hwarning
        cases hwarning
        exact isWarning_of_outcomeOf houtcome

end

/-! ## Without the failing documents -/

/-- Whether no document of a folder without an outline is at a place. -/
def isKept (site : Site) (disk : Disk) (folder : Path) (place : Place) : Bool :=
  !((failing site disk folder).map (folder.parts ++ ·)).contains place

/-- A disk without the files of the documents of a folder that have no outline. -/
def withoutFailing (site : Site) (disk : Disk) (folder : Path) : Disk :=
  ⟨disk.items.filter fun entry => isKept site disk folder entry.1⟩

def IsFailingFile (site : Site) (disk : Disk) (folder : Path) (place : Place) (bytes : Text.Bytes) : Prop :=
  ∃ parts ∈ failing site disk folder, IsDocument disk folder.parts parts bytes ∧ place = folder.parts ++ parts

section

variable (hsound : disk.IsSound) (hresolved : folder.IsResolved) (hfolder : disk.item? folder.parts = some .folder)

include hsound hfolder

/-- The disk holds nothing else more than without them. -/
theorem exceeds_withoutFailing (site : Site) :
    disk.Exceeds (IsFailingFile site disk folder) (withoutFailing site disk folder) := by
  refine Disk.exceeds_filter (isKept site disk folder) fun place item hitem hkeeps => ?_
  rw [isKept, Bool.not_eq_false', List.contains_iff_mem, List.mem_map] at hkeeps
  obtain ⟨parts, hparts, rfl⟩ := hkeeps
  obtain ⟨bytes, hdocument⟩ := exists_isDocument hsound hfolder (List.mem_filter.mp hparts).1
  rw [hdocument.item] at hitem
  cases hitem
  exact ⟨bytes, rfl, parts, hparts, hdocument, rfl⟩

/-- **The documents that are left are those with an outline**, in the same order. -/
theorem sourcesIn_withoutFailing
    (hfew : (Discovery.documents Discovery.maxSize (disk.below folder.parts)).length ≤ Discovery.maxFiles) (site : Site) :
    sourcesIn (withoutFailing site disk folder) folder = succeeding site disk folder := by
  have hall : sourcesIn disk folder = Discovery.documents Discovery.maxSize (disk.below folder.parts) :=
    List.take_of_length_le hfew
  have hnamed : ∀ parts ∈ Discovery.documents Discovery.maxSize (disk.below folder.parts), IsNamed parts := by
    intro parts hparts
    rw [← hall] at hparts
    obtain ⟨bytes, hdocument⟩ := exists_isDocument hsound hfolder hparts
    exact hdocument.isNamed hsound
  have hleft : Discovery.documents Discovery.maxSize ((withoutFailing site disk folder).below folder.parts) =
      succeeding site disk folder := by
    rw [withoutFailing, Disk.below_filter disk folder.parts (isKept site disk folder),
      Discovery.documents_filter hnamed fun parts => isKept site disk folder (folder.parts ++ parts), ← hall, succeeding]
    refine List.filter_congr fun parts hparts => ?_
    have hmem : folder.parts ++ parts ∈ (failing site disk folder).map (folder.parts ++ ·) ↔
        parts ∈ failing site disk folder := List.mem_map_of_injective (List.append_right_injective _)
    rw [isKept, Bool.eq_iff_iff, Bool.not_eq_true', ← Bool.not_eq_true, List.contains_iff_mem, hmem, failing, List.mem_filter]
    cases (outcomeOf site disk folder parts).toOption <;> simp [hparts]
  rw [sourcesIn, hleft]
  refine List.take_of_length_le (le_trans ?_ hfew)
  rw [← hall]
  exact List.length_filter_le _ _

include hresolved

/-- They come out alike. -/
theorem outcomeOf_withoutFailing (h : parts ∈ succeeding site disk folder) :
    outcomeOf site (withoutFailing site disk folder) folder parts = outcomeOf site disk folder parts := by
  obtain ⟨hparts, hsome⟩ := List.mem_filter.mp h
  obtain ⟨bytes, hdocument⟩ := exists_isDocument hsound hfolder hparts
  have hexceeds := exceeds_withoutFailing hsound hfolder site
  have hpath := isResolved_documentPath hresolved (hdocument.isNamed hsound)
  have hpassable : disk.IsPassable [] (documentPath folder parts).parts :=
    hsound.isPassable fun hnone => absurd (hdocument.item.symm.trans hnone) nofun
  refine outcomeOf_of_agrees (agrees_indexDocument (@agrees_readText site disk _ _ bytes bytes ?_ ?_ ?_ ?_ rfl))
  · exact List.append_ne_nil_of_right_ne_nil _ (hdocument.ne_nil hfolder)
  · rw [hpath.start_eq]
    exact fun stop hstop => (hexceeds.isFolder_iff.mpr (hpassable stop hstop)).trans (hpassable stop hstop).symm
  · rw [hpath.target_eq]
    exact hdocument.item
  · rw [hpath.target_eq]
    refine (hexceeds.item?_eq ?_).trans hdocument.item
    rintro other ⟨parts', hfailing, -, heq⟩
    obtain rfl := List.append_cancel_left heq
    have hnone := (List.mem_filter.mp hfailing).2
    rw [Option.isNone_iff_eq_none] at hnone
    rw [hnone] at hsome
    cases hsome

/-- **So the outlines are the same.** -/
theorem outlinedIn_withoutFailing
    (hfew : (Discovery.documents Discovery.maxSize (disk.below folder.parts)).length ≤ Discovery.maxFiles) (site : Site) :
    outlinedIn site (withoutFailing site disk folder) folder = outlinedIn site disk folder := by
  rw [outlinedIn, sourcesIn_withoutFailing hsound hfolder hfew,
    List.map_congr_left fun parts hparts => outcomeOf_withoutFailing hsound hresolved hfolder hparts, outlinedIn, outlined,
    outlined, List.filterMap_map, List.filterMap_map, succeeding, List.filterMap_filter]
  refine List.filterMap_congr fun parts _ => ?_
  simp only [Function.comp]
  cases outcomeOf site disk folder parts <;> rfl

end

end Tools

end DocOutline
