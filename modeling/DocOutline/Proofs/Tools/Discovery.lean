import DocOutline.Proofs.Disk.Sound
import DocOutline.Proofs.Text.RoundTrip
import DocOutline.Tools.Document

/-!
# Which documents are found

The documents of a folder are the files in it that are eligible, in an order that they alone decide: a disk may list them
as it likes (`documents_congr`). So files that are written leave the documents as they are if they are unseen: where no
document was none is found, and where one was there is still one with the same text (`documents_of_unseen`).
-/

namespace DocOutline.Discovery

variable {parts parts' parts'' : List String} {items items' : List (List String × Item)} {limit : Int}

/-! ## The order of documents -/

theorem isBefore_iff :
    isBefore parts parts' = true ↔
      parts.length < parts'.length ∨ parts.length = parts'.length ∧ pathText parts ≤ pathText parts' := by
  simp [isBefore]

theorem isBefore_trans (h : isBefore parts parts' = true) (h' : isBefore parts' parts'' = true) :
    isBefore parts parts'' = true := by
  rw [isBefore_iff] at h h' ⊢
  rcases h with h | ⟨hlength, htext⟩ <;> rcases h' with h' | ⟨hlength', htext'⟩
  · exact .inl (h.trans h')
  · exact .inl (hlength' ▸ h)
  · exact .inl (hlength ▸ h')
  · exact .inr ⟨hlength.trans hlength', String.le_trans htext htext'⟩

theorem isBefore_total (parts parts' : List String) : (isBefore parts parts' || isBefore parts' parts) = true := by
  rw [Bool.or_eq_true, isBefore_iff, isBefore_iff]
  rcases Nat.lt_trichotomy parts.length parts'.length with h | h | h
  · exact .inl (.inl h)
  · rcases String.le_total (pathText parts) (pathText parts') with htext | htext
    · exact .inl (.inr ⟨h, htext⟩)
    · exact .inr (.inr ⟨h.symm, htext⟩)
  · exact .inr (.inl h)

/-- Names are told by the text of their path. -/
theorem eq_of_pathText_eq (h : IsNamed parts) (h' : IsNamed parts') (htext : pathText parts = pathText parts') :
    parts = parts' := by
  rw [← Path.names_intercalate h, ← Path.names_intercalate h']
  exact congrArg Path.names htext

theorem isBefore_antisymm (hnamed : IsNamed parts) (hnamed' : IsNamed parts') (h : isBefore parts parts' = true)
    (h' : isBefore parts' parts = true) : parts = parts' := by
  rw [isBefore_iff] at h h'
  obtain ⟨-, htext⟩ := h.resolve_left (by omega)
  obtain ⟨-, htext'⟩ := h'.resolve_left (by omega)
  exact eq_of_pathText_eq hnamed hnamed' (String.le_antisymm htext htext')

/-! ## Documents -/

theorem mem_documents :
    parts ∈ documents limit items ↔ ∃ bytes, (parts, .file bytes) ∈ items ∧ isEligible limit (parts, .file bytes) = true := by
  rw [documents, List.mem_mergeSort, List.mem_map]
  constructor
  · rintro ⟨⟨parts, _ | bytes⟩, hfound, rfl⟩
    · cases (List.mem_filter.mp hfound).2
    · exact ⟨bytes, List.mem_filter.mp hfound⟩
  · rintro ⟨bytes, hfound⟩
    exact ⟨_, List.mem_filter.mpr hfound, rfl⟩

theorem isEligible_iff {bytes : Text.Bytes} :
    isEligible limit (parts, .file bytes) = true ↔
      isSkipped (pathText parts) = false ∧ (language? ⟨"", parts⟩).isSome = true ∧ (bytes.length : Int) ≤ limit := by
  simp [isEligible, and_assoc]

theorem nodup_documents (h : (items.map Prod.fst).Nodup) : (documents limit items).Nodup :=
  (List.mergeSort_perm _ _).nodup_iff.mpr (h.sublist (List.filter_sublist.map _))

/-- **Which documents there are decides in which order they come.** -/
theorem documents_congr (hnodup : (items.map Prod.fst).Nodup) (hnodup' : (items'.map Prod.fst).Nodup)
    (hnamed : ∀ parts ∈ documents limit items, IsNamed parts)
    (h : ∀ parts, parts ∈ documents limit items' ↔ parts ∈ documents limit items) :
    documents limit items' = documents limit items := by
  have hsorted (items : List (List String × Item)) :
      (documents limit items).Pairwise fun a b => isBefore a b = true := by
    rw [documents]
    exact @List.pairwise_mergeSort _ isBefore (fun _ _ _ => isBefore_trans) isBefore_total _
  refine List.Perm.eq_of_pairwise ?_ (hsorted items') (hsorted items) ?_
  · exact fun a b ha hb => isBefore_antisymm (hnamed a ((h a).mp ha)) (hnamed b hb)
  · exact (List.perm_ext_iff_of_nodup (nodup_documents hnodup') (nodup_documents hnodup)).mpr h

/-! ## Documents on a disk -/

theorem itemsIn_of_isFolder {disk : Disk} {folder : Place} {path : Path} (h : disk.isFolder? folder path = .ok true) :
    itemsIn disk folder path = .ok (disk.below (path.target folder)) := by
  obtain ⟨hfits, hpassable, -⟩ := Disk.isFolder?_eq_true.mp h
  simp only [itemsIn, h, Disk.locate_eq_ok.mpr ⟨hfits, hpassable, rfl⟩, bind, Except.bind, if_pos]
  rfl

theorem takeTo_nat {α : Type} (n : Nat) (list : List α) : Json.takeTo (.nat n) list = .ok (list.take n) := by
  have hnot : ¬ (n : Int) < 0 := by omega
  simp [Json.takeTo, Json.nat, Json.integer?, hnot]

section

variable {disk disk' : Disk} {folder : Place} {bytes : Text.Bytes} {written : Place → Text.Bytes → Prop}

/-- Whether a file in a folder is a document to index. -/
structure IsDocument (disk : Disk) (folder : Place) (parts : List String) (bytes : Text.Bytes) : Prop where
  item : disk.item? (folder ++ parts) = some (.file bytes)
  eligible : isEligible maxSize (parts, .file bytes) = true

theorem IsDocument.isNamed (h : IsDocument disk folder parts bytes) (hsound : disk.IsSound) : IsNamed parts := fun name hname =>
  hsound.isNamed (by rw [h.item]; exact nofun) name (List.mem_append_right _ hname)

theorem IsDocument.ne_nil (h : IsDocument disk folder parts bytes) (hfolder : disk.item? folder = some .folder) :
    parts ≠ [] := by
  rintro rfl
  have hitem := h.item
  rw [List.append_nil, hfolder] at hitem
  cases hitem

/-- There is one document at a place. -/
theorem IsDocument.eq {bytes' : Text.Bytes} (h : IsDocument disk folder parts bytes)
    (h' : disk.item? (folder ++ parts) = some (.file bytes')) : bytes' = bytes := by
  rw [h.item] at h'
  cases h'
  rfl

theorem mem_documents_below (hproper : disk.IsProper) (hfolder : disk.item? folder = some .folder) :
    parts ∈ documents maxSize (disk.below folder) ↔ ∃ bytes, IsDocument disk folder parts bytes := by
  rw [mem_documents]
  refine exists_congr fun bytes => ?_
  rw [Disk.mem_below hproper]
  constructor
  · exact fun ⟨⟨_, hitem⟩, heligible⟩ => ⟨hitem, heligible⟩
  · exact fun hdocument => ⟨⟨hdocument.ne_nil hfolder, hdocument.item⟩, hdocument.eligible⟩

/-- Whether files that are written are no news for those who look for documents in a folder: where a document was, there is
one with the same text, and nowhere else would one be found. -/
structure Unseen (written : Place → Text.Bytes → Prop) (disk : Disk) (folder : Place) : Prop where
  eligible : ∀ parts bytes, written (folder ++ parts) bytes →
    (isEligible maxSize (parts, .file bytes) = true ↔ ∃ old, IsDocument disk folder parts old)
  text : ∀ parts bytes old, written (folder ++ parts) bytes → IsDocument disk folder parts old →
    Text.readAs bytes = Text.readAs old

/-- A document stays one, with the same text. -/
theorem IsDocument.writes (h : IsDocument disk folder parts bytes) (hunseen : Unseen written disk folder)
    (hwrites : disk.Writes written disk') :
    ∃ bytes', IsDocument disk' folder parts bytes' ∧ Text.readAs bytes' = Text.readAs bytes := by
  rcases hwrites.files h.item with hkept | ⟨new, hnew, hfile⟩
  · exact ⟨bytes, ⟨hkept, h.eligible⟩, rfl⟩
  · exact ⟨new, ⟨hfile, (hunseen.eligible parts new hnew).mpr ⟨bytes, h⟩⟩, hunseen.text parts new bytes hnew h⟩

/-- **Files that are unseen leave the documents as they are.** -/
theorem documents_of_unseen (hsound : disk.IsSound) (hfolder : disk.item? folder = some .folder)
    (hunseen : Unseen written disk folder) (hwrites : disk.Writes written disk') :
    documents maxSize (disk'.below folder) = documents maxSize (disk.below folder) := by
  have hproper' := hwrites.proper hsound.proper
  refine documents_congr (Disk.nodup_below hsound.proper folder) (Disk.nodup_below hproper' folder) ?_ fun parts => ?_
  · intro parts hparts
    obtain ⟨bytes, hdocument⟩ := (mem_documents_below hsound.proper hfolder).mp hparts
    exact hdocument.isNamed hsound
  · rw [mem_documents_below hproper' (hwrites.folders hfolder), mem_documents_below hsound.proper hfolder]
    constructor
    · rintro ⟨bytes, hitem, heligible⟩
      rcases hwrites.files_before hitem with hold | hnew
      · exact ⟨bytes, hold, heligible⟩
      · exact (hunseen.eligible parts bytes hnew).mp heligible
    · rintro ⟨bytes, hdocument⟩
      obtain ⟨bytes', hdocument', -⟩ := hdocument.writes hunseen hwrites
      exact ⟨bytes', hdocument'⟩

end

/-! ## Files of a store -/

theorem suffixOf_append_json {name : String} (h : name ≠ "") : Path.suffixOf (name ++ ".json") = ".json" := by
  have hlength : 0 < name.toList.length := List.length_pos_iff.mpr fun hnil => h (String.toList_eq_nil_iff.mp hnil)
  have hsuffix : ((name ++ ".json").toList.reverse.takeWhile (· ≠ '.')).length = 4 := by
    rw [String.toList_append, List.reverse_append]
    rfl
  have hcs : (name ++ ".json").toList.length = name.toList.length + 5 := by
    rw [String.toList_append, List.length_append]
    rfl
  simp only [Path.suffixOf, hsuffix, hcs]
  rw [if_pos ⟨by decide, by omega⟩, String.toList_append,
    show name.toList.length + 5 - 4 - 1 = name.toList.length by omega, List.drop_left]
  rfl

/-- A file with a snapshot is no document of a folder. -/
theorem not_isEligible_json {folder base : Place} {name : String} (h : name ≠ "")
    (hplace : folder ++ parts = base ++ [name ++ ".json"]) (bytes : Text.Bytes) :
    isEligible limit (parts, .file bytes) = false := by
  have hlanguage : language? ⟨"", parts⟩ = none := by
    rcases List.eq_nil_or_concat parts with rfl | ⟨before, last, rfl⟩
    · rfl
    · rw [List.concat_eq_append, ← List.append_assoc] at hplace
      obtain ⟨-, hlast⟩ := List.append_inj' hplace rfl
      rw [language?, Path.suffix, Path.name, List.concat_eq_append, hlast, List.getLast?_concat, Option.getD_some,
        suffixOf_append_json h]
      rfl
  simp [isEligible, hlanguage]

theorem not_isEligible_of_isSkipped (h : isSkipped (pathText parts) = true) (bytes : Text.Bytes) :
    isEligible limit (parts, .file bytes) = false := by simp [isEligible, h]

end DocOutline.Discovery
