import DocOutline.Proofs.Tools.Sparing

/-!
# Files that are left out

A file of a folder is left out when the name of a directory on the way to it ends with the name of a folder that is left out
(`isSkipped_iff`). So where directories have such names or other ones altogether, exactly the files in folders with these names
are left out, and the index accounts for all others (`discover_settles`). But a document in a directory whose name is longer
than that is left out as well, and nothing tells of it (`discover_rebuild`).
-/

namespace DocOutline

namespace Discovery

variable {parts : List String} {disk : Disk} {folder : Place} {bytes : Text.Bytes}

/-! ## Directories -/

def skippedNames : List String := [
  "node_modules", "venv", ".venv", "__pycache__", "dist", "build", ".git", "target", "test_data", "testdata", "fixtures",
  "snapshots", "generated"]

def EndsSkipped (directory : String) : Prop := ∃ name ∈ skippedNames, name.toList <:+ directory.toList

instance (directory : String) : Decidable (EndsSkipped directory) := inferInstanceAs (Decidable (∃ _ ∈ _, _))

theorem endsSkipped_of_mem {directory : String} (h : directory ∈ skippedNames) : EndsSkipped directory :=
  ⟨directory, h, List.suffix_refl _⟩

/-- The directories on the way to a file of a folder, as its path is read: backslashes count as slashes. -/
def directories (parts : List String) : List String :=
  (Path.pieces ((pathText parts).toList.map fun c => if c = '\\' then '/' else c)).dropLast.map String.ofList

theorem isPartOf_slash_iff {name : String} (h : '/' ∉ name.toList) (path : List Char) :
    Text.isPartOf (name ++ "/") (String.ofList path) = true ↔
      ∃ piece ∈ (Path.pieces path).dropLast, name.toList <:+ piece := by
  rw [Text.isPartOf, Text.occursIn_iff_isInfix, String.toList_append, @String.toList_ofList path]
  exact Path.isInfix_iff_pieces h

/-- **A file is left out** when a directory on the way to it has a name that ends with one of a folder that is left out. -/
theorem isSkipped_iff : isSkipped (pathText parts) = true ↔ ∃ directory ∈ directories parts, EndsSkipped directory := by
  have hpatterns : skipPatterns = skippedNames.map (· ++ "/") := rfl
  have hslash : ∀ name ∈ skippedNames, '/' ∉ name.toList := by decide
  rw [isSkipped, hpatterns, List.any_map, List.any_eq_true]
  constructor
  · rintro ⟨name, hname, hfound⟩
    obtain ⟨piece, hpiece, hends⟩ := (isPartOf_slash_iff (hslash name hname) _).mp hfound
    exact ⟨String.ofList piece, List.mem_map_of_mem hpiece, name, hname, by rwa [String.toList_ofList]⟩
  · rintro ⟨directory, hdirectory, name, hname, hends⟩
    obtain ⟨piece, hpiece, rfl⟩ := List.mem_map.mp hdirectory
    rw [String.toList_ofList] at hends
    exact ⟨name, hname, (isPartOf_slash_iff (hslash name hname) _).mpr ⟨piece, hpiece, hends⟩⟩

/-- Without backslashes the directories are those that the names say. -/
theorem directories_of_plain (hnamed : IsNamed parts) (h : ∀ part ∈ parts, '\\' ∉ part.toList) :
    directories parts = parts.dropLast := by
  by_cases hparts : parts = []
  · subst hparts
    rfl
  have hpieces : Path.pieces (pathText parts).toList = parts.map String.toList :=
    Path.pieces_intercalate hparts fun part hpart => (hnamed part hpart).1
  have hclean : (pathText parts).toList.map (fun c => if c = '\\' then '/' else c) = (pathText parts).toList := by
    refine (List.map_congr_left fun c hc => if_neg ?_).trans (List.map_id' _)
    rintro rfl
    obtain ⟨piece, hpiece, hmem⟩ := Path.exists_mem_pieces hc (by decide)
    rw [hpieces] at hpiece
    obtain ⟨part, hpart, rfl⟩ := List.mem_map.mp hpiece
    exact h part hpart hmem
  rw [directories, hclean, hpieces, ← List.map_dropLast, List.map_map]
  exact List.map_id'' (fun part => String.ofList_toList) _

/-! ## Files -/

/-- Whether there is a file in a folder that has the suffix of documents and is not larger than they may be. -/
structure IsSource (disk : Disk) (folder : Place) (parts : List String) (bytes : Text.Bytes) : Prop where
  item : disk.item? (folder ++ parts) = some (.file bytes)
  suffix : Path.suffix ⟨"", parts⟩ = ".typ"
  size : bytes.length ≤ maxSize

theorem isSome_language? {path : Path} : (language? path).isSome = true ↔ path.suffix = ".typ" := by
  rw [language?, Grammar.extensions, List.lookup_cons]
  cases h : path.suffix == ".typ" with
  | true => simpa using h
  | false => simpa using h

theorem IsSource.ne_nil (h : IsSource disk folder parts bytes) : parts ≠ [] := by
  rintro rfl
  exact absurd h.suffix (by decide)

/-- Such a file is a document unless it is left out. -/
theorem IsSource.mem_documents_iff (h : IsSource disk folder parts bytes) (hproper : disk.IsProper) :
    parts ∈ documents maxSize (disk.below folder) ↔ isSkipped (pathText parts) = false := by
  rw [mem_documents]
  constructor
  · rintro ⟨_, -, heligible⟩
    exact (isEligible_iff.mp heligible).1
  · intro hkept
    refine ⟨bytes, (Disk.mem_below hproper).mpr ⟨h.ne_nil, h.item⟩, isEligible_iff.mpr ⟨hkept, ?_, ?_⟩⟩
    · exact isSome_language?.mpr h.suffix
    · exact Int.ofNat_le.mpr h.size

end Discovery

namespace Tools

open DocOutline.Action
open DocOutline.Discovery (IsSource EndsSkipped directories skippedNames)

variable {site : Site} {world world' : World} {folder : Path} {parts : List String} {path result : Json}

/-! ## What becomes of files -/

theorem exists_of_forall₂ {α β : Type} {r : α → β → Prop} {as : List α} {bs : List β} (h : List.Forall₂ r as bs) :
    ∀ a ∈ as, ∃ b ∈ bs, r a b := by
  induction h with
  | nil => exact nofun
  | @cons a b as bs hfirst hothers ih =>
    refine List.forall_mem_cons.mpr ⟨⟨b, .head _, hfirst⟩, fun other hother => ?_⟩
    obtain ⟨found, hfound, hr⟩ := ih other hother
    exact ⟨found, .tail _ hfound, hr⟩

/-- Whether a run of indexing has accounted for a document of a folder: it has stored the document with its outline, or its
result has a warning about the document. -/
inductive IsAccountedFor (site : Site) (disk : Disk) (folder : Path) (parts : List String) (result : Json) (after : World) :
    Prop where
  | stored {store : Store} {document : Indexed} (hmem : document ∈ outlinedIn site disk folder)
      (h : document.IsOutlineOf site disk folder parts)
      (hsaved : HasSaved store site folder (outlinedIn site disk folder) disk after)
  | warned {warning : String} (hmem : warning ∈ warningsIn site disk folder) (h : IsWarning (Discovery.pathText parts) warning)
      (hresult : HasWarnings (warningsIn site disk folder) result)

/-- **Whatever is found is accounted for.** -/
theorem isAccountedFor_of_mem (hsound : world.disk.IsSound) (hresolved : folder.IsResolved)
    (hfolder : folderAt path site world = (.ok folder, world)) (hthere : world.disk.isFolder? site.folder folder = .ok true)
    (hfew : (Discovery.documents Discovery.maxSize (world.disk.below folder.parts)).length ≤ Discovery.maxFiles)
    (hmem : parts ∈ sourcesIn world.disk folder) (hrun : indexFolder path site world = (.ok result, world')) :
    IsAccountedFor site world.disk folder parts result world' := by
  have hitem := item?_of_isFolder? hresolved hthere
  have htried := areTried_sourcesIn hsound hresolved hitem hfew site
  cases houtcome : (outcomeOf site world.disk folder parts).toOption.isSome with
  | false =>
    have hfails : parts ∈ failing site world.disk folder :=
      List.mem_filter.mpr ⟨hmem, by rw [← Option.not_isSome, houtcome]; rfl⟩
    obtain ⟨warning, hwarning, hwarns⟩ := exists_of_forall₂ htried.warned parts hfails
    exact .warned hwarning hwarns (hasWarnings_of_indexFolder hresolved hfolder hthere hrun)
  | true =>
    have hsucceeds : parts ∈ succeeding site world.disk folder := List.mem_filter.mpr ⟨hmem, houtcome⟩
    obtain ⟨document, hdocument, houtline⟩ := exists_of_forall₂ htried.outlined parts hsucceeds
    obtain ⟨middle, hmiddle, hstores⟩ := indexFolder_of_some hresolved hfolder hthere (List.ne_nil_of_mem hdocument)
    obtain ⟨report, hreport, -⟩ := storeFolder_eq folder
      ((sourcesIn world.disk folder).map (outcomeOf site world.disk folder))
    rw [hstores, hreport] at hrun
    obtain ⟨snapshot, after, hstored, hreturn⟩ := bind_ok.mp hrun
    cases hreturn
    obtain ⟨records, hall⟩ := mapM_indexDocument site world.disk folder (sourcesIn world.disk folder)
    have hfiles := (areFrom_outlined hsound hresolved hitem (hall world.records)).arePlain hsound hitem site.now
    obtain ⟨store, hsaved⟩ := hasSaved_of_storeDocuments hresolved hfiles hstored
    rw [hmiddle] at hsaved
    exact .stored hdocument houtline hsaved

/-- Whether what is found in a folder settles what becomes of a file. -/
structure Settles (site : Site) (world : World) (folder : Path) (found : List (List String)) (parts : List String) : Prop where
  /-- The file is left out when a directory has a name that ends with one of a folder that is left out. -/
  missing : parts ∉ found ↔ ∃ directory ∈ directories parts, EndsSkipped directory
  /-- If no directory has a longer name than that, the file is left out just when it is in a folder that is left out. -/
  exactly : (∀ directory ∈ directories parts, EndsSkipped directory → directory ∈ skippedNames) →
    (parts ∉ found ↔ ∃ directory ∈ directories parts, directory ∈ skippedNames)
  plain : (∀ part ∈ parts, '\\' ∉ part.toList) → directories parts = parts.dropLast
  indexed : parts ∈ found → ∀ path, folderAt path site world = (.ok folder, world) →
    ∀ result world', indexFolder path site world = (.ok result, world') →
      IsAccountedFor site world.disk folder parts result world'

/-- A world with a document in the folder `docs` and one in another folder there. -/
def nestedWorld (name : String) : World :=
  ⟨⟨docsWorld.disk.items ++ [(["work", "docs", name], .folder),
    (["work", "docs", name, "b.typ"], .file (Text.encode "= X\n"))]⟩, []⟩

end Tools

end DocOutline
