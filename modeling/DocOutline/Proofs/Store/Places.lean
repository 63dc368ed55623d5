import DocOutline.Proofs.Disk.Ways
import DocOutline.Store.Basic

/-!
# Places of workspaces

A store keeps what belongs to a workspace at places of its own: the file with the snapshot, and the folder with the texts
and all below it. As long as the name of a workspace is one name and is not that of a file with a snapshot, nothing of it
is at a place of another one (`not_isPlaceOf_of_ne`).
-/

namespace DocOutline

/-- Whether a text can be the name of a workspace that has its places for itself. -/
def IsWorkspaceName (workspace : String) : Prop :=
  Path.IsName workspace ∧ Store.isIndexName workspace = false

instance (workspace : String) : Decidable (IsWorkspaceName workspace) := inferInstanceAs (Decidable (_ ∧ _))

namespace Store

variable {store : Store} {folder place : Place} {workspace other file name : String}

/-- Where a store is. -/
def basePlace (store : Store) (folder : Place) : Place := store.base.target folder

/-- Where the snapshot of a workspace is. -/
def indexPlace (store : Store) (folder : Place) (workspace : String) : Place :=
  store.basePlace folder ++ [workspace ++ ".json"]

def documentPlace (store : Store) (folder : Place) (workspace file : String) : Place :=
  store.basePlace folder ++ workspace :: Path.names file

/-- Whether a place is the folder with the texts of a workspace or lies below it. -/
def IsContentPlace (store : Store) (folder : Place) (workspace : String) (place : Place) : Prop :=
  store.basePlace folder ++ [workspace] <+: place

def IsPlaceOf (store : Store) (folder : Place) (workspace : String) (place : Place) : Prop :=
  place = store.indexPlace folder workspace ∨ store.IsContentPlace folder workspace place

/-! ## Names of files -/

theorem isIndexName_append (name : String) : isIndexName (name ++ ".json") = true := by
  rw [isIndexName, List.isSuffixOf_iff_suffix, String.toList_append]
  exact List.suffix_append _ _

theorem append_json_injective {name name' : String} (h : name ++ ".json" = name' ++ ".json") : name = name' := by
  have hlists := congrArg String.toList h
  rw [String.toList_append, String.toList_append] at hlists
  exact String.toList_inj.mp (List.append_cancel_right hlists)

/-- The name of a file with a snapshot is one name. -/
theorem isName_append_json (h : Path.IsName workspace) : Path.IsName (workspace ++ ".json") := by
  have hlong (short : String) (hshort : short.toList.length < 5) : workspace ++ ".json" ≠ short := by
    rintro rfl
    rw [String.toList_append, List.length_append] at hshort
    exact Nat.not_lt.mpr (Nat.le_add_left _ _) hshort
  refine ⟨?_, hlong "" (by decide), hlong "." (by decide), hlong ".." (by decide)⟩
  rw [String.toList_append, List.mem_append, not_or]
  exact ⟨h.1, by decide⟩

/-- No workspace has the name of a file with a snapshot. -/
theorem ne_append_json (h : IsWorkspaceName workspace) (name : String) : workspace ≠ name ++ ".json" := by
  rintro rfl
  have := h.2
  rw [isIndexName_append] at this
  cases this

/-! ## Paths -/

theorem join_base_eq (h : Path.IsName name) : store.base.join name = ⟨store.base.root, store.base.parts ++ [name]⟩ := by
  rw [h.isPlain.join_eq, h.names_eq]

theorem indexPath_eq (h : Path.IsName workspace) :
    store.indexPath workspace = ⟨store.base.root, store.base.parts ++ [workspace ++ ".json"]⟩ :=
  join_base_eq (isName_append_json h)

theorem contentFolder_eq (h : Path.IsName workspace) :
    store.contentFolder workspace = ⟨store.base.root, store.base.parts ++ [workspace]⟩ := join_base_eq h

/-- The way to the store is not too long if the path of a file in it is not. -/
theorem fits_base_of_indexPath (h : Path.IsName workspace) (hfits : (store.indexPath workspace).Fits) : store.base.Fits := by
  rw [indexPath_eq h] at hfits
  exact hfits.of_append

theorem join_contentFolder_eq (h : Path.IsName workspace) (hfile : Path.IsPlain file) :
    (store.contentFolder workspace).join file =
      ⟨store.base.root, store.base.parts ++ workspace :: Path.names file⟩ := by
  rw [contentFolder_eq h, hfile.join_eq, List.append_assoc]
  rfl

theorem not_mem_cons_names (h : Path.IsName workspace) (hfile : Path.IsPlain file) :
    ".." ∉ workspace :: Path.names file := by
  rw [List.mem_cons, not_or]
  exact ⟨Ne.symm h.2.2.2, hfile.not_mem_names⟩

/-- Names that do not lead back lead from the store to a place below it. -/
theorem target_append {parts : List String} (h : ".." ∉ parts) :
    (⟨store.base.root, store.base.parts ++ parts⟩ : Path).target folder = store.basePlace folder ++ parts := by
  rw [Path.target, Path.follow_append, Path.follow_of_plain h]
  rfl

theorem target_join_base (h : Path.IsName name) :
    (store.base.join name).target folder = store.basePlace folder ++ [name] := by
  rw [join_base_eq h, target_append (by simpa using Ne.symm h.2.2.2)]

theorem target_indexPath (h : Path.IsName workspace) :
    (store.indexPath workspace).target folder = store.indexPlace folder workspace :=
  target_join_base (isName_append_json h)

theorem target_join_contentFolder (h : Path.IsName workspace) (hfile : Path.IsPlain file) :
    ((store.contentFolder workspace).join file).target folder = store.documentPlace folder workspace file := by
  rw [join_contentFolder_eq h hfile, target_append (not_mem_cons_names h hfile), documentPlace]

theorem target_contentFolder (h : Path.IsName workspace) :
    (store.contentFolder workspace).target folder = store.basePlace folder ++ [workspace] := target_join_base h

theorem parts_join_base_ne_nil (h : Path.IsName name) : (store.base.join name).parts ≠ [] := by
  rw [join_base_eq h]
  exact List.append_ne_nil_of_right_ne_nil _ (List.cons_ne_nil _ _)

theorem parts_indexPath_ne_nil (h : Path.IsName workspace) : (store.indexPath workspace).parts ≠ [] :=
  parts_join_base_ne_nil (isName_append_json h)

/-! ## Places apart -/

theorem indexPlace_ne_nil : store.indexPlace folder workspace ≠ [] :=
  List.append_ne_nil_of_right_ne_nil _ (List.cons_ne_nil _ _)

theorem isContentPlace_documentPlace : store.IsContentPlace folder workspace (store.documentPlace folder workspace file) :=
  ⟨Path.names file, by simp [documentPlace]⟩

theorem not_isContentPlace_indexPlace (h : workspace ≠ other ++ ".json") :
    ¬ store.IsContentPlace folder workspace (store.indexPlace folder other) := by
  intro hprefix
  rw [IsContentPlace, indexPlace, List.prefix_append_right_inj, List.cons_prefix_cons] at hprefix
  exact h hprefix.1

/-- The snapshot of a workspace is not among its texts. -/
theorem not_isContentPlace_own : ¬ store.IsContentPlace folder workspace (store.indexPlace folder workspace) := by
  intro hprefix
  rw [IsContentPlace, indexPlace, List.prefix_append_right_inj, List.cons_prefix_cons] at hprefix
  have hlength := congrArg String.length hprefix.1
  rw [String.length_append] at hlength
  exact absurd hlength (Nat.ne_of_lt (Nat.lt_add_of_pos_right (by decide)))

/-- A file that could be one with a snapshot is a place of a workspace only as the file with its snapshot. -/
theorem eq_append_json_of_isPlaceOf {name : String} (h : IsWorkspaceName workspace) (hindex : isIndexName name = true)
    (hplace : store.IsPlaceOf folder workspace (store.basePlace folder ++ [name])) : workspace ++ ".json" = name := by
  rcases hplace with heq | hcontent
  · exact (List.cons.inj (List.append_cancel_left heq)).1.symm
  · rw [IsContentPlace, List.prefix_append_right_inj, List.cons_prefix_cons] at hcontent
    rw [← hcontent.1, h.2] at hindex
    cases hindex

/-- Places of different workspaces are different, unless one of them has the name of the other's file with a snapshot. -/
theorem not_isPlaceOf_of_apart (hne : workspace ≠ other) (happart : workspace ≠ other ++ ".json")
    (happart' : other ≠ workspace ++ ".json") (hplace : store.IsPlaceOf folder workspace place) :
    ¬ store.IsPlaceOf folder other place := by
  rcases hplace with rfl | hcontent <;> rintro (hindex | hcontent')
  · exact hne (append_json_injective (by simpa [indexPlace] using hindex))
  · exact not_isContentPlace_indexPlace happart' hcontent'
  · exact not_isContentPlace_indexPlace happart (hindex ▸ hcontent)
  · obtain ⟨rest, rfl⟩ := hcontent
    rw [IsContentPlace, List.append_assoc, List.prefix_append_right_inj, List.singleton_append,
      List.cons_prefix_cons] at hcontent'
    exact hne hcontent'.1.symm

/-- **Places of different workspaces are different.** -/
theorem not_isPlaceOf_of_ne (h : IsWorkspaceName workspace) (hother : IsWorkspaceName other) (hne : workspace ≠ other)
    (hplace : store.IsPlaceOf folder workspace place) : ¬ store.IsPlaceOf folder other place :=
  not_isPlaceOf_of_apart hne (ne_append_json h other) (ne_append_json hother workspace) hplace

end Store

end DocOutline
