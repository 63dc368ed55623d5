import DocOutline.Outline.Basic
import DocOutline.Proofs.Json.RoundTrip

/-!
# Stored outlines

What is written is read back as it was, and what is read from any stored form is written in the canonical one.
-/

namespace DocOutline

open DocOutline.Symbol (Entry Kind Name Role)

/-! ## Outlines are read back from their stored form

Reading the stored form of an outline gives the outline again, with the stored forms of its names as names,
if a recursion may go through it (`ofJsonWithin_toJson`). The stored form is one that text can stand for if those of the names are (`isProper_toJson`).
-/

variable {ν : Type}

theorem Symbol.Role.ofJson_name (role : Role) : Role.ofJson (.str role.name) = .ok role := by
  cases role <;> rfl

/-- A kind is read back from its stored form. -/
theorem Symbol.Kind.ofJson_toJson (kind : Kind) : Kind.ofJson kind.toJson = .ok kind := by
  match kind with
  | .heading level => rfl
  | .named role =>
    change (do return Kind.named (← Role.ofJson (.str role.name))) = Except.ok (Kind.named role)
    rw [Symbol.Role.ofJson_name]
    rfl
  | .group => rfl
  | .commentRun => rfl

def Symbol.Entry.rename {μ : Type} (rename : ν → μ) (entry : Entry ν) : Entry μ :=
  ⟨rename entry.name, entry.kind, entry.start, entry.stop⟩

namespace Outline

mutual

def rename {μ : Type} (f : ν → μ) : Outline ν → Outline μ
  | mk entry children => mk (entry.rename f) (renameAll f children)
termination_by structural outline => outline

/-- Consecutive outlines with other names. -/
def renameAll {μ : Type} (f : ν → μ) : List (Outline ν) → List (Outline μ)
  | [] => []
  | outline :: outlines => rename f outline :: renameAll f outlines
termination_by structural outlines => outlines

end

mutual

/-- Without a limit a recursion may go through every outline. -/
@[simp] theorem isWithin_none (depth : Nat) (outline : Outline ν) : outline.isWithin none depth = true := by
  match outline with
  | mk entry children => simp [isWithin, areWithin_none (depth + 1) children]
termination_by structural outline

@[simp] theorem areWithin_none (depth : Nat) (outlines : List (Outline ν)) : areWithin none depth outlines = true := by
  match outlines with
  | [] => rfl
  | outline :: outlines => simp [areWithin, isWithin_none depth outline, areWithin_none depth outlines]
termination_by structural outlines

end

variable [Name ν]

/-- An entry is read back from its members, whatever members follow. -/
theorem readEntry_entryMembers (entry : Entry ν) (members : List (String × Json)) :
    readEntry (.obj (entryMembers entry ++ members)) = .ok (entry.rename Name.toJson) := by
  obtain ⟨name, kind, start, stop⟩ := entry
  have hfields : requireFields (.obj (entryMembers ⟨name, kind, start, stop⟩ ++ members)) = .ok () := rfl
  have hname : (Json.obj (entryMembers ⟨name, kind, start, stop⟩ ++ members)).member "name" =
      .ok (Name.toJson name) := rfl
  have hkind : (Json.obj (entryMembers ⟨name, kind, start, stop⟩ ++ members)).member "kind" = .ok kind.toJson := rfl
  unfold readEntry
  simp only [hfields, hname, hkind, Symbol.attempt, Except.mapError, bind, Except.bind,
    Symbol.Kind.ofJson_toJson]
  rfl

mutual

/-- **An outline is read back from its stored form**, if a recursion may go through it. -/
theorem ofJsonWithin_toJson (limit : Limit) (depth : Nat) (outline : Outline ν) :
    ofJsonWithin limit depth outline.toJson =
      if outline.isWithin limit depth then .ok (outline.rename Name.toJson) else .error (.access .tooDeep) := by
  match outline with
  | mk entry children =>
    have hchildren : childrenIn limit (depth + 1) (entryMembers entry ++ childrenMember (toJsonAll children)) =
        if areWithin limit (depth + 1) children then .ok (renameAll Name.toJson children)
        else .error (.access .tooDeep) := by
      match children with
      | [] => rfl
      | child :: children => exact ofJsonAllWithin_toJsonAll limit (depth + 1) (child :: children)
    rw [toJson, ofJsonWithin, readEntry_entryMembers, isWithin, requireWithin]
    simp only [hchildren]
    cases limit.allows depth
    · rfl
    · cases areWithin limit (depth + 1) children <;> rfl
termination_by structural outline

/-- Outlines are read back from their stored forms, if a recursion may go through all of them. -/
theorem ofJsonAllWithin_toJsonAll (limit : Limit) (depth : Nat) (outlines : List (Outline ν)) :
    ofJsonAllWithin limit depth (toJsonAll outlines) =
      if areWithin limit depth outlines then .ok (renameAll Name.toJson outlines)
      else .error (.access .tooDeep) := by
  match outlines with
  | [] => rfl
  | outline :: outlines =>
    rw [toJsonAll, ofJsonAllWithin, ofJsonWithin_toJson limit depth outline,
      ofJsonAllWithin_toJsonAll limit depth outlines, areWithin]
    cases outline.isWithin limit depth
    · rfl
    · cases areWithin limit depth outlines <;> rfl
termination_by structural outlines

end

theorem ofJson_toJson (outline : Outline ν) : ofJson outline.toJson = .ok (outline.rename Name.toJson) := by
  rw [ofJson, ofJsonWithin_toJson, isWithin_none, if_pos rfl]

/-! ### Stored forms as values -/

mutual

/-- The stored form of an outline is one that text can stand for if those of its names are. -/
theorem isProper_toJson (h : ∀ name : ν, (Name.toJson name).Forall Json.IsProper) (outline : Outline ν) :
    outline.toJson.Forall Json.IsProper := by
  match outline with
  | mk entry children =>
    have hkind : entry.kind.toJson.Forall Json.IsProper := by
      cases entry.kind <;> simp [Symbol.Kind.toJson, Json.Forall, Json.ForallMembers, Json.IsProper]
    have hrange : (Json.arr [.int entry.start, .int entry.stop]).Forall Json.IsProper := ⟨trivial, trivial, trivial, trivial⟩
    match children with
    | [] =>
      have hnodup : ["name", "kind", "range"].Nodup := by decide
      exact ⟨hnodup, h entry.name, hkind, hrange, trivial⟩
    | child :: children =>
      have hnodup : ["name", "kind", "range", "children"].Nodup := by decide
      exact ⟨hnodup, h entry.name, hkind, hrange, ⟨trivial, isProper_toJsonAll h (child :: children)⟩, trivial⟩
termination_by structural outline

theorem isProper_toJsonAll (h : ∀ name : ν, (Name.toJson name).Forall Json.IsProper) (outlines : List (Outline ν)) :
    Json.ForallItems Json.IsProper (toJsonAll outlines) := by
  match outlines with
  | [] => trivial
  | outline :: outlines => exact ⟨isProper_toJson h outline, isProper_toJsonAll h outlines⟩
termination_by structural outlines

end

end Outline

end DocOutline

namespace DocOutline.Outline

open DocOutline.Symbol (Name)

/-! ## Canonical forms of stored outlines

An outline may be stored in more than one way: the list of what is nested in an entry may be missing, null or empty, and
levels and ends of ranges may be anything that converts to an integer. Writing what was read gives the canonical form. It
is read as the same outline, is written as itself, and has no list with nothing in it (`reads_canonical`).
-/

mutual

theorem rename_id {ν : Type} (outline : Outline ν) : outline.rename id = outline := by
  match outline with
  | mk entry children => rw [rename, renameAll_id children]; rfl
termination_by structural outline

theorem renameAll_id {ν : Type} (outlines : List (Outline ν)) : renameAll id outlines = outlines := by
  match outlines with
  | [] => rfl
  | outline :: outlines => rw [renameAll, rename_id outline, renameAll_id outlines]
termination_by structural outlines

end

/-- An outline whose names are values is read back as it is. -/
theorem ofJson_toJson_self (outline : Outline Json) : ofJson outline.toJson = .ok outline := by
  have h := ofJson_toJson outline
  rwa [show (Name.toJson : Json → Json) = id from rfl, rename_id] at h

/-! ### Nodes of a stored outline -/

/-- A stored outline and, at any depth, those that are nested in it. -/
inductive IsNode (data : Json) : Json → Prop
  | top : IsNode data data
  | nested {node items item} (hnode : IsNode data node) (hitems : node.member? "children" = some (.arr items))
      (hitem : item ∈ items) : IsNode data item

variable {ν : Type} [Name ν]

theorem toJsonAll_eq_map (outlines : List (Outline ν)) : toJsonAll outlines = outlines.map toJson := by
  induction outlines with
  | nil => rfl
  | cons outline outlines ih => rw [toJsonAll, ih, List.map_cons]

/-- The list of what is nested in an entry is written only if there is anything. -/
theorem member?_children_mk (entry : Symbol.Entry ν) (children : List (Outline ν)) :
    (mk entry children).toJson.member? "children" =
      if children = [] then none else some (.arr (children.map toJson)) := by
  match children with
  | [] => rfl
  | child :: children =>
    rw [if_neg (List.cons_ne_nil _ _), ← toJsonAll_eq_map]
    rfl

/-- What is nested in the stored form of an outline is the stored form of one. -/
theorem exists_eq_toJson_of_isNode {outline : Outline ν} {node : Json} (h : IsNode outline.toJson node) :
    ∃ inner : Outline ν, node = inner.toJson := by
  induction h with
  | top => exact ⟨outline, rfl⟩
  | nested _ hitems hitem ih =>
    obtain ⟨⟨entry, children⟩, rfl⟩ := ih
    rw [member?_children_mk] at hitems
    split at hitems
    · cases hitems
    · cases hitems
      obtain ⟨inner, -, rfl⟩ := List.mem_map.mp hitem
      exact ⟨inner, rfl⟩

theorem children_ne_empty_of_isNode {outline : Outline ν} {node : Json} (h : IsNode outline.toJson node) :
    node.member? "children" ≠ some (.arr []) := by
  obtain ⟨⟨entry, children⟩, rfl⟩ := exists_eq_toJson_of_isNode h
  rw [member?_children_mk]
  split
  · exact nofun
  · next hchildren =>
    intro hempty
    injection hempty with hempty
    injection hempty with hempty
    exact hchildren (List.map_eq_nil_iff.mp hempty)

/-! ### Reading and writing -/

/-- **Outlines are read back as they were written, and what is read has a canonical form.** The form is read as what it
was made of and written as itself, and lists nothing where nothing is nested (`to_dict` and `from_dict`;
specification, section 6). -/
theorem reads_canonical :
    (∀ outline : Outline String, ofJson outline.toJson = .ok (outline.rename .str)) ∧
    (∀ outline : Outline Json, ofJson outline.toJson = .ok outline) ∧
    ∀ data canonical, (ofJson data).map toJson = .ok canonical →
      ofJson canonical = ofJson data ∧ (ofJson canonical).map toJson = .ok canonical ∧
        ∀ node, IsNode canonical node → node.member? "children" ≠ some (.arr []) := by
  refine ⟨ofJson_toJson, ofJson_toJson_self, fun data canonical hcanonical => ?_⟩
  cases hread : ofJson data with
  | error error =>
    rw [hread] at hcanonical
    cases hcanonical
  | ok outline =>
    rw [hread] at hcanonical
    cases hcanonical
    rw [ofJson_toJson_self]
    exact ⟨rfl, rfl, fun node => children_ne_empty_of_isNode⟩

/-- A heading whose level is a text and whose range ends in a truth value and a number with a fraction. Of the two entries
nested in it one has a list with nothing in it, and the other has null. -/
def loosely : Json :=
  .obj [("range", .arr [.bool true, .real ⟨false, 0x401E000000000000⟩]), ("name", .int 7), ("kind", .obj [("heading", .str " 2 ")]),
    ("children", .arr [.obj [("name", .str "a"), ("kind", .obj [("named", .str "label")]), ("range", .str "34"),
        ("children", .arr [])],
      .obj [("kind", .str "group"), ("children", .null), ("name", .str ""), ("range", .arr [.int 4, .str "1_0"])]])]

/-- Its canonical form. -/
def strictly : Json :=
  .obj [("name", .int 7), ("kind", .obj [("heading", .int 2)]), ("range", .arr [.int 1, .int 7]),
    ("children", .arr [.obj [("name", .str "a"), ("kind", .obj [("named", .str "label")]), ("range", .arr [.int 3, .int 4])],
      .obj [("name", .str ""), ("kind", .str "group"), ("range", .arr [.int 4, .int 10])]])]

theorem reads_canonical_loosely :
    ofJson strictly = ofJson loosely ∧ (ofJson strictly).map toJson = .ok strictly ∧
      ∀ node, IsNode strictly node → node.member? "children" ≠ some (.arr []) :=
  reads_canonical.2.2 loosely strictly rfl

end DocOutline.Outline
