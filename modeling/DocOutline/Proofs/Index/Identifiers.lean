import DocOutline.Proofs.Store.Actions
import DocOutline.Tools.Workspace

/-!
# Identifiers of symbols

The identifiers of a document begin with what its path becomes, and two colons (`mark`). Paths that differ only in
slashes, points and hyphens become the same, and a path that holds two colons can go on where another one's mark ends;
the symbols of two such documents can get the same identifier (`confusable_iff`). All others are told apart by the marks
(`symbol?_of_toldApart`).
-/

namespace DocOutline.Index

open DocOutline.Symbol (Entry Name)
open DocOutline.Tools (Indexed)

/-- What all identifiers of the document at a path begin with. -/
def mark (path : String) : String := slugify path ++ "::"

/-- Whether an identifier may begin with the marks of two paths. -/
def Confusable (p q : String) : Prop :=
  (mark p).toList <+: (mark q).toList ∨ (mark q).toList <+: (mark p).toList

instance (p q : String) : Decidable (Confusable p q) := inferInstanceAs (Decidable (_ ∨ _))

variable {p q : String}

theorem Confusable.refl (p : String) : Confusable p p := .inl (List.prefix_refl _)

/-- **Paths are confused exactly when names in the two documents can get the same identifier.** -/
theorem confusable_iff : Confusable p q ↔ ∃ name name', symbolId p name = symbolId q name' := by
  constructor
  · have hshared {p q : String} (h : (mark p).toList <+: (mark q).toList) :
        ∃ name name', symbolId p name = symbolId q name' := by
      obtain ⟨rest, hrest⟩ := h
      refine ⟨String.ofList rest, "", String.toList_inj.mp ?_⟩
      rw [symbolId, symbolId, ← mark, ← mark, String.toList_append, String.toList_append, String.toList_ofList, hrest]
      exact (List.append_nil _).symm
    rintro (h | h)
    · exact hshared h
    · obtain ⟨name, name', heq⟩ := hshared h
      exact ⟨name', name, heq.symm⟩
  · rintro ⟨name, name', heq⟩
    rw [symbolId, symbolId, ← mark, ← mark] at heq
    have hlists := congrArg String.toList heq
    rw [String.toList_append, String.toList_append] at hlists
    exact List.prefix_or_prefix_of_prefix (hlists ▸ List.prefix_append _ _) (List.prefix_append _ _)

theorem confusable_of_isPrefix {id : List Char} (hp : (mark p).toList <+: id) (hq : (mark q).toList <+: id) :
    Confusable p q := List.prefix_or_prefix_of_prefix hp hq

theorem toList_mark (path : String) : (mark path).toList = (slugify path).toList ++ [':', ':'] := by
  rw [mark, String.toList_append]; rfl

theorem not_mem_slugify {path : String} (h : ':' ∉ path.toList) : ':' ∉ (slugify path).toList := by
  rw [slugify, String.toList_ofList, List.mem_map]
  rintro ⟨c, hc, heq⟩
  split at heq
  · cases heq
  · exact h (heq ▸ hc)

/-- Two lists without an item are equal when one goes on with it inside the other. -/
theorem eq_of_isPrefix_append {α : Type} {a b rest more : List α} {x : α} (ha : x ∉ a) (hb : x ∉ b)
    (h : a ++ x :: rest <+: b ++ x :: more) : a = b := by
  induction a generalizing b with
  | nil =>
    cases b with
    | nil => rfl
    | cons y b =>
      rw [List.nil_append, List.cons_append, List.cons_prefix_cons] at h
      exact absurd (h.1 ▸ List.mem_cons_self) hb
  | cons y a ih =>
    cases b with
    | nil =>
      rw [List.nil_append, List.cons_append, List.cons_prefix_cons] at h
      exact absurd (h.1 ▸ List.mem_cons_self) ha
    | cons z b =>
      rw [List.cons_append, List.cons_append, List.cons_prefix_cons] at h
      rw [h.1, ih (fun hx => ha (.tail _ hx)) (fun hx => hb (.tail _ hx)) h.2]

/-- Paths without colons are confused only if they become the same. -/
theorem confusable_iff_of_no_colon (hp : ':' ∉ p.toList) (hq : ':' ∉ q.toList) :
    Confusable p q ↔ slugify p = slugify q := by
  have hp := not_mem_slugify hp
  have hq := not_mem_slugify hq
  constructor
  · rintro (h | h) <;> rw [toList_mark, toList_mark] at h
    · exact String.toList_inj.mp (eq_of_isPrefix_append hp hq h)
    · exact (String.toList_inj.mp (eq_of_isPrefix_append hq hp h)).symm
  · intro h
    rw [Confusable, mark, mark, h]
    exact Confusable.refl q

/-! ## Symbols of a document -/

section

variable {ν : Type}

/-- Whether a symbol is one of the document at a path, and spans one of the entries of its outline. -/
structure DocSymbol.IssuedFor (path : String) (entries : List (Entry ν)) (symbol : DocSymbol ν) : Prop where
  file : symbol.file = path
  mark : (mark path).toList <+: symbol.id.toList
  span : ∃ entry ∈ entries, symbol.byteOffset = entry.start ∧ symbol.byteLength = entry.stop - entry.start

theorem DocSymbol.IssuedFor.mono {path : String} {entries entries' : List (Entry ν)} {symbol : DocSymbol ν}
    (h : symbol.IssuedFor path entries) (hentries : entries ⊆ entries') : symbol.IssuedFor path entries' := by
  obtain ⟨entry, hentry, hspan⟩ := h.span
  exact ⟨h.file, h.mark, entry, hentries hentry, hspan⟩

variable [Name ν]

theorem mark_isPrefix_symbolId (path qualifiedName : String) :
    (mark path).toList <+: (symbolId path qualifiedName).toList := by
  rw [symbolId, ← mark, String.toList_append]
  exact List.prefix_append _ _

theorem isPrefix_numbered (issued : List String) (id : String) : id.toList <+: (numbered issued id).toList := by
  unfold numbered
  split
  · simp only [String.toList_append, List.append_assoc]
    exact List.prefix_append _ _
  · exact List.prefix_refl _

mutual

theorem issuedFor_collect (path : String) (lines : Lines) (parent? : Option (DocSymbol ν)) (issued : List String)
    (depth : Nat) (outline : Outline ν) :
    ∀ symbol ∈ (collect path lines parent? issued outline).1,
      symbol.IssuedFor path ((Outline.flatten depth outline).map Prod.fst) := by
  match outline with
  | .mk entry children =>
    unfold collect
    rw [Outline.flatten, List.map_cons]
    split
    · exact fun symbol hmem =>
        (issuedFor_collectAll path lines parent? issued (depth + 1) children symbol hmem).mono (List.subset_cons_self _ _)
    · rintro symbol (_ | ⟨_, hmem⟩)
      · exact ⟨rfl, (mark_isPrefix_symbolId path _).trans (isPrefix_numbered issued _), entry, .head _, rfl, rfl⟩
      · exact (issuedFor_collectAll path lines _ _ (depth + 1) children symbol hmem).mono (List.subset_cons_self _ _)

/-- Each symbol of a document begins with the document's mark and spans one of its entries. -/
theorem issuedFor_collectAll (path : String) (lines : Lines) (parent? : Option (DocSymbol ν)) (issued : List String)
    (depth : Nat) (outlines : List (Outline ν)) :
    ∀ symbol ∈ (collectAll path lines parent? issued outlines).1,
      symbol.IssuedFor path ((Outline.flattenAll depth outlines).map Prod.fst) := by
  match outlines with
  | [] => exact nofun
  | outline :: outlines =>
    intro symbol hmem
    rw [Outline.flattenAll, List.map_append]
    rw [collectAll] at hmem
    rcases List.mem_append.mp hmem with hmem | hmem
    · exact (issuedFor_collect path lines parent? issued depth outline symbol hmem).mono (List.subset_append_left _ _)
    · exact (issuedFor_collectAll path lines parent? _ depth outlines symbol hmem).mono (List.subset_append_right _ _)

end

/-- The members of a symbol are in its stored form. -/
theorem DocSymbol.optionalMember_id (symbol : DocSymbol ν) :
    symbol.toJson.optionalMember "id" = .ok (some (.str symbol.id)) := rfl

end

end DocOutline.Index

namespace DocOutline

open DocOutline.Index (Confusable DocSymbol documentSymbols)
open DocOutline.Tools (Indexed)

/-- The symbols of a document, before they are stored. -/
def Tools.Indexed.docSymbols (document : Indexed) : List (DocSymbol String) :=
  documentSymbols document.file (Lines.ofText document.content) document.forest

theorem Tools.Indexed.issuedFor {document : Indexed} {symbol : DocSymbol String} (h : symbol ∈ document.docSymbols) :
    symbol.IssuedFor document.file ((Outline.flattenAll 0 document.forest).map Prod.fst) :=
  Index.issuedFor_collectAll _ _ _ _ 0 _ symbol h

/-! ## Symbols of several documents -/

variable {documents : List Indexed} {document other : Indexed} {symbol symbol' : DocSymbol String}

/-- Whether no two of several documents have confusable paths. -/
def ToldApart (documents : List Indexed) : Prop :=
  ∀ document ∈ documents, ∀ other ∈ documents, Confusable document.file other.file → document = other

/-- Documents whose symbols share an identifier have confusable paths. -/
theorem confusable_of_id_eq (hsymbol : symbol ∈ document.docSymbols) (hsymbol' : symbol' ∈ other.docSymbols)
    (h : symbol.id = symbol'.id) : Confusable document.file other.file := by
  have hmark := (Indexed.issuedFor hsymbol).mark
  have hmark' := (Indexed.issuedFor hsymbol').mark
  exact Index.confusable_of_isPrefix hmark (h ▸ hmark')

/-- The symbols that are stored for several documents. -/
theorem Tools.flatMap_symbols (documents : List Indexed) :
    documents.flatMap Indexed.symbols = (documents.flatMap Indexed.docSymbols).map (·.toJson) := by
  rw [List.map_flatMap]
  rfl

namespace Snapshot

/-- Among stored symbols, the first one with an identifier is found. -/
theorem symbolAmong_map (id : Json) (symbols : List (DocSymbol String)) :
    symbolAmong id (symbols.map (·.toJson)) =
      .ok ((symbols.find? fun symbol => (Json.str symbol.id).same id).map (·.toJson)) := by
  induction symbols with
  | nil => rfl
  | cons symbol symbols ih =>
    rw [List.map_cons, symbolAmong, DocSymbol.optionalMember_id, List.find?_cons]
    cases h : (Json.str symbol.id).same id <;> simp [h, ih, bind, Except.bind, pure, Except.pure]

/-- An identifier leads to a symbol of the document it was issued for. -/
theorem symbol?_of_toldApart {snapshot : Snapshot}
    (stored : snapshot.symbols = .arr (documents.flatMap Indexed.symbols))
    (apart : ToldApart documents) (hdocument : document ∈ documents) (hsymbol : symbol ∈ document.docSymbols) :
    ∃ found ∈ document.docSymbols, found.id = symbol.id ∧
      snapshot.symbol? (.str symbol.id) = .ok (some found.toJson) := by
  have hmem : symbol ∈ documents.flatMap Indexed.docSymbols := List.mem_flatMap.mpr ⟨document, hdocument, hsymbol⟩
  match hfind : (documents.flatMap Indexed.docSymbols).find? fun found => (Json.str found.id).same (.str symbol.id) with
  | none => exact absurd (beq_self_eq_true symbol.id) (List.find?_eq_none.mp hfind symbol hmem)
  | some found =>
    have hsame := List.find?_some hfind
    have hid : found.id = symbol.id := eq_of_beq hsame
    obtain ⟨other, hother, hfound⟩ := List.mem_flatMap.mp (List.mem_of_find?_eq_some hfind)
    obtain rfl : other = document := apart other hother document hdocument (confusable_of_id_eq hfound hsymbol hid)
    refine ⟨found, hfound, hid, ?_⟩
    rw [symbol?, stored, Json.elements, Json.elements?, Tools.flatMap_symbols]
    exact (symbolAmong_map _ _).trans (by rw [hfind]; rfl)

end Snapshot

end DocOutline
