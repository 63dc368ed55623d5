import DocOutline.Index.Symbols
import DocOutline.Outline.View

/-!
# The index and the shown outline

A document's symbols and its outline as it is shown come from two walks through the same outline: one gives a list, in which
each symbol names the one around it, the other nests objects. Main statement `standFor_documentSymbols`: the symbols stand for
those nodes that are shown with a kind of the protocol, one for each and in pre-order, and each is nested in the symbol that
stands for the nearest such node around its own.
-/

namespace DocOutline

/-- Names that are shown as their values are. -/
class Symbol.LawfulName (ν : Type) [Name ν] : Prop where
  display_toJson : ∀ name : ν, (Name.toJson name).display = Name.display name

instance : Symbol.LawfulName String := ⟨fun _ => rfl⟩

instance : Symbol.LawfulName Json := ⟨fun _ => rfl⟩

open DocOutline.Symbol (Entry LawfulName Name)

namespace Outline

/-! ## Nodes of a shown outline -/

/-- A node of a shown outline. The position in pre-order tells it from others that look the same. -/
structure ShownNode where
  position : Nat
  value : Json

def ShownNode.isSymbol (node : ShownNode) : Bool :=
  match node.value.member? "lsp_kind" with
  | none | some .null => false
  | some _ => true

mutual

/-- The nodes of a shown outline in pre-order, the first of which has position `next`, each with the nodes around it, the
innermost first. -/
def shownNodes (next : Nat) (around : List ShownNode) (value : Json) : List (ShownNode × List ShownNode) :=
  match value with
  | .obj members => (⟨next, .obj members⟩, around) :: shownBeneath (next + 1) (⟨next, .obj members⟩ :: around) members
  | value => [(⟨next, value⟩, around)]
termination_by structural value

/-- The nodes beneath one with the given members. -/
def shownBeneath (next : Nat) (around : List ShownNode) (members : List (String × Json)) :
    List (ShownNode × List ShownNode) :=
  match members with
  | [] => []
  | (name, value) :: members => if name = "children" then shownItems next around value else shownBeneath next around members
termination_by structural members

/-- The nodes of the items of an array. -/
def shownItems (next : Nat) (around : List ShownNode) (value : Json) : List (ShownNode × List ShownNode) :=
  match value with
  | .arr items => shownForest next around items
  | _ => []
termination_by structural value

def shownForest (next : Nat) (around : List ShownNode) (values : List Json) : List (ShownNode × List ShownNode) :=
  match values with
  | [] => []
  | value :: values =>
    let first := shownNodes next around value
    first ++ shownForest (next + first.length) around values
termination_by structural values

end

section

variable {ν : Type} [Name ν] {lines : Lines} {entry : Entry ν} {next : Nat} {around : List ShownNode}

/-- No member of an entry itself holds other nodes. -/
theorem shownBeneath_shownMembers (rest : List (String × Json)) :
    shownBeneath next around (shownMembers lines entry ++ rest) = shownBeneath next around rest := by
  cases hlevel : entry.kind.level? <;> simp [shownMembers, shownBeneath, hlevel]

theorem shownBeneath_childrenMember (children : List Json) :
    shownBeneath next around (childrenMember children) = shownForest next around children := by
  cases children with
  | nil => rfl
  | cons child children => simp [childrenMember, shownBeneath, shownItems]

/-- An outline is shown as a node, and what is nested in it as nodes beneath that. -/
theorem shownNodes_toShown (children : List (Outline ν)) :
    shownNodes next around (toShown lines (.mk entry children)) =
      (⟨next, toShown lines (.mk entry children)⟩, around) ::
        shownForest (next + 1) (⟨next, toShown lines (.mk entry children)⟩ :: around) (toShownAll lines children) := by
  rw [toShown, shownNodes, shownBeneath_shownMembers, shownBeneath_childrenMember]

theorem member?_lspKind_toShown (children : List (Outline ν)) :
    (toShown lines (.mk entry children)).member? "lsp_kind" = some (.ofOption (entry.kind.lspKind?.map .nat)) := rfl

/-- A node is shown with the protocol's kind of its entry. -/
theorem isSymbol_toShown (children : List (Outline ν)) :
    ShownNode.isSymbol ⟨next, toShown lines (.mk entry children)⟩ = entry.kind.lspKind?.isSome := by
  rw [ShownNode.isSymbol, member?_lspKind_toShown]
  cases entry.kind.lspKind? <;> rfl

end

end Outline

namespace Index

open DocOutline.Outline (ShownNode shownNodes shownForest toShown toShownAll)

/-! ## Symbols that stand for nodes -/

/-- Whether a stored symbol says the same as a shown node. -/
structure SaysSame (symbol node : Json) : Prop where
  shared : ∀ name ∈ ["name", "kind", "lsp_kind", "line", "end_line"],
    ∃ value, symbol.member? name = some value ∧ node.member? name = some value
  range : ∃ start stop, node.member? "range" = some (.arr [.int start, .int stop]) ∧
    symbol.member? "byte_offset" = some (.int start) ∧ symbol.member? "byte_length" = some (.int (stop - start))

/-- Whether a stored symbol names another one as the one around it, and is qualified by its name. -/
structure NestedIn (symbol outer : Json) : Prop where
  parent : ∃ id, outer.member? "id" = some id ∧ symbol.member? "parent" = some id
  qualified : ∃ qualifier name : Json, outer.member? "qualified_name" = some qualifier ∧
    symbol.member? "name" = some name ∧
    symbol.member? "qualified_name" = some (.str (qualifier.display ++ "." ++ name.display))

/-- Whether a stored symbol names none around it, and is qualified by its name alone. -/
structure Outermost (symbol : Json) : Prop where
  parent : symbol.member? "parent" = some .null
  qualified : ∃ name, symbol.member? "name" = some name ∧ symbol.member? "qualified_name" = some name

/-- Whether a stored symbol is nested in the one that stands for a node, where `earlier` are symbols with the nodes that they
stand for. -/
def NestedAt (earlier : List (Json × ShownNode)) (symbol : Json) (outer? : Option ShownNode) : Prop :=
  match outer? with
  | none => Outermost symbol
  | some outer => ∃ parent, (parent, outer) ∈ earlier ∧ NestedIn symbol parent

/-- Whether stored symbols stand for nodes, one for each and in their order: each symbol says the same as its node and is
nested in the symbol in front of it that stands for the nearest node around with a kind of the protocol. -/
inductive StandFor : (earlier : List (Json × ShownNode)) → List Json → List (ShownNode × List ShownNode) → Prop
  | nil {earlier} : StandFor earlier [] []
  | cons {earlier symbol node around symbols nodes} (hsame : SaysSame symbol node.value)
      (hnested : NestedAt earlier symbol (around.find? ShownNode.isSymbol))
      (hrest : StandFor ((symbol, node) :: earlier) symbols nodes) :
      StandFor earlier (symbol :: symbols) ((node, around) :: nodes)

/-- Symbols in front do no harm. -/
theorem StandFor.append {earlier : List (Json × ShownNode)} {symbols symbols' : List Json}
    {nodes nodes' : List (ShownNode × List ShownNode)} (h : StandFor earlier symbols nodes)
    (h' : ∀ earlier', earlier ⊆ earlier' → StandFor earlier' symbols' nodes') :
    StandFor earlier (symbols ++ symbols') (nodes ++ nodes') := by
  induction h with
  | nil => exact h' _ (List.Subset.refl _)
  | cons hsame hnested _ ih =>
    exact .cons hsame hnested (ih fun earlier' hsubset => h' earlier' fun pair hpair => hsubset (.tail _ hpair))

/-! ## Two walks -/

section

variable {ν : Type} [Name ν] {path : String} {lines : Lines} {entry : Entry ν} {parent? : Option (DocSymbol ν)}

/-- The name of a stored symbol behind those around it. -/
def DocSymbol.qualified (symbol : DocSymbol ν) : Json :=
  if symbol.parent?.isSome then .str symbol.qualifiedName else Name.toJson symbol.name

/-- The symbol of an entry, where `id` is its identifier. -/
def DocSymbol.ofEntry (path : String) (lines : Lines) (parent? : Option (DocSymbol ν)) (id : String) (lspKind : Nat)
    (entry : Entry ν) : DocSymbol ν where
  id
  file := path
  name := entry.name
  qualifiedName := qualify parent? entry.name
  kind := entry.kind
  lspKind
  parent? := parent?.map (·.id)
  line := lines.lineOf entry.start + 1
  endLine := lines.endLineOf entry.start entry.stop + 1
  byteOffset := entry.start
  byteLength := entry.stop - entry.start

/-- Whether the symbol around is one of those in front, and stands for the nearest node around with a kind of the protocol. -/
def IsAround (earlier : List (Json × ShownNode)) (parent? : Option (DocSymbol ν)) (outer? : Option ShownNode) : Prop :=
  match parent?, outer? with
  | none, none => True
  | some parent, some outer =>
    (parent.toJson, outer) ∈ earlier ∧ parent.qualified.display = parent.qualifiedName
  | _, _ => False

theorem IsAround.mono {earlier earlier' : List (Json × ShownNode)} {outer? : Option ShownNode}
    (h : IsAround earlier parent? outer?) (hsubset : earlier ⊆ earlier') : IsAround earlier' parent? outer? := by
  cases parent? <;> cases outer?
  case none.none => trivial
  case some.some => exact ⟨hsubset h.1, h.2⟩
  case none.some | some.none => exact h

/-- A symbol says the same as the node that its entry is shown as. -/
theorem saysSame_ofEntry {id : String} {lspKind : Nat} (hkind : entry.kind.lspKind? = some lspKind)
    (children : List (Outline ν)) :
    SaysSame (DocSymbol.ofEntry path lines parent? id lspKind entry).toJson (toShown lines (.mk entry children)) := by
  have hshown : (toShown lines (.mk entry children)).member? "lsp_kind" = some (.nat lspKind) := by
    rw [Outline.member?_lspKind_toShown, hkind]
    rfl
  constructor
  case shared =>
    simp only [List.forall_mem_cons, List.not_mem_nil, false_imp_iff, implies_true, and_true]
    exact ⟨⟨_, rfl, rfl⟩, ⟨_, rfl, rfl⟩, ⟨_, rfl, hshown⟩, ⟨_, rfl, rfl⟩, ⟨_, rfl, rfl⟩⟩
  case range => exact ⟨_, _, rfl, rfl, rfl⟩

theorem display_qualified_ofEntry [LawfulName ν] (id : String) (lspKind : Nat) :
    (DocSymbol.ofEntry path lines parent? id lspKind entry).qualified.display = qualify parent? entry.name := by
  cases parent? with
  | none => exact LawfulName.display_toJson entry.name
  | some parent => rfl

/-- A symbol is nested in the one around it. -/
theorem nestedAt_ofEntry [LawfulName ν] {earlier : List (Json × ShownNode)} {outer? : Option ShownNode}
    (haround : IsAround earlier parent? outer?) (id : String) (lspKind : Nat) :
    NestedAt earlier (DocSymbol.ofEntry path lines parent? id lspKind entry).toJson outer? := by
  cases parent? <;> cases outer?
  case none.none => exact ⟨rfl, _, rfl, rfl⟩
  case some.some parent outer =>
    obtain ⟨hearlier, hqualified⟩ := haround
    refine ⟨parent.toJson, hearlier, ⟨_, rfl, rfl⟩, parent.qualified, _, rfl, rfl, ?_⟩
    rw [hqualified, LawfulName.display_toJson]
    rfl
  case none.some | some.none => exact haround.elim

mutual

/-- The symbols of an outline stand for the nodes that it is shown as. -/
theorem standFor_collect [LawfulName ν] (path : String) (lines : Lines) (parent? : Option (DocSymbol ν))
    (issued : List String) (outline : Outline ν) (next : Nat) (around : List ShownNode) (earlier : List (Json × ShownNode))
    (haround : IsAround earlier parent? (around.find? ShownNode.isSymbol)) :
    StandFor earlier ((collect path lines parent? issued outline).1.map (·.toJson))
      ((shownNodes next around (toShown lines outline)).filter (·.1.isSymbol)) := by
  match outline with
  | .mk entry children =>
    rw [Outline.shownNodes_toShown, List.filter_cons, collect]
    have hsymbol : ShownNode.isSymbol ⟨next, toShown lines (.mk entry children)⟩ = _ := Outline.isSymbol_toShown children
    cases hkind : entry.kind.lspKind? with
    | none =>
      -- What is nested in the entry is nested in the same symbol as the entry.
      rw [hkind] at hsymbol
      have haround' : IsAround earlier parent?
          ((⟨next, toShown lines (.mk entry children)⟩ :: around).find? ShownNode.isSymbol) := by
        rwa [List.find?_cons_of_neg (by rw [hsymbol]; decide)]
      rw [if_neg (by rw [hsymbol]; decide)]
      exact standFor_collectAll path lines parent? issued children (next + 1) _ earlier haround'
    | some lspKind =>
      rw [hkind] at hsymbol
      rw [if_pos (by rw [hsymbol]; rfl)]
      refine .cons (saysSame_ofEntry hkind children) (nestedAt_ofEntry haround _ lspKind) ?_
      refine standFor_collectAll path lines _ _ children (next + 1) _ _ ?_
      rw [List.find?_cons_of_pos (by rw [hsymbol]; rfl)]
      exact ⟨.head _, display_qualified_ofEntry _ lspKind⟩

theorem standFor_collectAll [LawfulName ν] (path : String) (lines : Lines) (parent? : Option (DocSymbol ν))
    (issued : List String) (outlines : List (Outline ν)) (next : Nat) (around : List ShownNode)
    (earlier : List (Json × ShownNode))
    (haround : IsAround earlier parent? (around.find? ShownNode.isSymbol)) :
    StandFor earlier ((collectAll path lines parent? issued outlines).1.map (·.toJson))
      ((shownForest next around (toShownAll lines outlines)).filter (·.1.isSymbol)) := by
  match outlines with
  | [] => exact .nil
  | outline :: outlines =>
    rw [toShownAll, shownForest, List.filter_append, collectAll, List.map_append]
    refine (standFor_collect path lines parent? issued outline next around earlier haround).append ?_
    exact fun earlier' hsubset =>
      standFor_collectAll path lines parent? _ outlines _ around earlier' (haround.mono hsubset)

end

/-- **The index and the shown outline agree.** The symbols of a document stand for the nodes of its shown outline that
have a kind of the protocol, one for each and in pre-order, and are nested as these are (`collect_symbols` and
`node_to_dict`). -/
theorem standFor_documentSymbols [LawfulName ν] (path : String) (lines : Lines) (outlines : List (Outline ν)) :
    StandFor [] ((documentSymbols path lines outlines).map (·.toJson))
      ((shownForest 0 [] (toShownAll lines outlines)).filter (·.1.isSymbol)) :=
  standFor_collectAll path lines none [] outlines 0 [] [] trivial

end

def groupedOutline : Outline String :=
  .mk ⟨"X", .heading 1, 0, 3⟩ [.mk ⟨"", .group, 4, 21⟩ [.mk ⟨"f", .named .function, 11, 12⟩ []]]

/-- The function is nested in the heading, in the index as well as in what is shown, where the group stands between them. -/
theorem standFor_groupedOutline : LawfulName String ∧
    (documentSymbols "a.typ" (Lines.ofText "= X\n[ #let f(x) = x ]\n") [groupedOutline]).map
      (fun symbol => (symbol.id, symbol.lspKind, symbol.parent?)) =
        [("a-typ::X", 3, none), ("a-typ::X.f", 12, some "a-typ::X")] ∧
    ((shownForest 0 [] (toShownAll (Lines.ofText "= X\n[ #let f(x) = x ]\n") [groupedOutline])).filter
      (·.1.isSymbol)).map (fun node => (node.1.position, node.2.map (·.position))) = [(0, []), (2, [1, 0])] ∧
    StandFor [] ((documentSymbols "a.typ" (Lines.ofText "= X\n[ #let f(x) = x ]\n") [groupedOutline]).map (·.toJson))
      ((shownForest 0 [] (toShownAll (Lines.ofText "= X\n[ #let f(x) = x ]\n") [groupedOutline])).filter (·.1.isSymbol)) :=
  ⟨inferInstance, by decide +kernel, by decide +kernel, standFor_documentSymbols "a.typ" _ [groupedOutline]⟩

end Index

end DocOutline
