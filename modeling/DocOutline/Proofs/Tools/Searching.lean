import DocOutline.Proofs.Store.Listing
import DocOutline.Proofs.Tools.Discovery
import DocOutline.Proofs.Tools.Outlining

/-!
# Symbols that are found

A search looks through the symbols of a snapshot, keeps some, puts the best first and shows each with its points. So what it
answers with are symbols of the snapshot, whatever it was asked (`searchSymbols_ok`); and when it is asked with texts, it answers
with all that match, up to the number that was asked for (`searchSymbols_text`). An identifier that no symbol has is answered with
a failure (`getSymbol_of_symbol?_none`).
-/

namespace DocOutline

open DocOutline.Index (DocSymbol)

namespace Index

variable {query : Query} {symbol : DocSymbol String} {symbols : List (DocSymbol String)} {kind? pattern? : Option String}

/-! ## Any values -/

theorem mem_of_mapM_eq_ok {ε α β : Type} {f : α → Except ε β} {as : List α} {bs : List β} (h : as.mapM f = .ok bs) :
    ∀ b ∈ bs, ∃ a ∈ as, f a = .ok b := by
  induction as generalizing bs with
  | nil =>
    cases h
    exact nofun
  | cons a as ih =>
    rw [List.mapM_cons] at h
    obtain ⟨first, hfirst, h⟩ := Grammar.exists_of_bind_eq_ok h
    obtain ⟨others, hothers, hreturn⟩ := Grammar.exists_of_bind_eq_ok h
    cases hreturn
    refine List.forall_mem_cons.mpr ⟨⟨a, .head _, hfirst⟩, fun b hb => ?_⟩
    obtain ⟨other, hother, hrun⟩ := ih hothers b hb
    exact ⟨other, .tail _ hother, hrun⟩

/-- A search only finds symbols that it looks through. -/
theorem search_subset {query : Query} {kind pattern : Json} {symbols results : List Json}
    (h : search query kind pattern symbols = .ok results) : results ⊆ symbols := by
  obtain ⟨pairs, hfound, hreturn⟩ := Grammar.exists_of_bind_eq_ok h
  obtain ⟨scored, hscored, hpairs⟩ := Grammar.exists_of_bind_eq_ok hfound
  cases hreturn
  cases hpairs
  intro result hresult
  obtain ⟨⟨points, symbol⟩, hpair, rfl⟩ := List.mem_map.mp hresult
  rw [List.mem_mergeSort, List.mem_filter, List.mem_filterMap] at hpair
  obtain ⟨⟨scored?, hmem, hsome⟩, -⟩ := hpair
  obtain ⟨candidate, hcandidate, hrun⟩ := mem_of_mapM_eq_ok hscored scored? hmem
  obtain ⟨points?, -, hreturn⟩ := Grammar.exists_of_bind_eq_ok hrun
  cases hreturn
  obtain ⟨_, -, heq⟩ := Option.map_eq_some_iff.mp hsome
  cases heq
  exact hcandidate

/-! ## Symbols as they are stored -/

namespace DocSymbol

/-- The name of a symbol behind those around it, if there are any. -/
def fullName (symbol : DocSymbol String) : String :=
  if symbol.parent?.isSome then symbol.qualifiedName else symbol.name

def points (symbol : DocSymbol String) (query : Query) : Nat :=
  query.points (Text.lower symbol.name) (Text.lower symbol.fullName)

/-- Whether a symbol is of a kind. An empty text stands for any. -/
def isOfKind (symbol : DocSymbol String) (kind : String) : Bool := kind = "" || symbol.kind.label == kind

/-- Whether a symbol's document matches a pattern, or the pattern behind any folders. An empty text stands for any. -/
def isIn (symbol : DocSymbol String) (pattern : String) : Bool :=
  pattern = "" || Text.matchesGlob pattern symbol.file || Text.matchesGlob ("*/" ++ pattern) symbol.file

/-- Whether a symbol passes a filter for its kind and one for its document, if there are any. -/
def passes (symbol : DocSymbol String) (kind? pattern? : Option String) : Bool :=
  kind?.all symbol.isOfKind && pattern?.all symbol.isIn

def isFound (symbol : DocSymbol String) (query : Query) (kind? pattern? : Option String) : Bool :=
  symbol.passes kind? pattern? && decide (0 < symbol.points query)

def foundBy (symbol : DocSymbol String) (query : Query) : Json :=
  .obj [("id", .str symbol.id), ("kind", .str symbol.kind.label), ("lsp_kind", .nat symbol.lspKind),
    ("name", .str symbol.name), ("qualified_name", .str symbol.fullName), ("file", .str symbol.file),
    ("line", .nat symbol.line), ("score", .nat (symbol.points query))]

theorem shown_fullName (symbol : DocSymbol String) :
    (if symbol.parent?.isSome then .str symbol.qualifiedName else Symbol.Name.toJson symbol.name) = Json.str symbol.fullName := by
  rw [fullName]
  split <;> rfl

theorem score_toJson (query : Query) (symbol : DocSymbol String) : score query symbol.toJson = .ok (symbol.points query) := by
  rw [toJson, shown_fullName]
  rfl

theorem searchResult_toJson (query : Query) (symbol : DocSymbol String) :
    Tools.searchResult query symbol.toJson = .ok (symbol.foundBy query) := by
  rw [Tools.searchResult, score_toJson, toJson, shown_fullName]
  rfl

end DocSymbol

/-- A filter that is a text, or absent. -/
def filterOf (text? : Option String) : Json := .ofOption (text?.map .str)

theorem isPresent_filterOf (text : String) : (filterOf (some text)).isPresent = decide (text ≠ "") := rfl

theorem isAdmitted_toJson : isAdmitted (filterOf kind?) (filterOf pattern?) symbol.toJson =
    .ok (symbol.passes kind? pattern?) := by
  have hkind : (if (filterOf kind?).isPresent then hasKind (filterOf kind?) symbol.toJson else .ok true) =
      .ok (kind?.all symbol.isOfKind) := by
    cases kind? with
    | none => rfl
    | some kind =>
      have hlabel : hasKind (filterOf (some kind)) symbol.toJson = .ok (symbol.kind.label == kind) := rfl
      by_cases hempty : kind = "" <;> simp [isPresent_filterOf, DocSymbol.isOfKind, hlabel, hempty]
  have hfile : (if (filterOf pattern?).isPresent then inFiles (filterOf pattern?) symbol.toJson else .ok true) =
      .ok (pattern?.all symbol.isIn) := by
    cases pattern? with
    | none => rfl
    | some pattern =>
      have hglob : inFiles (filterOf (some pattern)) symbol.toJson =
          .ok (Text.matchesGlob pattern symbol.file || Text.matchesGlob ("*/" ++ pattern) symbol.file) := rfl
      by_cases hempty : pattern = "" <;> simp [isPresent_filterOf, DocSymbol.isIn, hglob, hempty]
  rw [isAdmitted, hkind, hfile, DocSymbol.passes]
  cases kind?.all symbol.isOfKind <;> rfl

/-- The symbols that match a query and filters, the best first. -/
def ranked (query : Query) (kind? pattern? : Option String) (symbols : List (DocSymbol String)) : List (DocSymbol String) :=
  (symbols.filter (·.isFound query kind? pattern?)).mergeSort fun a b => b.points query ≤ a.points query

theorem scoreIfAdmitted_toJson : scoreIfAdmitted query (filterOf kind?) (filterOf pattern?) symbol.toJson =
    .ok (if symbol.passes kind? pattern? then some (symbol.points query) else none) := by
  rw [scoreIfAdmitted, isAdmitted_toJson, DocSymbol.score_toJson]
  cases symbol.passes kind? pattern? <;> rfl

theorem found_toJson : found query (filterOf kind?) (filterOf pattern?) (symbols.map (·.toJson)) =
    .ok ((symbols.filter (·.isFound query kind? pattern?)).map fun symbol => (symbol.points query, symbol.toJson)) := by
  have hscored : (symbols.map (·.toJson)).mapM (fun symbol => do
      return (← scoreIfAdmitted query (filterOf kind?) (filterOf pattern?) symbol).map fun points => (points, symbol)) =
      Except.ok (symbols.map fun symbol =>
        if symbol.passes kind? pattern? then some (symbol.points query, symbol.toJson) else none) := by
    rw [List.mapM_map]
    refine (congrArg (symbols.mapM ·) (funext fun symbol => ?_)).trans List.mapM_pure
    rw [Function.comp_apply, scoreIfAdmitted_toJson]
    cases symbol.passes kind? pattern? <;> rfl
  rw [found, hscored]
  refine congrArg Except.ok ?_
  rw [List.filterMap_map, List.filter_filterMap, ← List.filterMap_eq_filter, List.map_filterMap]
  refine List.filterMap_congr fun symbol _ => ?_
  cases hpasses : symbol.passes kind? pattern? <;> by_cases hpoints : symbol.points query = 0 <;>
    simp [DocSymbol.isFound, Option.guard, Nat.pos_iff_ne_zero, hpasses, hpoints]

/-- A search among symbols finds those that match. -/
theorem search_toJson : search query (filterOf kind?) (filterOf pattern?) (symbols.map (·.toJson)) =
    .ok ((ranked query kind? pattern? symbols).map (·.toJson)) := by
  have hsort := @List.map_mergeSort _ _ (fun a b => decide (b.points query ≤ a.points query))
    (fun a b : Nat × Json => decide (b.1 ≤ a.1)) (fun symbol : DocSymbol String => (symbol.points query, symbol.toJson))
    (symbols.filter (·.isFound query kind? pattern?)) (fun _ _ _ _ => rfl)
  rw [search, found_toJson]
  change Except.ok _ = _
  rw [← hsort, List.map_map]
  rfl

end Index

theorem Json.subset_of_takeTo {α : Type} {stop : Json} {list taken : List α} (h : Json.takeTo stop list = .ok taken) :
    taken ⊆ list := by
  unfold Json.takeTo at h
  split at h
  · cases h
    exact List.Subset.refl _
  · split at h
    · cases h
      exact List.take_subset _ _
    · cases h

theorem Json.eq_str_of_same {text : String} {value : Json} (h : (Json.str text).same value = true) : value = .str text := by
  cases value with
  | str other => rw [eq_of_beq h]
  | null | bool _ | int _ | real _ | arr _ | obj _ => cases h

namespace Tools

open DocOutline.Action

variable {store : Store} {site : Site} {world after : World} {workspace : String} {snapshot : Snapshot} {answer : Json}
  {symbols : List (DocSymbol String)}

/-- **A search finds symbols of the snapshot**, each shown as it is. -/
theorem searchSymbols_ok {query kind pattern stop : Json}
    (hopen : Store.openIn site.storage? site world = (.ok store, world))
    (hload : store.load workspace site world = (.ok (some snapshot), world))
    (hsymbols : snapshot.symbols = .arr (symbols.map (·.toJson)))
    (hrun : searchSymbols (.str workspace) query kind pattern stop site world = (.ok answer, after)) :
    ∀ items, answer.member? "results" = some (.arr items) →
      ∀ item ∈ items, ∃ symbol ∈ symbols, ∃ words, item = symbol.foundBy words := by
  intro items hitems item hitem
  unfold searchSymbols at hrun
  split at hrun
  · cases hrun
    cases hitems
  · rw [bind_of_ok _ read_apply, bind_of_ok _ hopen] at hrun
    replace hrun := (bind_of_ok _ hload).symm.trans hrun
    obtain ⟨text, _, -, hrun⟩ := bind_ok.mp hrun
    obtain ⟨found, _, hfound, hrun⟩ := bind_ok.mp hrun
    obtain ⟨named, _, hnamed, hrun⟩ := bind_ok.mp hrun
    obtain ⟨results, _, hresults, hreturn⟩ := bind_ok.mp hrun
    cases hreturn
    obtain rfl : results = items := Json.arr.inj (Option.some_injective _ hitems)
    obtain ⟨hfound, -⟩ := access_ok.mp hfound
    rw [Snapshot.search, hsymbols] at hfound
    obtain ⟨stored, hstored, hshown⟩ := mem_of_mapM_ok hresults item hitem
    obtain ⟨before, after, hshown⟩ := hshown
    have hmem := Index.search_subset hfound (Json.subset_of_takeTo (access_ok.mp hnamed).1 hstored)
    obtain ⟨symbol, hsymbol, rfl⟩ := List.mem_map.mp hmem
    have hresult := (access_ok.mp hshown).1
    rw [DocSymbol.searchResult_toJson] at hresult
    exact ⟨symbol, hsymbol, _, (Except.ok.inj hresult).symm⟩

def searchAnswer (workspace text : String) (results : List Json) : Json :=
  .obj [("workspace", .str workspace), ("query", .str text), ("result_count", .nat results.length), ("results", .arr results)]

/-- **A search for a text answers** with the symbols of the snapshot that match, the best first. -/
theorem searchSymbols_text {kind? pattern? : Option String} (hopen : Store.openIn site.storage? site world = (.ok store, world))
    (hload : store.load workspace site world = (.ok (some snapshot), world))
    (hsymbols : snapshot.symbols = .arr (symbols.map (·.toJson)))
    (hkind : ∀ kind ∈ kind?, kind = "" ∨ kind ∈ symbolKinds) (text : String) (stop : Nat) :
    searchSymbols (.str workspace) (.str text) (Index.filterOf kind?) (Index.filterOf pattern?) (.nat stop) site world =
      (.ok (searchAnswer workspace text (((Index.ranked (.ofText text) kind? pattern? symbols).take stop).map
        (·.foundBy (.ofText text)))), world) := by
  have hknown : ((Index.filterOf kind?).isPresent &&
      !symbolKinds.any fun word => (Index.filterOf kind?).same (.str word)) = false := by
    cases kind? with
    | none => rfl
    | some kind =>
      rcases hkind kind rfl with rfl | hmem
      · rfl
      · have hsame : symbolKinds.any (fun word => (Index.filterOf (some kind)).same (.str word)) = true :=
          List.any_eq_true.mpr ⟨kind, hmem, beq_self_eq_true kind⟩
        rw [hsame, Bool.not_true, Bool.and_false]
  have hfound : snapshot.search (.ofText text) (Index.filterOf kind?) (Index.filterOf pattern?) =
      .ok ((Index.ranked (.ofText text) kind? pattern? symbols).map (·.toJson)) := by
    rw [Snapshot.search, hsymbols]
    exact Index.search_toJson
  have hshown : ∀ symbol ∈ (Index.ranked (.ofText text) kind? pattern? symbols).take stop,
      access (searchResult (.ofText text) symbol.toJson) site world = (.ok (symbol.foundBy (.ofText text)), world) :=
    fun symbol _ => access_ok.mpr ⟨DocSymbol.searchResult_toJson _ symbol, rfl⟩
  unfold searchSymbols
  rw [hknown, if_neg Bool.false_ne_true, bind_of_ok _ read_apply, bind_of_ok _ hopen]
  refine (bind_of_ok _ hload).trans ?_
  refine (bind_of_ok _ (access_ok.mpr ⟨rfl, rfl⟩)).trans ?_
  refine (bind_of_ok _ (access_ok.mpr ⟨hfound, rfl⟩)).trans ?_
  refine (bind_of_ok _ (access_ok.mpr ⟨Discovery.takeTo_nat stop _, rfl⟩)).trans ?_
  rw [← List.map_take]
  exact bind_of_ok _ (Store.mapM_of_forall hshown)

/-- An identifier that no symbol has is answered with a failure. -/
theorem getSymbol_of_symbol?_none {id : Json} (hopen : Store.openIn site.storage? site world = (.ok store, world))
    (hload : store.load workspace site world = (.ok (some snapshot), world)) (hsymbol : snapshot.symbol? id = .ok none) :
    getSymbol (.str workspace) id site world = (.ok (failure s!"Symbol not found: {id.display}"), world) := by
  have hpresent : Store.presentSymbol? snapshot id site world = (.ok none, world) := by
    rw [Store.presentSymbol?, bind_of_ok _ (access_ok.mpr ⟨hsymbol, rfl⟩)]
    rfl
  rw [getSymbol, bind_of_ok _ read_apply, bind_of_ok _ hopen]
  refine (bind_of_ok _ hload).trans ?_
  exact bind_of_ok _ hpresent

end Tools

end DocOutline
