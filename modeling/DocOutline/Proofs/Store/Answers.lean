import DocOutline.Proofs.Json.LineEnds
import DocOutline.Proofs.Outline.Stored
import DocOutline.Proofs.Store.Saving
import DocOutline.Proofs.Text.RoundTrip

/-!
# What a store answers

The answers of an open store, by what is on the disk. A snapshot that is stored is loaded as it was if a recursion may go
through it (`loadWithin_of_isIndexed`), and none where there is none (`loadWithin_of_item?_eq_none`). The source of a symbol is the bytes of its document that the symbol
points to (`contentWithin_of_holdsText`).
-/

namespace DocOutline

namespace Snapshot

/-- A snapshot is taken back from its stored form. -/
theorem ofJson_toJson (snapshot : Snapshot) : ofJson snapshot.toJson = .ok snapshot := rfl

theorem isProper_toJson {snapshot : Snapshot} (hworkspace : snapshot.workspace.Forall Json.IsProper)
    (hindexedAt : snapshot.indexedAt.Forall Json.IsProper) (hdocuments : snapshot.documents.Forall Json.IsProper)
    (hsymbols : snapshot.symbols.Forall Json.IsProper) (houtlines : snapshot.outlines.Forall Json.IsProper) :
    snapshot.toJson.Forall Json.IsProper := by
  have hnodup : ["workspace", "indexed_at", "documents", "symbols", "outlines"].Nodup := by decide
  exact ⟨hnodup, hworkspace, hindexedAt, hdocuments, hsymbols, houtlines, trivial⟩

theorem lookup_map {α β γ : Type} [BEq α] (f : β → γ) (entries : List (α × β)) (key : α) :
    (entries.map fun (name, value) => (name, f value)).lookup key = (entries.lookup key).map f := by
  induction entries with
  | nil => rfl
  | cons entry entries ih =>
    obtain ⟨name, value⟩ := entry
    rw [List.map_cons, List.lookup_cons, List.lookup_cons, ih]
    cases key == name <;> rfl

/-- Whether a recursion may go through the stored form of a snapshot. -/
def isWithin (limit : Limit) (snapshot : Snapshot) : Bool := snapshot.toJson.isWithin limit 0

@[simp] theorem isWithin_none (snapshot : Snapshot) : snapshot.isWithin none = true := Json.isWithin_none _ _

/-- **The outline of a document is taken back from a snapshot**, if a recursion may go through it. -/
theorem outlineWithin?_outlinesJson {ν : Type} [Symbol.Name ν] (limit : Limit) (outlines : List (String × List (Outline ν)))
    (document : String) (workspace indexedAt documents symbols : Json) :
    outlineWithin? limit ⟨workspace, indexedAt, documents, symbols, Store.outlinesJson outlines⟩ document =
      match outlines.lookup document with
      | none => .ok none
      | some forest =>
        if Outline.areWithin limit 0 forest then .ok (some (Outline.renameAll Symbol.Name.toJson forest))
        else .error (.access .tooDeep) := by
  have hmember : (Store.outlinesJson outlines).optionalMember document =
      .ok ((outlines.lookup document).map fun forest => .arr (Outline.toJsonAll forest)) := by
    rw [← lookup_map]
    rfl
  simp only [outlineWithin?, hmember]
  match outlines.lookup document with
  | none => rfl
  | some forest =>
    change (do return some (← Outline.ofJsonAllWithin limit 0 (Outline.toJsonAll forest)) : Except Symbol.ReadError _) = _
    rw [Outline.ofJsonAllWithin_toJsonAll]
    simp only
    split <;> rfl

/-- The number of parts of a value. What has no parts has none. -/
def countOf (value : Json) : Nat := value.size.toOption.getD 0

def listed (snapshot : Snapshot) : Json :=
  .obj [("workspace", snapshot.workspace), ("indexed_at", snapshot.indexedAt),
    ("symbol_count", .nat (countOf snapshot.symbols)), ("document_count", .nat (countOf snapshot.documents))]

theorem summary_toJson {snapshot : Snapshot} {documents symbols : Nat} (hdocuments : snapshot.documents.size = .ok documents)
    (hsymbols : snapshot.symbols.size = .ok symbols) : summary snapshot.toJson = .ok snapshot.listed := by
  have hsummary : summary snapshot.toJson =
      (do
        let symbols ← snapshot.symbols.size
        let documents ← snapshot.documents.size
        return .obj [("workspace", snapshot.workspace), ("indexed_at", snapshot.indexedAt), ("symbol_count", .nat symbols),
          ("document_count", .nat documents)]) := rfl
  rw [hsummary, hsymbols, hdocuments, listed, countOf, countOf, hsymbols, hdocuments]
  rfl

end Snapshot

namespace Store

variable {store : Store} {site : Site} {world : World} {workspace : String} {snapshot : Snapshot}

/-! ## Snapshots -/

/-- A file with the text of a value is read as that value, if a recursion may go through it. -/
theorem readJson_of_item? {path : Path} {value : Json} (limit : Limit) (hfits : path.Fits)
    (hpassable : world.disk.IsPassable (path.start site.folder) path.parts) (hparts : path.parts ≠ [])
    (hitem : world.disk.item? (path.target site.folder) = some (.file (Text.encode value.pretty)))
    (hproper : value.Forall Json.IsProper) (hdigits : value.Forall Json.HasFewDigits) :
    readJson limit path site world =
      (if value.isWithin limit 0 then .ok value else .error (.access .tooDeep), world) := by
  unfold readJson
  rw [Action.bind_of_ok _ (Action.ask_ok.mpr ⟨Disk.read_of_isPassable hfits hpassable hparts hitem, rfl⟩),
    Action.bind_of_ok _ (Action.ofExcept_ok.mpr ⟨Text.decode?_encode _, rfl⟩), Json.unifyLineEnds_pretty,
    Json.readWithin_pretty limit hproper hdigits]
  split <;> rfl

theorem readJson_of_isIndexed (limit : Limit) (hopen : store.IsOpen site.folder world.disk) (h : Path.IsName workspace)
    (hindexed : store.IsIndexed site.folder workspace snapshot world.disk)
    (hproper : snapshot.toJson.Forall Json.IsProper) :
    readJson limit (store.indexPath workspace) site world =
      (if snapshot.isWithin limit then .ok snapshot.toJson else .error (.access .tooDeep), world) := by
  refine readJson_of_item? limit hindexed.fits (hopen.isPassable_indexPath h) (parts_indexPath_ne_nil h) ?_ hproper
    hindexed.digits
  rw [target_indexPath h, hindexed.index]

/-- **A snapshot that is stored is loaded as it was**, if a recursion may go through it. -/
theorem loadWithin_of_isIndexed (limit : Limit) (hopen : store.IsOpen site.folder world.disk) (h : Path.IsName workspace)
    (hindexed : store.IsIndexed site.folder workspace snapshot world.disk)
    (hproper : snapshot.toJson.Forall Json.IsProper) :
    store.loadWithin limit workspace site world =
      (if snapshot.isWithin limit then .ok (some snapshot) else .error (.access .tooDeep), world) := by
  have hthere : world.disk.exists? site.folder (store.indexPath workspace) = .ok true := by
    rw [hopen.exists?_indexPath h hindexed.fits, hindexed.index]
    rfl
  have hread := readJson_of_isIndexed limit hopen h hindexed hproper
  rw [loadWithin, Action.bind_of_ok _ (Action.ask_ok.mpr ⟨hthere, rfl⟩), if_pos rfl]
  split at hread
  · next hwithin =>
    rw [Action.bind_of_ok _ hread, if_pos hwithin,
      Action.bind_of_ok _ (Action.access_ok.mpr ⟨Snapshot.ofJson_toJson snapshot, rfl⟩)]
    rfl
  · next hdeep => rw [Action.bind_of_error _ hread, if_neg hdeep]

theorem load_of_isIndexed (hopen : store.IsOpen site.folder world.disk) (h : Path.IsName workspace)
    (hindexed : store.IsIndexed site.folder workspace snapshot world.disk)
    (hproper : snapshot.toJson.Forall Json.IsProper) :
    store.load workspace site world = (.ok (some snapshot), world) := by
  rw [load, loadWithin_of_isIndexed _ hopen h hindexed hproper, if_pos (Snapshot.isWithin_none _)]

/-- **No snapshot is loaded where there is none.** -/
theorem loadWithin_of_item?_eq_none (limit : Limit) (hopen : store.IsOpen site.folder world.disk) (h : Path.IsName workspace)
    (hshort : (store.indexPath workspace).IsShort)
    (hitem : world.disk.item? (store.indexPlace site.folder workspace) = none) :
    store.loadWithin limit workspace site world = (.ok none, world) := by
  have hthere : world.disk.exists? site.folder (store.indexPath workspace) = .ok false := by
    rw [Disk.exists?, Disk.look?_of_item?_eq_none hshort (hopen.isPassable_indexPath h) (parts_indexPath_ne_nil h)
      (by rw [target_indexPath h, hitem])]
    rfl
  unfold loadWithin
  exact Action.bind_ok.mpr ⟨false, world, Action.ask_ok.mpr ⟨hthere, rfl⟩, rfl⟩

/-- A workspace whose name is too long is not looked up. -/
theorem load_of_not_isShort (hopen : store.IsOpen site.folder world.disk) (h : Path.IsName workspace)
    (hclean : '\x00' ∉ (store.indexPath workspace).toText.toList) (hlong : ¬ (store.indexPath workspace).IsShort) :
    store.load workspace site world =
      (.error (.disk (.trouble .nameTooLong (some (store.indexPath workspace).toText))), world) := by
  unfold load loadWithin
  refine Action.bind_of_error _ ?_
  rw [Action.ask_apply, Disk.exists?, Disk.look?_of_not_isShort hclean hlong (hopen.isPassable_indexPath h)]
  rfl

/-! ## Sources -/

/-- Whether a symbol points to the `length` bytes from `start` on of a document. -/
structure PointsTo (symbol : Json) (file : String) (start length : Nat) : Prop where
  file : symbol.member "file" = .ok (.str file)
  start : ∃ value, symbol.member "byte_offset" = .ok value ∧ value.integer? = some (start : Int)
  length : ∃ value, symbol.member "byte_length" = .ok value ∧ value.integer? = some (length : Int)

theorem offset_of_le {value : Json} {start : Nat} (h : value.integer? = some (start : Int)) (hle : (start : Int) ≤ maxOffset) :
    offset value = .ok start := by
  have hfits : ¬ ((start : Int) < -maxOffset - 1 ∨ maxOffset < start) := by
    rw [maxOffset] at hle ⊢
    omega
  simp only [offset, h, if_neg hfits, if_neg (Int.not_lt.mpr (Int.natCast_nonneg start)), Int.toNat_natCast]

theorem takeCount_of_le {value : Json} {length : Nat} {bytes : Text.Bytes} (h : value.integer? = some (length : Int))
    (hle : (length : Int) ≤ maxMemory) : takeCount value bytes = .ok (bytes.take length) := by
  rw [maxMemory] at hle
  unfold takeCount
  split
  · cases h
  · have hfits : ¬ ((length : Int) < -maxOffset - 1 ∨ maxOffset < length) := by
      rw [maxOffset]
      omega
    have hcounted : ¬ maxOffset - stringOverhead < (length : Int) := by
      rw [maxOffset, stringOverhead]
      omega
    have hmemory : ¬ maxMemory < (length : Int) := by
      rw [maxMemory]
      omega
    have hnegative : ¬ (length : Int) < -1 := by omega
    have hall : ¬ (length : Int) = -1 := by omega
    simp only [h, if_neg hfits, if_neg hnegative, if_neg hall, if_neg hcounted, if_neg hmemory, Int.toNat_natCast]

/-- No file is so long that it has something behind an offset that is too large. -/
theorem offset_of_lt {value : Json} {start : Nat} (h : value.integer? = some (start : Int)) (hlt : maxOffset < (start : Int)) :
    offset value = .error (.access .largeOffset) := by
  simp only [offset, h, if_pos (Or.inr hlt)]

/-- The source of a symbol is taken from the text of its document. -/
theorem sourceOf_of_holdsText {symbol start length : Json} {file text : String}
    (hfile : symbol.member "file" = .ok (.str file)) (hstart : symbol.member "byte_offset" = .ok start)
    (hlength : symbol.member "byte_length" = .ok length) (h : Path.IsName workspace) (hplain : Path.IsPlain file)
    (hholds : store.HoldsText site.folder workspace world.disk file text) :
    store.sourceOf workspace symbol site world =
      ((do
        let start ← offset start
        let source ← takeCount length ((Text.encode text).drop start)
        return some (Text.decode source)), world) := by
  obtain ⟨hfits, hpassable, hitem⟩ := hholds
  have hparts : ((store.contentFolder workspace).join file).parts ≠ [] := by
    rw [join_contentFolder_eq h hplain]
    exact List.append_ne_nil_of_right_ne_nil _ (List.cons_ne_nil _ _)
  have hpath : store.contentPath workspace (.str file) = .ok ((store.contentFolder workspace).join file) := rfl
  have hthere : world.disk.exists? site.folder ((store.contentFolder workspace).join file) = .ok true := by
    rw [Disk.exists?, Disk.look?_of_isPassable hfits hpassable hparts, hitem]
    rfl
  have hread := Disk.read_of_isPassable hfits hpassable hparts hitem
  rw [sourceOf, Action.bind_of_ok _ (Action.access_ok.mpr ⟨hfile, rfl⟩),
    Action.bind_of_ok _ (Action.access_ok.mpr ⟨hpath, rfl⟩), Action.bind_of_ok _ (Action.ask_ok.mpr ⟨hthere, rfl⟩),
    if_pos rfl, Action.bind_of_ok _ (Action.ask_ok.mpr ⟨hread, rfl⟩),
    Action.bind_of_ok _ (Action.access_ok.mpr ⟨hstart, rfl⟩)]
  cases offset start with
  | error fault => rfl
  | ok offset =>
    refine (Action.bind_of_ok _ (Action.ofExcept_ok.mpr ⟨rfl, rfl⟩)).trans ?_
    refine (Action.bind_of_ok _ (Action.access_ok.mpr ⟨hlength, rfl⟩)).trans ?_
    simp only [bind, Except.bind]
    cases takeCount length ((Text.encode text).drop offset) with
    | error fault => rfl
    | ok source => rfl

/-- What has a member counts as present. -/
theorem isPresent_of_member {value member : Json} {name : String} (h : value.member name = .ok member) :
    value.isPresent = true := by
  match value with
  | .obj [] => cases h
  | .obj (_ :: _) => rfl
  | .null | .bool _ | .int _ | .real _ | .str _ | .arr _ => cases h

section

variable {id symbol : Json} {file text : String} {start length : Nat}

/-- The source of a symbol is looked for if a recursion may go through the snapshot. -/
theorem contentWithin_eq_sourceOf (limit : Limit) (hopen : store.IsOpen site.folder world.disk) (h : Path.IsName workspace)
    (hindexed : store.IsIndexed site.folder workspace snapshot world.disk)
    (hproper : snapshot.toJson.Forall Json.IsProper) (hsymbol : snapshot.symbol? id = .ok (some symbol))
    (hpresent : symbol.isPresent = true) :
    store.contentWithin limit workspace id site world =
      if snapshot.isWithin limit then store.sourceOf workspace symbol site world
      else (.error (.access .tooDeep), world) := by
  have hsymbol? : presentSymbol? snapshot id site world = (.ok (some symbol), world) := by
    rw [presentSymbol?, Action.bind_of_ok _ (Action.access_ok.mpr ⟨hsymbol, rfl⟩), Option.filter_some, if_pos hpresent]
    rfl
  have hload := loadWithin_of_isIndexed limit hopen h hindexed hproper
  split at hload
  · next hwithin =>
    rw [contentWithin, Action.bind_of_ok _ hload, if_pos hwithin]
    simp only
    rw [Action.bind_of_ok _ hsymbol?]
  · next hdeep => rw [contentWithin, Action.bind_of_error _ hload, if_neg hdeep]

/-- **The source of a symbol is what its document holds where the symbol points to**, if a recursion may go through the
snapshot. -/
theorem contentWithin_of_holdsText (limit : Limit) (hopen : store.IsOpen site.folder world.disk) (h : Path.IsName workspace)
    (hindexed : store.IsIndexed site.folder workspace snapshot world.disk)
    (hproper : snapshot.toJson.Forall Json.IsProper) (hsymbol : snapshot.symbol? id = .ok (some symbol))
    (hplain : Path.IsPlain file) (hholds : store.HoldsText site.folder workspace world.disk file text)
    (hpoints : PointsTo symbol file start length)
    (hstart : (start : Int) ≤ maxOffset) (hlength : (length : Int) ≤ maxMemory) :
    store.contentWithin limit workspace id site world =
      (if snapshot.isWithin limit then
          .ok (some (Text.decode (Text.slice (Text.encode text) start (start + length))))
        else .error (.access .tooDeep), world) := by
  obtain ⟨hfile, ⟨startValue, hstartMember, hstartValue⟩, ⟨lengthValue, hlengthMember, hlengthValue⟩⟩ := hpoints
  rw [contentWithin_eq_sourceOf _ hopen h hindexed hproper hsymbol (isPresent_of_member hfile),
    sourceOf_of_holdsText hfile hstartMember hlengthMember h hplain hholds,
    offset_of_le hstartValue hstart, Text.slice, Nat.add_sub_cancel_left]
  simp only [bind, Except.bind, takeCount_of_le hlengthValue hlength]
  split <;> rfl

theorem content_of_holdsText (hopen : store.IsOpen site.folder world.disk) (h : Path.IsName workspace)
    (hindexed : store.IsIndexed site.folder workspace snapshot world.disk)
    (hproper : snapshot.toJson.Forall Json.IsProper) (hsymbol : snapshot.symbol? id = .ok (some symbol))
    (hplain : Path.IsPlain file) (hholds : store.HoldsText site.folder workspace world.disk file text)
    (hpoints : PointsTo symbol file start length)
    (hstart : (start : Int) ≤ maxOffset) (hlength : (length : Int) ≤ maxMemory) :
    store.content workspace id site world =
      (.ok (some (Text.decode (Text.slice (Text.encode text) start (start + length)))), world) := by
  rw [content, contentWithin_of_holdsText _ hopen h hindexed hproper hsymbol hplain hholds hpoints hstart hlength,
    if_pos (Snapshot.isWithin_none _)]

/-- A source that would begin too far behind is an error, not an empty one. -/
theorem content_of_largeOffset (hopen : store.IsOpen site.folder world.disk) (h : Path.IsName workspace)
    (hindexed : store.IsIndexed site.folder workspace snapshot world.disk)
    (hproper : snapshot.toJson.Forall Json.IsProper) (hsymbol : snapshot.symbol? id = .ok (some symbol))
    (hplain : Path.IsPlain file) (hholds : store.HoldsText site.folder workspace world.disk file text)
    (hpoints : PointsTo symbol file start length)
    (hstart : maxOffset < (start : Int)) :
    store.content workspace id site world = (.error (.access .largeOffset), world) := by
  obtain ⟨hfile, ⟨startValue, hstartMember, hstartValue⟩, ⟨lengthValue, hlengthMember, -⟩⟩ := hpoints
  rw [content, contentWithin_eq_sourceOf _ hopen h hindexed hproper hsymbol (isPresent_of_member hfile),
    if_pos (Snapshot.isWithin_none _),
    sourceOf_of_holdsText hfile hstartMember hlengthMember h hplain hholds,
    offset_of_lt hstartValue hstart]
  rfl

end

end Store

end DocOutline
