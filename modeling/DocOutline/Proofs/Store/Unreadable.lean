import DocOutline.Proofs.Disk.Sound
import DocOutline.Proofs.Store.Listing

/-!
# Files that are no snapshots

Any bytes may be in the files that are taken for snapshots, and they may stand for any value. A file whose value has the members
that a snapshot needs has an entry in the list of workspaces, one that cannot be read or has no such member is left out with a
warning (`listWithin_of_files`). The list does not come about when a value is of the wrong type, being no object or one whose symbols or
documents cannot be counted, nor when a text is nested too deep to be read (`listWithin_of_hides`).
-/

namespace DocOutline

namespace Json

variable {data value : Json} {name : String}

theorem member_eq_ok : data.member name = .ok value ↔ data.member? name = some value := by
  cases data with
  | obj members => cases hmember : members.lookup name <;> simp [member, member?, hmember]
  | null | bool _ | int _ | real _ | str _ | arr _ => simp [member, member?]

/-- An object that has no member says so. -/
theorem member_of_obj {members : List (String × Json)} (h : (obj members).member? name = none) :
    (obj members).member name = .error (.missingMember name) := by
  change members.lookup name = none at h
  rw [member, h]

/-- What is no object is of the wrong type to have a member. -/
theorem member_of_no_obj (h : ∀ members, data ≠ obj members) (name : String) :
    ∃ fault, data.member name = .error fault ∧ fault.family = .type := by
  cases data with
  | obj members => exact absurd rfl (h members)
  | null | bool _ | int _ | real _ | str _ | arr _ => exact ⟨_, rfl, rfl⟩

/-- Whether a value can be counted: texts, arrays and objects can. -/
def IsCountable (value : Json) : Prop := ∃ count, value.size = .ok count

theorem size_of_not_isCountable (h : ¬ value.IsCountable) : ∃ fault, value.size = .error fault ∧ fault.family = .type := by
  cases value with
  | str _ | arr _ | obj _ => exact absurd ⟨_, rfl⟩ h
  | null | bool _ | int _ | real _ => exact ⟨_, rfl, rfl⟩

end Json

namespace Snapshot

open Json (IsCountable member_eq_ok)

/-! ## Values in the place of snapshots -/

/-- Whether a value is an object with the members that a snapshot needs, its symbols and documents being countable, and has an
entry in the list of workspaces. -/
def HasEntry (data entry : Json) : Prop :=
  ∃ workspace indexedAt symbols documents symbolCount documentCount,
    data.member? "workspace" = some workspace ∧ data.member? "indexed_at" = some indexedAt ∧
      data.member? "symbols" = some symbols ∧ data.member? "documents" = some documents ∧
      symbols.size = .ok symbolCount ∧ documents.size = .ok documentCount ∧
      entry = .obj [("workspace", workspace), ("indexed_at", indexedAt), ("symbol_count", .nat symbolCount),
        ("document_count", .nat documentCount)]

/-- Whether the first that is wrong with a value in the place of a snapshot is its type, or that of a member. -/
inductive IsMisshapen (data : Json) : Prop where
  | noObject (h : ∀ members, data ≠ .obj members)
  | symbols {workspace indexedAt symbols : Json} (hworkspace : data.member? "workspace" = some workspace)
      (hindexedAt : data.member? "indexed_at" = some indexedAt) (hsymbols : data.member? "symbols" = some symbols)
      (h : ¬ symbols.IsCountable)
  | documents {workspace indexedAt symbols documents : Json} (hworkspace : data.member? "workspace" = some workspace)
      (hindexedAt : data.member? "indexed_at" = some indexedAt) (hsymbols : data.member? "symbols" = some symbols)
      (hcountable : symbols.IsCountable) (hdocuments : data.member? "documents" = some documents)
      (h : ¬ documents.IsCountable)

variable {data entry : Json}

theorem summary_of_hasEntry (h : HasEntry data entry) : summary data = .ok entry := by
  obtain ⟨workspace, indexedAt, symbols, documents, symbolCount, documentCount, hworkspace, hindexedAt, hsymbols, hdocuments,
    hsymbolCount, hdocumentCount, rfl⟩ := h
  simp only [summary, member_eq_ok.mpr hworkspace, member_eq_ok.mpr hindexedAt, member_eq_ok.mpr hsymbols,
    member_eq_ok.mpr hdocuments, hsymbolCount, hdocumentCount, bind, Except.bind]
  rfl

/-- A value that is misshapen is of the wrong type for an entry. -/
theorem summary_of_isMisshapen (h : IsMisshapen data) : ∃ fault, summary data = .error fault ∧ fault.family = .type := by
  cases h with
  | noObject h =>
    obtain ⟨fault, hfault, htype⟩ := Json.member_of_no_obj h "workspace"
    exact ⟨fault, by simp only [summary, hfault, bind, Except.bind], htype⟩
  | symbols hworkspace hindexedAt hsymbols h =>
    obtain ⟨fault, hfault, htype⟩ := Json.size_of_not_isCountable h
    refine ⟨fault, ?_, htype⟩
    simp only [summary, member_eq_ok.mpr hworkspace, member_eq_ok.mpr hindexedAt, member_eq_ok.mpr hsymbols, hfault, bind,
      Except.bind]
  | documents hworkspace hindexedAt hsymbols hcountable hdocuments h =>
    obtain ⟨count, hcount⟩ := hcountable
    obtain ⟨fault, hfault, htype⟩ := Json.size_of_not_isCountable h
    refine ⟨fault, ?_, htype⟩
    simp only [summary, member_eq_ok.mpr hworkspace, member_eq_ok.mpr hindexedAt, member_eq_ok.mpr hsymbols, hcount,
      member_eq_ok.mpr hdocuments, hfault, bind, Except.bind]

/-- **A value that has no entry and is not misshapen lacks a member.** -/
theorem summary_cases (data : Json) :
    (∃ entry, HasEntry data entry) ∨ IsMisshapen data ∨ ∃ name, summary data = .error (.missingMember name) := by
  by_cases hobject : ∃ members, data = .obj members
  case neg => exact .inr (.inl (.noObject (not_exists.mp hobject)))
  obtain ⟨members, rfl⟩ := hobject
  -- the members are asked for in this order, and symbols are counted before documents are asked for
  cases hworkspace : (Json.obj members).member? "workspace" with
  | none => exact .inr (.inr ⟨"workspace", by simp only [summary, Json.member_of_obj hworkspace, bind, Except.bind]⟩)
  | some workspace =>
  cases hindexedAt : (Json.obj members).member? "indexed_at" with
  | none =>
    refine .inr (.inr ⟨"indexed_at", ?_⟩)
    simp only [summary, member_eq_ok.mpr hworkspace, Json.member_of_obj hindexedAt, bind, Except.bind]
  | some indexedAt =>
  cases hsymbols : (Json.obj members).member? "symbols" with
  | none =>
    refine .inr (.inr ⟨"symbols", ?_⟩)
    simp only [summary, member_eq_ok.mpr hworkspace, member_eq_ok.mpr hindexedAt, Json.member_of_obj hsymbols, bind, Except.bind]
  | some symbols =>
  by_cases hsymbolCount : symbols.IsCountable
  case neg => exact .inr (.inl (.symbols hworkspace hindexedAt hsymbols hsymbolCount))
  cases hdocuments : (Json.obj members).member? "documents" with
  | none =>
    obtain ⟨symbolCount, hcount⟩ := hsymbolCount
    refine .inr (.inr ⟨"documents", ?_⟩)
    simp only [summary, member_eq_ok.mpr hworkspace, member_eq_ok.mpr hindexedAt, member_eq_ok.mpr hsymbols, hcount,
      Json.member_of_obj hdocuments, bind, Except.bind]
  | some documents =>
  by_cases hdocumentCount : documents.IsCountable
  case neg => exact .inr (.inl (.documents hworkspace hindexedAt hsymbols hsymbolCount hdocuments hdocumentCount))
  obtain ⟨symbolCount, hsymbolCount⟩ := hsymbolCount
  obtain ⟨documentCount, hdocumentCount⟩ := hdocumentCount
  exact .inl ⟨_, ⟨workspace, indexedAt, symbols, documents, symbolCount, documentCount, hworkspace, hindexedAt, hsymbols,
    hdocuments, hsymbolCount, hdocumentCount, rfl⟩⟩

theorem summary_eq_ok : summary data = .ok entry ↔ HasEntry data entry := by
  refine ⟨fun h => ?_, summary_of_hasEntry⟩
  rcases summary_cases data with ⟨entry', hentry⟩ | hmisshapen | ⟨name, hmissing⟩
  · rw [summary_of_hasEntry hentry] at h
    cases h
    exact hentry
  · obtain ⟨fault, hfault, -⟩ := summary_of_isMisshapen hmisshapen
    rw [hfault] at h
    cases h
  · rw [hmissing] at h
    cases h

/-- **The values that are misshapen are those of the wrong type for an entry.** -/
theorem isMisshapen_iff : IsMisshapen data ↔ ∃ fault, summary data = .error fault ∧ fault.family = .type := by
  refine ⟨summary_of_isMisshapen, ?_⟩
  rintro ⟨fault, hfault, htype⟩
  rcases summary_cases data with ⟨entry, hentry⟩ | hmisshapen | ⟨name, hmissing⟩
  · rw [summary_of_hasEntry hentry] at hfault
    cases hfault
  · exact hmisshapen
  · rw [hmissing] at hfault
    cases hfault
    cases htype

instance (data : Json) : Decidable (IsMisshapen data) :=
  match h : summary data with
  | .ok _ => .isFalse fun hmisshapen => by
    obtain ⟨fault, hfault, -⟩ := isMisshapen_iff.mp hmisshapen
    rw [hfault] at h
    cases h
  | .error fault => decidable_of_iff (fault.family = .type) (by rw [isMisshapen_iff, h]; simp)

end Snapshot

namespace Store

open DocOutline.Action
open DocOutline.Snapshot (HasEntry IsMisshapen)

variable {limit : Limit} {store : Store} {site : Site} {folder : Place} {disk : Disk} {world : World} {name : String} {names : List String}
  {data entry : Json} {entries : List Json} {records warnings : List Log.Record}

/-! ## Files -/

/-- What reading a file gives. -/
inductive Reading where
  | value (data : Json)
  /-- The text is nested too deep. -/
  | tooDeep
  /-- There is no text, or it stands for no value. -/
  | unreadable

/-- What reading a text gives. -/
def readingOf (limit : Limit) (text : String) : Reading :=
  match Json.readWithin limit (Text.unifyLineEnds text) with
  | .ok data => .value data
  | .error .tooDeep => .tooDeep
  | .error _ => .unreadable

/-- What reading a file in a store gives when it is listed. A folder cannot be read, and neither can a file whose path is too
long. -/
def readingAt (limit : Limit) (store : Store) (folder : Place) (disk : Disk) (name : String) : Reading :=
  match disk.item? (store.basePlace folder ++ [name]) with
  | some (.file bytes) =>
    if (store.base.join name).Fits then
      match Text.decode? bytes with
      | .ok text => readingOf limit text
      | .error _ => .unreadable
    else .unreadable
  | some .folder | none => .unreadable

/-- Whether a file that is read like this hides all others: its value is misshapen, or its text is nested too deep. -/
inductive Reading.Hides : Reading → Prop where
  | misshapen {data : Json} (h : IsMisshapen data) : Hides (.value data)
  | tooDeep : Hides .tooDeep

@[simp] theorem Reading.hides_value : (Reading.value data).Hides ↔ IsMisshapen data :=
  ⟨fun h => by cases h; assumption, .misshapen⟩

@[simp] theorem Reading.not_hides_unreadable : ¬ Reading.unreadable.Hides := nofun

instance (reading : Reading) : Decidable reading.Hides :=
  match reading with
  | .value _ => decidable_of_iff _ Reading.hides_value.symm
  | .tooDeep => .isTrue .tooDeep
  | .unreadable => .isFalse Reading.not_hides_unreadable

def HoldsEntry (limit : Limit) (store : Store) (folder : Place) (disk : Disk) (name : String) (entry : Json) : Prop :=
  ∃ data, store.readingAt limit folder disk name = .value data ∧ HasEntry data entry

theorem holdsEntry_iff (h : store.readingAt limit folder disk name = .value data) :
    store.HoldsEntry limit folder disk name entry ↔ HasEntry data entry := by
  rw [HoldsEntry, h]
  simp

/-- A file that has an entry does not hide the others. -/
theorem not_hides_of_holdsEntry (h : store.HoldsEntry limit folder disk name entry) :
    ¬ (store.readingAt limit folder disk name).Hides := by
  obtain ⟨data, hvalue, hentry⟩ := h
  rw [hvalue, Reading.hides_value, Snapshot.isMisshapen_iff, Snapshot.summary_eq_ok.mpr hentry]
  exact nofun

/-- Whether what reading a file does is what it gives. A text that stands for no value is a fault for which the file is left
out. -/
def Gives (site : Site) (world : World) (limit : Limit) (path : Path) : Reading → Prop
  | .value data => readJson limit path site world = (.ok data, world)
  | .tooDeep => readJson limit path site world = (.error (.access .tooDeep), world)
  | .unreadable => ∃ fault, isSkipped fault = true ∧ readJson limit path site world = (.error fault, world)

theorem gives_readingOf {path : Path} {bytes : Text.Bytes} {text : String} (limit : Limit)
    (hread : world.disk.read site.folder path = .ok bytes) (hdecode : Text.decode? bytes = .ok text) :
    Gives site world limit path (readingOf limit text) := by
  have hrest : readJson limit path site world =
      ((Json.readWithin limit (Text.unifyLineEnds text)).mapError readFault, world) := by
    rw [readJson, bind_of_ok _ (ask_ok.mpr ⟨hread, rfl⟩), bind_of_ok _ (ofExcept_ok.mpr ⟨hdecode, rfl⟩), ofExcept_apply]
  rw [readingOf]
  cases hvalue : Json.readWithin limit (Text.unifyLineEnds text) with
  | ok data => exact hrest.trans (by rw [hvalue]; rfl)
  | error error =>
    rw [hvalue] at hrest
    by_cases hdeep : error = .tooDeep
    · subst hdeep
      exact hrest
    · have hfault : readFault error = .json error := readFault.eq_2 error hdeep
      split
      · next heq => cases heq
      · next heq => exact absurd (Except.error.inj heq) hdeep
      · exact ⟨.json error, rfl, by rw [hrest, ← hfault]; rfl⟩

section

variable (hopen : store.IsOpen site.folder world.disk) (hname : Path.IsName name)

include hopen hname

/-- A file in a store is read if its path is one that a disk finds short enough. -/
theorem read_join_base {bytes : Text.Bytes} : world.disk.read site.folder (store.base.join name) = .ok bytes ↔
    (store.base.join name).Fits ∧ world.disk.item? (store.basePlace site.folder ++ [name]) = some (.file bytes) := by
  rw [← target_join_base hname]
  constructor
  · intro hread
    refine ⟨?_, Disk.item?_of_read hread⟩
    cases hlocate : world.disk.locate site.folder (store.base.join name) with
    | ok place => exact (Disk.locate_eq_ok.mp hlocate).1
    | error error =>
      rw [Disk.read, hlocate] at hread
      cases hread
  · rintro ⟨hfits, hitem⟩
    exact Disk.read_of_isPassable hfits ((isPassable_join_base hname).mpr hopen) (parts_join_base_ne_nil hname) hitem

/-- **Reading a file in a store does what it gives.** -/
theorem gives_readingAt (limit : Limit) :
    Gives site world limit (store.base.join name) (store.readingAt limit site.folder world.disk name) := by
  cases hread : world.disk.read site.folder (store.base.join name) with
  | error error =>
    have hnone : store.readingAt limit site.folder world.disk name = .unreadable := by
      unfold readingAt
      split
      · next bytes hitem =>
        refine if_neg fun hfits => ?_
        cases hread.symm.trans ((read_join_base hopen hname).mpr ⟨hfits, hitem⟩)
      · rfl
      · rfl
    rw [hnone]
    exact ⟨.disk error, rfl, bind_of_error _ (by rw [ask_apply, hread]; rfl)⟩
  | ok bytes =>
    obtain ⟨hfits, hitem⟩ := (read_join_base hopen hname).mp hread
    cases hdecode : Text.decode? bytes with
    | ok text =>
      have hreading : store.readingAt limit site.folder world.disk name = readingOf limit text := by
        simp only [readingAt, hitem, if_pos hfits, hdecode]
      rw [hreading]
      exact gives_readingOf _ hread hdecode
    | error error =>
      have hnone : store.readingAt limit site.folder world.disk name = .unreadable := by
        simp only [readingAt, hitem, if_pos hfits, hdecode]
      rw [hnone]
      refine ⟨.utf8 error, rfl, ?_⟩
      rw [readJson, bind_of_ok _ (ask_ok.mpr ⟨hread, rfl⟩)]
      exact bind_of_error _ (by rw [ofExcept_apply, hdecode]; rfl)

end

/-- The warning about a file that is left out. -/
def skipWarning (path : Path) (message : String) : Log.Record :=
  ⟨"skipping unreadable index", .warning, [("path", .str path.toText), ("error", .str message)]⟩

def entryAt (limit : Limit) (path : Path) : Action Json := do
  Action.access (Snapshot.summary (← readJson limit path))

theorem summaryAt_of_ok {limit : Limit} {path : Path} (h : entryAt limit path site world = (.ok entry, world)) :
    summaryAt limit path site world = (.ok (some entry), world) := by
  have houtcome : outcome (entryAt limit path) site world = (.ok (.ok entry), world) := by rw [outcome_apply, h]
  exact bind_of_ok _ houtcome

theorem summaryAt_of_error {limit : Limit} {path : Path} {fault : Fault}
    (h : entryAt limit path site world = (.error fault, world)) :
    summaryAt limit path site world =
      if isSkipped fault then (.ok none, { world with records := world.records ++ [skipWarning path fault.message] })
      else (.error fault, world) := by
  have houtcome : outcome (entryAt limit path) site world = (.ok (.error fault), world) := by rw [outcome_apply, h]
  refine (bind_of_ok _ houtcome).trans ?_
  by_cases hskip : isSkipped fault = true
  · simp only [hskip, if_true]
    rfl
  · simp only [hskip, Bool.false_eq_true, if_false]
    rfl

section

variable (hopen : store.IsOpen site.folder world.disk) (hname : Path.IsName name)

include hopen hname

/-- **What a file gives for the list**: an entry, a failure of the wrong type or for its depth, or else a warning. -/
theorem summaryAt_join (limit : Limit) :
    (∃ entry, store.HoldsEntry limit site.folder world.disk name entry ∧
      summaryAt limit (store.base.join name) site world = (.ok (some entry), world)) ∨
    ((store.readingAt limit site.folder world.disk name).Hides ∧ ∃ fault, (fault.family = .type ∨ fault = .tooDeep) ∧
      summaryAt limit (store.base.join name) site world = (.error (.access fault), world)) ∨
    (∀ entry, ¬ store.HoldsEntry limit site.folder world.disk name entry) ∧ ¬ (store.readingAt limit site.folder world.disk name).Hides ∧
      ∃ message, summaryAt limit (store.base.join name) site world =
        (.ok none, { world with records := world.records ++ [skipWarning (store.base.join name) message] }) := by
  have hgives := gives_readingAt hopen hname limit
  cases hreading : store.readingAt limit site.folder world.disk name with
  | value data =>
    rw [hreading] at hgives
    have hrun : entryAt limit (store.base.join name) site world = _ :=
      (bind_of_ok _ hgives).trans (access_apply _)
    rcases Snapshot.summary_cases data with ⟨entry, hentry⟩ | hmisshapen | ⟨member, hmissing⟩
    · rw [Snapshot.summary_of_hasEntry hentry] at hrun
      exact .inl ⟨entry, (holdsEntry_iff hreading).mpr hentry, summaryAt_of_ok hrun⟩
    · obtain ⟨fault, hfault, htype⟩ := Snapshot.summary_of_isMisshapen hmisshapen
      have hkept : ¬ isSkipped (.access fault) = true := by simp [isSkipped, htype]
      rw [hfault] at hrun
      exact .inr (.inl ⟨.misshapen hmisshapen, fault, .inl htype, (summaryAt_of_error hrun).trans (if_neg hkept)⟩)
    · rw [hmissing] at hrun
      refine .inr (.inr ⟨fun entry hentry => ?_, fun hhides => ?_, _, (summaryAt_of_error hrun).trans (if_pos rfl)⟩)
      · rw [holdsEntry_iff hreading, ← Snapshot.summary_eq_ok, hmissing] at hentry
        cases hentry
      · rw [Reading.hides_value, Snapshot.isMisshapen_iff, hmissing] at hhides
        obtain ⟨fault, hfault, htype⟩ := hhides
        cases hfault
        cases htype
  | tooDeep =>
    rw [hreading] at hgives
    have hrun : entryAt limit (store.base.join name) site world = _ := bind_of_error _ hgives
    exact .inr (.inl ⟨.tooDeep, .tooDeep, .inr rfl, (summaryAt_of_error hrun).trans (if_neg nofun)⟩)
  | unreadable =>
    rw [hreading] at hgives
    obtain ⟨fault, hskip, hread⟩ := hgives
    have hrun : entryAt limit (store.base.join name) site world = _ := bind_of_error _ hread
    refine .inr (.inr ⟨?_, Reading.not_hides_unreadable, fault.message, (summaryAt_of_error hrun).trans (if_pos hskip)⟩)
    rintro entry ⟨data, hvalue, -⟩
    exact absurd (hreading.symm.trans hvalue) nofun

end

/-! ## Lists of files -/

/-- Whether entries and warnings are what files give for the list: each file that holds a snapshot has one entry, and about each
other one there is one warning, in the order of the files. -/
inductive ListedAs (limit : Limit) (store : Store) (folder : Place) (disk : Disk) :
    List String → List Json → List Log.Record → Prop where
  | nil : ListedAs limit store folder disk [] [] []
  | entry {name : String} {entry : Json} {names : List String} {entries : List Json} {warnings : List Log.Record}
      (h : store.HoldsEntry limit folder disk name entry) (others : ListedAs limit store folder disk names entries warnings) :
      ListedAs limit store folder disk (name :: names) (entry :: entries) warnings
  | warning {name : String} {names : List String} {entries : List Json} {warnings : List Log.Record}
      (h : ∀ entry, ¬ store.HoldsEntry limit folder disk name entry) (message : String)
      (others : ListedAs limit store folder disk names entries warnings) :
      ListedAs limit store folder disk (name :: names) entries (skipWarning (store.base.join name) message :: warnings)

/-- The entry of a file in a store, if it has one. -/
def entryHeld? (limit : Limit) (store : Store) (folder : Place) (disk : Disk) (name : String) : Option Json :=
  match store.readingAt limit folder disk name with
  | .value data => (Snapshot.summary data).toOption
  | .tooDeep | .unreadable => none

theorem entryHeld?_eq_some : store.entryHeld? limit folder disk name = some entry ↔ store.HoldsEntry limit folder disk name entry := by
  rw [entryHeld?, HoldsEntry]
  cases store.readingAt limit folder disk name with
  | tooDeep | unreadable => simp
  | value data =>
    simp only [Reading.value.injEq, exists_eq_left', ← Snapshot.summary_eq_ok]
    cases Snapshot.summary data <;> simp [Except.toOption]

/-- The entries are those that files have, and there are as many warnings as other files. -/
theorem ListedAs.eq_filterMap (h : store.ListedAs limit folder disk names entries warnings) :
    entries = names.filterMap (store.entryHeld? limit folder disk) ∧ entries.length + warnings.length = names.length := by
  induction h with
  | nil => exact ⟨rfl, rfl⟩
  | entry h others ih =>
    rw [List.filterMap_cons, entryHeld?_eq_some.mpr h, ← ih.1]
    exact ⟨rfl, by simp only [List.length_cons]; omega⟩
  | warning h message others ih =>
    have hnone := Option.eq_none_iff_forall_ne_some.mpr fun entry => mt entryHeld?_eq_some.mp (h entry)
    rw [List.filterMap_cons, hnone, ← ih.1]
    exact ⟨rfl, by simp only [List.length_cons]; omega⟩

section

variable (hopen : store.IsOpen site.folder disk) (hnames : ∀ name ∈ names, Path.IsName name)

include hopen hnames

theorem mapM_summaryAt (h : ∀ name ∈ names, ¬ (store.readingAt limit site.folder disk name).Hides) (before : List Log.Record) :
    ∃ found warnings, (names.map store.base.join).mapM (summaryAt limit) site ⟨disk, before⟩ =
      (.ok found, ⟨disk, before ++ warnings⟩) ∧ store.ListedAs limit site.folder disk names (found.filterMap id) warnings := by
  induction names generalizing before with
  | nil => exact ⟨[], [], by rw [List.append_nil]; rfl, .nil⟩
  | cons name names ih =>
    rw [List.forall_mem_cons] at hnames h
    rw [List.map_cons, List.mapM_cons]
    rcases @summaryAt_join store site ⟨disk, before⟩ name hopen hnames.1 limit with
      ⟨entry, hentry, hfirst⟩ | ⟨hhides, -⟩ | ⟨hnone, -, message, hfirst⟩
    · obtain ⟨found, warnings, hrest, hlisted⟩ := ih hnames.2 h.2 before
      refine ⟨some entry :: found, warnings, ?_, .entry hentry hlisted⟩
      rw [bind_of_ok _ hfirst, bind_of_ok _ hrest]
      rfl
    · exact absurd hhides h.1
    · obtain ⟨found, warnings, hrest, hlisted⟩ := ih hnames.2 h.2 (before ++ [skipWarning (store.base.join name) message])
      refine ⟨none :: found, skipWarning (store.base.join name) message :: warnings, ?_, .warning hnone message hlisted⟩
      rw [bind_of_ok _ hfirst, bind_of_ok _ hrest, List.append_assoc]
      rfl

theorem mapM_of_hides (hmem : name ∈ names) (h : (store.readingAt limit site.folder disk name).Hides) (before : List Log.Record) :
    ∃ fault after, (fault.family = .type ∨ fault = .tooDeep) ∧
      (names.map store.base.join).mapM (summaryAt limit) site ⟨disk, before⟩ = (.error (.access fault), after) := by
  induction names generalizing before with
  | nil => cases hmem
  | cons first names ih =>
    rw [List.forall_mem_cons] at hnames
    rw [List.map_cons, List.mapM_cons]
    -- the first failure ends the list, so it is enough to follow the files up to the one that hides the others
    rcases @summaryAt_join store site ⟨disk, before⟩ first hopen hnames.1 limit with
      ⟨entry, hentry, hfirst⟩ | ⟨-, fault, hfault, hfirst⟩ | ⟨-, hwell, message, hfirst⟩
    · rcases List.mem_cons.mp hmem with rfl | hmem
      · exact absurd h (not_hides_of_holdsEntry hentry)
      · obtain ⟨fault, after, hfault, hrest⟩ := ih hnames.2 hmem before
        refine ⟨fault, after, hfault, ?_⟩
        rw [bind_of_ok _ hfirst, bind_of_error _ hrest]
    · exact ⟨fault, _, hfault, bind_of_error _ hfirst⟩
    · rcases List.mem_cons.mp hmem with rfl | hmem
      · exact absurd h hwell
      · obtain ⟨fault, after, hfault, hrest⟩ := ih hnames.2 hmem (before ++ [skipWarning (store.base.join first) message])
        refine ⟨fault, after, hfault, ?_⟩
        rw [bind_of_ok _ hfirst, bind_of_error _ hrest]

end

/-- The files that are taken for snapshots have names. -/
theorem isName_of_mem_indexNames (hsound : disk.IsSound) : ∀ name ∈ store.indexNames folder disk, Path.IsName name :=
  fun _ hname => hsound.isNamed (mem_indexNames.mp hname).1 _ (List.mem_append_right _ (.head _))

section

variable (hfits : store.base.Fits) (hopen : store.IsOpen site.folder world.disk) (hsound : world.disk.IsSound)

include hfits hopen hsound

/-- **Files that hide no others are listed**, or left out with a warning, whatever bytes are in them. -/
theorem listWithin_of_files (limit : Limit)
    (h : ∀ name ∈ store.indexNames site.folder world.disk, ¬ (store.readingAt limit site.folder world.disk name).Hides) :
    ∃ entries warnings, store.listWithin limit site world = (.ok entries, { world with records := world.records ++ warnings }) ∧
      store.ListedAs limit site.folder world.disk (store.indexNames site.folder world.disk) entries warnings := by
  obtain ⟨found, warnings, hrun, hlisted⟩ := mapM_summaryAt hopen (isName_of_mem_indexNames hsound) h world.records
  refine ⟨_, warnings, ?_, hlisted⟩
  rw [listWithin, bind_of_ok _ (indexPaths_eq hfits hopen), bind_of_ok _ hrun, pure_apply]

/-- **A file that hides the others keeps the list from coming about**, whatever other files there are. -/
theorem listWithin_of_hides (limit : Limit) (hmem : name ∈ store.indexNames site.folder world.disk)
    (h : (store.readingAt limit site.folder world.disk name).Hides) :
    ∃ fault after, (fault.family = .type ∨ fault = .tooDeep) ∧ store.listWithin limit site world = (.error (.access fault), after) := by
  obtain ⟨fault, after, hfault, hrun⟩ := mapM_of_hides hopen (isName_of_mem_indexNames hsound) hmem h world.records
  refine ⟨fault, after, hfault, ?_⟩
  rw [listWithin, bind_of_ok _ (indexPaths_eq hfits hopen), bind_of_error _ hrun]

end

end Store

end DocOutline
