import DocOutline.Proofs.Store.Agreement
import DocOutline.Proofs.Store.Answers

/-!
# The list of workspaces

The list is made of the files with snapshots, by name (`indexPaths_eq`). When all of them are those of workspaces that are
stored it has exactly one entry for each workspace (`listWithin_of_isStored`). Whatever they are, the list is put together from what
reading each of them gives (`listWithin_eq_collect`), and the files of other workspaces do not matter to the part that one
workspace has in it (`listWithin_eq_around`).
-/

namespace DocOutline

namespace Store

variable {store : Store} {site : Site} {world : World} {disk disk' : Disk} {folder : Place} {workspace name : String}
  {snapshot : Snapshot}

/-! ## Files with snapshots -/

/-- The names of the files with snapshots, in order. -/
def indexNames (store : Store) (folder : Place) (disk : Disk) : List String :=
  ((disk.namesBelow (store.basePlace folder)).filter isIndexName).mergeSort fun a b => a ≤ b

theorem mem_indexNames : name ∈ store.indexNames folder disk ↔
    disk.item? (store.basePlace folder ++ [name]) ≠ none ∧ isIndexName name = true := by
  rw [indexNames, List.mem_mergeSort, List.mem_filter, Disk.mem_namesBelow]

theorem nodup_indexNames (h : disk.IsProper) (store : Store) (folder : Place) : (store.indexNames folder disk).Nodup :=
  (List.mergeSort_perm _ _).nodup_iff.mpr ((Disk.nodup_namesBelow h _).filter _)

theorem indexPaths_eq (hfits : store.base.Fits) (hopen : store.IsOpen site.folder world.disk) :
    store.indexPaths site world =
      (.ok ((store.indexNames site.folder world.disk).map store.base.join), world) := by
  have hnames : namesIn world.disk site.folder store.base =
      .ok (world.disk.namesBelow (store.basePlace site.folder)) := by
    rw [namesIn, Disk.locate_eq_ok.mpr ⟨hfits, hopen.passable, rfl⟩]
    rfl
  rw [indexPaths, Action.bind_of_ok _ (Action.ask_ok.mpr ⟨hnames, rfl⟩), Action.pure_apply]
  rfl

/-! ## Stored snapshots -/

/-- What an action gives for each of several things, if it always leaves the world as it is and has one way to fail. -/
theorem mapM_of_forall_ite {α β γ : Type} {action : β → Action γ} {place : α → β} {succeeds : α → Bool} {result : α → γ}
    {fault : Fault} {as : List α}
    (h : ∀ a ∈ as, action (place a) site world = (if succeeds a then .ok (result a) else .error fault, world)) :
    (as.map place).mapM action site world =
      (if as.all succeeds then .ok (as.map result) else .error fault, world) := by
  induction as with
  | nil => rfl
  | cons a as ih =>
    rw [List.forall_mem_cons] at h
    obtain ⟨hfirst, hrest⟩ := h
    rw [List.map_cons, List.mapM_cons, List.all_cons]
    cases hsucceeds : succeeds a with
    | false =>
      rw [hsucceeds] at hfirst
      rw [Action.bind_of_error _ hfirst]
      rfl
    | true =>
      rw [hsucceeds] at hfirst
      rw [Action.bind_of_ok _ hfirst, Bool.true_and]
      have hothers := ih hrest
      cases hall : as.all succeeds with
      | false =>
        rw [hall] at hothers
        rw [Action.bind_of_error _ hothers]
        rfl
      | true =>
        rw [hall] at hothers
        rw [Action.bind_of_ok _ hothers]
        rfl

theorem mapM_of_forall {α β γ : Type} {action : β → Action γ} {place : α → β} {result : α → γ} {as : List α}
    (h : ∀ a ∈ as, action (place a) site world = (.ok (result a), world)) :
    (as.map place).mapM action site world = (.ok (as.map result), world) := by
  have hmap : (as.map place).mapM action site world =
      (if as.all fun _ => true then .ok (as.map result) else .error .noHome, world) := mapM_of_forall_ite h
  rwa [if_pos (List.all_eq_true.mpr fun _ _ => rfl)] at hmap

theorem exists_map_eq {α β : Type} {f : α → β} {p : α → Prop} {bs : List β} (h : ∀ b ∈ bs, ∃ a, p a ∧ f a = b) :
    ∃ as : List α, (∀ a ∈ as, p a) ∧ as.map f = bs := by
  induction bs with
  | nil => exact ⟨[], nofun, rfl⟩
  | cons b bs ih =>
    rw [List.forall_mem_cons] at h
    obtain ⟨a, ha, rfl⟩ := h.1
    obtain ⟨as, has, rfl⟩ := ih h.2
    exact ⟨a :: as, List.forall_mem_cons.mpr ⟨ha, has⟩, rfl⟩

/-- A snapshot that is stored has its entry in the list, if a recursion may go through it. -/
theorem summaryAt_of_isIndexed (limit : Limit) (hopen : store.IsOpen site.folder world.disk) (h : Path.IsName workspace)
    (hindexed : store.IsIndexed site.folder workspace snapshot world.disk)
    (hsized : ∃ documents symbols, snapshot.documents.size = .ok documents ∧ snapshot.symbols.size = .ok symbols)
    (hproper : snapshot.toJson.Forall Json.IsProper) :
    summaryAt limit (store.indexPath workspace) site world =
      (if snapshot.isWithin limit then .ok (some snapshot.listed) else .error (.access .tooDeep), world) := by
  obtain ⟨documents, symbols, hdocuments, hsymbols⟩ := hsized
  have hread := readJson_of_isIndexed limit hopen h hindexed hproper
  have hsummary : (do Action.access (Snapshot.summary (← readJson limit (store.indexPath workspace))) : Action Json) site world =
      (if snapshot.isWithin limit then .ok snapshot.listed else .error (.access .tooDeep), world) := by
    cases hwithin : snapshot.isWithin limit with
    | false =>
      rw [hwithin] at hread
      rw [Action.bind_of_error _ hread]
      rfl
    | true =>
      rw [hwithin] at hread
      rw [Action.bind_of_ok _ hread]
      exact Action.access_ok.mpr ⟨Snapshot.summary_toJson hdocuments hsymbols, rfl⟩
  have houtcome : Action.outcome (do Action.access (Snapshot.summary (← readJson limit (store.indexPath workspace)))) site
      world = (.ok (if snapshot.isWithin limit then .ok snapshot.listed else .error (.access .tooDeep)), world) := by
    rw [Action.outcome_apply, hsummary]
  rw [summaryAt, Action.bind_of_ok _ houtcome]
  split <;> rfl

/-- **The list has exactly one entry for each workspace with a snapshot**, if the files with snapshots are theirs and a
recursion may go through all of them. -/
theorem listWithin_of_isStored (limit : Limit) (hfits : store.base.Fits) (hopen : store.IsOpen site.folder world.disk)
    (hproper : world.disk.IsProper) {snapshots : String → Option Snapshot}
    (hnames : ∀ name, isIndexName name = true → world.disk.item? (store.basePlace site.folder ++ [name]) ≠ none →
      ∃ workspace snapshot, snapshots workspace = some snapshot ∧ workspace ++ ".json" = name)
    (hstored : ∀ workspace snapshot, snapshots workspace = some snapshot → Path.IsName workspace ∧
      snapshot.toJson.Forall Json.IsProper ∧ ∃ texts, store.IsStored site.folder workspace snapshot texts world.disk) :
    ∃ live : List (String × Snapshot), (live.map Prod.fst).Nodup ∧
      (∀ workspace snapshot, (workspace, snapshot) ∈ live ↔ snapshots workspace = some snapshot) ∧
      store.listWithin limit site world =
        (if live.all fun entry => entry.2.isWithin limit then .ok (live.map fun entry => entry.2.listed)
          else .error (.access .tooDeep), world) := by
  have hnodup := nodup_indexNames hproper store site.folder
  have howner : ∀ name ∈ store.indexNames site.folder world.disk, ∃ entry : String × Snapshot,
      snapshots entry.1 = some entry.2 ∧ entry.1 ++ ".json" = name := by
    intro name hname
    obtain ⟨hitem, hindex⟩ := mem_indexNames.mp hname
    obtain ⟨workspace, snapshot, hsnapshot, rfl⟩ := hnames name hindex hitem
    exact ⟨(workspace, snapshot), hsnapshot, rfl⟩
  obtain ⟨live, hlive, heq⟩ := exists_map_eq howner
  refine ⟨live, ?_, fun workspace snapshot => ⟨fun hentry => hlive _ hentry, fun hsnapshot => ?_⟩, ?_⟩
  · have hmap : live.map (fun entry => entry.1 ++ ".json") = (live.map Prod.fst).map (· ++ ".json") := by simp
    rw [← heq, hmap] at hnodup
    exact hnodup.of_map
  · obtain ⟨-, -, texts, hindex⟩ := hstored workspace snapshot hsnapshot
    have hname : workspace ++ ".json" ∈ store.indexNames site.folder world.disk :=
      mem_indexNames.mpr ⟨fun hnone => absurd (hindex.index.symm.trans hnone) nofun, isIndexName_append workspace⟩
    rw [← heq, List.mem_map] at hname
    obtain ⟨entry, hentry, hsame⟩ := hname
    obtain rfl := append_json_injective hsame
    obtain rfl := Option.some.inj ((hlive _ hentry).symm.trans hsnapshot)
    exact hentry
  · have hpaths : store.indexPaths site world = (.ok (live.map fun entry => store.indexPath entry.1), world) := by
      rw [indexPaths_eq hfits hopen, ← heq, List.map_map]
      rfl
    have hsummaries : ∀ entry ∈ live, summaryAt limit (store.indexPath entry.1) site world =
        (if entry.2.isWithin limit then .ok (some entry.2.listed) else .error (.access .tooDeep), world) := by
      intro entry hentry
      obtain ⟨hname, hentryProper, texts, hindex⟩ := hstored entry.1 entry.2 (hlive entry hentry)
      exact summaryAt_of_isIndexed _ hopen hname hindex.toIsIndexed hindex.sized hentryProper
    have hmap := mapM_of_forall_ite hsummaries
    rw [listWithin, Action.bind_of_ok _ hpaths]
    split at hmap
    · next hall =>
      rw [Action.bind_of_ok _ hmap, if_pos hall, Action.pure_apply, List.filterMap_map]
      simp
    · next hdeep => rw [Action.bind_of_error _ hmap, if_neg hdeep]

/-! ## Any files -/

/-- What reading a file with a snapshot gives for the list: an entry, none if the file is left out, or a failure. -/
def outcomeAt (limit : Limit) (store : Store) (site : Site) (disk : Disk) (name : String) : Except Fault (Option Json) :=
  (summaryAt limit (store.base.join name) site ⟨disk, []⟩).1

/-- The list that outcomes make up, which the first failure among them keeps from coming about. -/
def collect (outcomes : List (Except Fault (Option Json))) : Except Fault (List Json) := do
  return (← outcomes.mapM id).filterMap id

section

variable {outcomes : List (Except Fault (Option Json))} {entries : List Json}

def entryOf (outcome : Except Fault (Option Json)) : Option Json := outcome.toOption.join

/-- **A list comes about** when no file makes it fail, and has the entries of those that are not left out. -/
theorem collect_eq_ok : collect outcomes = .ok entries ↔
    (∀ outcome ∈ outcomes, outcome = .ok (entryOf outcome)) ∧ entries = outcomes.filterMap entryOf := by
  induction outcomes generalizing entries with
  | nil => simp [collect, pure, Except.pure, bind, Except.bind, eq_comm]
  | cons outcome outcomes ih =>
    have hcollect : collect (outcome :: outcomes) = (do
        let entry? ← outcome
        return entry?.toList ++ (← collect outcomes)) := by
      simp only [collect, List.mapM_cons, id]
      cases outcome with
      | error fault => rfl
      | ok entry? =>
        cases outcomes.mapM id with
        | error fault => rfl
        | ok others => cases entry? <;> rfl
    rw [hcollect, List.forall_mem_cons]
    cases outcome with
    | error fault => exact ⟨nofun, fun h => nomatch h.1.1⟩
    | ok entry? =>
      have hentries : List.filterMap entryOf (.ok entry? :: outcomes) =
          entry?.toList ++ outcomes.filterMap entryOf := by
        cases entry? <;> rfl
      rw [hentries]
      constructor
      · intro h
        match hothers : collect outcomes with
        | .error fault =>
          rw [hothers] at h
          cases h
        | .ok others =>
          rw [hothers] at h
          cases h
          obtain ⟨hall, hlist⟩ := ih.mp hothers
          exact ⟨⟨rfl, hall⟩, by rw [hlist]⟩
      · rintro ⟨⟨-, hall⟩, rfl⟩
        rw [ih.mpr ⟨hall, rfl⟩]
        rfl

end

/-- What actions that only look give one after the other. -/
theorem fst_mapM {α β : Type} {action : α → Action β} {as : List α}
    (h : ∀ a ∈ as, Action.Agrees site disk disk (action a)) (before : List Log.Record) :
    (as.mapM action site ⟨disk, before⟩).1 = (as.map fun a => (action a site ⟨disk, []⟩).1).mapM id := by
  induction as generalizing before with
  | nil => rfl
  | cons a as ih =>
    rw [List.forall_mem_cons] at h
    obtain ⟨⟨outcome, records, hrun⟩, hrest⟩ := h
    rw [List.mapM_cons, List.map_cons, List.mapM_cons, (hrun []).1]
    match outcome with
    | .error fault => rw [Action.bind_of_error _ (hrun before).1]; rfl
    | .ok b =>
      have hmap := ih hrest (before ++ records)
      rw [Action.bind_of_ok _ (hrun before).1]
      change _ = (as.map fun a => (action a site ⟨disk, []⟩).1).mapM id >>= fun bs => pure (b :: bs)
      rw [← hmap]
      match hrun' : as.mapM action site ⟨disk, before ++ records⟩ with
      | (.error fault, _) => rw [Action.bind_of_error _ hrun']; rfl
      | (.ok bs, _) => rw [Action.bind_of_ok _ hrun']; rfl

/-- **The list is put together from what reading each file with a snapshot gives.** -/
theorem listWithin_eq_collect (limit : Limit) (hfits : store.base.Fits) (hopen : store.IsOpen site.folder world.disk) :
    (store.listWithin limit site world).1 =
      collect ((store.indexNames site.folder world.disk).map (store.outcomeAt limit site world.disk)) := by
  have hmap := fst_mapM (fun path (_ : path ∈ (store.indexNames site.folder world.disk).map store.base.join) =>
    agrees_summaryAt limit (Disk.SameAlong.refl site.folder path world.disk)) world.records
  rw [List.map_map] at hmap
  change _ = ((store.indexNames site.folder world.disk).map (store.outcomeAt limit site world.disk)).mapM id at hmap
  rw [listWithin, Action.bind_of_ok _ (indexPaths_eq hfits hopen), collect, ← hmap]
  match hrun : ((store.indexNames site.folder world.disk).map store.base.join).mapM (summaryAt limit) site
      world with
  | (.error fault, _) => rw [Action.bind_of_error _ hrun]; rfl
  | (.ok entries, _) => rw [Action.bind_of_ok _ hrun]; rfl

/-- A folder that has the name of a file with a snapshot is left out of the list. -/
theorem outcomeAt_of_isFolder (limit : Limit) (h : Path.IsName name)
    (hitem : disk.item? (store.basePlace site.folder ++ [name]) = some .folder) :
    store.outcomeAt limit site disk name = .ok none := by
  obtain ⟨error, hread⟩ : ∃ error, disk.read site.folder (store.base.join name) = .error error := by
    cases hread : disk.read site.folder (store.base.join name) with
    | error error => exact ⟨error, rfl⟩
    | ok bytes =>
      have hfile := Disk.item?_of_read hread
      rw [target_join_base h, hitem] at hfile
      cases hfile
  have hask : Action.ask Disk.read (store.base.join name) site ⟨disk, []⟩ = (.error (.disk error), ⟨disk, []⟩) := by
    rw [Action.ask_apply, hread]
    rfl
  have hrun : (do Action.access (Snapshot.summary (← readJson limit (store.base.join name))) : Action Json) site
      ⟨disk, []⟩ = (.error (.disk error), ⟨disk, []⟩) :=
    Action.bind_of_error _ (Action.bind_of_error _ hask)
  rw [outcomeAt, summaryAt, Action.bind_of_ok _ (by rw [Action.outcome_apply, hrun])]
  rfl

/-- What the file with the snapshot of a workspace gives for the list, if there is the file. -/
def ownOutcome (limit : Limit) (store : Store) (site : Site) (disk : Disk) (workspace : String) : List (Except Fault (Option Json)) :=
  if disk.item? (store.indexPlace site.folder workspace) = none then []
  else [store.outcomeAt limit site disk (workspace ++ ".json")]

theorem ownOutcome_of_isSome (h : disk.item? (store.indexPlace site.folder workspace) ≠ none) :
    store.ownOutcome limit site disk workspace = [(summaryAt limit (store.indexPath workspace) site ⟨disk, []⟩).1] :=
  if_neg h

/-- Whether names are in order and none stands twice. -/
def IsSorted (names : List String) : Prop := names.Pairwise fun a b => a ≤ b ∧ a ≠ b

theorem isSorted_indexNames (h : disk.IsProper) (store : Store) (folder : Place) :
    IsSorted (store.indexNames folder disk) := by
  refine List.Pairwise.and ?_ (nodup_indexNames h store folder)
  have hsorted : (store.indexNames folder disk).Pairwise fun a b => decide (a ≤ b) = true := by
    refine List.pairwise_mergeSort (fun a b c hab hbc => ?_) (fun a b => ?_) _
    · simp only [decide_eq_true_eq] at hab hbc ⊢
      exact String.le_trans hab hbc
    · simpa using String.le_total a b
  exact hsorted.imp of_decide_eq_true

/-- Names in order are determined by which they are. -/
theorem IsSorted.ext {names names' : List String} (h : IsSorted names) (h' : IsSorted names')
    (hmem : ∀ name, name ∈ names ↔ name ∈ names') : names = names' := by
  refine List.Perm.eq_of_pairwise (fun a b _ _ hab hba => String.le_antisymm hab.1 hba.1) h h' ?_
  exact (List.perm_ext_iff_of_nodup (h.imp And.right) (h'.imp And.right)).mpr hmem

/-- Names in order are those in front of one of them, that one, and those behind it. -/
theorem IsSorted.eq_around {names : List String} (h : IsSorted names) (pivot : String) :
    names = (names.filter (· ≠ pivot)).filter (· ≤ pivot) ++ (if pivot ∈ names then [pivot] else []) ++
      (names.filter (· ≠ pivot)).filter (¬ · ≤ pivot) := by
  have hothers : IsSorted (names.filter (· ≠ pivot)) := h.filter _
  have hpivot {name : String} : name ∈ (if pivot ∈ names then [pivot] else []) ↔ name = pivot ∧ pivot ∈ names := by
    split <;> simp [*]
  have hfront {name : String} : name ∈ (names.filter (· ≠ pivot)).filter (· ≤ pivot) ↔
      name ∈ names ∧ name ≠ pivot ∧ name ≤ pivot := by simp only [List.mem_filter, decide_eq_true_eq, and_assoc]
  have hback {name : String} : name ∈ (names.filter (· ≠ pivot)).filter (¬ · ≤ pivot) ↔
      name ∈ names ∧ name ≠ pivot ∧ ¬ name ≤ pivot := by simp only [List.mem_filter, decide_eq_true_eq, and_assoc]
  refine h.ext ?_ fun name => ?_
  · refine List.pairwise_append.mpr ⟨List.pairwise_append.mpr ⟨hothers.filter _, ?_, ?_⟩, hothers.filter _, ?_⟩
    · split <;> simp
    · intro a ha b hb
      obtain ⟨-, hne, hle⟩ := hfront.mp ha
      obtain ⟨rfl, -⟩ := hpivot.mp hb
      exact ⟨hle, hne⟩
    · intro a ha b hb
      obtain ⟨-, -, hb⟩ := hback.mp hb
      have hpb : pivot ≤ b := (String.le_total pivot b).resolve_right hb
      have hap : a ≤ pivot := by
        rcases List.mem_append.mp ha with ha | ha
        · exact (hfront.mp ha).2.2
        · exact (hpivot.mp ha).1 ▸ String.le_refl _
      exact ⟨String.le_trans hap hpb, fun heq => hb (heq ▸ hap)⟩
  · rw [List.mem_append, List.mem_append, hfront, hpivot, hback]
    by_cases hname : name = pivot
    · subst hname
      simp
    · simp only [hname, ne_eq, not_false_eq_true, true_and, false_and, or_false, ← and_or_left, em, and_true]

/-- What the files with snapshots give for the list, with the part of one workspace set apart. -/
theorem map_outcomeAt_indexNames (limit : Limit) (h : disk.IsProper) (store : Store) (workspace : String) :
    (store.indexNames site.folder disk).map (store.outcomeAt limit site disk) =
      (((store.indexNames site.folder disk).filter (· ≠ workspace ++ ".json")).filter (· ≤ workspace ++ ".json")).map
          (store.outcomeAt limit site disk) ++
        store.ownOutcome limit site disk workspace ++
      (((store.indexNames site.folder disk).filter (· ≠ workspace ++ ".json")).filter (¬ · ≤ workspace ++ ".json")).map
        (store.outcomeAt limit site disk) := by
  have hown : (if workspace ++ ".json" ∈ store.indexNames site.folder disk then [workspace ++ ".json"] else []).map
      (store.outcomeAt limit site disk) = store.ownOutcome limit site disk workspace := by
    rw [ownOutcome, indexPlace, apply_ite (List.map (store.outcomeAt limit site disk))]
    simp only [mem_indexNames, isIndexName_append, and_true, ite_not, List.map_nil, List.map_cons]
  rw [← hown, ← List.map_append, ← List.map_append,
    ← (isSorted_indexNames h store site.folder).eq_around (workspace ++ ".json")]

/-- **The part of one workspace in the list** stands among the same entries of others, whatever happened to its file. -/
theorem listWithin_eq_around (limit : Limit) {world' : World} (hfits : store.base.Fits) (hopen : store.IsOpen site.folder world.disk)
    (hopen' : store.IsOpen site.folder world'.disk) (hproper : world.disk.IsProper) (hproper' : world'.disk.IsProper)
    (hnames : ∀ name ∈ world.disk.namesBelow (store.basePlace site.folder), Path.IsName name)
    (hsame : ∀ name, isIndexName name = true → name ≠ workspace ++ ".json" →
      world'.disk.item? (store.basePlace site.folder ++ [name]) =
        world.disk.item? (store.basePlace site.folder ++ [name])) :
    ∃ earlier later,
      (store.listWithin limit site world).1 = collect (earlier ++ store.ownOutcome limit site world.disk workspace ++ later) ∧
      (store.listWithin limit site world').1 = collect (earlier ++ store.ownOutcome limit site world'.disk workspace ++ later) := by
  have hothers : (store.indexNames site.folder world'.disk).filter (· ≠ workspace ++ ".json") =
      (store.indexNames site.folder world.disk).filter (· ≠ workspace ++ ".json") := by
    refine IsSorted.ext ((isSorted_indexNames hproper' store site.folder).filter _)
      ((isSorted_indexNames hproper store site.folder).filter _) fun name => ?_
    simp only [List.mem_filter, mem_indexNames, decide_eq_true_eq]
    constructor
    · rintro ⟨⟨hitem, hindex⟩, hne⟩
      exact ⟨⟨hsame name hindex hne ▸ hitem, hindex⟩, hne⟩
    · rintro ⟨⟨hitem, hindex⟩, hne⟩
      exact ⟨⟨(hsame name hindex hne).symm ▸ hitem, hindex⟩, hne⟩
  have houtcome : ∀ name ∈ (store.indexNames site.folder world.disk).filter (· ≠ workspace ++ ".json"),
      store.outcomeAt limit site world'.disk name = store.outcomeAt limit site world.disk name := by
    intro name hname
    obtain ⟨hmem, hne⟩ := List.mem_filter.mp hname
    obtain ⟨hitem, hindex⟩ := mem_indexNames.mp hmem
    have halong := sameAlong_join hopen hopen' (hnames name (Disk.mem_namesBelow.mpr hitem))
      (hsame name hindex (of_decide_eq_true hne))
    change (summaryAt limit (store.base.join name) site ⟨world'.disk, []⟩).1 =
      (summaryAt limit (store.base.join name) site ⟨world.disk, []⟩).1
    exact Action.Agrees.fst_eq (agrees_summaryAt _ halong)
  have hpart (p : String → Bool) :
      (((store.indexNames site.folder world.disk).filter (· ≠ workspace ++ ".json")).filter p).map
          (store.outcomeAt limit site world'.disk) =
        (((store.indexNames site.folder world.disk).filter (· ≠ workspace ++ ".json")).filter p).map
          (store.outcomeAt limit site world.disk) :=
    List.map_congr_left fun name hname => houtcome name (List.mem_of_mem_filter hname)
  have hlist := listWithin_eq_collect limit hfits hopen
  have hlist' := listWithin_eq_collect limit hfits hopen'
  rw [map_outcomeAt_indexNames limit hproper store workspace] at hlist
  rw [map_outcomeAt_indexNames limit hproper' store workspace, hothers, hpart, hpart] at hlist'
  exact ⟨_, _, hlist, hlist'⟩

end Store

end DocOutline
