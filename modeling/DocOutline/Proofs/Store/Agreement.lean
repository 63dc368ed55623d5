import DocOutline.Proofs.Store.Deleting

/-!
# Actions that only look

An action that only looks at the disk answers alike on two disks that hold the same wherever it looks (`Agrees`). So do loading
a workspace and reading the source of a symbol, if what belongs to the workspace is the same (`agrees_loadWithin`,
`agrees_contentWithin`).
-/

namespace DocOutline

namespace Action

variable {α β : Type} {site : Site} {disk disk' : Disk} {world world' : World}

/-- Whether an action looks at the disk and may log, but does nothing else, and comes out the same on two disks. -/
def Agrees (site : Site) (disk disk' : Disk) (action : Action α) : Prop :=
  ∃ outcome records, ∀ before, action site ⟨disk, before⟩ = (outcome, ⟨disk, before ++ records⟩) ∧
    action site ⟨disk', before⟩ = (outcome, ⟨disk', before ++ records⟩)

theorem Agrees.fst_eq {action : Action α} (h : Agrees site world.disk world'.disk action) :
    (action site world').1 = (action site world).1 := by
  obtain ⟨outcome, records, hrun⟩ := h
  rw [(hrun world.records).1, (hrun world'.records).2]

/-- It leaves the disk alone. -/
theorem Agrees.disk_eq {action : Action α} (h : Agrees site world.disk disk' action) :
    (action site world).2.disk = world.disk := by
  obtain ⟨outcome, records, hrun⟩ := h
  rw [(hrun world.records).1]

/-- A result that it gives on one disk it gives on the other. -/
theorem Agrees.ok {action : Action α} {a : α} {middle : World} (h : Agrees site world.disk world'.disk action)
    (hrun : action site world = (.ok a, middle)) :
    ∃ middle', action site world' = (.ok a, middle') ∧ middle'.disk = world'.disk := by
  obtain ⟨outcome, records, hboth⟩ := h
  rw [(hboth world.records).1] at hrun
  cases hrun
  exact ⟨_, (hboth world'.records).2, rfl⟩

theorem agrees_ofExcept {ε : Type} (faultOf : ε → Fault) (result : Except ε α) :
    Agrees site disk disk' (ofExcept faultOf result) :=
  ⟨_, [], fun before => by rw [ofExcept_apply, ofExcept_apply, List.append_nil]; exact ⟨rfl, rfl⟩⟩

theorem agrees_pure (a : α) : Agrees site disk disk' (pure a) := agrees_ofExcept id (.ok a)

theorem agrees_log (record : Log.Record) : Agrees site disk disk' (log record) := ⟨_, [record], fun _ => ⟨rfl, rfl⟩⟩

theorem agrees_read : Agrees site disk disk' (read : Action Site) :=
  ⟨.ok site, [], fun before => by rw [List.append_nil]; exact ⟨rfl, rfl⟩⟩

theorem agrees_ask {question : Disk → Place → Path → Except Disk.Error α} {path : Path}
    (h : question disk' site.folder path = question disk site.folder path) :
    Agrees site disk disk' (ask question path) := by
  refine ⟨(question disk site.folder path).mapError .disk, [], fun before => ⟨?_, ?_⟩⟩
  · rw [ask_apply, List.append_nil]
  · rw [ask_apply, List.append_nil, h]

theorem Agrees.bind_of {action : Action α} {next : α → Action β} (h : Agrees site disk disk' action)
    (h' : ∀ a after, action site ⟨disk, []⟩ = (.ok a, after) → Agrees site disk disk' (next a)) :
    Agrees site disk disk' (action >>= next) := by
  obtain ⟨outcome, records, hrun⟩ := h
  match outcome with
  | .error fault =>
    exact ⟨.error fault, records, fun before =>
      ⟨bind_of_error next (hrun before).1, bind_of_error next (hrun before).2⟩⟩
  | .ok a =>
    obtain ⟨outcome', records', hnext⟩ := h' a _ (hrun []).1
    refine ⟨outcome', records ++ records', fun before => ?_⟩
    rw [bind_of_ok next (hrun before).1, bind_of_ok next (hrun before).2, ← List.append_assoc]
    exact hnext _

theorem Agrees.bind {action : Action α} {next : α → Action β} (h : Agrees site disk disk' action)
    (h' : ∀ a, Agrees site disk disk' (next a)) : Agrees site disk disk' (action >>= next) :=
  h.bind_of fun a _ _ => h' a

theorem Agrees.outcome {action : Action α} (h : Agrees site disk disk' action) :
    Agrees site disk disk' (Action.outcome action) := by
  obtain ⟨outcome, records, hrun⟩ := h
  refine ⟨.ok outcome, records, fun before => ?_⟩
  rw [outcome_apply, outcome_apply, (hrun before).1, (hrun before).2]
  exact ⟨rfl, rfl⟩

theorem Agrees.mapM {as : List α} {action : α → Action β} (h : ∀ a ∈ as, Agrees site disk disk' (action a)) :
    Agrees site disk disk' (as.mapM action) := by
  induction as with
  | nil => exact agrees_pure []
  | cons a as ih =>
    rw [List.forall_mem_cons] at h
    rw [List.mapM_cons]
    exact h.1.bind fun _ => (ih h.2).bind fun _ => agrees_pure _

theorem agrees_forM {α : Type} {as : List α} {action : α → Action Unit} (h : ∀ a ∈ as, Agrees site disk disk' (action a)) :
    Agrees site disk disk' (as.forM action) := by
  induction as with
  | nil => exact agrees_pure ()
  | cons a as ih =>
    rw [List.forall_mem_cons] at h
    exact h.1.bind fun _ => ih h.2

end Action

namespace Store

open DocOutline.Action

variable {store : Store} {site : Site} {disk disk' : Disk} {path : Path} {workspace file : String}

/-! ## Paths of workspaces -/

section

variable {folder : Place} (hopen : store.IsOpen folder disk) (hopen' : store.IsOpen folder disk')

include hopen hopen'

/-- Below an open store, two disks hold the same along a path if they do at the places below the store that it passes. -/
theorem sameAlong_of_isOpen {name : String} {names : List String} (hplain : ".." ∉ name :: names)
    (hsame : ∀ rest, rest <+: names →
      disk'.item? (store.basePlace folder ++ name :: rest) = disk.item? (store.basePlace folder ++ name :: rest)) :
    Disk.SameAlong folder ⟨store.base.root, store.base.parts ++ name :: names⟩ disk disk' := by
  constructor
  · intro stop hstop
    rw [Path.stops_append, List.mem_append] at hstop
    rcases hstop with hbase | hbelow
    · exact (hopen'.passable stop hbase).trans (hopen.passable stop hbase).symm
    · obtain ⟨before, part, after, hparts, rfl⟩ := (Path.mem_stops_of_plain hplain).mp hbelow
      cases before with
      | nil =>
        rw [List.append_nil]
        exact hopen'.isFolder.trans hopen.isFolder.symm
      | cons first before =>
        obtain ⟨rfl, hrest⟩ := List.cons.inj hparts
        exact hsame before ⟨part :: after, hrest.symm⟩
  · rw [target_append hplain]
    exact hsame names (List.prefix_refl _)

theorem sameAlong_join {name : String} (h : Path.IsName name)
    (hsame : disk'.item? (store.basePlace folder ++ [name]) = disk.item? (store.basePlace folder ++ [name])) :
    Disk.SameAlong folder (store.base.join name) disk disk' := by
  rw [join_base_eq h]
  refine sameAlong_of_isOpen hopen hopen' (by simpa using Ne.symm h.2.2.2) fun rest hrest => ?_
  rwa [List.prefix_nil.mp hrest]

theorem sameAlong_document (h : Path.IsName workspace) (hfile : Path.IsPlain file)
    (hsame : ∀ place, store.IsContentPlace folder workspace place → disk'.item? place = disk.item? place) :
    Disk.SameAlong folder ((store.contentFolder workspace).join file) disk disk' := by
  rw [join_contentFolder_eq h hfile]
  exact sameAlong_of_isOpen hopen hopen' (not_mem_cons_names h hfile) fun rest _ => hsame _ ⟨rest, by simp⟩

end

/-! ## Answers -/

theorem agrees_exists? (h : Disk.SameAlong site.folder path disk disk') :
    Agrees site disk disk' (ask Disk.exists? path) := agrees_ask (by rw [Disk.exists?, Disk.exists?, h.look?])

theorem agrees_readJson (limit : Limit) (h : Disk.SameAlong site.folder path disk disk') :
    Agrees site disk disk' (readJson limit path) :=
  (agrees_ask h.read).bind fun _ => (agrees_ofExcept _ _).bind fun _ => agrees_ofExcept _ _

theorem agrees_loadWithin (limit : Limit) (h : Disk.SameAlong site.folder (store.indexPath workspace) disk disk') :
    Agrees site disk disk' (store.loadWithin limit workspace) := by
  refine (agrees_exists? h).bind fun there => ?_
  cases there with
  | false => exact agrees_pure none
  | true => exact (agrees_readJson limit h).bind fun _ => (agrees_ofExcept _ _).bind fun _ => agrees_pure _

theorem agrees_summaryAt (limit : Limit) (h : Disk.SameAlong site.folder path disk disk') :
    Agrees site disk disk' (summaryAt limit path) := by
  refine ((agrees_readJson limit h).bind fun _ => agrees_ofExcept _ _).outcome.bind fun outcome => ?_
  cases outcome with
  | ok summary => exact agrees_pure _
  | error fault =>
    dsimp only
    split
    · exact (agrees_log _).bind fun _ => agrees_pure none
    · exact agrees_ofExcept _ _

theorem agrees_sourceOf {symbol : Json}
    (h : ∀ file, symbol.member "file" = .ok (.str file) →
      Disk.SameAlong site.folder ((store.contentFolder workspace).join file) disk disk') :
    Agrees site disk disk' (store.sourceOf workspace symbol) := by
  refine (agrees_ofExcept _ _).bind_of fun value _ hvalue => (agrees_ofExcept _ _).bind_of fun path _ hpath => ?_
  have hmember := (access_ok.mp hvalue).1
  have hjoin := (access_ok.mp hpath).1
  have hsame : Disk.SameAlong site.folder path disk disk' := by
    match value with
    | .str file =>
      cases hjoin
      exact h file hmember
    | .null | .bool _ | .int _ | .real _ | .arr _ | .obj _ => cases hjoin
  refine (agrees_exists? hsame).bind fun there => ?_
  cases there with
  | false => exact agrees_pure none
  | true =>
    refine (agrees_ask hsame.read).bind fun bytes => (agrees_ofExcept _ _).bind fun start => ?_
    refine (agrees_ofExcept _ _).bind fun offset => (agrees_ofExcept _ _).bind fun length => ?_
    exact (agrees_ofExcept _ _).bind fun source => agrees_pure _

/-- **The source of a symbol is the same where the snapshot and the text of its document are.** -/
theorem agrees_contentWithin (limit : Limit) {id : Json} (h : Disk.SameAlong site.folder (store.indexPath workspace) disk disk')
    (h' : ∀ snapshot symbol file after,
      store.loadWithin limit workspace site ⟨disk, []⟩ = (.ok (some snapshot), after) →
      snapshot.symbol? id = .ok (some symbol) → symbol.member "file" = .ok (.str file) →
      Disk.SameAlong site.folder ((store.contentFolder workspace).join file) disk disk') :
    Agrees site disk disk' (store.contentWithin limit workspace id) := by
  refine (agrees_loadWithin limit h).bind_of fun snapshot? after hload => ?_
  match snapshot? with
  | none => exact agrees_pure none
  | some snapshot =>
    have hsymbol : Agrees site disk disk' (presentSymbol? snapshot id) :=
      (agrees_ofExcept _ _).bind fun _ => agrees_pure _
    refine hsymbol.bind_of fun symbol? after' hpresent => ?_
    match symbol? with
    | none => exact agrees_pure none
    | some symbol =>
      obtain ⟨found, _, hfound, hreturn⟩ := bind_ok.mp hpresent
      have hfilter : found.filter Json.isPresent = some symbol := Except.ok.inj (congrArg Prod.fst hreturn)
      have hsymbol? : snapshot.symbol? id = .ok (some symbol) := by
        rw [(access_ok.mp hfound).1, (Option.filter_eq_some_iff.mp hfilter).1]
      exact agrees_sourceOf fun file hfile => h' snapshot symbol file after hload hsymbol? hfile

end Store

end DocOutline
