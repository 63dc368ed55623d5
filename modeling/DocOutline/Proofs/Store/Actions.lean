import DocOutline.Store.Action

/-!
# Runs of actions

What an action made of others does, by what these do. An action that gives a result has gone through all its parts
(`bind_ok`); one that fails stops there and does not go on (`bind_of_error`).
-/

namespace DocOutline.Action

variable {α β : Type} {site : Site} {world world' : World} {fault : Fault}

theorem bind_of_ok {a : α} {action : Action α} (next : α → Action β) (h : action site world = (.ok a, world')) :
    (action >>= next) site world = next a site world' := by
  simp only [bind, ReaderT.bind, ExceptT.bind, ExceptT.mk, StateT.bind, ExceptT.bindCont, h]

theorem bind_of_error {action : Action α} (next : α → Action β) (h : action site world = (.error fault, world')) :
    (action >>= next) site world = (.error fault, world') := by
  simp only [bind, ReaderT.bind, ExceptT.bind, ExceptT.mk, StateT.bind, ExceptT.bindCont, h]
  rfl

theorem bind_ok {b : β} {action : Action α} {next : α → Action β} :
    (action >>= next) site world = (.ok b, world') ↔
      ∃ a middle, action site world = (.ok a, middle) ∧ next a site middle = (.ok b, world') := by
  constructor
  · intro h
    match haction : action site world with
    | (.ok a, middle) => exact ⟨a, middle, rfl, by rwa [bind_of_ok next haction] at h⟩
    | (.error _, _) => rw [bind_of_error next haction] at h; cases h
  · rintro ⟨a, middle, haction, hnext⟩
    rw [bind_of_ok next haction, hnext]

/-- What two actions that keep a relation between disks do one after the other keeps it, if they are chained by it. -/
theorem bind_disk {relation : Disk → Disk → Prop} {action : Action α} {next : α → Action β}
    (htrans : ∀ {first second third}, relation first second → relation second third → relation first third)
    (h : ∀ world, relation world.disk (action site world).2.disk)
    (h' : ∀ a world, relation world.disk (next a site world).2.disk) (world : World) :
    relation world.disk ((action >>= next) site world).2.disk := by
  have haction := h world
  match hrun : action site world with
  | (.ok a, middle) =>
    rw [hrun] at haction
    rw [bind_of_ok next hrun]
    exact htrans haction (h' a middle)
  | (.error _, middle) =>
    rw [hrun] at haction
    rw [bind_of_error next hrun]
    exact haction

@[simp]
theorem pure_apply (a : α) : (pure a : Action α) site world = (.ok a, world) := rfl

@[simp]
theorem read_apply : (read : Action Site) site world = (.ok site, world) := rfl

@[simp]
theorem log_apply (record : Log.Record) :
    log record site world = (.ok (), { world with records := world.records ++ [record] }) := rfl

@[simp]
theorem ofExcept_apply {ε : Type} (faultOf : ε → Fault) (result : Except ε α) :
    ofExcept faultOf result site world = (result.mapError faultOf, world) := by
  cases result <;> rfl

@[simp]
theorem access_apply (result : Except Json.Fault α) :
    access result site world = (result.mapError .access, world) := ofExcept_apply _ _

@[simp]
theorem ask_apply (question : Disk → Place → Path → Except Disk.Error α) (path : Path) :
    ask question path site world = ((question world.disk site.folder path).mapError .disk, world) :=
  ofExcept_apply _ _

theorem ofExcept_ok {ε : Type} {faultOf : ε → Fault} {result : Except ε α} {a : α} :
    ofExcept faultOf result site world = (.ok a, world') ↔ result = .ok a ∧ world = world' := by
  cases result with
  | error _ => exact ⟨nofun, fun h => nomatch h.1⟩
  | ok b =>
    constructor
    · intro h
      cases h
      exact ⟨rfl, rfl⟩
    · rintro ⟨h, rfl⟩
      cases h
      rfl

theorem access_ok {result : Except Json.Fault α} {a : α} :
    access result site world = (.ok a, world') ↔ result = .ok a ∧ world = world' := ofExcept_ok

theorem ask_ok {question : Disk → Place → Path → Except Disk.Error α} {path : Path} {a : α} :
    ask question path site world = (.ok a, world') ↔ question world.disk site.folder path = .ok a ∧ world = world' :=
  ofExcept_ok

theorem expand_ok {path expanded : Path} :
    expand path site world = (.ok expanded, world') ↔ path.expand? site.homeOf? = some expanded ∧ world = world' := by
  unfold expand
  cases path.expand? site.homeOf? with
  | none => exact ⟨nofun, fun h => nomatch h.1⟩
  | some found =>
    constructor
    · intro h
      cases h
      exact ⟨rfl, rfl⟩
    · rintro ⟨h, rfl⟩
      cases h
      rfl

theorem change_ok {step : Place → Disk.Change α} {a : α} (h : change step site world = (.ok a, world')) :
    step site.folder world.disk = (.ok a, world'.disk) := by
  simp only [change] at h
  match hstep : step site.folder world.disk with
  | (.ok b, disk) => rw [hstep] at h; cases h; rfl
  | (.error _, disk) => rw [hstep] at h; cases h

/-- A file that cannot be written leaves all as it was. -/
theorem writeFile_apply (path : Path) (bytes : Text.Bytes) :
    writeFile path bytes site world =
      match Disk.write site.folder path bytes world.disk with
      | .ok disk => (.ok (), { world with disk })
      | .error error => (.error (.disk error), world) := by
  simp only [writeFile, change, Disk.Change.ofStep]
  cases Disk.write site.folder path bytes world.disk <;> rfl

theorem makeFolders_apply (path : Path) :
    makeFolders path site world =
      ((Disk.makeFolders site.folder path world.disk).1.mapError .disk,
        { world with disk := (Disk.makeFolders site.folder path world.disk).2 }) := rfl

@[simp]
theorem outcome_apply (action : Action α) :
    outcome action site world = (.ok (action site world).1, (action site world).2) := rfl

/-- What an action has given for each of several things it has given for one of them. -/
theorem mem_of_mapM_ok {as : List α} {action : α → Action β} {bs : List β} (h : as.mapM action site world = (.ok bs, world')) :
    ∀ b ∈ bs, ∃ a ∈ as, ∃ before after, action a site before = (.ok b, after) := by
  induction as generalizing world bs with
  | nil =>
    cases h
    exact nofun
  | cons a as ih =>
    rw [List.mapM_cons] at h
    obtain ⟨first, middle, hfirst, h⟩ := bind_ok.mp h
    obtain ⟨others, last, hothers, hreturn⟩ := bind_ok.mp h
    cases hreturn
    refine List.forall_mem_cons.mpr ⟨⟨a, .head _, world, middle, hfirst⟩, fun b hb => ?_⟩
    obtain ⟨other, hother, hrun⟩ := ih hothers b hb
    exact ⟨other, .tail _ hother, hrun⟩

/-! ## Time -/

def IgnoresTime (action : Action α) : Prop := ∀ site time, action { site with now := time } = action site

theorem ignoresTime_pure (a : α) : IgnoresTime (pure a) := fun _ _ => rfl

theorem ignoresTime_log (record : Log.Record) : IgnoresTime (log record) := fun _ _ => rfl

theorem ignoresTime_ask (question : Disk → Place → Path → Except Disk.Error α) (path : Path) :
    IgnoresTime (ask question path) := fun _ _ => rfl

theorem IgnoresTime.bind {action : Action α} {next : α → Action β} (h : IgnoresTime action)
    (h' : ∀ a, IgnoresTime (next a)) : IgnoresTime (action >>= next) := by
  intro site time
  funext world
  match hrun : action site world with
  | (.ok a, middle) => rw [bind_of_ok next hrun, bind_of_ok next ((congrFun (h site time) world).trans hrun), h' a]
  | (.error fault, middle) =>
    rw [bind_of_error next hrun, bind_of_error next ((congrFun (h site time) world).trans hrun)]

theorem IgnoresTime.outcome {action : Action α} (h : IgnoresTime action) : IgnoresTime (Action.outcome action) := by
  intro site time
  funext world
  rw [outcome_apply, outcome_apply, h]

theorem ignoresTime_forM {as : List α} {action : α → Action Unit} (h : ∀ a, IgnoresTime (action a)) :
    IgnoresTime (as.forM action) := by
  induction as with
  | nil => exact ignoresTime_pure ()
  | cons a as ih => exact (h a).bind fun _ => ih

theorem ignoresTime_mapM {as : List α} {action : α → Action β} (h : ∀ a, IgnoresTime (action a)) :
    IgnoresTime (as.mapM action) := by
  induction as with
  | nil => exact ignoresTime_pure []
  | cons a as ih =>
    rw [List.mapM_cons]
    exact (h a).bind fun _ => ih.bind fun _ => ignoresTime_pure _

end DocOutline.Action
