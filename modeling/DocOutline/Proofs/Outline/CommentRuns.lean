import DocOutline.Proofs.Outline.Shared
import DocOutline.Proofs.Walk.Comments

/-!
# Runs of comments

The runs of comments in an outline are the maximal runs of line comments in its tree (`maximalRuns_of_build`). What a run
is, the tree says: line comments that are siblings, each right behind the one before, or behind that and one space with
no more than one line feed (`Adjoins`). The walk compares ends of ranges instead, between the sibling in front of a
comment and what was finished last. That comes to the same, since the runs in the frames are at any time the comments
collected so far, grouped one by one (`Walked.runs`).
-/

namespace DocOutline.Outline

open DocOutline.Symbol (Entry Scope classify entryAt)
open DocOutline.Syntax (Cursor Node)

/-- Line comments that make up one entry, in document order. -/
structure CommentRun where
  first : Cursor
  rest : List Cursor

namespace CommentRun

def comments (run : CommentRun) : List Cursor := run.first :: run.rest

def last (run : CommentRun) : Cursor := run.rest.getLastD run.first

def entry (run : CommentRun) : Entry String := commentEntry run.first.offset run.last

def add (here : Cursor) (run : CommentRun) : CommentRun := { run with rest := run.rest ++ [here] }

variable {run : CommentRun} {runs : List CommentRun} {here : Cursor}

@[simp] theorem last_add (here : Cursor) (run : CommentRun) : (run.add here).last = here := by
  rw [last, add, List.getLastD_concat]

@[simp] theorem entry_add (here : Cursor) (run : CommentRun) :
    (run.add here).entry = commentEntry run.first.offset here := by
  rw [entry, last_add]
  rfl

@[simp] theorem comments_add (here : Cursor) (run : CommentRun) : (run.add here).comments = run.comments ++ [here] := rfl

theorem getLast?_comments (run : CommentRun) : run.comments.getLast? = some run.last := by
  rw [comments, List.getLast?_cons, last, List.getLastD_eq_getLast?]

/-! ## Grouping comments -/

/-- Puts a line comment behind the runs so far. If it follows a comment, it goes on with the latest of them. -/
def group (runs : List CommentRun) (here : Cursor) : List CommentRun :=
  match runs.getLast? with
  | some last => if followsComment here then runs.dropLast ++ [last.add here] else runs ++ [⟨here, []⟩]
  | none => [⟨here, []⟩]

theorem group_concat (runs : List CommentRun) (last : CommentRun) (here : Cursor) :
    group (runs ++ [last]) here =
      if followsComment here then runs ++ [last.add here] else runs ++ [last] ++ [⟨here, []⟩] := by
  simp [group]

theorem group_of_not_follows (h : ¬ followsComment here) (runs : List CommentRun) :
    group runs here = runs ++ [⟨here, []⟩] := by
  rcases List.eq_nil_or_concat runs with rfl | ⟨earlier, last, rfl⟩
  · rfl
  · rw [List.concat_eq_append, group_concat, if_neg h]

theorem comments_group (runs : List CommentRun) (here : Cursor) :
    (group runs here).flatMap CommentRun.comments = runs.flatMap CommentRun.comments ++ [here] := by
  rcases List.eq_nil_or_concat runs with rfl | ⟨earlier, last, rfl⟩
  · rfl
  · rw [List.concat_eq_append, group_concat]
    split
    · rw [List.flatMap_append, List.flatMap_append, List.flatMap_singleton, List.flatMap_singleton, comments_add,
        List.append_assoc]
    · rw [List.flatMap_append]
      rfl

/-- Grouping comments loses none of them and keeps their order. -/
theorem comments_foldl_group (runs : List CommentRun) (comments : List Cursor) :
    (comments.foldl group runs).flatMap CommentRun.comments = runs.flatMap CommentRun.comments ++ comments := by
  induction comments generalizing runs with
  | nil => rw [List.foldl_nil, List.append_nil]
  | cons here comments ih => rw [List.foldl_cons, ih, comments_group, List.append_assoc, List.singleton_append]

end CommentRun

/-! ## Runs in the frames -/

def runsIn (frames : List Frame) : List (Entry String) := (notedIn frames).filter (·.kind = .commentRun)

theorem runsIn_closeDown (height : Nat) (frames : List Frame) : runsIn (closeDown height frames) = runsIn frames := by
  rw [runsIn, notedIn_closeDown, runsIn]

theorem runsIn_settle (kind : Symbol.Kind) (frames : List Frame) : runsIn (settle kind frames) = runsIn frames := by
  rw [runsIn, notedIn_settle, runsIn]

theorem runsIn_push {entry : Entry String} {frames : List Frame} (hkind : entry.kind ≠ .commentRun) (h : frames ≠ []) :
    runsIn (⟨entry, []⟩ :: frames) = runsIn frames := by
  rw [runsIn, notedIn_push entry h, List.filter_append, List.filter_filter]
  simp [hkind, runsIn]

/-- Adding a comment to the frames is grouping it. -/
theorem runsIn_addComment {top : Frame} {below : List Frame} {here : Cursor} {runs : List CommentRun}
    (hrun : ∀ comment, commentBefore? here = some comment → comment.kind = .lineComment →
      EndsRun comment (top :: below))
    (hruns : runsIn (top :: below) = runs.map CommentRun.entry) :
    runsIn (⟨top.entry, addComment here top.finished⟩ :: below) = (CommentRun.group runs here).map CommentRun.entry := by
  rcases notedIn_addComment_cases hrun with ⟨noted, last, hfollows, hlast, hnoted, hafter⟩ | ⟨hfollows, hafter⟩
  · rw [runsIn, hnoted, List.filter_append, List.filter_singleton, decide_eq_true hlast, cond_true] at hruns
    obtain ⟨earlier, runs', rfl, hearlier, hruns'⟩ := List.map_eq_append_iff.1 hruns.symm
    obtain ⟨run, rfl, rfl⟩ := List.map_eq_singleton_iff.1 hruns'
    rw [runsIn, hafter, List.filter_append, List.filter_singleton, ← hearlier, CommentRun.group_concat, if_pos hfollows,
      List.map_append, List.map_singleton, CommentRun.entry_add]
    rfl
  · rw [runsIn, hafter, List.filter_append, CommentRun.group_of_not_follows hfollows, List.map_append, ← hruns]
    rfl

/-- **The runs in the frames are the collected comments, grouped one by one.** -/
theorem Walked.runs {scope : Scope} {visits : List Visit} {frames after : List Frame}
    (h : Walked scope visits frames after) {before? : Option Cursor} (hlined : Lined before? visits) (htidy : Tidy frames)
    (htrails : Trails before? frames) :
    ∃ comments, Collects scope visits comments ∧ ∀ runs, runsIn frames = runs.map CommentRun.entry →
      runsIn after = (comments.foldl CommentRun.group runs).map CommentRun.entry := by
  induction h generalizing before? with
  | done => exact ⟨[], .done, fun _ => id⟩
  | @entry visit rest symbol frames inner after hclass hinner hrest ihinner ihrest =>
    have hopens := Symbol.opens_of_classify hclass
    have hkind : symbol.kind ≠ .commentRun := by
      cases hopens <;> nofun
    obtain ⟨hcomment, hspace⟩ := hopens.not_separator
    have hsettled := htidy.settle symbol.kind
    have htidyinner : Tidy inner := (hinner.adds (hsettled.push hkind)).1
    obtain ⟨comments, hcollects, hruns⟩ := ihinner (lined_beneath visit) (hsettled.push hkind) behind_none
    obtain ⟨later, hlater, hlaterruns⟩ := ihrest hlined.2 (htidyinner.closeDown _) (behind_of_ne hcomment hspace)
    refine ⟨_, .entry hclass hcollects hlater, fun runs hbefore => ?_⟩
    rw [List.foldl_append]
    apply hlaterruns
    rw [runsIn_closeDown]
    apply hruns
    rw [runsIn_push hkind hsettled.ne_nil, runsIn_settle, hbefore]
  | @comment visit rest top below after hclass hkind hrest ihrest =>
    have hprev : visit.here.prevRaw? = before? := hlined.1 (by rw [hkind]; rfl)
    obtain ⟨later, hlater, hlaterruns⟩ := ihrest hlined.2 (grows_addComment visit.here htidy).1
      (behind_comment hkind (endsRun_addComment visit.here))
    refine ⟨_, .comment hkind hlater, fun runs hbefore => ?_⟩
    rw [List.foldl_cons]
    apply hlaterruns
    exact runsIn_addComment
      (fun comment hcomment hline => (trails_iff.1 htrails).of_commentBefore? hprev hcomment hline) hbefore
  | @function visit rest name body frames inner after hscope hkind hname hbody hinner hrest ihinner ihrest =>
    have hfunction : (entryAt visit.here name (.named .function)).kind ≠ .commentRun := nofun
    have htidyinner : Tidy inner := (hinner.adds (htidy.push hfunction)).1
    obtain ⟨comments, hcollects, hruns⟩ := ihinner (Visit.lined_body hbody) (htidy.push hfunction) behind_none
    obtain ⟨later, hlater, hlaterruns⟩ := ihrest hlined.2 (htidyinner.closeDown _)
      (behind_of_ne (by rw [hkind]; nofun) (by rw [hkind]; nofun))
    refine ⟨_, .function hscope hkind hbody hcollects hlater, fun runs hbefore => ?_⟩
    rw [List.foldl_append]
    apply hlaterruns
    rw [runsIn_closeDown]
    apply hruns
    rw [runsIn_push hfunction htidy.ne_nil, hbefore]
  | @parts visit rest frames middle after hclass hkind hbody hparts hrest ihparts ihrest =>
    have htrailsmiddle : Trails (some visit.here) middle := by
      -- A space leaves the frames as they are, so behind it they are as behind what is in front of it.
      by_cases hspace : visit.here.kind = .space
      · rw [Visit.parts_eq_nil_of_isTrivia (by rw [hspace]; rfl), Walked.nil_iff] at hparts
        rw [hparts]
        exact (trails_iff.1 htrails).space (hlined.1 (by rw [hspace]; rfl)) hspace
      · exact behind_of_ne hkind hspace
    obtain ⟨comments, hcollects, hruns⟩ := ihparts (visit.lined_parts scope) htidy behind_none
    obtain ⟨later, hlater, hlaterruns⟩ := ihrest hlined.2 (hparts.adds htidy).1 htrailsmiddle
    refine ⟨_, .parts hclass hkind hbody hcollects hlater, fun runs hbefore => ?_⟩
    rw [List.foldl_append]
    exact hlaterruns _ (hruns _ hbefore)

/-! ## Comments in a row -/

/-- Whether a line comment stands right behind another one, or behind that and one space with no more than one line
feed. -/
structure Adjoins (here next : Cursor) : Prop where
  comments : here.kind = .lineComment ∧ next.kind = .lineComment
  siblings : ∃ parent : Cursor, ∃ index, parent.children[index]? = some here ∧
    (parent.children[index + 1]? = some next ∨
      ∃ space, parent.children[index + 1]? = some space ∧ space.kind = .space ∧
        Text.countChar '\n' space.fullText ≤ 1 ∧ parent.children[index + 2]? = some next)

/-- Whether the walk looks for a run that ends where one line comment ends, to go on with it at another one. -/
def Follows (here next : Cursor) : Prop := commentBefore? next = some here ∧ here.kind = .lineComment

theorem followsComment_iff {next : Cursor} : followsComment next ↔ ∃ here, Follows here next := by
  simp [followsComment, Follows, Option.any_eq_true]

theorem Adjoins.follows {here next : Cursor} (h : Adjoins here next) : Follows here next := by
  obtain ⟨⟨hkind, -⟩, parent, index, hhere, hnext | ⟨space, hspace, hspacekind, hfeeds, hnext⟩⟩ := h
  · have hprev := (Cursor.prevRaw?_of_getElem?_succ hnext).trans hhere
    refine ⟨?_, hkind⟩
    simp [commentBefore?, hprev, hkind]
  · have hprev := (Cursor.prevRaw?_of_getElem?_succ hnext).trans hspace
    have hprevspace := (Cursor.prevRaw?_of_getElem?_succ hspace).trans hhere
    refine ⟨?_, hkind⟩
    simp [commentBefore?, hprev, hspacekind, Nat.not_lt_of_le hfeeds, hprevspace]

theorem Follows.adjoins {tree : Node} {here next : Cursor} (h : Follows here next)
    (hnext : next ∈ (Cursor.root tree).places) (hkind : next.kind = .lineComment) : Adjoins here next := by
  obtain ⟨hbefore, hhere⟩ := h
  obtain ⟨parent, -, hchild⟩ : ∃ parent ∈ (Cursor.root tree).places, next ∈ parent.children := by
    refine (Cursor.exists_parent_of_mem_places hnext).resolve_left ?_
    rintro rfl
    cases hbefore
  obtain ⟨index, hindex⟩ := List.getElem?_of_mem hchild
  refine ⟨⟨hhere, hkind⟩, parent, ?_⟩
  unfold commentBefore? at hbefore
  split at hbefore
  · next previous hprevious =>
    cases index with
    | zero => cases hprevious.symm.trans (Cursor.prevRaw?_of_getElem?_zero hindex)
    | succ index =>
      rw [Cursor.prevRaw?_of_getElem?_succ hindex] at hprevious
      split at hbefore
      · next hspace =>
        split at hbefore
        · cases hbefore
        · next hfeeds =>
          cases index with
          | zero => cases hbefore.symm.trans (Cursor.prevRaw?_of_getElem?_zero hprevious)
          | succ index =>
            rw [Cursor.prevRaw?_of_getElem?_succ hprevious] at hbefore
            exact ⟨index, hbefore, .inr ⟨previous, hprevious, hspace, Nat.le_of_not_lt hfeeds, hindex⟩⟩
      · cases hbefore
        exact ⟨index, hprevious, .inl hindex⟩
  · cases hbefore

/-- Whether each comment of a list that follows another one has this one right in front of it there. `last?` is what is
in front of the list. -/
def Sequenced : Option Cursor → List Cursor → Prop
  | _, [] => True
  | last?, next :: comments => (∀ here, Follows here next → last? = some here) ∧ Sequenced (some next) comments

theorem Sequenced.append {last? : Option Cursor} {comments later : List Cursor} (h : Sequenced last? comments)
    (h' : ∀ before?, (comments = [] → before? = last?) → Sequenced before? later) : Sequenced last? (comments ++ later) := by
  induction comments generalizing last? with
  | nil => exact h' last? fun _ => rfl
  | cons next comments ih => exact ⟨h.1, ih h.2 fun before? _ => h' before? nofun⟩

/-- Comments are collected in this order. -/
theorem Collects.sequenced {scope : Scope} {visits : List Visit} {comments : List Cursor}
    (h : Collects scope visits comments) {before? last? : Option Cursor} (hlined : Lined before? visits)
    (hbehind : Behind (fun comment => last? = some comment) before?) : Sequenced last? comments := by
  induction h generalizing before? last? with
  | done => trivial
  | @entry visit rest symbol inner later hclass hinner hrest ihinner ihrest =>
    obtain ⟨hcomment, hspace⟩ := (Symbol.opens_of_classify hclass).not_separator
    exact (ihinner (lined_beneath visit) behind_none).append fun _ _ => ihrest hlined.2 (behind_of_ne hcomment hspace)
  | @comment visit rest later hkind hrest ihrest =>
    have hprev : visit.here.prevRaw? = before? := hlined.1 (by rw [hkind]; rfl)
    exact ⟨fun _ hfollows => hbehind.of_commentBefore? hprev hfollows.1 hfollows.2,
      ihrest hlined.2 (behind_comment hkind rfl)⟩
  | @function visit rest body inner later hscope hkind hbody hinner hrest ihinner ihrest =>
    exact (ihinner (Visit.lined_body hbody) behind_none).append fun _ _ =>
      ihrest hlined.2 (behind_of_ne (by rw [hkind]; nofun) (by rw [hkind]; nofun))
  | @parts visit rest inner later hclass hkind hbody hinner hrest ihinner ihrest =>
    refine (ihinner (visit.lined_parts scope) behind_none).append fun before?' hbefore => ihrest hlined.2 ?_
    by_cases hspace : visit.here.kind = .space
    · rw [Visit.parts_eq_nil_of_isTrivia (by rw [hspace]; rfl)] at hinner
      cases hinner
      rw [hbefore rfl]
      exact hbehind.space (hlined.1 (by rw [hspace]; rfl)) hspace
    · exact behind_of_ne hkind hspace

/-! ## Runs are maximal -/

namespace CommentRun

/-- Whether runs are cut where a comment follows no other one, and nowhere else. -/
structure Grouped (runs : List CommentRun) : Prop where
  chain : ∀ run ∈ runs, run.comments.IsChain Follows
  start : ∀ run ∈ runs, ¬ followsComment run.first

theorem getLast?_group (runs : List CommentRun) (next : Cursor) : (group runs next).getLast?.map last = some next := by
  rcases List.eq_nil_or_concat runs with rfl | ⟨earlier, run, rfl⟩
  · rfl
  · rw [List.concat_eq_append, group_concat]
    split
    · rw [List.getLast?_concat, Option.map_some, last_add]
    · rw [List.getLast?_concat]
      rfl

theorem Grouped.concat {runs : List CommentRun} {run : CommentRun} (h : Grouped runs)
    (hchain : run.comments.IsChain Follows) (hstart : ¬ followsComment run.first) : Grouped (runs ++ [run]) :=
  ⟨List.forall_mem_append.2 ⟨h.chain, List.forall_mem_singleton.2 hchain⟩,
    List.forall_mem_append.2 ⟨h.start, List.forall_mem_singleton.2 hstart⟩⟩

theorem Grouped.group {runs : List CommentRun} {next : Cursor} (h : Grouped runs)
    (hlast : ∀ here, Follows here next → runs.getLast?.map last = some here) : Grouped (group runs next) := by
  by_cases hfollows : followsComment next
  · obtain ⟨here, hhere⟩ := followsComment_iff.1 hfollows
    have hrun := hlast here hhere
    rcases List.eq_nil_or_concat runs with rfl | ⟨earlier, run, rfl⟩
    · cases hrun
    rw [List.concat_eq_append] at h hrun ⊢
    rw [List.getLast?_concat] at hrun
    obtain rfl : run.last = here := Option.some_injective _ hrun
    obtain ⟨hchains, hchain⟩ := List.forall_mem_append.1 h.chain
    obtain ⟨hstarts, hstart⟩ := List.forall_mem_append.1 h.start
    have hrunchain := hchain run (List.mem_singleton_self run)
    rw [group_concat, if_pos hfollows]
    refine Grouped.concat ⟨hchains, hstarts⟩ ?_ (hstart run (List.mem_singleton_self run))
    rw [comments_add]
    refine hrunchain.append (.singleton next) fun before hbefore after hafter => ?_
    rw [getLast?_comments] at hbefore
    cases hbefore
    cases hafter
    exact hhere
  · rw [group_of_not_follows hfollows]
    exact h.concat (.singleton next) hfollows

/-- Comments in this order are cut into runs where they have to be. -/
theorem Grouped.foldl {runs : List CommentRun} {last? : Option Cursor} {comments : List Cursor} (h : Grouped runs)
    (hlast : runs.getLast?.map last = last?) (hsequenced : Sequenced last? comments) :
    Grouped (comments.foldl CommentRun.group runs) := by
  induction comments generalizing runs last? with
  | nil => exact h
  | cons next comments ih =>
    obtain ⟨hnext, hcomments⟩ := hsequenced
    rw [List.foldl_cons]
    exact ih (h.group fun here hfollows => hlast.trans (hnext here hfollows)) (getLast?_group runs next) hcomments

/-- A comment that another one follows is in the run of that one. -/
theorem Grouped.mem_of_follows {runs : List CommentRun} {run : CommentRun} {here next : Cursor} (h : Grouped runs)
    (hrun : run ∈ runs) (hnext : next ∈ run.comments) (hfollows : Follows here next) : here ∈ run.comments := by
  obtain ⟨index, hindex, rfl⟩ := List.getElem_of_mem hnext
  cases index with
  | zero => exact absurd (followsComment_iff.2 ⟨here, hfollows⟩) (h.start run hrun)
  | succ index =>
    have hbefore := List.isChain_iff_getElem.1 (h.chain run hrun) index hindex
    rw [← Option.some_injective _ (hbefore.1.symm.trans hfollows.1)]
    exact List.getElem_mem _

end CommentRun

/-- Comments that lead from one to another are all in the same run. -/
theorem CommentRun.Grouped.eq_of_reflTransGen {runs : List CommentRun} {run other : CommentRun} {here there : Cursor}
    (h : Grouped runs) (hnodup : (runs.flatMap comments).Nodup) (hrun : run ∈ runs) (hother : other ∈ runs)
    (hhere : here ∈ run.comments) (hthere : there ∈ other.comments) (hleads : Relation.ReflTransGen Adjoins here there) :
    run = other := by
  induction hleads with
  | refl =>
    by_contra hne
    have : Std.Symm (Function.onFun List.Disjoint comments) := ⟨fun _ _ h => List.Disjoint.symm h⟩
    exact (List.nodup_flatMap.1 hnodup).2.forall hrun hother hne hhere hthere
  | tail _ hadjoins ih => exact ih (h.mem_of_follows hother hthere hadjoins.follows)

/-- Whether one of two line comments leads to the other one by comments each of which adjoins the one before. -/
def Linked (here other : Cursor) : Prop :=
  Relation.ReflTransGen Adjoins here other ∨ Relation.ReflTransGen Adjoins other here

theorem Linked.symm {here other : Cursor} (h : Linked here other) : Linked other here := Or.symm h

theorem linked_of_isChain {comments : List Cursor} {here other : Cursor} (h : comments.IsChain Adjoins)
    (hhere : here ∈ comments) (hother : other ∈ comments) : Linked here other := by
  have hpairwise : comments.Pairwise Linked :=
    (List.isChain_iff_pairwise.1 (h.imp fun _ _ => Relation.ReflTransGen.single)).imp Or.inl
  have : Std.Symm Linked := ⟨fun _ _ => Linked.symm⟩
  exact hpairwise.forall_of_forall (fun _ _ => .inl .refl) hhere hother

/-! ## Ranges of runs -/

theorem Adjoins.stop_le {here next : Cursor} (h : Adjoins here next) : here.stop ≤ next.offset := by
  obtain ⟨-, parent, index, hhere, hnext | ⟨space, hspace, -, -, hnext⟩⟩ := h
  · exact Nat.le_of_eq (Cursor.stop_of_getElem?_succ hhere hnext)
  · calc here.stop = space.offset := Cursor.stop_of_getElem?_succ hhere hspace
      _ ≤ space.stop := space.offset_le_stop
      _ = next.offset := Cursor.stop_of_getElem?_succ hspace hnext

/-- The comments of a run lie in its range. -/
theorem range_of_isChain {first here : Cursor} {rest : List Cursor} (h : (first :: rest).IsChain Adjoins)
    (hhere : here ∈ first :: rest) : first.offset ≤ here.offset ∧ here.stop ≤ (rest.getLastD first).stop := by
  induction rest generalizing first here with
  | nil =>
    rw [List.mem_singleton.1 hhere]
    exact ⟨Nat.le_refl _, Nat.le_refl _⟩
  | cons next rest ih =>
    obtain ⟨hadjoins, hchain⟩ := List.isChain_cons_cons.1 h
    have hnext := ih hchain (List.mem_cons_self ..)
    have hfirst := first.offset_le_stop
    have hstop := hadjoins.stop_le
    have hnextstop := next.offset_le_stop
    rw [List.getLastD_cons]
    rcases List.mem_cons.1 hhere with rfl | hhere
    · exact ⟨Nat.le_refl _, by omega⟩
    · obtain ⟨hoffset, hlast⟩ := ih hchain hhere
      exact ⟨by omega, hlast⟩

/-- What is in the range of a run is in a comment of it or in a space beside one. -/
theorem exists_separator_of_isChain {first : Cursor} {rest : List Cursor} (h : (first :: rest).IsChain Adjoins)
    {position : Nat} (hfirst : first.offset ≤ position) (hlast : position < (rest.getLastD first).stop) :
    ∃ place, place.offset ≤ position ∧ position < place.stop ∧ (place ∈ first :: rest ∨
      place.kind = .space ∧ ∃ comment ∈ first :: rest, ∃ parent : Cursor, comment ∈ parent.children ∧
        place ∈ parent.children) := by
  induction rest generalizing first with
  | nil => exact ⟨first, hfirst, hlast, .inl (List.mem_cons_self ..)⟩
  | cons next rest ih =>
    obtain ⟨hadjoins, hchain⟩ := List.isChain_cons_cons.1 h
    rw [List.getLastD_cons] at hlast
    by_cases hstop : position < first.stop
    · exact ⟨first, hfirst, hstop, .inl (List.mem_cons_self ..)⟩
    by_cases hnext : next.offset ≤ position
    · obtain ⟨place, hplace, hplacestop, hcases⟩ := ih hchain hnext hlast
      refine ⟨place, hplace, hplacestop, hcases.imp (List.mem_cons_of_mem _) ?_⟩
      rintro ⟨hkind, comment, hcomment, hsiblings⟩
      exact ⟨hkind, comment, List.mem_cons_of_mem _ hcomment, hsiblings⟩
    -- Between two comments there is room for a space only.
    obtain ⟨-, parent, index, hhere, hbehind | ⟨space, hspace, hkind, -, hbehind⟩⟩ := hadjoins
    · have := Cursor.stop_of_getElem?_succ hhere hbehind
      omega
    · have hstart := Cursor.stop_of_getElem?_succ hhere hspace
      have hend := Cursor.stop_of_getElem?_succ hspace hbehind
      exact ⟨space, by omega, by omega, .inr ⟨hkind, first, List.mem_cons_self .., parent, List.mem_of_getElem? hhere,
        List.mem_of_getElem? hspace⟩⟩

/-- A comment with text that lies in the range of a run is one of its comments. -/
theorem mem_of_range {scope : Scope} {tree : Node} {first here : Cursor} {rest : List Cursor}
    (hchain : (first :: rest).IsChain Adjoins)
    (hreached : ∀ comment ∈ first :: rest, ReachesComment scope ⟨.reference, Cursor.root tree⟩ comment)
    (hhere : ReachesComment scope ⟨.reference, Cursor.root tree⟩ here) (hstart : first.offset ≤ here.offset)
    (hstop : here.stop ≤ (rest.getLastD first).stop) (htext : here.offset < here.stop) : here ∈ first :: rest := by
  obtain ⟨place, hplace, hplacestop, hcases⟩ := exists_separator_of_isChain hchain hstart (by omega)
  rcases hcases with hmem | ⟨hspace, comment, hcomment, parent, hchild, hsibling⟩
  · have hplacereached := hreached place hmem
    rcases Cursor.nested_of_overlap hplacereached.mem_places hhere.mem_places (by omega) hplacestop with h | h
    · rwa [hhere.eq_of_separator hplacereached.mem_places (.inl hplacereached.1) h]
    · rwa [← hplacereached.eq_of_separator hhere.mem_places (.inl hhere.1) h]
  · have hcommentreached := hreached comment hcomment
    have hplacemem : place ∈ (Cursor.root tree).places :=
      Cursor.mem_places_child (Cursor.parent_mem_places_root hchild hcommentreached.mem_places) hsibling
    have hne : place ≠ here := by
      rintro rfl
      cases hspace.symm.trans hhere.1
    rcases Cursor.nested_of_overlap hplacemem hhere.mem_places (by omega) hplacestop with h | h
    · exact absurd (hhere.eq_of_separator hplacemem (.inr hspace) h).symm hne
    -- What holds the space holds the comment beside it.
    · have hbeneath := Cursor.mem_places_child (Cursor.parent_mem_places hsibling h hne) hchild
      rwa [← hcommentreached.eq_of_separator hhere.mem_places (.inl hhere.1) hbeneath]

/-- **The runs are the maximal runs** of the comments that are reached. -/
structure MaximalRuns (reached : Cursor → Prop) (runs : List CommentRun) : Prop where
  /-- Each comment that is reached is in a run, and in runs there are no others. -/
  mem_iff : ∀ here, (∃ run ∈ runs, here ∈ run.comments) ↔ reached here
  /-- No comment is in two runs, or twice in one. -/
  nodup : (runs.flatMap CommentRun.comments).Nodup
  /-- The comments of a run are in a row. -/
  chain : ∀ run ∈ runs, run.comments.IsChain Adjoins
  /-- Two comments are in the same run if and only if comments in a row lead from one to the other. -/
  same_iff : ∀ run ∈ runs, ∀ other ∈ runs, ∀ here ∈ run.comments, ∀ there ∈ other.comments,
    run = other ↔ Linked here there
  /-- The range of a run has that of each of its comments in it, and no other comment with text. -/
  range : ∀ run ∈ runs, ∀ here, reached here →
    (here ∈ run.comments → run.entry.start ≤ here.offset ∧ here.stop ≤ run.entry.stop) ∧
      (run.entry.start ≤ here.offset → here.stop ≤ run.entry.stop → here.offset < here.stop → here ∈ run.comments)

theorem maximalRuns_of_grouped {scope : Scope} {tree : Node} {runs : List CommentRun}
    (hmem : ∀ here, (∃ run ∈ runs, here ∈ run.comments) ↔ ReachesComment scope ⟨.reference, Cursor.root tree⟩ here)
    (hnodup : (runs.flatMap CommentRun.comments).Nodup) (hgrouped : CommentRun.Grouped runs) :
    MaximalRuns (ReachesComment scope ⟨.reference, Cursor.root tree⟩) runs := by
  have hreached : ∀ run ∈ runs, ∀ here ∈ run.comments, ReachesComment scope ⟨.reference, Cursor.root tree⟩ here :=
    fun run hrun here hhere => (hmem here).1 ⟨run, hrun, hhere⟩
  have hchain : ∀ run ∈ runs, run.comments.IsChain Adjoins := fun run hrun =>
    (hgrouped.chain run hrun).imp_of_mem_imp fun here next _ hnext hfollows => by
      have hcomment := hreached run hrun next hnext
      exact hfollows.adjoins hcomment.mem_places hcomment.1
  refine ⟨hmem, hnodup, hchain, fun run hrun other hother here hhere there hthere => ⟨?_, ?_⟩,
    fun run hrun here hhere => ⟨fun hinrun => ?_, fun hstart hstop htext => ?_⟩⟩
  · rintro rfl
    exact linked_of_isChain (hchain run hrun) hhere hthere
  · rintro (h | h)
    · exact hgrouped.eq_of_reflTransGen hnodup hrun hother hhere hthere h
    · exact (hgrouped.eq_of_reflTransGen hnodup hother hrun hthere hhere h).symm
  · obtain ⟨hoffset, hstop⟩ := range_of_isChain (hchain run hrun) hinrun
    exact ⟨Int.ofNat_le.2 hoffset, Int.ofNat_le.2 hstop⟩
  · exact mem_of_range (hchain run hrun) (hreached run hrun) hhere (Int.ofNat_le.1 hstart) (Int.ofNat_le.1 hstop) htext

/-- The entries of the runs of comments in an outline, in pre-order. -/
def runEntries (forest : Forest) : List (Entry String) :=
  ((flattenAll 0 forest).map Prod.fst).filter (·.kind = .commentRun)

theorem runsIn_of_closeDown {frames : List Frame} {bottom : Frame} (h : closeDown 1 frames = [bottom]) :
    runsIn frames = runEntries bottom.finished.reverse := by
  rw [runsIn, notedIn, ← rows_of_closeDown h, forestRows, entries_rowsAll 0, List.filter_filter, runEntries]
  refine List.filter_congr fun entry _ => ?_
  by_cases hkind : entry.kind = .commentRun
  · simp [hkind, Symbol.Kind.isShared]
  · simp [hkind]

/-- **The runs of comments in an outline are the maximal runs in its tree.** The entry of each reaches from the start of
its first comment to the end of its last (`_check_line_comment`; specification, sections 8 and 10.9). -/
theorem maximalRuns_of_build (tree : Node) (scope : Scope) {forest : Forest}
    (hidents : ∀ here ∈ (Cursor.root tree).places, here.kind = .ident → here.node.children = [])
    (hloops : ∀ loop ∈ (Cursor.root tree).places, loop.kind = .forLoop → IsComplete loop)
    (h : build (Cursor.root tree) scope = .ok forest) :
    ∃ runs : List CommentRun, runEntries forest = runs.map CommentRun.entry ∧
      MaximalRuns (ReachesComment scope ⟨.reference, Cursor.root tree⟩) runs := by
  obtain ⟨frames, bottom, hwalked, hclosed, rfl⟩ := walked_of_run h
  have hlined : Lined none [⟨.reference, Cursor.root tree⟩] := ⟨fun _ => rfl, trivial⟩
  obtain ⟨comments, hcollects, hruns⟩ := hwalked.runs hlined Tidy.sentinel behind_none
  have hflat := CommentRun.comments_foldl_group [] comments
  rw [List.flatMap_nil, List.nil_append] at hflat
  refine ⟨comments.foldl CommentRun.group [], ?_, maximalRuns_of_grouped (fun here => ?_) ?_ ?_⟩
  · rw [← hruns [] rfl, runsIn_of_closeDown hclosed]
  · rw [← List.mem_flatMap, hflat, hcollects.mem_iff]
    simp
  · rw [hflat]
    exact hcollects.nodup hloops hidents (List.forall_mem_singleton.2 (Cursor.mem_places_self _))
      (List.forall_mem_singleton.2 rfl) (List.pairwise_singleton ..)
  · exact CommentRun.Grouped.foldl ⟨nofun, nofun⟩ rfl (hcollects.sequenced hlined behind_none)

/-- A heading, and four comments beneath it. There is one line feed between the first two, and two between the second and
the third. The third one and the fourth one touch. -/
def annotatedSection : Node :=
  .inner .markup [.inner .heading [.leaf .headingMarker "=", .leaf .space " ", .inner .markup [.leaf .text "A"]],
    .leaf .space "\n", .leaf .lineComment "//b", .leaf .space "\n", .leaf .lineComment "//c", .leaf .space "\n\n",
    .leaf .lineComment "//d", .leaf .lineComment "//e"]

theorem maximalRuns_of_build_annotatedSection :
    ∃ runs : List CommentRun, [⟨"", .commentRun, 4, 11⟩, ⟨"", .commentRun, 13, 19⟩] = runs.map CommentRun.entry ∧
      MaximalRuns (ReachesComment .symbol ⟨.reference, Cursor.root annotatedSection⟩) runs := by
  have h : build (Cursor.root annotatedSection) .symbol = .ok [mk ⟨"A", .heading 1, 2, 3⟩
      [mk ⟨"", .commentRun, 4, 11⟩ [], mk ⟨"", .commentRun, 13, 19⟩ []]] := eq_ok_of_toOption (by decide +kernel)
  exact maximalRuns_of_build annotatedSection .symbol (by decide) (by decide) h

end DocOutline.Outline
