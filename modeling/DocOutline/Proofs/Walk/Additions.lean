import DocOutline.Proofs.Outline.Rows
import DocOutline.Proofs.Walk.Adequacy
import DocOutline.Proofs.Walk.Reach

/-!
# Entries of a walk

Where the entries of an outline come from.
-/

namespace DocOutline.Outline

open DocOutline.Symbol (Entry Scope classify entryAt)
open DocOutline.Syntax (Cursor)

/-! ## Entries that a walk adds

Each entry of an outline comes from a node that opens it, from a closure, or from a line comment. What holds of all
entries that come about in these ways holds of all entries that a walk adds (`Walked.forall_entries`), and so of all
entries of an outline.
-/

def commentEntry (start : Int) (here : Cursor) : Entry String := ⟨"", .commentRun, start, here.stop⟩

/-- A line comment starts a run of its own or widens the run that was finished last. -/
theorem addComment_cases (here : Cursor) (finished : List (Outline String)) :
    addComment here finished = mk (commentEntry here.offset here) [] :: finished ∨
      ∃ last earlier, finished = last :: earlier ∧ continuesRun here last ∧
        addComment here finished = mk (commentEntry last.entry.start here) [] :: earlier := by
  cases finished with
  | nil => exact .inl rfl
  | cons last earlier =>
    rw [addComment]
    by_cases hcontinues : continuesRun here last
    · rw [if_pos hcontinues]
      exact .inr ⟨last, earlier, rfl, hcontinues, rfl⟩
    · rw [if_neg hcontinues]
      exact .inl rfl

/-- A line comment goes on with a run of comments that ends where the comment in front of it ends. -/
theorem of_continuesRun {here : Cursor} {last : Outline String} (h : continuesRun here last) :
    last.entry.kind = .commentRun ∧
      ∃ previous, commentBefore? here = some previous ∧ (previous.stop : Int) = last.entry.stop := by
  rw [continuesRun, Bool.and_eq_true, beq_iff_eq, Option.any_eq_true] at h
  obtain ⟨hkind, previous, hprevious, hstop⟩ := h
  rw [Bool.and_eq_true, beq_iff_eq, beq_iff_eq] at hstop
  exact ⟨hkind, previous, hprevious, hstop.2⟩

/-- `P` holds of each entry as it comes about at a place of which `Q` is known, and `Q` is handed on to what is looked
at beneath the place. -/
structure Establishes (scope : Scope) (Q : Visit → Prop) (P : Entry String → Prop) : Prop where
  beneath : ∀ {visit}, Q visit → ∀ part ∈ visit.beneath, Q part
  parts : ∀ {visit}, Q visit → ∀ part ∈ visit.parts scope, Q part
  body : ∀ {visit body}, Q visit → visit.here.kind = .closure →
    Visit.body? visit.here.children = some body → Q ⟨.reference, body⟩
  entry : ∀ {visit symbol}, Q visit → classify visit.here scope visit.naming = .ok (some symbol) → P symbol
  function : ∀ {visit name}, Q visit → scope = .symbol → visit.here.kind = .closure →
    functionName? visit.here = some name → P (entryAt visit.here name (.named .function))
  comment : ∀ {visit}, Q visit → visit.here.kind = .lineComment → P (commentEntry visit.here.offset visit.here)
  /-- A run of comments that is widened keeps its start. -/
  run : ∀ {visit last}, Q visit → visit.here.kind = .lineComment → continuesRun visit.here last → P last.entry →
    P (commentEntry last.entry.start visit.here)

variable {P : Entry String → Prop} {Q : Visit → Prop} {scope : Scope}

theorem forall_entries_push {frames : List Frame} {entry : Entry String} (hentry : P entry)
    (h : ∀ row ∈ (reading frames).rows, P row.entry) :
    ∀ row ∈ (reading (⟨entry, []⟩ :: frames)).rows, P row.entry := by
  cases frames with
  | nil => exact h
  | cons below rest =>
    rw [reading_push entry (List.cons_ne_nil below rest)]
    intro row hrow
    rcases List.mem_append.1 hrow with hrow | hrow
    · exact h row hrow
    · rw [List.mem_singleton.1 hrow]
      exact hentry

theorem forall_entries_adopt (top : Frame) {below : List Frame} {entry : Entry String} (hentry : P entry)
    (h : ∀ row ∈ (reading (top :: below)).rows, P row.entry) :
    ∀ row ∈ (reading (top.adopt (mk entry []) :: below)).rows, P row.entry := by
  rw [reading_adopt, Reading.rows_add_leaf]
  intro row hrow
  rcases List.mem_append.1 hrow with hrow | hrow
  · exact h row hrow
  · rw [List.mem_singleton.1 hrow]
    exact hentry

theorem forall_entries_of_adopt (top : Frame) {below : List Frame} {outline : Outline String}
    (h : ∀ row ∈ (reading (top.adopt outline :: below)).rows, P row.entry) :
    P outline.entry ∧ ∀ row ∈ (reading (top :: below)).rows, P row.entry := by
  rw [reading_adopt] at h
  refine ⟨?_, fun row hrow => h row (List.mem_append_left _ hrow)⟩
  cases outline with
  | mk entry children =>
    rw [Reading.rows_add_mk] at h
    exact h _ (List.mem_append_left _ (List.mem_append_right _ (List.mem_singleton_self _)))

/-- **What holds of each entry as it comes about holds of all entries that a walk adds.** -/
theorem Walked.forall_entries (hP : Establishes scope Q P) {visits : List Visit} {frames after : List Frame}
    (h : Walked scope visits frames after) (hvisits : ∀ visit ∈ visits, Q visit)
    (hframes : ∀ row ∈ (reading frames).rows, P row.entry) : ∀ row ∈ (reading after).rows, P row.entry := by
  induction h with
  | done => exact hframes
  | entry hclass hinner hrest ihinner ihrest =>
    obtain ⟨hfirst, hrestvisits⟩ := List.forall_mem_cons.1 hvisits
    apply ihrest hrestvisits
    rw [rows_reading_closeDown]
    apply ihinner (hP.beneath hfirst)
    apply forall_entries_push (hP.entry hfirst hclass)
    rwa [rows_reading_settle]
  | @comment visit rest top below after hclass hkind hrest ihrest =>
    obtain ⟨hfirst, hrestvisits⟩ := List.forall_mem_cons.1 hvisits
    apply ihrest hrestvisits
    rcases addComment_cases visit.here top.finished with heq | ⟨last, earlier, hfinished, hrun, heq⟩
    · rw [heq]
      exact forall_entries_adopt top (hP.comment hfirst hkind) hframes
    · rw [heq]
      obtain ⟨entry, finished⟩ := top
      cases hfinished
      obtain ⟨hlastentry, hearlier⟩ := forall_entries_of_adopt ⟨entry, earlier⟩ hframes
      exact forall_entries_adopt ⟨entry, earlier⟩ (hP.run hfirst hkind hrun hlastentry) hearlier
  | function hscope hkind hname hbody hinner hrest ihinner ihrest =>
    obtain ⟨hfirst, hrestvisits⟩ := List.forall_mem_cons.1 hvisits
    apply ihrest hrestvisits
    rw [rows_reading_closeDown]
    apply ihinner (List.forall_mem_singleton.2 (hP.body hfirst hkind hbody))
    exact forall_entries_push (hP.function hfirst hscope hkind hname) hframes
  | parts hclass hkind hbody hparts hrest ihparts ihrest =>
    obtain ⟨hfirst, hrestvisits⟩ := List.forall_mem_cons.1 hvisits
    exact ihrest hrestvisits (ihparts (hP.parts hfirst) hframes)

/-- The rows of an outline are those of the frames at the end of the walk. -/
theorem rows_of_closeDown {frames : List Frame} {bottom : Frame} (h : closeDown 1 frames = [bottom]) :
    forestRows bottom.finished.reverse = (reading frames).rows := by
  rw [← reading_singleton, ← h, rows_reading_closeDown]

theorem forall_entries_of_run {builder : Builder} {root : Cursor} {forest : Forest}
    (hP : Establishes builder.scope Q P) (hroot : Q ⟨.reference, root⟩)
    (h : (Builder.run root builder).1 = .ok forest) : ∀ entry ∈ (flattenAll 0 forest).map Prod.fst, P entry := by
  obtain ⟨frames, bottom, hwalked, hclosed, rfl⟩ := walked_of_run h
  intro entry hentry
  rw [← entries_rowsAll 0 0 none none] at hentry
  obtain ⟨row, hrow, rfl⟩ := List.mem_map.1 hentry
  have hrow' : row ∈ (reading frames).rows := by
    rw [← rows_of_closeDown hclosed]
    exact hrow
  exact hwalked.forall_entries hP (List.forall_mem_singleton.2 hroot) (fun row hmem => nomatch hmem) row hrow'

end DocOutline.Outline

namespace DocOutline

/-! ## What a walk adds

The frames decide where an entry is nested, but not which entries there are: those follow from the visits (`Adds`). The
only entries that change later are runs of comments, and of those only the end moves. But for these ends, the entries
of an outline, in pre-order, are those that the visit of the root adds (`adds_of_run`). So each of them comes from a
place that is reached (`exists_reached_of_run`).
-/

namespace Symbol.Entry

/-- What of an entry no longer changes once the entry has been added: everything, except for the end of a run of
comments. -/
def lasting (entry : Entry String) : Entry String :=
  match entry.kind with
  | .commentRun => ⟨"", .commentRun, entry.start, entry.start⟩
  | _ => entry

variable {entry : Entry String}

theorem lasting_of_ne (h : entry.kind ≠ .commentRun) : entry.lasting = entry := by
  unfold lasting
  split
  · next hkind => exact absurd hkind h
  · rfl

theorem lasting_of_eq (h : entry.kind = .commentRun) : entry.lasting = ⟨"", .commentRun, entry.start, entry.start⟩ := by
  rw [lasting, h]

@[simp] theorem kind_lasting (entry : Entry String) : entry.lasting.kind = entry.kind := by
  by_cases h : entry.kind = .commentRun
  · rw [lasting_of_eq h, h]
  · rw [lasting_of_ne h]

@[simp] theorem start_lasting (entry : Entry String) : entry.lasting.start = entry.start := by
  by_cases h : entry.kind = .commentRun
  · rw [lasting_of_eq h]
  · rw [lasting_of_ne h]

theorem eq_of_lasting_eq {other : Entry String} (h : entry.lasting = other.lasting)
    (hkind : other.kind ≠ .commentRun) : entry = other := by
  have hkinds : entry.kind = other.kind := by
    rw [← kind_lasting entry, h, kind_lasting]
  rwa [lasting_of_ne hkind, lasting_of_ne (by rwa [hkinds])] at h

end Symbol.Entry

namespace Outline

open DocOutline.Symbol (Entry Scope classify entryAt)
open DocOutline.Syntax (Cursor)

/-- Checking the places of the visits one after another adds these entries. A line comment adds a run, or goes on with
one. -/
inductive Adds (scope : Scope) : List Visit → List (Entry String) → Prop
  | done : Adds scope [] []
  | entry {visit rest symbol inner later} (hclass : classify visit.here scope visit.naming = .ok (some symbol))
      (hinner : Adds scope visit.beneath inner) (hrest : Adds scope rest later) :
      Adds scope (visit :: rest) (symbol :: (inner ++ later))
  | comment {visit rest later} (hclass : classify visit.here scope visit.naming = .ok none)
      (hkind : visit.here.kind = .lineComment) (hrest : Adds scope rest later) :
      Adds scope (visit :: rest) (commentEntry visit.here.offset visit.here :: later)
  | run {visit rest later} (hclass : classify visit.here scope visit.naming = .ok none)
      (hkind : visit.here.kind = .lineComment) (hrest : Adds scope rest later) : Adds scope (visit :: rest) later
  | function {visit rest name body inner later} (hscope : scope = .symbol) (hkind : visit.here.kind = .closure)
      (hname : functionName? visit.here = some name) (hbody : Visit.body? visit.here.children = some body)
      (hinner : Adds scope [⟨.reference, body⟩] inner) (hrest : Adds scope rest later) :
      Adds scope (visit :: rest) (entryAt visit.here name (.named .function) :: (inner ++ later))
  | parts {visit rest inner later} (hclass : classify visit.here scope visit.naming = .ok none)
      (hkind : visit.here.kind ≠ .lineComment)
      (hbody : scope = .symbol → visit.here.kind = .closure → Visit.body? visit.here.children = none)
      (hinner : Adds scope (visit.parts scope) inner) (hrest : Adds scope rest later) :
      Adds scope (visit :: rest) (inner ++ later)

/-! ### Where entries come from -/

/-- The ways in which a visit itself adds an entry. -/
inductive Visit.Yields (scope : Scope) (visit : Visit) : Entry String → Prop
  | entry {symbol} (hclass : classify visit.here scope visit.naming = .ok (some symbol)) : Yields scope visit symbol
  | comment (hkind : visit.here.kind = .lineComment) : Yields scope visit (commentEntry visit.here.offset visit.here)
  | function {name} (hscope : scope = .symbol) (hkind : visit.here.kind = .closure)
      (hname : functionName? visit.here = some name) : Yields scope visit (entryAt visit.here name (.named .function))

/-- Each entry that is added comes from a visit that is reached. -/
theorem Adds.exists_reached {scope : Scope} {start : Visit} {visits : List Visit} {added : List (Entry String)}
    (h : Adds scope visits added) (hvisits : ∀ visit ∈ visits, Reached scope start visit) :
    ∀ entry ∈ added, ∃ visit, Reached scope start visit ∧ visit.Yields scope entry := by
  induction h with
  | done => exact fun _ hentry => nomatch hentry
  | @entry visit rest symbol inner later hclass hinner hrest ihinner ihrest =>
    obtain ⟨hfirst, hrestvisits⟩ := List.forall_mem_cons.1 hvisits
    refine List.forall_mem_cons.2 ⟨⟨visit, hfirst, .entry hclass⟩, List.forall_mem_append.2 ⟨?_, ihrest hrestvisits⟩⟩
    exact ihinner fun part hpart => hfirst.beneath hclass hpart
  | @comment visit rest later hclass hkind hrest ihrest =>
    obtain ⟨hfirst, hrestvisits⟩ := List.forall_mem_cons.1 hvisits
    exact List.forall_mem_cons.2 ⟨⟨visit, hfirst, .comment hkind⟩, ihrest hrestvisits⟩
  | run hclass hkind hrest ihrest => exact ihrest (List.forall_mem_cons.1 hvisits).2
  | @function visit rest name body inner later hscope hkind hname hbody hinner hrest ihinner ihrest =>
    obtain ⟨hfirst, hrestvisits⟩ := List.forall_mem_cons.1 hvisits
    refine List.forall_mem_cons.2
      ⟨⟨visit, hfirst, .function hscope hkind hname⟩, List.forall_mem_append.2 ⟨?_, ihrest hrestvisits⟩⟩
    exact ihinner (List.forall_mem_singleton.2 (hfirst.body hscope hkind hbody))
  | parts hclass hkind hbody hinner hrest ihinner ihrest =>
    obtain ⟨hfirst, hrestvisits⟩ := List.forall_mem_cons.1 hvisits
    refine List.forall_mem_append.2 ⟨?_, ihrest hrestvisits⟩
    exact ihinner fun part hpart => hfirst.parts hclass hbody hpart

/-! ### Runs of comments have nothing nested in them -/

/-- Whether a frame is open, no run of comments is, and those that are finished have nothing nested in them. -/
structure Tidy (frames : List Frame) : Prop where
  ne_nil : frames ≠ []
  open_kind : ∀ frame ∈ frames, frame.entry.kind ≠ .commentRun
  runs : ∀ frame ∈ frames, ∀ outline ∈ frame.finished, outline.entry.kind = .commentRun → outline.children = []

namespace Tidy

variable {frames rest : List Frame} {top below : Frame} {entry : Entry String}

theorem sentinel : Tidy [Frame.sentinel] := by
  refine ⟨List.cons_ne_nil _ _, fun frame hframe => ?_, fun frame hframe => ?_⟩
  · rw [List.mem_singleton.1 hframe]
    nofun
  · rw [List.mem_singleton.1 hframe]
    nofun

theorem push (h : Tidy frames) (hentry : entry.kind ≠ .commentRun) : Tidy (⟨entry, []⟩ :: frames) :=
  ⟨List.cons_ne_nil _ _, List.forall_mem_cons.2 ⟨hentry, h.open_kind⟩, List.forall_mem_cons.2 ⟨nofun, h.runs⟩⟩

theorem adopt {outline : Outline String} (h : Tidy (top :: rest))
    (houtline : outline.entry.kind = .commentRun → outline.children = []) : Tidy (top.adopt outline :: rest) := by
  obtain ⟨htop, hrest⟩ := List.forall_mem_cons.1 h.open_kind
  obtain ⟨hruns, hrestruns⟩ := List.forall_mem_cons.1 h.runs
  exact ⟨List.cons_ne_nil _ _, List.forall_mem_cons.2 ⟨htop, hrest⟩,
    List.forall_mem_cons.2 ⟨List.forall_mem_cons.2 ⟨houtline, hruns⟩, hrestruns⟩⟩

theorem tail (h : Tidy (top :: below :: rest)) : Tidy (below :: rest) :=
  ⟨List.cons_ne_nil _ _, (List.forall_mem_cons.1 h.open_kind).2, (List.forall_mem_cons.1 h.runs).2⟩

theorem drop_finished {outline : Outline String} {finished : List (Outline String)}
    (h : Tidy (⟨entry, outline :: finished⟩ :: rest)) : Tidy (⟨entry, finished⟩ :: rest) := by
  obtain ⟨htop, hrest⟩ := List.forall_mem_cons.1 h.open_kind
  obtain ⟨hruns, hrestruns⟩ := List.forall_mem_cons.1 h.runs
  exact ⟨List.cons_ne_nil _ _, List.forall_mem_cons.2 ⟨htop, hrest⟩,
    List.forall_mem_cons.2 ⟨(List.forall_mem_cons.1 hruns).2, hrestruns⟩⟩

theorem closeTops (n : Nat) (h : Tidy frames) : Tidy (closeTops n frames) := by
  induction n generalizing frames with
  | zero => rwa [closeTops_zero]
  | succ n ih =>
    match frames, h with
    | [], h => exact h
    | [_], h => exact h
    | top :: below :: rest, h =>
      rw [closeTops_cons_cons]
      exact ih (h.tail.adopt fun hrun => absurd hrun (h.open_kind top (List.mem_cons_self ..)))

theorem closeDown (height : Nat) (h : Tidy frames) : Tidy (closeDown height frames) := h.closeTops _

theorem settle (kind : Symbol.Kind) (h : Tidy frames) : Tidy (settle kind frames) := by
  unfold Outline.settle
  split
  · exact h.closeTops _
  · exact h

end Tidy

/-! ### Rows that last -/

/-- What of a row no longer changes. -/
def Row.lasting (row : Row) : Row := { row with entry := row.entry.lasting }

def lastingRows (frames : List Frame) : List Row := (reading frames).rows.map Row.lasting

theorem lastingRows_adopt_leaf (top : Frame) (below : List Frame) (entry : Entry String) :
    lastingRows (top.adopt (.mk entry []) :: below) = lastingRows (top :: below) ++
      [⟨entry.lasting, (reading (top :: below)).parent?, (reading (top :: below)).block?⟩] := by
  rw [lastingRows, reading_adopt, Reading.rows_add_leaf, List.map_append]
  rfl

theorem lastingRows_closeDown (height : Nat) (frames : List Frame) :
    lastingRows (closeDown height frames) = lastingRows frames := by
  rw [lastingRows, rows_reading_closeDown, lastingRows]

/-- Whether other frames are read as some frames are, with the given entries behind. -/
def Grows (frames : List Frame) (added : List (Entry String)) (after : List Frame) : Prop :=
  ∃ rows, lastingRows after = lastingRows frames ++ rows ∧ rows.map Row.entry = added.map Entry.lasting

namespace Grows

variable {frames middle after below : List Frame} {added later : List (Entry String)}

theorem of_rows_eq (h : (reading after).rows = (reading frames).rows) : Grows frames [] after :=
  ⟨[], by rw [lastingRows, h, lastingRows, List.append_nil], rfl⟩

theorem refl (frames : List Frame) : Grows frames [] frames := of_rows_eq rfl

theorem trans (h : Grows frames added middle) (h' : Grows middle later after) :
    Grows frames (added ++ later) after := by
  obtain ⟨rows, hrows, hentries⟩ := h
  obtain ⟨rows', hrows', hentries'⟩ := h'
  refine ⟨rows ++ rows', ?_, ?_⟩
  · rw [hrows', hrows, List.append_assoc]
  · rw [List.map_append, List.map_append, hentries, hentries']

theorem push (entry : Entry String) (h : frames ≠ []) : Grows frames [entry] (⟨entry, []⟩ :: frames) := by
  refine ⟨[⟨entry.lasting, (reading frames).parent?, (reading frames).block?⟩], ?_, rfl⟩
  rw [lastingRows, reading_push entry h, Reading.enter, List.map_append]
  rfl

theorem adopt_leaf (top : Frame) (below : List Frame) (entry : Entry String) :
    Grows (top :: below) [entry] (top.adopt (.mk entry []) :: below) :=
  ⟨_, lastingRows_adopt_leaf top below entry, rfl⟩

theorem isPrefix (h : Grows frames added after) : lastingRows frames <+: lastingRows after := by
  obtain ⟨rows, hrows, -⟩ := h
  exact ⟨rows, hrows.symm⟩

end Grows

/-- A line comment starts a run of its own, or takes the place of a run that has nothing nested in it. -/
theorem Tidy.addComment_cases {top : Frame} {below : List Frame} (h : Tidy (top :: below)) (here : Cursor) :
    addComment here top.finished = .mk (commentEntry here.offset here) [] :: top.finished ∨
      ∃ last earlier, top.finished = .mk last [] :: earlier ∧ last.kind = .commentRun ∧
        addComment here top.finished = .mk (commentEntry last.start here) [] :: earlier := by
  rcases Outline.addComment_cases here top.finished with heq | ⟨⟨last, children⟩, earlier, hfinished, hrun, heq⟩
  · exact .inl heq
  · have hruns := (List.forall_mem_cons.1 h.runs).1
    have hlast := (of_continuesRun hrun).1
    rw [hfinished] at hruns
    obtain rfl : children = [] := hruns _ (List.mem_cons_self ..) hlast
    exact .inr ⟨last, earlier, hfinished, hlast, heq⟩

/-- A comment adds a run, or nothing that lasts. -/
theorem grows_addComment {top : Frame} {below : List Frame} (here : Cursor) (h : Tidy (top :: below)) :
    Tidy (⟨top.entry, addComment here top.finished⟩ :: below) ∧
      (Grows (top :: below) [commentEntry here.offset here] (⟨top.entry, addComment here top.finished⟩ :: below) ∨
        Grows (top :: below) [] (⟨top.entry, addComment here top.finished⟩ :: below)) := by
  rcases h.addComment_cases here with heq | ⟨last, earlier, hfinished, hlast, heq⟩
  · rw [heq]
    exact ⟨h.adopt fun _ => rfl, .inl (.adopt_leaf top below _)⟩
  · rw [heq]
    obtain ⟨entry, finished⟩ := top
    cases hfinished
    refine ⟨h.drop_finished.adopt fun _ => rfl, .inr ⟨[], ?_, rfl⟩⟩
    have hrows := lastingRows_adopt_leaf ⟨entry, earlier⟩ below (commentEntry last.start here)
    rw [show (commentEntry last.start here).lasting = last.lasting from (Entry.lasting_of_eq hlast).symm,
      ← lastingRows_adopt_leaf] at hrows
    rw [List.append_nil]
    exact hrows

/-! ### Additions and the frames -/

/-- **What a walk adds is read behind what was there.** -/
theorem Walked.adds {scope : Scope} {visits : List Visit} {frames after : List Frame}
    (h : Walked scope visits frames after) (htidy : Tidy frames) :
    Tidy after ∧ ∃ added, Adds scope visits added ∧ Grows frames added after := by
  induction h with
  | done => exact ⟨htidy, [], .done, .refl _⟩
  | @entry visit rest symbol frames inner after hclass hinner hrest ihinner ihrest =>
    have hsettled := htidy.settle symbol.kind
    have hkind : symbol.kind ≠ .commentRun := by
      cases Symbol.opens_of_classify hclass <;> nofun
    obtain ⟨htidyinner, added, hadds, hgrows⟩ := ihinner (hsettled.push hkind)
    obtain ⟨htidyafter, later, hlater, hgrowslater⟩ := ihrest (htidyinner.closeDown _)
    refine ⟨htidyafter, _, .entry hclass hadds hlater, ?_⟩
    have hopened : Grows frames [symbol] (⟨symbol, []⟩ :: settle symbol.kind frames) :=
      (Grows.of_rows_eq (rows_reading_settle _ _)).trans (.push symbol hsettled.ne_nil)
    have hclosed : Grows inner later after := (Grows.of_rows_eq (rows_reading_closeDown _ _)).trans hgrowslater
    exact hopened.trans (hgrows.trans hclosed)
  | @comment visit rest top below after hclass hkind hrest ihrest =>
    obtain ⟨htidynext, hnext⟩ := grows_addComment visit.here htidy
    obtain ⟨htidyafter, later, hlater, hgrowslater⟩ := ihrest htidynext
    rcases hnext with hnext | hnext
    · exact ⟨htidyafter, _, .comment hclass hkind hlater, hnext.trans hgrowslater⟩
    · exact ⟨htidyafter, _, .run hclass hkind hlater, hnext.trans hgrowslater⟩
  | @function visit rest name body frames inner after hscope hkind hname hbody hinner hrest ihinner ihrest =>
    obtain ⟨htidyinner, added, hadds, hgrows⟩ := ihinner (htidy.push nofun)
    obtain ⟨htidyafter, later, hlater, hgrowslater⟩ := ihrest (htidyinner.closeDown _)
    refine ⟨htidyafter, _, .function hscope hkind hname hbody hadds hlater, ?_⟩
    have hclosed : Grows inner later after := (Grows.of_rows_eq (rows_reading_closeDown _ _)).trans hgrowslater
    exact (Grows.push _ htidy.ne_nil).trans (hgrows.trans hclosed)
  | parts hclass hkind hbody hparts hrest ihparts ihrest =>
    obtain ⟨htidymiddle, added, hadds, hgrows⟩ := ihparts htidy
    obtain ⟨htidyafter, later, hlater, hgrowslater⟩ := ihrest htidymiddle
    exact ⟨htidyafter, _, .parts hclass hkind hbody hadds hlater, hgrows.trans hgrowslater⟩

theorem Walked.isPrefix {scope : Scope} {visits : List Visit} {frames after : List Frame}
    (h : Walked scope visits frames after) (htidy : Tidy frames) : lastingRows frames <+: lastingRows after := by
  obtain ⟨-, added, -, hgrows⟩ := h.adds htidy
  exact hgrows.isPrefix

/-- The entries of an outline, in pre-order, are those that the visit of the root adds, but for the ends of runs of
comments. -/
theorem adds_of_run {builder : Builder} {root : Cursor} {forest : Forest}
    (h : (Builder.run root builder).1 = .ok forest) :
    ∃ added, Adds builder.scope [⟨.reference, root⟩] added ∧
      ((flattenAll 0 forest).map Prod.fst).map Entry.lasting = added.map Entry.lasting := by
  obtain ⟨frames, bottom, hwalked, hclosed, rfl⟩ := walked_of_run h
  obtain ⟨-, added, hadds, rows, hrows, hentries⟩ := hwalked.adds Tidy.sentinel
  have hlasting : (forestRows bottom.finished.reverse).map Row.lasting = rows := by
    rw [rows_of_closeDown hclosed]
    exact hrows
  refine ⟨added, hadds, ?_⟩
  rw [← hentries, ← hlasting, ← entries_rowsAll 0 0 none none, List.map_map, List.map_map]
  rfl

/-- Each entry of an outline comes from a visit that is reached, but for the end of a run of comments. -/
theorem exists_reached_of_run {builder : Builder} {root : Cursor} {forest : Forest}
    (h : (Builder.run root builder).1 = .ok forest) :
    ∀ entry ∈ (flattenAll 0 forest).map Prod.fst, ∃ visit added,
      Reached builder.scope ⟨.reference, root⟩ visit ∧ visit.Yields builder.scope added ∧
        entry.lasting = added.lasting := by
  intro entry hentry
  obtain ⟨added, hadds, hentries⟩ := adds_of_run h
  have hlasting := List.mem_map_of_mem (f := Entry.lasting) hentry
  rw [hentries] at hlasting
  obtain ⟨symbol, hsymbol, heq⟩ := List.mem_map.1 hlasting
  obtain ⟨visit, hreached, hyields⟩ := hadds.exists_reached (List.forall_mem_singleton.2 .start) symbol hsymbol
  exact ⟨visit, symbol, hreached, hyields, heq.symm⟩

end Outline

end DocOutline
