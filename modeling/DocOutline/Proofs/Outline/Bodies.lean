import DocOutline.Proofs.Outline.Rows
import DocOutline.Proofs.Walk.Isolation
import DocOutline.Proofs.Walk.OpenEntries

/-!
# Bodies of functions

What is nested in a heading that is written inside a closure ends inside the closure: the body of a function captures
nothing that follows it (`stop_le_of_around_body`). Behind the body, a walk closes frames down to the height at which it
found them. That is the right height as long as the headings of the body end in front of the frame below the function
(`HeldAround`). A heading that closes that frame as well stays open behind the body.
-/

namespace DocOutline.Outline

open DocOutline.Symbol (Entry Scope classify entryAt)
open DocOutline.Syntax (Cursor Node)

/-! ## What is nested in headings of a place -/

/-- Whether an entry is a heading that starts inside a place. The entry of a heading starts behind the marker, so inside
of whatever the heading is written in. -/
def StartsIn (place : Cursor) (entry : Entry String) : Prop :=
  entry.kind.isHeading ∧ (place.offset : Int) < entry.start ∧ entry.start < (place.stop : Int)

instance (place : Cursor) (entry : Entry String) : Decidable (StartsIn place entry) :=
  inferInstanceAs (Decidable (_ ∧ _))

/-- Whether an entry ends inside a place, if there is a heading that starts there around it. -/
def Row.Confined (place : Cursor) (earlier : List Row) (row : Row) : Prop :=
  ∀ outer, Around earlier row outer → StartsIn place outer.entry → row.entry.stop ≤ (place.stop : Int)

/-- Whether everything that is nested in headings of a place ends inside the place. -/
def Confined (place : Cursor) (rows : List Row) : Prop :=
  ∀ (position : Nat) (row : Row), rows[position]? = some row → row.Confined place (rows.take position)

/-- Whether, wherever a closure is entered as a function, all headings of the closure end in front of the entry around
the function, if there is one. -/
def HeldAround (closure : Cursor) (rows : List Row) : Prop :=
  ∀ row ∈ rows, row.entry.kind = .named .function ∧ row.entry.start = closure.offset ∧ row.entry.stop = closure.stop →
    ∀ outer ∈ row.outer? rows, HoldsHeadings outer.entry closure

instance (closure : Cursor) (rows : List Row) : Decidable (HeldAround closure rows) :=
  inferInstanceAs (Decidable (∀ row ∈ rows, _ → ∀ outer ∈ row.outer? rows, _))

variable {closure place : Cursor} {frames below : List Frame} {top : Frame} {rows : List Row} {entry : Entry String}

theorem confined_nil (place : Cursor) : Confined place [] := fun _ _ h => nomatch h

theorem confined_concat {row : Row} :
    Confined place (rows ++ [row]) ↔ Confined place rows ∧ row.Confined place rows :=
  forall_rows_concat (P := fun earlier row => row.Confined place earlier)

def OpenIn (place : Cursor) (frames : List Frame) : Prop := ∃ entry ∈ openEntries frames, StartsIn place entry

theorem OpenIn.of_subset {frames' : List Frame} (h : OpenIn place frames)
    (hsubset : openEntries frames ⊆ openEntries frames') : OpenIn place frames' := by
  obtain ⟨entry, hentry, hstarts⟩ := h
  exact ⟨entry, hsubset hentry, hstarts⟩

theorem OpenIn.of_push (h : OpenIn place (⟨entry, []⟩ :: frames)) (hne : frames ≠ []) :
    StartsIn place entry ∨ OpenIn place frames := by
  obtain ⟨inner, hinner, hstarts⟩ := h
  rw [openEntries_push entry hne] at hinner
  rcases List.mem_cons.1 hinner with rfl | hinner
  · exact .inl hstarts
  · exact .inr ⟨inner, hinner, hstarts⟩

theorem confined_reading (h : OpenIn place frames → entry.stop ≤ (place.stop : Int)) (block? : Option Nat) :
    Row.Confined place (reading frames).rows ⟨entry, (reading frames).parent?, block?⟩ :=
  fun outer haround hstarts => h ⟨outer.entry, around_reading (List.prefix_refl _) rfl haround, hstarts⟩

theorem confined_push (hconfined : Confined place (reading frames).rows) (hne : frames ≠ [])
    (h : OpenIn place frames → entry.stop ≤ (place.stop : Int)) :
    Confined place (reading (⟨entry, []⟩ :: frames)).rows := by
  rw [reading_push entry hne, Reading.enter]
  exact confined_concat.2 ⟨hconfined, confined_reading h _⟩

theorem confined_adopt_leaf (top : Frame) (below : List Frame) (entry : Entry String) :
    Confined place (reading (top.adopt (.mk entry []) :: below)).rows ↔
      Confined place (reading (top :: below)).rows ∧
        Row.Confined place (reading (top :: below)).rows
          ⟨entry, (reading (top :: below)).parent?, (reading (top :: below)).block?⟩ := by
  rw [reading_adopt, Reading.rows_add_leaf]
  exact confined_concat

/-- A comment that is confined leaves everything confined. -/
theorem confined_addComment {here : Cursor} (htidy : Tidy (top :: below))
    (hconfined : Confined place (reading (top :: below)).rows)
    (h : OpenIn place (top :: below) → here.stop ≤ place.stop) :
    Confined place (reading (⟨top.entry, addComment here top.finished⟩ :: below)).rows := by
  have hstop : ∀ finished, OpenIn place (⟨top.entry, finished⟩ :: below) → (here.stop : Int) ≤ (place.stop : Int) := by
    intro finished hopen
    have hopen' := hopen.of_subset fun _ hentry => openEntries_change top.entry finished top.finished below ▸ hentry
    exact Int.ofNat_le.2 (h hopen')
  rcases htidy.addComment_cases here with heq | ⟨last, earlier, hfinished, -, heq⟩
  · rw [heq]
    exact (confined_adopt_leaf top below _).2 ⟨hconfined, confined_reading (hstop _) _⟩
  · rw [heq]
    obtain ⟨entry, finished⟩ := top
    cases hfinished
    obtain ⟨hearlier, -⟩ := (confined_adopt_leaf ⟨entry, earlier⟩ below last).1 hconfined
    exact (confined_adopt_leaf ⟨entry, earlier⟩ below _).2 ⟨hearlier, confined_reading (hstop _) _⟩

/-- Where a closure is entered, the headings in it end in front of the entry that is open around it. -/
theorem holdsHeadings_of_heldAround {name : String} {below : List Frame} (hheld : HeldAround closure rows)
    (htidy : Tidy (top :: below)) (hbelow : below ≠ [])
    (hrows : lastingRows (⟨entryAt closure name (.named .function), []⟩ :: top :: below) <+: rows.map Row.lasting) :
    HoldsHeadings top.entry closure := by
  obtain ⟨next, rest, rfl⟩ := List.exists_cons_of_ne_nil hbelow
  have hfunction := getElem?_rows_open ⟨entryAt closure name (.named .function), []⟩ top (next :: rest)
  have htop := getElem?_of_isPrefix
    (rows_isPrefix_cons ⟨entryAt closure name (.named .function), []⟩ top (next :: rest))
    (getElem?_rows_open top next rest)
  obtain ⟨row, hrow, hentry, hparent⟩ := exists_row_of_isPrefix hrows hfunction nofun
  obtain ⟨outer, houter, hopen, -⟩ := exists_row_of_isPrefix hrows htop (htidy.open_kind top (List.mem_cons_self ..))
  have hholds := hheld row (List.mem_of_getElem? hrow) (by rw [hentry]; exact ⟨rfl, rfl, rfl⟩) outer
    (Row.outer?_eq_some.2 ⟨_, hparent, houter⟩)
  rwa [hopen] at hholds

/-! ## Visits -/

def Enters (place : Cursor) (visit : Visit) : Prop := visit.here ∈ place.places ∧ visit.here ≠ place

def Siblings (visits : List Visit) : Prop :=
  ∀ visit ∈ visits, ∀ other ∈ visits, ∀ parent : Cursor, visit.here ∈ parent.children → other.here ∈ parent.children

theorem siblings_of_children {here : Cursor} {visits : List Visit} (h : ∀ visit ∈ visits, visit.here ∈ here.children) :
    Siblings visits := by
  intro visit hvisit other hother parent hparent
  have hhere := Cursor.parent?_of_mem_children (h visit hvisit)
  rw [Cursor.parent?_of_mem_children hparent] at hhere
  cases hhere
  exact h other hother

theorem siblings_singleton (visit : Visit) : Siblings [visit] := by
  intro visit' hvisit' other hother parent hparent
  rwa [List.mem_singleton.1 hother, ← List.mem_singleton.1 hvisit']

theorem Siblings.rest {visit : Visit} {rest : List Visit} (h : Siblings (visit :: rest)) : Siblings rest :=
  fun visit' hvisit' other hother => h visit' (List.mem_cons_of_mem _ hvisit') other (List.mem_cons_of_mem _ hother)

/-- The siblings of what is beneath a place end inside the place. -/
theorem Siblings.stop_le {visits : List Visit} {visit other : Visit} (h : Siblings visits) (hvisit : visit ∈ visits)
    (hother : other ∈ visits) (henters : Enters place visit) : other.here.stop ≤ place.stop := by
  obtain ⟨hmem, hne⟩ := henters
  obtain ⟨parent, hparent, hchild⟩ := (Cursor.exists_parent_of_mem_places hmem).resolve_left hne
  have hchild' := h visit hvisit other hother parent hchild
  exact (Cursor.range_of_mem_places (Cursor.mem_places_child hparent hchild')).2

/-- What has something beneath a place among its children is at the place or beneath it. -/
theorem Enters.parent {visit part : Visit} (h : Enters place part) (hpart : part.here ∈ visit.here.children) :
    visit.here ∈ place.places := by
  obtain ⟨hmem, hne⟩ := h
  obtain ⟨parent, hparent, hchild⟩ := (Cursor.exists_parent_of_mem_places hmem).resolve_left hne
  have hhere := Cursor.parent?_of_mem_children hpart
  rw [Cursor.parent?_of_mem_children hchild] at hhere
  cases hhere
  exact hparent

/-- A heading that starts inside a place is written beneath it. -/
theorem enters_of_startsIn {root : Cursor} {visit : Visit} {scope : Scope} {symbol : Entry String}
    (hclass : classify visit.here scope visit.naming = .ok (some symbol)) (hvisit : visit.here ∈ root.places)
    (hplace : place ∈ root.places) (hstarts : StartsIn place symbol) : Enters place visit := by
  obtain ⟨-, hoffset, hstop⟩ := hstarts
  have hstart : symbol.start = visit.here.offset := by
    cases Symbol.opens_of_classify hclass <;> rfl
  have hle := visit.here.offset_le_stop
  have hne : visit.here ≠ place := by
    intro heq
    rw [hstart, heq] at hoffset
    exact absurd hoffset (Int.lt_irrefl _)
  rcases Cursor.nested_of_overlap hplace hvisit (by omega) (by omega) with hmem | hmem
  · exact ⟨hmem, hne⟩
  · have hrange := Cursor.range_of_mem_places hmem
    omega

/-! ## The walk -/

/-- Whether everything is confined so far, and as long as a heading of a place is open, only what ends inside the place
is visited. -/
structure Guarded (place : Cursor) (frames : List Frame) (visits : List Visit) : Prop where
  tidy : Tidy frames
  confined : Confined place (reading frames).rows
  enclosed : OpenIn place frames → ∀ visit ∈ visits, visit.here.stop ≤ place.stop

/-- Whether everything is confined behind visits, and they have left headings of a place open only if they are beneath
the place. -/
structure Confines (place : Cursor) (frames : List Frame) (visits : List Visit) (after : List Frame) : Prop where
  confined : Confined place (reading after).rows
  opened : OpenIn place after → OpenIn place frames ∨ ∃ visit ∈ visits, Enters place visit

section

variable {visit : Visit} {rest parts : List Visit} {middle after frames' : List Frame}

/-- One visit after another. -/
theorem Guarded.cons (h : Guarded place frames (visit :: rest)) (hsiblings : Siblings (visit :: rest))
    (hfirst : Confines place frames [visit] middle) (htidy : Tidy middle)
    (hrest : Guarded place middle rest → Confines place middle rest after) :
    Confines place frames (visit :: rest) after := by
  have hopened : OpenIn place middle → OpenIn place frames ∨ Enters place visit := by
    intro hopen
    rcases hfirst.opened hopen with hframes | ⟨visit', hvisit', henters⟩
    · exact .inl hframes
    · exact .inr (List.mem_singleton.1 hvisit' ▸ henters)
  have hguarded : Guarded place middle rest := by
    refine ⟨htidy, hfirst.confined, fun hopen other hother => ?_⟩
    rcases hopened hopen with hframes | henters
    · exact h.enclosed hframes other (List.mem_cons_of_mem _ hother)
    · exact hsiblings.stop_le (List.mem_cons_self ..) (List.mem_cons_of_mem _ hother) henters
  refine ⟨(hrest hguarded).confined, fun hopen => ?_⟩
  rcases (hrest hguarded).opened hopen with hmiddle | ⟨other, hother, henters⟩
  · rcases hopened hmiddle with hframes | henters
    · exact .inl hframes
    · exact .inr ⟨visit, List.mem_cons_self .., henters⟩
  · exact .inr ⟨other, List.mem_cons_of_mem _ hother, henters⟩

/-- Opening the entry of a visit, where nothing or only some headings have been closed. -/
theorem Guarded.push (h : Guarded place frames (visit :: rest)) (htidy : Tidy frames')
    (hrows : (reading frames').rows = (reading frames).rows) (hsubset : openEntries frames' ⊆ openEntries frames)
    (hkind : entry.kind ≠ .commentRun) (hstop : entry.stop = visit.here.stop)
    (hstarts : StartsIn place entry → Enters place visit) (hparts : ∀ part ∈ parts, part.here ∈ visit.here.children) :
    Guarded place (⟨entry, []⟩ :: frames') parts := by
  have hvisit : OpenIn place frames' → visit.here.stop ≤ place.stop := fun hopen =>
    h.enclosed (hopen.of_subset hsubset) visit (List.mem_cons_self ..)
  refine ⟨htidy.push hkind, ?_, fun hopen part hpart => ?_⟩
  · refine confined_push (hrows ▸ h.confined) htidy.ne_nil fun hopen => ?_
    rw [hstop]
    exact Int.ofNat_le.2 (hvisit hopen)
  · have hpartstop := (Cursor.range_of_mem_children (hparts part hpart)).2
    rcases hopen.of_push htidy.ne_nil with hheading | hframes
    · exact Nat.le_trans hpartstop (Cursor.range_of_mem_places (hstarts hheading).1).2
    · exact Nat.le_trans hpartstop (hvisit hframes)

/-- What is looked at beneath a visit that is not at the place itself. -/
theorem Confines.of_parts (h : Confines place frames parts after)
    (hparts : ∀ part ∈ parts, part.here ∈ visit.here.children ∧ visit.here ≠ place) :
    Confines place frames [visit] after := by
  refine ⟨h.confined, fun hopen => ?_⟩
  rcases h.opened hopen with hframes | ⟨part, hpart, henters⟩
  · exact .inl hframes
  · obtain ⟨hchild, hne⟩ := hparts part hpart
    exact .inr ⟨visit, List.mem_singleton_self visit, henters.parent hchild, hne⟩

/-- Closing the entry of a visit that is not at the place itself. -/
theorem Confines.close (h : Confines place (⟨entry, []⟩ :: frames') parts after) (hne : frames' ≠ [])
    (hsubset : openEntries frames' ⊆ openEntries frames) (hstarts : StartsIn place entry → Enters place visit)
    (hparts : ∀ part ∈ parts, part.here ∈ visit.here.children) (hhere : visit.here ≠ place) (height : Nat) :
    Confines place frames [visit] (closeDown height after) := by
  constructor
  · rw [rows_reading_closeDown]
    exact h.confined
  · intro hopen
    rcases h.opened (hopen.of_subset (openEntries_closeTops_subset _ _)) with hpushed | ⟨part, hpart, henters⟩
    · rcases hpushed.of_push hne with hheading | hframes
      · exact .inr ⟨visit, List.mem_singleton_self visit, hstarts hheading⟩
      · exact .inl (hframes.of_subset hsubset)
    · exact .inr ⟨visit, List.mem_singleton_self visit, henters.parent (hparts part hpart), hhere⟩

end

/-- **Behind a closure, the frames below its function are open as before.** -/
theorem openEntries_closure {name : String} {body : Cursor} {frames inner : List Frame}
    (hinner : Walked .symbol [⟨.reference, body⟩] (⟨entryAt closure name (.named .function), []⟩ :: frames) inner)
    (hbody : body ∈ closure.children) (htidy : Tidy frames) (hheld : HeldAround closure rows)
    (hrows : lastingRows inner <+: rows.map Row.lasting) :
    openEntries (closeDown frames.length inner) = openEntries frames := by
  match frames, htidy with
  | [], htidy => exact absurd rfl htidy.ne_nil
  | [bottom], htidy =>
    have hlength : (closeDown 1 inner).length = 1 :=
      length_closeDown Nat.one_pos (List.length_pos_iff.2 (hinner.adds (htidy.push nofun)).1.ne_nil)
    obtain ⟨last, hlast⟩ := List.length_eq_one_iff.1 hlength
    rw [List.length_singleton, hlast]
    rfl
  | top :: next :: rest, htidy =>
    have hholds := holdsHeadings_of_heldAround hheld htidy (List.cons_ne_nil next rest)
      ((hinner.isPrefix (htidy.push nofun)).trans hrows)
    have hrests := hinner.rests_of_holds (List.forall_mem_singleton.2 (hholds.child hbody))
      ⟨[⟨entryAt closure name (.named .function), []⟩], top.finished, rfl⟩
    obtain ⟨finished, hclosed⟩ := hrests.closeDown_frame
    rw [List.length_cons, hclosed]
    rfl

/-- **Bodies of functions capture nothing.** Where the headings of a closure end in front of the entry around it,
everything that a walk nests in headings of the closure ends inside the closure. -/
theorem Walked.confines {root : Cursor} {visits : List Visit} {frames after : List Frame}
    (h : Walked .symbol visits frames after) (hclosure : closure ∈ root.places) (hkind : closure.kind = .closure)
    (hheld : HeldAround closure rows) (hrows : lastingRows after <+: rows.map Row.lasting)
    (hvisits : ∀ visit ∈ visits, visit.here ∈ root.places) (hsiblings : Siblings visits)
    (hguarded : Guarded closure frames visits) : Confines closure frames visits after := by
  induction h with
  | done => exact ⟨hguarded.confined, .inl⟩
  | @entry visit rest symbol frames inner after hclass hinner hrest ihinner ihrest =>
    obtain ⟨hfirst, hrestvisits⟩ := List.forall_mem_cons.1 hvisits
    have hsettled := hguarded.tidy.settle symbol.kind
    have hsubset := openEntries_settle_subset symbol.kind frames
    have hsymbol : symbol.kind ≠ .commentRun ∧ symbol.stop = visit.here.stop := by
      cases Symbol.opens_of_classify hclass <;> exact ⟨nofun, rfl⟩
    have hstarts : StartsIn closure symbol → Enters closure visit := enters_of_startsIn hclass hfirst hclosure
    have hhere : visit.here ≠ closure := by
      rintro rfl
      rw [Symbol.classify_closure hkind] at hclass
      cases hclass
    have hparts : ∀ part ∈ visit.beneath, part.here ∈ visit.here.children := fun _ => Visit.mem_of_mem_beneath
    have hinnertidy := (hinner.adds (hsettled.push hsymbol.1)).1
    have hinnerrows := (hrest.isPrefix (hinnertidy.closeDown _)).trans hrows
    rw [lastingRows_closeDown] at hinnerrows
    have hbeneath := ihinner hinnerrows (fun part hpart => Cursor.mem_places_child hfirst (hparts part hpart))
      (siblings_of_children hparts)
      (hguarded.push hsettled (rows_reading_settle _ _) hsubset hsymbol.1 hsymbol.2 hstarts hparts)
    exact hguarded.cons hsiblings (hbeneath.close hsettled.ne_nil hsubset hstarts hparts hhere _)
      (hinnertidy.closeDown _) (ihrest hrows hrestvisits hsiblings.rest)
  | @comment visit rest top below after hclass hcomment hrest ihrest =>
    have htidy := (grows_addComment visit.here hguarded.tidy).1
    have hfirst :
        Confines closure (top :: below) [visit] (⟨top.entry, addComment visit.here top.finished⟩ :: below) := by
      refine ⟨confined_addComment hguarded.tidy hguarded.confined fun hopen =>
        hguarded.enclosed hopen visit (List.mem_cons_self ..), fun hopen => .inl (hopen.of_subset ?_)⟩
      exact fun _ hentry => openEntries_change top.entry _ top.finished below ▸ hentry
    exact hguarded.cons hsiblings hfirst htidy
      (ihrest hrows (List.forall_mem_cons.1 hvisits).2 hsiblings.rest)
  | @function visit rest name body frames inner after hscope hfunction hname hbody hinner hrest ihinner ihrest =>
    obtain ⟨hfirst, hrestvisits⟩ := List.forall_mem_cons.1 hvisits
    have hparts : ∀ part ∈ [Visit.mk .reference body], part.here ∈ visit.here.children :=
      List.forall_mem_singleton.2 (Visit.mem_of_body? hbody)
    have hstarts : StartsIn closure (entryAt visit.here name (.named .function)) → Enters closure visit :=
      fun hheading => nomatch hheading.1
    have hinnertidy := (hinner.adds (hguarded.tidy.push nofun)).1
    have hinnerrows := (hrest.isPrefix (hinnertidy.closeDown _)).trans hrows
    rw [lastingRows_closeDown] at hinnerrows
    have hbody' := ihinner hinnerrows (fun part hpart => Cursor.mem_places_child hfirst (hparts part hpart))
      (siblings_of_children hparts)
      (hguarded.push hguarded.tidy rfl (List.Subset.refl _) nofun rfl hstarts hparts)
    refine hguarded.cons hsiblings ?_ (hinnertidy.closeDown _) (ihrest hrows hrestvisits hsiblings.rest)
    by_cases hhere : visit.here = closure
    · -- The closure itself leaves nothing open.
      subst hhere
      have hopen := openEntries_closure hinner (Visit.mem_of_body? hbody) hguarded.tidy hheld hinnerrows
      refine ⟨?_, fun hafter => .inl (hafter.of_subset (by rw [hopen]; exact List.Subset.refl _))⟩
      rw [rows_reading_closeDown]
      exact hbody'.confined
    · exact hbody'.close hguarded.tidy.ne_nil (List.Subset.refl _) hstarts hparts hhere _
  | @parts visit rest frames middle after hclass hcomment hbody hinner hrest ihparts ihrest =>
    obtain ⟨hfirst, hrestvisits⟩ := List.forall_mem_cons.1 hvisits
    have hparts : ∀ part ∈ visit.parts .symbol, part.here ∈ visit.here.children := fun _ => Visit.mem_of_mem_parts
    have hmiddletidy := (hinner.adds hguarded.tidy).1
    have hmiddlerows := (hrest.isPrefix hmiddletidy).trans hrows
    have hinner' := ihparts hmiddlerows (fun part hpart => Cursor.mem_places_child hfirst (hparts part hpart))
      (siblings_of_children hparts)
      ⟨hguarded.tidy, hguarded.confined, fun hopen part hpart =>
        Nat.le_trans (Cursor.range_of_mem_children (hparts part hpart)).2
          (hguarded.enclosed hopen visit (List.mem_cons_self ..))⟩
    refine hguarded.cons hsiblings (hinner'.of_parts fun part hpart => ⟨hparts part hpart, ?_⟩) hmiddletidy
      (ihrest hrows hrestvisits hsiblings.rest)
    -- A closure without a body has no parts.
    rintro rfl
    rw [Visit.parts_closure_eq_nil hkind (hbody rfl hkind)] at hpart
    cases hpart

/-- **The body of a function captures nothing that follows it.** Where a function is entered at the top, or in a heading
of a smaller level than those in its closure, all that is nested in a heading of the closure ends inside the closure
(`_check_closure`, which is to close every frame down to its own: specification, section 4.2). -/
theorem stop_le_of_around_body {root : Cursor} {builder : Builder} {forest : Forest} {row outer : Row}
    (hscope : builder.scope = .symbol) (hclosure : closure ∈ root.places) (hkind : closure.kind = .closure)
    (hheld : HeldAround closure (forestRows forest)) (h : (Builder.run root builder).1 = .ok forest)
    (hrow : row ∈ forestRows forest) (houter : Around (forestRows forest) row outer)
    (hstarts : StartsIn closure outer.entry) : row.entry.stop ≤ closure.stop := by
  obtain ⟨frames, bottom, hwalked, hclosed, rfl⟩ := walked_of_run h
  rw [hscope] at hwalked
  have hguarded : Guarded closure [Frame.sentinel] [⟨.reference, root⟩] := by
    refine ⟨Tidy.sentinel, confined_nil closure, ?_⟩
    rintro ⟨entry, hentry, -⟩
    cases hentry
  have hrows := rows_of_closeDown hclosed
  have hconfines := hwalked.confines hclosure hkind (hrows ▸ hheld) (List.prefix_refl _)
    (List.forall_mem_singleton.2 (Cursor.mem_places_self root)) (siblings_singleton _) hguarded
  have hconfined : Confined closure (forestRows bottom.finished.reverse) := hrows ▸ hconfines.confined
  obtain ⟨position, hposition⟩ := List.mem_iff_getElem?.1 hrow
  exact hconfined position row hposition outer (houter.take hposition) hstarts

def markedHeading (marker text : String) : Node :=
  .inner .heading [.leaf .headingMarker marker, .leaf .space " ", .inner .markup [.leaf .text text]]

/-- A heading, the definition of a function with another heading and a label in its body, and a label behind it. -/
def definition (marker inner : String) : Node :=
  .inner .markup
    [markedHeading marker "A", .leaf .parbreak "\n\n", .leaf .hash "#",
      .inner .letBinding
        [.leaf .letKeyword "let", .leaf .space " ",
          .inner .closure
            [.leaf .ident "f", .inner .params [.leaf .leftParen "(", .leaf .ident "x", .leaf .rightParen ")"],
              .leaf .space " ", .leaf .eq "=", .leaf .space " ",
              .inner .contentBlock
                [.leaf .leftBracket "[", markedHeading inner "B", .leaf .space " ", .leaf .label "<k>",
                  .leaf .rightBracket "]"]]],
      .leaf .space " ", .leaf .label "<l>"]

/-- The heading in the body is of a greater level than the one around the definition. -/
def definitionOutline : Forest :=
  [mk ⟨"A", .heading 1, 2, 3⟩
    [mk ⟨"f", .named .function, 10, 27⟩ [], mk ⟨"B", .heading 2, 21, 22⟩ [mk ⟨"k", .named .label, 23, 26⟩ []],
      mk ⟨"l", .named .label, 28, 31⟩ []]]

theorem stop_le_of_around_body_definition :
    (Builder.run (Cursor.root (definition "=" "==")) { scope := .symbol }).1 = .ok definitionOutline ∧
      ∃ closure ∈ (Cursor.root (definition "=" "==")).places, closure.kind = .closure ∧
        HeldAround closure (forestRows definitionOutline) ∧
        ∃ row ∈ forestRows definitionOutline, ∃ outer, Around (forestRows definitionOutline) row outer ∧
          StartsIn closure outer.entry ∧ row.entry.stop ≤ closure.stop := by
  have hrun : (Builder.run (Cursor.root (definition "=" "==")) { scope := .symbol }).1 = .ok definitionOutline :=
    eq_ok_of_toOption (by decide +kernel)
  obtain ⟨closure, hclosure, hkind⟩ :
      ∃ closure ∈ (Cursor.root (definition "=" "==")).places, closure.kind = .closure := by decide
  have hclosures : ∀ closure ∈ (Cursor.root (definition "=" "==")).places, closure.kind = .closure →
      HeldAround closure (forestRows definitionOutline) ∧ StartsIn closure ⟨"B", .heading 2, 21, 22⟩ := by decide
  obtain ⟨hheld, hstarts⟩ := hclosures closure hclosure hkind
  have hrow : ⟨⟨"k", .named .label, 23, 26⟩, some 2, none⟩ ∈ forestRows definitionOutline := by decide
  have houter : Around (forestRows definitionOutline) ⟨⟨"k", .named .label, 23, 26⟩, some 2, none⟩
      ⟨⟨"B", .heading 2, 21, 22⟩, some 0, none⟩ := .parent rfl
  exact ⟨hrun, closure, hclosure, hkind, hheld, _, hrow, _, houter, hstarts,
    stop_le_of_around_body rfl hclosure hkind hheld hrun hrow houter hstarts⟩

/-- The heading in the body is of a smaller level than the one around the definition. -/
def capturingOutline : Forest :=
  [mk ⟨"A", .heading 2, 3, 4⟩ [mk ⟨"f", .named .function, 11, 27⟩ []],
    mk ⟨"B", .heading 1, 21, 22⟩ [mk ⟨"k", .named .label, 23, 26⟩ [], mk ⟨"l", .named .label, 28, 31⟩ []]]

/-- Where the heading in the body closes the one around the definition, it stays open and captures what follows. -/
theorem not_stop_le_of_around_body :
    (Builder.run (Cursor.root (definition "==" "=")) { scope := .symbol }).1 = .ok capturingOutline ∧
      ∃ closure ∈ (Cursor.root (definition "==" "=")).places, closure.kind = .closure ∧
        ∃ row ∈ forestRows capturingOutline, ∃ outer, Around (forestRows capturingOutline) row outer ∧
          StartsIn closure outer.entry ∧ closure.stop ≤ row.entry.start ∧ row.entry.start < row.entry.stop := by
  have hrun : (Builder.run (Cursor.root (definition "==" "=")) { scope := .symbol }).1 = .ok capturingOutline :=
    eq_ok_of_toOption (by decide +kernel)
  obtain ⟨closure, hclosure, hkind⟩ :
      ∃ closure ∈ (Cursor.root (definition "==" "=")).places, closure.kind = .closure := by decide
  have hclosures : ∀ closure ∈ (Cursor.root (definition "==" "=")).places, closure.kind = .closure →
      StartsIn closure ⟨"B", .heading 1, 21, 22⟩ ∧ (closure.stop : Int) ≤ 28 := by decide
  obtain ⟨hstarts, hstop⟩ := hclosures closure hclosure hkind
  have hrow : ⟨⟨"l", .named .label, 28, 31⟩, some 2, none⟩ ∈ forestRows capturingOutline := by decide
  have houter : Around (forestRows capturingOutline) ⟨⟨"l", .named .label, 28, 31⟩, some 2, none⟩
      ⟨⟨"B", .heading 1, 21, 22⟩, none, none⟩ := .parent rfl
  exact ⟨hrun, closure, hclosure, hkind, _, hrow, _, houter, hstarts, hstop, by decide⟩

end DocOutline.Outline
