import DocOutline.Proofs.Walk.Additions
import DocOutline.Proofs.Walk.Outcome

/-!
# What the scopes have in common

Headings and runs of comments are in the outlines of both scopes. Where no closures are, both walks come to the same
places (`Visit.looks_eq_parts`), so if one of them gives an outline, the other does. Which comments are put together is
decided by what was finished last in the top frame, and the frames of the two walks differ. But a comment is checked
right behind the sibling in front of it, or behind the space that separates the two (`Lined`), and then a run that ends
there is what was finished last (`Trails`). So whether a comment goes on with a run follows from the tree alone, and with
it the headings and runs of an outline (`Notes`).
-/

namespace DocOutline

open DocOutline.Symbol (Entry Scope classify entryAt)
open DocOutline.Syntax (Cursor Node)

namespace Symbol

/-- Whether entries of a kind belong to the outlines of all scopes. -/
def Kind.isShared : Kind → Bool
  | heading _ | commentRun => true
  | _ => false

def headingAt? (here : Cursor) : Option (Entry String) := if here.kind = .markup then classifyMarkup here else none

variable {here : Cursor} {scope : Scope} {naming : Naming} {entry : Entry String}

/-- Of the entries that nodes open, those of headings are shared. -/
theorem Opens.toList_headingAt? (h : Opens here scope naming entry) :
    (headingAt? here).toList = [entry].filter (·.kind.isShared) := by
  cases h with
  | label _ hkind _ => simp [headingAt?, hkind, entryAt, Kind.isShared]
  | ident _ hkind _ _ => simp [headingAt?, hkind, entryAt, Kind.isShared]
  | group _ hkind =>
    have hmarkup : here.kind ≠ .markup := by
      intro hmarkup
      rw [hmarkup] at hkind
      cases hkind
    simp [headingAt?, hmarkup, entryAt, Kind.isShared]
  | heading hkind hparent hheading htext =>
    simp [headingAt?, hkind, classifyMarkup, hparent, hheading, htext, entryAt, Kind.isShared]

theorem headingAt?_eq_none (h : classify here scope naming = .ok none) : headingAt? here = none := by
  unfold headingAt?
  split
  · next hkind =>
    have hgroup : isGroup scope .markup = false := rfl
    simpa [classify, hkind, hgroup, Scope.affectsHeading] using h
  · rfl

end Symbol

namespace Syntax

/-- Whether a node is no closure and has none beneath it, and comments have nothing beneath them. -/
structure Node.Plain (node : Node) : Prop where
  closure : ∀ inner ∈ node.subtrees, inner.kind ≠ .closure
  comment : ∀ inner ∈ node.subtrees, inner.kind = .lineComment ∨ inner.kind = .blockComment → inner.children = []

theorem Node.Plain.child {node child : Node} (h : node.Plain) (hchild : child ∈ node.children) : child.Plain where
  closure inner hinner := h.closure inner (node.beneath_subset_subtrees (subtrees_subset_beneath hchild hinner))
  comment inner hinner := h.comment inner (node.beneath_subset_subtrees (subtrees_subset_beneath hchild hinner))

theorem Kind.not_isTrivia_of_isPattern {kind : Kind} (h : kind.isPattern) : kind.isTrivia = false := by
  cases kind <;> first | rfl | cases h

end Syntax

namespace Outline

/-! ## The same places -/

namespace Visit

variable {scope : Scope} {visit : Visit} {symbol? : Option (Entry String)}

/-- Labels, identifiers, groups and texts of headings are looked at as a whole, or have nothing beneath them. -/
theorem beneath_eq_parts {symbol : Entry String} (hplain : visit.here.node.Plain)
    (hclass : classify visit.here scope visit.naming = .ok (some symbol)) : visit.beneath = visit.parts .braced := by
  have hblock : visit.here.kind = .blockComment → visit.beneath = [] := fun hkind =>
    beneath_eq_nil (hplain.comment _ (Node.mem_subtrees_self _) (.inr hkind))
  cases Symbol.opens_of_classify hclass with
  | label _ hkind _ => simp [parts, hkind, Syntax.Kind.isTrivia, Syntax.Kind.isKeyword, Syntax.Kind.isError]
  | ident _ hkind _ _ => simp [parts, hkind, Syntax.Kind.isTrivia, Syntax.Kind.isKeyword, Syntax.Kind.isError]
  | heading hkind _ _ _ => simp [parts, hkind, Syntax.Kind.isTrivia, Syntax.Kind.isKeyword, Syntax.Kind.isError]
  | group _ hkind =>
    unfold parts
    cases hhere : visit.here.kind <;> rw [hhere] at hkind hblock <;>
      first
      | rfl
      | exact hblock rfl
      | cases scope <;> cases hkind

/-- Where no closures are, what is looked at beneath a node depends neither on the scope nor on the classification. -/
theorem looks_eq_parts (hplain : visit.here.node.Plain)
    (hclass : classify visit.here scope visit.naming = .ok symbol?) :
    visit.looks scope symbol? = visit.parts .braced := by
  cases symbol? with
  | some symbol => exact beneath_eq_parts hplain hclass
  | none =>
    have hclosure : visit.here.kind ≠ .closure := hplain.closure _ (Node.mem_subtrees_self _)
    simp only [looks, hclosure, and_false, if_false, List.append_nil]
    unfold parts
    split <;> first | rfl | exact absurd ‹_› hclosure

theorem plain_of_mem_parts {part : Visit} (hplain : visit.here.node.Plain) (h : part ∈ visit.parts scope) :
    part.here.node.Plain := hplain.child (Cursor.node_mem_children (mem_of_mem_parts h))

end Visit

/-- Where no closures are, a walk that fails nowhere although names are entries fails nowhere without them. -/
theorem Fares.braced {room : Room} {visits : List Visit} (h : Fares room .symbol visits none)
    (hplain : ∀ visit ∈ visits, visit.here.node.Plain) : Fares room .braced visits none := by
  generalize hnone : (none : Option Fault) = outcome at h
  induction h with
  | done => exact .done
  | noRoom => cases hnone
  | tooDeep => cases hnone
  | misshapen => cases hnone
  | inside => cases hnone
  | @next visit rest symbol? outcome hbegins hlooks hrest ihlooks ihrest =>
    obtain ⟨hroom, hdepth, hclass⟩ := hbegins
    obtain ⟨hfirst, hrestplain⟩ := List.forall_mem_cons.1 hplain
    cases hclass' : classify visit.here .braced visit.naming with
    | error error => cases (Symbol.misshapen_of_classify hclass').1
    | ok symbol?' =>
      rw [Visit.looks_eq_parts hfirst hclass] at ihlooks
      refine .next ⟨hroom, hdepth, hclass'⟩ ?_ (ihrest hrestplain hnone)
      rw [Visit.looks_eq_parts hfirst hclass']
      exact ihlooks (fun part hpart => Visit.plain_of_mem_parts hfirst hpart) rfl

/-! ## Headings and comments of a tree -/

/-- Whether a line comment stands behind another one that it may go on with. -/
def followsComment (here : Cursor) : Bool := (commentBefore? here).any (·.kind == .lineComment)

/-- Notes a line comment behind the headings and runs noted so far. If it follows a comment, it goes on with the latest
of them. -/
def noteComment (here : Cursor) (noted : List (Entry String)) : List (Entry String) :=
  if followsComment here then
    match noted.getLast? with
    | some last => noted.dropLast ++ [commentEntry last.start here]
    | none => noted
  else noted ++ [commentEntry here.offset here]

/-- Checking the places of the visits one after another notes headings and runs of comments behind those noted before. -/
inductive Notes : List Visit → List (Entry String) → List (Entry String) → Prop
  | done {noted} : Notes [] noted noted
  | comment {visit rest noted after} (hkind : visit.here.kind = .lineComment)
      (hrest : Notes rest (noteComment visit.here noted) after) : Notes (visit :: rest) noted after
  | node {visit rest noted inner after} (hkind : visit.here.kind ≠ .lineComment)
      (hinner : Notes (visit.parts .braced) (noted ++ (Symbol.headingAt? visit.here).toList) inner)
      (hrest : Notes rest inner after) : Notes (visit :: rest) noted after

/-- What is noted follows from the tree. -/
theorem Notes.unique {visits : List Visit} {noted after after' : List (Entry String)} (h : Notes visits noted after)
    (h' : Notes visits noted after') : after = after' := by
  induction h generalizing after' with
  | done =>
    cases h'
    rfl
  | comment hkind hrest ih =>
    cases h' with
    | comment _ hrest' => exact ih hrest'
    | node hkind' _ _ => exact absurd hkind hkind'
  | node hkind hinner hrest ihinner ihrest =>
    cases h' with
    | comment hkind' _ => exact absurd hkind' hkind
    | node _ hinner' hrest' =>
      obtain rfl := ihinner hinner'
      exact ihrest hrest'

/-! ## Places in a line -/

/-- Whether each comment and each space among the places of the visits is checked right behind the sibling in front of
it. `before?` is the place that is checked before them. -/
def Lined : Option Cursor → List Visit → Prop
  | _, [] => True
  | before?, visit :: rest =>
    (visit.here.kind.isTrivia → visit.here.prevRaw? = before?) ∧ Lined (some visit.here) rest

theorem lined_of_no_trivia {visits : List Visit} (h : ∀ visit ∈ visits, visit.here.kind.isTrivia = false)
    (before? : Option Cursor) : Lined before? visits := by
  induction visits generalizing before? with
  | nil => trivial
  | cons visit rest ih =>
    obtain ⟨hfirst, hrest⟩ := List.forall_mem_cons.1 h
    refine ⟨fun htrivia => ?_, ih hrest _⟩
    rw [hfirst] at htrivia
    cases htrivia

/-- Siblings are checked one right behind the other. -/
theorem lined_siblings (naming : Symbol.Naming) {parent : Cursor} {before? : Option Cursor} {index offset : Nat}
    {nodes : List Node} (hnodes : ∀ k, parent.node.children[index + k]? = nodes[k]?)
    (hbefore : ∀ node, (Cursor.mk node (some parent) index offset).prevRaw? = before?) :
    Lined before? (Visit.each naming (Cursor.siblings parent index offset nodes)) := by
  induction nodes generalizing index offset before? with
  | nil => trivial
  | cons node nodes ih =>
    refine ⟨fun _ => hbefore node, ih (fun k => ?_) fun next => ?_⟩
    · rw [Nat.add_assoc, Nat.add_comm 1 k, hnodes]
      rfl
    · have hnode : parent.node.children[index]? = some node := hnodes 0
      simp only [Cursor.prevRaw?, Cursor.parent?, Cursor.index, hnode, Option.map_some, Cursor.offset,
        Nat.add_sub_cancel]

theorem lined_beneath (visit : Visit) : Lined none visit.beneath :=
  lined_siblings _ (fun k => by rw [Nat.zero_add]) fun _ => rfl

namespace Visit

variable {naming : Symbol.Naming} {places : List Cursor} {part visit : Visit}

/-! ### No trivia among other parts -/

theorem no_trivia_of_find? {place : Cursor} (h : places.find? (·.kind.isExpr) = some place) :
    place.kind.isTrivia = false := by
  have hexpr : place.kind.isExpr := List.find?_some (p := fun place : Cursor => place.kind.isExpr) h
  refine Syntax.Kind.not_isTrivia_of_isPattern ?_
  simp [Syntax.Kind.isPattern, hexpr]

theorem no_trivia_of_mem_firstExpr {after : Option Nat} (h : part ∈ firstExpr naming after places) :
    part.here.kind.isTrivia = false := by
  unfold firstExpr at h
  split at h
  · next place hplace =>
    split at h
    · cases h
    · rw [List.mem_singleton.1 h]
      exact no_trivia_of_find? hplace
  · cases h

theorem no_trivia_of_mem_toList {place? : Option Cursor} (hsome : ∀ place, place? = some place → place.kind.isTrivia = false)
    (h : part ∈ each naming place?.toList) : part.here.kind.isTrivia = false := by
  obtain ⟨place, hplace, rfl⟩ := eq_of_mem_each_toList h
  exact hsome place hplace

theorem no_trivia_of_pattern? {place : Cursor} (h : pattern? places = some place) : place.kind.isTrivia = false :=
  Syntax.Kind.not_isTrivia_of_isPattern (List.find?_some (p := fun place : Cursor => place.kind.isPattern) h)

theorem lined_parts (visit : Visit) (scope : Scope) : Lined none (visit.parts scope) := by
  unfold parts
  split
  · refine lined_of_no_trivia (fun part hpart => ?_) none
    unfold binding at hpart
    split at hpart
    · exact no_trivia_of_mem_toList (fun _ => no_trivia_of_pattern?) hpart
    · rcases List.mem_append.1 hpart with hpart | hpart
      · exact no_trivia_of_mem_toList (fun _ => no_trivia_of_pattern?) hpart
      · exact no_trivia_of_mem_firstExpr hpart
  · refine lined_of_no_trivia (fun part hpart => ?_) none
    rcases List.mem_append.1 hpart with hpart | hpart
    · rcases List.mem_append.1 hpart with hpart | hpart
      · exact no_trivia_of_mem_toList (fun _ => no_trivia_of_find?) hpart
      · exact no_trivia_of_mem_toList (fun _ => no_trivia_of_pattern?) hpart
    · exact no_trivia_of_mem_firstExpr hpart
  · split
    · refine lined_of_no_trivia (fun part hpart => no_trivia_of_mem_toList (fun place hplace => ?_) hpart) none
      have hident : place.kind = .ident := by simpa using (Option.filter_eq_some_iff.1 hplace).2
      rw [hident]
      rfl
    · exact lined_beneath visit
  · exact lined_of_no_trivia (fun part => no_trivia_of_mem_firstExpr) none
  · refine lined_of_no_trivia (fun part hpart => ?_) none
    unfold pair at hpart
    split at hpart
    · rcases List.mem_append.1 hpart with hpart | hpart
      · exact no_trivia_of_mem_firstExpr hpart
      · refine no_trivia_of_mem_toList (fun place hplace => ?_) hpart
        have hident : place.kind = .ident := by simpa using List.find?_some hplace
        rw [hident]
        rfl
    · exact no_trivia_of_mem_firstExpr hpart
  · trivial
  · split
    · trivial
    · exact lined_beneath visit

theorem lined_body {body : Cursor} (h : body? places = some body) : Lined none [⟨naming, body⟩] := by
  have htrivia : body.kind.isTrivia = false := no_trivia_of_find? h
  exact lined_of_no_trivia (List.forall_mem_singleton.2 htrivia) none

end Visit

/-! ## Runs that go on -/

def EndsRun (comment : Cursor) (frames : List Frame) : Prop :=
  ∃ top below run earlier, frames = top :: below ∧ top.finished = .mk run [] :: earlier ∧ run.kind = .commentRun ∧
    run.stop = comment.stop

/-- What is known right behind a place: `P` holds of a comment there, and of one in front of a space there. -/
def Behind (P : Cursor → Prop) (before? : Option Cursor) : Prop :=
  ∀ place, before? = some place → (place.kind = .lineComment → P place) ∧
    (place.kind = .space → ∀ comment, place.prevRaw? = some comment → comment.kind = .lineComment → P comment)

/-- What is known of the frames right behind a place: a comment, or one in front of a space, has been put into a run. -/
def Trails (before? : Option Cursor) (frames : List Frame) : Prop :=
  ∀ place, before? = some place → (place.kind = .lineComment → EndsRun place frames) ∧
    (place.kind = .space → ∀ comment, place.prevRaw? = some comment → comment.kind = .lineComment →
      EndsRun comment frames)

theorem trails_iff {before? : Option Cursor} {frames : List Frame} :
    Trails before? frames ↔ Behind (EndsRun · frames) before? := Iff.rfl

section

variable {P : Cursor → Prop} {before? : Option Cursor} {place here comment : Cursor}

theorem behind_none : Behind P none := fun _ h => nomatch h

theorem behind_of_ne (hcomment : place.kind ≠ .lineComment) (hspace : place.kind ≠ .space) : Behind P (some place) := by
  rintro _ ⟨⟩
  exact ⟨fun h => absurd h hcomment, fun h => absurd h hspace⟩

theorem behind_comment (hkind : place.kind = .lineComment) (h : P place) : Behind P (some place) := by
  rintro _ ⟨⟩
  exact ⟨fun _ => h, fun hspace => by cases hkind.symm.trans hspace⟩

theorem Behind.space (h : Behind P before?) (hbefore : place.prevRaw? = before?) (hkind : place.kind = .space) :
    Behind P (some place) := by
  rintro _ ⟨⟩
  refine ⟨fun hcomment => ?_, fun _ comment hcomment hline => ?_⟩
  · cases hkind.symm.trans hcomment
  · exact (h comment (hbefore.symm.trans hcomment)).1 hline

/-- What is known of the comment that a comment follows. -/
theorem Behind.of_commentBefore? (h : Behind P before?) (hbefore : here.prevRaw? = before?)
    (hcomment : commentBefore? here = some comment) (hkind : comment.kind = .lineComment) : P comment := by
  unfold commentBefore? at hcomment
  split at hcomment
  · next previous hprevious =>
    have hbehind := h previous (hbefore.symm.trans hprevious)
    split at hcomment
    · next hspace =>
      split at hcomment
      · cases hcomment
      · exact hbehind.2 hspace comment hcomment hkind
    · cases hcomment
      exact hbehind.1 hkind
  · cases hcomment

end

/-! ## What is noted in the frames -/

/-- The headings and runs of comments among what is read of the frames. -/
def notedIn (frames : List Frame) : List (Entry String) :=
  ((reading frames).rows.map Row.entry).filter (·.kind.isShared)

theorem notedIn_closeDown (height : Nat) (frames : List Frame) : notedIn (closeDown height frames) = notedIn frames := by
  rw [notedIn, rows_reading_closeDown, notedIn]

theorem notedIn_settle (kind : Symbol.Kind) (frames : List Frame) : notedIn (settle kind frames) = notedIn frames := by
  rw [notedIn, rows_reading_settle, notedIn]

theorem notedIn_push (entry : Entry String) {frames : List Frame} (h : frames ≠ []) :
    notedIn (⟨entry, []⟩ :: frames) = notedIn frames ++ [entry].filter (·.kind.isShared) := by
  rw [notedIn, reading_push entry h, Reading.enter, List.map_append, List.filter_append, List.map_singleton, notedIn]

theorem notedIn_adopt_run (top : Frame) (below : List Frame) (run : Entry String) (h : run.kind = .commentRun) :
    notedIn (top.adopt (.mk run []) :: below) = notedIn (top :: below) ++ [run] := by
  rw [notedIn, reading_adopt, Reading.rows_add_leaf, List.map_append, List.filter_append, List.map_singleton, notedIn]
  simp [h, Symbol.Kind.isShared]

/-- A comment that follows another one goes on with the run that this one was put into; any other starts a run. -/
theorem notedIn_addComment_cases {top : Frame} {below : List Frame} {here : Cursor}
    (hrun : ∀ comment, commentBefore? here = some comment → comment.kind = .lineComment →
      EndsRun comment (top :: below)) :
    (∃ noted run, followsComment here ∧ run.kind = .commentRun ∧ notedIn (top :: below) = noted ++ [run] ∧
        notedIn (⟨top.entry, addComment here top.finished⟩ :: below) = noted ++ [commentEntry run.start here]) ∨
      (¬ followsComment here ∧ notedIn (⟨top.entry, addComment here top.finished⟩ :: below) =
        notedIn (top :: below) ++ [commentEntry here.offset here]) := by
  by_cases hfollows : followsComment here
  · obtain ⟨comment, hcomment, hkind⟩ := (Option.any_eq_true _ _).1 hfollows
    obtain ⟨_, _, run, earlier, ⟨⟩, hfinished, hrunkind, hstop⟩ := hrun comment hcomment (eq_of_beq hkind)
    obtain ⟨opened, finished⟩ := top
    obtain rfl : finished = .mk run [] :: earlier := hfinished
    have hcontinues : continuesRun here (.mk run []) := by
      simp [continuesRun, entry, hrunkind, hcomment, hkind, hstop]
    have hadd : addComment here (.mk run [] :: earlier) = .mk (commentEntry run.start here) [] :: earlier := by
      rw [addComment, if_pos hcontinues]
      rfl
    refine .inl ⟨notedIn (⟨opened, earlier⟩ :: below), run, hfollows, hrunkind,
      notedIn_adopt_run ⟨opened, earlier⟩ below run hrunkind, ?_⟩
    rw [hadd]
    exact notedIn_adopt_run ⟨opened, earlier⟩ below (commentEntry run.start here) rfl
  · have hadd : addComment here top.finished = .mk (commentEntry here.offset here) [] :: top.finished := by
      rcases addComment_cases here top.finished with heq | ⟨last, earlier, -, hcontinues, -⟩
      · exact heq
      · rw [continuesRun, Bool.and_eq_true, Option.any_eq_true] at hcontinues
        obtain ⟨-, comment, hcomment, hline⟩ := hcontinues
        have hline : comment.kind == .lineComment := (Bool.and_eq_true_iff.1 hline).1
        exact absurd ((Option.any_eq_true _ _).2 ⟨comment, hcomment, hline⟩) hfollows
    rw [hadd]
    exact .inr ⟨hfollows, notedIn_adopt_run top below _ rfl⟩

theorem notedIn_addComment {top : Frame} {below : List Frame} {here : Cursor}
    (hrun : ∀ comment, commentBefore? here = some comment → comment.kind = .lineComment →
      EndsRun comment (top :: below)) :
    notedIn (⟨top.entry, addComment here top.finished⟩ :: below) = noteComment here (notedIn (top :: below)) := by
  rcases notedIn_addComment_cases hrun with ⟨noted, run, hfollows, -, hnoted, hafter⟩ | ⟨hfollows, hafter⟩
  · rw [hafter, hnoted]
    simp [noteComment, hfollows]
  · rw [hafter]
    simp [noteComment, hfollows]

/-- A comment has been put into a run that ends where it ends. -/
theorem endsRun_addComment {top : Frame} {below : List Frame} (here : Cursor) :
    EndsRun here (⟨top.entry, addComment here top.finished⟩ :: below) := by
  rcases addComment_cases here top.finished with heq | ⟨last, earlier, -, -, heq⟩
  · exact ⟨_, _, commentEntry here.offset here, _, rfl, heq, rfl, rfl⟩
  · exact ⟨_, _, commentEntry last.entry.start here, _, rfl, heq, rfl, rfl⟩

/-- **A walk notes what the tree says.** -/
theorem Walked.notes {scope : Scope} {visits : List Visit} {frames after : List Frame}
    (h : Walked scope visits frames after) {before? : Option Cursor}
    (hplain : ∀ visit ∈ visits, visit.here.node.Plain) (hlined : Lined before? visits) (htidy : Tidy frames)
    (htrails : Trails before? frames) : Notes visits (notedIn frames) (notedIn after) := by
  induction h generalizing before? with
  | done => exact .done
  | @entry visit rest symbol frames inner after hclass hinner hrest ihinner ihrest =>
    obtain ⟨hfirst, hrestplain⟩ := List.forall_mem_cons.1 hplain
    have hopens := Symbol.opens_of_classify hclass
    have hkind : symbol.kind ≠ .commentRun := by
      cases hopens <;> nofun
    obtain ⟨hcomment, hspace⟩ := hopens.not_separator
    have hsettled := htidy.settle symbol.kind
    have hinnernotes : Notes visit.beneath (notedIn (⟨symbol, []⟩ :: settle symbol.kind frames)) (notedIn inner) := by
      refine ihinner (fun part hpart => ?_) (lined_beneath visit) (hsettled.push hkind) behind_none
      exact hfirst.child (Cursor.node_mem_children (Visit.mem_of_mem_beneath hpart))
    rw [Visit.beneath_eq_parts hfirst hclass, notedIn_push symbol hsettled.ne_nil, notedIn_settle,
      ← hopens.toList_headingAt?] at hinnernotes
    refine .node hcomment hinnernotes ?_
    have htidyinner : Tidy inner := (hinner.adds (hsettled.push hkind)).1
    rw [← notedIn_closeDown]
    exact ihrest hrestplain hlined.2 (htidyinner.closeDown _) (behind_of_ne hcomment hspace)
  | @comment visit rest top below after hclass hkind hrest ihrest =>
    obtain ⟨hfirst, hrestplain⟩ := List.forall_mem_cons.1 hplain
    have hprev : visit.here.prevRaw? = before? := hlined.1 (by rw [hkind]; rfl)
    refine .comment hkind ?_
    rw [← notedIn_addComment fun comment hcomment hline =>
      (trails_iff.1 htrails).of_commentBefore? hprev hcomment hline]
    exact ihrest hrestplain hlined.2 (grows_addComment visit.here htidy).1
      (behind_comment hkind (endsRun_addComment visit.here))
  | @function visit rest name body frames inner after hscope hkind hname hbody hinner hrest ihinner ihrest =>
    exact absurd hkind ((hplain visit (List.mem_cons_self ..)).closure _ (Node.mem_subtrees_self _))
  | @parts visit rest frames middle after hclass hkind hbody hparts hrest ihparts ihrest =>
    obtain ⟨hfirst, hrestplain⟩ := List.forall_mem_cons.1 hplain
    have hclosure : visit.here.kind ≠ .closure := hfirst.closure _ (Node.mem_subtrees_self _)
    have hlooks : visit.looks scope none = visit.parts scope := by
      simp only [Visit.looks, hclosure, and_false, if_false, List.append_nil]
    rw [Visit.looks_eq_parts hfirst hclass] at hlooks
    rw [← hlooks] at hparts ihparts
    have hpartsnotes : Notes (visit.parts .braced) (notedIn frames) (notedIn middle) :=
      ihparts (fun part => Visit.plain_of_mem_parts hfirst) (visit.lined_parts .braced) htidy behind_none
    have hnone := Symbol.headingAt?_eq_none hclass
    refine .node hkind (by simpa [hnone] using hpartsnotes) (ihrest hrestplain hlined.2 (hparts.adds htidy).1 ?_)
    -- A space leaves the frames as they are, so behind it they are as behind what is in front of it.
    by_cases hspace : visit.here.kind = .space
    · have hnil : visit.parts .braced = [] := by simp [Visit.parts, hspace, Syntax.Kind.isTrivia]
      rw [hnil, Walked.nil_iff] at hparts
      rw [hparts]
      exact (trails_iff.1 htrails).space (hlined.1 (by rw [hspace]; rfl)) hspace
    · exact behind_of_ne hkind hspace

/-! ## Both outlines of a tree -/

/-- The headings and runs of comments of an outline, in pre-order. -/
def sharedEntries (forest : Forest) : List (Entry String) :=
  ((flattenAll 0 forest).map Prod.fst).filter (·.kind.isShared)

/-- The headings and runs of an outline are those that the tree says. -/
theorem notes_of_run {builder : Builder} {node : Node} {forest : Forest} (hplain : node.Plain)
    (h : (Builder.run (Cursor.root node) builder).1 = .ok forest) :
    Notes [⟨.reference, Cursor.root node⟩] [] (sharedEntries forest) := by
  obtain ⟨frames, bottom, hwalked, hclosed, rfl⟩ := walked_of_run h
  have hlined : Lined none [⟨.reference, Cursor.root node⟩] := ⟨fun _ => rfl, trivial⟩
  have hnotes := hwalked.notes (List.forall_mem_singleton.2 hplain) hlined Tidy.sentinel behind_none
  have hnoted : notedIn frames = sharedEntries bottom.finished.reverse := by
    rw [notedIn, ← rows_of_closeDown hclosed, forestRows, entries_rowsAll 0, sharedEntries]
  rwa [hnoted] at hnotes

/-- **Both scopes agree on headings and comments.** If a tree without closures, whose comments have nothing beneath
them, has an outline of names, it has one of blocks too, with the same headings and runs of comments in the same order
(`ScopeConfiguration`; specification, section 4.3). -/
theorem scopes_agree (node : Node) (hclosures : ∀ inner ∈ node.subtrees, inner.kind ≠ .closure)
    (hcomments : ∀ inner ∈ node.subtrees, inner.kind = .lineComment ∨ inner.kind = .blockComment → inner.children = [])
    {forest : Forest} (h : build (Cursor.root node) .symbol = .ok forest) :
    ∃ forest', build (Cursor.root node) .braced = .ok forest' ∧ sharedEntries forest = sharedEntries forest' := by
  have hplain : node.Plain := ⟨hclosures, hcomments⟩
  obtain ⟨outcome, bottom, hfares, hrun⟩ := run_fares node { scope := .symbol }
  obtain ⟨outcome', bottom', hfares', hrun'⟩ := run_fares node { scope := .braced }
  have hnone : outcome = none := by
    cases outcome with
    | none => rfl
    | some error => cases hrun.symm.trans h
  rw [hnone] at hfares
  obtain rfl := hfares'.unique (hfares.braced (List.forall_mem_singleton.2 hplain))
  exact ⟨_, hrun', (notes_of_run hplain h).unique (notes_of_run hplain hrun')⟩

/-- A label and two comments beneath a heading. The label is only in the one outline and the block around the comments
only in the other. -/
def commentedBlock : Node :=
  .inner .markup [.inner .heading [.leaf .headingMarker "=", .leaf .space " ", .inner .markup [.leaf .text "A"]],
    .leaf .label "<a>", .inner .contentBlock [.leaf .lineComment "//b", .leaf .space "\n", .leaf .lineComment "//c"]]

theorem scopes_agree_commentedBlock :
    ∃ forest', build (Cursor.root commentedBlock) .braced = .ok forest' ∧
      [⟨"A", .heading 1, 2, 3⟩, ⟨"", .commentRun, 6, 13⟩] = sharedEntries forest' := by
  have h : build (Cursor.root commentedBlock) .symbol = .ok [mk ⟨"A", .heading 1, 2, 3⟩
      [mk ⟨"a", .named .label, 3, 6⟩ [], mk ⟨"", .commentRun, 6, 13⟩ []]] := eq_ok_of_toOption (by decide +kernel)
  exact scopes_agree commentedBlock (by decide) (by decide) h

end Outline

end DocOutline
