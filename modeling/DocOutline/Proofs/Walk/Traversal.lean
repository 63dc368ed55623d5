import DocOutline.Proofs.Walk.Comments
import DocOutline.Proofs.Walk.Outcome

/-!
# Places that a walk enters

Which places a walk enters, and in which order, follows from the tree (`Traverses`). Some entries come about place by place
(`Located`): a place tells by itself whether it has such an entry, and which one. Of these, an outline has in pre-order
exactly those that the entered places tell (`exists_entered_of_run`).
-/

namespace DocOutline.Outline

open DocOutline.Symbol (Entry Scope classify entryAt)
open DocOutline.Syntax (Cursor Node)

/-! ## What is looked at -/

namespace Visit

variable {scope : Scope} {visit part : Visit} {symbol? : Option (Entry String)}

/-- A visit leads to what is looked at beneath it. -/
theorem Leads.mem_looks (h : visit.Leads scope part) (hclass : classify visit.here scope visit.naming = .ok symbol?) :
    part ∈ visit.looks scope symbol? := by
  cases h with
  | beneath hclass' hpart =>
    cases hclass.symm.trans hclass'
    exact hpart
  | body hscope hkind hbody =>
    cases hclass.symm.trans (Symbol.classify_closure hkind)
    simp [looks, hscope, hkind, hbody, each]
  | parts hclass' _ hpart =>
    cases hclass.symm.trans hclass'
    exact List.mem_append_left _ hpart

theorem looks_of_function {body : Cursor} (hkind : visit.here.kind = .closure)
    (hbody : body? visit.here.children = some body) :
    visit.looks .symbol none = closureName visit.here.children ++ [⟨.reference, body⟩] := by
  simp [looks, parts, hkind, hbody, each, Scope.affectsSymbol]

theorem looks_of_parts (hbody : scope = .symbol → visit.here.kind = .closure → body? visit.here.children = none) :
    visit.looks scope none = visit.parts scope := by
  simp only [looks]
  split
  · next h => rw [hbody h.1 h.2, Option.toList_none, each, List.map_nil, List.append_nil]
  · rw [List.append_nil]

end Visit

/-! ## Entered places -/

/-- Checking the places of the visits one after another enters these places, each in front of those beneath it. -/
inductive Traverses (scope : Scope) : List Visit → List Cursor → Prop
  | done : Traverses scope [] []
  | next {visit rest symbol? inner later} (hclass : classify visit.here scope visit.naming = .ok symbol?)
      (hinner : Traverses scope (visit.looks scope symbol?) inner) (hrest : Traverses scope rest later) :
      Traverses scope (visit :: rest) (visit.here :: (inner ++ later))

namespace Traverses

variable {scope : Scope} {visits visits' : List Visit} {visit start : Visit} {here : Cursor} {entered entered' : List Cursor}

theorem single {symbol? : Option (Entry String)} (hclass : classify visit.here scope visit.naming = .ok symbol?)
    (hinner : Traverses scope (visit.looks scope symbol?) entered) : Traverses scope [visit] (visit.here :: entered) := by
  simpa using Traverses.next hclass hinner .done

theorem append (h : Traverses scope visits entered) (h' : Traverses scope visits' entered') :
    Traverses scope (visits ++ visits') (entered ++ entered') := by
  induction h with
  | done => exact h'
  | next hclass hinner _ _ ih =>
    rw [List.cons_append, List.cons_append, List.append_assoc]
    exact .next hclass hinner ih

/-- Which places are entered follows from the tree. -/
theorem unique (h : Traverses scope visits entered) (h' : Traverses scope visits entered') : entered = entered' := by
  induction h generalizing entered' with
  | done =>
    cases h'
    rfl
  | next hclass _ _ ihinner ihrest =>
    cases h' with
    | next hclass' hinner' hrest' =>
      cases hclass.symm.trans hclass'
      rw [ihinner hinner', ihrest hrest']

/-- With the place of a visit, what is looked at beneath it is entered. -/
theorem of_mem (h : Traverses scope visits entered) (hvisit : visit ∈ visits) :
    ∃ symbol? inner, classify visit.here scope visit.naming = .ok symbol? ∧
      Traverses scope (visit.looks scope symbol?) inner ∧ visit.here :: inner ⊆ entered := by
  induction h with
  | done => cases hvisit
  | @next first rest symbol? inner later hclass hinner hrest ihinner ihrest =>
    rcases List.mem_cons.1 hvisit with rfl | hvisit
    · exact ⟨symbol?, inner, hclass, hinner, List.cons_subset_cons _ (List.subset_append_left _ _)⟩
    · obtain ⟨symbol?', inner', hclass', hinner', hsubset⟩ := ihrest hvisit
      exact ⟨symbol?', inner', hclass', hinner',
        fun _ hmem => List.mem_cons_of_mem _ (List.mem_append_right _ (hsubset hmem))⟩

/-- Every place that is reached is entered. -/
theorem of_reached (h : Traverses scope visits entered) (hstart : start ∈ visits) (hreached : Reached scope start visit) :
    ∃ symbol? inner, classify visit.here scope visit.naming = .ok symbol? ∧
      Traverses scope (visit.looks scope symbol?) inner ∧ visit.here :: inner ⊆ entered := by
  rw [reached_iff] at hreached
  induction hreached with
  | refl => exact h.of_mem hstart
  | tail _ hleads ih =>
    obtain ⟨symbol?, inner, hclass, hinner, hsubset⟩ := ih
    obtain ⟨symbol?', inner', hclass', hinner', hsubset'⟩ := hinner.of_mem (hleads.mem_looks hclass)
    exact ⟨symbol?', inner', hclass', hinner', fun _ hmem => hsubset (List.mem_cons_of_mem _ (hsubset' hmem))⟩

/-- Each entered place is entered by a visit, and with it what is looked at beneath it. -/
theorem exists_visit (h : Traverses scope visits entered) (hhere : here ∈ entered) :
    ∃ (visit : Visit) (symbol? : Option (Entry String)) (inner : List Cursor), visit.here = here ∧
      classify here scope visit.naming = .ok symbol? ∧ Traverses scope (visit.looks scope symbol?) inner ∧
      inner ⊆ entered := by
  induction h with
  | done => cases hhere
  | @next visit rest symbol? inner later hclass hinner hrest ihinner ihrest =>
    have hinto : inner ⊆ visit.here :: (inner ++ later) :=
      fun _ hmem => List.mem_cons_of_mem _ (List.mem_append_left _ hmem)
    rcases List.mem_cons.1 hhere with rfl | hhere
    · exact ⟨visit, symbol?, inner, rfl, hclass, hinner, hinto⟩
    rcases List.mem_append.1 hhere with hhere | hhere
    · obtain ⟨visit', symbol?', inner', hat, hclass', hinner', hsubset⟩ := ihinner hhere
      exact ⟨visit', symbol?', inner', hat, hclass', hinner', List.Subset.trans hsubset hinto⟩
    · obtain ⟨visit', symbol?', inner', hat, hclass', hinner', hsubset⟩ := ihrest hhere
      exact ⟨visit', symbol?', inner', hat, hclass', hinner',
        fun _ hmem => List.mem_cons_of_mem _ (List.mem_append_right _ (hsubset hmem))⟩

/-- The places of all visits are entered. -/
theorem here_mem (h : Traverses scope visits entered) (hvisit : visit ∈ visits) : visit.here ∈ entered := by
  obtain ⟨-, inner, -, -, hsubset⟩ := h.of_mem hvisit
  exact hsubset (List.mem_cons_self ..)

end Traverses

/-- Nothing is entered beneath a line comment. -/
theorem traverses_lineComment {scope : Scope} {visit : Visit} {rest : List Visit} {entered : List Cursor}
    (hclass : classify visit.here scope visit.naming = .ok none) (hkind : visit.here.kind = .lineComment)
    (h : Traverses scope rest entered) : Traverses scope (visit :: rest) (visit.here :: entered) := by
  have hlooks : visit.looks scope none = [] := by
    rw [Visit.looks_of_parts fun _ hclosure => (by cases hkind.symm.trans hclosure)]
    exact Visit.parts_eq_nil_of_isTrivia (by rw [hkind]; rfl)
  have hnone : Traverses scope (visit.looks scope none) [] := by
    rw [hlooks]
    exact .done
  exact (Traverses.single hclass hnone).append h

/-- Looking at the name of a closure enters nothing but that identifier. -/
theorem traverses_closureName {closure : Cursor} {name : String} (hname : functionName? closure = some name) :
    ∃ entered, Traverses .symbol (Visit.closureName closure.children) entered ∧
      ∀ place ∈ entered, place.kind = .ident := by
  unfold functionName? at hname
  cases hchildren : closure.children with
  | nil => exact ⟨[], .done, nofun⟩
  | cons first rest =>
    simp only [hchildren] at hname
    by_cases hident : first.kind = .ident
    · rw [if_pos hident] at hname
      have hclass : classify first .symbol .functionName = .ok (some (entryAt first name (.named .function))) := by
        rw [classify, if_neg (by simp [hident]), if_pos ⟨hident, rfl⟩, Symbol.classifyIdent, hname]
        rfl
      have hvisits : Visit.closureName (first :: rest) = [⟨.functionName, first⟩] := by
        simp [Visit.closureName, Visit.each, hident]
      have hnone : Visit.beneath ⟨.functionName, first⟩ = [] :=
        Visit.beneath_eq_nil (Node.identName?_eq_some hname).1
      rw [hvisits]
      refine ⟨[first], .single hclass ?_, List.forall_mem_singleton.2 hident⟩
      rw [Visit.looks, hnone]
      exact .done
    · have hvisits : Visit.closureName (first :: rest) = [] := by
        simp [Visit.closureName, Visit.each, hident]
      rw [hvisits]
      exact ⟨[], .done, nofun⟩

/-! ## Entries that come about place by place -/

/-- Whether the entries that are picked come about place by place: a place has the one that `entryOf` tells, or none, and
no entry of another sort is picked there. -/
structure Located (scope : Scope) (root : Cursor) (pick : Entry String → Bool) (entryOf : Cursor → Option (Entry String)) :
    Prop where
  entry : ∀ {visit : Visit} {symbol}, Reached scope ⟨.reference, root⟩ visit →
    classify visit.here scope visit.naming = .ok (some symbol) → (entryOf visit.here).toList = [symbol].filter pick
  function : ∀ {here : Cursor} {name body}, here.kind = .closure → functionName? here = some name →
    Visit.body? here.children = some body → (entryOf here).toList = [entryAt here name (.named .function)].filter pick
  structural : ∀ {visit : Visit}, classify visit.here scope visit.naming = .ok none →
    (scope = .symbol → visit.here.kind = .closure → Visit.body? visit.here.children = none) →
      entryOf visit.here = none
  /-- The identifier that names a closure has no entry of its own. -/
  name : ∀ {here : Cursor}, here.kind = .ident → entryOf here = none
  commentRun : ∀ entry : Entry String, entry.kind = .commentRun → pick entry = false

variable {scope : Scope} {root : Cursor} {pick : Entry String → Bool} {entryOf : Cursor → Option (Entry String)}

theorem filterMap_cons_toList {here : Cursor} {places : List Cursor} :
    (here :: places).filterMap entryOf = (entryOf here).toList ++ places.filterMap entryOf := by
  rw [List.filterMap_cons]
  cases entryOf here <;> rfl

/-- **What a walk adds is told by the places that it enters**, as far as it comes about place by place. -/
theorem Adds.exists_entered {visits : List Visit} {added : List (Entry String)} (hlocated : Located scope root pick entryOf)
    (h : Adds scope visits added) (hvisits : ∀ visit ∈ visits, Reached scope ⟨.reference, root⟩ visit) :
    ∃ entered, Traverses scope visits entered ∧ added.filter pick = entered.filterMap entryOf := by
  induction h with
  | done => exact ⟨[], .done, rfl⟩
  | @entry visit rest symbol inner later hclass hinner hrest ihinner ihrest =>
    obtain ⟨hfirst, hrestvisits⟩ := List.forall_mem_cons.1 hvisits
    obtain ⟨entered, htraverses, hpicked⟩ := ihinner fun part hpart => hfirst.beneath hclass hpart
    obtain ⟨entered', htraverses', hpicked'⟩ := ihrest hrestvisits
    refine ⟨_, .next hclass htraverses htraverses', ?_⟩
    rw [filterMap_cons_toList, hlocated.entry hfirst hclass, List.filterMap_append, ← hpicked, ← hpicked',
      ← List.filter_append, ← List.filter_append, List.singleton_append]
  | @comment visit rest later hclass hkind hrest ihrest =>
    obtain ⟨entered, htraverses, hpicked⟩ := ihrest (List.forall_mem_cons.1 hvisits).2
    have hnone : entryOf visit.here = none :=
      hlocated.structural hclass fun _ hclosure => (by cases hkind.symm.trans hclosure)
    refine ⟨_, traverses_lineComment hclass hkind htraverses, ?_⟩
    rw [List.filter_cons_of_neg (by simp [hlocated.commentRun (commentEntry _ _) rfl]), hpicked,
      List.filterMap_cons_none hnone]
  | @run visit rest later hclass hkind hrest ihrest =>
    obtain ⟨entered, htraverses, hpicked⟩ := ihrest (List.forall_mem_cons.1 hvisits).2
    have hnone : entryOf visit.here = none :=
      hlocated.structural hclass fun _ hclosure => (by cases hkind.symm.trans hclosure)
    refine ⟨_, traverses_lineComment hclass hkind htraverses, ?_⟩
    rw [hpicked, List.filterMap_cons_none hnone]
  | @function visit rest name body inner later hscope hkind hname hbody hinner hrest ihinner ihrest =>
    obtain ⟨hfirst, hrestvisits⟩ := List.forall_mem_cons.1 hvisits
    obtain ⟨named, hnamed, hidents⟩ := traverses_closureName hname
    obtain ⟨entered, htraverses, hpicked⟩ := ihinner (List.forall_mem_singleton.2 (hfirst.body hscope hkind hbody))
    obtain ⟨entered', htraverses', hpicked'⟩ := ihrest hrestvisits
    subst hscope
    have hlooks : Traverses .symbol (visit.looks .symbol none) (named ++ entered) := by
      rw [Visit.looks_of_function hkind hbody]
      exact hnamed.append htraverses
    have hnone : named.filterMap entryOf = [] :=
      List.filterMap_eq_nil_iff.2 fun place hplace => hlocated.name (hidents place hplace)
    refine ⟨_, .next (Symbol.classify_closure hkind) hlooks htraverses', ?_⟩
    rw [filterMap_cons_toList, hlocated.function hkind hname hbody, List.filterMap_append, List.filterMap_append, hnone,
      List.nil_append, ← hpicked, ← hpicked', ← List.filter_append, ← List.filter_append, List.singleton_append]
  | @parts visit rest inner later hclass hkind hbody hinner hrest ihinner ihrest =>
    obtain ⟨hfirst, hrestvisits⟩ := List.forall_mem_cons.1 hvisits
    obtain ⟨entered, htraverses, hpicked⟩ := ihinner fun part hpart => hfirst.parts hclass hbody hpart
    obtain ⟨entered', htraverses', hpicked'⟩ := ihrest hrestvisits
    rw [← Visit.looks_of_parts hbody] at htraverses
    refine ⟨_, .next hclass htraverses htraverses', ?_⟩
    rw [List.filter_append, hpicked, hpicked', List.filterMap_cons_none (hlocated.structural hclass hbody),
      List.filterMap_append]

/-- What is picked among entries does not depend on where runs of comments end. -/
theorem Located.filter_lasting (h : Located scope root pick entryOf) (entries : List (Entry String)) :
    (entries.map Entry.lasting).filter pick = entries.filter pick := by
  induction entries with
  | nil => rfl
  | cons entry entries ih =>
    rw [List.map_cons]
    by_cases hkind : entry.kind = .commentRun
    · have hlasting : pick entry.lasting = false := h.commentRun _ (by rwa [Entry.kind_lasting])
      rw [List.filter_cons_of_neg (by simp [hlasting]), List.filter_cons_of_neg (by simp [h.commentRun _ hkind]), ih]
    · rw [Entry.lasting_of_ne hkind, List.filter_cons, List.filter_cons, ih]

/-- The entries of an outline that come about place by place are, in pre-order, those that the entered places tell. -/
theorem exists_entered_of_run {builder : Builder} {forest : Forest} (hlocated : Located builder.scope root pick entryOf)
    (h : (Builder.run root builder).1 = .ok forest) :
    ∃ entered, Traverses builder.scope [⟨.reference, root⟩] entered ∧
      ((flattenAll 0 forest).map Prod.fst).filter pick = entered.filterMap entryOf := by
  obtain ⟨added, hadds, hentries⟩ := adds_of_run h
  obtain ⟨entered, htraverses, hpicked⟩ := hadds.exists_entered hlocated (List.forall_mem_singleton.2 .start)
  refine ⟨entered, htraverses, ?_⟩
  rw [← hlocated.filter_lasting, hentries, hlocated.filter_lasting, hpicked]

end DocOutline.Outline
