import Mathlib.Logic.Relation
import DocOutline.Proofs.Walk.Additions
import DocOutline.Proofs.Walk.Reach

/-!
# Comments that a walk comes to

Which line comments a walk comes to, and in which order, follows from the visits alone (`Collects`). They are those that
are reached (`Collects.mem_iff`). As long as loops are complete and identifiers have nothing beneath them, each of them is
there once (`Collects.nodup`).
-/

namespace DocOutline.Outline

open DocOutline.Symbol (Entry Scope classify)
open DocOutline.Syntax (Cursor)

/-! ## One step down -/

/-- The ways in which a visit leads to another one beneath it. -/
inductive Visit.Leads (scope : Scope) (visit : Visit) : Visit → Prop
  | beneath {symbol part} (hclass : classify visit.here scope visit.naming = .ok (some symbol))
      (hpart : part ∈ visit.beneath) : Leads scope visit part
  | body {body} (hscope : scope = .symbol) (hkind : visit.here.kind = .closure)
      (hbody : Visit.body? visit.here.children = some body) : Leads scope visit ⟨.reference, body⟩
  | parts {part} (hclass : classify visit.here scope visit.naming = .ok none)
      (hbody : scope = .symbol → visit.here.kind = .closure → Visit.body? visit.here.children = none)
      (hpart : part ∈ visit.parts scope) : Leads scope visit part

variable {scope : Scope} {start visit part : Visit}

theorem reached_iff : Reached scope start visit ↔ Relation.ReflTransGen (Visit.Leads scope) start visit := by
  constructor
  · intro h
    induction h with
    | start => exact .refl
    | beneath _ hclass hpart ih => exact ih.tail (.beneath hclass hpart)
    | body _ hscope hkind hbody ih => exact ih.tail (.body hscope hkind hbody)
    | parts _ hclass hbody hpart ih => exact ih.tail (.parts hclass hbody hpart)
  · intro h
    induction h with
    | refl => exact .start
    | tail _ hleads ih =>
      cases hleads with
      | beneath hclass hpart => exact ih.beneath hclass hpart
      | body hscope hkind hbody => exact ih.body hscope hkind hbody
      | parts hclass hbody hpart => exact ih.parts hclass hbody hpart

namespace Visit

theorem Leads.mem_children (h : visit.Leads scope part) : part.here ∈ visit.here.children := by
  cases h with
  | beneath _ hpart => exact mem_of_mem_beneath hpart
  | body _ _ hbody => exact mem_of_body? hbody
  | parts _ _ hpart => exact mem_of_mem_parts hpart

/-- An entry leads to everything beneath it. -/
theorem leads_iff_of_entry {symbol : Entry String} (hclass : classify visit.here scope visit.naming = .ok (some symbol)) :
    visit.Leads scope part ↔ part ∈ visit.beneath := by
  refine ⟨fun h => ?_, .beneath hclass⟩
  cases h with
  | beneath _ hpart => exact hpart
  | body _ hkind _ =>
    rw [Symbol.classify_closure hkind] at hclass
    cases hclass
  | parts hclass' _ _ => cases hclass.symm.trans hclass'

/-- A function leads to its body. -/
theorem leads_iff_of_function {body : Cursor} (hscope : scope = .symbol) (hkind : visit.here.kind = .closure)
    (hbody : body? visit.here.children = some body) : visit.Leads scope part ↔ part = ⟨.reference, body⟩ := by
  refine ⟨fun h => ?_, ?_⟩
  · cases h with
    | beneath hclass _ =>
      rw [Symbol.classify_closure hkind] at hclass
      cases hclass
    | body _ _ hbody' =>
      cases hbody.symm.trans hbody'
      rfl
    | parts _ hnone _ => cases hbody.symm.trans (hnone hscope hkind)
  · rintro rfl
    exact .body hscope hkind hbody

/-- What is neither leads to its parts. -/
theorem leads_iff_of_parts (hclass : classify visit.here scope visit.naming = .ok none)
    (hbody : scope = .symbol → visit.here.kind = .closure → body? visit.here.children = none) :
    visit.Leads scope part ↔ part ∈ visit.parts scope := by
  refine ⟨fun h => ?_, .parts hclass hbody⟩
  cases h with
  | beneath hclass' _ => cases hclass.symm.trans hclass'
  | body hscope hkind hsome => cases (hbody hscope hkind).symm.trans hsome
  | parts _ _ hpart => exact hpart

theorem parts_eq_nil_of_isTrivia (h : visit.here.kind.isTrivia) : visit.parts scope = [] := by
  unfold parts
  cases hkind : visit.here.kind <;> rw [hkind] at h <;> first | rfl | cases h

/-- Nothing is looked at beneath a comment or a space. -/
theorem not_leads_of_separator (hkind : visit.here.kind = .lineComment ∨ visit.here.kind = .space) :
    ¬ visit.Leads scope part := by
  intro h
  have hseparator : ∀ {symbol}, ¬ Symbol.Opens visit.here scope visit.naming symbol := fun hopens =>
    hkind.elim hopens.not_separator.1 hopens.not_separator.2
  cases h with
  | beneath hclass _ => exact hseparator (Symbol.opens_of_classify hclass)
  | body _ hclosure _ => rcases hkind with hkind | hkind <;> cases hclosure.symm.trans hkind
  | parts _ _ hpart =>
    have htrivia : visit.here.kind.isTrivia := by rcases hkind with hkind | hkind <;> rw [hkind] <;> rfl
    rw [parts_eq_nil_of_isTrivia htrivia] at hpart
    cases hpart

end Visit

/-- No other place is reached beneath a comment or a space. -/
theorem Reached.eq_of_separator {naming : Symbol.Naming} {root outer : Cursor} (h : Reached scope ⟨naming, root⟩ visit)
    (houter : outer ∈ root.places) (hkind : outer.kind = .lineComment ∨ outer.kind = .space)
    (hbeneath : visit.here ∈ outer.places) : visit.here = outer := by
  rw [reached_iff] at h
  induction h with
  | refl => exact Cursor.eq_of_mem_places_of_depth_le hbeneath (Cursor.depth_le_of_mem_places houter)
  | @tail before part hbefore hleads ih =>
    by_contra hne
    have heq := ih (Cursor.parent_mem_places hleads.mem_children hbeneath hne)
    rw [← heq] at hkind
    exact Visit.not_leads_of_separator hkind hleads

/-! ## Collected comments -/

/-- Checking the places of the visits one after another comes to these line comments. -/
inductive Collects (scope : Scope) : List Visit → List Cursor → Prop
  | done : Collects scope [] []
  | entry {visit rest symbol inner later} (hclass : classify visit.here scope visit.naming = .ok (some symbol))
      (hinner : Collects scope visit.beneath inner) (hrest : Collects scope rest later) :
      Collects scope (visit :: rest) (inner ++ later)
  | comment {visit rest later} (hkind : visit.here.kind = .lineComment) (hrest : Collects scope rest later) :
      Collects scope (visit :: rest) (visit.here :: later)
  | function {visit rest body inner later} (hscope : scope = .symbol) (hkind : visit.here.kind = .closure)
      (hbody : Visit.body? visit.here.children = some body) (hinner : Collects scope [⟨.reference, body⟩] inner)
      (hrest : Collects scope rest later) : Collects scope (visit :: rest) (inner ++ later)
  | parts {visit rest inner later} (hclass : classify visit.here scope visit.naming = .ok none)
      (hkind : visit.here.kind ≠ .lineComment)
      (hbody : scope = .symbol → visit.here.kind = .closure → Visit.body? visit.here.children = none)
      (hinner : Collects scope (visit.parts scope) inner) (hrest : Collects scope rest later) :
      Collects scope (visit :: rest) (inner ++ later)

def ReachesComment (scope : Scope) (start : Visit) (here : Cursor) : Prop :=
  here.kind = .lineComment ∧ ∃ visit, Reached scope start visit ∧ visit.here = here

variable {visits parts rest : List Visit} {comments inner later : List Cursor} {here root : Cursor}

theorem ReachesComment.mem_places (h : ReachesComment scope start here) : here ∈ start.here.places := by
  obtain ⟨-, visit, hreached, rfl⟩ := h
  exact hreached.mem_places

theorem ReachesComment.eq_of_separator {naming : Symbol.Naming} {outer : Cursor}
    (h : ReachesComment scope ⟨naming, root⟩ here) (houter : outer ∈ root.places)
    (hkind : outer.kind = .lineComment ∨ outer.kind = .space) (hbeneath : here ∈ outer.places) : here = outer := by
  obtain ⟨-, visit, hreached, rfl⟩ := h
  exact hreached.eq_of_separator houter hkind hbeneath

theorem reachesComment_of_lineComment (hkind : visit.here.kind = .lineComment) :
    ReachesComment scope visit here ↔ here = visit.here := by
  constructor
  · rintro ⟨-, reached, hreached, rfl⟩
    rcases (reached_iff.1 hreached).cases_head with rfl | ⟨part, hleads, -⟩
    · rfl
    · exact absurd hleads (Visit.not_leads_of_separator (.inl hkind))
  · rintro rfl
    exact ⟨hkind, visit, .start, rfl⟩

/-- Whatever comments are reached from a visit that is none itself are reached from those that it leads to. -/
theorem reachesComment_iff (hkind : visit.here.kind ≠ .lineComment)
    (hleads : ∀ part, visit.Leads scope part ↔ part ∈ parts) :
    ReachesComment scope visit here ↔ ∃ part ∈ parts, ReachesComment scope part here := by
  constructor
  · rintro ⟨hcomment, reached, hreached, rfl⟩
    rcases (reached_iff.1 hreached).cases_head with rfl | ⟨part, hpart, hbeneath⟩
    · exact absurd hcomment hkind
    · exact ⟨part, (hleads part).1 hpart, hcomment, reached, reached_iff.2 hbeneath, rfl⟩
  · rintro ⟨part, hpart, hcomment, reached, hreached, hhere⟩
    exact ⟨hcomment, reached, reached_iff.2 (.head ((hleads part).2 hpart) (reached_iff.1 hreached)), hhere⟩

/-- **The comments that a walk comes to are those that are reached.** -/
theorem Collects.mem_iff (h : Collects scope visits comments) :
    here ∈ comments ↔ ∃ visit ∈ visits, ReachesComment scope visit here := by
  induction h with
  | done => simp
  | @entry visit rest symbol inner later hclass hinner hrest ihinner ihrest =>
    have hkind := (Symbol.opens_of_classify hclass).not_separator.1
    rw [List.exists_mem_cons_iff, reachesComment_iff hkind fun part => Visit.leads_iff_of_entry hclass,
      List.mem_append, ihinner, ihrest]
  | comment hkind hrest ihrest =>
    rw [List.exists_mem_cons_iff, reachesComment_of_lineComment hkind, List.mem_cons, ihrest]
  | @function visit rest body inner later hscope hkind hbody hinner hrest ihinner ihrest =>
    have hne : visit.here.kind ≠ .lineComment := by
      rw [hkind]
      nofun
    have hleads : ∀ part, visit.Leads scope part ↔ part ∈ [⟨.reference, body⟩] := fun part => by
      rw [Visit.leads_iff_of_function hscope hkind hbody, List.mem_singleton]
    rw [List.exists_mem_cons_iff, reachesComment_iff hne hleads, List.mem_append, ihinner, ihrest]
  | @parts visit rest inner later hclass hkind hbody hinner hrest ihinner ihrest =>
    rw [List.exists_mem_cons_iff, reachesComment_iff hkind fun part => Visit.leads_iff_of_parts hclass hbody,
      List.mem_append, ihinner, ihrest]

theorem Collects.exists_mem_places (h : Collects scope visits comments) (hhere : here ∈ comments) :
    ∃ visit ∈ visits, here ∈ visit.here.places := by
  obtain ⟨visit, hvisit, hcomment⟩ := h.mem_iff.1 hhere
  exact ⟨visit, hvisit, hcomment.mem_places⟩

/-! ## Each comment once -/

namespace Visit

/-- Whether two visits are at different places, unless they are at one and the same identifier. -/
def Apart (visit other : Visit) : Prop := visit.here = other.here → visit.here.kind = .ident

theorem Precedes.apart {other : Visit} (h : visit.Precedes other) : visit.Apart other := fun heq => absurd heq h.ne

theorem apart_loop (h : IsComplete here) : (loop here.children).Pairwise Apart := by
  obtain ⟨pattern, iterable, hpattern, hiterable, hprecedes⟩ := precedes_of_isComplete h
  have hfirst : (each .reference (iterable? here.children).toList ++
      each .variableBinding (pattern? here.children).toList) = [⟨.reference, iterable⟩, ⟨.variableBinding, pattern⟩] := by
    rw [hpattern, hiterable]
    rfl
  rw [loop, hfirst, List.pairwise_append]
  refine ⟨List.pairwise_pair.2 fun heq => absurd heq.symm hprecedes.ne,
    (pairwise_firstExpr _ _).imp Precedes.apart, fun part hpart body hbody => ?_⟩
  obtain ⟨place, hplace, hafter, rfl⟩ := mem_firstExpr.1 hbody
  have hbehind : iterable.Precedes place :=
    Cursor.precedes_of_offset_lt (mem_of_iterable? hiterable) (mem_of_body? hplace) (hafter _ (by rw [hiterable]; rfl))
  rcases List.mem_pair.1 hpart with rfl | rfl
  · exact Precedes.apart hbehind
  · exact Precedes.apart (Cursor.Precedes.trans hprecedes hbehind)

theorem apart_pair (here : Cursor) : (pair .parameter here.children).Pairwise Apart := by
  rw [pair, if_pos rfl, List.pairwise_append]
  refine ⟨(pairwise_firstExpr _ _).imp Precedes.apart, (pairwise_each_toList _).imp Precedes.apart,
    fun value _ name hname heq => ?_⟩
  obtain ⟨place, hplace, rfl⟩ := eq_of_mem_each_toList hname
  rw [heq]
  simpa using List.find?_some hplace

/-- What is looked at beneath a node are different places, except for the name of a pair that stands for its value too. -/
theorem apart_parts (hloop : visit.here.kind = .forLoop → IsComplete visit.here) :
    (visit.parts scope).Pairwise Apart := by
  by_cases hfor : visit.here.kind = .forLoop
  · rw [show visit.parts scope = loop visit.here.children by simp only [parts, hfor]]
    exact apart_loop (hloop hfor)
  by_cases hpair : visit.here.kind = .named ∧ visit.naming = .parameter
  · rw [show visit.parts scope = pair .parameter visit.here.children by simp only [parts, hpair.1, hpair.2]]
    exact apart_pair visit.here
  · exact (pairwise_parts hfor fun hkind hnaming => hpair ⟨hkind, hnaming⟩).imp Precedes.apart

end Visit

/-- Comments beneath a node are not among those of visits that are apart from it. -/
theorem nodup_append_of_apart {depth : Nat} (hparts : ∀ part ∈ parts, part.here ∈ visit.here.children)
    (hinner : Collects scope parts inner) (hrest : Collects scope rest later) (hvisit : visit.here.depth = depth)
    (hdepth : ∀ other ∈ rest, other.here.depth = depth) (hapart : ∀ other ∈ rest, visit.Apart other)
    (hident : visit.here.kind = .ident → visit.here.node.children = []) (hnodup : inner.Nodup) (hnodup' : later.Nodup) :
    (inner ++ later).Nodup := by
  refine List.nodup_append.2 ⟨hnodup, hnodup', fun here hhere here' hhere' heq => ?_⟩
  subst heq
  obtain ⟨part, hpart, hbeneath⟩ := hinner.exists_mem_places hhere
  obtain ⟨other, hother, hbeneath'⟩ := hrest.exists_mem_places hhere'
  have hchild := hparts part hpart
  have hsame := Cursor.eq_of_mem_places (Cursor.mem_places_of_mem_children hchild hbeneath) hbeneath'
    (hvisit.trans (hdepth other hother).symm)
  have hmem := Cursor.node_mem_children hchild
  rw [hident (hapart other hother hsame)] at hmem
  cases hmem

/-- **A walk comes to each comment once.** -/
theorem Collects.nodup (h : Collects scope visits comments)
    (hloops : ∀ loop ∈ root.places, loop.kind = .forLoop → IsComplete loop)
    (hidents : ∀ here ∈ root.places, here.kind = .ident → here.node.children = [])
    (hmem : ∀ visit ∈ visits, visit.here ∈ root.places) {depth : Nat} (hdepth : ∀ visit ∈ visits, visit.here.depth = depth)
    (hapart : visits.Pairwise Visit.Apart) : comments.Nodup := by
  induction h generalizing depth with
  | done => exact .nil
  | @entry visit rest symbol inner later hclass hinner hrest ihinner ihrest =>
    obtain ⟨hfirst, hrestmem⟩ := List.forall_mem_cons.1 hmem
    obtain ⟨hfirstdepth, hrestdepth⟩ := List.forall_mem_cons.1 hdepth
    obtain ⟨hfirstapart, hrestapart⟩ := List.pairwise_cons.1 hapart
    have hchildren : ∀ part ∈ visit.beneath, part.here ∈ visit.here.children := fun _ => Visit.mem_of_mem_beneath
    have hnodup := ihinner (fun part hpart => Cursor.mem_places_child hfirst (hchildren part hpart))
      (fun part hpart => Cursor.depth_of_mem_children (hchildren part hpart))
      (visit.pairwise_beneath.imp Visit.Precedes.apart)
    exact nodup_append_of_apart hchildren hinner hrest hfirstdepth hrestdepth hfirstapart (hidents _ hfirst) hnodup
      (ihrest hrestmem hrestdepth hrestapart)
  | @comment visit rest later hkind hrest ihrest =>
    obtain ⟨hfirst, hrestmem⟩ := List.forall_mem_cons.1 hmem
    obtain ⟨hfirstdepth, hrestdepth⟩ := List.forall_mem_cons.1 hdepth
    obtain ⟨hfirstapart, hrestapart⟩ := List.pairwise_cons.1 hapart
    refine List.nodup_cons.2 ⟨fun hagain => ?_, ihrest hrestmem hrestdepth hrestapart⟩
    obtain ⟨other, hother, hbeneath⟩ := hrest.exists_mem_places hagain
    have hsame := Cursor.eq_of_mem_places (Cursor.mem_places_self visit.here) hbeneath
      (hfirstdepth.trans (hrestdepth other hother).symm)
    cases hkind.symm.trans (hfirstapart other hother hsame)
  | @function visit rest body inner later hscope hkind hbody hinner hrest ihinner ihrest =>
    obtain ⟨hfirst, hrestmem⟩ := List.forall_mem_cons.1 hmem
    obtain ⟨hfirstdepth, hrestdepth⟩ := List.forall_mem_cons.1 hdepth
    obtain ⟨hfirstapart, hrestapart⟩ := List.pairwise_cons.1 hapart
    have hchild : body ∈ visit.here.children := Visit.mem_of_body? hbody
    have hnodup := ihinner (List.forall_mem_singleton.2 (Cursor.mem_places_child hfirst hchild))
      (List.forall_mem_singleton.2 (Cursor.depth_of_mem_children hchild)) (List.pairwise_singleton ..)
    exact nodup_append_of_apart (List.forall_mem_singleton.2 hchild) hinner hrest hfirstdepth hrestdepth hfirstapart
      (hidents _ hfirst) hnodup (ihrest hrestmem hrestdepth hrestapart)
  | @parts visit rest inner later hclass hkind hbody hinner hrest ihinner ihrest =>
    obtain ⟨hfirst, hrestmem⟩ := List.forall_mem_cons.1 hmem
    obtain ⟨hfirstdepth, hrestdepth⟩ := List.forall_mem_cons.1 hdepth
    obtain ⟨hfirstapart, hrestapart⟩ := List.pairwise_cons.1 hapart
    have hchildren : ∀ part ∈ visit.parts scope, part.here ∈ visit.here.children := fun _ => Visit.mem_of_mem_parts
    have hnodup := ihinner (fun part hpart => Cursor.mem_places_child hfirst (hchildren part hpart))
      (fun part hpart => Cursor.depth_of_mem_children (hchildren part hpart)) (Visit.apart_parts (hloops _ hfirst))
    exact nodup_append_of_apart hchildren hinner hrest hfirstdepth hrestdepth hfirstapart (hidents _ hfirst) hnodup
      (ihrest hrestmem hrestdepth hrestapart)

end DocOutline.Outline
