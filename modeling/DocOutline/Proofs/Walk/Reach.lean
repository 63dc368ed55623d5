import DocOutline.Proofs.Symbol.Opening
import DocOutline.Proofs.Syntax.Places
import DocOutline.Proofs.Walk.Derivation

/-!
# Reached places

Which places a walk visits, in which naming contexts, and in which order.
-/

namespace DocOutline.Outline

open DocOutline.Symbol (Entry Naming Scope classify)
open DocOutline.Syntax (Cursor)

/-! ## What a walk reaches

Which places a walk visits, and in which naming contexts, does not depend on the frames: it follows from the tree alone
(`Reached`). So the naming context of a visit says where its place is: a variable is bound only in the pattern of a
declaration or among parameters, and where functions are entries no identifier is visited as the name of one
(`Reached.namingFits`).
-/

/-! ### Parts -/

/-- The ways in which a place is looked at right beneath a node that is no entry by itself. -/
inductive Visit.PartOf (visit : Visit) : Visit → Prop
  | beneath {place} (hplace : place ∈ visit.here.children) :
      PartOf visit ⟨namingBeneath visit.here.kind visit.naming, place⟩
  /-- A value, what a loop goes through, or a body. -/
  | mentioned {place} (hplace : place ∈ visit.here.children) : PartOf visit ⟨.reference, place⟩
  | pattern {place} (hkind : visit.here.kind = .letBinding ∨ visit.here.kind = .forLoop)
      (hpattern : pattern? visit.here.children = some place) : PartOf visit ⟨.variableBinding, place⟩
  /-- The name of a pair among parameters. -/
  | parameter {place} (hplace : place ∈ visit.here.children) (hident : place.kind = .ident)
      (hnaming : visit.naming = .parameter) : PartOf visit ⟨.variableBinding, place⟩
  /-- The name of a closure. -/
  | name {place} (hplace : place ∈ visit.here.children) (hident : place.kind = .ident)
      (hkind : visit.here.kind = .closure) : PartOf visit ⟨.functionName, place⟩

namespace Visit

variable {visit part : Visit} {scope : Scope} {naming : Naming}

theorem eq_of_mem_each_toList {place? : Option Cursor} (h : part ∈ each naming place?.toList) :
    ∃ place, place? = some place ∧ part = ⟨naming, place⟩ := by
  obtain ⟨place, hplace, rfl⟩ := List.mem_map.1 h
  exact ⟨place, Option.mem_toList.1 hplace, rfl⟩

theorem naming_of_mem_firstExpr {after : Option Nat} {places : List Cursor} (h : part ∈ firstExpr naming after places) :
    part.naming = naming := by
  unfold firstExpr at h
  split at h
  · split at h
    · cases h
    · rw [List.mem_singleton.1 h]
  · cases h

theorem partOf_of_naming_eq (hpart : part.here ∈ visit.here.children)
    (h : part.naming = namingBeneath visit.here.kind visit.naming) : visit.PartOf part := by
  obtain ⟨naming, place⟩ := part
  obtain rfl : naming = _ := h
  exact .beneath hpart

theorem partOf_of_reference (hpart : part.here ∈ visit.here.children) (h : part.naming = .reference) :
    visit.PartOf part := by
  obtain ⟨naming, place⟩ := part
  obtain rfl : naming = _ := h
  exact .mentioned hpart

theorem partOf_of_mem_beneath (h : part ∈ visit.beneath) : visit.PartOf part := by
  obtain ⟨place, hplace, rfl⟩ := List.mem_map.1 h
  exact .beneath hplace

theorem partOf_of_mem_binding (hkind : visit.here.kind = .letBinding) (h : part ∈ binding visit.here.children) :
    visit.PartOf part := by
  have hchild := mem_of_mem_binding h
  unfold binding at h
  split at h
  · obtain ⟨place, -, rfl⟩ := eq_of_mem_each_toList h
    exact .mentioned hchild
  · rcases List.mem_append.1 h with h | h
    · obtain ⟨place, hpattern, rfl⟩ := eq_of_mem_each_toList h
      exact .pattern (.inl hkind) hpattern
    · exact partOf_of_reference hchild (naming_of_mem_firstExpr h)

theorem partOf_of_mem_loop (hkind : visit.here.kind = .forLoop) (h : part ∈ loop visit.here.children) :
    visit.PartOf part := by
  have hchild := mem_of_mem_loop h
  rcases List.mem_append.1 h with h | h
  · rcases List.mem_append.1 h with h | h
    · obtain ⟨place, -, rfl⟩ := eq_of_mem_each_toList h
      exact .mentioned hchild
    · obtain ⟨place, hpattern, rfl⟩ := eq_of_mem_each_toList h
      exact .pattern (.inr hkind) hpattern
  · exact partOf_of_reference hchild (naming_of_mem_firstExpr h)

theorem partOf_of_mem_pair (hkind : visit.here.kind = .named) (h : part ∈ pair visit.naming visit.here.children) :
    visit.PartOf part := by
  have hchild := mem_of_mem_pair h
  unfold pair at h
  split at h
  · next hnaming =>
    rcases List.mem_append.1 h with h | h
    · exact partOf_of_reference hchild (naming_of_mem_firstExpr h)
    · obtain ⟨place, hident, rfl⟩ := eq_of_mem_each_toList h
      exact .parameter hchild (by simpa using List.find?_some hident) hnaming
  · refine partOf_of_naming_eq hchild ?_
    rw [naming_of_mem_firstExpr h, hkind]
    rfl

theorem partOf_of_mem_closureName (hkind : visit.here.kind = .closure)
    (h : part ∈ closureName visit.here.children) : visit.PartOf part := by
  have hchild := mem_of_mem_closureName h
  obtain ⟨place, hfirst, rfl⟩ := eq_of_mem_each_toList h
  exact .name hchild (by simpa using (Option.filter_eq_some_iff.1 hfirst).2) hkind

theorem partOf_of_mem_parts (h : part ∈ visit.parts scope) : visit.PartOf part := by
  have hchild := mem_of_mem_parts h
  unfold parts at h
  split at h
  · next hkind => exact partOf_of_mem_binding hkind h
  · next hkind => exact partOf_of_mem_loop hkind h
  · next hkind =>
    split at h
    · exact partOf_of_mem_closureName hkind h
    · exact partOf_of_mem_beneath h
  · next hkind =>
    refine partOf_of_naming_eq hchild ?_
    rw [naming_of_mem_firstExpr h, hkind]
    rfl
  · next hkind => exact partOf_of_mem_pair hkind h
  · cases h
  · split at h
    · cases h
    · exact partOf_of_mem_beneath h

/-- A closure without a body has no name either, since the name would count as the body. -/
theorem closureName_eq_nil {places : List Cursor} (h : body? places = none) : closureName places = [] := by
  rw [List.eq_nil_iff_forall_not_mem]
  intro part hpart
  obtain ⟨place, hfirst, -⟩ := eq_of_mem_each_toList hpart
  obtain ⟨hhead, hident⟩ := Option.filter_eq_some_iff.1 hfirst
  have hnone := List.find?_eq_none.1 h place (List.mem_reverse.2 (List.mem_of_head? hhead))
  rw [of_decide_eq_true hident] at hnone
  exact hnone rfl

theorem parts_closure_eq_nil (hkind : visit.here.kind = .closure) (hbody : body? visit.here.children = none) :
    visit.parts .symbol = [] := by
  unfold parts
  rw [hkind]
  exact closureName_eq_nil hbody

end Visit

/-! ### Reached visits -/

/-- The visits that belong to a walk from `start` on. -/
inductive Reached (scope : Scope) (start : Visit) : Visit → Prop
  | start : Reached scope start start
  | beneath {visit symbol part} (hreached : Reached scope start visit)
      (hclass : classify visit.here scope visit.naming = .ok (some symbol)) (hpart : part ∈ visit.beneath) :
      Reached scope start part
  | body {visit body} (hreached : Reached scope start visit) (hscope : scope = .symbol)
      (hkind : visit.here.kind = .closure) (hbody : Visit.body? visit.here.children = some body) :
      Reached scope start ⟨.reference, body⟩
  | parts {visit part} (hreached : Reached scope start visit)
      (hclass : classify visit.here scope visit.naming = .ok none)
      (hbody : scope = .symbol → visit.here.kind = .closure → Visit.body? visit.here.children = none)
      (hpart : part ∈ visit.parts scope) : Reached scope start part

namespace Reached

variable {scope : Scope} {start visit : Visit}

theorem mem_places (h : Reached scope start visit) : visit.here ∈ start.here.places := by
  induction h with
  | start => exact Cursor.mem_places_self _
  | beneath _ _ hpart ih => exact Cursor.mem_places_child ih (Visit.mem_of_mem_beneath hpart)
  | body _ _ _ hbody ih => exact Cursor.mem_places_child ih (Visit.mem_of_body? hbody)
  | parts _ _ _ hpart ih => exact Cursor.mem_places_child ih (Visit.mem_of_mem_parts hpart)

end Reached

/-! ### Naming contexts -/

/-- Whether a place holds names that are bound: the pattern of a declaration, or a list of parameters. -/
def Binds (root holder : Cursor) : Prop :=
  holder.kind = .params ∨ ∃ declaration ∈ root.places,
    (declaration.kind = .letBinding ∨ declaration.kind = .forLoop) ∧
      Visit.pattern? declaration.children = some holder

/-- What the naming context of a visit says about the place. -/
structure Visit.NamingFits (scope : Scope) (root : Cursor) (visit : Visit) : Prop where
  functionName : visit.naming = .functionName → scope = .braced
  variableBinding : visit.naming = .variableBinding →
    ∃ holder ∈ root.places, Binds root holder ∧ visit.here ∈ holder.places
  parameter : visit.naming = .parameter →
    ∃ holder ∈ root.places, holder.kind = .params ∧ visit.here ∈ holder.places

namespace Visit.NamingFits

variable {scope : Scope} {root place : Cursor} {visit part : Visit}

theorem reference (scope : Scope) (root place : Cursor) : NamingFits scope root ⟨.reference, place⟩ :=
  ⟨nofun, nofun, nofun⟩

theorem child (h : visit.NamingFits scope root) (hplace : place ∈ visit.here.children) :
    NamingFits scope root ⟨visit.naming, place⟩ := by
  refine ⟨h.functionName, fun hnaming => ?_, fun hnaming => ?_⟩
  · obtain ⟨holder, hholder, hbinds, hhere⟩ := h.variableBinding hnaming
    exact ⟨holder, hholder, hbinds, Cursor.mem_places_child hhere hplace⟩
  · obtain ⟨holder, hholder, hkind, hhere⟩ := h.parameter hnaming
    exact ⟨holder, hholder, hkind, Cursor.mem_places_child hhere hplace⟩

theorem beneath (h : visit.NamingFits scope root) (hhere : visit.here ∈ root.places)
    (hclosure : visit.here.kind = .closure → scope = .braced) (hplace : place ∈ visit.here.children) :
    NamingFits scope root ⟨namingBeneath visit.here.kind visit.naming, place⟩ := by
  unfold namingBeneath
  split
  · exact reference scope root place
  · exact reference scope root place
  · next hkind => exact ⟨fun _ => hclosure hkind, nofun, nofun⟩
  · next hkind =>
    exact ⟨nofun, nofun, fun _ => ⟨visit.here, hhere, hkind, Cursor.mem_places_child (Cursor.mem_places_self _) hplace⟩⟩
  · exact h.child hplace

theorem partOf (h : visit.NamingFits scope root) (hhere : visit.here ∈ root.places)
    (hclosure : visit.here.kind = .closure → scope = .braced) (hpart : visit.PartOf part) :
    part.NamingFits scope root := by
  cases hpart with
  | beneath hplace => exact h.beneath hhere hclosure hplace
  | mentioned hplace => exact reference scope root _
  | @pattern place hkind hpattern =>
    have hholder : place ∈ root.places := Cursor.mem_places_child hhere (mem_of_pattern? hpattern)
    exact ⟨nofun, fun _ => ⟨place, hholder, .inr ⟨_, hhere, hkind, hpattern⟩, Cursor.mem_places_self place⟩, nofun⟩
  | parameter hplace hident hnaming =>
    obtain ⟨holder, hholder, hkind, hvisit⟩ := h.parameter hnaming
    exact ⟨nofun, fun _ => ⟨holder, hholder, .inl hkind, Cursor.mem_places_child hvisit hplace⟩, nofun⟩
  | name hplace hident hkind => exact ⟨fun _ => hclosure hkind, nofun, nofun⟩

end Visit.NamingFits

/-- **Naming contexts say where a place is.** -/
theorem Reached.namingFits {scope : Scope} {root : Cursor} {visit : Visit}
    (h : Reached scope ⟨.reference, root⟩ visit) : visit.NamingFits scope root := by
  induction h with
  | start => exact .reference scope root root
  | @beneath visit symbol part hreached hclass hpart ih =>
    refine ih.partOf hreached.mem_places (fun hkind => ?_) (Visit.partOf_of_mem_beneath hpart)
    rw [Symbol.classify_closure hkind] at hclass
    cases hclass
  | body => exact .reference scope root _
  | @parts visit part hreached hclass hbody hpart ih =>
    refine ih.partOf hreached.mem_places (fun hkind => ?_) (Visit.partOf_of_mem_parts hpart)
    -- Where functions are entries, a closure without a body has no parts.
    cases scope with
    | braced => rfl
    | symbol =>
      rw [Visit.parts_closure_eq_nil hkind (hbody rfl hkind)] at hpart
      cases hpart

/-! ## The order of parts

What is looked at beneath a node is looked at from left to right, with two exceptions: a loop looks at what it goes
through before it looks at its pattern, and a pair among parameters looks at its value first (`pairwise_parts`). In a
complete loop the pattern stands in front of what the loop goes through (`precedes_of_isComplete`).
-/

namespace Visit

/-- Whether one visit is at a sibling in front of that of another one. -/
def Precedes (visit other : Visit) : Prop := visit.here.Precedes other.here

variable {here : Cursor} {naming : Naming} {scope : Scope}

theorem pairwise_each {places : List Cursor} (h : places.Pairwise Cursor.Precedes) :
    (each naming places).Pairwise Precedes := List.pairwise_map.2 h

theorem pairwise_each_toList (place? : Option Cursor) : (each naming place?.toList).Pairwise Precedes := by
  cases place? with
  | none => exact .nil
  | some place => exact List.pairwise_singleton ..

/-- The first expression is looked at, unless it does not start behind the given offset. -/
theorem mem_firstExpr {after : Option Nat} {places : List Cursor} {part : Visit} :
    part ∈ firstExpr naming after places ↔
      ∃ place, places.find? (·.kind.isExpr) = some place ∧ (∀ offset, after = some offset → offset < place.offset) ∧
        part = ⟨naming, place⟩ := by
  unfold firstExpr
  split
  · next place hfind =>
    cases after with
    | none => simp [hfind]
    | some offset =>
      by_cases h : place.offset ≤ offset
      · simp [hfind, h, Nat.not_lt_of_le h]
      · simp [hfind, h, Nat.lt_of_not_le h]
  · next hfind => simp [hfind]

theorem pairwise_firstExpr (after : Option Nat) (places : List Cursor) :
    (firstExpr naming after places).Pairwise Precedes := by
  unfold firstExpr
  split
  · split
    · exact .nil
    · exact List.pairwise_singleton ..
  · exact .nil

/-- The pattern of a binding stands in front of its value. -/
theorem pairwise_binding (here : Cursor) : (binding here.children).Pairwise Precedes := by
  unfold binding
  split
  · exact pairwise_each_toList _
  · refine List.pairwise_append.2 ⟨pairwise_each_toList _, pairwise_firstExpr _ _, fun part hpart value hvalue => ?_⟩
    obtain ⟨pattern, hpattern, rfl⟩ := eq_of_mem_each_toList hpart
    obtain ⟨place, hplace, hafter, rfl⟩ := mem_firstExpr.1 hvalue
    exact Cursor.precedes_of_offset_lt (mem_of_pattern? hpattern) (mem_of_body? hplace)
      (hafter _ (by rw [hpattern]; rfl))

theorem pairwise_beneath (visit : Visit) : visit.beneath.Pairwise Precedes :=
  pairwise_each visit.here.pairwise_children

/-- **What is looked at beneath a node is looked at from left to right**, except in loops and in pairs among
parameters. -/
theorem pairwise_parts {visit : Visit} (hloop : visit.here.kind ≠ .forLoop)
    (hpair : visit.here.kind = .named → visit.naming ≠ .parameter) : (visit.parts scope).Pairwise Precedes := by
  unfold parts
  split
  · exact pairwise_binding visit.here
  · next hkind => exact absurd hkind hloop
  · split
    · exact pairwise_each_toList _
    · exact pairwise_beneath visit
  · exact pairwise_firstExpr _ _
  · next hkind =>
    rw [pair, if_neg (hpair hkind)]
    exact pairwise_firstExpr _ _
  · exact .nil
  · split
    · exact .nil
    · exact pairwise_beneath visit

end Visit

/-! ### Loops -/

/-- Whether a loop has a pattern in front of its `in`, and an expression behind it. -/
def IsComplete (loop : Cursor) : Prop :=
  (loop.children.takeWhile (·.kind != .inKeyword)).any (·.kind.isPattern) ∧
    (loop.children.dropWhile (·.kind != .inKeyword)).any (·.kind.isExpr)

instance (loop : Cursor) : Decidable (IsComplete loop) := inferInstanceAs (Decidable (_ ∧ _))

/-- In a complete loop, the pattern stands in front of what the loop goes through. -/
theorem precedes_of_isComplete {loop : Cursor} (h : IsComplete loop) :
    ∃ pattern iterable, Visit.pattern? loop.children = some pattern ∧ Visit.iterable? loop.children = some iterable ∧
      pattern.Precedes iterable := by
  obtain ⟨hfront, hbehind⟩ := h
  obtain ⟨pattern, hpattern⟩ := Option.isSome_iff_exists.1 (List.find?_isSome.2 (List.any_eq_true.1 hfront))
  obtain ⟨iterable, hiterable⟩ := Option.isSome_iff_exists.1 (List.find?_isSome.2 (List.any_eq_true.1 hbehind))
  have hsplit := List.takeWhile_append_dropWhile (p := (·.kind != .inKeyword)) (l := loop.children)
  refine ⟨pattern, iterable, ?_, hiterable, ?_⟩
  · rw [Visit.pattern?, ← hsplit, List.find?_append, hpattern]
    rfl
  · have hpairwise := loop.pairwise_children
    rw [← hsplit, List.pairwise_append] at hpairwise
    exact hpairwise.2.2 pattern (List.mem_of_find?_eq_some hpattern) iterable (List.mem_of_find?_eq_some hiterable)

end DocOutline.Outline
