import Mathlib
import DocOutline.Proofs.Walk.Additions
import DocOutline.Proofs.Walk.Reach

/-!
# Sources of entries

Every entry but a run of comments comes from a node: a heading from its text, a label and a variable from themselves, a
function from its closure, a group from its block. As long as no node is looked at twice, a tree has at least as many
such nodes as its outline has entries of the sort (`countP_entries_le`). A loop that breaks off may take one node for
its pattern and for its body.
-/

namespace DocOutline

open DocOutline.Syntax (Cursor Node)

namespace Symbol

/-- What an entry comes from. -/
inductive Origin where
  | headingText
  | label
  | identifier
  | closure
  | block
deriving DecidableEq, Repr

/-- What entries of a kind come from. Runs of comments do not come from a single node. -/
def Kind.origin? : Kind → Option Origin
  | .heading _ => some .headingText
  | .named .label => some .label
  | .named .variable => some .identifier
  | .named .function => some .closure
  | .group => some .block
  | _ => none

/-- Whether the node at a place is of the given sort. -/
def Origin.isAt (origin : Origin) (here : Cursor) : Bool :=
  match origin with
  | headingText => here.kind == .markup && here.parent?.any (·.kind == .heading)
  | label => here.kind == .label
  | identifier => here.kind == .ident
  | closure => here.kind == .closure
  | block => isGroup .braced here.kind

/-- An entry comes from the place that opens it. -/
theorem isAt_of_opens {here : Cursor} {scope : Scope} {naming : Naming} {entry : Entry String} {origin : Origin}
    (h : Opens here scope naming entry) (hnaming : naming = .functionName → scope = .braced)
    (horigin : entry.kind.origin? = some origin) : origin.isAt here := by
  cases h with
  | label hscope hkind hname =>
    cases horigin
    exact beq_iff_eq.2 hkind
  | @ident name role hscope hkind hname hrole =>
    cases naming with
    | reference => cases hrole
    | functionName => rw [hnaming rfl] at hscope; cases hscope
    | variableBinding => cases hrole; cases horigin; exact beq_iff_eq.2 hkind
    | parameter => cases hrole; cases horigin; exact beq_iff_eq.2 hkind
  | group hscope hkind =>
    cases horigin
    rwa [hscope] at hkind
  | heading hkind hparent hheading htext =>
    cases horigin
    simp [Origin.isAt, hkind, hparent, hheading]

end Symbol

namespace Outline

open DocOutline.Symbol (Entry Origin Scope classify)

/-! ## What a visit can add -/

/-- The number of nodes of a sort at a place and beneath it. -/
def sources (origin : Origin) (here : Cursor) : Nat := here.places.countP origin.isAt

/-- How many entries of a sort a visit may add. An identifier that is merely mentioned adds none. -/
def price (origin : Origin) (visit : Visit) : Nat :=
  if visit.here.kind = .ident ∧ visit.naming = .reference then 0 else sources origin visit.here

variable {origin : Origin} {scope : Scope} {visit : Visit} {visits : List Visit} {here : Cursor}

theorem price_le (origin : Origin) (visit : Visit) : price origin visit ≤ sources origin visit.here := by
  unfold price
  split
  · exact Nat.zero_le _
  · exact Nat.le_refl _

theorem sum_sources_children (origin : Origin) (here : Cursor) :
    sources origin here = (if origin.isAt here then 1 else 0) + (here.children.map (sources origin)).sum :=
  here.countP_places origin.isAt

/-- Different children together have no more sources than all children. -/
theorem sum_price_le (hnodup : (visits.map Visit.here).Nodup) (hmem : ∀ visit ∈ visits, visit.here ∈ here.children) :
    (visits.map (price origin)).sum ≤ (here.children.map (sources origin)).sum := by
  have hsubset : visits.map Visit.here ⊆ here.children := by
    intro place hplace
    obtain ⟨visit, hvisit, rfl⟩ := List.mem_map.1 hplace
    exact hmem visit hvisit
  obtain ⟨places, hperm, hsublist⟩ := List.subperm_of_subset hnodup hsubset
  calc (visits.map (price origin)).sum
      ≤ (visits.map fun visit => sources origin visit.here).sum := List.sum_le_sum fun visit _ => price_le origin visit
    _ = ((visits.map Visit.here).map (sources origin)).sum := by rw [List.map_map]; rfl
    _ = (places.map (sources origin)).sum := (hperm.map _).sum_eq.symm
    _ ≤ (here.children.map (sources origin)).sum :=
      (hsublist.map _).sum_le_sum fun _ _ => Nat.zero_le _

theorem sum_price_le_of_pairwise (h : visits.Pairwise Visit.Precedes)
    (hmem : ∀ visit ∈ visits, visit.here ∈ here.children) :
    (visits.map (price origin)).sum ≤ (here.children.map (sources origin)).sum :=
  sum_price_le (List.pairwise_map.2 (h.imp Cursor.Precedes.ne)) hmem

/-- Where the name of a pair stands for its value too, it is merely mentioned as the value. -/
theorem sum_price_pair (origin : Origin) (here : Cursor) :
    ((Visit.pair .parameter here.children).map (price origin)).sum ≤ (here.children.map (sources origin)).sum := by
  have hmem : ∀ part ∈ Visit.pair .parameter here.children, part.here ∈ here.children :=
    fun _ => Visit.mem_of_mem_pair
  rw [Visit.pair, if_pos rfl] at hmem ⊢
  cases hname : here.children.find? (·.kind = .ident) with
  | none =>
    rw [hname] at hmem
    refine sum_price_le_of_pairwise ?_ hmem
    exact List.pairwise_append.2 ⟨Visit.pairwise_firstExpr _ _, .nil, fun _ _ _ hpart => absurd hpart List.not_mem_nil⟩
  | some name =>
    rw [hname] at hmem
    have hident : name.kind = .ident := by simpa using List.find?_some hname
    by_cases hsame : ⟨.reference, name⟩ ∈ Visit.firstExpr .reference none here.children.reverse
    · obtain ⟨value, hvalue, -, hvisit⟩ := Visit.mem_firstExpr.1 hsame
      cases hvisit
      have hzero : price origin ⟨.reference, name⟩ = 0 := if_pos ⟨hident, rfl⟩
      have hsingle : Visit.firstExpr .reference none here.children.reverse = [⟨.reference, name⟩] := by
        simp [Visit.firstExpr, hvalue]
      rw [hsingle, List.map_append, List.map_singleton, hzero, List.singleton_append, List.sum_cons, Nat.zero_add]
      refine sum_price_le_of_pairwise (List.pairwise_singleton ..) fun part hpart => ?_
      exact hmem part (List.mem_append_right _ hpart)
    · refine sum_price_le ?_ hmem
      rw [List.map_append, List.nodup_append]
      refine ⟨List.pairwise_map.2 ((Visit.pairwise_firstExpr _ _).imp Cursor.Precedes.ne), by simp [Visit.each], ?_⟩
      intro value hvalue other hother heq
      obtain ⟨part, hpart, rfl⟩ := List.mem_map.1 hvalue
      obtain ⟨place, hplace, hafter, rfl⟩ := Visit.mem_firstExpr.1 hpart
      obtain rfl : other = name := by simpa [Visit.each] using hother
      exact hsame (heq ▸ hpart)

def LooksOnce (loop : Cursor) : Prop := ((Visit.loop loop.children).map (·.here.index)).Nodup

instance (loop : Cursor) : Decidable (LooksOnce loop) := inferInstanceAs (Decidable (List.Nodup _))

theorem LooksOnce.nodup {loop : Cursor} (h : LooksOnce loop) : ((Visit.loop loop.children).map Visit.here).Nodup := by
  apply List.Nodup.of_map Cursor.index
  rw [List.map_map]
  exact h

/-- What is looked at beneath a node has no more sources than its children. -/
theorem sum_price_parts (hloop : visit.here.kind = .forLoop → LooksOnce visit.here) :
    ((visit.parts scope).map (price origin)).sum ≤ (visit.here.children.map (sources origin)).sum := by
  have hmem : ∀ part ∈ visit.parts scope, part.here ∈ visit.here.children := fun _ => Visit.mem_of_mem_parts
  by_cases hfor : visit.here.kind = .forLoop
  · have hparts : visit.parts scope = Visit.loop visit.here.children := by simp only [Visit.parts, hfor]
    rw [hparts] at hmem ⊢
    exact sum_price_le (hloop hfor).nodup hmem
  by_cases hpair : visit.here.kind = .named ∧ visit.naming = .parameter
  · have hparts : visit.parts scope = Visit.pair .parameter visit.here.children := by
      simp only [Visit.parts, hpair.1, hpair.2]
    rw [hparts]
    exact sum_price_pair origin visit.here
  · exact sum_price_le_of_pairwise (Visit.pairwise_parts hfor fun hkind hnaming => hpair ⟨hkind, hnaming⟩) hmem

/-- An identifier that is merely mentioned is no entry. -/
theorem price_eq_of_opens (origin : Origin) {symbol : Entry String}
    (h : Symbol.Opens visit.here scope visit.naming symbol) :
    price origin visit = sources origin visit.here := by
  refine if_neg fun hmention => ?_
  cases h with
  | label _ hkind _ => rw [hkind] at hmention; cases hmention.1
  | ident _ _ _ hrole => rw [hmention.2] at hrole; cases hrole
  | group _ hgroup =>
    rw [hmention.1] at hgroup
    cases scope <;> cases hgroup
  | heading hkind _ _ _ => rw [hkind] at hmention; cases hmention.1

/-! ## What a walk adds -/

/-- Whether no node of a tree is looked at twice in a way that matters: loops look at each child once, and where
identifiers are no entries they have nothing beneath them. -/
structure LookedAtOnce (scope : Scope) (root : Cursor) : Prop where
  loops : ∀ loop ∈ root.places, loop.kind = .forLoop → LooksOnce loop
  identifiers : scope = .braced → ∀ here ∈ root.places, here.kind = .ident → here.node.children = []

instance (scope : Scope) (root : Cursor) : Decidable (LookedAtOnce scope root) :=
  decidable_of_iff (_ ∧ _) ⟨fun h => ⟨h.1, h.2⟩, fun h => ⟨h.loops, h.identifiers⟩⟩

/-- An identifier that is visited without an entry has nothing beneath it. -/
theorem LookedAtOnce.parts_ident {root : Cursor} (h : LookedAtOnce scope root) (hvisit : visit.here ∈ root.places)
    (hclass : classify visit.here scope visit.naming = .ok none) (hkind : visit.here.kind = .ident) :
    visit.parts scope = [] := by
  suffices hchildren : visit.here.node.children = [] by
    rw [List.eq_nil_iff_forall_not_mem]
    intro part hpart
    have hmem := Cursor.node_mem_children (Visit.mem_of_mem_parts hpart)
    rw [hchildren] at hmem
    cases hmem
  cases scope with
  | braced => exact h.identifiers rfl _ hvisit hkind
  | symbol =>
    rw [classify, if_neg (by simp [hkind]), if_pos ⟨hkind, rfl⟩, Symbol.classifyIdent] at hclass
    split at hclass
    · next name hname => exact (Node.identName?_eq_some hname).1
    · cases hclass

/-- **A walk adds no more entries of a sort than its visits have sources.** -/
theorem Adds.countP_le {root : Cursor} {added : List (Entry String)} (h : Adds scope visits added)
    (honce : LookedAtOnce scope root) (hvisits : ∀ visit ∈ visits, Reached scope ⟨.reference, root⟩ visit) :
    added.countP (·.kind.origin? = some origin) ≤ (visits.map (price origin)).sum := by
  induction h with
  | done => exact Nat.zero_le _
  | @entry visit rest symbol inner later hclass hinner hrest ihinner ihrest =>
    obtain ⟨hfirst, hrestvisits⟩ := List.forall_mem_cons.1 hvisits
    have hopens := Symbol.opens_of_classify hclass
    have hbeneath := ihinner fun part hpart => hfirst.beneath hclass hpart
    have hchildren : (visit.beneath.map (price origin)).sum ≤ (visit.here.children.map (sources origin)).sum :=
      sum_price_le_of_pairwise visit.pairwise_beneath fun _ => Visit.mem_of_mem_beneath
    have hlater := ihrest hrestvisits
    have hprice := (price_eq_of_opens origin hopens).trans (sum_sources_children origin visit.here)
    rw [List.countP_cons, List.countP_append, List.map_cons, List.sum_cons, hprice]
    by_cases horigin : symbol.kind.origin? = some origin
    · have hat := Symbol.isAt_of_opens hopens hfirst.namingFits.functionName horigin
      simp only [horigin, decide_true, if_true, hat]
      omega
    · simp only [horigin, decide_false, Bool.false_eq_true, if_false]
      omega
  | @comment visit rest later hclass hkind hrest ihrest =>
    have hlater := ihrest (List.forall_mem_cons.1 hvisits).2
    have hnone : (commentEntry visit.here.offset visit.here).kind.origin? = none := rfl
    rw [List.countP_cons, hnone, List.map_cons, List.sum_cons]
    simp only [reduceCtorEq, decide_false, Bool.false_eq_true, if_false]
    omega
  | run hclass hkind hrest ihrest =>
    rw [List.map_cons, List.sum_cons]
    exact Nat.le_add_left_of_le (ihrest (List.forall_mem_cons.1 hvisits).2)
  | @function visit rest name body inner later hscope hkind hname hbody hinner hrest ihinner ihrest =>
    obtain ⟨hfirst, hrestvisits⟩ := List.forall_mem_cons.1 hvisits
    have hbodyvisits := ihinner (List.forall_mem_singleton.2 (hfirst.body hscope hkind hbody))
    have hchildren : ([⟨.reference, body⟩].map (price origin)).sum ≤ (visit.here.children.map (sources origin)).sum :=
      sum_price_le_of_pairwise (List.pairwise_singleton ..) (List.forall_mem_singleton.2 (Visit.mem_of_body? hbody))
    have hlater := ihrest hrestvisits
    have hprice : price origin visit = sources origin visit.here := if_neg (by simp [hkind])
    rw [List.countP_cons, List.countP_append, List.map_cons, List.sum_cons, hprice, sum_sources_children]
    by_cases horigin : origin = .closure
    · have hat : origin.isAt visit.here := by rw [horigin]; exact beq_iff_eq.2 hkind
      simp only [hat, if_true]
      split
      · omega
      · omega
    · have hne : ¬ (Symbol.Kind.named .function).origin? = some origin := by
        intro heq
        cases heq
        exact horigin rfl
      simp only [Symbol.entryAt, hne, decide_false, Bool.false_eq_true, if_false]
      omega
  | @parts visit rest inner later hclass hkind hbody hinner hrest ihinner ihrest =>
    obtain ⟨hfirst, hrestvisits⟩ := List.forall_mem_cons.1 hvisits
    have hparts := ihinner fun part hpart => hfirst.parts hclass hbody hpart
    have hlater := ihrest hrestvisits
    suffices hprice : ((visit.parts scope).map (price origin)).sum ≤ price origin visit by
      rw [List.countP_append, List.map_cons, List.sum_cons]
      omega
    by_cases hident : visit.here.kind = .ident
    · rw [honce.parts_ident hfirst.mem_places hclass hident]
      exact Nat.zero_le _
    · have hprice : price origin visit = sources origin visit.here := if_neg fun h => hident h.1
      rw [hprice, sum_sources_children]
      exact Nat.le_add_left_of_le (sum_price_parts fun hfor => honce.loops _ hfirst.mem_places hfor)

/-- **No node is the source of two entries.** Where nothing is looked at twice, an outline has no more headings, labels,
variables, functions and groups than its tree has headings with text, labels, identifiers, closures and blocks
(`_check_let_binding`, `_check_for_loop` and `_check_first_sub_expr`). -/
theorem countP_entries_le {root : Cursor} {builder : Builder} {forest : Forest}
    (honce : LookedAtOnce builder.scope root) (h : (Builder.run root builder).1 = .ok forest) (origin : Origin) :
    ((flattenAll 0 forest).map Prod.fst).countP (·.kind.origin? = some origin) ≤ root.places.countP origin.isAt := by
  obtain ⟨added, hadds, hentries⟩ := adds_of_run h
  have hcount : ∀ entries : List (Entry String), entries.countP (·.kind.origin? = some origin) =
      (entries.map Entry.lasting).countP (·.kind.origin? = some origin) := by
    intro entries
    simp only [List.countP_map, Function.comp_def, Entry.kind_lasting]
  calc ((flattenAll 0 forest).map Prod.fst).countP (·.kind.origin? = some origin)
      = added.countP (·.kind.origin? = some origin) := by rw [hcount, hentries, ← hcount]
    _ ≤ ([⟨.reference, root⟩].map (price origin)).sum :=
      hadds.countP_le honce (List.forall_mem_singleton.2 .start)
    _ ≤ root.places.countP origin.isAt := by
      rw [List.map_singleton, List.sum_singleton]
      exact price_le origin ⟨.reference, root⟩

/-- A loop over identifiers, with a label in its body. -/
def enumeration : Node :=
  .inner .markup
    [.leaf .hash "#",
      .inner .forLoop
        [.leaf .forKeyword "for", .leaf .space " ", .leaf .ident "x", .leaf .space " ", .leaf .inKeyword "in",
          .leaf .space " ", .leaf .ident "xs", .leaf .space " ",
          .inner .contentBlock
            [.leaf .leftBracket "[", .leaf .text "t", .leaf .space " ", .leaf .label "<a>",
              .leaf .rightBracket "]"]]]

def enumerationOutline : Forest := [mk ⟨"x", .named .variable, 5, 6⟩ [], mk ⟨"a", .named .label, 16, 19⟩ []]

theorem countP_entries_le_enumeration :
    LookedAtOnce .symbol (Cursor.root enumeration) ∧
      (Builder.run (Cursor.root enumeration) { scope := .symbol }).1 = .ok enumerationOutline ∧
      ((flattenAll 0 enumerationOutline).map Prod.fst).countP (·.kind.origin? = some .identifier) ≤
        (Cursor.root enumeration).places.countP Origin.identifier.isAt := by
  have honce : LookedAtOnce .symbol (Cursor.root enumeration) := by decide
  have hrun : (Builder.run (Cursor.root enumeration) { scope := .symbol }).1 = .ok enumerationOutline :=
    eq_ok_of_toOption (by decide +kernel)
  exact ⟨honce, hrun, countP_entries_le honce hrun .identifier⟩

/-- A loop that breaks off before its `in`. Its only expression is its pattern and its body. -/
def brokenLoop : Node :=
  .inner .markup
    [.leaf .hash "#",
      .inner .forLoop
        [.leaf .forKeyword "for", .leaf .space " ",
          .inner .contentBlock
            [.leaf .leftBracket "[", .leaf .text "t", .leaf .space " ", .leaf .label "<a>",
              .leaf .rightBracket "]"]]]

def brokenLoopOutline : Forest := [mk ⟨"a", .named .label, 8, 11⟩ [], mk ⟨"a", .named .label, 8, 11⟩ []]

/-- In a loop without `in`, a single label becomes two entries. -/
theorem countP_places_lt_brokenLoop :
    (Builder.run (Cursor.root brokenLoop) { scope := .symbol }).1 = .ok brokenLoopOutline ∧
      (Cursor.root brokenLoop).places.countP Origin.label.isAt <
        ((flattenAll 0 brokenLoopOutline).map Prod.fst).countP (·.kind.origin? = some .label) := by
  constructor
  · exact eq_ok_of_toOption (by decide +kernel)
  · decide

end Outline

end DocOutline
