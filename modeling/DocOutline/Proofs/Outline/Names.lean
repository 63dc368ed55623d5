import DocOutline.Proofs.Walk.Additions

/-!
# Names at their ranges

The range of an entry is found by adding up lengths on the way down the tree, its name is taken from the text of a
single node. The two fit together: at the range of a heading or a variable the source reads its name, at the range of a
label its name in angle brackets, and at the range of a function it begins with its name, if it has one.

Main statement `name_at_range`, for both scopes and every tree.
-/

namespace DocOutline

open DocOutline.Syntax (Cursor Node)
open DocOutline.Text (Bytes Spans decode? encode slice)

namespace Symbol

def Entry.bytes (source : String) (entry : Entry String) : Bytes :=
  slice (encode source) entry.start.toNat entry.stop.toNat

def Entry.Reads (source : String) (entry : Entry String) (text : String) : Prop :=
  ∃ start stop : Nat, entry.start = start ∧ entry.stop = stop ∧ Spans source start stop text

/-- What the text in the range of an entry says about its name. -/
def Kind.Shows (kind : Kind) (name text : String) : Prop :=
  match kind with
  | .heading _ | .named .variable => text = name
  | .named .label => text = "<" ++ name ++ ">"
  | .named .function => name = Outline.anonymousName ∨ ∃ rest, text = name ++ rest
  | _ => True

/-- Whether the name of an entry stands where it should. A run of comments has no name. -/
def Entry.NameStands (source : String) (entry : Entry String) : Prop :=
  entry.kind = .commentRun ∨ ∃ text, entry.Reads source text ∧ entry.kind.Shows entry.name text

/-- What the range of an entry has to do with its name. Ranges of runs of comments are left out. -/
structure Entry.NamedAtRange (source : String) (entry : Entry String) : Prop where
  bounds : entry.kind ≠ .commentRun →
    0 ≤ entry.start ∧ entry.start ≤ entry.stop ∧ entry.stop ≤ source.utf8ByteSize
  ofHeading : ∀ level, entry.kind = .heading level → decode? (entry.bytes source) = .ok entry.name
  ofVariable : entry.kind = .named .variable → decode? (entry.bytes source) = .ok entry.name
  ofLabel : entry.kind = .named .label → decode? (entry.bytes source) = .ok ("<" ++ entry.name ++ ">")
  ofFunction : entry.kind = .named .function → entry.name ≠ Outline.anonymousName →
    encode entry.name <+: entry.bytes source

variable {source text : String} {entry : Entry String}

theorem Entry.Reads.decode (h : entry.Reads source text) : decode? (entry.bytes source) = .ok text := by
  obtain ⟨start, stop, hstart, hstop, hspans⟩ := h
  rw [bytes, hstart, hstop, Int.toNat_natCast, Int.toNat_natCast, hspans.slice_eq, Text.decode?_encode]

theorem Entry.Reads.bounds (h : entry.Reads source text) :
    0 ≤ entry.start ∧ entry.start ≤ entry.stop ∧ entry.stop ≤ source.utf8ByteSize := by
  obtain ⟨start, stop, hstart, hstop, hspans⟩ := h
  have hle := hspans.stop_le
  have hstop' := hspans.stop_eq
  omega

theorem Entry.Reads.isPrefix {name rest : String} (h : entry.Reads source (name ++ rest)) :
    encode name <+: entry.bytes source := by
  obtain ⟨start, stop, hstart, hstop, hspans⟩ := h
  rw [bytes, hstart, hstop, Int.toNat_natCast, Int.toNat_natCast, hspans.slice_eq, Text.encode_append]
  exact List.prefix_append ..

theorem Entry.NameStands.namedAtRange (h : entry.NameStands source) : entry.NamedAtRange source := by
  rcases h with hcomment | ⟨text, hreads, hshows⟩
  · constructor <;> simp [hcomment]
  refine ⟨fun _ => hreads.bounds, fun level hkind => ?_, fun hkind => ?_, fun hkind => ?_, fun hkind hname => ?_⟩
  · rw [hkind] at hshows
    rw [hreads.decode, show text = entry.name from hshows]
  · rw [hkind] at hshows
    rw [hreads.decode, show text = entry.name from hshows]
  · rw [hkind] at hshows
    rw [hreads.decode, show text = "<" ++ entry.name ++ ">" from hshows]
  · rw [hkind] at hshows
    obtain ⟨rest, rfl⟩ := hshows.resolve_left hname
    exact hreads.isPrefix

theorem Opens.shows {here : Cursor} {scope : Scope} {naming : Naming} (h : Opens here scope naming entry) :
    entry.kind.Shows entry.name here.fullText := by
  cases h with
  | label hscope hkind hname => exact (Node.labelName?_eq_some hname).2.1
  | @ident name role hscope hkind hname hrole =>
    have htext : here.fullText = name := (Node.identName?_eq_some hname).2.1
    cases naming with
    | reference => cases hrole
    | functionName =>
      cases hrole
      exact .inr ⟨"", by rw [String.append_empty]; exact htext⟩
    | variableBinding => cases hrole; exact htext
    | parameter => cases hrole; exact htext
  | group hscope hkind => exact trivial
  | heading hkind hparent hheading htext => exact rfl

/-- An entry that covers the node at a place covers its text. -/
theorem Opens.reads {here : Cursor} {scope : Scope} {naming : Naming} (h : Opens here scope naming entry)
    (hspans : Spans source here.offset here.stop here.fullText) : entry.Reads source here.fullText := by
  cases h with
  | label _ _ _ => exact ⟨here.offset, here.stop, rfl, rfl, hspans⟩
  | ident _ _ _ _ => exact ⟨here.offset, here.stop, rfl, rfl, hspans⟩
  | group _ _ => exact ⟨here.offset, here.stop, rfl, rfl, hspans⟩
  | heading _ _ _ _ => exact ⟨here.offset, here.stop, rfl, rfl, hspans⟩

end Symbol

namespace Outline

open DocOutline.Symbol (Entry)

/-- A closure begins with the name of its function. -/
theorem fullText_of_functionName? {closure : Cursor} {name : String} (h : functionName? closure = some name) :
    name = anonymousName ∨ ∃ rest, closure.fullText = name ++ rest := by
  unfold functionName? at h
  split at h
  · next first others hchildren =>
    split at h
    · right
      rw [Cursor.children] at hchildren
      cases hnodes : closure.node.children with
      | nil => rw [hnodes] at hchildren; cases hchildren
      | cons node nodes =>
        rw [hnodes] at hchildren
        cases hchildren
        refine ⟨Node.fullTexts nodes, ?_⟩
        rw [Cursor.fullText_eq closure (by rw [hnodes]; exact List.cons_ne_nil node nodes), hnodes, Node.fullTexts]
        rw [show node.fullText = name from (Node.identName?_eq_some h).2.1]
    · cases h
      exact .inl rfl
  · cases h
    exact .inl rfl

/-- Wherever the source reads what the node at a place covers, names stand where they should. -/
theorem establishes_nameStands (source : String) (scope : Symbol.Scope) :
    Establishes scope (fun visit => Spans source visit.here.offset visit.here.stop visit.here.fullText)
      (Entry.NameStands source) where
  beneath hspans _ hpart := Cursor.spans_children hspans _ (Visit.mem_of_mem_beneath hpart)
  parts hspans _ hpart := Cursor.spans_children hspans _ (Visit.mem_of_mem_parts hpart)
  body hspans _ hbody := Cursor.spans_children hspans _ (Visit.mem_of_body? hbody)
  entry hspans hclass :=
    have hopens := Symbol.opens_of_classify hclass
    .inr ⟨_, hopens.reads hspans, hopens.shows⟩
  function {visit _} hspans _ _ hname :=
    .inr ⟨_, ⟨visit.here.offset, visit.here.stop, rfl, rfl, hspans⟩, fullText_of_functionName? hname⟩
  comment _ _ := .inl rfl
  run _ _ _ _ := .inl rfl

/-- **Names stand at their ranges.** In every outline of a tree, the bytes of the source in the range of a heading or a
variable decode to its name, those of a label to its name in angle brackets, and those of a function begin with its
name, unless it is anonymous (`classify` and `_check_closure`). -/
theorem name_at_range {tree : Node} {builder : Builder} {forest : Forest}
    (h : (Builder.run (Cursor.root tree) builder).1 = .ok forest) :
    ∀ entry ∈ (flattenAll 0 forest).map Prod.fst, entry.NamedAtRange tree.fullText := by
  intro entry hentry
  have hstands := forall_entries_of_run (establishes_nameStands tree.fullText builder.scope) (Cursor.spans_root tree) h
    entry hentry
  exact hstands.namedAtRange

/-- A heading with a label, and the declaration of a function. -/
def note : Node :=
  .inner .markup
    [.inner .heading [.leaf .headingMarker "=", .leaf .space " ", .inner .markup [.leaf .text "É"]],
      .leaf .space " ", .leaf .label "<é>", .leaf .parbreak "\n\n", .leaf .hash "#",
      .inner .letBinding
        [.leaf .letKeyword "let", .leaf .space " ",
          .inner .closure
            [.leaf .ident "f", .inner .params [.leaf .leftParen "(", .leaf .ident "x", .leaf .rightParen ")"],
              .leaf .space " ", .leaf .eq "=", .leaf .space " ", .leaf .ident "x"]]]

def noteOutline : Forest :=
  [mk ⟨"É", .heading 1, 2, 4⟩ [mk ⟨"é", .named .label, 5, 9⟩ [], mk ⟨"f", .named .function, 16, 24⟩ []]]

theorem name_at_range_note :
    (Builder.run (Cursor.root note) { scope := .symbol, depth := 3 }).1 = .ok noteOutline ∧
      ∀ entry ∈ (flattenAll 0 noteOutline).map Prod.fst, entry.NamedAtRange note.fullText := by
  have hrun : (Builder.run (Cursor.root note) { scope := .symbol, depth := 3 }).1 = .ok noteOutline :=
    eq_ok_of_toOption (by decide +kernel)
  exact ⟨hrun, name_at_range hrun⟩

end Outline

end DocOutline
