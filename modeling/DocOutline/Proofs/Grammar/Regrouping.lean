import DocOutline.Grammar.Lowering

/-!
# Regrouping moves no text

Closures, parameters and patterns are regrouped by putting nodes into others and by changing their kinds, which leaves
the text of consecutive nodes as it is. There is one exception: a call in a binding is taken apart into its children, so a
call that has text but no children loses it. `Covered` keeps these out.

Main statement `fullTexts_regrouped`: this is the only way in which regrouping changes the text.
-/

namespace DocOutline.Grammar

open DocOutline.Syntax (Kind Node)
open DocOutline.Syntax.Node (fullTexts)

/-! ## Parameters and patterns -/

@[simp] theorem fullText_withKind (kind : Kind) (node : Node) : (node.withKind kind).fullText = node.fullText := by
  cases node <;> rfl

@[simp] theorem fullText_asParams (node : Node) : (asParams node).fullText = node.fullText := by
  unfold asParams
  split
  · simp [Node.fullText, fullTexts]
  · exact fullText_withKind _ _

@[simp] theorem fullTexts_wrapParams (nodes : List Node) : fullTexts (wrapParams nodes) = fullTexts nodes := by
  induction nodes with
  | nil => rfl
  | cons node nodes ih =>
    rw [wrapParams]
    split
    · rfl
    split
    · simp only [fullTexts, fullText_asParams]
    · simp only [fullTexts, ih]

@[simp] theorem fullTexts_markDestructuring (nodes : List Node) :
    fullTexts (markDestructuring nodes) = fullTexts nodes := by
  induction nodes with
  | nil => rfl
  | cons node nodes ih =>
    rw [markDestructuring]
    split
    · rfl
    split
    · simp only [fullTexts, fullText_withKind]
    · simp only [fullTexts, ih]

/-! ## Closures -/

theorem fullText_signaturePart (node : Node) : (signaturePart node).fullText = node.fullText := by
  unfold signaturePart
  split
  · exact fullText_asParams node
  · rfl

theorem fullTexts_map_signaturePart (nodes : List Node) : fullTexts (nodes.map signaturePart) = fullTexts nodes := by
  induction nodes with
  | nil => rfl
  | cons node nodes ih => simp only [List.map_cons, fullTexts, fullText_signaturePart, ih]

/-- The call that is taken apart: the first one in front of an equals sign. -/
def boundCall? (nodes : List Node) : Option Node := (nodes.takeWhile (·.kind ≠ .eq)).find? (·.kind = .funcCall)

/-- A node can be taken apart without loss: if it is a call, its text is that of its children. -/
def Covered (node : Node) : Prop := node.kind = .funcCall → fullTexts node.children = node.fullText

theorem boundCall?_cons (node : Node) (nodes : List Node) :
    boundCall? (node :: nodes) =
      if node.kind = .eq then none else if node.kind = .funcCall then some node else boundCall? nodes := by
  unfold boundCall?
  by_cases heq : node.kind = .eq
  · simp [heq]
  by_cases hcall : node.kind = .funcCall
  · simp [hcall]
  · simp [heq, hcall]

theorem mem_of_boundCall? {nodes : List Node} {call : Node} (h : boundCall? nodes = some call) : call ∈ nodes :=
  (List.takeWhile_sublist _).subset (List.mem_of_find?_eq_some h)

theorem kind_of_boundCall? {nodes : List Node} {call : Node} (h : boundCall? nodes = some call) : call.kind = .funcCall := by
  simpa using List.find?_some h

/-- Without a call nothing is regrouped. -/
theorem wrapClosure_of_boundCall?_eq_none {nodes : List Node} (h : boundCall? nodes = none) : wrapClosure nodes = nodes := by
  induction nodes with
  | nil => rfl
  | cons node nodes ih =>
    rw [boundCall?_cons] at h
    rw [wrapClosure]
    split at h
    · next heq => rw [if_pos heq]
    split at h
    · cases h
    · next heq hcall => rw [if_neg heq, if_neg hcall, ih h]

/-- A call is replaced by its children. -/
theorem fullTexts_of_boundCall? {nodes : List Node} {call : Node} (h : boundCall? nodes = some call) :
    ∃ front back, fullTexts nodes = front ++ (call.fullText ++ back) ∧
      fullTexts (wrapClosure nodes) = front ++ (fullTexts call.children ++ back) := by
  induction nodes with
  | nil => cases h
  | cons node nodes ih =>
    rw [boundCall?_cons] at h
    rw [wrapClosure]
    split at h
    · cases h
    split at h
    · next heq hcall =>
      cases h
      refine ⟨"", fullTexts nodes, by simp [fullTexts], ?_⟩
      rw [if_neg heq, if_pos hcall]
      simp [fullTexts, Node.fullText, fullTexts_map_signaturePart]
    · next heq hcall =>
      obtain ⟨front, back, htext, hregrouped⟩ := ih h
      refine ⟨node.fullText ++ front, back, ?_, ?_⟩
      · rw [fullTexts, htext, String.append_assoc]
      · rw [if_neg heq, if_neg hcall, fullTexts, hregrouped, String.append_assoc]

/-- A binding keeps its text exactly if the call in it is taken apart without loss. -/
theorem fullTexts_wrapClosure_iff {nodes : List Node} :
    fullTexts (wrapClosure nodes) = fullTexts nodes ↔ ∀ call, boundCall? nodes = some call → Covered call := by
  cases h : boundCall? nodes with
  | none => simp [wrapClosure_of_boundCall?_eq_none h]
  | some call =>
    obtain ⟨front, back, htext, hregrouped⟩ := fullTexts_of_boundCall? h
    rw [htext, hregrouped, String.append_right_inj, String.append_left_inj]
    constructor
    · rintro hcovered _ ⟨⟩ -
      exact hcovered
    · exact fun hcovered => hcovered call rfl (kind_of_boundCall? h)

theorem fullTexts_wrapClosure {nodes : List Node} (h : ∀ node ∈ nodes, Covered node) :
    fullTexts (wrapClosure nodes) = fullTexts nodes :=
  fullTexts_wrapClosure_iff.2 fun call hcall => h call (mem_of_boundCall? hcall)

/-- **Regrouping moves no text.** Parameters and patterns keep the text of the nodes among which they are. A binding
keeps it exactly if the call in it, if there is one, is no leaf with text (`_wrap_params`, `_mark_destructuring` and
`_let_closure`). -/
theorem fullTexts_regrouped (nodes : List Node) :
    fullTexts (wrapParams nodes) = fullTexts nodes ∧ fullTexts (markDestructuring nodes) = fullTexts nodes ∧
      (fullTexts (wrapClosure nodes) = fullTexts nodes ↔
        ∀ text, boundCall? nodes = some (.leaf .funcCall text) → text = "") := by
  refine ⟨fullTexts_wrapParams nodes, fullTexts_markDestructuring nodes, fullTexts_wrapClosure_iff.trans ?_⟩
  constructor
  · intro h text hcall
    exact (h _ hcall rfl).symm
  · intro h call hcall _
    cases call with
    | inner kind children => rfl
    | leaf kind text =>
      obtain rfl : kind = .funcCall := kind_of_boundCall? hcall
      rw [h text hcall]
      rfl

def bareCallBinding : List Node := [.leaf .letKeyword "let", .leaf .space " ", .leaf .funcCall "f()"]

/-- The text of a call without children is lost. -/
theorem fullTexts_wrapClosure_bareCall :
    fullTexts (wrapClosure bareCallBinding) = "let " ∧ fullTexts bareCallBinding = "let f()" ∧
      fullTexts (wrapClosure bareCallBinding) ≠ fullTexts bareCallBinding := by
  decide

/-! ## All regrouping of a node -/

theorem fullText_innerNode (tables : Tables) (parentType type : String) {nodes : List Node}
    (h : ∀ node ∈ nodes, Covered node) : (innerNode tables parentType type nodes).fullText = fullTexts nodes := by
  unfold innerNode
  simp only [Node.fullText]
  generalize hregrouped : (if type ∈ tables.groupTypes then _ else _ : Kind × List Node) = regrouped
  have htext : fullTexts regrouped.2 = fullTexts nodes := by
    rw [← hregrouped]
    split
    · rfl
    split
    · exact fullTexts_wrapParams nodes
    split
    · exact fullTexts_wrapClosure h
    · rfl
  rw [← htext]
  split
  · exact fullTexts_markDestructuring _
  · rfl

end DocOutline.Grammar
