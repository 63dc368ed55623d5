import Mathlib.Data.List.TakeWhile
import DocOutline.Proofs.Grammar.Survivors
import DocOutline.Syntax.Cursor

/-!
# Titles of headings

The text of a heading is a marker of equals signs, white space, the title, and white space. A heading is given content
exactly if it has a title, and then the content lies where the title does (`spans_content`). Among the children of a heading
the content is the only markup (`exists_headingNode_eq`), and the marker tells the depth (`headingDepth_headingNode`).
-/

namespace DocOutline.Grammar

open DocOutline.Syntax (Node)
open DocOutline.Syntax.Node (byteLens fullTexts)
open Text (Spans encode isBlank)

/-! ## Stripping -/

variable {cs : List Char}

theorem toList_strip (cs : List Char) :
    (Text.strip (String.ofList cs)).toList = ((cs.dropWhile isBlank).reverse.dropWhile isBlank).reverse := by
  rw [Text.strip, String.toList_ofList, String.toList_ofList]

/-- Nothing is left after stripping exactly if all is white space. -/
theorem strip_eq_empty_iff : Text.strip (String.ofList cs) = "" ↔ ∀ c ∈ cs, isBlank c := by
  rw [← String.toList_inj, toList_strip, String.toList_empty, List.reverse_eq_nil_iff, List.dropWhile_eq_nil_iff]
  constructor
  · intro h c hc
    rw [← List.takeWhile_append_dropWhile (p := isBlank) (l := cs)] at hc
    rcases List.mem_append.1 hc with hc | hc
    · exact List.mem_takeWhile_imp hc
    · exact h c (List.mem_reverse.2 hc)
  · exact fun h c hc => h c ((List.dropWhile_sublist _).subset (List.mem_reverse.1 hc))

/-- A text is white space, what is left after stripping, and white space, if anything is left. -/
theorem eq_append_strip (h : Text.strip (String.ofList cs) ≠ "") :
    cs = cs.takeWhile isBlank ++ ((Text.strip (String.ofList cs)).toList ++ (cs.reverse.takeWhile isBlank).reverse) := by
  -- What is taken off at the end does not reach to the white space at the front.
  have hshort : ((cs.dropWhile isBlank).reverse.takeWhile isBlank).length ≠ (cs.dropWhile isBlank).reverse.length := by
    intro hlength
    have hall := List.takeWhile_eq_self_iff.1 ((List.takeWhile_sublist _).eq_of_length hlength)
    refine h (strip_eq_empty_iff.2 fun c hc => ?_)
    rw [← List.takeWhile_append_dropWhile (p := isBlank) (l := cs)] at hc
    rcases List.mem_append.1 hc with hc | hc
    · exact List.mem_takeWhile_imp hc
    · exact hall c (List.mem_reverse.2 hc)
  have htrail : cs.reverse.takeWhile isBlank = (cs.dropWhile isBlank).reverse.takeWhile isBlank := by
    conv_lhs => rw [← List.takeWhile_append_dropWhile (p := isBlank) (l := cs), List.reverse_append]
    rw [List.takeWhile_append, if_neg hshort]
  rw [toList_strip, htrail, ← List.reverse_append, List.takeWhile_append_dropWhile, List.reverse_reverse,
    List.takeWhile_append_dropWhile]

/-! ## Titles -/

def signsOf (text : String) : Nat := (text.toList.takeWhile (· = '=')).length

def bodyOf (text : String) : List Char := text.toList.dropWhile (· = '=')

/-- The title of a heading: what stands behind the signs, without the white space around it. -/
def titleOf (text : String) : String := Text.strip (String.ofList (bodyOf text))

/-- The bytes in front of the title of a heading: the signs, and white space. -/
def bytesBefore (text : String) : Nat := signsOf text + (String.ofList ((bodyOf text).takeWhile isBlank)).utf8ByteSize

variable {source text : String} {start stop : Nat} {content : List Node}

theorem contentStart_headingParts (start stop : Nat) (text : String) :
    (headingParts start stop text).contentStart = start + bytesBefore text := Nat.add_assoc ..

theorem eq_of_mem_signs {c : Char} (h : c ∈ text.toList.takeWhile (· = '=')) : c = '=' := by
  simpa using List.mem_takeWhile_imp h

/-- From the signs on, a heading reads its body. -/
theorem spans_body (h : Spans source start stop text) :
    Spans source (start + signsOf text) stop (String.ofList (bodyOf text)) := by
  have hsplit : text = String.ofList (text.toList.takeWhile (· = '=')) ++ String.ofList (bodyOf text) := by
    rw [← String.ofList_append, bodyOf, List.takeWhile_append_dropWhile, String.ofList_toList]
  rw [hsplit] at h
  have hbody := h.right
  rwa [utf8ByteSize_ofList_eqSigns fun _ => eq_of_mem_signs] at hbody

/-- **A heading has content where its title is.** -/
theorem spans_content (h : Spans source start stop text) :
    ((headingParts start stop text).contentStart < (headingParts start stop text).contentEnd ↔ titleOf text ≠ "") ∧
      (titleOf text ≠ "" → Spans source (headingParts start stop text).contentStart
        (headingParts start stop text).contentEnd (titleOf text)) := by
  have hstart := contentStart_headingParts start stop text
  have hend : (headingParts start stop text).contentEnd =
      stop - (String.ofList ((bodyOf text).reverse.takeWhile isBlank)).utf8ByteSize := rfl
  rw [bytesBefore, ← Nat.add_assoc] at hstart
  rw [hstart, hend]
  have hbody := spans_body h
  by_cases htitle : titleOf text = ""
  · have hall := strip_eq_empty_iff.1 htitle
    have hlead : (bodyOf text).takeWhile isBlank = bodyOf text := List.takeWhile_eq_self_iff.2 hall
    have hstop := hbody.stop_eq
    refine ⟨?_, fun h => absurd htitle h⟩
    rw [hlead]
    simp only [htitle, ne_eq, not_true_eq_false, iff_false, Nat.not_lt]
    omega
  · have hspan : Spans source (start + signsOf text) stop
        (String.ofList ((bodyOf text).takeWhile isBlank) ++
          (titleOf text ++ String.ofList ((bodyOf text).reverse.takeWhile isBlank).reverse)) := by
      rw [← String.ofList_toList (s := titleOf text), ← String.ofList_append, ← String.ofList_append, titleOf,
        ← eq_append_strip htitle]
      exact hbody
    have hright := hspan.right
    have hstop := hright.right.stop_eq
    rw [utf8ByteSize_ofList_reverse] at hstop
    have hsize : 0 < (titleOf text).utf8ByteSize := Nat.pos_of_ne_zero (by simpa using htitle)
    have hcontentEnd : stop - (String.ofList ((bodyOf text).reverse.takeWhile isBlank)).utf8ByteSize =
        start + signsOf text + (String.ofList ((bodyOf text).takeWhile isBlank)).utf8ByteSize +
          (titleOf text).utf8ByteSize := by omega
    rw [hcontentEnd]
    exact ⟨⟨fun _ => htitle, fun _ => by omega⟩, fun _ => hright.left⟩

/-- The depth of a heading is the number of its signs, or one. -/
theorem headingDepth_headingNode (bytes : Text.Bytes) :
    (headingNode bytes (headingParts start stop text) stop content).headingDepth = max 1 (signsOf text) := by
  have hcount : Text.countChar '=' (String.ofList (text.toList.takeWhile (· = '='))) = signsOf text := by
    rw [Text.countChar, String.toList_ofList]
    exact List.count_eq_length.2 fun c hc => (eq_of_mem_signs hc).symm
  rw [← hcount]
  rfl

/-! ## Lowered headings -/

/-- A heading becomes one whose content, if there is any, reads what the source has there. -/
theorem exists_lowered_content {parentType : String} {depth : Nat} {tree : Tree} {node : Node}
    (hsound : tree.SoundIn source) (hnamed : tree.IsNamed "heading")
    (h : lower typst (encode source) parentType depth tree = .ok node) :
    ∃ content, node = headingNode (encode source) (tree.parts source) tree.stop content ∧
      ((tree.parts source).contentStart < (tree.parts source).contentEnd →
        Spans source (tree.parts source).contentStart (tree.parts source).contentEnd (fullTexts content)) := by
  obtain ⟨htype, hanonymous, hmissing⟩ := hnamed
  obtain ⟨hle, hbstart, hbstop⟩ := hsound.placed
  obtain ⟨-, -, -, -, hbfront, hbback⟩ := headingParts_spans (textAt_spans hbstart hbstop hle)
  have hplain : tree.type ≠ "ERROR" ∧ tree.type ∉ typst.commentTypes := by
    rw [htype]
    decide
  have hheading : tree.type ∈ typst.headingTypes := by
    rw [htype]
    decide
  obtain ⟨content, hcontent, hnode⟩ := lower_heading ⟨rfl, hanonymous, hmissing⟩ hplain hheading h
  refine ⟨content, hnode, fun hlt => ?_⟩
  exact (lowerAll_sound (fun t ht => hsound.child ht) hbfront hbback (Nat.le_of_lt hlt) (hcontent hlt)).1

end DocOutline.Grammar
