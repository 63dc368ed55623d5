import DocOutline.Outline.Basic
import DocOutline.Text.Bytes

/-!
# Outlines as they are shown

An outline is shown with lines beside its bytes, counted from one. Its folds are the entries that span several
lines, in the order in which they start; a heading folds together with all that is nested in it.
-/

namespace DocOutline

open DocOutline.Symbol (Entry Name)

namespace Outline

variable {ν : Type}

def shownMembers [Name ν] (lines : Lines) (entry : Entry ν) : List (String × Json) :=
  [("name", Name.toJson entry.name), ("kind", .str entry.kind.label),
    ("lsp_kind", .ofOption (entry.kind.lspKind?.map .nat)),
    ("line", .nat (lines.lineOf entry.start + 1)),
    ("end_line", .nat (lines.endLineOf entry.start entry.stop + 1)),
    ("range", .arr [.int entry.start, .int entry.stop])] ++
    (entry.kind.level?.map fun level => ("level", Json.int level)).toList

mutual

/-- An outline as it is shown (`node_to_dict`). -/
def toShown [Name ν] (lines : Lines) : Outline ν → Json
  | mk entry children => .obj (shownMembers lines entry ++ childrenMember (toShownAll lines children))
termination_by structural outline => outline

def toShownAll [Name ν] (lines : Lines) : List (Outline ν) → List Json
  | [] => []
  | outline :: outlines => toShown lines outline :: toShownAll lines outlines
termination_by structural outlines => outlines

end

/-- A stretch of lines that can be folded away. The lines count from zero. -/
structure Fold where
  startLine : Nat
  endLine : Nat
  isComment : Bool
deriving DecidableEq, Repr

def Fold.toJson (fold : Fold) : Json :=
  .obj [("start_line", .nat fold.startLine), ("end_line", .nat fold.endLine),
    ("kind", .str (if fold.isComment then "comment" else "region"))]

/-- The fold of an outline, if it spans several lines. -/
def fold? (lines : Lines) (outline : Outline ν) : Option Fold :=
  let entry := outline.entry
  let stop := if entry.kind.isHeading then outline.subtreeEnd else entry.stop
  let startLine := lines.lineOf entry.start
  let endLine := lines.endLineOf entry.start stop
  if startLine < endLine then some ⟨startLine, endLine, entry.kind == .commentRun⟩ else none

mutual

/-- The folds of an outline (`folding_ranges`). -/
def folds (lines : Lines) : Outline ν → List Fold
  | mk entry children => (fold? lines (mk entry children)).toList ++ foldsAll lines children
termination_by structural outline => outline

def foldsAll (lines : Lines) : List (Outline ν) → List Fold
  | [] => []
  | outline :: outlines => folds lines outline ++ foldsAll lines outlines
termination_by structural outlines => outlines

end

end Outline

end DocOutline
