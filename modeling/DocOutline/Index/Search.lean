import DocOutline.Json.Access
import DocOutline.Text.Basic
import DocOutline.Text.Case
import DocOutline.Text.Glob

/-!
# Search

Symbols are found by their names, without regard to case. A symbol scores for a name that equals the query or
contains it, for each word of the query in its name, and less for a word that occurs only in the names around
it. What scores at all is found; the best come first, and symbols with equal scores keep their order.

The symbols are those that were stored, which need not have the members they should have.
-/

namespace DocOutline.Index

open Json (Fault)

/-- A query, in lower case, with its distinct words. -/
structure Query where
  text : String
  words : List String
deriving Repr

def Query.ofText (text : String) : Query :=
  let text := Text.lower text
  ⟨text, (Text.words text).eraseDups⟩

/-- The points for a symbol with the given name and qualified name, both in lower case. -/
def Query.points (query : Query) (name qualifiedName : String) : Nat :=
  (if query.text = name then 20 else if Text.isPartOf query.text name then 10 else 0) +
    5 * query.words.countP (Text.isPartOf · name) +
    query.words.countP fun word => Text.isPartOf word qualifiedName && !Text.isPartOf word name

/-- A member of a symbol that is a text, in lower case. One that is absent is empty. -/
def lowerMember (name : String) (symbol : Json) : Except Fault String := do
  let value := (← symbol.optionalMember name).getD (.str "")
  return Text.lower (← value.text "lower")

/-- The points for a stored symbol (`score_symbol`). -/
def score (query : Query) (symbol : Json) : Except Fault Nat := do
  let name ← lowerMember "name" symbol
  let qualifiedName ← lowerMember "qualified_name" symbol
  return query.points name qualifiedName

def hasKind (kind symbol : Json) : Except Fault Bool := do
  return ((← symbol.optionalMember "kind").getD .null).same kind

/-- Whether a symbol's document matches a pattern, or the pattern behind any folders (`_match_pattern`). -/
def inFiles (pattern symbol : Json) : Except Fault Bool := do
  let file ← ((← symbol.optionalMember "file").getD (.str "")).pathText
  let pattern ← pattern.pathText
  return Text.matchesGlob pattern file || Text.matchesGlob ("*/" ++ pattern) file

/-- Whether two filters, a kind and a pattern for documents, let a symbol pass. A filter that counts as absent
lets all pass. -/
def isAdmitted (kind pattern symbol : Json) : Except Fault Bool := do
  if ← (if kind.isPresent then hasKind kind symbol else .ok true) then
    if pattern.isPresent then inFiles pattern symbol else .ok true
  else .ok false

/-- The points for a symbol, unless a filter keeps it out. -/
def scoreIfAdmitted (query : Query) (kind pattern symbol : Json) : Except Fault (Option Nat) := do
  if ← isAdmitted kind pattern symbol then return some (← score query symbol) else return none

/-- The symbols that are found, with their points, in the order of the index. -/
def found (query : Query) (kind pattern : Json) (symbols : List Json) : Except Fault (List (Nat × Json)) := do
  let scored ← symbols.mapM fun symbol => do
    return (← scoreIfAdmitted query kind pattern symbol).map fun points => (points, symbol)
  return (scored.filterMap id).filter fun (points, _) => 0 < points

/-- The symbols that are found, the best first (`search`). -/
def search (query : Query) (kind pattern : Json) (symbols : List Json) : Except Fault (List Json) := do
  return ((← found query kind pattern symbols).mergeSort fun a b => b.1 ≤ a.1).map Prod.snd

end DocOutline.Index
