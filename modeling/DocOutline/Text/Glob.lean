import DocOutline.Text.Basic

/-!
# Glob patterns

`*` stands for any text, `?` for any character, and brackets for one character of a set; every other
character stands for itself, an opening bracket that is never closed among them. A set is negated by `!`, its
first character may be `]`, and a hyphen between two characters makes a range. Nothing escapes.

A set is read as pieces between the hyphens that make ranges: the last character of a piece and the first of
the next are the ends of a range. A range whose ends are out of order is dropped with its ends, and the two
pieces become one.
-/

namespace DocOutline.Text.Glob

/-- One element of a pattern. -/
inductive Token where
  | anyText
  | anyChar
  | char (c : Char)
  | oneOf (negated : Bool) (chars : List Char) (ranges : List (Char × Char))
deriving DecidableEq, Repr

/-- Where the next hyphen stands that may make a range: the characters before it and after it. At least
`least` characters come before it. -/
def nextHyphen : (least : Nat) → List Char → Option (List Char × List Char)
  | _, [] => none
  | 0, '-' :: rest => some ([], rest)
  | least, c :: rest => (nextHyphen (least - 1) rest).map fun (before, after) => (c :: before, after)

/-- The pieces of a set between the hyphens that make ranges. A piece starts with an end of a range, so
the hyphen after it comes no sooner than two characters on. `fuel` bounds the number of pieces. -/
def pieces : (fuel least : Nat) → List Char → List (List Char)
  | 0, _, s => [s]
  | fuel + 1, least, s =>
    match nextHyphen least s with
    | none => [s]
    | some (before, after) => before :: pieces fuel 2 after

/-- A hyphen at the end of a set belongs to the piece before it. -/
def closeLastPiece : List (List Char) → List (List Char)
  | [] => []
  | [piece] => [piece]
  | [piece, []] => [piece ++ ['-']]
  | piece :: rest => piece :: closeLastPiece rest

/-- Drops the ranges whose ends are out of order, from the last one to the first. -/
def dropEmptyRanges : List (List Char) → List (List Char)
  | [] => []
  | piece :: rest =>
    match dropEmptyRanges rest with
    | [] => [piece]
    | next :: others =>
      match piece.getLast?, next.head? with
      | some high, some low =>
        if low < high then (piece.dropLast ++ next.tail) :: others else piece :: next :: others
      | _, _ => piece :: next :: others

/-- The single characters of pieces, and the ranges between them. `joined` tells that the first character of
the first piece ends a range. -/
def members : (joined : Bool) → List (List Char) → List Char × List (Char × Char)
  | _, [] => ([], [])
  | joined, [piece] => (if joined then piece.tail else piece, [])
  | joined, piece :: next :: rest =>
    let (chars, ranges) := members true (next :: rest)
    match piece.getLast?, next.head? with
    | some low, some high =>
      ((if joined then piece.tail else piece).dropLast ++ chars, (low, high) :: ranges)
    | _, _ => ('-' :: next.take 1 ++ chars, ranges)

/-- The element for the text between two brackets. -/
def set (body : List Char) : Token :=
  let negatedAtStart := body.head? = some '!'
  let found :=
    if body.contains '-' then
      dropEmptyRanges (closeLastPiece (pieces body.length (if negatedAtStart then 2 else 1) body))
    else [body]
  match found with
  | ('!' :: piece) :: rest =>
    let (chars, ranges) := members false (piece :: rest)
    .oneOf true chars ranges
  | found =>
    let (chars, ranges) := members false found
    .oneOf false chars ranges

/-- Splits a text at the bracket that closes a set: the first `]` that is not the set's first member. -/
def closing? (s : List Char) : Option (List Char × List Char) :=
  let lead := match s with
    | '!' :: ']' :: _ => 2
    | '!' :: _ => 1
    | ']' :: _ => 1
    | _ => 0
  let body := (s.drop lead).takeWhile (· ≠ ']')
  match s.drop (lead + body.length) with
  | _ :: rest => some (s.take lead ++ body, rest)
  | [] => none

/-- The elements of a pattern, with `fuel` for its characters. -/
def tokensWithin : (fuel : Nat) → List Char → List Token
  | 0, _ => []
  | _ + 1, [] => []
  | fuel + 1, '*' :: rest => .anyText :: tokensWithin fuel rest
  | fuel + 1, '?' :: rest => .anyChar :: tokensWithin fuel rest
  | fuel + 1, '[' :: rest =>
    match closing? rest with
    | some (body, after) => set body :: tokensWithin fuel after
    | none => .char '[' :: tokensWithin fuel rest
  | fuel + 1, c :: rest => .char c :: tokensWithin fuel rest

/-- The elements of a pattern. Each takes at least one character, so the length is fuel enough. -/
def tokens (pattern : String) : List Token := tokensWithin pattern.length pattern.toList

/-- Whether an element for one character accepts it. -/
def Token.accepts : Token → Char → Bool
  | .anyText, _ => false
  | .anyChar, _ => true
  | .char c, d => c = d
  | .oneOf negated chars ranges, d =>
    (chars.contains d || ranges.any fun (low, high) => low ≤ d && d ≤ high) != negated

/-- Whether some end of a text satisfies a test, the whole text and the empty one included. -/
def anyEnd (test : List Char → Bool) : List Char → Bool
  | [] => test []
  | c :: rest => test (c :: rest) || anyEnd test rest

/-- Whether the elements stand for the text. -/
def matchTokens : List Token → List Char → Bool
  | [], s => s.isEmpty
  | .anyText :: rest, s => anyEnd (matchTokens rest) s
  | token :: rest, s =>
    match s with
    | [] => false
    | c :: s => token.accepts c && matchTokens rest s

/-- For each element of a list, whether it or one behind it is true. -/
def orBehind : List Bool → List Bool
  | [] => []
  | b :: bs =>
    let behind := orBehind bs
    (b || behind.headD false) :: behind

/-- For each end of a text, the whole text first and the empty one last, whether the elements stand for it.
Each element takes one pass over the text, where `matchTokens` may try all ways to divide it. -/
def matchedEnds : List Token → List Char → List Bool
  | [], s => s.map (fun _ => false) ++ [true]
  | .anyText :: rest, s => orBehind (matchedEnds rest s)
  | token :: rest, s => List.zipWith (fun c b => token.accepts c && b) s (matchedEnds rest s).tail ++ [false]

theorem orBehind_matchedEnds (test : List Char → Bool) (ends : List Char → List Bool)
    (nil : ends [] = [test []]) (cons : ∀ c s, ends (c :: s) = test (c :: s) :: ends s) (s : List Char) :
    (orBehind (ends s)).headD false = anyEnd test s := by
  induction s with
  | nil => simp [nil, orBehind, anyEnd]
  | cons c s ih =>
    rw [cons, anyEnd, ← ih]
    rfl

theorem matchedEnds_nil (tokens : List Token) : matchedEnds tokens [] = [matchTokens tokens []] := by
  induction tokens with
  | nil => rfl
  | cons token rest ih => cases token <;> simp [matchedEnds, matchTokens, orBehind, anyEnd, ih]

/-- The first of the ends is the whole text, and the others are those of what follows its first character. -/
theorem matchedEnds_cons (tokens : List Token) (c : Char) (s : List Char) :
    matchedEnds tokens (c :: s) = matchTokens tokens (c :: s) :: matchedEnds tokens s := by
  induction tokens generalizing c s with
  | nil => rfl
  | cons token rest ih =>
    cases token with
    | anyText =>
      have behind := orBehind_matchedEnds (matchTokens rest) (matchedEnds rest) (matchedEnds_nil rest) ih s
      simp only [matchedEnds, matchTokens, ih, orBehind, anyEnd, behind]
    | anyChar | char | oneOf =>
      simp only [matchedEnds, matchTokens, ih, List.tail_cons]
      cases s with
      | nil => simp [matchedEnds_nil]
      | cons d s => simp [ih]

theorem head?_matchedEnds (tokens : List Token) (s : List Char) :
    (matchedEnds tokens s).head? = some (matchTokens tokens s) := by
  cases s with
  | nil => rw [matchedEnds_nil, List.head?_cons]
  | cons c s => rw [matchedEnds_cons, List.head?_cons]

end Glob

def matchesGlob (pattern s : String) : Bool :=
  (Glob.matchedEnds (Glob.tokens pattern) s.toList).headD false

theorem matchesGlob_eq_matchTokens (pattern s : String) :
    matchesGlob pattern s = Glob.matchTokens (Glob.tokens pattern) s.toList := by
  simp [matchesGlob, Glob.head?_matchedEnds]

end DocOutline.Text
