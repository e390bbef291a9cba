import LiteralLint.Text

/-!
# Glob patterns

In a glob pattern a star stands for any text, slashes included, a question mark for one code
point, and brackets for one code point of a set. A set may be negated by an exclamation mark and
may hold ranges; a range whose ends are in the wrong order stands for nothing. An opening bracket
that is not closed stands for itself.

## Main definitions

* `Glob.read`: the pieces of a pattern.
* `Glob.matchesPieces`, `Glob.matches`: whether a text as a whole is matched.
-/

namespace LiteralLint.Glob

/-- A set of code points: single ones and ranges, or all others if it is negated. -/
structure CharSet where
  negated : Bool
  ranges : List (CodePoint × CodePoint)
  deriving DecidableEq

/-- A piece of a pattern. -/
inductive Piece
  | star
  | any
  | literal (c : CodePoint)
  | oneOf (s : CharSet)
  deriving DecidableEq

/-- Whether a code point is in a set. -/
def CharSet.contains (s : CharSet) (c : CodePoint) : Bool :=
  (s.ranges.any fun r => r.1 ≤ c && c ≤ r.2) != s.negated

/-! ### Sets -/

/-- The exclamation mark that negates a set. -/
def bang : CodePoint := 33

/-- The hyphen between the ends of a range. -/
def hyphen : CodePoint := 45

/-- The text before the first hyphen at or after a position, and the text after that hyphen. -/
def cutAtHyphen (skip : Nat) (t : Text) : Option (Text × Text) :=
  let before := t.take skip ++ (t.drop skip).takeWhile (· != hyphen)
  match t.drop before.length with
  | [] => none
  | _ :: rest => some (before, rest)

/-- The chunks of the contents of a set, between the hyphens that make ranges. After such a hyphen
the next code point is the end of a range, and a hyphen right after it makes none. -/
def chunksFrom (skip : Nat) : Nat → Text → List Text
  | 0, t => [t]
  | bound + 1, t =>
    match cutAtHyphen skip t with
    | none => [t]
    | some (before, rest) => before :: chunksFrom 2 bound rest

/-- Puts an empty last chunk back as a hyphen on the chunk before it. -/
def foldLastHyphen : List Text → List Text
  | [] => []
  | [c] => [c]
  | [c, []] => [c ++ [hyphen]]
  | c :: rest => c :: foldLastHyphen rest

/-- Whether the end of one chunk and the start of the next are in the wrong order. -/
def isReversed (left right : Text) : Bool :=
  match left.getLast?, right.head? with
  | some a, some b => b < a
  | _, _ => false

/-- Joins neighbouring chunks whose range would stand for nothing, dropping its two ends, from the
last pair to the first. -/
def dropReversed : List Text → List Text
  | [] => []
  | c :: rest =>
    match dropReversed rest with
    | [] => [c]
    | d :: more => if isReversed c d then (c.dropLast ++ d.drop 1) :: more else c :: d :: more

/-- A code point as a range. -/
def single (c : CodePoint) : CodePoint × CodePoint := (c, c)

/-- The ranges of chunks: one between the end of each chunk and the start of the next, and the
other code points singly. -/
def rangesOf : List Text → List (CodePoint × CodePoint)
  | [] => []
  | [c] => c.map single
  | c :: d :: more =>
    let here := c.dropLast.map single
    match c.getLast?, d.head? with
    | some a, some b => here ++ (a, b) :: rangesOf (d :: more)
    | _, _ => here ++ rangesOf (d :: more)

/-- The chunks without an exclamation mark at the front, and whether there was one. -/
def takeBang : List Text → Bool × List Text
  | (c :: rest) :: more => if c = bang then (true, rest :: more) else (false, (c :: rest) :: more)
  | chunks => (false, chunks)

/-- The piece for the contents of brackets. An empty set matches nothing, and its negation any
code point. -/
def setPiece (contents : Text) : Piece :=
  let skip := if contents.head? = some bang then 2 else 1
  let chunks :=
    if contents.contains hyphen then
      dropReversed (foldLastHyphen (chunksFrom skip contents.length contents))
    else [contents]
  let (negated, chunks) := takeBang chunks
  .oneOf ⟨negated, rangesOf chunks⟩

/-- The contents of brackets and what follows them, for the text after an opening bracket. A
closing bracket right at the front, or right after an exclamation mark there, belongs to the
contents. -/
def bracket? (t : Text) : Option (Text × Text) :=
  let front := if t.head? = some bang then 1 else 0
  let front := if (t.drop front).head? = some 93 then front + 1 else front
  let contents := t.take front ++ (t.drop front).takeWhile (· != 93)
  match t.drop contents.length with
  | [] => none
  | _ :: rest => some (contents, rest)

theorem length_of_bracket? {t contents rest : Text} (h : bracket? t = some (contents, rest)) :
    rest.length < t.length := by
  simp only [bracket?] at h
  split at h
  · cases h
  · next hd =>
    cases h
    have := congrArg List.length hd
    simp only [List.length_drop, List.length_cons] at this
    omega

/-! ### Patterns -/

/-- The pieces of a pattern. -/
def read : Text → List Piece
  | [] => []
  | c :: rest =>
    if c = 42 then .star :: read rest
    else if c = 63 then .any :: read rest
    else if c = 91 then
      match _closed : bracket? rest with
      | some (contents, more) => setPiece contents :: read more
      | none => .literal c :: read rest
    else .literal c :: read rest
termination_by t => t.length
decreasing_by
  · simp
  · simp
  · have shorter := length_of_bracket? _closed
    simp only [List.length_cons]
    omega
  · simp
  · simp

/-- Whether pieces match the whole of a text. -/
def matchesPieces : List Piece → Text → Bool
  | [], [] => true
  | [], _ :: _ => false
  | .star :: more, [] => matchesPieces more []
  | .star :: more, c :: rest => matchesPieces more (c :: rest) || matchesPieces (.star :: more) rest
  | _ :: _, [] => false
  | .any :: more, _ :: rest => matchesPieces more rest
  | .literal d :: more, c :: rest => c = d && matchesPieces more rest
  | .oneOf s :: more, c :: rest => s.contains c && matchesPieces more rest
termination_by ps t => (ps.length, t.length)

/-- Whether a pattern matches the whole of a text. -/
def «matches» (pattern t : Text) : Bool := matchesPieces (read pattern) t

end LiteralLint.Glob
