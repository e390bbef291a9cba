import LiteralLint.Text

/-!
# Similar texts

Two texts are as similar as their longest common stretch makes them, together with the longest
common stretches of what is before it in both and of what is after it in both, and so on.

## Main definitions

* `Text.longestCommon`: the longest common stretch, the first of several.
* `Text.inCommon`: the number of code points that two texts share in this way.
* `Text.closest`: the texts of a list that are similar enough to a text.
-/

namespace LiteralLint.Text

/-- A common stretch of two texts: where it starts in each, and its length. -/
structure Stretch where
  left : Nat
  right : Nat
  length : Nat

/-- The length of the longest common initial segment. -/
def commonStart : Text → Text → Nat
  | a :: s, b :: t => if a = b then commonStart s t + 1 else 0
  | _, _ => 0

/-- The longest common stretch that starts at the front of the first text. -/
def longestAtFront (left : Nat) (s : Text) : Nat → Text → Stretch → Stretch
  | _, [], best => best
  | right, b :: t, best =>
    let n := commonStart s (b :: t)
    longestAtFront left s (right + 1) t (if n > best.length then ⟨left, right, n⟩ else best)

/-- The longest common stretch, with a best one so far. -/
def longestFrom (t : Text) : Nat → Text → Stretch → Stretch
  | _, [], best => best
  | left, a :: s, best => longestFrom t (left + 1) s (longestAtFront left (a :: s) 0 t best)

/-- The longest common stretch of two texts; of several, the one that starts first in the first
text, and then in the second. -/
def longestCommon (s t : Text) : Stretch := longestFrom t 0 s ⟨0, 0, 0⟩

/-- The number of code points in common stretches, with a bound on the number of rounds. -/
def inCommonUpTo : Nat → Text → Text → Nat
  | 0, _, _ => 0
  | bound + 1, s, t =>
    let best := longestCommon s t
    if best.length = 0 then 0
    else
      best.length + inCommonUpTo bound (s.take best.left) (t.take best.right) +
        inCommonUpTo bound (s.drop (best.left + best.length)) (t.drop (best.right + best.length))

/-- The number of code points in common stretches. -/
def inCommon (s t : Text) : Nat := inCommonUpTo (s.length + 1) s t

/-- Whether the code points in common stretches make up three fifths of two texts. -/
def isSimilar (s t : Text) : Bool := 10 * inCommon s t ≥ 3 * (s.length + t.length)

/-- Whether a text is more similar to a text than another is, or as similar and later. -/
def isCloser (word s t : Text) : Bool :=
  let a := inCommon s word * (t.length + word.length)
  let b := inCommon t word * (s.length + word.length)
  a > b || (a == b && !lt s t)

/-- The texts of a list that are similar to a text, at most three of them, the closest ones, in
ascending order. -/
def closest (word : Text) (ts : List Text) : List Text :=
  sortedDistinct (((ts.filter fun t => isSimilar t word).mergeSort (isCloser word)).take 3)

end LiteralLint.Text
