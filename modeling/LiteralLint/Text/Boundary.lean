import LiteralLint.Text

/-!
# Sets of code points by their boundaries

A property of code points is kept as the ascending list of the places where it changes: the
first entry is the least code point that has it, the second the least code point after that which
lacks it, and so on. Membership walks the list once and stops at the first greater entry, so
ASCII is decided within a few steps.

## Main definitions

* `Boundaries.holds`: whether a code point has the property.
* `Boundaries.startOf?`: the beginning of the run around a code point that has it.
-/

namespace LiteralLint.Text

/-- The ascending places at which a property of code points changes. -/
abbrev Boundaries := List CodePoint

namespace Boundaries

/-- Whether a code point has the property; `inside` says whether the list starts within a run. -/
def holdsFrom (inside : Bool) : Boundaries → CodePoint → Bool
  | [], _ => inside
  | b :: rest, c => if c < b then inside else holdsFrom (!inside) rest c

/-- Whether a code point has the property. -/
def holds (bs : Boundaries) (c : CodePoint) : Bool := holdsFrom false bs c

/-- The first code point of the run that a code point with the property belongs to. -/
def startOf? : Boundaries → CodePoint → Option CodePoint
  | start :: stop :: rest, c =>
    if c < start then none else if c < stop then some start else startOf? rest c
  | [start], c => if c < start then none else some start
  | [], _ => none

end Boundaries

end LiteralLint.Text
