import LiteralLint.Binary64.Reading
import LiteralLint.Datum

/-!
# Number literals of a source

Underscores between digits mean nothing, and a trailing `n` marks a large integer. A literal that
can be read as an integer is one; otherwise it is read as a double; otherwise it has no value.
-/

namespace LiteralLint.NumberLiteral

/-- The digits that count. -/
def cleaned (t : Text) : Text := Text.stripEndOf (· == 110) (t.filter (· != 95))

/-- The value of a number literal. -/
def value (t : Text) : Datum :=
  match Text.readInteger .automatic (cleaned t) with
  | .ok n => .whole n
  | .error _ =>
    match Binary64.read? (cleaned t) with
    | some x => .real x
    | none => .missing

/-- The value of a number in a type, which is always a double. -/
def realValue (t : Text) : Datum :=
  match Binary64.read? (t.filter (· != 95)) with
  | some x => .real x
  | none => .missing

end LiteralLint.NumberLiteral
