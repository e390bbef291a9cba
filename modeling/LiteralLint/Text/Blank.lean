import LiteralLint.Text.Boundary

/-!
# Blanks

White space in the wide sense: the separators of Unicode together with the controls that end
lines or separate records (U+001C to U+001F and U+0085 among them), but not the zero-width space
or the byte order mark.
-/

namespace LiteralLint.Text

/-- Where the blanks begin and end. -/
def blankBoundaries : Boundaries := [
  9, 14, 28, 33, 133, 134, 160, 161, 5760, 5761, 8192, 8203, 8232, 8234,
  8239, 8240, 8287, 8288, 12288, 12289]

/-- A white-space code point. -/
def isBlank (c : CodePoint) : Bool := blankBoundaries.holds c

/-- The text without blanks at its two ends. -/
def strip (t : Text) : Text := stripOf isBlank t

/-- A code point that ends a line; a carriage return takes a following line feed with it. -/
def endsLine (c : CodePoint) : Bool :=
  (10 ≤ c && c ≤ 13) || (28 ≤ c && c ≤ 30) || c == 133 || c == 8232 || c == 8233

/-- The lines of a text, without their ends; an end of line at the very end opens no new one. -/
def lines : Text → List Text
  | [] => []
  | 13 :: 10 :: rest => [] :: lines rest
  | c :: rest =>
    if endsLine c then [] :: lines rest
    else
      match lines rest with
      | [] => [[c]]
      | first :: more => (c :: first) :: more

end LiteralLint.Text
