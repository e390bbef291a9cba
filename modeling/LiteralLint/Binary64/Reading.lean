import LiteralLint.Binary64
import LiteralLint.Text.IntegerNumeral

/-!
# Reading doubles

A decimal numeral has blanks around it, a sign, digits of any script with an optional point, and
an optional exponent; single underscores may stand between digits. The names of infinity and of
the value that is not a number are read in either case. The result is the nearest double.
-/

namespace LiteralLint.Binary64

/-- Whether each underscore stands between two digits. -/
def underscoresFit : Text → Bool
  | [] => true
  | 95 :: _ => false
  | c :: 95 :: d :: rest =>
    Text.isAsciiDigit c && Text.isAsciiDigit d && underscoresFit (d :: rest)
  | [_, 95] => false
  | _ :: rest => underscoresFit rest

/-- The exponent after its letter: none if the text is no exponent. -/
def readExponent? (t : Text) : Option Int :=
  let (negative, digits) := Text.readSign t
  if digits.isEmpty || !digits.all Text.isAsciiDigit then none
  else
    let n := Text.decimalValue digits
    some (if negative then -(n : Int) else n)

/-- The double denoted by an unsigned decimal numeral without underscores. -/
def readDecimal? (negative : Bool) (t : Text) : Option Binary64 :=
  let whole := t.takeWhile Text.isAsciiDigit
  let afterWhole := t.dropWhile Text.isAsciiDigit
  let (places, afterPlaces) :=
    match afterWhole with
    | 46 :: rest => (rest.takeWhile Text.isAsciiDigit, rest.dropWhile Text.isAsciiDigit)
    | _ => ([], afterWhole)
  if whole.isEmpty && places.isEmpty then none
  else
    let exponent? : Option Int :=
      match afterPlaces with
      | [] => some 0
      | c :: rest => if c == 101 || c == 69 then readExponent? rest else none
    exponent?.map fun e =>
      ofDecimal negative (Text.decimalValue (whole ++ places)) (e - places.length)

/-- ASCII letters in lower case. -/
def lowered (t : Text) : Text := t.map fun c => if 65 ≤ c && c ≤ 90 then c + 32 else c

/-- The double that a text denotes. -/
def read? (t : Text) : Option Binary64 :=
  let (negative, body) := Text.readSign (Text.stripOf (· == 32) (Text.plainDigits t))
  let name := lowered body
  if name = "inf" || name = "infinity" then some (infinity negative)
  else if name = "nan" then some nan
  else if underscoresFit body then readDecimal? negative (body.filter (· != 95))
  else none

end LiteralLint.Binary64
