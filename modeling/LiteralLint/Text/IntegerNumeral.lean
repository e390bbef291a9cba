import LiteralLint.Text.Numeral
import LiteralLint.Text.Blank

/-!
# Integer numerals

Integers are read from text with blanks around them, a sign, decimal digits of any script, and
single underscores between digits. With an automatic base, a leading `0x`, `0o` or `0b` chooses
base sixteen, eight or two, and a decimal numeral that is not zero must not start with a zero.

Conversion between an integer and its decimal numeral is refused beyond 4300 digits, because its
cost grows with the square of the length; other bases have no limit.

## Main definitions

* `readInteger`: the integer that a text denotes in base ten or with an automatic base.
* `decimalNumeral?`: the decimal numeral of an integer, within the limit.
-/

namespace LiteralLint.Text

/-- The greatest number of decimal digits that is converted. -/
def decimalDigitLimit : Nat := 4300

/-- How a numeral chooses its base. -/
inductive Radix
  | ten
  | automatic
  deriving DecidableEq

/-- Why a text denotes no integer. -/
inductive NumeralFault
  | malformed
  | tooManyDigits (count : Nat)
  deriving DecidableEq

/-- Digits of any script become ASCII digits and blanks become spaces. The four ASCII separators
U+001C to U+001F are no blanks here. -/
def plainDigits (t : Text) : Text :=
  t.map fun c =>
    if c < 128 then if 9 ≤ c && c ≤ 13 then 32 else c
    else
      match digitValue? c with
      | some d => 48 + d
      | none => if isBlank c then 32 else c

/-- The value of an ASCII digit or letter as a digit in a base up to thirty-six. -/
def digitIn? (base : Nat) (c : CodePoint) : Option Nat :=
  let d :=
    if isAsciiDigit c then some (c - 48)
    else if 97 ≤ c && c ≤ 122 then some (c - 87)
    else if 65 ≤ c && c ≤ 90 then some (c - 55)
    else none
  d.filter (· < base)

/-- The digits of a numeral in a base, where a single underscore may stand between two digits;
none if the text is anything else. -/
def numeralDigits? (base : Nat) : Text → Option (List Nat)
  | [] => none
  | [c] => (digitIn? base c).map fun d => [d]
  | c :: 95 :: rest =>
    match digitIn? base c with
    | some d => (numeralDigits? base rest).map (d :: ·)
    | none => none
  | c :: c' :: rest =>
    match digitIn? base c with
    | some d => (numeralDigits? base (c' :: rest)).map (d :: ·)
    | none => none

/-- The number that digits denote in a base. -/
def ofDigits (base : Nat) (digits : List Nat) : Nat := digits.foldl (fun n d => base * n + d) 0

/-- The base that a prefix announces, with the numeral after the prefix. -/
def announcedBase : Text → Option (Nat × Text)
  | 48 :: c :: rest =>
    let base? : Option Nat :=
      if c == 120 || c == 88 then some 16
      else if c == 111 || c == 79 then some 8
      else if c == 98 || c == 66 then some 2
      else none
    base?.map fun base =>
      match rest with
      | 95 :: after => (base, after)
      | _ => (base, rest)
  | _ => none

/-- The natural number that an unsigned numeral denotes. -/
def readMagnitude (radix : Radix) (t : Text) : Except NumeralFault Nat :=
  match if radix = .automatic then announcedBase t else none with
  | some (base, digits) =>
    match numeralDigits? base digits with
    | some ds => .ok (ofDigits base ds)
    | none => .error .malformed
  | none =>
    match numeralDigits? 10 t with
    | none => .error .malformed
    | some ds =>
      if ds.length > decimalDigitLimit then .error (.tooManyDigits ds.length)
      else
        let n := ofDigits 10 ds
        if radix = .automatic && t.head? == some 48 && n != 0 then .error .malformed
        else .ok n

/-- A sign and the rest of a numeral. -/
def readSign : Text → Bool × Text
  | 43 :: rest => (false, rest)
  | 45 :: rest => (true, rest)
  | t => (false, t)

/-- The integer that a text denotes. -/
def readInteger (radix : Radix) (t : Text) : Except NumeralFault Int :=
  let (negative, digits) := readSign (stripOf (· == 32) (plainDigits t))
  (readMagnitude radix digits).map fun n => if negative then -(n : Int) else n

/-- The decimal numeral of an integer, if it has at most 4300 digits. -/
def decimalNumeral? (n : Int) : Option Text :=
  if n.natAbs < Nat.pow 10 decimalDigitLimit then some (ofInt n) else none

end LiteralLint.Text
