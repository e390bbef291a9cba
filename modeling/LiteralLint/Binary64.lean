import LiteralLint.Text

/-!
# Double-precision numbers

A double is its sixty-four bits, so equality of values that are stored is decidable and every
operation here is exact arithmetic on natural numbers: a finite double is a natural number times
a power of two, and reading a decimal numeral rounds a quotient of natural numbers to the nearest
double, ties to the even significand. Powers are written `Nat.pow`, which is one function whatever
instances of the power operator are in scope.

## Main definitions

* `Binary64.finite?`: sign, significand and exponent of a finite double.
* `Binary64.ofRatio`: the double nearest to a quotient.
* `Binary64.ofDecimal`: the double nearest to a decimal numeral.
-/

namespace LiteralLint

/-- A double-precision number in the interchange format. -/
structure Binary64 where
  bits : UInt64
  deriving DecidableEq

namespace Binary64

/-- Whether the sign bit is set. -/
def isNegative (x : Binary64) : Bool := x.bits.toNat / Nat.pow 2 63 == 1

/-- The eleven exponent bits. -/
def exponentField (x : Binary64) : Nat := x.bits.toNat / Nat.pow 2 52 % Nat.pow 2 11

/-- The fifty-two fraction bits. -/
def fraction (x : Binary64) : Nat := x.bits.toNat % Nat.pow 2 52

/-- Neither a number nor infinite. -/
def isNaN (x : Binary64) : Bool := x.exponentField == 2047 && x.fraction != 0

/-- One of the two infinities. -/
def isInfinite (x : Binary64) : Bool := x.exponentField == 2047 && x.fraction == 0

/-- The significand `m` and the exponent `q` of a finite double with magnitude `m * 2 ^ q`. -/
def magnitude (x : Binary64) : Nat × Int :=
  if x.exponentField = 0 then (x.fraction, -1074)
  else (Nat.pow 2 52 + x.fraction, (x.exponentField : Int) - 1075)

/-- The double with a sign and the lower sixty-three bits. -/
def assemble (negative : Bool) (rest : Nat) : Binary64 :=
  ⟨((if negative then Nat.pow 2 63 else 0) + rest).toUInt64⟩

/-- Zero with a sign. -/
def zero (negative : Bool) : Binary64 := assemble negative 0

/-- Infinity with a sign. -/
def infinity (negative : Bool) : Binary64 := assemble negative (2047 * Nat.pow 2 52)

/-- The double that stands for every value that is not a number. -/
def nan : Binary64 := assemble false (2047 * Nat.pow 2 52 + Nat.pow 2 51)

/-- The quotient rounded to the nearest natural number, ties to even. -/
def roundDiv (num den : Nat) : Nat :=
  let q := num / den
  let r := num % den
  if 2 * r < den then q
  else if 2 * r = den then (if q % 2 = 0 then q else q + 1)
  else q + 1

/-- The quotient scaled by a power of two, as a numerator and a denominator. -/
def scaleDown (num den : Nat) (e : Int) : Nat × Nat :=
  if 0 ≤ e then (num, den * Nat.pow 2 e.toNat) else (num * Nat.pow 2 (-e).toNat, den)

/-- The exponent at which the quotient has a significand of fifty-three bits, or the least
exponent. -/
def exponentFor (num den : Nat) : Int :=
  let guess : Int := (num.log2 : Int) - den.log2 - 53
  let (n, d) := scaleDown num den guess
  max (if n / d < Nat.pow 2 53 then guess else guess + 1) (-1074)

/-- The double nearest to the quotient of two natural numbers, ties to the even significand. -/
def ofRatio (negative : Bool) (num den : Nat) : Binary64 :=
  if num = 0 then zero negative
  else
    let e := exponentFor num den
    let (n, d) := scaleDown num den e
    let m := roundDiv n d
    let rest := if m < Nat.pow 2 52 then m else (e + 1075).toNat * Nat.pow 2 52 + (m - Nat.pow 2 52)
    if rest ≥ 2047 * Nat.pow 2 52 then infinity negative else assemble negative rest

/-- The double nearest to `digits * 10 ^ e`. A magnitude past the range of doubles is decided by
the number of digits alone. -/
def ofDecimal (negative : Bool) (digits : Nat) (e : Int) : Binary64 :=
  if digits = 0 then zero negative
  else
    let size : Int := (Nat.toDigits 10 digits).length + e
    if size > 320 then infinity negative
    else if size < -400 then zero negative
    else if 0 ≤ e then ofRatio negative (digits * Nat.pow 10 e.toNat) 1
    else ofRatio negative digits (Nat.pow 10 (-e).toNat)

/-- The double nearest to an integer. -/
def ofInt (n : Int) : Binary64 := ofRatio (n < 0) n.natAbs 1

/-- The value of a finite double as an integer over a power of two, namely numerator and
denominator. -/
def ratio (x : Binary64) : Int × Nat :=
  let (m, q) := x.magnitude
  let signed : Int := if x.isNegative then -(m : Int) else m
  if 0 ≤ q then (signed * Nat.pow 2 q.toNat, 1) else (signed, Nat.pow 2 (-q).toNat)

/-- Equality as numbers: zeros of both signs are equal, and what is not a number equals nothing. -/
def numericEq (x y : Binary64) : Bool :=
  if x.isNaN || y.isNaN then false
  else x == y || (x.magnitude.1 == 0 && y.magnitude.1 == 0)

/-- Equality of an integer and a double as numbers. -/
def eqInt (x : Binary64) (n : Int) : Bool :=
  if x.isNaN || x.isInfinite then false
  else
    let (p, q) := x.ratio
    p == n * q

/-- Neither zero. -/
def isNonzero (x : Binary64) : Bool := x.bits.toNat % Nat.pow 2 63 != 0

end Binary64

end LiteralLint
