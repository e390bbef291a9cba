import LiteralLint.Binary64

/-!
# Shortest decimal numerals of doubles

The numeral of a double has the fewest significant digits that read back as the same double, and
of those the digits nearest to its value. A number of digits fixes a decimal grid, and if any
point of the grid reads back then so does one of the two neighbours of the value on it; so for
one to seventeen digits it is enough to test two candidates, in exact arithmetic.

The numeral is positional if the decimal point falls between three places before the first digit
and sixteen after it, with `.0` at the end of a whole number; otherwise it has an exponent of at
least two digits.

## Main definitions

* `Binary64.shortest`: the digits and the place of the decimal point.
* `Binary64.numeral`: the numeral.
-/

namespace LiteralLint.Binary64

/-- The magnitudes that read back as a finite nonzero double, over a common denominator: the
value, the bounds on both sides, and whether the bounds themselves read back. -/
structure Cell where
  value : Nat
  low : Nat
  high : Nat
  den : Nat
  closed : Bool

/-- The cell of a finite nonzero double. Just above a power of two the lower bound is closer. -/
def cell (x : Binary64) : Cell :=
  let (m, q) := x.magnitude
  let narrow := x.fraction == 0 && x.exponentField > 1
  let quarter : Int := q - 2
  let up : Nat := if 0 ≤ quarter then Nat.pow 2 quarter.toNat else 1
  let den : Nat := if 0 ≤ quarter then 1 else Nat.pow 2 (-quarter).toNat
  { value := 4 * m * up
    low := (4 * m - (if narrow then 1 else 2)) * up
    high := (4 * m + 2) * up
    den := den
    closed := m % 2 == 0 }

/-- Whether `c * 10 ^ p` lies in the cell. -/
def Cell.holds (k : Cell) (c : Nat) (p : Int) : Bool :=
  let a := if 0 ≤ p then c * Nat.pow 10 p.toNat * k.den else c * k.den
  let s := if 0 ≤ p then 1 else Nat.pow 10 (-p).toNat
  if k.closed then k.low * s ≤ a && a ≤ k.high * s else k.low * s < a && a < k.high * s

/-- The distance of `c * 10 ^ p` from the value, over a denominator that depends on `p` alone. -/
def Cell.distance (k : Cell) (c : Nat) (p : Int) : Nat :=
  let a := if 0 ≤ p then c * Nat.pow 10 p.toNat * k.den else c * k.den
  let v := if 0 ≤ p then k.value else k.value * Nat.pow 10 (-p).toNat
  max a v - min a v

/-- The greatest `c` with `c * 10 ^ p` at most the value. -/
def Cell.floor (k : Cell) (p : Int) : Nat :=
  if 0 ≤ p then k.value / (k.den * Nat.pow 10 p.toNat)
  else k.value * Nat.pow 10 (-p).toNat / k.den

/-- The number `d` such that the value is at least `10 ^ (d - 1)` and less than `10 ^ d`, found by
descent from an upper bound. -/
def Cell.places (k : Cell) : Nat → Int → Int
  | 0, d => d
  | fuel + 1, d => if k.floor (d - 1) = 0 then places k fuel (d - 1) else d

/-- The nearer of the two neighbours of the value among the multiples of `10 ^ p`, if one of them
reads back. -/
def Cell.candidate? (k : Cell) (p : Int) : Option (Nat × Int) :=
  let c := k.floor p
  match k.holds c p, k.holds (c + 1) p with
  | true, true =>
    let below := k.distance c p
    let above := k.distance (c + 1) p
    if below < above || (below == above && c % 2 == 0) then some (c, p) else some (c + 1, p)
  | true, false => some (c, p)
  | false, true => some (c + 1, p)
  | false, false => none

/-- A coefficient without trailing zeros, with the exponent that makes up for them. -/
def dropZeros : Nat → Nat → Int → Nat × Int
  | 0, c, p => (c, p)
  | fuel + 1, c, p => if c % 10 = 0 && c != 0 then dropZeros fuel (c / 10) (p + 1) else (c, p)

/-- The digits of a finite nonzero double, and the place of the decimal point counted from before
the first digit. -/
def shortest (x : Binary64) : Text × Int :=
  let k := x.cell
  let d := k.places 700 310
  let found := (List.range 17).findSome? fun (n : Nat) => k.candidate? (d - ((n : Int) + 1))
  let (c, p) := found.getD (k.floor (d - 17), d - 17)
  let (c, p) := dropZeros 20 c p
  let digits := Text.ofNat c
  (digits, p + digits.length)

/-- The least and the greatest place of the decimal point in a positional numeral. -/
def positionalPlaces : Int × Int := (-3, 16)

/-- A numeral with the decimal point at a place, ending in `.0` if it is whole. -/
def positional (digits : Text) (point : Int) : Text :=
  if point ≤ 0 then Text.cat ["0.", List.replicate (-point).toNat 48, digits]
  else
    let n := point.toNat
    if digits.length ≤ n then
      Text.cat [digits, List.replicate (n - digits.length) 48, ".0"]
    else Text.cat [digits.take n, ".", digits.drop n]

/-- A numeral with an exponent of at least two digits. -/
def scientific (digits : Text) (point : Int) : Text :=
  let e := point - 1
  let size := Text.ofNat e.natAbs
  let mantissa : Text :=
    match digits with
    | [] => []
    | [c] => [c]
    | c :: rest => Text.cat [[c], ".", rest]
  let sign : Text := if e < 0 then "-" else "+"
  Text.cat [mantissa, "e", sign, List.replicate (2 - size.length) 48, size]

/-- The shortest decimal numeral of a double. -/
def numeral (x : Binary64) : Text :=
  if x.isNaN then "nan"
  else
    let sign : Text := if x.isNegative then "-" else ""
    if x.isInfinite then Text.cat [sign, "inf"]
    else if !x.isNonzero then Text.cat [sign, "0.0"]
    else
      let (digits, point) := x.shortest
      let (least, greatest) := positionalPlaces
      let unsigned :=
        if least ≤ point && point ≤ greatest then positional digits point
        else scientific digits point
      Text.cat [sign, unsigned]

end LiteralLint.Binary64
