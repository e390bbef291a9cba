/-!
# Text as code points

Program text, decoded escapes and patterns are lists of code points. A list of `Char` would not
do: an escape such as a lone half of a surrogate pair denotes a code point that no `Char` holds,
and such a value still has to be compared, matched and written back.

## Main definitions

* `Text`: a list of code points, with a coercion from string literals.
* `Text.toString?`: the string a text denotes, when every code point is a scalar value.
* `Text.splitOn`, `Text.join`, `Text.cat`, `Text.stripOf`, `Text.startsWith`, `Text.endsWith`.
-/

namespace LiteralLint

/-- A Unicode code point, the surrogates U+D800 to U+DFFF included. -/
abbrev CodePoint := Nat

/-- A finite sequence of code points. -/
abbrev Text := List CodePoint

/-- A character counts as its code point. -/
instance : Coe Char CodePoint := ⟨Char.toNat⟩

namespace Text

/-- The code points of a string. -/
def ofString (s : String) : Text := s.toList.map Char.toNat

instance : Coe String Text := ⟨ofString⟩

/-- The greatest code point. -/
def maxCodePoint : CodePoint := 0x10FFFF

/-- A surrogate stands alone in a text and denotes no character. -/
def isSurrogate (c : CodePoint) : Bool := 0xD800 ≤ c && c ≤ 0xDFFF

/-- A scalar value is a code point that a character can hold. -/
def isScalar (c : CodePoint) : Bool := c ≤ maxCodePoint && !isSurrogate c

/-- The string with these code points, if every one of them is a scalar value. -/
def toString? (t : Text) : Option String :=
  if t.all isScalar then some (String.ofList (t.map Char.ofNat)) else none

/-- The string with these code points, where a surrogate becomes U+FFFD. -/
def toStringLossy (t : Text) : String :=
  String.ofList (t.map fun c => if isScalar c then Char.ofNat c else Char.ofNat 0xFFFD)

/-! ### Affixes -/

/-- Whether `p` is an initial segment of `t`. -/
def startsWith (t p : Text) : Bool := p.isPrefixOf t

/-- Whether `p` is a final segment of `t`. -/
def endsWith (t p : Text) : Bool := p.isSuffixOf t

/-- The text without the code points of a class at its two ends. -/
def stripOf (drop : CodePoint → Bool) (t : Text) : Text :=
  ((t.dropWhile drop).reverse.dropWhile drop).reverse

/-- The text without trailing code points of a class. -/
def stripEndOf (drop : CodePoint → Bool) (t : Text) : Text :=
  (t.reverse.dropWhile drop).reverse

/-! ### Splitting and joining -/

/-- The pieces between occurrences of a separator; always at least one. -/
def splitOn (sep : CodePoint) : Text → List Text
  | [] => [[]]
  | c :: rest =>
    if c = sep then [] :: splitOn sep rest
    else
      match splitOn sep rest with
      | [] => [[c]]
      | piece :: pieces => (c :: piece) :: pieces

/-- The pieces with a separator between neighbours. -/
def join (sep : Text) : List Text → Text
  | [] => []
  | [t] => t
  | t :: rest => t ++ sep ++ join sep rest

/-- The parts one after the other. -/
def cat (parts : List Text) : Text := parts.flatten

/-! ### Numerals -/

/-- The decimal digits of a natural number, most significant first. -/
def ofNat (n : Nat) : Text := (Nat.toDigits 10 n).map Char.toNat

/-- The decimal numeral of an integer, with a minus sign before the digits of a negative one. -/
def ofInt : Int → Text
  | .ofNat n => ofNat n
  | .negSucc n => (('-' : Char) : CodePoint) :: ofNat (n + 1)

/-- Lower-case hexadecimal digits, padded with zeros to a width. -/
def hex (width : Nat) (n : Nat) : Text :=
  let digits := (Nat.toDigits 16 n).map Char.toNat
  List.replicate (width - digits.length) (('0' : Char) : CodePoint) ++ digits

/-- The value of a hexadecimal digit of either case. -/
def hexDigit? (c : CodePoint) : Option Nat :=
  if 48 ≤ c && c ≤ 57 then some (c - 48)
  else if 97 ≤ c && c ≤ 102 then some (c - 87)
  else if 65 ≤ c && c ≤ 70 then some (c - 55)
  else none

/-- The number written by hexadecimal digits. -/
def hexValue (digits : Text) : Nat :=
  digits.foldl (fun n c => 16 * n + (hexDigit? c).getD 0) 0

/-! ### ASCII letters and digits -/

/-- An ASCII decimal digit. -/
def isAsciiDigit (c : CodePoint) : Bool := 48 ≤ c && c ≤ 57

/-- An ASCII letter of either case. -/
def isAsciiLetter (c : CodePoint) : Bool := (65 ≤ c && c ≤ 90) || (97 ≤ c && c ≤ 122)

/-- The number written by ASCII decimal digits. -/
def decimalValue (digits : Text) : Nat := digits.foldl (fun n c => 10 * n + (c - 48)) 0

/-- The order of texts: by the first differing code point, a proper initial segment first. -/
def lt : Text → Text → Bool
  | [], [] => false
  | [], _ :: _ => true
  | _ :: _, [] => false
  | a :: s, b :: t => if a < b then true else if b < a then false else lt s t

/-- The reflexive order that belongs to `lt`. -/
def le (s t : Text) : Bool := !lt t s

/-- The distinct texts of a list in ascending order. -/
def sortedDistinct (ts : List Text) : List Text :=
  (ts.eraseDups).mergeSort le

end Text

end LiteralLint
