import LiteralLint.Text

/-!
# String literals of a source

The text of a string literal stands between two quotes of one kind, and a backslash starts an
escape. An escape that denotes half of a surrogate pair denotes just that half.

## Main definitions

* `StringLiteral.escape`: the value and the length of the escape after a backslash.
* `StringLiteral.unescape`: a text with its escapes decoded.
* `StringLiteral.value`, `StringLiteral.plainValue`: with and without escapes.
-/

namespace LiteralLint.StringLiteral

/-- The three quotes. -/
def isQuote (c : CodePoint) : Bool := c == 39 || c == 34 || c == 96

/-- A text without the two equal quotes around it, if it has them. -/
def unquoted : Text → Text
  | [] => []
  | q :: rest =>
    if isQuote q && rest.getLast? == some q then rest.dropLast else q :: rest

/-- Escapes of one character, and line continuations, which denote nothing. -/
def simpleEscapes : List (CodePoint × Text) := [
  (('n' : Char), [10]), (('t' : Char), [9]), (('r' : Char), [13]), (('b' : Char), [8]),
  (('f' : Char), [12]), (('v' : Char), [11]), (('0' : Char), [0]),
  (10, []), (13, []), (0x2028, []), (0x2029, [])]

/-- Whether a text starts with a number of hexadecimal digits. -/
def hasHexDigits (n : Nat) (t : Text) : Bool :=
  (t.take n).length == n && (t.take n).all fun c => (Text.hexDigit? c).isSome

/-- The digits of an escape in braces, which need at least one; the text starts after the opening
brace. -/
def bracedDigits? (t : Text) : Option Text :=
  let digits := t.takeWhile fun c => (Text.hexDigit? c).isSome
  if !digits.isEmpty && (t.drop digits.length).head? == some 125 then some digits else none

/-- An escape in braces: its value, and its length after the backslash. A number beyond the last
code point denotes the escape as it is written. -/
def braced (digits : Text) : Text × Nat :=
  let n := Text.hexValue digits
  if n > Text.maxCodePoint then (Text.cat ["\\u\x7b", digits, "\x7d"], digits.length + 3)
  else ([n], digits.length + 3)

/-- Any other escape: the character itself, unless it is one of the simple ones. -/
def single : Text → Text × Nat
  | [] => ([92], 0)
  | 13 :: 10 :: _ => ([], 2)
  | c :: _ => ((simpleEscapes.lookup c).getD [c], 1)

/-- The escape at the start of the text after a backslash: its value, and how much of that text
it takes up. -/
def escape : Text → Text × Nat
  | 117 :: 123 :: rest =>
    match bracedDigits? rest with
    | some digits => braced digits
    | none => single (117 :: 123 :: rest)
  | 117 :: rest =>
    if hasHexDigits 4 rest then ([Text.hexValue (rest.take 4)], 5) else single (117 :: rest)
  | 120 :: rest =>
    if hasHexDigits 2 rest then ([Text.hexValue (rest.take 2)], 3) else single (120 :: rest)
  | t => single t

/-- A text with its escapes decoded. A backslash at the end stands for itself. -/
def unescape : Text → Text
  | [] => []
  | c :: rest =>
    if c = 92 then (escape rest).1 ++ unescape (rest.drop (escape rest).2)
    else c :: unescape rest
termination_by t => t.length
decreasing_by all_goals simp; try omega

/-- The value of a literal without escapes. -/
def plainValue (t : Text) : Text := unquoted t

/-- The value of a literal. -/
def value (t : Text) : Text := unescape (unquoted t)

end LiteralLint.StringLiteral
