import LiteralLint.Text.Printable

/-!
# Quoted text

Messages show a text between quotes: single ones, or double ones if the text holds a single
quote and no double one. A backslash and the enclosing quote are escaped by a backslash, line
feed, carriage return and tab have their letter, and every other code point that is not printable
is written in hexadecimal with two, four or eight digits.
-/

namespace LiteralLint.Text

/-- The quote that encloses a text. -/
def enclosingQuote (t : Text) : CodePoint :=
  if t.contains 39 && !t.contains 34 then 34 else 39

/-- One code point within quotes. -/
def quotedOne (quote c : CodePoint) : Text :=
  if c == 92 || c == quote then [92, c]
  else if c == 10 then "\\n"
  else if c == 13 then "\\r"
  else if c == 9 then "\\t"
  else if isPrintable c then [c]
  else if c < 0x100 then cat ["\\x", hex 2 c]
  else if c < 0x10000 then cat ["\\u", hex 4 c]
  else cat ["\\U", hex 8 c]

/-- A text as messages quote it. -/
def quoted (t : Text) : Text :=
  let quote := enclosingQuote t
  quote :: (t.flatMap (quotedOne quote) ++ [quote])

end LiteralLint.Text
