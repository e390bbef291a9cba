import LiteralLint.Json
import LiteralLint.Binary64.Shortest

/-!
# Writing JSON

A string is written either in ASCII, with every other code point escaped by its UTF-16 units, or
with other code points as they are. Values are written on one line, with a blank after each comma
and colon, or with each item on a line of its own, indented by two places per level.

## Main definitions

* `Json.escaped`: a string between quotes.
* `Json.line`: a value on one line.
* `Json.indented`: a value over several lines.
-/

namespace LiteralLint.Json

/-- Which code points a written string may hold. -/
inductive Repertoire
  | ascii
  | unicode
  deriving DecidableEq

/-- An escape by one UTF-16 unit. -/
def unitEscape (n : Nat) : Text := Text.cat ["\\u", Text.hex 4 n]

/-- One code point within the quotes of a string. -/
def escapedOne (r : Repertoire) (c : CodePoint) : Text :=
  if c == 34 then "\\\""
  else if c == 92 then "\\\\"
  else if c == 10 then "\\n"
  else if c == 13 then "\\r"
  else if c == 9 then "\\t"
  else if c == 12 then "\\f"
  else if c == 8 then "\\b"
  else if c < 32 then unitEscape c
  else
    match r with
    | .unicode => [c]
    | .ascii =>
      if c < 127 then [c]
      else if c < 0x10000 then unitEscape c
      else
        let v := c - 0x10000
        unitEscape (0xD800 + v / 0x400) ++ unitEscape (0xDC00 + v % 0x400)

/-- A string between quotes. -/
def escaped (r : Repertoire) (t : Text) : Text := 34 :: (t.flatMap (escapedOne r) ++ [34])

/-- A number that is not whole, with the names of the values that are not finite. -/
def realNumeral (x : Binary64) : Text :=
  if x.isNaN then "NaN"
  else if x.isInfinite then (if x.isNegative then "-Infinity" else "Infinity")
  else x.numeral

mutual

/-- A value on one line. -/
def line (r : Repertoire) : Json → Text
  | .null => "null"
  | .bool b => if b then "true" else "false"
  | .int n => Text.ofInt n
  | .real x => realNumeral x
  | .text t => escaped r t
  | .array items => Text.cat ["[", itemsLine r items, "]"]
  | .object members => Text.cat ["\x7b", membersLine r members, "\x7d"]

/-- Items on one line. -/
def itemsLine (r : Repertoire) : List Json → Text
  | [] => []
  | [v] => line r v
  | v :: rest => Text.cat [line r v, ", ", itemsLine r rest]

/-- Members on one line. -/
def membersLine (r : Repertoire) : List (Text × Json) → Text
  | [] => []
  | [(k, v)] => Text.cat [escaped r k, ": ", line r v]
  | (k, v) :: rest => Text.cat [escaped r k, ": ", line r v, ", ", membersLine r rest]

end

/-- The start of a line at a level of nesting. -/
def newline (level : Nat) : Text := 10 :: List.replicate (2 * level) 32

mutual

/-- A value over several lines, the first of which starts at a level of nesting. -/
def indentedAt (r : Repertoire) (level : Nat) : Json → Text
  | .array (v :: rest) =>
    Text.cat ["[", itemsIndented r (level + 1) (v :: rest), newline level, "]"]
  | .object (m :: rest) =>
    Text.cat ["\x7b", membersIndented r (level + 1) (m :: rest), newline level, "\x7d"]
  | v => line r v

/-- Items on lines of their own. -/
def itemsIndented (r : Repertoire) (level : Nat) : List Json → Text
  | [] => []
  | [v] => newline level ++ indentedAt r level v
  | v :: rest => Text.cat [newline level, indentedAt r level v, ",", itemsIndented r level rest]

/-- Members on lines of their own. -/
def membersIndented (r : Repertoire) (level : Nat) : List (Text × Json) → Text
  | [] => []
  | [(k, v)] => Text.cat [newline level, escaped r k, ": ", indentedAt r level v]
  | (k, v) :: rest =>
    Text.cat [newline level, escaped r k, ": ", indentedAt r level v, ",",
      membersIndented r level rest]

end

/-- A value over several lines. -/
def indented (r : Repertoire) (v : Json) : Text := indentedAt r 0 v

end LiteralLint.Json
