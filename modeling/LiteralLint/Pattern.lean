import LiteralLint.Text.Numeral
import LiteralLint.Text.Blank
import LiteralLint.Text.Case

/-!
# Patterns

A pattern is a regular expression with captures, back references, look-around, atomic groups and
three kinds of repetition. All flags are resolved when a pattern is read: each character set
knows how it treats case and which classes it means, and each anchor knows whether it works by
lines, so matching needs no flags.

## Main definitions

* `Pattern`: the expression.
* `Pattern.Charset.holds`: whether a code point belongs to a character set.
* `Pattern.width`: the least and the greatest length of a match.
-/

namespace LiteralLint.Pattern

/-- How case is treated. -/
inductive Folding
  | exact
  | ascii
  | unicode
  deriving DecidableEq, Repr

/-- A class of code points with a name of its own. -/
inductive Category
  | digit
  | space
  | word
  deriving DecidableEq, Repr

/-- One item of a character set. -/
inductive Item
  | one (c : CodePoint)
  | range (first last : CodePoint)
  | category (k : Category) (negated : Bool)
  deriving DecidableEq, Repr

/-- A set of code points. `narrow` restricts the named classes to ASCII. -/
structure Charset where
  negated : Bool
  items : List Item
  folding : Folding
  narrow : Bool
  deriving DecidableEq, Repr

/-- A condition on a place between code points. -/
inductive Anchor
  | textStart
  | textEnd
  /-- The end, or before a line feed that ends the text. -/
  | finalLineEnd
  | lineStart
  | lineEnd
  | wordBoundary (narrow negated : Bool)
  deriving DecidableEq, Repr

/-- How a repetition chooses its number of rounds. -/
inductive Greed
  | greedy
  | lazily
  | possessive
  deriving DecidableEq, Repr

/-- Which way a look-around looks; a look behind goes back by a fixed number of code points. -/
inductive Direction
  | ahead
  | behind (width : Nat)
  deriving DecidableEq, Repr

/-- The least and the greatest length of a match, up to `unboundedWidth`. -/
abbrev Width := Nat × Nat

/-- The length that stands for no bound. -/
def unboundedWidth : Nat := 0x10000000000000000

end Pattern

open Pattern in
/-- A regular expression. Groups are numbered from one. -/
inductive Pattern
  | empty
  | chars (s : Charset)
  | anchor (a : Anchor)
  | seq (first second : Pattern)
  | alt (first second : Pattern)
  | rounds (greed : Greed) (least : Nat) (most : Option Nat) (body : Pattern)
  | group (number : Nat) (body : Pattern)
  | atomic (body : Pattern)
  | look (direction : Direction) (negated : Bool) (body : Pattern)
  /-- The text of a group again; `width` is that of the group. -/
  | again (number : Nat) (folding : Folding) (width : Width)
  /-- One of two expressions, by whether a group has a text. -/
  | ifGroup (number : Nat) (yes no : Pattern)

namespace Pattern

/-! ### Character sets -/

/-- ASCII white space. -/
def isAsciiSpace (c : CodePoint) : Bool := c == 32 || (9 ≤ c && c ≤ 13)

/-- ASCII letters, digits and the underscore. -/
def isAsciiWord (c : CodePoint) : Bool := Text.isAsciiLetter c || Text.isAsciiDigit c || c == 95

/-- Membership in a named class. -/
def Category.holds (narrow : Bool) (c : CodePoint) : Category → Bool
  | .digit => if narrow then Text.isAsciiDigit c else Text.isDigit c
  | .space => if narrow then isAsciiSpace c else Text.isBlank c
  | .word => if narrow then isAsciiWord c else Text.isWord c

/-- Membership in an item, case being significant. -/
def Item.holds (narrow : Bool) (c : CodePoint) : Item → Bool
  | .one d => c == d
  | .range first last => first ≤ c && c ≤ last
  | .category k negated => Category.holds narrow c k != negated

/-- Lower case as far as a folding goes. -/
def Folding.lower : Folding → CodePoint → CodePoint
  | .exact, c => c
  | .ascii, c => Text.asciiLowerCase c
  | .unicode, c => Text.lowerCase c

/-- The code points that a folding treats as equal to a lower-case one, besides itself. -/
def Folding.kin : Folding → CodePoint → List CodePoint
  | .unicode, c => Text.lowerCaseKin c
  | _, _ => []

/-- Whether a folding finds a code point with a case. -/
def Folding.cased : Folding → CodePoint → Bool
  | .exact, _ => false
  | .ascii, c => Text.isAsciiLetter c
  | .unicode, c => Text.isCased c

/-- The code points whose lower case, as far as a folding goes, is the given one. -/
def Folding.origins (f : Folding) (c : CodePoint) : List CodePoint :=
  let raised : List CodePoint :=
    match f with
    | .exact => []
    | .ascii => if 97 ≤ c && c ≤ 122 then [c - 32] else []
    | .unicode => Text.lowerCaseOrigins c
  if f.lower c == c then c :: raised else raised

/-- The greatest code point of the basic plane; ranges above it fold by a rule of their own. -/
def lastBasic : CodePoint := 0xFFFF

/-- Whether an item has a code point with a case. An item that reaches beyond the basic plane
counts as one that has. -/
def Item.cased (f : Folding) : Item → Bool
  | .one c => f.cased c || f.lower c > lastBasic
  | .range first last =>
    last > lastBasic || (List.range' first (last + 1 - first)).any f.cased
  | .category _ _ => false

/-- Membership of a code point, given in lower case, in an item regardless of case. -/
def Item.holdsFolded (f : Folding) (narrow : Bool) (c : CodePoint) : Item → Bool
  | .one d =>
    let l := f.lower d
    if l > lastBasic then c == d else c == l || (f.kin l).contains c
  | .range first last =>
    let basic := ((c :: f.kin c).flatMap f.origins).any fun d =>
      first ≤ d && d ≤ last && d ≤ lastBasic
    let beyond := last > lastBasic &&
      ((first ≤ c && c ≤ last) || (first ≤ Text.upperCase c && Text.upperCase c ≤ last))
    basic || beyond
  | .category k negated => Category.holds narrow c k != negated

/-- Membership of a code point in a single one regardless of case. -/
def foldedEq (f : Folding) (c d : CodePoint) : Bool :=
  if f.cased d then
    let l := f.lower d
    f.lower c == l || (f.kin l).contains (f.lower c)
  else c == d

/-- Membership in the items of a set. Case counts if no item has a code point with a case. -/
def Charset.holdsSome (s : Charset) (c : CodePoint) : Bool :=
  match s.folding, s.items with
  | .exact, items => items.any (Item.holds s.narrow c)
  | f, [.one d] => foldedEq f c d
  | f, items =>
    if items.any (Item.cased f) then items.any (Item.holdsFolded f s.narrow (f.lower c))
    else items.any (Item.holds s.narrow c)

/-- Membership in a set. -/
def Charset.holds (s : Charset) (c : CodePoint) : Bool := s.holdsSome c != s.negated

/-! ### Widths -/

/-- The least and the greatest length of a match. -/
def widthRaw : Pattern → Width
  | .empty => (0, 0)
  | .chars _ => (1, 1)
  | .anchor _ => (0, 0)
  | .seq p q => (p.widthRaw.1 + q.widthRaw.1, p.widthRaw.2 + q.widthRaw.2)
  | .alt p q => (min p.widthRaw.1 q.widthRaw.1, max p.widthRaw.2 q.widthRaw.2)
  | .rounds _ least most body =>
    let (lo, hi) := body.widthRaw
    let high :=
      match most with
      | some n => hi * n
      | none => if hi = 0 then 0 else unboundedWidth
    (lo * least, high)
  | .group _ body => body.widthRaw
  | .atomic body => body.widthRaw
  | .look _ _ _ => (0, 0)
  | .again _ _ w => w
  | .ifGroup _ yes no => (min yes.widthRaw.1 no.widthRaw.1, max yes.widthRaw.2 no.widthRaw.2)

/-- The least and the greatest length of a match, up to `unboundedWidth`. -/
def width (p : Pattern) : Width :=
  (min p.widthRaw.1 unboundedWidth, min p.widthRaw.2 unboundedWidth)

end LiteralLint.Pattern
