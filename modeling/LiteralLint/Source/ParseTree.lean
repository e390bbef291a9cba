import LiteralLint.Node
import LiteralLint.Text.Utf8
import LiteralLint.Tree

/-!
# Parse trees

A parser hands over an ordered tree of constructs. A construct is a stretch of the bytes of the
source with a type of the grammar, and with the field of its parent that it fills, if it fills
one. Anonymous constructs are the keywords and punctuation of the grammar.

## Main definitions

* `Construct`, `ParseTree`.
* `ParseTree.inField?`, `ParseTree.namedChildren`: the children a grammar speaks of.
* `ParseTree.text`, `ParseTree.span`: what a construct is in the source.
-/

namespace LiteralLint

/-- A construct of the grammar and its place in the source, in bytes. -/
structure Construct where
  type : String
  named : Bool
  field : Option String
  start : Nat
  stop : Nat
  deriving Inhabited, DecidableEq

/-- A tree of constructs. -/
abbrev ParseTree := Tree Construct

namespace ParseTree

/-- The type of the construct at the root. -/
def type (t : ParseTree) : String := t.label.type

/-- Whether the construct at the root is more than a keyword or punctuation. -/
def named (t : ParseTree) : Bool := t.label.named

/-- The field that the root fills in its parent. -/
def field (t : ParseTree) : Option String := t.label.field

/-- The children that are more than keywords and punctuation. -/
def namedChildren (t : ParseTree) : List ParseTree := t.children.filter named

/-- The first child that fills a field. -/
def inField? (name : String) (t : ParseTree) : Option ParseTree :=
  t.children.find? fun c => c.field == some name

/-- The source text of a construct; bytes that are not UTF-8 are replaced. -/
def text (source : Bytes) (t : ParseTree) : Text :=
  Utf8.decode ((source.take t.label.stop).drop t.label.start)

/-- The source text of the first child that fills a field. -/
def fieldText? (source : Bytes) (name : String) (t : ParseTree) : Option Text :=
  (t.inField? name).map (text source)

/-- Line and column of an offset: line feeds before it, and the distance from the last of them.
An offset beyond the end is on the last line. -/
def pointAt (source : Bytes) (offset : Nat) : Nat × Nat :=
  let before := source.take offset
  let onLine := (before.reverse.takeWhile (· != 10)).length
  (before.count 10, offset - (before.length - onLine))

/-- The place of a construct, lines from one and columns from zero. -/
def span (source : Bytes) (t : ParseTree) : Span :=
  let (startLine, startColumn) := pointAt source t.label.start
  let (endLine, endColumn) := pointAt source t.label.stop
  ⟨startLine + 1, startColumn, endLine + 1, endColumn⟩

end ParseTree

end LiteralLint
