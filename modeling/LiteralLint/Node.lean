import LiteralLint.DeclaredType

/-!
# Nodes

A program is judged on records that a front end hands over: one per construct that matters, with
the role it plays in its parent. The judge never looks at the tree of a parser, only at these.

## Main definitions

* `NodeKind`: the constructs that are told apart.
* `Span`: a stretch of source, lines from one and columns from zero.
* `Node`: one record.
-/

namespace LiteralLint

/-- The constructs that are told apart. -/
inductive NodeKind
  | literal
  | templateLiteral
  | text
  | identifier
  | memberAccess
  | call
  | binaryOp
  | objectProperty
  | variableBinding
  | importLike
  | switchCase
  | typeLiteralPosition
  | typeAssertion
  | enumMember
  | moduleDeclaration
  | taggedTemplate
  | element
  | elementOpening
  | attribute
  | other
  deriving DecidableEq, Repr

namespace NodeKind

/-- The name of a kind in messages. -/
def name : NodeKind → String
  | .literal => "Literal"
  | .templateLiteral => "TemplateLiteral"
  | .text => "Text"
  | .identifier => "Identifier"
  | .memberAccess => "MemberAccess"
  | .call => "Call"
  | .binaryOp => "BinaryOp"
  | .objectProperty => "ObjectProperty"
  | .variableBinding => "VariableBinding"
  | .importLike => "ImportLike"
  | .switchCase => "SwitchCase"
  | .typeLiteralPosition => "TypeLiteralPosition"
  | .typeAssertion => "TypeAssertion"
  | .enumMember => "EnumMember"
  | .moduleDeclaration => "ModuleDeclaration"
  | .taggedTemplate => "TaggedTemplate"
  | .element => "Element"
  | .elementOpening => "ElementOpening"
  | .attribute => "Attribute"
  | .other => "Other"

/-- All kinds. -/
def all : List NodeKind :=
  [.literal, .templateLiteral, .text, .identifier, .memberAccess, .call, .binaryOp,
    .objectProperty, .variableBinding, .importLike, .switchCase, .typeLiteralPosition,
    .typeAssertion, .enumMember, .moduleDeclaration, .taggedTemplate, .element, .elementOpening,
    .attribute, .other]

/-- The kind with a name. -/
def ofName? (s : String) : Option NodeKind := all.find? fun k => k.name == s

/-- Whether nodes of a kind can carry text to judge. -/
def bearsText : NodeKind → Bool
  | .literal => true
  | .templateLiteral => true
  | .text => true
  | _ => false

end NodeKind

/-- A stretch of source. -/
structure Span where
  startLine : Int
  startColumn : Int
  endLine : Int
  endColumn : Int
  deriving DecidableEq, Repr

/-- One record of a program tree. -/
structure Node where
  kind : NodeKind
  /-- The part a node plays in its parent: key, value, callee, argument and so on. -/
  role : Option String := none
  /-- The decoded value of a literal; the raw text of a template. -/
  value : Datum := .missing
  /-- The name of an identifier, binding, tag, attribute or member, by kind. -/
  name : Datum := .missing
  operator : Option Text := none
  /-- An object key in brackets. -/
  computed : Bool := false
  /-- A template with places to fill in. -/
  hasHole : Bool := false
  /-- A call that includes a module. -/
  includesModule : Bool := false
  /-- The source text. -/
  text : Datum := .text []
  span : Option Span := none
  /-- What the producer calls the construct. -/
  label : String := ""
  declaredType : Option DeclaredType := none

namespace Node

/-- Whether a node carries text to judge. -/
def isString (n : Node) : Bool := n.kind.bearsText && n.value.text?.isSome

/-- The text that a literal carries; empty if it carries none. -/
def literalText (n : Node) : Text := n.value.text?.getD []

end Node

end LiteralLint
