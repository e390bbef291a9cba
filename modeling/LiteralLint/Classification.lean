import LiteralLint.Container
import LiteralLint.Json.Writer
import LiteralLint.Narrowing
import LiteralLint.Verdict

/-!
# Classification

The rules that decide whether a string literal is display text are tried in a fixed order, and
the first exemption wins:

1. a structural position: import source, object key, case label, type position, enum value, module
   name, operand of a comparison;
2. the initial value of a binding named in upper case;
3. inside a technical container; inside a translation container, unless the literal is a template
   with places to fill in, which is a violation of its own;
4. the value of an allow-listed markup attribute;
5. below an object property: text that is exempt by its value, or an allow-listed key; otherwise
   a complaint about the property is put on record, to be revoked by a later exemption;
6. an argument of a technical or translation call;
7. text that is empty, in upper case, or matches a value pattern;
8. text that the declared type includes;
9. otherwise a violation.

Text in markup is exempt inside a translation container and by its value only.

## Main definitions

* `Hearing`: what the rules look at.
* `Hearing.resolve`: the verdict on one node, and the complaint to report.
-/

namespace LiteralLint

/-- A question that was put to the type oracle; there is no answer if it failed. -/
structure Question where
  node : Nat
  text : Text
  answer : Option Bool

/-- The verdicts so far and the questions asked on the way. -/
structure Proceedings where
  table : VerdictTable
  questions : List Question := []

/-- A step of a ruling. What has been put on record stays if a later step fails. -/
abbrev Ruling := ExceptT NodeFault (StateM Proceedings)

/-- What the rules look at. -/
structure Hearing where
  program : Program
  config : Configuration
  marks : Marks
  oracle : Option Oracle := none

namespace Hearing

/-! ### Predicates -/

/-- Whether everything below a node of a kind is structure and not text. -/
def isStructural : NodeKind → Bool
  | .importLike => true
  | .typeLiteralPosition => true
  | .enumMember => true
  | .moduleDeclaration => true
  | _ => false

/-- Whether a child with a role is structure because of its parent. -/
def structuralEdge (role : Option String) (parent : Node) : Bool :=
  match parent.kind with
  | .objectProperty => role == some "key"
  | .switchCase => role == some "test"
  | .typeAssertion => true
  | .binaryOp => parent.operator != some "+"
  | _ => false

/-- Import sources, keys, case labels, type positions, enum values, module names, and operands of
operators other than concatenation. -/
def structuralPosition (h : Hearing) (i : Nat) : Bool :=
  (h.program.ancestors i).any (h.program.satisfies fun n => isStructural n.kind) ||
    match (h.program.parent? i).bind h.program.node? with
    | some parent => structuralEdge (h.program.roleAt i) parent
    | none => false

/-- The initial value of a binding whose name is in upper case. -/
def constantBinding (h : Hearing) (i : Nat) : Except NodeFault Bool :=
  match (h.program.parent? i).bind h.program.node? with
  | none => .ok false
  | some parent =>
    if h.program.roleAt i == some "value" && parent.kind == .variableBinding &&
        !parent.name.isMissing then
      parent.name.needText.map Baseline.isUpperCase
    else .ok false

/-- Whether a call is technical or a translation. -/
def isContainerCall (h : Hearing) (i : Nat) : Except NodeFault Bool := do
  if ← h.program.isTechnicalCall h.config i then return true
  else h.program.isTranslationCall h.config i

/-- The first call above, nearest first, that is reached from below through an argument. -/
def callOfArgument? (h : Hearing) : Nat → List Nat → Option Nat
  | _, [] => none
  | below, a :: rest =>
    if h.program.kindAt a == some .call && h.program.roleAt below == some "argument" then some a
    else callOfArgument? h a rest

/-- Whether the literal reaches a call through an argument and the nearest such call is technical
or a translation. -/
def argumentOfContainerCall (h : Hearing) (i : Nat) : Except NodeFault Bool :=
  match h.callOfArgument? i (h.program.ancestors i) with
  | none => .ok false
  | some call => h.isContainerCall call

/-- The name of the nearest opening of an element above. -/
def ownerTag (h : Hearing) (i : Nat) : Datum :=
  match h.program.nearestOfKind? i .elementOpening with
  | some opening => h.program.nameAt opening
  | none => .missing

/-- Whether the nearest attribute above, if there is one, is allow-listed. -/
def inIgnoredAttribute (h : Hearing) (i : Nat) (attr : Option Nat) : Except NodeFault Bool :=
  match attr with
  | none => .ok false
  | some a => h.config.ignoresAttribute (h.ownerTag i) (h.program.nameAt a)

/-- Whether the key of a property is allow-listed or in upper case. -/
def exemptsKey (h : Hearing) (key : Datum) : Except NodeFault Bool := do
  if key.isMissing then return false
  else if ← key.isOneOf h.config.properties then return true
  else return Baseline.isUpperCase (← key.needText)

/-- A template with places to fill in. -/
def hasNativeHole (n : Node) : Bool := n.hasHole || Baseline.hasHole n.literalText

/-- Whether the text of a node, without its outer blanks, is exempt by its value. -/
def exemptsText (h : Hearing) (n : Node) : Bool := h.config.exemptsValue (Text.strip n.literalText)

/-! ### Complaints -/

/-- The complaint about text of a translation with places of its own. -/
def placeholderComplaint (n : Node) : Complaint :=
  ⟨"placeholder", [("string", n.text), ("code", n.text)]⟩

/-- The complaint about the value of a property. -/
def propertyComplaint (h : Hearing) (n : Node) (property : Nat) : Complaint :=
  ⟨"property", [("string", n.text), ("code", h.program.textAt property)]⟩

/-- The complaint about the value of an attribute. -/
def attributeComplaint (h : Hearing) (i : Nat) (n : Node) (attr : Nat) : Complaint :=
  let opening := h.program.nearestOfKind? i .elementOpening
  let tag : Datum :=
    match opening with
    | some o => (h.program.nameAt o).orEmpty
    | none => .text []
  let code : Datum :=
    match opening with
    | some o => h.program.textAt o
    | none => .text []
  ⟨"attribute", [("string", n.text), ("attribute", (h.program.nameAt attr).orEmpty),
    ("tag", tag), ("code", code)]⟩

/-- The kinds from the root down to a node, as a line of JSON. -/
def ancestry (h : Hearing) (i : Nat) (n : Node) : Text :=
  let above := (h.program.ancestors i).reverse.filterMap h.program.kindAt
  Json.line .ascii (.array ((above ++ [n.kind]).map fun k => .text k.name))

/-- The complaint about any other literal. -/
def genericComplaint (h : Hearing) (i : Nat) (n : Node) : Complaint :=
  let code :=
    match h.program.parent? i with
    | some j => h.program.textAt j
    | none => n.text
  ⟨"literal", [("string", n.text), ("code", code), ("type", .text n.kind.name),
    ("ancestry", .text (h.ancestry i n))]⟩

/-! ### Rulings -/

/-- A question that can fail, as a step of a ruling. -/
def settle {α : Type} (e : Except NodeFault α) : Ruling α := ExceptT.mk (pure e)

/-- Puts an exemption on record. -/
def exempt (i : Nat) : Ruling Unit := modify fun s => { s with table := s.table.exempt i }

/-- Puts a complaint on record. -/
def complain (i : Nat) (c : Complaint) : Ruling Unit :=
  modify fun s => { s with table := s.table.complain i c }

/-- Asks the oracle, if there is one and the node is a string literal. -/
def typeIncludes (h : Hearing) (i : Nat) : Ruling Bool :=
  match h.oracle, Oracle.question? h.program i with
  | some o, some v =>
    match o.asks i v with
    | .ok b => do
      modify fun s => { s with questions := s.questions ++ [⟨i, v, some b⟩] }
      return b
    | .error f => do
      modify fun s => { s with questions := s.questions ++ [⟨i, v, none⟩] }
      throw f
  | _, _ => return false

/-- The ruling on text in markup. -/
def ruleText (h : Hearing) (i : Nat) (n : Node) : Ruling Unit :=
  if h.marks.insideTranslation h.program i then exempt i
  else if h.exemptsText n then exempt i
  else complain i ⟨"text", [("string", .text (Text.strip n.literalText))]⟩

/-- The last rules, from the arguments of calls on. -/
def ruleLast (h : Hearing) (i : Nat) (n : Node) (attr : Option Nat) : Ruling Unit := do
  if ← settle (h.argumentOfContainerCall i) then exempt i
  else if h.exemptsText n then exempt i
  else if ← h.typeIncludes i then exempt i
  else
    match attr with
    | some a => complain i (h.attributeComplaint i n a)
    | none =>
      let s ← get
      if (s.table.complaint? i).isNone then complain i (h.genericComplaint i n)

/-- The rules from object properties on. -/
def ruleProperty (h : Hearing) (i : Nat) (n : Node) (attr : Option Nat) : Ruling Unit :=
  match h.program.nearestOfKind? i .objectProperty with
  | none => h.ruleLast i n attr
  | some property => do
    if h.exemptsText n then exempt i
    else
      let key ← settle (h.program.propertyKey property)
      if ← settle (h.exemptsKey key) then exempt i
      else
        complain i (h.propertyComplaint n property)
        h.ruleLast i n attr

/-- The ruling on a literal or a template. -/
def ruleLiteral (h : Hearing) (i : Nat) (n : Node) : Ruling Unit := do
  if h.structuralPosition i then exempt i
  else if ← settle (h.constantBinding i) then exempt i
  else if h.marks.insideTechnical h.program i then exempt i
  else if h.marks.insideTranslation h.program i then
    if n.kind == .templateLiteral && hasNativeHole n then complain i (placeholderComplaint n)
    else exempt i
  else
    let attr := h.program.nearestOfKind? i .attribute
    if ← settle (h.inIgnoredAttribute i attr) then exempt i
    else h.ruleProperty i n attr

/-- The ruling on a node that carries text. -/
def rule (h : Hearing) (i : Nat) (n : Node) : Ruling Unit :=
  if n.kind == .text then h.ruleText i n else h.ruleLiteral i n

/-- Rules on a node and freezes it. The result is the complaint to report; there is none if the
node is exempt or carries no text. A node on which a rule fails is not frozen. -/
def resolve (h : Hearing) (i : Nat) : Ruling (Option Complaint) :=
  match h.program.node? i with
  | none => return none
  | some n =>
    if n.isString then do
      h.rule i n
      modify fun s => { s with table := s.table.freeze i }
      return (← get).table.complaint? i
    else return none

end Hearing

end LiteralLint
