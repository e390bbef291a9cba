import LiteralLint.Source.TypeAnnotation

/-!
# The node for a construct

Every construct becomes one node, with three exceptions: comments and closing tags are dropped,
parentheses and the braces of a template give way to the expression inside, and an argument list
is flattened into its call. A self-closing element becomes an element with an opening tag, as if
it had been written with two tags.

## Main definitions

* `Conversion.Task`: a construct that is still to be converted.
* `Conversion.core?`: what a construct gives way to.
* `Conversion.expand`: the node for one construct, and the tasks below it.
-/

namespace LiteralLint

namespace Conversion

/-! ### Constructs by type -/

/-- Constructs that are dropped. -/
def isDropped (type : String) : Bool :=
  type == "comment" || type == "html_comment" || type == "jsx_closing_element"

/-- Constructs that give way to the expression inside. -/
def isTransparent (type : String) : Bool :=
  type == "parenthesized_expression" || type == "template_substitution"

/-- Constructs that are names. -/
def identifierTypes : List String := [
  "identifier", "property_identifier", "private_property_identifier",
  "shorthand_property_identifier", "shorthand_property_identifier_pattern", "type_identifier",
  "statement_identifier", "this", "super", "undefined"]

/-- Constructs in which only types stand. -/
def typePositionTypes : List String := [
  "type_annotation", "opting_type_annotation", "omitting_type_annotation",
  "adding_type_annotation", "asserts_annotation", "type_predicate_annotation",
  "type_alias_declaration", "interface_declaration", "type_arguments", "type_parameters",
  "literal_type", "lookup_type", "index_type_query"]

/-- The kinds of nodes that follow from the type of a construct alone. -/
def kindTable : List (String × NodeKind) := [
  ("import_statement", .importLike),
  ("binary_expression", .binaryOp),
  ("member_expression", .memberAccess),
  ("subscript_expression", .memberAccess),
  ("pair", .objectProperty),
  ("pair_pattern", .objectProperty),
  ("object_assignment_pattern", .objectProperty),
  ("variable_declarator", .variableBinding),
  ("required_parameter", .variableBinding),
  ("optional_parameter", .variableBinding),
  ("switch_case", .switchCase),
  ("as_expression", .typeAssertion),
  ("satisfies_expression", .typeAssertion),
  ("type_assertion", .typeAssertion),
  ("enum_assignment", .enumMember),
  ("module", .moduleDeclaration),
  ("internal_module", .moduleDeclaration),
  ("jsx_attribute", .attribute),
  ("jsx_opening_element", .elementOpening)]

/-- The kind that follows from the type of a construct alone. -/
def tableKind (type : String) : NodeKind := (kindTable.lookup type).getD .other

/-- The roles of fields, for constructs whose roles are not named as the fields are. -/
def roleTable : List (String × List (String × String)) := [
  ("call_expression", [("function", "callee")]),
  ("object_assignment_pattern", [("left", "key"), ("right", "value")]),
  ("switch_case", [("value", "test"), ("body", "consequent")]),
  ("ternary_expression",
    [("condition", "test"), ("consequence", "consequent"), ("alternative", "alternate")]),
  ("subscript_expression", [("index", "property")]),
  ("method_definition", [("name", "key")])]

/-- The role of a child by the field it fills; a child that fills none is just a child. -/
def roleOf (type : String) (field : Option String) : String :=
  match field with
  | none => "child"
  | some "" => "child"
  | some f => (((roleTable.lookup type).getD []).lookup f).getD f

/-! ### What is left to do -/

/-- A construct to convert, the role of its node, and the type of the construct around it. -/
structure Task where
  tree : ParseTree
  role : Option String
  within : String

/-- The node for one construct, and what is left to convert below it. -/
structure Expansion where
  node : Node
  /-- Subtrees that need no conversion. They come before those that do. -/
  ready : List (Tree Node) := []
  tasks : List Task := []
  /-- The node takes its name from children of this kind. -/
  namedBy : Option NodeKind := none
  /-- A node to put around this one. -/
  around : Option Node := none
  /-- Names of types that were expanded. -/
  expansions : List TypeAnnotation.Expansion := []

/-- What conversion knows about a file: its bytes, and its types if they count. -/
structure Context where
  source : Bytes
  aliases : Option TypeAliases

mutual

/-- What a construct gives way to, with the type of the construct around that. -/
def core? (within : String) : ParseTree → Option (ParseTree × String)
  | .node c cs =>
    if isDropped c.type then none
    else if isTransparent c.type then firstCore? c.type cs
    else some (.node c cs, within)

/-- What the first expression of some constructs gives way to. -/
def firstCore? (within : String) : List ParseTree → Option (ParseTree × String)
  | [] => none
  | t :: rest =>
    if t.named && !isDropped t.type then core? within t else firstCore? within rest

end

/-! ### The node for one construct -/

variable (ctx : Context)

/-- The node with what every construct has: a kind by its type, a role, its text and place. -/
def plainNode (t : ParseTree) (role : Option String) : Node :=
  { kind := tableKind t.type
    role := role
    text := .text (t.text ctx.source)
    span := some (t.span ctx.source)
    label := t.type }

/-- A task for a child of a construct. -/
def childTask (parent : ParseTree) (role : String) (child : ParseTree) : Task :=
  ⟨child, some role, parent.type⟩

/-- Tasks for the named children, in the roles of their fields. -/
def childTasks (t : ParseTree) : List Task :=
  t.namedChildren.map fun c => childTask t (roleOf t.type c.field) c

/-- The text of a field, as a name. -/
def fieldName (name : String) (t : ParseTree) : Datum :=
  match t.fieldText? ctx.source name with
  | some text => .text text
  | none => .missing

/-- The node with the name or operator that its kind calls for. -/
def named (t : ParseTree) (n : Node) : Node :=
  match n.kind with
  | .binaryOp => { n with operator := t.fieldText? ctx.source "operator" }
  | .memberAccess =>
    if t.type == "subscript_expression" then { n with computed := true }
    else { n with name := fieldName ctx "property" t }
  | .elementOpening => { n with name := fieldName ctx "name" t }
  | .enumMember => { n with name := fieldName ctx "name" t }
  | .moduleDeclaration => { n with name := fieldName ctx "name" t }
  | _ => n

/-- A literal. -/
def literal (n : Node) (value : Datum) : Expansion :=
  { node := { n with kind := .literal, value := value } }

/-- A template: its raw text, and the expressions in it. -/
def template (t : ParseTree) (n : Node) : Expansion :=
  let raw := (t.text ctx.source).drop 1 |>.dropLast
  let holes := t.children.filter fun c : ParseTree => c.type == "template_substitution"
  { node := { n with kind := .templateLiteral, value := .text raw, hasHole := !holes.isEmpty }
    tasks := holes.map (childTask t "expression") }

/-- A call, or a template with a tag, which the grammar takes for one. -/
def call (t : ParseTree) (n : Node) : Expansion :=
  let function := t.inField? "function"
  let callee (role : String) := function.toList.map (childTask t role)
  match t.inField? "arguments" with
  | none =>
    { node := { n with
        kind := .call, includesModule := function.any fun f => f.type == "import" }
      tasks := callee "callee" }
  | some arguments =>
    if arguments.type == "template_string" then
      { node := { n with kind := .taggedTemplate }
        tasks := callee "tag" ++ [childTask t "quasi" arguments]
        namedBy := some .identifier }
    else
      { node := { n with
          kind := .call, includesModule := function.any fun f => f.type == "import" }
        tasks := callee "callee" ++ arguments.namedChildren.map (childTask arguments "argument") }

/-- An element with an opening and a closing tag. It has the name of its opening tag. -/
def element (t : ParseTree) (n : Node) : Expansion :=
  { node := { n with kind := .element }
    tasks := t.namedChildren.map fun c =>
      childTask t (if c.field == some "open_tag" then "opening" else "child") c
    namedBy := some .elementOpening }

/-- An element with one tag, which is also its opening tag. -/
def selfClosingElement (t : ParseTree) (n : Node) : Expansion :=
  let opening := named ctx t { n with kind := .elementOpening, role := some "opening" }
  { node := opening
    tasks := childTasks t
    around := some { n with kind := .element, name := opening.name } }

/-- The value of an attribute when it is a string, which has no escapes in markup. -/
def attributeString (t : ParseTree) : Node :=
  { kind := .literal
    role := some "value"
    value := .text (StringLiteral.plainValue (t.text ctx.source))
    text := .text (t.text ctx.source)
    span := some (t.span ctx.source)
    label := t.type }

/-- An attribute: a name, and values. -/
def attr (t : ParseTree) (n : Node) : Expansion :=
  match t.namedChildren with
  | [] => { node := n }
  | name :: values =>
    let isString (v : ParseTree) : Bool := v.type == "string"
    { node := { n with name := .text (name.text ctx.source) }
      ready := (values.filter isString).map fun v => .node (attributeString ctx v) []
      tasks := (values.filter fun v => !isString v).map (childTask t "value") }

/-- A key in brackets. -/
def isComputedKey (role : String) (c : ParseTree) : Bool :=
  role == "key" && c.type == "computed_property_name"

/-- A task for a part of an object property. A key in brackets gives way to the expression
inside. -/
def propertyTask? (t c : ParseTree) : Option Task :=
  let role := roleOf t.type c.field
  if isComputedKey role c then c.namedChildren.head?.map (childTask c role)
  else some (childTask t role c)

/-- A property of an object or of a pattern. -/
def property (t : ParseTree) (n : Node) : Expansion :=
  { node := { n with
      computed := t.namedChildren.any fun c => isComputedKey (roleOf t.type c.field) c }
    tasks := t.namedChildren.filterMap (propertyTask? t) }

/-- The role of a part of a binding: its target is a name or a pattern. -/
def bindingRole (target : String) (c : ParseTree) : String :=
  if c.field == some target then
    if c.type == "identifier" then "name" else "pattern"
  else roleOf "" c.field

/-- A variable or a parameter. Only a variable has a name of its own; either can declare a type. -/
def binding (t : ParseTree) (n : Node) : Expansion :=
  let isVariable := t.type == "variable_declarator"
  let target := if isVariable then "name" else "pattern"
  let names := t.namedChildren.filter fun c => bindingRole target c == "name" && c.field == some target
  let name : Datum := match names.getLast? with
    | some c => if isVariable then .text (c.text ctx.source) else .missing
    | none => .missing
  let tasks := t.namedChildren.map fun c => childTask t (bindingRole target c) c
  match ctx.aliases, t.inField? "type" with
  | some aliases, some annotated =>
    let r := TypeAnnotation.resolve ctx.source aliases annotated
    { node := { n with name := name, declaredType := r.result }
      tasks := tasks
      expansions := r.expansions }
  | _, _ => { node := { n with name := name }, tasks := tasks }

/-- The role of a part of a type assertion. -/
def assertionRole (type : String) (position : Nat) (c : ParseTree) : String :=
  if type == "type_assertion" then if c.type == "type_arguments" then "type" else "expression"
  else if position = 0 then "expression" else "type"

/-- A type assertion: an expression and a type. -/
def assertion (t : ParseTree) (n : Node) : Expansion :=
  let parts := t.namedChildren.filter fun c => !isDropped c.type
  { node := n
    tasks := parts.mapIdx fun i c => childTask t (assertionRole t.type i c) c }

/-- Any other construct. -/
def general (t : ParseTree) (n : Node) : Expansion :=
  let kind : NodeKind :=
    if t.type == "export_statement" && (t.inField? "source").isSome then .importLike
    else if typePositionTypes.contains t.type then .typeLiteralPosition
    else n.kind
  { node := named ctx t { n with kind := kind }, tasks := childTasks t }

/-- The node for a construct, and what is left to convert below it. -/
def expand (task : Task) : Expansion :=
  let t := task.tree
  let n := plainNode ctx t task.role
  let text := t.text ctx.source
  match t.type with
  | "string" => literal n (.text (StringLiteral.value text))
  | "template_string" => template ctx t n
  | "number" => literal n (NumberLiteral.value text)
  | "true" => literal n (.flag true)
  | "false" => literal n (.flag false)
  | "null" => literal n .missing
  | "regex" => literal n .missing
  | "jsx_text" => { node := { n with kind := .text, value := .text text } }
  | "call_expression" => call t n
  | "jsx_element" => element t n
  | "jsx_self_closing_element" => selfClosingElement ctx t n
  | "jsx_attribute" => attr ctx t n
  | type =>
    if identifierTypes.contains type then
      { node := { n with kind := .identifier, name := .text text } }
    else if n.kind == .objectProperty then property t n
    else if type == "method_definition" && task.within == "object" then
      { node := { n with kind := .objectProperty }, tasks := childTasks t }
    else if n.kind == .variableBinding then binding ctx t n
    else if n.kind == .typeAssertion then assertion t n
    else general ctx t n

end Conversion

end LiteralLint
