import LiteralLint.Baseline
import LiteralLint.Json.Writer
import LiteralLint.Node
import LiteralLint.Tree

/-!
# Building trees by hand

Whoever has a parser of their own, or none, puts program trees together from these. Each builder
gives its children their roles and renders a rough source text, which messages show.

An operand can be written as text: a name, or a chain of names with points between them.
-/

namespace LiteralLint.Builder

/-- A tree of nodes. -/
abbrev NodeTree := Tree Node

/-- An operand: a tree, or names with points between them. -/
inductive Operand
  | tree (t : NodeTree)
  | names (t : Text)

/-- The tree in a role. -/
def inRole (role : String) (t : NodeTree) : NodeTree :=
  t.withLabel fun n => { n with role := some role }

/-- The trees in one role. -/
def allInRole (role : String) (ts : List NodeTree) : List NodeTree := ts.map (inRole role)

/-- The source text of a tree. -/
def source (t : NodeTree) : Text := t.label.text.text?.getD []

/-- The source texts of some trees with a separator between them. -/
def sources (sep : Text) (ts : List NodeTree) : Text := Text.join sep (ts.map source)

/-- A tree with a kind, a label, children and a source text. -/
def make (kind : NodeKind) (label : String) (children : List NodeTree) (text : Text) : NodeTree :=
  .node { kind := kind, label := label, text := .text text } children

/-- The tree with a name. -/
def named (name : Text) (t : NodeTree) : NodeTree :=
  t.withLabel fun n => { n with name := .text name }

/-- An identifier. -/
def ident (name : Text) : NodeTree := named name (make .identifier "identifier" [] name)

/-- The access to a member of an object. -/
def memberOf (object : NodeTree) (property : Text) : NodeTree :=
  named property (make .memberAccess "member_expression"
    [inRole "object" object, inRole "property" (ident property)]
    (Text.cat [source object, ".", property]))

/-- Names with points between them, as an identifier or a member chain. -/
def chain (names : Text) : NodeTree :=
  match Text.splitOn 46 names with
  | [] => ident []
  | first :: rest => rest.foldl memberOf (ident first)

/-- The tree of an operand. -/
def Operand.toTree : Operand → NodeTree
  | .tree t => t
  | .names t => chain t

/-- An operand in a role. -/
def operand (role : String) (o : Operand) : NodeTree := inRole role o.toTree

/-- The text of a literal value: as in JSON for a truth value, nothing or a string, and its
numeral otherwise. -/
def renderValue (v : Datum) : Except NodeFault Text :=
  match v with
  | .flag b => .ok (if b then "true" else "false")
  | .missing => .ok "null"
  | .text t => .ok (Json.escaped .unicode t)
  | d => d.shown

/-- A literal with a rendered text. -/
def literal (v : Datum) (text : Text) : NodeTree :=
  .node { kind := .literal, label := "string", value := v, text := .text text } []

/-- A string literal. -/
def stringLit (t : Text) : NodeTree := literal (.text t) (Json.escaped .unicode t)

/-- A literal of any value. -/
def lit (v : Datum) : Except NodeFault NodeTree := (renderValue v).map (literal v)

/-- A program. -/
def program (body : List NodeTree) : NodeTree :=
  make .other "program" (allInRole "body" body) (sources "\n" body)

/-- A template by its raw text. It has places to fill in if there are expressions or if the text
shows one. -/
def template (raw : Text) (expressions : List NodeTree) : NodeTree :=
  .node {
    kind := .templateLiteral
    label := "template_string"
    value := .text raw
    hasHole := !expressions.isEmpty || Baseline.hasHole raw
    text := .text (Text.cat [[96], raw, [96]]) } (allInRole "expression" expressions)

/-- Text in markup. -/
def text (t : Text) : NodeTree :=
  .node { kind := .text, label := "jsx_text", value := .text t, text := .text t } []

/-- The access to a member of an operand. -/
def member (object : Operand) (property : Text) : NodeTree := memberOf object.toTree property

/-- A call. -/
def call (callee : Operand) (args : List Operand) : NodeTree :=
  let callee := operand "callee" callee
  let args := args.map (operand "argument")
  make .call "call_expression" (callee :: args)
    (Text.cat [source callee, "(", sources ", " args, ")"])

/-- A call that includes a module. -/
def dynamicImport (origin : Operand) : NodeTree :=
  (call (.tree (ident "import")) [origin]).withLabel fun n => { n with includesModule := true }

/-- A binary operation. -/
def binary (left : Operand) (operator : Text) (right : Operand) : NodeTree :=
  let left := operand "left" left
  let right := operand "right" right
  (make .binaryOp "binary_expression" [left, right]
    (Text.cat [source left, " ", operator, " ", source right])).withLabel
      fun n => { n with operator := some operator }

/-- A conditional expression. -/
def conditional (test consequent alternate : Operand) : NodeTree :=
  let test := operand "test" test
  let consequent := operand "consequent" consequent
  let alternate := operand "alternate" alternate
  make .other "ternary_expression" [test, consequent, alternate]
    (Text.cat [source test, " ? ", source consequent, " : ", source alternate])

/-- An array. -/
def array (items : List Operand) : NodeTree :=
  let items := items.map (operand "element")
  make .other "array" items (Text.cat ["[", sources ", " items, "]"])

/-- A property of an object. A key that is text is one name, points and all. -/
def property (key value : Operand) (computed : Bool) : NodeTree :=
  let key :=
    match key with
    | .tree t => inRole "key" t
    | .names t => inRole "key" (ident t)
  let value := operand "value" value
  let keyText := if computed then Text.cat ["[", source key, "]"] else source key
  (make .objectProperty "pair" [key, value] (Text.cat [keyText, ": ", source value])).withLabel
    fun n => { n with computed := computed }

/-- An object. -/
def object (properties : List NodeTree) : NodeTree :=
  make .other "object" (allInRole "property" properties)
    (Text.cat ["\x7b", sources ", " properties, "\x7d"])

/-- The binding of a variable. -/
def binding (name : Text) (init : Option Operand) (declaredType : Option DeclaredType) :
    NodeTree :=
  let init := init.map (operand "value")
  let children := inRole "name" (ident name) :: init.toList
  let text :=
    match init with
    | some v => Text.cat [name, " = ", source v]
    | none => name
  (named name (make .variableBinding "variable_declarator" children text)).withLabel
    fun n => { n with declaredType := declaredType }

/-- An expression statement. -/
def statement (expr : NodeTree) : NodeTree :=
  make .other "expression_statement" [inRole "expression" expr] (Text.cat [source expr, ";"])

/-- An import or export with a source, and its text. -/
def moduleClause (label : String) (text origin : Text) (names : List Text) : NodeTree :=
  make .importLike label
    (names.map (fun n => inRole "specifier" (ident n)) ++ [inRole "source" (stringLit origin)]) text

/-- An import declaration. -/
def importDecl (origin : Text) (names : List Text) : NodeTree :=
  moduleClause "import_statement"
    (Text.cat ["import ", Text.join ", " names, " from ", Json.escaped .ascii origin, ";"])
    origin names

/-- An export from another module. -/
def exportFrom (origin : Text) (names : List Text) : NodeTree :=
  moduleClause "export_statement"
    (Text.cat ["export \x7b ", Text.join ", " names, " \x7d from ", Json.escaped .ascii origin, ";"])
    origin names

/-- A case of a switch; without a test it is the default. -/
def switchCase (test : Option Operand) (consequent : List NodeTree) : NodeTree :=
  let test := test.map (operand "test")
  let heading : Text :=
    match test with
    | some t => Text.cat ["case ", source t, ":"]
    | none => "default:"
  make .switchCase "switch_case" (test.toList ++ allInRole "consequent" consequent)
    (Text.join " " (heading :: consequent.map source))

/-- A switch. -/
def switch (discriminant : Operand) (cases : List NodeTree) : NodeTree :=
  let discriminant := operand "discriminant" discriminant
  make .other "switch_statement" (discriminant :: allInRole "case" cases)
    (Text.cat ["switch (", source discriminant, ") \x7b ", sources " " cases, " \x7d"])

/-- A position of types. -/
def typePosition (children : List NodeTree) : NodeTree :=
  make .typeLiteralPosition "literal_type" (allInRole "type" children) (sources " | " children)

/-- An expression with an asserted type. -/
def asExpr (expr : Operand) (typeName : Text) : NodeTree :=
  let expr := operand "expression" expr
  make .typeAssertion "as_expression" [expr, inRole "type" (typePosition [ident typeName])]
    (Text.cat [source expr, " as ", typeName])

/-- A member of an enumeration. -/
def enumMember (name : Text) (value : Operand) : NodeTree :=
  let value := operand "value" value
  named name (make .enumMember "enum_assignment" [inRole "name" (ident name), value]
    (Text.cat [name, " = ", source value]))

/-- The declaration of a module. -/
def moduleDecl (name : Text) : NodeTree :=
  let name := inRole "name" (stringLit name)
  make .moduleDeclaration "module" [name] (Text.cat ["declare module ", source name])

/-- A template with a tag. -/
def tagged (tag : Operand) (quasi : NodeTree) : NodeTree :=
  let tag := operand "tag" tag
  make .taggedTemplate "call_expression" [tag, inRole "quasi" quasi]
    (Text.cat [source tag, source quasi])

/-- The value of an attribute: a tree, or the text of a string literal. -/
def attributeValue : Operand → NodeTree
  | .tree t => inRole "value" t
  | .names t => inRole "value" (stringLit t)

/-- A markup attribute. -/
def attr (name : Text) (value : Option Operand) : NodeTree :=
  let value := value.map attributeValue
  let text :=
    match value with
    | some v => Text.cat [name, "=", source v]
    | none => name
  named name (make .attribute "jsx_attribute" value.toList text)

/-- An expression in markup. -/
def container (expr : NodeTree) : NodeTree :=
  make .other "jsx_expression" [inRole "expression" expr]
    (Text.cat ["\x7b", source expr, "\x7d"])

/-- A markup element: an opening with the attributes, then the body. -/
def element (tag : Text) (attrs body : List NodeTree) : NodeTree :=
  let opening := inRole "opening" (named tag (make .elementOpening "jsx_opening_element"
    (allInRole "attribute" attrs) (Text.cat ["<", Text.join " " (tag :: attrs.map source), ">"])))
  named tag (make .element "jsx_element" (opening :: allInRole "child" body)
    (Text.cat [source opening, sources [] body, "</", tag, ">"]))

/-- The tree with a place in a source. -/
def spanned (t : NodeTree) (span : Span) : NodeTree :=
  t.withLabel fun n => { n with span := some span }

end LiteralLint.Builder
