import LiteralLint.Program

/-!
# Narrowing by declared types

A type system can be asked one question: does the contextual type of this expression include this
text as a literal member? If it does, the text is an identifier of the program and not display
text. Without an oracle the question is not asked.

The declared oracle answers from the types on variable bindings. It climbs from a literal to the
nearest binding through object values, patterns and parentheses, and collects the property keys
on the way; then it follows the keys into the declared type, outermost first.

## Main definitions

* `Oracle`: who answers the question.
* `Program.includesLiteral`: the answer from declared types.
* `Oracle.declared`: the oracle that gives it.
-/

namespace LiteralLint

/-- Who answers whether the contextual type of a node includes a text. -/
structure Oracle where
  asks : Nat → Text → Except NodeFault Bool

/-- A node that a question is about: one of the program, or one from elsewhere. -/
inductive Subject
  | member (i : Nat)
  | foreign
  deriving DecidableEq

namespace Program

/-- What wraps a literal without changing its contextual type. -/
def transparentLabels : List String := ["object", "object_pattern", "parenthesized_expression"]

/-- What a climb meets at a parent. -/
inductive Rung
  /-- The climb ends without a type. -/
  | stop
  /-- A binding, with its type. -/
  | binding (t : Option DeclaredType)
  /-- A wrapper that is passed. -/
  | wrapper
  /-- An object property that is passed through its value. -/
  | property

/-- What a climb from a child with a role meets at its parent. -/
def rung (role : Option String) (parent : Node) : Rung :=
  match parent.kind with
  | .objectProperty => if role == some "value" then .property else .stop
  | .variableBinding =>
    if role == some "value" || role == some "pattern" then .binding parent.declaredType else .stop
  | .other => if transparentLabels.contains parent.label then .wrapper else .stop
  | _ => .stop

/-- The type of the nearest binding above a node and the keys on the way to it, innermost
first, going up at most some levels. -/
def bindingTypeUpTo (p : Program) :
    Nat → Nat → List Datum → Except NodeFault (Option DeclaredType × List Datum)
  | 0, _, keys => .ok (none, keys)
  | bound + 1, i, keys =>
    match p.parent? i with
    | none => .ok (none, keys)
    | some j =>
      match p.node? j with
      | none => .ok (none, keys)
      | some parent =>
        match rung (p.roleAt i) parent with
        | .stop => .ok (none, keys)
        | .binding t => .ok (t, keys)
        | .wrapper => bindingTypeUpTo p bound j keys
        | .property => do
          let key ← p.propertyKey j
          if key.isMissing then return (none, keys)
          else bindingTypeUpTo p bound j (keys ++ [key])

/-- The type that a path of keys leads to, outermost first. -/
def follow : Option DeclaredType → List Datum → Except NodeFault (Option DeclaredType)
  | none, _ => .ok none
  | some t, [] => .ok (some t)
  | some t, key :: rest =>
    match t, key with
    | .object properties, .text k => follow (properties.lookup k) rest
    | .object _, .items _ => .error .listInSet
    | _, _ => .ok none

/-- Whether the declared type at a node includes a text as a literal. -/
def includesLiteral (p : Program) (i : Nat) (v : Text) : Except NodeFault Bool := do
  let (declared, keys) ← p.bindingTypeUpTo (i + 1) i []
  match ← follow declared keys.reverse with
  | none => return false
  | some t => return t.stringLiterals.contains v

/-- Whether the declared type at a node includes a text; a node from elsewhere has none. -/
def subjectIncludesLiteral (p : Program) : Subject → Text → Except NodeFault Bool
  | .foreign, _ => .ok false
  | .member i, v => p.includesLiteral i v

end Program

namespace Oracle

/-- The oracle that answers from declared types. -/
def declared (p : Program) : Oracle := ⟨p.includesLiteral⟩

/-- The question that is put to an oracle about a node: only string literals are asked about. -/
def question? (p : Program) (i : Nat) : Option Text :=
  match p.node? i with
  | none => none
  | some n => if n.kind == .literal then n.value.text? else none

end Oracle

end LiteralLint
