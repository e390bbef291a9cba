import LiteralLint.Datum

/-!
# Callee rules

A rule is a simple name, which matches the last name of a callee, or a qualified one with a point
in it, which matches a callee chain that ends in it component by component: `socket.on` matches
`socket.on` and `this.socket.on`, but not `xsocket.on`.
-/

namespace LiteralLint

/-- Names of callees, simple and qualified. -/
structure CalleeRules where
  simple : List Text
  qualified : List Text

namespace CalleeRules

/-- The rules for a list of names. -/
def ofNames (names : List Text) : CalleeRules :=
  ⟨names.filter fun n => !n.contains 46, names.filter fun n => n.contains 46⟩

/-- Whether a name is a simple rule. -/
def matchesSimple (r : CalleeRules) (name : Datum) : Except NodeFault Bool :=
  if name.isMissing then .ok false else name.isOneOf r.simple

/-- Whether a chain of names ends in a qualified rule. -/
def endsInQualified (r : CalleeRules) (dotted : Text) : Bool :=
  r.qualified.contains dotted ||
    r.qualified.any fun rule => Text.endsWith (46 :: dotted) (46 :: rule)

/-- Whether a rendered chain of names ends in a qualified rule; nothing matches an empty one. -/
def matchesQualified (r : CalleeRules) (dotted : Datum) : Except NodeFault Bool :=
  match dotted with
  | .text [] => .ok false
  | .text d => .ok (r.endsInQualified d)
  | .items xs => if xs.members.isEmpty then .ok false else .error .listInSet
  | d => if d.isSubstantial then .error .textNeeded else .ok false

end CalleeRules

end LiteralLint
