import LiteralLint.Node
import LiteralLint.Arena

/-!
# Programs

A program is the arena of a tree of nodes. The questions here name parts of it: the child in a
role, the rendered name of a callee, the key of an object property, the tag of a template.

## Main definitions

* `Program.childInRole?`: the first child that plays a role.
* `Program.dottedName`: an identifier or a member chain as `a.b.c`.
* `Program.propertyKey`: the key of an object property.
* `Program.templateTag`: the name of the tag of a tagged template.
-/

namespace LiteralLint

/-- The nodes of a program under consecutive numbers. -/
abbrev Program := Arena Node

namespace Program

/-- The program of a tree. -/
def ofTree (t : Tree Node) : Program := Arena.ofTree t

/-- The kind of the node with a number. -/
def kindAt (p : Program) (i : Nat) : Option NodeKind := (p.node? i).map Node.kind

/-- The role of the node with a number. -/
def roleAt (p : Program) (i : Nat) : Option String := (p.node? i).bind Node.role

/-- The name of the node with a number. -/
def nameAt (p : Program) (i : Nat) : Datum := ((p.node? i).map Node.name).getD .missing

/-- The source text of the node with a number. -/
def textAt (p : Program) (i : Nat) : Datum := ((p.node? i).map Node.text).getD .missing

/-- The first child that plays a role. -/
def childInRole? (p : Program) (i : Nat) (role : String) : Option Nat :=
  p.child? i fun n => n.role == some role

/-- The nearest node above of a kind. -/
def nearestOfKind? (p : Program) (i : Nat) (k : NodeKind) : Option Nat :=
  p.nearest? i fun n => n.kind == k

/-- An identifier or a member chain as `a.b.c`, descending at most some levels. A node that is
neither, or a chain with a part that has no name, gives its source text instead. -/
def dottedNameUpTo (p : Program) : Nat → Nat → Except NodeFault Datum
  | 0, _ => .ok .missing
  | bound + 1, i =>
    match p.node? i with
    | none => .ok .missing
    | some n =>
      match n.kind with
      | .identifier => .ok n.name
      | .memberAccess => do
        let base ←
          match p.childInRole? i "object" with
          | none => Except.ok .missing
          | some o => dottedNameUpTo p bound o
        if base.isMissing || n.name.isMissing then return n.text.orMissing
        else return .text (Text.cat [← base.shown, ".", ← n.name.shown])
      | _ => .ok n.text.orMissing

/-- An identifier or a member chain as `a.b.c`. The object of a member has a greater number, so
the number of nodes bounds the descent. -/
def dottedName (p : Program) (i : Nat) : Except NodeFault Datum := p.dottedNameUpTo p.size i

/-- The key of an object property: the name of an identifier, or a literal as text. Keys in
brackets are treated alike. -/
def propertyKey (p : Program) (i : Nat) : Except NodeFault Datum :=
  match (p.childInRole? i "key").bind p.node? with
  | none => .ok .missing
  | some key =>
    match key.kind with
    | .identifier => .ok key.name
    | .literal => if key.value.isMissing then .ok .missing else key.value.shown.map .text
    | _ => .ok .missing

/-- The name of the tag of a tagged template, which is an identifier or a call of one. -/
def templateTag (p : Program) (i : Nat) : Datum :=
  if (p.nameAt i).isSubstantial then p.nameAt i
  else
    match p.childInRole? i "tag" with
    | none => .missing
    | some tag =>
      match p.kindAt tag with
      | some .identifier => p.nameAt tag
      | some .call =>
        match p.childInRole? tag "callee" with
        | none => .missing
        | some callee =>
          if p.kindAt callee == some .identifier then p.nameAt callee else .missing
      | _ => .missing

end Program

end LiteralLint
