import LiteralLint.Configuration
import LiteralLint.Program

/-!
# Containers

Some constructs exempt all text below them: calls on the technical allow-list and module
inclusions, and the translation containers, which are calls of a translator, tagged templates
with a translation tag, and elements of a translation component.

A traversal marks containers as it enters them, so a literal, judged when it is left, sees every
container above it. An element is marked when its opening is entered.

## Main definitions

* `Program.isTechnicalCall`, `Program.isTranslationCall`: the calls.
* `Marks`: the containers seen so far, with `Marks.insideTechnical` and
  `Marks.insideTranslation`.
* `Marks.enter`: the marks after entering a node.
-/

namespace LiteralLint

namespace Program

/-- Whether a callee matches some rules: an identifier by its name, a member by its own name or
by its whole chain. -/
def calleeMatches (p : Program) (callee : Nat) (rules : CalleeRules) : Except NodeFault Bool :=
  match p.kindAt callee with
  | some .identifier => rules.matchesSimple (p.nameAt callee)
  | some .memberAccess => do
    if ← rules.matchesSimple (p.nameAt callee) then return true
    else rules.matchesQualified (← p.dottedName callee)
  | _ => .ok false

/-- Whether a node is a call that includes a module or whose callee is technical. -/
def isTechnicalCall (p : Program) (c : Configuration) (i : Nat) : Except NodeFault Bool :=
  match p.node? i with
  | none => .ok false
  | some n =>
    if n.kind != .call then .ok false
    else if n.includesModule then .ok true
    else
      match p.childInRole? i "callee" with
      | none => .ok false
      | some callee => do
        let includes ←
          if p.kindAt callee == some .identifier then
            (p.nameAt callee).isOneOf Baseline.moduleCallees
          else Except.ok false
        if includes then return true else p.calleeMatches callee c.technicalCallees

/-- Whether a node is a call of a translator. -/
def isTranslationCall (p : Program) (c : Configuration) (i : Nat) : Except NodeFault Bool :=
  if p.kindAt i != some .call then .ok false
  else
    match p.childInRole? i "callee" with
    | none => .ok false
    | some callee => p.calleeMatches callee c.translatorCallees

end Program

/-- The containers seen so far, by number; none occurs twice. -/
structure Marks where
  translation : List Nat := []
  technical : List Nat := []

namespace Marks

/-- The marks with a translation container. -/
def addTranslation (m : Marks) (i : Nat) : Marks := { m with translation := m.translation.insert i }

/-- The marks with a technical container. -/
def addTechnical (m : Marks) (i : Nat) : Marks := { m with technical := m.technical.insert i }

/-- Whether a node lies inside a translation container. -/
def insideTranslation (m : Marks) (p : Program) (i : Nat) : Bool :=
  (p.ancestors i).any m.translation.contains

/-- Whether a node lies inside a technical container. -/
def insideTechnical (m : Marks) (p : Program) (i : Nat) : Bool :=
  (p.ancestors i).any m.technical.contains

/-- The element that an opening belongs to, or the opening itself if its parent is none. -/
def wrapper (p : Program) (opening : Nat) : Nat :=
  match p.parent? opening with
  | some e => if p.kindAt e == some .element then e else opening
  | none => opening

/-- The marks after a call is entered, up to the first fault. -/
def enterCall (m : Marks) (p : Program) (c : Configuration) (i : Nat) :
    Marks × Option NodeFault :=
  match p.isTranslationCall c i with
  | .error f => (m, some f)
  | .ok translates =>
    let m := if translates then m.addTranslation i else m
    match p.isTechnicalCall c i with
    | .error f => (m, some f)
    | .ok technical => (if technical then m.addTechnical i else m, none)

/-- The marks after a node is entered, and the fault that ended its examination, if any. -/
def enter (m : Marks) (p : Program) (c : Configuration) (i : Nat) : Marks × Option NodeFault :=
  match p.kindAt i with
  | some .call => m.enterCall p c i
  | some .taggedTemplate =>
    match (p.templateTag i).isOneOf Baseline.translationTags with
    | .error f => (m, some f)
    | .ok translates => (if translates then m.addTranslation i else m, none)
  | some .elementOpening =>
    match (p.nameAt i).isOneOf Baseline.translationComponents with
    | .error f => (m, some f)
    | .ok translates => (if translates then m.addTranslation (wrapper p i) else m, none)
  | _ => (m, none)

end Marks

end LiteralLint
