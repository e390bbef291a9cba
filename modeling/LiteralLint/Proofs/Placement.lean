import Mathlib.Data.List.Forall2
import LiteralLint.Proofs.SinglePass

/-!
# Places and labels of nodes

A node has a place in the source and a label from its producer. A run copies the place of a node into
the finding at the node, and nothing that it asks about a program looks at either. So all of these
questions have the same answers when places and labels are taken away, and so have the decision lists
that are made of them. Two trees that are the same without places and labels have the same complaints
at the same nodes, each reported at the place that the node has in its own tree.

An oracle may be anything, and may look at places. So this is about runs without one.

## Main definitions

* `Node.unplaced`, `Program.unplaced`: without places and labels.
* `Program.spanAt`: the place of the node with a number.
* `Finding.Agrees`: findings that differ in their positions only.
* `Finding.AgreeAt`: such findings with their positions.

## Main results

* `Program.isTechnicalCall_unplaced`, `Program.isTranslationCall_unplaced`: containers.
* `Hearing.decision_unplaced`: decision lists.
* `Lint.findings_unplaced`: **places and labels decide nothing.**
-/

namespace LiteralLint

/-- A node without its place and without the label of its producer. -/
def Node.unplaced (n : Node) : Node := { n with span := none, label := "" }

/-! ## Questions about programs -/

namespace Program

/-- A program without places and labels. -/
def unplaced (p : Program) : Program := Arena.map Node.unplaced p

/-- The place of the node with a number. -/
def spanAt (p : Program) (i : Nat) : Option Span := (p.node? i).bind Node.span

variable (p : Program) (i : Nat)

@[simp] theorem node?_unplaced : p.unplaced.node? i = (p.node? i).map Node.unplaced :=
  Arena.node?_map Node.unplaced p i

@[simp] theorem size_unplaced : p.unplaced.size = p.size := Arena.size_map Node.unplaced p

@[simp] theorem parent?_unplaced : p.unplaced.parent? i = p.parent? i := rfl

@[simp] theorem ancestors_unplaced : p.unplaced.ancestors i = p.ancestors i :=
  Arena.ancestors_map Node.unplaced p i

@[simp] theorem kindAt_unplaced : p.unplaced.kindAt i = p.kindAt i := by
  unfold kindAt
  rw [node?_unplaced, Option.map_map]
  rfl

@[simp] theorem roleAt_unplaced : p.unplaced.roleAt i = p.roleAt i := by
  unfold roleAt
  rw [node?_unplaced, Option.bind_map]
  rfl

@[simp] theorem nameAt_unplaced : p.unplaced.nameAt i = p.nameAt i := by
  unfold nameAt
  rw [node?_unplaced, Option.map_map]
  rfl

@[simp] theorem textAt_unplaced : p.unplaced.textAt i = p.textAt i := by
  unfold textAt
  rw [node?_unplaced, Option.map_map]
  rfl

@[simp] theorem childInRole?_unplaced (role : String) :
    p.unplaced.childInRole? i role = p.childInRole? i role :=
  Arena.child?_map Node.unplaced p i _

@[simp] theorem nearestOfKind?_unplaced (k : NodeKind) :
    p.unplaced.nearestOfKind? i k = p.nearestOfKind? i k :=
  Arena.nearest?_map Node.unplaced p i _

theorem dottedNameUpTo_unplaced (bound : Nat) :
    ∀ i, p.unplaced.dottedNameUpTo bound i = p.dottedNameUpTo bound i := by
  induction bound with
  | zero => exact fun _ => rfl
  | succ bound ih =>
      intro i
      rw [dottedNameUpTo, dottedNameUpTo, node?_unplaced, childInRole?_unplaced]
      cases p.node? i with
      | none => rfl
      | some n =>
          simp only [Option.map_some, ih]
          rfl

@[simp] theorem dottedName_unplaced : p.unplaced.dottedName i = p.dottedName i := by
  unfold dottedName
  rw [size_unplaced, dottedNameUpTo_unplaced]

@[simp] theorem propertyKey_unplaced : p.unplaced.propertyKey i = p.propertyKey i := by
  unfold propertyKey
  rw [childInRole?_unplaced]
  cases p.childInRole? i "key" with
  | none => rfl
  | some key =>
      rw [Option.bind_some, Option.bind_some, node?_unplaced]
      cases p.node? key <;> rfl

@[simp] theorem templateTag_unplaced : p.unplaced.templateTag i = p.templateTag i := by
  unfold templateTag
  simp only [nameAt_unplaced, childInRole?_unplaced, kindAt_unplaced]

/-! ### Containers -/

@[simp] theorem calleeMatches_unplaced (rules : CalleeRules) :
    p.unplaced.calleeMatches i rules = p.calleeMatches i rules := by
  unfold calleeMatches
  rw [kindAt_unplaced, nameAt_unplaced, dottedName_unplaced]

@[simp] theorem isTechnicalCall_unplaced (c : Configuration) :
    p.unplaced.isTechnicalCall c i = p.isTechnicalCall c i := by
  unfold isTechnicalCall
  rw [node?_unplaced, childInRole?_unplaced]
  cases p.node? i with
  | none => rfl
  | some n =>
      simp only [Option.map_some, kindAt_unplaced, nameAt_unplaced, calleeMatches_unplaced]
      rfl

@[simp] theorem isTranslationCall_unplaced (c : Configuration) :
    p.unplaced.isTranslationCall c i = p.isTranslationCall c i := by
  unfold isTranslationCall
  simp only [kindAt_unplaced, childInRole?_unplaced, calleeMatches_unplaced]

end Program

/-- The marks that entering a node makes. -/
theorem Marks.enter_unplaced (m : Marks) (p : Program) (c : Configuration) (i : Nat) :
    m.enter p.unplaced c i = m.enter p c i := by
  have hwrapper : wrapper p.unplaced i = wrapper p i := by
    unfold wrapper
    simp only [Program.parent?_unplaced, Program.kindAt_unplaced]
  unfold enter enterCall
  simp only [Program.kindAt_unplaced, Program.isTranslationCall_unplaced,
    Program.isTechnicalCall_unplaced, Program.templateTag_unplaced, Program.nameAt_unplaced, hwrapper]

/-! ## Decision lists -/

namespace Hearing

/-- A hearing on a program without places and labels. -/
def unplaced (h : Hearing) : Hearing := { h with program := h.program.unplaced }

variable (h : Hearing) (i : Nat) (n : Node)

@[simp] theorem program_unplaced : h.unplaced.program = h.program.unplaced := rfl

@[simp] theorem config_unplaced : h.unplaced.config = h.config := rfl

@[simp] theorem marks_unplaced : h.unplaced.marks = h.marks := rfl

/-- The parent of a node. -/
theorem parent_unplaced : (h.unplaced.program.parent? i).bind h.unplaced.program.node? =
    ((h.program.parent? i).bind h.program.node?).map Node.unplaced := by
  rw [program_unplaced, Program.parent?_unplaced]
  cases h.program.parent? i with
  | none => rfl
  | some e => exact Program.node?_unplaced h.program e

theorem structuralPosition_unplaced : h.unplaced.structuralPosition i = h.structuralPosition i := by
  have habove : h.unplaced.program.satisfies (fun n => isStructural n.kind) =
      h.program.satisfies fun n => isStructural n.kind :=
    Arena.satisfies_map Node.unplaced h.program _
  unfold structuralPosition
  rw [parent_unplaced, habove, program_unplaced, Program.ancestors_unplaced, Program.roleAt_unplaced]
  cases (h.program.parent? i).bind h.program.node? <;> rfl

theorem constantBinding_unplaced : h.unplaced.constantBinding i = h.constantBinding i := by
  unfold constantBinding
  rw [parent_unplaced, program_unplaced, Program.roleAt_unplaced]
  cases (h.program.parent? i).bind h.program.node? <;> rfl

theorem callOfArgument?_unplaced (above : List Nat) :
    ∀ below, h.unplaced.callOfArgument? below above = h.callOfArgument? below above := by
  induction above with
  | nil => exact fun _ => rfl
  | cons a rest ih =>
      intro below
      rw [callOfArgument?, callOfArgument?, ih]
      simp only [program_unplaced, Program.kindAt_unplaced, Program.roleAt_unplaced]

theorem argumentOfContainerCall_unplaced :
    h.unplaced.argumentOfContainerCall i = h.argumentOfContainerCall i := by
  unfold argumentOfContainerCall isContainerCall
  rw [callOfArgument?_unplaced]
  simp only [program_unplaced, config_unplaced, Program.ancestors_unplaced,
    Program.isTechnicalCall_unplaced, Program.isTranslationCall_unplaced]

theorem inIgnoredAttribute_unplaced (attr : Option Nat) :
    h.unplaced.inIgnoredAttribute i attr = h.inIgnoredAttribute i attr := by
  unfold inIgnoredAttribute ownerTag
  simp only [program_unplaced, config_unplaced, Program.nearestOfKind?_unplaced,
    Program.nameAt_unplaced]

theorem exemptsKeyOf_unplaced (property : Nat) :
    h.unplaced.exemptsKeyOf property = h.exemptsKeyOf property := by
  unfold exemptsKeyOf exemptsKey
  simp only [program_unplaced, config_unplaced, Program.propertyKey_unplaced]

theorem attributeComplaint_unplaced (attr : Nat) :
    h.unplaced.attributeComplaint i n.unplaced attr = h.attributeComplaint i n attr := by
  unfold attributeComplaint
  simp only [program_unplaced, Program.nearestOfKind?_unplaced, Program.nameAt_unplaced,
    Program.textAt_unplaced]
  rfl

theorem propertyComplaint_unplaced (property : Nat) :
    h.unplaced.propertyComplaint n.unplaced property = h.propertyComplaint n property := by
  unfold propertyComplaint
  rw [program_unplaced, Program.textAt_unplaced]
  rfl

theorem genericComplaint_unplaced :
    h.unplaced.genericComplaint i n.unplaced = h.genericComplaint i n := by
  have hkinds : h.unplaced.program.kindAt = h.program.kindAt :=
    funext fun j => Program.kindAt_unplaced h.program j
  unfold genericComplaint ancestry
  rw [hkinds]
  simp only [program_unplaced, Program.parent?_unplaced, Program.ancestors_unplaced,
    Program.textAt_unplaced]
  rfl

variable {h}

/-- **The decision list** of a hearing without an oracle. -/
theorem decision_unplaced (horacle : h.oracle = none) :
    h.unplaced.decision i n.unplaced = h.decision i n := by
  have haccepted : h.unplaced.acceptedByOracle i = h.acceptedByOracle i := by
    unfold acceptedByOracle
    rw [show h.unplaced.oracle = h.oracle from rfl, horacle]
  have hlast : ∀ attr standing, h.unplaced.lastDecision i n.unplaced attr standing =
      h.lastDecision i n attr standing := by
    intro attr standing
    unfold lastDecision
    rw [argumentOfContainerCall_unplaced, haccepted]
    simp only [attributeComplaint_unplaced]
    rfl
  have hproperty : ∀ attr, h.unplaced.propertyDecision i n.unplaced attr =
      h.propertyDecision i n attr := by
    intro attr
    unfold propertyDecision
    rw [hlast, genericComplaint_unplaced, program_unplaced, Program.nearestOfKind?_unplaced]
    simp only [hlast, exemptsKeyOf_unplaced, propertyComplaint_unplaced]
    rfl
  have hmarks : h.unplaced.marks.insideTechnical h.unplaced.program i =
      h.marks.insideTechnical h.program i := by
    unfold Marks.insideTechnical
    rw [program_unplaced, Program.ancestors_unplaced, marks_unplaced]
  have hmarks' : h.unplaced.marks.insideTranslation h.unplaced.program i =
      h.marks.insideTranslation h.program i := by
    unfold Marks.insideTranslation
    rw [program_unplaced, Program.ancestors_unplaced, marks_unplaced]
  unfold decision textDecision literalDecision
  rw [structuralPosition_unplaced, constantBinding_unplaced, hmarks, hmarks']
  simp only [program_unplaced, Program.nearestOfKind?_unplaced, hproperty,
    inIgnoredAttribute_unplaced]
  rfl

end Hearing

/-! ## Runs -/

/-- Findings that differ in their positions only. -/
structure Finding.Agrees (f g : Finding) : Prop where
  id : f.id = g.id
  message : f.message = g.message
  data : f.data = g.data

/-- Findings that agree, each at a place of its own. -/
structure Finding.AgreeAt (place place' : Option Span) (f g : Finding) : Prop where
  agrees : f.Agrees g
  position : f.position = place
  position' : g.position = place'

namespace Lint

/-- A case without places and labels. -/
def Case.unplaced (c : Case) : Case := { c with program := c.program.unplaced }

theorem unplaced_ofTree (t : Tree Node) (config : Configuration) :
    (Case.ofTree t config).unplaced = .ofTree (t.map Node.unplaced) config := by
  have hprogram : (Program.ofTree t).unplaced = Program.ofTree (t.map Node.unplaced) :=
    (Arena.ofTree_map Node.unplaced t).symm
  unfold Case.unplaced Case.ofTree
  rw [hprogram]

/-- The same containers are marked. -/
theorem marksAfter_unplaced (c : Case) (is : List Nat) :
    marksAfter c.unplaced is = marksAfter c is := by
  unfold marksAfter
  simp only [Case.unplaced, Marks.enter_unplaced]

/-- One end of a ruling, reported at two places. -/
theorem reported_agreeAt (out : Except NodeFault (Option Complaint)) (place place' : Option Span) :
    Option.Rel (Finding.AgreeAt place place') (reported out place) (reported out place') := by
  unfold reported
  split
  · rename_i complaint
    unfold Complaint.toFinding
    cases complaint.render with
    | error f => exact .none
    | ok message =>
        cases Complaint.textData complaint.data with
        | error f => exact .none
        | ok data => exact .some ⟨⟨rfl, rfl, rfl⟩, rfl, rfl⟩
  · exact .none

section

variable {c c' : Case} (h : c.unplaced = c'.unplaced)
include h

/-- The nodes with a number are the same without places and labels. -/
theorem map_node?_eq (i : Nat) :
    (c.program.node? i).map Node.unplaced = (c'.program.node? i).map Node.unplaced := by
  have hnode := congrArg (fun d : Case => d.program.node? i) h
  dsimp only [Case.unplaced] at hnode
  rwa [Program.node?_unplaced, Program.node?_unplaced] at hnode

/-- The decision lists of two such nodes are the same, if there is no oracle. -/
theorem decision_eq_of_unplaced (horacle : c.oracle = none) (m : Marks) (i : Nat) {n n' : Node}
    (hsame : n.unplaced = n'.unplaced) :
    (c.hearing m).decision i n = (c'.hearing m).decision i n' := by
  have horacle' : c'.oracle = none := (congrArg Case.oracle h).symm.trans horacle
  have hhearing : (c.hearing m).unplaced = (c'.hearing m).unplaced :=
    congrArg (fun d : Case => d.hearing m) h
  rw [← Hearing.decision_unplaced i n (h := c.hearing m) horacle,
    ← Hearing.decision_unplaced i n' (h := c'.hearing m) horacle', hhearing, hsame]

/-- At one node, runs on programs that are the same without places and labels find nothing, or
findings that agree, each at the place that the node has in its own program. -/
theorem findingAt_agreeAt (horacle : c.oracle = none) (m : Marks) (i : Nat) :
    Option.Rel (Finding.AgreeAt (c.program.spanAt i) (c'.program.spanAt i)) (findingAt c m i)
      (findingAt c' m i) := by
  have hnodes := map_node?_eq h i
  cases hn : c.program.node? i with
  | none =>
      rw [hn, Option.map_none, eq_comm, Option.map_eq_none_iff] at hnodes
      unfold findingAt
      rw [hn, hnodes]
      exact .none
  | some n =>
      rw [hn, Option.map_some, eq_comm, Option.map_eq_some_iff] at hnodes
      obtain ⟨n', hn', hsame⟩ := hnodes
      have hstring : n'.isString = n.isString :=
        show n'.unplaced.isString = n.unplaced.isString from congrArg Node.isString hsame
      by_cases hs : n.isString = true
      · have hplace : c.program.spanAt i = n.span := by
          rw [Program.spanAt, hn, Option.bind_some]
        have hplace' : c'.program.spanAt i = n'.span := by
          rw [Program.spanAt, hn', Option.bind_some]
        rw [findingAt_of_isString hn hs, findingAt_of_isString hn' (hstring.trans hs),
          decision_eq_of_unplaced h horacle m i hsame.symm, hplace, hplace']
        exact reported_agreeAt _ _ _
      · rw [findingAt_of_not_isString hn hs, findingAt_of_not_isString hn' (hstring ▸ hs)]
        exact .none

theorem findingOn_agreeAt (horacle : c.oracle = none) (x : Nat × Nat) :
    Option.Rel (Finding.AgreeAt (c.program.spanAt x.1) (c'.program.spanAt x.1)) (findingOn c x)
      (findingOn c' x) := by
  have hmarks : marksAfter c' (List.range x.2) = marksAfter c (List.range x.2) := by
    rw [← marksAfter_unplaced c', ← h, marksAfter_unplaced]
  unfold findingOn
  rw [hmarks]
  exact findingAt_agreeAt h horacle _ x.1

end

/-- Runs that find nothing or related findings at every exit find related findings at the same
nodes. -/
theorem forall₂_found {R : Nat → Finding → Finding → Prop} {c c' : Case} {t u : Tree Node}
    (hexits : t.exitsFrom 0 = u.exitsFrom 0)
    (h : ∀ x, Option.Rel (R x.1) (findingOn c x) (findingOn c' x)) :
    List.Forall₂ (fun x y => x.1 = y.1 ∧ R x.1 x.2 y.2) (found c t) (found c' u) := by
  unfold found
  rw [hexits]
  induction u.exitsFrom 0 with
  | nil => exact .nil
  | cons x rest ih =>
      have hx := h x
      rw [List.filterMap_cons, List.filterMap_cons]
      generalize findingOn c x = f at hx ⊢
      generalize findingOn c' x = g at hx ⊢
      cases hx with
      | none => exact ih
      | some hrel => exact .cons ⟨rfl, hrel⟩ ih

/-- **Places and labels decide nothing.** Two trees that are the same without places and labels have
as many findings, which agree in name, message and data one by one. They are made at the same nodes,
and each finding stands at the place that its node has in its own tree. -/
theorem findings_unplaced {t u : Tree Node} (h : t.map Node.unplaced = u.map Node.unplaced)
    (config : Configuration) :
    let c := Case.ofTree t config
    let c' := Case.ofTree u config
    List.Forall₂ Finding.Agrees (findings c) (findings c') ∧
      findings c = (found c t).map Prod.snd ∧ findings c' = (found c' u).map Prod.snd ∧
      List.Forall₂ (fun x y => x.1 = y.1 ∧ x.2.position = c.program.spanAt x.1 ∧
        y.2.position = c'.program.spanAt y.1) (found c t) (found c' u) := by
  intro c c'
  have hexits : t.exitsFrom 0 = u.exitsFrom 0 := by
    rw [← Tree.exitsFrom_map Node.unplaced, h, Tree.exitsFrom_map]
  have hcases : c.unplaced = c'.unplaced := by
    rw [unplaced_ofTree, unplaced_ofTree, h]
  have hfound := forall₂_found
    (R := fun i => Finding.AgreeAt (c.program.spanAt i) (c'.program.spanAt i)) hexits
    (findingOn_agreeAt hcases rfl)
  have hfindings : findings c = (found c t).map Prod.snd := findings_eq_found t config none
  have hfindings' : findings c' = (found c' u).map Prod.snd := findings_eq_found u config none
  refine ⟨?_, hfindings, hfindings', hfound.imp fun x y hxy => ?_⟩
  · rw [hfindings, hfindings', List.forall₂_map_left_iff, List.forall₂_map_right_iff]
    exact hfound.imp fun _ _ hxy => hxy.2.agrees
  · obtain ⟨hsame, hagree⟩ := hxy
    exact ⟨hsame, hagree.position, hsame ▸ hagree.position'⟩

/-- A text in markup. -/
def textAtPlace (place : Option Span) (label : String) : Tree Node :=
  .node { kind := .text, value := .text "Hello", span := place, label := label } []

theorem findings_unplaced_text :
    let config : Configuration := ⟨[], .ofNames [], .ofNames [], [], [], []⟩
    let t := textAtPlace (some ⟨1, 0, 1, 5⟩) "jsx_text"
    let u := textAtPlace none ""
    t.map Node.unplaced = u.map Node.unplaced ∧
      List.Forall₂ Finding.Agrees (findings (.ofTree t config)) (findings (.ofTree u config)) ∧
      (findings (.ofTree t config)).map Finding.position = [some ⟨1, 0, 1, 5⟩] ∧
      (findings (.ofTree u config)).map Finding.position = [none] := by
  intro config t u
  have hsame : t.map Node.unplaced = u.map Node.unplaced := rfl
  obtain ⟨hagree, -, -, -⟩ := findings_unplaced hsame config
  exact ⟨hsame, hagree, by decide, by decide⟩

end Lint

end LiteralLint
