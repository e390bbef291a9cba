import LiteralLint.Proofs.Embedding
import LiteralLint.Proofs.Reporting
import LiteralLint.Proofs.SinglePass

/-!
# Siblings

The statements of a program are judged as if each stood alone. Marks, verdicts and numbers are kept in
tables for the whole program, but a ruling reads them through its own ancestors and the children of
those, and what stands in another subtree of a structural root is neither.

The subtrees on one side of such a root embed into the whole, and along an embedding the marks of
ancestors, the decision list and the report carry over. A run over the whole leaves the nodes of the
one side before those of the other, so its findings are those of the two sides in turn; the root has
none of its own.

## Main definitions

* `Hearing.Embeds`: two hearings that differ in where their trees lie.
* `Lint.oracleOf`: the oracle that answers from the types declared in a tree, or none.

## Main results

* `Hearing.Embeds.decision`: the decision list carries over.
* `Lint.findings_siblings`: the findings of siblings are those of each, one after the other.
-/

namespace LiteralLint

open Arena LiteralLint.Tree

/-! ## Rulings -/

/-- Hearings with one configuration, the tree of the first of which lies in that of the second. -/
structure Hearing.Embeds (φ : Nat → Nat) (t u : Tree Node) (h h' : Hearing) : Prop where
  program : h.program = Program.ofTree t
  program' : h'.program = Program.ofTree u
  config : h'.config = h.config
  embeds : Program.Embeds φ t u

namespace Hearing.Embeds

variable {φ : Nat → Nat} {t u : Tree Node} {h h' : Hearing} {i : Nat}

theorem kind_of_nearest {a : Nat} {k : NodeKind}
    (hi : i < t.size) (ha : (Program.ofTree t).nearestOfKind? i k = some a) :
    a < t.size ∧ (Program.ofTree t).kindAt a = some k := by
  obtain ⟨n, hn, hkind⟩ := Program.node?_of_nearestOfKind? ha
  have hlt : a < i := lt_of_mem_ancestors (List.mem_of_find?_eq_some ha)
  exact ⟨by omega, by rw [Program.kindAt_eq hn, hkind]⟩

theorem roleAt (e : Embeds φ t u h h') (hi : i < t.size) :
    h'.program.roleAt (φ i) = h.program.roleAt i := by
  rw [e.program, e.program', e.embeds.roleAt hi]

theorem ancestors (e : Embeds φ t u h h') (hi : i < t.size) :
    h'.program.ancestors (φ i) = (h.program.ancestors i).map φ := by
  rw [e.program, e.program']
  exact e.embeds.ancestors hi

/-- The parent that a number stands for. -/
theorem parent_node (e : Embeds φ t u h h') (hi : i < t.size) :
    (h'.program.parent? (φ i)).bind h'.program.node? =
      (h.program.parent? i).bind h.program.node? := by
  rw [e.program, e.program']
  have hparent : (Program.ofTree u).parent? (φ i) = ((Program.ofTree t).parent? i).map φ :=
    e.embeds.parent i hi
  rw [hparent]
  cases hp : (Program.ofTree t).parent? i with
  | none => rfl
  | some j => exact e.embeds.node j (Nat.lt_trans (parent?_lt hp).1 hi)

theorem structuralPosition (e : Embeds φ t u h h') (hi : i < t.size) :
    h'.structuralPosition (φ i) = h.structuralPosition i := by
  have hancestors : (h'.program.ancestors (φ i)).any
        (h'.program.satisfies fun n => isStructural n.kind) =
      (h.program.ancestors i).any (h.program.satisfies fun n => isStructural n.kind) := by
    have hup : (Program.ofTree u).ancestors (φ i) = ((Program.ofTree t).ancestors i).map φ :=
      e.embeds.ancestors hi
    rw [e.program, e.program', hup, List.any_map, Bool.eq_iff_iff, List.any_eq_true,
      List.any_eq_true]
    refine exists_congr fun a => and_congr_right fun ha => ?_
    have hsame := e.embeds.satisfies (Nat.lt_trans (lt_of_mem_ancestors ha) hi)
      fun n => isStructural n.kind
    exact iff_of_eq (congrArg (· = true) hsame)
  unfold Hearing.structuralPosition
  rw [hancestors, e.parent_node hi, e.roleAt hi]

theorem constantBinding (e : Embeds φ t u h h') (hi : i < t.size) :
    h'.constantBinding (φ i) = h.constantBinding i := by
  unfold Hearing.constantBinding
  rw [e.parent_node hi, e.roleAt hi]

theorem isContainerCall (e : Embeds φ t u h h') (hi : i < t.size) :
    h'.isContainerCall (φ i) = h.isContainerCall i := by
  unfold Hearing.isContainerCall
  rw [e.program, e.program', e.config, e.embeds.isTechnicalCall hi, e.embeds.isTranslationCall hi]

/-- The call that an argument belongs to is found on the way up. -/
theorem callOfArgument? (e : Embeds φ t u h h') (above : List Nat) :
    ∀ below, below < t.size → (∀ a ∈ above, a < t.size) →
      h'.callOfArgument? (φ below) (above.map φ) = (h.callOfArgument? below above).map φ := by
  induction above with
  | nil => intro below _ _; rfl
  | cons a rest ih =>
      intro below hbelow habove
      have ha := habove a List.mem_cons_self
      have hrest := ih a ha fun b hb => habove b (List.mem_cons_of_mem a hb)
      have hkind : h'.program.kindAt (φ a) = h.program.kindAt a := by
        rw [e.program, e.program', e.embeds.kindAt ha]
      rw [List.map_cons, Hearing.callOfArgument?, Hearing.callOfArgument?, hkind,
        e.roleAt hbelow, hrest]
      split <;> rfl

theorem lt_of_callOfArgument? {above : List Nat} {call : Nat} :
    ∀ {below}, h.callOfArgument? below above = some call → call ∈ above := by
  induction above with
  | nil => intro below hcall; cases hcall
  | cons a rest ih =>
      intro below hcall
      rw [Hearing.callOfArgument?] at hcall
      split at hcall
      · cases hcall
        exact List.mem_cons_self
      · exact List.mem_cons_of_mem a (ih hcall)

theorem argumentOfContainerCall (e : Embeds φ t u h h') (hi : i < t.size) :
    h'.argumentOfContainerCall (φ i) = h.argumentOfContainerCall i := by
  have hlt : ∀ a ∈ h.program.ancestors i, a < t.size := by
    intro a ha
    rw [e.program] at ha
    exact Nat.lt_trans (lt_of_mem_ancestors ha) hi
  unfold Hearing.argumentOfContainerCall
  rw [e.ancestors hi, e.callOfArgument? _ i hi hlt]
  cases hcall : h.callOfArgument? i (h.program.ancestors i) with
  | none => rfl
  | some call => exact e.isContainerCall (hlt call (lt_of_callOfArgument? hcall))

theorem nearestOfKind? (e : Embeds φ t u h h') (hi : i < t.size) (k : NodeKind) :
    h'.program.nearestOfKind? (φ i) k = (h.program.nearestOfKind? i k).map φ := by
  rw [e.program, e.program', e.embeds.nearestOfKind? hi]

theorem ownerTag (e : Embeds φ t u h h') (hi : i < t.size) :
    h'.ownerTag (φ i) = h.ownerTag i := by
  unfold Hearing.ownerTag
  rw [e.nearestOfKind? hi, e.program, e.program']
  cases hopening : (Program.ofTree t).nearestOfKind? i .elementOpening with
  | none => rfl
  | some opening => exact e.embeds.nameAt (kind_of_nearest hi hopening).1

theorem inIgnoredAttribute (e : Embeds φ t u h h') (hi : i < t.size) :
    h'.inIgnoredAttribute (φ i) (h'.program.nearestOfKind? (φ i) .attribute) =
      h.inIgnoredAttribute i (h.program.nearestOfKind? i .attribute) := by
  unfold Hearing.inIgnoredAttribute
  rw [e.nearestOfKind? hi, e.ownerTag hi, e.config, e.program, e.program']
  cases hattr : (Program.ofTree t).nearestOfKind? i .attribute with
  | none => rfl
  | some a =>
      dsimp only [Option.map_some]
      rw [e.embeds.nameAt (kind_of_nearest hi hattr).1]

theorem attributeComplaint (e : Embeds φ t u h h') (hi : i < t.size) (n : Node) {a : Nat}
    (ha : a < t.size) : h'.attributeComplaint (φ i) n (φ a) = h.attributeComplaint i n a := by
  unfold Hearing.attributeComplaint
  rw [e.nearestOfKind? hi, e.program, e.program', e.embeds.nameAt ha]
  cases hopening : (Program.ofTree t).nearestOfKind? i .elementOpening with
  | none => rfl
  | some opening =>
      have hlt := (kind_of_nearest hi hopening).1
      dsimp only [Option.map_some]
      rw [e.embeds.nameAt hlt, e.embeds.textAt hlt]

theorem genericComplaint (e : Embeds φ t u h h') (hi : i < t.size) (n : Node) :
    h'.genericComplaint (φ i) n = h.genericComplaint i n := by
  have hancestry : h'.ancestry (φ i) n = h.ancestry i n := by
    have hup : (Program.ofTree u).ancestors (φ i) = ((Program.ofTree t).ancestors i).map φ :=
      e.embeds.ancestors hi
    unfold ancestry
    rw [e.program, e.program', hup, ← List.map_reverse, List.filterMap_map]
    have hkinds : ((Program.ofTree t).ancestors i).reverse.filterMap
          ((Program.ofTree u).kindAt ∘ φ) =
        ((Program.ofTree t).ancestors i).reverse.filterMap (Program.ofTree t).kindAt := by
      refine List.filterMap_congr fun a ha => ?_
      exact e.embeds.kindAt (Nat.lt_trans (lt_of_mem_ancestors (List.mem_reverse.1 ha)) hi)
    rw [hkinds]
  have hparent : (Program.ofTree u).parent? (φ i) = ((Program.ofTree t).parent? i).map φ :=
    e.embeds.parent i hi
  unfold Hearing.genericComplaint
  rw [hancestry, e.program, e.program', hparent]
  cases hp : (Program.ofTree t).parent? i with
  | none => rfl
  | some j =>
      dsimp only [Option.map_some]
      rw [e.embeds.textAt (Nat.lt_trans (parent?_lt hp).1 hi)]

theorem exemptsText (e : Embeds φ t u h h') (n : Node) : h'.exemptsText n = h.exemptsText n := by
  unfold Hearing.exemptsText
  rw [e.config]

theorem lastDecision (e : Embeds φ t u h h') (hi : i < t.size) (n : Node) (standing : Complaint)
    (horacle : h'.acceptedByOracle (φ i) = h.acceptedByOracle i) :
    h'.lastDecision (φ i) n (h'.program.nearestOfKind? (φ i) .attribute) standing =
      h.lastDecision i n (h.program.nearestOfKind? i .attribute) standing := by
  unfold Hearing.lastDecision
  rw [e.argumentOfContainerCall hi, e.exemptsText n, horacle, e.nearestOfKind? hi, e.program]
  cases hattr : (Program.ofTree t).nearestOfKind? i .attribute with
  | none => rfl
  | some a =>
      dsimp only [Option.map_some]
      rw [e.attributeComplaint hi n (kind_of_nearest hi hattr).1]

theorem propertyDecision (e : Embeds φ t u h h') (hi : i < t.size) (n : Node)
    (horacle : h'.acceptedByOracle (φ i) = h.acceptedByOracle i) :
    h'.propertyDecision (φ i) n (h'.program.nearestOfKind? (φ i) .attribute) =
      h.propertyDecision i n (h.program.nearestOfKind? i .attribute) := by
  unfold Hearing.propertyDecision
  rw [e.nearestOfKind? hi .objectProperty]
  cases hproperty : h.program.nearestOfKind? i .objectProperty with
  | none =>
      dsimp only [Option.map_none]
      rw [e.genericComplaint hi, e.lastDecision hi n _ horacle]
  | some property =>
      rw [e.program] at hproperty
      obtain ⟨hlt, hkind⟩ := kind_of_nearest hi hproperty
      have hkey : h'.exemptsKeyOf (φ property) = h.exemptsKeyOf property := by
        unfold exemptsKeyOf exemptsKey
        rw [e.program, e.program', e.config, e.embeds.propertyKey hkind]
      have hcomplaint : h'.propertyComplaint n (φ property) = h.propertyComplaint n property := by
        unfold propertyComplaint
        rw [e.program, e.program', e.embeds.textAt hlt]
      dsimp only [Option.map_some]
      rw [e.exemptsText n, hkey, hcomplaint, e.lastDecision hi n _ horacle]

/-- **The decision list carries over**, where the containers above and the oracle do. -/
theorem decision (e : Embeds φ t u h h') (hi : i < t.size) (n : Node)
    (htrans : h'.marks.insideTranslation h'.program (φ i) =
      h.marks.insideTranslation h.program i)
    (htech : h'.marks.insideTechnical h'.program (φ i) = h.marks.insideTechnical h.program i)
    (horacle : h'.acceptedByOracle (φ i) = h.acceptedByOracle i) :
    h'.decision (φ i) n = h.decision i n := by
  unfold Hearing.decision textDecision literalDecision
  rw [htrans, htech, e.exemptsText n, e.structuralPosition hi, e.constantBinding hi]
  dsimp only
  rw [e.inIgnoredAttribute hi, e.propertyDecision hi n horacle]

end Hearing.Embeds

/-! ## Marks -/

namespace Marks

/-- Marks under other numbers. -/
def map (φ : Nat → Nat) (m : Marks) : Marks := ⟨m.translation.map φ, m.technical.map φ⟩

variable {φ : Nat → Nat} {t u : Tree Node} {i : Nat}

theorem wrapper_embeds (h : Program.Embeds φ t u) (hi : i < t.size) :
    wrapper (Program.ofTree u) (φ i) = φ (wrapper (Program.ofTree t) i) := by
  have hparent : (Program.ofTree u).parent? (φ i) = ((Program.ofTree t).parent? i).map φ :=
    h.parent i hi
  unfold wrapper
  rw [hparent]
  cases hp : (Program.ofTree t).parent? i with
  | none => rfl
  | some e =>
      dsimp only [Option.map_some]
      rw [h.kindAt (Nat.lt_trans (parent?_lt hp).1 hi)]
      split <;> rfl

/-- Entering a node makes the same marks. -/
theorem enter_embeds (h : Program.Embeds φ t u) (hi : i < t.size) (c : Configuration) :
    (Marks.enter {} (Program.ofTree u) c (φ i)).1 =
      (Marks.enter {} (Program.ofTree t) c i).1.map φ := by
  unfold enter enterCall
  rw [h.kindAt hi, h.isTranslationCall hi, h.isTechnicalCall hi, h.nameAt hi, wrapper_embeds h hi]
  cases hkind : (Program.ofTree t).kindAt i with
  | none => rfl
  | some k =>
      cases k with
      | call =>
          dsimp only
          cases (Program.ofTree t).isTranslationCall c i with
          | error f => rfl
          | ok translates =>
              cases (Program.ofTree t).isTechnicalCall c i with
              | error f => cases translates <;> rfl
              | ok technical => cases translates <;> cases technical <;> rfl
      | taggedTemplate =>
          dsimp only
          rw [h.templateTag hi hkind]
          cases ((Program.ofTree t).templateTag i).isOneOf Baseline.translationTags with
          | error f => rfl
          | ok translates => cases translates <;> rfl
      | elementOpening =>
          dsimp only
          cases ((Program.ofTree t).nameAt i).isOneOf Baseline.translationComponents with
          | error f => rfl
          | ok translates => cases translates <;> rfl
      | _ => rfl

theorem lt_size_of_mem_enter {c : Configuration} {a j : Nat}
    (h : a ∈ (Marks.enter {} (Program.ofTree t) c j).1.translation ∨
      a ∈ (Marks.enter {} (Program.ofTree t) c j).1.technical) : j < t.size := by
  by_contra hj
  have hnode : (Program.ofTree t).node? j = none := by
    cases hn : (Program.ofTree t).node? j with
    | none => rfl
    | some n => exact absurd (lt_of_node? hn) hj
  have hkind : (Program.ofTree t).kindAt j = none := by rw [Program.kindAt, hnode]; rfl
  unfold enter at h
  rw [hkind] at h
  simp at h

/-- A node of the tree is marked from within the tree: by itself, or by an opening below it, which is
one of its children and has not come from elsewhere. -/
theorem exists_of_mem_enter (h : Program.Embeds φ t u) (hi : i < t.size) {c : Configuration}
    {j : Nat} (hmark : φ i ∈ (Marks.enter {} (Program.ofTree u) c j).1.translation ∨
      φ i ∈ (Marks.enter {} (Program.ofTree u) c j).1.technical) :
    ∃ k, k < t.size ∧ φ k = j := by
  rcases Lint.eq_or_opens_of_mem_enter hmark with hself | ⟨hparent, helement, -⟩
  · exact ⟨i, hi, hself⟩
  · rw [h.kindAt hi] at helement
    obtain ⟨n, hn, hkind⟩ := Program.node?_of_kindAt helement
    have hchild := (parent?_lt hparent).2.2
    rw [h.children i n hn (by rw [hkind]; decide)] at hchild
    obtain ⟨k, hk, hkj⟩ := List.mem_map.1 hchild
    exact ⟨k, (lt_of_mem_childrenOf hn hk).2, hkj⟩

end Marks

namespace Lint

section

variable {φ : Nat → Nat} {t u : Tree Node} {i stop stop' : Nat}

/-- A node has the same marks when the same nodes of its tree have been entered. -/
theorem mem_marksAfter_embeds (h : Program.Embeds φ t u) (hi : i < t.size)
    (hstop : ∀ j, j < t.size → (φ j < stop' ↔ j < stop)) (c : Configuration)
    (o o' : Option Oracle) :
    (φ i ∈ (marksAfter (.ofTree u c o') (List.range stop')).translation ↔
      i ∈ (marksAfter (.ofTree t c o) (List.range stop)).translation) ∧
    (φ i ∈ (marksAfter (.ofTree u c o') (List.range stop')).technical ↔
      i ∈ (marksAfter (.ofTree t c o) (List.range stop)).technical) := by
  have hmarks : ∀ j, j < t.size →
      (φ i ∈ (Marks.enter {} (Program.ofTree u) c (φ j)).1.translation ↔
        i ∈ (Marks.enter {} (Program.ofTree t) c j).1.translation) ∧
      (φ i ∈ (Marks.enter {} (Program.ofTree u) c (φ j)).1.technical ↔
        i ∈ (Marks.enter {} (Program.ofTree t) c j).1.technical) := by
    intro j hj
    rw [Marks.enter_embeds h hj c]
    exact ⟨List.mem_map_of_injective h.injective, List.mem_map_of_injective h.injective⟩
  simp only [(mem_marksAfter _ _ _).1, (mem_marksAfter _ _ _).2, List.mem_range, Case.ofTree]
  constructor
  · constructor
    · rintro ⟨_, hj, hmem⟩
      obtain ⟨k, hk, rfl⟩ := Marks.exists_of_mem_enter h hi (Or.inl hmem)
      exact ⟨k, (hstop k hk).1 hj, (hmarks k hk).1.1 hmem⟩
    · rintro ⟨j, hj, hmem⟩
      have hjt := Marks.lt_size_of_mem_enter (Or.inl hmem)
      exact ⟨φ j, (hstop j hjt).2 hj, (hmarks j hjt).1.2 hmem⟩
  · constructor
    · rintro ⟨_, hj, hmem⟩
      obtain ⟨k, hk, rfl⟩ := Marks.exists_of_mem_enter h hi (Or.inr hmem)
      exact ⟨k, (hstop k hk).1 hj, (hmarks k hk).2.1 hmem⟩
    · rintro ⟨j, hj, hmem⟩
      have hjt := Marks.lt_size_of_mem_enter (Or.inr hmem)
      exact ⟨φ j, (hstop j hjt).2 hj, (hmarks j hjt).2.2 hmem⟩

/-- A node lies inside the same containers. -/
theorem inside_embeds (h : Program.Embeds φ t u) (hi : i < t.size)
    (hstop : ∀ j, j < t.size → (φ j < stop' ↔ j < stop)) (c : Configuration)
    (o o' : Option Oracle) :
    (marksAfter (.ofTree u c o') (List.range stop')).insideTranslation (Program.ofTree u) (φ i) =
        (marksAfter (.ofTree t c o) (List.range stop)).insideTranslation (Program.ofTree t) i ∧
      (marksAfter (.ofTree u c o') (List.range stop')).insideTechnical (Program.ofTree u) (φ i) =
        (marksAfter (.ofTree t c o) (List.range stop)).insideTechnical (Program.ofTree t) i := by
  have hup : (Program.ofTree u).ancestors (φ i) = ((Program.ofTree t).ancestors i).map φ :=
    h.ancestors hi
  have hmem : ∀ a ∈ (Program.ofTree t).ancestors i, _ := fun a ha =>
    mem_marksAfter_embeds h (Nat.lt_trans (lt_of_mem_ancestors ha) hi) hstop c o o'
  unfold Marks.insideTranslation Marks.insideTechnical
  rw [hup, List.any_map, List.any_map]
  constructor
  · rw [Bool.eq_iff_iff]
    simp only [List.any_eq_true, Function.comp_apply, List.contains_iff_mem]
    exact exists_congr fun a => and_congr_right fun ha => (hmem a ha).1
  · rw [Bool.eq_iff_iff]
    simp only [List.any_eq_true, Function.comp_apply, List.contains_iff_mem]
    exact exists_congr fun a => and_congr_right fun ha => (hmem a ha).2

/-! ## The whole run -/

/-- The oracle that answers from the types declared in a tree, or none. -/
def oracleOf (usesTypes : Bool) (t : Tree Node) : Option Oracle :=
  if usesTypes then some (.declared (Program.ofTree t)) else none

/-- The case of a tree with its own types, or without. -/
def Case.typed (usesTypes : Bool) (c : Configuration) (t : Tree Node) : Case :=
  .ofTree t c (oracleOf usesTypes t)

theorem acceptedByOracle_embeds (h : Program.Embeds φ t u) (hi : i < t.size) (c : Configuration)
    (usesTypes : Bool) (m m' : Marks) :
    ((Case.typed usesTypes c u).hearing m').acceptedByOracle (φ i) =
      ((Case.typed usesTypes c t).hearing m).acceptedByOracle i := by
  cases usesTypes with
  | false => rfl
  | true =>
      have hnode : (Program.ofTree u).node? (φ i) = (Program.ofTree t).node? i := h.node i hi
      have hquestion : Oracle.question? ((Case.typed true c u).hearing m').program (φ i) =
          Oracle.question? ((Case.typed true c t).hearing m).program i := by
        show Oracle.question? (Program.ofTree u) (φ i) = Oracle.question? (Program.ofTree t) i
        unfold Oracle.question?
        rw [hnode]
      unfold Hearing.acceptedByOracle
      rw [hquestion]
      cases Oracle.question? ((Case.typed true c t).hearing m).program i with
      | none => rfl
      | some v => exact h.includesLiteral hi v

/-- At an exit of the tree the same is found. -/
theorem findingOn_embeds (h : Program.Embeds φ t u)
    (hstop : ∀ j, j < t.size → (φ j < stop' ↔ j < stop)) (hi : i < t.size) (c : Configuration)
    (usesTypes : Bool) :
    findingOn (Case.typed usesTypes c u) (φ i, stop') =
      findingOn (Case.typed usesTypes c t) (i, stop) := by
  obtain ⟨n, hn⟩ := exists_node? hi
  have hcase : (Case.typed usesTypes c t).program.node? i = some n := hn
  have hcase' : (Case.typed usesTypes c u).program.node? (φ i) = some n := (h.node i hi).trans hn
  obtain ⟨htrans, htech⟩ := inside_embeds h hi hstop c (oracleOf usesTypes t) (oracleOf usesTypes u)
  unfold findingOn
  by_cases hs : n.isString
  · rw [findingAt_of_isString hcase hs, findingAt_of_isString hcase' hs]
    have hearings : Hearing.Embeds φ t u
        ((Case.typed usesTypes c t).hearing (marksAfter (Case.typed usesTypes c t) (List.range stop)))
        ((Case.typed usesTypes c u).hearing
          (marksAfter (Case.typed usesTypes c u) (List.range stop'))) := ⟨rfl, rfl, rfl, h⟩
    rw [hearings.decision hi n htrans htech (acceptedByOracle_embeds h hi c usesTypes _ _)]
  · rw [findingAt_of_not_isString hcase hs, findingAt_of_not_isString hcase' hs]

end

section

variable {r : Node}

/-- A root that carries no text has no findings of its own. -/
theorem findings_below (hr : r.kind = .other) (cs : List (Tree Node)) (c : Configuration)
    (usesTypes : Bool) :
    findings (.typed usesTypes c (.node r cs)) =
      (forestExitsFrom 1 cs).filterMap (findingOn (.typed usesTypes c (.node r cs))) := by
  have hroot : (Case.typed usesTypes c (.node r cs)).program.node? 0 = some r :=
    (holds_ofTree (Tree.node r cs)).node?
  have hsilent : ¬ r.isString := by
    unfold Node.isString
    rw [hr]
    exact Bool.false_ne_true
  have hnone : findingOn (.typed usesTypes c (.node r cs)) (0, 0 + 1 + forestSize cs) = none :=
    findingAt_of_not_isString hroot hsilent
  have hfound := findings_eq_found (Tree.node r cs) c (oracleOf usesTypes (.node r cs))
  rw [found_map_snd, exitsFrom, List.filterMap_append] at hfound
  rw [Case.typed, hfound]
  rw [Case.typed] at hnone
  simp [hnone]

/-- The exits of some subtrees of a root find in the whole what they find when nothing else is there. -/
theorem findings_among (hr : r.kind = .other) (before cs after : List (Tree Node))
    (c : Configuration) (usesTypes : Bool) :
    (forestExitsFrom (1 + forestSize before) cs).filterMap
        (findingOn (.typed usesTypes c (.node r (before ++ (cs ++ after))))) =
      findings (.typed usesTypes c (.node r cs)) := by
  have hembeds : Program.Embeds (pastRoot (forestSize before)) (.node r cs)
      (.node r (before ++ (cs ++ after))) := embeds_siblings (by simpa using hr) before cs after
  rw [findings_below hr, forestExitsFrom_add, List.filterMap_map]
  refine List.filterMap_congr fun x hx => ?_
  obtain ⟨hpos, hlt, hle⟩ := forestExitsFrom_bounds cs hx
  have hsize : x.1 < (Tree.node r cs).size := by
    rw [Tree.size]
    omega
  have hstop : ∀ j, j < (Tree.node r cs).size →
      (pastRoot (forestSize before) j < x.2 + forestSize before ↔ j < x.2) := by
    intro j _
    unfold pastRoot
    split <;> omega
  have hmoved := findingOn_embeds hembeds hstop hsize c usesTypes
  rwa [pastRoot_of_pos (by omega)] at hmoved

/-- **Siblings under a structural root never influence one another.** Whatever the configuration, and
with the types declared in the program or without, a run over a root of kind `other` finds what it
finds below the root with the first subtrees only, and then what it finds with the others only. -/
theorem findings_siblings (hr : r.kind = .other) (xs ys : List (Tree Node)) (c : Configuration)
    (usesTypes : Bool) :
    findings (.typed usesTypes c (.node r (xs ++ ys))) =
      findings (.typed usesTypes c (.node r xs)) ++ findings (.typed usesTypes c (.node r ys)) := by
  have hfirst := findings_among hr [] xs ys c usesTypes
  have hsecond := findings_among hr xs ys [] c usesTypes
  rw [List.append_nil] at hsecond
  rw [findings_below hr, forestExitsFrom_append, List.filterMap_append, hsecond]
  exact congrArg (· ++ _) hfirst

end

/-- Statements that would disturb each other if anything did: a translated text, the same text not
translated, and a binding whose declared type includes its text. -/
def statements : List (Tree Node) × List (Tree Node) :=
  let text : Tree Node := .node { kind := .text, value := .text "Hello" } []
  ([.node { kind := .element }
      [.node { kind := .elementOpening, name := .text "Trans" } [], text]],
    [.node { kind := .element } [text],
      .node { kind := .variableBinding, declaredType := some (.literal (.text "a mode")) }
        [.node { kind := .literal, role := some "value", value := .text "a mode" } []]])

theorem findings_siblings_statements :
    let r : Node := { kind := .other, label := "program" }
    let c : Configuration := ⟨[], .ofNames [], .ofNames [], [], [], []⟩
    r.kind = .other ∧
      findings (.typed true c (.node r (statements.1 ++ statements.2))) =
        findings (.typed true c (.node r statements.1)) ++
          findings (.typed true c (.node r statements.2)) ∧
      (findings (.typed true c (.node r statements.1))).length = 0 ∧
      (findings (.typed true c (.node r statements.2))).length = 1 ∧
      (findings (.typed false c (.node r statements.2))).length = 2 := by
  refine ⟨rfl, findings_siblings rfl _ _ _ _, ?_, ?_, ?_⟩
  · decide
  · decide
  · decide

end Lint

end LiteralLint
