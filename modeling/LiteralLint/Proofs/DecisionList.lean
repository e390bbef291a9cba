import LiteralLint.Proofs.Arena
import LiteralLint.Proofs.Ruling

/-!
# The list on well-typed programs

On a program whose names and texts are texts, the predicates of a ruling do not fail, and the
decision list is a plain function: `Hearing.firstMatch`. One field value keeps a way to fail. The
key of a property may be a literal of any value, the list has to render it, and an integer of more
than 4300 decimal digits has no numeral. A list that gets as far as such a key ends there
(`Hearing.meetsLongKey`), with neither an exemption nor a complaint.

## Main definitions

* `Node.WellTyped`: the names and texts of a node are texts.
* `Datum.isLongInteger`: an integer without a numeral.
* `Program.KeysShort`: no property has such a key.
* `Hearing.firstMatch`: the decision list, without failures.

## Main results

* `Hearing.decision_eq`: on well-typed programs the list is `firstMatch`, up to keys without a
  numeral.
* `Hearing.resolve_eq_firstMatch`: so is a ruling on a node without a verdict.
-/

namespace LiteralLint

/-! ## Values -/

namespace Datum

/-- The value of a field that may hold a text. -/
def ofText? : Option Text → Datum
  | none => .missing
  | some t => .text t

theorem isMissing_ofText? (o : Option Text) : (ofText? o).isMissing = o.isNone := by
  cases o <;> rfl

theorem isOneOf_ofText? (texts : List Text) (o : Option Text) :
    (ofText? o).isOneOf texts = .ok (o.any texts.contains) := by
  cases o <;> rfl

/-- A text that counts as a value, which the empty one does not. -/
theorem orMissing_text (t : Text) :
    (Datum.text t).orMissing = ofText? (if t.isEmpty then none else some t) := by
  cases t <;> rfl

/-- Whether a value is an integer of more than 4300 decimal digits. -/
def isLongInteger : Datum → Bool
  | .whole n => decide (Nat.pow 10 Text.decimalDigitLimit ≤ n.natAbs)
  | _ => false

theorem isNone_shown? (d : Datum) : d.shown?.isNone = d.isLongInteger := by
  cases d with
  | whole n =>
      show (Text.decimalNumeral? n).isNone = _
      rw [isLongInteger, Text.decimalNumeral?]
      by_cases hlt : n.natAbs < Nat.pow 10 Text.decimalDigitLimit
      · rw [if_pos hlt, decide_eq_false (Nat.not_le.2 hlt)]
        rfl
      · rw [if_neg hlt, decide_eq_true (Nat.not_lt.1 hlt)]
        rfl
  | _ => rfl

/-- A value is shown unless it is an integer without a numeral. -/
theorem shown_eq (d : Datum) :
    d.shown = if d.isLongInteger then .error .numeralTooLong else .ok (d.shown?.getD []) := by
  rw [← isNone_shown?, shown]
  cases d.shown? <;> rfl

end Datum

/-- The names and texts of a node are texts. -/
structure Node.WellTyped (n : Node) : Prop where
  name : n.name = .ofText? n.name.text?
  text : n.text.text?.isSome

namespace Program

open Datum

/-- A program of well-typed nodes. -/
def WellTyped (p : Program) : Prop := ∀ i n, p.node? i = some n → n.WellTyped

/-! ## Names and keys -/

section

variable {p : Program}

theorem nameAt_eq (hp : p.WellTyped) (i : Nat) : p.nameAt i = ofText? (p.nameAt i).text? := by
  unfold nameAt
  cases hn : p.node? i with
  | none => rfl
  | some n => exact (hp i n hn).name

/-- The source text of a node, where it stands for a name. -/
theorem orMissing_text_eq {n : Node} (hn : n.WellTyped) : ∃ o, n.text.orMissing = ofText? o := by
  obtain ⟨t, ht⟩ := Option.isSome_iff_exists.1 hn.text
  have htext : n.text = .text t := by
    cases hd : n.text <;> simp_all [text?]
  exact ⟨_, by rw [htext, orMissing_text]⟩

theorem dottedNameUpTo_eq (hp : p.WellTyped) (bound : Nat) :
    ∀ i, ∃ o, p.dottedNameUpTo bound i = .ok (ofText? o) := by
  induction bound with
  | zero =>
      intro i
      exact ⟨none, rfl⟩
  | succ bound ih =>
      intro i
      rw [dottedNameUpTo]
      cases hn : p.node? i with
      | none => exact ⟨none, rfl⟩
      | some n =>
          have hwell := hp i n hn
          obtain ⟨source, hsource⟩ := orMissing_text_eq hwell
          dsimp only
          cases n.kind
          case identifier => exact ⟨_, congrArg Except.ok hwell.name⟩
          case memberAccess =>
            dsimp only
            rw [hwell.name, hsource]
            cases p.childInRole? i "object" with
            | none => exact ⟨source, rfl⟩
            | some object =>
                obtain ⟨base, hbase⟩ := ih object
                dsimp only
                rw [hbase]
                cases base with
                | none => exact ⟨source, rfl⟩
                | some base =>
                    cases n.name.text? with
                    | none => exact ⟨source, rfl⟩
                    | some name => exact ⟨some (Text.cat [base, ".", name]), rfl⟩
          all_goals exact ⟨source, congrArg Except.ok hsource⟩

/-! ### Callees -/

theorem matchesSimple_ofText? (r : CalleeRules) (o : Option Text) :
    ∃ b, r.matchesSimple (ofText? o) = .ok b := by
  unfold CalleeRules.matchesSimple
  rw [isOneOf_ofText?]
  split <;> exact ⟨_, rfl⟩

theorem matchesQualified_ofText? (r : CalleeRules) (o : Option Text) :
    ∃ b, r.matchesQualified (ofText? o) = .ok b := by
  cases o with
  | none => exact ⟨false, rfl⟩
  | some t => cases t <;> exact ⟨_, rfl⟩

theorem calleeMatches_ok (hp : p.WellTyped) (callee : Nat) (rules : CalleeRules) :
    ∃ b, p.calleeMatches callee rules = .ok b := by
  obtain ⟨simple, hsimple⟩ := matchesSimple_ofText? rules (p.nameAt callee).text?
  obtain ⟨chain, hchain⟩ := dottedNameUpTo_eq hp p.size callee
  obtain ⟨qualified, hqualified⟩ := matchesQualified_ofText? rules chain
  rw [← nameAt_eq hp] at hsimple
  unfold calleeMatches dottedName
  rw [hsimple, hchain]
  split
  · exact ⟨simple, rfl⟩
  · cases simple with
    | true => exact ⟨true, rfl⟩
    | false => exact ⟨qualified, hqualified⟩
  · exact ⟨false, rfl⟩

theorem isTechnicalCall_ok (hp : p.WellTyped) (c : Configuration) (i : Nat) :
    ∃ b, p.isTechnicalCall c i = .ok b := by
  unfold isTechnicalCall
  cases p.node? i with
  | none => exact ⟨false, rfl⟩
  | some n =>
      dsimp only
      split
      · exact ⟨false, rfl⟩
      · split
        · exact ⟨true, rfl⟩
        · cases p.childInRole? i "callee" with
          | none => exact ⟨false, rfl⟩
          | some callee =>
              obtain ⟨b, hb⟩ := calleeMatches_ok hp callee c.technicalCallees
              dsimp only
              rw [hb, nameAt_eq hp, isOneOf_ofText?]
              split
              · cases Option.any Baseline.moduleCallees.contains (p.nameAt callee).text? with
                | true => exact ⟨true, rfl⟩
                | false => exact ⟨b, rfl⟩
              · exact ⟨b, rfl⟩

theorem isTranslationCall_ok (hp : p.WellTyped) (c : Configuration) (i : Nat) :
    ∃ b, p.isTranslationCall c i = .ok b := by
  unfold isTranslationCall
  split
  · exact ⟨false, rfl⟩
  · cases p.childInRole? i "callee" with
    | none => exact ⟨false, rfl⟩
    | some callee => exact calleeMatches_ok hp callee c.translatorCallees

/-! ### Property keys -/

/-- Whether the key of a property is a literal without a numeral. -/
def keyIsTooLong (p : Program) (property : Nat) : Bool :=
  ((p.childInRole? property "key").bind p.node?).any fun key =>
    key.kind == .literal && key.value.isLongInteger

/-- No property has a key without a numeral. -/
def KeysShort (p : Program) : Prop :=
  ∀ i, p.kindAt i = some .objectProperty → p.keyIsTooLong i = false

/-- The key of a property, where it is an identifier or a literal that can be shown. -/
def keyText? (p : Program) (property : Nat) : Option Text :=
  ((p.childInRole? property "key").bind p.node?).bind fun key =>
    match key.kind with
    | .identifier => key.name.text?
    | .literal => if key.value.isMissing then none else key.value.shown?
    | _ => none

theorem propertyKey_eq (hp : p.WellTyped) (property : Nat) :
    p.propertyKey property =
      if p.keyIsTooLong property then .error .numeralTooLong
      else .ok (ofText? (p.keyText? property)) := by
  unfold propertyKey keyIsTooLong keyText?
  cases hkey : (p.childInRole? property "key").bind p.node? with
  | none => rfl
  | some key =>
      have hwell : key.WellTyped := by
        obtain ⟨j, -, hj⟩ := Option.bind_eq_some_iff.1 hkey
        exact hp j key hj
      simp only [Option.any_some, Option.bind_some]
      cases key.kind
      case identifier => exact congrArg Except.ok hwell.name
      case literal =>
        rw [shown_eq, ← isNone_shown?]
        cases hvalue : key.value.isMissing with
        | true =>
            cases hv : key.value <;> simp_all [isMissing, shown?, quoted?]
            rfl
        | false =>
            cases key.value.shown? <;> rfl
      all_goals rfl

end

end Program

/-! ## Attributes -/

namespace Configuration

open Datum

/-- Whether an attribute is allow-listed, or is so on the tag that owns it. -/
def allowsAttribute (c : Configuration) (tag attr : Option Text) : Bool :=
  attr.any fun a => c.attributes.contains a ||
    c.tagAttributes.any fun r => r.attributes.contains a &&
      (r.tags.contains TagAttributes.wildcard || tag.any r.tags.contains)

theorem anyCovers_ofText? (tag : Option Text) (attr : Text) (rules : List TagAttributes) :
    anyCovers (ofText? tag) (.text attr) rules =
      .ok (rules.any fun r => r.attributes.contains attr &&
        (r.tags.contains TagAttributes.wildcard || tag.any r.tags.contains)) := by
  induction rules with
  | nil => rfl
  | cons r rest ih =>
      have hcovers : r.covers (ofText? tag) (.text attr) = .ok (r.attributes.contains attr &&
          (r.tags.contains TagAttributes.wildcard || tag.any r.tags.contains)) := by
        unfold TagAttributes.covers
        rw [isOneOf_ofText?, isMissing_ofText?]
        show (if (!r.attributes.contains attr) = true then _ else _) = _
        cases r.attributes.contains attr <;>
          cases r.tags.contains TagAttributes.wildcard <;> cases tag <;> rfl
      rw [anyCovers, hcovers, ih, List.any_cons]
      show (if _ then _ else _) = _
      cases r.attributes.contains attr &&
        (r.tags.contains TagAttributes.wildcard || tag.any r.tags.contains) <;> rfl

theorem ignoresAttribute_ofText? (c : Configuration) (tag attr : Option Text) :
    c.ignoresAttribute (ofText? tag) (ofText? attr) = .ok (c.allowsAttribute tag attr) := by
  cases attr with
  | none => rfl
  | some a =>
      unfold ignoresAttribute allowsAttribute
      rw [isMissing_ofText?, isOneOf_ofText?, show ofText? (some a) = .text a from rfl,
        anyCovers_ofText?, Option.any_some, Option.any_some]
      cases c.attributes.contains a <;> rfl

end Configuration

/-! ## The list -/

namespace Hearing

open Datum

/-- Whether a question is answered with yes. -/
def affirms : Except NodeFault Bool → Bool
  | .ok b => b
  | .error _ => false

theorem eq_ok_affirms {e : Except NodeFault Bool} (h : ∃ b, e = .ok b) : e = .ok (affirms e) := by
  obtain ⟨b, rfl⟩ := h
  rfl

/-- Whether a literal is the initial value of a binding in upper case. -/
def bindsConstant (h : Hearing) (i : Nat) : Bool :=
  ((h.program.parent? i).bind h.program.node?).any fun parent =>
    h.program.roleAt i == some "value" && parent.kind == .variableBinding &&
      parent.name.text?.any Baseline.isUpperCase

/-- Whether the nearest attribute above a literal is allow-listed. -/
def inAllowedAttribute (h : Hearing) (i : Nat) : Bool :=
  (h.program.nearestOfKind? i .attribute).any fun a =>
    h.config.allowsAttribute (h.ownerTag i).text? (h.program.nameAt a).text?

/-- Whether the key of the nearest property above a literal is allow-listed or in upper case. -/
def underExemptKey (h : Hearing) (i : Nat) : Bool :=
  (h.program.nearestOfKind? i .objectProperty).any fun property =>
    (h.program.keyText? property).any fun key =>
      h.config.properties.contains key || Baseline.isUpperCase key

/-- Whether a literal is an argument of a technical call or of a translation. -/
def isContainerArgument (h : Hearing) (i : Nat) : Bool :=
  (h.callOfArgument? i (h.program.ancestors i)).any fun call => affirms (h.isContainerCall call)

/-- Whether the oracle accepts a string literal. -/
def oracleAccepts (h : Hearing) (i : Nat) : Bool :=
  match h.oracle, Oracle.question? h.program i with
  | some o, some v => affirms (o.asks i v)
  | _, _ => false

/-- The complaint about a literal that nothing exempts. -/
def violation (h : Hearing) (i : Nat) (n : Node) : Complaint :=
  match h.program.nearestOfKind? i .attribute, h.program.nearestOfKind? i .objectProperty with
  | some attr, _ => h.attributeComplaint i n attr
  | none, some property => h.propertyComplaint n property
  | none, none => h.genericComplaint i n

/-- The decision list without failures. -/
def firstMatch (h : Hearing) (i : Nat) (n : Node) : Option Complaint :=
  if n.kind = .text then
    if h.marks.insideTranslation h.program i ∨ h.exemptsText n then none
    else some (textComplaint n)
  else if h.structuralPosition i then none
  else if h.bindsConstant i then none
  else if h.marks.insideTechnical h.program i then none
  else if h.marks.insideTranslation h.program i then
    if n.kind = .templateLiteral ∧ hasNativeHole n then some (placeholderComplaint n) else none
  else if h.inAllowedAttribute i ∨ h.exemptsText n ∨ h.underExemptKey i ∨
      h.isContainerArgument i ∨ h.oracleAccepts i then none
  else some (h.violation i n)

/-- Whether the list gets as far as the key of a property and finds it without a numeral. -/
def meetsLongKey (h : Hearing) (i : Nat) (n : Node) : Bool :=
  n.kind != .text && !h.structuralPosition i && !h.bindsConstant i &&
    !h.marks.insideTechnical h.program i && !h.marks.insideTranslation h.program i &&
    !h.inAllowedAttribute i && !h.exemptsText n &&
    (h.program.nearestOfKind? i .objectProperty).any h.program.keyIsTooLong

/-! ### The predicates on well-typed programs -/

section

variable {h : Hearing}

theorem constantBinding_eq (hp : h.program.WellTyped) (i : Nat) :
    h.constantBinding i = .ok (h.bindsConstant i) := by
  unfold constantBinding bindsConstant
  cases hparent : (h.program.parent? i).bind h.program.node? with
  | none => rfl
  | some parent =>
      obtain ⟨j, -, hj⟩ := Option.bind_eq_some_iff.1 hparent
      have hname := (hp j parent hj).name
      dsimp only
      rw [hname, isMissing_ofText?, Option.any_some]
      cases parent.name.text? with
      | none => simp
      | some name =>
          cases h.program.roleAt i == some "value" <;> cases parent.kind == .variableBinding <;> rfl

theorem isContainerCall_ok (hp : h.program.WellTyped) (i : Nat) :
    ∃ b, h.isContainerCall i = .ok b := by
  obtain ⟨technical, htech⟩ := Program.isTechnicalCall_ok hp h.config i
  obtain ⟨translates, htrans⟩ := Program.isTranslationCall_ok hp h.config i
  unfold isContainerCall
  rw [htech, htrans]
  cases technical with
  | true => exact ⟨true, rfl⟩
  | false => exact ⟨translates, rfl⟩

theorem argumentOfContainerCall_eq (hp : h.program.WellTyped) (i : Nat) :
    h.argumentOfContainerCall i = .ok (h.isContainerArgument i) := by
  unfold argumentOfContainerCall isContainerArgument
  cases h.callOfArgument? i (h.program.ancestors i) with
  | none => rfl
  | some call => exact eq_ok_affirms (isContainerCall_ok hp call)

theorem ownerTag_eq (hp : h.program.WellTyped) (i : Nat) :
    h.ownerTag i = ofText? (h.ownerTag i).text? := by
  unfold ownerTag
  cases h.program.nearestOfKind? i .elementOpening with
  | none => rfl
  | some opening => exact Program.nameAt_eq hp opening

theorem inIgnoredAttribute_eq (hp : h.program.WellTyped) (i : Nat) :
    h.inIgnoredAttribute i (h.program.nearestOfKind? i .attribute) =
      .ok (h.inAllowedAttribute i) := by
  unfold inIgnoredAttribute inAllowedAttribute
  cases h.program.nearestOfKind? i .attribute with
  | none => rfl
  | some a =>
      have hallowed := h.config.ignoresAttribute_ofText? (h.ownerTag i).text?
        (h.program.nameAt a).text?
      rw [← ownerTag_eq hp, ← Program.nameAt_eq hp] at hallowed
      exact hallowed

theorem exemptsKeyOf_eq (hp : h.program.WellTyped) (property : Nat) :
    h.exemptsKeyOf property =
      if h.program.keyIsTooLong property then .error .numeralTooLong
      else .ok ((h.program.keyText? property).any fun key =>
        h.config.properties.contains key || Baseline.isUpperCase key) := by
  unfold exemptsKeyOf
  rw [Program.propertyKey_eq hp]
  cases h.program.keyIsTooLong property with
  | true => rfl
  | false =>
      show h.exemptsKey (ofText? (h.program.keyText? property)) = _
      unfold exemptsKey
      rw [isOneOf_ofText?]
      cases h.program.keyText? property with
      | none => rfl
      | some key =>
          simp only [Option.any_some]
          cases h.config.properties.contains key <;> rfl

theorem acceptedByOracle_eq (ho : ∀ o, h.oracle = some o → ∀ i v, ∃ b, o.asks i v = .ok b)
    (i : Nat) : h.acceptedByOracle i = .ok (h.oracleAccepts i) := by
  unfold acceptedByOracle oracleAccepts
  cases horacle : h.oracle with
  | none => rfl
  | some o =>
      cases Oracle.question? h.program i with
      | none => rfl
      | some v => exact eq_ok_affirms (ho o horacle i v)

theorem unlessExempt_ok (b : Bool) (rest : Except NodeFault (Option Complaint)) :
    unlessExempt (.ok b) rest = if b then .ok none else rest := by
  cases b <;> rfl

/-- The end of the list, with the complaint that stands. -/
theorem lastDecision_eq (hp : h.program.WellTyped)
    (ho : ∀ o, h.oracle = some o → ∀ i v, ∃ b, o.asks i v = .ok b) (i : Nat) (n : Node)
    (attr : Option Nat) (standing : Complaint) :
    h.lastDecision i n attr standing =
      .ok (if h.isContainerArgument i ∨ h.exemptsText n ∨ h.oracleAccepts i then none
        else some (match attr with
          | some a => h.attributeComplaint i n a
          | none => standing)) := by
  unfold lastDecision
  simp only [argumentOfContainerCall_eq hp, acceptedByOracle_eq ho, unlessExempt_ok]
  cases h.isContainerArgument i <;> cases h.exemptsText n <;> cases h.oracleAccepts i <;> rfl

/-- The list from object properties on. -/
theorem propertyDecision_eq (hp : h.program.WellTyped)
    (ho : ∀ o, h.oracle = some o → ∀ i v, ∃ b, o.asks i v = .ok b) (i : Nat) (n : Node) :
    h.propertyDecision i n (h.program.nearestOfKind? i .attribute) =
      if h.exemptsText n then .ok none
      else if (h.program.nearestOfKind? i .objectProperty).any h.program.keyIsTooLong then
        .error .numeralTooLong
      else
        .ok (if h.underExemptKey i ∨ h.isContainerArgument i ∨ h.oracleAccepts i then none
          else some (h.violation i n)) := by
  unfold propertyDecision violation underExemptKey
  cases h.program.nearestOfKind? i .objectProperty with
  | none =>
      simp only [lastDecision_eq hp ho, Option.any_none]
      cases h.exemptsText n <;> cases h.program.nearestOfKind? i .attribute <;> simp
  | some property =>
      simp only [exemptsKeyOf_eq hp, lastDecision_eq hp ho, unlessExempt_ok, Option.any_some]
      cases h.exemptsText n
      case true => rfl
      cases h.program.keyIsTooLong property
      case true => rfl
      simp only [Bool.false_eq_true, if_false, unlessExempt_ok, false_or]
      by_cases hkey : ((h.program.keyText? property).any fun key =>
          h.config.properties.contains key || Baseline.isUpperCase key) = true
      · simp only [hkey, if_true, true_or]
      · simp only [hkey, Bool.false_eq_true, if_false, false_or]
        cases h.program.nearestOfKind? i .attribute <;> rfl

/-- **On a well-typed program the decision list is the first match**, unless it meets a key without
a numeral. -/
theorem decision_eq (hp : h.program.WellTyped)
    (ho : ∀ o, h.oracle = some o → ∀ i v, ∃ b, o.asks i v = .ok b) (i : Nat) (n : Node) :
    h.decision i n =
      if h.meetsLongKey i n then .error .numeralTooLong else .ok (h.firstMatch i n) := by
  unfold meetsLongKey firstMatch decision
  by_cases htext : n.kind = .text
  · simp only [htext, textDecision, unlessExempt_ok]
    cases h.marks.insideTranslation h.program i <;> cases h.exemptsText n <;> simp
  · have hlist : (n.kind == .text) = false := by simpa using htext
    simp only [htext, hlist, literalDecision, constantBinding_eq hp, inIgnoredAttribute_eq hp,
      propertyDecision_eq hp ho, unlessExempt_ok]
    cases h.structuralPosition i
    case true => simp
    cases h.bindsConstant i
    case true => simp
    cases h.marks.insideTechnical h.program i
    case true => simp
    cases h.marks.insideTranslation h.program i
    case true => simp [translatedDecision]
    cases h.inAllowedAttribute i
    case true => simp
    cases h.exemptsText n
    case true => simp
    cases (h.program.nearestOfKind? i .objectProperty).any h.program.keyIsTooLong <;> simp [htext]

end

/-- A tree of well-typed nodes makes a well-typed program. -/
theorem wellTyped_ofTree {t : Tree Node} (ht : t.Everywhere fun n _ => n.WellTyped) :
    (Program.ofTree t).WellTyped := by
  intro i n hn
  obtain ⟨_, hwell⟩ := Arena.holds_of_everywhere ht hn
  exact hwell

/-- **A ruling is the first match of a plain list.** On a well-typed tree, with an oracle that
answers, the ruling on a node without a verdict returns what `firstMatch` says, whatever the
containers marked and the verdicts on other nodes are. The exact exception are property keys without
a numeral, on which it fails. -/
theorem resolve_eq_firstMatch (t : Tree Node) (ht : t.Everywhere fun n _ => n.WellTyped)
    (config : Configuration) (marks : Marks) (oracle : Option Oracle)
    (ho : ∀ o, oracle = some o → ∀ i v, ∃ b, o.asks i v = .ok b) (i : Nat) (n : Node)
    (hn : (Program.ofTree t).node? i = some n) (hs : n.isString) (s : Proceedings)
    (hfresh : s.table.entry? i = some {}) :
    let h : Hearing := ⟨Program.ofTree t, config, marks, oracle⟩
    (ExceptT.run (h.resolve i) s).1 =
      if h.meetsLongKey i n then .error .numeralTooLong else .ok (h.firstMatch i n) := by
  intro h
  obtain ⟨e', qs, hrules, -⟩ := h.rules_resolve hn hs
  rw [hrules s hfresh]
  exact decision_eq (wellTyped_ofTree ht) ho i n

/-! ### A key without a numeral -/

/-- A text below a property whose key is a literal. -/
def keyedText (key : Datum) : Tree Node :=
  .node { kind := .objectProperty, text := .text "1: 'Hello'" }
    [.node { kind := .literal, role := some "key", value := key, text := .text "1" } [],
      .node { kind := .literal, role := some "value", value := .text "Hello",
              text := .text "'Hello'" } []]

/-- A hearing on it, without any allow-list. -/
def keyedHearing (key : Datum) : Hearing :=
  ⟨Program.ofTree (keyedText key), ⟨[], .ofNames [], .ofNames [], [], [], []⟩, {}, none⟩

theorem keyedText_wellTyped (key : Datum) :
    (keyedText key).Everywhere fun n _ => n.WellTyped := by
  have hwell : ∀ n : Node, n.name = .missing → n.text.text?.isSome → n.WellTyped := by
    intro n hname htext
    exact ⟨by rw [hname]; rfl, htext⟩
  exact ⟨hwell _ rfl rfl, ⟨hwell _ rfl rfl, trivial⟩, ⟨hwell _ rfl rfl, trivial⟩, trivial⟩

/-- Below a key that can be shown, the text is complained about. -/
theorem resolve_below_short_key :
    (ExceptT.run ((keyedHearing (.flag true)).resolve 2) ⟨.ofSize 3, []⟩).1 = .ok (some
      ⟨"property", [("string", .text "'Hello'"), ("code", .text "1: 'Hello'")]⟩) :=
  resolve_eq_firstMatch (keyedText (.flag true)) (keyedText_wellTyped _) _ _ none
    (by intro o ho; cases ho) 2 _ rfl rfl ⟨.ofSize 3, []⟩ rfl

/-- The least integer of more than 4300 decimal digits. -/
def longInteger : Datum := .whole (Int.ofNat (Nat.pow 10 Text.decimalDigitLimit))

theorem isLongInteger_longInteger : longInteger.isLongInteger := by
  have hself : ∀ m : Nat, m ≤ (Int.ofNat m).natAbs := fun m => Nat.le_refl m
  rw [longInteger, isLongInteger]
  exact decide_eq_true (hself _)

/-- Below an integer of 4301 digits the ruling does not return, on a well-typed tree and without an
oracle. -/
theorem resolve_below_long_key :
    ((keyedText longInteger).Everywhere fun n _ => n.WellTyped) ∧
      ((keyedHearing longInteger).program.node? 2).any Node.isString ∧
      VerdictTable.entry? (.ofSize 3) 2 = some {} ∧
      (ExceptT.run ((keyedHearing longInteger).resolve 2) ⟨.ofSize 3, []⟩).1 =
        .error .numeralTooLong := by
  have hwell := keyedText_wellTyped longInteger
  have hlong := isLongInteger_longInteger
  -- nothing but its length matters about the key
  generalize longInteger = key at hwell hlong ⊢
  refine ⟨hwell, rfl, rfl, ?_⟩
  obtain ⟨e', qs, hrules, -⟩ := (keyedHearing key).rules_resolve (i := 2) rfl rfl
  rw [hrules ⟨.ofSize 3, []⟩ rfl, decision_eq (wellTyped_ofTree hwell) (by intro o ho; cases ho)]
  refine if_pos ?_
  show (true && key.isLongInteger) = true
  rw [hlong]
  rfl

end Hearing

end LiteralLint
