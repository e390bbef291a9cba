import LiteralLint.Classification

/-!
# Rulings as decision lists

A ruling works on the verdict table: it records complaints, revokes them by exemptions, and asks
the type oracle on the way. What it decides about a node, though, depends on that node's own entry
only, and for a node without a verdict it is what a plain list of rules decides, the first rule that
applies being the last one looked at.

`Rules` is the program logic that shows it. Its triples speak of one entry of the table; every
other entry, and every question asked before, is left alone by construction, so a ruling on one
node says nothing about any other. The list itself is `Hearing.decision`. It can fail where a
predicate fails on a field value of the wrong kind.

## Main definitions

* `Rules`: what a step of a ruling does to the entry of one node.
* `Hearing.decision`: the decision list.

## Main results

* `Hearing.rules_resolve`: a ruling on a node without a verdict ends as the decision list does, and
  freezes the verdict that belongs to its result.
* `Hearing.rules_resolve_fresh`: whatever the node is, a ruling on a fresh entry is a triple.
-/

namespace LiteralLint

/-! ## One entry of the table -/

namespace VerdictTable

theorem entry?_update_self {t : VerdictTable} {i : Nat} {e : Entry} (h : t.entry? i = some e)
    (f : Entry → Entry) :
    VerdictTable.entry? (t.update i f) i = some (f e) := by
  have h' : t.entries[i]? = some e := h
  unfold entry? update
  simp [Array.getElem?_modify, h']

theorem entry?_update_ne {i j : Nat} (h : i ≠ j) (t : VerdictTable) (f : Entry → Entry) :
    VerdictTable.entry? (t.update i f) j = t.entry? j := by
  unfold entry? update
  simp [Array.getElem?_modify, h]

/-- Only the value at the entry that is there counts. -/
theorem update_eq_const {t : VerdictTable} {i : Nat} {e : Entry} (h : t.entry? i = some e)
    (f : Entry → Entry) : t.update i f = t.update i fun _ => f e := by
  have h' : t.entries[i]? = some e := h
  unfold update
  congr 1
  apply Array.ext_getElem?
  intro j
  by_cases hj : i = j
  · subst hj
    simp [Array.getElem?_modify, h']
  · simp [Array.getElem?_modify, hj]

theorem update_self {t : VerdictTable} {i : Nat} {e : Entry} (h : t.entry? i = some e) :
    (t.update i fun _ => e) = t := by
  have h' : t.entries[i]? = some e := h
  unfold update
  congr 1
  apply Array.ext_getElem?
  intro j
  by_cases hj : i = j
  · subst hj
    simp [Array.getElem?_modify, h']
  · simp [Array.getElem?_modify, hj]

theorem update_update (t : VerdictTable) (i : Nat) (f g : Entry → Entry) :
    (t.update i f).update i g = t.update i (g ∘ f) := by
  unfold update
  congr 1
  apply Array.ext_getElem?
  intro j
  by_cases hj : i = j
  · subst hj
    simp [Array.getElem?_modify]
  · simp [Array.getElem?_modify, hj]

theorem entry?_ofSize {n i : Nat} (h : i < n) : VerdictTable.entry? (ofSize n) i = some {} := by
  unfold entry? ofSize
  simp [h]

end VerdictTable

/-- Proceedings in which the entry of one node has become another, and further questions have been
asked. -/
def Proceedings.after (s : Proceedings) (i : Nat) (e : Entry) (qs : List Question) : Proceedings :=
  ⟨s.table.update i fun _ => e, s.questions ++ qs⟩

namespace Proceedings

theorem entry?_after {s : Proceedings} {i : Nat} {e : Entry} (h : s.table.entry? i = some e)
    (e' : Entry) (qs : List Question) :
    VerdictTable.entry? (s.after i e' qs).table i = some e' :=
  VerdictTable.entry?_update_self h _

theorem after_after (s : Proceedings) (i : Nat) (e e' : Entry) (qs qs' : List Question) :
    (s.after i e qs).after i e' qs' = s.after i e' (qs ++ qs') := by
  simp only [after, VerdictTable.update_update, List.append_assoc]
  rfl

theorem after_self {s : Proceedings} {i : Nat} {e : Entry} (h : s.table.entry? i = some e) :
    s.after i e [] = s := by
  rw [after, VerdictTable.update_self h, List.append_nil]

end Proceedings

/-! ## The program logic -/

/-- What a step of a ruling does to the entry of node `i`: from entry `e` it ends with `out` and
leaves entry `e'`, having asked `qs`. Everything else about the proceedings stays as it is. -/
def Rules {α : Type} (i : Nat) (e : Entry) (r : Ruling α) (out : Except NodeFault α) (e' : Entry)
    (qs : List Question) : Prop :=
  ∀ s : Proceedings, s.table.entry? i = some e → ExceptT.run r s = (out, s.after i e' qs)

namespace Rules

variable {α β : Type} {i : Nat} {e e' e'' : Entry} {qs qs' : List Question}

theorem run_bind (r : Ruling α) (k : α → Ruling β) (s : Proceedings) :
    ExceptT.run (r >>= k) s =
      match ExceptT.run r s with
      | (.ok a, s') => ExceptT.run (k a) s'
      | (.error f, s') => (.error f, s') := by
  change (ExceptT.run r >>= ExceptT.bindCont k) s = _
  simp only [bind, StateT.bind]
  cases ExceptT.run r s with
  | mk out s' => cases out <;> rfl

theorem bind_ok {r : Ruling α} {k : α → Ruling β} {a : α} {out : Except NodeFault β}
    (hr : Rules i e r (.ok a) e' qs) (hk : Rules i e' (k a) out e'' qs') :
    Rules i e (r >>= k) out e'' (qs ++ qs') := by
  intro s hs
  rw [run_bind, hr s hs]
  show ExceptT.run (k a) (s.after i e' qs) = _
  rw [hk _ (Proceedings.entry?_after hs e' qs), Proceedings.after_after]

theorem bind_error {r : Ruling α} (k : α → Ruling β) {f : NodeFault}
    (hr : Rules i e r (.error f) e' qs) : Rules i e (r >>= k) (.error f) e' qs := by
  intro s hs
  rw [run_bind, hr s hs]

theorem pure_ok (i : Nat) (e : Entry) (a : α) : Rules i e (pure a) (.ok a) e [] := by
  intro s hs
  rw [Proceedings.after_self hs]
  rfl

theorem settle (i : Nat) (e : Entry) (x : Except NodeFault α) :
    Rules i e (Hearing.settle x) x e [] := by
  intro s hs
  rw [Proceedings.after_self hs]
  rfl

theorem exempt (i : Nat) (e : Entry) : Rules i e (Hearing.exempt i) (.ok ()) e.exempt [] := by
  intro s hs
  show (Except.ok (), (⟨s.table.exempt i, s.questions⟩ : Proceedings)) = _
  rw [Proceedings.after, List.append_nil, VerdictTable.exempt,
    VerdictTable.update_eq_const hs]

theorem complain (i : Nat) (e : Entry) (c : Complaint) :
    Rules i e (Hearing.complain i c) (.ok ()) (e.complain c) [] := by
  intro s hs
  show (Except.ok (), (⟨s.table.complain i c, s.questions⟩ : Proceedings)) = _
  rw [Proceedings.after, List.append_nil, VerdictTable.complain,
    VerdictTable.update_eq_const hs]

/-- A step that looks at the table and goes on. -/
theorem of_get {k : Proceedings → Ruling β} {out : Except NodeFault β}
    (hk : ∀ s : Proceedings, s.table.entry? i = some e →
      ExceptT.run (k s) s = (out, s.after i e' qs)) :
    Rules i e (get >>= k) out e' qs := by
  intro s hs
  rw [run_bind]
  exact hk s hs

end Rules

/-! ## The decision list -/

namespace Hearing

/-- A rule of a decision list: if it exempts there is no complaint, and if it does not the rest of
the list decides. A rule that fails ends the list. -/
def unlessExempt (exempts : Except NodeFault Bool) (rest : Except NodeFault (Option Complaint)) :
    Except NodeFault (Option Complaint) :=
  match exempts with
  | .ok true => .ok none
  | .ok false => rest
  | .error f => .error f

theorem unlessExempt_eq_some {e : Except NodeFault Bool}
    {d : Except NodeFault (Option Complaint)} {c : Complaint} :
    unlessExempt e d = .ok (some c) ↔ e = .ok false ∧ d = .ok (some c) := by
  cases e with
  | error f => simp [unlessExempt]
  | ok b => cases b <;> simp [unlessExempt]

/-- Whether the declared type at a node includes its text, as far as an oracle is asked. -/
def acceptedByOracle (h : Hearing) (i : Nat) : Except NodeFault Bool :=
  match h.oracle, Oracle.question? h.program i with
  | some o, some v => o.asks i v
  | _, _ => .ok false

/-- The complaint about text in markup. -/
def textComplaint (n : Node) : Complaint :=
  ⟨"text", [("string", .text (Text.strip n.literalText))]⟩

/-- The list for text in markup. -/
def textDecision (h : Hearing) (i : Nat) (n : Node) : Except NodeFault (Option Complaint) :=
  unlessExempt (.ok (h.marks.insideTranslation h.program i)) <|
  unlessExempt (.ok (h.exemptsText n)) <|
  .ok (some (textComplaint n))

/-- The end of the list for literals, with the complaint that stands if there is no attribute. -/
def lastDecision (h : Hearing) (i : Nat) (n : Node) (attr : Option Nat) (standing : Complaint) :
    Except NodeFault (Option Complaint) :=
  unlessExempt (h.argumentOfContainerCall i) <|
  unlessExempt (.ok (h.exemptsText n)) <|
  unlessExempt (h.acceptedByOracle i) <|
  .ok (some (match attr with
    | some a => h.attributeComplaint i n a
    | none => standing))

/-- Whether the key of a property is allow-listed or in upper case. -/
def exemptsKeyOf (h : Hearing) (property : Nat) : Except NodeFault Bool :=
  h.program.propertyKey property >>= h.exemptsKey

/-- The list for literals from object properties on. -/
def propertyDecision (h : Hearing) (i : Nat) (n : Node) (attr : Option Nat) :
    Except NodeFault (Option Complaint) :=
  match h.program.nearestOfKind? i .objectProperty with
  | none => h.lastDecision i n attr (h.genericComplaint i n)
  | some property =>
    unlessExempt (.ok (h.exemptsText n)) <|
    unlessExempt (h.exemptsKeyOf property) <|
    h.lastDecision i n attr (h.propertyComplaint n property)

/-- What the inside of a translation container leaves to complain about. -/
def translatedDecision (n : Node) : Option Complaint :=
  if n.kind == .templateLiteral && hasNativeHole n then some (placeholderComplaint n) else none

/-- The list for literals and templates. -/
def literalDecision (h : Hearing) (i : Nat) (n : Node) : Except NodeFault (Option Complaint) :=
  unlessExempt (.ok (h.structuralPosition i)) <|
  unlessExempt (h.constantBinding i) <|
  unlessExempt (.ok (h.marks.insideTechnical h.program i)) <|
  if h.marks.insideTranslation h.program i then .ok (translatedDecision n)
  else
    let attr := h.program.nearestOfKind? i .attribute
    unlessExempt (h.inIgnoredAttribute i attr) <|
    h.propertyDecision i n attr

/-- The complaint about a node that carries text, if the list leaves one. -/
def decision (h : Hearing) (i : Nat) (n : Node) : Except NodeFault (Option Complaint) :=
  if n.kind == .text then h.textDecision i n else h.literalDecision i n

/-! ### What a list complains about -/

section complaints

variable {h : Hearing} {i : Nat} {n : Node} {attr : Option Nat} {c : Complaint}

/-- The end of a list complains about an attribute, or else the complaint stands. -/
theorem complaint_of_lastDecision {standing : Complaint}
    (hd : h.lastDecision i n attr standing = .ok (some c)) :
    (∃ a, attr = some a ∧ c = h.attributeComplaint i n a) ∨ c = standing := by
  unfold lastDecision at hd
  simp only [unlessExempt_eq_some] at hd
  obtain ⟨-, -, -, hd⟩ := hd
  cases attr with
  | some a =>
      cases hd
      exact Or.inl ⟨a, rfl, rfl⟩
  | none =>
      cases hd
      exact Or.inr rfl

theorem complaint_of_propertyDecision (hd : h.propertyDecision i n attr = .ok (some c)) :
    (∃ property, h.program.nearestOfKind? i .objectProperty = some property ∧
        c = h.propertyComplaint n property) ∨
      (∃ a, attr = some a ∧ c = h.attributeComplaint i n a) ∨
      c = h.genericComplaint i n := by
  unfold propertyDecision at hd
  cases hproperty : h.program.nearestOfKind? i .objectProperty with
  | none =>
      rw [hproperty] at hd
      exact Or.inr (complaint_of_lastDecision hd)
  | some property =>
      rw [hproperty] at hd
      simp only [unlessExempt_eq_some] at hd
      rcases complaint_of_lastDecision hd.2.2 with hattr | hstanding
      · exact Or.inr (Or.inl hattr)
      · exact Or.inl ⟨property, rfl, hstanding⟩

/-- Whatever a list complains about, the complaint is one of five. -/
theorem complaint_of_decision (hd : h.decision i n = .ok (some c)) :
    c = textComplaint n ∨ c = placeholderComplaint n ∨
      (∃ property, h.program.nearestOfKind? i .objectProperty = some property ∧
        c = h.propertyComplaint n property) ∨
      (∃ attr, h.program.nearestOfKind? i .attribute = some attr ∧
        c = h.attributeComplaint i n attr) ∨
      c = h.genericComplaint i n := by
  unfold decision at hd
  split at hd
  · unfold textDecision at hd
    simp only [unlessExempt_eq_some] at hd
    cases hd.2.2
    exact Or.inl rfl
  · unfold literalDecision at hd
    simp only [unlessExempt_eq_some] at hd
    obtain ⟨-, -, -, hd⟩ := hd
    split at hd
    · unfold translatedDecision at hd
      split at hd
      · cases hd
        exact Or.inr (Or.inl rfl)
      · cases hd
    · rw [unlessExempt_eq_some] at hd
      exact Or.inr (Or.inr (complaint_of_propertyDecision hd.2))

end complaints

/-! ## Rulings follow the list -/

/-- The verdict that belongs to the result of a decision list. -/
def verdictOf : Option Complaint → Verdict
  | none => .exempt
  | some c => .pending c

/-- An entry that a ruling can still decide: neither frozen nor exempt. -/
def IsOpen (e : Entry) : Prop := e.frozen = false ∧ e.verdict ≠ .exempt

/-- From an open entry a ruling ends as a decision list does, and leaves its verdict. -/
def Decides (i : Nat) (e : Entry) (r : Ruling Unit) (d : Except NodeFault (Option Complaint)) :
    Prop :=
  ∃ e' qs, Rules i e r (d.map fun _ => ()) e' qs ∧ ∀ c, d = .ok c → e' = ⟨verdictOf c, false⟩

theorem IsOpen.exempt {e : Entry} (he : IsOpen e) : e.exempt = ⟨.exempt, false⟩ := by
  cases e
  simp_all [IsOpen, Entry.exempt]

theorem IsOpen.complain {e : Entry} (he : IsOpen e) (c : Complaint) :
    e.complain c = ⟨.pending c, false⟩ := by
  obtain ⟨v, f⟩ := e
  obtain ⟨hf, hv⟩ := he
  cases v <;> simp_all [Entry.complain]

theorem decides_exempt {i : Nat} {e : Entry} (he : IsOpen e) :
    Decides i e (exempt i) (.ok none) := by
  refine ⟨_, _, Rules.exempt i e, ?_⟩
  intro c hc
  cases hc
  exact he.exempt

theorem decides_complain {i : Nat} {e : Entry} (he : IsOpen e) (c : Complaint) :
    Decides i e (complain i c) (.ok (some c)) := by
  refine ⟨_, _, Rules.complain i e c, ?_⟩
  intro d hd
  cases hd
  exact he.complain c

/-- A rule that asks a question which can fail. -/
theorem decides_rule {i : Nat} {e : Entry} (he : IsOpen e) {question : Ruling Bool}
    {answer : Except NodeFault Bool} {asked : List Question}
    (hq : Rules i e question answer e asked) {r : Ruling Unit}
    {d : Except NodeFault (Option Complaint)} (hr : answer = .ok false → Decides i e r d) :
    Decides i e (question >>= fun b => if b = true then exempt i else r) (unlessExempt answer d) := by
  match answer, hq, hr with
  | .error f, hq, _ =>
      refine ⟨e, asked, Rules.bind_error _ hq, ?_⟩
      intro c hc
      cases hc
  | .ok true, hq, _ =>
      refine ⟨_, _, Rules.bind_ok hq (Rules.exempt i e), ?_⟩
      intro c hc
      cases hc
      exact he.exempt
  | .ok false, hq, hr =>
      obtain ⟨e', qs, hrules, hverdict⟩ := hr rfl
      exact ⟨e', _, Rules.bind_ok hq hrules, hverdict⟩

theorem decides_settle {i : Nat} {e : Entry} (he : IsOpen e) (answer : Except NodeFault Bool)
    {r : Ruling Unit} {d : Except NodeFault (Option Complaint)}
    (hr : answer = .ok false → Decides i e r d) :
    Decides i e (settle answer >>= fun b => if b = true then exempt i else r)
      (unlessExempt answer d) :=
  decides_rule he (Rules.settle i e answer) hr

/-- A rule whose condition is known. -/
theorem decides_if {i : Nat} {e : Entry} (he : IsOpen e) (b : Bool) {r : Ruling Unit}
    {d : Except NodeFault (Option Complaint)} (hr : b = false → Decides i e r d) :
    Decides i e (if b = true then exempt i else r) (unlessExempt (.ok b) d) := by
  cases b with
  | true => exact decides_exempt he
  | false => exact hr rfl

/-- Asking the oracle answers the question and leaves the entry alone. -/
theorem rules_typeIncludes (h : Hearing) (i : Nat) (e : Entry) :
    ∃ asked, Rules i e (h.typeIncludes i) (h.acceptedByOracle i) e asked := by
  unfold typeIncludes acceptedByOracle
  cases h.oracle with
  | none => exact ⟨[], Rules.pure_ok i e false⟩
  | some o =>
      cases Oracle.question? h.program i with
      | none => exact ⟨[], Rules.pure_ok i e false⟩
      | some v =>
          dsimp only
          cases o.asks i v with
          | ok b =>
              refine ⟨[⟨i, v, some b⟩], ?_⟩
              intro s hs
              rw [Proceedings.after, VerdictTable.update_self hs]
              rfl
          | error f =>
              refine ⟨[⟨i, v, none⟩], ?_⟩
              intro s hs
              rw [Proceedings.after, VerdictTable.update_self hs]
              rfl

/-- The last rules. The complaint that stands is the one on record, or else the generic one. -/
theorem decides_ruleLast (h : Hearing) (i : Nat) (n : Node) (attr : Option Nat) {e : Entry}
    (he : IsOpen e) :
    Decides i e (h.ruleLast i n attr)
      (h.lastDecision i n attr (e.complaint?.getD (h.genericComplaint i n))) := by
  obtain ⟨asked, hask⟩ := h.rules_typeIncludes i e
  refine decides_settle he _ fun _ => decides_if he _ fun _ => decides_rule he hask fun _ => ?_
  cases attr with
  | some a => exact decides_complain he _
  | none =>
      obtain ⟨e', qs, hrules, hverdict⟩ := decides_complain (i := i) he (h.genericComplaint i n)
      cases hc : e.complaint? with
      | none =>
          refine ⟨e', qs, Rules.of_get ?_, hverdict⟩
          intro s hs
          have hnone : s.table.complaint? i = none := by
            rw [VerdictTable.complaint?, hs]
            exact hc
          simp only [hnone, Option.isNone_none, if_true]
          exact hrules s hs
      | some c =>
          refine ⟨e, [], Rules.of_get ?_, ?_⟩
          · intro s hs
            have hsome : s.table.complaint? i = some c := by
              rw [VerdictTable.complaint?, hs]
              exact hc
            simp only [hsome, Option.isNone_some, Bool.false_eq_true, if_false]
            exact Rules.pure_ok i e () s hs
          · intro d hd
            cases hd
            obtain ⟨v, f⟩ := e
            obtain ⟨hf, hv⟩ := he
            cases v <;> simp_all [Entry.complaint?, verdictOf]

theorem isOpen_fresh : IsOpen {} := ⟨rfl, by simp⟩

theorem isOpen_pending (c : Complaint) : IsOpen ⟨.pending c, false⟩ := ⟨rfl, by simp⟩

theorem decides_ruleProperty (h : Hearing) (i : Nat) (n : Node) (attr : Option Nat) :
    Decides i {} (h.ruleProperty i n attr) (h.propertyDecision i n attr) := by
  unfold ruleProperty propertyDecision
  cases h.program.nearestOfKind? i .objectProperty with
  | none => exact h.decides_ruleLast i n attr isOpen_fresh
  | some property =>
      refine decides_if isOpen_fresh _ fun _ => ?_
      have hrecord : ∀ r d, Decides i ⟨.pending (h.propertyComplaint n property), false⟩ r d →
          Decides i {} (complain i (h.propertyComplaint n property) >>= fun _ => r) d := by
        intro r d hr
        obtain ⟨e', qs, hrules, hverdict⟩ := hr
        exact ⟨e', _, Rules.bind_ok (Rules.complain i {} _) hrules, hverdict⟩
      unfold exemptsKeyOf
      cases h.program.propertyKey property with
      | error f => exact ⟨{}, [], Rules.bind_error _ (Rules.settle i {} _), by intro c hc; cases hc⟩
      | ok key =>
          obtain ⟨e', qs, hrules, hverdict⟩ := decides_settle isOpen_fresh (h.exemptsKey key)
            fun _ => hrecord _ _ (h.decides_ruleLast i n attr (isOpen_pending _))
          exact ⟨e', _, Rules.bind_ok (Rules.settle i {} (.ok key)) hrules, hverdict⟩

theorem decides_ruleLiteral (h : Hearing) (i : Nat) (n : Node) :
    Decides i {} (h.ruleLiteral i n) (h.literalDecision i n) := by
  unfold ruleLiteral literalDecision
  refine decides_if isOpen_fresh _ fun _ => decides_settle isOpen_fresh _ fun _ =>
    decides_if isOpen_fresh _ fun _ => ?_
  split
  · unfold translatedDecision
    split
    · exact decides_complain isOpen_fresh _
    · exact decides_exempt isOpen_fresh
  · exact decides_settle isOpen_fresh _ fun _ => h.decides_ruleProperty i n _

theorem decides_rule_node (h : Hearing) (i : Nat) (n : Node) :
    Decides i {} (h.rule i n) (h.decision i n) := by
  unfold rule decision
  split
  · unfold ruleText textDecision
    exact decides_if isOpen_fresh _ fun _ => decides_if isOpen_fresh _ fun _ =>
      decides_complain isOpen_fresh _
  · exact h.decides_ruleLiteral i n

/-- **A ruling is a decision list.** On a node without a verdict it ends as the list does; where the
list has a result, its verdict is on record and frozen. -/
theorem rules_resolve (h : Hearing) {i : Nat} {n : Node} (hn : h.program.node? i = some n)
    (hs : n.isString) :
    ∃ e' qs, Rules i {} (h.resolve i) (h.decision i n) e' qs ∧
      ∀ c, h.decision i n = .ok c → e' = ⟨verdictOf c, true⟩ := by
  obtain ⟨e, qs, hrules, hverdict⟩ := h.decides_rule_node i n
  unfold resolve
  rw [hn]
  simp only [hs, if_true]
  cases hd : h.decision i n with
  | error f =>
      rw [hd] at hrules
      exact ⟨e, qs, Rules.bind_error _ hrules, by intro c hc; cases hc⟩
  | ok c =>
      rw [hd] at hrules
      have he := hverdict c hd
      subst he
      refine ⟨⟨verdictOf c, true⟩, qs ++ [], Rules.bind_ok hrules ?_, ?_⟩
      · intro s hs
        have hfrozen : s.table.freeze i = s.table.update i fun _ => ⟨verdictOf c, true⟩ :=
          VerdictTable.update_eq_const hs _
        show (Except.ok ((s.table.freeze i).complaint? i),
          (⟨s.table.freeze i, s.questions⟩ : Proceedings)) = _
        rw [hfrozen, VerdictTable.complaint?, VerdictTable.entry?_update_self hs,
          Proceedings.after, List.append_nil]
        cases c <;> rfl
      · intro d hd'
        cases hd'
        rfl

/-- A node without text is not ruled on. -/
theorem resolve_run_of_not_isString (h : Hearing) {i : Nat}
    (hn : ∀ n, h.program.node? i = some n → ¬ n.isString) (s : Proceedings) :
    ExceptT.run (h.resolve i) s = (.ok none, s) := by
  unfold resolve
  cases hi : h.program.node? i with
  | none => rfl
  | some n =>
      simp only [hn n hi]
      rfl

/-- Whatever the node, a ruling on a fresh entry leaves the entries of all others alone. -/
theorem rules_resolve_fresh (h : Hearing) (i : Nat) :
    ∃ out e' qs, Rules i {} (h.resolve i) out e' qs := by
  by_cases hs : ∃ n, h.program.node? i = some n ∧ n.isString
  · obtain ⟨n, hn, hstring⟩ := hs
    obtain ⟨e', qs, hrules, -⟩ := h.rules_resolve hn hstring
    exact ⟨_, e', qs, hrules⟩
  · refine ⟨.ok none, {}, [], ?_⟩
    intro s hentry
    rw [Proceedings.after_self hentry]
    exact h.resolve_run_of_not_isString (fun n hn hstring => hs ⟨n, hn, hstring⟩) s

/-- A hearing with other marks and other value patterns. -/
def withMarks (h : Hearing) (m : Marks) (patterns : List ValuePattern) : Hearing :=
  { h with marks := m, config := { h.config with valuePatterns := patterns } }

/-- The call that an argument belongs to is found by the program alone. -/
theorem callOfArgument?_congr {h h' : Hearing} (hp : h'.program = h.program) (above : List Nat) :
    ∀ below, h'.callOfArgument? below above = h.callOfArgument? below above := by
  induction above with
  | nil => intro below; rfl
  | cons a rest ih =>
      intro below
      simp only [callOfArgument?, ih, hp]

theorem argumentOfContainerCall_withMarks (h : Hearing) (m : Marks) (patterns : List ValuePattern)
    (i : Nat) : (h.withMarks m patterns).argumentOfContainerCall i = h.argumentOfContainerCall i := by
  have hcall : ∀ above below, (h.withMarks m patterns).callOfArgument? below above =
      h.callOfArgument? below above := callOfArgument?_congr rfl
  unfold argumentOfContainerCall
  rw [hcall]
  rfl

/-- The list asks the marks whether the node is inside a translation and whether it is inside a
technical container, and the value patterns whether they match its text, and nothing else. -/
theorem decision_withMarks (h : Hearing) (m : Marks) (patterns : List ValuePattern) {i : Nat}
    {n : Node} (htrans : m.insideTranslation h.program i = h.marks.insideTranslation h.program i)
    (htech : m.insideTechnical h.program i = h.marks.insideTechnical h.program i)
    (htext : (h.withMarks m patterns).exemptsText n = h.exemptsText n) :
    (h.withMarks m patterns).decision i n = h.decision i n := by
  unfold decision textDecision literalDecision propertyDecision lastDecision
  simp only [htext, argumentOfContainerCall_withMarks]
  simp only [withMarks, htrans, htech]
  rfl

end Hearing

end LiteralLint
