import LiteralLint.Proofs.Reporting
import LiteralLint.Proofs.SinglePass

/-!
# What a type oracle does to a run

The oracle is the last but one to be heard on a literal: when it is asked, all exemptions have failed,
and a complaint about a property may already be on record. So a run with an oracle finds what a run
without one finds, less the literals whose text the oracle accepts, and it is asked about the literals
that would be reported without it, and about nothing else.

For a single node this is a law of the list. Hearing the oracle commutes with every rule before it, and
templates and markup never come before it, so the list with an oracle is the list without one, narrowed
at its end. The questions follow the same course. Both are gathered at single nodes, so they carry
over to the whole run.

A complaint on which the oracle is heard is reported if the oracle refuses, since on a well-typed
program every complaint can be.

## Main definitions

* `Hearing.narrowed`: the end of a list with the oracle heard.
* `Lint.Run.questions`: the questions of a run, in order.
* `Oracle.accepts`: the oracle accepts the text of a literal.

## Main results

* `Hearing.decision_eq_narrowed`: the list with an oracle is the list without one, narrowed.
* `Lint.findings_narrowed`: the findings and the questions of a run with an oracle.
-/

namespace LiteralLint

/-! ## One node -/

namespace Hearing

/-- The hearing without an oracle. -/
def withoutOracle (h : Hearing) : Hearing := { h with oracle := none }

/-- The end of a list with the oracle heard: a complaint stands unless the oracle accepts. -/
def narrowed (h : Hearing) (i : Nat) :
    Except NodeFault (Option Complaint) → Except NodeFault (Option Complaint)
  | .ok (some c) => unlessExempt (h.acceptedByOracle i) (.ok (some c))
  | d => d

/-- Hearing the oracle commutes with the rules before it. -/
theorem narrowed_unlessExempt (h : Hearing) (i : Nat) (exempts : Except NodeFault Bool)
    (rest : Except NodeFault (Option Complaint)) :
    h.narrowed i (unlessExempt exempts rest) = unlessExempt exempts (h.narrowed i rest) := by
  cases exempts with
  | error f => rfl
  | ok b => cases b <;> rfl

/-- Only string literals are brought before the oracle. -/
theorem question?_eq_none {p : Program} {i : Nat} {n : Node} (hn : p.node? i = some n)
    (hkind : n.kind ≠ .literal) : Oracle.question? p i = none := by
  unfold Oracle.question?
  simp [hn, hkind]

theorem acceptedByOracle_of_question?_eq_none {h : Hearing} {i : Nat}
    (hq : Oracle.question? h.program i = none) : h.acceptedByOracle i = .ok false := by
  unfold acceptedByOracle
  rw [hq]
  cases h.oracle <;> rfl

/-- A node that no question is about keeps the end of its list. -/
theorem narrowed_of_question?_eq_none {h : Hearing} {i : Nat}
    (hq : Oracle.question? h.program i = none) (d : Except NodeFault (Option Complaint)) :
    h.narrowed i d = d := by
  unfold narrowed
  rw [acceptedByOracle_of_question?_eq_none hq]
  split <;> rfl

theorem argumentOfContainerCall_withoutOracle (h : Hearing) (i : Nat) :
    h.withoutOracle.argumentOfContainerCall i = h.argumentOfContainerCall i := by
  have hcall : ∀ above below, h.withoutOracle.callOfArgument? below above =
      h.callOfArgument? below above := callOfArgument?_congr rfl
  unfold argumentOfContainerCall
  rw [hcall]
  rfl

theorem lastDecision_eq_narrowed (h : Hearing) (i : Nat) (n : Node) (attr : Option Nat)
    (standing : Complaint) :
    h.lastDecision i n attr standing =
      h.narrowed i (h.withoutOracle.lastDecision i n attr standing) := by
  unfold lastDecision
  simp only [narrowed_unlessExempt, argumentOfContainerCall_withoutOracle]
  rfl

theorem propertyDecision_eq_narrowed (h : Hearing) (i : Nat) (n : Node) (attr : Option Nat) :
    h.propertyDecision i n attr = h.narrowed i (h.withoutOracle.propertyDecision i n attr) := by
  unfold propertyDecision
  rw [show h.withoutOracle.program = h.program from rfl]
  cases h.program.nearestOfKind? i .objectProperty with
  | none => exact h.lastDecision_eq_narrowed i n attr _
  | some property =>
      simp only [narrowed_unlessExempt, lastDecision_eq_narrowed h]
      rfl

/-- **The list with an oracle is the list without one, narrowed at its end.** -/
theorem decision_eq_narrowed (h : Hearing) {i : Nat} {n : Node} (hn : h.program.node? i = some n) :
    h.decision i n = h.narrowed i (h.withoutOracle.decision i n) := by
  by_cases hkind : n.kind = .literal
  · -- a literal that is translated is never complained about
    have htranslated : translatedDecision n = none := by simp [translatedDecision, hkind]
    have hlist : (n.kind == .text) = false := by rw [hkind]; rfl
    unfold decision literalDecision
    simp only [hlist, Bool.false_eq_true, if_false, narrowed_unlessExempt, htranslated,
      propertyDecision_eq_narrowed h]
    show unlessExempt _ (unlessExempt _ (unlessExempt _ _)) =
      unlessExempt _ (unlessExempt _ (unlessExempt _
        (h.narrowed i (if h.marks.insideTranslation h.program i then _ else _))))
    cases h.marks.insideTranslation h.program i with
    | true => rfl
    | false =>
        simp only [Bool.false_eq_true, if_false, narrowed_unlessExempt]
        rfl
  · have hq := question?_eq_none hn hkind
    have hsame : h.acceptedByOracle i = h.withoutOracle.acceptedByOracle i :=
      acceptedByOracle_of_question?_eq_none hq
    rw [narrowed_of_question?_eq_none hq]
    unfold decision literalDecision propertyDecision lastDecision
    simp only [hsame, argumentOfContainerCall_withoutOracle]
    rfl

/-! ### Questions -/

/-- The question to the oracle about a node, with its answer; none if there is no oracle or the node
is no string literal. -/
def questionsAt (h : Hearing) (i : Nat) : List Question :=
  match h.oracle, Oracle.question? h.program i with
  | some o, some v => [⟨i, v, (o.asks i v).toOption⟩]
  | _, _ => []

/-- What is asked if a list without an oracle ends in this way. -/
def questionsOf (h : Hearing) (i : Nat) : Except NodeFault (Option Complaint) → List Question
  | .ok (some _) => h.questionsAt i
  | _ => []

/-- A step of a ruling asks these questions, whatever the table of verdicts is. -/
def Asks {α : Type} (r : Ruling α) (qs : List Question) : Prop :=
  ∀ s, (ExceptT.run r s).2.questions = s.questions ++ qs

theorem asks_exempt (i : Nat) : Asks (exempt i) [] := fun _ => (List.append_nil _).symm

theorem asks_complain (i : Nat) (c : Complaint) : Asks (complain i c) [] :=
  fun _ => (List.append_nil _).symm

theorem asks_settle {α : Type} (e : Except NodeFault α) : Asks (settle e) [] :=
  fun _ => (List.append_nil _).symm

/-- A step that is followed by steps without questions. -/
theorem Asks.bind_silent {α β : Type} {r : Ruling α} {k : α → Ruling β} {qs : List Question}
    (hr : Asks r qs) (hk : ∀ a, Asks (k a) []) : Asks (r >>= k) qs := by
  intro s
  have hasked := hr s
  rw [Rules.run_bind]
  cases hrun : ExceptT.run r s with
  | mk out s' =>
      rw [hrun] at hasked
      cases out with
      | error f => exact hasked
      | ok a =>
          have hrest := hk a s'
          rw [List.append_nil] at hrest
          exact hrest.trans hasked

/-- A complaint that is put on record asks nothing. -/
theorem Asks.after_complain {r : Ruling Unit} {qs : List Question} (hr : Asks r qs) (i : Nat)
    (c : Complaint) : Asks (complain i c >>= fun _ => r) qs := by
  intro s
  rw [Rules.run_bind]
  exact hr _

/-- A rule asks what the rest of the list asks, unless it ends the list. -/
theorem asks_rule {h : Hearing} {i : Nat} {answer : Except NodeFault Bool} {r : Ruling Unit}
    {d : Except NodeFault (Option Complaint)} (hr : Asks r (h.questionsOf i d)) :
    Asks (settle answer >>= fun b => if b = true then exempt i else r)
      (h.questionsOf i (unlessExempt answer d)) := by
  intro s
  rw [Rules.run_bind]
  cases answer with
  | error f => exact asks_settle (.error f : Except NodeFault Bool) s
  | ok b =>
      cases b with
      | true => exact asks_exempt i s
      | false => exact hr s

/-- A rule whose condition is known. -/
theorem asks_if {h : Hearing} {i : Nat} {b : Bool} {r : Ruling Unit}
    {d : Except NodeFault (Option Complaint)} (hr : Asks r (h.questionsOf i d)) :
    Asks (if b = true then exempt i else r) (h.questionsOf i (unlessExempt (.ok b) d)) := by
  cases b with
  | true => exact asks_exempt i
  | false => exact hr

theorem asks_typeIncludes (h : Hearing) (i : Nat) : Asks (h.typeIncludes i) (h.questionsAt i) := by
  unfold typeIncludes questionsAt
  cases h.oracle with
  | none => exact fun _ => (List.append_nil _).symm
  | some o =>
      cases Oracle.question? h.program i with
      | none => exact fun _ => (List.append_nil _).symm
      | some v =>
          intro s
          cases hanswer : o.asks i v <;> simp only [hanswer] <;> rfl

theorem asks_ruleLast (h : Hearing) (i : Nat) (n : Node) (attr : Option Nat)
    (standing : Complaint) :
    Asks (h.ruleLast i n attr)
      (h.questionsOf i (h.withoutOracle.lastDecision i n attr standing)) := by
  unfold ruleLast lastDecision
  rw [argumentOfContainerCall_withoutOracle]
  refine asks_rule (asks_if ?_)
  -- the list gets here only if no rule before the oracle exempts
  refine (h.asks_typeIncludes i).bind_silent fun accepted => ?_
  cases accepted with
  | true => exact asks_exempt i
  | false =>
      cases attr with
      | some a => exact asks_complain i _
      | none =>
          refine Asks.bind_silent (fun _ => (List.append_nil _).symm) fun t => ?_
          split
          · exact asks_complain i _
          · exact fun _ => (List.append_nil _).symm

theorem asks_ruleProperty (h : Hearing) (i : Nat) (n : Node) (attr : Option Nat) :
    Asks (h.ruleProperty i n attr)
      (h.questionsOf i (h.withoutOracle.propertyDecision i n attr)) := by
  unfold ruleProperty propertyDecision
  rw [show h.withoutOracle.program = h.program from rfl]
  cases h.program.nearestOfKind? i .objectProperty with
  | none => exact h.asks_ruleLast i n attr _
  | some property =>
      refine asks_if ?_
      have hkeys : h.withoutOracle.exemptsKeyOf property =
          h.program.propertyKey property >>= h.exemptsKey := rfl
      rw [hkeys]
      cases hkey : h.program.propertyKey property with
      | error f => exact asks_settle (.error f : Except NodeFault Datum)
      | ok key =>
          exact asks_rule ((h.asks_ruleLast i n attr _).after_complain i _)

theorem asks_ruleLiteral (h : Hearing) (i : Nat) (n : Node)
    (hq : n.kind ≠ .literal → Oracle.question? h.program i = none) :
    Asks (h.ruleLiteral i n) (h.questionsOf i (h.withoutOracle.literalDecision i n)) := by
  unfold ruleLiteral literalDecision
  refine asks_if (asks_rule (asks_if ?_))
  show Asks _ (h.questionsOf i (if h.marks.insideTranslation h.program i then _ else _))
  split
  · unfold translatedDecision
    split
    · rename_i hplaces
      have hkind : n.kind ≠ .literal := by
        intro hkind
        simp [hkind] at hplaces
      have hnone : h.questionsAt i = [] := by
        unfold questionsAt
        rw [hq hkind]
        cases h.oracle <;> rfl
      show Asks _ (h.questionsAt i)
      rw [hnone]
      exact asks_complain i _
    · exact asks_exempt i
  · exact asks_rule (h.asks_ruleProperty i n _)

/-- **A ruling asks about a node if the list without an oracle ends in a complaint about it.** -/
theorem asks_resolve (h : Hearing) {i : Nat} {n : Node} (hn : h.program.node? i = some n)
    (hs : n.isString) :
    Asks (h.resolve i) (h.questionsOf i (h.withoutOracle.decision i n)) := by
  have hq : n.kind ≠ .literal → Oracle.question? h.program i = none := question?_eq_none hn
  unfold resolve
  rw [hn]
  simp only [hs, if_true]
  refine Asks.bind_silent ?_ fun _ => fun _ => (List.append_nil _).symm
  unfold rule decision
  split
  · rename_i htext
    have hkind : n.kind ≠ .literal := by
      intro hkind
      simp [hkind] at htext
    have hnone : ∀ d, h.questionsOf i d = [] := by
      intro d
      unfold questionsOf questionsAt
      rw [hq hkind]
      cases h.oracle <;> split <;> rfl
    rw [hnone]
    unfold ruleText
    split
    · exact asks_exempt i
    · split
      · exact asks_exempt i
      · exact asks_complain i _
  · exact h.asks_ruleLiteral i n hq

end Hearing

/-! ## The whole run -/

namespace Oracle

/-- Whether an oracle accepts the text of a literal. -/
def accepts (o : Oracle) (p : Program) (i : Nat) : Bool :=
  (p.node? i).any fun n =>
    n.kind == .literal && n.value.text?.any fun v => Hearing.affirms (o.asks i v)

/-- The question about a literal with a text, and the answer to it. -/
def questionAt? (o : Oracle) (p : Program) (i : Nat) : Option Question :=
  (p.node? i).bind fun n =>
    if n.kind == .literal then n.value.text?.map fun v => ⟨i, v, (o.asks i v).toOption⟩ else none

theorem accepts_eq (o : Oracle) (p : Program) (i : Nat) :
    o.accepts p i = (question? p i).any fun v => Hearing.affirms (o.asks i v) := by
  unfold accepts question?
  cases p.node? i with
  | none => rfl
  | some n => by_cases hkind : n.kind = .literal <;> simp [hkind]

theorem questionAt?_eq (o : Oracle) (p : Program) (i : Nat) :
    o.questionAt? p i = (question? p i).map fun v => ⟨i, v, (o.asks i v).toOption⟩ := by
  unfold questionAt? question?
  cases p.node? i with
  | none => rfl
  | some n => by_cases hkind : n.kind = .literal <;> simp [hkind]

end Oracle

namespace Hearing

/-- An oracle that answers either accepts a node or does not. -/
theorem acceptedByOracle_eq_accepts {h : Hearing} {o : Oracle} (ho : h.oracle = some o)
    (hanswers : ∀ i v, ∃ b, o.asks i v = .ok b) (i : Nat) :
    h.acceptedByOracle i = .ok (o.accepts h.program i) := by
  unfold acceptedByOracle
  rw [ho, o.accepts_eq]
  cases Oracle.question? h.program i with
  | none => rfl
  | some v => exact eq_ok_affirms (hanswers i v)

theorem questionsAt_eq {h : Hearing} {o : Oracle} (ho : h.oracle = some o) (i : Nat) :
    h.questionsAt i = (o.questionAt? h.program i).toList := by
  unfold questionsAt
  rw [ho, o.questionAt?_eq]
  cases Oracle.question? h.program i <;> rfl

end Hearing

namespace Lint

open Arena LiteralLint.Tree

/-- The question that a note tells of. -/
def Note.question? : Note → Option Question
  | .asked q => some q
  | _ => none

/-- The questions of a run, in the order in which they were asked. -/
def Run.questions (r : Run) : List Question := r.notes.filterMap Note.question?

/-- The questions of the ruling at an exit. -/
def questionsOn (c : Case) (x : Nat × Nat) : List Question :=
  match c.program.node? x.1 with
  | none => []
  | some n =>
    let h := c.hearing (marksAfter c (List.range x.2))
    if n.isString then h.questionsOf x.1 (h.withoutOracle.decision x.1 n) else []

/-- Leaving a node takes down the questions of its ruling, and perhaps that it was skipped. -/
theorem notes_leave (c : Case) (r : Run) {i : Nat} {n : Node} (hn : c.program.node? i = some n)
    (hb : n.kind.bearsText) :
    ∃ others : List Note, others.filterMap Note.question? = [] ∧
      (leave c r i).notes = r.notes ++
        (ExceptT.run ((c.hearing r.marks).resolve i) ⟨r.table, []⟩).2.questions.map .asked ++
          others := by
  unfold leave
  simp only [hn, hb, Bool.not_true, Bool.false_eq_true, if_false]
  cases ExceptT.run ((c.hearing r.marks).resolve i) ⟨r.table, []⟩ with
  | mk out s =>
      cases out with
      | error f => exact ⟨[.skipped n.kind i f], rfl, rfl⟩
      | ok complaint? =>
          cases complaint? with
          | none => exact ⟨[], rfl, (List.append_nil _).symm⟩
          | some complaint =>
              dsimp only
              cases complaint.toFinding n.span with
              | error f => exact ⟨[.skipped n.kind i f], rfl, rfl⟩
              | ok finding => exact ⟨[], rfl, (List.append_nil _).symm⟩

/-- A run gathers the questions of the rulings on the nodes it leaves. -/
theorem gathers_questions (c : Case) : Gathers c Run.questions (questionsOn c) where
  enter r n := by
    unfold enter
    cases c.program.node? n with
    | none => rfl
    | some node =>
        have hwrapper : (wrapperNotes node n).filterMap Note.question? = [] := by
          unfold wrapperNotes
          split
          · split <;> rfl
          · rfl
        unfold Run.questions
        dsimp only
        split
        · simp only [List.filterMap_append, hwrapper, List.append_nil]
        · simp only [List.filterMap_append]
          exact List.append_nil _
  leave r n stop hmarks _ := by
    unfold questionsOn
    rw [← hmarks]
    cases hn : c.program.node? n with
    | none =>
        simp only [leave, hn]
        exact (List.append_nil _).symm
    | some node =>
        by_cases hb : node.kind.bearsText
        · obtain ⟨others, hothers, hnotes⟩ := notes_leave c r hn hb
          have hadded : ∀ qs : List Question,
              (qs.map Note.asked).filterMap Note.question? = qs := by
            intro qs
            rw [List.filterMap_map]
            exact List.filterMap_some
          unfold Run.questions
          rw [hnotes, List.filterMap_append, List.filterMap_append, hothers, List.append_nil, hadded]
          congr 1
          by_cases hs : node.isString
          · simp only [hs, if_true]
            exact (c.hearing r.marks).asks_resolve hn hs ⟨r.table, []⟩
          · have hsilent := resolve_run_of_node hn hs r.marks ⟨r.table, []⟩
            simp only [hs, hsilent]
            rfl
        · have hs : ¬ node.isString := by simp [Node.isString, hb]
          simp only [leave, hn, hb, hs]
          exact (List.append_nil _).symm

/-- The case without its oracle. -/
def Case.withoutOracle (c : Case) : Case := { c with oracle := none }

section

variable {c : Case} {o : Oracle}

/-- At a single node the oracle takes the finding away, or leaves it as it is. -/
theorem findingAt_narrowed (ho : c.oracle = some o) (hanswers : ∀ i v, ∃ b, o.asks i v = .ok b)
    (m : Marks) (i : Nat) :
    findingAt c m i = (findingAt c.withoutOracle m i).filter fun _ => !o.accepts c.program i := by
  cases hn : c.program.node? i with
  | none =>
      have hn' : c.withoutOracle.program.node? i = none := hn
      simp [findingAt, hn, hn']
  | some n =>
      have hn' : c.withoutOracle.program.node? i = some n := hn
      by_cases hs : n.isString
      · rw [findingAt_of_isString hn hs, findingAt_of_isString hn' hs,
          (c.hearing m).decision_eq_narrowed hn]
        show reported ((c.hearing m).narrowed i ((c.hearing m).withoutOracle.decision i n)) _ =
          (reported ((c.hearing m).withoutOracle.decision i n) _).filter _
        cases (c.hearing m).withoutOracle.decision i n with
        | error f => rfl
        | ok complaint? =>
            cases complaint? with
            | none => rfl
            | some complaint =>
                have haccepted : (c.hearing m).acceptedByOracle i = .ok (o.accepts c.program i) :=
                  Hearing.acceptedByOracle_eq_accepts ho hanswers i
                unfold Hearing.narrowed
                rw [haccepted]
                cases o.accepts c.program i with
                | true => cases reported (.ok (some complaint)) n.span <;> rfl
                | false => cases hreported : reported (.ok (some complaint)) n.span <;> exact hreported
      · rw [findingAt_of_not_isString hn hs, findingAt_of_not_isString hn' hs]
        rfl

/-- On a well-typed program the oracle is asked about a node if the node is reported without it. -/
theorem questionsOn_eq {t : Tree Node} (ht : t.Everywhere fun n _ => n.WellTyped)
    (hprogram : c.program = Program.ofTree t) (ho : c.oracle = some o) (x : Nat × Nat) :
    questionsOn c x =
      ((findingOn c.withoutOracle x).bind fun _ => o.questionAt? c.program x.1).toList := by
  unfold questionsOn findingOn
  cases hn : c.program.node? x.1 with
  | none =>
      have hn' : c.withoutOracle.program.node? x.1 = none := hn
      simp [findingAt, hn']
  | some n =>
      have hn' : c.withoutOracle.program.node? x.1 = some n := hn
      by_cases hs : n.isString
      · rw [findingAt_of_isString hn' hs]
        simp only [hs, if_true]
        show Hearing.questionsOf _ x.1 _ = ((reported
          ((c.hearing (marksAfter c (List.range x.2))).withoutOracle.decision x.1 n) _).bind _).toList
        cases hd : (c.hearing (marksAfter c (List.range x.2))).withoutOracle.decision x.1 n with
        | error f => rfl
        | ok complaint? =>
            cases complaint? with
            | none => rfl
            | some complaint =>
                obtain ⟨f, hf⟩ := Hearing.reportable_decision ht hprogram hn hd n.span
                have hreported : reported (.ok (some complaint)) n.span = some f :=
                  reported_eq_some.2 ⟨complaint, rfl, hf⟩
                rw [hreported]
                exact Hearing.questionsAt_eq ho x.1
      · rw [findingAt_of_not_isString hn' hs]
        simp [hs]

end

/-- **A type oracle takes away the literals it accepts, and nothing else.** On a well-typed tree, with
an oracle that answers, a run finds what the run without an oracle finds, in the same order and
unchanged, less the findings at literals whose text the oracle accepts. It asks about the literals that
are reported without an oracle, each once and in the order in which they are left. -/
theorem findings_narrowed (t : Tree Node) (ht : t.Everywhere fun n _ => n.WellTyped)
    (config : Configuration) (o : Oracle) (ho : ∀ i v, ∃ b, o.asks i v = .ok b) :
    let p := Program.ofTree t
    let reports := found (.ofTree t config none) t
    findings (.ofTree t config none) = reports.map Prod.snd ∧
      (reports.map Prod.fst).Sublist (t.postorderFrom 0) ∧
      (t.postorderFrom 0).Perm (List.range t.size) ∧
      findings (.ofTree t config (some o)) =
        (reports.filter fun x => !o.accepts p x.1).map Prod.snd ∧
      (run (.ofTree t config (some o))).questions =
        reports.filterMap fun x => o.questionAt? p x.1 := by
  intro p reports
  refine ⟨findings_eq_found t config none, found_map_fst_sublist _ t, ?_, ?_, ?_⟩
  · rw [List.range_eq_range']
    exact postorderFrom_perm 0 t
  · rw [findings_eq_found]
    congr 1
    refine found_eq_filter ?_ t
    intro x
    exact findingAt_narrowed (c := .ofTree t config (some o)) rfl ho _ x.1
  · rw [(gathers_questions (.ofTree t config (some o))).run]
    have hnone : (start (.ofTree t config (some o))).questions = [] := rfl
    rw [hnone, List.nil_append, funext (questionsOn_eq ht rfl rfl),
      ← List.filterMap_eq_flatMap_toList]
    show _ = List.filterMap _ (List.filterMap _ _)
    rw [List.filterMap_filterMap]
    refine List.filterMap_congr ?_
    intro x _
    show (findingOn (.ofTree t config none) x).bind _ = _
    cases findingOn (.ofTree t config none) x <;> rfl

/-- Two literals and a template. -/
def greeting : Tree Node :=
  let leaf (kind : NodeKind) (value : Text) : Tree Node :=
    .node { kind := kind, value := .text value, text := .text value } []
  .node { kind := .other }
    [leaf .literal "Hello there", leaf .literal "dark mode", leaf .templateLiteral "dark mode"]

/-- An oracle that knows one literal. -/
def modeOracle : Oracle := ⟨fun _ v => .ok (v == "dark mode")⟩

theorem findings_narrowed_greeting :
    (greeting.Everywhere fun n _ => n.WellTyped) ∧
      (∀ i v, ∃ b, modeOracle.asks i v = .ok b) ∧
      let config : Configuration := ⟨[], .ofNames [], .ofNames [], [], [], []⟩
      let p := Program.ofTree greeting
      let reports := found (.ofTree greeting config none) greeting
      (findings (.ofTree greeting config none) = reports.map Prod.snd ∧
        (reports.map Prod.fst).Sublist (greeting.postorderFrom 0) ∧
        (greeting.postorderFrom 0).Perm (List.range greeting.size) ∧
        findings (.ofTree greeting config (some modeOracle)) =
          (reports.filter fun x => !modeOracle.accepts p x.1).map Prod.snd ∧
        (run (.ofTree greeting config (some modeOracle))).questions =
          reports.filterMap fun x => modeOracle.questionAt? p x.1) ∧
      reports.map Prod.fst = [1, 2, 3] ∧
      (run (.ofTree greeting config (some modeOracle))).questions.map Question.node = [1, 2] ∧
      (findings (.ofTree greeting config (some modeOracle))).length = 2 := by
  have hwell : ∀ (kind : NodeKind) (value text : Text),
      Node.WellTyped { kind := kind, value := .text value, text := .text text } :=
    fun _ _ _ => ⟨rfl, rfl⟩
  have ht : greeting.Everywhere fun n _ => n.WellTyped :=
    ⟨⟨rfl, rfl⟩, ⟨hwell _ _ _, trivial⟩, ⟨hwell _ _ _, trivial⟩, ⟨hwell _ _ _, trivial⟩, trivial⟩
  have ho : ∀ i v, ∃ b, modeOracle.asks i v = .ok b := fun _ v => ⟨v == "dark mode", rfl⟩
  refine ⟨ht, ho, findings_narrowed greeting ht _ modeOracle ho, ?_, ?_, ?_⟩
  · decide
  · decide
  · decide

end Lint

end LiteralLint
