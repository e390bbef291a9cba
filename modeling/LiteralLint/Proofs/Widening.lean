import LiteralLint.Proofs.DecisionList
import LiteralLint.Proofs.OptionsMerge
import LiteralLint.Proofs.ValuePattern

/-!
# Wider allow-lists

Every option names something to be let pass, so longer options should mean fewer findings. For most of
them they do: a question put to a wider configuration is answered with yes where it was before, every
rule of a ruling is an exemption, and the container marks can only become more.

Translators are the exception. Inside a translation a literal is exempt *unless* it is a template with
places to fill in, so a call that is newly taken for a translation can be the reason for a complaint.
That is all it can be the reason for. At any other node two runs disagree about the translation above
only if the wider one is silent.

Fields of the wrong kind make questions fail. A failure stays where it is or becomes a yes, except
below tag rules, where a further rule can fail that was not there before; the node is then skipped.

## Main definitions

* `Configuration.Within`: one configuration allows what another allows.
* `Rises`: an answer stays as it is or becomes a yes.
* `Program.newlyTranslated`: a call above is a translation for the wider configuration only.
* `Lint.freshPlaceholder`: findings that wider translators can be the reason for.

## Main results

* `Configuration.compile_within`: longer options compile to a wider configuration.
* `Lint.findings_extended`: with longer options a run finds nothing else, fresh places apart.
-/

namespace LiteralLint

/-! ## Wider configurations -/

/-- One set of rules has the names of another. -/
structure CalleeRules.Within (r r' : CalleeRules) : Prop where
  simple : r.simple ⊆ r'.simple
  qualified : r.qualified ⊆ r'.qualified

theorem CalleeRules.within_ofNames {names names' : List Text} (h : names ⊆ names') :
    (ofNames names).Within (ofNames names') where
  simple := List.filter_subset _ h
  qualified := List.filter_subset _ h

namespace Configuration

/-- One configuration allows what another allows. -/
structure Within (c c' : Configuration) : Prop where
  values : ∀ t, c.matchesValue t = true → c'.matchesValue t = true
  technical : c.technicalCallees.Within c'.technicalCallees
  translator : c.translatorCallees.Within c'.translatorCallees
  properties : c.properties ⊆ c'.properties
  attributes : c.attributes ⊆ c'.attributes
  tagAttributes : c.tagAttributes ⊆ c'.tagAttributes

variable {characters : Pattern.CharacterNames}

theorem exists_readPatterns {ts : List Text}
    (h : ∀ t ∈ ts, ∃ p, Pattern.read characters t = .ok p) :
    ∃ patterns, readPatterns characters ts = .ok patterns := by
  induction ts with
  | nil => exact ⟨[], rfl⟩
  | cons t rest ih =>
      obtain ⟨p, hp⟩ := h t List.mem_cons_self
      obtain ⟨ps, hps⟩ := ih fun u hu => h u (List.mem_cons_of_mem t hu)
      exact ⟨⟨t, p⟩ :: ps, readPatterns_cons.2 ⟨p, ps, rfl, hp, hps⟩⟩

/-- Longer options compile to a wider configuration, if what is added to the patterns can be read. -/
theorem compile_within {o o' : Options} {c : Configuration} (hc : compile characters o = .ok c)
    {more : Options.Field → List Text} (hmore : ∀ f, o'.get f = o.get f ++ more f)
    (htags : o.ignoreTags ⊆ o'.ignoreTags)
    (hread : ∀ t ∈ more .ignore, ∃ p, Pattern.read characters t = .ok p) :
    ∃ c', compile characters o' = .ok c' ∧ c.Within c' ∧
      (more .ignoreTranslatorCallee = [] → c'.translatorCallees = c.translatorCallees) := by
  obtain ⟨ps, hps, rfl⟩ := Options.map_eq_ok.1 hc
  obtain ⟨qs, hqs⟩ := exists_readPatterns hread
  have hignore : o'.ignore = o.ignore ++ more .ignore := hmore .ignore
  have hpatterns : readPatterns characters (Baseline.noLetters :: o'.ignore) = .ok (ps ++ qs) := by
    rw [hignore, ← List.cons_append]
    exact readPatterns_append.2 ⟨ps, qs, rfl, hps, hqs⟩
  have hsub : ∀ f (base : List Text), base ++ o.get f ⊆ base ++ o'.get f := by
    intro f base
    rw [hmore f, ← List.append_assoc]
    exact List.subset_append_left _ _
  refine ⟨_, Options.map_eq_ok.2 ⟨ps ++ qs, hpatterns, rfl⟩, ?_, ?_⟩
  · refine ⟨?_, CalleeRules.within_ofNames (hsub .ignoreCallee _),
      CalleeRules.within_ofNames (hsub .ignoreTranslatorCallee _), hsub .ignoreProperties [],
      hsub .ignoreAttributes _, List.map_subset _ htags⟩
    intro t ht
    show (ps ++ qs).any _ = true
    rw [List.any_append, Bool.or_eq_true]
    exact Or.inl ht
  · intro hnone
    have htranslators : o'.ignoreTranslatorCallee = o.ignoreTranslatorCallee := by
      have h := hmore .ignoreTranslatorCallee
      rw [hnone, List.append_nil] at h
      exact h
    show CalleeRules.ofNames (_ ++ o'.ignoreTranslatorCallee) = _
    rw [htranslators]

end Configuration

/-! ## Answers that rise -/

/-- An answer stays as it is or becomes a yes. -/
def Rises (e e' : Except NodeFault Bool) : Prop := e' = e ∨ e' = .ok true

namespace Rises

theorem refl (e : Except NodeFault Bool) : Rises e e := Or.inl rfl

theorem eq_false {e e' : Except NodeFault Bool} (h : Rises e e') (h' : e' = .ok false) :
    e = .ok false := by
  rcases h with rfl | rfl
  · exact h'
  · cases h'

theorem eq_true {e e' : Except NodeFault Bool} (h : Rises e e') (he : e = .ok true) :
    e' = .ok true := by
  rcases h with rfl | rfl
  · exact he
  · rfl

/-- An answer that was given is still given. -/
theorem exists_ok {e e' : Except NodeFault Bool} (h : Rises e e') (he : ∃ b, e = .ok b) :
    ∃ b, e' = .ok b := by
  rcases h with rfl | rfl
  · exact he
  · exact ⟨true, rfl⟩

/-- A question that leads to the answer. -/
theorem bind {α : Type} (x : Except NodeFault α) {f f' : α → Except NodeFault Bool}
    (h : ∀ a, Rises (f a) (f' a)) : Rises (x >>= f) (x >>= f') := by
  cases x with
  | error e => exact refl _
  | ok a => exact h a

/-- Two questions, the second of which is put if the answer to the first is no. -/
theorem orElse {a a' b b' : Except NodeFault Bool} (ha : Rises a a') (hb : Rises b b') :
    Rises (a >>= fun x => if x = true then pure true else b)
      (a' >>= fun x => if x = true then pure true else b') := by
  rcases ha with rfl | rfl
  · refine bind a' fun x => ?_
    cases x with
    | true => exact refl _
    | false => exact hb
  · exact Or.inr rfl

theorem isOneOf {texts texts' : List Text} (h : texts ⊆ texts') (d : Datum) :
    Rises (d.isOneOf texts) (d.isOneOf texts') := by
  cases d with
  | text t =>
      by_cases ht : t ∈ texts
      · exact Or.inr (by simp [Datum.isOneOf, h ht])
      · by_cases ht' : t ∈ texts' <;> simp [Rises, Datum.isOneOf, ht, ht']
  | _ => exact refl _

end Rises

section

variable {r r' : CalleeRules}

theorem CalleeRules.Within.matchesSimple (h : r.Within r') (name : Datum) :
    Rises (r.matchesSimple name) (r'.matchesSimple name) := by
  unfold CalleeRules.matchesSimple
  split
  · exact Rises.refl _
  · exact Rises.isOneOf h.simple name

theorem CalleeRules.Within.endsInQualified (h : r.Within r') {dotted : Text}
    (hd : r.endsInQualified dotted = true) : r'.endsInQualified dotted = true := by
  unfold CalleeRules.endsInQualified at hd ⊢
  simp only [Bool.or_eq_true, List.contains_iff_mem, List.any_eq_true] at hd ⊢
  rcases hd with hmem | ⟨rule, hmem, hends⟩
  · exact Or.inl (h.qualified hmem)
  · exact Or.inr ⟨rule, h.qualified hmem, hends⟩

theorem CalleeRules.Within.matchesQualified (h : r.Within r') (dotted : Datum) :
    Rises (r.matchesQualified dotted) (r'.matchesQualified dotted) := by
  unfold CalleeRules.matchesQualified
  split
  · exact Rises.refl _
  · rename_i d _
    cases hd : r.endsInQualified d with
    | true => exact Or.inr (by rw [h.endsInQualified hd])
    | false => cases hd' : r'.endsInQualified d <;> simp [Rises]
  · exact Rises.refl _
  · exact Rises.refl _

theorem Program.calleeMatches_rises (p : Program) (h : r.Within r') (callee : Nat) :
    Rises (p.calleeMatches callee r) (p.calleeMatches callee r') := by
  unfold Program.calleeMatches
  split
  · exact h.matchesSimple _
  · exact (h.matchesSimple _).orElse (Rises.bind _ h.matchesQualified)
  · exact Rises.refl _

end

section

variable {c c' : Configuration}

theorem Program.isTechnicalCall_rises (p : Program) (h : c.Within c') (i : Nat) :
    Rises (p.isTechnicalCall c i) (p.isTechnicalCall c' i) := by
  unfold Program.isTechnicalCall
  split
  · exact Rises.refl _
  · split
    · exact Rises.refl _
    · split
      · exact Rises.refl _
      · split
        · exact Rises.refl _
        · rename_i callee _
          have hcallee := p.calleeMatches_rises h.technical callee
          dsimp only
          split
          · exact (Rises.refl _).orElse hcallee
          · exact (Rises.refl _).orElse hcallee

theorem Program.isTranslationCall_rises (p : Program) (h : c.Within c') (i : Nat) :
    Rises (p.isTranslationCall c i) (p.isTranslationCall c' i) := by
  unfold Program.isTranslationCall
  split
  · exact Rises.refl _
  · split
    · exact Rises.refl _
    · exact p.calleeMatches_rises h.translator _

/-- Tag rules cover nothing if none of them does. -/
theorem Configuration.anyCovers_eq_false {tag attr : Datum} {rules : List TagAttributes} :
    anyCovers tag attr rules = .ok false ↔ ∀ r ∈ rules, r.covers tag attr = .ok false := by
  induction rules with
  | nil => simp [anyCovers]
  | cons r rest ih =>
      rw [List.forall_mem_cons, ← ih, anyCovers]
      cases r.covers tag attr with
      | error f => simp [bind, Except.bind]
      | ok covered => cases covered <;> simp [bind, Except.bind, pure, Except.pure]

/-- An attribute that a wider configuration does not allow was not allowed before. -/
theorem Configuration.Within.ignoresAttribute_eq_false (h : c.Within c') {tag attr : Datum}
    (h' : c'.ignoresAttribute tag attr = .ok false) : c.ignoresAttribute tag attr = .ok false := by
  unfold Configuration.ignoresAttribute at h' ⊢
  by_cases hmissing : attr.isMissing = true
  · simp only [hmissing, if_true]
    rfl
  · simp only [hmissing] at h' ⊢
    cases hone' : attr.isOneOf c'.attributes with
    | error f =>
        rw [hone'] at h'
        cases h'
    | ok listed =>
        cases listed with
        | true =>
            rw [hone'] at h'
            cases h'
        | false =>
            rw [hone'] at h'
            rw [(Rises.isOneOf h.attributes attr).eq_false hone']
            refine Configuration.anyCovers_eq_false.2 fun rule hrule => ?_
            exact Configuration.anyCovers_eq_false.1 h' rule (h.tagAttributes hrule)

theorem Configuration.Within.exemptsValue (h : c.Within c') {t : Text}
    (ht : c.exemptsValue t = true) : c'.exemptsValue t = true := by
  unfold Configuration.exemptsValue at ht ⊢
  simp only [Bool.or_eq_true] at ht ⊢
  exact ht.imp_right (h.values t)

end

/-! ## One node -/

namespace Hearing

/-- The hearing with another configuration and other marks. -/
def widened (h : Hearing) (c : Configuration) (m : Marks) : Hearing :=
  { h with config := c, marks := m }

section

variable {h : Hearing} {c : Configuration}

theorem argumentOfContainerCall_rises (hw : h.config.Within c) (m : Marks) (i : Nat) :
    Rises (h.argumentOfContainerCall i) ((h.widened c m).argumentOfContainerCall i) := by
  have hcall : ∀ above below, (h.widened c m).callOfArgument? below above =
      h.callOfArgument? below above := callOfArgument?_congr rfl
  unfold argumentOfContainerCall
  rw [hcall, show (h.widened c m).program = h.program from rfl]
  cases h.callOfArgument? i (h.program.ancestors i) with
  | none => exact Rises.refl _
  | some call =>
      exact (h.program.isTechnicalCall_rises hw call).orElse
        (h.program.isTranslationCall_rises hw call)

theorem exemptsKeyOf_rises (hw : h.config.Within c) (m : Marks) (property : Nat) :
    Rises (h.exemptsKeyOf property) ((h.widened c m).exemptsKeyOf property) := by
  refine Rises.bind _ fun key => ?_
  unfold exemptsKey
  split
  · exact Rises.refl _
  · exact (Rises.isOneOf hw.properties key).orElse (Rises.refl _)

theorem inIgnoredAttribute_eq_false (hw : h.config.Within c) {m : Marks} {i : Nat}
    {attr : Option Nat} (h' : (h.widened c m).inIgnoredAttribute i attr = .ok false) :
    h.inIgnoredAttribute i attr = .ok false := by
  cases attr with
  | none => rfl
  | some a => exact hw.ignoresAttribute_eq_false h'

theorem exemptsText_eq_false (hw : h.config.Within c) {m : Marks} {n : Node}
    (h' : (h.widened c m).exemptsText n = false) : h.exemptsText n = false := by
  cases hn : h.exemptsText n with
  | false => rfl
  | true =>
      have hwide : (h.widened c m).exemptsText n = true := hw.exemptsValue hn
      rw [h'] at hwide
      cases hwide

/-- The end of the list with a wider configuration complains about nothing else. -/
theorem lastDecision_of_widened (hw : h.config.Within c) {m : Marks} {i : Nat} {n : Node}
    {attr : Option Nat} {standing complaint : Complaint}
    (hd : (h.widened c m).lastDecision i n attr standing = .ok (some complaint)) :
    h.lastDecision i n attr standing = .ok (some complaint) := by
  unfold lastDecision at hd ⊢
  simp only [unlessExempt_eq_some, Except.ok.injEq] at hd ⊢
  obtain ⟨hargument, htext, horacle, hattr⟩ := hd
  exact ⟨(argumentOfContainerCall_rises hw m i).eq_false hargument, exemptsText_eq_false hw htext,
    horacle, hattr⟩

theorem propertyDecision_of_widened (hw : h.config.Within c) {m : Marks} {i : Nat} {n : Node}
    {attr : Option Nat} {complaint : Complaint}
    (hd : (h.widened c m).propertyDecision i n attr = .ok (some complaint)) :
    h.propertyDecision i n attr = .ok (some complaint) := by
  unfold propertyDecision at hd ⊢
  rw [show (h.widened c m).program = h.program from rfl] at hd
  cases hproperty : h.program.nearestOfKind? i .objectProperty with
  | none =>
      rw [hproperty] at hd
      exact lastDecision_of_widened hw hd
  | some property =>
      rw [hproperty] at hd
      simp only [unlessExempt_eq_some, Except.ok.injEq] at hd ⊢
      obtain ⟨htext, hkey, hlast⟩ := hd
      exact ⟨exemptsText_eq_false hw htext, (exemptsKeyOf_rises hw m property).eq_false hkey,
        lastDecision_of_widened hw hlast⟩

/-- Where both see the same translations above and the wider one no fewer technical containers, the
list with a wider configuration complains about nothing else. -/
theorem decision_of_widened (hw : h.config.Within c) {m : Marks} {i : Nat} {n : Node}
    {complaint : Complaint}
    (htech : h.marks.insideTechnical h.program i = true → m.insideTechnical h.program i = true)
    (htrans : m.insideTranslation h.program i = h.marks.insideTranslation h.program i)
    (hd : (h.widened c m).decision i n = .ok (some complaint)) :
    h.decision i n = .ok (some complaint) := by
  unfold decision at hd ⊢
  split at hd <;> rename_i hkind
  · rw [if_pos hkind]
    unfold textDecision at hd ⊢
    simp only [unlessExempt_eq_some, Except.ok.injEq] at hd ⊢
    obtain ⟨hinside, htext, hcomplaint⟩ := hd
    exact ⟨htrans ▸ hinside, exemptsText_eq_false hw htext, hcomplaint⟩
  · rw [if_neg hkind]
    unfold literalDecision at hd ⊢
    simp only [unlessExempt_eq_some, Except.ok.injEq] at hd ⊢
    obtain ⟨hstructure, hconstant, htechnical, hd⟩ := hd
    refine ⟨hstructure, hconstant, ?_, ?_⟩
    · cases hinside : h.marks.insideTechnical h.program i with
      | false => rfl
      | true =>
          rw [show m.insideTechnical h.program i = false from htechnical] at htech
          exact absurd (htech hinside) Bool.false_ne_true
    · have hinside : (h.widened c m).marks.insideTranslation (h.widened c m).program i =
          h.marks.insideTranslation h.program i := htrans
      rw [hinside] at hd
      split at hd <;> rename_i htranslated
      · rw [if_pos htranslated]
        exact hd
      · rw [if_neg htranslated, unlessExempt_eq_some]
        rw [unlessExempt_eq_some] at hd
        exact ⟨inIgnoredAttribute_eq_false hw hd.1, propertyDecision_of_widened hw hd.2⟩

/-- Inside a translation there is nothing to complain about but places. -/
theorem decision_of_insideTranslation {i : Nat} {n : Node} {complaint : Complaint}
    (hinside : h.marks.insideTranslation h.program i = true)
    (hd : h.decision i n = .ok (some complaint)) :
    n.kind = .templateLiteral ∧ hasNativeHole n = true ∧ complaint = placeholderComplaint n := by
  unfold decision at hd
  split at hd
  · unfold textDecision at hd
    simp only [unlessExempt_eq_some, hinside] at hd
    cases hd.1
  · unfold literalDecision at hd
    simp only [unlessExempt_eq_some, hinside, if_true] at hd
    obtain ⟨-, -, -, hd⟩ := hd
    unfold translatedDecision at hd
    split at hd
    · rename_i hplaces
      simp only [Bool.and_eq_true, beq_iff_eq] at hplaces
      cases hd
      exact ⟨hplaces.1, hplaces.2, rfl⟩
    · cases hd

end

end Hearing

/-! ## Marks -/

namespace Marks

section

variable {p : Program} {c c' : Configuration} {j a : Nat}

/-- Marks depend on the configuration at calls only. -/
theorem enter_of_ne_call (hj : p.kindAt j ≠ some .call) (m : Marks) :
    m.enter p c j = m.enter p c' j := by
  unfold enter
  split
  · exact absurd ‹_› hj
  · rfl
  · rfl
  · rfl

/-- What entering a call marks. -/
theorem mem_enter_call (hj : p.kindAt j = some .call) :
    (a ∈ (Marks.enter {} p c j).1.translation ↔ a = j ∧ p.isTranslationCall c j = .ok true) ∧
    (a ∈ (Marks.enter {} p c j).1.technical ↔
      a = j ∧ (∃ b, p.isTranslationCall c j = .ok b) ∧ p.isTechnicalCall c j = .ok true) := by
  unfold enter enterCall
  rw [hj]
  cases p.isTranslationCall c j with
  | error f => simp
  | ok translates =>
      cases p.isTechnicalCall c j with
      | error f => cases translates <;> simp [addTranslation]
      | ok technical =>
          cases translates <;> cases technical <;> simp [addTranslation, addTechnical]

/-- A wider configuration marks no fewer technical containers. -/
theorem mem_enter_technical (h : c.Within c')
    (ha : a ∈ (Marks.enter {} p c j).1.technical) : a ∈ (Marks.enter {} p c' j).1.technical := by
  by_cases hj : p.kindAt j = some .call
  · obtain ⟨rfl, hanswers, htechnical⟩ := (mem_enter_call hj).2.1 ha
    exact (mem_enter_call hj).2.2 ⟨rfl, (p.isTranslationCall_rises h a).exists_ok hanswers,
      (p.isTechnicalCall_rises h a).eq_true htechnical⟩
  · rwa [enter_of_ne_call hj] at ha

theorem mem_enter_translation (h : c.Within c')
    (ha : a ∈ (Marks.enter {} p c j).1.translation) : a ∈ (Marks.enter {} p c' j).1.translation := by
  by_cases hj : p.kindAt j = some .call
  · obtain ⟨rfl, htranslates⟩ := (mem_enter_call hj).1.1 ha
    exact (mem_enter_call hj).1.2 ⟨rfl, (p.isTranslationCall_rises h a).eq_true htranslates⟩
  · rwa [enter_of_ne_call hj] at ha

/-- What only the wider configuration marks as a translation is a call that only it takes for one. -/
theorem translates_of_mem_enter (ha' : a ∈ (Marks.enter {} p c' j).1.translation)
    (ha : a ∉ (Marks.enter {} p c j).1.translation) :
    p.isTranslationCall c' a = .ok true ∧ p.isTranslationCall c a ≠ .ok true := by
  by_cases hj : p.kindAt j = some .call
  · obtain ⟨rfl, htranslates⟩ := (mem_enter_call hj).1.1 ha'
    exact ⟨htranslates, fun h => ha ((mem_enter_call hj).1.2 ⟨rfl, h⟩)⟩
  · rw [enter_of_ne_call hj] at ha'
    exact absurd ha' ha

end

end Marks

/-- Whether a call above a node is a translation for one configuration, and not for another. -/
def Program.newlyTranslated (p : Program) (c c' : Configuration) (i : Nat) : Bool :=
  (p.ancestors i).any fun a =>
    Hearing.affirms (p.isTranslationCall c' a) && !Hearing.affirms (p.isTranslationCall c a)

theorem Program.newlyTranslated_eq_false {p : Program} {c c' : Configuration}
    (h : c'.translatorCallees = c.translatorCallees) (i : Nat) :
    p.newlyTranslated c c' i = false := by
  have hsame : ∀ a, p.isTranslationCall c' a = p.isTranslationCall c a := by
    intro a
    unfold Program.isTranslationCall
    rw [h]
  unfold Program.newlyTranslated
  simp only [hsame, Bool.and_not_self, List.any_eq_false, not_false_eq_true, implies_true,
    Bool.false_eq_true]

namespace Lint

section

variable {p : Program} {c c' : Configuration} {o : Option Oracle} {is : List Nat} {i : Nat}

theorem insideTechnical_of_within (h : c.Within c')
    (hinside : (marksAfter ⟨p, c, o⟩ is).insideTechnical p i = true) :
    (marksAfter ⟨p, c', o⟩ is).insideTechnical p i = true := by
  unfold Marks.insideTechnical at hinside ⊢
  simp only [List.any_eq_true, List.contains_iff_mem] at hinside ⊢
  obtain ⟨a, ha, hmark⟩ := hinside
  obtain ⟨j, hj, hmem⟩ := (mem_marksAfter _ is a).2.1 hmark
  exact ⟨a, ha, (mem_marksAfter _ is a).2.2 ⟨j, hj, Marks.mem_enter_technical h hmem⟩⟩

theorem insideTranslation_of_within (h : c.Within c')
    (hinside : (marksAfter ⟨p, c, o⟩ is).insideTranslation p i = true) :
    (marksAfter ⟨p, c', o⟩ is).insideTranslation p i = true := by
  unfold Marks.insideTranslation at hinside ⊢
  simp only [List.any_eq_true, List.contains_iff_mem] at hinside ⊢
  obtain ⟨a, ha, hmark⟩ := hinside
  obtain ⟨j, hj, hmem⟩ := (mem_marksAfter _ is a).1.1 hmark
  exact ⟨a, ha, (mem_marksAfter _ is a).1.2 ⟨j, hj, Marks.mem_enter_translation h hmem⟩⟩

/-- A node that only the wider configuration sees inside a translation is below a new one. -/
theorem newlyTranslated_of_inside
    (hinside' : (marksAfter ⟨p, c', o⟩ is).insideTranslation p i = true)
    (hinside : (marksAfter ⟨p, c, o⟩ is).insideTranslation p i = false) :
    p.newlyTranslated c c' i = true := by
  unfold Marks.insideTranslation at hinside hinside'
  simp only [List.any_eq_true, List.contains_iff_mem] at hinside'
  simp only [List.any_eq_false, List.contains_iff_mem] at hinside
  obtain ⟨a, ha, hmark'⟩ := hinside'
  obtain ⟨j, hj, hmem'⟩ := (mem_marksAfter _ is a).1.1 hmark'
  have hmem : a ∉ (Marks.enter {} p c j).1.translation :=
    fun hmem => hinside a ha ((mem_marksAfter _ is a).1.2 ⟨j, hj, hmem⟩)
  obtain ⟨htranslates', htranslates⟩ := Marks.translates_of_mem_enter hmem' hmem
  unfold Program.newlyTranslated
  refine List.any_eq_true.2 ⟨a, ha, ?_⟩
  rw [htranslates']
  cases hcall : p.isTranslationCall c a with
  | error f => rfl
  | ok translates =>
      cases translates with
      | false => rfl
      | true => exact absurd hcall htranslates

end

/-! ## The whole run -/

/-- Whether a finding is about places in a template below a new translation. -/
def freshPlaceholder (p : Program) (c c' : Configuration) (x : Nat × Finding) : Bool :=
  p.newlyTranslated c c' x.1 && x.2.id == "placeholder" &&
    (p.node? x.1).any fun n => n.kind == .templateLiteral && Hearing.hasNativeHole n

/-- At an exit, a run with a wider configuration finds what the other finds there, or fresh places. -/
theorem findingOn_of_within {p : Program} {c c' : Configuration} (h : c.Within c')
    (o : Option Oracle) {x : Nat × Nat} {f : Finding} (hf : findingOn ⟨p, c', o⟩ x = some f)
    (hfresh : ¬ freshPlaceholder p c c' (x.1, f)) : findingOn ⟨p, c, o⟩ x = some f := by
  obtain ⟨n, complaint, hn, hs, hd, hreport⟩ := findingAt_eq_some.1 hf
  refine findingAt_eq_some.2 ⟨n, complaint, hn, hs, ?_, hreport⟩
  refine Hearing.decision_of_widened (h := (Case.mk p c o).hearing _) h
    (insideTechnical_of_within h) ?_ hd
  show (marksAfter ⟨p, c', o⟩ _).insideTranslation p x.1 =
    (marksAfter ⟨p, c, o⟩ _).insideTranslation p x.1
  cases hinside : (marksAfter ⟨p, c, o⟩ (List.range x.2)).insideTranslation p x.1 with
  | true => exact insideTranslation_of_within h hinside
  | false =>
      cases hinside' : (marksAfter ⟨p, c', o⟩ (List.range x.2)).insideTranslation p x.1 with
      | false => rfl
      | true =>
          -- inside a new translation there is nothing to find but places
          exfalso
          obtain ⟨hkind, hhole, rfl⟩ := Hearing.decision_of_insideTranslation hinside' hd
          have hid : f.id = Text.ofString "placeholder" := Complaint.id_of_toFinding hreport
          have hn' : p.node? x.1 = some n := hn
          apply hfresh
          simp [freshPlaceholder, newlyTranslated_of_inside hinside' hinside, hid, hn', hkind,
            hhole]

/-- **Options only ever narrow the report, translators apart.** Valid options take any extension: the
extended options are valid, and each of their lists is the old one with the new values after it. A run
with them finds a part of what the run without them finds, unchanged and in the same order, if no
translators are added. If some are, all that it can find besides is places in templates below calls
that are translations only now. -/
theorem findings_extended (t : Tree Node) (oracle : Option Oracle)
    (characters : Pattern.CharacterNames) (o : Options) (ho : o.Valid) (c : Configuration)
    (hc : Configuration.compile characters o = .ok c) (e : Options.Extension)
    (hread : ∀ p ∈ e.textsOf .ignore, ∃ q, Pattern.read characters p = .ok q) :
    ∃ o' c', o.merged e.members = .ok o' ∧ o'.Valid ∧
      (∀ f, o'.get f = o.get f ++ Options.normalized f (e.textsOf f)) ∧
      o'.ignoreTags = o.ignoreTags ++ e.rules ∧
      Configuration.compile characters o' = .ok c' ∧
      let reports := found (.ofTree t c oracle) t
      let reports' := found (.ofTree t c' oracle) t
      findings (.ofTree t c oracle) = reports.map Prod.snd ∧
        findings (.ofTree t c' oracle) = reports'.map Prod.snd ∧
        (e.textsOf .ignoreTranslatorCallee = [] → reports'.Sublist reports) ∧
        (reports'.filter fun x => !freshPlaceholder (Program.ofTree t) c c' x).Sublist reports := by
  obtain ⟨o', hmerged, hvalid, hlists, htags⟩ := Options.merged_members ho e
  obtain ⟨c', hc', hwithin, htranslators⟩ := Configuration.compile_within hc hlists
    (htags ▸ List.subset_append_left _ _) hread
  have hnothing : ((found (.ofTree t c' oracle) t).filter fun x =>
      !freshPlaceholder (Program.ofTree t) c c' x).Sublist (found (.ofTree t c oracle) t) := by
    refine found_sublist (fun x f hf hkeep => findingOn_of_within hwithin oracle hf ?_) t
    simpa using hkeep
  refine ⟨o', c', hmerged, hvalid, hlists, htags, hc', findings_eq_found t c oracle,
    findings_eq_found t c' oracle, ?_, hnothing⟩
  intro hnone
  have hnew : ∀ x, freshPlaceholder (Program.ofTree t) c c' x = false := by
    intro x
    unfold freshPlaceholder
    rw [Program.newlyTranslated_eq_false (htranslators (by rw [hnone]; rfl)) x.1]
    rfl
  simpa [hnew] using hnothing

/-- A call of a function with a template that has a place to fill in. -/
def templateCall : Tree Node :=
  .node { kind := .call }
    [.node { kind := .identifier, role := some "callee", name := .text "tr" } [],
      .node { kind := .templateLiteral, role := some "argument", value := .text "Hello",
              hasHole := true } []]

/-- Values for two lists, one of them with blanks to trim, and a tag rule. -/
def translatorExtension : Options.Extension :=
  { texts := [(.ignoreTranslatorCallee, [" tr ", " "]), (.ignore, ["World"])]
    rules := [⟨.one "p", ["title"]⟩] }

theorem findings_extended_translator :
    ∃ c, Options.Valid {} ∧ Configuration.compile Pattern.unnamed {} = .ok c ∧
      (∀ p ∈ translatorExtension.textsOf .ignore, ∃ q, Pattern.read Pattern.unnamed p = .ok q) ∧
      ∃ o' c', Options.merged {} translatorExtension.members = .ok o' ∧ o'.Valid ∧
        (∀ f, o'.get f =
          Options.get {} f ++ Options.normalized f (translatorExtension.textsOf f)) ∧
        o'.ignoreTags = Options.ignoreTags {} ++ translatorExtension.rules ∧
        Configuration.compile Pattern.unnamed o' = .ok c' ∧
        let reports := found (.ofTree templateCall c none) templateCall
        let reports' := found (.ofTree templateCall c' none) templateCall
        findings (.ofTree templateCall c none) = reports.map Prod.snd ∧
          findings (.ofTree templateCall c' none) = reports'.map Prod.snd ∧
          (translatorExtension.textsOf .ignoreTranslatorCallee = [] → reports'.Sublist reports) ∧
          (reports'.filter fun x =>
            !freshPlaceholder (Program.ofTree templateCall) c c' x).Sublist reports := by
  have hcompiles : (Configuration.compile Pattern.unnamed {}).toOption.isSome := by decide +kernel
  have hreads : (Pattern.read Pattern.unnamed "World").toOption.isSome := by decide +kernel
  have hvalid : Options.Valid {} := fun f => by cases f <;> rfl
  have hread : ∀ p ∈ translatorExtension.textsOf .ignore,
      ∃ q, Pattern.read Pattern.unnamed p = .ok q := by
    intro p hp
    have hworld : p = Text.ofString "World" := by
      simpa [translatorExtension, Options.Extension.textsOf] using hp
    rw [hworld]
    cases hq : Pattern.read Pattern.unnamed "World" with
    | error f =>
        rw [hq] at hreads
        cases hreads
    | ok q => exact ⟨q, rfl⟩
  cases hc : Configuration.compile Pattern.unnamed {} with
  | error f =>
      rw [hc] at hcompiles
      cases hcompiles
  | ok c =>
      exact ⟨c, hvalid, rfl, hread,
        findings_extended templateCall none Pattern.unnamed {} hvalid c hc translatorExtension
          hread⟩

/-- There the new translator is the reason for a finding of another kind. -/
example : (Configuration.compile Pattern.unnamed {}).toOption.map (fun c =>
      (findings (.ofTree templateCall c none)).map Finding.id) = some [Text.ofString "literal"] ∧
    (Configuration.compile Pattern.unnamed { ignoreTranslatorCallee := ["tr"] }).toOption.map (fun c =>
      (findings (.ofTree templateCall c none)).map Finding.id) =
        some [Text.ofString "placeholder"] := by
  decide +kernel

end Lint

end LiteralLint
