import LiteralLint.Proofs.SinglePass

/-!
# Adding a value pattern

Value patterns are looked at in three places of a ruling: for text in markup, below a property, and
at the end of the list. Translations are decided before any of them, and the complaint about a
property is recorded between the second and the third. Nevertheless one more pattern acts as an exact
filter on the findings of a run. It takes away those whose text it matches, except those about
places in translated templates, and leaves every other finding as it is.

For a node whose text the pattern does not match, nothing changes along the whole list. For one whose
text it matches, both lists agree up to the translations; from there on the one with the pattern is
silent, and the other complains about anything but places.

## Main results

* `Configuration.compile_insert`: options with one more pattern compile to a configuration with one
  more pattern.
* `Lint.findings_insert_pattern`: the findings of a run are filtered.
-/

namespace LiteralLint

/-! ## Compiling one more pattern -/

namespace Configuration

variable {characters : Pattern.CharacterNames}

theorem readPatterns_cons {t : Text} {rest : List Text} {patterns : List ValuePattern} :
    readPatterns characters (t :: rest) = .ok patterns ↔
      ∃ p ps, patterns = ⟨t, p⟩ :: ps ∧ Pattern.read characters t = .ok p ∧
        readPatterns characters rest = .ok ps := by
  rw [readPatterns]
  cases Pattern.read characters t with
  | error f => simp
  | ok p => cases readPatterns characters rest <;> simp [eq_comm]

/-- Whether a pattern can be read does not depend on those before and after it. -/
theorem readPatterns_append {before after : List Text} {patterns : List ValuePattern} :
    readPatterns characters (before ++ after) = .ok patterns ↔
      ∃ front back, patterns = front ++ back ∧
        readPatterns characters before = .ok front ∧ readPatterns characters after = .ok back := by
  induction before generalizing patterns with
  | nil => simp [readPatterns]
  | cons t rest ih =>
      simp only [List.cons_append, readPatterns_cons, ih]
      constructor
      · rintro ⟨p, _, rfl, hp, front, back, rfl, hfront, hback⟩
        exact ⟨⟨t, p⟩ :: front, back, rfl, ⟨p, front, rfl, hp, hfront⟩, hback⟩
      · rintro ⟨_, back, rfl, ⟨p, front, rfl, hp, hfront⟩, hback⟩
        exact ⟨p, front ++ back, rfl, hp, front, back, rfl, hfront, hback⟩

theorem readPatterns_insert {p : Text} {q : Pattern} (hq : Pattern.read characters p = .ok q)
    (before after : List Text) {patterns : List ValuePattern}
    (h : readPatterns characters (before ++ after) = .ok patterns) :
    ∃ front back, patterns = front ++ back ∧
      readPatterns characters (before ++ p :: after) = .ok (front ++ ⟨p, q⟩ :: back) := by
  obtain ⟨front, back, hpatterns, hfront, hback⟩ := readPatterns_append.1 h
  refine ⟨front, back, hpatterns, readPatterns_append.2 ⟨front, _, rfl, hfront, ?_⟩⟩
  exact readPatterns_cons.2 ⟨q, back, rfl, hq, hback⟩

/-- Options with one more pattern compile to the same configuration with one more pattern. -/
theorem compile_insert {o : Options} {before after : List Text} (ho : o.ignore = before ++ after)
    {c : Configuration} (hc : compile characters o = .ok c) {p : Text} {q : Pattern}
    (hq : Pattern.read characters p = .ok q) :
    ∃ patterns, compile characters { o with ignore := before ++ p :: after } =
        .ok { c with valuePatterns := patterns } ∧
      ∀ t, { c with valuePatterns := patterns }.matchesValue t = (c.matchesValue t || q.search t) := by
  unfold compile at hc ⊢
  rw [ho] at hc
  cases hpatterns : readPatterns characters (Baseline.noLetters :: (before ++ after)) with
  | error f =>
      rw [hpatterns] at hc
      cases hc
  | ok ps =>
      rw [hpatterns] at hc
      cases hc
      obtain ⟨front, back, hps, hinsert⟩ :=
        readPatterns_insert hq (Baseline.noLetters :: before) after hpatterns
      rw [List.cons_append] at hinsert
      refine ⟨front ++ ⟨p, q⟩ :: back, ?_, ?_⟩
      · dsimp only
        rw [hinsert]
        rfl
      · intro t
        show (front ++ ⟨p, q⟩ :: back).any _ = (ps.any _ || q.search t)
        rw [hps]
        simp only [List.any_append, List.any_cons, Bool.or_comm, Bool.or_left_comm]

end Configuration

/-! ## One node -/

namespace Hearing

/-- From the attributes on, a list complains about something else than places. -/
theorem id_of_propertyDecision {h : Hearing} {i : Nat} {n : Node} {attr : Option Nat}
    {c : Complaint} (hc : h.propertyDecision i n attr = .ok (some c)) : c.id ≠ "placeholder" := by
  rcases complaint_of_propertyDecision hc with ⟨property, -, rfl⟩ | ⟨a, -, rfl⟩ | rfl
  · show ("property" : Text) ≠ "placeholder"
    decide
  · show ("attribute" : Text) ≠ "placeholder"
    decide
  · show ("literal" : Text) ≠ "placeholder"
    decide

/-- From the attributes on, a list does not complain about text that is exempt by its value. -/
theorem propertyDecision_of_exemptsText {h : Hearing} {i : Nat} {n : Node} {attr : Option Nat}
    (htext : h.exemptsText n) (c : Complaint) : h.propertyDecision i n attr ≠ .ok (some c) := by
  intro hc
  unfold propertyDecision lastDecision at hc
  rw [htext] at hc
  cases hproperty : h.program.nearestOfKind? i .objectProperty <;>
    simp [hproperty, unlessExempt_eq_some] at hc

/-- With a pattern that matches the text of a node, the list complains exactly where the one without
it complains about places. -/
theorem decision_of_matched {h : Hearing} {patterns : List ValuePattern} {n : Node}
    (hmatch : (h.withMarks h.marks patterns).exemptsText n) (i : Nat) (c : Complaint) :
    (h.withMarks h.marks patterns).decision i n = .ok (some c) ↔
      h.decision i n = .ok (some c) ∧ c.id = "placeholder" := by
  unfold decision
  split
  · -- text in markup: a pattern can only exempt it
    unfold textDecision
    simp only [unlessExempt_eq_some, hmatch]
    constructor
    · rintro ⟨-, hfalse, -⟩
      cases hfalse
    · rintro ⟨⟨-, -, hd⟩, hid⟩
      cases hd
      exact absurd hid (show ("text" : Text) ≠ "placeholder" by decide)
  · unfold literalDecision
    simp only [unlessExempt_eq_some, and_assoc]
    refine and_congr_right fun _ => and_congr_right fun _ => and_congr_right fun _ => ?_
    show (if h.marks.insideTranslation h.program i then _ else _) = _ ↔ _
    by_cases htrans : h.marks.insideTranslation h.program i
    · -- inside a translation there are only complaints about places
      rw [if_pos htrans, if_pos htrans]
      refine ⟨fun hd => ⟨hd, ?_⟩, fun hd => hd.1⟩
      unfold translatedDecision at hd
      split at hd
      · cases hd
        rfl
      · cases hd
    · -- after it there are none
      rw [if_neg htrans, if_neg htrans]
      simp only [unlessExempt_eq_some]
      constructor
      · rintro ⟨-, hd⟩
        exact absurd hd (propertyDecision_of_exemptsText hmatch c)
      · rintro ⟨⟨-, hd⟩, hid⟩
        exact absurd hid (id_of_propertyDecision hd)

end Hearing

/-! ## The whole run -/

theorem Complaint.id_of_toFinding {c : Complaint} {place : Option Span} {f : Finding}
    (h : c.toFinding place = .ok f) : f.id = c.id := by
  obtain ⟨message, data, -, -, rfl⟩ := toFinding_eq_ok.1 h
  rfl

namespace Lint

open Arena LiteralLint.Tree

/-- The text of a node without its outer blanks. -/
def strippedText (p : Program) (i : Nat) : Text :=
  Text.strip (((p.node? i).map Node.literalText).getD [])

/-- Whether a finding stays when a pattern is added: it is about places in a translated template, or
its node has a text that the pattern does not match. -/
def survives (p : Program) (q : Pattern) (x : Nat × Finding) : Bool :=
  x.2.id == "placeholder" || !q.search (strippedText p x.1)

/-- The case with other value patterns. -/
def Case.withPatterns (c : Case) (patterns : List ValuePattern) : Case :=
  { c with config := { c.config with valuePatterns := patterns } }

theorem findingAt_insert {c : Case} {patterns : List ValuePattern} {q : Pattern}
    (hpatterns : ∀ t, { c.config with valuePatterns := patterns }.matchesValue t =
      (c.config.matchesValue t || q.search t)) (m : Marks) (i : Nat) :
    findingAt (c.withPatterns patterns) m i =
      (findingAt c m i).filter fun f => survives c.program q (i, f) := by
  cases hn : c.program.node? i with
  | none =>
      have hn' : (c.withPatterns patterns).program.node? i = none := hn
      simp [findingAt, hn, hn']
  | some n =>
      have hn' : (c.withPatterns patterns).program.node? i = some n := hn
      by_cases hs : n.isString
      · rw [findingAt_of_isString hn hs, findingAt_of_isString hn' hs]
        have hvalue : ((c.hearing m).withMarks m patterns).exemptsText n =
            ((c.hearing m).exemptsText n || q.search (strippedText c.program i)) := by
          have htext : strippedText c.program i = Text.strip n.literalText := by
            simp [strippedText, hn]
          show (_ || _ || Configuration.matchesValue { c.config with valuePatterns := patterns } _) = _
          rw [hpatterns, htext, ← Bool.or_assoc]
          rfl
        show reported (((c.hearing m).withMarks m patterns).decision i n) n.span = _
        cases hq : q.search (strippedText c.program i) with
        | false =>
            rw [hq, Bool.or_false] at hvalue
            rw [Hearing.decision_withMarks _ m patterns rfl rfl hvalue]
            cases reported ((c.hearing m).decision i n) n.span with
            | none => rfl
            | some f => simp [Option.filter, survives, hq]
        | true =>
            rw [hq, Bool.or_true] at hvalue
            refine Option.ext fun f => ?_
            simp only [Option.filter_eq_some_iff, reported_eq_some, survives, hq]
            constructor
            · rintro ⟨complaint, hd, hf⟩
              obtain ⟨hdecision, hid⟩ := (Hearing.decision_of_matched hvalue i complaint).1 hd
              refine ⟨⟨complaint, hdecision, hf⟩, ?_⟩
              simp [Complaint.id_of_toFinding hf, hid]
            · rintro ⟨⟨complaint, hd, hf⟩, hkeep⟩
              have hid : complaint.id = "placeholder" := by
                simpa [Complaint.id_of_toFinding hf] using hkeep
              exact ⟨complaint, (Hearing.decision_of_matched hvalue i complaint).2 ⟨hd, hid⟩, hf⟩
      · rw [findingAt_of_not_isString hn hs, findingAt_of_not_isString hn' hs]
        rfl

theorem found_insert {c : Case} {patterns : List ValuePattern} {q : Pattern}
    (hpatterns : ∀ t, { c.config with valuePatterns := patterns }.matchesValue t =
      (c.config.matchesValue t || q.search t)) (t : Tree Node) :
    found (c.withPatterns patterns) t = (found c t).filter (survives c.program q) := by
  refine found_eq_filter ?_ t
  intro x
  exact findingAt_insert hpatterns (marksAfter c (List.range x.2)) x.1

/-- **One more value pattern is an exact filter.** Whatever the tree and the oracle, and wherever the
pattern stands among the others, a run with it gives the findings of the run without it, in the same
order and unchanged, less those about something else than places whose node has a text that the
pattern matches. -/
theorem findings_insert_pattern (t : Tree Node) (oracle : Option Oracle)
    (characters : Pattern.CharacterNames) (o : Options) (before after : List Text)
    (ho : o.ignore = before ++ after) (c : Configuration)
    (hc : Configuration.compile characters o = .ok c) (p : Text) (q : Pattern)
    (hq : Pattern.read characters p = .ok q) :
    ∃ c', Configuration.compile characters { o with ignore := before ++ p :: after } = .ok c' ∧
      findings (.ofTree t c oracle) = (found (.ofTree t c oracle) t).map Prod.snd ∧
      findings (.ofTree t c' oracle) =
        ((found (.ofTree t c oracle) t).filter (survives (Program.ofTree t) q)).map Prod.snd := by
  obtain ⟨patterns, hcompile, hpatterns⟩ := Configuration.compile_insert ho hc hq
  refine ⟨_, hcompile, findings_eq_found t c oracle, ?_⟩
  rw [findings_eq_found]
  show (found ((Case.ofTree t c oracle).withPatterns patterns) t).map Prod.snd = _
  rw [found_insert hpatterns]
  rfl

theorem findings_insert_pattern_world :
    ∃ c q, Configuration.compile Pattern.unnamed {} = .ok c ∧ Pattern.read Pattern.unnamed "World" = .ok q ∧
      ∃ c', Configuration.compile Pattern.unnamed { ignore := ["World"] } = .ok c' ∧
        findings (.ofTree translatedMarkup c none) =
          (found (.ofTree translatedMarkup c none) translatedMarkup).map Prod.snd ∧
        findings (.ofTree translatedMarkup c' none) =
          ((found (.ofTree translatedMarkup c none) translatedMarkup).filter
            (survives (Program.ofTree translatedMarkup) q)).map Prod.snd := by
  have hcompiles : (Configuration.compile Pattern.unnamed {}).toOption.isSome := by decide +kernel
  have hreads : (Pattern.read Pattern.unnamed "World").toOption.isSome := by decide +kernel
  cases hc : Configuration.compile Pattern.unnamed {} with
  | error f =>
      rw [hc] at hcompiles
      cases hcompiles
  | ok c =>
      cases hq : Pattern.read Pattern.unnamed "World" with
      | error f =>
          rw [hq] at hreads
          cases hreads
      | ok q =>
          exact ⟨c, q, rfl, rfl,
            findings_insert_pattern translatedMarkup none Pattern.unnamed {} [] [] rfl c hc "World" q
              hq⟩

/-- There the pattern takes away the only finding. -/
example : (Configuration.compile Pattern.unnamed {}).toOption.map (fun c =>
      (findings (.ofTree translatedMarkup c none)).length) = some 1 ∧
    (Configuration.compile Pattern.unnamed { ignore := ["World"] }).toOption.map (fun c =>
      (findings (.ofTree translatedMarkup c none)).length) = some 0 := by
  decide +kernel

end Lint

end LiteralLint
