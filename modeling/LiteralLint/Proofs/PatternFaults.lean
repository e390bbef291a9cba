import LiteralLint.Proofs.LetterlessText
import LiteralLint.Proofs.PatternReading
import LiteralLint.Proofs.OptionsReading
import LiteralLint.Proofs.Widening

/-!
# Why options do not compile

A pattern that cannot be read ends the compilation of options, and the first one decides how. Most
faults of patterns are faults of the configuration that name the pattern. Four are not, and the
compilation fails with them: a count that is too large, a count with too many digits, an escaped
number that is too large to be a code point at all, and two global flags that exclude each other.
Reading carefully gives each of these a reason in the text, so a pattern whose text has no such
numbers and flags compiles or is named.

The flags are the only thing that a reader has to remember more than one token before it for: a group
of flags is known from its opening parenthesis on.

## Main definitions

* `Pattern.Lettered`: the letters of flags have been taken.
* `Pattern.Excessive`: a text with numbers past the limits, or with flags that exclude each other.
* `Configuration.ReadFrom`: a value pattern was read from a text.

## Main results

* `Pattern.carefulUpTo`: alternations, sequences and groups, by induction on the bound.
* `Pattern.founded_of_read`: every fault of a text has its reason in the text.
* `Configuration.ofOptions_outcome`: **what options compile to**.
-/

namespace LiteralLint

namespace Pattern

variable {t : Text} {α : Type}

/-! ## Flags -/

theorem leads_noFlag {P : Reading → Prop} {Q : α → Reading → Prop} (this : Token)
    (otherwise : Cause) : Leads t P (noFlag this otherwise) Q := by
  unfold noFlag
  split <;> exact .failBack _ _

theorem careful_readFlagsOff (bound : Nat) :
    ∀ off c, Careful t (readFlagsOff bound off c) := by
  induction bound with
  | zero => exact fun _ _ => .pure _
  | succ bound ih =>
      intro off c
      unfold readFlagsOff
      split
      · exact .fail _
      · refine .bind careful_take fun this => ?_
        split
        · exact .fail _
        · split
          · exact .pure _
          · split
            · exact ih _ _
            · exact leads_noFlag _ _

theorem ascii_turnOn {f : Flags} {c : CodePoint} (h : (f.turnOn c).ascii = true) :
    f.ascii = true ∨ c = 97 := by
  unfold Flags.turnOn at h
  repeat' split at h
  all_goals simp_all

theorem unicode_turnOn {f : Flags} {c : CodePoint} (h : (f.turnOn c).unicode = true) :
    f.unicode = true ∨ c = 117 := by
  unfold Flags.turnOn at h
  repeat' split at h
  all_goals simp_all

theorem flagLetter?_eq_some {this : Token} {c : CodePoint} (h : flagLetter? this = some c) :
    this = [c] ∧ isFlagLetter c = true := by
  unfold flagLetter? at h
  split at h
  · split at h
    · rename_i hc
      cases h
      exact ⟨rfl, hc⟩
    · cases h
  · cases h

/-- The letters of some flags have been taken, from the opening parenthesis on. -/
structure Lettered (t letters : Text) (on : Flags) (s : Reading) : Prop where
  sound : Sound t s
  flags : letters.all isFlagLetter = true
  taken : [40] :: [63] :: letters.map (fun c => [c]) ++ s.left <:+ tokens t
  ascii : on.ascii = true → 97 ∈ letters
  unicode : on.unicode = true → 117 ∈ letters

/-- Once the group is closed, the text asks for the flags. -/
theorem Lettered.founded {letters : Text} {on : Flags} {s s' : Reading}
    (h : Lettered t letters on s) (hclosed : s.left = [41] :: s'.left) : on.Founded t := by
  have htokens : [40] :: [63] :: letters.map (fun c => [c]) ++ [[41]] <:+: tokens t := by
    refine List.IsInfix.trans ⟨[], s'.left, ?_⟩ h.taken.isInfix
    rw [hclosed, List.nil_append, List.append_assoc]
    rfl
  have hgroup : 40 :: 63 :: letters ++ [41] <:+: t := by
    have hflatten := infix_of_tokens htokens
    rw [List.flatten_append, List.flatten_cons, List.flatten_cons,
      flatten_map_singleton] at hflatten
    exact hflatten
  exact ⟨fun hon => ⟨letters, h.flags, h.ascii hon, hgroup⟩,
    fun hon => ⟨letters, h.flags, h.unicode hon, hgroup⟩⟩

/-- One more letter. -/
theorem Lettered.next {letters : Text} {on : Flags} {s s' : Reading} (h : Lettered t letters on s)
    {c : CodePoint} (hc : isFlagLetter c = true) (hleft : s.left = [c] :: s'.left)
    (hs' : Sound t s') : Lettered t (letters ++ [c]) (on.turnOn c) s' := by
  refine ⟨hs', ?_, ?_, fun hon => ?_, fun hon => ?_⟩
  · rw [List.all_append, h.flags]
    simp [hc]
  · have htaken := h.taken
    rw [hleft] at htaken
    simpa using htaken
  · rcases ascii_turnOn hon with hon | rfl
    · exact List.mem_append_left _ (h.ascii hon)
    · simp
  · rcases unicode_turnOn hon with hon | rfl
    · exact List.mem_append_left _ (h.unicode hon)
    · simp

/-- Flags that are read up to the end of their group are flags that the text asks for. -/
theorem readFlagsOn_spec (bound : Nat) :
    ∀ (letters : Text) {on : Flags} {c : CodePoint},
      Leads t (Lettered t letters (on.turnOn c)) (readFlagsOn bound on c) fun p s =>
        Sound t s ∧ (p.2 = [41] → p.1.Founded t) := by
  induction bound with
  | zero => exact fun _ => .pure fun s h => ⟨h.sound, fun h => nomatch h⟩
  | succ bound ih =>
      intro letters on c
      unfold readFlagsOn
      split
      · exact .fail _
      · dsimp only
        split
        · exact .fail _
        · refine .of_from (fun s h => h.sound) fun s₀ h => ?_
          refine .bind (take_spec s₀) fun found => ?_
          split
          · exact .fail _
          · rename_i this
            split
            · refine .pure ?_
              rintro s ⟨hs, -, hleft⟩
              refine ⟨hs, ?_⟩
              rintro rfl
              exact h.founded hleft
            · split
              · rename_i d hd
                obtain ⟨rfl, hflag⟩ := flagLetter?_eq_some hd
                refine (ih (letters ++ [d])).imp ?_ fun _ _ h => h
                rintro s ⟨hs, -, hleft⟩
                exact h.next hflag hleft hs
              · exact leads_noFlag _ _

theorem leads_tokensLeft {P : Reading → Prop} : Leads t P tokensLeft fun _ => P := fun _ hs => hs

/-- Flags for the whole pattern are flags that the text asks for. -/
theorem readFlags_spec {first : CodePoint} :
    Leads t (fun s => first = 45 ∧ Sound t s ∨ Lettered t [first] (Flags.turnOn {} first) s)
      (readFlags first) fun scope s =>
        Sound t s ∧ ∀ on, scope = .everything on → on.Founded t := by
  unfold readFlags
  refine .bind leads_tokensLeft fun n => ?_
  extract_lets bound rest
  have hrest : ∀ p, Leads t (fun s => Sound t s ∧ (p.2 = [41] → p.1.Founded t)) (rest p)
      fun scope s => Sound t s ∧ ∀ on, scope = .everything on → on.Founded t := by
    rintro ⟨on, stop⟩
    unfold rest
    dsimp -zeta only
    split
    · rename_i hstop
      refine .pure ?_
      rintro s ⟨hs, hon⟩
      refine ⟨hs, ?_⟩
      rintro _ ⟨⟩
      exact hon (beq_iff_eq.1 hstop)
    split
    · exact .failBack _ _
    extract_lets last
    have hlast : ∀ off, Leads t (Sound t) (last off) fun scope s =>
        Sound t s ∧ ∀ on, scope = .everything on → on.Founded t := by
      intro off
      unfold last
      split
      · exact .failBack _ _
      split
      · exact .failBack _ _
      · exact .pure fun s hs => ⟨hs, fun _ h => nomatch h⟩
    refine Leads.imp (P := Sound t) ?_ (fun _ h => h.1) fun _ _ h => h
    split
    · refine .bind careful_take fun this => ?_
      split
      · exact .bind (Q := fun _ => Sound t) (.fail _) hlast
      · split
        · exact .bind (careful_readFlagsOff _ _ _) hlast
        · exact .bind (Q := fun _ => Sound t) (leads_noFlag _ _) hlast
    · exact .bind (Careful.pure _) hlast
  split
  · refine .bind (Q := fun p s => Sound t s ∧ (p.2 = [41] → p.1.Founded t)) (.pure ?_) hrest
    rintro s (⟨-, hs⟩ | h)
    · exact ⟨hs, fun h => nomatch h⟩
    · exact ⟨h.sound, fun h => nomatch h⟩
  · rename_i hfirst
    refine .bind (.imp (readFlagsOn_spec bound [first]) ?_ fun _ _ h => h) hrest
    rintro s (⟨rfl, -⟩ | h)
    · exact absurd rfl hfirst
    · exact h

/-- What opens a group, if it is flags for the whole pattern, is flags that the text asks for. -/
def Opened (t : Text) (o : Opening) (s : Reading) : Prop :=
  Sound t s ∧ ∀ on, o = .globals on → on.Founded t

theorem opened_pure {o : Opening} (h : ∀ on, o ≠ .globals on) :
    Leads t (Sound t) (Pure.pure o) (Opened t) :=
  .pure fun _ hs => ⟨hs, fun on ho => absurd ho (h on)⟩

theorem readOpening_spec (opened : Nat) :
    Leads t (fun s => Sound t s ∧ [40] :: s.left <:+ tokens t) (readOpening opened) (Opened t) := by
  unfold readOpening
  refine .of_from (fun s h => h.1) fun s₀ h₀ => ?_
  refine .bind (accept_spec 63 s₀) fun yes => ?_
  split
  · refine Leads.imp (P := Sound t) (Q := Opened t) ?_ (fun _ h => h.1) fun _ _ h => h
    exact opened_pure nofun
  rename_i hyes
  refine .of_from (fun s h => h.1) fun s₁ h₁ => ?_
  have htaken : [40] :: [63] :: s₁.left <:+ tokens t := by
    rw [← h₁.2 (by simpa using hyes)]
    exact h₀.2
  refine .bind (take_spec s₁) fun found => ?_
  split
  · exact .fail _
  rename_i this
  -- what is known of the tokens before matters only if they are followed by flags
  have hsound : ∀ {m : ReadM Opening}, Leads t (Sound t) m (Opened t) →
      Leads t (fun s => Sound t s ∧ some this = s₁.left.head? ∧
        s₁.left = (some this).toList ++ s.left) m (Opened t) :=
    fun h => h.imp (fun _ h => h.1) fun _ _ h => h
  split
  · refine hsound (.bind (careful_accept _) fun yes => ?_)
    split
    · refine .bind careful_tokensLeft fun n => .bind (careful_takeName _ _ _ _) fun name => ?_
      exact .bind (careful_checkName _) fun _ => opened_pure nofun
    refine .bind (careful_accept _) fun yes => ?_
    split
    · refine .bind careful_tokensLeft fun n => .bind (careful_takeName _ _ _ _) fun name => ?_
      refine .bind (careful_checkName _) fun _ => .get fun s _ => ?_
      split
      · exact .failBack _ _
      · refine .bind (careful_isClosed _) fun yes => ?_
        split
        · exact .failBack _ _
        · exact .bind (careful_checkBehind _) fun _ => opened_pure nofun
    · refine .bind careful_take fun found => ?_
      split
      · exact .fail _
      · exact .failBack _ _
  split
  · exact hsound (opened_pure nofun)
  split
  · exact hsound (.bind careful_tokensLeft fun _ => .bind (careful_skipComment _ _) fun _ =>
      opened_pure nofun)
  split
  · exact hsound (opened_pure nofun)
  split
  · exact hsound (opened_pure nofun)
  split
  · refine hsound (.bind careful_take fun found => ?_)
    split
    · exact .fail _
    split
    · exact opened_pure nofun
    split
    · exact opened_pure nofun
    · exact .failBack _ _
  split
  · exact hsound (.bind careful_readCondition fun _ => opened_pure nofun)
  split
  · exact hsound (opened_pure nofun)
  split
  · rename_i c hc
    refine .bind (readFlags_spec.imp ?_ fun _ _ h => h) fun scope => ?_
    · rintro s ⟨hs, -, hleft⟩
      split at hc
      · cases hc
        exact Or.inl ⟨rfl, hs⟩
      · obtain ⟨rfl, hflag⟩ := flagLetter?_eq_some hc
        refine Or.inr ⟨hs, by simp [hflag], ?_, fun hon => ?_, fun hon => ?_⟩
        · rw [hleft] at htaken
          exact htaken
        · rcases ascii_turnOn hon with hnone | rfl
          · cases hnone
          · simp
        · rcases unicode_turnOn hon with hnone | rfl
          · cases hnone
          · simp
    · split
      · refine .pure ?_
        rintro s ⟨hs, hon⟩
        refine ⟨hs, ?_⟩
        rintro _ ⟨⟩
        exact hon _ rfl
      · refine Leads.imp (P := Sound t) (Q := Opened t) ?_ (fun _ h => h.1) fun _ _ h => h
        exact opened_pure nofun
  · exact .failBack _ _

/-! ## Alternations, sequences and groups -/

/-- What is read up to a bound, by each of the three readers that need one another. -/
structure CarefulUpTo (t : Text) (bound : Nat) : Prop where
  alternation : ∀ top f before, Careful t (readAlternation bound top f before)
  sequence : ∀ first f parts, Careful t (readSequence bound first f parts)
  group : ∀ f opened o, Careful t (readGroup bound f opened o)

theorem careful_readAlternation_succ {bound : Nat} (h : CarefulUpTo t bound) (top : Bool)
    (f : Flags) (before : List Pattern) :
    Careful t (readAlternation (bound + 1) top f before) := by
  unfold readAlternation
  refine .bind (h.sequence _ _ _) fun p => ?_
  dsimp only
  refine .bind (careful_accept _) fun yes => ?_
  split
  · exact .get fun s _ => h.alternation _ _ _
  · exact .pure _

theorem careful_readGroup_succ {bound : Nat} (h : CarefulUpTo t bound) (f : Flags)
    (opened : Nat) (o : Opening) : Careful t (readGroup (bound + 1) f opened o) := by
  unfold readGroup
  split
  · refine .get fun s _ => ?_
    extract_lets outer rest
    have hrest : ∀ u, Careful t (rest u) := by
      intro u
      unfold rest
      refine .bind (h.alternation _ _ _) fun body => ?_
      extract_lets last
      have hlast : ∀ u, Careful t (last u) := fun _ => .bind (careful_closing _) fun _ => .pure _
      split
      · exact .bind (.modify fun _ hs => ⟨hs.left, hs.globals⟩) hlast
      · exact hlast ()
    split
    · exact .bind (.modify fun _ hs => ⟨hs.left, hs.globals⟩) hrest
    · exact hrest ()
  · refine .bind (careful_checkBehind _) fun _ => ?_
    refine .bind (h.sequence _ _ _) fun yes => ?_
    refine .bind (careful_accept _) fun bar => ?_
    extract_lets rest
    have hrest : ∀ no, Careful t (rest no) := fun _ => .bind (careful_closing _) fun _ => .pure _
    split
    · refine .bind (h.sequence _ _ _) fun no => ?_
      refine .bind (careful_nextIs _) fun more => ?_
      split
      · exact .bind (.fail _) hrest
      · exact .bind (.pure _) hrest
    · exact .bind (.pure _) hrest
  · refine .bind (careful_openGroup _) fun number => ?_
    refine .bind (h.alternation _ _ _) fun body => ?_
    refine .bind (careful_closing _) fun _ => ?_
    exact .bind (careful_closeGroup _ _) fun _ => .pure _
  · refine .bind (h.alternation _ _ _) fun body => ?_
    exact .bind (careful_closing _) fun _ => .pure _
  · refine .bind (h.alternation _ _ _) fun body => ?_
    exact .bind (careful_closing _) fun _ => .pure _
  · refine .bind (h.alternation _ _ _) fun body => ?_
    exact .bind (careful_closing _) fun _ => .pure _

theorem careful_readSequence_succ {bound : Nat} (h : CarefulUpTo t bound) (first : Bool)
    (f : Flags) (parts : List Part) : Careful t (readSequence (bound + 1) first f parts) := by
  have hdone : Careful t (Pure.pure (Pattern.sequence parts) : ReadM Pattern) := .pure _
  unfold readSequence
  refine Leads.of_from (fun _ hs => hs) fun s₀ hs₀ => .peek ?_
  split
  · exact hdone.imp (fun _ h => h.2) fun _ _ h => h
  rename_i this hnext
  refine .ite (fun _ => hdone.imp (fun _ h => h.2) fun _ _ h => h) fun _ => ?_
  refine .bind (take_spec s₀) fun found => ?_
  -- what was taken matters if it opens a group
  have hsound : ∀ {m : ReadM Pattern}, Careful t m → Leads t (fun s => Sound t s ∧
      found = s₀.left.head? ∧ s₀.left = found.toList ++ s.left) m fun _ => Sound t :=
    fun h => h.imp (fun _ h => h.1) fun _ _ h => h
  rcases this with _ | ⟨c, _ | ⟨c', _ | ⟨_, _⟩⟩⟩
  · exact hsound hdone
  · refine .ite (fun _ => hsound (h.sequence _ _ _)) fun _ => ?_
    refine .ite (fun _ => hsound (.bind careful_tokensLeft fun n => ?_)) fun _ => ?_
    · exact .bind (careful_skipLine _) fun _ => h.sequence _ _ _
    refine .ite (fun _ => hsound (.bind (careful_readSet f) fun p => h.sequence _ _ _)) fun _ => ?_
    refine .ite (fun _ => hsound (.get fun s _ => ?_)) fun _ => ?_
    · refine .bind (careful_readRounds? c) fun counts => ?_
      split
      · exact .bind (careful_repeatLast _ _ _ _) fun _ => h.sequence _ _ _
      · exact h.sequence _ _ _
    refine .ite (fun _ => hsound (h.sequence _ _ _)) fun _ => ?_
    refine .ite (fun _ => hsound (h.sequence _ _ _)) fun _ => ?_
    refine .ite (fun _ => hsound (h.sequence _ _ _)) fun _ => ?_
    refine .ite (fun hopen => .get fun s _ => ?_) fun _ => hsound (h.sequence _ _ _)
    refine .bind ((readOpening_spec _).imp ?_ fun _ _ h => h) fun o => ?_
    · rintro s ⟨hs, rfl, hleft⟩
      refine ⟨hs, ?_⟩
      have hgroup : s₀.left = [40] :: s.left := by
        rw [hnext, beq_iff_eq.1 hopen] at hleft
        exact hleft
      exact hgroup ▸ hs₀.left
    have hopened : ∀ {o : Opening} {m : ReadM Pattern}, Careful t m →
        Leads t (Opened t o) m fun _ => Sound t :=
      fun h => h.imp (fun _ h => h.1) fun _ _ h => h
    split
    · exact hopened (h.sequence _ _ _)
    · rename_i on
      refine .ite (fun _ => hopened (.get fun _ _ => .failBack _ _)) fun _ => ?_
      refine .bind (Q := fun _ => Sound t) ?_ fun _ => h.sequence _ _ _
      rintro s ⟨hs, hon⟩
      exact ⟨hs.left, hs.globals.union (hon on rfl)⟩
    · exact hopened (.bind (careful_again _ _) fun _ => h.sequence _ _ _)
    · exact hopened (.bind (h.group _ _ _) fun _ => h.sequence _ _ _)
  · -- so it does if it is an escape
    refine .bind ((careful_readEscape f c').imp ?_ fun _ _ h => h) fun _ => h.sequence _ _ _
    rintro s ⟨hs, rfl, hleft⟩
    have hmem : [c, c'] ∈ tokens t := by
      refine hs₀.left.subset ?_
      rw [hleft, hnext]
      exact List.mem_cons_self
    have hescape : s₀.left = [92, c'] :: s.left := by
      rw [hleft, hnext, backslash_of_mem_tokens hmem]
      rfl
    exact ⟨hs, hescape ▸ hs₀.left⟩
  · exact hsound hdone

/-- Alternations, sequences and groups are read carefully, by induction on the bound. -/
theorem carefulUpTo (t : Text) (bound : Nat) : CarefulUpTo t bound := by
  induction bound with
  | zero =>
      refine ⟨fun top f before => ?_, fun first f parts => ?_, fun f opened o => ?_⟩
      · unfold readAlternation
        exact .pure _
      · unfold readSequence
        exact .pure _
      · unfold readGroup
        exact .pure _
  | succ bound ih =>
      exact ⟨careful_readAlternation_succ ih, careful_readSequence_succ ih,
        careful_readGroup_succ ih⟩

/-! ## Whole texts -/

theorem careful_readAll (t : Text) : Careful t (readAll t) := by
  unfold readAll
  refine .bind careful_peek fun next => ?_
  extract_lets rest
  have hrest : ∀ u, Careful t (rest u) := by
    intro u
    unfold rest
    refine .bind ((carefulUpTo t _).alternation _ _ _) fun p => .get fun s hs => ?_
    extract_lets last balance
    have hlast : ∀ u, Careful t (last u) := by
      intro u
      unfold last
      split
      · exact fun _ _ => trivial
      · split
        · exact fun _ _ => trivial
        · exact .pure _
    have hbalance : ∀ u, Careful t (balance u) := by
      intro u
      unfold balance
      split
      · exact .bind (.fail _) hlast
      · exact hlast ()
    split
    · rename_i hflags
      obtain ⟨hascii, hunicode⟩ := Bool.and_eq_true_iff.1 hflags
      exact fun _ _ => ⟨hs.globals.ascii hascii, hs.globals.unicode hunicode⟩
    · exact hbalance ()
  split
  · exact fun _ _ => trivial
  · exact hrest ()

/-- **Every fault of a text has its reason in the text.** -/
theorem founded_of_read {characters : CharacterNames} {f : Fault}
    (h : read characters t = .error f) : f.Founded t := by
  have hstart : Sound t (.start characters t) :=
    ⟨List.suffix_refl _, ⟨fun h => (nomatch h), fun h => (nomatch h)⟩⟩
  have hrun := careful_readAll t _ hstart
  unfold read at h
  cases hresult : (readAll t).run (.start characters t) with
  | error g =>
      rw [hresult] at h hrun
      cases h
      exact hrun
  | ok p =>
      rw [hresult] at h
      cases h

/-- A text with a count or an escaped number past the limits, or with both flags for the meaning of
classes. -/
def Excessive (t : Text) : Prop :=
  (∃ digits, Digits t digits ∧ countLimit ≤ Text.decimalValue digits) ∨
    (∃ n, Text.decimalDigitLimit < n ∧ Text.HasDigits n t) ∨
    (∃ digits, LongEscape t digits ∧ numberLimit ≤ Text.hexValue digits) ∨
    HasFlag 97 t ∧ HasFlag 117 t

/-- A fault of a pattern is a fault of the configuration, or the text is excessive. -/
theorem foreseen_or_excessive {characters : CharacterNames} {f : Fault}
    (h : read characters t = .error f) :
    (∃ reason, Failure.ofPattern ⟨t, f⟩ = .configuration (.pattern t reason)) ∨
      (¬ Foreseen (.error (Failure.ofPattern ⟨t, f⟩) : Except Failure α) ∧ Excessive t) := by
  have hescapes : (∀ c, Failure.ofPattern ⟨t, f⟩ ≠ .configuration c) →
      ¬ Foreseen (.error (Failure.ofPattern ⟨t, f⟩) : Except Failure α) := by
    intro hne hforeseen
    obtain ⟨c, hc⟩ := hforeseen _ rfl
    exact hne c hc
  have hfounded := founded_of_read h
  cases f with
  | malformed cause place => exact Or.inl ⟨_, rfl⟩
  | numberTooLarge => exact Or.inr ⟨hescapes nofun, Or.inr (Or.inr (Or.inl hfounded))⟩
  | countTooLarge => exact Or.inr ⟨hescapes nofun, Or.inl hfounded⟩
  | countTooLong n => exact Or.inr ⟨hescapes nofun, Or.inr (Or.inl ⟨n, hfounded⟩)⟩
  | asciiAndUnicode => exact Or.inr ⟨hescapes nofun, Or.inr (Or.inr (Or.inr hfounded))⟩

end Pattern

namespace Configuration

/-- A value pattern was read from a text. -/
def ReadFrom (characters : Pattern.CharacterNames) (t : Text) (v : ValuePattern) : Prop :=
  v.source = t ∧ Pattern.read characters t = .ok v.pattern

variable {characters : Pattern.CharacterNames}

theorem forall₂_of_readPatterns {ts : List Text} :
    ∀ {ps : List ValuePattern}, readPatterns characters ts = .ok ps →
      List.Forall₂ (ReadFrom characters) ts ps := by
  induction ts with
  | nil =>
      rintro _ ⟨⟩
      exact .nil
  | cons t rest ih =>
      intro ps h
      obtain ⟨p, qs, rfl, hp, hqs⟩ := readPatterns_cons.1 h
      exact .cons ⟨rfl, hp⟩ (ih hqs)

/-- The first text that is no pattern is the one that is reported. -/
theorem exists_of_readPatterns {ts : List Text} {f : PatternFault}
    (h : readPatterns characters ts = .error f) :
    ∃ before after, ts = before ++ f.source :: after ∧
      (∀ u ∈ before, ∃ p, Pattern.read characters u = .ok p) ∧
      Pattern.read characters f.source = .error f.fault := by
  induction ts with
  | nil => cases h
  | cons t rest ih =>
      rw [readPatterns] at h
      cases hread : Pattern.read characters t with
      | error fault =>
          rw [hread] at h
          cases h
          exact ⟨[], rest, rfl, by simp, hread⟩
      | ok p =>
          rw [hread] at h
          cases hrest : readPatterns characters rest with
          | ok ps => simp [hrest] at h
          | error g =>
              simp only [hrest, Except.error.injEq] at h
              subst h
              obtain ⟨before, after, rfl, hbefore, hfault⟩ := ih hrest
              refine ⟨t :: before, after, rfl, ?_, hfault⟩
              exact List.forall_mem_cons.2 ⟨⟨p, hread⟩, hbefore⟩

/-- **What options compile to.** If all patterns can be read, to a configuration with the built-in
pattern and then theirs, in order. If not, the first that cannot decides how the compilation fails:
with a fault of the configuration that names it, or its text is excessive, and the failure is not
foreseen. -/
theorem ofOptions_outcome (characters : Pattern.CharacterNames) (o : Options) :
    (∃ c, ofOptions characters o = .ok c ∧
      List.Forall₂ (ReadFrom characters) (Baseline.noLetters :: o.ignore) c.valuePatterns) ∨
    ∃ before t after fault, o.ignore = before ++ t :: after ∧
      (∀ u ∈ before, ∃ p, Pattern.read characters u = .ok p) ∧
      Pattern.read characters t = .error fault ∧
      ofOptions characters o = .error (Failure.ofPattern ⟨t, fault⟩) ∧
      ((∃ reason, ofOptions characters o = .error (.configuration (.pattern t reason))) ∨
        (¬ Foreseen (ofOptions characters o) ∧ Pattern.Excessive t)) := by
  cases hpatterns : readPatterns characters (Baseline.noLetters :: o.ignore) with
  | ok ps =>
      have hok : ∃ c, ofOptions characters o = .ok c ∧ c.valuePatterns = ps := by
        unfold ofOptions compile
        rw [hpatterns]
        exact ⟨_, rfl, rfl⟩
      obtain ⟨c, hc, rfl⟩ := hok
      exact Or.inl ⟨c, hc, forall₂_of_readPatterns hpatterns⟩
  | error f =>
      obtain ⟨t, fault⟩ := f
      have herror : ofOptions characters o = .error (Failure.ofPattern ⟨t, fault⟩) := by
        unfold ofOptions compile
        rw [hpatterns]
        rfl
      obtain ⟨before, after, hsplit, hbefore, hfault⟩ := exists_of_readPatterns hpatterns
      -- the built-in pattern can be read, so the fault is in a pattern of the options
      cases before with
      | nil =>
          obtain ⟨hfirst, -⟩ := List.cons.inj hsplit
          have hread := Pattern.read_noLetters characters
          rw [hfirst, hfault] at hread
          cases hread
      | cons first before =>
          obtain ⟨-, hignore⟩ := List.cons.inj hsplit
          refine Or.inr ⟨before, t, after, fault, hignore, ?_, hfault, herror, ?_⟩
          · exact (List.forall_mem_cons.1 hbefore).2
          · rw [herror]
            rcases Pattern.foreseen_or_excessive (α := Configuration) hfault with
              ⟨reason, hreason⟩ | hescapes
            · exact Or.inl ⟨reason, by rw [hreason]⟩
            · exact Or.inr hescapes

/-- A count at the limit is not foreseen. -/
theorem ofOptions_count_at_limit :
    ofOptions Pattern.unnamed { ignore := ["a\x7b4294967295\x7d"] } =
        .error (.tooLarge "the repetition number is too large") ∧
      ¬ Foreseen (ofOptions Pattern.unnamed { ignore := ["a\x7b4294967295\x7d"] }) := by
  have hfails : (match ofOptions Pattern.unnamed { ignore := ["a\x7b4294967295\x7d"] } with
      | .ok _ => none
      | .error f => some f) = some (.tooLarge "the repetition number is too large") := by
    decide +kernel
  have herror : ofOptions Pattern.unnamed { ignore := ["a\x7b4294967295\x7d"] } =
      .error (.tooLarge "the repetition number is too large") := by
    generalize ofOptions Pattern.unnamed { ignore := ["a\x7b4294967295\x7d"] } = out at hfails
    cases out with
    | ok c => cases hfails
    | error f => rw [Option.some.inj hfails]
  refine ⟨herror, fun h => ?_⟩
  obtain ⟨c, hc⟩ := h _ herror
  cases hc

end Configuration

end LiteralLint
