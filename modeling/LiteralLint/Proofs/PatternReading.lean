import LiteralLint.Pattern.Reader
import LiteralLint.Proofs.JsonReading

/-!
# Reading patterns with reasons

Reading a pattern takes tokens from the front of the text, so whatever it has collected stands in
the text. This gives each of its faults a reason. Most faults are about the form of the text. The
others are about a count of a repetition or an escaped number, whose digits stand in the text next to
each other, or about the two flags for the meaning of classes, which then stand in groups of flags for
the whole pattern.

Every reader leads from a state that is sound for the text to one that is, or to a fault with a
reason. This is said once of the steps that readers are made of, and then of the readers of escapes,
sets and repetitions one after the other.

## Main definitions

* `Pattern.Fault.Founded`: the reason that a text gives for a fault.
* `Pattern.Leads`: what a reader leads to, from states of a kind.
* `Pattern.Sound`: what is true of a state while a text is read.
* `Pattern.Careful`: a reader that keeps states sound and stops with a reason only.

## Main results

* `Pattern.take_spec`, `Pattern.takeWhile_spec`: what is taken stood in front of what is left.
* `Pattern.careful_readCounts?`: counts are refused for digits that stand in the text.
-/

namespace LiteralLint.Pattern

/-! ## Reasons -/

/-- A group of flags for the whole pattern has a flag. -/
def HasFlag (c : CodePoint) (t : Text) : Prop :=
  ∃ letters : Text, letters.all isFlagLetter = true ∧ c ∈ letters ∧
    40 :: 63 :: letters ++ [41] <:+: t

/-- Digits that stand in a text next to each other. -/
def Digits (t digits : Text) : Prop := digits.all Text.isAsciiDigit = true ∧ digits <:+: t

/-- The escape by eight hexadecimal digits that stands in a text with certain digits. -/
def LongEscape (t digits : Text) : Prop :=
  digits.length = 8 ∧ digits.all isHexDigit = true ∧
    [92, 85] :: digits.map (fun c => [c]) <:+: tokens t

/-- The reason that a text gives for a fault. -/
def Fault.Founded (t : Text) : Fault → Prop
  | .malformed _ _ => True
  | .numberTooLarge => ∃ digits, LongEscape t digits ∧ numberLimit ≤ Text.hexValue digits
  | .countTooLarge => ∃ digits, Digits t digits ∧ countLimit ≤ Text.decimalValue digits
  | .countTooLong n => Text.decimalDigitLimit < n ∧ Text.HasDigits n t
  | .asciiAndUnicode => HasFlag 97 t ∧ HasFlag 117 t

/-- Flags that a text asks for. -/
structure Flags.Founded (t : Text) (f : Flags) : Prop where
  ascii : f.ascii = true → HasFlag 97 t
  unicode : f.unicode = true → HasFlag 117 t

theorem Flags.Founded.union {t : Text} {f g : Flags} (hf : f.Founded t) (hg : g.Founded t) :
    (f.union g).Founded t := by
  refine ⟨fun h => ?_, fun h => ?_⟩
  · exact (Bool.or_eq_true _ _ ▸ h : f.ascii = true ∨ g.ascii = true).elim hf.ascii hg.ascii
  · exact (Bool.or_eq_true _ _ ▸ h : f.unicode = true ∨ g.unicode = true).elim hf.unicode hg.unicode

/-! ## Tokens -/

theorem flatten_tokens (t : Text) : (tokens t).flatten = t := by
  fun_induction tokens t with
  | case1 => rfl
  | case2 => rfl
  | case3 c rest ih => rw [List.flatten_cons, ih]; rfl
  | case4 c rest _ _ ih => rw [List.flatten_cons, ih]; rfl

/-- Tokens that stand in a text next to each other make up a part of it. -/
theorem infix_of_tokens {part : List Token} {t : Text} (h : part <:+: tokens t) :
    part.flatten <:+: t := by
  obtain ⟨before, after, hsplit⟩ := h
  refine ⟨before.flatten, after.flatten, ?_⟩
  rw [← List.flatten_append, ← List.flatten_append, hsplit, flatten_tokens]

theorem flatten_map_singleton (cs : Text) : (cs.map fun c => [c]).flatten = cs := by
  induction cs with
  | nil => rfl
  | cons c cs ih => rw [List.map_cons, List.flatten_cons, ih]; rfl

/-- A token of two code points is an escape. -/
theorem backslash_of_mem_tokens {a c : CodePoint} {t : Text} (h : [a, c] ∈ tokens t) : a = 92 := by
  fun_induction tokens t with
  | case1 => cases h
  | case2 => simp at h
  | case3 _ _ ih =>
      rcases List.mem_cons.1 h with hsame | h
      · exact (List.cons.inj hsame).1
      · exact ih h
  | case4 _ _ _ _ ih =>
      rcases List.mem_cons.1 h with hsame | h
      · cases hsame
      · exact ih h

theorem hexValue_lt (digits : Text) : Text.hexValue digits < Nat.pow 16 digits.length := by
  have hdigit : ∀ c, (Text.hexDigit? c).getD 0 < 16 := by
    intro c
    unfold Text.hexDigit?
    repeat' split
    all_goals simp only [Option.getD_some, Option.getD_none, Bool.and_eq_true,
      decide_eq_true_eq, CodePoint] at *
    all_goals omega
  have hfold : ∀ n, digits.foldl (fun n c => 16 * n + (Text.hexDigit? c).getD 0) n <
      (n + 1) * Nat.pow 16 digits.length := by
    induction digits with
    | nil => exact fun n => Nat.lt_of_lt_of_eq n.lt_succ_self (Nat.mul_one _).symm
    | cons c rest ih =>
        intro n
        calc (c :: rest).foldl (fun n c => 16 * n + (Text.hexDigit? c).getD 0) n
          _ < (16 * n + (Text.hexDigit? c).getD 0 + 1) * Nat.pow 16 rest.length := ih _
          _ ≤ (16 * (n + 1)) * Nat.pow 16 rest.length := by
              have := hdigit c
              exact Nat.mul_le_mul_right _ (by omega)
          _ = (n + 1) * Nat.pow 16 (c :: rest).length := by
              rw [List.length_cons, Nat.pow_eq, Nat.pow_eq, Nat.pow_succ, Nat.mul_comm 16,
                Nat.mul_assoc, Nat.mul_comm 16]
  exact Nat.one_mul (Nat.pow 16 digits.length) ▸ hfold 0

/-! ## Steps of reading -/

/-- Reading from any state of a kind comes to a value and a state of a kind, or to a fault with a
reason. -/
def Leads {α : Type} (t : Text) (P : Reading → Prop) (m : ReadM α) (Q : α → Reading → Prop) :
    Prop :=
  ∀ s, P s → match m.run s with
    | .ok (a, s') => Q a s'
    | .error f => f.Founded t

/-- What is true of a state while a text is read: the tokens that are left are the last ones of the
text, and the text asks for the flags. -/
structure Sound (t : Text) (s : Reading) : Prop where
  left : s.left <:+ tokens t
  globals : s.globals.Founded t

/-- A reader that keeps states sound and stops with a reason only. -/
def Careful {α : Type} (t : Text) (m : ReadM α) : Prop := Leads t (Sound t) m fun _ => Sound t

variable {t : Text} {α β : Type}

namespace Leads

variable {P : Reading → Prop} {Q : α → Reading → Prop} {R : β → Reading → Prop}

theorem pure {a : α} (h : ∀ s, P s → Q a s) : Leads t P (Pure.pure a) Q := h

theorem bind {m : ReadM α} {k : α → ReadM β} (hm : Leads t P m Q)
    (hk : ∀ a, Leads t (Q a) (k a) R) : Leads t P (m >>= k) R := by
  intro s hs
  have hfirst := hm s hs
  show match (m.run s >>= fun p => (k p.1).run p.2) with
    | .ok (b, s') => R b s'
    | .error f => f.Founded t
  cases hrun : m.run s with
  | error f =>
      rw [hrun] at hfirst
      exact hfirst
  | ok p =>
      rw [hrun] at hfirst
      exact hk p.1 p.2 hfirst

theorem imp {m : ReadM α} {P' : Reading → Prop} {Q' : α → Reading → Prop} (h : Leads t P m Q)
    (hP : ∀ s, P' s → P s) (hQ : ∀ a s, Q a s → Q' a s) : Leads t P' m Q' := by
  intro s hs
  have hrun := h s (hP s hs)
  split at hrun
  · exact hQ _ _ hrun
  · exact hrun

/-- The state is looked at before the rest. -/
theorem get {k : Reading → ReadM β} (h : ∀ s, P s → Leads t P (k s) R) :
    Leads t P (MonadState.get >>= k) R := fun s hs => h s hs s hs

/-- One of two readers, by a condition. -/
theorem ite {c : Prop} [Decidable c] {m m' : ReadM α} (hm : c → Leads t P m Q)
    (hm' : ¬ c → Leads t P m' Q) : Leads t P (if c then m else m') Q := by
  by_cases hc : c
  · rw [if_pos hc]
    exact hm hc
  · rw [if_neg hc]
    exact hm' hc

theorem failBack (back : Nat) (cause : Cause) : Leads t P (Pattern.failBack back cause) Q :=
  fun _ _ => trivial

theorem fail (cause : Cause) : Leads t P (Pattern.fail cause) Q := failBack 0 cause

end Leads

namespace Careful

theorem pure (a : α) : Careful t (Pure.pure a) := Leads.pure fun _ h => h

theorem bind {m : ReadM α} {k : α → ReadM β} (hm : Careful t m) (hk : ∀ a, Careful t (k a)) :
    Careful t (m >>= k) := Leads.bind hm hk

/-- A reader whose value the rest has to know something of. -/
theorem bind_of {F : α → Prop} {m : ReadM α} {k : α → ReadM β}
    (hm : Leads t (Sound t) m fun a s => Sound t s ∧ F a) (hk : ∀ a, F a → Careful t (k a)) :
    Careful t (m >>= k) :=
  Leads.bind hm fun a s hs => hk a hs.2 s hs.1

theorem failBack (back : Nat) (cause : Cause) : Careful t (Pattern.failBack back cause : ReadM α) :=
  Leads.failBack back cause

theorem fail (cause : Cause) : Careful t (Pattern.fail cause : ReadM α) := Leads.fail cause

theorem get {k : Reading → ReadM β} (h : ∀ s, Sound t s → Careful t (k s)) :
    Careful t (MonadState.get >>= k) := Leads.get h

theorem set {s : Reading} (h : Sound t s) : Careful t (MonadStateOf.set s : ReadM Unit) :=
  fun _ _ => h

theorem modify {f : Reading → Reading} (h : ∀ s, Sound t s → Sound t (f s)) :
    Careful t (modify f : ReadM Unit) := fun s hs => h s hs

end Careful

/-! ## Tokens one by one -/

/-- A reader that starts from a certain state, which is sound. -/
def From {α : Type} (t : Text) (s₀ : Reading) (m : ReadM α) (Q : α → Reading → Prop) : Prop :=
  Leads t (fun s => s = s₀ ∧ Sound t s) m Q

/-- What is known of a reader from every state is known of it whatever is known of the state. -/
theorem Leads.of_from {P : Reading → Prop} {m : ReadM α} {Q : α → Reading → Prop}
    (hP : ∀ s, P s → Sound t s) (h : ∀ s₀, P s₀ → From t s₀ m Q) : Leads t P m Q :=
  fun s hs => h s hs s ⟨rfl, hP s hs⟩

/-- The state is looked at before the rest, which has to know it. -/
theorem From.get {s₀ : Reading} {k : Reading → ReadM β} {R : β → Reading → Prop}
    (h : From t s₀ (k s₀) R) : From t s₀ (MonadState.get >>= k) R := by
  rintro s ⟨rfl, hs⟩
  exact h s ⟨rfl, hs⟩

theorem From.peek {s₀ : Reading} {k : Option Token → ReadM β} {R : β → Reading → Prop}
    (h : From t s₀ (k s₀.left.head?) R) : From t s₀ (Pattern.peek >>= k) R := by
  rintro s ⟨rfl, hs⟩
  exact h s ⟨rfl, hs⟩

theorem careful_peek : Careful t peek := .get fun _ _ => .pure _

theorem careful_nextIs (c : CodePoint) : Careful t (nextIs c) := .bind careful_peek fun _ => .pure _

theorem careful_tokensLeft : Careful t tokensLeft := .get fun _ _ => .pure _

/-- What is taken was next, and stood in front of what is left. -/
theorem take_spec (s₀ : Reading) : From t s₀ take fun found s =>
    Sound t s ∧ found = s₀.left.head? ∧ s₀.left = found.toList ++ s.left := by
  unfold take
  refine .get ?_
  split
  · rename_i hleft
    refine .pure ?_
    rintro s ⟨rfl, hs⟩
    exact ⟨hs, by rw [hleft]; rfl, by rw [hleft]; rfl⟩
  · rename_i this rest hleft
    dsimp only
    split
    · exact fun _ _ => trivial
    · rintro s ⟨rfl, hs⟩
      have hsound : Sound t { s with left := rest, pos := s.pos + this.length } :=
        ⟨(List.suffix_cons this rest).trans (hleft ▸ hs.left), hs.globals⟩
      exact ⟨hsound, by rw [hleft]; rfl, hleft⟩

theorem careful_take : Careful t take :=
  .of_from (fun _ h => h) fun s _ => (take_spec s).imp (fun _ h => h) fun _ _ h => h.1

/-- A token has just been taken. -/
def After (t : Text) (this : Token) (s : Reading) : Prop :=
  Sound t s ∧ this :: s.left <:+ tokens t

/-- A reader that needs to know the token before it. -/
def CarefulAfter (t : Text) (this : Token) (m : ReadM α) : Prop :=
  Leads t (After t this) m fun _ => Sound t

theorem Careful.after {this : Token} {m : ReadM α} (h : Careful t m) : CarefulAfter t this m :=
  h.imp (fun _ h => h.1) fun _ _ h => h

theorem take_after : Leads t (Sound t) take fun found s =>
    Sound t s ∧ ∀ this, found = some this → After t this s := by
  refine .of_from (fun _ h => h) fun s₀ hs₀ => (take_spec s₀).imp (fun _ h => h) ?_
  rintro _ s ⟨hs, rfl, hleft⟩
  refine ⟨hs, fun this hthis => ⟨hs, ?_⟩⟩
  have hsplit : s₀.left = this :: s.left := by rw [hleft, hthis]; rfl
  exact hsplit ▸ hs₀.left

theorem CarefulAfter.bind {this : Token} {m : ReadM α} {k : α → ReadM β}
    (hm : CarefulAfter t this m) (hk : ∀ a, Careful t (k a)) : CarefulAfter t this (m >>= k) :=
  Leads.bind hm hk

/-- The rest after a token has been taken, if there is one. -/
theorem Careful.take {k : Option Token → ReadM β} (hnone : Careful t (k none))
    (hsome : ∀ this, CarefulAfter t this (k (some this))) : Careful t (Pattern.take >>= k) := by
  refine Leads.bind take_after fun found => ?_
  cases found with
  | none => exact hnone.imp (fun _ h => h.1) fun _ _ h => h
  | some this => exact (hsome this).imp (fun _ h => h.2 this rfl) fun _ _ h => h

/-- A token that is accepted stood in front of what is left. -/
theorem accept_spec (c : CodePoint) (s₀ : Reading) : From t s₀ (accept c) fun yes s =>
    Sound t s ∧ (yes = true → s₀.left = [c] :: s.left) := by
  unfold accept nextIs peek
  refine .get ?_
  show From t s₀ (if (s₀.left.head? == some [c]) = true then _ else _) _
  split
  · rename_i hnext
    refine .bind (take_spec s₀) fun found => .pure ?_
    rintro s ⟨hs, rfl, hleft⟩
    refine ⟨hs, fun _ => ?_⟩
    rw [beq_iff_eq.1 hnext] at hleft
    exact hleft
  · refine .pure ?_
    rintro s ⟨rfl, hs⟩
    exact ⟨hs, fun h => nomatch h⟩

theorem careful_accept (c : CodePoint) : Careful t (accept c) :=
  .of_from (fun _ h => h) fun s _ => (accept_spec c s).imp (fun _ h => h) fun _ _ h => h.1

/-- What is taken of a class stood in front of what is left. -/
theorem takeWhile_spec (ok : CodePoint → Bool) (bound : Nat) :
    ∀ s₀, From t s₀ (takeWhile ok bound) fun cs s =>
      Sound t s ∧ cs.all ok = true ∧ s₀.left = cs.map (fun c => [c]) ++ s.left := by
  induction bound with
  | zero =>
      intro s₀
      refine .pure ?_
      rintro s ⟨rfl, hs⟩
      exact ⟨hs, rfl, rfl⟩
  | succ bound ih =>
      intro s₀
      have hnone : From t s₀ (Pure.pure [] : ReadM Text) fun cs s =>
          Sound t s ∧ cs.all ok = true ∧ s₀.left = cs.map (fun c => [c]) ++ s.left := by
        refine .pure ?_
        rintro s ⟨rfl, hs⟩
        exact ⟨hs, rfl, rfl⟩
      unfold takeWhile
      refine .peek ?_
      split
      · rename_i c hnext
        split
        · rename_i hc
          refine .bind (take_spec s₀) fun found => ?_
          rintro s ⟨hs, rfl, hleft⟩
          rw [hnext] at hleft
          refine Leads.bind (ih s) (fun cs => Leads.pure ?_) s ⟨rfl, hs⟩
          rintro s' ⟨hs', hall, hrest⟩
          refine ⟨hs', ?_, ?_⟩
          · rw [List.all_cons, hc, hall]
            rfl
          · rw [hleft, hrest]
            rfl
        · exact hnone
      · exact hnone

theorem careful_takeWhile (ok : CodePoint → Bool) (bound : Nat) : Careful t (takeWhile ok bound) :=
  .of_from (fun _ h => h) fun s _ => (takeWhile_spec ok bound s).imp (fun _ h => h) fun _ _ h => h.1

theorem careful_takeName (terminator : CodePoint) (what : Text) (bound : Nat) :
    ∀ before, Careful t (takeName terminator what bound before) := by
  induction bound with
  | zero => exact fun _ => .fail _
  | succ bound ih =>
      intro before
      unfold takeName
      refine .bind careful_take fun found => ?_
      split
      · split
        · exact .fail _
        · exact .failBack _ _
      · split
        · split
          · exact .failBack _ _
          · exact .pure _
        · exact ih _

/-! ## Escapes and sets -/

/-- Only the longest of the escapes by hexadecimal digits can have a number past the limit. -/
theorem longEscape_of_limit {c : CodePoint} {digits : Text}
    (hlength : hexEscapeLength? c = some digits.length)
    (hlimit : numberLimit ≤ Text.hexValue digits) : c = 85 ∧ digits.length = 8 := by
  have hbound : numberLimit < Nat.pow 16 digits.length :=
    Nat.lt_of_le_of_lt hlimit (hexValue_lt digits)
  have hfour : 4 < digits.length := by
    refine Nat.not_le.1 fun hshort => ?_
    have hpow : Nat.pow 16 digits.length ≤ Nat.pow 16 4 :=
      Nat.pow_le_pow_right (by decide) hshort
    exact absurd (Nat.lt_of_lt_of_le hbound hpow) (by decide)
  unfold hexEscapeLength? at hlength
  split at hlength
  · have := Option.some.inj hlength
    omega
  · split at hlength
    · have := Option.some.inj hlength
      omega
    · split at hlength
      · rename_i hc
        exact ⟨beq_iff_eq.1 hc, (Option.some.inj hlength).symm⟩
      · cases hlength

theorem careful_readNumberedEscape? (c : CodePoint) :
    CarefulAfter t [92, c] (readNumberedEscape? c) := by
  unfold readNumberedEscape?
  split
  · rename_i n hn
    refine .of_from (fun _ h => h.1) fun s₀ h₀ => ?_
    refine .bind (takeWhile_spec isHexDigit n s₀) fun digits => ?_
    dsimp only
    split
    · exact .failBack _ _
    rename_i hlength
    have hlength : hexEscapeLength? c = some digits.length := by
      simp only [bne_iff_ne, ne_eq, Decidable.not_not] at hlength
      rw [hlength, hn]
    split
    · rename_i hlimit
      obtain ⟨rfl, height⟩ := longEscape_of_limit hlength hlimit
      rintro s ⟨-, hall, hleft⟩
      refine ⟨digits, ⟨height, hall, ?_⟩, hlimit⟩
      exact List.IsInfix.trans ⟨[], s.left, by rw [hleft]; rfl⟩ h₀.2.isInfix
    · split
      · exact .failBack _ _
      · exact .pure fun _ h => h.1
  · refine Careful.after ?_
    split
    · refine .bind (careful_accept _) fun yes => ?_
      split
      · exact .fail _
      refine .bind careful_tokensLeft fun n => .bind (careful_takeName _ _ _ _) fun name => ?_
      split
      · exact .failBack _ _
      · refine .get fun s _ => ?_
        split
        · exact .pure _
        · exact .failBack _ _
    · exact .pure _

theorem careful_readPlainEscape (c : CodePoint) : Careful t (readPlainEscape c) := by
  unfold readPlainEscape
  split
  · exact .failBack _ _
  · exact .pure _

theorem careful_readSetEscape (c : CodePoint) : CarefulAfter t [92, c] (readSetEscape c) := by
  unfold readSetEscape
  split
  · exact Careful.after (.pure _)
  · exact Careful.after (.pure _)
  · refine CarefulAfter.bind (careful_readNumberedEscape? c) fun v => ?_
    split
    · exact .pure _
    · split
      · refine .bind (careful_takeWhile _ _) fun more => ?_
        dsimp only
        split
        · exact .failBack _ _
        · exact .pure _
      · split
        · exact .failBack _ _
        · exact .bind (careful_readPlainEscape c) fun _ => .pure _

theorem careful_isClosed (number : Nat) : Careful t (isClosed number) := by
  unfold isClosed
  refine .get fun s _ => ?_
  split <;> exact .pure _

theorem careful_checkBehind (number : Nat) : Careful t (checkBehind number) := by
  unfold checkBehind
  refine .get fun s _ => ?_
  split
  · exact .pure _
  · refine .bind (careful_isClosed number) fun yes => ?_
    split
    · exact .fail _
    · split
      · exact .fail _
      · exact .pure _

theorem careful_again (f : Flags) (number : Nat) : Careful t (f.again number) :=
  .get fun _ _ => .pure _

theorem careful_readDigitEscape (f : Flags) (c : CodePoint) : Careful t (readDigitEscape f c) := by
  unfold readDigitEscape
  refine .bind (careful_takeWhile _ _) fun second => ?_
  extract_lets octal rest
  have hrest : ∀ third, Careful t (rest third) := by
    intro third
    unfold rest
    dsimp only
    split
    · split
      · exact .failBack _ _
      · exact .pure _
    · refine .get fun s _ => ?_
      split
      · refine .bind (careful_isClosed _) fun yes => ?_
        split
        · exact .failBack _ _
        · exact .bind (careful_checkBehind _) fun _ => careful_again f _
      · exact .failBack _ _
  split
  · exact .bind (careful_takeWhile _ _) hrest
  · exact .bind (.pure _) hrest

theorem careful_readEscape (f : Flags) (c : CodePoint) :
    CarefulAfter t [92, c] (readEscape f c) := by
  unfold readEscape
  iterate 4
    split
    · exact Careful.after (.pure _)
  split
  · exact Careful.after (.pure _)
  · exact Careful.after (.pure _)
  · refine CarefulAfter.bind (careful_readNumberedEscape? c) fun v => ?_
    split
    · exact .pure _
    · split
      · exact .bind (careful_takeWhile _ _) fun _ => .pure _
      · split
        · exact .bind (careful_readDigitEscape f c) fun _ => .pure _
        · exact .bind (careful_readPlainEscape c) fun _ => .pure _

theorem careful_readItem (this : Token) : CarefulAfter t this (readItem this) := by
  unfold readItem
  split
  · exact careful_readSetEscape _
  · exact Careful.after (.pure _)
  · exact .fail _

theorem careful_readItems (opened bound : Nat) :
    ∀ items, Careful t (readItems opened bound items) := by
  induction bound with
  | zero => exact fun _ => .pure _
  | succ bound ih =>
      intro items
      have hunterminated : Careful t (do
          failBack ((← get).pos - opened) .unterminatedSet : ReadM (List Item)) :=
        .get fun _ _ => .failBack _ _
      unfold readItems
      refine .take hunterminated fun this => ?_
      dsimp only
      split
      · exact Careful.after (.pure _)
      · refine CarefulAfter.bind (careful_readItem _) fun first => ?_
        refine .bind (careful_accept _) fun yes => ?_
        split
        · exact ih _
        · refine .take hunterminated fun that => ?_
          dsimp only
          split
          · exact Careful.after (.pure _)
          · refine CarefulAfter.bind (careful_readItem _) fun last => ?_
            split
            · split
              · exact .failBack _ _
              · exact ih _
            · exact .failBack _ _

theorem careful_readSet (f : Flags) : Careful t (readSet f) := by
  unfold readSet
  refine .get fun s _ => ?_
  refine .bind (careful_accept _) fun negated => ?_
  refine .bind careful_tokensLeft fun n => ?_
  exact .bind (careful_readItems _ _ _) fun items => .pure _

/-! ## Repetitions -/

theorem takeDigits_spec (bound : Nat) :
    Leads t (Sound t) (takeWhile Text.isAsciiDigit bound) fun cs s => Sound t s ∧ Digits t cs := by
  refine .of_from (fun _ h => h) fun s₀ hs₀ => (takeWhile_spec _ bound s₀).imp (fun _ h => h) ?_
  rintro cs s ⟨hs, hall, hleft⟩
  refine ⟨hs, hall, ?_⟩
  have htokens : cs.map (fun c => [c]) <:+: tokens t :=
    List.IsInfix.trans ⟨[], s.left, hleft.symm⟩ hs₀.left.isInfix
  exact flatten_map_singleton cs ▸ infix_of_tokens htokens

/-- A count is refused for its digits, or for the number that they denote. -/
theorem careful_readCount {digits : Text} (h : Digits t digits) : Careful t (readCount digits) := by
  unfold readCount
  split
  · rename_i hmany
    exact fun _ _ => ⟨hmany, digits, rfl, h.1, h.2⟩
  · dsimp only
    split
    · rename_i hlarge
      exact fun _ _ => ⟨digits, h, hlarge⟩
    · exact .pure _

theorem careful_readCounts? : Careful t readCounts? := by
  unfold readCounts?
  refine .get fun saved hsaved => ?_
  refine .bind (careful_nextIs _) fun yes => ?_
  split
  · exact .pure _
  refine .bind careful_tokensLeft fun bound => ?_
  refine .bind_of (takeDigits_spec bound) fun lo hlo => ?_
  refine .bind careful_tokensLeft fun bound => ?_
  refine .bind (careful_accept _) fun comma => ?_
  extract_lets rest
  have hrest : ∀ hi, Digits t hi → Careful t (rest hi) := by
    intro hi hhi
    unfold rest
    refine .bind (careful_accept _) fun closed => ?_
    split
    · exact .bind (.set hsaved) fun _ => .pure _
    extract_lets most
    have hmost : ∀ least, Careful t (most least) := by
      intro least
      unfold most
      split
      · exact .pure _
      · refine .bind (careful_readCount hhi) fun n => ?_
        split
        · exact .get fun _ _ => .failBack _ _
        · exact .pure _
    split
    · exact .bind (.pure _) hmost
    · exact .bind (careful_readCount hlo) hmost
  split
  · exact .bind_of (takeDigits_spec bound) hrest
  · exact .bind_of (.pure fun s hs => ⟨hs, hlo⟩) hrest

theorem careful_readRounds? (sign : CodePoint) : Careful t (readRounds? sign) := by
  unfold readRounds?
  iterate 3
    split
    · exact .pure _
  exact careful_readCounts?

theorem careful_readGreed : Careful t readGreed := by
  unfold readGreed
  refine .bind (careful_accept _) fun lazily => ?_
  split
  · exact .pure _
  · refine .bind (careful_accept _) fun possessive => ?_
    split <;> exact .pure _

theorem careful_repeatLast (opened least : Nat) (most : Option Nat) (parts : List Part) :
    Careful t (repeatLast opened least most parts) := by
  unfold repeatLast
  refine .get fun s _ => ?_
  dsimp only
  split
  · exact .failBack _ _
  · split
    · exact .failBack _ _
    · exact .failBack _ _
    · exact .bind careful_readGreed fun _ => .pure _

/-! ## Groups -/

theorem careful_openGroup (name : Option Text) : Careful t (openGroup name) := by
  unfold openGroup
  refine .get fun s hs => ?_
  dsimp only
  split
  · exact .bind (.set ⟨hs.left, hs.globals⟩) fun _ => .pure _
  · split
    · exact .failBack _ _
    · exact .bind (.set ⟨hs.left, hs.globals⟩) fun _ => .pure _

theorem careful_closeGroup (number : Nat) (w : Width) : Careful t (closeGroup number w) :=
  .modify fun _ hs => ⟨hs.left, hs.globals⟩

theorem careful_checkName (name : Text) : Careful t (checkName name) := by
  unfold checkName
  split
  · exact .pure _
  · exact .failBack _ _

theorem careful_closing (opened : Nat) : Careful t (closing opened) := by
  unfold closing
  refine .bind (careful_accept _) fun yes => ?_
  split
  · exact .get fun _ _ => .failBack _ _
  · exact .pure _

theorem careful_skipComment (opened bound : Nat) : Careful t (skipComment opened bound) := by
  induction bound with
  | zero => exact .pure _
  | succ bound ih =>
      unfold skipComment
      refine .bind careful_peek fun next => ?_
      split
      · exact .get fun _ _ => .failBack _ _
      · refine .bind careful_take fun this => ?_
        split
        · exact .pure _
        · exact ih

theorem careful_skipLine (bound : Nat) : Careful t (skipLine bound) := by
  induction bound with
  | zero => exact .pure _
  | succ bound ih =>
      unfold skipLine
      refine .bind careful_take fun this => ?_
      split
      · exact .pure _
      · split
        · exact .pure _
        · exact ih

theorem careful_readCondition : Careful t readCondition := by
  unfold readCondition
  refine .bind careful_tokensLeft fun n => ?_
  refine .bind (careful_takeName _ _ _ _) fun name => ?_
  dsimp only
  split
  · refine .get fun s _ => ?_
    split
    · exact .pure _
    · exact .failBack _ _
  · split
    · split
      · exact .failBack _ _
      · split
        · exact .failBack _ _
        · refine .bind (.modify fun s hs => ?_) fun _ => .pure _
          split
          · exact hs
          · exact ⟨hs.left, hs.globals⟩
    · exact .failBack _ _

end LiteralLint.Pattern
