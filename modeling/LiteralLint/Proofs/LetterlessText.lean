import LiteralLint.Configuration

/-!
# Texts without letters

The baseline pattern is meant for texts without letters. It repeats one set of characters from the
start of a text to its end, so it matches just if all characters belong to the set: one that does not
is left over wherever the repetition stops.

The set is put together from what is no word and what is a digit. Words are made of letters and of all
numerals, and digits are the decimal ones only. So a fraction, a superscript or a Roman numeral is no
letter and does not belong to the set either, and a text with one of them is not exempt.

That a decimal digit is no letter is a fact about two tables of boundaries. The runs of one lie in the
gaps of the other, which is checked run by run.

## Main definitions

* `Text.Letterless`, `Text.Decimal`, `Text.Constant`: the texts in question.
* `Text.Boundaries.avoids`: the runs of one table lie in the gaps of another.
* `Pattern.only`: the characters of a set and nothing else.
* `Pattern.letterless`: the set of the baseline pattern.

## Main results

* `Pattern.search_only`: when a repeated set matches.
* `Pattern.holds_letterless`: what the set of the baseline pattern has.
* `Configuration.exemptsValue_strip`: **which texts are exempt under the default options**.
-/

namespace LiteralLint

namespace Text

/-- None of the characters is a letter, in any script. -/
def Letterless (t : Text) : Prop := ∀ x ∈ t, isLetter x = false

/-- The only numerals are decimal digits. -/
def Decimal (t : Text) : Prop := ∀ x ∈ t, isNumeral x = true → isDigit x = true

/-- All characters are those of constants: `A` to `Z`, `0` to `9`, underscores and hyphens. -/
def Constant (t : Text) : Prop :=
  ∀ x : Nat, x ∈ t → 65 ≤ x ∧ x ≤ 90 ∨ 48 ≤ x ∧ x ≤ 57 ∨ x = 95 ∨ x = 45

end Text

/-! ## Tables of boundaries -/

namespace Text.Boundaries

/-- The code points from `first` on and before `stop` lie in a gap; `inside` says whether the table
starts within a run. -/
def avoidsRun (inside : Bool) (first stop : CodePoint) : Boundaries → Bool
  | [] => !inside
  | b :: rest =>
    if first < b then !inside && decide (stop ≤ b) else avoidsRun (!inside) first stop rest

theorem holdsFrom_of_avoidsRun {first stop c : Nat} (hfirst : first ≤ c) (hstop : c < stop) :
    ∀ {bs : Boundaries} {inside : Bool}, avoidsRun inside first stop bs = true →
      holdsFrom inside bs c = false
  | [], inside, h => by simpa [avoidsRun, holdsFrom] using h
  | b :: bs, inside, h => by
      rw [avoidsRun] at h
      rw [holdsFrom]
      split at h
      · rename_i hb
        simp only [Bool.and_eq_true, Bool.not_eq_true', decide_eq_true_eq] at h
        rw [if_pos (Nat.lt_of_lt_of_le hstop h.2), h.1]
      · rename_i hb
        rw [if_neg (Nat.not_lt.2 (Nat.le_trans (Nat.le_of_not_lt hb) hfirst))]
        exact holdsFrom_of_avoidsRun hfirst hstop h

/-- All runs of the second table lie in gaps of the first. -/
def avoids (bs : Boundaries) : Boundaries → Bool
  | [] => true
  | [_] => false
  | first :: stop :: rest => avoidsRun false first stop bs && avoids bs rest

/-- **No code point is in both tables.** -/
theorem holds_of_avoids {bs : Boundaries} {c : Nat} :
    ∀ {ds : Boundaries}, avoids bs ds = true → ds.holds c = true → bs.holds c = false
  | [], _, hc => by cases hc
  | [_], h, _ => by cases h
  | first :: stop :: ds, h, hc => by
      rw [avoids, Bool.and_eq_true] at h
      rw [holds, holdsFrom, Bool.not_false, holdsFrom] at hc
      split at hc
      · cases hc
      · rename_i hfirst
        split at hc
        · rename_i hstop
          exact holdsFrom_of_avoidsRun (Nat.le_of_not_lt hfirst) hstop h.1
        · exact holds_of_avoids h.2 hc

end Text.Boundaries

/-- A decimal digit is no letter. -/
theorem Text.isLetter_of_isDigit {c : Nat} (h : isDigit c = true) : isLetter c = false := by
  have havoids : Boundaries.avoids letterBoundaries digitBoundaries = true := by decide +kernel
  exact Boundaries.holds_of_avoids havoids h

/-! ## One set, repeated -/

namespace Pattern

/-- Characters of a set from the start to the end, where a line feed may be left over. -/
def only (s : Charset) : Pattern :=
  .seq (.anchor .textStart)
    (.seq (.rounds .greedy 0 none (.chars s)) (.anchor .finalLineEnd))

theorem isSome_orElse {first : Option Cursor} {second : Unit → Option Cursor} :
    (orElse first second).isSome = true ↔ first.isSome = true ∨ (second ()).isSome = true := by
  cases first <;> simp [orElse]

theorem after_forward (k : Cursor) (n : Nat) : (k.forward n).after = k.after.drop n := by
  induction n generalizing k with
  | zero => rfl
  | succ n ih =>
      rw [Cursor.forward]
      cases hafter : k.after with
      | nil => rw [hafter, List.drop_nil]
      | cons c rest => rw [ih, List.drop_succ_cons]

/-- One round of a repetition, which has to make progress. -/
theorem greedyRounds_succ {body : Step} {next : Cursor → Option Cursor} {bound count : Nat}
    {last : Option Nat} {k : Cursor} (hlast : last ≠ some k.pos) :
    greedyRounds body 0 none next (bound + 1) count last k =
      orElse (body k (greedyRounds body 0 none next bound (count + 1) (some k.pos)))
        fun _ => next k := by
  rw [greedyRounds, if_neg (Nat.not_lt_zero count), if_pos (by simp [belowMost, hlast])]

theorem run_chars_cons {s : Charset} {c : CodePoint} {before t : Text} {pos : Nat}
    {groups : List (Nat × Text)} {next : Cursor → Option Cursor} :
    run (.chars s) ⟨before, c :: t, pos, groups⟩ next =
      if s.holds c then next ⟨c :: before, t, pos + 1, groups⟩ else none :=
  rfl

/-- A repeated set can stop after any number of characters, all of which are in the set. The bound on
the rounds is never reached, since each round reads a character. -/
theorem isSome_greedyRounds {s : Charset} {next : Cursor → Option Cursor} {t before : Text}
    {groups : List (Nat × Text)} {bound count pos : Nat} {last : Option Nat}
    (hbound : t.length ≤ bound) (hlast : last ≠ some pos) :
    (greedyRounds (run (.chars s)) 0 none next (bound + 1) count last
        ⟨before, t, pos, groups⟩).isSome = true ↔
      ∃ n, (∀ c ∈ t.take n, s.holds c = true) ∧
        (next (Cursor.forward ⟨before, t, pos, groups⟩ n)).isSome = true := by
  induction t generalizing bound count before pos last with
  | nil =>
      have hstay : ∀ n, Cursor.forward ⟨before, [], pos, groups⟩ n = ⟨before, [], pos, groups⟩ := by
        intro n
        cases n <;> rfl
      rw [greedyRounds_succ hlast, isSome_orElse]
      simp [run, hstay]
  | cons c t ih =>
      obtain ⟨bound, rfl⟩ : ∃ b, bound = b + 1 :=
        Nat.exists_eq_add_one.2 (Nat.lt_of_lt_of_le (Nat.zero_lt_succ t.length) hbound)
      have hprogress : some pos ≠ some (pos + 1) := by simp
      have hrest := @ih (c :: before) bound (count + 1) (pos + 1) (some pos)
        (Nat.le_of_succ_le_succ hbound) hprogress
      rw [greedyRounds_succ hlast, isSome_orElse, run_chars_cons]
      constructor
      · rintro (hmore | hstop)
        · split at hmore
          · rename_i hc
            obtain ⟨n, hall, hn⟩ := hrest.1 hmore
            exact ⟨n + 1, List.forall_mem_cons.2 ⟨hc, hall⟩, hn⟩
          · cases hmore
        · exact ⟨0, fun c hc => absurd hc List.not_mem_nil, hstop⟩
      · rintro ⟨n, hall, hn⟩
        cases n with
        | zero => exact .inr hn
        | succ n =>
            obtain ⟨hc, hall⟩ := List.forall_mem_cons.1 hall
            rw [if_pos hc]
            exact .inl (hrest.2 ⟨n, hall, hn⟩)

/-- An anchored pattern is not tried after the first character. -/
theorem searchFrom_anchored {p : Pattern} {c : CodePoint} {before t : Text} {pos : Nat} :
    searchFrom (.seq (.anchor .textStart) p) (c :: before) pos t = false := by
  induction t generalizing c before pos with
  | nil => rfl
  | cons d t ih =>
      rw [searchFrom, ih, Bool.or_false]
      rfl

theorem search_anchored {p : Pattern} {t : Text} :
    search (.seq (.anchor .textStart) p) t = (run p (.start t) some).isSome := by
  cases t with
  | nil => rfl
  | cons c t =>
      rw [search, searchFrom, searchFrom_anchored, Bool.or_false]
      rfl

theorem isSome_run_finalLineEnd {k : Cursor} :
    (run (.anchor .finalLineEnd) k some).isSome = true ↔ k.after = [] ∨ k.after = [10] := by
  rw [run, Anchor.holds]
  split
  · simp_all
  · simp_all

/-- **When a repeated set matches.** A line feed that is left over has to be in the set, too. -/
theorem search_only {s : Charset} (hfeed : s.holds 10 = true) {t : Text} :
    (only s).search t = true ↔ ∀ c ∈ t, s.holds c = true := by
  have hrounds : (only s).search t = true ↔ ∃ n, (∀ c ∈ t.take n, s.holds c = true) ∧
      (t.drop n = [] ∨ t.drop n = [10]) := by
    rw [only, search_anchored]
    have hbound : t.length ≤ 0 + t.length + 1 := by omega
    have hlast : none ≠ some 0 := nofun
    refine (isSome_greedyRounds hbound hlast).trans ?_
    simp only [isSome_run_finalLineEnd, after_forward]
  rw [hrounds]
  constructor
  · rintro ⟨n, htake, hdrop⟩ c hc
    rw [← List.take_append_drop n t, List.mem_append] at hc
    rcases hc with hc | hc
    · exact htake c hc
    · rcases hdrop with hdrop | hdrop
      · rw [hdrop] at hc
        cases hc
      · rw [hdrop] at hc
        rw [List.mem_singleton.1 hc, hfeed]
  · intro hall
    exact ⟨t.length, by rwa [List.take_length], .inl List.drop_length⟩

/-! ## The baseline pattern -/

/-- What is no word, decimal digits, and the underscore. -/
def letterless : Charset where
  negated := false
  items := [.category .word true, .category .digit false, .one 95]
  folding := .exact
  narrow := false

section

variable (characters : CharacterNames)

/-- What reading knows while there are no groups, with some tokens left. -/
def Reading.midway (left : List Token) (pos : Nat) : Reading :=
  ⟨characters, left, pos, [], [], none, [], {}⟩

theorem run_readSet_letterless :
    (readSet {}).run (.midway characters [[92, 87], [92, 100], [95], [93], [42], [36]] 2) =
      .ok (.chars letterless, .midway characters [[42], [36]] 8) := rfl

-- One step of reading is computed at a time: the state is not evaluated before it is used, so the
-- term for a few steps at once is too large.
section

variable (bound : Nat) (parts : List Part)

theorem run_readSequence_start :
    (readSequence (bound + 1) true {} []).run
        (.midway characters [[94], [91], [92, 87], [92, 100], [95], [93], [42], [36]] 0) =
      (readSequence bound true {} [⟨.anchor .textStart, .anchor⟩]).run
        (.midway characters [[91], [92, 87], [92, 100], [95], [93], [42], [36]] 1) := rfl

theorem run_readSequence_set :
    (readSequence (bound + 1) true {} parts).run
        (.midway characters [[91], [92, 87], [92, 100], [95], [93], [42], [36]] 1) =
      (readSequence bound true {} (parts ++ [⟨.chars letterless, .other⟩])).run
        (.midway characters [[42], [36]] 8) := by
  have hset : (readSequence (bound + 1) true {} parts).run
      (.midway characters [[91], [92, 87], [92, 100], [95], [93], [42], [36]] 1) =
      ((readSet {}).run (.midway characters [[92, 87], [92, 100], [95], [93], [42], [36]] 2)).bind
        fun x => (readSequence bound true {} (parts ++ [⟨x.1, .other⟩])).run x.2 := rfl
  rw [hset, run_readSet_letterless]
  rfl

theorem run_readSequence_rounds (p : Pattern) :
    (readSequence (bound + 1) true {} [⟨.anchor .textStart, .anchor⟩, ⟨p, .other⟩]).run
        (.midway characters [[42], [36]] 8) =
      (readSequence bound true {} [⟨.anchor .textStart, .anchor⟩,
        ⟨.rounds .greedy 0 none p, .rounds⟩]).run (.midway characters [[36]] 9) := rfl

theorem run_readSequence_end :
    (readSequence (bound + 2) true {} parts).run (.midway characters [[36]] 9) =
      .ok (sequence (parts ++ [⟨.anchor .finalLineEnd, .anchor⟩]), .midway characters [] 10) := rfl

theorem run_readSequence_noLetters :
    (readSequence (bound + 5) true {} []).run
        (.midway characters [[94], [91], [92, 87], [92, 100], [95], [93], [42], [36]] 0) =
      .ok (only letterless, .midway characters [] 10) := by
  rw [run_readSequence_start, run_readSequence_set]
  exact (run_readSequence_rounds characters _ _).trans (run_readSequence_end characters _ _)

end

variable {characters} {s : Reading} {p : Pattern} {pos : Nat}

theorem run_readAlternation {bound : Nat}
    (h : (readSequence bound true {} []).run s = .ok (p, .midway characters [] pos)) :
    (readAlternation (bound + 1) true {} []).run s = .ok (p, .midway characters [] pos) := by
  show ((readSequence bound true {} []).run s).bind _ = _
  rw [h]
  rfl

theorem run_readAll {t : Text} {set : Charset}
    (h : (readAlternation (4 * t.length + 8) true {} []).run s =
      .ok (only set, .midway characters [] pos))
    (hfirst : s.left.head? ≠ some [92]) :
    (readAll t).run s = .ok (only set, .midway characters [] pos) := by
  have hpeek : peek.run s = .ok (s.left.head?, s) := rfl
  unfold readAll
  rw [StateT.run_bind, hpeek]
  dsimp only [bind, Except.bind]
  rw [if_neg (mt beq_iff_eq.1 hfirst)]
  show ((readAlternation (4 * t.length + 8) true {} []).run s).bind _ = _
  rw [h]
  rfl

end

theorem read_noLetters (characters : CharacterNames) :
    Pattern.read characters Baseline.noLetters = .ok (only letterless) := by
  have htokens : tokens Baseline.noLetters =
      [[94], [91], [92, 87], [92, 100], [95], [93], [42], [36]] := by decide +kernel
  have hstart : Reading.start characters Baseline.noLetters = .midway characters
      [[94], [91], [92, 87], [92, 100], [95], [93], [42], [36]] 0 := by
    rw [Reading.start, htokens]
    rfl
  have hbound : 4 * Baseline.noLetters.length + 8 = 42 + 5 + 1 := by decide
  have hfirst : some ([94] : Token) ≠ some [92] := by decide
  have halternation :
      (readAlternation (4 * Baseline.noLetters.length + 8) true {} []).run
        (.midway characters [[94], [91], [92, 87], [92, 100], [95], [93], [42], [36]] 0) =
        .ok (only letterless, .midway characters [] 10) := by
    rw [hbound]
    exact run_readAlternation (run_readSequence_noLetters characters 42)
  unfold read
  rw [hstart, run_readAll halternation hfirst]
  rfl

/-- The set has what is no letter, and of the numerals the decimal digits only. -/
theorem holds_letterless {c : Nat} :
    letterless.holds c = true ↔
      Text.isLetter c = false ∧ (Text.isNumeral c = true → Text.isDigit c = true) := by
  have hunderscore : Text.isLetter 95 = false ∧ Text.isNumeral 95 = false := by decide
  have hset : letterless.holds c = (!Text.isWord c || Text.isDigit c || c == 95) := by
    simp [letterless, Charset.holds, Charset.holdsSome, Item.holds, Category.holds, Bool.or_assoc]
  rw [hset, Text.isWord, Text.isAlphanumeric]
  by_cases hc : c = 95
  · rw [hc]
    simp [hunderscore]
  · cases hdigit : Text.isDigit c with
    | true => simp [Text.isLetter_of_isDigit hdigit]
    | false => simp [hc]

end Pattern

namespace Configuration

theorem compile_default (characters : Pattern.CharacterNames) :
    ∃ c, compile characters {} = .ok c ∧
      ∀ t, c.matchesValue t = (Pattern.only Pattern.letterless).search t := by
  unfold compile
  rw [readPatterns, Pattern.read_noLetters]
  exact ⟨_, rfl, fun t => Bool.or_false _⟩

theorem search_letterless {t : Text} :
    (Pattern.only Pattern.letterless).search t = true ↔ t.Letterless ∧ t.Decimal := by
  rw [Pattern.search_only (by decide)]
  simp only [Pattern.holds_letterless, Text.Letterless, Text.Decimal, forall_and]

theorem constant_iff {t : Text} :
    t.Constant ↔ t.isEmpty = true ∨ Baseline.isUpperCase t = true := by
  cases t with
  | nil => simp [Text.Constant]
  | cons x t => simp [Text.Constant, Baseline.isUpperCase, Text.isAsciiDigit, or_assoc]

/-- **Which texts are exempt under the default options**: those without letters whose numerals are
decimal digits, and the constants. So a text is exempt just if it is letterless or a constant, except
for the letterless texts with other numerals. -/
theorem exemptsValue_strip (characters : Pattern.CharacterNames) (t : Text) :
    ∃ c, compile characters {} = .ok c ∧
      (c.exemptsValue t.strip = true ↔
        t.strip.Letterless ∧ t.strip.Decimal ∨ t.strip.Constant) ∧
      ((c.exemptsValue t.strip = true ↔ t.strip.Letterless ∨ t.strip.Constant) ↔
        (t.strip.Letterless → t.strip.Decimal ∨ t.strip.Constant)) := by
  obtain ⟨c, hc, hmatches⟩ := compile_default characters
  have hexempt : c.exemptsValue t.strip = true ↔
      t.strip.Letterless ∧ t.strip.Decimal ∨ t.strip.Constant := by
    rw [exemptsValue, hmatches, Bool.or_eq_true, Bool.or_eq_true, search_letterless, constant_iff,
      or_comm]
  refine ⟨c, hc, hexempt, ?_⟩
  rw [hexempt]
  constructor
  · intro h hletterless
    exact (h.2 (.inl hletterless)).imp_left And.right
  · intro h
    refine ⟨Or.imp_left And.left, ?_⟩
    rintro (hletterless | hconstant)
    · exact (h hletterless).imp_left fun hdecimal => ⟨hletterless, hdecimal⟩
    · exact .inr hconstant

/-- The sign for one half is no letter, and a text of this sign is not exempt. -/
theorem exemptsValue_half :
    ∃ c, compile Pattern.unnamed {} = .ok c ∧ (Text.strip [0xBD]).Letterless ∧
      c.exemptsValue (Text.strip [0xBD]) = false := by
  obtain ⟨c, hc, hmatches⟩ := compile_default Pattern.unnamed
  have hletterless : ∀ x ∈ Text.strip [0xBD], Text.isLetter x = false := by decide
  refine ⟨c, hc, hletterless, ?_⟩
  rw [exemptsValue, hmatches]
  decide

end Configuration

end LiteralLint
