import LiteralLint.Json.Reader

/-!
# What a JSON reader leaves

Every reader of a part of a JSON text takes from its front, so what it leaves is a final segment of
what it was given. The only fault that is not about the form of the text is a numeral with more
digits than are converted, and since readers look at nothing but the text, these digits stand in it
next to each other.

## Main definitions

* `Text.HasDigits`: digits that stand in a text next to each other.
* `Json.Reads`: what a reader may do with a text.

## Main results

* `Json.reads_readValue`: the readers of values, members and items.
* `Json.hasDigits_of_read`: **a text is refused for its digits only if it has them**.
-/

namespace LiteralLint

namespace Text

/-- So many digits stand in a text next to each other. -/
def HasDigits (n : Nat) (t : Text) : Prop :=
  ∃ digits : Text, digits.length = n ∧ digits.all isAsciiDigit = true ∧ digits <:+: t

theorem HasDigits.mono {n : Nat} {s t : Text} (h : HasDigits n s) (hst : s <:+: t) :
    HasDigits n t := by
  obtain ⟨digits, hlength, hall, hinfix⟩ := h
  exact ⟨digits, hlength, hall, hinfix.trans hst⟩

/-! ## Numerals of digits -/

/-- An ASCII text without blanks is plain. -/
theorem plainDigits_of_ascii {t : Text} (h : ∀ c : Nat, c ∈ t → 32 < c ∧ c < 128) :
    plainDigits t = t := by
  refine (List.map_congr_left (g := id) fun (c : Nat) hc => ?_).trans (List.map_id t)
  obtain ⟨hlow, hhigh⟩ := h c hc
  have hnot : ¬ c ≤ 13 := by omega
  rw [if_pos hhigh]
  simp [hnot]

theorem stripOf_of_forall {drop : CodePoint → Bool} {t : Text} (h : ∀ c ∈ t, drop c = false) :
    stripOf drop t = t := by
  have hfront : ∀ s : Text, (∀ c ∈ s, drop c = false) → s.dropWhile drop = s := by
    intro s hs
    cases s with
    | nil => rfl
    | cons c s => rw [List.dropWhile_cons_of_neg (by simp [hs c (by simp)])]
  rw [stripOf, hfront t h, hfront t.reverse fun c hc => h c (List.mem_reverse.1 hc),
    List.reverse_reverse]

/-- Digits are the digits of a numeral, as many as they are. -/
theorem numeralDigits?_of_digits {t : Text} (hne : t ≠ []) (h : t.all isAsciiDigit = true) :
    ∃ ds, numeralDigits? 10 t = some ds ∧ ds.length = t.length := by
  have hdigit : ∀ {c : Nat}, isAsciiDigit c = true → ∃ d, digitIn? 10 c = some d := by
    intro c hc
    obtain ⟨hlow, hhigh⟩ : 48 ≤ c ∧ c ≤ 57 := by simpa [isAsciiDigit] using hc
    have hsmall : c - 48 < 10 := by omega
    exact ⟨c - 48, by simp [digitIn?, hc, hsmall]⟩
  induction t with
  | nil => exact absurd rfl hne
  | cons c t ih =>
      obtain ⟨hc, ht⟩ : isAsciiDigit c = true ∧ t.all isAsciiDigit = true := by
        simpa only [List.all_cons, Bool.and_eq_true] using h
      obtain ⟨d, hd⟩ := hdigit hc
      cases t with
      | nil => exact ⟨[d], by rw [numeralDigits?, hd]; rfl, rfl⟩
      | cons c' rest =>
          obtain ⟨ds, hds, hlength⟩ := ih (by simp) ht
          have hne95 : c' ≠ 95 := by
            rintro rfl
            simp [isAsciiDigit] at ht
          refine ⟨d :: ds, ?_, by rw [List.length_cons, hlength]; rfl⟩
          rw [numeralDigits?]
          · rw [hd, hds]
            rfl
          · rintro rfl
            exact hne95 rfl

theorem readMagnitude_eq_tooManyDigits {digits : Text} (h : digits.all isAsciiDigit = true)
    {n : Nat} (hread : readMagnitude .ten digits = .error (.tooManyDigits n)) :
    digits.length = n ∧ decimalDigitLimit < n := by
  unfold readMagnitude at hread
  rw [if_neg (by decide)] at hread
  by_cases hne : digits = []
  · rw [hne] at hread
    cases hread
  · obtain ⟨ds, hds, hlength⟩ := numeralDigits?_of_digits hne h
    simp only [hds] at hread
    split at hread
    · rename_i hmany
      cases hread
      exact ⟨hlength.symm, hmany⟩
    · split at hread <;> cases hread

/-- **When a numeral has too many digits.** A sign may stand before them. -/
theorem readInteger_eq_tooManyDigits {sign digits : Text} (hsign : sign = [] ∨ sign = [45])
    (hdigits : digits.all isAsciiDigit = true) {n : Nat}
    (h : readInteger .ten (sign ++ digits) = .error (.tooManyDigits n)) :
    digits.length = n ∧ decimalDigitLimit < n := by
  have hdigit : ∀ c : Nat, c ∈ digits → 48 ≤ c ∧ c ≤ 57 := by
    intro c hc
    simpa [isAsciiDigit] using List.all_eq_true.1 hdigits c hc
  have hrange : ∀ c : Nat, c ∈ sign ++ digits → 32 < c ∧ c < 128 := by
    intro c hc
    rcases List.mem_append.1 hc with hc | hc
    · rcases hsign with rfl | rfl
      · cases hc
      · cases List.mem_singleton.1 hc
        decide
    · have hbounds := hdigit c hc
      omega
  have hspace : ∀ c ∈ sign ++ digits, (c == 32) = false := by
    intro c hc
    refine beq_eq_false_iff_ne.2 ?_
    rintro rfl
    exact absurd (hrange 32 hc).1 (by decide)
  have hread : (readSign (sign ++ digits)).2 = digits := by
    rcases hsign with rfl | rfl
    · unfold readSign
      split
      · exact absurd (hdigit 43 (by simp_all)) (by decide)
      · exact absurd (hdigit 45 (by simp_all)) (by decide)
      · rfl
    · rfl
  unfold readInteger at h
  rw [plainDigits_of_ascii hrange, stripOf_of_forall hspace] at h
  dsimp only at h
  rw [hread] at h
  cases hmagnitude : readMagnitude .ten digits with
  | error f =>
      rw [hmagnitude] at h
      cases h
      exact readMagnitude_eq_tooManyDigits hdigits hmagnitude
  | ok m =>
      rw [hmagnitude] at h
      cases h

end Text

namespace Json

/-! ## Readers -/

variable {α β : Type} {s t : Text}

/-- A reader leaves a final segment of its text, and stops at too many digits only if they stand
there. -/
structure Reads (t : Text) (x : Except ReadFault (α × Text)) : Prop where
  rest : ∀ v rest, x = .ok (v, rest) → rest <:+ t
  digits : ∀ n, x = .error (.tooManyDigits n) → Text.decimalDigitLimit < n ∧ Text.HasDigits n t

namespace Reads

theorem ok (v : α) (h : s <:+ t) : Reads t (.ok (v, s)) := by
  refine ⟨?_, fun n hn => nomatch hn⟩
  rintro _ _ ⟨⟩
  exact h

theorem malformed (c : Complaint) (left : Nat) :
    Reads t (.error (.malformed c left) : Except ReadFault (α × Text)) :=
  ⟨fun _ _ h => (nomatch h), fun _ h => (nomatch h)⟩

theorem mono {x : Except ReadFault (α × Text)} (hst : s <:+ t) (h : Reads s x) : Reads t x :=
  ⟨fun v rest hx => (h.rest v rest hx).trans hst, fun n hx =>
    ⟨(h.digits n hx).1, (h.digits n hx).2.mono hst.isInfix⟩⟩

/-- What is made of the value does not matter. -/
theorem map {x : Except ReadFault (α × Text)} {f : α × Text → β × Text}
    (hf : ∀ p, (f p).2 = p.2) (h : Reads t x) : Reads t (x.map f) := by
  cases x with
  | error e =>
      refine ⟨fun _ _ hx => (nomatch hx), fun n hx => ?_⟩
      cases hx
      exact h.digits n rfl
  | ok p =>
      refine ⟨fun v rest hx => ?_, fun _ hx => (nomatch hx)⟩
      have hrest : rest = p.2 := by
        rw [← hf p, Except.ok.inj hx]
      rw [hrest]
      exact h.rest p.1 p.2 rfl

/-- One reader after the other. -/
theorem bind {x : Except ReadFault (α × Text)} {k : α × Text → Except ReadFault (β × Text)}
    (h : Reads t x) (hk : ∀ v rest, Reads rest (k (v, rest))) : Reads t (x >>= k) := by
  cases x with
  | error e =>
      refine ⟨fun _ _ hx => (nomatch hx), fun n hx => ?_⟩
      cases hx
      exact h.digits n rfl
  | ok p => exact (hk p.1 p.2).mono (h.rest p.1 p.2 rfl)

end Reads

theorem skip_suffix (t : Text) : skip t <:+ t := List.dropWhile_suffix _

theorem reads_readString (opened : Nat) (t : Text) : Reads t (readString opened t) := by
  fun_induction readString opened t with
  | case1 => exact .malformed _ _
  | case2 rest => exact .ok _ (List.suffix_cons _ _)
  | case3 => exact .malformed _ _
  | case4 => exact .malformed _ _
  | case5 a b c d e rest n hn ih =>
      refine .map (fun _ => rfl) (ih.mono ?_)
      exact ⟨[92, 117, a, b, c, d], rfl⟩
  | case6 => exact .malformed _ _
  | case7 => exact .malformed _ _
  | case8 c rest _ _ v hv ih => exact .map (fun _ => rfl) (ih.mono ⟨[92, c], rfl⟩)
  | case9 => exact .malformed _ _
  | case10 c rest _ _ _ _ _ ih => exact .map (fun _ => rfl) (ih.mono (List.suffix_cons _ _))

theorem reads_readText (opened : Nat) (t : Text) : Reads t (readText opened t) :=
  .map (fun _ => rfl) (reads_readString opened t)

theorem wholePart_spec (t : Text) :
    wholePart t <+: t ∧ (wholePart t).all Text.isAsciiDigit = true := by
  unfold wholePart
  split
  · exact ⟨⟨_, rfl⟩, by decide⟩
  · exact ⟨List.takeWhile_prefix _, List.all_takeWhile⟩

theorem reads_readNumber (t : Text) : Reads t (readNumber t) := by
  unfold readNumber
  extract_lets sign unsigned whole afterWhole places power numeral rest
  have hsign : sign = [] ∨ sign = [45] := by
    unfold sign
    split
    · exact Or.inr rfl
    · exact Or.inl rfl
  obtain ⟨hwhole, hall⟩ : whole <+: unsigned ∧ whole.all Text.isAsciiDigit = true :=
    wholePart_spec unsigned
  split
  · exact .malformed _ _
  split
  · rename_i hplain
    obtain ⟨hplaces, hpower⟩ := Bool.and_eq_true_iff.1 hplain
    have hnumeral : numeral = sign ++ whole := by
      show sign ++ whole ++ places ++ power = _
      rw [List.isEmpty_iff.1 hpower, List.isEmpty_iff.1 hplaces, List.append_nil, List.append_nil]
    split
    · exact .ok _ (List.drop_suffix _ _)
    · rename_i count hcount
      refine ⟨nofun, ?_⟩
      rintro _ ⟨⟩
      obtain ⟨hlength, hlimit⟩ := Text.readInteger_eq_tooManyDigits hsign hall (hnumeral ▸ hcount)
      exact ⟨hlimit, whole, hlength, hall,
        hwhole.isInfix.trans (List.drop_suffix _ _).isInfix⟩
    · exact .malformed _ _
  · split
    · exact .ok _ (List.drop_suffix _ _)
    · exact .malformed _ _

theorem suffix_of_readName? {t : Text} {found : Json × Text} (h : readName? t = some found) :
    found.2 <:+ t := by
  obtain ⟨entry, -, rfl⟩ := Option.map_eq_some_iff.1 h
  exact List.drop_suffix _ _

/-! ## Values -/

/-- What is read up to a bound, by each of the three readers that need one another. -/
structure ReadsUpTo (bound : Nat) : Prop where
  value : ∀ t, Reads t (readValue bound t)
  members : ∀ before t, Reads t (readMembers bound before t)
  items : ∀ t, Reads t (readItems bound t)

theorem reads_readValue_succ {bound : Nat} (h : ReadsUpTo bound) (t : Text) :
    Reads t (readValue (bound + 1) t) := by
  unfold readValue
  split
  · exact .malformed _ _
  · exact .map (fun _ => rfl) ((reads_readText _ _).mono (List.suffix_cons _ _))
  · rename_i rest
    have hskip : skip rest <:+ 123 :: rest := (skip_suffix rest).trans (List.suffix_cons _ _)
    split
    · rename_i after hclosed
      exact .ok _ ((hclosed ▸ List.suffix_cons _ _ : after <:+ skip rest).trans hskip)
    · exact .map (fun _ => rfl) ((h.members _ _).mono hskip)
  · rename_i rest
    have hskip : skip rest <:+ 91 :: rest := (skip_suffix rest).trans (List.suffix_cons _ _)
    split
    · rename_i after hclosed
      exact .ok _ ((hclosed ▸ List.suffix_cons _ _ : after <:+ skip rest).trans hskip)
    · exact .map (fun _ => rfl) ((h.items _).mono hskip)
  · split
    · rename_i found hfound
      exact .ok _ (suffix_of_readName? hfound)
    · exact reads_readNumber _

theorem reads_readMembers_succ {bound : Nat} (h : ReadsUpTo bound) (before : List (Text × Json))
    (t : Text) : Reads t (readMembers (bound + 1) before t) := by
  unfold readMembers
  split
  · rename_i rest
    refine Reads.mono (List.suffix_cons 34 rest)
      (.bind (reads_readText _ _) fun name afterName => .mono (skip_suffix afterName) ?_)
    dsimp only
    split
    · rename_i afterColon hcolon
      rw [hcolon]
      refine Reads.mono ((skip_suffix afterColon).trans (List.suffix_cons _ _))
        (.bind (h.value _) fun v afterValue => .mono (skip_suffix afterValue) ?_)
      dsimp only
      split
      · rename_i after hclosed
        exact .ok _ (hclosed ▸ List.suffix_cons _ _)
      · rename_i after hcomma
        rw [hcomma]
        exact (h.members _ _).mono ((skip_suffix after).trans (List.suffix_cons _ _))
      · exact .malformed _ _
    · exact .malformed _ _
  · exact .malformed _ _

theorem reads_readItems_succ {bound : Nat} (h : ReadsUpTo bound) (t : Text) :
    Reads t (readItems (bound + 1) t) := by
  unfold readItems
  refine .bind (h.value t) fun v afterValue => .mono (skip_suffix afterValue) ?_
  dsimp only
  split
  · rename_i after hclosed
    exact .ok _ (hclosed ▸ List.suffix_cons _ _)
  · rename_i after hcomma
    rw [hcomma]
    exact .map (fun _ => rfl)
      ((h.items _).mono ((skip_suffix after).trans (List.suffix_cons _ _)))
  · exact .malformed _ _

/-- The readers of values, members and items, by induction on the bound. -/
theorem readsUpTo (bound : Nat) : ReadsUpTo bound := by
  induction bound with
  | zero =>
      refine ⟨fun t => ?_, fun before t => ?_, fun t => ?_⟩
      · rw [readValue]
        exact .malformed _ _
      · rw [readMembers]
        exact .malformed _ _
      · rw [readItems]
        exact .malformed _ _
  | succ bound ih =>
      exact ⟨reads_readValue_succ ih, reads_readMembers_succ ih, reads_readItems_succ ih⟩

/-- **A text is refused for its digits only if it has them**, more than are converted. -/
theorem hasDigits_of_read {n : Nat} (h : read t = .error (.tooManyDigits n)) :
    Text.decimalDigitLimit < n ∧ Text.HasDigits n t := by
  unfold read at h
  split at h
  · cases h
  · split at h
    · rename_i f hf
      cases h
      obtain ⟨hlimit, hdigits⟩ := ((readsUpTo _).value (skip t)).digits n hf
      exact ⟨hlimit, hdigits.mono (skip_suffix t).isInfix⟩
    · split at h <;> cases h

end Json

end LiteralLint
