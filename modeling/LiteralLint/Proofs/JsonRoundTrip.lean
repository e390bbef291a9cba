import LiteralLint.Proofs.JsonString

/-!
# Values in JSON

A value on one line reads back as it was, and so two values with one line are one value: no choice of
quotes, brackets, commas or backslashes in a string can look like another structure. This is about
plain values, which have no numbers, only scalar values in their strings, and no name twice in an
object. Two halves of a pair, for one, are written like the character that they make.

A plain value does not end before its last character, so it is read in front of any text. The calls of
readers are bounded by the length of the text. A measure of the value says how many are needed, and
the line of a value is at least as long.

## Main definitions

* `Json.Plain`: the values that are meant here.
* `Json.weight`: how many calls of readers a value needs.

## Main results

* `Json.lt_of_mem_line`: a line in ASCII is ASCII.
* `Json.readValue_line`: reading a value in front of any text.
* `Json.read_line`: **a value reads back from its line**.
* `Json.line_injective`: **values with one line are one value**.
-/

namespace LiteralLint.Json

/-! ## Plain values -/

mutual

/-- A value without numbers, whose strings have scalar values only, and whose objects name each
member once. -/
def Plain : Json → Prop
  | .null => True
  | .bool _ => True
  | .int _ => False
  | .real _ => False
  | .text t => t.all Text.isScalar = true
  | .array vs => ItemsPlain vs
  | .object ms => (ms.map Prod.fst).Nodup ∧ MembersPlain ms

/-- Plain items. -/
def ItemsPlain : List Json → Prop
  | [] => True
  | v :: rest => Plain v ∧ ItemsPlain rest

/-- Members with plain values, and with scalar values in their names. -/
def MembersPlain : List (Text × Json) → Prop
  | [] => True
  | (k, v) :: rest => k.all Text.isScalar = true ∧ Plain v ∧ MembersPlain rest

end

theorem itemsPlain_iff {vs : List Json} : ItemsPlain vs ↔ ∀ v ∈ vs, v.Plain := by
  induction vs with
  | nil => simp [ItemsPlain]
  | cons v rest ih => simp [ItemsPlain, ih]

mutual

/-- How many calls of readers a value needs, one within the other. -/
def weight : Json → Nat
  | .array vs => itemsWeight vs + 1
  | .object ms => membersWeight ms + 1
  | _ => 1

/-- How many the items of an array need. -/
def itemsWeight : List Json → Nat
  | [] => 0
  | v :: rest => weight v + itemsWeight rest + 1

/-- How many the members of an object need. -/
def membersWeight : List (Text × Json) → Nat
  | [] => 0
  | (_, v) :: rest => weight v + membersWeight rest + 1

end

/-! ## Lines -/

section Lines

variable {r : Repertoire}

theorem line_array (vs : List Json) : line r (.array vs) = 91 :: (itemsLine r vs ++ [93]) := by
  rw [line]
  simp only [Text.cat, List.flatten_cons, List.flatten_nil, List.append_nil]
  rfl

theorem line_object (ms : List (Text × Json)) :
    line r (.object ms) = 123 :: (membersLine r ms ++ [125]) := by
  rw [line]
  simp only [Text.cat, List.flatten_cons, List.flatten_nil, List.append_nil]
  rfl

/-- The items after the first, each behind a comma and a blank. -/
theorem itemsLine_cons_cons (v w : Json) (vs : List Json) :
    itemsLine r (v :: w :: vs) = line r v ++ 44 :: 32 :: itemsLine r (w :: vs) := by
  rw [itemsLine]
  · simp only [Text.cat, List.flatten_cons, List.flatten_nil, List.append_nil]
    rfl
  · simp

theorem membersLine_singleton (k : Text) (v : Json) :
    membersLine r [(k, v)] = escaped r k ++ 58 :: 32 :: line r v := by
  rw [membersLine]
  simp only [Text.cat, List.flatten_cons, List.flatten_nil, List.append_nil]
  rfl

theorem membersLine_cons_cons (k : Text) (v : Json) (m : Text × Json) (ms : List (Text × Json)) :
    membersLine r ((k, v) :: m :: ms) =
      escaped r k ++ 58 :: 32 :: (line r v ++ 44 :: 32 :: membersLine r (m :: ms)) := by
  rw [membersLine]
  · simp only [Text.cat, List.flatten_cons, List.flatten_nil, List.append_nil]
    rfl
  · simp

end Lines

/-! ## Lines in ASCII -/

theorem lt_of_mem_escaped {t : Text} {d : Nat} (ht : t.all Text.isScalar = true)
    (hd : d ∈ escaped .ascii t) : d < 128 := by
  rw [escaped, List.mem_cons, List.mem_append, List.mem_singleton] at hd
  rcases hd with rfl | hd | rfl
  · decide
  · obtain ⟨c, hc, hd⟩ := List.mem_flatMap.1 hd
    have hmax := (range_of_isScalar (List.all_eq_true.1 ht c hc)).2
    exact (spelling_escapedOne .ascii c).lt_of_mem hmax hd
  · decide

theorem lt_of_mem_name {t : Text} {d : Nat} (ht : t.all (fun c : Nat => c < 128) = true)
    (hd : d ∈ t) : d < 128 :=
  of_decide_eq_true (List.all_eq_true.1 ht d hd)

mutual

/-- **A line in ASCII is ASCII.** -/
theorem lt_of_mem_line : ∀ {v : Json} {d : Nat}, v.Plain → d ∈ line .ascii v → d < 128
  | .null, d, _, hd => lt_of_mem_name (by decide) hd
  | .bool true, d, _, hd => lt_of_mem_name (by decide) hd
  | .bool false, d, _, hd => lt_of_mem_name (by decide) hd
  | .text t, d, ht, hd => lt_of_mem_escaped ht hd
  | .array vs, d, hvs, hd => by
      rw [line_array, List.mem_cons, List.mem_append, List.mem_singleton] at hd
      rcases hd with rfl | hd | rfl
      · decide
      · exact lt_of_mem_itemsLine hvs hd
      · decide
  | .object ms, d, hms, hd => by
      rw [line_object, List.mem_cons, List.mem_append, List.mem_singleton] at hd
      rcases hd with rfl | hd | rfl
      · decide
      · exact lt_of_mem_membersLine hms.2 hd
      · decide

theorem lt_of_mem_itemsLine : ∀ {vs : List Json} {d : Nat}, ItemsPlain vs →
    d ∈ itemsLine .ascii vs → d < 128
  | [], d, _, hd => absurd hd List.not_mem_nil
  | [v], d, hvs, hd => lt_of_mem_line hvs.1 hd
  | v :: w :: vs, d, hvs, hd => by
      rw [itemsLine_cons_cons, List.mem_append, List.mem_cons, List.mem_cons] at hd
      rcases hd with hd | rfl | rfl | hd
      · exact lt_of_mem_line hvs.1 hd
      · decide
      · decide
      · exact lt_of_mem_itemsLine hvs.2 hd

theorem lt_of_mem_membersLine : ∀ {ms : List (Text × Json)} {d : Nat}, MembersPlain ms →
    d ∈ membersLine .ascii ms → d < 128
  | [], d, _, hd => absurd hd List.not_mem_nil
  | [(k, v)], d, ⟨hk, hv, _⟩, hd => by
      rw [membersLine_singleton, List.mem_append, List.mem_cons, List.mem_cons] at hd
      rcases hd with hd | rfl | rfl | hd
      · exact lt_of_mem_escaped hk hd
      · decide
      · decide
      · exact lt_of_mem_line hv hd
  | (k, v) :: m :: ms, d, ⟨hk, hv, hms⟩, hd => by
      rw [membersLine_cons_cons, List.mem_append, List.mem_cons, List.mem_cons, List.mem_append,
        List.mem_cons, List.mem_cons] at hd
      rcases hd with hd | rfl | rfl | hd | rfl | rfl | hd
      · exact lt_of_mem_escaped hk hd
      · decide
      · decide
      · exact lt_of_mem_line hv hd
      · decide
      · decide
      · exact lt_of_mem_membersLine hms hd

end

/-! ## Between values -/

theorem skip_blank (t : Text) : skip (32 :: t) = skip t := rfl

/-- The characters that lines start with: those of the names, the quote, and the brackets. -/
def openings : List CodePoint := [110, 116, 102, 34, 91, 123]

theorem isSpace_of_mem_openings : ∀ c ∈ openings, isSpace c = false := by decide

theorem line_eq_cons {r : Repertoire} {v : Json} (hv : v.Plain) :
    ∃ c ∈ openings, ∃ t, line r v = c :: t := by
  cases v with
  | null => exact ⟨110, by decide, "ull", rfl⟩
  | bool b =>
      cases b with
      | true => exact ⟨116, by decide, "rue", rfl⟩
      | false => exact ⟨102, by decide, "alse", rfl⟩
  | int n => exact hv.elim
  | real x => exact hv.elim
  | text t => exact ⟨34, by decide, _, by rw [line, escaped]⟩
  | array vs => exact ⟨91, by decide, _, line_array vs⟩
  | object ms => exact ⟨123, by decide, _, line_object ms⟩

theorem itemsLine_eq_cons {r : Repertoire} {v : Json} (hv : v.Plain) (vs : List Json) :
    ∃ c ∈ openings, ∃ t, itemsLine r (v :: vs) = c :: t := by
  obtain ⟨c, hc, t, hline⟩ := line_eq_cons (r := r) hv
  cases vs with
  | nil => exact ⟨c, hc, t, by rw [itemsLine, hline]⟩
  | cons w vs => exact ⟨c, hc, _, by rw [itemsLine_cons_cons, hline, List.cons_append]⟩

theorem membersLine_eq_cons {r : Repertoire} (k : Text) (v : Json) (ms : List (Text × Json)) :
    ∃ t, membersLine r ((k, v) :: ms) = 34 :: t := by
  cases ms with
  | nil => exact ⟨_, by rw [membersLine_singleton, escaped, List.cons_append]⟩
  | cons m ms => exact ⟨_, by rw [membersLine_cons_cons, escaped, List.cons_append]⟩

theorem skip_opening {c : Nat} (hc : c ∈ openings) (t : Text) : skip (c :: t) = c :: t :=
  List.dropWhile_cons_of_neg (by simp [isSpace_of_mem_openings c hc])

theorem skip_line {r : Repertoire} {v : Json} (hv : v.Plain) (rest : Text) :
    skip (line r v ++ rest) = line r v ++ rest := by
  obtain ⟨c, hc, t, hline⟩ := line_eq_cons (r := r) hv
  rw [hline, List.cons_append, skip_opening hc]

theorem skip_itemsLine {r : Repertoire} {v : Json} {vs : List Json} (hv : v.Plain)
    (rest : Text) : skip (itemsLine r (v :: vs) ++ rest) = itemsLine r (v :: vs) ++ rest := by
  obtain ⟨c, hc, t, hline⟩ := itemsLine_eq_cons (r := r) hv vs
  rw [hline, List.cons_append, skip_opening hc]

theorem skip_membersLine {r : Repertoire} {k : Text} {v : Json} {ms : List (Text × Json)}
    (rest : Text) :
    skip (membersLine r ((k, v) :: ms) ++ rest) = membersLine r ((k, v) :: ms) ++ rest := by
  obtain ⟨t, hline⟩ := membersLine_eq_cons (r := r) k v ms
  rw [hline, List.cons_append, skip_opening (by decide)]

theorem setMember_of_notMem {k : Text} {v : Json} {ms : List (Text × Json)}
    (hk : k ∉ ms.map Prod.fst) : setMember k v ms = ms ++ [(k, v)] := by
  induction ms with
  | nil => rfl
  | cons m ms ih =>
      rw [List.map_cons, List.mem_cons, not_or] at hk
      rw [setMember, if_neg (Ne.symm hk.1), ih hk.2]
      rfl

/-! ## Values -/

section Readers

variable {r : Repertoire} {bound : Nat} {v : Json} {t rest : Text}

theorem readValue_null : readValue (bound + 1) ("null" ++ rest) = .ok (.null, rest) := rfl

theorem readValue_bool (b : Bool) :
    readValue (bound + 1) (line r (.bool b) ++ rest) = .ok (.bool b, rest) := by
  cases b <;> rfl

theorem readValue_text (ht : t.all Text.isScalar = true) :
    readValue (bound + 1) (escaped r t ++ rest) = .ok (.text t, rest) := by
  rw [escaped, List.cons_append, List.append_assoc, List.singleton_append, readValue,
    readText_escaped ht]
  rfl

/-- No closing bracket stands before the items of an array. -/
theorem readValue_array {c : Nat} (hc : c ∈ openings) :
    readValue (bound + 1) (91 :: c :: t) =
      (readItems bound (c :: t)).map fun (vs, after) => (.array vs, after) := by
  rw [readValue, skip_opening hc]
  split
  · rename_i h
    cases h
    exact absurd hc (by decide)
  · rfl

theorem readValue_object :
    readValue (bound + 1) (123 :: 34 :: t) =
      (readMembers bound [] (34 :: t)).map fun (ms, after) => (.object ms, after) :=
  rfl

theorem readItems_last (hv : readValue bound t = .ok (v, 93 :: rest)) :
    readItems (bound + 1) t = .ok ([v], rest) := by
  rw [readItems, hv]
  rfl

theorem readItems_cons (hv : readValue bound t = .ok (v, 44 :: rest)) :
    readItems (bound + 1) t =
      (readItems bound (skip rest)).map fun (vs, after) => (v :: vs, after) := by
  rw [readItems, hv]
  rfl

variable {k : Text} {before : List (Text × Json)}

/-- The last member, which is set behind those before it. -/
theorem readMembers_last (hk : k.all Text.isScalar = true) (hnew : k ∉ before.map Prod.fst)
    (hv : readValue bound (skip t) = .ok (v, 125 :: rest)) :
    readMembers (bound + 1) before (escaped r k ++ 58 :: t) = .ok (before ++ [(k, v)], rest) := by
  rw [escaped, List.cons_append, List.append_assoc, List.singleton_append, readMembers,
    readText_escaped hk, ← setMember_of_notMem hnew]
  show (readValue bound (skip t) >>= _) = _
  rw [hv]
  rfl

theorem readMembers_cons (hk : k.all Text.isScalar = true) (hnew : k ∉ before.map Prod.fst)
    (hv : readValue bound (skip t) = .ok (v, 44 :: rest)) :
    readMembers (bound + 1) before (escaped r k ++ 58 :: t) =
      readMembers bound (before ++ [(k, v)]) (skip rest) := by
  rw [escaped, List.cons_append, List.append_assoc, List.singleton_append, readMembers,
    readText_escaped hk, ← setMember_of_notMem hnew]
  show (readValue bound (skip t) >>= _) = _
  rw [hv]
  rfl

end Readers

/-! ## The round trip -/

section RoundTrip

variable {r : Repertoire}

theorem notMem_of_nodup {k : Text} {v : Json} {before ms : List (Text × Json)}
    (h : ((before ++ (k, v) :: ms).map Prod.fst).Nodup) : k ∉ before.map Prod.fst := by
  intro hk
  rw [List.map_append, List.nodup_append] at h
  exact h.2.2 k hk k (by simp) rfl

mutual

/-- **Reading a value in front of any text.** -/
theorem readValue_line : ∀ {v : Json} {bound : Nat} (rest : Text), v.Plain →
    weight v ≤ bound → readValue bound (line r v ++ rest) = .ok (v, rest)
  | .null, bound + 1, rest, _, _ => readValue_null
  | .bool b, bound + 1, rest, _, _ => readValue_bool b
  | .text t, bound + 1, rest, ht, _ => readValue_text ht
  | .array [], bound + 1, rest, _, _ => rfl
  | .array (v :: vs), bound + 1, rest, hvs, hbound => by
      -- the items do not start with a bracket, so the array is not taken for an empty one
      have hread := readItems_line rest hvs (Nat.le_of_succ_le_succ hbound)
      obtain ⟨c, hc, t, hline⟩ := itemsLine_eq_cons (r := r) hvs.1 vs
      rw [hline, List.cons_append] at hread
      rw [line_array, hline, List.cons_append, List.append_assoc, List.singleton_append,
        List.cons_append, readValue_array hc, hread]
      rfl
  | .object [], bound + 1, rest, _, _ => rfl
  | .object ((k, v) :: ms), bound + 1, rest, hms, hbound => by
      have hread := readMembers_line [] rest hms.1 hms.2 (Nat.le_of_succ_le_succ hbound)
      obtain ⟨t, hline⟩ := membersLine_eq_cons (r := r) k v ms
      rw [hline, List.cons_append] at hread
      rw [line_object, hline, List.cons_append, List.append_assoc, List.singleton_append,
        List.cons_append, readValue_object, hread]
      rfl

/-- The items of an array read back in front of its closing bracket. -/
theorem readItems_line : ∀ {v : Json} {vs : List Json} {bound : Nat} (rest : Text),
    ItemsPlain (v :: vs) → itemsWeight (v :: vs) ≤ bound →
    readItems bound (itemsLine r (v :: vs) ++ 93 :: rest) = .ok (v :: vs, rest)
  | v, [], bound + 1, rest, hvs, hbound => by
      rw [itemsWeight] at hbound
      rw [itemsLine]
      exact readItems_last (readValue_line _ hvs.1 (by omega))
  | v, w :: vs, bound + 1, rest, hvs, hbound => by
      rw [itemsWeight] at hbound
      have hfirst : weight v ≤ bound := by omega
      have hothers : itemsWeight (w :: vs) ≤ bound := by omega
      rw [itemsLine_cons_cons, List.append_assoc, List.cons_append, List.cons_append,
        readItems_cons (readValue_line _ hvs.1 hfirst), skip_blank, skip_itemsLine hvs.2.1,
        readItems_line rest hvs.2 hothers]
      rfl

/-- The members of an object read back in front of its closing brace, behind those before them. -/
theorem readMembers_line : ∀ {k : Text} {v : Json} {ms : List (Text × Json)} {bound : Nat}
    (before : List (Text × Json)) (rest : Text), ((before ++ (k, v) :: ms).map Prod.fst).Nodup →
    MembersPlain ((k, v) :: ms) → membersWeight ((k, v) :: ms) ≤ bound →
    readMembers bound before (membersLine r ((k, v) :: ms) ++ 125 :: rest) =
      .ok (before ++ (k, v) :: ms, rest)
  | k, v, [], bound + 1, before, rest, hkeys, ⟨hk, hv, _⟩, hbound => by
      rw [membersWeight] at hbound
      have hread : readValue bound (skip (32 :: (line r v ++ 125 :: rest))) =
          .ok (v, 125 :: rest) := by
        rw [skip_blank, skip_line hv]
        exact readValue_line _ hv (by omega)
      rw [membersLine_singleton, List.append_assoc, List.cons_append, List.cons_append]
      exact readMembers_last hk (notMem_of_nodup hkeys) hread
  | k, v, (l, w) :: ms, bound + 1, before, rest, hkeys, ⟨hk, hv, hms⟩, hbound => by
      rw [membersWeight] at hbound
      have hothers : membersWeight ((l, w) :: ms) ≤ bound := by omega
      have hread : readValue bound (skip (32 :: (line r v ++
          44 :: 32 :: (membersLine r ((l, w) :: ms) ++ 125 :: rest)))) =
          .ok (v, 44 :: 32 :: (membersLine r ((l, w) :: ms) ++ 125 :: rest)) := by
        rw [skip_blank, skip_line hv]
        exact readValue_line _ hv (by omega)
      rw [membersLine_cons_cons, List.append_assoc, List.cons_append, List.cons_append,
        List.append_assoc, List.cons_append, List.cons_append,
        readMembers_cons hk (notMem_of_nodup hkeys) hread, skip_blank, skip_membersLine,
        readMembers_line (before ++ [(k, v)]) rest (by simpa using hkeys) hms hothers]
      simp

end

mutual

/-- A line is at least as long as the calls that it needs. -/
theorem weight_le_length : ∀ {v : Json}, v.Plain → weight v ≤ (line r v).length
  | .null, _ => Nat.le_add_left 1 3
  | .bool true, _ => Nat.le_add_left 1 3
  | .bool false, _ => Nat.le_add_left 1 4
  | .text t, _ => Nat.le_add_left 1 _
  | .array vs, hvs => by
      have hlength := itemsWeight_le_length hvs
      simp only [weight, line_array, List.length_cons, List.length_append]
      omega
  | .object ms, hms => by
      have hlength := membersWeight_le_length hms.2
      simp only [weight, line_object, List.length_cons, List.length_append]
      omega

theorem itemsWeight_le_length : ∀ {vs : List Json}, ItemsPlain vs →
    itemsWeight vs ≤ (itemsLine r vs).length + 1
  | [], _ => by simp [itemsWeight]
  | [v], hvs => by
      have hlength := weight_le_length hvs.1
      simp only [itemsWeight, itemsLine]
      omega
  | v :: w :: vs, hvs => by
      have hlength := weight_le_length hvs.1
      have hrest := itemsWeight_le_length hvs.2
      rw [itemsWeight, itemsLine_cons_cons]
      simp only [List.length_cons, List.length_append]
      omega

theorem membersWeight_le_length : ∀ {ms : List (Text × Json)}, MembersPlain ms →
    membersWeight ms ≤ (membersLine r ms).length
  | [], _ => by simp [membersWeight]
  | [(k, v)], hms => by
      have hlength := weight_le_length hms.2.1
      rw [membersWeight, membersLine_singleton]
      simp only [membersWeight, List.length_cons, List.length_append]
      omega
  | (k, v) :: m :: ms, hms => by
      have hlength := weight_le_length hms.2.1
      have hrest := membersWeight_le_length hms.2.2
      rw [membersWeight, membersLine_cons_cons]
      simp only [List.length_cons, List.length_append]
      omega

end

/-- **A value reads back from its line.** -/
theorem read_line {v : Json} (hv : v.Plain) : read (line r v) = .ok v := by
  have hbound : weight v ≤ (line r v).length + 1 := Nat.le_succ_of_le (weight_le_length hv)
  have hskip : skip (line r v) = line r v := by simpa using skip_line (r := r) hv []
  have hread : readValue ((line r v).length + 1) (line r v) = .ok (v, []) := by
    simpa using readValue_line [] hv hbound
  unfold read
  split
  · -- no line starts with a byte order mark
    rename_i hmark
    obtain ⟨c, hc, t, hline⟩ := line_eq_cons (r := r) hv
    rw [hline] at hmark
    cases hmark
    exact absurd hc (by decide)
  · rw [hskip, hread]
    rfl

/-- **Values with one line are one value.** -/
theorem line_injective {v w : Json} (hv : v.Plain) (hw : w.Plain)
    (h : line r v = line r w) : v = w := by
  have hread := read_line (r := r) hv
  rw [h, read_line hw] at hread
  exact (Except.ok.inj hread).symm

end RoundTrip

end LiteralLint.Json
