import LiteralLint.Builder
import LiteralLint.Json.Reader
import LiteralLint.Proofs.WrittenString
import LiteralLint.Source.Expansion

/-!
# Strings in JSON

A string that is written as JSON has two readers. One is the reader of JSON, which joins the halves
of surrogate pairs. The other is the decoder of string literals, because a literal that is built by
hand gets its JSON form for a source text; it keeps halves apart, and it knows many more escapes.

The escapes of JSON are a choice among the escapes of literals: the quote and the backslash after a
backslash, five control characters by their letters, and the others by four digits. So each character
of a JSON string is one element of a written string, and the decoder reads it back whatever follows.
The reader of JSON gets back the units of the character, which are two halves if the character is
beyond the basic plane and written in ASCII.

## Main definitions

* `Json.units`: what a written character reads as, before halves are joined.

## Main results

* `Json.unitEscape_eq`: the escape by four digits, digit by digit.
* `Builder.value_lit`: **a literal that is built by hand has the value of its source text**.
* `Json.readText_escaped`: **a string of scalar values reads back from JSON**.
-/

namespace LiteralLint

/-! ## Four digits -/

namespace StringLiteral

/-- The last digit of a number, a letter in lower case. -/
def HexDigit.last (n : Nat) : HexDigit := ⟨⟨n % 16, Nat.mod_lt n (by decide)⟩, false⟩

theorem HexDigit.char_last (n : Nat) : (last n).char = (Nat.digitChar (n % 16)).toNat := by
  have h : ∀ v : Fin 16, char ⟨v, false⟩ = (Nat.digitChar v.val).toNat := by decide
  exact h ⟨n % 16, _⟩

/-- The escape of a unit, as an element of a written string. -/
def Element.unit (n : Nat) : Element :=
  .four (.last (n / 0x1000)) (.last (n / 0x100)) (.last (n / 0x10)) (.last n)

end StringLiteral

open StringLiteral

/-- One more place is one more digit at the end. -/
theorem Text.hex_succ {width : Nat} (hwidth : 0 < width) (n : Nat) :
    hex (width + 1) n = hex width (n / 16) ++ [(HexDigit.last n).char] := by
  rw [HexDigit.char_last]
  unfold hex
  by_cases hn : n < 16
  · -- the digit is the only one, and a zero takes the place of what is before it
    obtain ⟨w, rfl⟩ : ∃ w, width = w + 1 := ⟨width - 1, by omega⟩
    rw [Nat.toDigits_of_lt_base hn, Nat.div_eq_of_lt hn, Nat.mod_eq_of_lt hn, Nat.toDigits_zero]
    simp [List.replicate_succ']
  · rw [Nat.toDigits_of_base_le (by decide) (Nat.le_of_not_lt hn)]
    simp

theorem Text.hex_four {n : Nat} (hn : n < 0x10000) :
    hex 4 n = HexDigit.chars
      [.last (n / 0x1000), .last (n / 0x100), .last (n / 0x10), .last n] := by
  have hfirst : hex 1 (n / 0x1000) = [(HexDigit.last (n / 0x1000)).char] := by
    have hlt : n / 0x1000 < 16 := by omega
    rw [HexDigit.char_last, Nat.mod_eq_of_lt hlt, hex, Nat.toDigits_of_lt_base hlt]
    rfl
  have hsecond : n / 16 / 16 = n / 0x100 := Nat.div_div_eq_div_mul n 16 16
  have hthird : n / 0x100 / 16 = n / 0x1000 := Nat.div_div_eq_div_mul n 0x100 16
  rw [hex_succ (by decide), hex_succ (by decide), hex_succ (by decide), hsecond, hthird, hfirst]
  rfl

namespace Json

/-- An escape by a unit is an escape by four digits. -/
theorem source_unit {n : Nat} (hn : n < 0x10000) : (Element.unit n).source = unitEscape n := by
  rw [unitEscape, Text.hex_four hn]
  rfl

/-- The last four digits denote the number. -/
theorem number_unit {n : Nat} (hn : n < 0x10000) :
    HexDigit.number [.last (n / 0x1000), .last (n / 0x100), .last (n / 0x10), .last n] = n := by
  simp [HexDigit.number, HexDigit.last, Nat.ofDigits_cons]
  omega

theorem value_unit {n : Nat} (hn : n < 0x10000) : (Element.unit n).value = [n] :=
  congrArg (fun m => [m]) (number_unit hn)

/-! ## One character -/

/-- The ways in which a character is written. -/
inductive Spelling (r : Repertoire) : CodePoint → Text → Prop
  | plain {c : Nat} (hlow : 0x1F < c) (hquote : c ≠ 34) (hbackslash : c ≠ 92)
    (hascii : r = .ascii → c < 127) : Spelling r c [c]
  | sign {c : Nat} (h : c = 34 ∨ c = 92) : Spelling r c [92, c]
  | control {k : Control} (h : simpleEscape? k.letter = some k.value) :
    Spelling r k.value [92, k.letter]
  | unit {c : Nat} (h : c < 0x10000) : Spelling r c (unitEscape c)
  /-- Two halves of a pair. -/
  | halves {c : Nat} (hr : r = .ascii) (h : 0x10000 ≤ c) :
    Spelling r c (unitEscape (0xD800 + (c - 0x10000) / 0x400) ++
      unitEscape (0xDC00 + (c - 0x10000) % 0x400))

theorem spelling_escapedOne (r : Repertoire) (c : Nat) : Spelling r c (escapedOne r c) := by
  unfold escapedOne
  simp only [beq_iff_eq]
  split_ifs with hquote hbackslash hfeed hreturn htab hform hback hlow hascii hbasic
  · exact hquote ▸ .sign (.inl rfl)
  · exact hbackslash ▸ .sign (.inr rfl)
  · exact hfeed ▸ .control (k := .lineFeed) rfl
  · exact hreturn ▸ .control (k := .carriageReturn) rfl
  · exact htab ▸ .control (k := .tab) rfl
  · exact hform ▸ .control (k := .formFeed) rfl
  · exact hback ▸ .control (k := .backspace) rfl
  · exact .unit (Nat.lt_trans hlow (by decide))
  · cases r <;> exact .plain (Nat.le_of_not_lt hlow) hquote hbackslash fun _ => hascii
  · cases r with
    | unicode => exact .plain (Nat.le_of_not_lt hlow) hquote hbackslash nofun
    | ascii => exact .unit hbasic
  · cases r with
    | unicode => exact .plain (Nat.le_of_not_lt hlow) hquote hbackslash nofun
    | ascii => exact .halves rfl (Nat.le_of_not_lt hbasic)

theorem lt_of_mem_unitEscape {n d : Nat} (hn : n < 0x10000) (hd : d ∈ unitEscape n) : d < 128 := by
  have hdigit : ∀ v : Fin 16, HexDigit.char ⟨v, false⟩ < 128 := by decide
  rw [← source_unit hn] at hd
  have hcases : d ∈ [92, 117, _, _, _, _] := hd
  simp only [List.mem_cons, List.not_mem_nil, or_false] at hcases
  rcases hcases with rfl | rfl | rfl | rfl | rfl | rfl
  · decide
  · decide
  all_goals exact hdigit _

/-- In ASCII a character is written in ASCII. -/
theorem Spelling.lt_of_mem {c d : Nat} {w : Text} (h : Spelling .ascii c w)
    (hc : c ≤ Text.maxCodePoint) (hd : d ∈ w) : d < 128 := by
  unfold Text.maxCodePoint at hc
  cases h with
  | plain _ _ _ hascii =>
      rw [List.mem_singleton.1 hd]
      exact Nat.lt_succ_of_lt (hascii rfl)
  | sign hsign =>
      rcases List.mem_pair.1 hd with rfl | rfl
      · decide
      · rcases hsign with rfl | rfl <;> decide
  | @control k _ =>
      rcases List.mem_pair.1 hd with rfl | rfl
      · decide
      · cases k <;> decide
  | unit hbasic => exact lt_of_mem_unitEscape hbasic hd
  | halves _ hbeyond =>
      rcases List.mem_append.1 hd with hd | hd
      · exact lt_of_mem_unitEscape (by omega) hd
      · exact lt_of_mem_unitEscape (by omega) hd

/-! ## The decoder of string literals -/

theorem isOrdinary_sign {c : CodePoint} (h : c = 34 ∨ c = 92) : IsOrdinary c := by
  rcases h with rfl | rfl <;>
    exact ⟨fun k => by cases k <;> decide, fun e => by cases e <;> decide, by decide, by decide,
      by decide⟩

/-- A character that is written as it is, or by one escape, is decoded, whatever follows. -/
theorem unescape_spelling {c : CodePoint} {w : Text} (h : Spelling .unicode c w) (t : Text) :
    unescape (w ++ t) = c :: unescape t := by
  cases h with
  | plain _ _ hbackslash _ => exact unescape_plain hbackslash t
  | sign hsign => exact unescape_source_append (.escaped c (isOrdinary_sign hsign)) nofun
  | @control k _ => exact unescape_source_append (.control k) nofun
  | unit hbasic =>
      rw [← source_unit hbasic, unescape_source_append (.unit c) nofun, value_unit hbasic]
      rfl
  | halves hr _ => cases hr

theorem unescape_escapedOne (t : Text) : unescape (t.flatMap (escapedOne .unicode)) = t := by
  induction t with
  | nil => rw [List.flatMap_nil, unescape]
  | cons c t ih => rw [List.flatMap_cons, unescape_spelling (spelling_escapedOne _ c), ih]

/-- A string with the characters beyond ASCII as they are is a string literal of its value. -/
theorem value_escaped (t : Text) : StringLiteral.value (escaped .unicode t) = t := by
  rw [StringLiteral.value, escaped, unquoted_quoted (by decide), unescape_escapedOne]

/-! ## The reader of JSON -/

/-- What a written character reads as before halves are joined. -/
def units (r : Repertoire) (c : Nat) : Text :=
  if r = .ascii ∧ 0x10000 ≤ c then [0xD800 + (c - 0x10000) / 0x400, 0xDC00 + (c - 0x10000) % 0x400]
  else [c]

theorem fourHex?_char (a b c d : HexDigit) :
    fourHex? a.char b.char c.char d.char = some (HexDigit.number [a, b, c, d]) := by
  simp [fourHex?, HexDigit.hexDigit?_char, HexDigit.number, Nat.ofDigits_cons]
  omega

variable {opened : Nat} {rest : Text}

theorem readString_plain {c : Nat} (hlow : 0x1F < c) (hquote : c ≠ 34) (hbackslash : c ≠ 92) :
    readString opened (c :: rest) =
      (readString opened rest).map fun (s, after) => (c :: s, after) := by
  rw [readString]
  · rw [if_neg (Nat.not_le.2 hlow)]
  all_goals simp [hquote, hbackslash]

theorem readString_sign {c v : Nat} (hc : simpleEscape? c = some v) :
    readString opened (92 :: c :: rest) =
      (readString opened rest).map fun (s, after) => (v :: s, after) := by
  have hu : c ≠ 117 := by
    rintro rfl
    cases hc
  rw [readString]
  · simp [hu, hc]
  · simp [hu]

theorem readString_unit {n : Nat} (hn : n < 0x10000) (hrest : rest ≠ []) :
    readString opened (unitEscape n ++ rest) =
      (readString opened rest).map fun (s, after) => (n :: s, after) := by
  rw [← source_unit hn]
  cases rest with
  | nil => exact absurd rfl hrest
  | cons e rest =>
      show readString opened (92 :: 117 :: _ :: _ :: _ :: _ :: e :: rest) = _
      rw [readString, fourHex?_char, number_unit hn]

/-- A character that is written reads as its units, if anything follows. -/
theorem readString_spelling {r : Repertoire} {c : Nat} {w : Text} (h : Spelling r c w)
    (hc : c ≤ Text.maxCodePoint) (hrest : rest ≠ []) :
    readString opened (w ++ rest) =
      (readString opened rest).map fun (s, after) => (units r c ++ s, after) := by
  have hunits : (r = .ascii → c < 0x10000) → units r c = [c] := by
    intro hbasic
    exact if_neg fun h => absurd (hbasic h.1) (Nat.not_lt.2 h.2)
  cases h with
  | plain hlow hquote hbackslash hascii =>
      rw [hunits fun hr => Nat.lt_trans (hascii hr) (by decide)]
      exact readString_plain hlow hquote hbackslash
  | sign hsign =>
      rcases hsign with rfl | rfl
      · rw [hunits fun _ => by decide]
        exact readString_sign rfl
      · rw [hunits fun _ => by decide]
        exact readString_sign rfl
  | @control k hk =>
      rw [hunits fun _ => by cases k <;> decide]
      exact readString_sign hk
  | unit hbasic =>
      rw [hunits fun _ => hbasic]
      exact readString_unit hbasic hrest
  | halves hr hbeyond =>
      have hhigh : 0xD800 + (c - 0x10000) / 0x400 < 0x10000 := by
        unfold Text.maxCodePoint at hc
        omega
      have hlow : 0xDC00 + (c - 0x10000) % 0x400 < 0x10000 := by omega
      rw [List.append_assoc, readString_unit hhigh (by simp [hrest]),
        readString_unit hlow hrest, units, if_pos ⟨hr, hbeyond⟩]
      cases readString opened rest <;> rfl

/-- The body of a string reads as the units of its characters, up to the closing quote. -/
theorem readString_escapedOne {r : Repertoire} {t : Text}
    (ht : ∀ c : Nat, c ∈ t → c ≤ Text.maxCodePoint) :
    readString opened (t.flatMap (escapedOne r) ++ 34 :: rest) =
      .ok (t.flatMap (units r), rest) := by
  induction t with
  | nil => rw [List.flatMap_nil, List.nil_append, readString, List.flatMap_nil]
  | cons c t ih =>
      rw [List.flatMap_cons, List.append_assoc,
        readString_spelling (spelling_escapedOne r c) (ht c List.mem_cons_self) (by simp),
        ih fun d hd => ht d (List.mem_cons_of_mem c hd)]
      rfl

theorem joinSurrogates_cons {h : Nat} (hh : h < 0xD800 ∨ 0xDBFF < h) (t : Text) :
    joinSurrogates (h :: t) = h :: joinSurrogates t := by
  cases t with
  | nil => rfl
  | cons l t =>
      rw [joinSurrogates, if_neg]
      rcases hh with hh | hh <;> simp [Nat.not_le.2 hh]

theorem joinSurrogates_halves {v : Nat} (hv : v < 0x100000) (t : Text) :
    joinSurrogates ((0xD800 + v / 0x400) :: (0xDC00 + v % 0x400) :: t) =
      (0x10000 + v) :: joinSurrogates t := by
  have hhigh : 0xD800 + v / 0x400 ≤ 0xDBFF := by omega
  have hlow : 0xDC00 + v % 0x400 ≤ 0xDFFF := by omega
  have hjoined : 0x10000 + (0xD800 + v / 0x400 - 0xD800) * 0x400 + (0xDC00 + v % 0x400 - 0xDC00) =
      0x10000 + v := by omega
  rw [joinSurrogates, if_pos (by simp [hhigh, hlow])]
  exact congrArg (fun c => c :: joinSurrogates t) hjoined

theorem range_of_isScalar {c : Nat} (h : Text.isScalar c = true) :
    (c < 0xD800 ∨ 0xDFFF < c) ∧ c ≤ 0x10FFFF := by
  simp only [Text.isScalar, Text.isSurrogate, Text.maxCodePoint, Bool.and_eq_true,
    Bool.not_eq_true', Bool.and_eq_false_iff, decide_eq_false_iff_not, Nat.not_le] at h
  exact ⟨h.2, of_decide_eq_true h.1⟩

/-- Joining halves gives scalar values back: a half stands only where it has been made. -/
theorem joinSurrogates_units {r : Repertoire} {t : Text} (ht : t.all Text.isScalar = true) :
    joinSurrogates (t.flatMap (units r)) = t := by
  induction t with
  | nil => rfl
  | cons c t ih =>
      rw [List.all_cons, Bool.and_eq_true] at ht
      obtain ⟨hrange, hmax⟩ := range_of_isScalar ht.1
      rw [List.flatMap_cons, units]
      split
      · rename_i hbeyond
        have hv : c - 0x10000 < 0x100000 := Nat.sub_lt_left_of_lt_add hbeyond.2 (by omega)
        have hc : 0x10000 + (c - 0x10000) = c := Nat.add_sub_cancel' hbeyond.2
        rw [List.cons_append, List.cons_append, List.nil_append, joinSurrogates_halves hv,
          ih ht.2, hc]
      · have hhalf : c < 0xD800 ∨ 0xDBFF < c := hrange.imp_right (Nat.lt_trans (by decide))
        rw [List.singleton_append, joinSurrogates_cons hhalf, ih ht.2]

/-- **A string of scalar values reads back from JSON**, whichever way it was written. -/
theorem readText_escaped {r : Repertoire} {t : Text} (ht : t.all Text.isScalar = true) :
    readText opened (t.flatMap (escapedOne r) ++ 34 :: rest) = .ok (t, rest) := by
  have hmax : ∀ c : Nat, c ∈ t → c ≤ Text.maxCodePoint := by
    intro c hc
    exact (range_of_isScalar (List.all_eq_true.1 ht c hc)).2
  rw [readText, readString_escapedOne hmax]
  show Except.ok (joinSurrogates _, rest) = _
  rw [joinSurrogates_units ht]

end Json

/-- **A literal that is built by hand has the value of its source text**, whatever the string. So has
a literal of a program that is written in the same way. -/
theorem Builder.value_lit (s : Text) :
    ∃ t source, lit (.text s) = .ok t ∧ t.label.value = .text s ∧ t.label.text = .text source ∧
      StringLiteral.value source = s ∧
      ∀ (ctx : Conversion.Context) (task : Conversion.Task), task.tree.type = "string" →
        task.tree.text ctx.source = source →
        (Conversion.expand ctx task).node.kind = t.label.kind ∧
          (Conversion.expand ctx task).node.value = t.label.value := by
  refine ⟨stringLit s, Json.escaped .unicode s, rfl, rfl, rfl, Json.value_escaped s, ?_⟩
  intro ctx task htype hsource
  unfold Conversion.expand
  dsimp only
  rw [htype, hsource, Json.value_escaped]
  exact ⟨rfl, rfl⟩

end LiteralLint
