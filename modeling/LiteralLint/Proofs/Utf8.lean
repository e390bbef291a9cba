import LiteralLint.Text.Utf8

/-!
# Reading back what was encoded

A text of scalar values is what strict reading makes of its bytes. The reading is one pass with at
most one open sequence, so it is enough to follow it over the bytes of one code point: they leave
nothing open and yield that code point, wherever they stand. The other way round, a sequence that
strict reading accepts is closed before the next one opens, and the bounds of its bytes are those of
the form of one scalar value.

## Main results

* `Utf8.piecesFrom_encodeOne`: the reading over the bytes of one code point.
* `Utf8.decode?_encode`: strict reading undoes encoding.
* `Utf8.encode?_eq_ok`: a text can be encoded just if it has scalar values only.
* `Utf8.decode?_eq_ok`: bytes are read strictly just if they encode a text of scalar values.
-/

namespace LiteralLint

namespace Utf8

/-! ## One byte -/

theorem toNat_toUInt8 {n : Nat} (h : n < 256) : n.toUInt8.toNat = n := by
  simp [Nat.toUInt8, Nat.mod_eq_of_lt h]

/-- What a first byte means, in terms of its number. -/
theorem opening_eq (b : UInt8) :
    opening b =
      if b.toNat < 0x80 then .ascii b.toNat
      else if b.toNat < 0xC2 then .never
      else if b.toNat < 0xE0 then .lead 1 0x80 0xBF (b.toNat - 0xC0)
      else if b.toNat = 0xE0 then .lead 2 0xA0 0xBF 0
      else if b.toNat = 0xED then .lead 2 0x80 0x9F 0xD
      else if b.toNat < 0xF0 then .lead 2 0x80 0xBF (b.toNat - 0xE0)
      else if b.toNat = 0xF0 then .lead 3 0x90 0xBF 0
      else if b.toNat < 0xF4 then .lead 3 0x80 0xBF (b.toNat - 0xF0)
      else if b.toNat = 0xF4 then .lead 3 0x80 0x8F 4
      else .never := by
  unfold opening
  simp only [UInt8.lt_iff_toNat_lt, ← UInt8.toNat_inj]
  rfl

/-- A byte that goes on with an open sequence of which it is the last. -/
theorem piecesFrom_last {pos : Nat} {p : Partial} {n : Nat} (hn : n < 256)
    (hlow : p.low.toNat ≤ n) (hhigh : n ≤ p.high.toNat) (hmissing : p.missing ≤ 1) (rest : Bytes) :
    piecesFrom pos (some p) (n.toUInt8 :: rest) =
      .scalar (p.payload * 64 + (n - 0x80)) :: piecesFrom (pos + 1) none rest := by
  have hin : (p.low ≤ n.toUInt8 && n.toUInt8 ≤ p.high) = true := by
    simp [UInt8.le_iff_toNat_le, toNat_toUInt8 hn, hlow, hhigh]
  rw [piecesFrom]
  simp only [hin, if_true, hmissing, toNat_toUInt8 hn]

/-- A byte that goes on with an open sequence of which more is missing. -/
theorem piecesFrom_more {pos : Nat} {p : Partial} {n : Nat} (hn : n < 256)
    (hlow : p.low.toNat ≤ n) (hhigh : n ≤ p.high.toNat) (hmissing : 1 < p.missing) (rest : Bytes) :
    piecesFrom pos (some p) (n.toUInt8 :: rest) =
      piecesFrom (pos + 1)
        (some { p with
          length := p.length + 1, missing := p.missing - 1
          low := 0x80, high := 0xBF, payload := p.payload * 64 + (n - 0x80) }) rest := by
  have hin : (p.low ≤ n.toUInt8 && n.toUInt8 ≤ p.high) = true := by
    simp [UInt8.le_iff_toNat_le, toNat_toUInt8 hn, hlow, hhigh]
  rw [piecesFrom]
  simp only [hin, if_true, Nat.not_le.2 hmissing, if_false, toNat_toUInt8 hn]

/-- A byte that opens a sequence. -/
theorem piecesFrom_lead {pos n missing payload : Nat} {low high : UInt8}
    (h : opening n.toUInt8 = .lead missing low high payload) (rest : Bytes) :
    piecesFrom pos none (n.toUInt8 :: rest) =
      piecesFrom (pos + 1) (some ⟨n.toUInt8, pos, 1, missing, low, high, payload⟩) rest := by
  rw [piecesFrom]
  simp only [step, h, List.nil_append]

/-! ## One code point -/

/-- The two-byte form. -/
theorem piecesFrom_two {pos c : Nat} (hlow : 0x80 ≤ c) (hhigh : c < 0x800) (rest : Bytes) :
    piecesFrom pos none ((0xC0 + c / 64).toUInt8 :: (0x80 + c % 64).toUInt8 :: rest) =
      .scalar c :: piecesFrom (pos + 2) none rest := by
  have hlead : opening (0xC0 + c / 64).toUInt8 = .lead 1 0x80 0xBF (c / 64) := by
    rw [opening_eq, toNat_toUInt8 (by omega)]
    rw [if_neg (by omega), if_neg (by omega), if_pos (by omega)]
    rw [Nat.add_sub_cancel_left]
  have hmod : c % 64 < 64 := Nat.mod_lt _ (by decide)
  rw [piecesFrom_lead hlead,
    piecesFrom_last (by omega) (show 0x80 ≤ _ by omega) (show _ ≤ 0xBF by omega) (Nat.le_refl 1)]
  have hvalue : c / 64 * 64 + (0x80 + c % 64 - 0x80) = c := by omega
  rw [hvalue]

/-- The three-byte form. -/
theorem piecesFrom_three {pos c : Nat} (hlow : 0x800 ≤ c) (hhigh : c < 0x10000)
    (hscalar : Text.isSurrogate c = false) (rest : Bytes) :
    piecesFrom pos none
        ((0xE0 + c / 4096).toUInt8 :: (0x80 + c / 64 % 64).toUInt8 :: (0x80 + c % 64).toUInt8 ::
          rest) =
      .scalar c :: piecesFrom (pos + 3) none rest := by
  have hoff : c < 0xD800 ∨ 0xDFFF < c := by
    by_cases h : 0xD800 ≤ c
    · exact Or.inr (by simpa [Text.isSurrogate, h] using hscalar)
    · exact Or.inl (Nat.lt_of_not_le h)
  have hmid : c / 64 % 64 < 64 := Nat.mod_lt _ (by decide)
  have hmod : c % 64 < 64 := Nat.mod_lt _ (by decide)
  -- The bounds of the second byte depend on the first; the code point always meets them.
  obtain ⟨low, high, hlead, hl, hh⟩ : ∃ low high : UInt8,
      opening (0xE0 + c / 4096).toUInt8 = .lead 2 low high (c / 4096) ∧
        low.toNat ≤ 0x80 + c / 64 % 64 ∧ 0x80 + c / 64 % 64 ≤ high.toNat := by
    rw [opening_eq, toNat_toUInt8 (by omega)]
    rw [if_neg (by omega), if_neg (by omega), if_neg (by omega)]
    by_cases hfirst : c / 4096 = 0
    · refine ⟨0xA0, 0xBF, ?_, show 0xA0 ≤ _ by omega, show _ ≤ 0xBF by omega⟩
      rw [if_pos (by omega), hfirst]
    · rw [if_neg (by omega)]
      by_cases hsurrogate : c / 4096 = 0xD
      · refine ⟨0x80, 0x9F, ?_, show 0x80 ≤ _ by omega, show _ ≤ 0x9F by omega⟩
        rw [if_pos (by omega), hsurrogate]
      · refine ⟨0x80, 0xBF, ?_, show 0x80 ≤ _ by omega, show _ ≤ 0xBF by omega⟩
        rw [if_neg (by omega), if_pos (by omega), Nat.add_sub_cancel_left]
  rw [piecesFrom_lead hlead, piecesFrom_more (by omega) hl hh (show 1 < 2 by decide),
    piecesFrom_last (by omega) (show 0x80 ≤ _ by omega) (show _ ≤ 0xBF by omega) (Nat.le_refl 1)]
  have hvalue :
      (c / 4096 * 64 + (0x80 + c / 64 % 64 - 0x80)) * 64 + (0x80 + c % 64 - 0x80) = c := by omega
  rw [hvalue]

/-- The four-byte form. -/
theorem piecesFrom_four {pos c : Nat} (hlow : 0x10000 ≤ c) (hhigh : c ≤ 0x10FFFF) (rest : Bytes) :
    piecesFrom pos none
        ((0xF0 + c / 262144).toUInt8 :: (0x80 + c / 4096 % 64).toUInt8 ::
          (0x80 + c / 64 % 64).toUInt8 :: (0x80 + c % 64).toUInt8 :: rest) =
      .scalar c :: piecesFrom (pos + 4) none rest := by
  have hsecond : c / 4096 % 64 < 64 := Nat.mod_lt _ (by decide)
  have hthird : c / 64 % 64 < 64 := Nat.mod_lt _ (by decide)
  have hmod : c % 64 < 64 := Nat.mod_lt _ (by decide)
  obtain ⟨low, high, hlead, hl, hh⟩ : ∃ low high : UInt8,
      opening (0xF0 + c / 262144).toUInt8 = .lead 3 low high (c / 262144) ∧
        low.toNat ≤ 0x80 + c / 4096 % 64 ∧ 0x80 + c / 4096 % 64 ≤ high.toNat := by
    rw [opening_eq, toNat_toUInt8 (by omega)]
    rw [if_neg (by omega), if_neg (by omega), if_neg (by omega), if_neg (by omega),
      if_neg (by omega), if_neg (by omega)]
    by_cases hfirst : c / 262144 = 0
    · refine ⟨0x90, 0xBF, ?_, show 0x90 ≤ _ by omega, show _ ≤ 0xBF by omega⟩
      rw [if_pos (by omega), hfirst]
    · rw [if_neg (by omega)]
      by_cases hlast : c / 262144 = 4
      · refine ⟨0x80, 0x8F, ?_, show 0x80 ≤ _ by omega, show _ ≤ 0x8F by omega⟩
        rw [if_neg (by omega), if_pos (by omega), hlast]
      · refine ⟨0x80, 0xBF, ?_, show 0x80 ≤ _ by omega, show _ ≤ 0xBF by omega⟩
        rw [if_pos (by omega), Nat.add_sub_cancel_left]
  rw [piecesFrom_lead hlead, piecesFrom_more (by omega) hl hh (show 1 < 3 by decide),
    piecesFrom_more (by omega) (show 0x80 ≤ _ by omega) (show _ ≤ 0xBF by omega)
      (show 1 < 2 by decide),
    piecesFrom_last (by omega) (show 0x80 ≤ _ by omega) (show _ ≤ 0xBF by omega) (Nat.le_refl 1)]
  have hvalue :
      ((c / 262144 * 64 + (0x80 + c / 4096 % 64 - 0x80)) * 64 + (0x80 + c / 64 % 64 - 0x80)) * 64 +
          (0x80 + c % 64 - 0x80) = c := by omega
  rw [hvalue]

/-- The bytes of a scalar value are read as that value, whatever follows. -/
theorem piecesFrom_encodeOne {pos c : Nat} (hscalar : Text.isScalar c = true) (rest : Bytes) :
    piecesFrom pos none (encodeOne c ++ rest) =
      .scalar c :: piecesFrom (pos + (encodeOne c).length) none rest := by
  obtain ⟨hmax, hsurrogate⟩ : c ≤ Text.maxCodePoint ∧ Text.isSurrogate c = false := by
    simpa [Text.isScalar] using hscalar
  unfold encodeOne
  by_cases hone : c < 0x80
  · rw [if_pos hone]
    have hascii : opening c.toUInt8 = .ascii c := by
      rw [opening_eq, toNat_toUInt8 (by omega), if_pos hone]
    show piecesFrom pos none (c.toUInt8 :: rest) = _
    rw [piecesFrom]
    simp only [step, hascii]
    rfl
  · rw [if_neg hone]
    by_cases htwo : c < 0x800
    · rw [if_pos htwo]
      exact piecesFrom_two (by omega) htwo rest
    · rw [if_neg htwo]
      by_cases hthree : c < 0x10000
      · rw [if_pos hthree]
        exact piecesFrom_three (by omega) hthree hsurrogate rest
      · rw [if_neg hthree]
        exact piecesFrom_four (by omega) hmax rest

/-! ## Texts -/

theorem encode_cons (c : CodePoint) (t : Text) : encode (c :: t) = encodeOne c ++ encode t :=
  List.flatMap_cons

/-- The reading of the bytes of a text, from any position. -/
theorem strict_piecesFrom_encode {t : Text} :
    ∀ pos : Nat, t.all Text.isScalar = true → strict (piecesFrom pos none (encode t)) = .ok t := by
  induction t with
  | nil =>
      intro pos _
      rfl
  | cons c t ih =>
      intro pos hall
      obtain ⟨hc, ht⟩ : Text.isScalar c = true ∧ t.all Text.isScalar = true := by
        simpa only [List.all_cons, Bool.and_eq_true] using hall
      rw [encode_cons, piecesFrom_encodeOne hc]
      simp only [strict, ih _ ht, Except.map]

/-- **Strict reading undoes encoding** on texts of scalar values. -/
theorem decode?_encode {t : Text} (hall : t.all Text.isScalar = true) :
    decode? (encode t) = .ok t :=
  strict_piecesFrom_encode 0 hall

/-- There is a fault of encoding just if some code point is no scalar value. -/
theorem encodeFaultFrom_eq_none {t : Text} :
    ∀ pos : Nat, encodeFaultFrom pos t = none ↔ t.all Text.isScalar = true := by
  induction t with
  | nil =>
      intro pos
      exact ⟨fun _ => rfl, fun _ => rfl⟩
  | cons c t ih =>
      intro pos
      rw [encodeFaultFrom, List.all_cons]
      by_cases hc : Text.isScalar c = true
      · rw [if_pos hc, ih, hc, Bool.true_and]
      · rw [if_neg hc]
        simp [hc]

/-- **A text can be encoded just if it has scalar values only.** -/
theorem encode?_eq_ok {t : Text} {b : Bytes} :
    encode? t = .ok b ↔ t.all Text.isScalar = true ∧ b = encode t := by
  rw [← encodeFaultFrom_eq_none 0, encode?]
  cases encodeFaultFrom 0 t with
  | none => simp [eq_comm]
  | some f => simp

/-! ## What strict reading accepts -/

theorem isScalar_of_range {c : Nat} (h : c < 0xD800 ∨ 0xDFFF < c ∧ c ≤ 0x10FFFF) :
    Text.isScalar c = true := by
  have hmax : c ≤ Text.maxCodePoint := by
    show c ≤ 0x10FFFF
    omega
  have hnone : Text.isSurrogate c = false := by
    by_cases hlow : 0xD800 ≤ c
    · have hhigh : ¬ c ≤ 0xDFFF := by omega
      simp [Text.isSurrogate, hhigh]
    · simp [Text.isSurrogate, hlow]
  simp [Text.isScalar, hmax, hnone]

theorem toUInt8_eq {b : UInt8} {n : Nat} (h : n = b.toNat) : n.toUInt8 = b := by
  rw [h]
  simp [Nat.toUInt8]

/-- Two bytes that are those of a code point. -/
theorem encodeOne_two {b x : UInt8} {c : Nat} (hlow : 0x80 ≤ c) (hhigh : c < 0x800)
    (hb : 0xC0 + c / 64 = b.toNat) (hx : 0x80 + c % 64 = x.toNat) :
    Text.isScalar c = true ∧ encodeOne c = [b, x] := by
  have hone : ¬ c < 0x80 := by omega
  refine ⟨isScalar_of_range (by omega), ?_⟩
  rw [encodeOne, if_neg hone, if_pos hhigh, toUInt8_eq hb, toUInt8_eq hx]

/-- Three bytes that are those of a code point. -/
theorem encodeOne_three {b x y : UInt8} {c : Nat} (hlow : 0x800 ≤ c) (hhigh : c < 0x10000)
    (hscalar : c < 0xD800 ∨ 0xDFFF < c) (hb : 0xE0 + c / 4096 = b.toNat)
    (hx : 0x80 + c / 64 % 64 = x.toNat) (hy : 0x80 + c % 64 = y.toNat) :
    Text.isScalar c = true ∧ encodeOne c = [b, x, y] := by
  have hone : ¬ c < 0x80 := by omega
  have htwo : ¬ c < 0x800 := by omega
  refine ⟨isScalar_of_range (by omega), ?_⟩
  rw [encodeOne, if_neg hone, if_neg htwo, if_pos hhigh, toUInt8_eq hb, toUInt8_eq hx,
    toUInt8_eq hy]

/-- Four bytes that are those of a code point. -/
theorem encodeOne_four {b x y z : UInt8} {c : Nat} (hlow : 0x10000 ≤ c) (hhigh : c ≤ 0x10FFFF)
    (hb : 0xF0 + c / 262144 = b.toNat) (hx : 0x80 + c / 4096 % 64 = x.toNat)
    (hy : 0x80 + c / 64 % 64 = y.toNat) (hz : 0x80 + c % 64 = z.toNat) :
    Text.isScalar c = true ∧ encodeOne c = [b, x, y, z] := by
  have hone : ¬ c < 0x80 := by omega
  have htwo : ¬ c < 0x800 := by omega
  have hthree : ¬ c < 0x10000 := by omega
  refine ⟨isScalar_of_range (by omega), ?_⟩
  rw [encodeOne, if_neg hone, if_neg htwo, if_neg hthree, toUInt8_eq hb, toUInt8_eq hx,
    toUInt8_eq hy, toUInt8_eq hz]

theorem strict_scalar_eq_ok {c : CodePoint} {ps : List Piece} {t : Text}
    (h : strict (.scalar c :: ps) = .ok t) : ∃ tail, t = c :: tail ∧ strict ps = .ok tail := by
  rw [strict] at h
  cases hps : strict ps with
  | error f =>
      rw [hps] at h
      cases h
  | ok tail =>
      rw [hps] at h
      cases h
      exact ⟨tail, rfl, rfl⟩

/-- What an open sequence is followed by, if strict reading accepts it. -/
theorem exists_of_open {pos : Nat} {p : Partial} {bs : Bytes} {t : Text}
    (h : strict (piecesFrom pos (some p) bs) = .ok t) :
    ∃ b rest, bs = b :: rest ∧ p.low.toNat ≤ b.toNat ∧ b.toNat ≤ p.high.toNat ∧
      strict (if p.missing ≤ 1 then
          .scalar (p.payload * 64 + (b.toNat - 0x80)) :: piecesFrom (pos + 1) none rest
        else piecesFrom (pos + 1)
          (some { p with
            length := p.length + 1, missing := p.missing - 1
            low := 0x80, high := 0xBF, payload := p.payload * 64 + (b.toNat - 0x80) }) rest) =
        .ok t := by
  cases bs with
  | nil => cases h
  | cons b rest =>
      rw [piecesFrom] at h
      dsimp only at h
      split at h
      · rename_i hin
        obtain ⟨hlow, hhigh⟩ : p.low.toNat ≤ b.toNat ∧ b.toNat ≤ p.high.toNat := by
          simpa [UInt8.le_iff_toNat_le] using hin
        exact ⟨b, rest, rfl, hlow, hhigh, h⟩
      · cases h

section

variable {pos : Nat} {b low high : UInt8} {start length payload : Nat} {bs : Bytes} {t : Text}

/-- An open sequence that is followed by one byte. -/
theorem exists_of_one
    (h : strict (piecesFrom pos (some ⟨b, start, length, 1, low, high, payload⟩) bs) = .ok t) :
    ∃ x rest tail, bs = x :: rest ∧ low.toNat ≤ x.toNat ∧ x.toNat ≤ high.toNat ∧
      t = (payload * 64 + (x.toNat - 0x80)) :: tail ∧
      strict (piecesFrom (pos + 1) none rest) = .ok tail := by
  obtain ⟨x, rest, rfl, hlow, hhigh, h⟩ := exists_of_open h
  obtain ⟨tail, rfl, htail⟩ := strict_scalar_eq_ok h
  exact ⟨x, rest, tail, rfl, hlow, hhigh, rfl, htail⟩

/-- An open sequence that is followed by two bytes. -/
theorem exists_of_two
    (h : strict (piecesFrom pos (some ⟨b, start, length, 2, low, high, payload⟩) bs) = .ok t) :
    ∃ x y rest tail, bs = x :: y :: rest ∧ low.toNat ≤ x.toNat ∧ x.toNat ≤ high.toNat ∧
      0x80 ≤ y.toNat ∧ y.toNat ≤ 0xBF ∧
      t = ((payload * 64 + (x.toNat - 0x80)) * 64 + (y.toNat - 0x80)) :: tail ∧
      strict (piecesFrom (pos + 2) none rest) = .ok tail := by
  obtain ⟨x, rest, rfl, hlow, hhigh, h⟩ := exists_of_open h
  obtain ⟨y, rest, tail, rfl, hy, hy', rfl, htail⟩ := exists_of_one h
  exact ⟨x, y, rest, tail, rfl, hlow, hhigh, hy, hy', rfl, htail⟩

/-- An open sequence that is followed by three bytes. -/
theorem exists_of_three
    (h : strict (piecesFrom pos (some ⟨b, start, length, 3, low, high, payload⟩) bs) = .ok t) :
    ∃ x y z rest tail, bs = x :: y :: z :: rest ∧ low.toNat ≤ x.toNat ∧ x.toNat ≤ high.toNat ∧
      0x80 ≤ y.toNat ∧ y.toNat ≤ 0xBF ∧ 0x80 ≤ z.toNat ∧ z.toNat ≤ 0xBF ∧
      t = (((payload * 64 + (x.toNat - 0x80)) * 64 + (y.toNat - 0x80)) * 64 +
        (z.toNat - 0x80)) :: tail ∧
      strict (piecesFrom (pos + 3) none rest) = .ok tail := by
  obtain ⟨x, rest, rfl, hlow, hhigh, h⟩ := exists_of_open h
  obtain ⟨y, z, rest, tail, rfl, hy, hy', hz, hz', rfl, htail⟩ := exists_of_two h
  exact ⟨x, y, z, rest, tail, rfl, hlow, hhigh, hy, hy', hz, hz', rfl, htail⟩

/-- The bounds that a first byte sets. -/
theorem lead_bounds {missing : Nat} (h : opening b = .lead missing low high payload) :
    0x80 ≤ low.toNat ∧ high.toNat ≤ 0xBF ∧
      ((missing = 1 ∧ 0xC2 ≤ b.toNat ∧ b.toNat < 0xE0 ∧ payload + 0xC0 = b.toNat) ∨
        (missing = 2 ∧ payload < 0x10 ∧ payload + 0xE0 = b.toNat ∧
          (payload = 0 → 0xA0 ≤ low.toNat) ∧ (payload = 0xD → high.toNat ≤ 0x9F)) ∨
        (missing = 3 ∧ payload ≤ 4 ∧ payload + 0xF0 = b.toNat ∧
          (payload = 0 → 0x90 ≤ low.toNat) ∧ (payload = 4 → high.toNat ≤ 0x8F))) := by
  have h80 : (0x80 : UInt8).toNat = 0x80 := rfl
  have hBF : (0xBF : UInt8).toNat = 0xBF := rfl
  have hA0 : (0xA0 : UInt8).toNat = 0xA0 := rfl
  have h9F : (0x9F : UInt8).toNat = 0x9F := rfl
  have h90 : (0x90 : UInt8).toNat = 0x90 := rfl
  have h8F : (0x8F : UInt8).toNat = 0x8F := rfl
  rw [opening_eq] at h
  repeat' split at h
  all_goals cases h
  all_goals omega

/-- Strict reading accepts bytes that begin with those of a scalar value. -/
theorem exists_of_strict (h : strict (piecesFrom pos none (b :: bs)) = .ok t) :
    ∃ c rest tail pos', b :: bs = encodeOne c ++ rest ∧ Text.isScalar c = true ∧ t = c :: tail ∧
      strict (piecesFrom pos' none rest) = .ok tail := by
  rw [piecesFrom, step] at h
  cases hopen : opening b with
  | ascii c =>
      rw [hopen] at h
      obtain ⟨tail, rfl, htail⟩ := strict_scalar_eq_ok h
      obtain ⟨hc, hsmall⟩ : c = b.toNat ∧ b.toNat < 0x80 := by
        rw [opening_eq] at hopen
        repeat' split at hopen
        all_goals cases hopen
        exact ⟨rfl, by assumption⟩
      subst hc
      refine ⟨b.toNat, bs, tail, _, ?_, isScalar_of_range (by omega), rfl, htail⟩
      rw [encodeOne, if_pos hsmall, toUInt8_eq rfl]
      rfl
  | never =>
      rw [hopen] at h
      cases h
  | lead missing low high payload =>
      rw [hopen] at h
      replace h : strict (piecesFrom (pos + 1)
        (some ⟨b, pos, 1, missing, low, high, payload⟩) bs) = .ok t := h
      obtain ⟨hlow, hhigh, htwo | hthree | hfour⟩ := lead_bounds hopen
      · obtain ⟨rfl, hb, hb', hpayload⟩ := htwo
        obtain ⟨x, rest, tail, rfl, hx, hx', rfl, htail⟩ := exists_of_one h
        obtain ⟨hscalar, hencode⟩ := encodeOne_two (b := b) (x := x)
          (c := payload * 64 + (x.toNat - 0x80)) (by omega) (by omega) (by omega) (by omega)
        exact ⟨_, rest, tail, _, by rw [hencode]; rfl, hscalar, rfl, htail⟩
      · obtain ⟨rfl, hsmall, hpayload, hfirst, hsurrogate⟩ := hthree
        obtain ⟨x, y, rest, tail, rfl, hx, hx', hy, hy', rfl, htail⟩ := exists_of_two h
        obtain ⟨hscalar, hencode⟩ := encodeOne_three (b := b) (x := x) (y := y)
          (c := (payload * 64 + (x.toNat - 0x80)) * 64 + (y.toNat - 0x80))
          (by omega) (by omega) (by omega) (by omega) (by omega) (by omega)
        exact ⟨_, rest, tail, _, by rw [hencode]; rfl, hscalar, rfl, htail⟩
      · obtain ⟨rfl, hsmall, hpayload, hfirst, hlast⟩ := hfour
        obtain ⟨x, y, z, rest, tail, rfl, hx, hx', hy, hy', hz, hz', rfl, htail⟩ :=
          exists_of_three h
        obtain ⟨hscalar, hencode⟩ := encodeOne_four (b := b) (x := x) (y := y) (z := z)
          (c := ((payload * 64 + (x.toNat - 0x80)) * 64 + (y.toNat - 0x80)) * 64 +
            (z.toNat - 0x80))
          (by omega) (by omega) (by omega) (by omega) (by omega) (by omega)
        exact ⟨_, rest, tail, _, by rw [hencode]; rfl, hscalar, rfl, htail⟩

end

/-- What strict reading makes of bytes, from any position, is the text that they encode. -/
theorem encode_of_strict {t : Text} :
    ∀ {pos : Nat} {bs : Bytes}, strict (piecesFrom pos none bs) = .ok t →
      t.all Text.isScalar = true ∧ bs = encode t := by
  induction t with
  | nil =>
      intro pos bs h
      cases bs with
      | nil => exact ⟨rfl, rfl⟩
      | cons b bs =>
          obtain ⟨c, rest, tail, pos', -, -, hcons, -⟩ := exists_of_strict h
          cases hcons
  | cons c t ih =>
      intro pos bs h
      cases bs with
      | nil => cases h
      | cons b bs =>
          obtain ⟨c', rest, tail, pos', hbytes, hscalar, hcons, htail⟩ := exists_of_strict h
          cases hcons
          obtain ⟨hall, rfl⟩ := ih htail
          exact ⟨by rw [List.all_cons, hscalar, hall]; rfl, by rw [hbytes, encode_cons]⟩

/-- **Strict reading accepts the bytes of texts of scalar values**, and no others. -/
theorem decode?_eq_ok {t : Text} {b : Bytes} :
    decode? b = .ok t ↔ t.all Text.isScalar = true ∧ b = encode t := by
  constructor
  · exact fun h => encode_of_strict h
  · rintro ⟨hall, rfl⟩
    exact decode?_encode hall

end Utf8

end LiteralLint
