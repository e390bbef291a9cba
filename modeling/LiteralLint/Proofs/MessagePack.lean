import Mathlib.Algebra.Group.Nat.Defs
import LiteralLint.MessagePack.Reader
import LiteralLint.MessagePack.Writer
import LiteralLint.Proofs.Utf8

/-!
# Documents that are read back as they were written

A written value says at its front how long it is, so reading it takes its own bytes and leaves what
follows. Every form is followed on its own: first the big-endian numbers, then the head of each kind
of value, and then, by induction over the value, the value itself with whatever stands behind it.

Not every value comes back. Extensions are left out here, and the keys of a map have to be distinct,
because of two members with one key the reader keeps the later one. Nor may collections be nested
more deeply than the reader goes.

## Main definitions

* `MessagePack.Plain`: the values that come back, with a bound on their depth.

## Main results

* `MessagePack.readValue_write`: reading a written value, whatever follows.
* `MessagePack.read_write`: **a plain document is read back as it was written**.
-/

namespace LiteralLint.MessagePack

/-! ## Numbers -/

/-- What the reader makes of the bytes of a number, after the bytes of another. -/
theorem foldl_bigEndian (n : Nat) :
    ∀ width start : Nat,
      (bigEndian width n).foldl (fun m o => 256 * m + o.toNat) start =
        start * 256 ^ width + n % 256 ^ width := by
  intro width
  induction width with
  | zero =>
      intro start
      simp [bigEndian, Nat.mod_one]
  | succ width ih =>
      intro start
      have hdigit : (UInt8.ofNat (n / 256 ^ width % 256)).toNat = n / 256 ^ width % 256 := by
        simp
      have hsplit : n % 256 ^ (width + 1) =
          n % 256 ^ width + 256 ^ width * (n / 256 ^ width % 256) := by
        rw [Nat.pow_succ, Nat.mod_mul]
      show (bigEndian width n).foldl _ (256 * start + (UInt8.ofNat (n / 256 ^ width % 256)).toNat) = _
      rw [ih, hdigit, hsplit, Nat.pow_succ, Nat.add_mul, Nat.mul_comm 256 start, Nat.mul_assoc,
        Nat.mul_comm 256 (256 ^ width), Nat.mul_comm (n / 256 ^ width % 256)]
      omega

/-- A number that fits comes back. -/
theorem natOf_bigEndian {width n : Nat} (h : n < 256 ^ width) : natOf (bigEndian width n) = n := by
  rw [natOf, foldl_bigEndian, Nat.mod_eq_of_lt h, Nat.zero_mul, Nat.zero_add]

theorem length_bigEndian (width n : Nat) : (bigEndian width n).length = width := by
  induction width with
  | zero => rfl
  | succ width ih => rw [bigEndian, List.length_cons, ih]

/-- A negative number that fits in two's complement comes back. -/
theorem intOf_bigEndian {width m : Nat} (h : m < 256 ^ width / 2) :
    intOf (bigEndian width (256 ^ width - 1 - m)) = Int.negSucc m := by
  have hpos : 0 < 256 ^ width := Nat.pow_pos (by decide)
  have hnat : natOf (bigEndian width (256 ^ width - 1 - m)) = 256 ^ width - 1 - m :=
    natOf_bigEndian (by omega)
  have hsize : Nat.pow 256 (bigEndian width (256 ^ width - 1 - m)).length = 256 ^ width := by
    rw [length_bigEndian]
    rfl
  unfold intOf
  simp only [hnat, hsize]
  rw [if_neg (by omega)]
  omega

/-- The bytes at the front, when there are as many as are asked for. -/
theorem takeBytes_append (b rest : Bytes) : takeBytes b.length (b ++ rest) = .ok (b, rest) := by
  rw [takeBytes, if_neg (by simp), List.take_left, List.drop_left]

/-- A number that is announced by a count of bytes. -/
theorem counted_bigEndian {width n : Nat} (h : n < 256 ^ width) (rest : Bytes)
    (next : Nat → Bytes → Reading Value) :
    counted width (bigEndian width n ++ rest) next = next n rest := by
  have htake : takeBytes width (bigEndian width n ++ rest) = .ok (bigEndian width n, rest) := by
    have h := takeBytes_append (bigEndian width n) rest
    rwa [length_bigEndian] at h
  simp only [counted, takeNat, htake, Except.map, natOf_bigEndian h]

/-! ## Heads -/

theorem toNat_byte {n : Nat} (h : n < 256) : (byte n).toNat = n := by
  simp [byte, Nat.mod_eq_of_lt h]

theorem head_small {n : Nat} (h : n < 0x80) : head (byte n) = .done (.int n) := by
  simp only [head, toNat_byte (show n < 256 by omega)]
  rw [if_pos h]

theorem head_map {n : Nat} (h : n < 16) : head (byte (0x80 + n)) = .map n := by
  simp only [head, toNat_byte (show 0x80 + n < 256 by omega)]
  rw [if_neg (by omega), if_pos (by omega), Nat.add_sub_cancel_left]

theorem head_array {n : Nat} (h : n < 16) : head (byte (0x90 + n)) = .array n := by
  simp only [head, toNat_byte (show 0x90 + n < 256 by omega)]
  rw [if_neg (by omega), if_neg (by omega), if_pos (by omega), Nat.add_sub_cancel_left]

theorem head_text {n : Nat} (h : n < 32) : head (byte (0xa0 + n)) = .text n := by
  simp only [head, toNat_byte (show 0xa0 + n < 256 by omega)]
  rw [if_neg (by omega), if_neg (by omega), if_neg (by omega), if_pos (by omega),
    Nat.add_sub_cancel_left]

theorem head_negative {m : Nat} (h : m < 32) : head (byte (255 - m)) = .done (.int (.negSucc m)) := by
  simp only [head, toNat_byte (show 255 - m < 256 by omega)]
  rw [if_neg (by omega), if_neg (by omega), if_neg (by omega), if_neg (by omega),
    if_pos (by omega)]
  congr 2
  omega

/-! ## Values without parts -/

section

variable {limit levels : Nat}

/-- A value that holds no others is read in the same way at every level. -/
theorem readValue_of_body {octet : UInt8} {b : Bytes} {r : Reading Value}
    (h : ∀ array map, readBody array map b (head octet) = r) :
    readValue limit levels (octet :: b) = r := by
  cases levels with
  | zero => exact h _ _
  | succ levels => exact h _ _

/-- A value that its first byte holds. -/
theorem readValue_done {octet : UInt8} {v : Value} (h : head octet = .done v) (rest : Bytes) :
    readValue limit levels (octet :: rest) = .ok (v, rest) :=
  readValue_of_body fun _ _ => by rw [h, readBody]

/-- A value that a number of some bytes stands for. -/
theorem readValue_number {octet : UInt8} {width : Nat} {f : Bytes → Value}
    (h : head octet = .number width f) (n : Nat) (rest : Bytes) :
    readValue limit levels (octet :: bigEndian width n ++ rest) =
      .ok (f (bigEndian width n), rest) := by
  have htake := takeBytes_append (bigEndian width n) rest
  rw [length_bigEndian] at htake
  rw [List.cons_append]
  refine readValue_of_body fun array map => ?_
  rw [h, readBody, htake]
  rfl

/-- A natural number in so many bytes. -/
theorem readValue_natural {octet : UInt8} {width n : Nat}
    (h : head octet = .number width fun o => .int (natOf o)) (hn : n < 256 ^ width)
    (rest : Bytes) :
    readValue limit levels (octet :: bigEndian width n ++ rest) = .ok (.int n, rest) := by
  rw [readValue_number h, natOf_bigEndian hn]

/-- A negative number in so many bytes. -/
theorem readValue_negative {octet : UInt8} {width m top : Nat}
    (h : head octet = .number width fun o => .int (intOf o)) (htop : top = 256 ^ width - 1)
    (hm : m < 256 ^ width / 2) (rest : Bytes) :
    readValue limit levels (octet :: bigEndian width (top - m) ++ rest) =
      .ok (.int (.negSucc m), rest) := by
  rw [readValue_number h, htop, intOf_bigEndian hm]

theorem readValue_writeInt {n : Int} {b : Bytes} (h : writeInt n = .ok b) (rest : Bytes) :
    readValue limit levels (b ++ rest) = .ok (.int n, rest) := by
  cases n with
  | ofNat m =>
      simp only [writeInt] at h
      split at h
      · cases h
        exact readValue_done (head_small ‹_›) rest
      split at h
      · cases h
        exact readValue_natural rfl ‹_› rest
      split at h
      · cases h
        exact readValue_natural rfl ‹_› rest
      split at h
      · cases h
        exact readValue_natural rfl ‹_› rest
      split at h
      · cases h
        exact readValue_natural rfl ‹_› rest
      · cases h
  | negSucc m =>
      simp only [writeInt] at h
      split at h
      · cases h
        exact readValue_done (head_negative ‹_›) rest
      split at h
      · cases h
        exact readValue_negative rfl rfl ‹_› rest
      split at h
      · cases h
        exact readValue_negative rfl rfl ‹_› rest
      split at h
      · cases h
        exact readValue_negative rfl rfl ‹_› rest
      split at h
      · cases h
        exact readValue_negative rfl rfl ‹_› rest
      · cases h

/-- A double, whatever its bits. -/
theorem readValue_real (x : Binary64) (rest : Bytes) :
    readValue limit levels (0xcb :: bigEndian 8 x.bits.toNat ++ rest) = .ok (.real x, rest) := by
  have hhead : head 0xcb = .number 8 fun o => .real ⟨(natOf o).toUInt64⟩ := rfl
  have hfits : x.bits.toNat < 256 ^ 8 := x.bits.toNat_lt
  rw [readValue_number hhead, natOf_bigEndian hfits]
  simp

/-- A number of some bytes that announces how much is to be read. -/
theorem readValue_counted {octet : UInt8} {width n : Nat} {next : Nat → Bytes → Reading Value}
    (h : ∀ array map b, readBody array map b (head octet) = counted width b next)
    (hn : n < 256 ^ width) (rest : Bytes) :
    readValue limit levels (octet :: bigEndian width n ++ rest) = next n rest := by
  rw [List.cons_append]
  exact readValue_of_body fun array map => (h array map _).trans (counted_bigEndian hn rest next)

/-- A text with its head. -/
theorem readValue_textHead {n : Nat} {b : Bytes} (h : textHead n = .ok b) (rest : Bytes) :
    readValue limit levels (b ++ rest) = readText n rest := by
  unfold textHead at h
  split at h
  · cases h
    refine readValue_of_body fun array map => ?_
    rw [head_text ‹_›]
    rfl
  split at h
  · cases h
    exact readValue_counted (fun _ _ _ => rfl) ‹_› rest
  split at h
  · cases h
    exact readValue_counted (fun _ _ _ => rfl) ‹_› rest
  split at h
  · cases h
    exact readValue_counted (fun _ _ _ => rfl) ‹_› rest
  · cases h

theorem readValue_writeText {t : Text} {b : Bytes} (h : writeText t = .ok b) (rest : Bytes) :
    readValue limit levels (b ++ rest) = .ok (.text t, rest) := by
  unfold writeText at h
  split at h
  · cases h
  · rename_i octets hencode
    obtain ⟨hall, rfl⟩ := Utf8.encode?_eq_ok.1 hencode
    obtain ⟨hd, hhead, rfl⟩ : ∃ hd, textHead (Utf8.encode t).length = .ok hd ∧
        b = hd ++ Utf8.encode t := by
      cases hcase : textHead (Utf8.encode t).length with
      | error u => simp [hcase, Except.map] at h
      | ok hd =>
          simp only [hcase, Except.map, Except.ok.injEq] at h
          exact ⟨hd, rfl, h.symm⟩
    rw [List.append_assoc, readValue_textHead hhead]
    simp only [readText, takeBytes_append, Utf8.decode?_encode hall]

theorem readValue_writeBytes {o b : Bytes} (h : writeBytes o = .ok b) (rest : Bytes) :
    readValue limit levels (b ++ rest) = .ok (.bytes o, rest) := by
  have hread : readBytes o.length (o ++ rest) = .ok (.bytes o, rest) := by
    rw [readBytes, takeBytes_append]
    rfl
  unfold writeBytes bytesHead at h
  split at h
  · cases h
    rw [List.append_assoc]
    exact (readValue_counted (fun _ _ _ => rfl) ‹_› _).trans hread
  split at h
  · cases h
    rw [List.append_assoc]
    exact (readValue_counted (fun _ _ _ => rfl) ‹_› _).trans hread
  split at h
  · cases h
    rw [List.append_assoc]
    exact (readValue_counted (fun _ _ _ => rfl) ‹_› _).trans hread
  · cases h

/-- A key, which is read as the value that it is. -/
theorem readValue_writeKey {k : Key} {b : Bytes} (h : k.write = .ok b) (rest : Bytes) :
    readValue limit levels (b ++ rest) = .ok (Value.ofKey k, rest) := by
  cases k with
  | text t => exact readValue_writeText h rest
  | bytes o => exact readValue_writeBytes h rest

/-! ## Collections -/

theorem readValue_arrayHead {n : Nat} {b : Bytes} (h : arrayHead n = .ok b) (rest : Bytes) :
    readValue limit (levels + 1) (b ++ rest) =
      readArray (readValue limit levels) limit n rest := by
  unfold arrayHead at h
  split at h
  · cases h
    show readBody _ _ rest (head _) = _
    rw [head_array ‹_›]
    rfl
  split at h
  · cases h
    exact counted_bigEndian (show n < 256 ^ 2 from ‹_›) rest
      (readArray (readValue limit levels) limit)
  split at h
  · cases h
    exact counted_bigEndian (show n < 256 ^ 4 from ‹_›) rest
      (readArray (readValue limit levels) limit)
  · cases h

theorem readValue_mapHead {n : Nat} {b : Bytes} (h : mapHead n = .ok b) (rest : Bytes) :
    readValue limit (levels + 1) (b ++ rest) =
      readMap (readValue limit levels) limit n rest := by
  unfold mapHead at h
  split at h
  · cases h
    show readBody _ _ rest (head _) = _
    rw [head_map ‹_›]
    rfl
  split at h
  · cases h
    exact counted_bigEndian (show n < 256 ^ 2 from ‹_›) rest
      (readMap (readValue limit levels) limit)
  split at h
  · cases h
    exact counted_bigEndian (show n < 256 ^ 4 from ‹_›) rest
      (readMap (readValue limit levels) limit)
  · cases h

end

/-! ## Two parts -/

theorem append_eq_ok {a b : Except Unwritable Bytes} {c : Bytes} :
    append a b = .ok c ↔ ∃ x y, a = .ok x ∧ b = .ok y ∧ c = x ++ y := by
  cases a with
  | error e => simp [append]
  | ok x =>
      cases b with
      | error e => simp [append]
      | ok y => simp [append, eq_comm]

theorem map_append_eq_ok {a : Except Unwritable Bytes} {b c : Bytes} :
    a.map (· ++ b) = .ok c ↔ ∃ x, a = .ok x ∧ c = x ++ b := by
  cases a with
  | error e => simp [Except.map]
  | ok x => simp [Except.map, eq_comm]

/-! ## Lengths -/

theorem writeInt_length_pos {n : Int} {b : Bytes} (h : writeInt n = .ok b) : 0 < b.length := by
  cases n with
  | ofNat m =>
      simp only [writeInt] at h
      repeat' split at h
      all_goals cases h
      all_goals exact Nat.succ_pos _
  | negSucc m =>
      simp only [writeInt] at h
      repeat' split at h
      all_goals cases h
      all_goals exact Nat.succ_pos _

/-- A head has a first byte. -/
theorem head_length_pos {n : Nat} {b : Bytes}
    (h : textHead n = .ok b ∨ bytesHead n = .ok b ∨ arrayHead n = .ok b ∨ mapHead n = .ok b) :
    0 < b.length := by
  rcases h with h | h | h | h
  · unfold textHead at h
    repeat' split at h
    all_goals cases h
    all_goals exact Nat.succ_pos _
  · unfold bytesHead at h
    repeat' split at h
    all_goals cases h
    all_goals exact Nat.succ_pos _
  · unfold arrayHead at h
    repeat' split at h
    all_goals cases h
    all_goals exact Nat.succ_pos _
  · unfold mapHead at h
    repeat' split at h
    all_goals cases h
    all_goals exact Nat.succ_pos _

theorem writeText_length_pos {t : Text} {b : Bytes} (h : writeText t = .ok b) : 0 < b.length := by
  unfold writeText at h
  split at h
  · cases h
  · obtain ⟨hd, hhead, rfl⟩ := map_append_eq_ok.1 h
    have hpos := head_length_pos (Or.inl hhead)
    rw [List.length_append]
    omega

theorem writeBytes_length_pos {o b : Bytes} (h : writeBytes o = .ok b) : 0 < b.length := by
  obtain ⟨hd, hhead, rfl⟩ := map_append_eq_ok.1 h
  have hpos := head_length_pos (Or.inr (Or.inl hhead))
  rw [List.length_append]
  omega

theorem writeKey_length_pos {k : Key} {b : Bytes} (h : k.write = .ok b) : 0 < b.length := by
  cases k with
  | text t => exact writeText_length_pos h
  | bytes o => exact writeBytes_length_pos h

/-! ## Plain values -/

/-- Values that are read back as they were written, with at most so many levels of collections. -/
inductive Plain : Nat → Value → Prop
  | nil (levels : Nat) : Plain levels .nil
  | bool (levels : Nat) (b : Bool) : Plain levels (.bool b)
  | int (levels : Nat) (n : Int) : Plain levels (.int n)
  | real (levels : Nat) (x : Binary64) : Plain levels (.real x)
  | text (levels : Nat) (t : Text) : Plain levels (.text t)
  | bytes (levels : Nat) (b : Bytes) : Plain levels (.bytes b)
  | array {levels : Nat} {items : List Value} (hItems : ∀ v ∈ items, Plain levels v) :
      Plain (levels + 1) (.array items)
  | map {levels : Nat} {members : List (Key × Value)} (hKeys : (members.map Prod.fst).Nodup)
      (hMembers : ∀ m ∈ members, Plain levels m.2) : Plain (levels + 1) (.map members)

theorem write_length_pos {levels : Nat} {v : Value} (hPlain : Plain levels v) {b : Bytes}
    (h : v.write = .ok b) : 0 < b.length := by
  cases hPlain with
  | nil =>
      cases h
      exact Nat.succ_pos _
  | bool =>
      cases h
      exact Nat.succ_pos _
  | int n => exact writeInt_length_pos h
  | real x =>
      cases h
      exact Nat.succ_pos _
  | text t => exact writeText_length_pos h
  | bytes o => exact writeBytes_length_pos h
  | array hItems =>
      obtain ⟨x, y, hx, -, rfl⟩ := append_eq_ok.1 h
      have hpos := head_length_pos (Or.inr (Or.inr (Or.inl hx)))
      rw [List.length_append]
      omega
  | map hKeys hMembers =>
      obtain ⟨x, y, hx, -, rfl⟩ := append_eq_ok.1 h
      have hpos := head_length_pos (Or.inr (Or.inr (Or.inr hx)))
      rw [List.length_append]
      omega

/-- An array has no more items than bytes. -/
theorem length_le_writeItems {levels : Nat} {items : List Value}
    (hPlain : ∀ v ∈ items, Plain levels v) :
    ∀ {b : Bytes}, Value.writeItems items = .ok b → items.length ≤ b.length := by
  induction items with
  | nil =>
      intro b _
      exact Nat.zero_le _
  | cons v rest ih =>
      intro b h
      obtain ⟨x, y, hx, hy, rfl⟩ := append_eq_ok.1 h
      have hv := write_length_pos (hPlain v (by simp)) hx
      have hrest := ih (fun w hw => hPlain w (by simp [hw])) hy
      rw [List.length_append, List.length_cons]
      omega

/-- A map has at least two bytes for each of its members. -/
theorem length_le_writeMembers {levels : Nat} {members : List (Key × Value)}
    (hPlain : ∀ m ∈ members, Plain levels m.2) :
    ∀ {b : Bytes}, Value.writeMembers members = .ok b → 2 * members.length ≤ b.length := by
  induction members with
  | nil =>
      intro b _
      exact Nat.zero_le _
  | cons m rest ih =>
      intro b h
      obtain ⟨x, z, hx, hz, rfl⟩ := append_eq_ok.1 h
      obtain ⟨y, w, hy, hw, rfl⟩ := append_eq_ok.1 hz
      have hk := writeKey_length_pos hx
      have hv := write_length_pos (hPlain m (by simp)) hy
      have hrest := ih (fun n hn => hPlain n (by simp [hn])) hw
      simp only [List.length_append, List.length_cons]
      omega

/-! ## Setting members -/

section

variable {α : Type} {key : Key} {v : α}

theorem setMember_of_not_mem {members : List (Key × α)} (h : key ∉ members.map Prod.fst) :
    setMember key v members = members ++ [(key, v)] := by
  induction members with
  | nil => rfl
  | cons m members ih =>
      obtain ⟨k, w⟩ := m
      simp only [List.map_cons, List.mem_cons, not_or] at h
      rw [setMember, if_neg (Ne.symm h.1), ih h.2, List.cons_append]

theorem keys_setMember_of_mem {members : List (Key × α)} (h : key ∈ members.map Prod.fst) :
    (setMember key v members).map Prod.fst = members.map Prod.fst := by
  induction members with
  | nil => exact absurd h (by simp)
  | cons m members ih =>
      obtain ⟨k, w⟩ := m
      rw [setMember]
      by_cases hk : k = key
      · rw [if_pos hk]
        rfl
      · rw [if_neg hk, List.map_cons, List.map_cons]
        rcases List.mem_cons.1 h with heq | hmem
        · exact absurd heq.symm hk
        · rw [ih hmem]

theorem nodup_setMember {members : List (Key × α)} (h : (members.map Prod.fst).Nodup) :
    ((setMember key v members).map Prod.fst).Nodup := by
  by_cases hmem : key ∈ members.map Prod.fst
  · rw [keys_setMember_of_mem hmem]
    exact h
  · rw [setMember_of_not_mem hmem, List.map_append]
    refine List.nodup_append.2 ⟨h, by simp, ?_⟩
    intro a ha b hb hab
    rw [List.map_singleton, List.mem_singleton] at hb
    rw [hab, show b = key from hb] at ha
    exact hmem ha

theorem mem_setMember_self (members : List (Key × α)) : (key, v) ∈ setMember key v members := by
  induction members with
  | nil => exact List.mem_singleton.2 rfl
  | cons m members ih =>
      obtain ⟨k, w⟩ := m
      rw [setMember]
      by_cases hk : k = key
      · rw [if_pos hk, hk]
        exact List.mem_cons_self
      · rw [if_neg hk]
        exact List.mem_cons_of_mem _ ih

theorem eq_or_mem_of_mem_setMember {members : List (Key × α)} {m : Key × α}
    (h : m ∈ setMember key v members) : m = (key, v) ∨ m ∈ members := by
  induction members with
  | nil => exact Or.inl (List.mem_singleton.1 h)
  | cons n members ih =>
      obtain ⟨k, w⟩ := n
      rw [setMember] at h
      by_cases hk : k = key
      · rw [if_pos hk, hk] at h
        rcases List.mem_cons.1 h with heq | hmem
        · exact Or.inl heq
        · exact Or.inr (List.mem_cons_of_mem _ hmem)
      · rw [if_neg hk] at h
        rcases List.mem_cons.1 h with heq | hmem
        · exact Or.inr (heq ▸ List.mem_cons_self)
        · rcases ih hmem with heq | hold
          · exact Or.inl heq
          · exact Or.inr (List.mem_cons_of_mem _ hold)

theorem mem_setMember_of_ne {members : List (Key × α)} {m : Key × α} (hne : m.1 ≠ key)
    (h : m ∈ members) : m ∈ setMember key v members := by
  induction members with
  | nil => exact absurd h (by simp)
  | cons n members ih =>
      obtain ⟨k, w⟩ := n
      rw [setMember]
      by_cases hk : k = key
      · rw [if_pos hk]
        rcases List.mem_cons.1 h with heq | hmem
        · exact absurd (heq ▸ hk) hne
        · exact List.mem_cons_of_mem _ hmem
      · rw [if_neg hk]
        rcases List.mem_cons.1 h with heq | hmem
        · exact heq ▸ List.mem_cons_self
        · exact List.mem_cons_of_mem _ (ih hmem)

theorem lookup_setMember_self (members : List (Key × α)) :
    (setMember key v members).lookup key = some v := by
  induction members with
  | nil => exact List.lookup_cons_self
  | cons m members ih =>
      obtain ⟨k, w⟩ := m
      rw [setMember]
      by_cases hk : k = key
      · rw [if_pos hk, hk]
        exact List.lookup_cons_self
      · have hne : (key == k) = false := beq_eq_false_iff_ne.2 (Ne.symm hk)
        rw [if_neg hk, List.lookup_cons, hne]
        exact ih

theorem lookup_setMember_of_ne {k : Key} (h : k ≠ key) (members : List (Key × α)) :
    (setMember key v members).lookup k = members.lookup k := by
  induction members with
  | nil =>
      rw [setMember, List.lookup_cons, beq_eq_false_iff_ne.2 h]
  | cons m members ih =>
      obtain ⟨k', w⟩ := m
      rw [setMember]
      by_cases hk : k' = key
      · rw [if_pos hk, hk, List.lookup_cons, List.lookup_cons, beq_eq_false_iff_ne.2 h]
      · rw [if_neg hk, List.lookup_cons, List.lookup_cons, ih]

/-- A member that is set to the value it has stays as it is. -/
theorem setMember_of_lookup {members : List (Key × α)} (h : members.lookup key = some v) :
    setMember key v members = members := by
  induction members with
  | nil => cases h
  | cons m members ih =>
      obtain ⟨k, w⟩ := m
      rw [setMember]
      by_cases hk : k = key
      · subst hk
        rw [List.lookup_cons_self, Option.some.injEq] at h
        rw [if_pos rfl, h]
      · have hne : (key == k) = false := beq_eq_false_iff_ne.2 (Ne.symm hk)
        rw [List.lookup_cons, hne] at h
        rw [if_neg hk, ih h]

end

/-! ## Round trips -/

section

variable {limit levels : Nat}

/-- Items that come back one by one come back together. -/
theorem readItems_write {items : List Value}
    (hOne : ∀ v ∈ items, ∀ b, v.write = .ok b → b.length ≤ limit → ∀ rest,
      readValue limit levels (b ++ rest) = .ok (v, rest)) :
    ∀ b, Value.writeItems items = .ok b → b.length ≤ limit → ∀ rest,
      readItems (readValue limit levels) items.length (b ++ rest) = .ok (items, rest) := by
  induction items with
  | nil =>
      intro b h _ rest
      cases h
      rfl
  | cons v items ih =>
      intro b h hlength rest
      obtain ⟨x, y, hx, hy, rfl⟩ := append_eq_ok.1 h
      rw [List.length_append] at hlength
      have hv := hOne v (by simp) x hx (by omega) (y ++ rest)
      have hitems := ih (fun w hw => hOne w (by simp [hw])) y hy (by omega) rest
      rw [List.append_assoc, List.length_cons, readItems, hv]
      simp only [hitems, Except.map]

/-- Members that come back one by one come back together, if their keys are distinct. -/
theorem readMembers_write {members : List (Key × Value)}
    (hOne : ∀ m ∈ members, ∀ b, m.2.write = .ok b → b.length ≤ limit → ∀ rest,
      readValue limit levels (b ++ rest) = .ok (m.2, rest)) :
    ∀ before b, ((before ++ members).map Prod.fst).Nodup →
      Value.writeMembers members = .ok b → b.length ≤ limit → ∀ rest,
      readMembers (readValue limit levels) members.length before (b ++ rest) =
        .ok (before ++ members, rest) := by
  induction members with
  | nil =>
      intro before b _ h _ rest
      cases h
      rw [List.append_nil]
      rfl
  | cons m members ih =>
      intro before b hkeys h hlength rest
      obtain ⟨k, v⟩ := m
      obtain ⟨x, z, hx, hz, rfl⟩ := append_eq_ok.1 h
      obtain ⟨y, w, hy, hw, rfl⟩ := append_eq_ok.1 hz
      simp only [List.length_append] at hlength
      have hkey : readValue limit levels (x ++ (y ++ (w ++ rest))) =
          .ok (Value.ofKey k, y ++ (w ++ rest)) := readValue_writeKey hx _
      have hvalue := hOne (k, v) (by simp) y hy (by omega) (w ++ rest)
      have hof : keyOf (Value.ofKey k) = .ok k := by cases k <;> rfl
      have hnew : setMember k v before = before ++ [(k, v)] := by
        refine setMember_of_not_mem fun hmem => ?_
        rw [List.map_append, List.map_cons] at hkeys
        exact (List.nodup_append.1 hkeys).2.2 _ hmem k (by simp) rfl
      have hmembers := ih (fun n hn => hOne n (by simp [hn])) (before ++ [(k, v)]) w
        (by simpa using hkeys) hw (by omega) rest
      rw [List.append_assoc, List.append_assoc, List.length_cons, readMembers, hkey]
      simp only [hvalue, hof, hnew, hmembers]
      rw [List.append_assoc, List.singleton_append]

end

/-- **Reading a written value** takes its own bytes and leaves what follows. -/
theorem readValue_write {limit levels : Nat} {v : Value} (hPlain : Plain levels v) :
    ∀ b, v.write = .ok b → b.length ≤ limit → ∀ rest,
      readValue limit levels (b ++ rest) = .ok (v, rest) := by
  induction hPlain with
  | nil levels =>
      intro b h _ rest
      cases h
      exact readValue_done rfl rest
  | bool levels flag =>
      intro b h _ rest
      cases h
      cases flag with
      | false => exact readValue_done rfl rest
      | true => exact readValue_done rfl rest
  | int levels n =>
      intro b h _ rest
      exact readValue_writeInt h rest
  | real levels x =>
      intro b h _ rest
      cases h
      exact readValue_real x rest
  | text levels t =>
      intro b h _ rest
      exact readValue_writeText h rest
  | bytes levels o =>
      intro b h _ rest
      exact readValue_writeBytes h rest
  | @array levels items hItems ih =>
      intro b h hlength rest
      obtain ⟨x, y, hx, hy, rfl⟩ := append_eq_ok.1 h
      rw [List.length_append] at hlength
      have hcount := length_le_writeItems hItems hy
      have hitems := readItems_write ih y hy (by omega) rest
      rw [List.append_assoc, readValue_arrayHead hx, readArray, if_neg (by omega), hitems]
      rfl
  | @map levels members hKeys hMembers ih =>
      intro b h hlength rest
      obtain ⟨x, y, hx, hy, rfl⟩ := append_eq_ok.1 h
      rw [List.length_append] at hlength
      have hcount := length_le_writeMembers hMembers hy
      have hmembers := readMembers_write ih [] y hKeys hy (by omega) rest
      rw [List.append_assoc, readValue_mapHead hx, readMap, if_neg (by omega), hmembers]
      rfl

/-- **A plain document is read back as it was written.** -/
theorem read_write {v : Value} (hPlain : Plain maxLevels v) {b : Bytes} (h : v.write = .ok b) :
    read b = .ok v := by
  have hread := readValue_write hPlain b h (Nat.le_refl b.length) []
  rw [List.append_nil] at hread
  rw [read, hread]

/-! ## What can be written -/

/-- Whether a value has bytes. -/
def Value.Writable (v : Value) : Prop := ∃ b, v.write = .ok b

/-- The texts of scalar values that are not too long. -/
theorem writeText_eq_ok {t : Text} :
    (∃ b, writeText t = .ok b) ↔
      t.all Text.isScalar = true ∧ (Utf8.encode t).length < 0x100000000 := by
  have hhead : ∀ n, (∃ b, textHead n = .ok b) ↔ n < 0x100000000 := by
    intro n
    unfold textHead
    repeat' split
    all_goals simp
    all_goals omega
  constructor
  · rintro ⟨b, h⟩
    unfold writeText at h
    split at h
    · cases h
    · rename_i octets hencode
      obtain ⟨hall, rfl⟩ := Utf8.encode?_eq_ok.1 hencode
      obtain ⟨x, hx, -⟩ := map_append_eq_ok.1 h
      exact ⟨hall, (hhead _).1 ⟨x, hx⟩⟩
  · rintro ⟨hall, hlength⟩
    obtain ⟨x, hx⟩ := (hhead _).2 hlength
    refine ⟨x ++ Utf8.encode t, ?_⟩
    unfold writeText
    rw [Utf8.encode?_eq_ok.2 ⟨hall, rfl⟩]
    exact map_append_eq_ok.2 ⟨x, hx, rfl⟩

namespace Value

theorem writable_real (x : Binary64) : Writable (.real x) := ⟨_, rfl⟩

theorem writable_text {t : Text} :
    Writable (.text t) ↔ t.all Text.isScalar = true ∧ (Utf8.encode t).length < 0x100000000 :=
  writeText_eq_ok

/-- An integer has bytes just if eight are enough, with or without a sign. -/
theorem writable_int {n : Int} :
    Writable (.int n) ↔ -0x8000000000000000 ≤ n ∧ n < 0x10000000000000000 := by
  show (∃ b, writeInt n = .ok b) ↔ _
  cases n with
  | ofNat m =>
      simp only [writeInt]
      repeat' split
      all_goals simp
      all_goals omega
  | negSucc m =>
      simp only [writeInt]
      repeat' split
      all_goals simp
      all_goals omega

/-- A count has bytes just if it takes no more than eight. -/
theorem writable_count {n : Nat} : Writable (.int n) ↔ n < 0x10000000000000000 := by
  rw [writable_int]
  omega

theorem writeItems_eq_ok {items : List Value} :
    (∃ b, writeItems items = .ok b) ↔ ∀ v ∈ items, v.Writable := by
  induction items with
  | nil => exact ⟨fun _ v hv => absurd hv (by simp), fun _ => ⟨[], rfl⟩⟩
  | cons v items ih =>
      rw [List.forall_mem_cons, ← ih]
      constructor
      · rintro ⟨b, h⟩
        obtain ⟨x, y, hx, hy, -⟩ := append_eq_ok.1 h
        exact ⟨⟨x, hx⟩, y, hy⟩
      · rintro ⟨⟨x, hx⟩, y, hy⟩
        exact ⟨x ++ y, append_eq_ok.2 ⟨x, y, hx, hy, rfl⟩⟩

theorem writeMembers_eq_ok {members : List (Key × Value)} :
    (∃ b, writeMembers members = .ok b) ↔
      ∀ m ∈ members, (ofKey m.1).Writable ∧ m.2.Writable := by
  have hkey : ∀ k : Key, k.write = (ofKey k).write := by
    intro k
    cases k <;> rfl
  induction members with
  | nil => exact ⟨fun _ v hv => absurd hv (by simp), fun _ => ⟨[], rfl⟩⟩
  | cons m members ih =>
      obtain ⟨k, v⟩ := m
      constructor
      · rintro ⟨b, h⟩
        obtain ⟨x, z, hx, hz, -⟩ := append_eq_ok.1 h
        obtain ⟨y, w, hy, hw, -⟩ := append_eq_ok.1 hz
        exact List.forall_mem_cons.2 ⟨⟨⟨x, hkey k ▸ hx⟩, y, hy⟩, ih.1 ⟨w, hw⟩⟩
      · intro h
        obtain ⟨⟨⟨x, hx⟩, y, hy⟩, hrest⟩ := List.forall_mem_cons.1 h
        obtain ⟨w, hw⟩ := ih.2 hrest
        exact ⟨x ++ (y ++ w), append_eq_ok.2
          ⟨x, y ++ w, (hkey k).trans hx, append_eq_ok.2 ⟨y, w, hy, hw, rfl⟩, rfl⟩⟩

/-- An array has bytes just if its items have and there are not too many. -/
theorem writable_array {items : List Value} :
    Writable (.array items) ↔ items.length < 0x100000000 ∧ ∀ v ∈ items, v.Writable := by
  have hhead : (∃ b, arrayHead items.length = .ok b) ↔ items.length < 0x100000000 := by
    unfold arrayHead
    repeat' split
    all_goals simp
    all_goals omega
  rw [← hhead, ← writeItems_eq_ok]
  constructor
  · rintro ⟨b, h⟩
    obtain ⟨x, y, hx, hy, -⟩ := append_eq_ok.1 h
    exact ⟨⟨x, hx⟩, y, hy⟩
  · rintro ⟨⟨x, hx⟩, y, hy⟩
    exact ⟨x ++ y, append_eq_ok.2 ⟨x, y, hx, hy, rfl⟩⟩

/-- A map has bytes just if its keys and their values have and there are not too many. -/
theorem writable_map {members : List (Key × Value)} :
    Writable (.map members) ↔
      members.length < 0x100000000 ∧ ∀ m ∈ members, (ofKey m.1).Writable ∧ m.2.Writable := by
  have hhead : (∃ b, mapHead members.length = .ok b) ↔ members.length < 0x100000000 := by
    unfold mapHead
    repeat' split
    all_goals simp
    all_goals omega
  rw [← hhead, ← writeMembers_eq_ok]
  constructor
  · rintro ⟨b, h⟩
    obtain ⟨x, y, hx, hy, -⟩ := append_eq_ok.1 h
    exact ⟨⟨x, hx⟩, y, hy⟩
  · rintro ⟨⟨x, hx⟩, y, hy⟩
    exact ⟨x ++ y, append_eq_ok.2 ⟨x, y, hx, hy, rfl⟩⟩

end Value

end LiteralLint.MessagePack
