import LiteralLint.Proofs.StoredFinding
import LiteralLint.Cache.Store
import LiteralLint.Options.Fingerprint

/-!
# Documents of caches

A cache whose entries were made from findings is written as a plain document, so what is read back
from its bytes is the document itself, and the cache of that document is the cache that was written.
Such a cache can be written just if its parts can: digests and fingerprints always can, being ASCII
digits, so what remains are the names of the files, their sizes, the texts of their findings, and
the number of them.

## Main definitions

* `Cache.Entry.Regular`: an entry that was made from findings.
* `Cache.WellMade`: a cache of such entries.

## Main results

* `Cache.ofValue_toValue`: the cache of the document of a cache.
* `Cache.plain_toValue`: the document of a cache is plain.
* `Cache.writable_toValue`, `Cache.Entry.writable_ofFindings`: what can be written.
-/

namespace LiteralLint

open MessagePack (Value Key Plain)

/-! ## Digits -/

namespace Utf8

theorem isScalar_toNat (c : Char) : Text.isScalar c.toNat = true := by
  have hvalid : c.toNat < 0xD800 ∨ 0xDFFF < c.toNat ∧ c.toNat < 0x110000 := c.valid
  exact isScalar_of_range (by omega)

/-- No code point takes more than four bytes. -/
theorem length_encode_le (t : Text) : (encode t).length ≤ 4 * t.length := by
  induction t with
  | nil => exact Nat.le_refl 0
  | cons c t ih =>
      have hone : (encodeOne c).length ≤ 4 := by
        unfold encodeOne
        repeat' split
        all_goals simp
      rw [encode_cons, List.length_append, List.length_cons]
      omega

end Utf8

namespace Sha256

/-- A digest is written in sixty-four characters. -/
theorem hexDigest_spec (message : Bytes) :
    (hexDigest message).all Text.isScalar = true ∧ (hexDigest message).length = 64 := by
  have hword : ∀ w : UInt32, (Text.hex 8 w.toNat).all Text.isScalar = true ∧
      (Text.hex 8 w.toNat).length = 8 := by
    intro w
    have hfits : w.toNat < 16 ^ 8 := w.toNat_lt
    have hlength := (Nat.length_toDigits_le_iff (by decide) (by decide)).2 hfits
    constructor
    · unfold Text.hex
      rw [List.all_append, Bool.and_eq_true, List.all_eq_true, List.all_eq_true]
      constructor
      · intro c hc
        rw [(List.mem_replicate.1 hc).2]
        exact Utf8.isScalar_toNat '0'
      · intro c hc
        obtain ⟨d, -, rfl⟩ := List.mem_map.1 hc
        exact Utf8.isScalar_toNat d
    · unfold Text.hex
      rw [List.length_append, List.length_replicate, List.length_map]
      omega
  generalize hs : digest message = s
  have hdigest : hexDigest message =
      [s.a, s.b, s.c, s.d, s.e, s.f, s.g, s.h].flatMap fun w => Text.hex 8 w.toNat := by
    rw [hexDigest, hs]
  constructor
  · rw [hdigest, List.all_flatMap, List.all_eq_true]
    intro w _
    exact (hword w).1
  · rw [hdigest]
    simp [(hword _).2]

theorem hexDigest_ne_nil (message : Bytes) : hexDigest message ≠ [] := by
  intro hnil
  have hlength := (hexDigest_spec message).2
  rw [hnil] at hlength
  cases hlength

theorem writable_hexDigest (message : Bytes) : Value.Writable (.text (hexDigest message)) := by
  obtain ⟨hall, hlength⟩ := hexDigest_spec message
  have hbytes := Utf8.length_encode_le (hexDigest message)
  exact Value.writable_text.2 ⟨hall, by omega⟩

end Sha256

theorem Options.writable_fingerprint (o : Options) (useTypes : Bool) :
    Value.Writable (.text (o.fingerprint useTypes)) := by
  obtain ⟨hall, -⟩ := Sha256.hexDigest_spec (Utf8.encode (o.payload useTypes))
  have hbytes := Utf8.length_encode_le (o.fingerprint useTypes)
  have hlength : (o.fingerprint useTypes).length ≤ 16 := by
    unfold Options.fingerprint
    exact List.length_take_le _ _
  refine Value.writable_text.2 ⟨?_, by omega⟩
  rw [List.all_eq_true] at hall ⊢
  intro c hc
  exact hall c (List.mem_of_mem_take hc)

theorem Language.writable_name (l : Language) : Value.Writable (.text l.name) := by
  rw [Value.writable_text]
  cases l <;> decide

namespace Cache

/-! ## Entries -/

namespace Entry

/-- An entry that was made from findings whose fields have different names. -/
def Regular (e : Entry) : Prop :=
  ∃ modified size language findings digest,
    e = .ofFindings modified size language findings digest ∧
      ∀ f ∈ findings, (f.data.map Prod.fst).Nodup

/-- The names of the parts of an entry. -/
theorem nodup_parts :
    [(.text "mtime" : Key), .text "size", .text "language", .text "findings",
      .text "content_hash"].Nodup := by
  decide

/-- An entry is plain whatever its parts hold, if the fields of its findings have different names. -/
theorem plain_of_parts (modified : Binary64) (size : Int) (language digest : Text)
    {findings : List Finding} (hFields : ∀ f ∈ findings, (f.data.map Prod.fst).Nodup)
    (levels : Nat) :
    Plain (levels + 4) (toValue ⟨.real modified, .int size, .text language,
      .array (findings.map fun f => Value.ofJson f.toJson), .text digest⟩) := by
  have hFindings : Plain (levels + 3) (.array (findings.map fun f => Value.ofJson f.toJson)) := by
    refine Plain.array ?_
    intro v hv
    obtain ⟨f, hf, rfl⟩ := List.mem_map.1 hv
    exact Finding.plain_ofJson (hFields f hf) levels
  refine Plain.map nodup_parts ?_
  simp only [List.forall_mem_cons]
  exact ⟨Plain.real _ _, Plain.int _ _, Plain.text _ _, hFindings, Plain.text _ _, by simp⟩

theorem plain_toValue {e : Entry} (h : e.Regular) (levels : Nat) :
    Plain (levels + 4) e.toValue := by
  obtain ⟨modified, size, language, findings, digest, rfl, hFields⟩ := h
  exact plain_of_parts modified size language digest hFields levels

/-- Stored findings are checked to be themselves, one after the other. -/
theorem findingsOf_map_ofJson (findings : List Finding) :
    findingsOf (findings.map fun f => Value.ofJson f.toJson) = .ok findings := by
  induction findings with
  | nil => rfl
  | cons f findings ih =>
      rw [List.map_cons, findingsOf, Finding.ofValue_ofJson]
      simp only [ih, Except.map]

/-- The findings of an entry that was made from them. -/
theorem findingList_ofFindings (modified : Binary64) (size : Nat) (language : Text)
    (findings : List Finding) (digest : Text) :
    (ofFindings modified size language findings digest).findingList = .ok findings :=
  findingsOf_map_ofJson findings

/-- **What can be written about a file**: a size of eight bytes at most, and findings that can. -/
theorem writable_ofFindings (modified : Binary64) (size : Nat) (l : Language)
    (findings : List Finding) (source : Bytes) :
    (ofFindings modified size l.name findings (Sha256.hexDigest source)).toValue.Writable ↔
      size < 0x10000000000000000 ∧
        Value.Writable (.array (findings.map fun f => Value.ofJson f.toJson)) := by
  have hnames : ∀ name ∈ [Text.ofString "mtime", "size", "language", "findings", "content_hash"],
      Value.Writable (.text name) := by
    intro name hname
    rw [Value.writable_text]
    revert name
    decide
  simp only [List.forall_mem_cons] at hnames
  obtain ⟨hmtime, hsize, hlanguage, hfindings, hhash, -⟩ := hnames
  unfold toValue
  rw [Value.writable_map]
  simp only [List.forall_mem_cons, ofFindings, Value.ofKey]
  constructor
  · rintro ⟨-, -, ⟨-, hn⟩, -, ⟨-, hf⟩, -⟩
    exact ⟨Value.writable_count.1 hn, hf⟩
  · rintro ⟨hn, hf⟩
    exact ⟨show 5 < 0x100000000 by decide, ⟨hmtime, Value.writable_real _⟩, ⟨hsize, Value.writable_count.2 hn⟩,
      ⟨hlanguage, l.writable_name⟩, ⟨hfindings, hf⟩, ⟨hhash, Sha256.writable_hexDigest source⟩,
      by simp⟩

end Entry

/-! ## Documents -/

/-- The names of the parts of a document. -/
theorem nodup_parts :
    [(.text "version" : Key), .text "fingerprint", .text "created_at", .text "files"].Nodup := by
  decide

/-- A cache of this format whose entries were made from findings, with one entry for a file. -/
structure WellMade (c : Cache) : Prop where
  version : c.version = formatVersion
  time : ∃ t, c.createdAt = .text t
  keys : (c.files.map Prod.fst).Nodup
  entries : ∀ m ∈ c.files, m.2.Regular

/-- The document of a cache is plain if the entries are, one for a file. -/
theorem plain_of_files {c : Cache} (hTime : ∃ t, c.createdAt = .text t)
    (hKeys : (c.files.map Prod.fst).Nodup) (hEntries : ∀ m ∈ c.files, Plain 1022 m.2.toValue) :
    Plain MessagePack.maxLevels c.toValue := by
  obtain ⟨time, hTime⟩ := hTime
  have hFiles : Plain (1022 + 1) (.map (c.files.map fun m => (m.1, m.2.toValue))) := by
    refine Plain.map ?_ ?_
    · simpa [Function.comp_def] using hKeys
    · intro m hm
      obtain ⟨⟨k, e⟩, hmem, rfl⟩ := List.mem_map.1 hm
      exact hEntries _ hmem
  show Plain (1022 + 2) _
  refine Plain.map nodup_parts ?_
  simp only [List.forall_mem_cons, hTime]
  exact ⟨Plain.text _ _, Plain.text _ _, Plain.text _ _, hFiles, by simp⟩

/-- **The document of a cache is plain.** -/
theorem plain_toValue {c : Cache} (h : c.WellMade) : Plain MessagePack.maxLevels c.toValue :=
  plain_of_files h.time h.keys fun m hm => Entry.plain_toValue (h.entries m hm) 1018

/-- What is read from the bytes of a cache is its document. -/
theorem read_toValue {c : Cache} (h : c.WellMade) {b : Bytes} (hb : c.toValue.write = .ok b) :
    MessagePack.read b = .ok c.toValue :=
  MessagePack.read_write (plain_toValue h) hb

theorem entriesOf_toValue (files : List (Key × Entry)) :
    entriesOf (files.map fun (k, e) => (k, e.toValue)) = .ok files := by
  induction files with
  | nil => rfl
  | cons m files ih =>
      obtain ⟨k, e⟩ := m
      have hentry : Entry.ofValue e.toValue = .ok e := rfl
      rw [List.map_cons, entriesOf, hentry]
      simp only [ih, Except.map]

theorem ofMembers_of_entriesOf {fingerprint : Text} {createdAt : Value}
    {members : List (Key × Value)} {entries : List (Key × Entry)}
    (h : entriesOf members = .ok entries) :
    ofMembers fingerprint
        [(.text "version", .text formatVersion), (.text "fingerprint", .text fingerprint),
          (.text "created_at", createdAt), (.text "files", .map members)] =
      .cache ⟨formatVersion, fingerprint, createdAt, entries⟩ := by
  have hfiles : filesOf
      [(.text "version", .text formatVersion), (.text "fingerprint", .text fingerprint),
        (.text "created_at", createdAt), (.text "files", .map members)] = .ok members := rfl
  unfold ofMembers
  rw [hfiles]
  dsimp only
  rw [h]
  rfl

/-- **The cache of the document of a cache** is that cache, for options with its fingerprint. -/
theorem ofValue_toValue {c : Cache} (hVersion : c.version = formatVersion) :
    ofValue c.fingerprint c.toValue = .cache c := by
  obtain ⟨version, fingerprint, createdAt, files⟩ := c
  cases hVersion
  show (if !(formatVersion == formatVersion) then Loaded.outdated
    else if !(fingerprint == fingerprint) then Loaded.ofOtherOptions else _) = _
  rw [beq_self_eq_true, beq_self_eq_true]
  exact ofMembers_of_entriesOf (entriesOf_toValue files)

/-- For other options there is none. -/
theorem ofValue_toValue_of_ne {c : Cache} (hVersion : c.version = formatVersion)
    {fingerprint : Text} (h : fingerprint ≠ c.fingerprint) :
    ofValue fingerprint c.toValue = .ofOtherOptions := by
  obtain ⟨version, own, createdAt, files⟩ := c
  cases hVersion
  show (if !(formatVersion == formatVersion) then Loaded.outdated
    else if !(fingerprint == own) then Loaded.ofOtherOptions else _) = _
  have hne : (fingerprint == own) = false := beq_eq_false_iff_ne.2 h
  rw [beq_self_eq_true, hne]
  rfl

/-- **What a cache needs to be written**: a time that can, not too many files, and for each of them
a name and an entry that can. -/
theorem writable_toValue {c : Cache} (hVersion : c.version = formatVersion)
    (hFingerprint : Value.Writable (.text c.fingerprint)) :
    c.toValue.Writable ↔
      c.createdAt.Writable ∧ c.files.length < 0x100000000 ∧
        ∀ m ∈ c.files, (Value.ofKey m.1).Writable ∧ m.2.toValue.Writable := by
  have hnames : ∀ name ∈ [Text.ofString "version", "fingerprint", "created_at", "files",
      formatVersion], Value.Writable (.text name) := by
    intro name hname
    rw [Value.writable_text]
    revert name
    decide
  simp only [List.forall_mem_cons] at hnames
  obtain ⟨hversion, hfingerprint, hcreated, hfiles, hformat, -⟩ := hnames
  unfold toValue
  rw [Value.writable_map]
  simp only [List.forall_mem_cons, Value.ofKey, hVersion, Value.writable_map, List.length_map,
    List.forall_mem_map]
  constructor
  · rintro ⟨-, -, -, ⟨-, htime⟩, ⟨-, hcount, hentries⟩, -⟩
    exact ⟨htime, hcount, hentries⟩
  · rintro ⟨htime, hcount, hentries⟩
    exact ⟨show 4 < 0x100000000 by decide, ⟨hversion, hformat⟩, ⟨hfingerprint, hFingerprint⟩,
      ⟨hcreated, htime⟩, ⟨hfiles, hcount, hentries⟩, by simp⟩

end Cache

end LiteralLint
