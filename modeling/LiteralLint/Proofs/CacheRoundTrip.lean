import LiteralLint.Proofs.CacheLoading

/-!
# Caches that come back

The format of a cache file has a form for every size: a text, a list or a count is led by one octet
or by as many as its length takes, and an integer stands in the fewest octets that hold it. What it
has no form for is said here in terms of the contents of a cache alone: a surrogate, a length that
four octets cannot count, an integer that eight octets cannot hold.

A cache whose contents avoid these is written, and the file that is written is loaded as the very
same cache for the options it was made for. For options with another fingerprint there is no cache,
and the findings of every file are those that were put in.

## Main definitions

* `Cache.Record`, `Cache.Contents`: what is put into a cache, before it becomes values.
* `Cache.Contents.Storable`: contents that the format has a form for.

## Main results

* `Cache.Contents.writable`: storable contents are written.
* `Cache.does_save_written`: what can be written is there to be read after a save.
* `Cache.load_save`: **what is saved is loaded**.
-/

namespace LiteralLint

open MessagePack (Value Key Plain)
open Job (Does)

/-! ## Parts that can be stored -/

/-- A text without surrogates, whose octets four octets can count. -/
structure Text.Storable (t : Text) : Prop where
  scalar : t.all Text.isScalar = true
  length : (Utf8.encode t).length < 0x100000000

instance (t : Text) : Decidable t.Storable :=
  decidable_of_iff (t.all Text.isScalar = true ∧ (Utf8.encode t).length < 0x100000000)
    ⟨fun ⟨h, h'⟩ => ⟨h, h'⟩, fun ⟨h, h'⟩ => ⟨h, h'⟩⟩

theorem Text.Storable.writable {t : Text} (h : t.Storable) : Value.Writable (.text t) :=
  Value.writable_text.2 ⟨h.scalar, h.length⟩

/-- An integer that eight octets can hold, with a sign or without one. -/
def StorableInt (n : Int) : Prop := -0x8000000000000000 ≤ n ∧ n < 0x10000000000000000

instance (n : Int) : Decidable (StorableInt n) :=
  inferInstanceAs (Decidable (_ ∧ _))

theorem StorableInt.writable {n : Int} (h : StorableInt n) : Value.Writable (.int n) :=
  Value.writable_int.2 h

/-- A place whose four numbers can be stored. -/
structure Span.Storable (s : Span) : Prop where
  startLine : StorableInt s.startLine
  startColumn : StorableInt s.startColumn
  endLine : StorableInt s.endLine
  endColumn : StorableInt s.endColumn

namespace Finding

/-- A finding that can be stored: its fields have different names, and all of its parts can. -/
structure Storable (f : Finding) : Prop where
  id : f.id.Storable
  message : f.message.Storable
  fields : (f.data.map Prod.fst).Nodup
  count : f.data.length < 0x100000000
  texts : ∀ m ∈ f.data, m.1.Storable ∧ m.2.Storable
  position : ∀ s, f.position = some s → s.Storable

/-- The document of a place that can be stored is written. -/
theorem writable_place {s : Span} (h : s.Storable) :
    Value.Writable (.map [(.text "start_line", .int s.startLine),
      (.text "start_column", .int s.startColumn), (.text "end_line", .int s.endLine),
      (.text "end_column", .int s.endColumn)]) := by
  have hnames : ∀ name ∈ [Text.ofString "start_line", "start_column", "end_line", "end_column"],
      Text.Storable name := by
    decide
  simp only [List.forall_mem_cons] at hnames
  obtain ⟨hstartLine, hstartColumn, hendLine, hendColumn, -⟩ := hnames
  refine Value.writable_map.2 ⟨show 4 < 0x100000000 by decide, ?_⟩
  simp only [List.forall_mem_cons, Value.ofKey]
  exact ⟨⟨hstartLine.writable, h.startLine.writable⟩,
    ⟨hstartColumn.writable, h.startColumn.writable⟩, ⟨hendLine.writable, h.endLine.writable⟩,
    ⟨hendColumn.writable, h.endColumn.writable⟩, by simp⟩

/-- The record of a finding that can be stored is written. -/
theorem Storable.writable {f : Finding} (h : f.Storable) :
    Value.Writable (Value.ofJson f.toJson) := by
  have hnames : ∀ name ∈ [Text.ofString "message_id", "message", "data", "position"],
      Text.Storable name := by
    decide
  simp only [List.forall_mem_cons] at hnames
  obtain ⟨hid, hmessage, hdata, hposition, -⟩ := hnames
  have hfields : Value.Writable (.map (f.data.map fun m => (.text m.1, .text m.2))) := by
    refine Value.writable_map.2 ⟨by simpa using h.count, ?_⟩
    intro m hm
    obtain ⟨field, hfield, rfl⟩ := List.mem_map.1 hm
    exact ⟨(h.texts field hfield).1.writable, (h.texts field hfield).2.writable⟩
  rw [ofJson_toJson]
  refine Value.writable_map.2 ⟨show 4 < 0x100000000 by decide, ?_⟩
  simp only [List.forall_mem_cons, Value.ofKey]
  refine ⟨⟨hid.writable, h.id.writable⟩, ⟨hmessage.writable, h.message.writable⟩,
    ⟨hdata.writable, hfields⟩, ⟨hposition.writable, ?_⟩, by simp⟩
  cases hplace : f.position with
  | none => exact ⟨_, rfl⟩
  | some s => exact writable_place (h.position s hplace)

end Finding

namespace Cache

/-! ## Contents -/

/-- What is put into a cache about a file. -/
structure Record where
  modified : Binary64
  size : Int
  language : Text
  findings : List Finding
  digest : Text := []

namespace Record

/-- The entry of a record. -/
def entry (r : Record) : Entry :=
  { modified := .real r.modified
    size := .int r.size
    language := .text r.language
    findings := .array (r.findings.map fun f => Value.ofJson f.toJson)
    digest := .text r.digest }

/-- A record whose parts can be stored. Every time can. -/
structure Storable (r : Record) : Prop where
  size : StorableInt r.size
  language : r.language.Storable
  count : r.findings.length < 0x100000000
  findings : ∀ f ∈ r.findings, f.Storable
  digest : r.digest.Storable

/-- The findings of an entry are those of its record. -/
theorem findingList_entry (r : Record) : r.entry.findingList = .ok r.findings :=
  Entry.findingsOf_map_ofJson r.findings

theorem Storable.plain {r : Record} (h : r.Storable) (levels : Nat) :
    Plain (levels + 4) r.entry.toValue :=
  Entry.plain_of_parts _ _ _ _ (fun f hf => (h.findings f hf).fields) levels

/-- The entry of a record that can be stored is written. -/
theorem Storable.writable {r : Record} (h : r.Storable) : r.entry.toValue.Writable := by
  have hnames : ∀ name ∈ [Text.ofString "mtime", "size", "language", "findings", "content_hash"],
      Text.Storable name := by
    decide
  simp only [List.forall_mem_cons] at hnames
  obtain ⟨hmodified, hsize, hlanguage, hfindings, hdigest, -⟩ := hnames
  have hlist : Value.Writable (.array (r.findings.map fun f => Value.ofJson f.toJson)) := by
    refine Value.writable_array.2 ⟨by simpa using h.count, ?_⟩
    intro v hv
    obtain ⟨f, hf, rfl⟩ := List.mem_map.1 hv
    exact (h.findings f hf).writable
  refine Value.writable_map.2 ⟨show 5 < 0x100000000 by decide, ?_⟩
  simp only [List.forall_mem_cons, Value.ofKey, entry]
  exact ⟨⟨hmodified.writable, Value.writable_real _⟩, ⟨hsize.writable, h.size.writable⟩,
    ⟨hlanguage.writable, h.language.writable⟩, ⟨hfindings.writable, hlist⟩,
    ⟨hdigest.writable, h.digest.writable⟩, by simp⟩

end Record

/-- What is put into a cache of this version. -/
structure Contents where
  fingerprint : Text
  createdAt : Text
  files : List (Text × Record) := []

namespace Contents

/-- The cache with some contents. -/
def cache (d : Contents) : Cache :=
  { version := formatVersion
    fingerprint := d.fingerprint
    createdAt := .text d.createdAt
    files := d.files.map fun m => (.text m.1, m.2.entry) }

/-- Contents that the format has a form for, with one record for a file. -/
structure Storable (d : Contents) : Prop where
  fingerprint : d.fingerprint.Storable
  createdAt : d.createdAt.Storable
  names : (d.files.map Prod.fst).Nodup
  count : d.files.length < 0x100000000
  files : ∀ m ∈ d.files, m.1.Storable ∧ m.2.Storable

/-- Different files have different keys. -/
theorem nodup_keys_cache {d : Contents} (hNames : (d.files.map Prod.fst).Nodup) :
    (d.cache.files.map Prod.fst).Nodup := by
  have hkeys : d.cache.files.map Prod.fst = (d.files.map Prod.fst).map Key.text := by
    simp [cache, Function.comp_def]
  rw [hkeys]
  exact List.Pairwise.map Key.text (fun a b hne heq => hne (Key.text.inj heq)) hNames

/-- The entry of a file is that of its record. -/
theorem entry?_cache {d : Contents} (hNames : (d.files.map Prod.fst).Nodup) {m : Text × Record}
    (hm : m ∈ d.files) : d.cache.entry? m.1 = some m.2.entry := by
  exact lookup_of_mem (nodup_keys_cache hNames) (List.mem_map_of_mem hm)

theorem Storable.plain {d : Contents} (h : d.Storable) :
    Plain MessagePack.maxLevels d.cache.toValue := by
  refine plain_of_files ⟨d.createdAt, rfl⟩ (nodup_keys_cache h.names) ?_
  intro n hn
  obtain ⟨m, hm, rfl⟩ := List.mem_map.1 hn
  exact (h.files m hm).2.plain 1018

/-- **Contents that can be stored are written.** -/
theorem Storable.writable {d : Contents} (h : d.Storable) : d.cache.toValue.Writable := by
  refine (writable_toValue rfl h.fingerprint.writable).2 ⟨h.createdAt.writable, ?_, ?_⟩
  · simpa [cache] using h.count
  · intro n hn
    obtain ⟨m, hm, rfl⟩ := List.mem_map.1 hn
    exact ⟨(h.files m hm).1.writable, (h.files m hm).2.writable⟩

end Contents

/-! ## Saving and loading -/

variable {fs : FileSystem} {root : Path}

/-- After a save that the file system takes, the bytes of the document are read. -/
theorem does_save_written (h : Accepts fs root) {c : Cache} {b : Bytes}
    (hb : c.toValue.write = .ok b) :
    ∃ fs', Does (save root c) fs (.ok ()) fs' ∧ fs'.read (pathOf root) = .ok b := by
  obtain ⟨made, fs₂, f, hmake, hwritten⟩ := h
  rcases FileSystem.write_eq made (pathOf root) with ⟨fault, hwrite⟩ | ⟨place, -, -, hwrite⟩
  · rw [hwrite] at hwritten
    cases hwritten
  · refine ⟨_, ?_, FileSystem.read_of_write (hwrite ⟨b, .zero false, true⟩) rfl⟩
    unfold save
    refine Does.after_files ?_
    rw [hmake]
    refine Does.bind (Does.setFiles made) (Does.after_files ?_)
    simp only [hb, Except.toOption, Option.getD_some, hwrite]
    exact Does.bind (Does.setFiles _) (Does.tell _)

/-- **What is saved is loaded.** Contents that the format has a form for are saved wherever the file
system takes the file. From then on, loading for options with their fingerprint comes to the cache
that was saved, loading for any other options comes to none, and the cache has the entry of every
record, whose findings are checked to be those of the record. -/
theorem load_save {d : Contents} (hStorable : d.Storable) (hAccepts : Accepts fs root) :
    ∃ fs', Does (save root d.cache) fs (.ok ()) fs' ∧
      Does (load root d.fingerprint) fs' (.ok (some d.cache)) fs' ∧
      (∀ other, other ≠ d.fingerprint → Does (load root other) fs' (.ok none) fs') ∧
      ∀ m ∈ d.files, d.cache.entry? m.1 = some m.2.entry ∧
        m.2.entry.findingList = .ok m.2.findings := by
  obtain ⟨b, hb⟩ := hStorable.writable
  obtain ⟨fs', hsave, hread⟩ := does_save_written hAccepts hb
  have hdocument := MessagePack.read_write hStorable.plain hb
  refine ⟨fs', hsave, ?_, fun other hother => ?_, fun m hm => ?_⟩
  · have hvalue : ofValue d.fingerprint d.cache.toValue = .cache d.cache := ofValue_toValue rfl
    have hown : outcomeOf d.fingerprint d.cache.toValue = .ok (some d.cache) := by
      rw [outcomeOf, hvalue]
    exact hown ▸ does_load_of_document d.fingerprint hread hdocument
  · have hvalue : ofValue other d.cache.toValue = .ofOtherOptions :=
      ofValue_toValue_of_ne rfl hother
    have hnone : outcomeOf other d.cache.toValue = .ok none := by
      rw [outcomeOf, hvalue]
    exact hnone ▸ does_load_of_document other hread hdocument
  · exact ⟨Contents.entry?_cache hStorable.names hm, m.2.findingList_entry⟩

/-- A directory without a cache. -/
def emptyDirectory : FileSystem := { entries := [(["w"], .directory)] }

/-- One finding in one file, whose size takes two octets and whose column is past their range. -/
def oneRecord : Contents :=
  { fingerprint := "0123456789abcdef"
    createdAt := "2024-05-01T12:00:00"
    files := [("a.js",
      { modified := .ofInt 1700000000
        size := 65535
        language := "javascript"
        findings := [⟨"literal", "Forbidden literal", [("string", "'Hello'"), ("code", "f('é')")],
          some ⟨1, 65536, 1, 65543⟩⟩] })] }

/-- A cache of one file is saved below a directory, and loaded from there. -/
theorem load_save_oneRecord :
    oneRecord.Storable ∧ Accepts emptyDirectory ⟨.root, ["w"]⟩ ∧
      ∃ fs', Does (save ⟨.root, ["w"]⟩ oneRecord.cache) emptyDirectory (.ok ()) fs' ∧
        Does (load ⟨.root, ["w"]⟩ oneRecord.fingerprint) fs' (.ok (some oneRecord.cache)) fs' ∧
        Does (load ⟨.root, ["w"]⟩ "fedcba9876543210") fs' (.ok none) fs' := by
  have hfinding : ∀ m ∈ oneRecord.files, ∀ f ∈ m.2.findings, f.Storable := by
    intro m hm f hf
    cases List.mem_singleton.1 hm
    cases List.mem_singleton.1 hf
    exact ⟨by decide, by decide, by decide, by decide, by decide, fun s hs => by
      cases hs
      exact ⟨by decide, by decide, by decide, by decide⟩⟩
  have hrecord : ∀ m ∈ oneRecord.files, m.1.Storable ∧ m.2.Storable := by
    intro m hm
    have hm' := hm
    cases List.mem_singleton.1 hm
    exact ⟨by decide, by decide, by decide, by decide, hfinding _ hm', by decide⟩
  have hstorable : oneRecord.Storable :=
    ⟨by decide, by decide, by decide, by decide, hrecord⟩
  have haccepts : Accepts emptyDirectory ⟨.root, ["w"]⟩ :=
    ⟨_, _, ⟨[], .zero false, true⟩, rfl, rfl⟩
  obtain ⟨fs', hsave, hown, hother, -⟩ := load_save hstorable haccepts
  exact ⟨hstorable, haccepts, fs', hsave, hown, hother _ (by decide)⟩

end Cache

end LiteralLint
