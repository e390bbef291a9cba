import Mathlib.Data.List.Forall2
import LiteralLint.Proofs.CacheStore
import LiteralLint.Scan

/-!
# Loading whatever is there

The file of a cache can hold any bytes: those of another program, of another version, or what a crash
has left of a document. Loading looks at the parts of a document one after the other, and each of
them can be missing or of the wrong kind.

What a document is taken for is said here by its parts, without the order in which they are looked
at. Bytes that are no document, documents of other versions or options, and entries with missing
parts all count as no cache. Two kinds of documents are not foreseen: one that is no map, and one
that is right as far as its files, which are no map. Loading fails on these.

## Main definitions

* `Cache.Holds`, `Cache.Entry.Holds`: the members of a document hold the parts of a cache.
* `Cache.Unforeseen`: a document on which loading fails.
* `Cache.outcomeOf`: what loading a document comes to.

## Main results

* `Cache.ofValue_eq_cache`, `Cache.ofValue_eq_noMembers`: what a document is taken for.
* `Cache.load_outcome`: what is loaded, whatever is there.
-/

namespace LiteralLint.Cache

open MessagePack (Value Key)
open Job (Does)

/-! ## Parts of a document -/

/-- The members of a document hold the parts of an entry. A digest may be missing. -/
structure Entry.Holds (members : List (Key × Value)) (e : Entry) : Prop where
  modified : Value.find? "mtime" members = some e.modified
  size : Value.find? "size" members = some e.size
  language : Value.find? "language" members = some e.language
  findings : Value.find? "findings" members = some e.findings
  digest : (Value.find? "content_hash" members).getD (.text []) = e.digest

/-- The document of a file holds an entry under the same name. -/
def HoldsFile (file : Key × Value) (m : Key × Entry) : Prop :=
  file.1 = m.1 ∧ ∃ members, file.2 = .map members ∧ m.2.Holds members

/-- The members of a document hold the parts of a cache of this version, for options with a
fingerprint. The files may be missing. -/
structure Holds (options : Text) (members : List (Key × Value)) (c : Cache) : Prop where
  version : Value.find? "version" members = some (.text formatVersion)
  fingerprint : Value.find? "fingerprint" members = some (.text options)
  createdAt : Value.find? "created_at" members = some c.createdAt
  files : ∃ files, (Value.find? "files" members).getD (.map []) = .map files ∧
    List.Forall₂ HoldsFile files c.files
  ofThisVersion : c.version = formatVersion
  forOptions : c.fingerprint = options

/-- A document on which loading fails: no map, or a map of this version and for these options whose
files are no map. -/
def Unforeseen (fingerprint : Text) : Value → Prop
  | .map members =>
    Value.find? "version" members = some (.text formatVersion) ∧
      Value.find? "fingerprint" members = some (.text fingerprint) ∧
      ∃ v, Value.find? "files" members = some v ∧ ∀ files, v ≠ .map files
  | _ => True

/-! ## What a document is taken for -/

theorem needed_eq_ok {name : Text} {members : List (Key × Value)} {v : Value} :
    needed name members = .ok v ↔ Value.find? name members = some v := by
  unfold needed
  cases Value.find? name members with
  | none => exact ⟨fun h => (nomatch h), fun h => nomatch h⟩
  | some u => simp only [Except.ok.injEq, Option.some.injEq]

theorem isText_eq_true {t : Text} {v : Option Value} : isText t v = true ↔ v = some (.text t) := by
  unfold isText
  split
  · rename_i u
    simp only [beq_iff_eq, Option.some.injEq, Value.text.injEq]
    exact eq_comm
  · rename_i hne
    exact ⟨fun h => (nomatch h), fun h => absurd h (hne t)⟩

/-- An entry is read off a map that holds its parts. -/
theorem Entry.ofValue_eq_ok {v : Value} {e : Entry} :
    Entry.ofValue v = .ok e ↔ ∃ members, v = .map members ∧ e.Holds members := by
  constructor
  · intro h
    unfold Entry.ofValue at h
    split at h
    · rename_i members
      refine ⟨members, rfl, ?_⟩
      cases hmodified : needed "mtime" members with
      | error f => simp [hmodified, bind, Except.bind] at h
      | ok modified =>
      cases hsize : needed "size" members with
      | error f => simp [hmodified, hsize, bind, Except.bind] at h
      | ok size =>
      cases hlanguage : needed "language" members with
      | error f => simp [hmodified, hsize, hlanguage, bind, Except.bind] at h
      | ok language =>
      cases hfindings : needed "findings" members with
      | error f => simp [hmodified, hsize, hlanguage, hfindings, bind, Except.bind] at h
      | ok findings =>
      simp only [hmodified, hsize, hlanguage, hfindings, bind, Except.bind, pure, Except.pure,
        Except.ok.injEq] at h
      subst h
      exact ⟨needed_eq_ok.1 hmodified, needed_eq_ok.1 hsize, needed_eq_ok.1 hlanguage,
        needed_eq_ok.1 hfindings, rfl⟩
    · cases h
  · rintro ⟨members, rfl, h⟩
    unfold Entry.ofValue
    simp only [needed_eq_ok.2 h.modified, needed_eq_ok.2 h.size, needed_eq_ok.2 h.language,
      needed_eq_ok.2 h.findings, h.digest]
    rfl

/-- Entries are read off documents that hold them, in order. -/
theorem entriesOf_eq_ok {files : List (Key × Value)} {entries : List (Key × Entry)} :
    entriesOf files = .ok entries ↔ List.Forall₂ HoldsFile files entries := by
  induction files generalizing entries with
  | nil => cases entries <;> simp [entriesOf]
  | cons file rest ih =>
      obtain ⟨k, v⟩ := file
      rw [entriesOf]
      cases hv : Entry.ofValue v with
      | error f =>
          simp only [reduceCtorEq, false_iff]
          rintro (_ | ⟨⟨-, hholds⟩, -⟩)
          rw [Entry.ofValue_eq_ok.2 hholds] at hv
          cases hv
      | ok e =>
          have hfirst := Entry.ofValue_eq_ok.1 hv
          cases hrest : entriesOf rest with
          | error f =>
              simp only [Except.map, reduceCtorEq, false_iff]
              rintro (_ | ⟨-, hholds⟩)
              rw [ih.2 hholds] at hrest
              cases hrest
          | ok es =>
              simp only [Except.map, Except.ok.injEq]
              constructor
              · rintro rfl
                exact .cons ⟨rfl, hfirst⟩ (ih.1 hrest)
              · rintro (_ | @⟨_, ⟨k', e'⟩, _, es', ⟨hkey, hholds⟩, hall⟩)
                rw [Entry.ofValue_eq_ok.2 hholds, Except.ok.injEq] at hv
                rw [ih.2 hall, Except.ok.injEq] at hrest
                cases (show k = k' from hkey)
                cases (show e' = e from hv)
                rw [hrest]

theorem filesOf_eq_ok {members files : List (Key × Value)} :
    filesOf members = .ok files ↔ (Value.find? "files" members).getD (.map []) = .map files := by
  unfold filesOf
  split
  · rename_i hnone
    rw [hnone]
    simp
  · rename_i hsome
    rw [hsome]
    simp
  · rename_i v hne hsome
    rw [hsome]
    simp only [reduceCtorEq, Option.getD_some, false_iff]
    exact fun hv => hne files (by rw [hv])

theorem filesOf_eq_error {members : List (Key × Value)} :
    (∃ message, filesOf members = .error message) ↔
      ∃ v, Value.find? "files" members = some v ∧ ∀ files, v ≠ .map files := by
  unfold filesOf
  split
  · rename_i hnone
    rw [hnone]
    exact ⟨fun ⟨_, h⟩ => (nomatch h), fun ⟨_, h, _⟩ => (nomatch h)⟩
  · rename_i files hsome
    rw [hsome]
    refine ⟨fun ⟨_, h⟩ => (nomatch h), fun ⟨v, hv, hne⟩ => ?_⟩
    exact absurd (Option.some.inj hv).symm (hne files)
  · rename_i v hne hsome
    rw [hsome]
    exact ⟨fun _ => ⟨v, rfl, fun files hv => hne files (by rw [hv])⟩, fun _ => ⟨_, rfl⟩⟩

/-- Members whose version and fingerprint are right are not foreseen just if their files are no
map. -/
theorem ofMembers_eq_noMembers {options : Text} {members : List (Key × Value)} :
    (∃ message, ofMembers options members = .noMembers message) ↔
      ∃ message, filesOf members = .error message := by
  unfold ofMembers
  split
  · rename_i message herror
    exact ⟨fun _ => ⟨message, herror⟩, fun _ => ⟨message, rfl⟩⟩
  · rename_i files hfiles
    constructor
    · rintro ⟨_, h⟩
      split at h
      · cases h
      · split at h <;> cases h
    · rintro ⟨_, h⟩
      cases hfiles.symm.trans h

/-- **A document is taken for the cache whose parts it holds.** -/
theorem ofValue_eq_cache {options : Text} {v : Value} {c : Cache} :
    ofValue options v = .cache c ↔ ∃ members, v = .map members ∧ c.Holds options members := by
  constructor
  · intro h
    unfold ofValue at h
    split at h
    · rename_i members
      split at h
      · cases h
      · split at h
        · cases h
        · rename_i hversion hfingerprint
          simp only [Bool.not_eq_true', Bool.not_eq_false, isText_eq_true] at hversion hfingerprint
          unfold ofMembers at h
          split at h
          · cases h
          · rename_i files hfiles
            split at h
            · cases h
            · rename_i entries hentries
              split at h
              · cases h
              · rename_i createdAt hcreatedAt
                cases h
                exact ⟨members, rfl, hversion, hfingerprint, needed_eq_ok.1 hcreatedAt,
                  ⟨files, filesOf_eq_ok.1 hfiles, entriesOf_eq_ok.1 hentries⟩, rfl, rfl⟩
    · cases h
  · rintro ⟨members, rfl, h⟩
    obtain ⟨files, hfiles, hentries⟩ := h.files
    have hc : c = ⟨formatVersion, options, c.createdAt, c.files⟩ := by
      rw [← h.ofThisVersion, ← h.forOptions]
    rw [hc]
    simp only [ofValue, isText_eq_true.2 h.version, isText_eq_true.2 h.fingerprint, ofMembers,
      filesOf_eq_ok.2 hfiles, entriesOf_eq_ok.2 hentries, needed_eq_ok.2 h.createdAt,
      Bool.not_true, Bool.false_eq_true, if_false]

/-- **Loading fails on a document that is not foreseen**, and on no other. -/
theorem ofValue_eq_noMembers {options : Text} {v : Value} :
    (∃ message, ofValue options v = .noMembers message) ↔ Unforeseen options v := by
  cases v with
  | map members =>
    simp only [ofValue, Unforeseen, ← isText_eq_true]
    cases isText formatVersion (Value.find? "version" members) with
    | false => simp
    | true =>
    cases isText options (Value.find? "fingerprint" members) with
    | false => simp
    | true =>
    simp only [Bool.not_true, Bool.false_eq_true, if_false, true_and]
    exact ofMembers_eq_noMembers.trans filesOf_eq_error
  | _ => exact ⟨fun _ => trivial, fun _ => ⟨_, rfl⟩⟩

/-- What loading a document comes to. -/
def outcomeOf (options : Text) (v : Value) : Except Failure (Option Cache) :=
  match ofValue options v with
  | .cache c => .ok (some c)
  | .noMembers message => .error (.noRecord message)
  | _ => .ok none

theorem outcomeOf_eq_error {options : Text} {v : Value} :
    (∃ failure, outcomeOf options v = .error failure) ↔ Unforeseen options v := by
  rw [← ofValue_eq_noMembers]
  unfold outcomeOf
  cases ofValue options v <;> simp

theorem outcomeOf_eq_cache {options : Text} {v : Value} {c : Cache} :
    outcomeOf options v = .ok (some c) ↔
      ∃ members, v = .map members ∧ c.Holds options members := by
  rw [← ofValue_eq_cache]
  unfold outcomeOf
  cases ofValue options v <;> simp

/-! ## Loading -/

variable {fs : FileSystem} {root : Path}

theorem exists_of_read {b : Bytes} (h : fs.read (pathOf root) = .ok b) :
    fs.exists (pathOf root) = true := by
  obtain ⟨f, hf, -⟩ := FileSystem.file?_of_read h
  rw [FileSystem.exists, FileSystem.entry?, FileSystem.entry_of_file? hf]
  rfl

/-- What is loaded from a file that cannot be read or holds no document. -/
theorem does_load_of_no_document (options : Text)
    (h : ¬ ∃ b v, fs.read (pathOf root) = .ok b ∧ MessagePack.read b = .ok v) :
    Does (load root options) fs (.ok none) fs := by
  unfold load
  refine Does.after_files ?_
  split
  · exact Does.pure none
  · split
    · exact does_unreadable _
    · rename_i b hread
      split
      · exact does_unreadable _
      · rename_i v hv
        exact absurd ⟨b, v, hread, hv⟩ h

/-- What is loaded from a file that holds a document. -/
theorem does_load_of_document (options : Text) {b : Bytes} {v : Value}
    (hread : fs.read (pathOf root) = .ok b) (hv : MessagePack.read b = .ok v) :
    Does (load root options) fs (outcomeOf options v) fs := by
  unfold load outcomeOf
  refine Does.after_files ?_
  rw [exists_of_read hread, hread]
  simp only [Bool.not_true, Bool.false_eq_true, if_false, hv]
  cases ofValue options v with
  | cache c => exact Does.pure (some c)
  | outdated => exact Does.after_tell _ (Does.pure none)
  | ofOtherOptions => exact Does.after_tell _ (Does.pure none)
  | faulty f => exact does_unreadable _
  | noMembers message => exact Does.throw _

/-- **What is loaded, whatever is there.** Loading leaves the file system as it is. It fails just if
the file holds a document that is not foreseen, and it comes to a cache just if the file holds a
document with the parts of that cache, which is of this version and for these options then. In all
other cases there is no cache. -/
theorem load_outcome (fs : FileSystem) (root : Path) (options : Text) :
    ∃ out, Does (load root options) fs out fs ∧
      ((∃ failure, out = .error failure) ↔
        ∃ b v, fs.read (pathOf root) = .ok b ∧ MessagePack.read b = .ok v ∧
          Unforeseen options v) ∧
      (∀ c, out = .ok (some c) ↔
        ∃ b members, fs.read (pathOf root) = .ok b ∧ MessagePack.read b = .ok (.map members) ∧
          c.Holds options members) ∧
      ∀ c, out = .ok (some c) → c.version = formatVersion ∧ c.fingerprint = options := by
  by_cases hdocument : ∃ b v, fs.read (pathOf root) = .ok b ∧ MessagePack.read b = .ok v
  · obtain ⟨b, v, hread, hv⟩ := hdocument
    refine ⟨outcomeOf options v, does_load_of_document options hread hv, ?_, fun c => ?_, ?_⟩
    · rw [outcomeOf_eq_error]
      constructor
      · exact fun h => ⟨b, v, hread, hv, h⟩
      · rintro ⟨b', v', hread', hv', h⟩
        cases hread.symm.trans hread'
        cases hv.symm.trans hv'
        exact h
    · rw [outcomeOf_eq_cache]
      constructor
      · rintro ⟨members, rfl, h⟩
        exact ⟨b, members, hread, hv, h⟩
      · rintro ⟨b', members, hread', hv', h⟩
        cases hread.symm.trans hread'
        cases hv.symm.trans hv'
        exact ⟨members, rfl, h⟩
    · intro c hc
      obtain ⟨members, -, h⟩ := outcomeOf_eq_cache.1 hc
      exact ⟨h.ofThisVersion, h.forOptions⟩
  · refine ⟨.ok none, does_load_of_no_document options hdocument, ?_, fun c => ?_, ?_⟩
    · constructor
      · rintro ⟨failure, h⟩
        cases h
      · rintro ⟨b, v, hread, hv, -⟩
        exact absurd ⟨b, v, hread, hv⟩ hdocument
    · constructor
      · intro h
        cases h
      · rintro ⟨b, members, hread, hv, -⟩
        exact absurd ⟨b, _, hread, hv⟩ hdocument
    · intro c h
      cases h

/-- A cache that is loaded was made for the fingerprint that it is loaded for. -/
theorem fingerprint_of_load {fs' : FileSystem} {options : Text} {c : Cache}
    (h : Does (load root options) fs (.ok (some c)) fs') : c.fingerprint = options := by
  by_cases hdocument : ∃ b v, fs.read (pathOf root) = .ok b ∧ MessagePack.read b = .ok v
  · obtain ⟨b, v, hread, hv⟩ := hdocument
    have hout := h.outcome_eq.symm.trans (does_load_of_document options hread hv).outcome_eq
    obtain ⟨members, -, hholds⟩ := outcomeOf_eq_cache.1 hout.symm
    exact hholds.forOptions
  · cases h.outcome_eq.symm.trans (does_load_of_no_document options hdocument).outcome_eq

/-- A file system where the cache of `/w` is a single octet. -/
def oneOctet : FileSystem :=
  { entries := [(["w"], .directory), (["w", ".i18nlint"], .directory),
      (["w", ".i18nlint", "lint_cache.msgpack"], .file ⟨[0xc0], .zero false, true⟩)] }

/-- The octet of an empty value is a document, but no map: loading fails. -/
theorem load_empty_value :
    oneOctet.read (pathOf ⟨.root, ["w"]⟩) = .ok [0xc0] ∧
      ((load ⟨.root, ["w"]⟩ "abc").runOn ⟨oneOctet, []⟩).1 =
        .error (.noRecord "'NoneType' object has no attribute 'get'") := by
  have hread : oneOctet.read (pathOf ⟨.root, ["w"]⟩) = .ok [0xc0] := by rfl
  have hv : MessagePack.read [0xc0] = .ok .nil := by rfl
  exact ⟨hread, (does_load_of_document "abc" hread hv).outcome_eq⟩

end LiteralLint.Cache
