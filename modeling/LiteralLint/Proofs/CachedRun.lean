import LiteralLint.Proofs.CacheStore
import LiteralLint.Scan

/-!
# One run with a cache

A cached run takes findings over from an earlier one where a file counts as unchanged. That is right
as long as every entry of the cache says what is found in some version of its file, because
time and size, or size and digest, then tell that the version is the present one. The invariant is
stated here for a fixed directory and for the versions of its files and the options that ever
occur; a run that starts with such a cache reports what a run without one reports, and keeps such
a cache, if it can be written at all.

## Main definitions

* `World`: what does not change from run to run; `World.Lawful`: what is taken for granted of it.
* `World.EntryFor`: an entry that says what is found in a version of a file.
* `World.Holds`: a cache of such entries.
* `Scan.reportAnew`: the report on a file that is linted without a cache.

## Main results

* `World.recorded_of_fresh`: a file that counts as unchanged has the contents its entry is about.
* `World.does_lintCached`: one file of a cached run.
* `World.does_lintAllCached`: all files of a cached run.
-/

namespace LiteralLint

open MessagePack (Value Key)
open FileSystem (Straight WellNamed SameFiles)
open Job (Does)

/-! ## Reports without a cache -/

namespace FileReport

/-- A report as if nothing had been known before. -/
def anew (r : FileReport) : FileReport := { r with cached := false }

end FileReport

namespace Scan

/-- The report on a file that is linted, by its path below a root. -/
def reportOn (m : Manner) (fs : FileSystem) (path : Path) (root : Option Path)
    (language : Option Text) : Except Failure FileReport :=
  (judge m fs path language).map fun
    | .ok j =>
      { file := (reportedPath path root).toText, language := some j.language.name
        findings := j.findings }
    | .error s =>
      { file := (reportedPath path root).toText, language := language, error := some s.message }

theorem does_lintFile (m : Manner) (fs : FileSystem) (path : Path) (root : Option Path)
    (language : Option Text) :
    Does (lintFile m path root language) fs (reportOn m fs path root language) fs := by
  unfold lintFile reportOn
  refine Does.after_files ?_
  cases judge m fs path language with
  | error e => exact Does.bind_error _ (Does.lift _)
  | ok judgement =>
      refine Does.bind (Does.lift _) ?_
      cases judgement with
      | ok j => exact Does.bind (Does.tellAll _) (Does.pure _)
      | error s => exact Does.bind (Does.tell _) (Does.pure _)

/-- A file that can be linted is read, and its contents are linted in its language. -/
theorem of_judge {m : Manner} {fs : FileSystem} {path : Path} {language : Option Text}
    {j : Source.Judgement} (h : judge m fs path language = .ok (.ok j)) :
    ∃ f l, fs.file? path = some f ∧ fs.read path = .ok f.bytes ∧
      languageName path language = .ok l ∧
      Source.lint m.setting.parsers m.config l m.useTypes f.bytes = .ok j := by
  unfold judge at h
  split at h
  · cases h
  · rename_i l hl
    split at h
    · cases h
    · rename_i bytes hread
      obtain ⟨f, hf, rfl⟩ := FileSystem.file?_of_read hread
      split at h
      · rename_i j' hj
        cases h
        exact ⟨f, l, hf, hread, hl, hj⟩
      · split at h <;> cases h

/-- What a report says besides the judgement. -/
theorem of_reportOn {m : Manner} {fs : FileSystem} {path : Path} {root : Option Path}
    {language : Option Text} {r : FileReport} (h : reportOn m fs path root language = .ok r) :
    r.file = (reportedPath path root).toText ∧ r.anew = r := by
  unfold reportOn at h
  cases hjudge : judge m fs path language with
  | error e =>
      rw [hjudge] at h
      cases h
  | ok judgement =>
      rw [hjudge] at h
      cases judgement with
      | ok j =>
          cases h
          exact ⟨rfl, rfl⟩
      | error s =>
          cases h
          exact ⟨rfl, rfl⟩

/-- The report on a file of a directory that is linted without a cache. -/
def reportAnew (m : Manner) (fs : FileSystem) (directory path : Path) : Except Failure FileReport :=
  reportOn m fs path (some directory) none

theorem does_lintAnew (m : Manner) (fs : FileSystem) (directory path : Path) :
    Does (lintAnew m directory path) fs (reportAnew m fs directory path) fs :=
  does_lintFile m fs path (some directory) none

/-- Without a cache, every file of a directory is linted. -/
theorem does_lintFound_anew {plan : Plan} (h : plan.useCache = false) (fs : FileSystem)
    (directory : Path) (paths : List Path) :
    Does (lintFound plan directory paths) fs
      (paths.mapM (reportAnew plan.toManner fs directory)) fs := by
  unfold lintFound
  rw [h]
  exact Does.mapM fun p _ => does_lintAnew plan.toManner fs directory p

theorem file_of_reportAnew {m : Manner} {fs : FileSystem} {directory path : Path} {r : FileReport}
    (h : reportAnew m fs directory path = .ok r) : r.file = nameIn directory path :=
  (of_reportOn h).1

/-- Different files of a directory have different names there. -/
theorem eq_of_nameIn {directory p q : Path} (hp : p.start = directory.start)
    (hq : q.start = directory.start) (hpBelow : directory.components <+: p.components)
    (hqBelow : directory.components <+: q.components)
    (hpNames : ∀ n ∈ p.components, Path.IsName n) (hqNames : ∀ n ∈ q.components, Path.IsName n)
    (h : nameIn directory p = nameIn directory q) : p = q := by
  have hrelative : ∀ r : Path, r.start = directory.start → directory.components <+: r.components →
      (∀ n ∈ r.components, Path.IsName n) →
      directory.components ++ (Path.ofText (nameIn directory r)).components = r.components := by
    intro r hstart hbelow hnames
    obtain ⟨rest, hrest⟩ := hbelow
    have hname : nameIn directory r = Path.toText ⟨.current, rest⟩ := by
      unfold nameIn reportedPath
      rw [Option.bind_some, Path.relativeTo?_of_eq hstart hrest.symm, Option.getD_some]
    have hrestNames : ∀ n ∈ rest, Path.IsName n := by
      intro n hn
      exact hnames n (hrest ▸ List.mem_append_right _ hn)
    rw [hname, Path.components_ofText_toText hrestNames, hrest]
  have hcomponents : p.components = q.components := by
    rw [← hrelative p hp hpBelow hpNames, ← hrelative q hq hqBelow hqNames, h]
  cases p
  cases q
  simp_all

end Scan

/-! ## The world of a cache -/

/-- What does not change from run to run. -/
structure World where
  parsers : Parsers
  characters : Pattern.CharacterNames
  directory : Path
  /-- The versions of the files of the directory that ever occur. -/
  versions : Path → File → Prop
  /-- The options that ever occur, with or without the use of types. -/
  settings : Options → Bool → Prop

namespace World

open Scan (Manner nameIn judge lintCached lintAllCached lintAnew reportAnew reportOfEntry
  entryOfReport isLintable languageName)

variable (w : World)

/-- A path of names below the directory. -/
structure Below (p : Path) : Prop where
  start : p.start = w.directory.start
  inside : w.directory.components <+: p.components
  names : ∀ n ∈ p.components, Path.IsName n

/-- What is taken for granted. Two versions of a file with the same time and size are the same, and
neither digests nor fingerprints collide. -/
structure Lawful : Prop where
  absolute : w.directory.isAbsolute = true
  names : ∀ n ∈ w.directory.components, Path.IsName n
  below : ∀ p f, w.versions p f → w.Below p
  readable : ∀ p f, w.versions p f → f.readable = true
  stamps : ∀ p f g, w.versions p f → w.versions p g → f.modified.numericEq g.modified = true →
    f.bytes.length = g.bytes.length → f.bytes = g.bytes
  digests : ∀ p f g, w.versions p f → w.versions p g →
    Sha256.hexDigest f.bytes = Sha256.hexDigest g.bytes → f.bytes = g.bytes
  fingerprints : ∀ o u o' u', w.settings o u → w.settings o' u' →
    o.fingerprint u = o'.fingerprint u' → o = o' ∧ u = u'

/-- What is found in some bytes, by the path of their file and the options. -/
def Judged (o : Options) (useTypes : Bool) (p : Path) (bytes : Bytes) (j : Source.Judgement) :
    Prop :=
  ∃ c l, Configuration.ofOptions w.characters o = .ok c ∧ languageName p none = .ok l ∧
    Source.lint w.parsers c l useTypes bytes = .ok j

/-- An entry that says what is found in a version of a file. -/
def EntryFor (o : Options) (useTypes : Bool) (p : Path) (f : File) (e : Cache.Entry) : Prop :=
  ∃ j, w.Judged o useTypes p f.bytes j ∧
    e = .ofFindings f.modified f.bytes.length j.language.name j.findings (Sha256.hexDigest f.bytes)

/-- A cache for some options whose entries all say what is found in a version of their file. -/
structure Holds (o : Options) (useTypes : Bool) (c : Cache) : Prop where
  version : c.version = Cache.formatVersion
  fingerprint : c.fingerprint = o.fingerprint useTypes
  time : ∃ t, c.createdAt = .text t
  keys : (c.files.map Prod.fst).Nodup
  entries : ∀ m ∈ c.files, ∃ p f, w.versions p f ∧ m.1 = .text (nameIn w.directory p) ∧
    w.EntryFor o useTypes p f m.2

/-- A file system in which the files of the directory are versions that occur. -/
structure Shows (fs : FileSystem) : Prop where
  named : fs.WellNamed
  versions : ∀ p f, w.Below p → isLintable p = true → fs.at? p.components = some (.file f) →
    w.versions p f

/-- A way to judge programs that goes by some options. -/
structure Follows (m : Manner) (o : Options) : Prop where
  parsers : m.setting.parsers = w.parsers
  config : Configuration.ofOptions w.characters o = .ok m.config

/-- An entry that says what is found in a file as it is now. -/
def Recorded (fs : FileSystem) (o : Options) (useTypes : Bool) (p : Path) (e : Cache.Entry) :
    Prop :=
  ∃ f g, fs.file? p = some f ∧ w.versions p g ∧ g.bytes = f.bytes ∧ w.EntryFor o useTypes p g e

variable {w} {fs : FileSystem} {m : Manner} {o : Options} {useTypes : Bool} {p : Path} {c : Cache}

theorem Below.straight (hw : w.Lawful) (hp : w.Below p) : Straight p := by
  refine FileSystem.straight_of_names ?_ hp.names
  unfold Path.isAbsolute
  rw [hp.start]
  exact hw.absolute

theorem Below.eq_of_nameIn {q : Path} (hp : w.Below p) (hq : w.Below q)
    (h : nameIn w.directory p = nameIn w.directory q) : p = q :=
  Scan.eq_of_nameIn hp.start hq.start hp.inside hq.inside hp.names hq.names h

theorem Shows.version_of_file? (hw : w.Lawful) (hfs : w.Shows fs) (hp : w.Below p)
    (hlint : isLintable p = true) {f : File} (h : fs.file? p = some f) : w.versions p f :=
  hfs.versions p f hp hlint (FileSystem.at?_of_file? (hp.straight hw) h)

/-! ## Judging a file by its contents -/

/-- A file that can be linted is judged by its contents. -/
theorem judged_of_judge (hm : w.Follows m o) {j : Source.Judgement}
    (h : judge m fs p none = .ok (.ok j)) :
    ∃ f, fs.file? p = some f ∧ fs.read p = .ok f.bytes ∧ w.Judged o m.useTypes p f.bytes j := by
  obtain ⟨f, l, hf, hread, hl, hj⟩ := Scan.of_judge h
  rw [hm.parsers] at hj
  exact ⟨f, hf, hread, m.config, l, hm.config, hl, hj⟩

theorem judge_of_judged (hm : w.Follows m o) {f : File} (hf : fs.file? p = some f)
    (hread : f.readable = true) {j : Source.Judgement} (h : w.Judged o m.useTypes p f.bytes j) :
    judge m fs p none = .ok (.ok j) := by
  obtain ⟨c, l, hconfig, hl, hj⟩ := h
  cases hconfig.symm.trans hm.config
  unfold Scan.judge
  simp only [hl, FileSystem.read_of_file? hf hread, hm.parsers, hj]

/-- The report on a file that an entry is about. -/
theorem reportAnew_of_recorded (hw : w.Lawful) (hfs : w.Shows fs) (hm : w.Follows m o)
    (hp : w.Below p) (hlint : isLintable p = true) {e : Cache.Entry}
    (h : w.Recorded fs o m.useTypes p e) :
    ∃ r, reportAnew m fs w.directory p = .ok r ∧ r.error = none ∧
      reportOfEntry (nameIn w.directory p) e = .ok { r with cached := true } := by
  obtain ⟨f, g, hf, hg, hbytes, j, hj, rfl⟩ := h
  rw [hbytes] at hj
  have hreadable := hw.readable p f (hfs.version_of_file? hw hp hlint hf)
  have hjudge := judge_of_judged hm hf hreadable hj
  refine ⟨⟨nameIn w.directory p, some j.language.name, j.findings, none, false⟩, ?_, rfl, ?_⟩
  · rw [reportAnew, Scan.reportOn, hjudge]
    rfl
  · unfold Scan.reportOfEntry
    rw [Cache.Entry.findingList_ofFindings]
    rfl

/-! ## Unchanged files -/

theorem mem_files_of_entry {name : Text} {e : Cache.Entry} (h : c.entry? name = some e) :
    (.text name, e) ∈ c.files := by
  obtain ⟨before, after, hfiles, -⟩ := List.lookup_eq_some_iff.1 h
  rw [hfiles]
  simp

/-- **A file that counts as unchanged has the contents its entry is about.** -/
theorem recorded_of_fresh (hw : w.Lawful) (hfs : w.Shows fs) (hc : w.Holds o useTypes c)
    (hp : w.Below p) (hlint : isLintable p = true) {e : Cache.Entry}
    (h : Cache.freshness fs p (nameIn w.directory p) c = .fresh e) :
    w.Recorded fs o useTypes p e := by
  unfold Cache.freshness at h
  split at h
  · rename_i old f hentry hf
    obtain ⟨q, g, hg, hname, j, hj, hold⟩ := hc.entries _ (mem_files_of_entry hentry)
    have hq : p = q := hp.eq_of_nameIn (hw.below q g hg) (Key.text.inj hname)
    subst hq
    subst hold
    have hnow := hfs.version_of_file? hw hp hlint hf
    unfold Cache.freshnessOf at h
    split at h
    · cases h
    · rename_i hsize
      have hlength : g.bytes.length = f.bytes.length := by
        simpa [Cache.Entry.ofFindings, Value.eqInt, Int.ofNat_inj] using hsize
      split at h
      · rename_i htime
        cases h
        have hstamp : f.modified.numericEq g.modified = true := htime
        have hbytes := hw.stamps p f g hnow hg hstamp hlength.symm
        exact ⟨f, g, hf, hg, hbytes.symm, j, hj, rfl⟩
      · split at h
        · dsimp only at h
          split at h
          · rename_i hdigest
            cases h
            have hread := FileSystem.read_of_file? hf (hw.readable p f hnow)
            have heq : Sha256.hexDigest f.bytes = Sha256.hexDigest g.bytes := by
              simpa [Cache.digest, hread, Cache.isText, Cache.Entry.ofFindings] using
                (Bool.and_eq_true_iff.1 hdigest).2
            have hbytes := hw.digests p f g hnow hg heq
            refine ⟨f, f, hf, hnow, rfl, j, hbytes ▸ hj, ?_⟩
            rw [hbytes]
            rfl
          · cases h
        · cases h
  · cases h

/-! ## Files, one after the other -/

/-- Whether a file can be linted as it is now. -/
def Clean (m : Manner) (fs : FileSystem) (directory p : Path) : Prop :=
  ∃ r, reportAnew m fs directory p = .ok r ∧ r.error = none

variable (w) in
/-- What a run over some files makes of a cache: entries are replaced by entries for the files as
they are now, and every file that can be linted has one. -/
structure Extends (m : Manner) (fs : FileSystem) (o : Options) (paths : List Path) (c c' : Cache) :
    Prop where
  holds : w.Holds o m.useTypes c'
  origin : ∀ n ∈ c'.files, n ∈ c.files ∨
    ∃ p ∈ paths, n.1 = .text (nameIn w.directory p) ∧ w.Recorded fs o m.useTypes p n.2
  kept : ∀ n ∈ c.files, ∃ e, (n.1, e) ∈ c'.files ∧ (e = n.2 ∨
    ∃ p ∈ paths, n.1 = .text (nameIn w.directory p) ∧ w.Recorded fs o m.useTypes p e)
  covered : ∀ p ∈ paths, Clean m fs w.directory p →
    ∃ e, (.text (nameIn w.directory p), e) ∈ c'.files ∧ w.Recorded fs o m.useTypes p e

theorem Extends.refl (hc : w.Holds o m.useTypes c) : w.Extends m fs o [] c c :=
  ⟨hc, fun _ h => Or.inl h, fun n h => ⟨n.2, h, Or.inl rfl⟩, fun _ h => absurd h (by simp)⟩

/-- One file and then the rest. -/
theorem Extends.cons {c₁ c₂ : Cache} {rest : List Path}
    (hBelow : ∀ q ∈ p :: rest, w.Below q) (h : w.Extends m fs o [p] c c₁)
    (hrest : w.Extends m fs o rest c₁ c₂) : w.Extends m fs o (p :: rest) c c₂ := by
  refine ⟨hrest.holds, ?_, ?_, ?_⟩
  · intro n hn
    rcases hrest.origin n hn with hold | ⟨q, hq, hname, hrecorded⟩
    · rcases h.origin n hold with holder | ⟨q, hq, hname, hrecorded⟩
      · exact Or.inl holder
      · rw [List.mem_singleton.1 hq] at hname hrecorded
        exact Or.inr ⟨p, by simp, hname, hrecorded⟩
    · exact Or.inr ⟨q, by simp [hq], hname, hrecorded⟩
  · intro n hn
    obtain ⟨e, he, hfirst⟩ := h.kept n hn
    obtain ⟨e', he', hsecond⟩ := hrest.kept _ he
    refine ⟨e', he', ?_⟩
    rcases hsecond with rfl | ⟨q, hq, hname, hrecorded⟩
    · rcases hfirst with heq | ⟨q, hq, hname, hrecorded⟩
      · exact Or.inl heq
      · rw [List.mem_singleton.1 hq] at hname hrecorded
        exact Or.inr ⟨p, by simp, hname, hrecorded⟩
    · exact Or.inr ⟨q, by simp [hq], hname, hrecorded⟩
  · intro q hq hclean
    rcases List.mem_cons.1 hq with rfl | hq
    · obtain ⟨e, he, hrecorded⟩ := h.covered q (by simp) hclean
      obtain ⟨e', he', hnext⟩ := hrest.kept _ he
      refine ⟨e', he', ?_⟩
      rcases hnext with rfl | ⟨q', hq', hname, hrecorded'⟩
      · exact hrecorded
      · have heq : q = q' := (hBelow q (by simp)).eq_of_nameIn (hBelow q' (by simp [hq']))
          (Key.text.inj hname)
        exact heq ▸ hrecorded'
    · exact hrest.covered q hq hclean

/-- A cache with the entry of a file as it is now. -/
theorem extends_setEntry (hc : w.Holds o m.useTypes c) {e : Cache.Entry}
    (he : w.Recorded fs o m.useTypes p e) :
    w.Extends m fs o [p] c (c.setEntry (nameIn w.directory p) e) := by
  obtain ⟨f, g, hf, hg, hbytes, hentry⟩ := he
  have hrecorded : w.Recorded fs o m.useTypes p e := ⟨f, g, hf, hg, hbytes, hentry⟩
  refine ⟨⟨hc.version, hc.fingerprint, hc.time, MessagePack.nodup_setMember hc.keys, ?_⟩, ?_, ?_, ?_⟩
  · intro n hn
    rcases MessagePack.eq_or_mem_of_mem_setMember hn with rfl | hold
    · exact ⟨p, g, hg, rfl, hentry⟩
    · exact hc.entries n hold
  · intro n hn
    rcases MessagePack.eq_or_mem_of_mem_setMember hn with rfl | hold
    · exact Or.inr ⟨p, by simp, rfl, hrecorded⟩
    · exact Or.inl hold
  · intro n hn
    by_cases hkey : n.1 = .text (nameIn w.directory p)
    · refine ⟨e, ?_, Or.inr ⟨p, by simp, hkey, hrecorded⟩⟩
      rw [hkey]
      exact MessagePack.mem_setMember_self c.files
    · exact ⟨n.2, MessagePack.mem_setMember_of_ne hkey hn, Or.inl rfl⟩
  · intro q hq _
    rw [List.mem_singleton.1 hq]
    exact ⟨e, MessagePack.mem_setMember_self c.files, hrecorded⟩

/-- A file that cannot be linted leaves the cache as it is. -/
theorem extends_self (hc : w.Holds o m.useTypes c) (hp : ¬ Clean m fs w.directory p) :
    w.Extends m fs o [p] c c := by
  refine ⟨hc, fun _ h => Or.inl h, fun n h => ⟨n.2, h, Or.inl rfl⟩, ?_⟩
  intro q hq hclean
  rw [List.mem_singleton.1 hq] at hclean
  exact absurd hclean hp

/-- The entry that is made of a report without an error is about the file as it is now. -/
theorem recorded_of_entryOfReport (hw : w.Lawful) (hfs : w.Shows fs) (hm : w.Follows m o)
    (hp : w.Below p) (hlint : isLintable p = true) {r : FileReport}
    (h : reportAnew m fs w.directory p = .ok r) (hr : r.error = none) :
    ∃ e, entryOfReport fs p r = some e ∧ w.Recorded fs o m.useTypes p e := by
  unfold Scan.reportAnew Scan.reportOn at h
  cases hjudge : judge m fs p none with
  | error e =>
      rw [hjudge] at h
      cases h
  | ok judgement =>
      rw [hjudge] at h
      cases judgement with
      | error s =>
          cases h
          cases hr
      | ok j =>
          cases h
          obtain ⟨f, hf, hread, hj⟩ := judged_of_judge hm hjudge
          have hversion := hfs.version_of_file? hw hp hlint hf
          refine ⟨_, ?_, f, f, hf, hversion, rfl, j, hj, rfl⟩
          simp [Scan.entryOfReport, hf, Cache.digest, hread]

theorem entryOfReport_of_error {r : FileReport} (hr : r.error ≠ none) :
    entryOfReport fs p r = none := by
  unfold Scan.entryOfReport
  split
  · exact absurd ‹_› hr
  · rfl

/-- **One file of a cached run** is reported as it would be without a cache. -/
theorem does_lintCached (hw : w.Lawful) (hfs : w.Shows fs) (hm : w.Follows m o)
    (hc : w.Holds o m.useTypes c) (hp : w.Below p) (hlint : isLintable p = true) {r : FileReport}
    (h : reportAnew m fs w.directory p = .ok r) :
    ∃ r' c', Does (lintCached m w.directory p c) fs (.ok (r', c')) fs ∧ r'.anew = r ∧
      w.Extends m fs o [p] c c' := by
  have hanew := (Scan.of_reportOn h).2
  have hlinted := Scan.does_lintAnew m fs w.directory p
  rw [h] at hlinted
  unfold Scan.lintCached
  cases hfresh : Cache.freshness fs p (nameIn w.directory p) c with
  | fresh e =>
      have hrecorded := recorded_of_fresh hw hfs hc hp hlint hfresh
      obtain ⟨r', hr', hnone, hreport⟩ := reportAnew_of_recorded hw hfs hm hp hlint hrecorded
      cases h.symm.trans hr'
      refine ⟨{ r with cached := true }, _, Does.after_files ?_, hanew,
        extends_setEntry hc hrecorded⟩
      rw [hfresh]
      exact Does.bind (hreport ▸ Does.lift _) (Does.pure _)
  | stale =>
      by_cases hr : r.error = none
      · obtain ⟨e, he, hrecorded⟩ := recorded_of_entryOfReport hw hfs hm hp hlint h hr
        refine ⟨r, _, Does.after_files ?_, hanew, extends_setEntry hc hrecorded⟩
        rw [hfresh]
        refine Does.bind hlinted (Does.after_files ?_)
        rw [he]
        exact Does.pure _
      · have hdirty : ¬ Clean m fs w.directory p := by
          rintro ⟨r', hr', hnone⟩
          cases h.symm.trans hr'
          exact hr hnone
        refine ⟨r, c, Does.after_files ?_, hanew, extends_self hc hdirty⟩
        rw [hfresh]
        refine Does.bind hlinted (Does.after_files ?_)
        rw [entryOfReport_of_error hr]
        exact Does.pure _

/-- A failure to lint a file is one with a cache too. -/
theorem does_lintCached_error (hw : w.Lawful) (hfs : w.Shows fs) (hm : w.Follows m o)
    (hc : w.Holds o m.useTypes c) (hp : w.Below p) (hlint : isLintable p = true) {e : Failure}
    (h : reportAnew m fs w.directory p = .error e) :
    Does (lintCached m w.directory p c) fs (.error e) fs := by
  have hlinted := Scan.does_lintAnew m fs w.directory p
  rw [h] at hlinted
  unfold Scan.lintCached
  refine Does.after_files ?_
  cases hfresh : Cache.freshness fs p (nameIn w.directory p) c with
  | fresh entry =>
      have hrecorded := recorded_of_fresh hw hfs hc hp hlint hfresh
      obtain ⟨r, hr, -, -⟩ := reportAnew_of_recorded hw hfs hm hp hlint hrecorded
      rw [h] at hr
      cases hr
  | stale => exact Does.bind_error _ hlinted

/-- **All files of a cached run** are reported as they would be without a cache. -/
theorem does_lintAllCached (hw : w.Lawful) (hfs : w.Shows fs) (hm : w.Follows m o)
    {paths : List Path} :
    ∀ {c : Cache} {rs : List FileReport}, w.Holds o m.useTypes c →
      (∀ p ∈ paths, w.Below p ∧ isLintable p = true) →
      paths.mapM (reportAnew m fs w.directory) = .ok rs →
      ∃ rs' c', Does (lintAllCached m w.directory paths c) fs (.ok (rs', c')) fs ∧
        rs'.map FileReport.anew = rs ∧ w.Extends m fs o paths c c' := by
  induction paths with
  | nil =>
      intro c rs hc _ h
      cases h
      exact ⟨[], c, Does.pure _, rfl, Extends.refl hc⟩
  | cons p paths ih =>
      intro c rs hc hpaths h
      obtain ⟨hp, hlint⟩ := hpaths p (by simp)
      rw [List.mapM_cons] at h
      cases hr : reportAnew m fs w.directory p with
      | error e =>
          rw [hr] at h
          cases h
      | ok r =>
          cases hrest : paths.mapM (reportAnew m fs w.directory) with
          | error e =>
              rw [hr, hrest] at h
              cases h
          | ok rest =>
              rw [hr, hrest] at h
              cases h
              obtain ⟨r', c₁, hdoes, hanew, hextends⟩ := does_lintCached hw hfs hm hc hp hlint hr
              obtain ⟨rs', c₂, hdoes', hanew', hextends'⟩ :=
                ih hextends.holds (fun q hq => hpaths q (by simp [hq])) hrest
              refine ⟨r' :: rs', c₂, Does.bind hdoes (Does.bind hdoes' (Does.pure _)), ?_,
                Extends.cons (fun q hq => (hpaths q hq).1) hextends hextends'⟩
              rw [List.map_cons, hanew, hanew']

/-- A failure to lint one of the files is one with a cache too. -/
theorem does_lintAllCached_error (hw : w.Lawful) (hfs : w.Shows fs) (hm : w.Follows m o)
    {paths : List Path} {e : Failure} :
    ∀ {c : Cache}, w.Holds o m.useTypes c →
      (∀ p ∈ paths, w.Below p ∧ isLintable p = true) →
      paths.mapM (reportAnew m fs w.directory) = .error e →
      Does (lintAllCached m w.directory paths c) fs (.error e) fs := by
  induction paths with
  | nil =>
      intro c _ _ h
      cases h
  | cons p paths ih =>
      intro c hc hpaths h
      obtain ⟨hp, hlint⟩ := hpaths p (by simp)
      rw [List.mapM_cons] at h
      cases hr : reportAnew m fs w.directory p with
      | error e' =>
          rw [hr] at h
          cases h
          exact Does.bind_error _ (does_lintCached_error hw hfs hm hc hp hlint hr)
      | ok r =>
          cases hrest : paths.mapM (reportAnew m fs w.directory) with
          | ok rest =>
              rw [hr, hrest] at h
              cases h
          | error e' =>
              rw [hr, hrest] at h
              cases h
              obtain ⟨r', c₁, hdoes, -, hextends⟩ := does_lintCached hw hfs hm hc hp hlint hr
              exact Does.bind hdoes (Does.bind_error _
                (ih hextends.holds (fun q hq => hpaths q (by simp [hq])) hrest))

/-! ## The cache of a run -/

variable (w) in
/-- A file system whose cache file, if it is not empty, holds a cache that holds. -/
def Trusts (fs : FileSystem) : Prop :=
  ∀ f, fs.at? (Cache.pathOf w.directory).components = some (.file f) →
    f.bytes = [] ∨ ∃ o u c, w.settings o u ∧ w.Holds o u c ∧ c.toValue.write = .ok f.bytes

theorem Holds.wellMade (hc : w.Holds o useTypes c) : c.WellMade := by
  refine ⟨hc.version, hc.time, hc.keys, ?_⟩
  intro n hn
  obtain ⟨p, f, -, -, j, ⟨config, l, -, -, hj⟩, he⟩ := hc.entries n hn
  exact ⟨_, _, _, _, _, he, Source.lint_fields hj⟩

theorem Lawful.straight (hw : w.Lawful) : Straight w.directory :=
  FileSystem.straight_of_names hw.absolute hw.names

/-- A run starts with a cache that holds, of which every part can be written. -/
theorem does_startingCache (hw : w.Lawful) (ht : w.Trusts fs) (hset : w.settings o useTypes)
    (setting : Setting) :
    ∃ c, Does (Scan.startingCache setting w.directory (o.fingerprint useTypes)) fs (.ok c) fs ∧
      w.Holds o useTypes c ∧
      c.files.map Prod.fst = Cache.known fs w.directory (o.fingerprint useTypes) ∧
      ∀ n ∈ c.files, (Value.ofKey n.1).Writable ∧ n.2.toValue.Writable := by
  have hfile : ∀ f, fs.at? (Cache.pathOf w.directory).components = some (.file f) →
      f.bytes = [] ∨ ∃ c, (∃ o u, w.settings o u ∧ w.Holds o u c) ∧
        c.toValue.write = .ok f.bytes := by
    intro f hf
    rcases ht f hf with hempty | ⟨o', u', c, hset', hc, hbytes⟩
    · exact Or.inl hempty
    · exact Or.inr ⟨c, ⟨o', u', hset', hc⟩, hbytes⟩
  have hmade : ∀ c, (∃ o u, w.settings o u ∧ w.Holds o u c) → c.WellMade := by
    rintro c ⟨o', u', -, hc⟩
    exact hc.wellMade
  unfold Scan.startingCache
  rcases Cache.does_load hmade hw.straight (o.fingerprint useTypes) hfile with
    hnone | ⟨c, ⟨o', u', hset', hc⟩, hwritable, hfingerprint, hload⟩
  · refine ⟨.fresh (o.fingerprint useTypes) setting.now, Does.bind hnone (Does.pure _),
      ⟨rfl, rfl, ⟨_, rfl⟩, List.nodup_nil, fun n hn => absurd hn (by simp [Cache.fresh])⟩, ?_, ?_⟩
    · rw [Cache.known_of_load_none hnone]
      rfl
    · exact fun n hn => absurd hn (by simp [Cache.fresh])
  · have hsame := hw.fingerprints o' u' o useTypes hset' hset (hc.fingerprint.symm.trans hfingerprint)
    rw [hsame.1, hsame.2] at hc
    refine ⟨c, Does.bind hload (Does.after_tell _ (Does.pure c)), hc,
      (Cache.known_of_load hload).symm, ?_⟩
    have hparts := (Cache.writable_toValue hc.version
      (hc.fingerprint ▸ o.writable_fingerprint useTypes)).1 hwritable
    exact hparts.2.2

end World

end LiteralLint
