import LiteralLint.Proofs.KeptCache

/-!
# What a run makes of each file

A run with a cache meets entries of all ages: of files that are as they were, that were only
touched, that have changed, or that cannot be linted any more. What it makes of each of them is
settled at once. An entry that is served, and an entry that was just made, count as unchanged as long
as the file stays, and the report that is made of them is the report of this run; a file that cannot
be linted leaves its entry alone, which was of no use before and is of none now. Other files do not
come into it, since every file has a name of its own.

No trust in times, sizes or digests is needed for this. If they do not tell two versions of a file
apart, a run serves an old report, and the next run serves it again.

## Main definitions

* `Scan.Keeps`: an entry that keeps a report on a file as it is now.
* `Scan.Step`, `Scan.Steps`: what a run makes of one file, and of all files.
* `Scan.Settled`: a file whose report the next run repeats.

## Main results

* `Cache.freshnessOf_again`: an entry that is served counts as unchanged again.
* `Scan.Step.settled`, `Scan.Steps.settled`: **one file, and all files, are settled by a run**.
* `Scan.Steps.of_settled`: what the next run makes of them.
* `Scan.Steps.filesWritable`: when all entries can be written.
-/

namespace LiteralLint

open MessagePack (Value Key)
open Job (Does)

/-! ## Setting entries -/

namespace Cache

variable {c : Cache} {name : Text} {e : Entry}

theorem entry?_setEntry_self (c : Cache) (name : Text) (e : Entry) :
    entry? (c.setEntry name e) name = some e :=
  MessagePack.lookup_setMember_self c.files

theorem entry?_setEntry_of_ne {other : Text} (h : other ≠ name) :
    entry? (c.setEntry name e) other = c.entry? other :=
  MessagePack.lookup_setMember_of_ne (fun heq => h (Key.text.inj heq)) c.files

theorem setEntry_of_entry? (h : c.entry? name = some e) : c.setEntry name e = c := by
  unfold setEntry
  rw [MessagePack.setMember_of_lookup h]

theorem WellMade.setEntry (hc : c.WellMade) (he : e.Regular) (name : Text) :
    (c.setEntry name e).WellMade := by
  refine ⟨hc.version, hc.time, MessagePack.nodup_setMember hc.keys, ?_⟩
  intro m hm
  rcases MessagePack.eq_or_mem_of_mem_setMember hm with rfl | hold
  · exact he
  · exact hc.entries m hold

theorem WellMade.regular (hc : c.WellMade) (h : c.entry? name = some e) : e.Regular :=
  hc.entries _ (World.mem_files_of_entry h)

/-! ## Entries that count as unchanged -/

variable {fs : FileSystem} {p : Path} {f : File} {e' : Entry}

/-- An unchanged file has the size of its entry, and its time once the entry is served. -/
theorem of_freshnessOf (h : freshnessOf fs p f e = .fresh e') :
    e.size.eqInt f.bytes.length = true ∧
      (e' = e ∧ e.modified.eqReal f.modified = true ∨
        e' = { e with modified := .real f.modified }) := by
  unfold freshnessOf at h
  split at h
  · cases h
  · rename_i hsize
    refine ⟨by simpa using hsize, ?_⟩
    split at h
    · rename_i htime
      cases h
      exact Or.inl ⟨rfl, htime⟩
    · split at h
      · dsimp only at h
        split at h
        · cases h
          exact Or.inr rfl
        · cases h
      · cases h

/-- **An entry that is served counts as unchanged again**, and is served as it is. -/
theorem freshnessOf_again (h : freshnessOf fs p f e = .fresh e') :
    freshnessOf fs p f e' = .fresh e' := by
  have hparts := of_freshnessOf h
  unfold freshnessOf at h
  rw [hparts.1] at h
  simp only [Bool.not_true, Bool.false_eq_true, if_false] at h
  split at h
  · rename_i htime
    cases h
    simp [freshnessOf, hparts.1, htime]
  · split at h
    · rename_i hsubstantial
      split at h
      · rename_i hdigest
        cases h
        unfold freshnessOf
        simp only [hparts.1, Bool.not_true, Bool.false_eq_true, if_false, hsubstantial, hdigest,
          if_true]
        split <;> rfl
      · cases h
    · cases h

/-- An entry that was made of a file as it is now counts as unchanged. -/
theorem freshnessOf_ofFindings (hread : fs.read p = .ok f.bytes) (language : Text)
    (findings : List Finding) :
    freshnessOf fs p f (.ofFindings f.modified f.bytes.length language findings (digest fs p)) =
      .fresh (.ofFindings f.modified f.bytes.length language findings (digest fs p)) := by
  have hdigest : digest fs p = Sha256.hexDigest f.bytes := by
    unfold digest
    rw [hread]
  have hne := Sha256.hexDigest_ne_nil f.bytes
  unfold freshnessOf Entry.ofFindings
  simp [Value.eqInt, Value.isSubstantial, isText, hdigest, hne]

/-- An entry that was made of the bytes of a file counts as unchanged, whatever its time is: if the
file was only touched, its digest tells. -/
theorem exists_freshnessOf_ofFindings (hread : fs.read p = .ok f.bytes) (time : Binary64)
    (language : Text) (findings : List Finding) :
    ∃ e', freshnessOf fs p f (.ofFindings time f.bytes.length language findings
      (Sha256.hexDigest f.bytes)) = .fresh e' := by
  have hdigest : digest fs p = Sha256.hexDigest f.bytes := by
    unfold digest
    rw [hread]
  have hne := Sha256.hexDigest_ne_nil f.bytes
  unfold freshnessOf Entry.ofFindings
  by_cases htime : (Value.real time).eqReal f.modified = true
  · exact ⟨_, by simp only [Value.eqInt, BEq.rfl, Bool.not_true, htime]; rfl⟩
  · refine ⟨.ofFindings f.modified f.bytes.length language findings (Sha256.hexDigest f.bytes), ?_⟩
    simp [Value.eqInt, Value.isSubstantial, isText, hdigest, hne, htime, Entry.ofFindings]

end Cache

namespace FileReport

/-- The report of the next run: what could be linted is known by then. -/
def again (r : FileReport) : FileReport := { r with cached := r.error.isNone }

end FileReport

namespace Scan

/-! ## Entries that keep a report -/

/-- Whether two times are the same. Zeros of both signs are. -/
def SameTime (x y : Binary64) : Prop := x = y ∨ x.numericEq y = true

/-- An entry that keeps a report: it has the language and the findings of the report, and the time
and the size of the file as it is now. -/
def Keeps (fs : FileSystem) (p : Path) (r : FileReport) (e : Cache.Entry) : Prop :=
  ∃ f language time digest, fs.file? p = some f ∧ r.language = some language ∧
    SameTime f.modified time ∧ e = .ofFindings time f.bytes.length language r.findings digest

/-- An entry that keeps a report and will be served as long as the file stays as it is. -/
structure Guards (fs : FileSystem) (p : Path) (r : FileReport) (e : Cache.Entry) : Prop where
  keeps : Keeps fs p r e
  fields : ∀ x ∈ r.findings, (x.data.map Prod.fst).Nodup
  fresh : ∀ f, fs.file? p = some f → Cache.freshnessOf fs p f e = .fresh e

/-- The same manner at another time. -/
def Manner.atTime (m : Manner) (now : Text) : Manner :=
  { m with setting := { m.setting with now := now } }

variable {m : Manner} {fs fs' : FileSystem} {directory p : Path} {c c' : Cache} {r : FileReport}
  {e : Cache.Entry}

namespace Guards

theorem regular (h : Guards fs p r e) : e.Regular := by
  obtain ⟨f, language, time, digest, -, -, -, he⟩ := h.keeps
  exact ⟨time, f.bytes.length, language, r.findings, digest, he, h.fields⟩

theorem freshness_eq (h : Guards fs p r e) {name : Text} (he : c.entry? name = some e) :
    Cache.freshness fs p name c = .fresh e := by
  obtain ⟨f, -, -, -, hf, -⟩ := h.keeps
  unfold Cache.freshness
  rw [he, hf]
  exact h.fresh f hf

theorem reportOfEntry_eq (h : Guards fs p r e) (hr : r.error = none) :
    reportOfEntry r.file e = .ok r.again := by
  obtain ⟨f, language, time, digest, -, hlanguage, -, rfl⟩ := h.keeps
  unfold reportOfEntry
  rw [Cache.Entry.findingList_ofFindings]
  show Except.ok _ = _
  obtain ⟨file, _, findings, _, cached⟩ := r
  cases hlanguage
  cases hr
  rfl

end Guards

/-- A report is made of an entry that is served, and the entry keeps it. -/
theorem guards_of_fresh {old : Cache.Entry} {f : File} (hold : old.Regular)
    (hf : fs.file? p = some f) (h : Cache.freshnessOf fs p f old = .fresh e) (name : Text) :
    ∃ r, reportOfEntry name e = .ok r ∧ r.error = none ∧ Guards fs p r e := by
  obtain ⟨hsize, htime⟩ := Cache.of_freshnessOf h
  have hagain := Cache.freshnessOf_again h
  obtain ⟨modified, size, language, findings, digest, rfl, hfields⟩ := hold
  have hlength : size = f.bytes.length := by
    simpa [Cache.Entry.ofFindings, Value.eqInt, Int.ofNat_inj] using hsize
  obtain ⟨time, hsame, he⟩ : ∃ time, SameTime f.modified time ∧
      e = .ofFindings time f.bytes.length language findings digest := by
    rcases htime with ⟨rfl, hmodified⟩ | rfl
    · exact ⟨modified, Or.inr hmodified, by rw [hlength]⟩
    · exact ⟨f.modified, Or.inl rfl, by rw [← hlength]; rfl⟩
  subst he
  refine ⟨{ file := name, language := some language, findings := findings, cached := true }, ?_,
    rfl, ⟨f, language, time, digest, hf, rfl, hsame, rfl⟩, hfields, ?_⟩
  · unfold reportOfEntry
    rw [Cache.Entry.findingList_ofFindings]
    rfl
  · intro g hg
    cases hf.symm.trans hg
    exact hagain

/-- A report on a file that was linted. -/
theorem of_reportAnew (h : reportAnew m fs directory p = .ok r) (hr : r.error = none) :
    ∃ f, fs.file? p = some f ∧ fs.read p = .ok f.bytes ∧
      (∀ x ∈ r.findings, (x.data.map Prod.fst).Nodup) ∧
      ∃ l : Language, r.language = some l.name := by
  unfold reportAnew reportOn at h
  cases hjudge : judge m fs p none with
  | error failure =>
      rw [hjudge] at h
      cases h
  | ok judgement =>
      rw [hjudge] at h
      cases judgement with
      | error s =>
          cases h
          cases hr
      | ok j =>
          cases h
          obtain ⟨f, l, hf, hread, -, hlint⟩ := of_judge hjudge
          exact ⟨f, hf, hread, Source.lint_fields hlint, j.language, rfl⟩

/-- What an entry that was just made keeps. -/
theorem guards_of_reportAnew (h : reportAnew m fs directory p = .ok r)
    (he : entryOfReport fs p r = some e) : Guards fs p r e ∧ r.error = none := by
  unfold entryOfReport at he
  split at he
  · rename_i f hr hf
    obtain ⟨f', hf', hread, hfields, l, hlanguage⟩ := of_reportAnew h hr
    cases hf.symm.trans hf'
    cases he
    refine ⟨⟨⟨f, l.name, f.modified, Cache.digest fs p, hf, hlanguage, Or.inl rfl, ?_⟩, hfields, ?_⟩,
      hr⟩
    · rw [hlanguage, Option.getD_some]
    · intro g hg
      cases hf.symm.trans hg
      exact Cache.freshnessOf_ofFindings hread _ _
  · cases he

theorem exists_entryOfReport (h : reportAnew m fs directory p = .ok r) (hr : r.error = none) :
    ∃ e, entryOfReport fs p r = some e := by
  obtain ⟨f, hf, -⟩ := of_reportAnew h hr
  unfold entryOfReport
  rw [hr, hf]
  exact ⟨_, rfl⟩

/-- What a report that is made of an entry says besides the entry. -/
theorem of_reportOfEntry {name : Text} (h : reportOfEntry name e = .ok r) :
    r.file = name ∧ r.cached = true := by
  unfold reportOfEntry at h
  cases hfindings : e.findingList with
  | error failure =>
      rw [hfindings] at h
      cases h
  | ok findings =>
      cases hlanguage : e.language? with
      | error failure =>
          rw [hfindings, hlanguage] at h
          cases h
      | ok language =>
          rw [hfindings, hlanguage] at h
          cases h
          exact ⟨rfl, rfl⟩

/-! ## What a run makes of one file -/

/-- What a run with a cache makes of a file: a report, and another cache. -/
inductive Step (m : Manner) (fs : FileSystem) (directory : Path) (c : Cache) (p : Path) :
    FileReport → Cache → Prop
  /-- The file has not changed, and its entry is served. -/
  | served {e : Cache.Entry} {r : FileReport}
      (hfresh : Cache.freshness fs p (nameIn directory p) c = .fresh e)
      (hreport : reportOfEntry (nameIn directory p) e = .ok r) :
      Step m fs directory c p r (c.setEntry (nameIn directory p) e)
  /-- The file has changed, and a new entry is made. -/
  | linted {e : Cache.Entry} {r : FileReport}
      (hstale : Cache.freshness fs p (nameIn directory p) c = .stale)
      (hreport : reportAnew m fs directory p = .ok r) (hentry : entryOfReport fs p r = some e) :
      Step m fs directory c p r (c.setEntry (nameIn directory p) e)
  /-- The file has changed and cannot be linted. Its entry, if it has one, stays. -/
  | failed {r : FileReport} (hstale : Cache.freshness fs p (nameIn directory p) c = .stale)
      (hreport : reportAnew m fs directory p = .ok r) (hentry : entryOfReport fs p r = none) :
      Step m fs directory c p r c

namespace Step

theorem does (h : Step m fs directory c p r c') :
    Does (lintCached m directory p c) fs (.ok (r, c')) fs := by
  unfold lintCached
  refine Does.after_files ?_
  cases h with
  | served hfresh hreport =>
      rw [hfresh]
      exact Does.bind (hreport ▸ Does.lift _) (Does.pure _)
  | linted hstale hreport hentry =>
      rw [hstale]
      refine Does.bind (hreport ▸ does_lintAnew m fs directory p) (Does.after_files ?_)
      rw [hentry]
      exact Does.pure _
  | failed hstale hreport hentry =>
      rw [hstale]
      refine Does.bind (hreport ▸ does_lintAnew m fs directory p) (Does.after_files ?_)
      rw [hentry]
      exact Does.pure _

theorem file_eq (h : Step m fs directory c p r c') : r.file = nameIn directory p := by
  cases h with
  | served hfresh hreport => exact (of_reportOfEntry hreport).1
  | linted hstale hreport hentry => exact file_of_reportAnew hreport
  | failed hstale hreport hentry => exact file_of_reportAnew hreport

/-- What becomes of the cache: nothing, or an entry of the file is set that keeps the report. -/
theorem changes (hc : c.WellMade) (h : Step m fs directory c p r c') :
    (∃ e, c' = c.setEntry (nameIn directory p) e ∧ Guards fs p r e ∧ r.error = none) ∨
      c' = c ∧ Cache.freshness fs p (nameIn directory p) c = .stale ∧
        reportAnew m fs directory p = .ok r ∧ r.error ≠ none := by
  cases h with
  | @served e r hfresh hreport =>
      left
      unfold Cache.freshness at hfresh
      split at hfresh
      · rename_i old f hold hf
        obtain ⟨r', hr', hnone, hguards⟩ :=
          guards_of_fresh (hc.regular hold) hf hfresh (nameIn directory p)
        cases hreport.symm.trans hr'
        exact ⟨e, rfl, hguards, hnone⟩
      · cases hfresh
  | @linted e r hstale hreport hentry =>
      obtain ⟨hguards, hnone⟩ := guards_of_reportAnew hreport hentry
      exact Or.inl ⟨e, rfl, hguards, hnone⟩
  | failed hstale hreport hentry =>
      refine Or.inr ⟨rfl, hstale, hreport, fun hnone => ?_⟩
      obtain ⟨e, he⟩ := exists_entryOfReport hreport hnone
      rw [hentry] at he
      cases he

theorem wellMade (hc : c.WellMade) (h : Step m fs directory c p r c') :
    c'.WellMade ∧ c'.fingerprint = c.fingerprint := by
  rcases h.changes hc with ⟨e, rfl, hguards, -⟩ | ⟨rfl, -⟩
  · exact ⟨hc.setEntry hguards.regular _, rfl⟩
  · exact ⟨hc, rfl⟩

theorem entry?_of_ne (hc : c.WellMade) (h : Step m fs directory c p r c') {name : Text}
    (hname : name ≠ nameIn directory p) : c'.entry? name = c.entry? name := by
  rcases h.changes hc with ⟨e, rfl, -⟩ | ⟨rfl, -⟩
  · exact Cache.entry?_setEntry_of_ne hname
  · rfl

end Step

/-- A run makes something of every file, unless linting it ends the run. -/
theorem exists_step (hc : c.WellMade) (m : Manner) (fs : FileSystem) (directory p : Path) :
    (∃ r c', Step m fs directory c p r c') ∨
      ∃ failure, reportAnew m fs directory p = .error failure ∧
        Does (lintCached m directory p c) fs (.error failure) fs := by
  cases hfresh : Cache.freshness fs p (nameIn directory p) c with
  | fresh e =>
      have hserved := hfresh
      unfold Cache.freshness at hserved
      split at hserved
      · rename_i old f hold hf
        obtain ⟨r, hreport, -⟩ :=
          guards_of_fresh (hc.regular hold) hf hserved (nameIn directory p)
        exact Or.inl ⟨r, _, .served hfresh hreport⟩
      · cases hserved
  | stale =>
      cases hreport : reportAnew m fs directory p with
      | ok r =>
          cases hentry : entryOfReport fs p r with
          | some e => exact Or.inl ⟨r, _, .linted hfresh hreport hentry⟩
          | none => exact Or.inl ⟨r, c, .failed hfresh hreport hentry⟩
      | error failure =>
          refine Or.inr ⟨failure, rfl, ?_⟩
          unfold lintCached
          refine Does.after_files ?_
          rw [hfresh]
          exact Does.bind_error _ (hreport ▸ does_lintAnew m fs directory p)

/-! ## Files that are settled -/

/-- A file whose report the next run repeats, and whose entry it leaves as it is. -/
inductive Settled (m : Manner) (fs : FileSystem) (directory : Path) (c : Cache) (p : Path)
    (r : FileReport) : Prop
  /-- An entry keeps the report. -/
  | kept {e : Cache.Entry} (hfile : r.file = nameIn directory p)
      (hentry : c.entry? (nameIn directory p) = some e) (hguards : Guards fs p r e)
      (hnone : r.error = none)
  /-- There is no entry that can be served, and the file cannot be linted. -/
  | failing (hstale : Cache.freshness fs p (nameIn directory p) c = .stale)
      (hreport : reportAnew m fs directory p = .ok r) (herror : r.error ≠ none)

/-- **One file is settled by a run.** -/
theorem Step.settled (hc : c.WellMade) (h : Step m fs directory c p r c') :
    Settled m fs directory c' p r := by
  rcases h.changes hc with ⟨e, rfl, hguards, hnone⟩ | ⟨rfl, hstale, hreport, herror⟩
  · exact .kept h.file_eq (Cache.entry?_setEntry_self _ _ _) hguards hnone
  · exact .failing hstale hreport herror

namespace Settled

/-- The next run repeats the report, and the cache stays as it is. -/
theorem step (h : Settled m fs directory c p r) : Step m fs directory c p r.again c := by
  cases h with
  | @kept e hfile hentry hguards hnone =>
      have hserved : Step m fs directory c p r.again (c.setEntry (nameIn directory p) e) :=
        .served (hguards.freshness_eq hentry) (hfile ▸ hguards.reportOfEntry_eq hnone)
      rwa [Cache.setEntry_of_entry? hentry] at hserved
  | failing hstale hreport herror =>
      have hagain : r.again = r := by
        have hanew := (of_reportOn hreport).2
        rw [FileReport.again, Option.isNone_eq_false_iff.2 (Option.ne_none_iff_isSome.1 herror)]
        exact hanew
      rw [hagain]
      exact .failed hstale hreport (World.entryOfReport_of_error herror)

/-- The entry of the file is all that matters in a cache. -/
theorem of_entry?_eq (h : Settled m fs directory c p r)
    (hentry : c'.entry? (nameIn directory p) = c.entry? (nameIn directory p)) :
    Settled m fs directory c' p r := by
  cases h with
  | kept hfile hold hguards hnone => exact .kept hfile (hentry.trans hold) hguards hnone
  | failing hstale hreport herror =>
      refine .failing ?_ hreport herror
      unfold Cache.freshness at hstale ⊢
      rwa [hentry]

/-- The file is all that matters in a file system, and the time of the run does not matter. -/
theorem of_file?_eq (h : Settled m fs directory c p r) (hfile : fs'.file? p = fs.file? p)
    (hread : fs'.read p = fs.read p) (now : Text) :
    Settled (m.atTime now) fs' directory c p r := by
  have hfreshness : ∀ f e, Cache.freshnessOf fs' p f e = Cache.freshnessOf fs p f e := by
    intro f e
    unfold Cache.freshnessOf Cache.digest
    rw [hread]
  cases h with
  | kept hname hentry hguards hnone =>
      obtain ⟨hkeeps, hfields, hfresh⟩ := hguards
      refine .kept hname hentry ⟨?_, hfields, ?_⟩ hnone
      · unfold Keeps
        rwa [hfile]
      · intro f hf
        rw [hfreshness]
        exact hfresh f (hfile ▸ hf)
  | failing hstale hreport herror =>
      refine .failing ?_ ?_ herror
      · unfold Cache.freshness at hstale ⊢
        rw [hfile]
        simpa only [hfreshness] using hstale
      · unfold reportAnew reportOn judge at hreport ⊢
        rwa [hread]

/-- A step does not undo what is settled: a settled file stays as it is when its turn comes, and the
turn of another file is none of its business. -/
theorem after_step {q : Path} {s : FileReport} (hc : c.WellMade)
    (hs : Settled m fs directory c q s) (h : Step m fs directory c p r c')
    (hpq : nameIn directory q = nameIn directory p → q = p) : Settled m fs directory c' q s := by
  by_cases hname : nameIn directory q = nameIn directory p
  · have hsame := hpq hname
    subst hsame
    have heq := h.does.outcome_eq.symm.trans hs.step.does.outcome_eq
    cases heq
    exact hs
  · exact hs.of_entry?_eq (h.entry?_of_ne hc hname)

end Settled

/-! ## What a run makes of all files -/

/-- What a run with a cache makes of files, one after the other. -/
inductive Steps (m : Manner) (fs : FileSystem) (directory : Path) :
    List Path → Cache → List FileReport → Cache → Prop
  | nil {c : Cache} : Steps m fs directory [] c [] c
  | cons {p : Path} {paths : List Path} {c c₁ c₂ : Cache} {r : FileReport} {rs : List FileReport}
      (h : Step m fs directory c p r c₁) (hrest : Steps m fs directory paths c₁ rs c₂) :
      Steps m fs directory (p :: paths) c (r :: rs) c₂

variable {paths : List Path} {rs : List FileReport}

namespace Steps

theorem does (h : Steps m fs directory paths c rs c') :
    Does (lintAllCached m directory paths c) fs (.ok (rs, c')) fs := by
  induction h with
  | nil => exact Does.pure _
  | cons h _ ih => exact Does.bind h.does (Does.bind ih (Does.pure _))

theorem wellMade (h : Steps m fs directory paths c rs c') (hc : c.WellMade) :
    c'.WellMade ∧ c'.fingerprint = c.fingerprint := by
  induction h with
  | nil => exact ⟨hc, rfl⟩
  | cons h _ ih =>
      obtain ⟨hmade, hfingerprint⟩ := h.wellMade hc
      exact ⟨(ih hmade).1, (ih hmade).2.trans hfingerprint⟩

theorem after_steps {q : Path} {s : FileReport} (h : Steps m fs directory paths c rs c')
    (hc : c.WellMade) (hs : Settled m fs directory c q s)
    (hnames : ∀ p ∈ paths, nameIn directory q = nameIn directory p → q = p) :
    Settled m fs directory c' q s := by
  induction h with
  | nil => exact hs
  | @cons p paths c c₁ c₂ r rs h hrest ih =>
      refine ih (h.wellMade hc).1 (hs.after_step hc h (hnames p (by simp))) ?_
      exact fun p' hp' => hnames p' (by simp [hp'])

/-- **All files are settled by a run**, if their names tell them apart. -/
theorem settled (h : Steps m fs directory paths c rs c') (hc : c.WellMade)
    (hnames : ∀ q ∈ paths, ∀ p ∈ paths, nameIn directory q = nameIn directory p → q = p) :
    List.Forall₂ (Settled m fs directory c') paths rs := by
  induction h with
  | nil => exact .nil
  | @cons p paths c c₁ c₂ r rs h hrest ih =>
      have hmade := (h.wellMade hc).1
      refine .cons (hrest.after_steps hmade (h.settled hc) ?_) (ih hmade ?_)
      · exact fun p' hp' => hnames p (by simp) p' (by simp [hp'])
      · exact fun q hq p' hp' => hnames q (by simp [hq]) p' (by simp [hp'])

/-- Settled files are reported on again, and the cache stays as it is. -/
theorem of_settled (h : List.Forall₂ (Settled m fs directory c) paths rs) :
    Steps m fs directory paths c (rs.map FileReport.again) c := by
  induction h with
  | nil => exact .nil
  | cons h _ ih => exact .cons h.step ih

end Steps

/-- A run comes to the end of all files, unless linting one of them ends the run. -/
theorem exists_steps (m : Manner) (fs : FileSystem) (directory : Path) (paths : List Path) :
    ∀ {c : Cache}, c.WellMade → (∃ rs c', Steps m fs directory paths c rs c') ∨
      ∃ failure, (∃ p ∈ paths, reportAnew m fs directory p = .error failure) ∧
        Does (lintAllCached m directory paths c) fs (.error failure) fs := by
  induction paths with
  | nil => exact fun _ => Or.inl ⟨[], _, .nil⟩
  | cons p paths ih =>
      intro c hc
      rcases exists_step hc m fs directory p with ⟨r, c₁, hstep⟩ | ⟨failure, hreport, hdoes⟩
      · rcases ih (hstep.wellMade hc).1 with ⟨rs, c', hsteps⟩ | ⟨failure, ⟨q, hq, hreport⟩, hdoes⟩
        · exact Or.inl ⟨r :: rs, c', .cons hstep hsteps⟩
        · exact Or.inr ⟨failure, ⟨q, by simp [hq], hreport⟩,
            Does.bind hstep.does (Does.bind_error _ hdoes)⟩
      · exact Or.inr ⟨failure, ⟨p, by simp, hreport⟩, Does.bind_error _ hdoes⟩

/-! ## Entries that can be written -/

end Scan

namespace Cache

/-- An entry can be written at one time if it can at another. -/
theorem Entry.writable_modified {e : Entry} (h : e.toValue.Writable) (time : Binary64) :
    ({ e with modified := .real time } : Entry).toValue.Writable := by
  unfold Entry.toValue at h ⊢
  rw [Value.writable_map] at h ⊢
  simp only [List.forall_mem_cons] at h ⊢
  obtain ⟨hcount, ⟨hname, -⟩, hrest⟩ := h
  exact ⟨hcount, ⟨hname, Value.writable_real time⟩, hrest⟩

/-- Whether every entry of a cache can be written, with the name of its file. -/
def FilesWritable (c : Cache) : Prop :=
  ∀ n ∈ c.files, (Value.ofKey n.1).Writable ∧ n.2.toValue.Writable

theorem FilesWritable.setEntry {c : Cache} (h : c.FilesWritable) {name : Text} {e : Entry}
    (hname : Value.Writable (.text name)) (he : e.toValue.Writable) :
    (c.setEntry name e).FilesWritable := by
  intro n hn
  rcases MessagePack.eq_or_mem_of_mem_setMember hn with rfl | hold
  · exact ⟨hname, he⟩
  · exact h n hold

end Cache

namespace Scan

variable {m : Manner} {fs : FileSystem} {directory p : Path} {c c' : Cache} {r : FileReport}
  {paths : List Path} {rs : List FileReport}

/-- One step keeps entries writable, if what is found in the file can be kept. -/
theorem Step.filesWritable (h : Step m fs directory c p r c') (hfiles : c.FilesWritable)
    (hp : p ∈ fs.filesBelow directory)
    (hkeep : ∀ r, reportAnew m fs directory p = .ok r → r.error = none → Keepable fs directory r) :
    c'.FilesWritable := by
  cases h with
  | @served e r hfresh hreport =>
      unfold Cache.freshness at hfresh
      split at hfresh
      · rename_i old f hold hf
        obtain ⟨hname, hwritable⟩ := hfiles _ (World.mem_files_of_entry hold)
        refine hfiles.setEntry hname ?_
        rcases (Cache.of_freshnessOf hfresh).2 with ⟨rfl, -⟩ | rfl
        · exact hwritable
        · exact Cache.Entry.writable_modified hwritable _
      · cases hfresh
  | @linted e r hstale hreport hentry =>
      have hfile := file_of_reportAnew hreport
      unfold entryOfReport at hentry
      split at hentry
      · rename_i f hnone hf
        cases hentry
        obtain ⟨f', hf', hread, -, l, hlanguage⟩ := of_reportAnew hreport hnone
        cases hf.symm.trans hf'
        have hkeepable := hkeep r hreport hnone
        have hdigest : Cache.digest fs p = Sha256.hexDigest f.bytes := by
          unfold Cache.digest
          rw [hread]
        refine hfiles.setEntry (hfile ▸ hkeepable.name) ?_
        rw [hlanguage, hdigest]
        exact (Cache.Entry.writable_ofFindings _ _ _ _ _).2
          ⟨hkeepable.size p hp hfile.symm f hf, hkeepable.findings⟩
      · cases hentry
  | failed hstale hreport hentry => exact hfiles

/-- **All entries can be written after a run**, if they could before and what was found can. -/
theorem Steps.filesWritable (h : Steps m fs directory paths c rs c') (hfiles : c.FilesWritable)
    (hpaths : ∀ p ∈ paths, p ∈ fs.filesBelow directory)
    (hkeep : ∀ p ∈ paths, ∀ r, reportAnew m fs directory p = .ok r → r.error = none →
      Keepable fs directory r) : c'.FilesWritable := by
  induction h with
  | nil => exact hfiles
  | @cons p paths c c₁ c₂ r rs h hrest ih =>
      refine ih (h.filesWritable hfiles (hpaths p (by simp)) (hkeep p (by simp))) ?_ ?_
      · exact fun q hq => hpaths q (by simp [hq])
      · exact fun q hq => hkeep q (by simp [hq])

end Scan

end LiteralLint
