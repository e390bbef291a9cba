import LiteralLint.Proofs.CachedRun

/-!
# What a cached run keeps

At the end of a run the entries of the files that were found are written to the cache file. The
document can be written unless something in it has no form there: a name or a finding that holds a
surrogate, a text, a list or a count that is too long. Those parts are all in the reports of the
run, so the reports say whether the run ends well; and whether it does or not, what is left behind
is again a cache that holds, or an empty file.

## Main definitions

* `Scan.Keepable`, `Scan.Fits`: what can be kept.
* `World.Sound`: a file system that shows versions that occur and a cache that can be trusted.

## Main results

* `World.writable_kept`: **when the cache of a run can be written**.
* `World.does_save`: what a save leaves behind.
* `World.does_lintFound`, `World.does_lintFound_error`: the files of a directory with a cache.
-/

namespace LiteralLint

open MessagePack (Value Key)
open FileSystem (Straight WellNamed SameFiles)
open Job (Does)

namespace Scan

/-- Whether what was found in a file can be kept. -/
structure Keepable (fs : FileSystem) (directory : Path) (r : FileReport) : Prop where
  name : Value.Writable (.text r.file)
  findings : Value.Writable (.array (r.findings.map fun f => Value.ofJson f.toJson))
  size : ∀ p ∈ fs.filesBelow directory, nameIn directory p = r.file →
    ∀ f, fs.file? p = some f → f.bytes.length < 0x10000000000000000

/-- Whether all that a run keeps can be written: the time, every file that could be linted, and no
more than so many entries, of files that could be linted now or for the cache that is there. -/
structure Fits (fs : FileSystem) (directory : Path) (fingerprint now : Text)
    (reports : List FileReport) : Prop where
  time : Value.Writable (.text now)
  keepable : ∀ r ∈ reports, r.error = none → Keepable fs directory r
  count : ∀ names : List Text, names.Nodup →
    (∀ n ∈ names, ∃ r ∈ reports, r.file = n ∧
      (r.error = none ∨ .text n ∈ Cache.known fs directory fingerprint)) →
    names.length < 0x100000000

/-- The cache that is kept at the end of a run. -/
def keptCache (directory : Path) (paths : List Path) (now : Text) (c : Cache) : Cache :=
  { c.keepOnly (paths.map (nameIn directory)) with createdAt := .text now }

theorem mem_keptCache {directory : Path} {paths : List Path} {now : Text} {c : Cache}
    {n : Key × Cache.Entry} :
    n ∈ (keptCache directory paths now c).files ↔
      n ∈ c.files ∧ ∃ p ∈ paths, n.1 = .text (nameIn directory p) := by
  show n ∈ c.files.filter _ ↔ _
  rw [List.mem_filter, List.any_map, List.any_eq_true]
  simp only [Function.comp_apply, beq_iff_eq]

theorem does_keepCache {setting : Setting} {directory : Path} {paths : List Path} {c : Cache}
    {fs fs' : FileSystem} {out : Except Failure Unit}
    (h : Does (Cache.save directory (keptCache directory paths setting.now c)) fs out fs') :
    Does (keepCache setting directory (paths.map (nameIn directory)) c) fs out fs' := by
  unfold keepCache
  dsimp only
  split
  · exact Does.after_tell _ h
  · exact h

/-- The reports on a list of files are the reports on its files. -/
theorem mem_of_mapM {α β : Type} {f : α → Except Failure β} {items : List α} :
    ∀ {out : List β}, items.mapM f = .ok out →
      (∀ a ∈ items, ∃ b ∈ out, f a = .ok b) ∧ ∀ b ∈ out, ∃ a ∈ items, f a = .ok b := by
  induction items with
  | nil =>
      intro out h
      cases h
      exact ⟨fun a ha => absurd ha (by simp), fun b hb => absurd hb (by simp)⟩
  | cons a items ih =>
      intro out h
      rw [List.mapM_cons] at h
      cases ha : f a with
      | error e =>
          rw [ha] at h
          cases h
      | ok b =>
          cases hitems : items.mapM f with
          | error e =>
              rw [ha, hitems] at h
              cases h
          | ok bs =>
              rw [ha, hitems] at h
              cases h
              obtain ⟨hforth, hback⟩ := ih hitems
              constructor
              · intro x hx
                rcases List.mem_cons.1 hx with rfl | hx
                · exact ⟨b, by simp, ha⟩
                · obtain ⟨y, hy, hxy⟩ := hforth x hx
                  exact ⟨y, by simp [hy], hxy⟩
              · intro y hy
                rcases List.mem_cons.1 hy with rfl | hy
                · exact ⟨a, by simp, ha⟩
                · obtain ⟨x, hx, hxy⟩ := hback y hy
                  exact ⟨x, by simp [hx], hxy⟩

end Scan

namespace World

open Scan (Manner nameIn reportAnew isLintable lintFound keptCache Fits Keepable)

variable {w : World} {fs : FileSystem} {m : Manner} {o : Options} {p : Path} {c c' : Cache}

/-! ## When the cache can be written -/

/-- An entry for a file as it is now can be written just if the size of the file and its findings
can. -/
theorem writable_recorded (hw : w.Lawful) (hfs : w.Shows fs) (hm : w.Follows m o)
    (hp : w.Below p) (hlint : isLintable p = true) {e : Cache.Entry} {r : FileReport}
    (he : w.Recorded fs o m.useTypes p e) (hr : reportAnew m fs w.directory p = .ok r) {f : File}
    (hf : fs.file? p = some f) :
    e.toValue.Writable ↔ f.bytes.length < 0x10000000000000000 ∧
      Value.Writable (.array (r.findings.map fun f => Value.ofJson f.toJson)) := by
  obtain ⟨f', g, hf', hg, hbytes, j, hj, rfl⟩ := he
  cases hf.symm.trans hf'
  have hjudge := judge_of_judged hm hf (hw.readable p f (hfs.version_of_file? hw hp hlint hf))
    (hbytes ▸ hj)
  rw [reportAnew, Scan.reportOn, hjudge] at hr
  cases hr
  rw [Cache.Entry.writable_ofFindings, hbytes]

/-- The paths that a run over the directory finds. -/
def Found (w : World) (fs : FileSystem) (paths : List Path) : Prop :=
  ∀ p ∈ paths, p ∈ fs.filesBelow w.directory ∧ isLintable p = true

theorem below_of_mem_filesBelow (hw : w.Lawful) (hfs : w.Shows fs)
    (h : p ∈ fs.filesBelow w.directory) : w.Below p := by
  obtain ⟨hstart, hinside, f, hf⟩ := FileSystem.mem_filesBelow hw.straight h
  exact ⟨hstart, hinside, hfs.named.files _ f hf⟩

theorem Found.below (hw : w.Lawful) (hfs : w.Shows fs) {paths : List Path}
    (h : w.Found fs paths) : ∀ p ∈ paths, w.Below p ∧ isLintable p = true :=
  fun p hp => ⟨below_of_mem_filesBelow hw hfs (h p hp).1, (h p hp).2⟩

theorem Holds.kept (paths : List Path) (now : Text) (hc : w.Holds o m.useTypes c) :
    w.Holds o m.useTypes (keptCache w.directory paths now c) := by
  refine ⟨hc.version, hc.fingerprint, ⟨now, rfl⟩, ?_, ?_⟩
  · exact (List.filter_sublist.map Prod.fst).nodup hc.keys
  · intro n hn
    exact hc.entries n (Scan.mem_keptCache.1 hn).1

section

variable {paths : List Path} {rs : List FileReport} {now : Text}

/-- The entries that are kept are those of files that could be linted now or for the cache before. -/
theorem mem_keys_kept (hext : w.Extends m fs o paths c c')
    (hrs : paths.mapM (reportAnew m fs w.directory) = .ok rs) {name : Text}
    (h : ∃ r ∈ rs, r.file = name ∧ (r.error = none ∨ .text name ∈ c.files.map Prod.fst)) :
    .text name ∈ (keptCache w.directory paths now c').files.map Prod.fst := by
  obtain ⟨r, hr, hname, hcase⟩ := h
  obtain ⟨p, hp, hreport⟩ := (Scan.mem_of_mapM hrs).2 r hr
  have hfile := Scan.file_of_reportAnew hreport
  have hkey : (.text name : Key) = .text (nameIn w.directory p) := by rw [← hname, hfile]
  rcases hcase with hnone | hknown
  · obtain ⟨e, he, -⟩ := hext.covered p hp ⟨r, hreport, hnone⟩
    rw [hkey]
    exact List.mem_map.2 ⟨_, Scan.mem_keptCache.2 ⟨he, p, hp, rfl⟩, rfl⟩
  · obtain ⟨n, hn, hfst⟩ := List.mem_map.1 hknown
    obtain ⟨e, he, -⟩ := hext.kept n hn
    exact List.mem_map.2 ⟨_, Scan.mem_keptCache.2 ⟨he, p, hp, hfst.trans hkey⟩, hfst⟩

theorem exists_report_of_kept (hw : w.Lawful) (hfs : w.Shows fs) (hm : w.Follows m o)
    (hpaths : ∀ p ∈ paths, w.Below p ∧ isLintable p = true)
    (hext : w.Extends m fs o paths c c')
    (hrs : paths.mapM (reportAnew m fs w.directory) = .ok rs) {n : Key × Cache.Entry}
    (hn : n ∈ (keptCache w.directory paths now c').files) :
    ∃ p ∈ paths, ∃ r ∈ rs, reportAnew m fs w.directory p = .ok r ∧ n.1 = .text r.file ∧
      (n ∈ c.files ∨ r.error = none ∧ w.Recorded fs o m.useTypes p n.2) := by
  obtain ⟨hmem, p, hp, hkey⟩ := Scan.mem_keptCache.1 hn
  obtain ⟨r, hr, hreport⟩ := (Scan.mem_of_mapM hrs).1 p hp
  refine ⟨p, hp, r, hr, hreport, ?_, ?_⟩
  · rw [hkey, Scan.file_of_reportAnew hreport]
  · rcases hext.origin n hmem with hold | ⟨q, hq, hname, hrecorded⟩
    · exact Or.inl hold
    · have heq : p = q := (hpaths p hp).1.eq_of_nameIn (hpaths q hq).1
        (Key.text.inj (hkey.symm.trans hname))
      subst heq
      obtain ⟨r', hr', hnone, -⟩ :=
        reportAnew_of_recorded hw hfs hm (hpaths p hp).1 (hpaths p hp).2 hrecorded
      cases hreport.symm.trans hr'
      exact Or.inr ⟨hnone, hrecorded⟩

/-- The parts of the document that is kept. -/
theorem writable_keptCache (hext : w.Extends m fs o paths c c') :
    (keptCache w.directory paths now c').toValue.Writable ↔
      Value.Writable (.text now) ∧
        (keptCache w.directory paths now c').files.length < 0x100000000 ∧
        ∀ n ∈ (keptCache w.directory paths now c').files,
          (Value.ofKey n.1).Writable ∧ n.2.toValue.Writable := by
  have hkept : w.Holds o m.useTypes (keptCache w.directory paths now c') := hext.holds.kept paths now
  exact Cache.writable_toValue hkept.version (hkept.fingerprint ▸ o.writable_fingerprint m.useTypes)

/-- What the reports of a run are like if its cache can be written. -/
theorem fits_of_writable (hw : w.Lawful) (hfs : w.Shows fs) (hm : w.Follows m o)
    (hpaths : w.Found fs paths) (hext : w.Extends m fs o paths c c')
    (hknown : c.files.map Prod.fst = Cache.known fs w.directory (o.fingerprint m.useTypes))
    (hrs : paths.mapM (reportAnew m fs w.directory) = .ok rs)
    (h : (keptCache w.directory paths now c').toValue.Writable) :
    Fits fs w.directory (o.fingerprint m.useTypes) now rs := by
  have hbelow := hpaths.below hw hfs
  obtain ⟨htime, hcount, hentries⟩ := (writable_keptCache hext).1 h
  refine ⟨htime, ?_, ?_⟩
  · intro r hr hnone
    obtain ⟨p, hp, hreport⟩ := (Scan.mem_of_mapM hrs).2 r hr
    obtain ⟨e, he, hrecorded⟩ := hext.covered p hp ⟨r, hreport, hnone⟩
    obtain ⟨hname, hentry⟩ := hentries _ (Scan.mem_keptCache.2 ⟨he, p, hp, rfl⟩)
    have hfile := Scan.file_of_reportAnew hreport
    have hentry' := fun f hf => (writable_recorded hw hfs hm (hbelow p hp).1 (hbelow p hp).2
      hrecorded hreport (f := f) hf).1 hentry
    obtain ⟨f, -, hf, -⟩ := hrecorded
    refine ⟨hfile ▸ hname, (hentry' f hf).2, ?_⟩
    intro q hq hqname f' hf'
    have heq : p = q := (hbelow p hp).1.eq_of_nameIn (below_of_mem_filesBelow hw hfs hq)
      (hfile.symm.trans hqname.symm)
    exact (hentry' f' (heq ▸ hf')).1
  · intro names hnodup hnames
    have hsub : names.map Key.text ⊆ (keptCache w.directory paths now c').files.map Prod.fst := by
      intro k hk
      obtain ⟨name, hname, rfl⟩ := List.mem_map.1 hk
      refine mem_keys_kept hext hrs ?_
      rw [hknown]
      exact hnames name hname
    have hnodup' : (names.map Key.text).Nodup :=
      List.Pairwise.map Key.text (fun a b hne heq => hne (Key.text.inj heq)) hnodup
    have hle := List.Nodup.length_le_of_subset hnodup' hsub
    rw [List.length_map, List.length_map] at hle
    exact Nat.lt_of_le_of_lt hle hcount

/-- The cache of a run can be written if its reports are like that. -/
theorem writable_of_fits (hw : w.Lawful) (hfs : w.Shows fs) (hm : w.Follows m o)
    (hpaths : w.Found fs paths) (hext : w.Extends m fs o paths c c')
    (hknown : c.files.map Prod.fst = Cache.known fs w.directory (o.fingerprint m.useTypes))
    (hold : ∀ n ∈ c.files, (Value.ofKey n.1).Writable ∧ n.2.toValue.Writable)
    (hrs : paths.mapM (reportAnew m fs w.directory) = .ok rs)
    (h : Fits fs w.directory (o.fingerprint m.useTypes) now rs) :
    (keptCache w.directory paths now c').toValue.Writable := by
  have hbelow := hpaths.below hw hfs
  have hkept : w.Holds o m.useTypes (keptCache w.directory paths now c') := hext.holds.kept paths now
  refine (writable_keptCache hext).2 ⟨h.time, ?_, ?_⟩
  · have hnames := h.count ((keptCache w.directory paths now c').files.map fun n =>
      Shape.keyText n.1) ?_ ?_
    · rwa [List.length_map] at hnames
    · refine List.pairwise_map.2 (List.Pairwise.imp_of_mem ?_ (List.pairwise_map.1 hkept.keys))
      intro a b ha hb hne heq
      obtain ⟨p, -, r, -, -, hkeya, -⟩ := exists_report_of_kept hw hfs hm hbelow hext hrs ha
      obtain ⟨q, -, r', -, -, hkeyb, -⟩ := exists_report_of_kept hw hfs hm hbelow hext hrs hb
      rw [hkeya, hkeyb] at heq hne
      exact hne (congrArg Key.text heq)
    · intro name hname
      obtain ⟨n, hn, rfl⟩ := List.mem_map.1 hname
      obtain ⟨p, -, r, hr, -, hkey, horigin⟩ := exists_report_of_kept hw hfs hm hbelow hext hrs hn
      refine ⟨r, hr, by rw [hkey]; rfl, ?_⟩
      rcases horigin with hmem | ⟨hnone, -⟩
      · right
        rw [← hknown, hkey]
        exact hkey ▸ List.mem_map.2 ⟨n, hmem, rfl⟩
      · exact Or.inl hnone
  · intro n hn
    obtain ⟨p, hp, r, hr, hreport, hkey, horigin⟩ :=
      exists_report_of_kept hw hfs hm hbelow hext hrs hn
    rcases horigin with hmem | ⟨hnone, hrecorded⟩
    · exact hold n hmem
    · have hkeep := h.keepable r hr hnone
      refine ⟨hkey ▸ hkeep.name, ?_⟩
      obtain ⟨f, g, hf, hrest⟩ := hrecorded
      have hsize := hkeep.size p (hpaths p hp).1 (Scan.file_of_reportAnew hreport).symm f hf
      exact (writable_recorded hw hfs hm (hbelow p hp).1 (hbelow p hp).2 ⟨f, g, hf, hrest⟩
        hreport hf).2 ⟨hsize, hkeep.findings⟩

/-- **When the cache of a run can be written.** -/
theorem writable_kept (hw : w.Lawful) (hfs : w.Shows fs) (hm : w.Follows m o)
    (hpaths : w.Found fs paths) (hext : w.Extends m fs o paths c c')
    (hknown : c.files.map Prod.fst = Cache.known fs w.directory (o.fingerprint m.useTypes))
    (hold : ∀ n ∈ c.files, (Value.ofKey n.1).Writable ∧ n.2.toValue.Writable)
    (hrs : paths.mapM (reportAnew m fs w.directory) = .ok rs) (now : Text) :
    (keptCache w.directory paths now c').toValue.Writable ↔
      Fits fs w.directory (o.fingerprint m.useTypes) now rs :=
  ⟨fits_of_writable hw hfs hm hpaths hext hknown hrs,
    writable_of_fits hw hfs hm hpaths hext hknown hold hrs⟩

end

/-! ## What is left behind -/

/-- A file system that shows versions of files that occur, and a cache that can be trusted. -/
structure Sound (w : World) (fs : FileSystem) : Prop where
  shows : w.Shows fs
  trusts : w.Trusts fs

theorem Sound.of_sameFiles (h : w.Sound fs) {fs' : FileSystem} (hsame : SameFiles fs fs') :
    w.Sound fs' := by
  refine ⟨⟨⟨?_, ?_⟩, ?_⟩, ?_⟩
  · exact fun place f hf => h.shows.named.files place f (hsame.entries place f hf)
  · rw [hsame.current]
    exact h.shows.named.current
  · exact fun p f hp hlint hf => h.shows.versions p f hp hlint ((hsame.files _ f).1 hf)
  · exact fun f hf => h.trusts f ((hsame.files _ f).1 hf)

/-- The cache file is none of the files that are linted. -/
theorem components_ne_of_isLintable (hlint : isLintable p = true) (root : Path) :
    p.components ≠ (Cache.pathOf root).components := by
  intro h
  have hname : p.name = Text.ofString "lint_cache.msgpack" := by
    have hlast : (Cache.pathOf root).components.getLast? =
        some (Text.ofString "lint_cache.msgpack") := List.getLast?_concat
    rw [Path.name, h, hlast]
    rfl
  have hsuffix : p.suffix = Text.ofString ".msgpack" := by
    unfold Path.suffix
    rw [hname]
    decide
  unfold Scan.isLintable at hlint
  rw [hsuffix] at hlint
  exact absurd hlint (by decide)

/-- A cache file that is empty or holds a cache that holds can be put in place. -/
theorem Sound.put (hw : w.Lawful) (h : w.Sound fs) {bytes : Bytes}
    (hbytes : bytes = [] ∨ ∃ o u c, w.settings o u ∧ w.Holds o u c ∧ c.toValue.write = .ok bytes) :
    w.Sound (fs.put (Cache.pathOf w.directory).components (.file ⟨bytes, .zero false, true⟩)) := by
  refine ⟨⟨⟨?_, h.shows.named.current⟩, ?_⟩, ?_⟩
  · intro place f hf
    rcases List.mem_cons.1 hf with heq | hmem
    · cases heq
      show ∀ n ∈ (w.directory.components ++ [Text.ofString ".i18nlint"]) ++
        [Text.ofString "lint_cache.msgpack"], Path.IsName n
      intro n hn
      rcases List.mem_append.1 hn with hn | hn
      · rcases List.mem_append.1 hn with hn | hn
        · exact hw.names n hn
        · rw [List.mem_singleton.1 hn]
          decide
      · rw [List.mem_singleton.1 hn]
        decide
    · exact h.shows.named.files place f (List.mem_filter.1 hmem).1
  · intro p f hp hlint hf
    rw [FileSystem.at?_put_of_ne (components_ne_of_isLintable hlint w.directory)] at hf
    exact h.shows.versions p f hp hlint hf
  · intro f hf
    have hne : (Cache.pathOf w.directory).components ≠ [] := by
      show (w.directory.components ++ [Text.ofString ".i18nlint"]) ++
        [Text.ofString "lint_cache.msgpack"] ≠ []
      simp
    rw [FileSystem.at?_put_self hne] at hf
    cases hf
    exact hbytes

/-- A file system that a run leaves behind. -/
def Leaves (w : World) (fs fs' : FileSystem) : Prop := w.Sound fs' ∧ fs'.current = fs.current

theorem Leaves.refl (h : w.Sound fs) : w.Leaves fs fs := ⟨h, rfl⟩

/-- **A save of a cache that holds** leaves a sound file system, and fails just if the file system
takes the file and the cache cannot be written. -/
theorem does_save (hw : w.Lawful) (h : w.Sound fs) {useTypes : Bool}
    (hset : w.settings o useTypes) (hc : w.Holds o useTypes c) :
    ((Cache.Accepts fs w.directory → c.toValue.Writable) →
      ∃ fs', Does (Cache.save w.directory c) fs (.ok ()) fs' ∧ w.Leaves fs fs') ∧
    (Cache.Accepts fs w.directory → ¬ c.toValue.Writable →
      ∃ u fs', Does (Cache.save w.directory c) fs (.error (Cache.unwritable u)) fs' ∧
        w.Leaves fs fs') := by
  by_cases haccepts : Cache.Accepts fs w.directory
  · obtain ⟨made, hmake, -, hsave⟩ := Cache.does_save_accepted hw.straight haccepts
    have hsame := FileSystem.sameFiles_makeDirectories hmake
    have hmade := h.of_sameFiles hsame
    have hdoes := hsave c
    cases hwrite : c.toValue.write with
    | ok bytes =>
        rw [hwrite] at hdoes
        refine ⟨fun _ => ⟨_, hdoes, hmade.put hw (Or.inr ⟨o, useTypes, c, hset, hc, hwrite⟩),
          hsame.current⟩, fun _ hnot => absurd ⟨bytes, hwrite⟩ hnot⟩
    | error u =>
        rw [hwrite] at hdoes
        refine ⟨fun hcase => ?_, fun _ _ => ⟨u, _, hdoes, hmade.put hw (Or.inl rfl),
          hsame.current⟩⟩
        obtain ⟨bytes, hbytes⟩ := hcase haccepts
        rw [hwrite] at hbytes
        cases hbytes
  · refine ⟨fun _ => ?_, fun hyes => absurd hyes haccepts⟩
    obtain ⟨fs', hdoes, hsame⟩ := Cache.does_save_refused haccepts c
    exact ⟨fs', hdoes, h.of_sameFiles hsame, hsame.current⟩

/-! ## The files of a directory -/

section

variable {plan : Scan.Plan} {paths : List Path}

/-- With a cache, a failure to lint one of the files ends the run as well. -/
theorem does_lintFound_error (hw : w.Lawful) (h : w.Sound fs) (hplan : plan.useCache = true)
    (hm : w.Follows plan.toManner plan.options) (hset : w.settings plan.options plan.useTypes)
    (hpaths : w.Found fs paths) {e : Failure}
    (he : paths.mapM (reportAnew plan.toManner fs w.directory) = .error e) :
    Does (lintFound plan w.directory paths) fs (.error e) fs := by
  obtain ⟨c, hstart, hc, -, -⟩ := does_startingCache hw h.trusts hset plan.setting
  unfold Scan.lintFound
  rw [hplan]
  exact Does.bind hstart (Does.bind_error _
    (does_lintAllCached_error hw h.shows hm hc (hpaths.below hw h.shows) he))

variable (plan) in
/-- **The files of a directory with a cache** are reported as without one, unless the cache cannot
be written. -/
theorem does_lintFound (hw : w.Lawful) (h : w.Sound fs) (hplan : plan.useCache = true)
    (hm : w.Follows plan.toManner plan.options) (hset : w.settings plan.options plan.useTypes)
    (hpaths : w.Found fs paths) {rs : List FileReport}
    (hrs : paths.mapM (reportAnew plan.toManner fs w.directory) = .ok rs) :
    ((Cache.Accepts fs w.directory →
        Fits fs w.directory (plan.options.fingerprint plan.useTypes) plan.setting.now rs) →
      ∃ rs' fs', Does (lintFound plan w.directory paths) fs (.ok rs') fs' ∧
        rs'.map FileReport.anew = rs ∧ w.Leaves fs fs') ∧
    (Cache.Accepts fs w.directory →
      ¬ Fits fs w.directory (plan.options.fingerprint plan.useTypes) plan.setting.now rs →
      ∃ u fs', Does (lintFound plan w.directory paths) fs (.error (Cache.unwritable u)) fs' ∧
        w.Leaves fs fs') := by
  obtain ⟨c, hstart, hc, hknown, hold⟩ := does_startingCache hw h.trusts hset plan.setting
  obtain ⟨rs', c', hall, hanew, hext⟩ :=
    does_lintAllCached hw h.shows hm hc (hpaths.below hw h.shows) hrs
  have hwritable := writable_kept hw h.shows hm hpaths hext hknown hold hrs plan.setting.now
  obtain ⟨hsaved, hunwritable⟩ := does_save hw h hset
    (hext.holds.kept paths plan.setting.now)
  unfold Scan.lintFound
  rw [hplan]
  constructor
  · intro hcase
    obtain ⟨fs', hsave, hleaves⟩ := hsaved fun haccepts => hwritable.2 (hcase haccepts)
    exact ⟨rs', fs', Does.bind hstart (Does.bind hall
      (Does.bind (Scan.does_keepCache hsave) (Does.pure rs'))), hanew, hleaves⟩
  · intro haccepts hnot
    obtain ⟨u, fs', hsave, hleaves⟩ := hunwritable haccepts fun hyes => hnot (hwritable.1 hyes)
    exact ⟨u, fs', Does.bind hstart (Does.bind hall
      (Does.bind_error _ (Scan.does_keepCache hsave))), hleaves⟩

end

end World

end LiteralLint
