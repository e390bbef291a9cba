import LiteralLint.Proofs.CacheLoading
import LiteralLint.Proofs.CacheSteps
import LiteralLint.Proofs.Discovery

/-!
# Runs at rest

A run with a cache saves what it has made of each file, and then every file is settled in the cache
that is there. All that the next run makes of such a file system is known: it finds the same files,
loads that cache, serves what it keeps, and saves the same entries. Here a run is followed down to
the cache that it saves. What it finds there may come from any earlier runs; all that is needed of
it is that it was written by a run, so that each entry was made of findings.

## Main definitions

* `Cache.Left`: a file system in which runs have left a cache, if there is one.
* `Scan.Rested`: a file system on which a run has come to rest.
* `Scan.Orderly`: a directory that a run comes to the end of.

## Main results

* `Scan.exists_lintDirectory`: what a run leaves.
* `Scan.Rested.does_lintDirectory`: **a run at rest**.
* `Scan.exists_rested`: **a run comes to rest**.
-/

namespace LiteralLint

open MessagePack (Value Key)
open FileSystem (Straight Apart SameFiles)
open Job (Does)

/-! ## What runs leave -/

namespace Cache

/-- A cache file, if there is one, is empty or holds a cache that was made of findings. -/
def Left (fs : FileSystem) (root : Path) : Prop :=
  ∀ f, fs.at? (pathOf root).components = some (.file f) →
    f.bytes = [] ∨ ∃ c : Cache, c.WellMade ∧ c.toValue.write = .ok f.bytes

variable {fs fs' : FileSystem} {root : Path}

theorem Left.of_sameFiles (h : Left fs root) (hsame : SameFiles fs fs') : Left fs' root :=
  fun f hf => h f ((hsame.files _ f).1 hf)

/-- Caches that can be trusted were made of findings. -/
theorem Left.of_trusts {w : World} (h : w.Trusts fs) : Left fs w.directory := by
  intro f hf
  rcases h f hf with hempty | ⟨o, u, c, -, hc, hbytes⟩
  · exact Or.inl hempty
  · exact Or.inr ⟨c, hc.wellMade, hbytes⟩

/-- A save leaves such a file behind, also one that fails. -/
theorem Left.exists_save (h : Left fs root) (hroot : Straight root) {c : Cache} (hc : c.WellMade) :
    ∃ out fs', Does (save root c) fs out fs' ∧ Left fs' root := by
  by_cases haccepts : Accepts fs root
  · obtain ⟨made, -, -, hsave⟩ := does_save_accepted hroot haccepts
    refine ⟨_, _, hsave c, ?_⟩
    intro f hf
    rw [FileSystem.at?_put_self (by simp [pathOf, Path.child])] at hf
    cases hf
    cases hwrite : c.toValue.write with
    | ok b => exact Or.inr ⟨c, hc, hwrite⟩
    | error u => exact Or.inl rfl
  · obtain ⟨fs', hsave, hsame⟩ := does_save_refused haccepts c
    exact ⟨_, fs', hsave, h.of_sameFiles hsame⟩

theorem wellMade_fresh (fingerprint now : Text) : (fresh fingerprint now).WellMade :=
  ⟨rfl, ⟨now, rfl⟩, List.nodup_nil, fun n hn => absurd hn (by simp [fresh])⟩

/-- The cache of a file that holds it. -/
theorem does_load_written {c : Cache} (hc : c.WellMade) {b : Bytes} (hb : c.toValue.write = .ok b)
    (hread : fs.read (pathOf root) = .ok b) :
    Does (load root c.fingerprint) fs (.ok (some c)) fs := by
  have hdoes := does_load_of_document c.fingerprint hread (read_toValue hc hb)
  rwa [outcomeOf, ofValue_toValue hc.version] at hdoes

end Cache

namespace Scan

variable {plan : Plan} {fs fs' : FileSystem} {directory : Path} {c c' : Cache} {paths : List Path}
  {rs : List FileReport}

theorem does_startingCache_fresh {fingerprint : Text}
    (h : Does (Cache.load directory fingerprint) fs (.ok none) fs) (setting : Setting) :
    Does (startingCache setting directory fingerprint) fs (.ok (.fresh fingerprint setting.now)) fs :=
  Does.bind h (Does.pure _)

theorem does_startingCache_loaded {fingerprint : Text}
    (h : Does (Cache.load directory fingerprint) fs (.ok (some c)) fs) (setting : Setting) :
    Does (startingCache setting directory fingerprint) fs (.ok c) fs :=
  Does.bind h (Does.after_tell _ (Does.pure c))

/-- A run starts with a cache of which every entry can be written. -/
theorem exists_startingCache (h : Cache.Left fs directory) (hroot : Straight directory)
    (setting : Setting) (o : Options) (useTypes : Bool) :
    ∃ c : Cache, Does (startingCache setting directory (o.fingerprint useTypes)) fs (.ok c) fs ∧
      c.WellMade ∧ c.fingerprint = o.fingerprint useTypes ∧ c.FilesWritable := by
  rcases Cache.does_load (P := Cache.WellMade) (fun _ hc => hc) hroot (o.fingerprint useTypes) h with
    hnone | ⟨c, hc, hwritable, hfingerprint, hload⟩
  · refine ⟨_, does_startingCache_fresh hnone setting, Cache.wellMade_fresh _ _, rfl, ?_⟩
    exact fun n hn => absurd hn (by simp [Cache.fresh])
  · have hparts := (Cache.writable_toValue hc.version
      (hfingerprint ▸ o.writable_fingerprint useTypes)).1 hwritable
    exact ⟨c, does_startingCache_loaded hload setting, hc, hfingerprint, hparts.2.2⟩

theorem wellMade_keptCache (hc : c.WellMade) (directory : Path) (paths : List Path) (now : Text) :
    (keptCache directory paths now c).WellMade := by
  refine ⟨hc.version, ⟨now, rfl⟩, (List.filter_sublist.map Prod.fst).nodup hc.keys, ?_⟩
  intro n hn
  exact hc.entries n (mem_keptCache.1 hn).1

/-- A run that comes to the end of all files ends as the saving of its cache does. -/
theorem does_lintFound_of_steps (hcached : plan.useCache = true)
    (hstart : Does (startingCache plan.setting directory (plan.options.fingerprint plan.useTypes))
      fs (.ok c) fs)
    (hsteps : Steps plan.toManner fs directory paths c rs c') {out : Except Failure Unit}
    (hsave : Does (Cache.save directory (keptCache directory paths plan.setting.now c')) fs out
      fs') :
    Does (lintFound plan directory paths) fs (out.map fun _ => rs) fs' := by
  unfold lintFound
  rw [hcached]
  exact Does.bind hstart (Does.bind hsteps.does
    (Does.map (does_keepCache hsave) fun _ _ => Does.pure rs))

/-- A run that linting one of the files ends leaves everything as it is. -/
theorem does_lintFound_of_failure (hcached : plan.useCache = true)
    (hstart : Does (startingCache plan.setting directory (plan.options.fingerprint plan.useTypes))
      fs (.ok c) fs) {failure : Failure}
    (hfails : Does (lintAllCached plan.toManner directory paths c) fs (.error failure) fs) :
    Does (lintFound plan directory paths) fs (.error failure) fs := by
  unfold lintFound
  rw [hcached]
  exact Does.bind hstart (Does.bind_error _ hfails)

theorem does_lintDirectory_of_found (hfound : found fs directory plan.ignore = .ok paths)
    {out : Except Failure (List FileReport)}
    (h : Does (lintFound plan directory paths) fs out fs') :
    Does (lintDirectory plan directory) fs out fs' := by
  have hdiscover := does_discover_found fs directory plan.ignore
  rw [hfound] at hdiscover
  unfold lintDirectory
  refine Does.bind hdiscover (Does.after_tell _ ?_)
  cases out with
  | error e => exact Does.bind_error _ h
  | ok rs => exact Does.bind h (Does.after_tell _ (Does.pure rs))

theorem does_lintDirectory_of_error {failure : Failure}
    (hfound : found fs directory plan.ignore = .error failure) :
    Does (lintDirectory plan directory) fs (.error failure) fs := by
  have hdiscover := does_discover_found fs directory plan.ignore
  rw [hfound] at hdiscover
  exact Does.bind_error _ hdiscover

/-- The reports of a run that does not fail are those that were made on the way. -/
theorem reports_eq_of_steps (hleft : Cache.Left fs directory) (hroot : Straight directory)
    (hcached : plan.useCache = true) (hfound : found fs directory plan.ignore = .ok paths)
    (hstart : Does (startingCache plan.setting directory (plan.options.fingerprint plan.useTypes))
      fs (.ok c) fs) (hc : c.WellMade) (hsteps : Steps plan.toManner fs directory paths c rs c')
    {rs' : List FileReport} (hdoes : Does (lintDirectory plan directory) fs (.ok rs') fs') :
    rs' = rs := by
  obtain ⟨out, fs₁, hsave, -⟩ := hleft.exists_save hroot
    (wellMade_keptCache (hsteps.wellMade hc).1 directory paths plan.setting.now)
  have hrun := does_lintDirectory_of_found hfound
    (does_lintFound_of_steps hcached hstart hsteps hsave)
  have hout := hdoes.outcome_eq.symm.trans hrun.outcome_eq
  cases out with
  | ok _ =>
      cases hout
      rfl
  | error e => cases hout

/-- **A run leaves a cache file that is empty or holds a cache that was made of findings**, if it
found one like that or none. -/
theorem exists_lintDirectory (h : Cache.Left fs directory) (hroot : Straight directory)
    (plan : Plan) :
    ∃ out fs', Does (lintDirectory plan directory) fs out fs' ∧ Cache.Left fs' directory := by
  cases hfound : found fs directory plan.ignore with
  | error failure => exact ⟨_, fs, does_lintDirectory_of_error hfound, h⟩
  | ok paths =>
      cases hcached : plan.useCache with
      | false =>
          exact ⟨_, fs, does_lintDirectory_of_found hfound
            (does_lintFound_anew hcached fs directory paths), h⟩
      | true =>
          obtain ⟨c, hstart, hc, -, -⟩ :=
            exists_startingCache h hroot plan.setting plan.options plan.useTypes
          rcases exists_steps plan.toManner fs directory paths hc with
            ⟨rs, c', hsteps⟩ | ⟨failure, -, hfails⟩
          · obtain ⟨out, fs', hsave, hleft⟩ := h.exists_save hroot
              (wellMade_keptCache (hsteps.wellMade hc).1 directory paths plan.setting.now)
            exact ⟨_, fs', does_lintDirectory_of_found hfound
              (does_lintFound_of_steps hcached hstart hsteps hsave), hleft⟩
          · exact ⟨_, fs, does_lintDirectory_of_found hfound
              (does_lintFound_of_failure hcached hstart hfails), h⟩

/-! ## Runs at rest -/

/-- The same plan at another time. -/
def Plan.atTime (plan : Plan) (now : Text) : Plan :=
  { plan with toManner := plan.toManner.atTime now }

/-- A file system on which a run has come to rest: all files are settled in the cache that it has
saved, and the cache knows no others. -/
structure Rested (plan : Plan) (fs : FileSystem) (directory : Path) (paths : List Path)
    (rs : List FileReport) (c : Cache) : Prop where
  isDirectory : fs.isDirectory directory = true
  accepts : Cache.Accepts fs directory
  found : found fs directory plan.ignore = .ok paths
  straight : ∀ p ∈ paths, Straight p
  wellMade : c.WellMade
  fingerprint : c.fingerprint = plan.options.fingerprint plan.useTypes
  saved : ∃ b, c.toValue.write = .ok b ∧ fs.read (Cache.pathOf directory) = .ok b
  known : ∀ n ∈ c.files, ∃ p ∈ paths, n.1 = .text (nameIn directory p)
  settled : List.Forall₂ (Settled plan.toManner fs directory c) paths rs

theorem lookup_keptCache {p : Path} (hp : p ∈ paths) (directory : Path) (now : Text) (c : Cache) :
    Cache.entry? (keptCache directory paths now c) (nameIn directory p) =
      c.entry? (nameIn directory p) := by
  refine lookup_filter_of_pos ?_ c.files
  intro e
  rw [List.any_map, List.any_eq_true]
  exact ⟨p, hp, by simp⟩

/-- A cache that knows no other files is kept as a whole. -/
theorem files_keptCache (h : ∀ n ∈ c.files, ∃ p ∈ paths, n.1 = .text (nameIn directory p))
    (now : Text) : (keptCache directory paths now c).files = c.files := by
  refine List.filter_eq_self.2 ?_
  intro n hn
  obtain ⟨p, hp, hname⟩ := h n hn
  rw [List.any_map, List.any_eq_true]
  exact ⟨p, hp, by simp [hname]⟩

/-- Once the cache is saved in which all files are settled, the run has come to rest. -/
theorem rested_of_save (hroot : Straight directory) (hdirectory : fs.isDirectory directory = true)
    (hfound : found fs directory plan.ignore = .ok paths) (hstraight : ∀ p ∈ paths, Straight p)
    (hc : c.WellMade) (hfingerprint : c.fingerprint = plan.options.fingerprint plan.useTypes)
    (hsettled : List.Forall₂ (Settled plan.toManner fs directory c) paths rs) {now : Text}
    (hapart : Apart (Cache.directoryOf directory).components fs fs')
    (haccepts : Cache.Accepts fs' directory) {b : Bytes}
    (hb : (keptCache directory paths now c).toValue.write = .ok b)
    (hread : fs'.read (Cache.pathOf directory) = .ok b) :
    Rested plan fs' directory paths rs (keptCache directory paths now c) := by
  refine ⟨?_, haccepts, (found_apart hapart hroot).trans hfound, hstraight,
    wellMade_keptCache hc directory paths now, hfingerprint, ⟨b, hb, hread⟩,
    fun n hn => (mem_keptCache.1 hn).2, ?_⟩
  · rw [FileSystem.isDirectory, FileSystem.entry?,
      hapart.entry_eq hroot (Path.not_child_prefix _ _)]
    exact hdirectory
  · have hmem := (List.forall₂_and_left paths rs).2 ⟨fun p hp => hp, hsettled⟩
    refine hmem.imp ?_
    rintro p r ⟨hp, hs⟩
    have hplace := (of_mem_found hfound hp).2.2
    have hkept := hs.of_entry?_eq (lookup_keptCache hp directory now c)
    exact hkept.of_file?_eq (hapart.file?_eq (hstraight p hp) hplace)
      (hapart.read_eq (hstraight p hp) hplace) plan.setting.now

namespace Rested

theorem does_load (h : Rested plan fs directory paths rs c) :
    Does (Cache.load directory (plan.options.fingerprint plan.useTypes)) fs (.ok (some c)) fs := by
  obtain ⟨b, hb, hread⟩ := h.saved
  exact h.fingerprint ▸ Cache.does_load_written h.wellMade hb hread

/-- **A run at rest** repeats every report, keeps every entry, and is at rest again. -/
theorem does_lintDirectory (h : Rested plan fs directory paths rs c) (hroot : Straight directory)
    (hcached : plan.useCache = true) {now : Text} (hnow : Value.Writable (.text now)) :
    ∃ fs', Does (lintDirectory (plan.atTime now) directory) fs
        (.ok (rs.map FileReport.again)) fs' ∧
      Rested plan fs' directory paths rs (keptCache directory paths now c) := by
  obtain ⟨b, hb⟩ : (keptCache directory paths now c).toValue.Writable := by
    obtain ⟨b, hb, -⟩ := h.saved
    have hfingerprint : Value.Writable (.text c.fingerprint) :=
      h.fingerprint ▸ plan.options.writable_fingerprint plan.useTypes
    have hparts := (Cache.writable_toValue h.wellMade.version hfingerprint).1 ⟨b, hb⟩
    have hkept := wellMade_keptCache h.wellMade directory paths now
    refine (Cache.writable_toValue hkept.version hfingerprint).2 ⟨hnow, ?_⟩
    rw [files_keptCache h.known now]
    exact hparts.2
  obtain ⟨fs', hapart, haccepts, hread, hsave⟩ :=
    Cache.does_save hroot h.isDirectory h.accepts (keptCache directory paths now c)
  rw [hb] at hread hsave
  have hstart : Does (startingCache (plan.atTime now).setting directory
      (plan.options.fingerprint plan.useTypes)) fs (.ok c) fs :=
    does_startingCache_loaded h.does_load _
  have hsteps : Steps (plan.atTime now).toManner fs directory paths c
      (rs.map FileReport.again) c :=
    Steps.of_settled (h.settled.imp fun p r hs => hs.of_file?_eq rfl rfl now)
  have hlater : (plan.atTime now).useCache = true := hcached
  have hrun : Does (lintFound (plan.atTime now) directory paths) fs
      (.ok (rs.map FileReport.again)) fs' :=
    does_lintFound_of_steps hlater hstart hsteps hsave
  have hfound : Scan.found fs directory (plan.atTime now).ignore = .ok paths := h.found
  refine ⟨fs', does_lintDirectory_of_found hfound hrun, ?_⟩
  exact rested_of_save hroot h.isDirectory h.found h.straight h.wellMade h.fingerprint h.settled
    hapart haccepts hb hread

/-- An entry for every report without an error. -/
theorem exists_entry (h : Rested plan fs directory paths rs c) :
    List.Forall₂ (fun p r => r.file = nameIn directory p ∧
      (r.error = none → ∃ e, c.entry? r.file = some e ∧ Keeps fs p r e)) paths rs := by
  refine h.settled.imp ?_
  intro p r hs
  cases hs with
  | kept hfile hentry hguards hnone => exact ⟨hfile, fun _ => ⟨_, hfile ▸ hentry, hguards.keeps⟩⟩
  | failing hstale hreport herror =>
      exact ⟨file_of_reportAnew hreport, fun hnone => absurd hnone herror⟩

end Rested

/-! ## Runs that come to rest -/

/-- What is found has names of its own. -/
theorem eq_of_mem_found (hfs : fs.WellNamed) (hroot : Straight directory)
    (hfound : found fs directory plan.ignore = .ok paths) {p q : Path} (hp : p ∈ paths)
    (hq : q ∈ paths) (hname : nameIn directory p = nameIn directory q) : p = q := by
  obtain ⟨hpstart, hpbelow, f, hf⟩ := FileSystem.mem_filesBelow hroot (of_mem_found hfound hp).1
  obtain ⟨hqstart, hqbelow, g, hg⟩ := FileSystem.mem_filesBelow hroot (of_mem_found hfound hq).1
  exact eq_of_nameIn hpstart hqstart hpbelow hqbelow (hfs.files _ f hf) (hfs.files _ g hg) hname

theorem straight_of_mem_found (hfs : fs.WellNamed) (hroot : Straight directory)
    (hfound : found fs directory plan.ignore = .ok paths) {p : Path} (hp : p ∈ paths) :
    Straight p := by
  obtain ⟨hstart, -, f, hf⟩ := FileSystem.mem_filesBelow hroot (of_mem_found hfound hp).1
  refine FileSystem.straight_of_names ?_ (hfs.files _ f hf)
  have habsolute := hroot.isAbsolute
  unfold Path.isAbsolute at habsolute ⊢
  rwa [hstart]

/-- A directory that a run comes to the end of. The ignore file, if it can be read, is a text, the
parsers fail on no file in a way that is not expected of them, and what is found can be written
down: no text has a lone surrogate, and nothing is larger than the format has room for. -/
structure Orderly (plan : Plan) (fs : FileSystem) (directory : Path) : Prop where
  ignoreFile : ∀ bytes, fs.read (directory.child IgnoreRules.fileName) = .ok bytes →
    ∃ t, Utf8.decode? bytes = .ok t
  parsers : ∀ l parse, plan.setting.parsers l = some parse → ∀ bytes f,
    parse bytes = .failed f → (Skip.ofFailure? f).isSome = true
  time : Value.Writable (.text plan.setting.now)
  keepable : ∀ p ∈ fs.filesBelow directory, isLintable p = true → ∀ r,
    reportAnew plan.toManner fs directory p = .ok r → r.error = none → Keepable fs directory r
  count : ((fs.filesBelow directory).filter isLintable).length < 0x100000000

namespace Orderly

theorem exists_found (h : Orderly plan fs directory) :
    ∃ paths, found fs directory plan.ignore = .ok paths := by
  unfold found IgnoreRules.allPatterns IgnoreRules.ownPatterns
  split
  · exact ⟨_, rfl⟩
  · rename_i bytes hread
    obtain ⟨t, ht⟩ := h.ignoreFile bytes hread
    rw [ht]
    exact ⟨_, rfl⟩

/-- Every file is reported on. -/
theorem exists_reportAnew (h : Orderly plan fs directory) (p : Path) :
    ∃ r, reportAnew plan.toManner fs directory p = .ok r := by
  have hskip : ∀ l bytes f,
      Source.lint plan.setting.parsers plan.config l plan.useTypes bytes = .error f →
      (Skip.ofFailure? f).isSome = true := by
    intro l bytes f hf
    unfold Source.lint Source.read at hf
    split at hf
    · cases hf
      rfl
    · split at hf
      · cases hf
        rfl
      · rename_i l' _ _ parse hparse
        split at hf
        · rename_i f' hfailed
          cases hf
          exact h.parsers l' parse hparse bytes _ hfailed
        · cases hf
  have hjudge : ∃ j, judge plan.toManner fs p none = .ok j := by
    unfold judge
    split
    · exact ⟨_, rfl⟩
    · split
      · exact ⟨_, rfl⟩
      · split
        · exact ⟨_, rfl⟩
        · rename_i f hf
          obtain ⟨s, hs⟩ := Option.isSome_iff_exists.1 (hskip _ _ _ hf)
          rw [hs]
          exact ⟨_, rfl⟩
  obtain ⟨j, hj⟩ := hjudge
  unfold reportAnew reportOn
  rw [hj]
  cases j with
  | ok j => exact ⟨_, rfl⟩
  | error s => exact ⟨_, rfl⟩

/-- The cache can be written at the end. -/
theorem writable (h : Orderly plan fs directory) (hfound : found fs directory plan.ignore = .ok paths)
    (hsteps : Steps plan.toManner fs directory paths c rs c') (hc : c.WellMade)
    (hfingerprint : c.fingerprint = plan.options.fingerprint plan.useTypes)
    (hfiles : c.FilesWritable) :
    (keptCache directory paths plan.setting.now c').toValue.Writable := by
  obtain ⟨hmade, hsame⟩ := hsteps.wellMade hc
  have hkept := wellMade_keptCache hmade directory paths plan.setting.now
  have hentries : c'.FilesWritable := by
    refine hsteps.filesWritable hfiles (fun p hp => (of_mem_found hfound hp).1) ?_
    intro p hp
    have hplace := of_mem_found hfound hp
    exact h.keepable p hplace.1 hplace.2.1
  have hcount : (keptCache directory paths plan.setting.now c').files.length < 0x100000000 := by
    have hkeys : (keptCache directory paths plan.setting.now c').files.map Prod.fst ⊆
        paths.map fun p => Key.text (nameIn directory p) := by
      intro k hk
      obtain ⟨n, hn, rfl⟩ := List.mem_map.1 hk
      obtain ⟨-, p, hp, hname⟩ := mem_keptCache.1 hn
      exact List.mem_map.2 ⟨p, hp, hname.symm⟩
    have hle := hkept.keys.length_le_of_subset hkeys
    rw [List.length_map, List.length_map] at hle
    exact Nat.lt_of_le_of_lt (hle.trans (length_found_le hfound)) h.count
  have hprint : Value.Writable (.text (keptCache directory paths plan.setting.now c').fingerprint) := by
    show Value.Writable (.text c'.fingerprint)
    rw [hsame, hfingerprint]
    exact plan.options.writable_fingerprint plan.useTypes
  refine (Cache.writable_toValue hkept.version hprint).2 ⟨h.time, hcount, ?_⟩
  exact fun n hn => hentries n (mem_keptCache.1 hn).1

end Orderly

/-- **A run comes to rest** unless it fails, and it does not fail in an orderly directory. -/
theorem exists_rested (hfs : fs.WellNamed) (hroot : Straight directory)
    (hleft : Cache.Left fs directory) (hdirectory : fs.isDirectory directory = true)
    (haccepts : Cache.Accepts fs directory) (hcached : plan.useCache = true) :
    ∃ out fs', Does (lintDirectory plan directory) fs out fs' ∧
      Apart (Cache.directoryOf directory).components fs fs' ∧
      (Orderly plan fs directory → ∃ rs, out = .ok rs) ∧
      ∀ rs, out = .ok rs → ∃ paths c, found fs directory plan.ignore = .ok paths ∧
        Rested plan fs' directory paths rs c := by
  cases hfound : found fs directory plan.ignore with
  | error failure =>
      refine ⟨_, fs, does_lintDirectory_of_error hfound, Apart.refl _ _, fun horderly => ?_, ?_⟩
      · obtain ⟨paths, hpaths⟩ := horderly.exists_found
        cases hfound.symm.trans hpaths
      · exact fun rs h => nomatch h
  | ok paths =>
      obtain ⟨c, hstart, hc, hfingerprint, hfiles⟩ :=
        exists_startingCache hleft hroot plan.setting plan.options plan.useTypes
      rcases exists_steps plan.toManner fs directory paths hc with
        ⟨rs, c', hsteps⟩ | ⟨failure, ⟨p, -, hreport⟩, hfails⟩
      · obtain ⟨hmade, hsame⟩ := hsteps.wellMade hc
        obtain ⟨fs', hapart, haccepts', hread, hsave⟩ :=
          Cache.does_save hroot hdirectory haccepts (keptCache directory paths plan.setting.now c')
        have hdoes := does_lintDirectory_of_found hfound
          (does_lintFound_of_steps hcached hstart hsteps hsave)
        refine ⟨_, fs', hdoes, hapart, fun horderly => ?_, ?_⟩
        · obtain ⟨b, hb⟩ := horderly.writable hfound hsteps hc hfingerprint hfiles
          rw [hb]
          exact ⟨rs, rfl⟩
        · intro rs' hout
          cases hb : (keptCache directory paths plan.setting.now c').toValue.write with
          | error u =>
              rw [hb] at hout
              cases hout
          | ok b =>
              rw [hb] at hout hread
              cases hout
              have hsettled := hsteps.settled hc fun q hq p hp =>
                eq_of_mem_found hfs hroot hfound hq hp
              exact ⟨paths, _, rfl, rested_of_save hroot hdirectory hfound
                (fun p hp => straight_of_mem_found hfs hroot hfound hp) hmade
                (hsame.trans hfingerprint) hsettled hapart haccepts' hb hread⟩
      · refine ⟨_, fs, does_lintDirectory_of_found hfound
          (does_lintFound_of_failure hcached hstart hfails), Apart.refl _ _, fun horderly => ?_, ?_⟩
        · obtain ⟨r, hr⟩ := horderly.exists_reportAnew p
          cases hreport.symm.trans hr
        · exact fun rs h => nomatch h

end Scan

end LiteralLint
