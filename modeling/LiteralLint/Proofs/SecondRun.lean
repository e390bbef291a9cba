import LiteralLint.Proofs.History
import LiteralLint.Proofs.RestedRun

/-!
# The second run

A run over a directory is run again, and nothing has changed but for the cache of the first run. The
second run finds the same files, loads what the first one saved, and meets every file settled. So it
lints only what could not be linted, repeats every report, and keeps every entry.

The cache that the first run meets is that of any earlier runs, with whatever options and parsers,
over whatever the files were then. All that is needed of it is that it was written by a run: that each
entry was made of findings.

## Main definitions

* `Scan.Past`: a file system whose cache, if there is one, was left by earlier runs.

## Main results

* `Scan.Past.left`: what earlier runs leave.
* `Scan.lintDirectory_twice`: **a first run comes to rest**, and what it has saved.
-/

namespace LiteralLint

open MessagePack (Value)
open FileSystem (Straight Apart)
open Job (Does)

namespace Scan

variable {fs : FileSystem} {directory : Path}

/-- A file system whose cache of a directory, if there is one, was left by earlier runs. Each of them
may have had options, rules and parsers of its own, and may have failed; in between, all but the
bytes of the cache file may have changed, and the file may have gone. -/
inductive Past (directory : Path) : FileSystem → Prop
  | start {fs : FileSystem}
      (habsent : ∀ f, fs.at? (Cache.pathOf directory).components ≠ some (.file f)) :
      Past directory fs
  | change {fs fs' : FileSystem} (h : Past directory fs)
      (hkept : ∀ f, fs'.at? (Cache.pathOf directory).components = some (.file f) →
        ∃ g, fs.at? (Cache.pathOf directory).components = some (.file g) ∧ g.bytes = f.bytes) :
      Past directory fs'
  | run {fs fs' : FileSystem} (h : Past directory fs) (plan : Plan)
      {out : Except Failure (List FileReport)}
      (hrun : Does (lintDirectory plan directory) fs out fs') : Past directory fs'

/-- **What earlier runs leave.** -/
theorem Past.left (hroot : Straight directory) (h : Past directory fs) :
    Cache.Left fs directory := by
  induction h with
  | start habsent => exact fun f hf => absurd hf (habsent f)
  | change _ hkept ih =>
      intro f hf
      obtain ⟨g, hg, hbytes⟩ := hkept f hf
      exact hbytes ▸ ih g hg
  | run _ plan hrun ih =>
      obtain ⟨out, fs', hrun', hleft⟩ := exists_lintDirectory ih hroot plan
      rwa [← hrun'.files_eq, hrun.files_eq] at hleft

/-- **A second run does no needless work and forgets nothing.** A run with a cache over a directory,
whatever earlier runs have left there, changes nothing but the directory of the cache, and comes to
an end in an orderly directory. It then leaves a cache that knows none but the files that were found,
and keeps every report without an error. Run again at any time, it repeats its reports, all those
without an error from the cache, and leaves a cache with the same entries. -/
theorem lintDirectory_twice (plan : Plan) (fs : FileSystem) (directory : Path)
    (hfs : fs.WellNamed) (hroot : Straight directory) (hpast : Past directory fs)
    (hdirectory : fs.isDirectory directory = true) (haccepts : Cache.Accepts fs directory)
    (hcached : plan.useCache = true) :
    ∃ out fs₁, Does (lintDirectory plan directory) fs out fs₁ ∧
      Apart (Cache.directoryOf directory).components fs fs₁ ∧
      (Orderly plan fs directory → ∃ rs, out = .ok rs) ∧
      ∀ rs, out = .ok rs →
        ∃ paths c, Does (discover directory plan.ignore) fs (.ok paths) fs ∧
          Does (Cache.load directory (plan.options.fingerprint plan.useTypes)) fs₁
            (.ok (some c)) fs₁ ∧
          (∀ k ∈ c.files.map Prod.fst, ∃ p ∈ paths, k = .text (nameIn directory p)) ∧
          List.Forall₂ (fun p r => r.file = nameIn directory p ∧
            (r.error = none → ∃ e, c.entry? r.file = some e ∧ Keeps fs₁ p r e)) paths rs ∧
          ∀ now, Value.Writable (.text now) →
            ∃ fs₂ c₂, Does (lintDirectory (plan.atTime now) directory) fs₁
                (.ok (rs.map FileReport.again)) fs₂ ∧
              Does (Cache.load directory (plan.options.fingerprint plan.useTypes)) fs₂
                (.ok (some c₂)) fs₂ ∧
              c₂.files = c.files := by
  obtain ⟨out, fs₁, hdoes, hapart, hends, hrests⟩ :=
    exists_rested hfs hroot (hpast.left hroot) hdirectory haccepts hcached
  refine ⟨out, fs₁, hdoes, hapart, hends, fun rs hout => ?_⟩
  obtain ⟨paths, c, hfound, hrested⟩ := hrests rs hout
  refine ⟨paths, c, hfound ▸ does_discover_found fs directory plan.ignore, hrested.does_load, ?_,
    hrested.exists_entry, fun now hnow => ?_⟩
  · intro k hk
    obtain ⟨n, hn, rfl⟩ := List.mem_map.1 hk
    exact hrested.known n hn
  · obtain ⟨fs₂, hagain, hrested₂⟩ := hrested.does_lintDirectory hroot hcached hnow
    exact ⟨fs₂, _, hagain, hrested₂.does_load, files_keptCache hrested.known now⟩

/-! ## A directory with one file -/

section

open History (oneFile oneDirectory plainPlan)

/-- A run with a cache and the parsers for empty sources. -/
def cachedPlan (config : Configuration) : Plan := plainPlan "a.js" config true

/-- The report on the file. -/
def plainReport : FileReport := { file := "a.js", language := some "javascript" }

theorem reportAnew_cachedPlan (config : Configuration) :
    reportAnew (cachedPlan config).toManner (oneFile "a.js") oneDirectory
      ⟨.root, ["w", "a.js"]⟩ = .ok plainReport :=
  History.reportAnew_workspace (by decide) (by decide) rfl config true

/-- A run over the directory, and a run on the next day. -/
theorem lintDirectory_twice_oneFile :
    ∃ config fs₁ fs₂, Configuration.ofOptions Pattern.unnamed {} = .ok config ∧
      Does (lintDirectory (cachedPlan config) oneDirectory) (oneFile "a.js")
        (.ok [plainReport]) fs₁ ∧
      Does (lintDirectory ((cachedPlan config).atTime "2024-05-02T12:00:00+00:00") oneDirectory)
        fs₁ (.ok [plainReport.again]) fs₂ := by
  obtain ⟨config, hconfig⟩ := History.exists_plainConfiguration
  have hfs : (oneFile "a.js").WellNamed := History.wellNamed_workspace (by decide)
  have hroot : Straight oneDirectory := History.straight_oneDirectory
  have hpast : Past oneDirectory (oneFile "a.js") := by
    refine .start fun f hf => ?_
    cases hf
  obtain ⟨out, fs₁, hdoes, -, hends, hagain⟩ :=
    lintDirectory_twice (cachedPlan config) (oneFile "a.js") oneDirectory hfs hroot hpast
      (by decide) History.accepts_workspace rfl
  obtain ⟨rs, rfl⟩ := hends (History.orderly_workspace rfl (by decide) config)
  -- The first run meets no cache and lints the file.
  have hrs : rs = [plainReport] := by
    have hfound : found (oneFile "a.js") oneDirectory (cachedPlan config).ignore =
        .ok [⟨.root, ["w", "a.js"]⟩] := History.found_workspace _ _
    have hload : Does (Cache.load oneDirectory
        ((cachedPlan config).options.fingerprint (cachedPlan config).useTypes)) (oneFile "a.js")
        (.ok none) (oneFile "a.js") := by
      unfold Cache.load
      exact Does.after_files (Does.pure none)
    have hreport := reportAnew_cachedPlan config
    obtain ⟨e, hentry⟩ := exists_entryOfReport hreport rfl
    exact reports_eq_of_steps (hpast.left hroot) hroot rfl hfound
      (does_startingCache_fresh hload _) (Cache.wellMade_fresh _ _)
      (.cons (.linted rfl hreport hentry) .nil) hdoes
  obtain ⟨paths, c, -, -, -, -, hnext⟩ := hagain rs rfl
  obtain ⟨fs₂, c₂, hsecond, -, -⟩ :=
    hnext "2024-05-02T12:00:00+00:00" (Value.writable_text.2 (by decide))
  subst hrs
  exact ⟨config, fs₁, fs₂, hconfig, hdoes, hsecond⟩

end

end Scan

end LiteralLint
