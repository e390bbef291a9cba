import LiteralLint.Proofs.KeptCache

/-!
# A run with a cache beside a run without one

The two runs look for the same files, with the same options and the same ignore rules, so they can
be followed side by side, from the files of the directory up to the call that a program makes. What
they agree on is passed on unchanged at every level: the same failure, or the same reports, or else
the failure of the writer, and a file system that is as sound as before.

## Main definitions

* `World.Agrees`: how the two outcomes go together.
* `World.Parallel`: two jobs side by side.

## Main results

* `World.parallel_lintFound`, `World.parallel_lintDirectory`, `World.parallel_lintPath`,
  `World.parallel_lintPaths`.
-/

namespace LiteralLint

open MessagePack (Value Key)
open FileSystem (Straight WellNamed SameFiles)
open Job (Does Looks)

/-! ## One directory, with and without a cache -/

namespace Report

/-- A report as if nothing had been known before. -/
def anew (r : Report) : Report := { r with files := r.files.map FileReport.anew }

end Report

namespace IgnoreRules

theorem looks_custom (fs : FileSystem) (root : Path) : Looks (custom root) fs := by
  unfold custom
  refine Looks.after_files ?_
  dsimp only
  split
  · exact Looks.pure []
  · split
    · exact Looks.after_tell _ (Looks.pure [])
    · split
      · exact Looks.throw _
      · exact Looks.bind ⟨_, Does.tellAll _⟩ fun _ => Looks.pure _

/-- The ignore rules are only looked up. -/
theorem looks_load (fs : FileSystem) (root : Path) (extra : List Text) :
    Looks (load root extra) fs := by
  unfold load
  refine Looks.bind (looks_custom fs root) fun own => ?_
  dsimp only
  split
  · exact Looks.after_tell _ (Looks.pure _)
  · exact Looks.pure _

end IgnoreRules

namespace Scan

/-- The files that a run finds are below the directory, and of names that are linted. -/
theorem does_discover (fs : FileSystem) (directory : Path) (ignore : List Text) :
    ∃ out, Does (discover directory ignore) fs out fs ∧
      ∀ paths, out = .ok paths →
        ∀ p ∈ paths, p ∈ fs.filesBelow directory ∧ isLintable p = true := by
  obtain ⟨out, hload⟩ := IgnoreRules.looks_load fs directory ignore
  unfold discover
  cases out with
  | error e => exact ⟨_, Does.bind_error _ hload, fun paths h => by cases h⟩
  | ok patterns =>
      refine ⟨_, Does.bind hload (Does.after_files (Does.pure _)), ?_⟩
      intro paths h p hp
      cases h
      obtain ⟨hmem, hkeep⟩ := List.mem_filter.1 hp
      exact ⟨hmem, (Bool.and_eq_true_iff.1 hkeep).1⟩

/-- A path that leads to a directory. -/
theorem does_lintPath {plan : Plan} {raw : Text} {fs fs' : FileSystem}
    {out : Except Failure (List FileReport)}
    (hdirectory : fs.isDirectory (fs.resolve (Path.ofText raw)) = true)
    (h : Does (lintDirectory plan (fs.resolve (Path.ofText raw))) fs out fs') :
    Does (lintPath plan raw) fs out fs' := by
  refine Does.after_files ?_
  dsimp only
  rw [if_pos hdirectory]
  exact h

/-- A path that leads elsewhere is reported on in one way, with or without a cache. -/
theorem does_lintPath_elsewhere (m : Manner) (o : Options) (ignore : List Text) {raw : Text}
    {fs : FileSystem} (hdirectory : ¬ fs.isDirectory (fs.resolve (Path.ofText raw)) = true) :
    ∃ out, (∀ useCache, Does (lintPath ⟨m, o, useCache, ignore⟩ raw) fs out fs) ∧
      ∀ rs, out = .ok rs → rs.map FileReport.anew = rs := by
  by_cases hexists : fs.exists (fs.resolve (Path.ofText raw)) = true
  · have hlint := does_lintFile m fs (fs.resolve (Path.ofText raw)) (some fs.currentPath) none
    refine ⟨(reportOn m fs (fs.resolve (Path.ofText raw)) (some fs.currentPath) none).map
      fun r => [r], fun useCache => Does.after_files ?_, ?_⟩
    · dsimp only
      rw [if_neg hdirectory, if_pos hexists]
      exact Does.map hlint fun r _ => Does.pure [r]
    · intro rs hrs
      cases hr : reportOn m fs (fs.resolve (Path.ofText raw)) (some fs.currentPath) none with
      | error e =>
          rw [hr] at hrs
          cases hrs
      | ok r =>
          rw [hr] at hrs
          cases hrs
          rw [List.map_singleton, (of_reportOn hr).2]
  · refine ⟨.ok [{ file := raw, error := some "path does not exist" }],
      fun useCache => Does.after_files ?_, ?_⟩
    · dsimp only
      rw [if_neg hdirectory, if_neg hexists]
      exact Does.after_tell _ (Does.pure _)
    · intro rs hrs
      cases hrs
      rfl

theorem does_lintPaths_error (setting : Setting) {o : Options} {e : Failure}
    (hconfig : Configuration.ofOptions setting.characters o = .error e) (fs : FileSystem)
    (useTypes useCache : Bool) (ignore : List Text) (paths : List Text) :
    Does (lintPaths setting o useTypes useCache ignore paths) fs (.error e) fs := by
  unfold lintPaths configure
  rw [hconfig]
  exact Does.bind_error _ (Does.bind_error _ (Does.lift _))

/-- A run over one path, by options that compile. -/
theorem does_lintPaths (setting : Setting) {o : Options} {config : Configuration}
    (hconfig : Configuration.ofOptions setting.characters o = .ok config)
    {useTypes useCache : Bool} {ignore : List Text} {raw : Text} {fs fs' : FileSystem}
    {out : Except Failure (List FileReport)}
    (h : Does (lintPath ⟨⟨setting, config, useTypes⟩, o, useCache, ignore⟩ raw) fs out fs') :
    Does (lintPaths setting o useTypes useCache ignore [raw]) fs
      (out.map fun rs => ⟨[rs].flatten, [(fs.resolve (Path.ofText raw)).toText]⟩) fs' := by
  unfold lintPaths configure
  rw [hconfig]
  refine Does.bind (Does.bind (Does.lift _) (Does.after_tell _ (Does.pure config)))
    (Does.after_files ?_)
  rw [List.mapM_cons, List.mapM_nil]
  cases out with
  | error e => exact Does.bind_error _ (Does.bind_error _ h)
  | ok rs => exact Does.bind (Does.bind h (Does.bind (Does.pure []) (Does.pure [rs]))) (Does.pure _)

end Scan

namespace World

open Scan (Manner Plan reportAnew Fits lintFound lintDirectory lintPath lintPaths)

variable {w : World} {fs : FileSystem} {m : Manner} {o : Options}

/-- How the outcome with a cache goes with the outcome without one: the same failure; or the same
reports, if they can be kept; or else the failure of the writer. -/
structure Agrees {α : Type} (anew : α → α) (kept : α → Prop) (out out' : Except Failure α) :
    Prop where
  error : ∀ e, out = .error e → out' = .error e
  ok : ∀ a, out = .ok a → kept a → ∃ a', out' = .ok a' ∧ anew a' = a
  unwritable : ∀ a, out = .ok a → ¬ kept a → ∃ u, out' = .error (Cache.unwritable u)

theorem Agrees.of_error {α : Type} {anew : α → α} {kept : α → Prop} (e : Failure) :
    Agrees anew kept (.error e) (.error e) :=
  ⟨fun _ h => h, nofun, nofun⟩

/-- Outcomes that go together still do when the same is made of both. -/
theorem Agrees.map {α β : Type} {anew : α → α} {anew' : β → β} {kept : α → Prop} {kept' : β → Prop}
    {out out' : Except Failure α} (h : Agrees anew kept out out') {f : α → β}
    (hanew : ∀ a, anew' (f a) = f (anew a)) (hkept : ∀ a, kept' (f a) ↔ kept a) :
    Agrees anew' kept' (out.map f) (out'.map f) := by
  cases out with
  | error e =>
      rw [h.error e rfl]
      exact Agrees.of_error e
  | ok a =>
      refine ⟨nofun, ?_, ?_⟩
      · intro b hb hk
        cases hb
        obtain ⟨a', ha', hsame⟩ := h.ok a rfl ((hkept a).1 hk)
        exact ⟨f a', by rw [ha']; rfl, by rw [hanew, hsame]⟩
      · intro b hb hk
        cases hb
        obtain ⟨u, hu⟩ := h.unwritable a rfl fun hyes => hk ((hkept a).2 hyes)
        exact ⟨u, by rw [hu]; rfl⟩

/-- Two jobs whose outcomes go together, of which the first only looks. -/
def Parallel {α : Type} (w : World) (fs : FileSystem) (anew : α → α) (kept : α → Prop)
    (j j' : Job α) : Prop :=
  ∃ out out' fs', Does j fs out fs ∧ Does j' fs out' fs' ∧ w.Leaves fs fs' ∧
    Agrees anew kept out out'

/-- Two jobs that only look and come to the same, where nothing was known and nothing is kept. -/
theorem Parallel.of_same {α : Type} {anew : α → α} {kept : α → Prop} {j j' : Job α}
    {out : Except Failure α} (h : w.Sound fs) (hj : Does j fs out fs) (hj' : Does j' fs out fs)
    (hanew : ∀ a, out = .ok a → anew a = a) (hkept : ∀ a, out = .ok a → kept a) :
    w.Parallel fs anew kept j j' := by
  refine ⟨out, out, fs, hj, hj', Leaves.refl h, fun _ he => he, ?_, ?_⟩
  · intro a ha _
    exact ⟨a, ha, hanew a ha⟩
  · intro a ha hnot
    exact absurd (hkept a ha) hnot

/-- The files of the directory. -/
theorem parallel_lintFound (hw : w.Lawful) (h : w.Sound fs) (hm : w.Follows m o)
    (hset : w.settings o m.useTypes) {paths : List Path} (hpaths : w.Found fs paths)
    (ignore : List Text) :
    w.Parallel fs (List.map FileReport.anew)
      (fun rs => Cache.Accepts fs w.directory →
        Fits fs w.directory (o.fingerprint m.useTypes) m.setting.now rs)
      (lintFound ⟨m, o, false, ignore⟩ w.directory paths)
      (lintFound ⟨m, o, true, ignore⟩ w.directory paths) := by
  have hwithout : Does (lintFound ⟨m, o, false, ignore⟩ w.directory paths) fs
      (paths.mapM (reportAnew m fs w.directory)) fs :=
    Scan.does_lintFound_anew rfl fs w.directory paths
  cases hrs : paths.mapM (reportAnew m fs w.directory) with
  | error e =>
      rw [hrs] at hwithout
      have hwith : Does (lintFound ⟨m, o, true, ignore⟩ w.directory paths) fs (.error e) fs :=
        does_lintFound_error hw h rfl hm hset hpaths hrs
      exact Parallel.of_same h hwithout hwith nofun nofun
  | ok rs =>
      rw [hrs] at hwithout
      obtain ⟨hkept, hnot⟩ :=
        does_lintFound ⟨m, o, true, ignore⟩ hw h rfl hm hset hpaths hrs
      by_cases hfits : Cache.Accepts fs w.directory →
          Fits fs w.directory (o.fingerprint m.useTypes) m.setting.now rs
      · obtain ⟨rs', fs', hwith, hanew, hleaves⟩ := hkept hfits
        refine ⟨_, _, fs', hwithout, hwith, hleaves, nofun, ?_, ?_⟩
        · intro a ha _
          cases ha
          exact ⟨rs', rfl, hanew⟩
        · intro a ha hnotfits
          cases ha
          exact absurd hfits hnotfits
      · obtain ⟨haccepts, hunfit⟩ := Classical.not_imp.1 hfits
        obtain ⟨u, fs', hwith, hleaves⟩ := hnot haccepts hunfit
        refine ⟨_, _, fs', hwithout, hwith, hleaves, nofun, ?_, ?_⟩
        · intro a ha hyes
          cases ha
          exact absurd hyes hfits
        · intro a ha _
          exact ⟨u, rfl⟩

/-- The directory. -/
theorem parallel_lintDirectory (hw : w.Lawful) (h : w.Sound fs) (hm : w.Follows m o)
    (hset : w.settings o m.useTypes) (ignore : List Text) :
    w.Parallel fs (List.map FileReport.anew)
      (fun rs => Cache.Accepts fs w.directory →
        Fits fs w.directory (o.fingerprint m.useTypes) m.setting.now rs)
      (lintDirectory ⟨m, o, false, ignore⟩ w.directory)
      (lintDirectory ⟨m, o, true, ignore⟩ w.directory) := by
  obtain ⟨found, hdiscover, hfound⟩ := Scan.does_discover fs w.directory ignore
  unfold Scan.lintDirectory
  cases found with
  | error e =>
      exact Parallel.of_same h (Does.bind_error _ hdiscover) (Does.bind_error _ hdiscover) nofun nofun
  | ok paths =>
      obtain ⟨out, out', fs', hwithout, hwith, hleaves, hagrees⟩ :=
        parallel_lintFound hw h hm hset (hfound paths rfl) ignore
      refine ⟨out.map id, out'.map id, fs', ?_, ?_, hleaves,
        hagrees.map (fun _ => rfl) fun _ => Iff.rfl⟩
      · exact Does.bind hdiscover (Does.after_tell _
          (Does.map hwithout fun rs _ => Does.after_tell _ (Does.pure rs)))
      · exact Does.bind hdiscover (Does.after_tell _
          (Does.map hwith fun rs _ => Does.after_tell _ (Does.pure rs)))

/-- Whether a run over the directory tries to write a cache that the file system takes. -/
def Saves (fs : FileSystem) (directory : Path) : Prop :=
  fs.isDirectory directory = true ∧ Cache.Accepts fs directory

/-- A path that leads to the directory, or to a file or nothing in its place. -/
theorem parallel_lintPath (hw : w.Lawful) (h : w.Sound fs) (hm : w.Follows m o)
    (hset : w.settings o m.useTypes) (ignore : List Text) {raw : Text}
    (hraw : fs.resolve (Path.ofText raw) = w.directory) :
    w.Parallel fs (List.map FileReport.anew)
      (fun rs => Saves fs w.directory →
        Fits fs w.directory (o.fingerprint m.useTypes) m.setting.now rs)
      (lintPath ⟨m, o, false, ignore⟩ raw) (lintPath ⟨m, o, true, ignore⟩ raw) := by
  by_cases hdirectory : fs.isDirectory w.directory = true
  · obtain ⟨out, out', fs', hwithout, hwith, hleaves, hagrees⟩ :=
      parallel_lintDirectory hw h hm hset ignore
    rw [← hraw] at hdirectory hwithout hwith
    refine ⟨out, out', fs', Scan.does_lintPath hdirectory hwithout,
      Scan.does_lintPath hdirectory hwith, hleaves, hagrees.error, ?_, ?_⟩
    · intro rs hrs hk
      exact hagrees.ok rs hrs fun haccepts => hk ⟨hraw ▸ hdirectory, haccepts⟩
    · intro rs hrs hk
      exact hagrees.unwritable rs hrs fun hyes => hk fun hsaves => hyes hsaves.2
  · obtain ⟨out, hdoes, hanew⟩ := Scan.does_lintPath_elsewhere m o ignore (hraw ▸ hdirectory)
    refine Parallel.of_same h (hdoes false) (hdoes true) hanew ?_
    exact fun rs _ hsaves => absurd hsaves.1 hdirectory

/-- A run over the directory. -/
theorem parallel_lintPaths (hw : w.Lawful) (h : w.Sound fs) (now : Text) {useTypes : Bool}
    (hset : w.settings o useTypes) (ignore : List Text) {raw : Text}
    (hraw : fs.resolve (Path.ofText raw) = w.directory) :
    w.Parallel fs Report.anew
      (fun r => Saves fs w.directory → Fits fs w.directory (o.fingerprint useTypes) now r.files)
      (lintPaths ⟨w.parsers, now, w.characters⟩ o useTypes false ignore [raw])
      (lintPaths ⟨w.parsers, now, w.characters⟩ o useTypes true ignore [raw]) := by
  let setting : Setting := ⟨w.parsers, now, w.characters⟩
  cases hconfig : Configuration.ofOptions w.characters o with
  | error e =>
      have hfails : ∀ useCache, Does (lintPaths setting o useTypes useCache ignore [raw]) fs
          (.error e) fs :=
        fun useCache => Scan.does_lintPaths_error setting hconfig fs useTypes useCache ignore [raw]
      exact Parallel.of_same h (hfails false) (hfails true) nofun nofun
  | ok config =>
      have hm : w.Follows ⟨setting, config, useTypes⟩ o := ⟨rfl, hconfig⟩
      obtain ⟨out, out', fs', hwithout, hwith, hleaves, hagrees⟩ :=
        parallel_lintPath hw h hm hset ignore hraw
      exact ⟨_, _, fs', Scan.does_lintPaths setting hconfig hwithout,
        Scan.does_lintPaths setting hconfig hwith, hleaves,
        hagrees.map (fun _ => by simp [Report.anew]) fun _ => by simp [setting]⟩

end World

end LiteralLint
