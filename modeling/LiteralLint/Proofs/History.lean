import LiteralLint.Proofs.ParallelRuns
import LiteralLint.Proofs.RestedRun

/-!
# Histories of a directory

A directory is changed and linted again and again, each run with options of its own, and every run
finds the cache that the runs before it left. Whatever happened before, a cached run comes to the
outcome of a run without a cache: the invariant holds at the start, where there is no cache file,
every change of the sources keeps it, and every run does, also one that fails.

There is one exception. A run that cannot write its cache fails with the failure of the writer, and
this depends on the reports alone: a file whose name is not UTF-8 is enough.

## Main definitions

* `History`, `History.Step`, `History.Run`: what happens to a directory.
* `History.Promised`: what is taken for granted.
* `History.Keeps`: whether the cache of a run can be kept, as far as it is.

## Main results

* `History.stands_next`, `History.stands_after`: the invariant, after a step and after a history.
* `History.outcome_cached`: **a cached run against a run without a cache, after any history**.
* `History.outcome_of_name_not_scalar`: a name that is not UTF-8 lets a cached run fail.
-/

namespace LiteralLint

open MessagePack (Value)
open FileSystem (Straight WellNamed)
open Job (Does)

/-- What a directory and its histories have in common: the parsers and the names of characters, the
path that the runs are given, and the file system at the start. -/
structure History where
  parsers : Parsers
  characters : Pattern.CharacterNames
  root : Text
  start : FileSystem

namespace History

/-- A run over the directory. -/
structure Run where
  options : Options
  useTypes : Bool
  ignore : List Text
  now : Text

/-- A step of a history: the sources are changed, or linted with a cache. -/
inductive Step
  | change (fs : FileSystem)
  | run (r : Run)

variable (h : History)

/-- The job of a run, with a cache or without. -/
def job (r : Run) (useCache : Bool) : Job Report :=
  Scan.lintPaths ⟨h.parsers, r.now, h.characters⟩ r.options r.useTypes useCache r.ignore [h.root]

/-- What a run comes to on a file system. -/
def outcome (r : Run) (useCache : Bool) (fs : FileSystem) : Except Failure Report :=
  ((h.job r useCache).runOn ⟨fs, []⟩).1

/-- The file system after a step. -/
def next (fs : FileSystem) : Step → FileSystem
  | .change fs' => fs'
  | .run r => ((h.job r true).runOn ⟨fs, []⟩).2.files

/-- The file system after some steps. -/
def after (steps : List Step) : FileSystem := steps.foldl h.next h.start

/-- The directory that the path of the runs is about. -/
def directory : Path := h.start.resolve (Path.ofText h.root)

/-- The file systems that do not come from a run: the first one, and what changes make of it. -/
def given (steps : List Step) : List FileSystem :=
  h.start :: steps.filterMap fun s =>
    match s with
    | .change fs => some fs
    | .run _ => none

/-- A version of a file below the directory that is linted. -/
def Version (steps : List Step) (p : Path) (f : File) : Prop :=
  ∃ fs ∈ h.given steps, p.start = h.directory.start ∧
    h.directory.components <+: p.components ∧ Scan.isLintable p = true ∧
    fs.at? p.components = some (.file f)

/-- The options of a run, with or without types. -/
def Setting (steps : List Step) (o : Options) (useTypes : Bool) : Prop :=
  ∃ r : Run, .run r ∈ steps ∧ r.options = o ∧ r.useTypes = useTypes

/-- What is taken for granted. Files have names that a system gives to files and can be read; the
current directory stays; two versions of a file with the same time and size are the same; digests
and fingerprints do not collide; at the start there is no cache file, and no change writes one. -/
structure Promised (steps : List Step) : Prop where
  named : ∀ fs ∈ h.given steps, fs.WellNamed
  current : ∀ fs ∈ h.given steps, fs.current = h.start.current
  readable : ∀ p f, h.Version steps p f → f.readable = true
  stamps : ∀ p f g, h.Version steps p f → h.Version steps p g →
    f.modified.numericEq g.modified = true → f.bytes.length = g.bytes.length → f.bytes = g.bytes
  digests : ∀ p f g, h.Version steps p f → h.Version steps p g →
    Sha256.hexDigest f.bytes = Sha256.hexDigest g.bytes → f.bytes = g.bytes
  fingerprints : ∀ o u o' u', Setting steps o u → Setting steps o' u' →
    o.fingerprint u = o'.fingerprint u' → o = o' ∧ u = u'
  absent : ∀ f, h.start.at? (Cache.pathOf h.directory).components ≠ some (.file f)
  unforged : ∀ before fs later, steps = before ++ .change fs :: later →
    ∀ f, fs.at? (Cache.pathOf h.directory).components = some (.file f) →
      (h.after before).at? (Cache.pathOf h.directory).components = some (.file f)

/-- Whether the cache of a run that reports something can be kept, if the file system takes one. -/
def Keeps (r : Run) (fs : FileSystem) (report : Report) : Prop :=
  World.Saves fs h.directory →
    Scan.Fits fs h.directory (r.options.fingerprint r.useTypes) r.now report.files

/-- The world of a history. -/
def world (steps : List Step) : World :=
  ⟨h.parsers, h.characters, h.directory, h.Version steps, Setting steps⟩

variable {h} {steps : List Step}

/-! ## The invariant -/

theorem lawful (hp : h.Promised steps) : (h.world steps).Lawful := by
  have hstart := hp.named h.start (by simp [given])
  refine ⟨(FileSystem.straight_resolve hstart h.root).isAbsolute,
    FileSystem.resolve_names hstart h.root, ?_, hp.readable, hp.stamps, hp.digests,
    hp.fingerprints⟩
  rintro p f ⟨fs, hfs, hpstart, hinside, -, hat⟩
  exact ⟨hpstart, hinside, (hp.named fs hfs).files _ f (FileSystem.mem_entries_of_at? hat)⟩

/-- The invariant, and the directory that runs are about. -/
structure Stands (h : History) (steps : List Step) (fs : FileSystem) : Prop where
  sound : (h.world steps).Sound fs
  current : fs.current = h.start.current

theorem shows_of_given (hp : h.Promised steps) {fs : FileSystem} (hfs : fs ∈ h.given steps) :
    (h.world steps).Shows fs :=
  ⟨hp.named fs hfs, fun _ _ hpath hlint hat => ⟨fs, hfs, hpath.start, hpath.inside, hlint, hat⟩⟩

theorem stands_start (hp : h.Promised steps) : Stands h steps h.start := by
  refine ⟨⟨shows_of_given hp (by simp [given]), ?_⟩, rfl⟩
  intro f hf
  exact absurd hf (hp.absent f)

theorem resolve_eq {fs : FileSystem} (hcurrent : fs.current = h.start.current) :
    fs.resolve (Path.ofText h.root) = h.directory := by
  unfold directory FileSystem.resolve FileSystem.startOf
  rw [hcurrent]

/-- A run beside the same run without a cache. -/
theorem parallel_job (hp : h.Promised steps) {fs : FileSystem} (hfs : Stands h steps fs) {r : Run}
    (hr : .run r ∈ steps) :
    (h.world steps).Parallel fs Report.anew (h.Keeps r fs) (h.job r false) (h.job r true) :=
  by
  have hset : (h.world steps).settings r.options r.useTypes := ⟨r, hr, rfl, rfl⟩
  have hraw : fs.resolve (Path.ofText h.root) = (h.world steps).directory := resolve_eq hfs.current
  exact World.parallel_lintPaths (lawful hp) hfs.sound r.now hset r.ignore hraw

/-- **One step keeps the invariant.** -/
theorem stands_next (hp : h.Promised steps) {done later : List Step} {s : Step}
    (hsteps : steps = done ++ s :: later) (hdone : Stands h steps (h.after done)) :
    Stands h steps (h.next (h.after done) s) := by
  cases s with
  | change fs =>
      have hgiven : fs ∈ h.given steps := by
        rw [hsteps]
        simp [given]
      refine ⟨⟨shows_of_given hp hgiven, ?_⟩, hp.current fs hgiven⟩
      intro f hf
      exact hdone.sound.trusts f (hp.unforged done fs later hsteps f hf)
  | run r =>
      obtain ⟨out, out', fs', -, hwith, hleaves, -⟩ :=
        parallel_job hp hdone (r := r) (by rw [hsteps]; simp)
      have hfiles : h.next (h.after done) (.run r) = fs' := hwith.files_eq
      rw [hfiles]
      exact ⟨hleaves.1, hleaves.2.trans hdone.current⟩

theorem after_concat (done : List Step) (s : Step) :
    h.after (done ++ [s]) = h.next (h.after done) s := by
  simp only [after, List.foldl_append, List.foldl_cons, List.foldl_nil]

/-- **The invariant after any part of a history.** -/
theorem stands_after (hp : h.Promised steps) (todo : List Step) :
    ∀ done later, steps = done ++ todo ++ later → Stands h steps (h.after done) →
      Stands h steps (h.after (done ++ todo)) := by
  induction todo with
  | nil =>
      intro done later _ hdone
      rw [List.append_nil]
      exact hdone
  | cons s todo ih =>
      intro done later hsteps hdone
      have hnext : Stands h steps (h.after (done ++ [s])) := by
        rw [after_concat]
        have hhere : steps = done ++ s :: (todo ++ later) := by simpa using hsteps
        exact stands_next hp hhere hdone
      have hrest := ih (done ++ [s]) later (by simpa using hsteps) hnext
      rwa [List.append_assoc, List.singleton_append] at hrest

/-- **The invariant after the first steps of a history.** -/
theorem stands_before {before later : List Step} (hp : h.Promised (before ++ later)) :
    Stands h (before ++ later) (h.after before) :=
  stands_after hp before [] later rfl (stands_start hp)

/-! ## Transparency -/

/-- A cached run after any history, beside the same run without a cache. -/
theorem agrees_after {before : List Step} {r : Run} (hp : h.Promised (before ++ [.run r])) :
    World.Agrees Report.anew (h.Keeps r (h.after before)) (h.outcome r false (h.after before))
      (h.outcome r true (h.after before)) := by
  obtain ⟨out, out', fs', hwithout, hwith, -, hagrees⟩ :=
    parallel_job hp (stands_before hp) (r := r) (by simp)
  have hfalse : h.outcome r false (h.after before) = out := hwithout.outcome_eq
  have htrue : h.outcome r true (h.after before) = out' := hwith.outcome_eq
  rw [hfalse, htrue]
  exact hagrees

/-- **A cached run after any history** fails as a run without a cache does, or reports what that
one reports, unless its cache cannot be kept; then it fails because of that. -/
theorem outcome_cached (h : History) (before : List Step) (r : Run)
    (hPromised : h.Promised (before ++ [.run r])) :
    (∀ e, h.outcome r false (h.after before) = .error e →
      h.outcome r true (h.after before) = .error e) ∧
    (∀ report, h.outcome r false (h.after before) = .ok report →
      h.Keeps r (h.after before) report →
      ∃ report', h.outcome r true (h.after before) = .ok report' ∧ report'.anew = report) ∧
    ∀ report, h.outcome r false (h.after before) = .ok report →
      ¬ h.Keeps r (h.after before) report →
      ∃ u, h.outcome r true (h.after before) = .error (Cache.unwritable u) := by
  have hagrees := agrees_after hPromised
  exact ⟨hagrees.error, hagrees.ok, hagrees.unwritable⟩

/-- A linted file whose name is not UTF-8 is enough for a cached run to fail. -/
theorem outcome_of_name_not_scalar {before : List Step} {r : Run}
    (hp : h.Promised (before ++ [.run r])) (hsaves : World.Saves (h.after before) h.directory)
    {report : Report} (hreport : h.outcome r false (h.after before) = .ok report)
    {f : FileReport} (hf : f ∈ report.files) (herror : f.error = none)
    (hname : f.file.all Text.isScalar = false) :
    ∃ u, h.outcome r true (h.after before) = .error (Cache.unwritable u) := by
  refine (agrees_after hp).unwritable report hreport fun hkeeps => ?_
  have hwritable := ((hkeeps hsaves).keepable f hf herror).name
  rw [Value.writable_text, hname] at hwritable
  exact absurd hwritable.1 (by decide)

/-! ## A directory with one file -/

/-- The parse tree of an empty source. -/
def emptyTree : ParseTree := .node ⟨"program", true, none, 0, 0⟩ []

/-- A current directory with one file in it, and with the file of a cache, if there is one. -/
def workspace (name : Text) (f : File) (cache : Option File) : FileSystem where
  current := ["w"]
  entries := (["w"], .directory) :: (["w", name], .file f) ::
    match cache with
    | none => []
    | some c =>
      [(["w", ".i18nlint"], .directory), (["w", ".i18nlint", "lint_cache.msgpack"], .file c)]

/-- An empty file. -/
def emptyFile : File := ⟨[], .zero false, true⟩

/-- A current directory with one file in it, which is empty. -/
def oneFile (name : Text) : FileSystem := workspace name emptyFile none

/-- The current directory. -/
def oneDirectory : Path := ⟨.root, ["w"]⟩

/-- What happens to that directory. The parsers are those for empty sources. -/
def ofOneFile (name : Text) : History where
  parsers := fun _ => some fun _ => .tree emptyTree false
  characters := Pattern.unnamed
  root := "."
  start := oneFile name

/-- A run with no options of its own. -/
def plainRun : Run := ⟨{}, false, [], "2024-05-01T12:00:00+00:00"⟩

/-- What that run is given, with its options compiled. -/
def plainPlan (name : Text) (c : Configuration) (useCache : Bool) : Scan.Plan :=
  ⟨⟨⟨(ofOneFile name).parsers, plainRun.now, Pattern.unnamed⟩, c, false⟩, {}, useCache, []⟩

/-- The report on the file. -/
def plainReport (name : Text) : FileReport :=
  { file := Path.toText ⟨.current, [name]⟩, language := some "javascript" }

section

variable {name : Text} {f : File} {cache : Option File}

theorem mem_workspace {place : Place} {g : File}
    (h : (place, .file g) ∈ (workspace name f cache).entries) :
    place = (["w", name] : Place) ∧ g = f ∨
      place = (Cache.pathOf oneDirectory).components ∧ cache = some g := by
  rcases List.mem_cons.1 h with heq | h
  · cases heq
  rcases List.mem_cons.1 h with heq | h
  · cases heq
    exact Or.inl ⟨rfl, rfl⟩
  cases cache with
  | none => cases h
  | some c =>
      rcases List.mem_cons.1 h with heq | h
      · cases heq
      · cases List.mem_singleton.1 h
        exact Or.inr ⟨rfl, rfl⟩

theorem names_file (hname : Path.IsName name) : ∀ n ∈ (["w", name] : Place), Path.IsName n := by
  intro n hn
  rcases List.mem_cons.1 hn with rfl | hn
  · decide
  · rw [List.mem_singleton.1 hn]
    exact hname

theorem wellNamed_workspace (hname : Path.IsName name) : (workspace name f cache).WellNamed := by
  refine ⟨?_, show ∀ n ∈ (["w"] : Place), Path.IsName n by decide⟩
  intro place g hg
  rcases mem_workspace hg with ⟨rfl, -⟩ | ⟨rfl, -⟩
  · exact names_file hname
  · decide

theorem straight_oneDirectory : Straight oneDirectory := ⟨rfl, by decide⟩

theorem entry_workspace (hname : Path.IsName name) :
    (workspace name f cache).entry ⟨.root, ["w", name]⟩ = .ok (.file f) := by
  have hplace : (workspace name f cache).locate ⟨.root, ["w", name]⟩ = .ok ["w", name] := by
    have hw : (Text.ofString "w" = Path.up) = False := by decide
    simp [FileSystem.locate, FileSystem.walk, FileSystem.startOf, FileSystem.at?, workspace,
      hname.ne_up, hw, Path.isAbsolute]
  have hat : (workspace name f cache).at? ["w", name] = some (.file f) := by
    have hne : (([Text.ofString "w", name] : Place) == [Text.ofString "w"]) = false :=
      beq_eq_false_iff_ne.2 (by simp)
    show (workspace name f cache).entries.lookup ([Text.ofString "w", name] : Place) = _
    unfold workspace
    rw [List.lookup_cons, hne]
    exact List.lookup_cons_self
  unfold FileSystem.entry
  rw [hplace]
  simp only [bind, Except.bind, hat]
  rfl

theorem file?_workspace (hname : Path.IsName name) :
    (workspace name f cache).file? ⟨.root, ["w", name]⟩ = some f := by
  unfold FileSystem.file? FileSystem.entry?
  rw [entry_workspace hname]
  rfl

/-- Among the files below the directory, the name of the file is its own. -/
theorem file?_of_nameIn (hname : Path.IsName name) {p : Path} {g : File}
    (hp : p ∈ (workspace name f cache).filesBelow oneDirectory)
    (h : Scan.nameIn oneDirectory p = Path.toText ⟨.current, [name]⟩)
    (hg : (workspace name f cache).file? p = some g) : g = f := by
  obtain ⟨hstart, hbelow, g', hg'⟩ := FileSystem.mem_filesBelow straight_oneDirectory hp
  have hnames := (wellNamed_workspace hname).files _ g' hg'
  have hpath : p = ⟨.root, ["w", name]⟩ :=
    Scan.eq_of_nameIn hstart rfl hbelow (List.prefix_append _ [name]) hnames (names_file hname) h
  rw [hpath, file?_workspace hname] at hg
  exact (Option.some.inj hg).symm

/-! ### What is taken for granted -/

variable {steps : List Step} {versions : List File}

/-- The versions of a file that is changed again and again. -/
theorem mem_of_version
    (hgiven : ∀ fs ∈ (ofOneFile name).given steps, ∃ f ∈ versions, ∃ cache,
      fs = workspace name f cache) {p : Path} (hf : (ofOneFile name).Version steps p f) :
    f ∈ versions := by
  obtain ⟨fs, hfs, -, -, hlint, hat⟩ := hf
  obtain ⟨g, hg, cache, rfl⟩ := hgiven fs hfs
  rcases mem_workspace (FileSystem.mem_entries_of_at? hat) with ⟨-, rfl⟩ | ⟨hplace, -⟩
  · exact hg
  · exact absurd hplace (World.components_ne_of_isLintable hlint oneDirectory)

/-- Runs and changes of one file keep what is taken for granted, if its versions and the options of
the runs do, and the changes leave the cache alone. -/
theorem promised_ofOneFile (hname : Path.IsName name)
    (hgiven : ∀ fs ∈ (ofOneFile name).given steps, ∃ f ∈ versions, ∃ cache,
      fs = workspace name f cache)
    (hreadable : ∀ f ∈ versions, f.readable = true)
    (hversions : ∀ f ∈ versions, ∀ g ∈ versions, f.bytes = g.bytes ∨
      f.bytes.length ≠ g.bytes.length ∧ Sha256.hexDigest f.bytes ≠ Sha256.hexDigest g.bytes)
    (hfingerprints : ∀ o u o' u', Setting steps o u → Setting steps o' u' →
      o.fingerprint u = o'.fingerprint u' → o = o' ∧ u = u')
    (hunforged : ∀ before fs later, steps = before ++ .change fs :: later →
      ∀ f, fs.at? (Cache.pathOf oneDirectory).components = some (.file f) →
        ((ofOneFile name).after before).at? (Cache.pathOf oneDirectory).components =
          some (.file f)) :
    (ofOneFile name).Promised steps := by
  refine ⟨?_, ?_, ?_, ?_, ?_, hfingerprints, ?_, hunforged⟩
  · intro fs hfs
    obtain ⟨f, -, cache, rfl⟩ := hgiven fs hfs
    exact wellNamed_workspace hname
  · intro fs hfs
    obtain ⟨f, -, cache, rfl⟩ := hgiven fs hfs
    rfl
  · exact fun p f hf => hreadable f (mem_of_version hgiven hf)
  · intro p f g hf hg _ hlength
    rcases hversions f (mem_of_version hgiven hf) g (mem_of_version hgiven hg) with heq | ⟨hne, -⟩
    · exact heq
    · exact absurd hlength hne
  · intro p f g hf hg hdigest
    rcases hversions f (mem_of_version hgiven hf) g (mem_of_version hgiven hg) with heq | ⟨-, hne⟩
    · exact heq
    · exact absurd hdigest hne
  · intro g hg
    have hmem : (_, .file g) ∈ (workspace name emptyFile none).entries :=
      FileSystem.mem_entries_of_at? hg
    rcases mem_workspace hmem with ⟨hplace, -⟩ | ⟨-, hnone⟩
    · exact absurd (congrArg List.length hplace) (show ¬ 3 = 2 by decide)
    · cases hnone

/-- One run on an empty file. -/
theorem promised_oneFile (hname : Path.IsName name) :
    (ofOneFile name).Promised [.run plainRun] := by
  have hsettings : ∀ o u, Setting [.run plainRun] o u → o = {} ∧ u = false := by
    rintro o u ⟨r, hr, rfl, rfl⟩
    cases List.mem_singleton.1 hr
    exact ⟨rfl, rfl⟩
  have hgiven : ∀ fs ∈ (ofOneFile name).given [.run plainRun], ∃ f ∈ [emptyFile], ∃ cache,
      fs = workspace name f cache := by
    intro fs hfs
    rw [List.mem_singleton.1 hfs]
    exact ⟨emptyFile, by simp, none, rfl⟩
  refine promised_ofOneFile hname hgiven (by simp [emptyFile]) (by simp) ?_ ?_
  · intro o u o' u' ho ho' _
    obtain ⟨rfl, rfl⟩ := hsettings o u ho
    obtain ⟨rfl, rfl⟩ := hsettings o' u' ho'
    exact ⟨rfl, rfl⟩
  · intro before fs later hsteps
    have hmem : Step.change fs ∈ [Step.run plainRun] := by
      rw [hsteps]
      simp
    cases List.mem_singleton.1 hmem

/-! ### What is reported -/

/-- What the empty source is converted to. -/
def emptyRoot : Node := (Conversion.expand ⟨[], none⟩ ⟨emptyTree, none, ""⟩).node

theorem convert_emptyTree (bytes : Bytes) :
    Conversion.convert ⟨bytes, none⟩ emptyTree = ⟨.node emptyRoot [], []⟩ := by
  have hcore : Conversion.core? "" emptyTree = some (emptyTree, "") := rfl
  have hexpand : Conversion.expand ⟨bytes, none⟩ ⟨emptyTree, none, ""⟩ = { node := emptyRoot } :=
    rfl
  have hrun : Conversion.run ⟨bytes, none⟩ []
      { node := { kind := .other }, tasks := [⟨emptyTree, none, ""⟩] } [] =
        ⟨.node { kind := .other } [.node emptyRoot []], []⟩ := by
    rw [Conversion.run.eq_def]
    dsimp only
    split
    · rename_i hnone
      cases hnone.symm.trans hcore
    · rename_i tree within hsome
      cases hsome.symm.trans hcore
      rw [hexpand]
      show Conversion.run _ _ (.ofExpansion _) _ = _
      rw [Conversion.run.eq_def]
      dsimp only [Conversion.Frame.ofExpansion]
      rw [Conversion.run.eq_def]
      rfl
  unfold Conversion.convert
  simp only [hrun]
  rfl

/-- Nothing is found in an empty source, nor in one with blank lines only. -/
theorem lint_oneFile (name : Text) (c : Configuration) (bytes : Bytes) :
    ∃ j, Source.lint (ofOneFile name).parsers c "javascript" false bytes = .ok j ∧
      j.language = .javascript ∧ j.findings = [] := by
  have hread : Source.read (ofOneFile name).parsers "javascript" false bytes =
      .ok ⟨.javascript, .node emptyRoot [], []⟩ := by
    show Except.ok (Source.Program.mk .javascript (Conversion.convert ⟨bytes, none⟩ emptyTree).tree
      ((Conversion.convert ⟨bytes, none⟩ emptyTree).expansions.map .expanded)) = _
    rw [convert_emptyTree]
    rfl
  refine ⟨Source.judge c false ⟨.javascript, .node emptyRoot [], []⟩, ?_, rfl, rfl⟩
  rw [Source.lint, hread]
  rfl

/-- The options of the run compile. -/
theorem exists_plainConfiguration :
    ∃ config, Configuration.ofOptions Pattern.unnamed {} = .ok config := by
  have hcompiles : (Configuration.ofOptions Pattern.unnamed {}).toOption.isSome = true := by
    decide +kernel
  cases hc : Configuration.ofOptions Pattern.unnamed {} with
  | ok config => exact ⟨config, rfl⟩
  | error e =>
      rw [hc] at hcompiles
      cases hcompiles

theorem reportAnew_workspace (hname : Path.IsName name)
    (hlanguage : Language.ofFileName? name = some .javascript) (hreadable : f.readable = true)
    (c : Configuration) (useCache : Bool) :
    Scan.reportAnew (plainPlan name c useCache).toManner (workspace name f cache) oneDirectory
      ⟨.root, ["w", name]⟩ = .ok (plainReport name) := by
  obtain ⟨j, hlint, hj, hfindings⟩ := lint_oneFile name c f.bytes
  have hlast : Path.name ⟨.root, ["w", name]⟩ = name := rfl
  have hjavascript : Language.javascript.name = Text.ofString "javascript" := rfl
  unfold Scan.reportAnew Scan.reportOn Scan.judge Scan.languageName plainPlan
  rw [hlast, hlanguage]
  dsimp only
  rw [FileSystem.read_of_file? (file?_workspace hname) hreadable]
  dsimp only
  rw [hjavascript, hlint]
  dsimp only [Except.map]
  rw [hj, hfindings]
  rfl

/-- A run over the directory is a run over the path that is given. -/
theorem does_job {config : Configuration}
    (hconfig : Configuration.ofOptions Pattern.unnamed {} = .ok config) {useCache : Bool}
    {out : Except Failure (List FileReport)} {fs' : FileSystem}
    (h : Does (Scan.lintDirectory (plainPlan name config useCache) oneDirectory)
      (workspace name f cache) out fs') :
    Does ((ofOneFile name).job plainRun useCache) (workspace name f cache)
      (out.map fun rs => ⟨[rs].flatten, [oneDirectory.toText]⟩) fs' :=
  Scan.does_lintPaths (plainPlan name config useCache).setting hconfig (Scan.does_lintPath rfl h)

/-- What a run without a cache reports on the file, if it is found and taken for JavaScript. -/
theorem outcome_workspace (hname : Path.IsName name)
    (hfound : Scan.found (workspace name f cache) oneDirectory [] = .ok [⟨.root, ["w", name]⟩])
    (hlanguage : Language.ofFileName? name = some .javascript) (hreadable : f.readable = true) :
    ∃ report, (ofOneFile name).outcome plainRun false (workspace name f cache) = .ok report ∧
      report.files = [plainReport name] := by
  obtain ⟨config, hconfig⟩ := exists_plainConfiguration
  have hfiles : Does (Scan.lintFound (plainPlan name config false) oneDirectory
      [⟨.root, ["w", name]⟩]) (workspace name f cache) (.ok [plainReport name])
      (workspace name f cache) := by
    have hanew : Does (Scan.lintFound (plainPlan name config false) oneDirectory
        [⟨.root, ["w", name]⟩]) (workspace name f cache) _ (workspace name f cache) :=
      Scan.does_lintFound_anew rfl _ oneDirectory [⟨.root, ["w", name]⟩]
    rw [List.mapM_cons, List.mapM_nil,
      reportAnew_workspace hname hlanguage hreadable config false] at hanew
    exact hanew
  exact ⟨_, (does_job hconfig (Scan.does_lintDirectory_of_found hfound hfiles)).outcome_eq, rfl⟩

/-- The cache of that run can be kept if the name of the file can. -/
theorem fits_workspace (hname : Path.IsName name)
    (hwritable : Value.Writable (.text (Path.toText ⟨.current, [name]⟩)))
    (hsize : f.bytes.length < 0x10000000000000000) (fingerprint : Text) :
    Scan.Fits (workspace name f cache) oneDirectory fingerprint plainRun.now
      [plainReport name] := by
  refine ⟨?_, ?_, ?_⟩
  · exact Value.writable_text.2 (by decide)
  · intro r hr _
    rw [List.mem_singleton.1 hr]
    refine ⟨hwritable, Value.writable_array.2 (by simp [plainReport]), ?_⟩
    intro p hp hp' g hg
    rw [file?_of_nameIn hname hp hp' hg]
    exact hsize
  · intro names hnodup hnames
    have hsub : names ⊆ [(plainReport name).file] := by
      intro n hn
      obtain ⟨r, hr, hfile, -⟩ := hnames n hn
      rw [List.mem_singleton.1 hr] at hfile
      rw [List.mem_singleton]
      exact hfile.symm
    have hle := List.Nodup.length_le_of_subset hnodup hsub
    rw [List.length_singleton] at hle
    omega

/-- Of the files that there can be, only the source is linted. -/
theorem lintable_workspace (hlintable : Scan.isLintable ⟨.root, ["w", name]⟩ = true) :
    ((workspace name f cache).filesBelow oneDirectory).filter Scan.isLintable =
      [⟨.root, ["w", name]⟩] := by
  have hcache : Scan.isLintable (Cache.pathOf oneDirectory) ≠ true := by decide
  refine List.perm_singleton.1 (((List.mergeSort_perm _ _).filter _).trans (.of_eq ?_))
  cases cache with
  | none => exact List.filter_cons_of_pos hlintable
  | some c =>
      exact (List.filter_cons_of_pos hlintable).trans
        (congrArg (_ :: ·) (List.filter_cons_of_neg hcache))

end

/-! ### A file that was touched -/

section

variable {f : File} {cache : Option File}

theorem found_workspace (f : File) (cache : Option File) :
    Scan.found (workspace "a.js" f cache) oneDirectory [] = .ok [⟨.root, ["w", "a.js"]⟩] := by
  have hpatterns : IgnoreRules.allPatterns (workspace "a.js" f cache) oneDirectory [] =
      .ok IgnoreRules.builtIn := by
    cases cache <;> rfl
  exact Scan.found_of_lintable (lintable_workspace (by decide)) hpatterns (by cbv)

theorem accepts_workspace : Cache.Accepts (workspace "a.js" f cache) oneDirectory := by
  cases cache <;> exact ⟨_, _, emptyFile, rfl, rfl⟩

/-- A run over the directory comes to its end. -/
theorem orderly_workspace (hreadable : f.readable = true)
    (hsize : f.bytes.length < 0x10000000000000000) (config : Configuration) :
    Scan.Orderly (plainPlan "a.js" config true) (workspace "a.js" f cache) oneDirectory := by
  have hfits : Scan.Fits (workspace "a.js" f cache) oneDirectory [] plainRun.now
      [plainReport "a.js"] :=
    fits_workspace (by decide) (Value.writable_text.2 (by decide)) hsize []
  refine ⟨?_, ?_, hfits.time, ?_, ?_⟩
  · intro bytes hread
    cases cache <;> cases hread
  · intro l parse hparse bytes failure hfailed
    cases hparse
    cases hfailed
  · intro p hp hlint r hr _
    have hmem := List.mem_filter.2 ⟨hp, hlint⟩
    rw [lintable_workspace (by decide), List.mem_singleton] at hmem
    rw [hmem, reportAnew_workspace (by decide) (by decide) hreadable] at hr
    cases hr
    exact hfits.keepable _ (by simp) rfl
  · rw [lintable_workspace (by decide)]
    decide

/-- A run with a cache keeps an entry of the size of the file. -/
theorem exists_kept (hleft : Cache.Left (workspace "a.js" f cache) oneDirectory)
    (hreadable : f.readable = true) (hsize : f.bytes.length < 0x10000000000000000)
    (config : Configuration) :
    ∃ rs fs', Does (Scan.lintDirectory (plainPlan "a.js" config true) oneDirectory)
        (workspace "a.js" f cache) (.ok rs) fs' ∧
      ∃ (c : Cache) (b : Bytes) (e : Cache.Entry), c.WellMade ∧
        c.fingerprint = Options.fingerprint {} false ∧ c.toValue.write = .ok b ∧
        fs'.read (Cache.pathOf oneDirectory) = .ok b ∧ c.entry? "a.js" = some e ∧
        e.size = .int f.bytes.length := by
  have hname : Path.IsName "a.js" := by decide
  have hfile : FileSystem.Straight ⟨.root, ["w", "a.js"]⟩ :=
    FileSystem.straight_of_names rfl (names_file hname)
  have hplace : ¬ (Cache.directoryOf oneDirectory).components <+: (["w", "a.js"] : Place) := by
    decide
  have hnamed : (workspace "a.js" f cache).WellNamed := wellNamed_workspace hname
  have hcached : (plainPlan "a.js" config true).useCache = true := rfl
  obtain ⟨out, fs', hdoes, hapart, hends, hrests⟩ :=
    Scan.exists_rested hnamed straight_oneDirectory hleft rfl accepts_workspace hcached
  obtain ⟨rs, rfl⟩ := hends (orderly_workspace hreadable hsize config)
  obtain ⟨paths, c, hfound, hrested⟩ := hrests rs rfl
  cases (found_workspace f cache).symm.trans hfound
  obtain ⟨b, hb, hread⟩ := hrested.saved
  obtain ⟨r, _, hsettled, -, rfl⟩ := List.forall₂_cons_left_iff.1 hrested.settled
  refine ⟨_, fs', hdoes, c, b, ?_⟩
  cases hsettled with
  | @kept e _ hentry hguards _ =>
      obtain ⟨g, _, _, _, hg, -, -, rfl⟩ := hguards.keeps
      rw [hapart.file?_eq hfile hplace, file?_workspace hname] at hg
      cases hg
      exact ⟨_, hrested.wellMade, hrested.fingerprint, hb, hread, hentry, rfl⟩
  | failing _ hreport herror =>
      -- The file could be linted, so it is not one of those that fail.
      have hsame : Scan.reportAnew (plainPlan "a.js" config true).toManner fs' oneDirectory
          ⟨.root, ["w", "a.js"]⟩ = .ok (plainReport "a.js") := by
        have hbefore : Scan.reportAnew (plainPlan "a.js" config true).toManner
            (workspace "a.js" f cache) oneDirectory ⟨.root, ["w", "a.js"]⟩ =
              .ok (plainReport "a.js") :=
          reportAnew_workspace hname (by decide) hreadable config true
        unfold Scan.reportAnew Scan.reportOn Scan.judge at hbefore ⊢
        rwa [hapart.read_eq hfile hplace]
      cases hsame.symm.trans hreport
      exact absurd rfl herror

/-- A run with a cache serves an entry that was made of the bytes of the file. -/
theorem exists_served (hleft : Cache.Left (workspace "a.js" f cache) oneDirectory)
    (hreadable : f.readable = true) {c : Cache} (hc : c.WellMade)
    (hload : Does (Cache.load oneDirectory (Options.fingerprint {} false))
      (workspace "a.js" f cache) (.ok (some c)) (workspace "a.js" f cache))
    {time : Binary64} {language : Text} {findings : List Finding}
    (he : c.entry? "a.js" = some (.ofFindings time f.bytes.length language findings
      (Sha256.hexDigest f.bytes))) (config : Configuration) :
    ∃ (r : FileReport) (out : Except Failure Unit) (fs' : FileSystem),
      Does (Scan.lintDirectory (plainPlan "a.js" config true) oneDirectory)
        (workspace "a.js" f cache) (out.map fun _ => [r]) fs' ∧ r.cached = true := by
  have hfile : (workspace "a.js" f cache).file? ⟨.root, ["w", "a.js"]⟩ = some f :=
    file?_workspace (by decide)
  obtain ⟨e, hfresh⟩ := Cache.exists_freshnessOf_ofFindings
    (FileSystem.read_of_file? hfile hreadable) time language findings
  obtain ⟨r, hreport, -, -⟩ := Scan.guards_of_fresh (hc.regular he) hfile hfresh "a.js"
  have hserved : Cache.freshness (workspace "a.js" f cache) ⟨.root, ["w", "a.js"]⟩
      (Scan.nameIn oneDirectory ⟨.root, ["w", "a.js"]⟩) c = .fresh e := by
    unfold Cache.freshness
    rw [hfile, show c.entry? (Scan.nameIn oneDirectory ⟨.root, ["w", "a.js"]⟩) = _ from he]
    exact hfresh
  have hsteps : Scan.Steps (plainPlan "a.js" config true).toManner (workspace "a.js" f cache)
      oneDirectory [⟨.root, ["w", "a.js"]⟩] c [r] _ :=
    .cons (.served hserved hreport) .nil
  obtain ⟨out, fs', hsave, -⟩ := hleft.exists_save straight_oneDirectory
    (Scan.wellMade_keptCache (hsteps.wellMade hc).1 oneDirectory [⟨.root, ["w", "a.js"]⟩]
      plainRun.now)
  have hstart : Does (Scan.startingCache (plainPlan "a.js" config true).setting oneDirectory
      (Options.fingerprint {} false)) (workspace "a.js" f cache) (.ok c)
      (workspace "a.js" f cache) :=
    Scan.does_startingCache_loaded hload _
  have hlint : Does (Scan.lintFound (plainPlan "a.js" config true) oneDirectory
      [⟨.root, ["w", "a.js"]⟩]) (workspace "a.js" f cache) (out.map fun _ => [r]) fs' :=
    Scan.does_lintFound_of_steps rfl hstart hsteps hsave
  exact ⟨r, out, fs', Scan.does_lintDirectory_of_found (found_workspace f cache) hlint,
    (Scan.of_reportOfEntry hreport).2⟩

end

/-- A run with types and with an option. -/
def typedRun : Run := ⟨{ ignoreProperties := ["title"] }, true, [], "2024-04-30T12:00:00+00:00"⟩

/-- A file with a blank line. -/
def editedFile : File := ⟨[10], ⟨0x3ff0000000000000⟩, true⟩

/-- The same file at a later time. -/
def touchedFile : File := { editedFile with modified := ⟨0x4000000000000000⟩ }

/-- The file of the cache of the directory. -/
def cacheOf (fs : FileSystem) : Option File :=
  match fs.at? (Cache.pathOf oneDirectory).components with
  | some (.file f) => some f
  | _ => none

/-- The file in place of what it was, with the cache as some steps have left it. -/
def put (f : File) (steps : List Step) : Step :=
  .change (workspace "a.js" f (cacheOf ((ofOneFile "a.js").after steps)))

/-- The file is linted, and edited, … -/
def untilEdited : List Step := [.run typedRun] ++ [put editedFile [.run typedRun]]

/-- … linted without types and without options, … -/
def untilKept : List Step := untilEdited ++ [.run plainRun]

/-- … and touched. -/
def untilTouched : List Step := untilKept ++ [put touchedFile untilKept]

theorem cacheOf_eq_some {fs : FileSystem} {g : File} :
    cacheOf fs = some g ↔ fs.at? (Cache.pathOf oneDirectory).components = some (.file g) := by
  unfold cacheOf
  cases fs.at? (Cache.pathOf oneDirectory).components with
  | none => simp
  | some e => cases e <;> simp

/-- A change that puts the file in place leaves the cache alone. -/
theorem unforged_put {f g : File} {steps : List Step} {fs : FileSystem}
    (h : put f steps = .change fs)
    (hg : fs.at? (Cache.pathOf oneDirectory).components = some (.file g)) :
    ((ofOneFile "a.js").after steps).at? (Cache.pathOf oneDirectory).components =
      some (.file g) := by
  cases h
  rcases mem_workspace (FileSystem.mem_entries_of_at? hg) with ⟨hplace, -⟩ | ⟨-, hcache⟩
  · exact absurd hplace (by decide)
  · exact cacheOf_eq_some.1 hcache

theorem after_put (f : File) (steps : List Step) :
    (ofOneFile "a.js").after (steps ++ [put f steps]) =
      workspace "a.js" f (cacheOf ((ofOneFile "a.js").after steps)) :=
  after_concat steps (put f steps)

theorem given_untilTouched : ∀ fs ∈ (ofOneFile "a.js").given (untilTouched ++ [.run plainRun]),
    ∃ f ∈ [emptyFile, editedFile, touchedFile], ∃ cache, fs = workspace "a.js" f cache := by
  intro fs hfs
  rcases List.mem_cons.1 hfs with rfl | hfs
  · exact ⟨emptyFile, by simp, none, rfl⟩
  rcases List.mem_cons.1 hfs with rfl | hfs
  · exact ⟨editedFile, by simp, _, rfl⟩
  rw [List.mem_singleton.1 hfs]
  exact ⟨touchedFile, by simp, _, rfl⟩

/-- The history keeps what is taken for granted. -/
theorem promised_untilTouched :
    (ofOneFile "a.js").Promised (untilTouched ++ [.run plainRun]) := by
  have hempty : Sha256.hexDigest [] ≠ Sha256.hexDigest [10] := by decide +kernel
  have hprints : Options.fingerprint {} false ≠
      Options.fingerprint { ignoreProperties := ["title"] } true := by
    decide +kernel
  have hbytes : ∀ f ∈ [emptyFile, editedFile, touchedFile], f.bytes = [] ∨ f.bytes = [10] := by
    decide
  have hsettings : ∀ o u, Setting (untilTouched ++ [.run plainRun]) o u →
      o = { ignoreProperties := ["title"] } ∧ u = true ∨ o = {} ∧ u = false := by
    rintro o u ⟨r, hr, rfl, rfl⟩
    simp only [untilTouched, untilKept, untilEdited, put, List.mem_append, List.mem_cons,
      List.not_mem_nil, or_false, Step.run.injEq, reduceCtorEq] at hr
    rcases hr with (rfl | rfl) | rfl
    · exact Or.inl ⟨rfl, rfl⟩
    · exact Or.inr ⟨rfl, rfl⟩
    · exact Or.inr ⟨rfl, rfl⟩
  refine promised_ofOneFile (by decide) given_untilTouched (by decide) ?_ ?_ ?_
  · intro f hf g hg
    rcases hbytes f hf with hf | hf <;> rcases hbytes g hg with hg | hg <;> rw [hf, hg]
    · exact Or.inl rfl
    · exact Or.inr ⟨by decide, hempty⟩
    · exact Or.inr ⟨by decide, hempty.symm⟩
    · exact Or.inl rfl
  · intro o u o' u' ho ho' heq
    rcases hsettings o u ho with ⟨rfl, rfl⟩ | ⟨rfl, rfl⟩ <;>
      rcases hsettings o' u' ho' with ⟨rfl, rfl⟩ | ⟨rfl, rfl⟩
    · exact ⟨rfl, rfl⟩
    · exact absurd heq.symm hprints
    · exact absurd heq hprints
    · exact ⟨rfl, rfl⟩
  · intro before fs later hsteps g hg
    have hput : ∃ f, put f before = .change fs := by
      rcases before with _ | ⟨s₁, _ | ⟨s₂, _ | ⟨s₃, _ | ⟨s₄, _ | ⟨s₅, before⟩⟩⟩⟩⟩ <;>
        simp only [untilTouched, untilKept, untilEdited, List.cons_append, List.nil_append,
          List.cons.injEq, List.nil_eq_append_iff, reduceCtorEq, false_and, and_false] at hsteps
      · obtain ⟨rfl, hput, -⟩ := hsteps
        exact ⟨editedFile, hput⟩
      · obtain ⟨rfl, rfl, rfl, hput, -⟩ := hsteps
        exact ⟨touchedFile, hput⟩
    obtain ⟨f, hput⟩ := hput
    exact unforged_put hput hg

/-- The second run leaves a cache with an entry of the size of the edited file. -/
theorem exists_untilKept :
    ∃ (stored : File) (c : Cache) (e : Cache.Entry),
      ((ofOneFile "a.js").after untilKept).at? (Cache.pathOf oneDirectory).components =
        some (.file stored) ∧
      stored.readable = true ∧ c.WellMade ∧ c.fingerprint = Options.fingerprint {} false ∧
      c.toValue.write = .ok stored.bytes ∧ c.entry? "a.js" = some e ∧
      e.size = .int editedFile.bytes.length := by
  have hp := promised_untilTouched
  unfold untilTouched untilKept at hp
  simp only [List.append_assoc] at hp
  have hedited := stands_before hp
  obtain ⟨cache, hfs⟩ : ∃ cache, (ofOneFile "a.js").after untilEdited =
      workspace "a.js" editedFile cache := ⟨_, after_put editedFile [.run typedRun]⟩
  rw [hfs] at hedited
  have hleft : Cache.Left (workspace "a.js" editedFile cache) oneDirectory :=
    Cache.Left.of_trusts hedited.sound.trusts
  obtain ⟨config, hconfig⟩ := exists_plainConfiguration
  obtain ⟨rs, fs', hdoes, c, b, e, hc, hprint, hb, hread, he, hsize⟩ :=
    exists_kept hleft rfl (by decide) config
  have hafter : (ofOneFile "a.js").after untilKept = fs' := by
    unfold untilKept
    rw [after_concat, hfs]
    exact (does_job hconfig hdoes).files_eq
  obtain ⟨stored, hstored, rfl⟩ := FileSystem.file?_of_read hread
  have hreadable := FileSystem.readable_of_read hread hstored
  have hat := FileSystem.at?_of_file? (Cache.straight_pathOf straight_oneDirectory) hstored
  exact ⟨stored, c, e, hafter ▸ hat, hreadable, hc, hprint, hb, he, hsize⟩

/-- The touch leaves that cache, and its entry is about the bytes of the touched file. -/
theorem exists_untilTouched :
    ∃ (cache : Option File) (c : Cache) (time : Binary64) (language : Text)
      (findings : List Finding),
      (ofOneFile "a.js").after untilTouched = workspace "a.js" touchedFile cache ∧
      Cache.Left (workspace "a.js" touchedFile cache) oneDirectory ∧ c.WellMade ∧
      Does (Cache.load oneDirectory (Options.fingerprint {} false))
        (workspace "a.js" touchedFile cache) (.ok (some c)) (workspace "a.js" touchedFile cache) ∧
      c.entry? "a.js" = some (.ofFindings time touchedFile.bytes.length language findings
        (Sha256.hexDigest touchedFile.bytes)) := by
  have hp := promised_untilTouched
  obtain ⟨stored, c, e, hat, hreadable, hc, hprint, hb, he, hsize⟩ := exists_untilKept
  have hfs : (ofOneFile "a.js").after untilTouched =
      workspace "a.js" touchedFile (some stored) := by
    unfold untilTouched
    rw [after_put, cacheOf_eq_some.2 hat]
  have htouched := stands_before hp
  rw [hfs] at htouched
  have hload : Does (Cache.load oneDirectory (Options.fingerprint {} false))
      (workspace "a.js" touchedFile (some stored)) (.ok (some c))
      (workspace "a.js" touchedFile (some stored)) := by
    rw [← hprint]
    exact Cache.does_load_written hc hb (FileSystem.read_of_file? (f := stored) rfl hreadable)
  have hplain : Setting (untilTouched ++ [.run plainRun]) {} false :=
    ⟨plainRun, by simp, rfl, rfl⟩
  let setting : LiteralLint.Setting := ⟨(ofOneFile "a.js").parsers, [], Pattern.unnamed⟩
  obtain ⟨c', hstart, hholds, -, -⟩ :=
    World.does_startingCache (lawful hp) htouched.sound.trusts hplain setting
  have hsame : c' = c :=
    Except.ok.inj (hstart.outcome_eq.symm.trans
      (Scan.does_startingCache_loaded hload setting).outcome_eq)
  subst hsame
  -- The entry is about some version of the file, and only two have the size of the edited one.
  obtain ⟨q, g, hg, -, j, -, rfl⟩ := hholds.entries _ (World.mem_files_of_entry he)
  have hbytes : g.bytes = touchedFile.bytes := by
    have hmem := mem_of_version given_untilTouched hg
    simp only [List.mem_cons, List.not_mem_nil, or_false] at hmem
    rcases hmem with rfl | rfl | rfl
    · cases hsize
    · rfl
    · rfl
  rw [hbytes] at he
  exact ⟨some stored, _, _, _, _, hfs, Cache.Left.of_trusts htouched.sound.trusts, hc, hload, he⟩

/-- A file is linted, edited, linted with other options, and touched. The next run serves the entry
that the second one has made, and the report is that of a run without a cache. -/
theorem outcome_cached_touched_file :
    (ofOneFile "a.js").Promised (untilTouched ++ [.run plainRun]) ∧
      ∃ report report',
        (ofOneFile "a.js").outcome plainRun false ((ofOneFile "a.js").after untilTouched) =
          .ok report ∧
        (ofOneFile "a.js").outcome plainRun true ((ofOneFile "a.js").after untilTouched) =
          .ok report' ∧
        report'.anew = report ∧ report'.files = [{ plainReport "a.js" with cached := true }] := by
  have hp := promised_untilTouched
  have hname : Path.IsName "a.js" := by decide
  obtain ⟨cache, c, _, _, _, hfs, hleft, hc, hload, he⟩ := exists_untilTouched
  obtain ⟨config, hconfig⟩ := exists_plainConfiguration
  obtain ⟨r, out, fs', hlint, hcached⟩ := exists_served hleft rfl hc hload he config
  obtain ⟨report, hout, hfiles⟩ :=
    outcome_workspace hname (found_workspace touchedFile cache) (by decide) rfl
  have hrun := (does_job hconfig hlint).outcome_eq
  rw [← hfs] at hout hrun
  have hkeeps :
      (ofOneFile "a.js").Keeps plainRun ((ofOneFile "a.js").after untilTouched) report := by
    intro _
    rw [hfiles, hfs]
    exact fits_workspace hname (Value.writable_text.2 (by decide)) (by decide) _
  obtain ⟨report', hout', hanew⟩ :=
    (outcome_cached (ofOneFile "a.js") untilTouched plainRun hp).2.1 report hout hkeeps
  refine ⟨hp, report, report', hout, hout', hanew, ?_⟩
  have hresult := hout'.symm.trans hrun
  cases out with
  | error failure => cases hresult
  | ok _ =>
      cases hresult
      subst hanew
      have hr : r.anew = plainReport "a.js" := List.head_eq_of_cons_eq hfiles
      obtain ⟨file, language, findings, error, cached⟩ := r
      cases hcached
      cases hr
      rfl

/-- A name with a byte that is not UTF-8: the run without a cache reports, the cached run fails. -/
theorem outcome_cached_surrogate_name :
    let name : Text := [97, 0xDC80, 46, 106, 115]
    (ofOneFile name).Promised ([] ++ [.run plainRun]) ∧
      ∃ report u, (ofOneFile name).outcome plainRun false (oneFile name) = .ok report ∧
        (ofOneFile name).outcome plainRun true (oneFile name) = .error (Cache.unwritable u) := by
  intro name
  have hname : Path.IsName name := by decide
  have hpromised : (ofOneFile name).Promised ([] ++ [.run plainRun]) := promised_oneFile hname
  have hpatterns : IgnoreRules.allPatterns (workspace name emptyFile none) oneDirectory [] =
      .ok IgnoreRules.builtIn := rfl
  have hfound : Scan.found (workspace name emptyFile none) oneDirectory [] =
      .ok [⟨.root, ["w", name]⟩] :=
    Scan.found_of_lintable (lintable_workspace (by decide)) hpatterns (by cbv)
  obtain ⟨report, hout, hfiles⟩ := outcome_workspace hname hfound (by decide) rfl
  have hsaves : World.Saves (oneFile name) (ofOneFile name).directory :=
    ⟨by decide, _, _, emptyFile, rfl, rfl⟩
  obtain ⟨u, hout'⟩ := outcome_of_name_not_scalar hpromised hsaves hout (f := plainReport name)
    (by rw [hfiles]; simp) rfl (by decide)
  exact ⟨hpromised, report, u, hout, hout'⟩

end History

end LiteralLint
