import LiteralLint.Cache.Store
import LiteralLint.IgnoreRules
import LiteralLint.Options.File
import LiteralLint.Report

/-!
# Linting files and directories

A file that cannot be linted is reported with its error, and the run goes on. In a directory, files
that have not changed since an earlier run with the same options are not linted again.

## Main definitions

* `Scan.lintFile`: one file.
* `Scan.discover`: the files of a directory that are linted.
* `Scan.lintDirectory`: a directory.
* `Scan.lintPaths`: files and directories, by options that are compiled first.
-/

namespace LiteralLint.Scan

/-! ### Options -/

/-- The event of a compiled configuration. -/
def compiledEvent (c : Configuration) : Log.Event :=
  let distinct (ts : List Text) : Nat := (Text.sortedDistinct ts).length
  .configurationCompiled c.valuePatterns.length
    (distinct c.technicalCallees.simple + distinct c.technicalCallees.qualified)
    (distinct c.attributes)

/-- The configuration of some options. -/
def configure (characters : Pattern.CharacterNames) (o : Options) : Job Configuration := do
  let c ← liftExcept (Configuration.ofOptions characters o)
  Job.tell (compiledEvent c)
  return c

/-! ### Files -/

/-- How programs are judged. -/
structure Manner where
  setting : Setting
  config : Configuration
  useTypes : Bool

/-- Why a file is skipped. -/
inductive Skip
  | system (f : FileSystem.Fault)
  | unsupported (message : Text)
  | tooDeep
  | unconvertible (message : Text)
  deriving DecidableEq

/-- The wording of a reason to skip a file. -/
def Skip.message : Skip → Text
  | .system f => f.message
  | .unsupported t => t
  | .tooDeep => "syntax tree too deep"
  | .unconvertible t => Text.cat ["cannot convert source: ", t]

/-- Whether a failure is a reason to skip a file. -/
def Skip.ofFailure? : Failure → Option Skip
  | .unsupported t => some (.unsupported t)
  | .tooDeep => some .tooDeep
  | .refused t => some (.unconvertible t)
  | .tooLarge t => some (.unconvertible t)
  | _ => none

/-- The name of the language of a file: the one given, or else the one of its extension. -/
def languageName (path : Path) (given : Option Text) : Except Skip Text :=
  match given with
  | some l => .ok l
  | none =>
    match Language.ofFileName? path.name with
    | some l => .ok l.name
    | none => .error (.unsupported (Text.cat ["Unknown extension: ", path.suffix]))

/-- The judgement on a file, or a reason to skip it; a failure that is no such reason ends the
run. -/
def judge (m : Manner) (fs : FileSystem) (path : Path) (language : Option Text) :
    Except Failure (Except Skip Source.Judgement) :=
  match languageName path language with
  | .error s => .ok (.error s)
  | .ok l =>
    match fs.read path with
    | .error f => .ok (.error (.system f))
    | .ok bytes =>
      match Source.lint m.setting.parsers m.config l m.useTypes bytes with
      | .ok j => .ok (.ok j)
      | .error f =>
        match Skip.ofFailure? f with
        | some s => .ok (.error s)
        | none => .error f

/-- The path of a file as it is reported: below a root, if it is there. -/
def reportedPath (path : Path) (root : Option Path) : Path :=
  (root.bind path.relativeTo?).getD path

/-- Lints a file. -/
def lintFile (m : Manner) (path : Path) (root : Option Path) (language : Option Text) :
    Job FileReport := do
  let file := (reportedPath path root).toText
  match ← liftExcept (judge m (← Job.files) path language) with
  | .ok j =>
    Job.tellAll (j.notes.map .source)
    return { file := file, language := some j.language.name, findings := j.findings }
  | .error s =>
    Job.tell (.fileSkipped file s.message)
    return { file := file, language := language, error := some s.message }

/-! ### Directories -/

/-- Whether files of a name are linted in directories. -/
def isLintable (path : Path) : Bool := (Language.ofExtension? path.suffix).isSome

/-- The files of a directory that are linted, in ascending order. -/
def discover (directory : Path) (ignore : List Text) : Job (List Path) := do
  let patterns ← IgnoreRules.load directory ignore
  let fs ← Job.files
  return (fs.filesBelow directory).filter fun p =>
    isLintable p && !IgnoreRules.rejects patterns directory p

/-- The report on a file that has not changed. -/
def reportOfEntry (file : Text) (e : Cache.Entry) : Except Failure FileReport :=
  match e.findingList with
  | .error f => .error f
  | .ok findings =>
    e.language?.map fun l =>
      { file := file, language := l, findings := findings, cached := true }

/-- The entry of a file that was linted without an error. -/
def entryOfReport (fs : FileSystem) (path : Path) (r : FileReport) : Option Cache.Entry :=
  match r.error, fs.file? path with
  | none, some f =>
    some (.ofFindings f.modified f.bytes.length (r.language.getD []) r.findings
      (Cache.digest fs path))
  | _, _ => none

/-- The path of a file below a directory. -/
def nameIn (directory path : Path) : Text := (reportedPath path (some directory)).toText

/-- Lints a file of a directory, without a cache. -/
def lintAnew (m : Manner) (directory path : Path) : Job FileReport :=
  lintFile m path (some directory) none

/-- Reports on a file of a directory from a cache, or else lints it and extends the cache. -/
def lintCached (m : Manner) (directory path : Path) (cache : Cache) :
    Job (FileReport × Cache) := do
  let name := nameIn directory path
  match Cache.freshness (← Job.files) path name cache with
  | .fresh e =>
    let r ← liftExcept (reportOfEntry name e)
    return (r, cache.setEntry name e)
  | .stale =>
    let r ← lintAnew m directory path
    match entryOfReport (← Job.files) path r with
    | some e => return (r, cache.setEntry name e)
    | none => return (r, cache)

/-- Lints the files of a directory, without a cache. -/
def lintAllAnew (m : Manner) (directory : Path) (paths : List Path) : Job (List FileReport) :=
  paths.mapM (lintAnew m directory)

/-- Lints the files of a directory, with a cache. -/
def lintAllCached (m : Manner) (directory : Path) :
    List Path → Cache → Job (List FileReport × Cache)
  | [], cache => return ([], cache)
  | path :: rest, cache => do
    let (r, cache) ← lintCached m directory path cache
    let (rs, cache) ← lintAllCached m directory rest cache
    return (r :: rs, cache)

/-- The cache to start with: the one that is kept for options with a fingerprint, or a new one. -/
def startingCache (setting : Setting) (directory : Path) (fingerprint : Text) : Job Cache := do
  match ← Cache.load directory fingerprint with
  | some c =>
    Job.tell (.cacheLoaded c.files.length)
    return c
  | none => return .fresh fingerprint setting.now

/-- Keeps a cache with entries for some files only. -/
def keepCache (setting : Setting) (directory : Path) (names : List Text) (cache : Cache) :
    Job Unit := do
  let kept := cache.keepOnly names
  let removed := cache.files.length - kept.files.length
  if removed != 0 then Job.tell (.entriesRemoved removed)
  Cache.save directory { kept with createdAt := .text setting.now }

/-- What a run over directories is given. -/
structure Plan extends Manner where
  options : Options
  useCache : Bool
  ignore : List Text

/-- Lints the files of a directory. -/
def lintFound (plan : Plan) (directory : Path) (paths : List Path) : Job (List FileReport) := do
  if plan.useCache then
    let cache ← startingCache plan.setting directory (plan.options.fingerprint plan.useTypes)
    let (reports, cache) ← lintAllCached plan.toManner directory paths cache
    keepCache plan.setting directory (paths.map (nameIn directory)) cache
    return reports
  else lintAllAnew plan.toManner directory paths

/-- Lints a directory. -/
def lintDirectory (plan : Plan) (directory : Path) : Job (List FileReport) := do
  let paths ← discover directory plan.ignore
  Job.tell (.filesFound directory.toText paths.length)
  let reports ← lintFound plan directory paths
  let cached := reports.countP fun r => r.cached
  Job.tell (.directoryDone directory.toText cached (paths.length - cached))
  return reports

/-! ### Paths -/

/-- Lints a file or a directory. A path that leads to nothing is reported as it was given. -/
def lintPath (plan : Plan) (raw : Text) : Job (List FileReport) := do
  let fs ← Job.files
  let path := fs.resolve (Path.ofText raw)
  if fs.isDirectory path then lintDirectory plan path
  else if fs.exists path then
    return [← lintFile plan.toManner path (some fs.currentPath) none]
  else
    Job.tell (.pathMissing path.toText)
    return [{ file := raw, error := some "path does not exist" }]

/-- Lints files and directories. Nothing is linted if the options do not compile. -/
def lintPaths (setting : Setting) (options : Options) (useTypes useCache : Bool)
    (ignore paths : List Text) : Job Report := do
  let config ← configure setting.characters options
  let plan : Plan := ⟨⟨setting, config, useTypes⟩, options, useCache, ignore⟩
  let fs ← Job.files
  let reports ← paths.mapM (lintPath plan)
  return ⟨reports.flatten, paths.map fun p => (fs.resolve (Path.ofText p)).toText⟩

end LiteralLint.Scan
