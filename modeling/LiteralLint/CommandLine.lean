import LiteralLint.CommandLine.Arguments
import LiteralLint.Scan

/-!
# The command line

The command lints paths and writes a report. It ends with a status that tells whether there was
anything to report, and with another one if options cannot be used.

## Main definitions

* `CommandLine.Output`: what a command line writes, and its status.
* `CommandLine.chooseOptions`: the options that are in force.
* `CommandLine.run`: a command line as a job.
-/

namespace LiteralLint.CommandLine

/-- The status of a run without findings. -/
def statusClean : Nat := 0

/-- The status of a run with findings. -/
def statusFindings : Nat := 1

/-- The status of a run that options or arguments prevent. -/
def statusConfiguration : Nat := 2

/-- What a command line writes, and its status. -/
structure Output where
  status : Nat
  out : Text := []
  err : Text := []

/-- The options file of the first path that has one. A path that is a file counts as its
directory. -/
def findOptions? (fs : FileSystem) (paths : List Text) : Option Path :=
  paths.findSome? fun raw =>
    let p := Path.ofText raw
    OptionsFile.find? fs (if fs.isDirectory p then p else p.parent)

/-- The options of the file that is named, or else of the first path that has some. -/
def fileOptions (fs : FileSystem) (r : CheckRequest) : Except Failure Options :=
  match r.config with
  | some path => OptionsFile.read fs (Path.ofText path)
  | none =>
    match findOptions? fs r.paths with
    | some path => OptionsFile.read fs path
    | none => .ok {}

/-- Texts as a list. -/
def listed (ts : List Text) : Json := .array (ts.map .text)

/-- The options in force: those of a file, with those of the command line added. -/
def chooseOptions (fs : FileSystem) (r : CheckRequest) : Except Failure Options :=
  match fileOptions fs r with
  | .error f => .error f
  | .ok o =>
    (o.merged [("ignore", listed r.ignore), ("ignore_callee", listed r.ignoreCallees),
      ("ignore_properties", listed r.ignoreProperties),
      ("ignore_attributes", listed r.ignoreAttributes)]).mapError Failure.ofMerge

/-- The report in the form that is asked for. -/
def render (setting : Setting) (format : Format) (r : Report) : Text :=
  match format with
  | .text => r.toText
  | .json => Json.indented .ascii (r.toJson setting.now)

/-- The name of the operation of the command. -/
def operation : Text := "check"

/-- Lints paths, and tells when it starts and how it ends. -/
def lintTold (setting : Setting) (r : CheckRequest) (o : Options) : Job Report := do
  Job.tell (.started operation [("paths", Text.ofNat r.paths.length)])
  let report ← tryCatch
    (Scan.lintPaths setting o r.useTypes r.useCache r.exclude r.paths)
    fun f => do
      Job.tell (.failed operation f.message)
      throw f
  Job.tell (.completed operation)
  return report

/-- The output for options that cannot be used. -/
def refusal (f : ConfigurationFault) : Output :=
  { status := statusConfiguration
    err := Text.cat ["Configuration error: ", f.message, "\n"] }

/-- Lints what a request asks for. -/
def check (setting : Setting) (r : CheckRequest) : Job Output :=
  tryCatch
    (do
      let o ← liftExcept (chooseOptions (← Job.files) r)
      let report ← lintTold setting r o
      return {
        status := if report.findingCount = 0 then statusClean else statusFindings
        out := Text.cat [render setting r.format report, "\n"] })
    fun f => match f with
      | .configuration c => return refusal c
      | f => throw f

/-- The usage of a command. -/
def helpOutput (scope : Scope) : Output :=
  { status := statusClean, out := (UsageFault.usage scope).takeWhile (· != 10) ++ "\n" }

/-- A command line as a job. -/
def run (setting : Setting) (args : List Text) : Job Output := do
  match parse (← Job.files) args with
  | .error f => return { status := statusConfiguration, err := f.message }
  | .ok .version =>
    return { status := statusClean, out := Text.cat ["i18nlint, version ", version, "\n"] }
  | .ok (.help scope) => return helpOutput scope
  | .ok (.check r) => check setting r

/-- Whether a command line asks for details. -/
def isVerbose (fs : FileSystem) (args : List Text) : Bool :=
  match parse fs args with
  | .ok (.check r) => r.verbose
  | _ => false

end LiteralLint.CommandLine
