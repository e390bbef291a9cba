import LiteralLint.Finding.Record
import LiteralLint.Json.Writer
import LiteralLint.Options.Fingerprint

/-!
# Reports

A report says for every file what was found in it, or why it could not be linted.

## Main definitions

* `FileReport`, `Report`.
* `Report.toText`: one line for each finding or error, and a summary.
* `Report.toJson`: the record of a report.
-/

namespace LiteralLint

/-- What was found in a file. -/
structure FileReport where
  file : Text
  language : Option Text := none
  findings : List Finding := []
  /-- Why the file could not be linted. -/
  error : Option Text := none
  /-- Whether the findings were known from an earlier run. -/
  cached : Bool := false

/-- What was found in some files, and where they were looked for. -/
structure Report where
  files : List FileReport
  roots : List Text

namespace FileReport

/-- Whether a file could not be linted. An error without a wording does not count. -/
def hasError (r : FileReport) : Bool :=
  match r.error with
  | none => false
  | some e => !e.isEmpty

/-- A text or nothing, as JSON. -/
def orNull : Option Text → Json
  | some t => .text t
  | none => .null

/-- The record of a report on a file. -/
def toJson (r : FileReport) : Json :=
  .object [("file", .text r.file), ("language", orNull r.language),
    ("findings", .array (r.findings.map Finding.toJson)), ("error", orNull r.error),
    ("cached", .bool r.cached)]

/-- The place of a finding, columns from one. -/
def placeText : Option Span → Text
  | some s => Text.cat [Text.ofInt s.startLine, ":", Text.ofInt (s.startColumn + 1)]
  | none => "?:?"

/-- The lines of a report on a file. -/
def lines (r : FileReport) : List Text :=
  if r.hasError then [Text.cat [r.file, ": error: ", r.error.getD []]]
  else r.findings.map fun f => Text.cat [r.file, ":", placeText f.position, "  ", f.message]

end FileReport

namespace Report

/-- The name of the program. -/
def analyzer : Text := "i18nlint"

/-- How many findings there are. -/
def findingCount (r : Report) : Nat := (r.files.flatMap fun f => f.findings).length

/-- How many files could not be linted. -/
def errorCount (r : Report) : Nat := r.files.countP FileReport.hasError

/-- The last line of a report. -/
def summary (r : Report) : Text :=
  Text.cat [Text.ofNat r.findingCount, " finding(s) in ", Text.ofNat r.files.length, " file(s), ",
    Text.ofNat r.errorCount, " error(s)"]

/-- A report as text. -/
def toText (r : Report) : Text := Text.join "\n" (r.files.flatMap FileReport.lines ++ [r.summary])

/-- The record of a report that was made at some time. -/
def toJson (r : Report) (time : Text) : Json :=
  .object [("files", .array (r.files.map FileReport.toJson)),
    ("metadata", .object [("analyzer", .text analyzer), ("version", .text version),
      ("generated_at", .text time), ("roots", .array (r.roots.map .text))]),
    ("finding_count", .int r.findingCount), ("error_count", .int r.errorCount)]

end Report

end LiteralLint
