import LiteralLint.Source

/-!
# Log lines

A run tells what it does by events. Each event has a level and a wording of one line; lines of
progress within an operation are indented.

## Main definitions

* `Log.Event`: what can happen.
* `Log.Event.level`, `Log.Event.message`.
* `Log.lines`: the lines that a reader of some levels sees.
-/

namespace LiteralLint.Log

/-- How much an event matters. -/
inductive Level
  | debug
  | info
  | warning
  | error
  deriving DecidableEq

/-- The name of a level. -/
def Level.name : Level → Text
  | .debug => "DEBUG"
  | .info => "INFO"
  | .warning => "WARNING"
  | .error => "ERROR"

/-- What can happen during a run. -/
inductive Event
  | configurationCompiled (patterns callees attributes : Nat)
  | source (n : Source.Note)
  | negationUnsupported (line : Text)
  | ignoreFileUnreadable (path reason : Text)
  | patternsLoaded (count : Nat) (name : Text)
  | filesFound (directory : Text) (count : Nat)
  | fileSkipped (file reason : Text)
  | pathMissing (path : Text)
  | cacheOutdated
  | cacheOfOtherOptions
  | cacheUnreadable (reason : Text)
  | cacheLoaded (entries : Nat)
  | entriesRemoved (count : Nat)
  | cacheSaved (entries : Nat)
  | cacheUnsaved (reason : Text)
  | directoryDone (directory : Text) (cached linted : Nat)
  | started (operation : Text) (details : List (Text × Text))
  | failed (operation reason : Text)
  | completed (operation : Text)

namespace Event

/-- The level of a note on a source. -/
def noteLevel : Source.Note → Option Level
  | .judged (.asked q) => if q.answer = some true then some .debug else none
  | _ => some .debug

/-- The level of an event; none if it is not worth a line. -/
def level : Event → Option Level
  | .configurationCompiled _ _ _ => some .debug
  | .source n => noteLevel n
  | .negationUnsupported _ => some .debug
  | .ignoreFileUnreadable _ _ => some .warning
  | .patternsLoaded _ _ => some .debug
  | .filesFound _ _ => some .info
  | .fileSkipped _ _ => some .warning
  | .pathMissing _ => some .warning
  | .cacheOutdated => some .info
  | .cacheOfOtherOptions => some .info
  | .cacheUnreadable _ => some .warning
  | .cacheLoaded _ => some .info
  | .entriesRemoved _ => some .info
  | .cacheSaved _ => some .info
  | .cacheUnsaved _ => some .warning
  | .directoryDone _ _ _ => some .info
  | .started _ _ => some .info
  | .failed _ _ => some .error
  | .completed _ => some .info

/-- A name in a message. -/
def shownName (d : Datum) : Text := d.shown?.getD []

/-- A number in a message. -/
def number (n : Nat) : Text := Text.ofNat n

/-- The wording of a note on a source. -/
def noteMessage : Source.Note → Text
  | .repaired l =>
    Text.cat ["  Syntax errors in ", l.name, " source; linting the recovered tree"]
  | .expanded e => Text.cat ["  Resolved type alias ", e.name, " -> ", e.form]
  | .judged (.wrapper name node) =>
    Text.cat ["  Translation wrapper <", shownName name, "> at node ", number node]
  | .judged (.asked q) => Text.cat ["  Literal ", Text.quoted q.text, " narrowed by declared type"]
  | .judged (.skipped kind node fault) =>
    Text.cat ["  Skipping malformed ", kind.name, " node ", number node, ": ", fault.message]
  | .summary nodes findings translation technical skipped =>
    Text.cat ["  Linted ", number nodes, " nodes: ", number findings, " findings, ",
      number translation, " translation / ", number technical, " technical containers, ",
      number skipped, " skipped"]

/-- The details of an operation, each after a blank. -/
def detailsText (details : List (Text × Text)) : Text :=
  details.flatMap fun (k, v) => Text.cat [" ", k, "=", v]

/-- The wording of an event. Operations that end are told with the time they took. -/
def message (elapsed : Text) : Event → Text
  | .configurationCompiled patterns callees attributes =>
    Text.cat ["  Compiled configuration: ", number patterns, " patterns, ", number callees,
      " callees, ", number attributes, " attributes"]
  | .source n => noteMessage n
  | .negationUnsupported line => Text.cat ["  Negation patterns not supported: ", line]
  | .ignoreFileUnreadable path reason => Text.cat ["  Failed to read ", path, ": ", reason]
  | .patternsLoaded count name =>
    Text.cat ["  Loaded ", number count, " patterns from ", name]
  | .filesFound directory count =>
    Text.cat ["  ", directory, ": found ", number count, " files to lint"]
  | .fileSkipped file reason => Text.cat ["  Skipping ", file, ": ", reason]
  | .pathMissing path => Text.cat ["  Path does not exist: ", path]
  | .cacheOutdated => "  Lint cache version mismatch, ignoring cache"
  | .cacheOfOtherOptions => "  Lint options changed, ignoring cache"
  | .cacheUnreadable reason => Text.cat ["  Failed to load lint cache: ", reason]
  | .cacheLoaded entries => Text.cat ["  Loaded lint cache with ", number entries, " entries"]
  | .entriesRemoved count =>
    Text.cat ["  Removed ", number count, " deleted files from cache"]
  | .cacheSaved entries =>
    Text.cat ["  Saved lint cache with ", number entries, " files (msgpack)"]
  | .cacheUnsaved reason => Text.cat ["  Failed to save lint cache: ", reason]
  | .directoryDone directory cached linted =>
    Text.cat ["  ", directory, ": ", number cached, " cached, ", number linted, " linted"]
  | .started operation details => Text.cat ["▶ Starting ", operation, detailsText details]
  | .failed operation reason =>
    Text.cat ["✗ ", operation, " failed after ", elapsed, "s: ", reason]
  | .completed operation => Text.cat ["✓ Completed ", operation, " in ", elapsed, "s"]

end Event

/-- Whether a level is shown. Details are shown only on request. -/
def isShown (verbose : Bool) : Level → Bool
  | .debug => verbose
  | _ => true

/-- The line of an event, if it is shown. -/
def line? (verbose : Bool) (elapsed : Text) (e : Event) : Option Text :=
  match e.level with
  | none => none
  | some l =>
    if isShown verbose l then some (Text.cat [l.name, " ", e.message elapsed]) else none

/-- The lines of some events. -/
def lines (verbose : Bool) (elapsed : Text) (events : List Event) : List Text :=
  events.filterMap (line? verbose elapsed)

end LiteralLint.Log
