import LiteralLint.Glob
import LiteralLint.Job

/-!
# Ignore rules

A directory scan leaves out paths by patterns: built-in ones, those of an ignore file at the root of
the scan, and those that a caller adds. A pattern without a slash is about any one component of the
path below the root; a pattern with a slash is about the path as a whole.

## Main definitions

* `IgnoreRules.builtIn`: the patterns that always hold.
* `IgnoreRules.Line`, `IgnoreRules.readLine`: the lines of an ignore file.
* `IgnoreRules.load`: all patterns of a scan.
* `IgnoreRules.rejects`: whether a path is left out.
-/

namespace LiteralLint.IgnoreRules

/-- The name of an ignore file. -/
def fileName : Text := ".i18nlintignore"

/-- Directories of version control, dependencies, build output, editors and coverage, bundled
sources, and the directory of the cache. -/
def general : List Text := [
  ".git", ".svn", ".hg", "node_modules", "bower_components", "jspm_packages", "vendor", "dist",
  "build", "out", "*.min.js", "*.bundle.js", ".idea", ".vscode", "coverage", ".nyc_output",
  ".i18nlint"]

/-- Build and cache directories of frameworks. -/
def ofFrameworks : List Text := [
  ".next", ".nuxt", ".output", ".svelte-kit", ".astro", ".vite", ".cache", ".parcel-cache",
  ".turbo", "storybook-static"]

/-- The patterns that always hold. -/
def builtIn : List Text := general ++ ofFrameworks

/-- A text without slashes at its two ends. -/
def trimSlashes (t : Text) : Text := Text.stripOf (· == Path.slash) t

/-- A line of an ignore file. -/
inductive Line
  | nothing
  | negation (line : Text)
  | pattern (p : Text)
  deriving DecidableEq

/-- What a line says: nothing if it is blank or a comment. Negations are not supported. -/
def readLine (line : Text) : Line :=
  match Text.strip line with
  | [] => .nothing
  | 35 :: _ => .nothing
  | 33 :: rest => .negation (33 :: rest)
  | t => .pattern (trimSlashes t)

/-- The lines of an ignore file. -/
def readLines (contents : Text) : List Line := (Text.lines contents).map readLine

/-- The patterns among some lines. -/
def patternsOf (lines : List Line) : List Text :=
  (lines.filterMap fun l => match l with
    | .pattern p => some p
    | _ => none).eraseDups

/-- The negations among some lines. -/
def negationsOf (lines : List Line) : List Text :=
  lines.filterMap fun l => match l with
    | .negation t => some t
    | _ => none

/-- The patterns of the ignore file at the root of a scan. -/
def custom (root : Path) : Job (List Text) := do
  let fs ← Job.files
  let file := root.child fileName
  if !fs.exists file then return []
  else
    match fs.read file with
    | .error f =>
      Job.tell (.ignoreFileUnreadable file.toText f.message)
      return []
    | .ok bytes =>
      match Utf8.decode? bytes with
      | .error f => throw (.notUtf8 f)
      | .ok contents =>
        let lines := readLines contents
        Job.tellAll ((negationsOf lines).map .negationUnsupported)
        return patternsOf lines

/-- Patterns that a caller adds, without outer slashes; those that hold nothing else are left
out. -/
def added (extra : List Text) : List Text :=
  (extra.map trimSlashes).filter fun t => !t.isEmpty

/-- All patterns of a scan. -/
def load (root : Path) (extra : List Text) : Job (List Text) := do
  let own ← custom root
  if !own.isEmpty then Job.tell (.patternsLoaded own.length fileName)
  return (builtIn ++ own ++ added extra).eraseDups

/-- Whether a pattern is about paths as a whole. -/
def isWhole (pattern : Text) : Bool := pattern.contains Path.slash

/-- Whether a pattern is about some components, given as text and one by one. -/
def concerns (pattern : Text) (p : Path) : Bool :=
  if isWhole pattern then
    Glob.matches pattern p.toText || Text.startsWith p.toText (pattern ++ [Path.slash])
  else p.components.any fun c => c == pattern || Glob.matches pattern c

/-- Whether a path is left out of a scan. A path that is not below the root always is. -/
def rejects (patterns : List Text) (root path : Path) : Bool :=
  match path.relativeTo? root with
  | none => true
  | some p => patterns.any fun pattern => concerns pattern p

end LiteralLint.IgnoreRules
