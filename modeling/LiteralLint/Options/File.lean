import LiteralLint.Failure
import LiteralLint.FileSystem
import LiteralLint.Json.Reader

/-!
# Options files

Options are kept in a JSON file, by a fixed name at the root of what is linted or by any name that
a user gives.

## Main definitions

* `OptionsFile.read`: the options of a file.
* `OptionsFile.find?`: the options file of a directory.
-/

namespace LiteralLint.OptionsFile

/-- The name of an options file. -/
def fileName : Text := ".i18nlintrc.json"

/-- A text with every end of line as one line feed. -/
def withPlainLineEnds : Text → Text
  | [] => []
  | 13 :: 10 :: rest => 10 :: withPlainLineEnds rest
  | 13 :: rest => 10 :: withPlainLineEnds rest
  | c :: rest => c :: withPlainLineEnds rest

/-- The failure to read a JSON text from a file. -/
def failureOf (path whole : Text) (f : Json.ReadFault) : Failure :=
  match f with
  | .malformed _ _ => .configuration (.notJson path (f.message whole))
  | .tooManyDigits _ => .refused (f.message whole)

/-- The options that the contents of a file hold. -/
def ofContents (path contents : Text) : Except Failure Options :=
  match Json.read contents with
  | .error f => .error (failureOf path contents f)
  | .ok v => (Options.ofJson v).mapError fun fs => .configuration (.shape (some path) fs)

/-- The options of a file. -/
def read (fs : FileSystem) (path : Path) : Except Failure Options :=
  match fs.read path with
  | .error f => .error (.configuration (.unreadable path.toText f.message))
  | .ok bytes =>
    match Utf8.decode? bytes with
    | .error f => .error (.notUtf8 f)
    | .ok t => ofContents path.toText (withPlainLineEnds t)

/-- The options file of a directory, if there is one. -/
def find? (fs : FileSystem) (directory : Path) : Option Path :=
  let candidate := directory.child fileName
  if (fs.file? candidate).isSome then some candidate else none

end LiteralLint.OptionsFile
