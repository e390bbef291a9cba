import LiteralLint.Configuration
import LiteralLint.Options.Merge
import LiteralLint.Text.Utf8

/-!
# Failures

What ends a command or a call before it has a result. Faults of a single file or of a single node
are no failures: they are reported with the file, or the node is skipped.

## Main definitions

* `ConfigurationFault`: why options cannot be used, which a user can mend.
* `Failure`: everything that ends a call.
-/

namespace LiteralLint

/-- Why options cannot be used. -/
inductive ConfigurationFault
  /-- A record of the wrong shape, from a file if a path is given. -/
  | shape (path : Option Text) (faults : List Shape.Fault)
  /-- A text that is no pattern. -/
  | pattern (source reason : Text)
  /-- An options file that cannot be read. -/
  | unreadable (path reason : Text)
  /-- An options file that is not JSON. -/
  | notJson (path reason : Text)
  deriving DecidableEq

namespace ConfigurationFault

/-- The wording up to the list of shape faults. -/
def heading : ConfigurationFault → Text
  | .shape none _ => "Invalid options"
  | .shape (some path) _ => Text.cat ["Invalid options in ", path]
  | .pattern source reason =>
    Text.cat ["Invalid ignore pattern ", Text.quoted source, ": ", reason]
  | .unreadable path reason => Text.cat ["Cannot read config ", path, ": ", reason]
  | .notJson path reason => Text.cat ["Invalid JSON in ", path, ": ", reason]

/-- How many shape faults a record has. -/
def shapeCount (faults : List Shape.Fault) (record : Text) : Text :=
  let noun : Text := if faults.length = 1 then " validation error for " else " validation errors for "
  Text.cat [Text.ofNat faults.length, noun, record]

/-- One step of a path into a record. -/
def stepText : Shape.Step → Text
  | .key name => name
  | .index i => Text.ofNat i

/-- The lines about a shape fault: where it is, and what was expected there. -/
def shapeLines (f : Shape.Fault) : Text :=
  Text.cat ["\n", Text.join "." (f.path.map stepText), "\n  ", f.expected.message, " [type=",
    f.expected.code, "]"]

/-- The whole wording. -/
def message (f : ConfigurationFault) : Text :=
  match f with
  | .shape _ faults =>
    Text.cat [f.heading, ": ", shapeCount faults "LintOptions", faults.flatMap shapeLines]
  | _ => f.heading

end ConfigurationFault

/-- What ends a call. -/
inductive Failure
  | configuration (f : ConfigurationFault)
  /-- A language that is unknown or has no parser. -/
  | unsupported (message : Text)
  /-- A number that is too large for its place. -/
  | tooLarge (message : Text)
  /-- A value that is refused. -/
  | refused (message : Text)
  /-- A name that is not there. -/
  | missingName (name : Text)
  /-- A record that is not of the shape of the named kind. -/
  | shape (record : Text) (faults : List Shape.Fault)
  /-- A value of the wrong kind. -/
  | wrongKind (message : Text)
  /-- A value without names where a record is needed. -/
  | noRecord (message : Text)
  /-- Bytes that are not UTF-8. -/
  | notUtf8 (fault : Utf8.Fault)
  /-- A text without UTF-8 bytes. -/
  | notEncodable (fault : Utf8.EncodeFault)
  /-- Source that is nested too deeply. -/
  | tooDeep
  deriving DecidableEq

namespace Failure

/-- The wording of a failure; empty where there is nothing more to say than its kind. -/
def message : Failure → Text
  | .configuration f => f.message
  | .unsupported t => t
  | .tooLarge t => t
  | .refused t => t
  | .missingName name => Text.quoted name
  | .shape record faults => ConfigurationFault.shapeCount faults record
  | .wrongKind t => t
  | .noRecord t => t
  | .notUtf8 f => f.message
  | .notEncodable f => f.message
  | .tooDeep => []

/-- The failure to read a pattern. A text that is no pattern is a fault of the configuration; a
number that is too large or too long, and flags that exclude each other, are not reported as one. -/
def ofPattern (p : Configuration.PatternFault) : Failure :=
  let reason := p.fault.message p.source
  match p.fault with
  | .malformed _ _ => .configuration (.pattern p.source reason)
  | .numberTooLarge => .tooLarge reason
  | .countTooLarge => .tooLarge reason
  | .countTooLong _ => .refused reason
  | .asciiAndUnicode => .refused reason

/-- The failure to extend options. -/
def ofMerge : MergeFault → Failure
  | .unknownField name => .missingName name
  | .noItems => .wrongKind "a list of values is needed"
  | .shape faults => .shape "LintOptions" faults

end Failure

namespace Options

/-- The options of a record that may be absent. -/
def ofRecord : Option Json → Except Failure Options
  | none => .ok {}
  | some .null => .ok {}
  | some v => (ofJson v).mapError fun fs => .configuration (.shape none fs)

end Options

namespace Configuration

/-- The configuration of some options. -/
def ofOptions (characters : Pattern.CharacterNames) (o : Options) : Except Failure Configuration :=
  (compile characters o).mapError Failure.ofPattern

end Configuration

end LiteralLint
