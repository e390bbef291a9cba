import LiteralLint.Path
import LiteralLint.Text.Case

/-!
# Source languages

The language of a file follows from the extension of its name.
-/

namespace LiteralLint

/-- The languages that are linted. -/
inductive Language
  | javascript
  | typescript
  | tsx
  deriving DecidableEq, Inhabited

namespace Language

/-- All languages, by name. -/
def all : List Language := [.javascript, .tsx, .typescript]

/-- The name of a language. -/
def name : Language → Text
  | .javascript => "javascript"
  | .typescript => "typescript"
  | .tsx => "tsx"

/-- The language with a name. -/
def ofName? (t : Text) : Option Language := all.find? fun l => l.name == t

/-- Whether programs of a language declare types. -/
def isTyped : Language → Bool
  | .javascript => false
  | .typescript => true
  | .tsx => true

/-- The extensions of file names, with the language of each. -/
def extensions : List (Text × Language) := [
  (".ts", .typescript), (".mts", .typescript), (".cts", .typescript), (".tsx", .tsx),
  (".js", .javascript), (".jsx", .javascript), (".mjs", .javascript), (".cjs", .javascript)]

/-- The language of files with an extension. The extensions are ASCII, and so are all the letters
whose lower-case forms occur in them. -/
def ofExtension? (extension : Text) : Option Language :=
  extensions.lookup (extension.map Text.asciiLowerCase)

/-- The language of a file by its name. -/
def ofFileName? (name : Text) : Option Language := (Path.fromLastStop? name).bind ofExtension?

end Language

end LiteralLint
