import LiteralLint.Options
import LiteralLint.Json.Writer
import LiteralLint.Digest.Sha256

/-!
# The fingerprint of a run

Two runs give the same findings for the same source if they agree on the options, on the use of
declared types, and on the version of the program. The description below names all three in a
canonical form, names in ascending order, and the fingerprint is the beginning of its digest.
-/

namespace LiteralLint

/-- The version of the program. -/
def version : Text := "0.1.0"

namespace Options

/-- A tag rule with its names in ascending order. -/
def tagRuleDescription (r : TagRule) : Json :=
  .object [("attributes", textsJson r.attributes), ("tag", choiceJson r.tag)]

/-- The options with their names in ascending order. -/
def description (o : Options) : Json :=
  .object [
    ("ignore", textsJson o.ignore),
    ("ignore_attributes", textsJson o.ignoreAttributes),
    ("ignore_callee", textsJson o.ignoreCallee),
    ("ignore_properties", textsJson o.ignoreProperties),
    ("ignore_tags", .array (o.ignoreTags.map tagRuleDescription)),
    ("ignore_translator_callee", textsJson o.ignoreTranslatorCallee)]

/-- All that findings depend on besides the source. -/
def payload (o : Options) (useTypes : Bool) : Text :=
  Json.line .ascii (.object [
    ("options", o.description), ("use_types", .bool useTypes), ("version", .text version)])

/-- The first sixteen digits of the digest of the payload. -/
def fingerprint (o : Options) (useTypes : Bool) : Text :=
  (Sha256.hexDigest (Utf8.encode (o.payload useTypes))).take 16

end Options

end LiteralLint
