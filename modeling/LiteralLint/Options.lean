import LiteralLint.Json
import LiteralLint.Text.Blank

/-!
# Options

A user adds to the built-in allow-lists. Names in an options file are in camel case; the same
names with underscores are accepted.

## Main definitions

* `Options`, `TagRule`: valid options.
* `Options.Field`: the lists of texts among them, with their names.
* `Options.toJson`: the record with underscored names, which reads back as itself.
-/

namespace LiteralLint

/-- The tags of a tag rule: one, or a list. -/
inductive TagChoice
  | one (tag : Text)
  | many (tags : List Text)
  deriving DecidableEq

/-- The tags chosen. -/
def TagChoice.tags : TagChoice → List Text
  | .one t => [t]
  | .many ts => ts

/-- Attributes to ignore on some tags; the tag `*` stands for every tag. -/
structure TagRule where
  tag : TagChoice
  attributes : List Text := []
  deriving DecidableEq

/-- What a user adds to the built-in allow-lists. -/
structure Options where
  /-- Patterns that are matched against the text of a literal without its outer blanks. -/
  ignore : List Text := []
  /-- Callees whose arguments are technical. -/
  ignoreCallee : List Text := []
  /-- Callees that translate their arguments. -/
  ignoreTranslatorCallee : List Text := []
  /-- Keys of object properties. -/
  ignoreProperties : List Text := []
  /-- Markup attributes. -/
  ignoreAttributes : List Text := []
  ignoreTags : List TagRule := []
  deriving DecidableEq

namespace Options

/-- The options that are lists of texts. -/
inductive Field
  | ignore
  | ignoreCallee
  | ignoreTranslatorCallee
  | ignoreProperties
  | ignoreAttributes
  deriving DecidableEq

/-- The name in an options file. -/
def Field.camelName : Field → Text
  | .ignore => "ignore"
  | .ignoreCallee => "ignoreCallee"
  | .ignoreTranslatorCallee => "ignoreTranslatorCallee"
  | .ignoreProperties => "ignoreProperties"
  | .ignoreAttributes => "ignoreAttributes"

/-- The name with underscores. -/
def Field.snakeName : Field → Text
  | .ignore => "ignore"
  | .ignoreCallee => "ignore_callee"
  | .ignoreTranslatorCallee => "ignore_translator_callee"
  | .ignoreProperties => "ignore_properties"
  | .ignoreAttributes => "ignore_attributes"

/-- The fields in the order in which they are checked. -/
def Field.all : List Field :=
  [.ignore, .ignoreCallee, .ignoreTranslatorCallee, .ignoreProperties, .ignoreAttributes]

/-- The name of the tag rules in an options file. -/
def tagsCamelName : Text := "ignoreTags"

/-- The name of the tag rules with underscores. -/
def tagsSnakeName : Text := "ignore_tags"

/-- The list of a field. -/
def get (o : Options) : Field → List Text
  | .ignore => o.ignore
  | .ignoreCallee => o.ignoreCallee
  | .ignoreTranslatorCallee => o.ignoreTranslatorCallee
  | .ignoreProperties => o.ignoreProperties
  | .ignoreAttributes => o.ignoreAttributes

/-- The options with the list of a field replaced. -/
def set (o : Options) (f : Field) (ts : List Text) : Options :=
  match f with
  | .ignore => { o with ignore := ts }
  | .ignoreCallee => { o with ignoreCallee := ts }
  | .ignoreTranslatorCallee => { o with ignoreTranslatorCallee := ts }
  | .ignoreProperties => { o with ignoreProperties := ts }
  | .ignoreAttributes => { o with ignoreAttributes := ts }

/-- Callee names lose their outer blanks, and blank ones are dropped. -/
def normalized (f : Field) (ts : List Text) : List Text :=
  match f with
  | .ignoreCallee | .ignoreTranslatorCallee => (ts.map Text.strip).filter fun t => !t.isEmpty
  | _ => ts

/-- A list of texts as JSON. -/
def textsJson (ts : List Text) : Json := .array (ts.map .text)

/-- The tags of a rule as JSON. -/
def choiceJson : TagChoice → Json
  | .one t => .text t
  | .many ts => textsJson ts

/-- A tag rule as JSON. -/
def tagRuleJson (r : TagRule) : Json :=
  .object [("tag", choiceJson r.tag), ("attributes", textsJson r.attributes)]

/-- The record with underscored names, in the order of the fields. -/
def toJson (o : Options) : Json :=
  .object (Field.all.map (fun f => (f.snakeName, textsJson (o.get f))) ++
    [(tagsSnakeName, .array (o.ignoreTags.map tagRuleJson))])

end Options

end LiteralLint
