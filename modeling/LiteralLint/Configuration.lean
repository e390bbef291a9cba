import LiteralLint.Baseline
import LiteralLint.Callee
import LiteralLint.Options.Shape
import LiteralLint.Pattern.Reader
import LiteralLint.Pattern.Matching

/-!
# Configurations

Options are compiled once, before any program is judged: patterns are read, and the built-in
allow-lists are put before the user's. One text that is no pattern fails the whole compilation,
and the first such text is the one reported. A pattern can have characters by their names, so whoever
compiles options brings a table of names.

## Main definitions

* `Configuration`: the compiled allow-lists.
* `Configuration.compile`: the configuration of some options, or the first pattern fault.
* `Configuration.matchesValue`, `Configuration.ignoresAttribute`: the two questions it answers.
-/

namespace LiteralLint

/-- A pattern with the text it was read from. -/
structure ValuePattern where
  source : Text
  pattern : Pattern

/-- Attributes ignored on a set of tags. -/
structure TagAttributes where
  tags : List Text
  attributes : List Text

namespace TagAttributes

/-- The tag that stands for every tag. -/
def wildcard : Text := "*"

/-- Whether a rule covers an attribute on a tag. -/
def covers (r : TagAttributes) (tag attr : Datum) : Except NodeFault Bool := do
  if !(← attr.isOneOf r.attributes) then return false
  else if r.tags.contains wildcard then return true
  else if tag.isMissing then return false
  else tag.isOneOf r.tags

end TagAttributes

/-- The compiled allow-lists of a run. -/
structure Configuration where
  valuePatterns : List ValuePattern
  technicalCallees : CalleeRules
  translatorCallees : CalleeRules
  properties : List Text
  attributes : List Text
  tagAttributes : List TagAttributes

namespace Configuration

/-- A text that is no pattern, and why. -/
structure PatternFault where
  source : Text
  fault : Pattern.Fault
  deriving DecidableEq

/-- The patterns of some texts, in order, or the first text that is none. -/
def readPatterns (characters : Pattern.CharacterNames) :
    List Text → Except PatternFault (List ValuePattern)
  | [] => .ok []
  | t :: rest =>
    match Pattern.read characters t with
    | .error f => .error ⟨t, f⟩
    | .ok p =>
      match readPatterns characters rest with
      | .error f => .error f
      | .ok ps => .ok (⟨t, p⟩ :: ps)

/-- The configuration of some options. -/
def compile (characters : Pattern.CharacterNames) (o : Options) :
    Except PatternFault Configuration :=
  (readPatterns characters (Baseline.noLetters :: o.ignore)).map fun patterns =>
    { valuePatterns := patterns
      technicalCallees := .ofNames (Baseline.popularCallees ++ o.ignoreCallee)
      translatorCallees := .ofNames (Baseline.translatorCallees ++ o.ignoreTranslatorCallee)
      properties := o.ignoreProperties
      attributes := Baseline.attributes ++ Baseline.graphicsAttributes ++ o.ignoreAttributes
      tagAttributes := o.ignoreTags.map fun r => ⟨r.tag.tags, r.attributes⟩ }

/-- Whether a text matches a value pattern. -/
def matchesValue (c : Configuration) (t : Text) : Bool :=
  c.valuePatterns.any fun p => p.pattern.search t

/-- Whether a text is empty, in upper case, or matches a value pattern. -/
def exemptsValue (c : Configuration) (t : Text) : Bool :=
  t.isEmpty || Baseline.isUpperCase t || c.matchesValue t

/-- Whether one of some rules covers an attribute on a tag. -/
def anyCovers (tag attr : Datum) : List TagAttributes → Except NodeFault Bool
  | [] => .ok false
  | r :: rest => do if ← r.covers tag attr then return true else anyCovers tag attr rest

/-- Whether an attribute, on the tag that owns it, is allow-listed. -/
def ignoresAttribute (c : Configuration) (tag attr : Datum) : Except NodeFault Bool := do
  if attr.isMissing then return false
  else if ← attr.isOneOf c.attributes then return true
  else anyCovers tag attr c.tagAttributes

end Configuration

end LiteralLint
