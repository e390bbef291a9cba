import LiteralLint.Node

/-!
# Complaints and findings

A complaint is a candidate for a finding: the identifier of a message with the data that fill in
its template. A finding is a complaint that was reported: its message is rendered, all its data
are text, and it has the place of its node.

In a template, a name between braces stands for a field and a doubled brace for a brace.

## Main definitions

* `Complaint`, `Finding`.
* `Complaint.render`: the message of a complaint, or the first field that is missing.
* `Complaint.toFinding`: the finding that is reported for a complaint.
-/

namespace LiteralLint

/-- A candidate for a finding. -/
structure Complaint where
  id : Text
  data : List (Text × Datum) := []

/-- A string literal that should have been translated. -/
structure Finding where
  id : Text
  message : Text
  data : List (Text × Text)
  position : Option Span
  deriving DecidableEq

namespace Complaint

/-- The templates of the messages, by identifier. -/
def templates : List (Text × Text) := [
  ("literal", "Forbidden literal string \x7bstring\x7d in \x7bcode\x7d."),
  ("property", "Forbidden literal assigned to property: \x7bcode\x7d"),
  ("attribute",
    Text.cat ["Forbidden literal string \x7bstring\x7d as value for attribute ",
      "'\x7battribute\x7d' for tag '\x7btag\x7d' in \x7bcode\x7d"]),
  ("placeholder",
    Text.cat ["Forbidden template literal placeholder $\x7b\x7b\x7d\x7d in translation string, ",
      "use \x7b\x7b\x7b\x7b\x7d\x7d\x7d\x7d instead: \x7bcode\x7d"]),
  ("text", "Forbidden text content \x7bstring\x7d")]

/-- The value of a field, as text. -/
def field (data : List (Text × Datum)) (name : Text) : Except NodeFault Text :=
  match data.lookup name with
  | none => .error (.missingField name)
  | some d => d.shown

/-- A template filled in. `name` holds the field name that is being read, if one is. -/
def fill (data : List (Text × Datum)) : Option Text → Text → Except NodeFault Text
  | none, [] => .ok []
  | some _, [] => .ok []
  | none, 123 :: 123 :: rest => (fill data none rest).map (123 :: ·)
  | none, 125 :: 125 :: rest => (fill data none rest).map (125 :: ·)
  | none, 123 :: rest => fill data (some []) rest
  | none, c :: rest => (fill data none rest).map (c :: ·)
  | some name, 125 :: rest =>
    match field data name with
    | .error f => .error f
    | .ok t => (fill data none rest).map (t ++ ·)
  | some name, c :: rest => fill data (some (name ++ [c])) rest

/-- The message of a complaint. -/
def render (c : Complaint) : Except NodeFault Text :=
  match templates.lookup c.id with
  | none => .error (.missingField c.id)
  | some template => fill c.data none template

/-- The fields that hold something else than text. -/
def otherFields (data : List (Text × Datum)) : List Text :=
  (data.filter fun m => m.2.text?.isNone).map Prod.fst

/-- The data of a finding, which have to be text. -/
def textData (data : List (Text × Datum)) : Except NodeFault (List (Text × Text)) :=
  match otherFields data with
  | [] => .ok (data.filterMap fun m => m.2.text?.map fun t => (m.1, t))
  | names => .error (.findingNeedsText names)

/-- The finding that is reported for a complaint at a place. -/
def toFinding (c : Complaint) (position : Option Span) : Except NodeFault Finding := do
  let message ← c.render
  let data ← textData c.data
  return ⟨c.id, message, data, position⟩

end Complaint

end LiteralLint
