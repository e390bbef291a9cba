import LiteralLint.Complaint
import LiteralLint.MessagePack
import LiteralLint.Options.Shape
import LiteralLint.Text.IntegerNumeral

/-!
# Findings as records

A finding is written as a record of its four parts, and a stored record is checked when it is read
back. A stored record may come from anywhere, so the check accepts what denotes the right value:
byte strings for texts, and truth values, whole doubles and numerals for integers. Names that mean
nothing are passed over.

## Main definitions

* `Finding.toJson`: the record of a finding.
* `Finding.ofValue`: the finding of a stored record, or all its faults.
-/

namespace LiteralLint

namespace Span

/-- The record of a place. -/
def toJson (s : Span) : Json :=
  .object [("start_line", .int s.startLine), ("start_column", .int s.startColumn),
    ("end_line", .int s.endLine), ("end_column", .int s.endColumn)]

end Span

namespace Shape

open MessagePack (Value Key)

/-- A text that was stored. -/
def storedText (path : List Step) : Value → Checked Text
  | .text t => .ok t
  | .bytes b =>
    match Utf8.decode? b with
    | .ok t => .ok t
    | .error _ => .error [⟨path, .unicodeString⟩]
  | _ => .error [⟨path, .string⟩]

/-- A text that may be nil. -/
def storedText? (path : List Step) : Value → Checked (Option Text)
  | .nil => .ok none
  | v => (storedText path v).map some

/-- The integer of a numeral. Zeros after a full stop do not count. -/
def numeral? (t : Text) : Option Int :=
  let whole := t.takeWhile (· != 46)
  if (t.drop (whole.length + 1)).all (· == 48) then (Text.readInteger .ten whole).toOption else none

/-- An integer that was stored. -/
def storedInt (path : List Step) : Value → Checked Int
  | .int n => .ok n
  | .bool b => .ok (if b then 1 else 0)
  | .real x =>
    if x.isNaN || x.isInfinite then .error [⟨path, .finiteNumber⟩]
    else
      let (num, den) := x.ratio
      if num % den = 0 then .ok (num / den) else .error [⟨path, .wholeNumber⟩]
  | .text t =>
    match numeral? t with
    | some n => .ok n
    | none => .error [⟨path, .integerNumeral⟩]
  | .bytes b =>
    match (Utf8.decode? b).toOption.bind numeral? with
    | some n => .ok n
    | none => .error [⟨path, .integerNumeral⟩]
  | _ => .error [⟨path, .integer⟩]

/-- A member that has to be there. -/
def required {α : Type} (check : List Step → Value → Checked α) (path : List Step) (name : Text)
    (members : List (Key × Value)) : Checked α :=
  match Value.find? name members with
  | some v => check (path ++ [.key name]) v
  | none => .error [⟨path ++ [.key name], .present⟩]

/-- A member that may be absent. -/
def optional {α : Type} (check : List Step → Value → Checked α) (path : List Step) (name : Text)
    (fallback : α) (members : List (Key × Value)) : Checked α :=
  match Value.find? name members with
  | some v => check (path ++ [.key name]) v
  | none => .ok fallback

/-- A key of a stored record, as text. -/
def keyText : Key → Text
  | .text t => t
  | .bytes b => Utf8.decode b

/-- The members of a record of texts. -/
def storedTextMembers (path : List Step) : List (Key × Value) → Checked (List (Text × Text))
  | [] => .ok []
  | (k, v) :: rest =>
    (both (storedText (path ++ [.key (keyText k)]) v) (storedTextMembers path rest)).map
      fun (t, ts) => (keyText k, t) :: ts

/-- A record of texts. -/
def storedTexts (path : List Step) : Value → Checked (List (Text × Text))
  | .map members => storedTextMembers path members
  | _ => .error [⟨path, .dictionary⟩]

/-- A place that was stored; there may be none. -/
def storedSpan (path : List Step) : Value → Checked (Option Span)
  | .nil => .ok none
  | .map members =>
    (both (required storedInt path "start_line" members) <|
      both (required storedInt path "start_column" members) <|
      both (required storedInt path "end_line" members)
        (required storedInt path "end_column" members)).map fun (a, b, c, d) => some ⟨a, b, c, d⟩
  | _ => .error [⟨path, .instanceOf "SourceSpan"⟩]

end Shape

namespace Finding

open Shape

/-- The record of a finding. -/
def toJson (f : Finding) : Json :=
  .object [("message_id", .text f.id), ("message", .text f.message),
    ("data", .object (f.data.map fun (k, v) => (k, .text v))),
    ("position", match f.position with
      | some s => s.toJson
      | none => .null)]

/-- The finding of a stored record, or all its faults. -/
def ofValue : MessagePack.Value → Checked Finding
  | .map members =>
    (both (required storedText [] "message_id" members) <|
      both (required storedText [] "message" members) <|
      both (optional storedTexts [] "data" [] members)
        (optional storedSpan [] "position" none members)).map fun (a, b, c, d) => ⟨a, b, c, d⟩
  | _ => .error [⟨[], .record "Finding"⟩]

end Finding

end LiteralLint
