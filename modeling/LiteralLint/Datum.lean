import LiteralLint.Json
import LiteralLint.Text.IntegerNumeral
import LiteralLint.Text.Quoted
import LiteralLint.Binary64.Shortest

/-!
# Field values

Program trees come from any producer, and a producer can put a value of any kind into the fields
that hold names, texts and decoded literals. A field value is therefore dynamic, and the
operations that make sense for some kinds only say which fault the other kinds are.

A number decoded from source can be an integer without a numeral. A list is never decoded: it comes
as it stands in the document of a tree, whose integers have numerals, and a list carries the proof
that it can be written out.

## Main definitions

* `Json.quoted?`: a value of a document, as it is shown.
* `Listing`: a list that can be written out.
* `Datum`: a field value.
* `NodeFault`: why a field value cannot be used as it was going to be.
* `Datum.shown?`: a value as text within a message.
* `Datum.isOneOf`, `Datum.needText`: uses of a value that some kinds refuse.
-/

namespace LiteralLint

namespace Json

mutual

/-- A value of a document as it stands within a list that is shown. None if the value is or holds an
integer with too many digits. -/
def quoted? : Json → Option Text
  | .null => some "None"
  | .bool b => some (if b then "True" else "False")
  | .int n => Text.decimalNumeral? n
  | .real x => some x.numeral
  | .text t => some (Text.quoted t)
  | .array items => (quotedItems? items).map fun ts => Text.cat ["[", Text.join ", " ts, "]"]
  | .object members =>
    (quotedMembers? members).map fun ts => Text.cat ["\x7b", Text.join ", " ts, "\x7d"]

/-- The values of a list, each as it is shown. -/
def quotedItems? : List Json → Option (List Text)
  | [] => some []
  | v :: rest =>
    match quoted? v, quotedItems? rest with
    | some t, some ts => some (t :: ts)
    | _, _ => none

/-- The members of an object, each with its name as it is shown. -/
def quotedMembers? : List (Text × Json) → Option (List Text)
  | [] => some []
  | (name, v) :: rest =>
    match quoted? v, quotedMembers? rest with
    | some t, some ts => some (Text.cat [Text.quoted name, ": ", t] :: ts)
    | _, _ => none

end

end Json

/-- A list that can be written out. -/
structure Listing where
  members : List Json
  written : (Json.quotedItems? members).isSome

namespace Listing

instance : Inhabited Listing := ⟨⟨[], rfl⟩⟩

/-- A list as it is shown. -/
def quoted (xs : Listing) : Text :=
  Text.cat ["[", Text.join ", " ((Json.quotedItems? xs.members).get xs.written), "]"]

end Listing

/-- The value of a field. -/
inductive Datum
  | missing
  | flag (b : Bool)
  | whole (n : Int)
  | real (x : Binary64)
  | text (t : Text)
  | items (xs : Listing)
  deriving Inhabited

/-- Why a node cannot be judged. -/
inductive NodeFault
  /-- A list cannot be looked up in a set. -/
  | listInSet
  /-- Only text can be matched or appended to text. -/
  | textNeeded
  /-- An integer of more than 4300 decimal digits is not written out. -/
  | numeralTooLong
  /-- The type oracle did not answer. -/
  | oracleFailed
  /-- A message has no value for one of its fields. -/
  | missingField (name : Text)
  /-- A finding holds text only, and some of its fields hold something else. -/
  | findingNeedsText (names : List Text)
  deriving DecidableEq

/-- The wording of a fault. -/
def NodeFault.message : NodeFault → Text
  | .listInSet => "unhashable type: 'list'"
  | .textNeeded => "expected string or bytes-like object"
  | .numeralTooLong =>
    Text.cat ["Exceeds the limit (4300 digits) for integer string conversion; ",
      "use sys.set_int_max_str_digits() to increase the limit"]
  | .oracleFailed => []
  | .missingField name => Text.quoted name
  | .findingNeedsText _ => "Input should be a valid string"

namespace Datum

/-- A value as it is quoted. None if it is an integer with too many digits. -/
def quoted? : Datum → Option Text
  | .missing => some "None"
  | .flag b => some (if b then "True" else "False")
  | .whole n => Text.decimalNumeral? n
  | .real x => some x.numeral
  | .text t => some (Text.quoted t)
  | .items xs => some xs.quoted

/-- A value within a message: text as it is, all else as it is quoted. -/
def shown? : Datum → Option Text
  | .text t => some t
  | d => d.quoted?

/-- A value within a message, or the fault that its numeral is too long. -/
def shown (d : Datum) : Except NodeFault Text :=
  match d.shown? with
  | some t => .ok t
  | none => .error .numeralTooLong

/-- The text of a value that is text. -/
def text? : Datum → Option Text
  | .text t => some t
  | _ => none

/-- Whether there is no value. -/
def isMissing : Datum → Bool
  | .missing => true
  | _ => false

/-- Whether a value is neither missing, zero, false nor empty. -/
def isSubstantial : Datum → Bool
  | .missing => false
  | .flag b => b
  | .whole n => n != 0
  | .real x => x.isNonzero
  | .text t => !t.isEmpty
  | .items xs => !xs.members.isEmpty

/-- A substantial value, or else none. -/
def orMissing (d : Datum) : Datum := if d.isSubstantial then d else .missing

/-- A substantial value, or else the empty text. -/
def orEmpty (d : Datum) : Datum := if d.isSubstantial then d else .text []

/-- Whether a value is one of some texts. -/
def isOneOf (texts : List Text) : Datum → Except NodeFault Bool
  | .text t => .ok (texts.contains t)
  | .items _ => .error .listInSet
  | _ => .ok false

/-- The text of a value that has to be text. -/
def needText : Datum → Except NodeFault Text
  | .text t => .ok t
  | _ => .error .textNeeded

end Datum

end LiteralLint
