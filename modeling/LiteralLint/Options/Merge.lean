import LiteralLint.Options.Shape

/-!
# Extending options

Values are added at the end of the lists of a record, and the result is checked like a record
that was read. What is added to a field can be any value with items: a list, the code points of
a text, or the names of a record. Nothing is added by a value that is empty.
-/

namespace LiteralLint

/-- Why options cannot be extended. -/
inductive MergeFault
  | unknownField (name : Text)
  | noItems
  | shape (faults : List Shape.Fault)
  deriving DecidableEq

namespace Options

/-- Whether a value counts as empty. -/
def isEmptyValue : Json → Bool
  | .null => true
  | .bool b => !b
  | .int n => n == 0
  | .real x => !x.isNonzero
  | .text t => t.isEmpty
  | .array xs => xs.isEmpty
  | .object ms => ms.isEmpty

/-- The items of a value. -/
def itemsOf : Json → Except MergeFault (List Json)
  | .array xs => .ok xs
  | .text t => .ok (t.map fun c => .text [c])
  | .object ms => .ok (ms.map fun m => .text m.1)
  | _ => .error .noItems

/-- The items of a list. -/
def listItems : Json → List Json
  | .array xs => xs
  | _ => []

/-- A record with items added to one of its fields. -/
def extendField (members : List (Text × Json)) (name : Text) (v : Json) :
    Except MergeFault (List (Text × Json)) :=
  if isEmptyValue v then .ok members
  else
    match Json.find? name members with
    | none => .error (.unknownField name)
    | some old => (itemsOf v).map fun xs => Json.setMember name (.array (listItems old ++ xs)) members

/-- A record with items added to several of its fields, in turn. -/
def extendFields (members : List (Text × Json)) :
    List (Text × Json) → Except MergeFault (List (Text × Json))
  | [] => .ok members
  | (name, v) :: rest =>
    match extendField members name v with
    | .ok ms => extendFields ms rest
    | .error f => .error f

/-- The options with values added, given by underscored names. -/
def merged (o : Options) (extra : List (Text × Json)) : Except MergeFault Options :=
  match o.toJson with
  | .object members =>
    match extendFields members extra with
    | .error f => .error f
    | .ok ms => (ofJson (.object ms)).mapError .shape
  | _ => .ok o

end Options

end LiteralLint
