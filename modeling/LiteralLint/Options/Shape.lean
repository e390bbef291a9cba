import LiteralLint.Options

/-!
# The shape of an options record

A record is read without coercion: only strings are texts and only arrays are lists. Every fault
is reported, in the order of the fields, with the path to it; names that mean nothing come last,
in the order of the record.

A field is looked up under its name in camel case, and under its underscored name if that is
absent; the underscored name means nothing if both are there.

## Main definitions

* `Shape.Fault`: what is wrong, and where.
* `Options.ofJson`: the options of a record, or all its faults.
-/

namespace LiteralLint

namespace Shape

/-- One step of a path into a record. -/
inductive Step
  | key (name : Text)
  | index (i : Nat)
  deriving DecidableEq

/-- What was expected. -/
inductive Expectation
  | list
  | string
  | unicodeString
  | integer
  | wholeNumber
  | integerNumeral
  | finiteNumber
  | dictionary
  | present
  | nothingElse
  | record (name : Text)
  | instanceOf (name : Text)
  deriving DecidableEq

/-- An unmet expectation, with the path to it. -/
structure Fault where
  path : List Step
  expected : Expectation
  deriving DecidableEq

/-- A word for an expectation. -/
def Expectation.code : Expectation → String
  | .list => "list_type"
  | .string => "string_type"
  | .unicodeString => "string_unicode"
  | .integer => "int_type"
  | .wholeNumber => "int_from_float"
  | .integerNumeral => "int_parsing"
  | .finiteNumber => "finite_number"
  | .dictionary => "dict_type"
  | .present => "missing"
  | .nothingElse => "extra_forbidden"
  | .record _ => "model_type"
  | .instanceOf _ => "dataclass_type"

/-- The wording of an expectation. -/
def Expectation.message : Expectation → Text
  | .list => "Input should be a valid list"
  | .string => "Input should be a valid string"
  | .unicodeString =>
    "Input should be a valid string, unable to parse raw data as a unicode string"
  | .integer => "Input should be a valid integer"
  | .wholeNumber => "Input should be a valid integer, got a number with a fractional part"
  | .integerNumeral =>
    "Input should be a valid integer, unable to parse string as an integer"
  | .finiteNumber => "Input should be a finite number"
  | .dictionary => "Input should be a valid dictionary"
  | .present => "Field required"
  | .nothingElse => "Extra inputs are not permitted"
  | .record name => Text.cat ["Input should be a valid dictionary or instance of ", name]
  | .instanceOf name => Text.cat ["Input should be a dictionary or an instance of ", name]

/-- A value, or all that is wrong with it. -/
abbrev Checked (α : Type) := Except (List Fault) α

/-- Both values, or the faults of both. -/
def both {α β : Type} (a : Checked α) (b : Checked β) : Checked (α × β) :=
  match a, b with
  | .ok x, .ok y => .ok (x, y)
  | .ok _, .error fs => .error fs
  | .error fs, .ok _ => .error fs
  | .error fs, .error gs => .error (fs ++ gs)

/-- A text. -/
def text (path : List Step) : Json → Checked Text
  | .text t => .ok t
  | _ => .error [⟨path, .string⟩]

/-- The items of a list, each checked under its index. -/
def itemsFrom {α : Type} (check : List Step → Json → Checked α) (path : List Step) :
    Nat → List Json → Checked (List α)
  | _, [] => .ok []
  | i, v :: rest =>
    (both (check (path ++ [.index i]) v) (itemsFrom check path (i + 1) rest)).map
      fun (x, xs) => x :: xs

/-- A list. -/
def list {α : Type} (check : List Step → Json → Checked α) (path : List Step) :
    Json → Checked (List α)
  | .array items => itemsFrom check path 0 items
  | _ => .error [⟨path, .list⟩]

/-- A list of texts. -/
def texts (path : List Step) (v : Json) : Checked (List Text) := list text path v

/-- A member that may be absent. -/
def orAbsent {α : Type} (check : List Step → Json → Checked α) (path : List Step) (fallback : α)
    (v : Option Json) : Checked α :=
  match v with
  | none => .ok fallback
  | some v => check path v

/-- Faults for the names of a record that mean nothing. -/
def extras (path : List Step) (known : List Text) (members : List (Text × Json)) : List Fault :=
  (members.filter fun m => !known.contains m.1).map fun m => ⟨path ++ [.key m.1], .nothingElse⟩

/-- A value, if there are no further faults. -/
def without {α : Type} (fs : List Fault) (c : Checked α) : Checked α :=
  match c with
  | .ok x => if fs.isEmpty then .ok x else .error fs
  | .error gs => .error (gs ++ fs)

end Shape

namespace Options

open Shape

/-- The tags of a rule: a text, or a list of texts. A value that is neither has the faults of
both readings. -/
def tagChoice (path : List Step) (v : Json) : Checked TagChoice :=
  match text (path ++ [.key "str"]) v, texts (path ++ [.key "list[str]"]) v with
  | .ok t, _ => .ok (.one t)
  | .error _, .ok ts => .ok (.many ts)
  | .error fs, .error gs => .error (fs ++ gs)

/-- A tag rule. -/
def tagRule (path : List Step) : Json → Checked TagRule
  | .object members =>
    let tag : Checked TagChoice :=
      match Json.find? "tag" members with
      | some v => tagChoice (path ++ [.key "tag"]) v
      | none => .error [⟨path ++ [.key "tag"], .present⟩]
    let attributes :=
      orAbsent texts (path ++ [.key "attributes"]) [] (Json.find? "attributes" members)
    without (extras path ["tag", "attributes"] members)
      ((both tag attributes).map fun (t, as) => ⟨t, as⟩)
  | _ => .error [⟨path, .record "TagRule"⟩]

/-- The name under which a record has a field. -/
def nameIn (members : List (Text × Json)) (camel snake : Text) : Text :=
  if (Json.find? camel members).isSome then camel
  else if (Json.find? snake members).isSome then snake
  else camel

/-- The list of a field in a record. -/
def fieldOf (members : List (Text × Json)) (f : Field) : Checked (List Text) :=
  let name := nameIn members f.camelName f.snakeName
  (orAbsent texts [.key name] [] (Json.find? name members)).map (normalized f)

/-- The options of a record, or all its faults. -/
def ofJson : Json → Checked Options
  | .object members =>
    let tagsName := nameIn members tagsCamelName tagsSnakeName
    let known := tagsName :: Field.all.map fun f => nameIn members f.camelName f.snakeName
    let fields :=
      both (fieldOf members .ignore) <| both (fieldOf members .ignoreCallee) <|
      both (fieldOf members .ignoreTranslatorCallee) <|
      both (fieldOf members .ignoreProperties) <| both (fieldOf members .ignoreAttributes) <|
      orAbsent (list tagRule) [.key tagsName] [] (Json.find? tagsName members)
    without (extras [] known members) <| fields.map fun (a, b, c, d, e, f) => ⟨a, b, c, d, e, f⟩
  | _ => .error [⟨[], .record "LintOptions"⟩]

end Options

end LiteralLint
