import LiteralLint.Json
import LiteralLint.Text.Utf8

/-!
# MessagePack values

What a MessagePack document can hold when the keys of its maps are texts or byte strings.

## Main definitions

* `MessagePack.Value`, `MessagePack.Key`.
* `MessagePack.Value.ofJson`: the document of a JSON value.
* `MessagePack.Value.kindName`: the word for the kind of a value in messages.
-/

namespace LiteralLint.MessagePack

/-- A key of a map. -/
inductive Key
  | text (t : Text)
  | bytes (b : Bytes)
  deriving DecidableEq

/-- A value. -/
inductive Value
  | nil
  | bool (b : Bool)
  | int (n : Int)
  | real (x : Binary64)
  | text (t : Text)
  | bytes (b : Bytes)
  | array (items : List Value)
  | map (members : List (Key × Value))
  | extension (code : Int) (data : Bytes)
  | timestamp (seconds : Int) (nanoseconds : Nat)
  deriving Inhabited

/-- Members with a key set to a value: in the place of the key if it is there, else last. -/
def setMember {α : Type} (key : Key) (v : α) : List (Key × α) → List (Key × α)
  | [] => [(key, v)]
  | (k, w) :: rest => if k = key then (k, v) :: rest else (k, w) :: setMember key v rest

namespace Value

/-- The word for the kind of a value. -/
def kindName : Value → Text
  | .nil => "NoneType"
  | .bool _ => "bool"
  | .int _ => "int"
  | .real _ => "float"
  | .text _ => "str"
  | .bytes _ => "bytes"
  | .array _ => "list"
  | .map _ => "dict"
  | .extension _ _ => "ExtType"
  | .timestamp _ _ => "Timestamp"

/-- A key as a value. -/
def ofKey : Key → Value
  | .text t => .text t
  | .bytes b => .bytes b

/-- The value of a name among members. -/
def find? (name : Text) (members : List (Key × Value)) : Option Value :=
  members.lookup (.text name)

/-- Whether a value is neither nil, zero, false nor empty. -/
def isSubstantial : Value → Bool
  | .nil => false
  | .bool b => b
  | .int n => n != 0
  | .real x => x.isNonzero
  | .text t => !t.isEmpty
  | .bytes b => !b.isEmpty
  | .array xs => !xs.isEmpty
  | .map ms => !ms.isEmpty
  | .extension _ _ => true
  | .timestamp _ _ => true

/-- Whether a value is a number equal to an integer; truth values count as one and zero. -/
def eqInt (n : Int) : Value → Bool
  | .bool b => (if b then 1 else 0) == n
  | .int m => m == n
  | .real x => x.eqInt n
  | _ => false

/-- Whether a value is a number equal to a double. -/
def eqReal (x : Binary64) : Value → Bool
  | .bool b => x.eqInt (if b then 1 else 0)
  | .int m => x.eqInt m
  | .real y => x.numericEq y
  | _ => false

mutual

/-- The document of a JSON value. -/
def ofJson : Json → Value
  | .null => .nil
  | .bool b => .bool b
  | .int n => .int n
  | .real x => .real x
  | .text t => .text t
  | .array items => .array (ofItems items)
  | .object members => .map (ofMembers members)

/-- The documents of the items of an array. -/
def ofItems : List Json → List Value
  | [] => []
  | v :: rest => ofJson v :: ofItems rest

/-- The documents of the members of an object. -/
def ofMembers : List (Text × Json) → List (Key × Value)
  | [] => []
  | (k, v) :: rest => (.text k, ofJson v) :: ofMembers rest

end

end Value

end LiteralLint.MessagePack
