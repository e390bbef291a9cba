import LiteralLint.Binary64

/-!
# JSON values

Objects keep their members in order; a name occurs at most once in the objects that reading
produces.
-/

namespace LiteralLint

/-- A JSON value. Whole numbers and other numbers are told apart. -/
inductive Json
  | null
  | bool (b : Bool)
  | int (n : Int)
  | real (x : Binary64)
  | text (t : Text)
  | array (items : List Json)
  | object (members : List (Text × Json))
  deriving Inhabited

namespace Json

/-- The value of a name among members. -/
def find? (name : Text) (members : List (Text × Json)) : Option Json := members.lookup name

/-- The value of a name in an object. -/
def member? (name : Text) : Json → Option Json
  | .object members => find? name members
  | _ => none

/-- Members with a name set to a value: in the place of the name if it is there, else last. -/
def setMember (name : Text) (v : Json) : List (Text × Json) → List (Text × Json)
  | [] => [(name, v)]
  | (k, w) :: rest => if k = name then (k, v) :: rest else (k, w) :: setMember name v rest

end Json

end LiteralLint
