import LiteralLint.Datum

/-!
# Declared types

A declared type is reduced to what decides whether a string literal is one of its members:
literals, unions, intersections and objects. All other types are opaque and keep at most a name.
-/

namespace LiteralLint

/-- A declared type. -/
inductive DeclaredType
  | literal (value : Datum)
  | union (members : List DeclaredType)
  | intersection (members : List DeclaredType)
  | object (properties : List (Text × DeclaredType))
  | keyword (name : Option Text)
  | reference (name : Option Text)
  | other (name : Option Text)
  deriving Inhabited

namespace DeclaredType

mutual

/-- The string literals of a type: itself, or those of the members of a union at any depth. -/
def stringLiterals : DeclaredType → List Text
  | .literal (.text t) => [t]
  | .union members => memberLiterals members
  | _ => []

/-- The string literals of the members of a union. -/
def memberLiterals : List DeclaredType → List Text
  | [] => []
  | t :: rest => stringLiterals t ++ memberLiterals rest

end

/-- The type of a property of an object type. -/
def property? (key : Text) : DeclaredType → Option DeclaredType
  | .object properties => properties.lookup key
  | _ => none

/-- Properties with one set: in the place of its key if that is there, else last. -/
def setProperty (key : Text) (t : DeclaredType) :
    List (Text × DeclaredType) → List (Text × DeclaredType)
  | [] => [(key, t)]
  | (k, u) :: rest => if k = key then (k, t) :: rest else (k, u) :: setProperty key t rest

/-- The word for the form of a type. -/
def form : DeclaredType → String
  | .literal _ => "literal"
  | .union _ => "union"
  | .intersection _ => "intersection"
  | .object _ => "object"
  | .keyword _ => "keyword"
  | .reference _ => "reference"
  | .other _ => "other"

end DeclaredType

end LiteralLint
