import LiteralLint.Text.Quoted

/-!
# Paths

A path is a list of component names, from the root of the file system if it is absolute. Empty
components and single full stops are not kept; double full stops are, because only the file system
knows what they lead to. A path that starts with exactly two slashes has a root of its own.

## Main definitions

* `Path.ofText`, `Path.toText`: the written form.
* `Path.child`, `Path.parent`, `Path.name`, `Path.suffix`.
* `Path.relativeTo?`: the rest of a path below another.
* `Path.precedes`: the order by components.
-/

namespace LiteralLint

/-- Where a path starts. -/
inductive PathRoot
  | current
  | root
  | doubleRoot
  deriving DecidableEq, Inhabited

/-- A path. -/
structure Path where
  start : PathRoot := .current
  components : List Text
  deriving DecidableEq, Inhabited

namespace Path

/-- The slash between components. -/
def slash : CodePoint := 47

/-- A component that leads to the directory above. -/
def up : Text := ".."

/-- Whether a piece of a written path names a component. -/
def isComponent (t : Text) : Bool := !t.isEmpty && t != "."

/-- The root that a written path starts with. -/
def rootOf (t : Text) : PathRoot :=
  match (t.takeWhile (· == slash)).length with
  | 0 => .current
  | 2 => .doubleRoot
  | _ => .root

/-- Whether a written path can only lead to a directory: its last piece names no component. -/
def demandsDirectory (t : Text) : Bool := !(Text.splitOn slash t).getLast?.any isComponent

/-- The path that a text denotes. -/
def ofText (t : Text) : Path := ⟨rootOf t, (Text.splitOn slash t).filter isComponent⟩

/-- The written form of a root. -/
def rootText : PathRoot → Text
  | .current => []
  | .root => "/"
  | .doubleRoot => "//"

/-- The components with slashes between them. -/
def joined (names : List Text) : Text := Text.join [slash] names

/-- The written form of a path; the current directory is a full stop. -/
def toText (p : Path) : Text :=
  let t := rootText p.start ++ joined p.components
  if t.isEmpty then "." else t

/-- Whether a path starts at the root. -/
def isAbsolute (p : Path) : Bool := p.start != .current

/-- A path one component longer. -/
def child (p : Path) (name : Text) : Path := { p with components := p.components ++ [name] }

/-- A path one component shorter. -/
def parent (p : Path) : Path := { p with components := p.components.dropLast }

/-- The last component. -/
def name (p : Path) : Text := p.components.getLast?.getD []

/-- A text from its last full stop on, if it has one. -/
def fromLastStop? : Text → Option Text
  | [] => none
  | c :: rest =>
    match fromLastStop? rest with
    | some t => some t
    | none => if c = 46 then some (c :: rest) else none

/-- The extension of the last component with its full stop. A full stop at either end of a name
starts no extension. -/
def suffix (p : Path) : Text :=
  match fromLastStop? (p.name.drop 1) with
  | some t => if t.length > 1 then t else []
  | none => []

/-- The components of a path below another, if it is there or below. -/
def relativeTo? (p base : Path) : Option Path :=
  if p.start = base.start && base.components.isPrefixOf p.components then
    some ⟨.current, p.components.drop base.components.length⟩
  else none

/-- The order of lists of components: by the first differing one, shorter lists first. -/
def componentsPrecede : List Text → List Text → Bool
  | [], [] => false
  | [], _ :: _ => true
  | _ :: _, [] => false
  | a :: s, b :: t => if Text.lt a b then true else if Text.lt b a then false else componentsPrecede s t

/-- The order of paths with one root. -/
def precedes (p q : Path) : Bool := componentsPrecede p.components q.components

end Path

end LiteralLint
