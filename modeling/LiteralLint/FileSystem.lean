import LiteralLint.Binary64
import LiteralLint.Path
import LiteralLint.Text.Utf8

/-!
# File systems

A file system is a value: what there is under each place, a place being the list of directory
names from the root. Every directory above an entry is an entry itself. Paths are resolved from a
current directory, one component at a time, so that a path through a file fails even where its
double full stops would lead elsewhere.

## Main definitions

* `FileSystem`: the value.
* `FileSystem.Fault`: why an operation is refused, with the wording of the system.
* `FileSystem.entry?`, `FileSystem.read`, `FileSystem.filesBelow`: looking.
* `FileSystem.write`, `FileSystem.makeDirectories`, `FileSystem.remove`: changing.
-/

namespace LiteralLint

/-- A file. -/
structure File where
  bytes : Bytes
  /-- The time of the last change, in seconds. -/
  modified : Binary64
  readable : Bool := true

/-- What can be at a place. -/
inductive FileSystem.Entry
  | directory
  | file (f : File)

/-- The names of the directories from the root down to an entry. -/
abbrev Place := List Text

/-- What there is, and where relative paths start. -/
structure FileSystem where
  current : Place := []
  entries : List (Place × FileSystem.Entry) := []

namespace FileSystem

/-- Why an operation is refused. -/
inductive Reason
  | notFound
  | notDirectory
  | isDirectory
  | alreadyThere
  | denied
  deriving DecidableEq

/-- A refused operation, with the path it was about. -/
structure Fault where
  reason : Reason
  path : Path
  deriving DecidableEq

/-- The number and the wording of a reason. -/
def Reason.text : Reason → Text
  | .notFound => "[Errno 2] No such file or directory: "
  | .denied => "[Errno 13] Permission denied: "
  | .alreadyThere => "[Errno 17] File exists: "
  | .notDirectory => "[Errno 20] Not a directory: "
  | .isDirectory => "[Errno 21] Is a directory: "

/-- The wording of a fault. -/
def Fault.message (f : Fault) : Text := Text.cat [f.reason.text, Text.quoted f.path.toText]

/-! ### Places -/

/-- The entry at a place. The root is always a directory. -/
def at? (fs : FileSystem) (place : Place) : Option Entry :=
  match place with
  | [] => some .directory
  | _ => fs.entries.lookup place

/-- The file system with an entry put at a place. -/
def put (fs : FileSystem) (place : Place) (e : Entry) : FileSystem :=
  { fs with entries := (place, e) :: fs.entries.filter fun m => m.1 != place }

/-- The place that components lead to from a place. All but the last have to lead to directories;
the last may lead to nothing. -/
def walk (fs : FileSystem) : Place → List Text → Except Reason Place
  | place, [] => .ok place
  | place, name :: rest =>
    match fs.at? place with
    | none => .error .notFound
    | some (.file _) => .error .notDirectory
    | some .directory =>
      walk fs (if name = Path.up then place.dropLast else place ++ [name]) rest

/-- Where a path starts. -/
def startOf (fs : FileSystem) (p : Path) : Place := if p.isAbsolute then [] else fs.current

/-- The place of a path, whether or not there is something at it. -/
def locate (fs : FileSystem) (p : Path) : Except Reason Place := fs.walk (fs.startOf p) p.components

/-- The entry that a path leads to. -/
def entry (fs : FileSystem) (p : Path) : Except Reason Entry := do
  let place ← fs.locate p
  match fs.at? place with
  | some e => return e
  | none => throw .notFound

/-- The entry that a path leads to, if it leads to one. -/
def entry? (fs : FileSystem) (p : Path) : Option Entry := (fs.entry p).toOption

/-- The entry that a written path leads to, as the system reads it: an empty text leads nowhere, and
a text that ends in a slash or in a full stop of its own leads to directories only. -/
def entryOfText? (fs : FileSystem) (t : Text) : Option Entry :=
  if t.isEmpty then none
  else
    match fs.entry? (Path.ofText t) with
    | some (.file f) => if Path.demandsDirectory t then none else some (.file f)
    | e => e

/-- Whether a path leads to something. -/
def «exists» (fs : FileSystem) (p : Path) : Bool := (fs.entry? p).isSome

/-- Whether a path leads to a directory. -/
def isDirectory (fs : FileSystem) (p : Path) : Bool :=
  match fs.entry? p with
  | some .directory => true
  | _ => false

/-- The file that a path leads to. -/
def file? (fs : FileSystem) (p : Path) : Option File :=
  match fs.entry? p with
  | some (.file f) => some f
  | _ => none

/-- The names with those that lead up taken back. -/
def withoutUps : Place → List Text → Place
  | place, [] => place
  | place, name :: rest =>
    withoutUps (if name = Path.up then place.dropLast else place ++ [name]) rest

/-- The absolute path to what a path is about. -/
def resolve (fs : FileSystem) (p : Path) : Path :=
  let start : PathRoot := match p.start with
    | .current => .root
    | s => s
  ⟨start, withoutUps (fs.startOf p) p.components⟩

/-- The absolute path of the current directory. -/
def currentPath (fs : FileSystem) : Path := ⟨.root, fs.current⟩

/-! ### Reading -/

/-- The bytes of the file that a path leads to. -/
def read (fs : FileSystem) (p : Path) : Except Fault Bytes :=
  match fs.entry p with
  | .error r => .error ⟨r, p⟩
  | .ok .directory => .error ⟨.isDirectory, p⟩
  | .ok (.file f) => if f.readable then .ok f.bytes else .error ⟨.denied, p⟩

/-- The paths of the files below a directory, in ascending order. -/
def filesBelow (fs : FileSystem) (directory : Path) : List Path :=
  match fs.entry directory, fs.locate directory with
  | .ok .directory, .ok place =>
    let below : List Path := fs.entries.filterMap fun (there, e) =>
      match e with
      | .directory => none
      | .file _ =>
        if place.isPrefixOf there then
          some { directory with components := directory.components ++ there.drop place.length }
        else none
    below.mergeSort fun p q => !q.precedes p
  | _, _ => []

/-! ### Changing -/

/-- Makes the directories on the way along components. -/
def makeAlong (fs : FileSystem) : Place → List Text → Except Reason FileSystem
  | place, [] =>
    match fs.at? place with
    | some (.file _) => .error .alreadyThere
    | _ => .ok fs
  | place, name :: rest =>
    match fs.at? place with
    | some (.file _) => .error .notDirectory
    | _ =>
      let next := if name = Path.up then place.dropLast else place ++ [name]
      let fs := if (fs.at? next).isSome then fs else fs.put next .directory
      makeAlong fs next rest

/-- Makes a directory and those above it, as far as they are not there. -/
def makeDirectories (fs : FileSystem) (p : Path) : Except Fault FileSystem :=
  (fs.makeAlong (fs.startOf p) p.components).mapError fun r => ⟨r, p⟩

/-- Puts a file where a path leads. -/
def write (fs : FileSystem) (p : Path) (f : File) : Except Fault FileSystem :=
  match fs.locate p with
  | .error r => .error ⟨r, p⟩
  | .ok place =>
    match fs.at? place, fs.at? place.dropLast with
    | some .directory, _ => .error ⟨.isDirectory, p⟩
    | _, none => .error ⟨.notFound, p⟩
    | _, some (.file _) => .error ⟨.notDirectory, p⟩
    | _, some .directory => .ok (fs.put place (.file f))

/-- Removes a file, or a directory with all that is below it. -/
def remove (fs : FileSystem) (p : Path) : FileSystem :=
  match fs.locate p with
  | .error _ => fs
  | .ok place => { fs with entries := fs.entries.filter fun m => !place.isPrefixOf m.1 }

/-- Sets the time of the last change of a file that is there. -/
def touch (fs : FileSystem) (p : Path) (modified : Binary64) : FileSystem :=
  match fs.locate p, fs.file? p with
  | .ok place, some f => fs.put place (.file { f with modified := modified })
  | _, _ => fs

/-- An empty directory, which is the current one, and the directories above it. -/
def ofCurrent (place : Place) : FileSystem :=
  { current := place
    entries := (List.range place.length).map fun n => (place.take (n + 1), .directory) }

end FileSystem

end LiteralLint
