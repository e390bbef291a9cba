import LiteralLint.CommandLine
import Std.Time.DateTime.PlainDateTime
import Std.Time.DateTime.Timestamp

/-!
# The program

The program looks at the files below the current directory and below the paths of its command line,
runs the command line as a job on what it saw, and then carries out what the job changed. It comes
without parsers, so source files are reported as having none, and without names of characters; a
program that has some passes them in its setting.
-/

namespace LiteralLint.Main

/-- The time of the last change of a file, in seconds. -/
def modifiedOf (info : IO.FS.Metadata) : Binary64 :=
  let nanoseconds := info.modified.sec * 1000000000 + (info.modified.nsec.toNat : Int)
  .ofDecimal (nanoseconds < 0) nanoseconds.natAbs (-9)

/-- The place of a path of the system. -/
def placeOf (path : String) : Place := (Path.ofText (Text.ofString path)).components

/-- The path to a place, for the system. -/
def pathTo (place : Place) : String := (Path.toText ⟨.root, place⟩).toStringLossy

/-- What there is at a path and below it. What cannot be looked at is left out. -/
partial def gather (path : String) : IO (List (Place × FileSystem.Entry)) := do
  let node : IO.FS.DirEntry := ⟨path, ""⟩
  try
    let info ← node.root.metadata
    match info.type with
    | .dir => do
      let below ← (← node.root.readDir).toList.mapM fun e => gather e.path.toString
      return (placeOf path, .directory) :: below.flatten
    | .file => do
      let bytes ← IO.FS.readBinFile path
      return [(placeOf path, .file ⟨bytes.toList, modifiedOf info, true⟩)]
    | _ => return []
  catch _ => return []

/-- The places below which to look: no place twice, and none that is below another. -/
def outermost (places : List Place) : List Place :=
  places.eraseDups.filter fun p => !places.any fun q => q != p && q.isPrefixOf p

/-- The directories above a place. -/
def above (place : Place) : List (Place × FileSystem.Entry) :=
  (List.range place.length).map fun n => (place.take n, .directory)

/-- The file system as far as a command line can be about it: what is below the current directory
and below the paths that the arguments may be. -/
def look (args : List String) : IO FileSystem := do
  let current := placeOf (← IO.currentDir).toString
  let named ← args.mapM fun (a : String) => do
    try return [placeOf (← IO.FS.realPath a).toString] catch _ => return []
  let tops := outermost (current :: named.flatten)
  let found ← tops.mapM fun top => gather (pathTo top)
  return ⟨current, found.flatten ++ tops.flatMap above⟩

/-- The bytes of a file at a place. -/
def bytesAt? (fs : FileSystem) (place : Place) : Option Bytes :=
  match fs.at? place with
  | some (.file f) => some f.bytes
  | _ => none

/-- Carries out what distinguishes a file system from the one it was: first the directories, then
the files in them. -/
def carryOut (before after : FileSystem) : IO Unit := do
  for (place, e) in after.entries do
    if let .directory := e then
      if (before.at? place).isNone then IO.FS.createDirAll (pathTo place)
  for (place, e) in after.entries do
    if let .file f := e then
      if bytesAt? before place != some f.bytes then
        IO.FS.writeBinFile (pathTo place) ⟨f.bytes.toArray⟩

/-- A number below a hundred with two digits. -/
def twoDigits (n : Nat) : Text := (Text.ofNat (100 + n % 100)).drop 1

/-- A time in milliseconds, as seconds with two places. -/
def elapsedText (milliseconds : Nat) : Text :=
  let hundredths := (milliseconds + 5) / 10
  Text.cat [Text.ofNat (hundredths / 100), ".", twoDigits hundredths]

/-- The present time to the second, as a date and a time of day of the prime meridian. -/
def present : IO Text := do
  let stamp ← Std.Time.Timestamp.now
  let now := Std.Time.PlainDateTime.ofWallTime (.ofNanoseconds stamp.toNanosecondsSinceUnixEpoch)
  let date := now.date
  let time := now.time
  return Text.cat [Text.ofNat date.year.toInt.toNat, "-", twoDigits date.month.val.toNat, "-",
    twoDigits date.day.val.toNat, "T", twoDigits time.hour.val.toNat, ":",
    twoDigits time.minute.val.toNat, ":", twoDigits time.second.val.toNat, "Z"]

/-- Writes a text as it is. -/
def put (stream : IO.FS.Stream) (t : Text) : IO Unit := stream.putStr t.toStringLossy

end LiteralLint.Main

open LiteralLint in
/-- Runs a command line. -/
def main (args : List String) : IO UInt32 := do
  let texts := args.map Text.ofString
  let before ← Main.look args
  let start ← IO.monoMsNow
  let setting : Setting := { parsers := fun _ => none, now := ← Main.present }
  let (outcome, desk) := (CommandLine.run setting texts).runOn ⟨before, []⟩
  let err ← IO.getStderr
  Main.carryOut before desk.files
  let elapsed := Main.elapsedText ((← IO.monoMsNow) - start)
  for line in Log.lines (CommandLine.isVerbose before texts) elapsed desk.events do
    Main.put err (Text.cat ["[i18nlint] ", line, "\n"])
  match outcome with
  | .ok o =>
    Main.put (← IO.getStdout) o.out
    Main.put err o.err
    return o.status.toUInt32
  | .error f =>
    Main.put err (Text.cat [f.message, "\n"])
    return 1
