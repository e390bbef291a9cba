import LiteralLint.FileSystem
import LiteralLint.Log

/-!
# Jobs

A job works on a file system and tells what it does. Whatever it has changed and told stays when it
fails.

## Main definitions

* `Desk`: the file system and the events so far.
* `Job`: a computation on a desk that may fail.
* `Setting`: what a job is given from outside.
-/

namespace LiteralLint

/-- The file system that a job works on, and what it has told. -/
structure Desk where
  files : FileSystem := {}
  events : List Log.Event := []

/-- What a job is given from outside: parsers, the text of the present time, and the names of
characters. -/
structure Setting where
  parsers : Parsers
  now : Text := []
  characters : Pattern.CharacterNames := Pattern.unnamed

/-- A computation on a desk. -/
abbrev Job := ExceptT Failure (StateM Desk)

namespace Job

/-- Tells of an event. -/
def tell (e : Log.Event) : Job Unit := modify fun d => { d with events := d.events ++ [e] }

/-- Tells of several events. -/
def tellAll (es : List Log.Event) : Job Unit := modify fun d => { d with events := d.events ++ es }

/-- The file system as it is now. -/
def files : Job FileSystem := return (← get).files

/-- Puts another file system in place. -/
def setFiles (fs : FileSystem) : Job Unit := modify fun d => { d with files := fs }

/-- The outcome of a job on a desk, and the desk after it. -/
def runOn {α : Type} (j : Job α) (d : Desk) : Except Failure α × Desk := (ExceptT.run j).run d

end Job

end LiteralLint
