import LiteralLint.FileSystem
import LiteralLint.Text.Similarity

/-!
# Command line arguments

A command line names a command after the options of the program, and the options of the command
may stand before and after its paths. A double hyphen ends the options. All arguments are read
before any value is looked at; then the values are checked in the order in which their options
came, and the paths last.

## Main definitions

* `CommandLine.Request`: what a command line asks for.
* `CommandLine.UsageFault`: why a command line is refused, with its wording.
* `CommandLine.parse`: the request of a command line.
-/

namespace LiteralLint.CommandLine

/-! ### Faults -/

/-- The command whose usage is explained. -/
inductive Scope
  | program
  | check
  deriving DecidableEq

/-- Why a command line is refused. -/
inductive UsageFault
  | noSuchOption (scope : Scope) (name : Text) (similar : List Text)
  | valueNeeded (name : Text)
  | noValueTaken (name : Text)
  | noSuchCommand (name : Text) (similar : List Text)
  | commandMissing
  | pathsMissing
  | noSuchPath (kind parameter value : Text)
  | pathIsDirectory (kind parameter value : Text)
  | notAChoice (parameter value : Text) (choices : List Text)
  deriving DecidableEq

namespace UsageFault

/-- The command whose usage helps against a fault; a fault about the value of an option speaks for
itself. -/
def scope? : UsageFault → Option Scope
  | .noSuchOption s _ _ => some s
  | .valueNeeded _ => none
  | .noValueTaken _ => none
  | .noSuchCommand _ _ => some .program
  | .commandMissing => some .program
  | _ => some .check

/-- How to use a command. -/
def usage : Scope → Text
  | .program =>
    "Usage: i18nlint [OPTIONS] COMMAND [ARGS]...\nTry 'i18nlint --help' for help.\n\n"
  | .check =>
    "Usage: i18nlint check [OPTIONS] PATHS...\nTry 'i18nlint check --help' for help.\n\n"

/-- A hint at similar names. -/
def hint : List Text → Text
  | [] => []
  | [t] => Text.cat [" Did you mean ", Text.quoted t, "?"]
  | ts => Text.cat [" (Did you mean one of: ", Text.join ", " (ts.map Text.quoted), "?)"]

/-- What is wrong. -/
def complaint : UsageFault → Text
  | .noSuchOption _ name similar =>
    Text.cat ["No such option ", Text.quoted name, ".", hint similar]
  | .valueNeeded name => Text.cat ["Option ", Text.quoted name, " requires an argument."]
  | .noValueTaken name => Text.cat ["Option ", Text.quoted name, " does not take a value."]
  | .noSuchCommand name similar =>
    Text.cat ["No such command ", Text.quoted name, ".", hint similar]
  | .commandMissing => "Missing command."
  | .pathsMissing => "Missing argument 'PATHS...'."
  | .noSuchPath kind parameter value =>
    Text.cat ["Invalid value for '", parameter, "': ", kind, " ", Text.quoted value,
      " does not exist."]
  | .pathIsDirectory kind parameter value =>
    Text.cat ["Invalid value for '", parameter, "': ", kind, " ", Text.quoted value,
      " is a directory."]
  | .notAChoice parameter value choices =>
    Text.cat ["Invalid value for '", parameter, "': ", Text.quoted value, " is not one of ",
      Text.join ", " (choices.map Text.quoted), "."]

/-- The whole wording. -/
def message (f : UsageFault) : Text :=
  let head : Text := match f.scope? with
    | some s => usage s
    | none => []
  Text.cat [head, "Error: ", f.complaint, "\n"]

end UsageFault

/-! ### Reading arguments -/

/-- An argument that starts with a hyphen and is more than that. -/
def looksLikeOption (arg : Text) : Bool := arg.length > 1 && arg.head? == some 45

/-- An argument at its first equals sign, if it has one. -/
def atEquals (arg : Text) : Text × Option Text :=
  let name := arg.takeWhile (· != 61)
  match arg.drop name.length with
  | [] => (name, none)
  | _ :: value => (name, some value)

/-- The options of the program. -/
inductive ProgramOption
  | version
  | help
  deriving DecidableEq

/-- The names of the options of the program. -/
def programOptions : List (Text × ProgramOption) := [("--version", .version), ("--help", .help)]

/-- The failure for an unknown option. Names that start with two hyphens are reported as a whole,
with similar ones; of others, the first letter is. -/
def unknownOption (scope : Scope) (arg name letter : Text) (known : List Text) : UsageFault :=
  if Text.startsWith arg "--" then .noSuchOption scope name (Text.closest name known)
  else .noSuchOption scope letter []

/-- The options of the program at the front of some arguments, and the other arguments. -/
def readProgram : List Text → Except UsageFault (List ProgramOption × List Text)
  | [] => .ok ([], [])
  | arg :: rest =>
    if arg = "--" then .ok ([], rest)
    else if looksLikeOption arg then
      let (name, value) := atEquals arg
      match programOptions.lookup name, value with
      | some _, some _ => .error (.noValueTaken name)
      | some o, none => (readProgram rest).map fun (os, more) => (o :: os, more)
      | none, _ =>
        .error (unknownOption .program arg name (arg.take 2) (programOptions.map Prod.fst))
    else .ok ([], arg :: rest)

/-- The options of the command. -/
inductive CheckOption
  | config
  | ignore
  | ignoreCallee
  | ignoreProperty
  | ignoreAttribute
  | exclude
  | format
  | noTypes
  | cache
  | noCache
  | verbose
  | help
  deriving DecidableEq

/-- The names of the options of the command. -/
def checkOptions : List (Text × CheckOption) := [
  ("--config", .config), ("--ignore", .ignore), ("--ignore-callee", .ignoreCallee),
  ("--ignore-property", .ignoreProperty), ("--ignore-attribute", .ignoreAttribute),
  ("--exclude", .exclude), ("--format", .format), ("--no-types", .noTypes), ("--cache", .cache),
  ("--no-cache", .noCache), ("--verbose", .verbose), ("--help", .help)]

/-- Whether an option has a value. -/
def CheckOption.takesValue : CheckOption → Bool
  | .config => true
  | .ignore => true
  | .ignoreCallee => true
  | .ignoreProperty => true
  | .ignoreAttribute => true
  | .exclude => true
  | .format => true
  | _ => false

/-- An option with its value, which is empty if it takes none. -/
structure Given where
  option : CheckOption
  value : Text := []
  deriving DecidableEq

/-- The options that letters stand for. -/
def readLetters : Text → Except UsageFault (List Given)
  | [] => .ok []
  | c :: rest =>
    if c = 118 then (readLetters rest).map (⟨.verbose, []⟩ :: ·)
    else .error (.noSuchOption .check [45, c] [])

/-- What the arguments of the command say: its options in order, and its paths. -/
structure Arguments where
  given : List Given := []
  paths : List Text := []

namespace Arguments

/-- Options in front of others. -/
def withGiven (gs : List Given) (a : Arguments) : Arguments := { a with given := gs ++ a.given }

/-- A path in front of others. -/
def withPath (p : Text) (a : Arguments) : Arguments := { a with paths := p :: a.paths }

/-- The arguments of the command, where an option may still wait for its value. -/
def readFrom (waiting : Option (Text × CheckOption)) : List Text → Except UsageFault Arguments
  | [] =>
    match waiting with
    | none => .ok {}
    | some (name, _) => .error (.valueNeeded name)
  | arg :: rest =>
    match waiting with
    | some (_, o) => (readFrom none rest).map (withGiven [⟨o, arg⟩])
    | none =>
      if arg = "--" then .ok { paths := rest }
      else if !looksLikeOption arg then (readFrom none rest).map (withPath arg)
      else
        let (name, value) := atEquals arg
        match checkOptions.lookup name, value with
        | some o, some v =>
          if o.takesValue then (readFrom none rest).map (withGiven [⟨o, v⟩])
          else .error (.noValueTaken name)
        | some o, none =>
          if o.takesValue then readFrom (some (name, o)) rest
          else (readFrom none rest).map (withGiven [⟨o, []⟩])
        | none, _ =>
          if Text.startsWith arg "--" then
            .error (.noSuchOption .check name (Text.closest name (checkOptions.map Prod.fst)))
          else
            match readLetters (arg.drop 1) with
            | .error f => .error f
            | .ok gs => (readFrom none rest).map (withGiven gs)

/-- The arguments of the command. -/
def read (args : List Text) : Except UsageFault Arguments := readFrom none args

/-- The values of an option, in order. -/
def valuesOf (o : CheckOption) (a : Arguments) : List Text :=
  (a.given.filter fun g => g.option = o).map Given.value

/-- The last value of an option. -/
def lastOf? (o : CheckOption) (a : Arguments) : Option Text := (a.valuesOf o).getLast?

/-- Whether an option is given. -/
def has (o : CheckOption) (a : Arguments) : Bool := a.given.any fun g => g.option = o

end Arguments

/-! ### Requests -/

/-- The forms of a report. -/
inductive Format
  | text
  | json
  deriving DecidableEq

/-- The names of the forms. -/
def formats : List (Text × Format) := [("text", .text), ("json", .json)]

/-- What the command is asked to do. -/
structure CheckRequest where
  paths : List Text
  config : Option Text
  ignore : List Text
  ignoreCallees : List Text
  ignoreProperties : List Text
  ignoreAttributes : List Text
  exclude : List Text
  format : Format
  useTypes : Bool
  useCache : Bool
  verbose : Bool

/-- What a command line asks for. -/
inductive Request
  | version
  | help (scope : Scope)
  | check (r : CheckRequest)

/-- Whether the file of an options value is one. -/
def checkConfig (fs : FileSystem) (value : Text) : Except UsageFault Unit :=
  match fs.entryOfText? value with
  | none => .error (.noSuchPath "File" "--config" value)
  | some .directory => .error (.pathIsDirectory "File" "--config" value)
  | some (.file _) => .ok ()

/-- The form that a value names. -/
def checkFormat (value : Text) : Except UsageFault Format :=
  match formats.lookup value with
  | some f => .ok f
  | none => .error (.notAChoice "--format" value (formats.map Prod.fst))

/-- Whether the value of an option can be used. Of several values the last counts. -/
def checkGiven (fs : FileSystem) (a : Arguments) (g : Given) : Except UsageFault Unit :=
  match g.option with
  | .config => checkConfig fs ((a.lastOf? .config).getD [])
  | .format => (checkFormat ((a.lastOf? .format).getD [])).map fun _ => ()
  | _ => .ok ()

/-- Whether the values of some options can be used. -/
def checkAll (fs : FileSystem) (a : Arguments) : List Given → Except UsageFault Unit
  | [] => .ok ()
  | g :: rest =>
    match checkGiven fs a g with
    | .error f => .error f
    | .ok _ => checkAll fs a rest

/-- Whether paths lead to something; there has to be at least one. -/
def checkPaths (fs : FileSystem) : List Text → Except UsageFault Unit
  | [] => .ok ()
  | p :: rest =>
    if (fs.entryOfText? p).isSome then checkPaths fs rest
    else .error (.noSuchPath "Path" "PATHS..." p)

/-- The request of the arguments of the command. -/
def requestOf (fs : FileSystem) (a : Arguments) : Except UsageFault Request :=
  if a.has .help then .ok (.help .check)
  else do
    checkAll fs a a.given
    if a.paths.isEmpty then throw .pathsMissing
    checkPaths fs a.paths
    let format ← checkFormat ((a.lastOf? .format).getD "text")
    let caches := a.given.filter fun g => g.option = .cache || g.option = .noCache
    return .check {
      paths := a.paths
      config := a.lastOf? .config
      ignore := a.valuesOf .ignore
      ignoreCallees := a.valuesOf .ignoreCallee
      ignoreProperties := a.valuesOf .ignoreProperty
      ignoreAttributes := a.valuesOf .ignoreAttribute
      exclude := a.valuesOf .exclude
      format := format
      useTypes := !a.has .noTypes
      useCache := caches.getLast?.all fun g => g.option = .cache
      verbose := a.has .verbose }

/-- What the first option of the program asks for. -/
def ProgramOption.request : ProgramOption → Request
  | .version => .version
  | .help => .help .program

/-- The request of a command and its arguments. In the place of a command that does not exist,
an option of the program still counts as one. -/
def parseCommand (fs : FileSystem) : List Text → Except UsageFault Request
  | [] => .error .commandMissing
  | name :: rest =>
    if name = "check" then
      match Arguments.read rest with
      | .error f => .error f
      | .ok a => requestOf fs a
    else
      match readProgram (name :: rest) with
      | .error f => .error f
      | .ok (o :: _, _) => .ok o.request
      | .ok ([], _) => .error (.noSuchCommand name (Text.closest name ["check"]))

/-- The request of a command line. Without any argument it is a request for help. -/
def parse (fs : FileSystem) (args : List Text) : Except UsageFault Request :=
  if args.isEmpty then .ok (.help .program)
  else
    match readProgram args with
    | .error f => .error f
    | .ok (o :: _, _) => .ok o.request
    | .ok ([], rest) => parseCommand fs rest

end LiteralLint.CommandLine
