import LiteralLint.Pattern
import LiteralLint.Pattern.Fault
import LiteralLint.Text.Identifier
import LiteralLint.Text.IntegerNumeral

/-!
# Reading patterns

The text is cut into tokens first: single code points, and a backslash with the code point after
it. Reading goes one token ahead, so a backslash at the very end is noticed as soon as the token
before it has been taken.

Reading is descent by alternation, sequence and item. Every call takes at least one token or
returns to a caller that does, so four times the number of tokens bounds the depth.

## Main definitions

* `Pattern.read`: the pattern that a text denotes, or why it denotes none.
-/

namespace LiteralLint.Pattern

/-- One code point, or a backslash and the code point after it. A lone backslash is the one at
the end of a text. -/
abbrev Token := Text

/-- The tokens of a text. -/
def tokens : Text → List Token
  | [] => []
  | [92] => [[92]]
  | 92 :: c :: rest => [92, c] :: tokens rest
  | c :: rest => [c] :: tokens rest

/-- The flags in force. -/
structure Flags where
  ignoreCase : Bool := false
  multiLine : Bool := false
  dotAll : Bool := false
  spaced : Bool := false
  ascii : Bool := false
  unicode : Bool := false
  template : Bool := false
  deriving DecidableEq

/-- The code points of characters by their names. A name has at most one; the names of sequences
have none. -/
abbrev CharacterNames := Text → Option CodePoint

/-- No character has a name. -/
def unnamed : CharacterNames := fun _ => none

/-- What reading knows. -/
structure Reading where
  /-- The names that stand for code points. -/
  characters : CharacterNames
  /-- The tokens that are left. -/
  left : List Token
  /-- The number of code points taken. -/
  pos : Nat
  /-- The widths of the groups from the first on; none for a group that is still open. -/
  groups : List (Option Width)
  names : List (Text × Nat)
  /-- Within a look-behind: the number of the next group when the outermost began. -/
  behind : Option Nat
  /-- Groups that conditions name by number, in order, with the places of their numbers. -/
  references : List (Nat × Nat)
  /-- The flags set for the whole pattern. -/
  globals : Flags

/-- Reading with a state that ends at the first fault. -/
abbrev ReadM := StateT Reading (Except Fault)

/-! ### Tokens -/

/-- Ends reading with a fault some code points before the next token. -/
def failBack {α : Type} (back : Nat) (cause : Cause) : ReadM α := do
  throw (.malformed cause (some ((← get).pos - back)))

/-- Ends reading with a fault at the next token. -/
def fail {α : Type} (cause : Cause) : ReadM α := failBack 0 cause

/-- The next token. -/
def peek : ReadM (Option Token) := return (← get).left.head?

/-- Whether the next token is a certain code point. -/
def nextIs (c : CodePoint) : ReadM Bool := return (← peek) == some [c]

/-- Takes the next token. -/
def take : ReadM (Option Token) := do
  let s ← get
  match s.left with
  | [] => return none
  | t :: rest =>
    let pos := s.pos + t.length
    if rest.head? == some [92] then throw (.malformed .danglingEscape (some pos))
    set { s with left := rest, pos := pos }
    return some t

/-- Takes the next token if it is a certain code point. -/
def accept (c : CodePoint) : ReadM Bool := do
  if ← nextIs c then
    let _ ← take
    return true
  else return false

/-- Takes at most some tokens that are single code points of a class. -/
def takeWhile (ok : CodePoint → Bool) : Nat → ReadM Text
  | 0 => return []
  | bound + 1 => do
    match ← peek with
    | some [c] =>
      if ok c then
        let _ ← take
        return c :: (← takeWhile ok bound)
      else return []
    | _ => return []

/-- Takes a name up to its terminator. -/
def takeName (terminator : CodePoint) (what : Text) : Nat → Text → ReadM Text
  | 0, _ => fail (.missingName what)
  | bound + 1, before => do
    match ← take with
    | none =>
      if before.isEmpty then fail (.missingName what)
      else failBack before.length (.unterminatedName terminator)
    | some t =>
      if t == [terminator] then
        if before.isEmpty then failBack 1 (.missingName what) else return before
      else takeName terminator what bound (before ++ t)

/-- The number of tokens left. -/
def tokensLeft : ReadM Nat := return (← get).left.length

/-! ### Escapes -/

/-- A hexadecimal digit. -/
def isHexDigit (c : CodePoint) : Bool := (Text.hexDigit? c).isSome

/-- An octal digit. -/
def isOctalDigit (c : CodePoint) : Bool := 48 ≤ c && c ≤ 55

/-- The number written by octal digits. -/
def octalValue (digits : Text) : Nat := digits.foldl (fun n c => 8 * n + (c - 48)) 0

/-- The control characters that have an escape letter, and the backslash. -/
def controlEscape? (c : CodePoint) : Option CodePoint :=
  if c == 97 then some 7
  else if c == 98 then some 8
  else if c == 102 then some 12
  else if c == 110 then some 10
  else if c == 114 then some 13
  else if c == 116 then some 9
  else if c == 118 then some 11
  else if c == 92 then some 92
  else none

/-- The named class that an escape letter means, and whether it is negated. -/
def categoryEscape? (c : CodePoint) : Option (Category × Bool) :=
  if c == 100 then some (.digit, false)
  else if c == 68 then some (.digit, true)
  else if c == 115 then some (.space, false)
  else if c == 83 then some (.space, true)
  else if c == 119 then some (.word, false)
  else if c == 87 then some (.word, true)
  else none

/-- The number of hexadecimal digits after an escape letter. -/
def hexEscapeLength? (c : CodePoint) : Option Nat :=
  if c == 120 then some 2
  else if c == 117 then some 4
  else if c == 85 then some 8
  else none

/-- Escaped numbers from this one on are too large to be checked as code points. -/
def numberLimit : Nat := 0x80000000

/-- The code point of an escape by hexadecimal digits or by name. -/
def readNumberedEscape? (c : CodePoint) : ReadM (Option CodePoint) := do
  match hexEscapeLength? c with
  | some n =>
    let digits ← takeWhile isHexDigit n
    let escape := [92, c] ++ digits
    if digits.length != n then failBack escape.length (.incompleteEscape escape)
    else
      let v := Text.hexValue digits
      if v ≥ numberLimit then throw .numberTooLarge
      else if v > Text.maxCodePoint then failBack escape.length (.badEscape escape)
      else return some v
  | none =>
    if c == 78 then
      if !(← accept 123) then fail .missingBrace
      else
        let name ← takeName 125 "character name" ((← tokensLeft) + 1) []
        if name.any Text.isSurrogate then failBack 2 (.badEscape [92, c])
        else
          match (← get).characters name with
          | some v => return some v
          | none => failBack (name.length + 4) (.undefinedCharacter name)
    else return none

/-- An escape that stands for the code point after the backslash. -/
def readPlainEscape (c : CodePoint) : ReadM CodePoint :=
  if Text.isAsciiLetter c then failBack 2 (.badEscape [92, c]) else return c

/-- The item that an escape means within a character set. -/
def readSetEscape (c : CodePoint) : ReadM Item := do
  match controlEscape? c, categoryEscape? c with
  | some v, _ => return .one v
  | none, some (k, negated) => return .category k negated
  | none, none =>
    match ← readNumberedEscape? c with
    | some v => return .one v
    | none =>
      if isOctalDigit c then
        let digits := c :: (← takeWhile isOctalDigit 2)
        let escape := 92 :: digits
        if octalValue digits > 255 then failBack escape.length (.octalRange escape)
        else return .one (octalValue digits)
      else if Text.isAsciiDigit c then failBack 2 (.badEscape [92, c])
      else return .one (← readPlainEscape c)

/-- Whether a group has been closed. -/
def isClosed (number : Nat) : ReadM Bool := do
  match (← get).groups[number - 1]? with
  | some (some _) => return number > 0
  | _ => return false

/-- Refuses, within a look-behind, a group that is open or was opened there. -/
def checkBehind (number : Nat) : ReadM Unit := do
  match (← get).behind with
  | none => return ()
  | some start =>
    if !(← isClosed number) then fail .openGroup
    else if number ≥ start then fail .groupWithinLookBehind
    else return ()

/-- The folding that flags ask for. -/
def Flags.folding (f : Flags) : Folding :=
  if !f.ignoreCase then .exact else if f.ascii then .ascii else .unicode

/-- The expression for a set of items. -/
def Flags.charset (f : Flags) (negated : Bool) (items : List Item) : Pattern :=
  .chars ⟨negated, items, f.folding, f.ascii⟩

/-- The expression for the text of a closed group. -/
def Flags.again (f : Flags) (number : Nat) : ReadM Pattern := do
  let w := ((← get).groups[number - 1]?.join).getD (0, 0)
  return .again number f.folding w

/-- The octal escape or back reference that starts with a digit other than zero. -/
def readDigitEscape (f : Flags) (c : CodePoint) : ReadM Pattern := do
  let second ← takeWhile Text.isAsciiDigit 1
  let octal := isOctalDigit c && second.all isOctalDigit && !second.isEmpty
  let third ← if octal then takeWhile isOctalDigit 1 else pure []
  let digits := c :: second ++ third
  let escape := 92 :: digits
  if !third.isEmpty then
    if octalValue digits > 255 then failBack escape.length (.octalRange escape)
    else return f.charset false [.one (octalValue digits)]
  else
    let number := Text.decimalValue digits
    if number ≤ (← get).groups.length then
      if !(← isClosed number) then failBack escape.length .openGroup
      else
        checkBehind number
        f.again number
    else failBack digits.length (.invalidReference number)

/-- What an expression is for a repetition after it. -/
inductive Shape
  | anchor
  | rounds
  | other
  deriving DecidableEq

/-- An expression with its shape. -/
structure Part where
  pattern : Pattern
  shape : Shape := .other

/-- The expression that an escape means outside of character sets. -/
def readEscape (f : Flags) (c : CodePoint) : ReadM Part := do
  if c == 65 then return ⟨.anchor .textStart, .anchor⟩
  else if c == 90 then return ⟨.anchor .textEnd, .anchor⟩
  else if c == 98 then return ⟨.anchor (.wordBoundary f.ascii false), .anchor⟩
  else if c == 66 then return ⟨.anchor (.wordBoundary f.ascii true), .anchor⟩
  else
    match categoryEscape? c, controlEscape? c with
    | some (k, negated), _ => return ⟨f.charset false [.category k negated], .other⟩
    | none, some v => return ⟨f.charset false [.one v], .other⟩
    | none, none =>
      match ← readNumberedEscape? c with
      | some v => return ⟨f.charset false [.one v], .other⟩
      | none =>
        if c == 48 then
          let digits ← takeWhile isOctalDigit 2
          return ⟨f.charset false [.one (octalValue digits)], .other⟩
        else if Text.isAsciiDigit c then return ⟨← readDigitEscape f c, .other⟩
        else return ⟨f.charset false [.one (← readPlainEscape c)], .other⟩

/-! ### Character sets -/

/-- The item that a token means within a character set. -/
def readItem (t : Token) : ReadM Item :=
  match t with
  | [92, c] => readSetEscape c
  | c :: _ => return .one c
  | [] => fail .unterminatedSet

/-- The items of a character set up to its closing bracket. `opened` is the place of the opening
bracket. -/
def readItems (opened : Nat) : Nat → List Item → ReadM (List Item)
  | 0, items => return items
  | bound + 1, items => do
    let unterminated : ReadM (List Item) := do
      failBack ((← get).pos - opened) .unterminatedSet
    match ← take with
    | none => unterminated
    | some this =>
      if this == [93] && !items.isEmpty then return items
      else
        let first ← readItem this
        if !(← accept 45) then readItems opened bound (items ++ [first])
        else
          match ← take with
          | none => unterminated
          | some that =>
            if that == [93] then return items ++ [first, .one 45]
            else
              let last ← readItem that
              let back := this.length + 1 + that.length
              match first, last with
              | .one a, .one b =>
                if b < a then failBack back (.badRange this that)
                else readItems opened bound (items ++ [.range a b])
              | _, _ => failBack back (.badRange this that)

/-- A character set after its opening bracket. -/
def readSet (f : Flags) : ReadM Pattern := do
  let opened := (← get).pos - 1
  let negated ← accept 94
  let items ← readItems opened ((← tokensLeft) + 1) []
  return f.charset negated items.eraseDups

/-! ### Repetitions -/

/-- Counts from this on are refused. -/
def countLimit : Nat := 0xffffffff

/-- A count of a repetition. -/
def readCount (digits : Text) : ReadM Nat :=
  if digits.length > Text.decimalDigitLimit then throw (.countTooLong digits.length)
  else
    let n := Text.decimalValue digits
    if n ≥ countLimit then throw .countTooLarge else return n

/-- The counts between braces after the opening one; none if the brace stands for itself. -/
def readCounts? : ReadM (Option (Nat × Option Nat)) := do
  let saved ← get
  if ← nextIs 125 then return none
  else
    let lo ← takeWhile Text.isAsciiDigit (← tokensLeft)
    let bound ← tokensLeft
    let hi ← if ← accept 44 then takeWhile Text.isAsciiDigit bound else pure lo
    if !(← accept 125) then
      set saved
      return none
    else
      let least ← if lo.isEmpty then pure 0 else readCount lo
      if hi.isEmpty then return some (least, none)
      else
        let most ← readCount hi
        if most < least then failBack ((← get).pos - saved.pos) .leastAboveMost
        else return some (least, some most)

/-- The counts that a repetition sign asks for; none if it is a brace that stands for itself. -/
def readRounds? (sign : CodePoint) : ReadM (Option (Nat × Option Nat)) :=
  if sign == 63 then return some (0, some 1)
  else if sign == 42 then return some (0, none)
  else if sign == 43 then return some (1, none)
  else readCounts?

/-- The sign after a repetition that says how it chooses. -/
def readGreed : ReadM Greed := do
  if ← accept 63 then return .lazily
  else if ← accept 43 then return .possessive
  else return .greedy

/-- Repeats the last of some parts. `opened` is the place after the repetition sign. -/
def repeatLast (opened : Nat) (least : Nat) (most : Option Nat) (parts : List Part) :
    ReadM (List Part) := do
  let back := (← get).pos - opened + 1
  match parts.getLast? with
  | none => failBack back .nothingToRepeat
  | some ⟨body, shape⟩ =>
    match shape with
    | .anchor => failBack back .nothingToRepeat
    | .rounds => failBack back .multipleRepeat
    | .other =>
      let greed ← readGreed
      return parts.dropLast ++ [⟨.rounds greed least most body, .rounds⟩]

/-! ### Groups -/

/-- Opens a group and returns its number. -/
def openGroup (name : Option Text) : ReadM Nat := do
  let s ← get
  let number := s.groups.length + 1
  let s := { s with groups := s.groups ++ [none] }
  match name with
  | none =>
    set s
    return number
  | some n =>
    match s.names.lookup n with
    | some earlier => failBack (n.length + 1) (.groupRedefined n number earlier)
    | none =>
      set { s with names := s.names ++ [(n, number)] }
      return number

/-- Closes a group. -/
def closeGroup (number : Nat) (w : Width) : ReadM Unit :=
  modify fun s => { s with groups := s.groups.set (number - 1) (some w) }

/-- Refuses a name that is no identifier. -/
def checkName (name : Text) : ReadM Unit :=
  if Text.isIdentifier name then return () else failBack (name.length + 1) (.badGroupName name)

/-- The letters of flags. -/
def isFlagLetter (c : CodePoint) : Bool :=
  c == 105 || c == 76 || c == 109 || c == 115 || c == 120 || c == 97 || c == 116 || c == 117

/-- The flag letter that a token is. -/
def flagLetter? : Token → Option CodePoint
  | [c] => if isFlagLetter c then some c else none
  | _ => none

/-- The flags with the one of a letter set. -/
def Flags.turnOn (f : Flags) (c : CodePoint) : Flags :=
  if c == 105 then { f with ignoreCase := true }
  else if c == 109 then { f with multiLine := true }
  else if c == 115 then { f with dotAll := true }
  else if c == 120 then { f with spaced := true }
  else if c == 97 then { f with ascii := true }
  else if c == 117 then { f with unicode := true }
  else if c == 116 then { f with template := true }
  else f

/-- Flags set in either. -/
def Flags.union (f g : Flags) : Flags :=
  ⟨f.ignoreCase || g.ignoreCase, f.multiLine || g.multiLine, f.dotAll || g.dotAll,
    f.spaced || g.spaced, f.ascii || g.ascii, f.unicode || g.unicode, f.template || g.template⟩

/-- Whether two sets of flags have one in common. -/
def Flags.meets (f g : Flags) : Bool :=
  (f.ignoreCase && g.ignoreCase) || (f.multiLine && g.multiLine) || (f.dotAll && g.dotAll) ||
    (f.spaced && g.spaced) || (f.template && g.template)

/-- The flags within a group that turns some on and some off. The two flags for the meaning of
classes replace each other. -/
def Flags.adjust (f on off : Flags) : Flags :=
  { ignoreCase := (f.ignoreCase || on.ignoreCase) && !off.ignoreCase
    multiLine := (f.multiLine || on.multiLine) && !off.multiLine
    dotAll := (f.dotAll || on.dotAll) && !off.dotAll
    spaced := (f.spaced || on.spaced) && !off.spaced
    ascii := if on.unicode then false else f.ascii || on.ascii
    unicode := if on.ascii then false else f.unicode || on.unicode
    template := f.template }

/-- What follows flag letters: the whole pattern has them, or a group. -/
inductive FlagScope
  | everything (on : Flags)
  | within (on off : Flags)

/-- The fault for a token that is no flag letter. -/
def noFlag {α : Type} (t : Token) (otherwise : Cause) : ReadM α :=
  match t with
  | [c] => failBack 1 (if Text.isLetter c then .unknownFlag else otherwise)
  | _ => failBack t.length otherwise

/-- Flag letters to turn on, from one that has been taken; with the token that ends them. -/
def readFlagsOn : Nat → Flags → CodePoint → ReadM (Flags × Token)
  | 0, on, _ => return (on, [])
  | bound + 1, on, c => do
    if c == 76 then fail .localeFlag
    else
      let on := on.turnOn c
      if (c == 97 || c == 117) && on.ascii && on.unicode then fail .conflictingFlags
      else
        match ← take with
        | none => fail .missingFlagEnd
        | some t =>
          if t == [41] || t == [45] || t == [58] then return (on, t)
          else
            match flagLetter? t with
            | some d => readFlagsOn bound on d
            | none => noFlag t .missingFlagEnd

/-- Flag letters to turn off, from one that has been taken, up to the colon. -/
def readFlagsOff : Nat → Flags → CodePoint → ReadM Flags
  | 0, off, _ => return off
  | bound + 1, off, c => do
    if c == 97 || c == 117 || c == 76 then fail .classFlagOff
    else
      let off := off.turnOn c
      match ← take with
      | none => fail .missingFlagColon
      | some t =>
        if t == [58] then return off
        else
          match flagLetter? t with
          | some d => readFlagsOff bound off d
          | none => noFlag t .missingFlagColon

/-- Flags from their first token, which has been taken. -/
def readFlags (first : CodePoint) : ReadM FlagScope := do
  let bound := (← tokensLeft) + 1
  let (on, stop) ← if first == 45 then pure ({}, [45]) else readFlagsOn bound {} first
  if stop == [41] then return .everything on
  else if on.template then failBack 1 .globalFlagOn
  else
    let off : Flags ←
      if stop == [45] then
        match ← take with
        | none => fail .missingFlag
        | some t =>
          match flagLetter? t with
          | some d => readFlagsOff bound {} d
          | none => noFlag t .missingFlag
      else pure {}
    if off.template then failBack 1 .globalFlagOff
    else if on.meets off then failBack 1 .flagOnAndOff
    else return .within on off

/-- Takes a comment up to its closing parenthesis. -/
def skipComment (opened : Nat) : Nat → ReadM Unit
  | 0 => return ()
  | bound + 1 => do
    match ← peek with
    | none => failBack ((← get).pos - opened) .unterminatedComment
    | some _ => if (← take) == some [41] then return () else skipComment opened bound

/-- Takes a comment up to the end of its line. -/
def skipLine : Nat → ReadM Unit
  | 0 => return ()
  | bound + 1 => do
    match ← take with
    | none => return ()
    | some t => if t == [10] then return () else skipLine bound

/-- The greatest number of groups. -/
def groupLimit : Nat := 0x3fffffff

/-- The group that a condition names. -/
def readCondition : ReadM Nat := do
  let name ← takeName 41 "group name" ((← tokensLeft) + 1) []
  let back := name.length + 1
  if Text.isIdentifier name then
    match (← get).names.lookup name with
    | some n => return n
    | none => failBack back (.unknownGroupName name)
  else
    match Text.readInteger .ten name with
    | .ok (.ofNat n) =>
      if n == 0 then failBack back .badGroupNumber
      else if n ≥ groupLimit then failBack back (.invalidReference n)
      else
        modify fun s =>
          if (s.references.lookup n).isSome then s
          else { s with references := s.references ++ [(n, s.pos - back)] }
        return n
    | _ => failBack back (.badGroupName name)

/-- What a group is, by what follows its opening parenthesis. -/
inductive Opening
  /-- Nothing but a comment or flags for the whole pattern. -/
  | nothing
  | globals (on : Flags)
  | again (number : Nat)
  | look (behind negated : Bool)
  | condition (number : Nat)
  | capture (name : Option Text)
  | plain
  | atomic
  | flagged (on off : Flags)

/-- What follows an opening parenthesis, up to the contents of the group. -/
def readOpening (opened : Nat) : ReadM Opening := do
  if !(← accept 63) then return .capture none
  else
    match ← take with
    | none => fail .unexpectedEnd
    | some t =>
      if t == [80] then
        if ← accept 60 then
          let name ← takeName 62 "group name" ((← tokensLeft) + 1) []
          checkName name
          return .capture (some name)
        else if ← accept 61 then
          let name ← takeName 41 "group name" ((← tokensLeft) + 1) []
          checkName name
          match (← get).names.lookup name with
          | none => failBack (name.length + 1) (.unknownGroupName name)
          | some n =>
            if !(← isClosed n) then failBack (name.length + 1) .openGroup
            else
              checkBehind n
              return .again n
        else
          match ← take with
          | none => fail .unexpectedEnd
          | some x => failBack (x.length + 2) (.unknownExtension (80 :: x))
      else if t == [58] then return .plain
      else if t == [35] then
        skipComment opened ((← tokensLeft) + 1)
        return .nothing
      else if t == [61] then return .look false false
      else if t == [33] then return .look false true
      else if t == [60] then
        match ← take with
        | none => fail .unexpectedEnd
        | some x =>
          if x == [61] then return .look true false
          else if x == [33] then return .look true true
          else failBack (x.length + 2) (.unknownExtension (60 :: x))
      else if t == [40] then return .condition (← readCondition)
      else if t == [62] then return .atomic
      else
        match if t == [45] then some 45 else flagLetter? t with
        | some c =>
          match ← readFlags c with
          | .everything on => return .globals on
          | .within on off => return .flagged on off
        | none => failBack (t.length + 1) (.unknownExtension t)

/-! ### Sequences and alternations -/

/-- The expression for parts one after the other. -/
def sequence : List Part → Pattern
  | [] => .empty
  | [p] => p.pattern
  | p :: rest => .seq p.pattern (sequence rest)

/-- The expression for alternatives in order of preference. -/
def alternation : List Pattern → Pattern
  | [] => .empty
  | [p] => p
  | p :: rest => .alt p (alternation rest)

/-- The line feed, as the only item that a dot refuses. -/
def anyPattern (f : Flags) : Pattern :=
  if f.dotAll then .chars ⟨true, [], .exact, f.ascii⟩
  else .chars ⟨true, [.one 10], .exact, f.ascii⟩

/-- Requires the closing parenthesis of a group. -/
def closing (opened : Nat) : ReadM Unit := do
  if !(← accept 41) then failBack ((← get).pos - opened) .unterminatedGroup

mutual

/-- Alternatives up to the end of the text or a closing parenthesis. Only at the top can flags
for the whole pattern stand, at the start of the first alternative; they hold from there on. -/
def readAlternation : Nat → Bool → Flags → List Pattern → ReadM Pattern
  | 0, _, _, before => return alternation before
  | bound + 1, top, f, before => do
    let p ← readSequence bound (top && before.isEmpty) f []
    let all := before ++ [p]
    if ← accept 124 then
      let s ← get
      readAlternation bound top (if top then f.union s.globals else f) all
    else return alternation all

/-- Parts up to the end of the text, a bar or a closing parenthesis. -/
def readSequence : Nat → Bool → Flags → List Part → ReadM Pattern
  | 0, _, _, parts => return sequence parts
  | bound + 1, first, f, parts => do
    match ← peek with
    | none => return sequence parts
    | some this =>
      if this == [124] || this == [41] then return sequence parts
      else
        let _ ← take
        match this with
        | [c] =>
          if f.spaced && isAsciiSpace c then readSequence bound first f parts
          else if f.spaced && c == 35 then
            skipLine ((← tokensLeft) + 1)
            readSequence bound first f parts
          else if c == 91 then
            let p ← readSet f
            readSequence bound first f (parts ++ [⟨p, .other⟩])
          else if c == 42 || c == 43 || c == 63 || c == 123 then
            let opened := (← get).pos
            match ← readRounds? c with
            | some (least, most) =>
              readSequence bound first f (← repeatLast opened least most parts)
            | none => readSequence bound first f (parts ++ [⟨f.charset false [.one c], .other⟩])
          else if c == 46 then readSequence bound first f (parts ++ [⟨anyPattern f, .other⟩])
          else if c == 94 then
            let a : Anchor := if f.multiLine then .lineStart else .textStart
            readSequence bound first f (parts ++ [⟨.anchor a, .anchor⟩])
          else if c == 36 then
            let a : Anchor := if f.multiLine then .lineEnd else .finalLineEnd
            readSequence bound first f (parts ++ [⟨.anchor a, .anchor⟩])
          else if c == 40 then
            let opened := (← get).pos - 1
            match ← readOpening opened with
            | .nothing => readSequence bound first f parts
            | .globals on =>
              if !first || !parts.isEmpty then failBack ((← get).pos - opened) .lateFlags
              else
                modify fun s => { s with globals := s.globals.union on }
                readSequence bound first (f.union on) parts
            | .again n => readSequence bound first f (parts ++ [⟨← f.again n, .other⟩])
            | o => readSequence bound first f (parts ++ [⟨← readGroup bound f opened o, .other⟩])
          else readSequence bound first f (parts ++ [⟨f.charset false [.one c], .other⟩])
        | [_, c] => readSequence bound first f (parts ++ [← readEscape f c])
        | _ => return sequence parts

/-- The contents of a group up to its closing parenthesis. -/
def readGroup : Nat → Flags → Nat → Opening → ReadM Pattern
  | 0, _, _, _ => return .empty
  | bound + 1, f, opened, o => do
    match o with
    | .look behind negated =>
      let outer := (← get).behind
      if behind && outer.isNone then
        modify fun s => { s with behind := some (s.groups.length + 1) }
      let body ← readAlternation bound false f []
      if behind && outer.isNone then
        modify fun s => { s with behind := none }
      closing opened
      return .look (if behind then .behind body.width.1 else .ahead) negated body
    | .condition n =>
      checkBehind n
      let yes ← readSequence bound false f []
      let no ←
        if ← accept 124 then
          let no ← readSequence bound false f []
          if ← nextIs 124 then fail .tooManyBranches else pure no
        else pure .empty
      closing opened
      return .ifGroup n yes no
    | .capture name =>
      let number ← openGroup name
      let body ← readAlternation bound false f []
      closing opened
      closeGroup number body.width
      return .group number body
    | .atomic =>
      let body ← readAlternation bound false f []
      closing opened
      return .atomic body
    | .flagged on off =>
      let body ← readAlternation bound false (f.adjust on off) []
      closing opened
      return body
    | _ =>
      let body ← readAlternation bound false f []
      closing opened
      return body

end

/-! ### Conditions on the whole pattern -/

/-- How far back a look-behind can reach. -/
def lookBehindLimit : Nat := 0xffffffff

/-- The name of a kind of repetition. -/
def Greed.name : Greed → Text
  | .greedy => "MAX_REPEAT"
  | .lazily => "MIN_REPEAT"
  | .possessive => "POSSESSIVE_REPEAT"

/-- The first cause, from left to right, that shows only in the finished expression. -/
def laterCause? (template : Bool) : Pattern → Option Cause
  | .seq p q => (p.laterCause? template).or (q.laterCause? template)
  | .alt p q => (p.laterCause? template).or (q.laterCause? template)
  | .rounds greed _ _ body =>
    if template then some (.templateRepeat greed.name) else body.laterCause? template
  | .group _ body => body.laterCause? template
  | .atomic body => body.laterCause? template
  | .look .ahead _ body => body.laterCause? template
  | .look (.behind _) _ body =>
    if body.width.1 > lookBehindLimit then some .farLookBehind
    else if body.width.1 != body.width.2 then some .variableLookBehind
    else body.laterCause? template
  | .ifGroup _ yes no => (yes.laterCause? template).or (no.laterCause? template)
  | _ => none

/-- The state before reading a text. -/
def Reading.start (characters : CharacterNames) (t : Text) : Reading :=
  ⟨characters, tokens t, 0, [], [], none, [], {}⟩

/-- Reads a whole text. -/
def readAll (t : Text) : ReadM Pattern := do
  if (← peek) == some [92] then throw (.malformed .danglingEscape (some 0))
  let p ← readAlternation (4 * t.length + 8) true {} []
  let s ← get
  if s.globals.ascii && s.globals.unicode then throw .asciiAndUnicode
  if !s.left.isEmpty then fail .unbalanced
  match s.references.find? fun r => r.1 > s.groups.length with
  | some (n, place) => throw (.malformed (.invalidReference n) (some place))
  | none =>
    match p.laterCause? s.globals.template with
    | some cause => throw (.malformed cause none)
    | none => return p

/-- The pattern that a text denotes, or why it denotes none. -/
def read (characters : CharacterNames) (t : Text) : Except Fault Pattern :=
  ((readAll t).run (.start characters t)).map (·.1)

end LiteralLint.Pattern
