import LiteralLint.Text.Quoted

/-!
# Why a text is no pattern

Most faults have a place in the text, given as the number of code points before it; those that
are found only after the whole text has been read have none.
-/

namespace LiteralLint.Pattern

/-- What is wrong with a text as a pattern. -/
inductive Cause
  | danglingEscape
  | incompleteEscape (escape : Text)
  | badEscape (escape : Text)
  | octalRange (escape : Text)
  | missingBrace
  | missingName (what : Text)
  | unterminatedName (terminator : CodePoint)
  | undefinedCharacter (name : Text)
  | openGroup
  | groupWithinLookBehind
  | invalidReference (number : Nat)
  | unterminatedSet
  | badRange (first last : Text)
  | leastAboveMost
  | nothingToRepeat
  | multipleRepeat
  | unexpectedEnd
  | badGroupName (name : Text)
  | unknownGroupName (name : Text)
  | badGroupNumber
  | groupRedefined (name : Text) (number earlier : Nat)
  | unknownExtension (extension : Text)
  | unterminatedComment
  | unterminatedGroup
  | tooManyBranches
  | unbalanced
  | lateFlags
  | localeFlag
  | conflictingFlags
  | unknownFlag
  | missingFlagEnd
  | missingFlag
  | missingFlagColon
  | globalFlagOn
  | classFlagOff
  | globalFlagOff
  | flagOnAndOff
  | variableLookBehind
  | farLookBehind
  | templateRepeat (greed : Text)
  deriving DecidableEq

/-- Why a text is no pattern. Besides the malformed ones there are texts with a count or an escaped
number that is too large, with a count that has too many digits, and with two global flags that
exclude each other. -/
inductive Fault
  | malformed (cause : Cause) (place : Option Nat)
  | numberTooLarge
  | countTooLarge
  | countTooLong (digits : Nat)
  | asciiAndUnicode
  deriving DecidableEq

/-- What a cause says. -/
def Cause.message : Cause → Text
  | .danglingEscape => "bad escape (end of pattern)"
  | .incompleteEscape e => Text.cat ["incomplete escape ", e]
  | .badEscape e => Text.cat ["bad escape ", e]
  | .octalRange e => Text.cat ["octal escape value ", e, " outside of range 0-0o377"]
  | .missingBrace => "missing \x7b"
  | .missingName what => Text.cat ["missing ", what]
  | .unterminatedName c => Text.cat ["missing ", [c], ", unterminated name"]
  | .undefinedCharacter name => Text.cat ["undefined character name ", Text.quoted name]
  | .openGroup => "cannot refer to an open group"
  | .groupWithinLookBehind =>
    "cannot refer to group defined in the same lookbehind subpattern"
  | .invalidReference n => Text.cat ["invalid group reference ", Text.ofNat n]
  | .unterminatedSet => "unterminated character set"
  | .badRange a b => Text.cat ["bad character range ", a, "-", b]
  | .leastAboveMost => "min repeat greater than max repeat"
  | .nothingToRepeat => "nothing to repeat"
  | .multipleRepeat => "multiple repeat"
  | .unexpectedEnd => "unexpected end of pattern"
  | .badGroupName name => Text.cat ["bad character in group name ", Text.quoted name]
  | .unknownGroupName name => Text.cat ["unknown group name ", Text.quoted name]
  | .badGroupNumber => "bad group number"
  | .groupRedefined name n earlier =>
    Text.cat ["redefinition of group name ", Text.quoted name, " as group ", Text.ofNat n,
      "; was group ", Text.ofNat earlier]
  | .unknownExtension e => Text.cat ["unknown extension ?", e]
  | .unterminatedComment => "missing ), unterminated comment"
  | .unterminatedGroup => "missing ), unterminated subpattern"
  | .tooManyBranches => "conditional backref with more than two branches"
  | .unbalanced => "unbalanced parenthesis"
  | .lateFlags => "global flags not at the start of the expression"
  | .localeFlag => "bad inline flags: cannot use 'L' flag with a str pattern"
  | .conflictingFlags => "bad inline flags: flags 'a', 'u' and 'L' are incompatible"
  | .unknownFlag => "unknown flag"
  | .missingFlagEnd => "missing -, : or )"
  | .missingFlag => "missing flag"
  | .missingFlagColon => "missing :"
  | .globalFlagOn => "bad inline flags: cannot turn on global flag"
  | .classFlagOff => "bad inline flags: cannot turn off flags 'a', 'u' and 'L'"
  | .globalFlagOff => "bad inline flags: cannot turn off global flag"
  | .flagOnAndOff => "bad inline flags: flag turned on and off"
  | .variableLookBehind => "look-behind requires fixed-width pattern"
  | .farLookBehind => "looks too much behind"
  | .templateRepeat greed => Text.cat ["internal: unsupported template operator ", greed]

/-- Where a place is: its position and, in a text of several lines, its line and column. -/
def placeText (t : Text) (place : Nat) : Text :=
  let before := t.take place
  let line := before.count 10 + 1
  let column := (before.reverse.takeWhile (· != 10)).length + 1
  let lines : Text :=
    if t.contains 10 then
      Text.cat [" (line ", Text.ofNat line, ", column ", Text.ofNat column, ")"]
    else []
  Text.cat [" at position ", Text.ofNat place, lines]

/-- The wording of a fault in a text. -/
def Fault.message (t : Text) : Fault → Text
  | .malformed cause (some place) => Text.cat [cause.message, placeText t place]
  | .malformed cause none => cause.message
  | .numberTooLarge => "Python int too large to convert to C int"
  | .countTooLarge => "the repetition number is too large"
  | .countTooLong digits =>
    Text.cat ["Exceeds the limit (4300 digits) for integer string conversion: value has ",
      Text.ofNat digits, " digits; use sys.set_int_max_str_digits() to increase the limit"]
  | .asciiAndUnicode => "ASCII and UNICODE flags are incompatible"

end LiteralLint.Pattern
