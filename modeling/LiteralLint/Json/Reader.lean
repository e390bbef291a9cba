import LiteralLint.Json
import LiteralLint.Binary64.Reading

/-!
# Reading JSON

A reader takes the text that is left and returns a value with what is left after it. A fault
names what was expected and the number of code points that were left when it was noticed; the
position in the whole text follows from that. Beyond the standard, the names `NaN`, `Infinity`
and `-Infinity` are values, and of two members with one name the last counts.

Every call consumes at least one code point, so a bound of one more than the length of the text
is never reached.

## Main definitions

* `Json.read`: the value of a whole text, or why it is none.
* `Json.ReadFault.message`: the wording, with line, column and position.
-/

namespace LiteralLint.Json

/-- What is wrong with a text as JSON. -/
inductive Complaint
  | byteOrderMark
  | value
  | propertyName
  | colon
  | comma
  | extraData
  | unterminatedString
  | controlCharacter
  | escape
  | unicodeEscape
  deriving DecidableEq, Repr

/-- Why reading stopped, with the number of code points that were left. -/
inductive ReadFault
  | malformed (complaint : Complaint) (left : Nat)
  | tooManyDigits (count : Nat)
  deriving DecidableEq, Repr

/-- The blanks of JSON. -/
def isSpace (c : CodePoint) : Bool := c == 32 || c == 9 || c == 10 || c == 13

/-- The text after its blanks. -/
def skip (t : Text) : Text := t.dropWhile isSpace

/-! ### Strings -/

/-- The number written by four hexadecimal digits. -/
def fourHex? (a b c d : CodePoint) : Option Nat :=
  match Text.hexDigit? a, Text.hexDigit? b, Text.hexDigit? c, Text.hexDigit? d with
  | some w, some x, some y, some z => some (((w * 16 + x) * 16 + y) * 16 + z)
  | _, _, _, _ => none

/-- The code point of an escape that is a single letter or sign. -/
def simpleEscape? (c : CodePoint) : Option CodePoint :=
  if c == 34 || c == 92 || c == 47 then some c
  else if c == 98 then some 8
  else if c == 102 then some 12
  else if c == 110 then some 10
  else if c == 114 then some 13
  else if c == 116 then some 9
  else none

/-- The body of a string after its opening quote, escapes decoded one by one, and what follows
the closing quote. `opened` is the number of code points left from the opening quote on. A
`\u` escape must have another code point after its digits. -/
def readString (opened : Nat) : Text → Except ReadFault (Text × Text)
  | [] => .error (.malformed .unterminatedString opened)
  | 34 :: rest => .ok ([], rest)
  | [92] => .error (.malformed .unterminatedString opened)
  | 92 :: 117 :: a :: b :: c :: d :: e :: rest =>
    match fourHex? a b c d with
    | none => .error (.malformed .unicodeEscape (rest.length + 6))
    | some n => (readString opened (e :: rest)).map fun (s, after) => (n :: s, after)
  | 92 :: c :: rest =>
    if c == 117 then .error (.malformed .unicodeEscape (rest.length + 1))
    else
      match simpleEscape? c with
      | none => .error (.malformed .escape (rest.length + 2))
      | some v => (readString opened rest).map fun (s, after) => (v :: s, after)
  | c :: rest =>
    if c ≤ 0x1F then .error (.malformed .controlCharacter (rest.length + 1))
    else (readString opened rest).map fun (s, after) => (c :: s, after)

/-- Two halves of a surrogate pair that stand next to each other become one code point. -/
def joinSurrogates : Text → Text
  | h :: l :: rest =>
    if 0xD800 ≤ h && h ≤ 0xDBFF && 0xDC00 ≤ l && l ≤ 0xDFFF then
      (0x10000 + (h - 0xD800) * 0x400 + (l - 0xDC00)) :: joinSurrogates rest
    else h :: joinSurrogates (l :: rest)
  | t => t

/-- A string after its opening quote. -/
def readText (opened : Nat) (t : Text) : Except ReadFault (Text × Text) :=
  (readString opened t).map fun (s, rest) => (joinSurrogates s, rest)

/-! ### Numbers -/

/-- The fraction at the start of a text, the point included, if a digit follows the point. -/
def fraction (t : Text) : Text :=
  match t with
  | 46 :: rest =>
    let digits := rest.takeWhile Text.isAsciiDigit
    if digits.isEmpty then [] else 46 :: digits
  | _ => []

/-- The exponent at the start of a text, its letter and sign included, if it has a digit. -/
def exponent (t : Text) : Text :=
  match t with
  | c :: rest =>
    if c == 101 || c == 69 then
      let (sign, unsigned) : Text × Text :=
        match rest with
        | s :: more => if s == 43 || s == 45 then ([s], more) else ([], rest)
        | [] => ([], [])
      let digits := unsigned.takeWhile Text.isAsciiDigit
      if digits.isEmpty then [] else c :: (sign ++ digits)
    else []
  | [] => []

/-- The whole part at the start of a text: a zero, or digits that do not start with one. -/
def wholePart (t : Text) : Text :=
  match t with
  | 48 :: _ => [48]
  | _ => t.takeWhile Text.isAsciiDigit

/-- The number at the start of a text, and what follows it. -/
def readNumber (t : Text) : Except ReadFault (Json × Text) :=
  let sign : Text := match t with
    | 45 :: _ => [45]
    | _ => []
  let unsigned := t.drop sign.length
  let whole := wholePart unsigned
  if whole.isEmpty then .error (.malformed .value t.length)
  else
    let afterWhole := unsigned.drop whole.length
    let places := fraction afterWhole
    let power := exponent (afterWhole.drop places.length)
    let numeral := sign ++ whole ++ places ++ power
    let rest := t.drop numeral.length
    if places.isEmpty && power.isEmpty then
      match Text.readInteger .ten numeral with
      | .ok n => .ok (.int n, rest)
      | .error (.tooManyDigits count) => .error (.tooManyDigits count)
      | .error .malformed => .error (.malformed .value t.length)
    else
      match Binary64.read? numeral with
      | some x => .ok (.real x, rest)
      | none => .error (.malformed .value t.length)

/-- A name that is a value, and what follows it. -/
def readName? (t : Text) : Option (Json × Text) :=
  let names : List (Text × Json) := [
    ("null", .null), ("true", .bool true), ("false", .bool false), ("NaN", .real Binary64.nan),
    ("Infinity", .real (Binary64.infinity false)),
    ("-Infinity", .real (Binary64.infinity true))]
  (names.find? fun entry => Text.startsWith t entry.1).map fun entry =>
    (entry.2, t.drop entry.1.length)

/-! ### Values -/

mutual

/-- A value at the start of a text. -/
def readValue : Nat → Text → Except ReadFault (Json × Text)
  | 0, t => .error (.malformed .value t.length)
  | bound + 1, t =>
    match t with
    | [] => .error (.malformed .value 0)
    | 34 :: rest => (readText t.length rest).map fun (s, after) => (.text s, after)
    | 123 :: rest =>
      match skip rest with
      | 125 :: after => .ok (.object [], after)
      | inner => (readMembers bound [] inner).map fun (ms, after) => (.object ms, after)
    | 91 :: rest =>
      match skip rest with
      | 93 :: after => .ok (.array [], after)
      | inner => (readItems bound inner).map fun (xs, after) => (.array xs, after)
    | _ =>
      match readName? t with
      | some found => .ok found
      | none => readNumber t

/-- The members of an object up to its closing brace, added to those read before. -/
def readMembers : Nat → List (Text × Json) → Text → Except ReadFault (List (Text × Json) × Text)
  | 0, _, t => .error (.malformed .propertyName t.length)
  | bound + 1, before, t =>
    match t with
    | 34 :: rest => do
      let (name, afterName) ← readText t.length rest
      match skip afterName with
      | 58 :: afterColon =>
        let (v, afterValue) ← readValue bound (skip afterColon)
        let members := setMember name v before
        match skip afterValue with
        | 125 :: after => .ok (members, after)
        | 44 :: after => readMembers bound members (skip after)
        | other => .error (.malformed .comma other.length)
      | other => .error (.malformed .colon other.length)
    | _ => .error (.malformed .propertyName t.length)

/-- The items of an array up to its closing bracket. -/
def readItems : Nat → Text → Except ReadFault (List Json × Text)
  | 0, t => .error (.malformed .value t.length)
  | bound + 1, t => do
    let (v, afterValue) ← readValue bound t
    match skip afterValue with
    | 93 :: after => .ok ([v], after)
    | 44 :: after => (readItems bound (skip after)).map fun (vs, rest) => (v :: vs, rest)
    | other => .error (.malformed .comma other.length)

end

/-- The value of a text. -/
def read (t : Text) : Except ReadFault Json :=
  match t with
  | 0xFEFF :: _ => .error (.malformed .byteOrderMark t.length)
  | _ =>
    match readValue (t.length + 1) (skip t) with
    | .error f => .error f
    | .ok (v, rest) =>
      match skip rest with
      | [] => .ok v
      | extra => .error (.malformed .extraData extra.length)

/-! ### Wording -/

/-- What a complaint says. -/
def Complaint.message : Complaint → Text
  | .byteOrderMark => "Unexpected UTF-8 BOM (decode using utf-8-sig)"
  | .value => "Expecting value"
  | .propertyName => "Expecting property name enclosed in double quotes"
  | .colon => "Expecting ':' delimiter"
  | .comma => "Expecting ',' delimiter"
  | .extraData => "Extra data"
  | .unterminatedString => "Unterminated string starting at"
  | .controlCharacter => "Invalid control character at"
  | .escape => "Invalid \\escape"
  | .unicodeEscape => "Invalid \\uXXXX escape"

/-- A place as line, column and position, all but the position counted from one. -/
def place (t : Text) (pos : Nat) : Text :=
  let before := t.take pos
  let line := before.count 10 + 1
  let column := (before.reverse.takeWhile (· != 10)).length + 1
  Text.cat ["line ", Text.ofNat line, " column ", Text.ofNat column, " (char ",
    Text.ofNat pos, ")"]

/-- The wording of a fault in a text. -/
def ReadFault.message (whole : Text) : ReadFault → Text
  | .malformed complaint left =>
    Text.cat [complaint.message, ": ", place whole (whole.length - left)]
  | .tooManyDigits count =>
    Text.cat ["Exceeds the limit (4300 digits) for integer string conversion: value has ",
      Text.ofNat count, " digits; use sys.set_int_max_str_digits() to increase the limit"]

end LiteralLint.Json
