import LiteralLint.MessagePack

/-!
# Reading MessagePack

A document is one value and nothing after it. Keys of maps have to be texts or byte strings, and
of two members with one key the later one counts. Collections may not be nested too deeply, nor
announce more items than the document has bytes.

## Main definitions

* `MessagePack.ReadFault`: why bytes are no document.
* `MessagePack.readValue`: a value at the front of some bytes, and the bytes after it.
* `MessagePack.read`: the value of a document.
-/

namespace LiteralLint.MessagePack

/-- Why bytes are no document. -/
inductive ReadFault
  | incomplete
  | unknownForm
  | tooDeep
  | extraBytes
  | badTimestamp
  | tooManyNanoseconds
  | extensionCode
  | arrayTooLong (announced limit : Nat)
  | mapTooLong (announced limit : Nat)
  | keyKind (kind : Text)
  | notUtf8 (f : Utf8.Fault)

/-- The wording of a fault. Two of them have none. -/
def ReadFault.message : ReadFault → Text
  | .incomplete => "Unpack failed: incomplete input"
  | .unknownForm => []
  | .tooDeep => []
  | .extraBytes => "unpack(b) received extra data."
  | .badTimestamp => "Unpack failed: error = -1"
  | .tooManyNanoseconds =>
    "nanoseconds must be a non-negative integer less than 1000000000."
  | .extensionCode => "code must be 0~127"
  | .arrayTooLong n limit =>
    Text.cat [Text.ofNat n, " exceeds max_array_len(", Text.ofNat limit, ")"]
  | .mapTooLong n limit => Text.cat [Text.ofNat n, " exceeds max_map_len(", Text.ofNat limit, ")"]
  | .keyKind kind => Text.cat [kind, " is not allowed for map key when strict_map_key=True"]
  | .notUtf8 f => f.message

/-- A value at the front of some bytes, with the bytes after it. -/
abbrev Reading (α : Type) := Except ReadFault (α × Bytes)

/-! ### Numbers -/

/-- The number that bytes write, the most significant first. -/
def natOf (b : Bytes) : Nat := b.foldl (fun n o => 256 * n + o.toNat) 0

/-- The number that bytes write in two's complement. -/
def intOf (b : Bytes) : Int :=
  let n := natOf b
  let size := Nat.pow 256 b.length
  if n < size / 2 then n else (n : Int) - size

/-- The double with the value of a number of single precision. -/
def widened (bits : Nat) : Binary64 :=
  let negative := bits / Nat.pow 2 31 == 1
  let exponent := bits / Nat.pow 2 23 % Nat.pow 2 8
  let fraction := bits % Nat.pow 2 23
  if exponent = 255 then
    if fraction = 0 then Binary64.infinity negative
    else Binary64.assemble negative
      (2047 * Nat.pow 2 52 + Nat.pow 2 51 + fraction % Nat.pow 2 22 * Nat.pow 2 29)
  else if exponent = 0 then Binary64.ofRatio negative fraction (Nat.pow 2 149)
  else Binary64.assemble negative ((exponent + 896) * Nat.pow 2 52 + fraction * Nat.pow 2 29)

/-- Some bytes at the front. -/
def takeBytes (n : Nat) (b : Bytes) : Reading Bytes :=
  if b.length < n then .error .incomplete else .ok (b.take n, b.drop n)

/-- A number of some bytes at the front. -/
def takeNat (width : Nat) (b : Bytes) : Reading Nat :=
  (takeBytes width b).map fun (o, rest) => (natOf o, rest)

/-! ### Texts and extensions -/

/-- A text of some bytes. -/
def readText (n : Nat) (b : Bytes) : Reading Value :=
  match takeBytes n b with
  | .error e => .error e
  | .ok (o, rest) =>
    match Utf8.decode? o with
    | .ok t => .ok (.text t, rest)
    | .error f => .error (.notUtf8 f)

/-- A byte string. -/
def readBytes (n : Nat) (b : Bytes) : Reading Value :=
  (takeBytes n b).map fun (o, rest) => (.bytes o, rest)

/-- The time that the data of a timestamp stand for. -/
def timestampOf (data : Bytes) : Except ReadFault Value :=
  let checked (seconds : Int) (nanoseconds : Nat) : Except ReadFault Value :=
    if nanoseconds < 1000000000 then .ok (.timestamp seconds nanoseconds)
    else .error .tooManyNanoseconds
  match data.length with
  | 4 => checked (natOf data) 0
  | 8 => checked (natOf data % 0x400000000 : Nat) (natOf data / 0x400000000)
  | 12 => checked (intOf (data.drop 4)) (natOf (data.take 4))
  | _ => .error .badTimestamp

/-- An extension with data of some bytes. -/
def readExtension (n : Nat) (b : Bytes) : Reading Value :=
  match takeBytes (n + 1) b with
  | .error e => .error e
  | .ok (o, rest) =>
    let code := intOf (o.take 1)
    if code = -1 then (timestampOf (o.drop 1)).map fun v => (v, rest)
    else if code < 0 then .error .extensionCode
    else .ok (.extension code (o.drop 1), rest)

/-! ### Values -/

/-- What the first byte of a value announces. -/
inductive Head
  | done (v : Value)
  | number (width : Nat) (of : Bytes → Value)
  | text (length : Nat)
  | textOf (width : Nat)
  | bytesOf (width : Nat)
  | extension (length : Nat)
  | extensionOf (width : Nat)
  | array (count : Nat)
  | arrayOf (width : Nat)
  | map (count : Nat)
  | mapOf (width : Nat)
  | unknown

/-- What a first byte announces. -/
def head (b : UInt8) : Head :=
  let n := b.toNat
  if n < 0x80 then .done (.int n)
  else if n < 0x90 then .map (n - 0x80)
  else if n < 0xa0 then .array (n - 0x90)
  else if n < 0xc0 then .text (n - 0xa0)
  else if n ≥ 0xe0 then .done (.int ((n : Int) - 256))
  else
    match n with
    | 0xc0 => .done .nil
    | 0xc2 => .done (.bool false)
    | 0xc3 => .done (.bool true)
    | 0xc4 => .bytesOf 1
    | 0xc5 => .bytesOf 2
    | 0xc6 => .bytesOf 4
    | 0xc7 => .extensionOf 1
    | 0xc8 => .extensionOf 2
    | 0xc9 => .extensionOf 4
    | 0xca => .number 4 fun o => .real (widened (natOf o))
    | 0xcb => .number 8 fun o => .real ⟨(natOf o).toUInt64⟩
    | 0xcc => .number 1 fun o => .int (natOf o)
    | 0xcd => .number 2 fun o => .int (natOf o)
    | 0xce => .number 4 fun o => .int (natOf o)
    | 0xcf => .number 8 fun o => .int (natOf o)
    | 0xd0 => .number 1 fun o => .int (intOf o)
    | 0xd1 => .number 2 fun o => .int (intOf o)
    | 0xd2 => .number 4 fun o => .int (intOf o)
    | 0xd3 => .number 8 fun o => .int (intOf o)
    | 0xd4 => .extension 1
    | 0xd5 => .extension 2
    | 0xd6 => .extension 4
    | 0xd7 => .extension 8
    | 0xd8 => .extension 16
    | 0xd9 => .textOf 1
    | 0xda => .textOf 2
    | 0xdb => .textOf 4
    | 0xdc => .arrayOf 2
    | 0xdd => .arrayOf 4
    | 0xde => .mapOf 2
    | 0xdf => .mapOf 4
    | _ => .unknown

/-- Some values, one after the other. -/
def readItems (one : Bytes → Reading Value) : Nat → Bytes → Reading (List Value)
  | 0, b => .ok ([], b)
  | n + 1, b =>
    match one b with
    | .error e => .error e
    | .ok (v, rest) => (readItems one n rest).map fun (vs, rest) => (v :: vs, rest)

/-- A value as a key. -/
def keyOf : Value → Except ReadFault Key
  | .text t => .ok (.text t)
  | .bytes b => .ok (.bytes b)
  | v => .error (.keyKind v.kindName)

/-- Some members, one after the other, put after others. -/
def readMembers (one : Bytes → Reading Value) :
    Nat → List (Key × Value) → Bytes → Reading (List (Key × Value))
  | 0, before, b => .ok (before, b)
  | n + 1, before, b =>
    match one b with
    | .error e => .error e
    | .ok (k, rest) =>
      match one rest with
      | .error e => .error e
      | .ok (v, rest) =>
        match keyOf k with
        | .error e => .error e
        | .ok key => readMembers one n (setMember key v before) rest

/-- An array of some items, if the document has room for so many. -/
def readArray (one : Bytes → Reading Value) (limit n : Nat) (b : Bytes) : Reading Value :=
  if n > limit then .error (.arrayTooLong n limit)
  else (readItems one n b).map fun (vs, rest) => (.array vs, rest)

/-- A map of some members, if the document has room for so many. -/
def readMap (one : Bytes → Reading Value) (limit n : Nat) (b : Bytes) : Reading Value :=
  if n > limit / 2 then .error (.mapTooLong n (limit / 2))
  else (readMembers one n [] b).map fun (ms, rest) => (.map ms, rest)

/-- A number, and then what it announces. -/
def counted (width : Nat) (b : Bytes) (next : Nat → Bytes → Reading Value) : Reading Value :=
  match takeNat width b with
  | .error e => .error e
  | .ok (n, rest) => next n rest

/-- The value that a head announces. Collections go through the given readers. -/
def readBody (array map : Nat → Bytes → Reading Value) (b : Bytes) : Head → Reading Value
  | .done v => .ok (v, b)
  | .number width f => (takeBytes width b).map fun (o, rest) => (f o, rest)
  | .text n => readText n b
  | .textOf width => counted width b readText
  | .bytesOf width => counted width b readBytes
  | .extension n => readExtension n b
  | .extensionOf width => counted width b readExtension
  | .array n => array n b
  | .arrayOf width => counted width b array
  | .map n => map n b
  | .mapOf width => counted width b map
  | .unknown => .error .unknownForm

/-- A value at the front of some bytes of a document of `limit` bytes, with at most so many levels
of collections. -/
def readValue (limit : Nat) : Nat → Bytes → Reading Value
  | _, [] => .error .incomplete
  | 0, b :: rest => readBody (fun _ _ => .error .tooDeep) (fun _ _ => .error .tooDeep) rest (head b)
  | levels + 1, b :: rest =>
    readBody (readArray (readValue limit levels) limit) (readMap (readValue limit levels) limit)
      rest (head b)

/-- How deeply collections may be nested. -/
def maxLevels : Nat := 1024

/-- The value of a document. -/
def read (b : Bytes) : Except ReadFault Value :=
  match readValue b.length maxLevels b with
  | .error e => .error e
  | .ok (v, []) => .ok v
  | .ok (_, _ :: _) => .error .extraBytes

end LiteralLint.MessagePack
