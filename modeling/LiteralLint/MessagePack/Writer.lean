import LiteralLint.MessagePack

/-!
# Writing MessagePack

Every value is written in the shortest form that its kind has: small integers, short texts and
short collections in one byte of head. Doubles always take eight bytes, and texts and byte strings
are told apart.

## Main definitions

* `MessagePack.Value.write`: the bytes of a value, or why it has none.
-/

namespace LiteralLint.MessagePack

/-- Why a value cannot be written. -/
inductive Unwritable
  | integerTooLarge
  | tooLong
  | notUtf8 (f : Utf8.EncodeFault)
  deriving DecidableEq

/-- The low bytes of a number, the most significant first. -/
def bigEndian : Nat → Nat → Bytes
  | 0, _ => []
  | width + 1, n => UInt8.ofNat (n / Nat.pow 256 width % 256) :: bigEndian width n

/-- A byte. -/
def byte (n : Nat) : UInt8 := UInt8.ofNat n

/-- An integer. -/
def writeInt (n : Int) : Except Unwritable Bytes :=
  match n with
  | .ofNat m =>
    if m < 128 then .ok [byte m]
    else if m < 0x100 then .ok (0xcc :: bigEndian 1 m)
    else if m < 0x10000 then .ok (0xcd :: bigEndian 2 m)
    else if m < 0x100000000 then .ok (0xce :: bigEndian 4 m)
    else if m < 0x10000000000000000 then .ok (0xcf :: bigEndian 8 m)
    else .error .integerTooLarge
  | .negSucc m =>
    if m < 32 then .ok [byte (255 - m)]
    else if m < 0x80 then .ok (0xd0 :: bigEndian 1 (0xff - m))
    else if m < 0x8000 then .ok (0xd1 :: bigEndian 2 (0xffff - m))
    else if m < 0x80000000 then .ok (0xd2 :: bigEndian 4 (0xffffffff - m))
    else if m < 0x8000000000000000 then .ok (0xd3 :: bigEndian 8 (0xffffffffffffffff - m))
    else .error .integerTooLarge

/-- The head of a text of some bytes. -/
def textHead (n : Nat) : Except Unwritable Bytes :=
  if n < 32 then .ok [byte (0xa0 + n)]
  else if n < 0x100 then .ok (0xd9 :: bigEndian 1 n)
  else if n < 0x10000 then .ok (0xda :: bigEndian 2 n)
  else if n < 0x100000000 then .ok (0xdb :: bigEndian 4 n)
  else .error .tooLong

/-- The head of a byte string. -/
def bytesHead (n : Nat) : Except Unwritable Bytes :=
  if n < 0x100 then .ok (0xc4 :: bigEndian 1 n)
  else if n < 0x10000 then .ok (0xc5 :: bigEndian 2 n)
  else if n < 0x100000000 then .ok (0xc6 :: bigEndian 4 n)
  else .error .tooLong

/-- The head of an array. -/
def arrayHead (n : Nat) : Except Unwritable Bytes :=
  if n < 16 then .ok [byte (0x90 + n)]
  else if n < 0x10000 then .ok (0xdc :: bigEndian 2 n)
  else if n < 0x100000000 then .ok (0xdd :: bigEndian 4 n)
  else .error .tooLong

/-- The head of a map. -/
def mapHead (n : Nat) : Except Unwritable Bytes :=
  if n < 16 then .ok [byte (0x80 + n)]
  else if n < 0x10000 then .ok (0xde :: bigEndian 2 n)
  else if n < 0x100000000 then .ok (0xdf :: bigEndian 4 n)
  else .error .tooLong

/-- The head of an extension of some bytes. -/
def extensionHead (n : Nat) : Except Unwritable Bytes :=
  if n = 1 then .ok [0xd4]
  else if n = 2 then .ok [0xd5]
  else if n = 4 then .ok [0xd6]
  else if n = 8 then .ok [0xd7]
  else if n = 16 then .ok [0xd8]
  else if n < 0x100 then .ok (0xc7 :: bigEndian 1 n)
  else if n < 0x10000 then .ok (0xc8 :: bigEndian 2 n)
  else if n < 0x100000000 then .ok (0xc9 :: bigEndian 4 n)
  else .error .tooLong

/-- A text. -/
def writeText (t : Text) : Except Unwritable Bytes :=
  match Utf8.encode? t with
  | .error f => .error (.notUtf8 f)
  | .ok octets => (textHead octets.length).map (· ++ octets)

/-- A byte string. -/
def writeBytes (b : Bytes) : Except Unwritable Bytes := (bytesHead b.length).map (· ++ b)

/-- A key. -/
def Key.write : Key → Except Unwritable Bytes
  | .text t => writeText t
  | .bytes b => writeBytes b

/-- An extension. -/
def writeExtension (code : Int) (data : Bytes) : Except Unwritable Bytes :=
  (extensionHead data.length).map fun head => head ++ byte (code % 256).toNat :: data

/-- The shortest data of a timestamp. -/
def timestampData (seconds : Int) (nanoseconds : Nat) : Bytes :=
  if 0 ≤ seconds ∧ seconds < 0x400000000 then
    if nanoseconds = 0 ∧ seconds < 0x100000000 then bigEndian 4 seconds.toNat
    else bigEndian 8 (nanoseconds * 0x400000000 + seconds.toNat)
  else bigEndian 4 nanoseconds ++ bigEndian 8 (seconds % 0x10000000000000000).toNat

/-- Two parts, one after the other. -/
def append (a b : Except Unwritable Bytes) : Except Unwritable Bytes :=
  match a, b with
  | .ok x, .ok y => .ok (x ++ y)
  | .error e, _ => .error e
  | _, .error e => .error e

namespace Value

mutual

/-- The bytes of a value, or why it has none. -/
def write : Value → Except Unwritable Bytes
  | .nil => .ok [0xc0]
  | .bool b => .ok [if b then 0xc3 else 0xc2]
  | .int n => writeInt n
  | .real x => .ok (0xcb :: bigEndian 8 x.bits.toNat)
  | .text t => writeText t
  | .bytes b => writeBytes b
  | .array items => append (arrayHead items.length) (writeItems items)
  | .map members => append (mapHead members.length) (writeMembers members)
  | .extension code data => writeExtension code data
  | .timestamp s n => writeExtension (-1) (timestampData s n)

/-- The items of an array. -/
def writeItems : List Value → Except Unwritable Bytes
  | [] => .ok []
  | v :: rest => append (write v) (writeItems rest)

/-- The members of a map. -/
def writeMembers : List (Key × Value) → Except Unwritable Bytes
  | [] => .ok []
  | (k, v) :: rest => append k.write (append (write v) (writeMembers rest))

end

end Value

end LiteralLint.MessagePack
