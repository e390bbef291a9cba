import LiteralLint.Text

/-!
# UTF-8

Bytes are read as a sequence of pieces: code points, and faults where the bytes are not UTF-8. A
fault covers the longest initial part of a well-formed sequence that is there, or one byte if not
even the first byte can start a sequence. Reading for display puts U+FFFD for each fault;
strict reading reports the first one.

## Main definitions

* `pieces`: the reading of a byte string, one structural pass over the bytes.
* `decode`: the text with U+FFFD for every fault.
* `decode?`: the text, or the first fault.
* `encode`: the bytes of a text.
* `encode?`: the same, or the first stretch of code points that have no UTF-8 form.
-/

namespace LiteralLint

/-- A byte string. -/
abbrev Bytes := List UInt8

namespace Utf8

/-- Why bytes are not UTF-8. -/
inductive FaultKind
  | startByte
  | continuationByte
  | endOfData
  deriving DecidableEq, Repr

/-- A stretch of bytes that is not UTF-8. -/
structure Fault where
  kind : FaultKind
  /-- The first byte of the stretch. -/
  byte : UInt8
  start : Nat
  length : Nat
  deriving DecidableEq, Repr

/-- One unit of a reading. -/
inductive Piece
  | scalar (c : CodePoint)
  | fault (f : Fault)
  deriving DecidableEq, Repr

/-- What is open while a sequence of several bytes is read. -/
structure Partial where
  /-- The byte that started the sequence and its position. -/
  lead : UInt8
  start : Nat
  /-- Bytes read so far, the first included. -/
  length : Nat
  /-- Continuation bytes still missing. -/
  missing : Nat
  /-- Bounds of the next continuation byte. -/
  low : UInt8
  high : UInt8
  /-- The payload bits read so far. -/
  payload : Nat

/-- What a byte means when no sequence is open. -/
inductive Opening
  | ascii (c : CodePoint)
  | lead (missing : Nat) (low high : UInt8) (payload : Nat)
  | never

/-- The bounds of the second byte exclude overlong forms, surrogates and code points past the end. -/
def opening (b : UInt8) : Opening :=
  if b < 0x80 then .ascii b.toNat
  else if b < 0xC2 then .never
  else if b < 0xE0 then .lead 1 0x80 0xBF (b.toNat - 0xC0)
  else if b = 0xE0 then .lead 2 0xA0 0xBF 0
  else if b = 0xED then .lead 2 0x80 0x9F 0xD
  else if b < 0xF0 then .lead 2 0x80 0xBF (b.toNat - 0xE0)
  else if b = 0xF0 then .lead 3 0x90 0xBF 0
  else if b < 0xF4 then .lead 3 0x80 0xBF (b.toNat - 0xF0)
  else if b = 0xF4 then .lead 3 0x80 0x8F 4
  else .never

/-- The reading of one byte when no sequence is open: what it yields and what it leaves open. -/
def step (pos : Nat) (b : UInt8) : List Piece × Option Partial :=
  match opening b with
  | .ascii c => ([.scalar c], none)
  | .lead missing low high payload => ([], some ⟨b, pos, 1, missing, low, high, payload⟩)
  | .never => ([.fault ⟨.startByte, b, pos, 1⟩], none)

/-- The reading of the bytes from a position, given what is open. -/
def piecesFrom (pos : Nat) (unfinished : Option Partial) : Bytes → List Piece
  | [] =>
    match unfinished with
    | none => []
    | some p => [.fault ⟨.endOfData, p.lead, p.start, p.length⟩]
  | b :: rest =>
    match unfinished with
    | none =>
      let (out, next) := step pos b
      out ++ piecesFrom (pos + 1) next rest
    | some p =>
      if p.low ≤ b && b ≤ p.high then
        let payload := p.payload * 64 + (b.toNat - 0x80)
        if p.missing ≤ 1 then .scalar payload :: piecesFrom (pos + 1) none rest
        else
          piecesFrom (pos + 1)
            (some { p with
              length := p.length + 1, missing := p.missing - 1
              low := 0x80, high := 0xBF, payload := payload }) rest
      else
        let (out, next) := step pos b
        .fault ⟨.continuationByte, p.lead, p.start, p.length⟩ ::
          (out ++ piecesFrom (pos + 1) next rest)

/-- The reading of a byte string. -/
def pieces (bs : Bytes) : List Piece := piecesFrom 0 none bs

/-- The code point that stands for a fault. -/
def replacement : CodePoint := 0xFFFD

/-- The code point shown for a piece. -/
def Piece.shown : Piece → CodePoint
  | .scalar c => c
  | .fault _ => replacement

/-- The text of a byte string, with U+FFFD for every fault. -/
def decode (bs : Bytes) : Text := (pieces bs).map Piece.shown

/-- The text of pieces without a fault, or the first fault. -/
def strict : List Piece → Except Fault Text
  | [] => .ok []
  | .scalar c :: rest => (strict rest).map (c :: ·)
  | .fault f :: _ => .error f

/-- The text of a byte string, or its first fault. -/
def decode? (bs : Bytes) : Except Fault Text := strict (pieces bs)

/-- The bytes of one code point; a surrogate is written by the same three-byte form. -/
def encodeOne (c : CodePoint) : Bytes :=
  if c < 0x80 then [c.toUInt8]
  else if c < 0x800 then [(0xC0 + c / 64).toUInt8, (0x80 + c % 64).toUInt8]
  else if c < 0x10000 then
    [(0xE0 + c / 4096).toUInt8, (0x80 + c / 64 % 64).toUInt8, (0x80 + c % 64).toUInt8]
  else
    [(0xF0 + c / 262144).toUInt8, (0x80 + c / 4096 % 64).toUInt8,
      (0x80 + c / 64 % 64).toUInt8, (0x80 + c % 64).toUInt8]

/-- The bytes of a text. -/
def encode (t : Text) : Bytes := t.flatMap encodeOne

/-- A stretch of code points that have no UTF-8 form. -/
structure EncodeFault where
  /-- The first code point of the stretch. -/
  first : CodePoint
  start : Nat
  length : Nat
  deriving DecidableEq

/-- The first such stretch from a position. -/
def encodeFaultFrom (pos : Nat) : Text → Option EncodeFault
  | [] => none
  | c :: rest =>
    if Text.isScalar c then encodeFaultFrom (pos + 1) rest
    else some ⟨c, pos, (rest.takeWhile fun c => !Text.isScalar c).length + 1⟩

/-- The bytes of a text, if every code point has a UTF-8 form. -/
def encode? (t : Text) : Except EncodeFault Bytes :=
  match encodeFaultFrom 0 t with
  | none => .ok (encode t)
  | some f => .error f

/-- How a fault of encoding is worded. -/
def EncodeFault.message (f : EncodeFault) : Text :=
  let place : Text :=
    if f.length = 1 then
      Text.cat ["character '\\u", Text.hex 4 f.first, "' in position ", Text.ofNat f.start]
    else
      Text.cat ["characters in position ", Text.ofNat f.start, "-",
        Text.ofNat (f.start + f.length - 1)]
  Text.cat ["'utf-8' codec can't encode ", place, ": surrogates not allowed"]

/-- How a fault is worded. -/
def Fault.message (f : Fault) : Text :=
  let place : Text :=
    if f.length = 1 then
      Text.cat ["byte 0x", Text.hex 2 f.byte.toNat, " in position ", Text.ofNat f.start]
    else
      Text.cat ["bytes in position ", Text.ofNat f.start, "-",
        Text.ofNat (f.start + f.length - 1)]
  let reason : Text :=
    match f.kind with
    | .startByte => "invalid start byte"
    | .continuationByte => "invalid continuation byte"
    | .endOfData => "unexpected end of data"
  Text.cat ["'utf-8' codec can't decode ", place, ": ", reason]

end Utf8

end LiteralLint
