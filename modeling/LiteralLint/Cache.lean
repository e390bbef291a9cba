import LiteralLint.Finding.Record
import LiteralLint.MessagePack.Reader
import LiteralLint.MessagePack.Writer
import LiteralLint.Failure

/-!
# Caches

A cache holds what was found in the files of a directory, with the fingerprint of the options that
were in force. A cache that is read may come from anywhere, so its entries keep the values that
were stored, whatever kind they are of.

## Main definitions

* `Cache`, `Cache.Entry`.
* `Cache.toValue`: the document of a cache.
* `Cache.ofValue`: the cache of a document, if it is of this format and for these options.
-/

namespace LiteralLint

open MessagePack (Value Key)

/-- What is kept about a file, as it was stored. -/
structure Cache.Entry where
  modified : Value
  size : Value
  language : Value
  findings : Value
  digest : Value := .text []

/-- What is kept about the files of a directory. -/
structure Cache where
  version : Text
  fingerprint : Text
  createdAt : Value
  files : List (Key × Cache.Entry) := []

namespace Cache

/-- The version of the format. -/
def formatVersion : Text := "1.0"

/-- A cache that knows no file yet. -/
def fresh (fingerprint now : Text) : Cache := ⟨formatVersion, fingerprint, .text now, []⟩

/-- The entry of a file. -/
def entry? (c : Cache) (name : Text) : Option Entry := c.files.lookup (.text name)

/-- The cache with the entry of a file set. -/
def setEntry (c : Cache) (name : Text) (e : Entry) : Cache :=
  { c with files := MessagePack.setMember (.text name) e c.files }

/-- The cache without files other than some. -/
def keepOnly (c : Cache) (names : List Text) : Cache :=
  { c with files := c.files.filter fun m => names.any fun n => m.1 == .text n }

/-! ### Documents -/

/-- The document of an entry. -/
def Entry.toValue (e : Entry) : Value :=
  .map [(.text "mtime", e.modified), (.text "size", e.size), (.text "language", e.language),
    (.text "findings", e.findings), (.text "content_hash", e.digest)]

/-- The document of a cache. -/
def toValue (c : Cache) : Value :=
  .map [(.text "version", .text c.version), (.text "fingerprint", .text c.fingerprint),
    (.text "created_at", c.createdAt),
    (.text "files", .map (c.files.map fun (k, e) => (k, e.toValue)))]

/-- Why a document is no cache. -/
inductive Fault
  | missing (name : Text)
  /-- An entry of a kind that has no members. -/
  | notSubscriptable (v : Value)

/-- The wording for a value in which a name is looked up. -/
def subscriptMessage (v : Value) : Text :=
  match v with
  | .text _ => "string indices must be integers, not 'str'"
  | .bytes _ => "byte indices must be integers or slices, not str"
  | .array _ => "list indices must be integers or slices, not str"
  | .extension _ _ => "tuple indices must be integers or slices, not str"
  | v => Text.cat ["'", v.kindName, "' object is not subscriptable"]

/-- The wording of a fault. -/
def Fault.message : Fault → Text
  | .missing name => Text.quoted name
  | .notSubscriptable v => subscriptMessage v

/-- A member that has to be there. -/
def needed (name : Text) (members : List (Key × Value)) : Except Fault Value :=
  match Value.find? name members with
  | some v => .ok v
  | none => .error (.missing name)

/-- The entry of a document. -/
def Entry.ofValue : Value → Except Fault Entry
  | .map members => do
    let modified ← needed "mtime" members
    let size ← needed "size" members
    let language ← needed "language" members
    let findings ← needed "findings" members
    return ⟨modified, size, language, findings,
      (Value.find? "content_hash" members).getD (.text [])⟩
  | v => .error (.notSubscriptable v)

/-- The entries of documents, or the first fault. -/
def entriesOf : List (Key × Value) → Except Fault (List (Key × Entry))
  | [] => .ok []
  | (k, v) :: rest =>
    match Entry.ofValue v with
    | .error f => .error f
    | .ok e => (entriesOf rest).map ((k, e) :: ·)

/-- What a document turns out to be. -/
inductive Loaded
  | cache (c : Cache)
  | outdated
  | ofOtherOptions
  | faulty (f : Fault)
  /-- A value of a kind that has no members, where members are needed. -/
  | noMembers (message : Text)

/-- Whether a value is a given text. -/
def isText (t : Text) : Option Value → Bool
  | some (.text u) => t == u
  | _ => false

/-- The members of the files of a document. -/
def filesOf (members : List (Key × Value)) : Except Text (List (Key × Value)) :=
  match Value.find? "files" members with
  | none => .ok []
  | some (.map files) => .ok files
  | some v => .error (Text.cat ["'", v.kindName, "' object has no attribute 'items'"])

/-- The cache of members, once its version and fingerprint are right. -/
def ofMembers (fingerprint : Text) (members : List (Key × Value)) : Loaded :=
  match filesOf members with
  | .error message => .noMembers message
  | .ok files =>
    match entriesOf files with
    | .error f => .faulty f
    | .ok entries =>
      match needed "created_at" members with
      | .error f => .faulty f
      | .ok createdAt => .cache ⟨formatVersion, fingerprint, createdAt, entries⟩

/-- What a document is, for options with a fingerprint. -/
def ofValue (fingerprint : Text) : Value → Loaded
  | .map members =>
    if !isText formatVersion (Value.find? "version" members) then .outdated
    else if !isText fingerprint (Value.find? "fingerprint" members) then .ofOtherOptions
    else ofMembers fingerprint members
  | v => .noMembers (Text.cat ["'", v.kindName, "' object has no attribute 'get'"])

/-! ### Findings -/

/-- The values that an entry holds as findings. -/
def itemsOf : Value → Except Failure (List Value)
  | .array xs => .ok xs
  | .map ms => .ok (ms.map fun m => .ofKey m.1)
  | .text t => .ok (t.map fun c => .text [c])
  | .bytes b => .ok (b.map fun o => .int o.toNat)
  | .extension code data => .ok [.int code, .bytes data]
  | v => .error (.wrongKind (Text.cat ["'", v.kindName, "' object is not iterable"]))

/-- The findings of values, or the failure of the first that is none. -/
def findingsOf : List Value → Except Failure (List Finding)
  | [] => .ok []
  | v :: rest =>
    match Finding.ofValue v with
    | .error fs => .error (.shape "Finding" fs)
    | .ok f => (findingsOf rest).map (f :: ·)

namespace Entry

/-- The findings of an entry. -/
def findingList (e : Entry) : Except Failure (List Finding) :=
  match itemsOf e.findings with
  | .error f => .error f
  | .ok values => findingsOf values

/-- The language of an entry. -/
def language? (e : Entry) : Except Failure (Option Text) :=
  (Shape.storedText? [.key "language"] e.language).mapError fun fs => .shape "FileReport" fs

/-- The entry of a file that was just linted. -/
def ofFindings (modified : Binary64) (size : Nat) (language : Text) (findings : List Finding)
    (digest : Text) : Entry :=
  { modified := .real modified
    size := .int size
    language := .text language
    findings := .array (findings.map fun f => Value.ofJson f.toJson)
    digest := .text digest }

end Entry

end Cache

end LiteralLint
