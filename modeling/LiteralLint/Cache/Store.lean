import LiteralLint.Cache
import LiteralLint.Digest.Sha256
import LiteralLint.Job

/-!
# Keeping caches

A cache is kept in a file below the directory it is about. A file counts as unchanged if its time
and size are those of its entry, or if its size and the digest of its contents are; in the second
case the entry takes the new time over.

## Main definitions

* `Cache.load`, `Cache.save`.
* `Cache.digest`: the digest of the contents of a file.
* `Cache.Freshness`, `Cache.freshness`: whether a file has changed.
-/

namespace LiteralLint.Cache

open MessagePack (Value Key)

/-- The directory of the cache of a directory. -/
def directoryOf (root : Path) : Path := root.child ".i18nlint"

/-- The file of the cache of a directory. -/
def pathOf (root : Path) : Path := (directoryOf root).child "lint_cache.msgpack"

/-- Tells why there is no cache. -/
def unreadable (reason : Text) : Job (Option Cache) := do
  Job.tell (.cacheUnreadable reason)
  return none

/-- The cache of a directory, if there is one for options with a fingerprint. -/
def load (root : Path) (fingerprint : Text) : Job (Option Cache) := do
  let fs ← Job.files
  if !fs.exists (pathOf root) then return none
  else
    match fs.read (pathOf root) with
    | .error f => unreadable f.message
    | .ok bytes =>
      match MessagePack.read bytes with
      | .error f => unreadable f.message
      | .ok v =>
        match ofValue fingerprint v with
        | .cache c => return some c
        | .outdated =>
          Job.tell .cacheOutdated
          return none
        | .ofOtherOptions =>
          Job.tell .cacheOfOtherOptions
          return none
        | .faulty f => unreadable f.message
        | .noMembers message => throw (.noRecord message)

/-- The failure to write a document. -/
def unwritable : MessagePack.Unwritable → Failure
  | .integerTooLarge => .tooLarge "Integer value out of range"
  | .tooLong => .refused "the value is too long"
  | .notUtf8 f => .notEncodable f

/-- Puts the bytes of a document into the file of a cache. If the document has none, the file is
left empty. -/
def store (root : Path) (c : Cache) : Job Unit := do
  let fs ← Job.files
  let bytes := c.toValue.write
  match fs.write (pathOf root) { bytes := bytes.toOption.getD [], modified := .zero false } with
  | .error f => Job.tell (.cacheUnsaved f.message)
  | .ok fs =>
    Job.setFiles fs
    match bytes with
    | .ok _ => Job.tell (.cacheSaved c.files.length)
    | .error u => throw (unwritable u)

/-- Keeps a cache in the file of a directory. A file system that refuses is told of. -/
def save (root : Path) (c : Cache) : Job Unit := do
  let fs ← Job.files
  match fs.makeDirectories (directoryOf root) with
  | .error f => Job.tell (.cacheUnsaved f.message)
  | .ok fs =>
    Job.setFiles fs
    store root c

/-- The digest of the contents of a file; empty if they cannot be read. -/
def digest (fs : FileSystem) (p : Path) : Text :=
  match fs.read p with
  | .ok bytes => Sha256.hexDigest bytes
  | .error _ => []

/-- Whether a file has changed since its entry was made. -/
inductive Freshness
  | stale
  | fresh (e : Entry)

/-- Whether a file has changed, by its size, its time and its digest. An entry without a digest
is not saved by one. -/
def freshnessOf (fs : FileSystem) (p : Path) (f : File) (e : Entry) : Freshness :=
  if !e.size.eqInt f.bytes.length then .stale
  else if e.modified.eqReal f.modified then .fresh e
  else if e.digest.isSubstantial then
    let now := digest fs p
    if !now.isEmpty && isText now (some e.digest) then
      .fresh { e with modified := .real f.modified }
    else .stale
  else .stale

/-- Whether the file of a path has changed since its entry in a cache was made. -/
def freshness (fs : FileSystem) (p : Path) (name : Text) (c : Cache) : Freshness :=
  match c.entry? name, fs.file? p with
  | some e, some f => freshnessOf fs p f e
  | _, _ => .stale

end LiteralLint.Cache
