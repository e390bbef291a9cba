import LiteralLint.Complaint

/-!
# The verdict table

Every node starts without a verdict. It can be exempted, which is final, or complained about,
which a later complaint replaces and an exemption revokes. Once a node is frozen nothing about it
changes any more. A pending verdict carries its complaint, and no other verdict has one.

## Main definitions

* `Verdict`: none, exempt, or pending with a complaint.
* `Entry`: a verdict and whether it is frozen, with the three transitions.
* `VerdictTable`: the entries of the nodes of a program.
-/

namespace LiteralLint

/-- What has been decided about a node. -/
inductive Verdict
  | unclassified
  | exempt
  | pending (c : Complaint)

/-- A verdict and whether it can still change. -/
structure Entry where
  verdict : Verdict := .unclassified
  frozen : Bool := false

namespace Entry

/-- The entry after an exemption. -/
def exempt (e : Entry) : Entry := if e.frozen then e else { e with verdict := .exempt }

/-- The entry after a complaint: recorded or replaced, unless the node is exempt. -/
def complain (c : Complaint) (e : Entry) : Entry :=
  if e.frozen then e
  else
    match e.verdict with
    | .exempt => e
    | _ => { e with verdict := .pending c }

/-- The entry from now on. -/
def freeze (e : Entry) : Entry := { e with frozen := true }

/-- The complaint of a pending verdict. -/
def complaint? (e : Entry) : Option Complaint :=
  match e.verdict with
  | .pending c => some c
  | _ => none

end Entry

/-- The entries of the nodes of a program, by number. -/
structure VerdictTable where
  entries : Array Entry

namespace VerdictTable

/-- The table of a program with some number of nodes. -/
def ofSize (n : Nat) : VerdictTable := ⟨Array.replicate n {}⟩

/-- The entry of a node. -/
def entry? (t : VerdictTable) (i : Nat) : Option Entry := t.entries[i]?

/-- The table with one entry changed. -/
def update (t : VerdictTable) (i : Nat) (f : Entry → Entry) : VerdictTable :=
  ⟨t.entries.modify i f⟩

/-- The table after a node is exempted. -/
def exempt (t : VerdictTable) (i : Nat) : VerdictTable := t.update i Entry.exempt

/-- The table after a complaint about a node. -/
def complain (t : VerdictTable) (i : Nat) (c : Complaint) : VerdictTable :=
  t.update i (Entry.complain c)

/-- The table after a node is frozen. -/
def freeze (t : VerdictTable) (i : Nat) : VerdictTable := t.update i Entry.freeze

/-- The complaint pending against a node. -/
def complaint? (t : VerdictTable) (i : Nat) : Option Complaint := (t.entry? i).bind Entry.complaint?

end VerdictTable

end LiteralLint
