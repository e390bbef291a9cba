import LiteralLint.Classification

/-!
# Linting a program

A run walks over a program once. Containers are marked when a node is entered; a node that carries
text is judged when it is left, and its complaint, if it has one, is reported at once. A node on
which something fails is skipped, and the run goes on.

## Main definitions

* `Lint.Run`: what a run has gathered.
* `Lint.step`: one event of the walk.
* `Lint.run`: the whole walk.
-/

namespace LiteralLint.Lint

/-- Something worth telling a user who wants to know how a run went. -/
inductive Note
  /-- An opening with a name was entered that wraps translated markup. -/
  | wrapper (name : Datum) (node : Nat)
  /-- The type oracle was asked. -/
  | asked (q : Question)
  /-- A node was skipped. -/
  | skipped (kind : NodeKind) (node : Nat) (fault : NodeFault)

/-- What a run has gathered. -/
structure Run where
  marks : Marks := {}
  table : VerdictTable
  findings : List Finding := []
  notes : List Note := []

/-- What a run is about. -/
structure Case where
  program : Program
  config : Configuration
  oracle : Option Oracle := none

/-- The hearing of a node with the marks made so far. -/
def Case.hearing (c : Case) (marks : Marks) : Hearing := ⟨c.program, c.config, marks, c.oracle⟩

/-- The note on an opening that wraps translated markup. -/
def wrapperNotes (n : Node) (i : Nat) : List Note :=
  if n.kind == .elementOpening then
    match n.name.isOneOf Baseline.translationComponents with
    | .ok true => [.wrapper n.name i]
    | _ => []
  else []

/-- The run after a node is entered. -/
def enter (c : Case) (r : Run) (i : Nat) : Run :=
  match c.program.node? i with
  | none => r
  | some n =>
    match r.marks.enter c.program c.config i with
    | (marks, none) => { r with marks := marks, notes := r.notes ++ wrapperNotes n i }
    | (marks, some f) => { r with marks := marks, notes := r.notes ++ [.skipped n.kind i f] }

/-- The run after a node is left. -/
def leave (c : Case) (r : Run) (i : Nat) : Run :=
  match c.program.node? i with
  | none => r
  | some n =>
    if !n.kind.bearsText then r
    else
      let (outcome, s) := ((c.hearing r.marks).resolve i).run ⟨r.table, []⟩
      let r := { r with table := s.table, notes := r.notes ++ s.questions.map .asked }
      match outcome with
      | .error f => { r with notes := r.notes ++ [.skipped n.kind i f] }
      | .ok none => r
      | .ok (some complaint) =>
        match complaint.toFinding n.span with
        | .ok finding => { r with findings := r.findings ++ [finding] }
        | .error f => { r with notes := r.notes ++ [.skipped n.kind i f] }

/-- The run after one event. -/
def step (c : Case) (r : Run) : Arena.Event → Run
  | .enter i => enter c r i
  | .leave i => leave c r i

/-- A run before its first event. -/
def start (c : Case) : Run := { table := .ofSize c.program.size }

/-- The run over a whole program. -/
def run (c : Case) : Run := c.program.walk.foldl (step c) (start c)

/-- The findings of a program, in the order in which their nodes are left. -/
def findings (c : Case) : List Finding := (run c).findings

end LiteralLint.Lint
