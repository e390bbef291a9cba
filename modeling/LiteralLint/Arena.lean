import LiteralLint.Tree

/-!
# Arenas

An arena holds the nodes of a tree under consecutive numbers in pre-order, with the number of
each node's parent and the numbers of its children. Per-node results of a run can then be plain
tables over the numbers.

Numbers are given out from an explicit list of subtrees that wait, so the depth of a tree is no
limit; the same holds for the traversal. A tree of `n` nodes takes `n` steps to number and `2 * n`
steps to traverse.

## Main definitions

* `Arena.ofTree`: the arena of a tree.
* `Arena.ancestors`: the numbers above a node, nearest first.
* `Arena.nearest?`: the nearest node above that satisfies a condition.
* `Arena.walk`: every node entered before and left after the nodes below it.
-/

namespace LiteralLint

/-- The nodes of a tree under consecutive numbers. -/
structure Arena (α : Type) where
  nodes : Array α
  parents : Array (Option Nat)
  children : Array (List Nat)

namespace Arena

variable {α : Type}

/-- The arena without nodes. -/
def empty : Arena α := ⟨#[], #[], #[]⟩

/-- The number of nodes. -/
def size (a : Arena α) : Nat := a.nodes.size

/-- The arena with one more node, below a parent that it already holds. -/
def add (a : Arena α) (label : α) (parent : Option Nat) : Arena α :=
  let children :=
    match parent with
    | none => a.children
    | some p => a.children.modify p fun cs => cs ++ [a.size]
  ⟨a.nodes.push label, a.parents.push parent, children.push []⟩

/-- A subtree that waits for its numbers, with the number of its parent. -/
abbrev Waiting (α : Type) := Tree α × Option Nat

/-- The arena with the subtrees that wait, first in first. -/
def addAll : Nat → List (Waiting α) → Arena α → Arena α
  | 0, _, a => a
  | _ + 1, [], a => a
  | steps + 1, (t, parent) :: rest, a =>
    addAll steps (t.children.map (fun c => (c, some a.size)) ++ rest) (a.add t.label parent)

/-- The arena of a tree. -/
def ofTree (t : Tree α) : Arena α := addAll t.size [(t, none)] empty

/-- The node with a number. -/
def node? (a : Arena α) (i : Nat) : Option α := a.nodes[i]?

/-- The number of the parent of a node; none for the root. -/
def parent? (a : Arena α) (i : Nat) : Option Nat := a.parents[i]?.join

/-- The numbers of the children of a node, in order. -/
def childrenOf (a : Arena α) (i : Nat) : List Nat := a.children[i]?.getD []

/-- The numbers above a node, nearest first, at most as many as a bound. -/
def ancestorsUpTo (a : Arena α) : Nat → Nat → List Nat
  | 0, _ => []
  | bound + 1, i =>
    match a.parent? i with
    | none => []
    | some p => p :: ancestorsUpTo a bound p

/-- The numbers above a node, nearest first. A parent has a smaller number, so a node has no more
ancestors than its number. -/
def ancestors (a : Arena α) (i : Nat) : List Nat := a.ancestorsUpTo i i

/-- Whether a number has a node that satisfies a condition. -/
def satisfies (a : Arena α) (p : α → Bool) (i : Nat) : Bool := (a.node? i).any p

/-- The nearest node above that satisfies a condition. -/
def nearest? (a : Arena α) (i : Nat) (p : α → Bool) : Option Nat :=
  (a.ancestors i).find? (a.satisfies p)

/-- The first child that satisfies a condition. -/
def child? (a : Arena α) (i : Nat) (p : α → Bool) : Option Nat :=
  (a.childrenOf i).find? (a.satisfies p)

/-! ### Traversal -/

/-- One event of a traversal. -/
inductive Event
  | enter (i : Nat)
  | leave (i : Nat)
  deriving DecidableEq, Repr

/-- The events of a list of events that wait, where a node to enter is followed by its children
and by leaving it. -/
def walkFrom (a : Arena α) : Nat → List Event → List Event
  | 0, _ => []
  | _ + 1, [] => []
  | steps + 1, .leave i :: rest => .leave i :: walkFrom a steps rest
  | steps + 1, .enter i :: rest =>
    .enter i :: walkFrom a steps ((a.childrenOf i).map .enter ++ .leave i :: rest)

/-- Every node entered before and left after the nodes below it. -/
def walk (a : Arena α) : List Event :=
  if a.size = 0 then [] else a.walkFrom (2 * a.size) [.enter 0]

end Arena

end LiteralLint
