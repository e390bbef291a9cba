/-!
# Trees

Ordered trees with a label at every node. The pre-order of a tree lists the label of a node
before the pre-orders of its children, from first to last.
-/

namespace LiteralLint

/-- An ordered tree with labels. -/
inductive Tree (α : Type) where
  | node (label : α) (children : List (Tree α))

namespace Tree

variable {α : Type}

/-- The label of the root. -/
def label : Tree α → α
  | .node l _ => l

/-- The subtrees below the root. -/
def children : Tree α → List (Tree α)
  | .node _ cs => cs

/-- The tree with another label at its root. -/
def withLabel (f : α → α) : Tree α → Tree α
  | .node l cs => .node (f l) cs

mutual

/-- The number of nodes. -/
def size : Tree α → Nat
  | .node _ cs => forestSize cs + 1

/-- The number of nodes of a list of trees. -/
def forestSize : List (Tree α) → Nat
  | [] => 0
  | t :: rest => size t + forestSize rest

end

mutual

/-- The labels, each before those below it. -/
def preorder : Tree α → List α
  | .node l cs => l :: forestPreorder cs

/-- The labels of a list of trees, one tree after the other. -/
def forestPreorder : List (Tree α) → List α
  | [] => []
  | t :: rest => preorder t ++ forestPreorder rest

end

/-! ### Sizes -/

theorem size_pos (t : Tree α) : 0 < t.size := by
  cases t; simp [size]

theorem size_eq (t : Tree α) : t.size = forestSize t.children + 1 := by
  cases t; simp [size, children]

theorem forestSize_append (ts us : List (Tree α)) :
    forestSize (ts ++ us) = forestSize ts + forestSize us := by
  induction ts with
  | nil => simp [forestSize]
  | cons t rest ih => simp [forestSize, ih]; omega

theorem forestSize_filter_le (p : Tree α → Bool) (ts : List (Tree α)) :
    forestSize (ts.filter p) ≤ forestSize ts := by
  induction ts with
  | nil => simp
  | cons t rest ih =>
    by_cases h : p t <;> simp [h, forestSize] <;> omega

theorem size_le_forestSize {t : Tree α} {ts : List (Tree α)} (h : t ∈ ts) :
    t.size ≤ forestSize ts := by
  induction ts with
  | nil => cases h
  | cons u rest ih =>
    rcases List.mem_cons.1 h with rfl | h
    · simp [forestSize]
    · have := ih h
      simp [forestSize]; omega

theorem size_lt_of_mem_children {t u : Tree α} (h : u ∈ t.children) : u.size < t.size := by
  have hle := size_le_forestSize h
  have hsize := size_eq t
  omega

end Tree

end LiteralLint
