import LiteralLint.Arena

/-!
# The arena of a tree

`Arena.ofTree` gives numbers out from a list of subtrees that wait, and `Arena.walk` traverses from
a list of events that wait, so that neither recurses with the depth of a tree. Statements about
trees want the recursion instead. This module ties the two together: the arena of a tree *holds*
the tree at number zero, which says node by node what the three tables contain, and its walk is the
recursive traversal.

Everything later modules need about numbers follows from `Arena.Holds` by induction on the tree;
nobody has to look at the work lists again.

## Main definitions

* `Tree.eventsFrom`, `Tree.exitsFrom`, `Tree.postorderFrom`: the traversal of a tree whose root has
  a given number, by recursion.
* `Tree.subtrees`: a tree and the trees below it, in pre-order.
* `Tree.Everywhere`: a property of every node together with the subtrees below it.
* `Arena.Holds`: an arena contains a tree, with its root at a given number.
* `Tree.map`, `Arena.map`: other labels.

## Main results

* `Arena.holds_ofTree`: the arena of a tree holds it.
* `Arena.walk_ofTree`: the walk of the arena of a tree is the recursive traversal.
* `Arena.parent?_lt`: a parent has a smaller number than its child.
* `Arena.ancestors_split`: what follows an ancestor in the list are its own ancestors.
-/

namespace LiteralLint

namespace Tree

variable {α : Type}

/-! ## Traversal by recursion -/

mutual

/-- The events of a tree whose root has number `n`: the root is entered before and left after the
nodes below it. -/
def eventsFrom (n : Nat) : Tree α → List Arena.Event
  | .node _ cs => .enter n :: (forestEventsFrom (n + 1) cs ++ [.leave n])

/-- The events of trees one after the other, the first of which has its root at `n`. -/
def forestEventsFrom (n : Nat) : List (Tree α) → List Arena.Event
  | [] => []
  | t :: rest => eventsFrom n t ++ forestEventsFrom (n + t.size) rest

end

mutual

/-- The numbers of a tree in the order in which its nodes are left, each with the first number past
the nodes below it. -/
def exitsFrom (n : Nat) : Tree α → List (Nat × Nat)
  | .node _ cs => forestExitsFrom (n + 1) cs ++ [(n, n + 1 + forestSize cs)]

/-- The exits of trees one after the other. -/
def forestExitsFrom (n : Nat) : List (Tree α) → List (Nat × Nat)
  | [] => []
  | t :: rest => exitsFrom n t ++ forestExitsFrom (n + t.size) rest

end

mutual

/-- The numbers of a tree, each after those below it. -/
def postorderFrom (n : Nat) : Tree α → List Nat
  | .node _ cs => forestPostorderFrom (n + 1) cs ++ [n]

/-- The numbers of trees one after the other, each after those below it. -/
def forestPostorderFrom (n : Nat) : List (Tree α) → List Nat
  | [] => []
  | t :: rest => postorderFrom n t ++ forestPostorderFrom (n + t.size) rest

end

mutual

theorem exitsFrom_map_fst (n : Nat) :
    ∀ t : Tree α, (t.exitsFrom n).map Prod.fst = t.postorderFrom n
  | .node _ cs => by
      rw [exitsFrom, postorderFrom, List.map_append, forestExitsFrom_map_fst (n + 1) cs]
      rfl

theorem forestExitsFrom_map_fst (n : Nat) :
    ∀ cs : List (Tree α), (forestExitsFrom n cs).map Prod.fst = forestPostorderFrom n cs
  | [] => rfl
  | t :: rest => by
      rw [forestExitsFrom, forestPostorderFrom, List.map_append, exitsFrom_map_fst n t,
        forestExitsFrom_map_fst (n + t.size) rest]

end

mutual

/-- An exit's numbers lie in the range of the tree's own. -/
theorem exitsFrom_bounds {n : Nat} {x : Nat × Nat} (t : Tree α) (h : x ∈ t.exitsFrom n) :
    n ≤ x.1 ∧ x.1 < x.2 ∧ x.2 ≤ n + t.size := by
  cases t with
  | node l cs =>
      rw [exitsFrom] at h
      rw [size]
      rcases List.mem_append.1 h with h | h
      · have := forestExitsFrom_bounds cs h
        omega
      · rcases List.mem_singleton.1 h with rfl
        dsimp only
        omega

theorem forestExitsFrom_bounds {n : Nat} {x : Nat × Nat} (cs : List (Tree α))
    (h : x ∈ forestExitsFrom n cs) :
    n ≤ x.1 ∧ x.1 < x.2 ∧ x.2 ≤ n + forestSize cs := by
  cases cs with
  | nil => cases h
  | cons t rest =>
      rw [forestExitsFrom] at h
      rw [forestSize]
      rcases List.mem_append.1 h with h | h
      · have := exitsFrom_bounds t h
        omega
      · have := forestExitsFrom_bounds rest h
        omega

end

mutual

/-- A tree's numbers in the order in which nodes are left are its numbers, each once. -/
theorem postorderFrom_perm (n : Nat) :
    ∀ t : Tree α, (t.postorderFrom n).Perm (List.range' n t.size)
  | .node _ cs => by
      rw [postorderFrom, size, List.range'_succ]
      exact List.perm_append_comm.trans ((forestPostorderFrom_perm (n + 1) cs).cons n)

theorem forestPostorderFrom_perm (n : Nat) :
    ∀ cs : List (Tree α), (forestPostorderFrom n cs).Perm (List.range' n (forestSize cs))
  | [] => List.Perm.refl _
  | t :: rest => by
      have happend : List.range' n (t.size + forestSize rest) =
          List.range' n t.size ++ List.range' (n + t.size) (forestSize rest) :=
        List.range'_append_1.symm
      rw [forestPostorderFrom, forestSize, happend]
      exact (postorderFrom_perm n t).append (forestPostorderFrom_perm (n + t.size) rest)

end

/-- The numbers of the roots of trees one after the other. -/
def rootsFrom (n : Nat) : List (Tree α) → List Nat
  | [] => []
  | t :: rest => n :: rootsFrom (n + t.size) rest

theorem le_of_mem_rootsFrom {cs : List (Tree α)} {n i : Nat} (h : i ∈ rootsFrom n cs) : n ≤ i := by
  induction cs generalizing n with
  | nil => cases h
  | cons t rest ih =>
      rcases List.mem_cons.1 h with rfl | h
      · exact Nat.le_refl _
      · exact Nat.le_trans (Nat.le_add_right _ _) (ih h)

/-! ## Subtrees -/

mutual

/-- A tree and the trees below it, each before those below it. -/
def subtrees : Tree α → List (Tree α)
  | .node l cs => .node l cs :: forestSubtrees cs

/-- The trees of a list and those below them, one after the other. -/
def forestSubtrees : List (Tree α) → List (Tree α)
  | [] => []
  | t :: rest => subtrees t ++ forestSubtrees rest

end

/-! ## Properties of every node -/

mutual

/-- A property of every label together with the subtrees below it. -/
def Everywhere (P : α → List (Tree α) → Prop) : Tree α → Prop
  | .node l cs => P l cs ∧ ForestEverywhere P cs

/-- A property of every label of some trees together with the subtrees below it. -/
def ForestEverywhere (P : α → List (Tree α) → Prop) : List (Tree α) → Prop
  | [] => True
  | t :: rest => Everywhere P t ∧ ForestEverywhere P rest

end

mutual

/-- What holds of all labels and subtrees holds everywhere. -/
theorem everywhere_of_forall {P : α → List (Tree α) → Prop} (h : ∀ l cs, P l cs) :
    ∀ t : Tree α, t.Everywhere P
  | .node l cs => ⟨h l cs, forestEverywhere_of_forall h cs⟩

theorem forestEverywhere_of_forall {P : α → List (Tree α) → Prop} (h : ∀ l cs, P l cs) :
    ∀ cs : List (Tree α), ForestEverywhere P cs
  | [] => trivial
  | t :: rest => ⟨everywhere_of_forall h t, forestEverywhere_of_forall h rest⟩

end

theorem everywhere_of_mem {P : α → List (Tree α) → Prop} {cs : List (Tree α)} {c : Tree α}
    (h : ForestEverywhere P cs) (hc : c ∈ cs) : c.Everywhere P := by
  induction cs with
  | nil => cases hc
  | cons t rest ih =>
      rcases List.mem_cons.1 hc with rfl | hc
      · exact h.1
      · exact ih h.2 hc

theorem forestEverywhere_of_mem {P : α → List (Tree α) → Prop} {cs : List (Tree α)}
    (h : ∀ c ∈ cs, c.Everywhere P) : ForestEverywhere P cs := by
  induction cs with
  | nil => exact trivial
  | cons c rest ih =>
      exact ⟨h c List.mem_cons_self, ih fun d hd => h d (List.mem_cons_of_mem c hd)⟩

theorem Everywhere.self {P : Tree α → Prop} {t : Tree α}
    (h : t.Everywhere fun l cs => P (.node l cs)) : P t := by
  cases t
  exact h.1

theorem Everywhere.of_mem_children {P : α → List (Tree α) → Prop} {t c : Tree α}
    (h : t.Everywhere P) (hc : c ∈ t.children) : c.Everywhere P := by
  cases t
  exact everywhere_of_mem h.2 hc

mutual

theorem Everywhere.imp {P Q : α → List (Tree α) → Prop} (h : ∀ l cs, P l cs → Q l cs) :
    ∀ t : Tree α, t.Everywhere P → t.Everywhere Q
  | .node l cs, ht => ⟨h l cs ht.1, ForestEverywhere.imp h cs ht.2⟩

theorem ForestEverywhere.imp {P Q : α → List (Tree α) → Prop} (h : ∀ l cs, P l cs → Q l cs) :
    ∀ cs : List (Tree α), ForestEverywhere P cs → ForestEverywhere Q cs
  | [], _ => trivial
  | t :: rest, ht => ⟨Everywhere.imp h t ht.1, ForestEverywhere.imp h rest ht.2⟩

end

end Tree

namespace Arena

open LiteralLint.Tree

variable {α : Type}

/-! ## Adding a node

The three tables of an arena have one length, and `add` changes one old entry at most: the list of
children of the new node's parent.
-/

/-- The three tables of an arena have one length. -/
structure Balanced (a : Arena α) : Prop where
  parents : a.parents.size = a.size
  children : a.children.size = a.size

theorem balanced_empty : Balanced (empty : Arena α) := ⟨rfl, rfl⟩

theorem size_add (a : Arena α) (l : α) (p : Option Nat) : (a.add l p).size = a.size + 1 := by
  simp [add, size]

theorem Balanced.add {a : Arena α} (h : a.Balanced) (l : α) (p : Option Nat) :
    (a.add l p).Balanced := by
  constructor
  · simp [Arena.add, size, h.parents]
  · cases p <;> simp [Arena.add, size, h.children]

theorem node?_add_self (a : Arena α) (l : α) (p : Option Nat) :
    (a.add l p).node? a.size = some l := by
  simp [node?, add, size]

theorem node?_add_of_lt {a : Arena α} {i : Nat} (hi : i < a.size) (l : α) (p : Option Nat) :
    (a.add l p).node? i = a.node? i := by
  have hi' : i < a.nodes.size := hi
  simp [node?, add, Array.getElem?_push, Nat.ne_of_lt hi']

theorem parent?_add_self {a : Arena α} (h : a.Balanced) (l : α) (p : Option Nat) :
    (a.add l p).parent? a.size = p := by
  simp [parent?, add, ← h.parents]

theorem parent?_add_of_lt {a : Arena α} (h : a.Balanced) {i : Nat} (hi : i < a.size) (l : α)
    (p : Option Nat) : (a.add l p).parent? i = a.parent? i := by
  have hi' : i ≠ a.parents.size := by rw [h.parents]; exact Nat.ne_of_lt hi
  simp [parent?, add, Array.getElem?_push, hi']

theorem childrenOf_add_self {a : Arena α} (h : a.Balanced) (l : α) (p : Option Nat) :
    (a.add l p).childrenOf a.size = [] := by
  cases p with
  | none => simp [childrenOf, add, ← h.children]
  | some q =>
      have hsize : (a.children.modify q fun cs => cs ++ [a.size]).size = a.size := by
        rw [Array.size_modify, h.children]
      simp only [childrenOf, add, Array.getElem?_push, hsize, if_pos, Option.getD_some]

theorem childrenOf_add_of_lt {a : Arena α} (h : a.Balanced) {i : Nat} (hi : i < a.size) (l : α)
    (p : Option Nat) :
    (a.add l p).childrenOf i = a.childrenOf i ++ if p = some i then [a.size] else [] := by
  have hi' : i < a.children.size := by rw [h.children]; exact hi
  cases p with
  | none => simp [childrenOf, add, Array.getElem?_push, Nat.ne_of_lt hi']
  | some q =>
      have hne : i ≠ (a.children.modify q fun cs => cs ++ [a.size]).size := by
        rw [Array.size_modify]
        exact Nat.ne_of_lt hi'
      simp only [childrenOf, add, Array.getElem?_push, if_neg hne, Array.getElem?_modify]
      by_cases hq : q = i
      · rw [if_pos hq, if_pos (congrArg some hq), Array.getElem?_eq_getElem hi']
        rfl
      · rw [if_neg hq, if_neg (by simpa using hq), List.append_nil]

/-! ## Numbering by recursion -/

mutual

/-- The arena with a whole tree added below a parent. -/
def addTree (a : Arena α) (parent : Option Nat) : Tree α → Arena α
  | .node l cs => addForest (a.add l parent) a.size cs

/-- The arena with trees added below one parent. -/
def addForest (a : Arena α) (parent : Nat) : List (Tree α) → Arena α
  | [] => a
  | t :: rest => addForest (addTree a (some parent) t) parent rest

end

mutual

/-- The list of subtrees that wait does what the recursion does. -/
theorem addAll_tree (t : Tree α) (parent : Option Nat) (steps : Nat) (rest : List (Waiting α))
    (a : Arena α) :
    addAll (t.size + steps) ((t, parent) :: rest) a = addAll steps rest (a.addTree parent t) := by
  cases t with
  | node l cs =>
      rw [Tree.size, Nat.add_right_comm, addAll, addTree]
      exact addAll_forest cs a.size steps rest (a.add l parent)

theorem addAll_forest (cs : List (Tree α)) (parent steps : Nat) (rest : List (Waiting α))
    (a : Arena α) :
    addAll (forestSize cs + steps) (cs.map (fun c => (c, some parent)) ++ rest) a =
      addAll steps rest (a.addForest parent cs) := by
  cases cs with
  | nil => simp [forestSize, addForest]
  | cons t ts =>
      rw [forestSize, Nat.add_assoc, List.map_cons, List.cons_append,
        addAll_tree t (some parent) (forestSize ts + steps), addForest]
      exact addAll_forest ts parent steps rest _

end

/-- Once nothing waits, steps change nothing. -/
theorem addAll_nil (steps : Nat) (a : Arena α) : addAll steps [] a = a := by
  cases steps <;> rfl

/-- Nothing waits any more after as many steps as a tree has nodes. -/
theorem addAll_of_size_le {t : Tree α} {steps : Nat} (h : t.size ≤ steps) :
    addAll steps [(t, none)] empty = empty.addTree none t := by
  obtain ⟨more, rfl⟩ := Nat.exists_eq_add_of_le h
  rw [addAll_tree, addAll_nil]

theorem ofTree_eq_addTree (t : Tree α) : ofTree t = (empty : Arena α).addTree none t :=
  addAll_of_size_le (Nat.le_refl t.size)

/-! ### What adding a tree leaves alone -/

/-- An arena that has grown: old numbers keep their nodes and parents, and only the nodes of one
parent may have got further children. -/
structure Grown (a b : Arena α) (p : Option Nat) (roots : List Nat) : Prop where
  balanced : b.Balanced
  node_eq : ∀ i, i < a.size → b.node? i = a.node? i
  parent_eq : ∀ i, i < a.size → b.parent? i = a.parent? i
  children_eq : ∀ i, i < a.size →
    b.childrenOf i = a.childrenOf i ++ if p = some i then roots else []

mutual

theorem size_addTree (t : Tree α) (a : Arena α) (parent : Option Nat) :
    (a.addTree parent t).size = a.size + t.size := by
  cases t with
  | node l cs =>
      rw [addTree, size_addForest cs, size_add, Tree.size]
      omega

theorem size_addForest (cs : List (Tree α)) (a : Arena α) (parent : Nat) :
    (a.addForest parent cs).size = a.size + forestSize cs := by
  cases cs with
  | nil => rfl
  | cons t rest =>
      rw [addForest, size_addForest rest, size_addTree t, forestSize]
      omega

end

mutual

theorem grown_addTree (t : Tree α) {a : Arena α} (h : a.Balanced) (parent : Option Nat) :
    Grown a (a.addTree parent t) parent [a.size] := by
  cases t with
  | node l cs =>
      have hg := grown_addForest cs (h.add l parent) a.size
      have hlt : ∀ i, i < a.size → i < (a.add l parent).size := by
        intro i hi
        rw [size_add]
        omega
      rw [addTree]
      refine ⟨hg.balanced, ?_, ?_, ?_⟩
      · intro i hi
        rw [hg.node_eq i (hlt i hi), node?_add_of_lt hi]
      · intro i hi
        rw [hg.parent_eq i (hlt i hi), parent?_add_of_lt h hi]
      · intro i hi
        have hne : ¬ some a.size = some i := by simp; omega
        rw [hg.children_eq i (hlt i hi), if_neg hne, List.append_nil, childrenOf_add_of_lt h hi]

theorem grown_addForest (cs : List (Tree α)) {a : Arena α} (h : a.Balanced) (parent : Nat) :
    Grown a (a.addForest parent cs) (some parent) (rootsFrom a.size cs) := by
  cases cs with
  | nil =>
      refine ⟨h, fun _ _ => rfl, fun _ _ => rfl, fun i _ => ?_⟩
      simp [rootsFrom, addForest]
  | cons t rest =>
      have ht := grown_addTree t h (some parent)
      have hr := grown_addForest rest ht.balanced parent
      have hsize := size_addTree t a (some parent)
      have hlt : ∀ i, i < a.size → i < (a.addTree (some parent) t).size := by
        intro i hi
        omega
      rw [addForest]
      refine ⟨hr.balanced, ?_, ?_, ?_⟩
      · intro i hi
        rw [hr.node_eq i (hlt i hi), ht.node_eq i hi]
      · intro i hi
        rw [hr.parent_eq i (hlt i hi), ht.parent_eq i hi]
      · intro i hi
        rw [hr.children_eq i (hlt i hi), ht.children_eq i hi, hsize, rootsFrom]
        by_cases hp : parent = i <;> simp [hp]

end

/-! ## Arenas that hold a tree -/

mutual

/-- An arena contains a tree whose root has number `n`, below a parent. -/
def Holds (a : Arena α) (parent : Option Nat) (n : Nat) : Tree α → Prop
  | .node l cs =>
    a.node? n = some l ∧ a.parent? n = parent ∧ a.childrenOf n = rootsFrom (n + 1) cs ∧
      HoldsForest a n (n + 1) cs

/-- An arena contains trees one after the other, below one parent. -/
def HoldsForest (a : Arena α) (parent : Nat) (n : Nat) : List (Tree α) → Prop
  | [] => True
  | t :: rest => Holds a (some parent) n t ∧ HoldsForest a parent (n + t.size) rest

end

mutual

/-- Whether an arena holds a tree depends on the entries of the tree's numbers only. -/
theorem Holds.congr {a b : Arena α} (t : Tree α) {parent : Option Nat} {n : Nat}
    (hnode : ∀ i, n ≤ i → i < n + t.size → b.node? i = a.node? i)
    (hparent : ∀ i, n ≤ i → i < n + t.size → b.parent? i = a.parent? i)
    (hchildren : ∀ i, n ≤ i → i < n + t.size → b.childrenOf i = a.childrenOf i)
    (h : Holds a parent n t) : Holds b parent n t := by
  cases t with
  | node l cs =>
      rw [Tree.size] at hnode hparent hchildren
      obtain ⟨hl, hp, hc, hcs⟩ := h
      refine ⟨?_, ?_, ?_, HoldsForest.congr cs ?_ ?_ ?_ hcs⟩
      · rw [hnode n (by omega) (by omega), hl]
      · rw [hparent n (by omega) (by omega), hp]
      · rw [hchildren n (by omega) (by omega), hc]
      · exact fun i h1 h2 => hnode i (by omega) (by omega)
      · exact fun i h1 h2 => hparent i (by omega) (by omega)
      · exact fun i h1 h2 => hchildren i (by omega) (by omega)

theorem HoldsForest.congr {a b : Arena α} (cs : List (Tree α)) {parent n : Nat}
    (hnode : ∀ i, n ≤ i → i < n + forestSize cs → b.node? i = a.node? i)
    (hparent : ∀ i, n ≤ i → i < n + forestSize cs → b.parent? i = a.parent? i)
    (hchildren : ∀ i, n ≤ i → i < n + forestSize cs → b.childrenOf i = a.childrenOf i)
    (h : HoldsForest a parent n cs) : HoldsForest b parent n cs := by
  cases cs with
  | nil => trivial
  | cons t rest =>
      rw [forestSize] at hnode hparent hchildren
      refine ⟨Holds.congr t ?_ ?_ ?_ h.1, HoldsForest.congr rest ?_ ?_ ?_ h.2⟩
      · exact fun i h1 h2 => hnode i h1 (by omega)
      · exact fun i h1 h2 => hparent i h1 (by omega)
      · exact fun i h1 h2 => hchildren i h1 (by omega)
      · exact fun i h1 h2 => hnode i (by omega) (by omega)
      · exact fun i h1 h2 => hparent i (by omega) (by omega)
      · exact fun i h1 h2 => hchildren i (by omega) (by omega)

end

mutual

theorem holds_addTree (t : Tree α) {a : Arena α} (h : a.Balanced) (parent : Option Nat) :
    Holds (a.addTree parent t) parent a.size t := by
  cases t with
  | node l cs =>
      have hb := h.add l parent
      have hg := grown_addForest cs hb a.size
      have hlt : a.size < (a.add l parent).size := by rw [size_add]; omega
      rw [addTree]
      refine ⟨?_, ?_, ?_, ?_⟩
      · rw [hg.node_eq _ hlt, node?_add_self]
      · rw [hg.parent_eq _ hlt, parent?_add_self h]
      · rw [hg.children_eq _ hlt, if_pos rfl, childrenOf_add_self h, List.nil_append, size_add]
      · have hcs := holds_addForest cs hb hlt
        rwa [size_add] at hcs

theorem holds_addForest (cs : List (Tree α)) {a : Arena α} (h : a.Balanced) {parent : Nat}
    (hp : parent < a.size) : HoldsForest (a.addForest parent cs) parent a.size cs := by
  cases cs with
  | nil => trivial
  | cons t rest =>
      have ht := grown_addTree t h (some parent)
      have hsize := size_addTree t a (some parent)
      have hr := grown_addForest rest ht.balanced parent
      rw [addForest]
      refine ⟨Holds.congr t ?_ ?_ ?_ (holds_addTree t h (some parent)), ?_⟩
      · exact fun i _ hi => hr.node_eq i (by omega)
      · exact fun i _ hi => hr.parent_eq i (by omega)
      · -- the later trees get the same parent, which is not one of the tree's own numbers
        intro i hle hi
        have hne : ¬ some parent = some i := by simp; omega
        rw [hr.children_eq i (by omega), if_neg hne, List.append_nil]
      · have hlt : parent < (a.addTree (some parent) t).size := by omega
        have hrest := holds_addForest rest ht.balanced hlt
        rwa [hsize] at hrest

end

/-- **The arena of a tree holds it**, with the root at number zero. -/
theorem holds_ofTree (t : Tree α) : Holds (ofTree t) none 0 t := by
  rw [ofTree_eq_addTree]
  exact holds_addTree t balanced_empty none

theorem size_ofTree (t : Tree α) : (ofTree t).size = t.size := by
  rw [ofTree_eq_addTree, size_addTree]
  exact Nat.zero_add _

/-! ## Numbers in an arena that holds a tree -/

mutual

/-- At every number of a tree the arena holds one of its subtrees. -/
theorem Holds.exists_subtree {P : α → List (Tree α) → Prop} {a : Arena α} (t : Tree α)
    {parent : Option Nat} {n i : Nat} (h : Holds a parent n t) (hP : Everywhere P t)
    (hn : n ≤ i) (hi : i < n + t.size) :
    ∃ parent' s, Holds a parent' i s ∧ Everywhere P s := by
  cases t with
  | node l cs =>
      rcases Nat.eq_or_lt_of_le hn with rfl | hlt
      · exact ⟨parent, .node l cs, h, hP⟩
      · rw [Tree.size] at hi
        exact HoldsForest.exists_subtree cs h.2.2.2 hP.2 hlt (by omega)

theorem HoldsForest.exists_subtree {P : α → List (Tree α) → Prop} {a : Arena α}
    (cs : List (Tree α)) {parent n i : Nat} (h : HoldsForest a parent n cs)
    (hP : ForestEverywhere P cs) (hn : n ≤ i) (hi : i < n + forestSize cs) :
    ∃ parent' s, Holds a parent' i s ∧ Everywhere P s := by
  cases cs with
  | nil =>
      simp only [forestSize] at hi
      omega
  | cons t rest =>
      rw [forestSize] at hi
      by_cases hlt : i < n + t.size
      · exact Holds.exists_subtree t h.1 hP.1 hn hlt
      · exact HoldsForest.exists_subtree rest h.2 hP.2 (by omega) (by omega)

end

mutual

/-- Every number of a tree but the first is a child of a smaller number of the tree. -/
theorem Holds.exists_parent {a : Arena α} (t : Tree α) {parent : Option Nat} {n i : Nat}
    (h : Holds a parent n t) (hn : n < i) (hi : i < n + t.size) :
    ∃ e, a.parent? i = some e ∧ n ≤ e ∧ e < i ∧ i ∈ a.childrenOf e := by
  cases t with
  | node l cs =>
      rw [Tree.size] at hi
      obtain ⟨e, hpar, hle, hlt, hmem⟩ | ⟨hpar, hmem⟩ :=
        HoldsForest.exists_parent cs h.2.2.2 hn (by omega)
      · exact ⟨e, hpar, by omega, hlt, hmem⟩
      · exact ⟨n, hpar, Nat.le_refl _, hn, by rw [h.2.2.1]; exact hmem⟩

theorem HoldsForest.exists_parent {a : Arena α} (cs : List (Tree α)) {parent n i : Nat}
    (h : HoldsForest a parent n cs) (hn : n ≤ i) (hi : i < n + forestSize cs) :
    (∃ e, a.parent? i = some e ∧ n ≤ e ∧ e < i ∧ i ∈ a.childrenOf e) ∨
      (a.parent? i = some parent ∧ i ∈ rootsFrom n cs) := by
  cases cs with
  | nil =>
      simp only [forestSize] at hi
      omega
  | cons t rest =>
      rw [forestSize] at hi
      rcases Nat.eq_or_lt_of_le hn with rfl | hlt
      · right
        refine ⟨?_, by simp [rootsFrom]⟩
        cases t with
        | node l ds => exact h.1.2.1
      · by_cases hin : i < n + t.size
        · exact Or.inl (Holds.exists_parent t h.1 hlt hin)
        · have hge : n + t.size ≤ i := by omega
          rcases HoldsForest.exists_parent rest h.2 hge (by omega) with
            ⟨e, hpar, hle, he, hmem⟩ | ⟨hpar, hmem⟩
          · exact Or.inl ⟨e, hpar, by omega, he, hmem⟩
          · exact Or.inr ⟨hpar, List.mem_cons_of_mem _ hmem⟩

end

/-- A number among the roots of trees below one parent is the number of one of them. -/
theorem HoldsForest.exists_of_mem {a : Arena α} {cs : List (Tree α)} {parent n i : Nat}
    (h : HoldsForest a parent n cs) (hi : i ∈ rootsFrom n cs) :
    ∃ c ∈ cs, Holds a (some parent) i c := by
  induction cs generalizing n with
  | nil => cases hi
  | cons t rest ih =>
      rcases List.mem_cons.1 hi with rfl | hi
      · exact ⟨t, List.mem_cons_self, h.1⟩
      · obtain ⟨c, hc, hcs⟩ := ih h.2 hi
        exact ⟨c, List.mem_cons_of_mem _ hc, hcs⟩

/-- It is the number of the first, or of one after the first. -/
theorem HoldsForest.eq_or_exists_tail {a : Arena α} {cs : List (Tree α)} {parent n i : Nat}
    (h : HoldsForest a parent n cs) (hi : i ∈ rootsFrom n cs) :
    i = n ∨ ∃ c ∈ cs.tail, Holds a (some parent) i c := by
  cases cs with
  | nil => cases hi
  | cons t rest =>
      rcases List.mem_cons.1 hi with rfl | hi
      · exact Or.inl rfl
      · exact Or.inr (h.2.exists_of_mem hi)

theorem Holds.node? {a : Arena α} {t : Tree α} {parent : Option Nat} {n : Nat}
    (h : Holds a parent n t) : a.node? n = some t.label := by
  cases t with
  | node l cs => exact h.1

/-! ## The arena of a tree -/

theorem parent?_eq_none_of_size_le {a : Arena α} (h : a.Balanced) {i : Nat} (hi : a.size ≤ i) :
    a.parent? i = none := by
  have : a.parents.size ≤ i := by rw [h.parents]; exact hi
  simp [parent?, this]

theorem balanced_ofTree (t : Tree α) : (ofTree t).Balanced := by
  rw [ofTree_eq_addTree]
  exact (grown_addTree t balanced_empty none).balanced

/-- A parent has a smaller number than its child, and the child is among its children. -/
theorem parent?_lt {t : Tree α} {i e : Nat} (h : (ofTree t).parent? i = some e) :
    e < i ∧ i < t.size ∧ i ∈ (ofTree t).childrenOf e := by
  by_cases hi : i < t.size
  · rcases Nat.eq_zero_or_pos i with rfl | hpos
    · have h0 := holds_ofTree t
      cases t with
      | node l cs => rw [h0.2.1] at h; cases h
    · obtain ⟨e', hpar, -, hlt, hmem⟩ :=
        Holds.exists_parent t (holds_ofTree t) hpos (by omega)
      rw [h] at hpar
      cases hpar
      exact ⟨hlt, hi, hmem⟩
  · rw [parent?_eq_none_of_size_le (balanced_ofTree t) (by rw [size_ofTree]; omega)] at h
    cases h

theorem exists_node? {t : Tree α} {i : Nat} (hi : i < t.size) :
    ∃ l, (ofTree t).node? i = some l := by
  rw [← size_ofTree t] at hi
  exact ⟨_, Array.getElem?_eq_getElem hi⟩

theorem lt_of_node? {t : Tree α} {i : Nat} {l : α} (h : (ofTree t).node? i = some l) :
    i < t.size := by
  rw [← size_ofTree t]
  exact (Array.getElem?_eq_some_iff.1 h).1

/-- What holds everywhere holds of a node. -/
theorem holds_of_everywhere {P : α → List (Tree α) → Prop} {t : Tree α} (ht : t.Everywhere P)
    {i : Nat} {l : α} (h : (ofTree t).node? i = some l) : ∃ cs, P l cs := by
  have hi := lt_of_node? h
  obtain ⟨_, s, hs, hP⟩ := Holds.exists_subtree t (holds_ofTree t) ht (Nat.zero_le i) (by omega)
  cases s with
  | node k cs =>
      have hlabel : some l = some k := h.symm.trans hs.node?
      cases hlabel
      exact ⟨cs, hP.1⟩

/-- What holds of every label and the labels right below it holds of a node and its parent. -/
theorem edge_of_parent? {P : α → α → Prop} {t : Tree α}
    (ht : t.Everywhere fun l cs => ∀ c ∈ cs, P l c.label) {i e : Nat}
    (h : (ofTree t).parent? i = some e) :
    ∃ l m, (ofTree t).node? e = some l ∧ (ofTree t).node? i = some m ∧ P l m := by
  obtain ⟨hlt, hi, hchild⟩ := parent?_lt h
  obtain ⟨_, s, hs, hP⟩ := Holds.exists_subtree t (holds_ofTree t) ht (Nat.zero_le e) (by omega)
  cases s with
  | node l cs =>
      rw [hs.2.2.1] at hchild
      obtain ⟨c, hc, hholds⟩ := hs.2.2.2.exists_of_mem hchild
      exact ⟨l, c.label, hs.1, hholds.node?, hP.1 c hc⟩

/-- Only the root has no parent. -/
theorem eq_zero_of_parent? {t : Tree α} {i : Nat} {l : α} (hi : (ofTree t).node? i = some l)
    (h : (ofTree t).parent? i = none) : i = 0 := by
  have hsize := lt_of_node? hi
  rcases Nat.eq_zero_or_pos i with hzero | hpos
  · exact hzero
  · obtain ⟨e, he, -⟩ := Holds.exists_parent t (holds_ofTree t) hpos (by omega)
    rw [h] at he
    cases he

/-- A child has a greater number than its parent. -/
theorem lt_of_mem_childrenOf {t : Tree α} {i c : Nat} {l : α} (hl : (ofTree t).node? i = some l)
    (h : c ∈ (ofTree t).childrenOf i) : i < c ∧ c < t.size := by
  have hi := lt_of_node? hl
  obtain ⟨parent, s, hs, -⟩ := Holds.exists_subtree (P := fun _ _ => True) t (holds_ofTree t)
    (everywhere_of_forall (fun _ _ => trivial) t) (Nat.zero_le i) (by omega)
  cases s with
  | node k cs =>
      rw [hs.2.2.1] at h
      obtain ⟨child, -, hchild⟩ := hs.2.2.2.exists_of_mem h
      exact ⟨le_of_mem_rootsFrom h, lt_of_node? hchild.node?⟩

theorem lt_of_mem_ancestorsUpTo {t : Tree α} {a : Nat} (bound : Nat) :
    ∀ i, a ∈ (ofTree t).ancestorsUpTo bound i → a < i := by
  induction bound with
  | zero =>
      intro i h
      cases h
  | succ bound ih =>
      intro i h
      rw [ancestorsUpTo] at h
      cases hp : (ofTree t).parent? i with
      | none => rw [hp] at h; cases h
      | some e =>
          have he := (parent?_lt hp).1
          rw [hp] at h
          rcases List.mem_cons.1 h with rfl | h
          · exact he
          · exact Nat.lt_trans (ih e h) he

/-- Ancestors have smaller numbers. -/
theorem lt_of_mem_ancestors {t : Tree α} {i a : Nat} (h : a ∈ (ofTree t).ancestors i) : a < i :=
  lt_of_mem_ancestorsUpTo i i h

theorem ancestorsUpTo_of_root {a : Arena α} {i : Nat} (h : a.parent? i = none) (bound : Nat) :
    a.ancestorsUpTo bound i = [] := by
  cases bound with
  | zero => rfl
  | succ bound => rw [ancestorsUpTo, h]

theorem ancestorsUpTo_of_parent {a : Arena α} {i e : Nat} (h : a.parent? i = some e) (bound : Nat) :
    a.ancestorsUpTo (bound + 1) i = e :: a.ancestorsUpTo bound e := by
  rw [ancestorsUpTo, h]

/-- The way up from a node takes no more steps than its number, so no greater bound adds to it. -/
theorem ancestorsUpTo_of_le {t : Tree α} {i bound : Nat} (hi : i ≤ bound) :
    (ofTree t).ancestorsUpTo bound i = (ofTree t).ancestors i := by
  suffices h : ∀ bound' i, i ≤ bound → i ≤ bound' →
      (ofTree t).ancestorsUpTo bound i = (ofTree t).ancestorsUpTo bound' i from
    h i i hi (Nat.le_refl i)
  clear hi
  induction bound with
  | zero =>
      intro bound' i hi _
      cases hp : (ofTree t).parent? i with
      | none => rw [ancestorsUpTo_of_root hp, ancestorsUpTo_of_root hp]
      | some e => exact absurd (parent?_lt hp).1 (by omega)
  | succ bound ih =>
      intro bound' i hi hi'
      cases hp : (ofTree t).parent? i with
      | none => rw [ancestorsUpTo_of_root hp, ancestorsUpTo_of_root hp]
      | some e =>
          have hlt := (parent?_lt hp).1
          obtain ⟨bound', rfl⟩ : ∃ b, bound' = b + 1 := ⟨bound' - 1, by omega⟩
          rw [ancestorsUpTo_of_parent hp, ancestorsUpTo_of_parent hp,
            ih bound' e (by omega) (by omega)]

theorem ancestors_of_root {t : Tree α} {i : Nat} (h : (ofTree t).parent? i = none) :
    (ofTree t).ancestors i = [] := ancestorsUpTo_of_root h i

/-- The ancestors of a child are its parent and the ancestors of the parent. -/
theorem ancestors_of_parent {t : Tree α} {i e : Nat} (h : (ofTree t).parent? i = some e) :
    (ofTree t).ancestors i = e :: (ofTree t).ancestors e := by
  obtain ⟨hlt, -⟩ := parent?_lt h
  obtain ⟨j, rfl⟩ : ∃ j, i = j + 1 := ⟨i - 1, by omega⟩
  rw [ancestors, ancestorsUpTo_of_parent h, ancestorsUpTo_of_le (by omega)]

/-- The first ancestor is the parent. -/
theorem parent?_of_ancestors {t : Tree α} {i e : Nat} {rest : List Nat}
    (h : (ofTree t).ancestors i = e :: rest) :
    (ofTree t).parent? i = some e ∧ rest = (ofTree t).ancestors e := by
  cases hp : (ofTree t).parent? i with
  | none =>
      rw [ancestors_of_root hp] at h
      cases h
  | some e' =>
      rw [ancestors_of_parent hp] at h
      obtain ⟨rfl, rfl⟩ := List.cons.inj h
      exact ⟨rfl, rfl⟩

/-- What follows an ancestor in the list are its own ancestors. -/
theorem ancestors_split {t : Tree α} {i a : Nat} {front back : List Nat}
    (h : (ofTree t).ancestors i = front ++ a :: back) : back = (ofTree t).ancestors a := by
  induction front generalizing i with
  | nil => exact (parent?_of_ancestors h).2
  | cons b front ih => exact ih (parent?_of_ancestors h).2.symm

/-! ## The walk -/

mutual

/-- The list of events that wait yields the recursive traversal. -/
theorem walkFrom_tree {a : Arena α} (t : Tree α) {parent : Option Nat} {n : Nat}
    (h : Holds a parent n t) (steps : Nat) (rest : List Event) :
    a.walkFrom (2 * t.size + steps) (.enter n :: rest) =
      t.eventsFrom n ++ a.walkFrom steps rest := by
  cases t with
  | node l cs =>
      have hsteps : 2 * (Tree.node l cs).size + steps = 2 * forestSize cs + (steps + 1) + 1 := by
        rw [Tree.size]; omega
      rw [hsteps, walkFrom, h.2.2.1, walkFrom_forest cs h.2.2.2 (steps + 1), walkFrom, eventsFrom]
      simp

theorem walkFrom_forest {a : Arena α} (cs : List (Tree α)) {parent n : Nat}
    (h : HoldsForest a parent n cs) (steps : Nat) (rest : List Event) :
    a.walkFrom (2 * forestSize cs + steps) ((rootsFrom n cs).map .enter ++ rest) =
      forestEventsFrom n cs ++ a.walkFrom steps rest := by
  cases cs with
  | nil => simp [forestSize, rootsFrom, forestEventsFrom]
  | cons t ts =>
      have hsteps : 2 * forestSize (t :: ts) + steps =
          2 * t.size + (2 * forestSize ts + steps) := by
        rw [forestSize]; omega
      rw [hsteps, rootsFrom, List.map_cons, List.cons_append, walkFrom_tree t h.1,
        walkFrom_forest ts h.2 steps rest, forestEventsFrom, List.append_assoc]

end

/-- **The walk of the arena of a tree is the recursive traversal.** -/
theorem walk_ofTree (t : Tree α) : (ofTree t).walk = t.eventsFrom 0 := by
  have hpos : (ofTree t).size ≠ 0 := by
    rw [size_ofTree]; exact Nat.ne_of_gt t.size_pos
  have h := walkFrom_tree t (holds_ofTree t) 0 []
  rw [walk, if_neg hpos, size_ofTree, ← Nat.add_zero (2 * t.size), h]
  simp [walkFrom]

end Arena

/-! ## Other labels

The numbers of a tree do not depend on its labels, so what a program is asked about the labels of one
tree can be asked of another with the same shape.
-/

namespace Tree

variable {α β : Type}

mutual

/-- The tree with other labels. -/
def map (f : α → β) : Tree α → Tree β
  | .node l cs => .node (f l) (mapForest f cs)

/-- The trees with other labels. -/
def mapForest (f : α → β) : List (Tree α) → List (Tree β)
  | [] => []
  | t :: rest => map f t :: mapForest f rest

end

theorem mapForest_eq (f : α → β) (ts : List (Tree α)) : mapForest f ts = ts.map (map f) := by
  induction ts with
  | nil => rfl
  | cons t rest ih => rw [mapForest, ih, List.map_cons]

theorem map_node (f : α → β) (l : α) (cs : List (Tree α)) :
    map f (.node l cs) = .node (f l) (cs.map (map f)) := by
  rw [map, mapForest_eq]

theorem label_map (f : α → β) (t : Tree α) : (t.map f).label = f t.label := by
  cases t
  rfl

mutual

theorem size_map (f : α → β) : ∀ t : Tree α, (t.map f).size = t.size
  | .node _ cs => by rw [map, size, size, forestSize_mapForest f cs]

theorem forestSize_mapForest (f : α → β) :
    ∀ cs : List (Tree α), forestSize (mapForest f cs) = forestSize cs
  | [] => rfl
  | t :: rest => by
      rw [mapForest, forestSize, forestSize, size_map f t, forestSize_mapForest f rest]

end

mutual

theorem exitsFrom_map (f : α → β) (n : Nat) : ∀ t : Tree α, (t.map f).exitsFrom n = t.exitsFrom n
  | .node _ cs => by
      rw [map, exitsFrom, exitsFrom, forestExitsFrom_mapForest f (n + 1) cs, forestSize_mapForest]

theorem forestExitsFrom_mapForest (f : α → β) (n : Nat) :
    ∀ cs : List (Tree α), forestExitsFrom n (mapForest f cs) = forestExitsFrom n cs
  | [] => rfl
  | t :: rest => by
      rw [mapForest, forestExitsFrom, forestExitsFrom, exitsFrom_map f n t, size_map,
        forestExitsFrom_mapForest f (n + t.size) rest]

end

end Tree

namespace Arena

open LiteralLint.Tree

variable {α β : Type}

/-- The arena with other labels. -/
def map (f : α → β) (a : Arena α) : Arena β := ⟨a.nodes.map f, a.parents, a.children⟩

theorem size_map (f : α → β) (a : Arena α) : (a.map f).size = a.size := Array.size_map

theorem map_add (f : α → β) (a : Arena α) (l : α) (parent : Option Nat) :
    (a.add l parent).map f = (a.map f).add (f l) parent := by
  unfold add map size
  simp

mutual

theorem map_addTree (f : α → β) (t : Tree α) (a : Arena α) (parent : Option Nat) :
    (a.addTree parent t).map f = (a.map f).addTree parent (t.map f) := by
  cases t with
  | node l cs => rw [addTree, map_addForest f cs, map_add, Tree.map, addTree, size_map]

theorem map_addForest (f : α → β) (cs : List (Tree α)) (a : Arena α) (parent : Nat) :
    (a.addForest parent cs).map f = (a.map f).addForest parent (mapForest f cs) := by
  cases cs with
  | nil => rfl
  | cons t rest =>
      rw [addForest, map_addForest f rest, map_addTree f t, mapForest, addForest]

end

theorem ofTree_map (f : α → β) (t : Tree α) : ofTree (t.map f) = (ofTree t).map f := by
  have hempty : (empty : Arena α).map f = empty := by simp [map, empty]
  rw [ofTree_eq_addTree, ofTree_eq_addTree, map_addTree, hempty]

theorem node?_map (f : α → β) (a : Arena α) (i : Nat) : (a.map f).node? i = (a.node? i).map f := by
  unfold map node?
  simp

theorem satisfies_map (f : α → β) (a : Arena α) (p : β → Bool) :
    (a.map f).satisfies p = a.satisfies (p ∘ f) := by
  funext i
  unfold satisfies
  rw [node?_map, Option.any_map]
  rfl

theorem ancestorsUpTo_map (f : α → β) (a : Arena α) (bound : Nat) :
    ∀ i, (a.map f).ancestorsUpTo bound i = a.ancestorsUpTo bound i := by
  induction bound with
  | zero => exact fun _ => rfl
  | succ bound ih =>
      intro i
      have hparent : (a.map f).parent? i = a.parent? i := rfl
      rw [ancestorsUpTo, ancestorsUpTo, hparent]
      simp only [ih]

theorem ancestors_map (f : α → β) (a : Arena α) (i : Nat) : (a.map f).ancestors i = a.ancestors i :=
  ancestorsUpTo_map f a i i

theorem nearest?_map (f : α → β) (a : Arena α) (i : Nat) (p : β → Bool) :
    (a.map f).nearest? i p = a.nearest? i (p ∘ f) := by
  unfold nearest?
  rw [ancestors_map, satisfies_map]

theorem child?_map (f : α → β) (a : Arena α) (i : Nat) (p : β → Bool) :
    (a.map f).child? i p = a.child? i (p ∘ f) := by
  have hchildren : (a.map f).childrenOf i = a.childrenOf i := rfl
  unfold child?
  rw [hchildren, satisfies_map]

end Arena

end LiteralLint
