import Mathlib.Logic.Relation
import LiteralLint.Proofs.Arena

/-!
# Numbers in pre-order

The numbers of an arena are given out from a list of subtrees that wait, and a node learns of its
children one by one, long after it got its own number. All the same the number of a node is its place
in the pre-order of the tree, and what is below it has the numbers right after its own, as many as
there are.

The list of all subtrees in pre-order says this without numbers: from the place of a subtree on, it
starts with the list of that subtree's own subtrees. So the places of two subtrees are either apart
or one within the other. Since the arena holds every subtree at its place, children, descendants and
ancestors can be read off.

## Main definitions

* `Arena.Below`: from a number down to a descendant.
* `Arena.PlaceOf`: what an arena says about the subtree at one of its numbers.
* `Arena.InPreorder`: an arena numbers a tree in pre-order.

## Main results

* `Arena.holds_subtree`: the arena of a tree holds each subtree at its place.
* `Arena.below_iff`, `Arena.mem_ancestors_iff`: descendants and ancestors are intervals of numbers.
* `Arena.inPreorder_ofTree`: **the arena of a tree numbers it in pre-order**.
-/

namespace LiteralLint

namespace Tree

variable {α : Type}

/-! ## The list of subtrees -/

theorem subtrees_eq (t : Tree α) : t.subtrees = t :: forestSubtrees t.children := by
  cases t
  rw [subtrees]
  rfl

mutual

theorem length_subtrees : ∀ t : Tree α, t.subtrees.length = t.size
  | .node _ cs => by rw [subtrees, List.length_cons, length_forestSubtrees cs, size]

theorem length_forestSubtrees : ∀ cs : List (Tree α), (forestSubtrees cs).length = forestSize cs
  | [] => rfl
  | t :: rest => by
      rw [forestSubtrees, List.length_append, length_subtrees t, length_forestSubtrees rest,
        forestSize]

end

mutual

/-- The labels of the subtrees are the labels of the tree, in the same order. -/
theorem map_label_subtrees : ∀ t : Tree α, t.subtrees.map label = t.preorder
  | .node _ cs => by
      rw [subtrees, List.map_cons, map_label_forestSubtrees cs, preorder]
      rfl

theorem map_label_forestSubtrees :
    ∀ cs : List (Tree α), (forestSubtrees cs).map label = forestPreorder cs
  | [] => rfl
  | t :: rest => by
      rw [forestSubtrees, List.map_append, map_label_subtrees t, map_label_forestSubtrees rest,
        forestPreorder]

end

mutual

/-- From the place of a subtree on, the list starts with the subtrees of that one. -/
theorem drop_subtrees (t : Tree α) {i : Nat} {s : Tree α} (h : t.subtrees[i]? = some s) :
    s.subtrees <+: t.subtrees.drop i := by
  cases t with
  | node l cs =>
      cases i with
      | zero =>
          have hs : Tree.node l cs = s := by simpa [subtrees] using h
          subst hs
          exact List.prefix_rfl
      | succ i =>
          rw [subtrees, List.getElem?_cons_succ] at h
          rw [subtrees, List.drop_succ_cons]
          exact drop_forestSubtrees cs h

theorem drop_forestSubtrees (cs : List (Tree α)) {i : Nat} {s : Tree α}
    (h : (forestSubtrees cs)[i]? = some s) : s.subtrees <+: (forestSubtrees cs).drop i := by
  cases cs with
  | nil => cases h
  | cons t rest =>
      rw [forestSubtrees] at h ⊢
      by_cases hi : i < t.subtrees.length
      · rw [List.getElem?_append_left hi] at h
        rw [List.drop_append_of_le_length (Nat.le_of_lt hi)]
        exact (drop_subtrees t h).trans (List.prefix_append _ _)
      · have hle := Nat.le_of_not_lt hi
        rw [List.getElem?_append_right hle] at h
        rw [List.drop_append, List.drop_eq_nil_of_le hle, List.nil_append]
        exact drop_forestSubtrees rest h

end

/-- The places of two subtrees that are not apart lie one within the other. -/
theorem subtrees_nested {t s : Tree α} {i k : Nat} (h : t.subtrees[i]? = some s) (hik : i ≤ k)
    (hk : k < i + s.size) : ∃ u, t.subtrees[k]? = some u ∧ k + u.size ≤ i + s.size := by
  obtain ⟨rest, hrest⟩ := drop_subtrees t h
  obtain ⟨d, rfl⟩ : ∃ d, k = i + d := ⟨k - i, by omega⟩
  have hd : d < s.subtrees.length := by
    rw [length_subtrees]
    omega
  have hsame : t.subtrees[i + d]? = s.subtrees[d]? := by
    rw [← List.getElem?_drop, ← hrest, List.getElem?_append_left hd]
  have hu : s.subtrees[d]? = some s.subtrees[d] := List.getElem?_eq_getElem hd
  refine ⟨s.subtrees[d], hsame.trans hu, ?_⟩
  have hfits := (drop_subtrees s hu).length_le
  rw [List.length_drop, length_subtrees, length_subtrees] at hfits
  omega

/-! ## The roots of some trees -/

theorem lt_of_mem_rootsFrom {cs : List (Tree α)} {n i : Nat} (h : i ∈ rootsFrom n cs) :
    i < n + forestSize cs := by
  induction cs generalizing n with
  | nil => cases h
  | cons t rest ih =>
      have hpos := t.size_pos
      rw [forestSize]
      rcases List.mem_cons.1 h with rfl | h
      · omega
      · have hlt := ih h
        omega

theorem pairwise_rootsFrom (n : Nat) (cs : List (Tree α)) : (rootsFrom n cs).Pairwise (· < ·) := by
  induction cs generalizing n with
  | nil => exact List.Pairwise.nil
  | cons t rest ih =>
      refine List.pairwise_cons.2 ⟨fun i hi => ?_, ih (n + t.size)⟩
      have hpos := t.size_pos
      have hle := le_of_mem_rootsFrom hi
      omega

/-- At the numbers of the roots stand the trees. -/
theorem map_getElem?_rootsFrom {all : List (Tree α)} {cs : List (Tree α)} {n : Nat}
    (h : forestSubtrees cs <+: all.drop n) :
    (rootsFrom n cs).map (fun i => all[i]?) = cs.map some := by
  induction cs generalizing n with
  | nil => rfl
  | cons t rest ih =>
      obtain ⟨back, hback⟩ := h
      rw [forestSubtrees, List.append_assoc] at hback
      have hfirst : all[n]? = some t := by
        have hhead : (all.drop n)[0]? = some t := by
          rw [← hback, subtrees_eq]
          rfl
        rwa [List.getElem?_drop, Nat.add_zero] at hhead
      have hrest : forestSubtrees rest <+: all.drop (n + t.size) := by
        refine ⟨back, ?_⟩
        rw [← List.drop_drop, ← hback, ← length_subtrees, List.drop_left]
      rw [rootsFrom, List.map_cons, List.map_cons, hfirst, ih hrest]

end Tree

namespace Arena

open LiteralLint.Tree

variable {α : Type}

/-! ## Subtrees at their places -/

mutual

theorem Holds.subtree {a : Arena α} (t : Tree α) {parent : Option Nat} {n i : Nat} {s : Tree α}
    (h : Holds a parent n t) (hs : t.subtrees[i]? = some s) :
    ∃ parent', Holds a parent' (n + i) s := by
  cases t with
  | node l cs =>
      cases i with
      | zero =>
          have heq : Tree.node l cs = s := by simpa [subtrees] using hs
          exact ⟨parent, heq ▸ h⟩
      | succ i =>
          rw [subtrees, List.getElem?_cons_succ] at hs
          rw [Nat.add_comm i 1, ← Nat.add_assoc]
          exact HoldsForest.subtree cs h.2.2.2 hs

theorem HoldsForest.subtree {a : Arena α} (cs : List (Tree α)) {parent n i : Nat} {s : Tree α}
    (h : HoldsForest a parent n cs) (hs : (forestSubtrees cs)[i]? = some s) :
    ∃ parent', Holds a parent' (n + i) s := by
  cases cs with
  | nil => cases hs
  | cons t rest =>
      rw [forestSubtrees] at hs
      by_cases hi : i < t.subtrees.length
      · rw [List.getElem?_append_left hi] at hs
        exact Holds.subtree t h.1 hs
      · rw [List.getElem?_append_right (Nat.le_of_not_lt hi)] at hs
        obtain ⟨parent', hholds⟩ := HoldsForest.subtree rest h.2 hs
        rw [length_subtrees] at hi hholds
        refine ⟨parent', ?_⟩
        rwa [show n + t.size + (i - t.size) = n + i by omega] at hholds

end

variable {t s : Tree α} {i j : Nat}

/-- **The arena of a tree holds each subtree at its place** in the pre-order. -/
theorem holds_subtree (hs : t.subtrees[i]? = some s) : ∃ parent, Holds (ofTree t) parent i s := by
  have h := Holds.subtree t (holds_ofTree t) hs
  rwa [Nat.zero_add] at h

theorem exists_subtree_of_lt (hi : i < t.size) : ∃ s, t.subtrees[i]? = some s := by
  rw [← length_subtrees] at hi
  exact ⟨_, List.getElem?_eq_getElem hi⟩

theorem node?_subtree (hs : t.subtrees[i]? = some s) : (ofTree t).node? i = some s.label := by
  obtain ⟨_, h⟩ := holds_subtree hs
  exact h.node?

theorem childrenOf_subtree (hs : t.subtrees[i]? = some s) :
    (ofTree t).childrenOf i = rootsFrom (i + 1) s.children := by
  obtain ⟨_, h⟩ := holds_subtree hs
  cases s
  exact h.2.2.1

theorem childrenOf_eq_nil (hi : t.size ≤ i) : (ofTree t).childrenOf i = [] := by
  have hsize : (ofTree t).children.size ≤ i := by
    rwa [(balanced_ofTree t).children, size_ofTree]
  simp [childrenOf, hsize]

theorem pairwise_childrenOf : ((ofTree t).childrenOf i).Pairwise (· < ·) := by
  by_cases hi : i < t.size
  · obtain ⟨s, hs⟩ := exists_subtree_of_lt hi
    rw [childrenOf_subtree hs]
    exact pairwise_rootsFrom _ _
  · rw [childrenOf_eq_nil (Nat.le_of_not_lt hi)]
    exact List.Pairwise.nil

/-- Where the children of a node stand among the subtrees, the trees below it stand. -/
theorem map_getElem?_childrenOf (hs : t.subtrees[i]? = some s) :
    ((ofTree t).childrenOf i).map (fun j => t.subtrees[j]?) = s.children.map some := by
  rw [childrenOf_subtree hs]
  refine map_getElem?_rootsFrom ?_
  obtain ⟨back, hback⟩ := drop_subtrees t hs
  refine ⟨back, ?_⟩
  rw [← List.drop_drop, ← hback, subtrees_eq]
  rfl

/-- The two links agree: the children of a number are those it is the parent of. -/
theorem mem_childrenOf_iff : j ∈ (ofTree t).childrenOf i ↔ (ofTree t).parent? j = some i := by
  refine ⟨fun hj => ?_, fun hparent => (parent?_lt hparent).2.2⟩
  by_cases hi : i < t.size
  · obtain ⟨s, hs⟩ := exists_subtree_of_lt hi
    obtain ⟨parent, hholds⟩ := holds_subtree hs
    cases s with
    | node l cs =>
        rw [hholds.2.2.1] at hj
        obtain ⟨c, -, hc⟩ := hholds.2.2.2.exists_of_mem hj
        cases c
        exact hc.2.1
  · rw [childrenOf_eq_nil (Nat.le_of_not_lt hi)] at hj
    cases hj

/-! ## Descendants and ancestors -/

/-- From a number down to a descendant, one child after the other, at least one. -/
def Below (a : Arena α) : Nat → Nat → Prop := Relation.TransGen fun i j => j ∈ a.childrenOf i

/-- A child lies in the interval after its parent. -/
theorem lt_of_child (hs : t.subtrees[i]? = some s) (hj : j ∈ (ofTree t).childrenOf i) :
    i < j ∧ j < i + s.size := by
  rw [childrenOf_subtree hs] at hj
  have hle := le_of_mem_rootsFrom hj
  have hlt := lt_of_mem_rootsFrom hj
  have hsize := s.size_eq
  omega

/-- **The descendants of a number are the numbers right after it**, as many as there are nodes below
it. -/
theorem below_iff (hs : t.subtrees[i]? = some s) :
    (ofTree t).Below i j ↔ i < j ∧ j < i + s.size := by
  constructor
  · intro h
    induction h with
    | single hj => exact lt_of_child hs hj
    | tail _ hj ih =>
        -- the place of the last parent lies within, and so do its children
        obtain ⟨u, hu, hfits⟩ := subtrees_nested hs (Nat.le_of_lt ih.1) ih.2
        have hchild := lt_of_child hu hj
        omega
  · rintro ⟨hij, hj⟩
    induction j using Nat.strongRecOn with
    | ind j ih =>
        obtain ⟨parent, hholds⟩ := holds_subtree hs
        obtain ⟨e, -, hie, hej, hchild⟩ := Holds.exists_parent s hholds hij hj
        rcases Nat.eq_or_lt_of_le hie with rfl | hlt
        · exact .single hchild
        · exact (ih e hej hlt (by omega)).tail hchild

/-- The ancestors of a number are those it is below. -/
theorem mem_ancestors_iff_below {a : Nat} : a ∈ (ofTree t).ancestors i ↔ (ofTree t).Below a i := by
  induction i using Nat.strongRecOn with
  | ind i ih =>
      rw [Below, Relation.TransGen.tail'_iff]
      cases hp : (ofTree t).parent? i with
      | none => simp [ancestors_of_root hp, mem_childrenOf_iff, hp]
      | some e =>
          -- the last step can only start from the parent
          have hlast : ∀ b, i ∈ (ofTree t).childrenOf b ↔ b = e := by
            intro b
            rw [mem_childrenOf_iff, hp, Option.some.injEq, eq_comm]
          rw [ancestors_of_parent hp, List.mem_cons, ih e (parent?_lt hp).1]
          simp only [hlast, exists_eq_right]
          rw [Relation.reflTransGen_iff_eq_or_transGen, Below, eq_comm]

/-- A number is an ancestor of those in the interval after it. -/
theorem mem_ancestors_iff (hs : t.subtrees[i]? = some s) :
    i ∈ (ofTree t).ancestors j ↔ i < j ∧ j < i + s.size :=
  mem_ancestors_iff_below.trans (below_iff hs)

/-- The way up descends in numbers. -/
theorem pairwise_ancestors : (i :: (ofTree t).ancestors i).Pairwise (· > ·) := by
  induction i using Nat.strongRecOn with
  | ind i ih =>
      refine List.pairwise_cons.2 ⟨fun a ha => lt_of_mem_ancestors ha, ?_⟩
      cases hp : (ofTree t).parent? i with
      | none =>
          rw [ancestors_of_root hp]
          exact List.Pairwise.nil
      | some e =>
          rw [ancestors_of_parent hp]
          exact ih e (parent?_lt hp).1

/-- The way up ends at the root. -/
theorem getLast?_ancestors (hpos : 0 < i) (hi : i < t.size) :
    ((ofTree t).ancestors i).getLast? = some 0 := by
  induction i using Nat.strongRecOn with
  | ind i ih =>
      obtain ⟨e, hp, -, hlt, -⟩ := Holds.exists_parent t (holds_ofTree t) hpos (by omega)
      rw [ancestors_of_parent hp]
      rcases Nat.eq_zero_or_pos e with rfl | he
      · rfl
      · rw [List.getLast?_cons, ih e hlt he (by omega)]
        rfl

/-! ## The numbering -/

/-- What an arena says about the subtree at one of its numbers. -/
structure PlaceOf (a : Arena α) (t : Tree α) (i : Nat) (s : Tree α) : Prop where
  node : a.node? i = some s.label
  /-- Its children have the numbers at which the trees below it stand, in order. -/
  children : (a.childrenOf i).map (fun j => t.subtrees[j]?) = s.children.map some
  /-- The first child has the next number, and each of the others the one after what is below the
  child before it. -/
  numbers : a.childrenOf i = rootsFrom (i + 1) s.children
  /-- Its descendants have the numbers right after its own. -/
  descendants : ∀ j, a.Below i j ↔ i < j ∧ j < i + s.size
  /-- It is an ancestor of these and of no others. -/
  ancestor : ∀ j, i ∈ a.ancestors j ↔ i < j ∧ j < i + s.size

/-- An arena numbers a tree in pre-order. -/
structure InPreorder (a : Arena α) (t : Tree α) : Prop where
  /-- No subtree waits any more after as many steps as the tree has nodes, so no larger bound on the
  steps gives another arena. -/
  finished : ∀ steps, t.size ≤ steps → addAll steps [(t, none)] empty = a
  /-- Each table has as many entries as the tree has nodes. -/
  sizes : a.nodes.size = t.size ∧ a.parents.size = t.size ∧ a.children.size = t.size
  root : a.node? 0 = some t.label ∧ a.parent? 0 = none
  nodes : a.nodes.toList = t.preorder
  /-- At every number stands the subtree with that place among all subtrees in pre-order. -/
  place : ∀ i, i < t.size → ∃ s, t.subtrees[i]? = some s ∧ a.PlaceOf t i s
  /-- The children of a number are those it is the parent of, each listed once, in ascending
  order. -/
  links : ∀ i, (a.childrenOf i).Pairwise (· < ·) ∧ ∀ j, j ∈ a.childrenOf i ↔ a.parent? j = some i
  parent_lt : ∀ i j, a.parent? j = some i → i < j
  /-- The way up goes from parent to parent until there is none. -/
  climb : ∀ i, a.ancestors i = (a.parent? i).elim [] fun e => e :: a.ancestors e
  descending : ∀ i, (i :: a.ancestors i).Pairwise (· > ·)
  last : ∀ i, 0 < i → i < t.size → (a.ancestors i).getLast? = some 0

theorem toList_nodes (t : Tree α) : (ofTree t).nodes.toList = t.preorder := by
  rw [← map_label_subtrees]
  refine List.ext_getElem? fun i => ?_
  rw [Array.getElem?_toList, List.getElem?_map]
  cases hs : t.subtrees[i]? with
  | some s => exact node?_subtree hs
  | none =>
      have hle := List.getElem?_eq_none_iff.1 hs
      rw [length_subtrees, ← size_ofTree] at hle
      exact Array.getElem?_eq_none hle

/-- **The arena of a tree numbers it in pre-order.** Numbering ends after one step per node. The arena
has one entry per node, the root first and without a parent; the number of a node is its place in the
pre-order; children are listed in order, and parents have smaller numbers; the descendants of a node
have the numbers of an interval right after its own; and the way up from a node descends to the root,
by the numbers in whose intervals the node lies. -/
theorem inPreorder_ofTree (t : Tree α) : (ofTree t).InPreorder t where
  finished _ h := (addAll_of_size_le h).trans (ofTree_eq_addTree t).symm
  sizes := by
    have hbalanced := balanced_ofTree t
    rw [hbalanced.parents, hbalanced.children, size_ofTree]
    exact ⟨size_ofTree t, rfl, rfl⟩
  root := by
    have h := holds_ofTree t
    cases t
    exact ⟨h.1, h.2.1⟩
  nodes := toList_nodes t
  place i hi := by
    obtain ⟨s, hs⟩ := exists_subtree_of_lt hi
    exact ⟨s, hs, node?_subtree hs, map_getElem?_childrenOf hs, childrenOf_subtree hs,
      fun _ => below_iff hs, fun _ => mem_ancestors_iff hs⟩
  links _ := ⟨pairwise_childrenOf, fun _ => mem_childrenOf_iff⟩
  parent_lt _ _ h := (parent?_lt h).1
  climb i := by
    cases hp : (ofTree t).parent? i with
    | none => exact ancestors_of_root hp
    | some e => exact ancestors_of_parent hp
  descending _ := pairwise_ancestors
  last _ := getLast?_ancestors

end Arena

end LiteralLint
