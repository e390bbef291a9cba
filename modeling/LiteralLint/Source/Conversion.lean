import LiteralLint.Source.Expansion

/-!
# From parse trees to program trees

Conversion keeps a stack of nodes whose children are not all there yet, so that the depth of a
program is bounded by memory alone. A step converts the next task of the node on top, or closes
that node and hands it to the one below. The constructs still to be converted grow fewer with
every node that is opened, which is why conversion ends.

## Main definitions

* `Conversion.Frame`: an open node.
* `Conversion.run`: the stack at work.
* `Conversion.convert`: the program tree of a parse tree.

## Main results

* `Conversion.weight_expand_lt`: the tasks below a construct are smaller than the construct.
-/

namespace LiteralLint

namespace Conversion

open LiteralLint.Tree

/-! ### Sizes of tasks -/

/-- The size of the constructs that some tasks stand for. -/
def weight (ts : List Task) : Nat := forestSize (ts.map Task.tree)

theorem weight_append (ts us : List Task) : weight (ts ++ us) = weight ts + weight us := by
  simp [weight, forestSize_append]

theorem weight_childTasks_map (t : ParseTree) (role : ParseTree → String) (cs : List ParseTree) :
    weight (cs.map fun c => childTask t (role c) c) = forestSize cs := by
  simp [weight, childTask, Function.comp_def]

theorem weight_filterMap_le {f : ParseTree → Option Task} {cs : List ParseTree}
    (h : ∀ c k, f c = some k → k.tree.size ≤ c.size) :
    weight (cs.filterMap f) ≤ forestSize cs := by
  induction cs with
  | nil => simp [weight, forestSize]
  | cons c rest ih =>
    cases hc : f c with
    | none => simp [hc, forestSize]; omega
    | some k =>
      have := h c k hc
      simp only [List.filterMap_cons, hc, weight, List.map_cons, forestSize] at ih ⊢
      omega

theorem forestSize_namedChildren_le (t : ParseTree) :
    forestSize t.namedChildren ≤ forestSize t.children := forestSize_filter_le _ _

theorem size_le_of_inField? {name : String} {t c : ParseTree} (h : t.inField? name = some c) :
    c.size ≤ forestSize t.children := size_le_forestSize (List.mem_of_find?_eq_some h)

/-- Children in two different fields are two children. -/
theorem size_add_size_le {f g : String} (hfg : f ≠ g) {cs : List ParseTree} {c d : ParseTree}
    (hc : cs.find? (fun x => x.field == some f) = some c)
    (hd : cs.find? (fun x => x.field == some g) = some d) :
    c.size + d.size ≤ forestSize cs := by
  induction cs with
  | nil => simp at hc
  | cons x rest ih =>
    simp only [List.find?_cons] at hc hd
    by_cases hf : x.field = some f
    · have hg : ¬ x.field = some g := by rw [hf]; simpa using hfg
      simp only [hf, beq_self_eq_true] at hc
      have hg' : (x.field == some g) = false := by simpa using hg
      rw [hg'] at hd
      have := size_le_forestSize (List.mem_of_find?_eq_some hd)
      cases hc
      simp [forestSize]; omega
    · have hf' : (x.field == some f) = false := by simpa using hf
      rw [hf'] at hc
      by_cases hg : x.field = some g
      · simp only [hg, beq_self_eq_true] at hd
        have := size_le_forestSize (List.mem_of_find?_eq_some hc)
        cases hd
        simp [forestSize]; omega
      · have hg' : (x.field == some g) = false := by simpa using hg
        rw [hg'] at hd
        have := ih hc hd
        simp [forestSize]; omega

mutual

theorem size_core?_le (within : String) :
    (t : ParseTree) → ∀ u v, core? within t = some (u, v) → u.size ≤ t.size
  | .node c cs, u, v, h => by
    rw [core?] at h
    split at h
    · cases h
    · split at h
      · have := size_firstCore?_le c.type cs u v h
        simp [size]; omega
      · cases h; exact Nat.le_refl _

theorem size_firstCore?_le (within : String) :
    (ts : List ParseTree) → ∀ u v, firstCore? within ts = some (u, v) → u.size ≤ forestSize ts
  | [], _, _, h => by simp [firstCore?] at h
  | t :: rest, u, v, h => by
    rw [firstCore?] at h
    split at h
    · have := size_core?_le within t u v h
      simp [forestSize]; omega
    · have := size_firstCore?_le within rest u v h
      simp [forestSize]; omega

end

theorem weight_childTasks_le (t : ParseTree) : weight (childTasks t) ≤ forestSize t.children := by
  rw [childTasks, weight_childTasks_map t (fun c => roleOf t.type c.field)]
  exact forestSize_namedChildren_le t

theorem size_propertyTask?_le {t c : ParseTree} {k : Task} (h : propertyTask? t c = some k) :
    k.tree.size ≤ c.size := by
  simp only [propertyTask?] at h
  split at h
  · obtain ⟨d, hd, rfl⟩ := Option.map_eq_some_iff.1 h
    have h1 := size_le_forestSize (List.mem_of_head? hd)
    have h2 := forestSize_namedChildren_le c
    have h3 := size_eq c
    simp only [childTask]; omega
  · cases h; exact Nat.le_refl _

theorem weight_call_le (t : ParseTree) (n : Node) :
    weight (call t n).tasks ≤ forestSize t.children := by
  have single (role : String) (f : ParseTree) : weight [childTask t role f] = f.size := by
    simp [weight, childTask, forestSize]
  unfold call
  split
  case h_1 =>
    cases hf : t.inField? "function" with
    | none => simp [weight, forestSize]
    | some f => simpa [single] using size_le_of_inField? hf
  case h_2 a ha =>
    have hsize := size_eq a
    have hnamed := forestSize_namedChildren_le a
    have hargs : weight (a.namedChildren.map (childTask a "argument")) ≤ forestSize a.children := by
      exact Nat.le_trans (Nat.le_of_eq (weight_childTasks_map a (fun _ => "argument") _)) hnamed
    have ha' := size_le_of_inField? ha
    cases hf : t.inField? "function" with
    | none =>
      split
      · simpa [single] using ha'
      · simp only [Option.toList_none, List.map_nil, List.nil_append]; omega
    | some f =>
      have := size_add_size_le (by decide) hf ha
      split
      · simp only [Option.toList_some, List.map_cons, List.map_nil, weight_append, single]
        exact this
      · simp only [Option.toList_some, List.map_cons, List.map_nil, weight_append, single]
        omega

theorem weight_assertion_le (t : ParseTree) (n : Node) :
    weight (assertion t n).tasks ≤ forestSize t.children := by
  have : (assertion t n).tasks.map Task.tree
      = t.namedChildren.filter fun c : ParseTree => !isDropped c.type := by
    apply List.ext_getElem <;> simp [assertion, childTask]
  rw [weight, this]
  exact Nat.le_trans (forestSize_filter_le _ _) (forestSize_namedChildren_le t)

theorem weight_binding_le (ctx : Context) (t : ParseTree) (n : Node) :
    weight (binding ctx t n).tasks ≤ forestSize t.children := by
  have (target : String) : weight (t.namedChildren.map fun c => childTask t (bindingRole target c) c)
      ≤ forestSize t.children := by
    rw [weight_childTasks_map]; exact forestSize_namedChildren_le t
  unfold binding
  split <;> exact this _

theorem weight_attr_le (ctx : Context) (t : ParseTree) (n : Node) :
    weight (attr ctx t n).tasks ≤ forestSize t.children := by
  unfold attr
  have h := forestSize_namedChildren_le t
  split
  case h_1 => simp [weight, forestSize]
  case h_2 name values hn =>
    rw [hn] at h
    simp only [forestSize] at h
    refine Nat.le_trans (Nat.le_of_eq (weight_childTasks_map t (fun _ => "value") _)) ?_
    refine Nat.le_trans (forestSize_filter_le _ _) ?_
    omega

/-- The tasks below a construct are smaller than the construct. -/
theorem weight_expand_lt (ctx : Context) (task : Task) :
    weight (expand ctx task).tasks < task.tree.size := by
  have hsize := size_eq task.tree
  suffices h : weight (expand ctx task).tasks ≤ forestSize task.tree.children by omega
  have hnone : weight [] ≤ forestSize task.tree.children := by simp [weight, forestSize]
  have hchildren := weight_childTasks_le task.tree
  simp only [expand]
  split
  case h_2 =>
    simp only [template]
    rw [weight_childTasks_map task.tree (fun _ => "expression")]
    exact forestSize_filter_le _ _
  case h_9 => exact weight_call_le _ _
  case h_10 =>
    simp only [element]
    rw [weight_childTasks_map task.tree
      (fun c => if c.field == some "open_tag" then "opening" else "child")]
    exact forestSize_namedChildren_le _
  case h_11 => exact hchildren
  case h_12 => exact weight_attr_le ctx _ _
  case h_13 =>
    split
    · exact hnone
    · split
      · refine Nat.le_trans (weight_filterMap_le ?_) (forestSize_namedChildren_le task.tree)
        exact fun c k h => size_propertyTask?_le h
      · split
        · exact hchildren
        · split
          · exact weight_binding_le ctx _ _
          · split
            · exact weight_assertion_le _ _
            · exact hchildren
  all_goals exact hnone

/-! ### The stack -/

/-- An open node: its children so far, the latest first, and what is left to convert. -/
structure Frame where
  node : Node
  built : List (Tree Node) := []
  tasks : List Task := []
  namedBy : Option NodeKind := none

namespace Frame

/-- The frame with its node named by a child, if children of that kind name it. -/
def hear (child : Node) (f : Frame) : Frame :=
  if f.namedBy == some child.kind then { f with node := { f.node with name := child.name } } else f

/-- The frame with one more child. -/
def add (child : Tree Node) (f : Frame) : Frame := { f with built := child :: f.built }

/-- The node with the children it has. -/
def close (f : Frame) : Tree Node := .node f.node f.built.reverse

/-- The frame of a construct. -/
def ofExpansion (e : Expansion) : Frame := ⟨e.node, e.ready.reverse, e.tasks, e.namedBy⟩

/-- The frame of a node around another, which has nothing to convert itself. -/
def ofNode (n : Node) : Frame := { node := n }

end Frame

/-- A bound on the steps left. -/
def work : List Frame → Nat
  | [] => 0
  | f :: rest => 3 * weight f.tasks + 1 + work rest

/-- The frames that the construct of a task opens, the innermost first. -/
def opened (e : Expansion) : List Frame :=
  Frame.ofExpansion e :: (e.around.map Frame.ofNode).toList

/-- The node that the construct of a task becomes: the outermost of the nodes it opens. -/
def Expansion.outerNode (e : Expansion) : Node := e.around.getD e.node

theorem work_append (fs gs : List Frame) : work (fs ++ gs) = work fs + work gs := by
  induction fs with
  | nil => simp [work]
  | cons f rest ih => simp [work, ih]; omega

theorem work_opened_le (e : Expansion) : work (opened e) ≤ 3 * weight e.tasks + 2 := by
  unfold opened
  cases e.around <;> simp [work, Frame.ofExpansion, Frame.ofNode, weight, forestSize]

theorem tasks_hear (child : Node) (f : Frame) : (f.hear child).tasks = f.tasks := by
  unfold Frame.hear; split <;> rfl

/-- A program tree, with the names of types that were expanded on the way. -/
structure Converted where
  tree : Tree Node
  expansions : List TypeAnnotation.Expansion := []

/-- The tree that a stack of frames becomes. -/
def run (ctx : Context) (expansions : List TypeAnnotation.Expansion) (f : Frame)
    (below : List Frame) : Converted :=
  match _tasks : f.tasks with
  | [] =>
    match below with
    | [] => ⟨f.close, expansions⟩
    | g :: rest => run ctx expansions (g.add f.close) rest
  | task :: later =>
    let g := { f with tasks := later }
    match _core : core? task.within task.tree with
    | none => run ctx expansions g below
    | some (tree, within) =>
      let e := expand ctx ⟨tree, task.role, within⟩
      let open' := g.hear e.outerNode :: below
      match e.around with
      | none => run ctx (expansions ++ e.expansions) (.ofExpansion e) open'
      | some n => run ctx (expansions ++ e.expansions) (.ofExpansion e) (.ofNode n :: open')
termination_by work (f :: below)
decreasing_by
  · simp only [work, Frame.add]; omega
  · have := size_pos task.tree
    simp only [work, weight, _tasks, List.map_cons, forestSize]
    omega
  all_goals
    have h1 := size_core?_le task.within task.tree tree within _core
    have h2 := weight_expand_lt ctx ⟨tree, task.role, within⟩
    simp only [work, weight, _tasks, tasks_hear, Frame.ofExpansion, Frame.ofNode, List.map_cons,
      List.map_nil, forestSize] at h1 h2 ⊢
    omega

/-- The program tree of a parse tree. A tree of which nothing is left becomes a lone node. -/
def convert (ctx : Context) (t : ParseTree) : Converted :=
  let holder : Frame := { node := { kind := .other }, tasks := [⟨t, none, ""⟩] }
  let c := run ctx [] holder []
  match c.tree.children with
  | [] => ⟨.node { kind := .other, label := t.type } [], c.expansions⟩
  | u :: _ => ⟨u, c.expansions⟩

end Conversion

end LiteralLint
