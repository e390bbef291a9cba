import LiteralLint.Proofs.Recursion

/-!
# Conversion by a stack

Conversion works from a stack, so that the depth of a program is no limit, and names some nodes
from a child that is opened while the node itself is still open. It does what the recursion does.

A frame of the stack stands for a node that the recursion has begun. Finishing a frame by recursion
is converting what is left of it; finishing a stack is finishing the top and handing the tree to the
frame below. Every step of the stack leaves that alone, which is all there is to the proof, but for
names. A frame hears the name of a child when the child is opened, before the child has heard from
its own children. That is the final name because a node that names its parent, an identifier or an
opening, is not itself named by its children.

The tree does not show which constructs were converted, so the stack is also run with a log of them.

## Main definitions

* `Conversion.runLogged`, `Conversion.convertLogged`: conversion with a log.
* `Conversion.Frame.finished`, `Conversion.unwound`: open frames, finished by recursion.

## Main results

* `Conversion.runLogged_eq_unwound`: the stack finishes what is open as the recursion does.
* `Conversion.convert_eq_recursively`: the stack does what the recursion does.
-/

namespace LiteralLint

namespace Conversion

open LiteralLint.Tree

/-! ## Frames -/

/-- The outcome with what was recorded before it. -/
def Outcome.after (expansions : List TypeAnnotation.Expansion) (constructs : List Construct)
    (p : Outcome) : Outcome where
  tree := p.tree
  expansions := expansions ++ p.expansions
  constructs := constructs ++ p.constructs

theorem Outcome.after_after (xs ys : List TypeAnnotation.Expansion) (cs ds : List Construct)
    (p : Outcome) : (p.after ys ds).after xs cs = p.after (xs ++ ys) (cs ++ ds) := by
  simp [after]

namespace Frame

/-- The frame with one more child, whose name it hears. -/
def take (child : Tree Node) (f : Frame) : Frame := (f.hear child.label).add child

/-- A frame that hears identifiers or openings, if anything. -/
def Listens (f : Frame) : Prop :=
  f.namedBy = none ∨ f.namedBy = some .identifier ∨ f.namedBy = some .elementOpening

theorem namedBy_hear (child : Node) (f : Frame) : (f.hear child).namedBy = f.namedBy := by
  unfold hear
  split <;> rfl

/-- What a frame is after some children. -/
theorem foldl_take (children : List (Tree Node)) :
    ∀ f : Frame, children.foldl (fun g child => take child g) f =
      { f with
        node := { f.node with
          name := (((children.map Tree.label).filter fun c => f.namedBy == some c.kind).getLast?.map
            Node.name).getD f.node.name }
        built := children.reverse ++ f.built } := by
  induction children with
  | nil => intro f; rfl
  | cons child rest ih =>
      intro f
      have hnamedBy : (f.take child).namedBy = f.namedBy := namedBy_hear child.label f
      rw [List.foldl_cons, ih, hnamedBy]
      cases hhears : f.namedBy == some child.label.kind with
      | true => simp [take, hear, add, hhears, List.getLast?_cons]
      | false => simp [take, hear, add, hhears]

/-- The outcome of a frame, with what is left of it converted by recursion. -/
def finished (ctx : Context) (f : Frame) : Outcome :=
  let parts : List Outcome := f.tasks.filterMap (conv ctx)
  let done : Frame := { f with tasks := [] }
  { tree := ((parts.map fun p => p.tree).foldl (fun g child => take child g) done).close
    expansions := parts.flatMap fun p => p.expansions
    constructs := parts.flatMap Outcome.constructs }

theorem finished_nil (ctx : Context) {f : Frame} (h : f.tasks = []) :
    f.finished ctx = ⟨⟨f.close, []⟩, []⟩ := by
  unfold finished
  rw [h]
  rfl

/-- A task that yields nothing is no loss. -/
theorem finished_of_none {ctx : Context} {f : Frame} {task : Task} {later : List Task}
    (htasks : f.tasks = task :: later) (h : conv ctx task = none) :
    f.finished ctx = { f with tasks := later }.finished ctx := by
  unfold finished
  rw [htasks, List.filterMap_cons_none h]

/-- The first task is converted first, and its tree is taken before the others are converted. -/
theorem finished_of_some {ctx : Context} {f : Frame} {task : Task} {later : List Task} {p : Outcome}
    (htasks : f.tasks = task :: later) (h : conv ctx task = some p) :
    f.finished ctx =
      ((take p.tree { f with tasks := later }).finished ctx).after p.expansions p.constructs := by
  have hlater : (take p.tree { f with tasks := later }).tasks = later := tasks_hear _ _
  have hdone : take p.tree { f with tasks := [] } =
      { take p.tree { f with tasks := later } with tasks := [] } := by
    unfold take hear
    split <;> rfl
  unfold finished Outcome.after
  rw [htasks, List.filterMap_cons_some h, hlater]
  dsimp only at hdone ⊢
  rw [List.map_cons, List.foldl_cons, List.flatMap_cons, List.flatMap_cons, hdone]

/-- A frame in which a construct has just been opened is finished as the recursion makes its
node. -/
theorem finished_ofExpansion (ctx : Context) (task : Task) :
    let e := expand ctx task
    let parts := e.tasks.filterMap (conv ctx)
    (ofExpansion e).finished ctx =
      ⟨⟨.node (namedAfter e.node (parts.map fun p => p.tree.label))
            (e.ready ++ parts.map fun p => p.tree),
          parts.flatMap fun p => p.expansions⟩,
        parts.flatMap Outcome.constructs⟩ := by
  intro e parts
  have hlabels : (parts.map fun p => p.tree).map Tree.label = parts.map fun p => p.tree.label :=
    List.map_map
  have hheard : ((parts.map fun p => p.tree.label).filter fun c => e.namedBy == some c.kind) =
      (parts.map fun p => p.tree.label).filter (givesName e.node) := by
    refine List.filter_congr fun c hc => ?_
    obtain ⟨p, hp, rfl⟩ := List.mem_map.1 hc
    exact hears_iff_givesName hp
  unfold finished ofExpansion
  dsimp only
  rw [foldl_take]
  dsimp only
  rw [hlabels, hheard]
  unfold close
  rw [List.reverse_append, List.reverse_reverse, List.reverse_reverse]
  rfl

/-- A node is heard when it is opened as it is heard when it is done. -/
theorem hear_outerNode {f : Frame} (hf : f.Listens) (e : Expansion) (c : Construct)
    (parts : List Outcome) : f.hear e.outerNode = f.hear (e.outcome c parts).tree.label := by
  obtain ⟨hkind, -, hlabel⟩ := label_outcome e c parts
  unfold hear
  rw [hkind]
  cases hhears : f.namedBy == some e.outerNode.kind with
  | false => rfl
  | true =>
      have hnamedBy := eq_of_beq hhears
      have hne : e.outerNode.kind ≠ .taggedTemplate ∧ e.outerNode.kind ≠ .element := by
        rcases hf with h | h | h
        · rw [h] at hnamedBy
          cases hnamedBy
        · rw [h] at hnamedBy
          rw [← Option.some.inj hnamedBy]
          decide
        · rw [h] at hnamedBy
          rw [← Option.some.inj hnamedBy]
          decide
      rw [hlabel hne.1 hne.2]

theorem listens_hear (child : Node) {f : Frame} (h : f.Listens) : (f.hear child).Listens := by
  unfold Listens
  rw [namedBy_hear]
  exact h

theorem listens_ofExpansion (ctx : Context) (task : Task) :
    (ofExpansion (expand ctx task)).Listens := by
  cases naming_expand ctx task with
  | alone hby _ => exact Or.inl hby
  | tag hby _ _ => exact Or.inr (Or.inl hby)
  | opening hby _ => exact Or.inr (Or.inr hby)

end Frame

/-! ## The stack -/

/-- The stack at work, with the constructs that it converts in the order in which it does. -/
def runLogged (ctx : Context) (expansions : List TypeAnnotation.Expansion)
    (constructs : List Construct) (f : Frame) (below : List Frame) : Outcome :=
  match _tasks : f.tasks with
  | [] =>
    match below with
    | [] => ⟨⟨f.close, expansions⟩, constructs⟩
    | g :: rest => runLogged ctx expansions constructs (g.add f.close) rest
  | task :: later =>
    let g := { f with tasks := later }
    match _core : core? task.within task.tree with
    | none => runLogged ctx expansions constructs g below
    | some (tree, within) =>
      let e := expand ctx ⟨tree, task.role, within⟩
      runLogged ctx (expansions ++ e.expansions) (constructs ++ [tree.label]) (.ofExpansion e)
        ((e.around.map Frame.ofNode).toList ++ g.hear e.outerNode :: below)
termination_by work (f :: below)
decreasing_by
  · simp only [work, Frame.add]; omega
  · have := size_pos task.tree
    simp only [work, weight, _tasks, List.map_cons, forestSize]
    omega
  · have hcore := size_core?_le task.within task.tree tree within _core
    have hopened := work_opened_le e
    have hexpand := weight_expand_lt ctx ⟨tree, task.role, within⟩
    simp only [opened, work, weight, _tasks, work_append, tasks_hear, e, List.map_cons,
      forestSize] at hcore hopened hexpand ⊢
    omega

section steps

variable {ctx : Context} {expansions : List TypeAnnotation.Expansion} {constructs : List Construct}
  {f : Frame} {below : List Frame}

theorem runLogged_last (htasks : f.tasks = []) :
    runLogged ctx expansions constructs f [] = ⟨⟨f.close, expansions⟩, constructs⟩ := by
  rw [runLogged.eq_def]
  split
  · rfl
  · simp_all

theorem runLogged_close {g : Frame} (htasks : f.tasks = []) :
    runLogged ctx expansions constructs f (g :: below) =
      runLogged ctx expansions constructs (g.add f.close) below := by
  rw [runLogged.eq_def]
  split
  · rfl
  · simp_all

theorem runLogged_drop {task : Task} {later : List Task} (htasks : f.tasks = task :: later)
    (hcore : core? task.within task.tree = none) :
    runLogged ctx expansions constructs f below =
      runLogged ctx expansions constructs { f with tasks := later } below := by
  rw [runLogged.eq_def]
  split
  · simp_all
  · rename_i heq
    rw [htasks] at heq
    cases heq
    dsimp only
    split
    · rfl
    · simp_all

theorem runLogged_open {task : Task} {later : List Task} {tree : ParseTree} {within : String}
    (htasks : f.tasks = task :: later)
    (hcore : core? task.within task.tree = some (tree, within)) :
    let e := expand ctx ⟨tree, task.role, within⟩
    runLogged ctx expansions constructs f below =
      runLogged ctx (expansions ++ e.expansions) (constructs ++ [tree.label]) (.ofExpansion e)
        ((e.around.map Frame.ofNode).toList ++
          Frame.hear e.outerNode { f with tasks := later } :: below) := by
  intro e
  rw [runLogged.eq_def]
  split
  · simp_all
  · rename_i heq
    rw [htasks] at heq
    cases heq
    dsimp only
    split
    · simp_all
    · rename_i heq
      rw [hcore] at heq
      cases heq
      rfl

end steps

/-- To keep a log changes nothing. -/
theorem run_eq_runLogged (ctx : Context) (expansions : List TypeAnnotation.Expansion)
    (constructs : List Construct) (f : Frame) (below : List Frame) :
    run ctx expansions f below = (runLogged ctx expansions constructs f below).toConverted := by
  fun_induction run ctx expansions f below generalizing constructs with
  | case1 expansions f htasks => rw [runLogged_last htasks]
  | case2 expansions f htasks g rest ih =>
      rw [runLogged_close htasks]
      exact ih constructs
  | case3 expansions f below task later htasks g hcore ih =>
      rw [runLogged_drop htasks hcore]
      exact ih constructs
  | case4 expansions f below task later htasks g tree within hcore e open' haround ih =>
      rw [runLogged_open htasks hcore, haround]
      exact ih (constructs ++ [tree.label])
  | case5 expansions f below task later htasks g tree within hcore e open' n haround ih =>
      rw [runLogged_open htasks hcore, haround]
      exact ih (constructs ++ [tree.label])

/-! ### What is open, finished by recursion -/

/-- The outcome of a stack when the frames below a finished one are finished in turn. -/
def unwound (ctx : Context) (p : Outcome) : List Frame → Outcome
  | [] => p
  | g :: rest =>
    unwound ctx (((g.add p.tree).finished ctx).after p.expansions p.constructs) rest

/-- A frame that opens a construct goes on as if the construct had been converted by recursion. -/
theorem finished_of_core? {ctx : Context} {f : Frame} (hf : f.Listens) {task : Task}
    {later : List Task} {tree : ParseTree} {within : String} (htasks : f.tasks = task :: later)
    (hcore : core? task.within task.tree = some (tree, within)) :
    let e := expand ctx ⟨tree, task.role, within⟩
    let p := record ctx ⟨tree, task.role, within⟩
    let g := Frame.hear e.outerNode { f with tasks := later }
    f.finished ctx = ((g.add p.tree).finished ctx).after p.expansions p.constructs := by
  intro e p g
  have hconv : conv ctx task = some p := by
    rw [conv_eq_core?, hcore]
    rfl
  have hg : g = Frame.hear p.tree.label { f with tasks := later } :=
    Frame.hear_outerNode (f := { f with tasks := later }) hf _ _ _
  rw [hg]
  exact Frame.finished_of_some htasks hconv

/-- The frames of a construct, finished, hand its record to the frame below. -/
theorem unwound_opened (ctx : Context) (k : Task) (expansions : List TypeAnnotation.Expansion)
    (constructs : List Construct) (below : List Frame) :
    let e := expand ctx k
    unwound ctx
        (((Frame.ofExpansion e).finished ctx).after (expansions ++ e.expansions)
          (constructs ++ [k.tree.label]))
        ((e.around.map Frame.ofNode).toList ++ below) =
      unwound ctx ((record ctx k).after expansions constructs) below := by
  intro e
  have hfinished := Frame.finished_ofExpansion ctx k
  dsimp only at hfinished
  rw [← Outcome.after_after]
  cases haround : e.around with
  | none =>
      have hrecord : ((Frame.ofExpansion e).finished ctx).after e.expansions [k.tree.label] =
          record ctx k := by
        rw [hfinished]
        unfold record Expansion.outcome
        rw [haround]
        rfl
      rw [hrecord]
      rfl
  | some n =>
      have hrecord : { ((Frame.ofExpansion e).finished ctx).after e.expansions [k.tree.label] with
          tree := .node n [((Frame.ofExpansion e).finished ctx).tree] } = record ctx k := by
        rw [hfinished]
        unfold record Expansion.outcome
        rw [haround]
        rfl
      rw [← hrecord]
      show unwound ctx (((Frame.ofNode n).add _).finished ctx |>.after _ _) below = _
      rw [Frame.finished_nil ctx (f := (Frame.ofNode n).add _) rfl]
      simp only [Outcome.after, List.append_nil]
      rfl

/-- **The stack finishes what is open as the recursion does.** -/
theorem runLogged_eq_unwound (ctx : Context) (expansions : List TypeAnnotation.Expansion)
    (constructs : List Construct) (f : Frame) (below : List Frame) (hf : f.Listens)
    (hbelow : ∀ g ∈ below, g.Listens) :
    runLogged ctx expansions constructs f below =
      unwound ctx ((f.finished ctx).after expansions constructs) below := by
  fun_induction runLogged ctx expansions constructs f below with
  | case1 expansions constructs f htasks =>
      rw [Frame.finished_nil ctx htasks]
      simp [Outcome.after, unwound]
  | case2 expansions constructs f htasks g rest ih =>
      rw [Frame.finished_nil ctx htasks]
      simp only [Outcome.after, List.append_nil]
      exact ih (hbelow g (by simp)) fun h hh => hbelow h (by simp [hh])
  | case3 expansions constructs f below task later htasks g hcore ih =>
      have hconv : conv ctx task = none := by
        rw [conv_eq_core?, hcore]
        rfl
      rw [Frame.finished_of_none htasks hconv]
      exact ih hf hbelow
  | case4 expansions constructs f below task later htasks g tree within hcore e ih =>
      have hopened : ∀ h ∈ (e.around.map Frame.ofNode).toList ++ g.hear e.outerNode :: below,
          h.Listens := by
        simp only [List.forall_mem_append, List.forall_mem_cons]
        refine ⟨fun h hh => ?_, Frame.listens_hear _ hf, hbelow⟩
        obtain ⟨n, -, rfl⟩ := Option.map_eq_some_iff.1 (Option.mem_toList.1 hh)
        exact Or.inl rfl
      rw [ih (Frame.listens_ofExpansion ctx _) hopened, unwound_opened,
        finished_of_core? hf htasks hcore, Outcome.after_after]
      rfl

/-! ## Whole parse trees -/

/-- Conversion, with the constructs that it converts in the order in which it does. -/
def convertLogged (ctx : Context) (t : ParseTree) : Outcome :=
  let holder : Frame := { node := { kind := .other }, tasks := [⟨t, none, ""⟩] }
  let p := runLogged ctx [] [] holder []
  match p.tree.children with
  | [] => { p with tree := .node { kind := .other, label := t.type } [] }
  | u :: _ => { p with tree := u }

theorem convert_eq_convertLogged (ctx : Context) (t : ParseTree) :
    convert ctx t = (convertLogged ctx t).toConverted := by
  unfold convert convertLogged
  dsimp only
  rw [run_eq_runLogged ctx [] []]
  cases (runLogged ctx [] [] _ []).tree.children with
  | nil => rfl
  | cons u rest => rfl

theorem convertLogged_eq_recursively (ctx : Context) (t : ParseTree) :
    convertLogged ctx t = recursively ctx t := by
  unfold convertLogged recursively
  dsimp only
  rw [runLogged_eq_unwound ctx [] [] _ [] (Or.inl rfl) (by simp), unwound]
  cases hconv : conv ctx ⟨t, none, ""⟩ with
  | none =>
      rw [Frame.finished_of_none rfl hconv, Frame.finished_nil ctx rfl]
      rfl
  | some p =>
      rw [Frame.finished_of_some rfl hconv, Frame.finished_nil ctx (tasks_hear _ _)]
      simp [Outcome.after, Frame.take, Frame.hear, Frame.add, Frame.close, Tree.children]

/-- **Conversion by a stack is conversion by recursion.** It yields the tree of the recursion, and
converts what the recursion does in the same order; none of it is converted twice. -/
theorem convert_eq_recursively (ctx : Context) (t : ParseTree) :
    convert ctx t = (recursively ctx t).toConverted ∧
      convert ctx t = (convertLogged ctx t).toConverted ∧
      (convertLogged ctx t).constructs = (recursively ctx t).constructs ∧
      (convertLogged ctx t).constructs.Subperm t.preorder := by
  have hconvert := convert_eq_convertLogged ctx t
  have hlogged := convertLogged_eq_recursively ctx t
  have honce : (recursively ctx t).constructs.Subperm t.preorder := by
    unfold recursively
    cases hconv : conv ctx ⟨t, none, ""⟩ with
    | none => exact List.nil_subperm
    | some p => exact constructs_subperm ctx _ hconv
  rw [hlogged] at hconvert ⊢
  exact ⟨hconvert, hconvert, rfl, honce⟩

end Conversion

end LiteralLint
