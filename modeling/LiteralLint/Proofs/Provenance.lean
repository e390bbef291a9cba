import Mathlib.Logic.Relation
import LiteralLint.Proofs.Arena
import LiteralLint.Proofs.Conversion

/-!
# Where nodes come from

A node of a program tree stems from one place in the parse tree. The program tree itself does not
show which: places with the same text and extent leave the same traces in a node. So conversion is
repeated with the place written beside every node. What is then read off the node alone is the
program tree, and what is read off the places says how the program tree lies in the parse tree.

Nearly all parts of a construct are its children. Only the arguments of a call and the expression in
a bracketed key stand one level deeper.

## Main definitions

* `Row`: a construct in a parse tree, with what encloses it.
* `Conversion.rowsBelow`: the rows that are converted below a row.
* `Conversion.trace`: conversion by recursion, with the row of every node.

## Main results

* `Conversion.tasks_eq_rowsBelow`: these rows are what is left to convert.
* `Conversion.trace_map_fst`: without the rows, tracing is converting.
* `Conversion.everywhere_isNodeOf`: every node has the type, the text and the place of its row.
-/

namespace LiteralLint

/-! ## Rows -/

/-- A construct in a parse tree: the subtree, and the trees that enclose it, the nearest first. -/
structure Row where
  tree : ParseTree
  above : List ParseTree := []

namespace Row

/-- A child of the construct. -/
def child (r : Row) (c : ParseTree) : Row := ⟨c, r.tree :: r.above⟩

/-- The type of the construct around a row. -/
def within (r : Row) : String := (r.above.head?.map ParseTree.type).getD ""

/-- The row as something to convert. -/
def task (r : Row) (role : Option String) : Conversion.Task := ⟨r.tree, role, r.within⟩

/-- Some children, each as something to convert. -/
def childrenAs (r : Row) (role : ParseTree → String) (cs : List ParseTree) :
    List (Row × Option String) :=
  cs.map fun c => (r.child c, some (role c))

/-- A row of a parse tree: the root, or a child of a row. -/
inductive In (t : ParseTree) : Row → Prop
  | root : In t ⟨t, []⟩
  | child {r : Row} {c : ParseTree} (h : In t r) (hc : c ∈ r.tree.children) : In t (r.child c)

end Row

namespace Conversion

open Relation (ReflTransGen)

/-! ## What is converted below a row -/

/-- The rows converted below a call. -/
def callRows (r : Row) : List (Row × Option String) :=
  let function := (r.tree.inField? "function").toList
  match r.tree.inField? "arguments" with
  | none => r.childrenAs (fun _ => "callee") function
  | some a =>
    if a.type == "template_string" then
      r.childrenAs (fun _ => "tag") function ++ r.childrenAs (fun _ => "quasi") [a]
    else
      r.childrenAs (fun _ => "callee") function ++
        (r.child a).childrenAs (fun _ => "argument") a.namedChildren

/-- The row converted for a part of an object property. -/
def propertyRow? (r : Row) (c : ParseTree) : Option (Row × Option String) :=
  let role := roleOf r.tree.type c.field
  if isComputedKey role c then
    c.namedChildren.head?.map fun inner => ((r.child c).child inner, some role)
  else some (r.child c, some role)

/-- The rows that are converted below a row, in their roles. They are children, but for calls and
object properties. -/
def rowsBelow (ctx : Context) (r : Row) (role : Option String) : List (Row × Option String) :=
  if r.tree.type == "call_expression" then callRows r
  else if tableKind r.tree.type == .objectProperty then
    r.tree.namedChildren.filterMap (propertyRow? r)
  else (expand ctx (r.task role)).tasks.map fun k => (r.child k.tree, k.role)

/-- The task that a row in a role is. -/
def taskOf (x : Row × Option String) : Task := x.1.task x.2

theorem taskOf_childrenAs (r : Row) (role : ParseTree → String) (cs : List ParseTree) :
    (r.childrenAs role cs).map taskOf = cs.map fun c => childTask r.tree (role c) c := by
  rw [Row.childrenAs, List.map_map]
  rfl

theorem tasks_call (r : Row) (n : Node) : (call r.tree n).tasks = (callRows r).map taskOf := by
  unfold call callRows
  cases r.tree.inField? "arguments" with
  | none => exact (taskOf_childrenAs r _ _).symm
  | some a =>
      dsimp only
      split
      · rw [List.map_append, taskOf_childrenAs, taskOf_childrenAs]
        rfl
      · rw [List.map_append, taskOf_childrenAs, taskOf_childrenAs]
        rfl

theorem tasks_property (r : Row) (n : Node) :
    (property r.tree n).tasks = (r.tree.namedChildren.filterMap (propertyRow? r)).map taskOf := by
  unfold property
  dsimp only
  rw [List.map_filterMap]
  refine List.filterMap_congr fun c _ => ?_
  unfold propertyTask? propertyRow?
  dsimp only
  split
  · rw [Option.map_map]
    rfl
  · rfl

/-- A construct that becomes an object property by its type alone. -/
theorem expand_of_objectProperty (ctx : Context) (task : Task)
    (h : tableKind task.tree.type = .objectProperty) :
    expand ctx task = property task.tree (plainNode ctx task.tree task.role) := by
  have hname : identifierTypes.contains task.tree.type = false := by
    have hnames : ∀ name ∈ identifierTypes, tableKind name ≠ .objectProperty := by decide
    exact Bool.eq_false_iff.2 fun hmem => hnames _ (List.contains_iff_mem.1 hmem) h
  have hkind : (plainNode ctx task.tree task.role).kind = .objectProperty := h
  unfold expand
  dsimp only
  split
  case h_13 => rw [hname, if_neg Bool.false_ne_true, hkind, if_pos (beq_self_eq_true _)]
  all_goals
    rename_i htype
    rw [htype] at h
    exact absurd h (by decide)

theorem expand_of_call (ctx : Context) (task : Task) (h : task.tree.type = "call_expression") :
    expand ctx task = call task.tree (plainNode ctx task.tree task.role) := by
  unfold expand
  dsimp only
  rw [h]
  rfl

/-- What is left to convert below a construct stands right in it, but for calls and properties. -/
theorem child_of_mem_tasks {ctx : Context} {k k' : Task}
    (hcall : k.tree.type ≠ "call_expression") (hproperty : tableKind k.tree.type ≠ .objectProperty)
    (h : k' ∈ (expand ctx k).tasks) : k'.tree ∈ k.tree.children ∧ k'.within = k.tree.type := by
  have hmap : ∀ (role : ParseTree → String) (cs : List ParseTree), (∀ c ∈ cs, c ∈ k.tree.children) →
      (k' ∈ cs.map fun c => childTask k.tree (role c) c) →
      k'.tree ∈ k.tree.children ∧ k'.within = k.tree.type := by
    intro role cs hcs hk'
    obtain ⟨c, hc, rfl⟩ := List.mem_map.1 hk'
    exact ⟨hcs c hc, rfl⟩
  have hnamed : ∀ c ∈ k.tree.namedChildren, c ∈ k.tree.children :=
    fun c hc => (List.mem_filter.1 hc).1
  have hchildren : k' ∈ childTasks k.tree → k'.tree ∈ k.tree.children ∧ k'.within = k.tree.type :=
    hmap (fun c => roleOf k.tree.type c.field) _ hnamed
  have hkind : ((plainNode ctx k.tree k.role).kind == .objectProperty) = false :=
    beq_eq_false_iff_ne.2 hproperty
  unfold expand at h
  dsimp only at h
  split at h
  case h_2 => exact hmap (fun _ => "expression") _ (fun c hc => (List.mem_filter.1 hc).1) h
  case h_9 htype => exact absurd htype hcall
  case h_10 =>
    exact hmap (fun c => if c.field == some "open_tag" then "opening" else "child") _ hnamed h
  case h_11 => exact hchildren h
  case h_12 =>
    unfold attr at h
    split at h
    · cases h
    · rename_i name values hvalues
      refine hmap (fun _ => "value") _ (fun c hc => hnamed c ?_) h
      rw [hvalues]
      exact List.mem_cons_of_mem name (List.mem_filter.1 hc).1
  case h_13 =>
    rw [hkind, if_neg Bool.false_ne_true] at h
    split at h
    · cases h
    split at h
    · exact hchildren h
    split at h
    · unfold binding at h
      split at h <;> exact hmap (fun c => bindingRole _ c) _ hnamed h
    split at h
    · obtain ⟨i, hi, rfl⟩ := List.mem_mapIdx.1 h
      exact ⟨hnamed _ (List.mem_filter.1 (List.getElem_mem hi)).1, rfl⟩
    · exact hchildren h
  all_goals cases h

/-- **The rows below a row are what is left to convert.** -/
theorem tasks_eq_rowsBelow (ctx : Context) (r : Row) (role : Option String) :
    (expand ctx (r.task role)).tasks = (rowsBelow ctx r role).map taskOf := by
  unfold rowsBelow
  by_cases hcall : r.tree.type = "call_expression"
  · rw [if_pos (beq_iff_eq.2 hcall), expand_of_call ctx (r.task role) hcall]
    exact tasks_call r _
  rw [if_neg (mt beq_iff_eq.1 hcall)]
  by_cases hproperty : tableKind r.tree.type = .objectProperty
  · rw [if_pos (beq_iff_eq.2 hproperty), expand_of_objectProperty ctx (r.task role) hproperty]
    exact tasks_property r _
  rw [if_neg (mt beq_iff_eq.1 hproperty), List.map_map]
  refine (List.map_id _).symm.trans (List.map_congr_left fun k hk => ?_)
  have hwithin : k.within = r.tree.type := (child_of_mem_tasks hcall hproperty hk).2
  show k = ⟨k.tree, k.role, r.tree.type⟩
  rw [← hwithin]

theorem mem_childrenAs {r : Row} {role : ParseTree → String} {cs : List ParseTree}
    {x : Row × Option String} (h : x ∈ r.childrenAs role cs) : ∃ c ∈ cs, x.1 = r.child c := by
  obtain ⟨c, hc, rfl⟩ := List.mem_map.1 h
  exact ⟨c, hc, rfl⟩

/-- A row below a call is a child of it or an argument. -/
theorem mem_callRows {r : Row} {x : Row × Option String} (h : x ∈ callRows r) :
    (∃ c ∈ r.tree.children, x.1 = r.child c) ∨
      ∃ a ∈ r.tree.children, ∃ c ∈ a.children, x.1 = (r.child a).child c := by
  have hfunction : ∀ role, x ∈ r.childrenAs role (r.tree.inField? "function").toList →
      ∃ c ∈ r.tree.children, x.1 = r.child c := by
    intro role hx
    obtain ⟨c, hc, heq⟩ := mem_childrenAs hx
    exact ⟨c, mem_children_of_inField? (Option.mem_toList.1 hc), heq⟩
  unfold callRows at h
  split at h
  · exact Or.inl (hfunction _ h)
  · rename_i a ha
    have hchild := mem_children_of_inField? ha
    split at h
    · rcases List.mem_append.1 h with h | h
      · exact Or.inl (hfunction _ h)
      · obtain ⟨c, hc, heq⟩ := mem_childrenAs h
        exact Or.inl ⟨c, List.mem_singleton.1 hc ▸ hchild, heq⟩
    · rcases List.mem_append.1 h with h | h
      · exact Or.inl (hfunction _ h)
      · obtain ⟨c, hc, heq⟩ := mem_childrenAs h
        exact Or.inr ⟨a, hchild, c, (List.mem_filter.1 hc).1, heq⟩

/-- The row for a part of a property is the part or, in brackets, the expression inside. -/
theorem propertyRow?_eq_some {r : Row} {b : ParseTree} {x : Row × Option String}
    (h : propertyRow? r b = some x) :
    (isComputedKey (roleOf r.tree.type b.field) b = false ∧
      x = (r.child b, some (roleOf r.tree.type b.field))) ∨
    (isComputedKey (roleOf r.tree.type b.field) b = true ∧
      ∃ c ∈ b.children, x = ((r.child b).child c, some (roleOf r.tree.type b.field))) := by
  unfold propertyRow? at h
  dsimp only at h
  split at h
  · rename_i hkey
    obtain ⟨c, hc, rfl⟩ := Option.map_eq_some_iff.1 h
    exact Or.inr ⟨hkey, c, (List.mem_filter.1 (List.mem_of_head? hc)).1, rfl⟩
  · rename_i hkey
    cases h
    exact Or.inl ⟨Bool.eq_false_iff.2 hkey, rfl⟩

/-- A row below another is a child of it, an argument of a call, or the expression in a bracketed
key. Below an object property the brackets themselves are no such row. -/
theorem mem_rowsBelow {ctx : Context} {r : Row} {role : Option String} {x : Row × Option String}
    (h : x ∈ rowsBelow ctx r role) :
    (∃ c ∈ r.tree.children, x.1 = r.child c ∧ (tableKind r.tree.type = .objectProperty →
      isComputedKey (roleOf r.tree.type (ParseTree.field c)) c = false ∧
        x.2 = some (roleOf r.tree.type (ParseTree.field c)))) ∨
    (r.tree.type = "call_expression" ∧ ∃ a ∈ r.tree.children, ∃ c ∈ a.children,
      x.1 = (r.child a).child c) ∨
    (tableKind r.tree.type = .objectProperty ∧ ∃ b ∈ r.tree.children, ∃ c ∈ b.children,
      isComputedKey (roleOf r.tree.type (ParseTree.field b)) b = true ∧
        x = ((r.child b).child c, some (roleOf r.tree.type (ParseTree.field b)))) := by
  unfold rowsBelow at h
  split at h
  · rename_i hcall
    have hkind : tableKind r.tree.type ≠ .objectProperty := by
      rw [eq_of_beq hcall]
      decide
    rcases mem_callRows h with ⟨c, hc, heq⟩ | hargument
    · exact Or.inl ⟨c, hc, heq, fun hproperty => absurd hproperty hkind⟩
    · exact Or.inr (Or.inl ⟨eq_of_beq hcall, hargument⟩)
  rename_i hcall
  split at h
  · rename_i hproperty
    obtain ⟨b, hb, hx⟩ := List.mem_filterMap.1 h
    have hchild : b ∈ r.tree.children := (List.mem_filter.1 hb).1
    rcases propertyRow?_eq_some hx with ⟨hkey, rfl⟩ | ⟨hkey, c, hc, rfl⟩
    · exact Or.inl ⟨b, hchild, rfl, fun _ => ⟨hkey, rfl⟩⟩
    · exact Or.inr (Or.inr ⟨eq_of_beq hproperty, b, hchild, c, hc, hkey, rfl⟩)
  · rename_i hproperty
    obtain ⟨k, hk, rfl⟩ := List.mem_map.1 h
    have hchild := (child_of_mem_tasks (mt beq_iff_eq.2 hcall) (mt beq_iff_eq.2 hproperty) hk).1
    exact Or.inl ⟨k.tree, hchild, rfl, fun hkind => absurd (beq_iff_eq.2 hkind) hproperty⟩

theorem size_lt_of_mem_rowsBelow {ctx : Context} {r : Row} {role : Option String}
    {x : Row × Option String} (h : x ∈ rowsBelow ctx r role) : x.1.tree.size < r.tree.size := by
  have hmem : taskOf x ∈ (expand ctx (r.task role)).tasks := by
    rw [tasks_eq_rowsBelow]
    exact List.mem_map_of_mem h
  exact size_lt_of_mem_tasks hmem

/-! ## Conversion with rows -/

/-- The subtrees of an expansion that need no conversion, with their rows: the strings in the
attribute of an element. -/
def readyRows (ctx : Context) (r : Row) : List (Tree (Node × Row)) :=
  if r.tree.type == "jsx_attribute" then
    (r.tree.namedChildren.tail.filter fun v => v.type == "string").map fun v =>
      .node (attributeString ctx v, r.child v) []
  else []

/-- The tree of a row from the trees of the rows below it. -/
def Expansion.traced (e : Expansion) (r : Row) (ready below : List (Tree (Node × Row))) :
    Tree (Node × Row) :=
  let node : Tree (Node × Row) :=
    .node (namedAfter e.node (below.map fun u => u.label.1), r) (ready ++ below)
  match e.around with
  | none => node
  | some n => .node (n, r) [node]

/-- What becomes of a row in a role, with the row of every node. -/
def trace (ctx : Context) (r : Row) (role : Option String) : Option (Tree (Node × Row)) :=
  if isDropped r.tree.type then none
  else if isTransparent r.tree.type then
    match _h : expressionIn? r.tree with
    | none => none
    | some inner => trace ctx (r.child inner) role
  else
    let below := (rowsBelow ctx r role).attach.filterMap fun x => trace ctx x.1.1 x.1.2
    some ((expand ctx (r.task role)).traced r (readyRows ctx r) below)
termination_by r.tree.size
decreasing_by
  · exact size_lt_of_expressionIn? _h
  · exact size_lt_of_mem_rowsBelow x.2

/-- What becomes of the rows below a row. -/
def traceBelow (ctx : Context) (r : Row) (role : Option String) : List (Tree (Node × Row)) :=
  (rowsBelow ctx r role).filterMap fun x => trace ctx x.1 x.2

section trace

variable {ctx : Context} {r : Row} {role : Option String}

theorem trace_of_isDropped (h : isDropped r.tree.type = true) : trace ctx r role = none := by
  rw [trace, if_pos h]

theorem trace_of_isTransparent (hdropped : isDropped r.tree.type = false)
    (h : isTransparent r.tree.type = true) :
    trace ctx r role = (expressionIn? r.tree).bind fun inner => trace ctx (r.child inner) role := by
  rw [trace, if_neg (by simp [hdropped]), if_pos h]
  split <;> rename_i hfind <;> rw [hfind] <;> rfl

theorem trace_of_record (hdropped : isDropped r.tree.type = false)
    (h : isTransparent r.tree.type = false) :
    trace ctx r role = some
      ((expand ctx (r.task role)).traced r (readyRows ctx r) (traceBelow ctx r role)) := by
  have hbelow : ((rowsBelow ctx r role).attach.filterMap fun x => trace ctx x.1.1 x.1.2) =
      traceBelow ctx r role := by
    unfold traceBelow
    conv_rhs => rw [← List.attach_map_subtype_val (rowsBelow ctx r role), List.filterMap_map]
    rfl
  rw [trace, if_neg (by simp [hdropped]), if_neg (by simp [h])]
  dsimp only
  rw [hbelow]

end trace

theorem expand_of_attribute (ctx : Context) (task : Task) (h : task.tree.type = "jsx_attribute") :
    expand ctx task = attr ctx task.tree (plainNode ctx task.tree task.role) := by
  unfold expand
  dsimp only
  rw [h]
  rfl

/-- Only attributes have parts that need no conversion. -/
theorem ready_of_ne (ctx : Context) {task : Task} (h : task.tree.type ≠ "jsx_attribute") :
    (expand ctx task).ready = [] := by
  unfold expand
  dsimp only
  split
  case h_9 =>
    unfold call
    split
    · rfl
    · split <;> rfl
  case h_12 htype => exact absurd htype h
  case h_13 =>
    split
    · rfl
    split
    · rfl
    split
    · rfl
    split
    · unfold binding
      split <;> rfl
    split <;> rfl
  all_goals rfl

theorem ready_attr (ctx : Context) (t : ParseTree) (n : Node) :
    (attr ctx t n).ready =
      (t.namedChildren.tail.filter fun v => v.type == "string").map fun v =>
        .node (attributeString ctx v) [] := by
  unfold attr
  cases t.namedChildren with
  | nil => rfl
  | cons name values => rfl

theorem ready_eq (ctx : Context) (r : Row) (role : Option String) :
    (expand ctx (r.task role)).ready = (readyRows ctx r).map (Tree.map Prod.fst) := by
  unfold readyRows
  by_cases hattr : r.tree.type = "jsx_attribute"
  · rw [if_pos (beq_iff_eq.2 hattr), expand_of_attribute ctx (r.task role) hattr, List.map_map]
    exact (ready_attr ctx r.tree _).trans (List.map_congr_left fun v _ => rfl)
  · rw [if_neg (mt beq_iff_eq.1 hattr)]
    exact ready_of_ne ctx hattr

/-- **Without the rows, tracing is converting.** -/
theorem trace_map_fst (ctx : Context) (r : Row) (role : Option String) :
    (trace ctx r role).map (Tree.map Prod.fst) =
      (conv ctx (r.task role)).map fun p => p.tree := by
  induction hsize : r.tree.size using Nat.strongRecOn generalizing r role with
  | ind size ih =>
      cases hdropped : isDropped r.tree.type with
      | true => rw [trace_of_isDropped hdropped, conv_of_isDropped ctx (r.task role) hdropped]; rfl
      | false =>
      cases htransparent : isTransparent r.tree.type with
      | true =>
          rw [trace_of_isTransparent hdropped htransparent,
            conv_of_isTransparent ctx (r.task role) hdropped htransparent]
          show _ = ((expressionIn? r.tree).bind _).map _
          cases hinner : expressionIn? r.tree with
          | none => rfl
          | some inner =>
              have hlt := size_lt_of_expressionIn? hinner
              rw [hsize] at hlt
              exact ih inner.size hlt (r.child inner) role rfl
      | false =>
          rw [trace_of_record hdropped htransparent,
            conv_of_record ctx (r.task role) hdropped htransparent]
          have hparts : ((expand ctx (r.task role)).tasks.filterMap (conv ctx)).map (fun p => p.tree) =
              (traceBelow ctx r role).map (Tree.map Prod.fst) := by
            rw [tasks_eq_rowsBelow, List.filterMap_map, List.map_filterMap, traceBelow,
              List.map_filterMap]
            refine List.filterMap_congr fun x hx => ?_
            have hlt := size_lt_of_mem_rowsBelow hx
            rw [hsize] at hlt
            exact (ih x.1.tree.size hlt x.1 x.2 rfl).symm
          have hlabels :
              ((expand ctx (r.task role)).tasks.filterMap (conv ctx)).map (fun p => p.tree.label) =
                (traceBelow ctx r role).map fun u => u.label.1 := by
            have hmapped := congrArg (List.map Tree.label) hparts
            rw [List.map_map, List.map_map] at hmapped
            exact hmapped.trans (List.map_congr_left fun u _ => Tree.label_map Prod.fst u)
          rw [Option.map_some, Option.map_some, record]
          unfold Expansion.traced Expansion.outcome
          dsimp only
          rw [hparts, hlabels, ready_eq, ← List.map_append]
          cases (expand ctx (r.task role)).around with
          | none => rw [Tree.map_node]
          | some n => rw [Tree.map_node, List.map_singleton, Tree.map_node]

/-! ## What holds of every node -/

/-- A row gives way to another: parentheses and the braces of a template to the expression inside. -/
def GivesWay (r s : Row) : Prop :=
  isTransparent r.tree.type = true ∧ ∃ inner, expressionIn? r.tree = some inner ∧ s = r.child inner

section trace

variable {ctx : Context} {r : Row} {role : Option String} {u : Tree (Node × Row)}

/-- What becomes of a row is what becomes of the row to which it gives way in the end. -/
theorem trace_eq_some (h : trace ctx r role = some u) :
    ∃ s, ReflTransGen GivesWay r s ∧ isDropped s.tree.type = false ∧
      isTransparent s.tree.type = false ∧
      u = (expand ctx (s.task role)).traced s (readyRows ctx s) (traceBelow ctx s role) := by
  induction hsize : r.tree.size using Nat.strongRecOn generalizing r with
  | ind size ih =>
      cases hdropped : isDropped r.tree.type with
      | true =>
          rw [trace_of_isDropped hdropped] at h
          cases h
      | false =>
      cases htransparent : isTransparent r.tree.type with
      | true =>
          rw [trace_of_isTransparent hdropped htransparent] at h
          obtain ⟨inner, hinner, htrace⟩ := Option.bind_eq_some_iff.1 h
          have hlt := size_lt_of_expressionIn? hinner
          rw [hsize] at hlt
          obtain ⟨s, hpath, hs⟩ := ih inner.size hlt (r := r.child inner) htrace rfl
          exact ⟨s, .head ⟨htransparent, inner, hinner, rfl⟩ hpath, hs⟩
      | false =>
          rw [trace_of_record hdropped htransparent] at h
          exact ⟨r, .refl, hdropped, htransparent, (Option.some.inj h).symm⟩

/-- The root of the tree of a row has the row beside it, and the kind and the role of the node that
the row becomes. -/
theorem label_traced (ctx : Context) (role : Option String) (s : Row)
    (ready below : List (Tree (Node × Row))) :
    let e := expand ctx (s.task role)
    (e.traced s ready below).label.2 = s ∧
      (e.traced s ready below).label.1.kind = e.outerNode.kind ∧
      (e.traced s ready below).label.1.role = role := by
  intro e
  have hrole : e.outerNode.role = role := role_expand ctx (s.task role)
  unfold Expansion.outerNode at hrole
  unfold Expansion.traced Expansion.outerNode
  cases haround : e.around with
  | none =>
      rw [haround] at hrole
      exact ⟨rfl, rfl, hrole⟩
  | some n =>
      rw [haround] at hrole
      exact ⟨rfl, rfl, hrole⟩

/-- What holds everywhere in the tree of a row: it holds of the nodes that a row becomes, and
whatever it takes of a row is handed on to the rows below. -/
theorem everywhere_trace {P : Node × Row → List (Tree (Node × Row)) → Prop}
    {Q : Row → Option String → Prop}
    (hway : ∀ r s role, Q r role → GivesWay r s → Q s role)
    (hbelow : ∀ r role, Q r role → isTransparent r.tree.type = false →
      ∀ x ∈ rowsBelow ctx r role, Q x.1 x.2)
    (hready : ∀ r role (v : ParseTree), Q r role → r.tree.type = "jsx_attribute" →
      v ∈ r.tree.children → v.type = "string" → P (attributeString ctx v, r.child v) [])
    (hnode : ∀ r role, Q r role → isTransparent r.tree.type = false →
      let e := expand ctx (r.task role)
      let below := traceBelow ctx r role
      let n := namedAfter e.node (below.map fun u => u.label.1)
      P (n, r) (readyRows ctx r ++ below) ∧
        ∀ m, e.around = some m → P (m, r) [.node (n, r) (readyRows ctx r ++ below)])
    (h : trace ctx r role = some u) (hr : Q r role) : u.Everywhere P := by
  induction hsize : r.tree.size using Nat.strongRecOn generalizing r role u with
  | ind size ih =>
      cases hdropped : isDropped r.tree.type with
      | true =>
          rw [trace_of_isDropped hdropped] at h
          cases h
      | false =>
      cases htransparent : isTransparent r.tree.type with
      | true =>
          rw [trace_of_isTransparent hdropped htransparent] at h
          obtain ⟨inner, hinner, htrace⟩ := Option.bind_eq_some_iff.1 h
          have hlt := size_lt_of_expressionIn? hinner
          rw [hsize] at hlt
          exact ih inner.size hlt htrace
            (hway r _ role hr ⟨htransparent, inner, hinner, rfl⟩) rfl
      | false =>
          rw [trace_of_record hdropped htransparent] at h
          have hready' : ∀ c ∈ readyRows ctx r, c.Everywhere P := by
            intro c hc
            unfold readyRows at hc
            split at hc
            · rename_i hattr
              obtain ⟨v, hv, rfl⟩ := List.mem_map.1 hc
              obtain ⟨hmem, hstring⟩ := List.mem_filter.1 hv
              have hchild := (List.mem_filter.1 (List.mem_of_mem_tail hmem)).1
              exact ⟨hready r role v hr (eq_of_beq hattr) hchild (eq_of_beq hstring), trivial⟩
            · cases hc
          have hbelow' : ∀ c ∈ traceBelow ctx r role, c.Everywhere P := by
            intro c hc
            obtain ⟨x, hx, htrace⟩ := List.mem_filterMap.1 hc
            have hlt := size_lt_of_mem_rowsBelow hx
            rw [hsize] at hlt
            exact ih x.1.tree.size hlt htrace (hbelow r role hr htransparent x hx) rfl
          have hforest : Tree.ForestEverywhere P (readyRows ctx r ++ traceBelow ctx r role) :=
            Tree.forestEverywhere_of_mem fun c hc =>
              (List.mem_append.1 hc).elim (hready' c) (hbelow' c)
          obtain ⟨hself, haround⟩ := hnode r role hr htransparent
          cases h
          unfold Expansion.traced
          cases hnodes : (expand ctx (r.task role)).around with
          | none => exact ⟨hself, hforest⟩
          | some m => exact ⟨haround m hnodes, ⟨hself, hforest⟩, trivial⟩

end trace

/-! ### Nodes and their rows -/

/-- A node has the type, the text and the place of a construct. -/
def IsNodeOf (ctx : Context) (t : ParseTree) (n : Node) : Prop :=
  n.label = t.type ∧ n.text = .text (t.text ctx.source) ∧ n.span = some (t.span ctx.source)

theorem IsNodeOf.named {ctx : Context} {t u : ParseTree} {n : Node} (h : IsNodeOf ctx t n) :
    IsNodeOf ctx t (named ctx u n) := by
  unfold Conversion.named
  split
  case h_2 => split <;> exact h
  all_goals exact h

/-- The nodes of an expansion have the type, the text and the place of a construct. -/
def Expansion.IsOf (ctx : Context) (t : ParseTree) (e : Expansion) : Prop :=
  IsNodeOf ctx t e.node ∧ ∀ m, e.around = some m → IsNodeOf ctx t m

theorem Expansion.isOf_of_node {ctx : Context} {t : ParseTree} {e : Expansion}
    (haround : e.around = none) (h : IsNodeOf ctx t e.node) : e.IsOf ctx t := by
  refine ⟨h, fun m hm => ?_⟩
  rw [haround] at hm
  cases hm

theorem isOf_expand (ctx : Context) (task : Task) : (expand ctx task).IsOf ctx task.tree := by
  have hplain : IsNodeOf ctx task.tree (plainNode ctx task.tree task.role) := ⟨rfl, rfl, rfl⟩
  unfold expand
  dsimp only
  split
  case h_9 =>
    unfold call
    split
    · exact Expansion.isOf_of_node rfl hplain
    · split <;> exact Expansion.isOf_of_node rfl hplain
  case h_11 =>
    refine ⟨IsNodeOf.named hplain, fun m hm => ?_⟩
    cases hm
    exact hplain
  case h_12 =>
    unfold attr
    split <;> exact Expansion.isOf_of_node rfl hplain
  case h_13 =>
    split
    · exact Expansion.isOf_of_node rfl hplain
    split
    · exact Expansion.isOf_of_node rfl hplain
    split
    · exact Expansion.isOf_of_node rfl hplain
    split
    · unfold binding
      split <;> exact Expansion.isOf_of_node rfl hplain
    split
    · exact Expansion.isOf_of_node rfl hplain
    · exact Expansion.isOf_of_node rfl (IsNodeOf.named hplain)
  all_goals exact Expansion.isOf_of_node rfl hplain

/-- **Every node stems from a row of the parse tree**, and has its type, its text and its place. -/
theorem everywhere_isNodeOf {ctx : Context} {t : ParseTree} {u : Tree (Node × Row)}
    (h : trace ctx ⟨t, []⟩ none = some u) :
    u.Everywhere fun l _ => l.2.In t ∧ IsNodeOf ctx l.2.tree l.1 := by
  refine everywhere_trace (Q := fun r _ => r.In t) ?_ ?_ ?_ ?_ h .root
  · rintro r s role hr ⟨-, inner, hinner, rfl⟩
    exact hr.child (List.mem_of_find?_eq_some hinner)
  · intro r role hr _ x hx
    rcases mem_rowsBelow hx with ⟨c, hc, hrow, -⟩ | ⟨-, a, ha, c, hc, hrow⟩ | ⟨-, b, hb, c, hc, -, rfl⟩
    · rw [hrow]
      exact hr.child hc
    · rw [hrow]
      exact (hr.child ha).child hc
    · exact (hr.child hb).child hc
  · exact fun r role v hr _ hv _ => ⟨hr.child hv, rfl, rfl, rfl⟩
  · intro r role hr _
    obtain ⟨hself, haround⟩ := isOf_expand ctx (r.task role)
    exact ⟨⟨hr, hself⟩, fun m hm => ⟨hr, haround m hm⟩⟩

/-! ## Whole parse trees -/

/-- The program tree of a parse tree, with the row of every node. -/
def traced (ctx : Context) (t : ParseTree) : Tree (Node × Row) :=
  (trace ctx ⟨t, []⟩ none).getD (.node ({ kind := .other, label := t.type }, ⟨t, []⟩) [])

/-- **Without the rows, the traced tree is the program tree.** -/
theorem traced_map_fst (ctx : Context) (t : ParseTree) :
    (traced ctx t).map Prod.fst = (convert ctx t).tree := by
  have hconvert := (convert_eq_recursively ctx t).1
  have htrace := trace_map_fst ctx ⟨t, []⟩ none
  rw [hconvert]
  unfold traced recursively
  change _ = (conv ctx ⟨t, none, ""⟩).map _ at htrace
  cases hconv : conv ctx ⟨t, none, ""⟩ with
  | none =>
      rw [hconv] at htrace
      rw [Option.map_eq_none_iff.1 htrace]
      rfl
  | some p =>
      rw [hconv] at htrace
      obtain ⟨u, hu, hmap⟩ := Option.map_eq_some_iff.1 htrace
      rw [hu]
      exact hmap

end Conversion

end LiteralLint
