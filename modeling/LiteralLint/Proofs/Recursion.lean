import Mathlib.Data.List.Flatten
import Mathlib.Data.List.Perm.Basic
import Mathlib.Data.List.Perm.Subperm
import LiteralLint.Source.Conversion

/-!
# Conversion by recursion

What conversion is meant to do is said most simply by a recursion: a construct is dropped, or gives
way to the first expression inside, or becomes a node with the conversions of its parts as children,
in order. Some nodes take their name from a child: a template with a tag from the tag, an element
from its opening.

## Main definitions

* `Conversion.Outcome`: what becomes of a construct.
* `Conversion.namedAfter`: the name that a node takes from its children.
* `Conversion.conv`: the recursion.

## Main results

* `Conversion.conv_eq_core?`: the construct that another gives way to stands in for it.
* `Conversion.hears_iff_givesName`: what a frame waits for is the child that names its node.
* `Conversion.constructs_subperm`: the recursion converts no construct twice.
-/

namespace LiteralLint

namespace Conversion

open LiteralLint.Tree

/-! ## The recursion -/

/-- What becomes of a construct: its tree with the names of types that were expanded on the way,
and the constructs that were converted, each before those below it. -/
structure Outcome extends Converted where
  constructs : List Construct

/-- Whether a child gives its name to its parent: the tag of a template if it is an identifier, and
the opening of an element. -/
def givesName (parent child : Node) : Bool :=
  match parent.kind with
  | .taggedTemplate => child.role == some "tag" && child.kind == .identifier
  | .element => child.kind == .elementOpening
  | _ => false

/-- A node with the name of the last of its children that gives it one. -/
def namedAfter (n : Node) (children : List Node) : Node :=
  { n with name := ((children.filter (givesName n)).getLast?.map Node.name).getD n.name }

/-- The outcome of a construct from the outcomes of its parts. -/
def Expansion.outcome (e : Expansion) (c : Construct) (parts : List Outcome) : Outcome :=
  let node : Tree Node :=
    .node (namedAfter e.node (parts.map fun p => p.tree.label))
      (e.ready ++ parts.map fun p => p.tree)
  { tree := match e.around with
      | none => node
      | some n => .node n [node]
    expansions := e.expansions ++ parts.flatMap fun p => p.expansions
    constructs := c :: parts.flatMap Outcome.constructs }

theorem size_lt_of_mem_tasks {ctx : Context} {task k : Task} (h : k ∈ (expand ctx task).tasks) :
    k.tree.size < task.tree.size :=
  Nat.lt_of_le_of_lt (size_le_forestSize (List.mem_map_of_mem h)) (weight_expand_lt ctx task)

/-- The first expression inside a construct. -/
def expressionIn? (t : ParseTree) : Option ParseTree :=
  t.children.find? fun c : ParseTree => c.named && !isDropped c.type

theorem size_lt_of_expressionIn? {t inner : ParseTree} (h : expressionIn? t = some inner) :
    inner.size < t.size := size_lt_of_mem_children (List.mem_of_find?_eq_some h)

/-- What becomes of a construct in a role. Comments and closing tags yield nothing; parentheses and
the braces of a template yield what the first expression inside does; any other construct yields one
node, or an opening within an element, with what its parts yield below it. -/
def conv (ctx : Context) (task : Task) : Option Outcome :=
  if isDropped task.tree.type then none
  else if isTransparent task.tree.type then
    match _h : expressionIn? task.tree with
    | none => none
    | some inner => conv ctx ⟨inner, task.role, task.tree.type⟩
  else
    let e := expand ctx task
    some (e.outcome task.tree.label (e.tasks.attach.filterMap fun k => conv ctx k.1))
termination_by task.tree.size
decreasing_by
  · exact size_lt_of_expressionIn? _h
  · exact size_lt_of_mem_tasks k.2

/-- What becomes of a construct that is neither dropped nor gives way. -/
def record (ctx : Context) (task : Task) : Outcome :=
  (expand ctx task).outcome task.tree.label ((expand ctx task).tasks.filterMap (conv ctx))

theorem conv_of_isDropped (ctx : Context) (task : Task) (h : isDropped task.tree.type = true) :
    conv ctx task = none := by
  rw [conv, if_pos h]

theorem conv_of_isTransparent (ctx : Context) (task : Task)
    (hdropped : isDropped task.tree.type = false) (h : isTransparent task.tree.type = true) :
    conv ctx task = (expressionIn? task.tree).bind fun inner =>
      conv ctx ⟨inner, task.role, task.tree.type⟩ := by
  rw [conv, if_neg (by simp [hdropped]), if_pos h]
  split <;> rename_i hfind <;> rw [hfind] <;> rfl

theorem conv_of_record (ctx : Context) (task : Task)
    (hdropped : isDropped task.tree.type = false) (h : isTransparent task.tree.type = false) :
    conv ctx task = some (record ctx task) := by
  have hparts : ((expand ctx task).tasks.attach.filterMap fun k => conv ctx k.1) =
      (expand ctx task).tasks.filterMap (conv ctx) := by
    conv_rhs => rw [← List.attach_map_subtype_val (expand ctx task).tasks, List.filterMap_map]
    rfl
  rw [conv, if_neg (by simp [hdropped]), if_neg (by simp [h])]
  dsimp only
  rw [hparts]
  rfl

/-- The outcome for a whole parse tree. A tree of which nothing is left becomes a lone node. -/
def recursively (ctx : Context) (t : ParseTree) : Outcome :=
  (conv ctx ⟨t, none, ""⟩).getD
    { tree := .node { kind := .other, label := t.type } [], constructs := [] }

/-! ### What a construct gives way to -/

theorem firstCore?_eq (within : String) (cs : List ParseTree) :
    firstCore? within cs =
      (cs.find? fun c : ParseTree => c.named && !isDropped c.type).bind (core? within) := by
  induction cs with
  | nil => rfl
  | cons c rest ih =>
      rw [firstCore?, List.find?_cons]
      by_cases h : (ParseTree.named c && !isDropped (ParseTree.type c)) = true
      · rw [if_pos h, h]
        rfl
      · rw [if_neg h, ih, Bool.eq_false_iff.2 h]

/-- The recursion makes a record of the construct that another gives way to. -/
theorem conv_eq_core? (ctx : Context) (task : Task) :
    conv ctx task =
      (core? task.within task.tree).map fun x => record ctx ⟨x.1, task.role, x.2⟩ := by
  induction hsize : task.tree.size using Nat.strongRecOn generalizing task with
  | ind size ih =>
      obtain ⟨⟨c, cs⟩, role, within⟩ := task
      rw [core?]
      cases hdropped : isDropped c.type with
      | true =>
          rw [conv_of_isDropped ctx ⟨.node c cs, role, within⟩ hdropped]
          rfl
      | false =>
          cases htransparent : isTransparent c.type with
          | false =>
              rw [conv_of_record ctx ⟨.node c cs, role, within⟩ hdropped htransparent]
              rfl
          | true =>
              rw [conv_of_isTransparent ctx ⟨.node c cs, role, within⟩ hdropped htransparent]
              simp only [Bool.false_eq_true, if_false, if_true]
              rw [firstCore?_eq]
              show (expressionIn? (.node c cs)).bind _ =
                ((expressionIn? (.node c cs)).bind (core? c.type)).map _
              cases hfind : expressionIn? (.node c cs) with
              | none => rfl
              | some inner =>
                  have hlt := size_lt_of_expressionIn? hfind
                  rw [hsize] at hlt
                  exact ih inner.size hlt ⟨inner, role, c.type⟩ rfl

/-! ## Names -/

/-- How the node of an expansion gets its name: from no child, from the tag of a template, or from
the opening of an element. -/
inductive Naming (e : Expansion) : Prop
  | alone (hby : e.namedBy = none) (hnode : ∀ child, givesName e.node child = false)
  | tag (hby : e.namedBy = some .identifier) (hnode : e.node.kind = .taggedTemplate)
      (htasks : ∀ k ∈ e.tasks, k.role = some "tag" ∨
        k.role = some "quasi" ∧ k.tree.type = "template_string")
  | opening (hby : e.namedBy = some .elementOpening) (hnode : e.node.kind = .element)

theorem givesName_of_kind {n : Node} (htemplate : n.kind ≠ .taggedTemplate)
    (helement : n.kind ≠ .element) (child : Node) : givesName n child = false := by
  unfold givesName
  split
  · exact absurd ‹_› htemplate
  · exact absurd ‹_› helement
  · rfl

/-- Only templates with tags and elements take their names from children. -/
theorem namedAfter_of_kind {n : Node} (htemplate : n.kind ≠ .taggedTemplate)
    (helement : n.kind ≠ .element) (children : List Node) : namedAfter n children = n := by
  have hnone : children.filter (givesName n) = [] := by
    refine List.filter_eq_nil_iff.2 fun child _ => ?_
    rw [givesName_of_kind htemplate helement child]
    exact Bool.false_ne_true
  unfold namedAfter
  rw [hnone]
  rfl

/-- Templates with tags and elements are not told by the type of a construct alone. -/
theorem tableKind_ne (type : String) :
    tableKind type ≠ .taggedTemplate ∧ tableKind type ≠ .element := by
  have htable : ∀ x ∈ kindTable, x.2 ≠ .taggedTemplate ∧ x.2 ≠ .element := by decide
  unfold tableKind
  cases hlookup : kindTable.lookup type with
  | none => decide
  | some k =>
      obtain ⟨before, after, hsplit, -⟩ := List.lookup_eq_some_iff.1 hlookup
      exact htable (type, k) (by rw [hsplit]; simp)

theorem named_kind (ctx : Context) (t : ParseTree) (n : Node) : (named ctx t n).kind = n.kind := by
  unfold named
  split <;> try rfl
  split <;> rfl

theorem named_role (ctx : Context) (t : ParseTree) (n : Node) : (named ctx t n).role = n.role := by
  unfold named
  split <;> try rfl
  split <;> rfl

theorem naming_of_kind {e : Expansion} (hby : e.namedBy = none)
    (hkind : e.node.kind ≠ .taggedTemplate ∧ e.node.kind ≠ .element) : Naming e :=
  .alone hby (givesName_of_kind hkind.1 hkind.2)

theorem naming_call (t : ParseTree) {n : Node} : Naming (call t n) := by
  unfold call
  split
  · exact naming_of_kind rfl (by simp)
  · split
    · rename_i arguments _ htemplate
      refine .tag rfl rfl fun k hk => ?_
      rcases List.mem_append.1 hk with hk | hk
      · obtain ⟨f, -, rfl⟩ := List.mem_map.1 hk
        exact Or.inl rfl
      · rcases List.mem_singleton.1 hk with rfl
        exact Or.inr ⟨rfl, eq_of_beq htemplate⟩
    · exact naming_of_kind rfl (by simp)

theorem naming_expand (ctx : Context) (task : Task) : Naming (expand ctx task) := by
  have hplain : (plainNode ctx task.tree task.role).kind ≠ .taggedTemplate ∧
      (plainNode ctx task.tree task.role).kind ≠ .element := tableKind_ne task.tree.type
  unfold expand
  dsimp only
  split
  case h_1 => exact naming_of_kind rfl (by simp [literal])
  case h_2 => exact naming_of_kind rfl (by simp [template])
  case h_3 => exact naming_of_kind rfl (by simp [literal])
  case h_4 => exact naming_of_kind rfl (by simp [literal])
  case h_5 => exact naming_of_kind rfl (by simp [literal])
  case h_6 => exact naming_of_kind rfl (by simp [literal])
  case h_7 => exact naming_of_kind rfl (by simp [literal])
  case h_8 => exact naming_of_kind rfl (by simp)
  case h_9 => exact naming_call _
  case h_10 => exact .opening rfl rfl
  case h_11 => exact naming_of_kind rfl (by simp [selfClosingElement, named_kind])
  case h_12 =>
    unfold attr
    split
    · exact naming_of_kind rfl hplain
    · exact naming_of_kind rfl hplain
  case h_13 =>
    split
    · exact naming_of_kind rfl (by simp)
    · split
      · exact naming_of_kind rfl hplain
      · split
        · exact naming_of_kind rfl (by simp)
        · split
          · unfold binding
            split
            · exact naming_of_kind rfl hplain
            · exact naming_of_kind rfl hplain
          · split
            · exact naming_of_kind rfl hplain
            · refine naming_of_kind rfl ?_
              unfold general
              dsimp only
              rw [named_kind]
              dsimp only
              split
              · decide
              · split
                · decide
                · exact hplain

theorem role_call (t : ParseTree) (n : Node) : (call t n).outerNode.role = n.role := by
  unfold call
  split
  · rfl
  · split <;> rfl

/-- A node has the role that was asked for. -/
theorem role_expand (ctx : Context) (task : Task) :
    (expand ctx task).outerNode.role = task.role := by
  unfold expand
  dsimp only
  split
  case h_9 => exact role_call _ _
  case h_12 =>
    unfold attr
    split <;> rfl
  case h_13 =>
    split
    · rfl
    · split
      · rfl
      · split
        · rfl
        · split
          · unfold binding
            split <;> rfl
          · split
            · rfl
            · exact named_role _ _ _
  all_goals rfl

/-- The node at the root of an outcome is the one that was opened, but for a name that its children
may have given it. -/
theorem label_outcome (e : Expansion) (c : Construct) (parts : List Outcome) :
    (e.outcome c parts).tree.label.kind = e.outerNode.kind ∧
      (e.outcome c parts).tree.label.role = e.outerNode.role ∧
      (e.outerNode.kind ≠ .taggedTemplate → e.outerNode.kind ≠ .element →
        (e.outcome c parts).tree.label = e.outerNode) := by
  unfold Expansion.outcome Expansion.outerNode
  cases e.around with
  | some n => exact ⟨rfl, rfl, fun _ _ => rfl⟩
  | none =>
      refine ⟨rfl, rfl, fun htemplate helement => ?_⟩
      exact namedAfter_of_kind htemplate helement _

theorem role_conv {ctx : Context} {task : Task} {p : Outcome} (h : conv ctx task = some p) :
    p.tree.label.role = task.role := by
  rw [conv_eq_core?] at h
  obtain ⟨x, -, rfl⟩ := Option.map_eq_some_iff.1 h
  exact (label_outcome _ _ _).2.1.trans (role_expand ctx ⟨x.1, task.role, x.2⟩)

/-- What stands in quotes of a template is never an identifier. -/
theorem kind_conv_template {ctx : Context} {task : Task} {p : Outcome}
    (htype : task.tree.type = "template_string") (h : conv ctx task = some p) :
    p.tree.label.kind = .templateLiteral := by
  have hdropped : isDropped task.tree.type = false := by rw [htype]; decide
  have htransparent : isTransparent task.tree.type = false := by rw [htype]; decide
  rw [conv_of_record ctx _ hdropped htransparent] at h
  cases h
  refine (label_outcome _ _ _).1.trans ?_
  unfold expand
  dsimp only
  rw [htype]
  rfl

/-- The children that a node hears are those that give it its name. -/
theorem hears_iff_givesName {ctx : Context} {task : Task} {p : Outcome}
    (hp : p ∈ (expand ctx task).tasks.filterMap (conv ctx)) :
    ((expand ctx task).namedBy == some p.tree.label.kind) =
      givesName (expand ctx task).node p.tree.label := by
  obtain ⟨k, hk, hconv⟩ := List.mem_filterMap.1 hp
  cases naming_expand ctx task with
  | alone hby hnode =>
      rw [hby, hnode]
      rfl
  | tag hby hnode htasks =>
      unfold givesName
      rw [hby, hnode, role_conv hconv]
      rcases htasks k hk with hrole | ⟨hrole, htype⟩
      · rw [hrole]
        cases p.tree.label.kind <;> rfl
      · rw [hrole, kind_conv_template htype hconv]
        rfl
  | opening hby hnode =>
      unfold givesName
      rw [hby, hnode]
      cases p.tree.label.kind <;> rfl

/-! ## No construct twice -/

theorem forestPreorder_eq_flatMap (ts : List ParseTree) :
    forestPreorder ts = ts.flatMap preorder := by
  induction ts with
  | nil => rfl
  | cons t rest ih => rw [forestPreorder, List.flatMap_cons, ih]

theorem forestPreorder_append (ts us : List ParseTree) :
    forestPreorder (ts ++ us) = forestPreorder ts ++ forestPreorder us := by
  simp [forestPreorder_eq_flatMap]

theorem preorder_eq (t : ParseTree) : t.preorder = t.label :: forestPreorder t.children := by
  cases t
  rfl

theorem forestPreorder_sublist {ts us : List ParseTree} (h : ts.Sublist us) :
    (forestPreorder ts).Sublist (forestPreorder us) := by
  rw [forestPreorder_eq_flatMap, forestPreorder_eq_flatMap]
  exact h.flatMap _

theorem forestPreorder_subperm {ts us : List ParseTree} (h : ts.Subperm us) :
    (forestPreorder ts).Subperm (forestPreorder us) := by
  obtain ⟨vs, hperm, hsub⟩ := h
  have hflat : (forestPreorder vs).Perm (forestPreorder ts) := by
    rw [forestPreorder_eq_flatMap, forestPreorder_eq_flatMap]
    exact hperm.flatMap fun _ _ => .rfl
  exact ⟨_, hflat, forestPreorder_sublist hsub⟩

theorem preorder_sublist_of_mem {t : ParseTree} {ts : List ParseTree} (h : t ∈ ts) :
    t.preorder.Sublist (forestPreorder ts) := by
  have hsingle := forestPreorder_sublist (List.singleton_sublist.2 h)
  rwa [forestPreorder, forestPreorder, List.append_nil] at hsingle

/-- The constructs that some tasks stand for. -/
def reach (ts : List Task) : List Construct := forestPreorder (ts.map Task.tree)

theorem reach_childTasks_map (t : ParseTree) (role : ParseTree → String) (cs : List ParseTree) :
    reach (cs.map fun c => childTask t (role c) c) = forestPreorder cs := by
  simp [reach, childTask, Function.comp_def]

theorem reach_map_sublist (t : ParseTree) (role : ParseTree → String) {cs : List ParseTree}
    (h : cs.Sublist t.children) :
    (reach (cs.map fun c => childTask t (role c) c)).Sublist (forestPreorder t.children) := by
  rw [reach_childTasks_map]
  exact forestPreorder_sublist h

theorem namedChildren_sublist (t : ParseTree) : t.namedChildren.Sublist t.children :=
  List.filter_sublist

theorem reach_propertyTasks (t : ParseTree) (cs : List ParseTree) :
    (reach (cs.filterMap (propertyTask? t))).Sublist (forestPreorder cs) := by
  induction cs with
  | nil => exact .slnil
  | cons c rest ih =>
      rw [List.filterMap_cons]
      cases htask : propertyTask? t c with
      | none => exact ih.trans (List.sublist_append_right _ _)
      | some k =>
          refine List.Sublist.append ?_ ih
          unfold propertyTask? at htask
          dsimp only at htask
          split at htask
          · obtain ⟨d, hd, rfl⟩ := Option.map_eq_some_iff.1 htask
            have hmem := (namedChildren_sublist c).subset (List.mem_of_head? hd)
            rw [preorder_eq c]
            exact (preorder_sublist_of_mem hmem).cons c.label
          · cases htask
            exact .refl _

theorem mem_children_of_inField? {name : String} {t c : ParseTree} (h : t.inField? name = some c) :
    c ∈ t.children := List.mem_of_find?_eq_some h

theorem field_of_inField? {name : String} {t c : ParseTree} (h : t.inField? name = some c) :
    c.field = some name := by
  unfold ParseTree.inField? at h
  have hfield := List.find?_some h
  exact eq_of_beq hfield

/-- Children in two different fields are two children. -/
theorem pair_subperm {f g : String} (hfg : f ≠ g) {t c d : ParseTree} (hc : t.inField? f = some c)
    (hd : t.inField? g = some d) : [c, d].Subperm t.children := by
  have hne : c ≠ d := by
    rintro rfl
    exact hfg (Option.some.inj ((field_of_inField? hc).symm.trans (field_of_inField? hd)))
  refine List.subperm_of_subset (by simpa using hne) ?_
  simp only [List.cons_subset, List.nil_subset, and_true]
  exact ⟨mem_children_of_inField? hc, mem_children_of_inField? hd⟩

/-- The function and the arguments of a call are two of its parts. -/
theorem callParts_subperm {t a : ParseTree} (ha : t.inField? "arguments" = some a) :
    ((t.inField? "function").toList ++ [a]).Subperm t.children := by
  cases hf : t.inField? "function" with
  | none => exact List.singleton_subperm_iff.2 (mem_children_of_inField? ha)
  | some f => exact pair_subperm (by decide) hf ha

theorem reach_call (t : ParseTree) (n : Node) :
    (reach (call t n).tasks).Subperm (forestPreorder t.children) := by
  have hcallee (role : String) :
      ((t.inField? "function").toList.map (childTask t role)).map Task.tree =
        (t.inField? "function").toList := by
    simp [childTask, Function.comp_def]
  unfold call reach
  split
  · rw [hcallee]
    cases hf : t.inField? "function" with
    | none => exact List.nil_subperm
    | some f =>
        exact forestPreorder_subperm (List.singleton_subperm_iff.2 (mem_children_of_inField? hf))
  · rename_i a ha
    have hparts := forestPreorder_subperm (callParts_subperm ha)
    split
    · rw [List.map_append, hcallee]
      exact hparts
    · -- The arguments stand for their list, which is itself not converted.
      have hnamed := reach_map_sublist a (fun _ => "argument") (namedChildren_sublist a)
      rw [List.map_append, hcallee, forestPreorder_append]
      rw [forestPreorder_append] at hparts
      refine List.Subperm.trans ((List.subperm_append_left _).2 ?_) hparts
      rw [forestPreorder, forestPreorder, List.append_nil, preorder_eq]
      exact (hnamed.cons a.label).subperm

theorem reach_attr (ctx : Context) (t : ParseTree) (n : Node) :
    (reach (attr ctx t n).tasks).Sublist (forestPreorder t.children) := by
  unfold attr
  split
  · exact List.nil_sublist _
  · rename_i name values hnamed
    have hvalues : values.Sublist t.children :=
      (List.sublist_cons_self name values).trans (hnamed ▸ namedChildren_sublist t)
    exact reach_map_sublist t (fun _ => "value") (List.filter_sublist.trans hvalues)

theorem reach_binding (ctx : Context) (t : ParseTree) (n : Node) :
    (reach (binding ctx t n).tasks).Sublist (forestPreorder t.children) := by
  unfold binding
  split <;> exact reach_map_sublist t _ (namedChildren_sublist t)

theorem reach_assertion (t : ParseTree) (n : Node) :
    (reach (assertion t n).tasks).Sublist (forestPreorder t.children) := by
  have htrees : (assertion t n).tasks.map Task.tree =
      t.namedChildren.filter fun c : ParseTree => !isDropped c.type := by
    apply List.ext_getElem <;> simp [assertion, childTask]
  unfold reach
  rw [htrees]
  exact forestPreorder_sublist (List.filter_sublist.trans (namedChildren_sublist t))

/-- The tasks below a construct stand for different constructs below it. -/
theorem reach_expand (ctx : Context) (task : Task) :
    (reach (expand ctx task).tasks).Subperm (forestPreorder task.tree.children) := by
  have hnone : (reach []).Subperm (forestPreorder task.tree.children) := List.nil_subperm
  have hchildren : (reach (childTasks task.tree)).Subperm (forestPreorder task.tree.children) :=
    (reach_map_sublist task.tree _ (namedChildren_sublist task.tree)).subperm
  unfold expand
  dsimp only
  split
  case h_2 => exact (reach_map_sublist task.tree _ List.filter_sublist).subperm
  case h_9 => exact reach_call _ _
  case h_10 => exact (reach_map_sublist task.tree _ (namedChildren_sublist task.tree)).subperm
  case h_11 => exact hchildren
  case h_12 => exact (reach_attr ctx _ _).subperm
  case h_13 =>
    split
    · exact hnone
    · split
      · exact ((reach_propertyTasks task.tree _).trans
          (forestPreorder_sublist (namedChildren_sublist task.tree))).subperm
      · split
        · exact hchildren
        · split
          · exact (reach_binding ctx _ _).subperm
          · split
            · exact (reach_assertion _ _).subperm
            · exact hchildren
  all_goals exact hnone

theorem flatMap_constructs_subperm {ctx : Context} {ts : List Task}
    (h : ∀ k ∈ ts, ∀ p, conv ctx k = some p → p.constructs.Subperm k.tree.preorder) :
    ((ts.filterMap (conv ctx)).flatMap Outcome.constructs).Subperm (reach ts) := by
  induction ts with
  | nil => exact .refl _
  | cons k rest ih =>
      have hrest := ih fun k' hk' => h k' (List.mem_cons_of_mem k hk')
      cases hk : conv ctx k with
      | none =>
          rw [List.filterMap_cons_none hk]
          exact hrest.trans (List.sublist_append_right _ _).subperm
      | some p =>
          rw [List.filterMap_cons_some hk, List.flatMap_cons]
          exact (h k (List.mem_cons_self ..) p hk).append hrest

/-- **No construct is converted twice.** -/
theorem constructs_subperm (ctx : Context) (task : Task) {p : Outcome}
    (h : conv ctx task = some p) : p.constructs.Subperm task.tree.preorder := by
  induction hsize : task.tree.size using Nat.strongRecOn generalizing task p with
  | ind size ih =>
      rw [preorder_eq]
      cases hdropped : isDropped task.tree.type with
      | true =>
          rw [conv_of_isDropped ctx _ hdropped] at h
          cases h
      | false =>
          cases htransparent : isTransparent task.tree.type with
          | true =>
              rw [conv_of_isTransparent ctx _ hdropped htransparent] at h
              obtain ⟨inner, hinner, hconv⟩ := Option.bind_eq_some_iff.1 h
              have hlt := size_lt_of_expressionIn? hinner
              have hinside := preorder_sublist_of_mem (List.mem_of_find?_eq_some hinner)
              rw [hsize] at hlt
              exact (ih _ hlt ⟨inner, task.role, task.tree.type⟩ hconv rfl).trans
                (hinside.cons _).subperm
          | false =>
              rw [conv_of_record ctx _ hdropped htransparent] at h
              cases h
              refine (List.subperm_cons task.tree.label).2 ?_
              refine List.Subperm.trans (flatMap_constructs_subperm fun k hk p hconv => ?_)
                (reach_expand ctx task)
              have hlt := size_lt_of_mem_tasks hk
              rw [hsize] at hlt
              exact ih _ hlt k hconv rfl

end Conversion

end LiteralLint
