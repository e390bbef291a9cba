import LiteralLint.Failure
import LiteralLint.Proofs.Provenance
import LiteralLint.Proofs.SinglePass

/-!
# Keys of objects

A string that is the key of a member of an object is structure and not text. Whether a finding is
made depends on the parent of its node and on its role only, so keys have to come out of conversion
right: in the role of a key, below an object property. With the row of every node at hand this is a
statement about two rows, one below the other: if what is read as a key is converted below some row,
then that row becomes an object property, and the key is in its role.

The way back from a key is short. Parentheses give way to what is inside, so they are passed through,
and the brackets of a pair are passed over. The brackets of a method are not. There the brackets
themselves become the key, and a string in them is a child of that key like any other.

## Main definitions

* `Row.InKey`: a construct is the key of a member of an object, or stands for it.
* `Conversion.UnwrapsKey`: a pair becomes a property whose key is the expression in the brackets.
* `Conversion.KeepsBrackets`: a method becomes a property whose key is the brackets.

## Main results

* `Conversion.everywhere_keyEdge`: a key is in its role, below an object property.
* `Conversion.keys_unreported`: no string that is a key is reported.
* `Conversion.bracketed_method_reported`: a string in the brackets of a method is.
-/

namespace LiteralLint

namespace Row

/-! ## Keys -/

/-- A child of a row is the key of a pair that is a member of an object or of a pattern. -/
structure IsPairKey (r : Row) (c : ParseTree) : Prop where
  pair : r.tree.type = "pair" ∨ r.tree.type = "pair_pattern"
  member : r.within = "object" ∨ r.within = "object_pattern"
  field : c.field = some "key"

/-- A child of a row is the name of a method that is a member of an object. -/
structure IsMethodName (r : Row) (c : ParseTree) : Prop where
  method : r.tree.type = "method_definition"
  member : r.within = "object"
  field : c.field = some "name"

/-- A row is the key of a member of an object, as it is written: plainly or, in a pair, in brackets,
and in any parentheses. -/
inductive InKey : Row → Prop
  | pair {r : Row} {c : ParseTree} (h : r.IsPairKey c) : InKey (r.child c)
  | method {r : Row} {c : ParseTree} (h : r.IsMethodName c) : InKey (r.child c)
  | brackets {r : Row} {b c : ParseTree} (h : r.IsPairKey b)
      (htype : b.type = "computed_property_name") : InKey ((r.child b).child c)
  | parentheses {r : Row} {c : ParseTree} (h : InKey r)
      (htype : r.tree.type = "parenthesized_expression") : InKey (r.child c)

theorem child_inj {r s : Row} {c d : ParseTree} (h : r.child c = s.child d) : r = s ∧ c = d := by
  cases r
  cases s
  simp only [child, mk.injEq, List.cons.injEq] at h
  exact ⟨by rw [h.2.1, h.2.2], h.1⟩

/-- A row of the brackets of a key. -/
def IsBrackets (r : Row) : Prop :=
  ∃ q b, r = child q b ∧ q.IsPairKey b ∧ b.type = "computed_property_name"

theorem InKey.of_child {r : Row} {c : ParseTree} (h : InKey (r.child c)) :
    r.IsPairKey c ∨ r.IsMethodName c ∨ r.IsBrackets ∨
      (InKey r ∧ r.tree.type = "parenthesized_expression") := by
  generalize hs : r.child c = s at h
  cases h with
  | pair h =>
      obtain ⟨rfl, rfl⟩ := child_inj hs
      exact Or.inl h
  | method h =>
      obtain ⟨rfl, rfl⟩ := child_inj hs
      exact Or.inr (Or.inl h)
  | brackets h htype =>
      obtain ⟨rfl, rfl⟩ := child_inj hs
      exact Or.inr (Or.inr (Or.inl ⟨_, _, rfl, h, htype⟩))
  | parentheses h htype =>
      obtain ⟨rfl, rfl⟩ := child_inj hs
      exact Or.inr (Or.inr (Or.inr ⟨h, htype⟩))

/-- The type of a construct in which a key, or what stands for one, stands. -/
theorem InKey.type_of_child {r : Row} {c : ParseTree} (h : InKey (r.child c)) :
    r.tree.type ∈ ["pair", "pair_pattern", "method_definition", "computed_property_name",
      "parenthesized_expression"] := by
  rcases h.of_child with h | h | ⟨q, b, rfl, -, htype⟩ | ⟨-, htype⟩
  · rcases h.pair with htype | htype <;> simp [htype]
  · simp [h.method]
  · show ParseTree.type b ∈ _
    simp [htype]
  · simp [htype]

end Row

namespace Conversion

open Relation (ReflTransGen)

variable {ctx : Context} {r s : Row} {role : Option String}

theorem inKey_of_givesWay (h : GivesWay r s) (hs : s.InKey) : r.InKey := by
  obtain ⟨htransparent, inner, -, rfl⟩ := h
  rcases hs.of_child with h | h | ⟨q, b, rfl, -, htype⟩ | ⟨h, -⟩
  · rcases h.pair with htype | htype <;> exact absurd htransparent (by rw [htype]; decide)
  · exact absurd htransparent (by rw [h.method]; decide)
  · exact absurd htransparent (by show ¬isTransparent (ParseTree.type b) = true; rw [htype]; decide)
  · exact h

theorem inKey_of_path (h : ReflTransGen GivesWay r s) (hs : s.InKey) : r.InKey := by
  induction h using ReflTransGen.head_induction_on with
  | refl => exact hs
  | head hway _ ih => exact inKey_of_givesWay hway ih

/-! ## Where keys are converted -/

theorem tableKind_of_isPair {type : String} (h : type = "pair" ∨ type = "pair_pattern") :
    tableKind type = .objectProperty := by
  rcases h with rfl | rfl <;> decide

theorem objectProperty_of_isPairKey {c : ParseTree} (h : r.IsPairKey c) :
    tableKind r.tree.type = .objectProperty ∧ roleOf r.tree.type c.field = "key" := by
  refine ⟨tableKind_of_isPair h.pair, ?_⟩
  rw [h.field]
  rcases h.pair with htype | htype <;> rw [htype] <;> decide

theorem expand_of_string (ctx : Context) (task : Task) (h : task.tree.type = "string") :
    expand ctx task = literal (plainNode ctx task.tree task.role)
      (.text (StringLiteral.value (task.tree.text ctx.source))) := by
  unfold expand
  dsimp only
  rw [h]
  rfl

/-- A method of an object becomes a property of it. -/
theorem expand_of_method (ctx : Context) (task : Task)
    (htype : task.tree.type = "method_definition") (hwithin : task.within = "object") :
    expand ctx task =
      { node := { plainNode ctx task.tree task.role with kind := .objectProperty }
        tasks := childTasks task.tree } := by
  have hkind : (plainNode ctx task.tree task.role).kind = .other := by
    show tableKind task.tree.type = .other
    rw [htype]
    decide
  unfold expand
  dsimp only
  rw [htype, hwithin, hkind]
  rfl

theorem rowsBelow_of_method (ctx : Context) (role : Option String)
    (htype : r.tree.type = "method_definition") (hwithin : r.within = "object") :
    rowsBelow ctx r role =
      r.childrenAs (fun c => roleOf r.tree.type c.field) r.tree.namedChildren := by
  have hkind : (tableKind r.tree.type == .objectProperty) = false := by
    rw [htype]
    decide
  unfold rowsBelow
  rw [if_neg (by rw [htype]; decide), hkind, if_neg Bool.false_ne_true,
    expand_of_method ctx (r.task role) htype hwithin, childTasks, List.map_map]
  rfl

/-- A key that is converted below a row is in its role, and the row becomes an object property. -/
theorem key_of_mem_rowsBelow {x : Row × Option String} (hbrackets : ¬r.IsBrackets)
    (htransparent : isTransparent r.tree.type = false) (hx : x ∈ rowsBelow ctx r role)
    (hkey : x.1.InKey) :
    (expand ctx (r.task role)).node.kind = .objectProperty ∧ x.2 = some "key" := by
  have hproperty : tableKind r.tree.type = .objectProperty →
      (expand ctx (r.task role)).node.kind = .objectProperty := by
    intro hkind
    rw [expand_of_objectProperty ctx (r.task role) hkind]
    exact hkind
  rcases mem_rowsBelow hx with ⟨c, -, hrow, hrole⟩ | ⟨hcall, a, -, c, -, hrow⟩ |
    ⟨hkind, b, -, c, -, hcomputed, rfl⟩
  · rw [hrow] at hkey
    rcases hkey.of_child with h | h | h | ⟨-, htype⟩
    · obtain ⟨hkind, hkeyRole⟩ := objectProperty_of_isPairKey h
      refine ⟨hproperty hkind, ?_⟩
      rw [(hrole hkind).2, hkeyRole]
    · refine ⟨by rw [expand_of_method ctx (r.task role) h.method h.member], ?_⟩
      rw [rowsBelow_of_method ctx role h.method h.member] at hx
      obtain ⟨d, -, rfl⟩ := List.mem_map.1 hx
      obtain ⟨-, rfl⟩ := Row.child_inj hrow
      show some (roleOf r.tree.type (ParseTree.field d)) = some "key"
      rw [h.method, h.field]
      rfl
    · exact absurd h hbrackets
    · rw [htype] at htransparent
      cases htransparent
  · -- The arguments of a call stand in no object, and so are no keys.
    have hwithin : (r.child a).within = "call_expression" := hcall
    rw [hrow] at hkey
    rcases hkey.of_child with h | h | ⟨q, b, heq, hpair, -⟩ | ⟨h, -⟩
    · rcases h.member with hmember | hmember <;>
        exact absurd (hwithin.symm.trans hmember) (by decide)
    · exact absurd (hwithin.symm.trans h.member) (by decide)
    · obtain ⟨rfl, -⟩ := Row.child_inj heq
      rcases hpair.pair with htype | htype <;> exact absurd (hcall.symm.trans htype) (by decide)
    · have htype := h.type_of_child
      rw [hcall] at htype
      exact absurd htype (by decide)
  · have hkeyRole : roleOf r.tree.type (ParseTree.field b) = "key" :=
      eq_of_beq (Bool.and_eq_true_iff.1 hcomputed).1
    exact ⟨hproperty hkind, by rw [hkeyRole]⟩

/-- The brackets of a key are not converted themselves. -/
theorem not_isBrackets_of_mem_rowsBelow {x : Row × Option String} (hx : x ∈ rowsBelow ctx r role) :
    ¬x.1.IsBrackets := by
  rintro ⟨q, b, hrow, hpair, htype⟩
  rcases mem_rowsBelow hx with ⟨c, -, heq, hrole⟩ | ⟨hcall, a, -, c, -, heq⟩ |
    ⟨-, d, -, c, -, hcomputed, rfl⟩
  · obtain ⟨rfl, rfl⟩ := Row.child_inj (hrow.symm.trans heq)
    obtain ⟨hkind, hkeyRole⟩ := objectProperty_of_isPairKey hpair
    have hplain := (hrole hkind).1
    rw [isComputedKey, hkeyRole, htype] at hplain
    cases hplain
  · obtain ⟨rfl, rfl⟩ := Row.child_inj (hrow.symm.trans heq)
    have hwithin : (r.child a).within = "call_expression" := hcall
    rcases hpair.member with hmember | hmember <;>
      exact absurd (hwithin.symm.trans hmember) (by decide)
  · obtain ⟨rfl, rfl⟩ := Row.child_inj hrow
    have hbrackets : ParseTree.type d = "computed_property_name" :=
      eq_of_beq (Bool.and_eq_true_iff.1 hcomputed).2
    rcases hpair.pair with hpairType | hpairType <;>
      exact absurd (hbrackets.symm.trans hpairType) (by decide)

theorem not_isBrackets_of_givesWay (h : GivesWay r s) : ¬s.IsBrackets := by
  rintro ⟨q, b, hrow, hpair, -⟩
  obtain ⟨htransparent, inner, -, rfl⟩ := h
  obtain ⟨rfl, -⟩ := Row.child_inj hrow
  rcases hpair.pair with htype | htype <;>
    exact absurd htransparent (by rw [htype]; decide)

/-- What has to hold of a node with its row and a node right below it, if that is a key. -/
def KeyEdge (l m : Node × Row) : Prop :=
  m.2.tree.type = "string" → m.2.InKey →
    l.1.kind = .objectProperty ∧ m.1.role = some "key" ∧ m.1.kind = .literal

/-- **A key is in its role, below an object property.** -/
theorem everywhere_keyEdge {u : Tree (Node × Row)} (h : trace ctx r role = some u)
    (hr : ¬r.IsBrackets) : u.Everywhere fun l cs => ∀ c ∈ cs, KeyEdge l c.label := by
  refine everywhere_trace (Q := fun r _ => ¬r.IsBrackets) ?_ ?_ ?_ ?_ h hr
  · exact fun r s role _ hway => not_isBrackets_of_givesWay hway
  · exact fun r role _ _ x hx => not_isBrackets_of_mem_rowsBelow hx
  · exact fun r role v _ _ _ _ c hc => nomatch hc
  · intro r role hr htransparent e below n
    refine ⟨fun c hc hstring hkey => ?_, fun m hm c hc hstring _ => ?_⟩
    · rcases List.mem_append.1 hc with hc | hc
      · -- The strings of an attribute stand in no object.
        unfold readyRows at hc
        split at hc
        · rename_i hattr
          obtain ⟨v, -, rfl⟩ := List.mem_map.1 hc
          have htype := Row.InKey.type_of_child (r := r) hkey
          rw [eq_of_beq hattr] at htype
          exact absurd htype (by decide)
        · cases hc
      · obtain ⟨x, hx, htrace⟩ := List.mem_filterMap.1 hc
        obtain ⟨s, hpath, -, -, rfl⟩ := trace_eq_some htrace
        obtain ⟨hrow, hkind, hrole⟩ := label_traced ctx x.2 s
          (readyRows ctx s) (traceBelow ctx s x.2)
        rw [hrow] at hstring hkey
        obtain ⟨hproperty, hkeyRole⟩ :=
          key_of_mem_rowsBelow hr htransparent hx (inKey_of_path hpath hkey)
        refine ⟨hproperty, by rw [hrole, hkeyRole], ?_⟩
        rw [hkind, expand_of_string ctx (s.task x.2) hstring]
        rfl
    · -- An element of one tag is no string.
      rcases List.mem_singleton.1 hc with rfl
      have hnone : e.around = none := by
        show (expand ctx (r.task role)).around = none
        rw [expand_of_string ctx (r.task role) hstring]
        rfl
      rw [hnone] at hm
      cases hm

/-! ## How keys are converted -/

/-- Brackets that are converted themselves become a node of no kind of its own. -/
theorem kind_expand_brackets (ctx : Context) (task : Task)
    (h : task.tree.type = "computed_property_name") :
    (expand ctx task).outerNode.kind = .other := by
  have hkind : (plainNode ctx task.tree task.role).kind = .other := by
    show tableKind task.tree.type = .other
    rw [h]
    decide
  have hexpand : expand ctx task = general ctx task.tree (plainNode ctx task.tree task.role) := by
    unfold expand
    dsimp only
    rw [h, hkind]
    rfl
  rw [hexpand]
  show (general ctx task.tree (plainNode ctx task.tree task.role)).node.kind = .other
  unfold general
  dsimp only
  rw [named_kind, h, hkind]
  rfl

/-- A pair becomes a property. If its key is in brackets, the property is marked, and what becomes of
the first construct in the brackets is a child in the role of the key. -/
def UnwrapsKey (ctx : Context) (l : Node × Row) (cs : List (Tree (Node × Row))) : Prop :=
  l.2.tree.type = "pair" ∨ l.2.tree.type = "pair_pattern" →
    l.1.kind = .objectProperty ∧
    ∀ b ∈ l.2.tree.namedChildren, b.field = some "key" → b.type = "computed_property_name" →
      l.1.computed = true ∧
      ∀ c, b.namedChildren.head? = some c → ∀ u,
        trace ctx ((l.2.child b).child c) (some "key") = some u →
          u ∈ cs ∧ u.label.1.role = some "key"

/-- A method of an object becomes a property that is never marked. If its name is in brackets, the
brackets become the key. -/
def KeepsBrackets (l : Node × Row) (cs : List (Tree (Node × Row))) : Prop :=
  l.2.tree.type = "method_definition" → l.2.within = "object" →
    l.1.kind = .objectProperty ∧ l.1.computed = false ∧
    ∀ b ∈ l.2.tree.namedChildren, b.field = some "name" → b.type = "computed_property_name" →
      ∃ u ∈ cs, u.label.2 = l.2.child b ∧ u.label.1.role = some "key" ∧ u.label.1.kind = .other

theorem role_of_trace {u : Tree (Node × Row)} (h : trace ctx r role = some u) :
    u.label.1.role = role := by
  obtain ⟨s, -, -, -, rfl⟩ := trace_eq_some h
  exact (label_traced ctx role s _ _).2.2

theorem unwrapsKey_node {n : Node} {cs : List (Tree (Node × Row))}
    (hnode : n = namedAfter (expand ctx (r.task role)).node
      ((traceBelow ctx r role).map fun u => u.label.1))
    (hcs : ∀ u ∈ traceBelow ctx r role, u ∈ cs) : UnwrapsKey ctx (n, r) cs := by
  intro hpair
  have hkind : tableKind r.tree.type = .objectProperty := tableKind_of_isPair hpair
  have hexpand := expand_of_objectProperty ctx (r.task role) hkind
  rw [hexpand] at hnode
  refine ⟨by rw [hnode]; exact hkind, fun b hb hfield htype => ?_⟩
  have hkeyRole : roleOf r.tree.type b.field = "key" := by
    rw [hfield]
    rcases hpair with htype | htype <;> rw [show r.tree.type = _ from htype] <;> decide
  have hcomputed : isComputedKey (roleOf r.tree.type b.field) b = true := by
    rw [isComputedKey, hkeyRole, htype]
    decide
  refine ⟨by rw [hnode]; exact List.any_eq_true.2 ⟨b, hb, hcomputed⟩, fun c hc u hu => ?_⟩
  have hrow : ((r.child b).child c, some "key") ∈ rowsBelow ctx r role := by
    have hcall : r.tree.type ≠ "call_expression" := by
      rcases hpair with htype | htype <;> rw [show r.tree.type = _ from htype] <;> decide
    unfold rowsBelow
    rw [if_neg (mt beq_iff_eq.1 hcall), if_pos (beq_iff_eq.2 hkind)]
    refine List.mem_filterMap.2 ⟨b, hb, ?_⟩
    unfold propertyRow?
    dsimp only
    rw [if_pos hcomputed, hc, hkeyRole]
    rfl
  exact ⟨hcs u (List.mem_filterMap.2 ⟨_, hrow, hu⟩), role_of_trace hu⟩

theorem keepsBrackets_node {n : Node} {cs : List (Tree (Node × Row))}
    (hnode : n = namedAfter (expand ctx (r.task role)).node
      ((traceBelow ctx r role).map fun u => u.label.1))
    (hcs : ∀ u ∈ traceBelow ctx r role, u ∈ cs) : KeepsBrackets (n, r) cs := by
  intro htype hwithin
  have hexpand := expand_of_method ctx (r.task role) htype hwithin
  rw [hexpand] at hnode
  refine ⟨by rw [hnode]; rfl, by rw [hnode]; rfl, fun b hb hfield hbrackets => ?_⟩
  have hrow : (r.child b, some "key") ∈ rowsBelow ctx r role := by
    rw [rowsBelow_of_method ctx role htype hwithin]
    refine List.mem_map.2 ⟨b, hb, ?_⟩
    show (r.child b, some (roleOf r.tree.type b.field)) = _
    rw [show r.tree.type = _ from htype, hfield]
    rfl
  have hdropped : isDropped (r.child b).tree.type = false := by
    show isDropped b.type = false
    rw [hbrackets]
    decide
  have htransparent : isTransparent (r.child b).tree.type = false := by
    show isTransparent b.type = false
    rw [hbrackets]
    decide
  have htrace : trace ctx (r.child b) (some "key") = some _ :=
    trace_of_record hdropped htransparent
  obtain ⟨hlabel, hkind, hrole⟩ := label_traced ctx (some "key") (r.child b)
    (readyRows ctx (r.child b)) (traceBelow ctx (r.child b) (some "key"))
  exact ⟨_, hcs _ (List.mem_filterMap.2 ⟨_, hrow, htrace⟩), hlabel, hrole,
    hkind.trans (kind_expand_brackets ctx ((r.child b).task (some "key")) hbrackets)⟩

/-- **Brackets around keys**: those of pairs give way, and those of methods do not. -/
theorem everywhere_brackets {u : Tree (Node × Row)} (h : trace ctx r role = some u) :
    u.Everywhere fun l cs => UnwrapsKey ctx l cs ∧ KeepsBrackets l cs := by
  refine everywhere_trace (Q := fun _ _ => True) ?_ ?_ ?_ ?_ h trivial
  · exact fun _ _ _ _ _ => trivial
  · exact fun _ _ _ _ _ _ => trivial
  · intro r role v _ _ _ hstring
    have hstring' : (r.child v).tree.type = "string" := hstring
    refine ⟨fun hpair => ?_, fun hmethod => absurd (hstring'.symm.trans hmethod) (by decide)⟩
    rcases hpair with htype | htype <;> exact absurd (hstring'.symm.trans htype) (by decide)
  · intro r role _ _ e below n
    have hcs : ∀ u ∈ traceBelow ctx r role, u ∈ readyRows ctx r ++ below :=
      fun u hu => List.mem_append_right _ hu
    refine ⟨⟨unwrapsKey_node rfl hcs, keepsBrackets_node rfl hcs⟩, fun m hm => ?_⟩
    -- An element of one tag is no pair and no method.
    change (expand ctx (r.task role)).around = some m at hm
    refine ⟨fun hpair => ?_, fun htype hwithin => ?_⟩
    · rw [expand_of_objectProperty ctx (r.task role) (tableKind_of_isPair hpair)] at hm
      cases hm
    · rw [expand_of_method ctx (r.task role) htype hwithin] at hm
      cases hm

/-! ## No key is reported -/

theorem not_inKey_root {t : ParseTree} (h : ReflTransGen GivesWay ⟨t, []⟩ r) : ¬r.InKey := by
  intro hkey
  have hroot := inKey_of_path h hkey
  generalize hrow : (⟨t, []⟩ : Row) = s at hroot
  cases hroot <;> cases hrow

/-- The root of a traced tree stems from the root of the parse tree, or from what that gives way to. -/
theorem traced_root (ctx : Context) (t : ParseTree) : ¬(traced ctx t).label.2.InKey := by
  unfold traced
  cases htrace : trace ctx ⟨t, []⟩ none with
  | none => exact not_inKey_root .refl
  | some u =>
      obtain ⟨s, hpath, -, -, rfl⟩ := trace_eq_some htrace
      show ¬((expand ctx (s.task none)).traced s _ _).label.2.InKey
      rw [(label_traced _ _ s _ _).1]
      exact not_inKey_root hpath

theorem traced_keyEdge (ctx : Context) (t : ParseTree) :
    (traced ctx t).Everywhere fun l cs => ∀ c ∈ cs, KeyEdge l c.label := by
  unfold traced
  cases htrace : trace ctx ⟨t, []⟩ none with
  | none => exact ⟨List.forall_mem_nil _, trivial⟩
  | some u =>
      refine everywhere_keyEdge htrace ?_
      rintro ⟨q, b, hrow, -⟩
      cases hrow

/-- Every node of a traced tree is the node of its row, if anything becomes of the parse tree. -/
theorem traced_isNodeOf (ctx : Context) (t : ParseTree) :
    (traced ctx t).Everywhere fun l _ =>
      l.2.In t ∧ (trace ctx ⟨t, []⟩ none = none ∨ IsNodeOf ctx l.2.tree l.1) := by
  unfold traced
  cases htrace : trace ctx ⟨t, []⟩ none with
  | none => exact ⟨⟨.root, Or.inl rfl⟩, trivial⟩
  | some u => exact (everywhere_isNodeOf htrace).imp fun _ _ h => ⟨h.1, Or.inr h.2⟩

theorem traced_brackets (ctx : Context) (t : ParseTree) :
    (traced ctx t).Everywhere fun l cs => UnwrapsKey ctx l cs ∧ KeepsBrackets l cs := by
  unfold traced
  cases htrace : trace ctx ⟨t, []⟩ none with
  | none =>
      -- Something becomes of a pair, and nothing is around the root.
      refine ⟨⟨fun hpair => ?_, fun _ hwithin => ?_⟩, trivial⟩
      · have hrecord : isDropped t.type = false ∧ isTransparent t.type = false := by
          rcases hpair with htype | htype <;> rw [show t.type = _ from htype] <;> decide
        rw [trace_of_record (r := ⟨t, []⟩) hrecord.1 hrecord.2] at htrace
        cases htrace
      · have hnone : "" = "object" := hwithin
        exact absurd hnone (by decide)
  | some u => exact everywhere_brackets htrace

end Conversion

/-- What the edge to the parent of a node says about its position. -/
theorem Hearing.structuralPosition_of_edge {h : Hearing} {i e : Nat} {parent : Node}
    (hparent : h.program.parent? i = some e) (hnode : h.program.node? e = some parent)
    (hedge : structuralEdge (h.program.roleAt i) parent = true) : h.structuralPosition i = true := by
  unfold structuralPosition
  rw [hparent, Option.bind_some, hnode]
  exact Bool.or_eq_true_iff.2 (Or.inr hedge)

namespace Lint

open Conversion

/-- Nothing is reported at a literal that is the key of an object property. -/
theorem findingAt_of_key {c : Case} {m : Marks} {i e : Nat} {n parent : Node}
    (hn : c.program.node? i = some n) (hparent : c.program.parent? i = some e)
    (hnode : c.program.node? e = some parent) (hproperty : parent.kind = .objectProperty)
    (hrole : n.role = some "key") (hkind : n.kind = .literal) : findingAt c m i = none := by
  have hstructural : (c.hearing m).structuralPosition i = true := by
    refine Hearing.structuralPosition_of_edge hparent hnode ?_
    have hroleAt : c.program.roleAt i = some "key" := by
      unfold Program.roleAt
      rw [hn]
      exact hrole
    show Hearing.structuralEdge (c.program.roleAt i) parent = true
    unfold Hearing.structuralEdge
    rw [hproperty, hroleAt]
    rfl
  refine Option.eq_none_iff_forall_ne_some.2 fun f hf => ?_
  obtain ⟨n', complaint, hn', -, hdecision, -⟩ := findingAt_eq_some.1 hf
  cases hn.symm.trans hn'
  unfold Hearing.decision at hdecision
  rw [hkind] at hdecision
  change (c.hearing m).literalDecision i n = _ at hdecision
  unfold Hearing.literalDecision at hdecision
  rw [Hearing.unlessExempt_eq_some, hstructural] at hdecision
  cases hdecision.1

/-- The node of a finding does not stem from a string that is a key. -/
theorem not_key_of_found (ctx : Context) (t : ParseTree) (config : Configuration)
    (oracle : Option Oracle) {x : Nat × Finding}
    (hx : x ∈ found (.ofTree (convert ctx t).tree config oracle) (convert ctx t).tree) :
    ∃ n r, (Arena.ofTree (traced ctx t)).node? x.1 = some (n, r) ∧
      ¬(r.tree.type = "string" ∧ r.InKey) := by
  have harena : Program.ofTree (convert ctx t).tree = (Arena.ofTree (traced ctx t)).map Prod.fst := by
    rw [← traced_map_fst]
    exact Arena.ofTree_map Prod.fst _
  obtain ⟨y, -, hy⟩ := List.mem_filterMap.1 hx
  obtain ⟨f, hf, rfl⟩ := Option.map_eq_some_iff.1 hy
  obtain ⟨n, -, hn, -, -, -⟩ := findingAt_eq_some.1 hf
  have hnode := hn
  change (Program.ofTree (convert ctx t).tree).node? y.1 = some n at hnode
  rw [harena, Arena.node?_map] at hnode
  obtain ⟨⟨n', r⟩, hrow, rfl⟩ := Option.map_eq_some_iff.1 hnode
  refine ⟨n', r, hrow, fun ⟨hstring, hkey⟩ => ?_⟩
  cases hparent : (Arena.ofTree (traced ctx t)).parent? y.1 with
  | none =>
      rw [Arena.eq_zero_of_parent? hrow hparent, (Arena.holds_ofTree (traced ctx t)).node?, Option.some_inj] at hrow
      have hnone := traced_root ctx t
      rw [hrow] at hnone
      exact hnone hkey
  | some e =>
      obtain ⟨l, m, hl, hm, hedge⟩ := Arena.edge_of_parent? (traced_keyEdge ctx t) hparent
      cases hrow.symm.trans hm
      obtain ⟨hproperty, hrole, hkind⟩ := hedge hstring hkey
      have habove : (Program.ofTree (convert ctx t).tree).node? e = some l.1 := by
        rw [harena, Arena.node?_map, hl]
        rfl
      have hparent' : (Program.ofTree (convert ctx t).tree).parent? y.1 = some e := by
        rw [harena]
        exact hparent
      have hnothing := findingAt_of_key (m := marksAfter (.ofTree (convert ctx t).tree config oracle)
        (List.range y.2)) hn hparent' habove hproperty hrole hkind
      change findingAt _ _ _ = some f at hf
      rw [hnothing] at hf
      cases hf

end Lint

namespace Conversion

/-- **No string that is a key of an object is reported**, and keys are unwrapped from the brackets of
pairs. The findings for a parse tree are made at nodes that stem from other rows, and the node of a
row has its type, its text and its place. A pair becomes a property with the expression in the
brackets for its key, while a method with its name in brackets becomes a property with the brackets
for its key. -/
theorem keys_unreported (ctx : Context) (t : ParseTree) :
    (traced ctx t).map Prod.fst = (convert ctx t).tree ∧
    ((traced ctx t).Everywhere fun l _ =>
      l.2.In t ∧ (trace ctx ⟨t, []⟩ none = none ∨ IsNodeOf ctx l.2.tree l.1)) ∧
    (∀ (config : Configuration) (oracle : Option Oracle),
      let c := Lint.Case.ofTree (convert ctx t).tree config oracle
      Lint.findings c = (Lint.found c (convert ctx t).tree).map Prod.snd ∧
      ∀ x ∈ Lint.found c (convert ctx t).tree, ∃ n r,
        (Arena.ofTree (traced ctx t)).node? x.1 = some (n, r) ∧
          ¬(r.tree.type = "string" ∧ r.InKey)) ∧
    (traced ctx t).Everywhere fun l cs => UnwrapsKey ctx l cs ∧ KeepsBrackets l cs :=
  ⟨traced_map_fst ctx t, traced_isNodeOf ctx t,
    fun config oracle => ⟨Lint.findings_eq_found _ config oracle,
      fun _ hx => Lint.not_key_of_found ctx t config oracle hx⟩,
    traced_brackets ctx t⟩

/-! ### A method with its name in brackets -/

/-- The source of an object with a method whose name is a string in brackets. -/
def methodSource : Bytes := Utf8.encode (Text.ofString "(\x7b['Hello world']() \x7b\x7d\x7d)")

/-- The name of the method. -/
def methodName : ParseTree :=
  .node ⟨"string", true, none, 3, 16⟩ [
    .node ⟨"'", false, none, 3, 4⟩ [],
    .node ⟨"string_fragment", true, none, 4, 15⟩ [],
    .node ⟨"'", false, none, 15, 16⟩ []]

/-- The parse tree. -/
def methodTree : ParseTree :=
  .node ⟨"program", true, none, 0, 24⟩ [
    .node ⟨"expression_statement", true, none, 0, 24⟩ [
      .node ⟨"parenthesized_expression", true, none, 0, 24⟩ [
        .node ⟨"(", false, none, 0, 1⟩ [],
        .node ⟨"object", true, none, 1, 23⟩ [
          .node ⟨"\x7b", false, none, 1, 2⟩ [],
          .node ⟨"method_definition", true, none, 2, 22⟩ [
            .node ⟨"computed_property_name", true, some "name", 2, 17⟩ [
              .node ⟨"[", false, none, 2, 3⟩ [],
              methodName,
              .node ⟨"]", false, none, 16, 17⟩ []],
            .node ⟨"formal_parameters", true, some "parameters", 17, 19⟩ [
              .node ⟨"(", false, none, 17, 18⟩ [],
              .node ⟨")", false, none, 18, 19⟩ []],
            .node ⟨"statement_block", true, some "body", 20, 22⟩ [
              .node ⟨"\x7b", false, none, 20, 21⟩ [],
              .node ⟨"\x7d", false, none, 21, 22⟩ []]],
          .node ⟨"\x7d", false, none, 22, 23⟩ []],
        .node ⟨")", false, none, 23, 24⟩ []]]]

/-- The name in the brackets of a method is reported, with the options that hold if none are
given. -/
theorem bracketed_method_reported :
    let tree := (convert ⟨methodSource, none⟩ methodTree).tree
    ((Configuration.ofOptions Pattern.unnamed {}).toOption.map fun config =>
        (Lint.found (.ofTree tree config none) tree).map fun x =>
          (x.1, x.2.id, x.2.position)) =
        some [(5, Text.ofString "property", some (⟨1, 3, 1, 16⟩ : Span))] ∧
      ((Arena.ofTree (traced ⟨methodSource, none⟩ methodTree)).node? 5).map
        (fun l => (l.2.tree.label, l.2.above.map ParseTree.type)) =
        some (methodName.label, ["computed_property_name", "method_definition", "object",
          "parenthesized_expression", "expression_statement", "program"]) := by
  refine ⟨?_, ?_⟩
  · decide +kernel
  · decide +kernel

end Conversion

end LiteralLint
