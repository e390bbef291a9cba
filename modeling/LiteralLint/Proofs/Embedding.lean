import LiteralLint.Narrowing
import LiteralLint.Container
import LiteralLint.Proofs.Arena

/-!
# Trees within trees

The numbers of an arena are positions in a pre-order, so they shift when a sibling is added, and with
them every table that a run keeps. An embedding says that nothing else happens: under other numbers
each node is there with its label, its parent and its children. The exception is made for labels that
are not closed, where further children may have joined.

Nothing a program is asked ever goes down through a node of kind `other`. Callees, objects, keys and
tags are children of calls, members, properties and templates, and all other questions go up. So
answers carry over along an embedding that only adds children to nodes of that kind. Questions that
are answered with a bound on the steps get other bounds in the larger arena; both are large enough,
because a parent has a smaller number than its children.

## Main definitions

* `Arena.Embeds`: a tree lies in another under other numbers.
* `Arena.pastRoot`: the numbers of a forest below a root, moved past other trees there.

## Main results

* `Arena.embeds_siblings`: a tree lies in the tree with further children at the root.
* `Program.Embeds.isTechnicalCall`, `Program.Embeds.isTranslationCall`,
  `Program.Embeds.includesLiteral`: the questions carry over.
-/

namespace LiteralLint

namespace Tree

variable {α : Type}

theorem rootsFrom_add (n d : Nat) (cs : List (Tree α)) :
    rootsFrom (n + d) cs = (rootsFrom n cs).map (· + d) := by
  induction cs generalizing n with
  | nil => rfl
  | cons t rest ih =>
      rw [rootsFrom, rootsFrom, List.map_cons, Nat.add_right_comm, ih]

theorem forestExitsFrom_append (n : Nat) (cs ds : List (Tree α)) :
    forestExitsFrom n (cs ++ ds) =
      forestExitsFrom n cs ++ forestExitsFrom (n + forestSize cs) ds := by
  induction cs generalizing n with
  | nil => rfl
  | cons t rest ih =>
      rw [List.cons_append, forestExitsFrom, forestExitsFrom, ih, List.append_assoc, forestSize,
        Nat.add_assoc]

mutual

/-- The exits of a tree elsewhere. -/
theorem exitsFrom_add (n d : Nat) :
    ∀ t : Tree α, t.exitsFrom (n + d) = (t.exitsFrom n).map fun x => (x.1 + d, x.2 + d)
  | .node _ cs => by
      rw [exitsFrom, exitsFrom, List.map_append, Nat.add_right_comm, forestExitsFrom_add (n + 1) d cs,
        Nat.add_right_comm]
      rfl

theorem forestExitsFrom_add (n d : Nat) :
    ∀ cs : List (Tree α),
      forestExitsFrom (n + d) cs = (forestExitsFrom n cs).map fun x => (x.1 + d, x.2 + d)
  | [] => rfl
  | t :: rest => by
      rw [forestExitsFrom, forestExitsFrom, List.map_append, exitsFrom_add n d t,
        Nat.add_right_comm, forestExitsFrom_add (n + t.size) d rest]

end

end Tree

namespace Arena

open LiteralLint.Tree

variable {α : Type}

/-! ## Embeddings -/

/-- A tree lies in another under other numbers: each node is there with its label and its parent, and
with its children if its label is closed. -/
structure Embeds (closed : α → Prop) (φ : Nat → Nat) (t u : Tree α) : Prop where
  injective : Function.Injective φ
  node : ∀ i, i < t.size → (ofTree u).node? (φ i) = (ofTree t).node? i
  parent : ∀ i, i < t.size → (ofTree u).parent? (φ i) = ((ofTree t).parent? i).map φ
  children : ∀ i l, (ofTree t).node? i = some l → closed l →
    (ofTree u).childrenOf (φ i) = ((ofTree t).childrenOf i).map φ

namespace Embeds

variable {closed : α → Prop} {φ : Nat → Nat} {t u : Tree α} {i : Nat}

theorem satisfies (h : Embeds closed φ t u) (hi : i < t.size) (p : α → Bool) :
    (ofTree u).satisfies p (φ i) = (ofTree t).satisfies p i := by
  unfold Arena.satisfies
  rw [h.node i hi]

/-- A node goes up to the same ancestors, however the steps are bounded as long as they are enough. -/
theorem ancestorsUpTo (h : Embeds closed φ t u) (bound : Nat) :
    ∀ i bound', i < t.size → i ≤ bound → φ i ≤ bound' →
      (ofTree u).ancestorsUpTo bound' (φ i) = ((ofTree t).ancestorsUpTo bound i).map φ := by
  induction bound with
  | zero =>
      intro i bound' hi hle _
      have hparent := h.parent i hi
      cases hp : (ofTree t).parent? i with
      | some e => exact absurd (parent?_lt hp).1 (by omega)
      | none =>
          rw [hp] at hparent
          exact ancestorsUpTo_of_root hparent bound'
  | succ bound ih =>
      intro i bound' hi hle hle'
      have hparent := h.parent i hi
      cases hp : (ofTree t).parent? i with
      | none =>
          rw [hp] at hparent
          rw [ancestorsUpTo_of_root hparent, ancestorsUpTo_of_root hp]
          rfl
      | some e =>
          rw [hp] at hparent
          have hlt := (parent?_lt hp).1
          have hlt' := (parent?_lt hparent).1
          cases bound' with
          | zero => omega
          | succ bound' =>
              rw [ancestorsUpTo_of_parent hparent, ancestorsUpTo_of_parent hp, List.map_cons,
                ih e bound' (by omega) (by omega) (by omega)]

theorem ancestors (h : Embeds closed φ t u) (hi : i < t.size) :
    (ofTree u).ancestors (φ i) = ((ofTree t).ancestors i).map φ :=
  h.ancestorsUpTo i i (φ i) hi (Nat.le_refl _) (Nat.le_refl _)

/-- A search among numbers of the tree finds the same. -/
theorem find?_map (h : Embeds closed φ t u) (p : α → Bool) {is : List Nat}
    (his : ∀ i ∈ is, i < t.size) :
    (is.map φ).find? ((ofTree u).satisfies p) = (is.find? ((ofTree t).satisfies p)).map φ := by
  rw [List.find?_map]
  congr 1
  induction is with
  | nil => rfl
  | cons i rest ih =>
      have hsame : ((ofTree u).satisfies p ∘ φ) i = (ofTree t).satisfies p i :=
        h.satisfies (his i List.mem_cons_self) p
      rw [List.find?_cons, List.find?_cons, hsame,
        ih fun j hj => his j (List.mem_cons_of_mem i hj)]

theorem nearest? (h : Embeds closed φ t u) (hi : i < t.size) (p : α → Bool) :
    (ofTree u).nearest? (φ i) p = ((ofTree t).nearest? i p).map φ := by
  unfold Arena.nearest?
  rw [h.ancestors hi]
  exact h.find?_map p fun a ha => Nat.lt_trans (lt_of_mem_ancestors ha) hi

theorem child? (h : Embeds closed φ t u) {l : α} (hl : (ofTree t).node? i = some l)
    (hclosed : closed l) (p : α → Bool) :
    (ofTree u).child? (φ i) p = ((ofTree t).child? i p).map φ := by
  unfold Arena.child?
  rw [h.children i l hl hclosed]
  exact h.find?_map p fun c hc => (lt_of_mem_childrenOf hl hc).2

end Embeds

/-! ### Siblings -/

/-- The numbers of a forest below a root, moved past other trees there. -/
def pastRoot (d i : Nat) : Nat := if i = 0 then 0 else i + d

theorem pastRoot_of_pos {d i : Nat} (hi : 0 < i) : pastRoot d i = i + d :=
  if_neg (Nat.ne_of_gt hi)

theorem pastRoot_injective (d : Nat) : Function.Injective (pastRoot d) := by
  intro i j hij
  unfold pastRoot at hij
  split at hij <;> split at hij <;> omega

theorem HoldsForest.append {a : Arena α} {parent : Nat} {cs ds : List (Tree α)} :
    ∀ {n : Nat}, HoldsForest a parent n (cs ++ ds) ↔
      HoldsForest a parent n cs ∧ HoldsForest a parent (n + forestSize cs) ds := by
  induction cs with
  | nil => intro n; simp [HoldsForest, forestSize]
  | cons t rest ih =>
      intro n
      rw [List.cons_append, HoldsForest, HoldsForest, ih, forestSize, and_assoc, Nat.add_assoc]

mutual

/-- Two arenas that hold a tree at different numbers hold the same there. -/
theorem Holds.moved {a b : Arena α} (t : Tree α) {p q : Option Nat} {n d i : Nat}
    (ha : Holds a p n t) (hb : Holds b q (n + d) t) (hn : n ≤ i) (hi : i < n + t.size) :
    b.node? (i + d) = a.node? i ∧ b.childrenOf (i + d) = (a.childrenOf i).map (· + d) ∧
      (n < i → ∃ e, n ≤ e ∧ a.parent? i = some e ∧ b.parent? (i + d) = some (e + d)) := by
  cases t with
  | node l cs =>
      rw [Tree.size] at hi
      rcases Nat.eq_or_lt_of_le hn with rfl | hlt
      · refine ⟨by rw [hb.1, ha.1], ?_, fun h => absurd h (Nat.lt_irrefl _)⟩
        rw [hb.2.2.1, ha.2.2.1, Nat.add_right_comm, rootsFrom_add]
      · have hbelow := hb.2.2.2
        rw [Nat.add_right_comm] at hbelow
        have hstop : i < n + 1 + forestSize cs := by omega
        obtain ⟨hnode, hchildren, hparent⟩ := HoldsForest.moved cs ha.2.2.2 hbelow hlt hstop
        refine ⟨hnode, hchildren, fun _ => ?_⟩
        rcases hparent with ⟨e, he, hpa, hpb⟩ | ⟨hpa, hpb⟩
        · exact ⟨e, by omega, hpa, hpb⟩
        · exact ⟨n, Nat.le_refl n, hpa, hpb⟩

theorem HoldsForest.moved {a b : Arena α} (cs : List (Tree α)) {p q n d i : Nat}
    (ha : HoldsForest a p n cs) (hb : HoldsForest b q (n + d) cs) (hn : n ≤ i)
    (hi : i < n + forestSize cs) :
    b.node? (i + d) = a.node? i ∧ b.childrenOf (i + d) = (a.childrenOf i).map (· + d) ∧
      ((∃ e, n ≤ e ∧ a.parent? i = some e ∧ b.parent? (i + d) = some (e + d)) ∨
        (a.parent? i = some p ∧ b.parent? (i + d) = some q)) := by
  cases cs with
  | nil =>
      simp only [forestSize] at hi
      omega
  | cons t rest =>
      rw [forestSize] at hi
      by_cases hin : i < n + t.size
      · obtain ⟨hnode, hchildren, hparent⟩ := Holds.moved t ha.1 hb.1 hn hin
        refine ⟨hnode, hchildren, ?_⟩
        rcases Nat.eq_or_lt_of_le hn with rfl | hlt
        · right
          cases t with
          | node l ds => exact ⟨ha.1.2.1, hb.1.2.1⟩
        · exact Or.inl (hparent hlt)
      · have hbrest := hb.2
        rw [Nat.add_right_comm] at hbrest
        have hstart : n + t.size ≤ i := by omega
        have hstop : i < n + t.size + forestSize rest := by omega
        obtain ⟨hnode, hchildren, hparent⟩ := HoldsForest.moved rest ha.2 hbrest hstart hstop
        refine ⟨hnode, hchildren, ?_⟩
        rcases hparent with ⟨e, he, hpa, hpb⟩ | hroots
        · exact Or.inl ⟨e, by omega, hpa, hpb⟩
        · exact Or.inr hroots

end

/-- **A tree lies in the tree with further children at its root**, if the label of the root is not
closed. -/
theorem embeds_siblings {closed : α → Prop} {r : α} (hr : ¬ closed r)
    (before cs after : List (Tree α)) :
    Embeds closed (pastRoot (forestSize before)) (.node r cs)
      (.node r (before ++ (cs ++ after))) := by
  have ht := holds_ofTree (Tree.node r cs)
  have hu := holds_ofTree (Tree.node r (before ++ (cs ++ after)))
  have hforest := (HoldsForest.append.1 (HoldsForest.append.1 hu.2.2.2).2).1
  have hsize : (Tree.node r cs).size = forestSize cs + 1 := by rw [Tree.size]
  have hmoved : ∀ i, 0 < i → i < (Tree.node r cs).size → _ := fun i hpos hi =>
    HoldsForest.moved cs ht.2.2.2 hforest hpos (by omega)
  refine ⟨pastRoot_injective _, ?_, ?_, ?_⟩
  · intro i hi
    rcases Nat.eq_zero_or_pos i with rfl | hpos
    · exact hu.1.trans ht.1.symm
    · rw [pastRoot_of_pos hpos]
      exact (hmoved i hpos hi).1
  · intro i hi
    rcases Nat.eq_zero_or_pos i with rfl | hpos
    · rw [ht.2.1]
      exact hu.2.1
    · rw [pastRoot_of_pos hpos]
      rcases (hmoved i hpos hi).2.2 with ⟨e, he, hpa, hpb⟩ | ⟨hpa, hpb⟩
      · rw [hpa, hpb, Option.map_some, pastRoot_of_pos he]
      · rw [hpa, hpb]
        rfl
  · intro i l hl hclosed
    rcases Nat.eq_zero_or_pos i with rfl | hpos
    · rw [ht.1] at hl
      cases hl
      exact absurd hclosed hr
    · rw [pastRoot_of_pos hpos, (hmoved i hpos (lt_of_node? hl)).2.1]
      refine List.map_congr_left fun c hc => ?_
      exact (pastRoot_of_pos (Nat.lt_trans hpos (lt_of_mem_childrenOf hl hc).1)).symm

end Arena

/-! ## Questions to a program -/

namespace Program

open Arena

/-- A program tree lies in another, where only nodes of kind `other` have further children. -/
abbrev Embeds (φ : Nat → Nat) (t u : Tree Node) : Prop :=
  Arena.Embeds (fun n : Node => n.kind ≠ .other) φ t u

theorem node?_of_kindAt {t : Tree Node} {i : Nat} {k : NodeKind}
    (h : (ofTree t).kindAt i = some k) : ∃ n, (Arena.ofTree t).node? i = some n ∧ n.kind = k :=
  Option.map_eq_some_iff.1 h

theorem kindAt_eq {p : Program} {i : Nat} {n : Node} (hn : p.node? i = some n) :
    p.kindAt i = some n.kind := by
  unfold kindAt
  rw [hn]
  rfl

/-- A child is a node with a greater number. -/
theorem lt_of_childInRole? {t : Tree Node} {i c : Nat} {role : String} {k : NodeKind}
    (hk : (ofTree t).kindAt i = some k) (h : (ofTree t).childInRole? i role = some c) :
    i < c ∧ c < t.size := by
  obtain ⟨n, hn, -⟩ := node?_of_kindAt hk
  exact lt_of_mem_childrenOf hn (List.mem_of_find?_eq_some h)

/-- A property is met at a property. -/
theorem kind_of_rung {role : Option String} {parent : Node} (h : rung role parent = .property) :
    parent.kind = .objectProperty := by
  unfold rung at h
  split at h
  · assumption
  all_goals (first | (split at h <;> cases h) | cases h)

namespace Embeds

variable {φ : Nat → Nat} {t u : Tree Node} {i : Nat}

theorem kindAt (h : Embeds φ t u) (hi : i < t.size) :
    (ofTree u).kindAt (φ i) = (ofTree t).kindAt i := congrArg _ (h.node i hi)

theorem roleAt (h : Embeds φ t u) (hi : i < t.size) :
    (ofTree u).roleAt (φ i) = (ofTree t).roleAt i := by
  unfold Program.roleAt ofTree
  rw [h.node i hi]

theorem nameAt (h : Embeds φ t u) (hi : i < t.size) :
    (ofTree u).nameAt (φ i) = (ofTree t).nameAt i := by
  unfold Program.nameAt ofTree
  rw [h.node i hi]

theorem textAt (h : Embeds φ t u) (hi : i < t.size) :
    (ofTree u).textAt (φ i) = (ofTree t).textAt i := by
  unfold Program.textAt ofTree
  rw [h.node i hi]

theorem nearestOfKind? (h : Embeds φ t u) (hi : i < t.size) (k : NodeKind) :
    (ofTree u).nearestOfKind? (φ i) k = ((ofTree t).nearestOfKind? i k).map φ :=
  h.nearest? hi _

theorem childInRole? (h : Embeds φ t u) {k : NodeKind} (hk : (ofTree t).kindAt i = some k)
    (hother : k ≠ .other) (role : String) :
    (ofTree u).childInRole? (φ i) role = ((ofTree t).childInRole? i role).map φ := by
  obtain ⟨n, hn, rfl⟩ := node?_of_kindAt hk
  exact h.child? hn hother _

/-- A name is put together from the same parts, however the steps are bounded as long as they are
enough. -/
theorem dottedNameUpTo (h : Embeds φ t u) (bound : Nat) :
    ∀ i bound', i < t.size → t.size ≤ i + bound → u.size ≤ φ i + bound' →
      (ofTree u).dottedNameUpTo bound' (φ i) = (ofTree t).dottedNameUpTo bound i := by
  induction bound with
  | zero => intro i bound' hi hbound; omega
  | succ bound ih =>
      intro i bound' hi hbound hbound'
      obtain ⟨n, hn⟩ := exists_node? hi
      have hn' : (Arena.ofTree u).node? (φ i) = some n := (h.node i hi).trans hn
      have hi' := lt_of_node? hn'
      cases bound' with
      | zero => omega
      | succ bound' =>
          have hp : (ofTree t).node? i = some n := hn
          have hp' : (ofTree u).node? (φ i) = some n := hn'
          unfold Program.dottedNameUpTo
          rw [hp, hp']
          dsimp only
          cases hkind : n.kind <;> try rfl
          have hk : (ofTree t).kindAt i = some .memberAccess := by rw [kindAt_eq hp, hkind]
          have hchild := h.childInRole? hk (by decide) "object"
          cases hobject : (ofTree t).childInRole? i "object" with
          | none =>
              rw [hobject] at hchild
              rw [hchild]
              rfl
          | some o =>
              rw [hobject] at hchild
              have hlt := lt_of_childInRole? hk hobject
              have hk' : (ofTree u).kindAt (φ i) = some .memberAccess := by
                rw [kindAt_eq hp', hkind]
              have hlt' := lt_of_childInRole? hk' hchild
              rw [hchild]
              dsimp only [Option.map_some]
              rw [ih o bound' hlt.2 (by omega) (by omega)]

theorem dottedName (h : Embeds φ t u) (hi : i < t.size) :
    (ofTree u).dottedName (φ i) = (ofTree t).dottedName i :=
  h.dottedNameUpTo _ i _ hi (by rw [ofTree, size_ofTree]; omega) (by rw [ofTree, size_ofTree]; omega)

theorem propertyKey (h : Embeds φ t u) (hk : (ofTree t).kindAt i = some .objectProperty) :
    (ofTree u).propertyKey (φ i) = (ofTree t).propertyKey i := by
  have hkey : ((ofTree u).childInRole? (φ i) "key").bind (Arena.node? (ofTree u)) =
      ((ofTree t).childInRole? i "key").bind (Arena.node? (ofTree t)) := by
    rw [h.childInRole? hk (by decide)]
    cases hchild : (ofTree t).childInRole? i "key" with
    | none => rfl
    | some c => exact h.node c (lt_of_childInRole? hk hchild).2
  unfold Program.propertyKey
  rw [hkey]

theorem templateTag (h : Embeds φ t u) (hi : i < t.size)
    (hk : (ofTree t).kindAt i = some .taggedTemplate) :
    (ofTree u).templateTag (φ i) = (ofTree t).templateTag i := by
  unfold Program.templateTag
  rw [h.nameAt hi, h.childInRole? hk (by decide)]
  cases htag : (ofTree t).childInRole? i "tag" with
  | none => rfl
  | some tag =>
      have htaglt := (lt_of_childInRole? hk htag).2
      dsimp only [Option.map_some]
      rw [h.kindAt htaglt, h.nameAt htaglt]
      cases hkind : (ofTree t).kindAt tag with
      | none => rfl
      | some k =>
          cases k <;> try rfl
          rw [h.childInRole? hkind (by decide)]
          cases hcallee : (ofTree t).childInRole? tag "callee" with
          | none => rfl
          | some callee =>
              have hlt := (lt_of_childInRole? hkind hcallee).2
              dsimp only [Option.map_some]
              rw [h.kindAt hlt, h.nameAt hlt]

theorem calleeMatches (h : Embeds φ t u) (hi : i < t.size) (rules : CalleeRules) :
    (ofTree u).calleeMatches (φ i) rules = (ofTree t).calleeMatches i rules := by
  unfold Program.calleeMatches
  rw [h.kindAt hi, h.nameAt hi, h.dottedName hi]

/-- The call that a number stands for has the same callee. -/
theorem isTechnicalCall (h : Embeds φ t u) (hi : i < t.size) (c : Configuration) :
    (ofTree u).isTechnicalCall c (φ i) = (ofTree t).isTechnicalCall c i := by
  obtain ⟨n, hn⟩ := exists_node? hi
  have hp : (ofTree t).node? i = some n := hn
  have hp' : (ofTree u).node? (φ i) = some n := (h.node i hi).trans hn
  unfold Program.isTechnicalCall
  rw [hp, hp']
  dsimp only
  by_cases hcall : n.kind = .call
  · have hk : (ofTree t).kindAt i = some .call := by rw [kindAt_eq hp, hcall]
    rw [h.childInRole? hk (by decide)]
    cases hcallee : (ofTree t).childInRole? i "callee" with
    | none => rfl
    | some callee =>
        have hlt := (lt_of_childInRole? hk hcallee).2
        dsimp only [Option.map_some]
        rw [h.kindAt hlt, h.nameAt hlt, h.calleeMatches hlt]
  · have hne : (n.kind != .call) = true := by simpa using hcall
    simp only [hne, if_true]

theorem isTranslationCall (h : Embeds φ t u) (hi : i < t.size) (c : Configuration) :
    (ofTree u).isTranslationCall c (φ i) = (ofTree t).isTranslationCall c i := by
  unfold Program.isTranslationCall
  rw [h.kindAt hi]
  by_cases hk : (ofTree t).kindAt i = some .call
  · rw [h.childInRole? hk (by decide)]
    cases hcallee : (ofTree t).childInRole? i "callee" with
    | none => rfl
    | some callee =>
        dsimp only [Option.map_some]
        rw [h.calleeMatches (lt_of_childInRole? hk hcallee).2]
  · have hne : ((ofTree t).kindAt i != some .call) = true := by simpa using hk
    simp only [hne, if_true]

/-- The climb to a binding passes the same nodes. -/
theorem bindingTypeUpTo (h : Embeds φ t u) (bound : Nat) :
    ∀ i bound' keys, i < t.size → i < bound → φ i < bound' →
      (ofTree u).bindingTypeUpTo bound' (φ i) keys = (ofTree t).bindingTypeUpTo bound i keys := by
  induction bound with
  | zero => intro i bound' keys hi hbound; omega
  | succ bound ih =>
      intro i bound' keys hi hbound hbound'
      cases bound' with
      | zero => omega
      | succ bound' =>
          have hparent := h.parent i hi
          unfold Program.bindingTypeUpTo
          cases hp : (ofTree t).parent? i with
          | none =>
              rw [show (Arena.ofTree t).parent? i = none from hp] at hparent
              rw [show (ofTree u).parent? (φ i) = none from hparent]
          | some j =>
              rw [show (Arena.ofTree t).parent? i = some j from hp] at hparent
              rw [show (ofTree u).parent? (φ i) = some (φ j) from hparent]
              have hj := (parent?_lt hp).1
              have hj' := (parent?_lt hparent).1
              have hjt : j < t.size := by omega
              have hnode : (ofTree u).node? (φ j) = (ofTree t).node? j := h.node j hjt
              dsimp only
              rw [hnode, h.roleAt hi]
              cases hn : (ofTree t).node? j with
              | none => rfl
              | some parent =>
                  dsimp only
                  cases hrung : rung ((ofTree t).roleAt i) parent with
                  | stop => rfl
                  | binding type => rfl
                  | wrapper => exact ih j bound' keys hjt (by omega) (by omega)
                  | property =>
                      have hk : (ofTree t).kindAt j = some .objectProperty := by
                        rw [kindAt_eq hn, kind_of_rung hrung]
                      dsimp only
                      rw [h.propertyKey hk]
                      refine bind_congr fun key => ?_
                      split
                      · rfl
                      · exact ih j bound' _ hjt (by omega) (by omega)

theorem includesLiteral (h : Embeds φ t u) (hi : i < t.size) (v : Text) :
    (ofTree u).includesLiteral (φ i) v = (ofTree t).includesLiteral i v := by
  unfold Program.includesLiteral
  rw [h.bindingTypeUpTo (i + 1) i (φ i + 1) [] hi (Nat.lt_succ_self _) (Nat.lt_succ_self _)]

end Embeds

end Program

end LiteralLint
