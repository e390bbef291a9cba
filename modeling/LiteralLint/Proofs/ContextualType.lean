import Mathlib.Logic.Relation
import LiteralLint.Proofs.DecisionList
import LiteralLint.Proofs.Embedding

/-!
# Contextual types

The declared oracle climbs from a node to a binding, collects keys on the way and then follows them
down the declared type. What it is meant to answer is said without any climb: a contextual type is
handed down from a binding to its value or pattern, through wrappers unchanged, and from an object to
the values of its properties.

The two meet in a recursion that goes up like the climb and follows one key on its way back. It reads
the keys in the order of the climb, innermost first, and follows them in the order of the descent,
so even its faults are those of the oracle. On a well-typed program the only fault is a key without a
numeral on the climb.

## Main definitions

* `DeclaredType.HasLiteral`: a text is a literal of a type, through unions of any depth.
* `Program.Contextual`: the contextual types of a program.
* `Program.LongKeyAbove`: a key on the climb that ends it with a fault.
* `Program.contextualType`: the type by recursion along the climb.

## Main results

* `Program.includesLiteral_eq`: climbing first and descending then is the recursion.
* `Program.contextualType_eq_ok_iff`: the recursion finds the contextual type.
* `Program.contextualType_eq_error_iff`: when it fails.
* `Program.includesLiteral_ok`: the declared oracle answers.
* `Program.subjectIncludesLiteral_iff`: and what it answers.
-/

namespace LiteralLint

/-! ## Literals of a type -/

namespace DeclaredType

/-- A text is a literal of a type: the type itself is the literal, or the text is a literal of a
member of the union that the type is. -/
inductive HasLiteral (v : Text) : DeclaredType → Prop
  | literal : HasLiteral v (.literal (.text v))
  | member {members : List DeclaredType} {t : DeclaredType} (hmem : t ∈ members)
      (h : HasLiteral v t) : HasLiteral v (.union members)

theorem mem_memberLiterals {v : Text} {members : List DeclaredType} :
    v ∈ memberLiterals members ↔ ∃ t ∈ members, v ∈ t.stringLiterals := by
  induction members with
  | nil => simp [memberLiterals]
  | cons t rest ih => simp [memberLiterals, ih]

theorem HasLiteral.mem {v : Text} {t : DeclaredType} (h : HasLiteral v t) :
    v ∈ t.stringLiterals := by
  induction h with
  | literal => simp [stringLiterals]
  | member hmem _ ih =>
      rw [stringLiterals]
      exact mem_memberLiterals.2 ⟨_, hmem, ih⟩

mutual

theorem hasLiteral_of_mem {v : Text} : ∀ t : DeclaredType, v ∈ t.stringLiterals → HasLiteral v t
  | .literal d, h => by
      cases d with
      | text u =>
          rw [stringLiterals, List.mem_singleton] at h
          exact h ▸ .literal
      | _ => exact nomatch h
  | .union members, h => by
      rw [stringLiterals] at h
      obtain ⟨t, hmem, ht⟩ := hasLiteral_of_mem_members members h
      exact .member hmem ht
  | .intersection _, h => nomatch h
  | .object _, h => nomatch h
  | .keyword _, h => nomatch h
  | .reference _, h => nomatch h
  | .other _, h => nomatch h

theorem hasLiteral_of_mem_members {v : Text} :
    ∀ members : List DeclaredType, v ∈ memberLiterals members → ∃ t ∈ members, HasLiteral v t
  | [], h => nomatch h
  | t :: rest, h => by
      rw [memberLiterals] at h
      rcases List.mem_append.1 h with h | h
      · exact ⟨t, List.mem_cons_self, hasLiteral_of_mem t h⟩
      · obtain ⟨u, hu, hlit⟩ := hasLiteral_of_mem_members rest h
        exact ⟨u, List.mem_cons_of_mem _ hu, hlit⟩

end

theorem mem_stringLiterals {v : Text} {t : DeclaredType} :
    v ∈ t.stringLiterals ↔ HasLiteral v t := ⟨hasLiteral_of_mem t, HasLiteral.mem⟩

end DeclaredType

namespace Program

open Relation (ReflTransGen)
open Datum (ofText? isMissing)

/-! ## Contextual types -/

section

variable (p : Program)

/-- A node is the value or the pattern of a binding. -/
def IsBoundBy (i j : Nat) : Prop :=
  p.parent? i = some j ∧ p.kindAt j = some .variableBinding ∧
    (p.roleAt i = some "value" ∨ p.roleAt i = some "pattern")

/-- A node stands in an object, in a pattern of objects or in parentheses. -/
def IsWrappedBy (i j : Nat) : Prop :=
  p.parent? i = some j ∧ ∃ n, p.node? j = some n ∧ n.kind = .other ∧ n.label ∈ transparentLabels

/-- A node is the value of an object property. -/
def IsValueOf (i j : Nat) : Prop :=
  p.parent? i = some j ∧ p.kindAt j = some .objectProperty ∧ p.roleAt i = some "value"

/-- The type that a node declares. -/
def declaredTypeAt (i : Nat) : Option DeclaredType := (p.node? i).bind Node.declaredType

/-- The contextual type of a node: what is bound has the declared type of the binding, what is
wrapped has the type of the wrapper, and the value of a property has the type that the object type
of the property gives to its key. Nothing else has one. -/
inductive Contextual : Nat → DeclaredType → Prop
  | binding {i j : Nat} {t : DeclaredType} (h : p.IsBoundBy i j)
      (ht : p.declaredTypeAt j = some t) : Contextual i t
  | wrapper {i j : Nat} {t : DeclaredType} (h : p.IsWrappedBy i j) (ht : Contextual j t) :
      Contextual i t
  | property {i j : Nat} {key : Text} {properties : List (Text × DeclaredType)} {t : DeclaredType}
      (h : p.IsValueOf i j) (hkey : p.propertyKey j = .ok (.text key))
      (hobject : Contextual j (.object properties)) (ht : properties.lookup key = some t) :
      Contextual i t

/-- A climb goes on from a node to its parent: through a wrapper, and through a property that has a
key. -/
inductive ClimbsTo : Nat → Nat → Prop
  | wrapper {i j : Nat} (h : p.IsWrappedBy i j) : ClimbsTo i j
  | property {i j : Nat} {key : Datum} (h : p.IsValueOf i j) (hkey : p.propertyKey j = .ok key)
      (hpresent : key.isMissing = false) : ClimbsTo i j

/-- The climb from a node comes to a property whose key has no numeral. -/
def LongKeyAbove (i : Nat) : Prop :=
  ∃ j k, ReflTransGen p.ClimbsTo i j ∧ p.IsValueOf j k ∧ p.keyIsTooLong k = true

/-! ## The recursion -/

/-- The contextual type of a node, going up at most some levels. -/
def contextualTypeUpTo : Nat → Nat → Except NodeFault (Option DeclaredType)
  | 0, _ => .ok none
  | bound + 1, i =>
    match p.parent? i with
    | none => .ok none
    | some j =>
      match p.node? j with
      | none => .ok none
      | some parent =>
        match rung (p.roleAt i) parent with
        | .stop => .ok none
        | .binding t => .ok t
        | .wrapper => contextualTypeUpTo bound j
        | .property => do
          let key ← p.propertyKey j
          if key.isMissing then return none
          else follow (← contextualTypeUpTo bound j) [key]

/-- The contextual type of a node. A parent has a smaller number. -/
def contextualType (i : Nat) : Except NodeFault (Option DeclaredType) :=
  p.contextualTypeUpTo (i + 1) i

end

variable {p : Program}

/-! ### One key -/

theorem follow_nil (t : Option DeclaredType) : follow t [] = .ok t := by
  cases t <;> rfl

/-- Following a path of keys is following the first and then the others. -/
theorem follow_cons (t : Option DeclaredType) (key : Datum) (rest : List Datum) :
    follow t (key :: rest) = follow t [key] >>= fun u => follow u rest := by
  have hnone : follow none rest = .ok none := by cases rest <;> rfl
  cases t with
  | none => exact hnone.symm
  | some t =>
      cases t with
      | object properties =>
          cases key with
          | text k =>
              show follow (properties.lookup k) rest = follow (properties.lookup k) [] >>= _
              rw [follow_nil]
              rfl
          | items xs => rfl
          | _ => exact hnone.symm
      | _ => exact hnone.symm

/-- One key leads to the type of a property of an object. -/
theorem follow_one_eq_ok {o : Option DeclaredType} {key : Datum} {t : DeclaredType} :
    follow o [key] = .ok (some t) ↔ ∃ properties k, o = some (.object properties) ∧
      key = .text k ∧ properties.lookup k = some t := by
  rcases o with _ | u
  · simp [follow]
  · cases u <;> cases key <;> simp [follow, follow_nil]

/-- A key that is a text or missing can be followed. -/
theorem follow_text_ok (o : Option DeclaredType) (key : Option Text) :
    ∃ u, follow o [ofText? key] = .ok u := by
  rcases o with _ | t
  · exact ⟨none, rfl⟩
  · cases t <;> cases key <;> simp [follow, ofText?, follow_nil]

/-! ### What stands above a node -/

theorem contextualTypeUpTo_of_bound {i j : Nat} (h : p.IsBoundBy i j) (bound : Nat) :
    p.contextualTypeUpTo (bound + 1) i = .ok (p.declaredTypeAt j) := by
  obtain ⟨hparent, hkind, hrole⟩ := h
  obtain ⟨n, hn, hnkind⟩ := Option.map_eq_some_iff.1 hkind
  have hrung : rung (p.roleAt i) n = .binding n.declaredType := by
    unfold rung
    rw [hnkind]
    rcases hrole with hrole | hrole <;> rw [hrole] <;> rfl
  rw [contextualTypeUpTo, hparent]
  dsimp only
  rw [hn]
  dsimp only
  rw [hrung, declaredTypeAt, hn]
  rfl

theorem contextualTypeUpTo_of_wrapped {i j : Nat} (h : p.IsWrappedBy i j) (bound : Nat) :
    p.contextualTypeUpTo (bound + 1) i = p.contextualTypeUpTo bound j := by
  obtain ⟨hparent, n, hn, hkind, hlabel⟩ := h
  have hrung : rung (p.roleAt i) n = .wrapper := by
    unfold rung
    rw [hkind]
    exact if_pos (List.contains_iff_mem.2 hlabel)
  rw [contextualTypeUpTo, hparent]
  dsimp only
  rw [hn]
  dsimp only
  rw [hrung]

theorem contextualTypeUpTo_of_value {i j : Nat} (h : p.IsValueOf i j) (bound : Nat) :
    p.contextualTypeUpTo (bound + 1) i = p.propertyKey j >>= fun key =>
      if key.isMissing then .ok none
      else p.contextualTypeUpTo bound j >>= fun t => follow t [key] := by
  obtain ⟨hparent, hkind, hrole⟩ := h
  obtain ⟨n, hn, hnkind⟩ := Option.map_eq_some_iff.1 hkind
  have hrung : rung (p.roleAt i) n = .property := by
    unfold rung
    rw [hnkind, hrole]
    rfl
  rw [contextualTypeUpTo, hparent]
  dsimp only
  rw [hn]
  dsimp only
  rw [hrung]
  rfl

/-- A climb stops at a node, unless the node is bound, wrapped or the value of a property. -/
theorem ascent_cases (p : Program) (i : Nat) :
    (∃ j, p.IsBoundBy i j) ∨ (∃ j, p.IsWrappedBy i j) ∨ (∃ j, p.IsValueOf i j) ∨
      ∀ bound, p.contextualTypeUpTo bound i = .ok none := by
  cases hparent : p.parent? i with
  | none =>
      refine Or.inr (Or.inr (Or.inr fun bound => ?_))
      cases bound <;> simp [contextualTypeUpTo, hparent]
  | some j =>
  cases hn : p.node? j with
  | none =>
      refine Or.inr (Or.inr (Or.inr fun bound => ?_))
      cases bound <;> simp [contextualTypeUpTo, hparent, hn]
  | some n =>
  have hkindAt := kindAt_eq hn
  by_cases hbound : p.IsBoundBy i j
  · exact Or.inl ⟨j, hbound⟩
  by_cases hwrapped : p.IsWrappedBy i j
  · exact Or.inr (Or.inl ⟨j, hwrapped⟩)
  by_cases hvalue : p.IsValueOf i j
  · exact Or.inr (Or.inr (Or.inl ⟨j, hvalue⟩))
  refine Or.inr (Or.inr (Or.inr fun bound => ?_))
  have hrung : rung (p.roleAt i) n = .stop := by
    unfold rung
    split
    · rename_i hkind
      refine if_neg fun hrole => hvalue ⟨hparent, ?_, eq_of_beq hrole⟩
      rw [hkindAt, hkind]
    · rename_i hkind
      refine if_neg fun hrole => hbound ⟨hparent, ?_, ?_⟩
      · rw [hkindAt, hkind]
      · rcases (Bool.or_eq_true_iff.1 hrole) with hrole | hrole
        · exact Or.inl (eq_of_beq hrole)
        · exact Or.inr (eq_of_beq hrole)
    · rename_i hkind
      refine if_neg fun hlabel => hwrapped ⟨hparent, n, hn, hkind, ?_⟩
      exact List.contains_iff_mem.1 hlabel
    · rfl
  cases bound <;> simp [contextualTypeUpTo, hparent, hn, hrung]

/-- Climbing first and descending then is the recursion: the keys are followed in the order opposite
to the one in which they are read. -/
theorem follow_bindingTypeUpTo (bound : Nat) :
    ∀ i keys, (p.bindingTypeUpTo bound i keys >>= fun x => follow x.1 x.2.reverse) =
      p.contextualTypeUpTo bound i >>= fun t => follow t keys.reverse := by
  have hstop : ∀ keys : List Datum, follow none keys.reverse = .ok none := by
    intro keys
    cases keys.reverse <;> rfl
  induction bound with
  | zero => exact fun i keys => rfl
  | succ bound ih =>
      intro i keys
      rw [bindingTypeUpTo, contextualTypeUpTo]
      cases p.parent? i with
      | none => rfl
      | some j =>
      dsimp only
      cases p.node? j with
      | none => rfl
      | some parent =>
      dsimp only
      cases rung (p.roleAt i) parent with
      | stop => rfl
      | binding t => rfl
      | wrapper => exact ih j keys
      | property =>
          cases p.propertyKey j with
          | error f => rfl
          | ok key =>
              show (if key.isMissing then _ else _) >>= _ = (if key.isMissing then _ else _) >>= _
              cases key.isMissing with
              | true => rfl
              | false =>
                  have hclimb := ih j (keys ++ [key])
                  rw [List.reverse_append] at hclimb
                  refine hclimb.trans ?_
                  show _ = (p.contextualTypeUpTo bound j >>= fun t => follow t [key]) >>= _
                  cases p.contextualTypeUpTo bound j with
                  | error f => rfl
                  | ok t => exact follow_cons t key keys.reverse

/-- **Climbing first and descending then is the recursion.** -/
theorem includesLiteral_eq (i : Nat) (v : Text) :
    p.includesLiteral i v =
      (p.contextualType i).map fun o => o.any fun t => t.stringLiterals.contains v := by
  have hclimb := follow_bindingTypeUpTo (p := p) (i + 1) i []
  unfold includesLiteral contextualType
  cases hbinding : p.bindingTypeUpTo (i + 1) i [] with
  | error f =>
      rw [hbinding] at hclimb
      cases htype : p.contextualTypeUpTo (i + 1) i with
      | error g =>
          rw [htype] at hclimb
          cases hclimb
          rfl
      | ok t =>
          rw [htype] at hclimb
          cases t <;> cases hclimb
  | ok x =>
      rw [hbinding] at hclimb
      have hfollow : follow x.1 x.2.reverse = p.contextualTypeUpTo (i + 1) i := by
        refine hclimb.trans ?_
        cases p.contextualTypeUpTo (i + 1) i with
        | error f => rfl
        | ok t => exact follow_nil t
      rw [← hfollow]
      show (follow x.1 x.2.reverse >>= _) = _
      cases follow x.1 x.2.reverse with
      | error f => rfl
      | ok o => cases o <;> rfl

/-! ## On the program of a tree -/

section

variable {tree : Tree Node} {i j : Nat}

open Arena (parent?_lt)

/-- Levels beyond the number of a node make no difference. -/
theorem contextualTypeUpTo_eq (tree : Tree Node) (i : Nat) :
    ∀ bound, i < bound →
      (ofTree tree).contextualTypeUpTo bound i = (ofTree tree).contextualType i := by
  induction i using Nat.strongRecOn with
  | ind i ih =>
      intro bound hbound
      obtain ⟨bound, rfl⟩ := Nat.exists_eq_add_of_lt hbound
      rw [contextualType]
      rcases ascent_cases (ofTree tree) i with ⟨j, h⟩ | ⟨j, h⟩ | ⟨j, h⟩ | h
      · rw [contextualTypeUpTo_of_bound h, contextualTypeUpTo_of_bound h]
      · have hlt := (parent?_lt h.1).1
        rw [contextualTypeUpTo_of_wrapped h, contextualTypeUpTo_of_wrapped h, ih j hlt _ (by omega),
          ih j hlt _ hlt]
      · have hlt := (parent?_lt h.1).1
        rw [contextualTypeUpTo_of_value h, contextualTypeUpTo_of_value h, ih j hlt _ (by omega),
          ih j hlt _ hlt]
      · rw [h, h]

theorem contextualType_of_bound (h : (ofTree tree).IsBoundBy i j) :
    (ofTree tree).contextualType i = .ok ((ofTree tree).declaredTypeAt j) :=
  contextualTypeUpTo_of_bound h i

theorem contextualType_of_wrapped (h : (ofTree tree).IsWrappedBy i j) :
    (ofTree tree).contextualType i = (ofTree tree).contextualType j := by
  rw [contextualType, contextualTypeUpTo_of_wrapped h]
  exact contextualTypeUpTo_eq tree j i (parent?_lt h.1).1

theorem contextualType_of_value (h : (ofTree tree).IsValueOf i j) :
    (ofTree tree).contextualType i = (ofTree tree).propertyKey j >>= fun key =>
      if key.isMissing then .ok none
      else (ofTree tree).contextualType j >>= fun t => follow t [key] := by
  rw [contextualType, contextualTypeUpTo_of_value h,
    contextualTypeUpTo_eq tree j i (parent?_lt h.1).1]

/-- Where the value of a property has a type, its property has a key that leads to it. -/
theorem found_of_value {t : DeclaredType} (h : (ofTree tree).IsValueOf i j)
    (htype : (ofTree tree).contextualType i = .ok (some t)) :
    ∃ key o, (ofTree tree).propertyKey j = .ok key ∧ (ofTree tree).contextualType j = .ok o ∧
      follow o [key] = .ok (some t) := by
  rw [contextualType_of_value h] at htype
  cases hkey : (ofTree tree).propertyKey j with
  | error f => rw [hkey] at htype; cases htype
  | ok key =>
      rw [hkey] at htype
      change (if key.isMissing then _ else _) = _ at htype
      split at htype
      · cases htype
      · cases ho : (ofTree tree).contextualType j with
        | error f => rw [ho] at htype; cases htype
        | ok o =>
            rw [ho] at htype
            exact ⟨key, o, rfl, rfl, htype⟩

/-- **The recursion finds the contextual type.** -/
theorem contextualType_eq_ok_iff {t : DeclaredType} :
    (ofTree tree).contextualType i = .ok (some t) ↔ (ofTree tree).Contextual i t := by
  constructor
  · induction i using Nat.strongRecOn generalizing t with
    | ind i ih =>
        intro htype
        rcases ascent_cases (ofTree tree) i with ⟨j, h⟩ | ⟨j, h⟩ | ⟨j, h⟩ | h
        · rw [contextualType_of_bound h] at htype
          exact .binding h (Except.ok.inj htype)
        · rw [contextualType_of_wrapped h] at htype
          exact .wrapper h (ih j (parent?_lt h.1).1 htype)
        · obtain ⟨key, o, hkey, ho, hfollow⟩ := found_of_value h htype
          obtain ⟨properties, k, rfl, rfl, hlookup⟩ := follow_one_eq_ok.1 hfollow
          exact .property h hkey (ih j (parent?_lt h.1).1 ho) hlookup
        · rw [contextualType, h] at htype
          cases htype
  · intro h
    induction h with
    | binding h ht => rw [contextualType_of_bound h, ht]
    | wrapper h _ ih => rw [contextualType_of_wrapped h, ih]
    | property h hkey _ ht ih =>
        rw [contextualType_of_value h, hkey]
        show ((ofTree tree).contextualType _ >>= _) = _
        rw [ih]
        exact follow_one_eq_ok.2 ⟨_, _, rfl, rfl, ht⟩

/-! ### Faults -/

/-- A fault above a node to which the climb goes on is a fault at the node. -/
theorem contextualType_of_climbsTo {f : NodeFault} (h : (ofTree tree).ClimbsTo i j)
    (hj : (ofTree tree).contextualType j = .error f) :
    (ofTree tree).contextualType i = .error f := by
  cases h with
  | wrapper h => rw [contextualType_of_wrapped h, hj]
  | property h hkey hpresent =>
      rw [contextualType_of_value h, hkey]
      show (if _ then _ else _) = _
      rw [hpresent, if_neg Bool.false_ne_true, hj]
      rfl

/-- **The recursion fails just if its climb comes to a key without a numeral.** -/
theorem contextualType_eq_error_iff (hp : (ofTree tree).WellTyped) {f : NodeFault} :
    (ofTree tree).contextualType i = .error f ↔
      f = .numeralTooLong ∧ (ofTree tree).LongKeyAbove i := by
  constructor
  · induction i using Nat.strongRecOn with
    | ind i ih =>
        intro htype
        rcases ascent_cases (ofTree tree) i with ⟨j, h⟩ | ⟨j, h⟩ | ⟨j, h⟩ | h
        · rw [contextualType_of_bound h] at htype
          cases htype
        · rw [contextualType_of_wrapped h] at htype
          obtain ⟨hf, l, k, hclimb, hkey⟩ := ih j (parent?_lt h.1).1 htype
          exact ⟨hf, l, k, .head (.wrapper h) hclimb, hkey⟩
        · rw [contextualType_of_value h] at htype
          cases hlong : (ofTree tree).keyIsTooLong j with
          | true =>
              rw [propertyKey_eq hp, hlong] at htype
              cases htype
              exact ⟨rfl, i, j, .refl, h, hlong⟩
          | false =>
              have hkey : (ofTree tree).propertyKey j =
                  .ok (ofText? ((ofTree tree).keyText? j)) := by
                rw [propertyKey_eq hp, hlong]
                rfl
              rw [hkey] at htype
              change (if isMissing _ then _ else _) = _ at htype
              split at htype
              · cases htype
              · rename_i hpresent
                have hclimbs := ClimbsTo.property h hkey (Bool.eq_false_iff.2 hpresent)
                cases ho : (ofTree tree).contextualType j with
                | error g =>
                    rw [ho] at htype
                    cases htype
                    obtain ⟨hf, l, k, hclimb, hkey⟩ := ih j (parent?_lt h.1).1 ho
                    exact ⟨hf, l, k, .head hclimbs hclimb, hkey⟩
                | ok o =>
                    rw [ho] at htype
                    obtain ⟨u, hu⟩ := follow_text_ok o ((ofTree tree).keyText? j)
                    exact nomatch hu.symm.trans htype
        · rw [contextualType, h] at htype
          cases htype
  · rintro ⟨rfl, j, k, hclimb, hvalue, hlong⟩
    induction hclimb using ReflTransGen.head_induction_on with
    | refl =>
        rw [contextualType_of_value hvalue, propertyKey_eq hp, hlong]
        rfl
    | head hclimbs _ ih => exact contextualType_of_climbsTo hclimbs ih

/-- Keys with numerals make no trouble. -/
theorem contextualType_ok (hp : (ofTree tree).WellTyped) (hkeys : (ofTree tree).KeysShort)
    (i : Nat) : ∃ o, (ofTree tree).contextualType i = .ok o := by
  cases htype : (ofTree tree).contextualType i with
  | ok o => exact ⟨o, rfl⟩
  | error f =>
      obtain ⟨-, j, k, -, ⟨-, hkind, -⟩, hlong⟩ := (contextualType_eq_error_iff hp).1 htype
      exact nomatch (hkeys k hkind).symm.trans hlong

/-- **The declared oracle answers** on a well-typed program whose keys have numerals. -/
theorem includesLiteral_ok (hp : (ofTree tree).WellTyped) (hkeys : (ofTree tree).KeysShort)
    (i : Nat) (v : Text) : ∃ b, (ofTree tree).includesLiteral i v = .ok b := by
  obtain ⟨o, htype⟩ := contextualType_ok hp hkeys i
  rw [includesLiteral_eq, htype]
  exact ⟨_, rfl⟩

/-- It says yes just if the node has a contextual type with the text as a literal. -/
theorem includesLiteral_eq_true_iff {v : Text} : (ofTree tree).includesLiteral i v = .ok true ↔
    ∃ t, (ofTree tree).Contextual i t ∧ t.HasLiteral v := by
  have hyes : (∃ t, (ofTree tree).Contextual i t ∧ t.HasLiteral v) ↔ ∃ t,
      (ofTree tree).contextualType i = .ok (some t) ∧ t.stringLiterals.contains v = true := by
    refine exists_congr fun t => and_congr contextualType_eq_ok_iff.symm ?_
    rw [List.contains_iff_mem, DeclaredType.mem_stringLiterals]
  rw [hyes, includesLiteral_eq]
  cases (ofTree tree).contextualType i with
  | error f => simp [Except.map]
  | ok o => cases o <;> simp [Except.map]

/-- **The declared oracle answers the contextual type.** On a well-typed tree whose keys have
numerals it has an answer about every node and text: yes if the node has a contextual type with the
text as a literal, and no otherwise. About a node from elsewhere it says no. -/
theorem subjectIncludesLiteral_iff (tree : Tree Node) (ht : tree.Everywhere fun n _ => n.WellTyped)
    (hkeys : (ofTree tree).KeysShort) (v : Text) :
    let p := ofTree tree
    (∀ i, ∃ b, p.subjectIncludesLiteral (.member i) v = .ok b ∧
        (b = true ↔ ∃ t, p.Contextual i t ∧ t.HasLiteral v)) ∧
      p.subjectIncludesLiteral .foreign v = .ok false := by
  intro p
  have hp : p.WellTyped := Hearing.wellTyped_ofTree ht
  refine ⟨fun i => ?_, rfl⟩
  obtain ⟨b, hb⟩ := includesLiteral_ok hp hkeys i v
  refine ⟨b, hb, ?_⟩
  rw [← includesLiteral_eq_true_iff, hb, Except.ok.injEq]

end

/-- A binding whose declared type is an object type, with an object as its value. The property of the
type is a union within a union. -/
def annotatedBinding : Tree Node :=
  let tag : DeclaredType :=
    .union [.literal (.text "x"), .union [.literal (.whole 1), .literal (.text "y")]]
  .node { kind := .variableBinding, declaredType := some (.object [("tag", tag)]) }
    [.node { kind := .other, role := some "value", label := "object" }
      [.node { kind := .objectProperty }
        [.node { kind := .identifier, role := some "key", name := .text "tag" } [],
          .node { kind := .literal, role := some "value", value := .text "y" } []]]]

/-- The text below the property is one of the literals that its type includes. -/
theorem subjectIncludesLiteral_annotated :
    (annotatedBinding.Everywhere fun n _ => n.WellTyped) ∧ (ofTree annotatedBinding).KeysShort ∧
      (ofTree annotatedBinding).subjectIncludesLiteral (.member 4) "y" = .ok true := by
  have hwell : annotatedBinding.Everywhere fun n _ => n.WellTyped :=
    ⟨⟨rfl, rfl⟩, ⟨⟨rfl, rfl⟩, ⟨⟨rfl, rfl⟩, ⟨⟨rfl, rfl⟩, trivial⟩, ⟨⟨rfl, rfl⟩, trivial⟩, trivial⟩,
      trivial⟩, trivial⟩
  have hkeys : (ofTree annotatedBinding).KeysShort := by
    intro i hkind
    rcases i with _ | _ | _ | _ | _ | i
    case succ.succ.zero => rfl
    all_goals cases hkind
  obtain ⟨b, hb, hyes⟩ := (subjectIncludesLiteral_iff annotatedBinding hwell hkeys "y").1 4
  have hbinding := Contextual.binding (p := ofTree annotatedBinding) (i := 1) (j := 0)
    ⟨rfl, rfl, Or.inl rfl⟩ rfl
  have hobject := Contextual.wrapper (i := 2) ⟨rfl, _, rfl, rfl, by decide⟩ hbinding
  have htag := Contextual.property (i := 4) ⟨rfl, rfl, rfl⟩ rfl hobject rfl
  have htrue : b = true :=
    hyes.2 ⟨_, htag, .member (.tail _ (.head _)) (.member (.tail _ (.head _)) .literal)⟩
  rw [htrue] at hb
  exact ⟨hwell, hkeys, hb⟩

end Program

end LiteralLint
