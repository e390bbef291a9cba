import Mathlib.Data.List.Induction
import Mathlib.Data.List.TakeWhile
import LiteralLint.Proofs.Ruling

/-!
# Histories of a verdict table

Rulings exempt nodes, complain about them and freeze them, in any order and one node among the
others. What stands in the table in the end is known for every node from a part of the history
alone: what was done to that node before it was frozen for the first time. An exemption among that
is the verdict; otherwise the last complaint is.

The history is followed by its last step. A step on another node, or on a node that is frozen, adds
nothing to the part that counts; any other step adds itself.

## Main definitions

* `VerdictTable.Operation`: one step, on a node of a program of some size.
* `VerdictTable.performAll`: the table after a history.
* `VerdictTable.heard`: the part of a history that counts for a node.
* `VerdictTable.entryOf`: the entry that a history leads to.
* `VerdictColumns`: the table in three arrays, with the same operations.

## Main results

* `VerdictTable.entryOf_concat`: one more step, on the entry that the history leads to.
* `VerdictTable.entry?_performAll`: **the entry of a node after a history**.
* `VerdictTable.entryOf_rises`: no history takes a verdict back.
* `VerdictTable.columns_performAll`: **a history on three arrays** is the history on the entries.
* `VerdictTable.performAll_verdict`: the entry verdict by verdict, with what makes no difference.
-/

namespace LiteralLint

/-- Verdicts in the order in which they can follow one another. -/
def Verdict.rank : Verdict → Nat
  | .unclassified => 0
  | .pending _ => 1
  | .exempt => 2

namespace VerdictTable

/-! ## Operations -/

/-- What can be done to a node of a program with `n` nodes. -/
inductive Operation (n : Nat)
  | exempt (i : Fin n)
  | complain (i : Fin n) (c : Complaint)
  | freeze (i : Fin n)

variable {n : Nat}

namespace Operation

/-- The node of an operation. -/
def node : Operation n → Fin n
  | .exempt i => i
  | .complain i _ => i
  | .freeze i => i

/-- The entry of the node after an operation. -/
def onEntry : Operation n → Entry → Entry
  | .exempt _ => Entry.exempt
  | .complain _ c => Entry.complain c
  | .freeze _ => Entry.freeze

/-- Whether an operation freezes a node. -/
def freezes (j : Fin n) : Operation n → Bool
  | .freeze i => i == j
  | _ => false

/-- Whether an operation exempts its node. -/
def isExemption : Operation n → Bool
  | .exempt _ => true
  | _ => false

/-- The complaint that an operation puts on record. -/
def complaint? : Operation n → Option Complaint
  | .complain _ c => some c
  | _ => none

variable {j : Fin n} {o : Operation n}

theorem freezes_iff : o.freezes j = true ↔ o = .freeze j := by
  cases o <;> simp [freezes]

theorem freezes_of_ne (h : o.node ≠ j) : o.freezes j = false := by
  refine Bool.eq_false_iff.2 fun hfreezes => h ?_
  rw [freezes_iff.1 hfreezes]
  rfl

end Operation

/-- The table after an operation. -/
def perform (t : VerdictTable) : Operation n → VerdictTable
  | .exempt i => t.exempt i
  | .complain i c => t.complain i c
  | .freeze i => t.freeze i

/-- The table after some operations, the first one first. -/
def performAll (t : VerdictTable) (ops : List (Operation n)) : VerdictTable := ops.foldl perform t

theorem perform_eq (t : VerdictTable) (o : Operation n) :
    t.perform o = t.update o.node o.onEntry := by
  cases o <;> rfl

theorem performAll_concat (t : VerdictTable) (ops : List (Operation n)) (o : Operation n) :
    t.performAll (ops ++ [o]) = (t.performAll ops).perform o := by
  rw [performAll, List.foldl_append]
  rfl

/-! ## What counts of a history -/

/-- What is done to a node before it is frozen for the first time. -/
def heard (j : Fin n) (ops : List (Operation n)) : List (Operation n) :=
  (ops.takeWhile fun o => !o.freezes j).filter fun o => o.node == j

/-- The verdict that operations on one node lead to, if none of them freezes it: an exemption is
final, and of the complaints the last one counts. -/
def verdictOf (ops : List (Operation n)) : Verdict :=
  if ops.any Operation.isExemption then .exempt
  else
    match (ops.filterMap Operation.complaint?).getLast? with
    | some c => .pending c
    | none => .unclassified

/-- The entry of a node that a history leads to. -/
def entryOf (j : Fin n) (ops : List (Operation n)) : Entry :=
  ⟨verdictOf (heard j ops), ops.any (Operation.freezes j)⟩

variable {j : Fin n} {ops : List (Operation n)}

theorem any_freezes_iff : ops.any (Operation.freezes j) = true ↔ .freeze j ∈ ops := by
  rw [List.any_eq_true]
  constructor
  · rintro ⟨o, ho, hfreezes⟩
    exact Operation.freezes_iff.1 hfreezes ▸ ho
  · exact fun h => ⟨_, h, Operation.freezes_iff.2 rfl⟩

/-- Once a node is frozen, what follows does not count. -/
theorem heard_append_of_frozen (h : ops.any (Operation.freezes j) = true)
    (later : List (Operation n)) : heard j (ops ++ later) = heard j ops := by
  obtain ⟨o, ho, hfreezes⟩ := List.any_eq_true.1 h
  have hstops : ¬ ∀ o ∈ ops, (!o.freezes j) = true := by
    intro hall
    have hopen := hall o ho
    rw [hfreezes] at hopen
    cases hopen
  rw [heard, heard, List.takeWhile_append, if_neg]
  intro hlength
  refine hstops fun o ho => ?_
  rw [← (List.takeWhile_prefix _).eq_of_length hlength] at ho
  have hopen := List.mem_takeWhile_imp ho
  exact hopen

/-- As long as it is not frozen, what follows is added. -/
theorem heard_append_of_open (h : ops.any (Operation.freezes j) = false)
    (later : List (Operation n)) : heard j (ops ++ later) = heard j ops ++ heard j later := by
  have hall : ∀ o ∈ ops, (!o.freezes j) = true := by
    intro o ho
    rw [List.any_eq_false] at h
    rw [Bool.not_eq_true']
    exact Bool.eq_false_iff.2 (h o ho)
  rw [heard, heard, heard, List.takeWhile_append_of_pos hall, List.filter_append,
    List.takeWhile_eq_self_iff.2 hall]

/-- An operation on another node does not count. -/
theorem heard_cons_of_ne {o : Operation n} (h : o.node ≠ j) (later : List (Operation n)) :
    heard j (o :: later) = heard j later := by
  rw [heard, heard, List.takeWhile_cons_of_pos (by simp [Operation.freezes_of_ne h]),
    List.filter_cons_of_neg (by simpa using h)]

theorem heard_nil (j : Fin n) : heard j [] = [] := rfl

/-! ## One more step -/

/-- A frozen entry stays as it is. -/
theorem onEntry_of_frozen {e : Entry} (h : e.frozen = true) (o : Operation n) :
    o.onEntry e = e := by
  obtain ⟨verdict, frozen⟩ := e
  cases h
  cases o <;> rfl

theorem verdictOf_exempt (ops : List (Operation n)) (j : Fin n) :
    verdictOf (ops ++ [.exempt j]) = .exempt := by
  rw [verdictOf, List.any_append, if_pos]
  simp [Operation.isExemption]

theorem verdictOf_complain (ops : List (Operation n)) (j : Fin n) (c : Complaint) :
    verdictOf (ops ++ [.complain j c]) =
      if ops.any Operation.isExemption then .exempt else .pending c := by
  rw [verdictOf, List.any_append, List.filterMap_append]
  simp [Operation.isExemption, Operation.complaint?]

/-- A complaint about an entry that is not frozen is refused just if the node is exempt. -/
theorem complain_open (ops : List (Operation n)) (c : Complaint) :
    Entry.complain c ⟨verdictOf ops, false⟩ =
      ⟨if ops.any Operation.isExemption then .exempt else .pending c, false⟩ := by
  unfold Entry.complain verdictOf
  cases ops.any Operation.isExemption with
  | true => rfl
  | false =>
      cases (ops.filterMap Operation.complaint?).getLast? with
      | none => rfl
      | some d => rfl

/-- **One more step** does to the entry of its node what it does to one entry, and nothing else. -/
theorem entryOf_concat (j : Fin n) (ops : List (Operation n)) (o : Operation n) :
    entryOf j (ops ++ [o]) = if o.node = j then o.onEntry (entryOf j ops) else entryOf j ops := by
  have hany : (ops ++ [o]).any (Operation.freezes j) =
      (ops.any (Operation.freezes j) || o.freezes j) := by
    rw [List.any_append, List.any_cons, List.any_nil, Bool.or_false]
  cases hfrozen : ops.any (Operation.freezes j) with
  | true =>
      have hsame : entryOf j (ops ++ [o]) = entryOf j ops := by
        rw [entryOf, entryOf, heard_append_of_frozen hfrozen, hany, hfrozen, Bool.true_or]
      rw [hsame, onEntry_of_frozen hfrozen, ite_self]
  | false =>
      rw [entryOf, hany, hfrozen, Bool.false_or, heard_append_of_open hfrozen]
      by_cases hnode : o.node = j
      · subst hnode
        rw [if_pos rfl, entryOf, hfrozen]
        cases o with
        | exempt i =>
            have hheard : heard i [Operation.exempt i] = [.exempt i] := by
              simp [heard, Operation.freezes, Operation.node]
            show Entry.mk (verdictOf (heard i ops ++ heard i [.exempt i])) false = _
            rw [hheard, verdictOf_exempt]
            rfl
        | complain i c =>
            have hheard : heard i [Operation.complain i c] = [.complain i c] := by
              simp [heard, Operation.freezes, Operation.node]
            show Entry.mk (verdictOf (heard i ops ++ heard i [.complain i c])) false =
              Entry.complain c ⟨verdictOf (heard i ops), false⟩
            rw [hheard, verdictOf_complain, complain_open]
        | freeze i =>
            have hheard : heard i [Operation.freeze i] = [] := by
              simp [heard, Operation.freezes]
            show Entry.mk (verdictOf (heard i ops ++ heard i [.freeze i]))
              ((Operation.freeze i).freezes i) = _
            rw [hheard, List.append_nil, Operation.freezes_iff.2 rfl]
            rfl
      · rw [if_neg hnode, heard_cons_of_ne hnode, heard_nil, List.append_nil,
          Operation.freezes_of_ne hnode, entryOf, hfrozen]

/-! ## Whole histories -/

/-- **The entry of a node after a history.** -/
theorem entry?_performAll (ops : List (Operation n)) (j : Fin n) :
    VerdictTable.entry? ((ofSize n).performAll ops) j = some (entryOf j ops) := by
  induction ops using List.reverseRecOn with
  | nil => exact entry?_ofSize j.isLt
  | append_singleton ops o ih =>
      rw [performAll_concat, perform_eq, entryOf_concat]
      by_cases hnode : o.node = j
      · subst hnode
        rw [if_pos rfl, entry?_update_self ih]
      · rw [if_neg hnode, entry?_update_ne (fun h => hnode (Fin.ext h)), ih]

/-- No step takes a verdict back: a complaint can follow none, and an exemption a complaint. -/
theorem rank_le_onEntry (o : Operation n) (e : Entry) :
    e.verdict.rank ≤ (o.onEntry e).verdict.rank := by
  obtain ⟨verdict, frozen⟩ := e
  cases frozen with
  | true => rw [onEntry_of_frozen rfl]
  | false =>
      cases o with
      | exempt i => cases verdict <;> simp [Operation.onEntry, Entry.exempt, Verdict.rank]
      | complain i c => cases verdict <;> simp [Operation.onEntry, Entry.complain, Verdict.rank]
      | freeze i => exact Nat.le_refl _

/-- **No history takes a verdict back**, nor changes a frozen entry. -/
theorem entryOf_rises (j : Fin n) (before later : List (Operation n)) :
    (entryOf j before).verdict.rank ≤ (entryOf j (before ++ later)).verdict.rank ∧
      ((entryOf j before).frozen = true → entryOf j (before ++ later) = entryOf j before) := by
  induction later using List.reverseRecOn with
  | nil =>
      rw [List.append_nil]
      exact ⟨Nat.le_refl _, fun _ => rfl⟩
  | append_singleton later o ih =>
      obtain ⟨hrank, hfrozen⟩ := ih
      rw [← List.append_assoc, entryOf_concat]
      split
      · refine ⟨Nat.le_trans hrank (rank_le_onEntry o _), fun h => ?_⟩
        rw [hfrozen h, onEntry_of_frozen h]
      · exact ⟨hrank, hfrozen⟩

/-- The steps of a history that count for a node are on that node, and do not freeze it. -/
theorem of_mem_heard {o : Operation n} (h : o ∈ heard j ops) :
    o.node = j ∧ o.freezes j = false := by
  obtain ⟨hmem, hnode⟩ := List.mem_filter.1 h
  have hopen := List.mem_takeWhile_imp hmem
  rw [Bool.not_eq_true'] at hopen
  exact ⟨eq_of_beq hnode, hopen⟩

/-- An exemption that counts for a node is one of that node. -/
theorem any_isExemption_heard :
    (heard j ops).any Operation.isExemption = true ↔ .exempt j ∈ heard j ops := by
  rw [List.any_eq_true]
  constructor
  · rintro ⟨o, ho, hexempts⟩
    have hnode := (of_mem_heard ho).1
    cases o with
    | exempt i =>
        cases hnode
        exact ho
    | complain i c => cases hexempts
    | freeze i => cases hexempts
  · exact fun h => ⟨_, h, rfl⟩

/-- Without a step on another node, or on a node that is frozen, the entry of the node is the
same. -/
theorem entryOf_without {before later : List (Operation n)} {o : Operation n}
    (h : o.node ≠ j ∨ .freeze j ∈ before) :
    entryOf j (before ++ o :: later) = entryOf j (before ++ later) := by
  have hany : (before ++ o :: later).any (Operation.freezes j) =
      (before ++ later).any (Operation.freezes j) := by
    rcases h with hnode | hfrozen
    · rw [List.any_append, List.any_append, List.any_cons, Operation.freezes_of_ne hnode,
        Bool.false_or]
    · rw [List.any_append, List.any_append, any_freezes_iff.2 hfrozen, Bool.true_or, Bool.true_or]
  have hheard : heard j (before ++ o :: later) = heard j (before ++ later) := by
    cases hfrozen : before.any (Operation.freezes j) with
    | true => rw [heard_append_of_frozen hfrozen, heard_append_of_frozen hfrozen]
    | false =>
        have hnode : o.node ≠ j := by
          refine h.resolve_right fun hmem => ?_
          rw [any_freezes_iff.2 hmem] at hfrozen
          cases hfrozen
        rw [heard_append_of_open hfrozen, heard_append_of_open hfrozen, heard_cons_of_ne hnode]
  rw [entryOf, entryOf, hany, hheard]

/-! ## Three arrays -/

end VerdictTable

/-- What kind of verdict there is, without the complaint. -/
inductive Verdict.Kind
  | unclassified
  | exempt
  | pending
  deriving DecidableEq

/-- The kind of a verdict. -/
def Verdict.kind : Verdict → Verdict.Kind
  | .unclassified => .unclassified
  | .exempt => .exempt
  | .pending _ => .pending

/-- The entries of the nodes of a program in three arrays: the kinds of the verdicts, the complaints
on record, and whether the nodes are frozen. Nothing here ties a complaint to its verdict. -/
structure VerdictColumns where
  kinds : Array Verdict.Kind
  complaints : Array (Option Complaint)
  frozen : Array Bool

namespace VerdictColumns

open VerdictTable (Operation)

/-- The arrays of a program with some number of nodes. -/
def ofSize (n : Nat) : VerdictColumns :=
  ⟨Array.replicate n .unclassified, Array.replicate n none, Array.replicate n false⟩

/-- The arrays after a node is exempted: its complaint is taken off the record. -/
def exempt (t : VerdictColumns) (i : Nat) : VerdictColumns :=
  if t.frozen[i]? = some true then t
  else
    { t with
      kinds := t.kinds.setIfInBounds i .exempt
      complaints := t.complaints.setIfInBounds i none }

/-- The arrays after a complaint about a node. -/
def complain (t : VerdictColumns) (i : Nat) (c : Complaint) : VerdictColumns :=
  if t.frozen[i]? = some true ∨ t.kinds[i]? = some .exempt then t
  else
    { t with
      kinds := t.kinds.setIfInBounds i .pending
      complaints := t.complaints.setIfInBounds i (some c) }

/-- The arrays after a node is frozen. -/
def freeze (t : VerdictColumns) (i : Nat) : VerdictColumns :=
  { t with frozen := t.frozen.setIfInBounds i true }

/-- The arrays after an operation. -/
def perform {n : Nat} (t : VerdictColumns) : Operation n → VerdictColumns
  | .exempt i => t.exempt i
  | .complain i c => t.complain i c
  | .freeze i => t.freeze i

/-- The arrays after some operations, the first one first. -/
def performAll {n : Nat} (t : VerdictColumns) (ops : List (Operation n)) : VerdictColumns :=
  ops.foldl perform t

theorem performAll_concat {n : Nat} (t : VerdictColumns) (ops : List (Operation n))
    (o : Operation n) : t.performAll (ops ++ [o]) = (t.performAll ops).perform o := by
  rw [performAll, List.foldl_append]
  rfl

/-- What the arrays say about a node. -/
structure Shows (t : VerdictColumns) (i : Nat) (e : Entry) : Prop where
  kind : t.kinds[i]? = some e.verdict.kind
  complaint : t.complaints[i]? = some e.complaint?
  frozen : t.frozen[i]? = some e.frozen

end VerdictColumns

namespace VerdictTable

/-- The entries of a table in three arrays. -/
def columns (t : VerdictTable) : VerdictColumns :=
  ⟨t.entries.map fun e => e.verdict.kind, t.entries.map Entry.complaint?,
    t.entries.map fun e => e.frozen⟩

theorem shows_columns {t : VerdictTable} {i : Nat} {e : Entry} (h : t.entry? i = some e) :
    t.columns.Shows i e := by
  have hentry : t.entries[i]? = some e := h
  constructor <;> simp [columns, hentry]

/-- A column of a table with one entry changed. -/
theorem map_modify {β : Type} {entries : Array Entry} {i : Nat} {e : Entry}
    (h : entries[i]? = some e) (f : Entry → Entry) (g : Entry → β) :
    (entries.modify i f).map g = (entries.map g).setIfInBounds i (g (f e)) := by
  refine Array.ext_getElem? fun k => ?_
  rw [Array.getElem?_map, Array.getElem?_modify, Array.getElem?_setIfInBounds, Array.getElem?_map]
  obtain ⟨hi, rfl⟩ := Array.getElem?_eq_some_iff.1 h
  by_cases hk : i = k
  · subst hk
    simp [hi]
  · simp [hk]

theorem setIfInBounds_of_getElem? {β : Type} {xs : Array β} {i : Nat} {x : β}
    (h : xs[i]? = some x) : xs.setIfInBounds i x = xs := by
  refine Array.ext_getElem? fun k => ?_
  rw [Array.getElem?_setIfInBounds]
  split
  · rename_i hk
    subst hk
    rw [if_pos (Array.getElem?_eq_some_iff.1 h).1, h]
  · rfl

/-- The columns of a table with one entry changed. -/
theorem columns_update {t : VerdictTable} {i : Nat} {e : Entry} (h : t.entry? i = some e)
    (f : Entry → Entry) :
    (t.update i f).columns =
      ⟨t.columns.kinds.setIfInBounds i (f e).verdict.kind,
        t.columns.complaints.setIfInBounds i (f e).complaint?,
        t.columns.frozen.setIfInBounds i (f e).frozen⟩ := by
  have hentry : t.entries[i]? = some e := h
  simp only [columns, update, map_modify hentry]

theorem columns_update_of_eq {t : VerdictTable} {i : Nat} {e : Entry} (h : t.entry? i = some e)
    {f : Entry → Entry} (hf : f e = e) : (t.update i f).columns = t.columns := by
  rw [update_eq_const h, hf, update_self h]

theorem columns_exempt {t : VerdictTable} {i : Nat} {e : Entry} (h : t.entry? i = some e) :
    (t.exempt i).columns = t.columns.exempt i := by
  have hfrozen := (shows_columns h).frozen
  unfold exempt VerdictColumns.exempt
  obtain ⟨verdict, frozen⟩ := e
  cases frozen with
  | true =>
      rw [if_pos hfrozen]
      exact columns_update_of_eq h rfl
  | false =>
      rw [if_neg (by simp [hfrozen]), columns_update h]
      exact congrArg (VerdictColumns.mk _ _) (setIfInBounds_of_getElem? hfrozen)

theorem columns_complain {t : VerdictTable} {i : Nat} {e : Entry} (h : t.entry? i = some e)
    (c : Complaint) : (t.complain i c).columns = t.columns.complain i c := by
  obtain ⟨hkind, -, hfrozen⟩ := shows_columns h
  unfold complain VerdictColumns.complain
  obtain ⟨verdict, frozen⟩ := e
  cases frozen with
  | true =>
      rw [if_pos (Or.inl hfrozen)]
      exact columns_update_of_eq h rfl
  | false =>
      cases verdict with
      | exempt =>
          have hexempt : t.columns.kinds[i]? = some .exempt := hkind
          rw [if_pos (Or.inr hexempt)]
          exact columns_update_of_eq h rfl
      | unclassified =>
          rw [if_neg (by simp [hfrozen, hkind, Verdict.kind]), columns_update h]
          exact congrArg (VerdictColumns.mk _ _) (setIfInBounds_of_getElem? hfrozen)
      | pending d =>
          rw [if_neg (by simp [hfrozen, hkind, Verdict.kind]), columns_update h]
          exact congrArg (VerdictColumns.mk _ _) (setIfInBounds_of_getElem? hfrozen)

theorem columns_freeze {t : VerdictTable} {i : Nat} {e : Entry} (h : t.entry? i = some e) :
    (t.freeze i).columns = t.columns.freeze i := by
  obtain ⟨hkind, hcomplaint, -⟩ := shows_columns h
  rw [freeze, columns_update h]
  show VerdictColumns.mk (t.columns.kinds.setIfInBounds i e.verdict.kind)
    (t.columns.complaints.setIfInBounds i e.complaint?) _ = _
  rw [setIfInBounds_of_getElem? hkind, setIfInBounds_of_getElem? hcomplaint]
  rfl

/-- **One step on three arrays** is one step on the entries. -/
theorem columns_perform {t : VerdictTable} {o : Operation n} {e : Entry}
    (h : VerdictTable.entry? t o.node = some e) :
    (t.perform o).columns = t.columns.perform o := by
  cases o with
  | exempt i => exact columns_exempt h
  | complain i c => exact columns_complain h c
  | freeze i => exact columns_freeze h

/-- **A history on three arrays** is the history on the entries. -/
theorem columns_performAll (ops : List (Operation n)) :
    ((ofSize n).performAll ops).columns = (VerdictColumns.ofSize n).performAll ops := by
  induction ops using List.reverseRecOn with
  | nil => simp [performAll, columns, ofSize, VerdictColumns.performAll, VerdictColumns.ofSize,
      Verdict.kind, Entry.complaint?]
  | append_singleton ops o ih =>
      rw [performAll_concat, columns_perform (entry?_performAll ops o.node), ih,
        VerdictColumns.performAll_concat]

end VerdictTable

namespace VerdictTable

/-- **The verdict on a node after a history.** The node is frozen just if it was frozen at some
time. What counts is what was done to it before it was frozen for the first time: with an exemption
among that the node is exempt; without one, the last complaint is pending; without a complaint
either, there is no verdict. Three arrays say the same, where a complaint is on record just if a
verdict is pending. A step on another node, and a step after the node was frozen, could as well be
left out. On the way no verdict was taken back, and no frozen entry changed. -/
theorem performAll_verdict (n : Nat) (ops : List (Operation n)) (j : Fin n) :
    ∃ e, VerdictTable.entry? ((ofSize n).performAll ops) j = some e ∧
      ((VerdictColumns.ofSize n).performAll ops).Shows j e ∧
      (e.frozen = true ↔ .freeze j ∈ ops) ∧
      (.exempt j ∈ heard j ops → e.verdict = .exempt ∧ e.complaint? = none) ∧
      (.exempt j ∉ heard j ops → ∀ before c later,
        heard j ops = before ++ .complain j c :: later → (∀ d, .complain j d ∉ later) →
        e.verdict = .pending c ∧ e.complaint? = some c) ∧
      (.exempt j ∉ heard j ops → (∀ c, .complain j c ∉ heard j ops) →
        e.verdict = .unclassified ∧ e.complaint? = none) ∧
      (∀ before o later, ops = before ++ o :: later → o.node ≠ j ∨ .freeze j ∈ before →
        VerdictTable.entry? ((ofSize n).performAll (before ++ later)) j = some e) ∧
      ∀ before later, ops = before ++ later →
        ∃ e₀, VerdictTable.entry? ((ofSize n).performAll before) j = some e₀ ∧
          e₀.verdict.rank ≤ e.verdict.rank ∧ (e₀.frozen = true → e = e₀) := by
  have hnone : ∀ {part : List (Operation n)}, part ⊆ heard j ops →
      (∀ d, .complain j d ∉ part) → part.filterMap Operation.complaint? = [] := by
    intro part hpart hsilent
    refine List.filterMap_eq_nil_iff.2 fun o ho => ?_
    have hnode := (of_mem_heard (hpart ho)).1
    cases o with
    | exempt i => rfl
    | freeze i => rfl
    | complain i d =>
        cases hnode
        exact absurd ho (hsilent d)
  refine ⟨entryOf j ops, entry?_performAll ops j, ?_, any_freezes_iff, fun hexempt => ?_,
    fun hexempt before c later hsplit hlast => ?_, fun hexempt hsilent => ?_,
    fun before o later hsplit hidle => ?_, fun before later hsplit => ?_⟩
  · rw [← columns_performAll]
    exact shows_columns (entry?_performAll ops j)
  · have hverdict : (entryOf j ops).verdict = .exempt := if_pos (any_isExemption_heard.2 hexempt)
    exact ⟨hverdict, by rw [Entry.complaint?, hverdict]⟩
  · have hverdict : (entryOf j ops).verdict = .pending c := by
      show verdictOf (heard j ops) = _
      have hlater : later ⊆ heard j ops := fun o ho => by rw [hsplit]; simp [ho]
      rw [verdictOf, if_neg (fun h => hexempt (any_isExemption_heard.1 h))]
      rw [hsplit, List.filterMap_append, List.filterMap_cons]
      simp [Operation.complaint?, hnone hlater hlast]
    exact ⟨hverdict, by rw [Entry.complaint?, hverdict]⟩
  · have hverdict : (entryOf j ops).verdict = .unclassified := by
      show verdictOf (heard j ops) = _
      rw [verdictOf, if_neg (fun h => hexempt (any_isExemption_heard.1 h)),
        hnone (fun _ h => h) hsilent]
      rfl
    exact ⟨hverdict, by rw [Entry.complaint?, hverdict]⟩
  · rw [entry?_performAll, hsplit, entryOf_without hidle]
  · rw [hsplit]
    exact ⟨entryOf j before, entry?_performAll before j, entryOf_rises j before later⟩

/-- Two nodes in turn: the first is frozen with the second complaint about it. -/
example (c d : Complaint) :
    VerdictTable.entry? ((ofSize 2).performAll
      [.complain (0 : Fin 2) c, .exempt 1, .complain 0 d, .freeze 0, .exempt 0]) 0 =
      some ⟨.pending d, true⟩ := rfl

end VerdictTable

end LiteralLint
