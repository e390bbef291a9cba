import Mathlib.Data.List.Basic
import LiteralLint.Lint
import LiteralLint.Proofs.Arena
import LiteralLint.Proofs.Ruling

/-!
# One pass or two

A run marks containers and judges literals on one walk. When a literal is judged, the nodes marked so
far are those with a number below the first one past its subtree, and the table of verdicts holds
whatever earlier rulings left there. Neither matters to the result: a ruling looks at its own entry
only, which is fresh, and at the marks of its ancestors, which are all entered by then. The one mark
that is made late, that of an element by its opening, comes right after the element as long as
openings stand first.

The argument has two halves. `Advances` is what a stretch of the walk does to a run; by induction on
the tree, a whole run finds at every node what a ruling on a table of its own finds there, with the
marks made so far. Then the marks made so far are compared with all marks.

## Main definitions

* `Lint.marksAfter`: the marks after some nodes are entered.
* `Lint.findingAt`: the finding at one node, ruled on alone.
* `Lint.found`: the findings of a run, each with the number of its node.
* `Lint.twoPasses`: all marks first, then every node ruled on alone.
* `Lint.Gathers`: what a run gathers exit by exit.

## Main results

* `Lint.findings_eq_found`: a run finds what rulings on single nodes find.
* `Lint.findings_eq_twoPasses`: the walk may as well be two.
-/

namespace LiteralLint

/-- A complaint that is rendered, with data that are texts, makes the finding with its name. -/
theorem Complaint.toFinding_eq_ok {c : Complaint} {place : Option Span} {f : Finding} :
    c.toFinding place = .ok f ↔ ∃ message data, c.render = .ok message ∧
      textData c.data = .ok data ∧ f = ⟨c.id, message, data, place⟩ := by
  unfold toFinding
  cases c.render with
  | error e => simp [bind, Except.bind]
  | ok message =>
      cases textData c.data with
      | error e => simp [bind, Except.bind]
      | ok data => simp [bind, Except.bind, pure, Except.pure, eq_comm]

namespace Lint

open Arena LiteralLint.Tree

/-- The case of a tree. -/
def Case.ofTree (t : Tree Node) (config : Configuration) (oracle : Option Oracle := none) : Case :=
  ⟨Program.ofTree t, config, oracle⟩

/-- The marks after some nodes are entered one after the other. -/
def marksAfter (c : Case) (is : List Nat) : Marks :=
  is.foldl (fun m i => (m.enter c.program c.config i).1) {}

/-- What is reported at a place for the end of a ruling. -/
def reported (out : Except NodeFault (Option Complaint)) (place : Option Span) : Option Finding :=
  match out with
  | .ok (some complaint) => (complaint.toFinding place).toOption
  | _ => none

theorem reported_eq_some {d : Except NodeFault (Option Complaint)} {place : Option Span}
    {f : Finding} :
    reported d place = some f ↔ ∃ c, d = .ok (some c) ∧ c.toFinding place = .ok f := by
  unfold reported
  split
  · rename_i c
    cases hc : c.toFinding place <;> simp [Except.toOption, hc]
  · rename_i hne
    constructor
    · intro h
      cases h
    · rintro ⟨c, rfl, -⟩
      exact absurd rfl (hne c)

/-- The finding at a node that is ruled on alone, on a table without verdicts. -/
def findingAt (c : Case) (marks : Marks) (i : Nat) : Option Finding :=
  match c.program.node? i with
  | none => none
  | some n =>
    if n.kind.bearsText then
      reported (ExceptT.run ((c.hearing marks).resolve i) ⟨.ofSize c.program.size, []⟩).1 n.span
    else none

/-- The finding at an exit, with the marks made until then. -/
def findingOn (c : Case) (x : Nat × Nat) : Option Finding :=
  findingAt c (marksAfter c (List.range x.2)) x.1

/-- The findings of a tree in the order in which nodes are left, each with the number of its node. -/
def found (c : Case) (t : Tree Node) : List (Nat × Finding) :=
  (t.exitsFrom 0).filterMap fun x => (findingOn c x).map fun f => (x.1, f)

/-- All marks are made first; then every node is ruled on alone. -/
def twoPasses (c : Case) (t : Tree Node) : List Finding :=
  let marks := marksAfter c (List.range t.size)
  (t.postorderFrom 0).filterMap (findingAt c marks)

/-! ### Rulings on single nodes -/

theorem lt_size_of_node? {c : Case} {i : Nat} {n : Node} (hn : c.program.node? i = some n) :
    i < c.program.size := by
  unfold Arena.node? at hn
  exact (Array.getElem?_eq_some_iff.1 hn).1

/-- The finding at a node with text is what its decision list reports. -/
theorem findingAt_of_isString {c : Case} {m : Marks} {i : Nat} {n : Node}
    (hn : c.program.node? i = some n) (hs : n.isString) :
    findingAt c m i = reported ((c.hearing m).decision i n) n.span := by
  obtain ⟨_, _, hrules, -⟩ := (c.hearing m).rules_resolve hn hs
  have halone := hrules ⟨.ofSize c.program.size, []⟩
    (VerdictTable.entry?_ofSize (lt_size_of_node? hn))
  have hbears : n.kind.bearsText = true := by
    unfold Node.isString at hs
    exact (Bool.and_eq_true_iff.1 hs).1
  unfold findingAt
  simp only [hn, hbears, if_true, halone]

/-- A node without text is passed over. -/
theorem resolve_run_of_node {c : Case} {i : Nat} {n : Node} (hn : c.program.node? i = some n)
    (hs : ¬ n.isString) (m : Marks) (s : Proceedings) :
    ExceptT.run ((c.hearing m).resolve i) s = (.ok none, s) := by
  refine (c.hearing m).resolve_run_of_not_isString (fun n' hn' hs' => ?_) s
  have hsame : n = n' := Option.some.inj (hn.symm.trans hn')
  exact hs (hsame ▸ hs')

/-- There is none at a node without text. -/
theorem findingAt_of_not_isString {c : Case} {m : Marks} {i : Nat} {n : Node}
    (hn : c.program.node? i = some n) (hs : ¬ n.isString) : findingAt c m i = none := by
  have halone := resolve_run_of_node hn hs m ⟨.ofSize c.program.size, []⟩
  unfold findingAt
  simp only [hn, halone]
  split <;> rfl

/-- A finding is made of what the decision list of a node with text complains about. -/
theorem findingAt_eq_some {c : Case} {m : Marks} {i : Nat} {f : Finding} :
    findingAt c m i = some f ↔ ∃ n complaint, c.program.node? i = some n ∧ n.isString ∧
      (c.hearing m).decision i n = .ok (some complaint) ∧ complaint.toFinding n.span = .ok f := by
  cases hn : c.program.node? i with
  | none => simp [findingAt, hn]
  | some n =>
      by_cases hs : n.isString
      · rw [findingAt_of_isString hn hs, reported_eq_some]
        simp [hs]
      · rw [findingAt_of_not_isString hn hs]
        simp [hs]

theorem marksAfter_range_succ (c : Case) (n : Nat) :
    marksAfter c (List.range (n + 1)) =
      ((marksAfter c (List.range n)).enter c.program c.config n).1 := by
  rw [marksAfter, List.range_succ, List.foldl_append]
  rfl

/-! ## A stretch of the walk -/

/-- A run that is about to enter number `n`, with no verdicts on the numbers from there up to
`stop`. -/
structure Ready (c : Case) (r : Run) (n stop : Nat) : Prop where
  marks : r.marks = marksAfter c (List.range n)
  fresh : ∀ j, n ≤ j → j < stop → r.table.entry? j = some {}

/-- What a stretch of the walk over the numbers from `n` up to `stop` does to a run. -/
structure Advances (c : Case) (r r' : Run) (n stop : Nat) (exits : List (Nat × Nat)) : Prop where
  marks : r'.marks = marksAfter c (List.range stop)
  findings : r'.findings = r.findings ++ exits.filterMap (findingOn c)
  table : ∀ j, j < n ∨ stop ≤ j → r'.table.entry? j = r.table.entry? j

theorem Advances.trans {c : Case} {r r' r'' : Run} {n m stop : Nat} {xs ys : List (Nat × Nat)}
    (hnm : n ≤ m) (hms : m ≤ stop) (h : Advances c r r' n m xs) (h' : Advances c r' r'' m stop ys) :
    Advances c r r'' n stop (xs ++ ys) := by
  refine ⟨h'.marks, ?_, ?_⟩
  · rw [h'.findings, h.findings, List.filterMap_append, List.append_assoc]
  · intro j hj
    rw [h'.table j (by omega), h.table j (by omega)]

/-- A run is ready for what follows a stretch if it was ready for both. -/
theorem Advances.ready {c : Case} {r r' : Run} {n m stop : Nat} {xs : List (Nat × Nat)}
    (hnm : n ≤ m) (h : Advances c r r' n m xs) (hr : Ready c r n stop) : Ready c r' m stop := by
  refine ⟨h.marks, ?_⟩
  intro j hm hj
  rw [h.table j (Or.inr hm)]
  exact hr.fresh j (by omega) hj

/-- Entering a node makes its marks and does nothing else. -/
theorem enter_run (c : Case) (r : Run) (n : Nat) :
    (enter c r n).marks = (r.marks.enter c.program c.config n).1 ∧
      (enter c r n).findings = r.findings ∧ (enter c r n).table = r.table := by
  unfold enter
  cases hn : c.program.node? n with
  | none => simp [Marks.enter, Program.kindAt, hn]
  | some node =>
      dsimp only
      split <;> rename_i h <;> simp [h]

/-- A run that has entered a node is ready for the nodes below it. -/
theorem Ready.below {c : Case} {r : Run} {n : Nat} {l : Node} {cs : List (Tree Node)}
    (hr : Ready c r n (n + (Tree.node l cs).size)) :
    Ready c (enter c r n) (n + 1) (n + 1 + forestSize cs) := by
  rw [Tree.size] at hr
  obtain ⟨hmarks, -, htable⟩ := enter_run c r n
  refine ⟨by rw [hmarks, hr.marks, marksAfter_range_succ], ?_⟩
  intro j hn hj
  rw [htable]
  exact hr.fresh j (by omega) (by omega)

/-- The nodes below a node do not touch its own entry. -/
theorem Ready.fresh_root {c : Case} {r r' : Run} {n stop stop' : Nat} {xs : List (Nat × Nat)}
    (hr : Ready c r n stop) (hstop : n < stop) (h : Advances c (enter c r n) r' (n + 1) stop' xs) :
    r'.table.entry? n = some {} := by
  obtain ⟨-, -, htable⟩ := enter_run c r n
  rw [h.table n (Or.inl (Nat.lt_succ_self n)), htable]
  exact hr.fresh n (Nat.le_refl n) hstop

/-- Leaving a node adds what a ruling on it alone finds. -/
theorem leave_run {c : Case} {r : Run} {n stop : Nat}
    (hmarks : r.marks = marksAfter c (List.range stop)) (hfresh : r.table.entry? n = some {}) :
    (leave c r n).marks = r.marks ∧
      (leave c r n).findings = r.findings ++ [(n, stop)].filterMap (findingOn c) ∧
      ∀ j, j ≠ n → VerdictTable.entry? (leave c r n).table j = r.table.entry? j := by
  rw [List.filterMap_cons, List.filterMap_nil, findingOn, ← hmarks, findingAt, leave]
  cases hn : c.program.node? n with
  | none => simp
  | some node =>
      by_cases hb : node.kind.bearsText
      · obtain ⟨out, e', qs, hrules⟩ := (c.hearing r.marks).rules_resolve_fresh n
        have hshared := hrules ⟨r.table, []⟩ hfresh
        have halone := hrules ⟨.ofSize c.program.size, []⟩
          (VerdictTable.entry?_ofSize (lt_size_of_node? hn))
        have hothers : ∀ j, j ≠ n →
            VerdictTable.entry? (r.table.update n fun _ => e') j = r.table.entry? j :=
          fun j hj => VerdictTable.entry?_update_ne hj.symm _ _
        simp only [hb, hshared, halone, Proceedings.after, Bool.not_true, Bool.false_eq_true,
          if_false, if_true]
        cases out with
        | error f => exact ⟨rfl, (List.append_nil _).symm, hothers⟩
        | ok complaint? =>
            cases complaint? with
            | none => exact ⟨rfl, (List.append_nil _).symm, hothers⟩
            | some complaint =>
                dsimp only [reported]
                cases complaint.toFinding node.span with
                | error f => exact ⟨rfl, (List.append_nil _).symm, hothers⟩
                | ok finding => exact ⟨rfl, rfl, hothers⟩
      · simp [hb]

/-! ## The whole walk -/

mutual

/-- The walk over a tree, by induction on the tree. -/
theorem advances_tree {c : Case} (t : Tree Node) {r : Run} {n : Nat}
    (hr : Ready c r n (n + t.size)) :
    Advances c r ((t.eventsFrom n).foldl (step c) r) n (n + t.size) (t.exitsFrom n) := by
  cases t with
  | node l cs =>
      have hstop : n + (Tree.node l cs).size = n + 1 + forestSize cs := by
        rw [Tree.size]
        omega
      have hbelow := advances_forest cs hr.below
      have hroot := hr.fresh_root (by omega) hbelow
      rw [hstop]
      rw [eventsFrom, exitsFrom, List.foldl_cons, List.foldl_append]
      obtain ⟨-, hefindings, hetable⟩ := enter_run c r n
      obtain ⟨hlmarks, hlfindings, hltable⟩ := leave_run hbelow.marks hroot
      refine ⟨hlmarks.trans hbelow.marks, ?_, ?_⟩
      · show (leave c ((forestEventsFrom (n + 1) cs).foldl (step c) (enter c r n)) n).findings = _
        rw [hlfindings, hbelow.findings, hefindings, List.filterMap_append, List.append_assoc]
      · intro j hj
        show VerdictTable.entry?
          (leave c ((forestEventsFrom (n + 1) cs).foldl (step c) (enter c r n)) n).table j =
            r.table.entry? j
        rw [hltable j (by omega), hbelow.table j (by omega), hetable]

theorem advances_forest {c : Case} (cs : List (Tree Node)) {r : Run} {n : Nat}
    (hr : Ready c r n (n + forestSize cs)) :
    Advances c r ((forestEventsFrom n cs).foldl (step c) r) n (n + forestSize cs)
      (forestExitsFrom n cs) := by
  cases cs with
  | nil =>
      rw [forestSize]
      refine ⟨hr.marks, ?_, fun _ _ => rfl⟩
      simp [forestEventsFrom, forestExitsFrom]
  | cons t rest =>
      rw [forestSize, ← Nat.add_assoc] at hr ⊢
      rw [forestEventsFrom, forestExitsFrom, List.foldl_append]
      have hfirst := advances_tree t ⟨hr.marks, fun j hn hj => hr.fresh j hn (by omega)⟩
      have hrest := advances_forest rest (hfirst.ready (by omega) hr)
      exact hfirst.trans (by omega) (by omega) hrest

end

/-- A run starts out ready for the whole tree. -/
theorem ready_start (t : Tree Node) (config : Configuration) (oracle : Option Oracle) :
    Ready (.ofTree t config oracle) (start (.ofTree t config oracle)) 0 (0 + t.size) := by
  refine ⟨rfl, ?_⟩
  intro j _ hj
  refine VerdictTable.entry?_ofSize ?_
  show j < (Arena.ofTree t).size
  rw [size_ofTree]
  omega

theorem found_map_snd (c : Case) (t : Tree Node) :
    (found c t).map Prod.snd = (t.exitsFrom 0).filterMap (findingOn c) := by
  rw [found, List.map_filterMap]
  simp only [Option.map_map, Function.comp_def, Option.map_id']

/-- **A run finds what rulings on single nodes find**, each with the marks made until the node is
left, and in the order in which nodes are left. -/
theorem findings_eq_found (t : Tree Node) (config : Configuration) (oracle : Option Oracle) :
    findings (.ofTree t config oracle) = (found (.ofTree t config oracle) t).map Prod.snd := by
  have h := (advances_tree t (ready_start t config oracle)).findings
  rw [← walk_ofTree] at h
  rw [found_map_snd]
  exact h

/-- If at every exit one run finds what another finds and a test lets pass, then so it is for the runs
as a whole. -/
theorem found_eq_filter {c c' : Case} {keep : Nat × Finding → Bool}
    (h : ∀ x, findingOn c' x = (findingOn c x).filter fun f => keep (x.1, f)) (t : Tree Node) :
    found c' t = (found c t).filter keep := by
  unfold found
  rw [List.filter_filterMap]
  refine List.filterMap_congr ?_
  intro x _
  rw [h]
  cases findingOn c x with
  | none => rfl
  | some f => cases hkeep : keep (x.1, f) <;> simp [Option.filter, hkeep]

/-- If at every exit one run finds nothing that a test lets pass but what another finds there, too, then
so it is for the runs as a whole. -/
theorem found_sublist {c c' : Case} {keep : Nat × Finding → Bool}
    (h : ∀ x f, findingOn c' x = some f → keep (x.1, f) → findingOn c x = some f) (t : Tree Node) :
    ((found c' t).filter keep).Sublist (found c t) := by
  unfold found
  induction t.exitsFrom 0 with
  | nil => exact List.Sublist.slnil
  | cons x rest ih =>
      cases hx' : findingOn c' x with
      | none =>
          rw [List.filterMap_cons_none (by simp [hx'])]
          exact ih.trans (List.Sublist.filterMap _ (List.sublist_cons_self x rest))
      | some f =>
          rw [List.filterMap_cons_some (b := (x.1, f)) (by simp [hx'])]
          by_cases hkeep : keep (x.1, f)
          · have hx := h x f hx' hkeep
            rw [List.filter_cons_of_pos hkeep, List.filterMap_cons_some (b := (x.1, f)) (by simp [hx])]
            exact ih.cons_cons _
          · rw [List.filter_cons_of_neg hkeep]
            exact ih.trans (List.Sublist.filterMap _ (List.sublist_cons_self x rest))

/-- Findings are made at nodes in the order in which they are left. -/
theorem found_map_fst_sublist (c : Case) (t : Tree Node) :
    ((found c t).map Prod.fst).Sublist (t.postorderFrom 0) := by
  rw [← exitsFrom_map_fst, found]
  induction t.exitsFrom 0 with
  | nil => exact List.Sublist.slnil
  | cons x rest ih =>
      cases hx : findingOn c x with
      | none =>
          rw [List.filterMap_cons_none (by simp [hx]), List.map_cons]
          exact ih.cons x.1
      | some f =>
          rw [List.filterMap_cons_some (b := (x.1, f)) (by simp [hx]), List.map_cons, List.map_cons]
          exact ih.cons_cons x.1

/-! ## What a run gathers -/

/-- Something that a run gathers as it leaves nodes: entering a node adds nothing to it, and leaving
one adds what belongs to the exit. -/
structure Gathers {β : Type} (c : Case) (view : Run → List β) (adds : Nat × Nat → List β) :
    Prop where
  enter : ∀ r n, view (enter c r n) = view r
  leave : ∀ r n stop, r.marks = marksAfter c (List.range stop) → r.table.entry? n = some {} →
    view (leave c r n) = view r ++ adds (n, stop)

mutual

/-- A stretch of the walk gathers what belongs to its exits. -/
theorem gathers_tree {β : Type} {c : Case} {view : Run → List β} {adds : Nat × Nat → List β}
    (h : Gathers c view adds) (t : Tree Node) {r : Run} {n : Nat}
    (hr : Ready c r n (n + t.size)) :
    view ((t.eventsFrom n).foldl (step c) r) = view r ++ (t.exitsFrom n).flatMap adds := by
  cases t with
  | node l cs =>
      have hadvance := advances_forest cs hr.below
      have hroot := hr.fresh_root (Nat.lt_add_of_pos_right (Tree.size_pos _)) hadvance
      rw [eventsFrom, exitsFrom, List.foldl_cons, List.foldl_append, List.flatMap_append]
      show view (leave c ((forestEventsFrom (n + 1) cs).foldl (step c) (enter c r n)) n) = _
      rw [h.leave _ _ _ hadvance.marks hroot, gathers_forest h cs hr.below, h.enter,
        List.append_assoc, List.flatMap_singleton]

theorem gathers_forest {β : Type} {c : Case} {view : Run → List β} {adds : Nat × Nat → List β}
    (h : Gathers c view adds) (cs : List (Tree Node)) {r : Run} {n : Nat}
    (hr : Ready c r n (n + forestSize cs)) :
    view ((forestEventsFrom n cs).foldl (step c) r) =
      view r ++ (forestExitsFrom n cs).flatMap adds := by
  cases cs with
  | nil => simp [forestEventsFrom, forestExitsFrom]
  | cons t rest =>
      rw [forestSize, ← Nat.add_assoc] at hr
      have hfirst : Ready c r n (n + t.size) := ⟨hr.marks, fun j hn hj => hr.fresh j hn (by omega)⟩
      have hrest := (advances_tree t hfirst).ready (by omega) hr
      rw [forestEventsFrom, forestExitsFrom, List.foldl_append, List.flatMap_append,
        gathers_forest h rest hrest, gathers_tree h t hfirst, List.append_assoc]

end

/-- A whole run gathers what belongs to its exits. -/
theorem Gathers.run {β : Type} {t : Tree Node} {config : Configuration} {oracle : Option Oracle}
    {view : Run → List β} {adds : Nat × Nat → List β}
    (h : Gathers (.ofTree t config oracle) view adds) :
    view (run (.ofTree t config oracle)) =
      view (start (.ofTree t config oracle)) ++ (t.exitsFrom 0).flatMap adds := by
  have hwalk := gathers_tree h t (ready_start t config oracle)
  rw [← walk_ofTree] at hwalk
  exact hwalk

/-! ## Marks made in time -/

/-- In a tree where every opening below an element is its first child. -/
def OpeningsFirst (t : Tree Node) : Prop :=
  t.Everywhere fun l cs => l.kind = .element → ∀ c ∈ cs.tail, c.label.kind ≠ .elementOpening

/-- The marks that entering a node adds do not depend on those that are there. -/
theorem mem_enter (m : Marks) (p : Program) (c : Configuration) (j a : Nat) :
    (a ∈ (m.enter p c j).1.translation ↔
      a ∈ m.translation ∨ a ∈ (Marks.enter {} p c j).1.translation) ∧
    (a ∈ (m.enter p c j).1.technical ↔
      a ∈ m.technical ∨ a ∈ (Marks.enter {} p c j).1.technical) := by
  unfold Marks.enter Marks.enterCall
  split
  · cases p.isTranslationCall c j with
    | error f => simp
    | ok translates =>
        cases p.isTechnicalCall c j with
        | error f => cases translates <;> simp [Marks.addTranslation, or_comm]
        | ok technical =>
            cases translates <;> cases technical <;>
              simp [Marks.addTranslation, Marks.addTechnical, or_comm]
  · split
    · simp
    · split <;> simp [Marks.addTranslation, or_comm]
  · split
    · simp
    · split <;> simp [Marks.addTranslation, or_comm]
  · simp

/-- What is marked after some nodes are entered was marked by one of them. -/
theorem mem_marksAfter (c : Case) (is : List Nat) (a : Nat) :
    (a ∈ (marksAfter c is).translation ↔
      ∃ j ∈ is, a ∈ (Marks.enter {} c.program c.config j).1.translation) ∧
    (a ∈ (marksAfter c is).technical ↔
      ∃ j ∈ is, a ∈ (Marks.enter {} c.program c.config j).1.technical) := by
  suffices h : ∀ m : Marks,
      (a ∈ (is.foldl (fun m i => (m.enter c.program c.config i).1) m).translation ↔
        a ∈ m.translation ∨
          ∃ j ∈ is, a ∈ (Marks.enter {} c.program c.config j).1.translation) ∧
      (a ∈ (is.foldl (fun m i => (m.enter c.program c.config i).1) m).technical ↔
        a ∈ m.technical ∨
          ∃ j ∈ is, a ∈ (Marks.enter {} c.program c.config j).1.technical) by
    simpa [marksAfter] using h {}
  induction is with
  | nil => intro m; simp
  | cons i rest ih =>
      intro m
      obtain ⟨htrans, htech⟩ := ih (m.enter c.program c.config i).1
      obtain ⟨hmtrans, hmtech⟩ := mem_enter m c.program c.config i a
      rw [List.foldl_cons]
      constructor
      · rw [htrans, hmtrans]
        simp [or_assoc]
      · rw [htech, hmtech]
        simp [or_assoc]

/-- Entering a node marks the node itself or, at an opening, the element that it opens. -/
theorem eq_or_opens_of_mem_enter {p : Program} {c : Configuration} {j a : Nat}
    (h : a ∈ (Marks.enter {} p c j).1.translation ∨ a ∈ (Marks.enter {} p c j).1.technical) :
    a = j ∨ p.parent? j = some a ∧ p.kindAt a = some .element ∧
      p.kindAt j = some .elementOpening := by
  unfold Marks.enter Marks.enterCall at h
  split at h
  · left
    revert h
    cases p.isTranslationCall c j with
    | error f => simp
    | ok translates =>
        cases p.isTechnicalCall c j with
        | error f => cases translates <;> simp [Marks.addTranslation]
        | ok technical =>
            cases translates <;> cases technical <;>
              simp [Marks.addTranslation, Marks.addTechnical]
  · left
    split at h
    · simp at h
    · split at h
      · simpa [Marks.addTranslation] using h
      · simp at h
  · rename_i hj
    split at h
    · simp at h
    · split at h
      · have ha : a = Marks.wrapper p j := by simpa [Marks.addTranslation] using h
        unfold Marks.wrapper at ha
        split at ha
        · rename_i e hpar
          split at ha
          · rename_i hkind
            subst ha
            exact Or.inr ⟨hpar, by simpa using hkind, hj⟩
          · exact Or.inl ha
        · exact Or.inl ha
      · simp at h
  · simp at h

/-- With openings first, what entering a node marks is the node or the number before it. -/
theorem le_succ_of_mem_enter {t : Tree Node} (ht : OpeningsFirst t) {c : Configuration} {j a : Nat}
    (h : a ∈ (Marks.enter {} (Program.ofTree t) c j).1.translation ∨
      a ∈ (Marks.enter {} (Program.ofTree t) c j).1.technical) : j ≤ a + 1 := by
  rcases eq_or_opens_of_mem_enter h with rfl | ⟨hpar, helement, hopening⟩
  · omega
  · obtain ⟨hlt, hsize, hmem⟩ := parent?_lt hpar
    obtain ⟨parent, s, hs, hfirst⟩ :=
      Holds.exists_subtree t (holds_ofTree t) ht (Nat.zero_le a) (by omega)
    cases s with
    | node l cs =>
        rw [hs.2.2.1] at hmem
        rcases hs.2.2.2.eq_or_exists_tail hmem with rfl | ⟨child, htail, hchild⟩
        · exact Nat.le_refl _
        · -- a later child that is an opening: excluded
          exfalso
          have hl : l.kind = .element := by
            have := hs.node?
            unfold Program.kindAt Program.ofTree at helement
            rw [this] at helement
            exact Option.some.inj helement
          refine hfirst.1 hl child htail ?_
          have := hchild.node?
          unfold Program.kindAt Program.ofTree at hopening
          rw [this] at hopening
          exact Option.some.inj hopening

/-- Whether an ancestor of a node is marked is settled once the node itself is entered. -/
theorem inside_marksAfter {t : Tree Node} (ht : OpeningsFirst t) (config : Configuration)
    (oracle : Option Oracle) {i stop : Nat} (hi : i < stop) (hstop : stop ≤ t.size) :
    let c := Case.ofTree t config oracle
    (marksAfter c (List.range stop)).insideTranslation c.program i =
        (marksAfter c (List.range t.size)).insideTranslation c.program i ∧
      (marksAfter c (List.range stop)).insideTechnical c.program i =
        (marksAfter c (List.range t.size)).insideTechnical c.program i := by
  intro c
  -- a mark of an ancestor is made at the ancestor or right after it
  have hearly : ∀ {a j}, a ∈ c.program.ancestors i →
      (a ∈ (Marks.enter {} c.program c.config j).1.translation ∨
        a ∈ (Marks.enter {} c.program c.config j).1.technical) → j < stop := by
    intro a j ha hj
    have hlt : a < i := lt_of_mem_ancestors ha
    have hle : j ≤ a + 1 := le_succ_of_mem_enter ht hj
    omega
  have hagree : ∀ a ∈ c.program.ancestors i,
      (a ∈ (marksAfter c (List.range stop)).translation ↔
        a ∈ (marksAfter c (List.range t.size)).translation) ∧
      (a ∈ (marksAfter c (List.range stop)).technical ↔
        a ∈ (marksAfter c (List.range t.size)).technical) := by
    intro a ha
    simp only [(mem_marksAfter c _ a).1, (mem_marksAfter c _ a).2, List.mem_range]
    constructor
    · constructor
      · rintro ⟨j, hj, hmem⟩
        exact ⟨j, by omega, hmem⟩
      · rintro ⟨j, -, hmem⟩
        exact ⟨j, hearly ha (Or.inl hmem), hmem⟩
    · constructor
      · rintro ⟨j, hj, hmem⟩
        exact ⟨j, by omega, hmem⟩
      · rintro ⟨j, -, hmem⟩
        exact ⟨j, hearly ha (Or.inr hmem), hmem⟩
  constructor
  · unfold Marks.insideTranslation
    rw [Bool.eq_iff_iff]
    simp only [List.any_eq_true, List.contains_iff_mem]
    exact exists_congr fun a => and_congr_right fun ha => (hagree a ha).1
  · unfold Marks.insideTechnical
    rw [Bool.eq_iff_iff]
    simp only [List.any_eq_true, List.contains_iff_mem]
    exact exists_congr fun a => and_congr_right fun ha => (hagree a ha).2

/-- The finding at a node depends on the marks through its ancestors only. -/
theorem findingAt_congr (c : Case) {m m' : Marks} {i : Nat}
    (htrans : m.insideTranslation c.program i = m'.insideTranslation c.program i)
    (htech : m.insideTechnical c.program i = m'.insideTechnical c.program i) :
    findingAt c m i = findingAt c m' i := by
  cases hn : c.program.node? i with
  | none => simp only [findingAt, hn]
  | some n =>
      by_cases hs : n.isString
      · have hsame : (c.hearing m).decision i n = (c.hearing m').decision i n :=
          (c.hearing m').decision_withMarks m c.config.valuePatterns htrans htech rfl
        rw [findingAt_of_isString hn hs, findingAt_of_isString hn hs, hsame]
      · rw [findingAt_of_not_isString hn hs, findingAt_of_not_isString hn hs]

/-- **A single pass finds what two passes find.** The findings of a run are those of the nodes in
the order in which they are left, each node once and ruled on alone with a table of its own, after
all marks have been made. -/
theorem findings_eq_twoPasses (t : Tree Node) (ht : OpeningsFirst t) (config : Configuration)
    (oracle : Option Oracle) :
    findings (.ofTree t config oracle) = twoPasses (.ofTree t config oracle) t ∧
      (t.postorderFrom 0).Perm (List.range t.size) := by
  constructor
  · rw [findings_eq_found, found_map_snd, twoPasses, ← exitsFrom_map_fst, List.filterMap_map]
    refine List.filterMap_congr ?_
    intro x hx
    obtain ⟨-, hlt, hle⟩ := exitsFrom_bounds t hx
    obtain ⟨htrans, htech⟩ := inside_marksAfter ht config oracle hlt (by omega)
    exact findingAt_congr _ htrans htech
  · rw [List.range_eq_range']
    exact postorderFrom_perm 0 t

/-- Markup with a translated text beside one that is not. -/
def translatedMarkup : Tree Node :=
  .node { kind := .element }
    [.node { kind := .element }
      [.node { kind := .elementOpening, name := .text "Trans" } [],
        .node { kind := .text, value := .text "Hello" } []],
      .node { kind := .text, value := .text "World" } []]

theorem translatedMarkup_two_passes :
    OpeningsFirst translatedMarkup ∧
      let c := Case.ofTree translatedMarkup ⟨[], .ofNames [], .ofNames [], [], [], []⟩ none
      (findings c = twoPasses c translatedMarkup ∧
        (translatedMarkup.postorderFrom 0).Perm (List.range translatedMarkup.size)) ∧
      (findings c).map Finding.message = [Text.ofString "Forbidden text content World"] := by
  have hfirst : OpeningsFirst translatedMarkup := by
    simp [OpeningsFirst, translatedMarkup, Everywhere, ForestEverywhere, Tree.label]
  refine ⟨hfirst, findings_eq_twoPasses _ hfirst _ none, ?_⟩
  decide

end Lint

end LiteralLint
