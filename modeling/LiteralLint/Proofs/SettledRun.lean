import Mathlib.Data.List.Forall2
import LiteralLint.Proofs.ContextualType
import LiteralLint.Proofs.Reporting
import LiteralLint.Proofs.SinglePass

/-!
# Runs that settle everything

A node on which something fails is skipped, and a skipped literal is never reported. On well-typed
programs nothing fails, with one exception that `Program.keyIsTooLong` describes: keys without a
numeral. Without such keys a run skips no node, and when it ends the table of verdicts is complete:
every node with text is frozen, exempt or with a complaint, no other node has been touched, and the
findings are those of the complaints.

A run is followed exit by exit. The ruling at an exit writes one entry, which nothing later touches,
so the table at the end can be read off the decision lists at the exits.

## Main definitions

* `Lint.Smooth`: nothing fails in a run.
* `Lint.SettledAt`: the entry that the decision list at an exit calls for.
* `Lint.Run.skips`: the nodes that a run has skipped.

## Main results

* `Lint.settled_run`: the table at the end of a run.
* `Lint.run_settles`: on well-typed programs without long keys a run settles every text.
-/

namespace LiteralLint

open Datum

/-! ## Containers -/

namespace Program

variable {p : Program}

theorem templateTag_eq (hp : p.WellTyped) (i : Nat) : ∃ o, p.templateTag i = ofText? o := by
  unfold templateTag
  split
  · exact ⟨_, nameAt_eq hp i⟩
  · split
    · exact ⟨none, rfl⟩
    · rename_i tag _
      split
      · exact ⟨_, nameAt_eq hp tag⟩
      · split
        · exact ⟨none, rfl⟩
        · rename_i callee _
          split
          · exact ⟨_, nameAt_eq hp callee⟩
          · exact ⟨none, rfl⟩
      · exact ⟨none, rfl⟩

theorem enter_ok (hp : p.WellTyped) (m : Marks) (c : Configuration) (i : Nat) :
    (m.enter p c i).2 = none := by
  unfold Marks.enter
  split
  · obtain ⟨translates, htranslates⟩ := isTranslationCall_ok hp c i
    obtain ⟨technical, htechnical⟩ := isTechnicalCall_ok hp c i
    rw [Marks.enterCall, htranslates]
    dsimp only
    rw [htechnical]
  · obtain ⟨tag, htag⟩ := templateTag_eq hp i
    rw [htag, isOneOf_ofText?]
  · rw [nameAt_eq hp, isOneOf_ofText?]
  · rfl

end Program

/-- Where all keys have numerals, no list meets one that has none. -/
theorem Hearing.meetsLongKey_eq_false {h : Hearing} (hkeys : h.program.KeysShort) (i : Nat)
    (n : Node) : h.meetsLongKey i n = false := by
  have hshort : (h.program.nearestOfKind? i .objectProperty).any h.program.keyIsTooLong = false := by
    cases hproperty : h.program.nearestOfKind? i .objectProperty with
    | none => rfl
    | some property =>
        obtain ⟨owner, howner, hkind⟩ := Program.node?_of_nearestOfKind? hproperty
        refine hkeys property ?_
        rw [Program.kindAt, howner, Option.map_some, hkind]
  rw [meetsLongKey, hshort, Bool.and_false]

namespace Lint

open Arena LiteralLint.Tree

/-! ## Skipped nodes -/

/-- A node that was skipped, and why. -/
def Note.skip? : Note → Option (Nat × NodeFault)
  | .skipped _ i f => some (i, f)
  | _ => none

/-- The nodes that a run has skipped, in order. -/
def Run.skips (r : Run) : List (Nat × NodeFault) := r.notes.filterMap Note.skip?

/-- The decision list at an exit. -/
def decisionOn (c : Case) (x : Nat × Nat) (n : Node) : Except NodeFault (Option Complaint) :=
  (c.hearing (marksAfter c (List.range x.2))).decision x.1 n

/-- Why a node is skipped, if its decision list ends like this. -/
def faultOf (place : Option Span) : Except NodeFault (Option Complaint) → Option NodeFault
  | .error f => some f
  | .ok none => none
  | .ok (some complaint) =>
    match complaint.toFinding place with
    | .error f => some f
    | .ok _ => none

/-- Leaving a node with text writes down its decision, its questions and its fault. -/
theorem leave_of_isString {c : Case} {r : Run} {n stop : Nat} {node : Node}
    (hn : c.program.node? n = some node) (hs : node.isString)
    (hmarks : r.marks = marksAfter c (List.range stop)) (hfresh : r.table.entry? n = some {}) :
    ∃ e, ∃ qs : List Question, (leave c r n).table = r.table.update n (fun _ => e) ∧
      (leave c r n).notes = r.notes ++ qs.map .asked ++
        ((faultOf node.span (decisionOn c (n, stop) node)).map (.skipped node.kind n)).toList ∧
      ∀ d, decisionOn c (n, stop) node = .ok d → e = ⟨Hearing.verdictOf d, true⟩ := by
  obtain ⟨e, qs, hrules, hverdict⟩ := (c.hearing r.marks).rules_resolve hn hs
  have hbears : node.kind.bearsText = true := by
    unfold Node.isString at hs
    exact (Bool.and_eq_true_iff.1 hs).1
  have hrun := hrules ⟨r.table, []⟩ hfresh
  refine ⟨e, qs, ?_⟩
  unfold leave decisionOn
  rw [← hmarks, hn]
  simp only [hbears, hrun, Proceedings.after, Bool.not_true, Bool.false_eq_true, if_false,
    List.nil_append]
  cases hd : (c.hearing r.marks).decision n node with
  | error f =>
      refine ⟨rfl, rfl, fun d h => ?_⟩
      cases h
  | ok complaint? =>
      refine and_assoc.1 ⟨?_, fun d h => hverdict d (hd.trans h)⟩
      cases complaint? with
      | none => exact ⟨rfl, (List.append_nil _).symm⟩
      | some complaint =>
          dsimp only [faultOf]
          cases complaint.toFinding node.span with
          | error f => exact ⟨rfl, rfl⟩
          | ok finding => exact ⟨rfl, (List.append_nil _).symm⟩

/-- Leaving any other node writes nothing down. -/
theorem leave_of_not_isString {c : Case} (r : Run) {n : Nat} {node : Node}
    (hn : c.program.node? n = some node) (hs : ¬ node.isString) :
    (leave c r n).table = r.table ∧ (leave c r n).notes = r.notes := by
  have hsilent := resolve_run_of_node hn hs r.marks ⟨r.table, []⟩
  unfold leave
  rw [hn]
  dsimp only
  split
  · exact ⟨rfl, rfl⟩
  · rw [hsilent]
    exact ⟨rfl, List.append_nil _⟩

/-- The node of an exit, if it is skipped. -/
def skipsOn (c : Case) (x : Nat × Nat) : List (Nat × NodeFault) :=
  match c.program.node? x.1 with
  | none => []
  | some n =>
    if n.isString then ((faultOf n.span (decisionOn c x n)).map (x.1, ·)).toList else []

/-- A run whose entries make no trouble gathers the nodes it skips from its exits. -/
theorem gathers_skips {c : Case}
    (henter : ∀ m i, (Marks.enter m c.program c.config i).2 = none) :
    Gathers c Run.skips (skipsOn c) where
  enter r n := by
    unfold enter
    cases c.program.node? n with
    | none => rfl
    | some node =>
        have hwrapper : (wrapperNotes node n).filterMap Note.skip? = [] := by
          unfold wrapperNotes
          split
          · split <;> rfl
          · rfl
        have hnone := henter r.marks n
        dsimp only
        split
        · simp only [Run.skips, List.filterMap_append, hwrapper, List.append_nil]
        · rename_i hsome
          rw [hsome] at hnone
          cases hnone
  leave r n stop hmarks hfresh := by
    unfold skipsOn
    cases hn : c.program.node? n with
    | none =>
        simp only [leave, hn]
        exact (List.append_nil _).symm
    | some node =>
        by_cases hs : node.isString
        · obtain ⟨e, qs, -, hnotes, -⟩ := leave_of_isString hn hs hmarks hfresh
          have hquestions : (qs.map Note.asked).filterMap Note.skip? = [] := by
            rw [List.filterMap_map]
            exact List.filterMap_eq_nil_iff.2 fun _ _ => rfl
          simp only [Run.skips, hnotes, List.filterMap_append, hquestions, List.append_nil, hs,
            if_true]
          cases faultOf node.span (decisionOn c (n, stop) node) <;> rfl
        · simp only [Run.skips, (leave_of_not_isString r hn hs).2, hs, Bool.false_eq_true, if_false,
            List.append_nil]

/-! ## Settled entries -/

/-- The entry that the decision list at an exit calls for. A list that fails calls for none. -/
def SettledAt (c : Case) (table : VerdictTable) (x : Nat × Nat) : Prop :=
  ∀ n, c.program.node? x.1 = some n →
    (n.isString → ∀ d, decisionOn c x n = .ok d →
      table.entry? x.1 = some ⟨Hearing.verdictOf d, true⟩) ∧
    (¬ n.isString → table.entry? x.1 = some {})

theorem SettledAt.congr {c : Case} {table table' : VerdictTable} {x : Nat × Nat}
    (h : table'.entry? x.1 = table.entry? x.1) (hx : SettledAt c table x) :
    SettledAt c table' x := by
  intro n hn
  rw [h]
  exact hx n hn

/-- Leaving a node settles its entry. -/
theorem settled_leave {c : Case} {r : Run} {n stop : Nat}
    (hmarks : r.marks = marksAfter c (List.range stop)) (hfresh : r.table.entry? n = some {}) :
    SettledAt c (leave c r n).table (n, stop) := by
  intro node hn
  constructor
  · intro hs d hd
    obtain ⟨e, qs, htable, -, hverdict⟩ := leave_of_isString hn hs hmarks hfresh
    rw [htable, VerdictTable.entry?_update_self hfresh, hverdict d hd]
  · intro hs
    rw [(leave_of_not_isString r hn hs).1]
    exact hfresh

mutual

/-- After a stretch of the walk the entries of all its exits are settled. -/
theorem settled_tree {c : Case} (t : Tree Node) {r : Run} {n : Nat}
    (hr : Ready c r n (n + t.size)) {x : Nat × Nat} (hx : x ∈ t.exitsFrom n) :
    SettledAt c ((t.eventsFrom n).foldl (step c) r).table x := by
  cases t with
  | node l cs =>
      have hadvance := advances_forest cs hr.below
      have hroot := hr.fresh_root (Nat.lt_add_of_pos_right (Tree.size_pos _)) hadvance
      rw [eventsFrom, List.foldl_cons, List.foldl_append]
      show SettledAt c (leave c ((forestEventsFrom (n + 1) cs).foldl (step c) (enter c r n)) n).table x
      rw [exitsFrom] at hx
      rcases List.mem_append.1 hx with hx | hx
      · -- a node below the root, whose entry leaving the root leaves alone
        have hne : x.1 ≠ n := by
          have := (forestExitsFrom_bounds cs hx).1
          omega
        obtain ⟨-, -, hothers⟩ := leave_run hadvance.marks hroot
        exact (settled_forest cs hr.below hx).congr (hothers x.1 hne)
      · rw [List.mem_singleton.1 hx]
        exact settled_leave hadvance.marks hroot

theorem settled_forest {c : Case} (cs : List (Tree Node)) {r : Run} {n : Nat}
    (hr : Ready c r n (n + forestSize cs)) {x : Nat × Nat} (hx : x ∈ forestExitsFrom n cs) :
    SettledAt c ((forestEventsFrom n cs).foldl (step c) r).table x := by
  cases cs with
  | nil => cases hx
  | cons t rest =>
      rw [forestSize, ← Nat.add_assoc] at hr
      have hfirst : Ready c r n (n + t.size) := ⟨hr.marks, fun j hn hj => hr.fresh j hn (by omega)⟩
      have hready := (advances_tree t hfirst).ready (by omega) hr
      rw [forestEventsFrom, List.foldl_append]
      rw [forestExitsFrom] at hx
      rcases List.mem_append.1 hx with hx | hx
      · -- the later trees leave the entries of the first alone
        have hlt : x.1 < n + t.size := by
          have := exitsFrom_bounds t hx
          omega
        exact (settled_tree t hfirst hx).congr
          ((advances_forest rest hready).table x.1 (Or.inl hlt))
      · exact settled_forest rest hready hx

end

/-- **The table at the end of a run** holds what the decision list at every exit calls for. -/
theorem settled_run {t : Tree Node} {config : Configuration} {oracle : Option Oracle}
    {x : Nat × Nat} (hx : x ∈ t.exitsFrom 0) :
    SettledAt (.ofTree t config oracle) (run (.ofTree t config oracle)).table x := by
  have hsettled := settled_tree t (ready_start t config oracle) hx
  rw [← walk_ofTree] at hsettled
  exact hsettled

/-! ## Findings and complaints -/

/-- The findings of a list of nodes, where each node has one just if it passes a test, stand in the
order of the nodes that pass it. -/
theorem forall₂_filter_filterMap {α β γ : Type} {R : β → γ → Prop} {key : α → β} {test : β → Bool}
    {f : α → Option γ} (xs : List α)
    (hpass : ∀ x ∈ xs, test (key x) = true → ∃ y, f x = some y ∧ R (key x) y)
    (hfail : ∀ x ∈ xs, test (key x) = false → f x = none) :
    List.Forall₂ R ((xs.map key).filter test) (xs.filterMap f) := by
  induction xs with
  | nil => exact .nil
  | cons x rest ih =>
      have hrest := ih (fun y hy => hpass y (List.mem_cons_of_mem x hy))
        (fun y hy => hfail y (List.mem_cons_of_mem x hy))
      rw [List.map_cons]
      by_cases htest : test (key x) = true
      · obtain ⟨y, hy, hR⟩ := hpass x List.mem_cons_self htest
        rw [List.filter_cons_of_pos htest, List.filterMap_cons_some hy]
        exact .cons hR hrest
      · have hno := hfail x List.mem_cons_self (Bool.not_eq_true _ ▸ htest)
        rw [List.filter_cons_of_neg htest, List.filterMap_cons_none hno]
        exact hrest

/-- A run in which nothing fails: entering a node makes no trouble, and the decision list of every
node with text has a result, which can be reported if it is a complaint. -/
structure Smooth (c : Case) : Prop where
  enters : ∀ m i, (Marks.enter m c.program c.config i).2 = none
  decides : ∀ m i n, c.program.node? i = some n → n.isString →
    ∃ d, (c.hearing m).decision i n = .ok d
  reports : ∀ m i n complaint, c.program.node? i = some n →
    (c.hearing m).decision i n = .ok (some complaint) → complaint.Reportable

/-- On a well-typed program whose keys have numerals nothing fails, without an oracle and with the
declared one. -/
theorem smooth_of_wellTyped {t : Tree Node} (ht : t.Everywhere fun n _ => n.WellTyped)
    (hkeys : (Program.ofTree t).KeysShort) (config : Configuration) {oracle : Option Oracle}
    (horacle : oracle = none ∨ oracle = some (.declared (Program.ofTree t))) :
    Smooth (.ofTree t config oracle) := by
  have hp : (Program.ofTree t).WellTyped := Hearing.wellTyped_ofTree ht
  have hanswers : ∀ o, oracle = some o → ∀ i v, ∃ b, o.asks i v = .ok b := by
    rintro o ho i v
    rcases horacle with rfl | rfl
    · cases ho
    · cases ho
      exact Program.includesLiteral_ok hp hkeys i v
  refine ⟨fun m i => Program.enter_ok hp m config i, ?_, ?_⟩
  · intro m i n _ _
    have hlist := Hearing.decision_eq (h := (Case.ofTree t config oracle).hearing m) hp hanswers i n
    rw [Hearing.meetsLongKey_eq_false hkeys] at hlist
    exact ⟨_, hlist⟩
  · intro m i n complaint hn hd
    exact Hearing.reportable_decision ht rfl hn hd

/-- Every node has its exit. -/
theorem exists_exit {t : Tree Node} {i : Nat} (hi : i < t.size) : ∃ x ∈ t.exitsFrom 0, x.1 = i := by
  have hmem : i ∈ t.postorderFrom 0 := by
    rw [(postorderFrom_perm 0 t).mem_iff, List.mem_range'_1]
    omega
  rw [← exitsFrom_map_fst] at hmem
  exact List.mem_map.1 hmem

section

variable {t : Tree Node} {config : Configuration} {oracle : Option Oracle}

/-- A run in which nothing fails skips no node. -/
theorem skips_of_smooth (h : Smooth (.ofTree t config oracle)) :
    (run (.ofTree t config oracle)).skips = [] := by
  have hnone : ∀ x, skipsOn (.ofTree t config oracle) x = [] := by
    intro x
    unfold skipsOn
    cases hn : (Case.ofTree t config oracle).program.node? x.1 with
    | none => rfl
    | some n =>
        by_cases hs : n.isString
        · obtain ⟨d, hd⟩ := h.decides (marksAfter _ (List.range x.2)) x.1 n hn hs
          have hfault : faultOf n.span (decisionOn (.ofTree t config oracle) x n) = none := by
            rw [decisionOn, hd]
            cases d with
            | none => rfl
            | some complaint =>
                obtain ⟨f, hf⟩ := h.reports _ x.1 n complaint hn hd n.span
                rw [faultOf, hf]
          simp only [hs, if_true, hfault]
          rfl
        · simp only [hs, Bool.false_eq_true, if_false]
  have hgathered := (gathers_skips h.enters).run
  rw [hgathered, List.flatMap_eq_nil_iff.2 fun x _ => hnone x]
  rfl

/-- At the end of such a run the entry of a node with text is that of its decision. -/
theorem entry_of_smooth (h : Smooth (.ofTree t config oracle)) {x : Nat × Nat}
    (hx : x ∈ t.exitsFrom 0) {n : Node} (hn : (Program.ofTree t).node? x.1 = some n)
    (hs : n.isString) :
    ∃ d, decisionOn (.ofTree t config oracle) x n = .ok d ∧
      (run (.ofTree t config oracle)).table.entry? x.1 = some ⟨Hearing.verdictOf d, true⟩ := by
  obtain ⟨d, hd⟩ := h.decides (marksAfter _ (List.range x.2)) x.1 n hn hs
  exact ⟨d, hd, (settled_run hx n hn).1 hs d hd⟩

/-- The finding at an exit of such a run is that of the complaint against its node. -/
theorem finding_of_smooth (h : Smooth (.ofTree t config oracle)) {x : Nat × Nat}
    (hx : x ∈ t.exitsFrom 0) :
    let c := Case.ofTree t config oracle
    ((run c).table.complaint? x.1 = none → findingOn c x = none) ∧
      ∀ complaint, (run c).table.complaint? x.1 = some complaint →
        ∃ n f, c.program.node? x.1 = some n ∧
          (run c).table.entry? x.1 = some ⟨.pending complaint, true⟩ ∧
          complaint.toFinding n.span = .ok f ∧ findingOn c x = some f := by
  intro c
  have hlt : x.1 < t.size := by
    have := exitsFrom_bounds t hx
    omega
  obtain ⟨n, hn⟩ := exists_node? hlt
  unfold VerdictTable.complaint?
  by_cases hs : n.isString
  · obtain ⟨d, hd, hentry⟩ := entry_of_smooth h hx hn hs
    have hfinding : findingOn c x = reported (.ok d) n.span := by
      rw [← hd]
      exact findingAt_of_isString hn hs
    rw [hentry, hfinding]
    cases d with
    | none => exact ⟨fun _ => rfl, fun complaint hcomplaint => (nomatch hcomplaint)⟩
    | some complaint =>
        refine ⟨fun hnone => (nomatch hnone), fun complaint' hcomplaint => ?_⟩
        cases hcomplaint
        obtain ⟨f, hf⟩ := h.reports _ x.1 n complaint hn hd n.span
        have hreported : reported (.ok (some complaint)) n.span = some f :=
          reported_eq_some.2 ⟨complaint, rfl, hf⟩
        exact ⟨n, f, hn, rfl, hf, hreported⟩
  · rw [(settled_run hx n hn).2 hs]
    have hnone : findingOn c x = none := findingAt_of_not_isString hn hs
    exact ⟨fun _ => hnone, fun complaint hcomplaint => (nomatch hcomplaint)⟩

end

/-- **A run settles every text.** On a well-typed tree whose keys have numerals, without an oracle or
with the declared one, no node is skipped. At the end every node with text is frozen, either exempt
or with a complaint, and no other node has been touched. The findings are those of the complaints,
one for each, in the order in which their nodes are left. -/
theorem run_settles (t : Tree Node) (ht : t.Everywhere fun n _ => n.WellTyped)
    (hkeys : (Program.ofTree t).KeysShort) (config : Configuration) (oracle : Option Oracle)
    (horacle : oracle = none ∨ oracle = some (.declared (Program.ofTree t))) :
    let c := Case.ofTree t config oracle
    let r := run c
    r.skips = [] ∧
      (∀ i n, c.program.node? i = some n →
        (n.isString → r.table.entry? i = some ⟨.exempt, true⟩ ∨
          ∃ complaint, r.table.entry? i = some ⟨.pending complaint, true⟩) ∧
        (¬ n.isString → r.table.entry? i = some {})) ∧
      List.Forall₂ (fun i f => ∃ n complaint, c.program.node? i = some n ∧
          r.table.entry? i = some ⟨.pending complaint, true⟩ ∧
          complaint.toFinding n.span = .ok f ∧ f.position = n.span)
        ((t.postorderFrom 0).filter fun i => (r.table.complaint? i).isSome) (findings c) := by
  intro c r
  have hsmooth : Smooth c := smooth_of_wellTyped ht hkeys config horacle
  refine ⟨skips_of_smooth hsmooth, ?_, ?_⟩
  · intro i n hn
    obtain ⟨x, hx, rfl⟩ := exists_exit (lt_of_node? hn)
    refine ⟨fun hs => ?_, (settled_run hx n hn).2⟩
    obtain ⟨d, -, hentry⟩ := entry_of_smooth hsmooth hx hn hs
    cases d with
    | none => exact Or.inl hentry
    | some complaint => exact Or.inr ⟨complaint, hentry⟩
  · have hfindings : findings c = (t.exitsFrom 0).filterMap (findingOn c) := by
      rw [← found_map_snd]
      exact findings_eq_found t config oracle
    rw [hfindings, ← exitsFrom_map_fst]
    refine forall₂_filter_filterMap (t.exitsFrom 0) ?_ ?_
    · intro x hx hpending
      obtain ⟨complaint, hcomplaint⟩ := Option.isSome_iff_exists.1 hpending
      obtain ⟨n, f, hn, hentry, hf, hfinding⟩ :=
        (finding_of_smooth hsmooth hx).2 complaint hcomplaint
      have hposition : f.position = n.span := by
        obtain ⟨message, data, -, -, rfl⟩ := Complaint.toFinding_eq_ok.1 hf
        rfl
      exact ⟨f, hfinding, n, complaint, hn, hentry, hf, hposition⟩
    · intro x hx hpending
      have hnone : r.table.complaint? x.1 = none :=
        Option.not_isSome_iff_eq_none.1 (by rw [hpending]; exact Bool.false_ne_true)
      exact (finding_of_smooth hsmooth hx).1 hnone

/-- The run over a text below a property, without any allow-list. -/
def keyedCase (key : Datum) : Case :=
  .ofTree (Hearing.keyedText key) ⟨[], .ofNames [], .ofNames [], [], [], []⟩ none

/-- Below a key that can be shown, the text has a complaint. -/
theorem run_settles_short_key :
    ((Hearing.keyedText (.flag true)).Everywhere fun n _ => n.WellTyped) ∧
      (Program.ofTree (Hearing.keyedText (.flag true))).KeysShort ∧
      (run (keyedCase (.flag true))).skips = [] ∧ (findings (keyedCase (.flag true))).length = 1 := by
  have hwell := Hearing.keyedText_wellTyped (.flag true)
  have hkeys : (Program.ofTree (Hearing.keyedText (.flag true))).KeysShort := by
    intro i hkind
    rcases i with _ | _ | _ | i
    · rfl
    · cases hkind
    · cases hkind
    · cases hkind
  have hsettled := run_settles (Hearing.keyedText (.flag true)) hwell hkeys
    ⟨[], .ofNames [], .ofNames [], [], [], []⟩ none (Or.inl rfl)
  exact ⟨hwell, hkeys, hsettled.1, hsettled.2.2.length_eq.symm.trans (by decide)⟩

end Lint

end LiteralLint
