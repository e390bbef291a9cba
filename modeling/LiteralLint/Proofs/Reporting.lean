import LiteralLint.Proofs.DecisionList

/-!
# Complaints that can be reported

A complaint becomes a finding when its message is rendered and all its data are texts. On a well-typed
program nothing goes wrong there: a complaint names every field that its message asks for, and what it
puts into them are texts, since the nodes it takes them from exist and hold texts.

## Main results

* `Hearing.reportable_decision`: on well-typed programs every complaint of a list can be reported.
-/

namespace LiteralLint

/-- A complaint that makes a finding, wherever its node is. -/
def Complaint.Reportable (c : Complaint) : Prop := ∀ place, ∃ f, c.toFinding place = .ok f

theorem Node.WellTyped.text_eq {n : Node} (hn : n.WellTyped) : ∃ t, n.text = .text t := by
  obtain ⟨t, ht⟩ := Option.isSome_iff_exists.1 hn.text
  refine ⟨t, ?_⟩
  cases hd : n.text <;> simp_all [Datum.text?]

theorem Datum.orEmpty_ofText? (o : Option Text) : (ofText? o).orEmpty = .text (o.getD []) := by
  cases o with
  | none => rfl
  | some t => cases t <;> rfl

namespace Program

theorem textAt_eq {p : Program} (hp : p.WellTyped) {i : Nat} {n : Node}
    (hn : p.node? i = some n) : ∃ t, p.textAt i = .text t := by
  obtain ⟨t, ht⟩ := (hp i n hn).text_eq
  exact ⟨t, by simp [textAt, hn, ht]⟩

theorem orEmpty_nameAt {p : Program} (hp : p.WellTyped) (i : Nat) :
    ∃ t, (p.nameAt i).orEmpty = .text t := by
  rw [nameAt_eq hp, Datum.orEmpty_ofText?]
  exact ⟨_, rfl⟩

/-- A node that is found above another is there, and of the kind that was looked for. -/
theorem node?_of_nearestOfKind? {p : Program} {i a : Nat} {k : NodeKind}
    (h : p.nearestOfKind? i k = some a) : ∃ n, p.node? a = some n ∧ n.kind = k := by
  have hsatisfies := List.find?_some h
  unfold Arena.satisfies at hsatisfies
  cases hn : p.node? a with
  | none => simp [hn] at hsatisfies
  | some n => exact ⟨n, rfl, by simpa [hn] using hsatisfies⟩

end Program

namespace Hearing

/-- On a well-typed program every complaint that a list ends in can be reported. -/
theorem reportable_decision {t : Tree Node} (ht : t.Everywhere fun n _ => n.WellTyped)
    {h : Hearing} (hprogram : h.program = Program.ofTree t) {i : Nat} {n : Node}
    (hn : h.program.node? i = some n) {c : Complaint} (hd : h.decision i n = .ok (some c)) :
    c.Reportable := by
  have hp : h.program.WellTyped := by
    rw [hprogram]
    exact wellTyped_ofTree ht
  obtain ⟨source, hsource⟩ := (hp i n hn).text_eq
  intro place
  rcases complaint_of_decision hd with rfl | rfl | ⟨property, hproperty, rfl⟩ |
    ⟨attr, -, rfl⟩ | rfl
  · exact ⟨_, rfl⟩
  · unfold placeholderComplaint
    rw [hsource]
    exact ⟨_, rfl⟩
  · obtain ⟨owner, howner, -⟩ := Program.node?_of_nearestOfKind? hproperty
    obtain ⟨code, hcode⟩ := Program.textAt_eq hp howner
    unfold propertyComplaint
    rw [hsource, hcode]
    exact ⟨_, rfl⟩
  · obtain ⟨name, hname⟩ := Program.orEmpty_nameAt hp attr
    unfold attributeComplaint
    rw [hsource, hname]
    cases hopening : h.program.nearestOfKind? i .elementOpening with
    | none => exact ⟨_, rfl⟩
    | some opening =>
        obtain ⟨m, hm, -⟩ := Program.node?_of_nearestOfKind? hopening
        obtain ⟨tag, htag⟩ := Program.orEmpty_nameAt hp opening
        obtain ⟨code, hcode⟩ := Program.textAt_eq hp hm
        dsimp only
        rw [htag, hcode]
        exact ⟨_, rfl⟩
  · unfold genericComplaint
    rw [hsource]
    cases hparent : h.program.parent? i with
    | none => exact ⟨_, rfl⟩
    | some j =>
        have hj := hparent
        rw [hprogram] at hj
        obtain ⟨hlt, hsize, -⟩ := Arena.parent?_lt hj
        obtain ⟨m, hm⟩ := Arena.exists_node? (Nat.lt_trans hlt hsize)
        rw [show Arena.ofTree t = h.program from hprogram.symm] at hm
        obtain ⟨code, hcode⟩ := Program.textAt_eq hp hm
        dsimp only
        rw [hcode]
        exact ⟨_, rfl⟩

end Hearing

end LiteralLint
