import LiteralLint.Proofs.Embedding
import LiteralLint.Proofs.Reporting

/-!
# The tag of an attribute

The rule about attributes looks up from a literal twice: for the nearest attribute, and for the
nearest opening, whose name it takes for the tag of that attribute. An attribute is a child of the
opening that owns it, so the second search ends at the owner unless it meets an opening before the
attribute. That happens where an element lies in the value of an attribute and the literal in the
opening of that element, but in none of its attributes. The tag is then that of the element inside.

The ancestors of a literal below an attribute are those inside the value, the attribute, its owner,
and the ancestors of the owner, so what the two searches find can be read off this list.

## Main definitions

* `Tree.AttributesOwned`: every attribute is a child of an opening.
* `Program.openingWithin?`: the nearest opening above a node that lies inside the value of an
  attribute.

## Main results

* `Program.nearestOfKind?_opening`: where the search for an opening ends.
* `Hearing.attribute_ruling`: the tag that a ruling goes by and reports, and when it is the owner's.
-/

namespace LiteralLint

/-! ## Owners -/

/-- Every attribute is a child of an opening. -/
def Tree.AttributesOwned (t : Tree Node) : Prop :=
  t.label.kind ≠ .attribute ∧
    t.Everywhere fun l cs => ∀ c ∈ cs, c.label.kind = .attribute → l.kind = .elementOpening

namespace Program

open Arena

variable {t : Tree Node} {i attr owner : Nat}

theorem satisfies_kind {p : Program} {k : NodeKind} :
    (p.satisfies (fun n => n.kind == k) i) = true ↔ p.kindAt i = some k := by
  unfold Arena.satisfies kindAt
  cases p.node? i <;> simp

theorem kindAt_of_nearestOfKind? {p : Program} {k : NodeKind} {a : Nat}
    (h : p.nearestOfKind? i k = some a) : p.kindAt a = some k :=
  satisfies_kind.1 (List.find?_some h)

/-- An attribute has a parent, and that is an opening. -/
theorem exists_owner (howned : t.AttributesOwned)
    (hkind : (Program.ofTree t).kindAt attr = some .attribute) :
    ∃ owner, (Program.ofTree t).parent? attr = some owner ∧
      (Program.ofTree t).kindAt owner = some .elementOpening := by
  unfold kindAt at hkind
  obtain ⟨n, hn, hattr⟩ := Option.map_eq_some_iff.1 hkind
  cases hparent : (Program.ofTree t).parent? attr with
  | none =>
      have hroot : (Program.ofTree t).node? 0 = some t.label := (holds_ofTree t).node?
      rw [eq_zero_of_parent? hn hparent] at hn
      cases hroot.symm.trans hn
      exact absurd hattr howned.1
  | some owner =>
      obtain ⟨l, m, hl, hm, hopening⟩ := edge_of_parent?
        (P := fun l m => m.kind = .attribute → l.kind = .elementOpening) howned.2 hparent
      cases hn.symm.trans hm
      refine ⟨owner, rfl, ?_⟩
      unfold kindAt
      rw [show (Program.ofTree t).node? owner = some l from hl, Option.map_some, hopening hattr]

/-- The nearest opening above a node that lies inside the value of an attribute. -/
def openingWithin? (p : Program) (i attr : Nat) : Option Nat :=
  ((p.ancestors i).takeWhile (· != attr)).find? (p.satisfies fun n => n.kind == .elementOpening)

/-- The ancestors of a node below an attribute: those inside its value, the attribute, its owner and
whatever is above the owner. -/
theorem ancestors_of_nearest_attribute
    (hattr : (Program.ofTree t).nearestOfKind? i .attribute = some attr)
    (howner : (Program.ofTree t).parent? attr = some owner) :
    (Program.ofTree t).ancestors i = ((Program.ofTree t).ancestors i).takeWhile (· != attr) ++
      attr :: owner :: (Program.ofTree t).ancestors owner := by
  obtain ⟨hkind, between, back, hlist, hbefore⟩ := List.find?_eq_some_iff_append.1 hattr
  have hback : back = owner :: (Program.ofTree t).ancestors owner :=
    (ancestors_split hlist).trans (ancestors_of_parent howner)
  have hne : ∀ b ∈ between, (b != attr) = true := by
    intro b hb
    rw [bne_iff_ne]
    rintro rfl
    have hnot := hbefore b hb
    rw [hkind] at hnot
    cases hnot
  rw [hlist, List.takeWhile_append_of_pos hne, List.takeWhile_cons_of_neg (by simp),
    List.append_nil, hback]

/-- The search for an opening ends at the nearest one inside the value of the attribute, and where
there is none at the owner. -/
theorem nearestOfKind?_opening
    (hattr : (Program.ofTree t).nearestOfKind? i .attribute = some attr)
    (howner : (Program.ofTree t).parent? attr = some owner)
    (hopening : (Program.ofTree t).kindAt owner = some .elementOpening) :
    (Program.ofTree t).nearestOfKind? i .elementOpening =
      some (((Program.ofTree t).openingWithin? i attr).getD owner) := by
  have hkind := kindAt_of_nearestOfKind? hattr
  have hskip : ¬ (Program.ofTree t).satisfies (fun n => n.kind == .elementOpening) attr = true := by
    rw [satisfies_kind, hkind]
    simp
  unfold nearestOfKind? Arena.nearest?
  rw [ancestors_of_nearest_attribute hattr howner, List.find?_append,
    List.find?_cons_of_neg hskip, List.find?_cons_of_pos (satisfies_kind.2 hopening)]
  show ((Program.ofTree t).openingWithin? i attr).or (some owner) = _
  cases (Program.ofTree t).openingWithin? i attr <;> rfl

/-- An opening inside the value lies below the attribute, so the owner counts only if there is
none. -/
theorem getD_openingWithin?_eq_owner_iff
    (hattr : (Program.ofTree t).nearestOfKind? i .attribute = some attr)
    (howner : (Program.ofTree t).parent? attr = some owner) :
    ((Program.ofTree t).openingWithin? i attr).getD owner = owner ↔
      (Program.ofTree t).openingWithin? i attr = none := by
  cases hwithin : (Program.ofTree t).openingWithin? i attr with
  | none => exact ⟨fun _ => rfl, fun _ => rfl⟩
  | some opening =>
      obtain ⟨front, back, hbetween⟩ := List.append_of_mem (List.mem_of_find?_eq_some hwithin)
      have hlist := ancestors_of_nearest_attribute hattr howner
      rw [hbetween, List.append_assoc, List.cons_append] at hlist
      have hrest : _ = (Program.ofTree t).ancestors opening := ancestors_split hlist
      have habove : attr ∈ (Program.ofTree t).ancestors opening := by
        rw [← hrest]
        exact List.mem_append_right back List.mem_cons_self
      have hlt : attr < opening := lt_of_mem_ancestors habove
      have hlt' : owner < attr := (parent?_lt howner).1
      have hne : opening ≠ owner := by omega
      exact ⟨fun hsame => absurd hsame hne, nofun⟩

end Program

/-! ## Rulings -/

namespace Hearing

/-- A list complains about an attribute only after it asked for that attribute whether it is
allow-listed, with the answer no. -/
theorem attribute_of_decision {h : Hearing} {i : Nat} {n : Node} {c : Complaint}
    (hd : h.decision i n = .ok (some c)) (hid : c.id = "attribute") :
    ∃ attr, h.program.nearestOfKind? i .attribute = some attr ∧
      h.inIgnoredAttribute i (some attr) = .ok false ∧ c = h.attributeComplaint i n attr := by
  unfold decision at hd
  split at hd
  · unfold textDecision at hd
    simp only [unlessExempt_eq_some] at hd
    cases hd.2.2
    cases hid
  · unfold literalDecision at hd
    simp only [unlessExempt_eq_some] at hd
    obtain ⟨-, -, -, hd⟩ := hd
    split at hd
    · unfold translatedDecision at hd
      split at hd
      · cases hd
        cases hid
      · cases hd
    · rw [unlessExempt_eq_some] at hd
      obtain ⟨hallowed, hd⟩ := hd
      rcases complaint_of_propertyDecision hd with
        ⟨property, -, rfl⟩ | ⟨attr, hattr, rfl⟩ | rfl
      · cases hid
      · rw [hattr] at hallowed
        exact ⟨attr, hattr, hallowed, rfl⟩
      · cases hid

/-- What a ruling on a fresh entry complains about is what the list complains about. -/
theorem decision_of_resolve {h : Hearing} {i : Nat} {n : Node} {s : Proceedings} {c : Complaint}
    (hn : h.program.node? i = some n) (hfresh : s.table.entry? i = some {})
    (hrun : (ExceptT.run (h.resolve i) s).1 = .ok (some c)) : h.decision i n = .ok (some c) := by
  by_cases hs : n.isString
  · obtain ⟨e, qs, hrules, -⟩ := h.rules_resolve hn hs
    rw [hrules s hfresh] at hrun
    exact hrun
  · have hother : ∀ m, h.program.node? i = some m → ¬ m.isString := by
      intro m hm hstring
      rw [hn] at hm
      cases hm
      exact hs hstring
    rw [h.resolve_run_of_not_isString hother s] at hrun
    cases hrun

/-- **The tag of an attribute.** The owner of an attribute is its parent. A ruling on a node below
an attribute asks about, and reports, the nearest opening inside the value of the attribute, and
only where there is none the owner. -/
theorem attribute_ruling (t : Tree Node) (howned : t.AttributesOwned) (config : Configuration)
    (marks : Marks) (oracle : Option Oracle) {i attr : Nat}
    (hattr : (Program.ofTree t).nearestOfKind? i .attribute = some attr) :
    let h : Hearing := ⟨Program.ofTree t, config, marks, oracle⟩
    let p := h.program
    ∃ owner, p.parent? attr = some owner ∧ p.kindAt owner = some .elementOpening ∧
      let opening := (p.openingWithin? i attr).getD owner
      let allowed := config.ignoresAttribute (p.nameAt opening) (p.nameAt attr)
      (opening = owner ↔ p.openingWithin? i attr = none) ∧
        h.inIgnoredAttribute i (p.nearestOfKind? i .attribute) = allowed ∧
        ∀ n s c, p.node? i = some n → s.table.entry? i = some {} →
          (ExceptT.run (h.resolve i) s).1 = .ok (some c) → c.id = "attribute" →
          allowed = .ok false ∧
            c = ⟨"attribute", [("string", n.text), ("attribute", (p.nameAt attr).orEmpty),
              ("tag", (p.nameAt opening).orEmpty), ("code", p.textAt opening)]⟩ := by
  intro h p
  obtain ⟨owner, howner, hkind⟩ :=
    Program.exists_owner howned (Program.kindAt_of_nearestOfKind? hattr)
  have hnearest := Program.nearestOfKind?_opening hattr howner hkind
  refine ⟨owner, howner, hkind, ?_⟩
  intro opening allowed
  have hallowed : h.inIgnoredAttribute i (some attr) = allowed := by
    unfold inIgnoredAttribute ownerTag
    rw [hnearest]
  refine ⟨Program.getD_openingWithin?_eq_owner_iff hattr howner, ?_, ?_⟩
  · rw [hattr]
    exact hallowed
  · intro n s c hn hfresh hrun hid
    obtain ⟨attr', hattr', hno, rfl⟩ :=
      attribute_of_decision (decision_of_resolve hn hfresh hrun) hid
    rw [show h.program.nearestOfKind? i .attribute = some attr from hattr] at hattr'
    cases hattr'
    refine ⟨hallowed.symm.trans hno, ?_⟩
    unfold attributeComplaint
    rw [hnearest]

/-! ### Elements in the values of attributes -/

/-- An element whose attribute holds a value. -/
def titled (value : Tree Node) : Tree Node :=
  .node { kind := .element }
    [.node { kind := .elementOpening, name := .text "Outer", text := .text "<Outer>" }
      [.node { kind := .attribute, name := .text "title" } [value]]]

/-- A literal that is an argument of a call. -/
def picked : Tree Node :=
  .node { kind := .call }
    [.node { kind := .identifier, role := some "callee", name := .text "pick" } [],
      .node { kind := .literal, role := some "argument", value := .text "Hello",
              text := .text "'Hello'" } []]

/-- An element with properties spread into its opening. -/
def spreading (properties : Tree Node) : Tree Node :=
  .node { kind := .element }
    [.node { kind := .elementOpening, name := .text "Inner", text := .text "<Inner>" }
      [.node { kind := .other } [properties]]]

/-- An allow-list with the attribute of the outer element on it. -/
def titlesOfOuter : Configuration :=
  ⟨[], .ofNames [], .ofNames [], [], [], [⟨["Outer"], ["title"]⟩]⟩

theorem attributesOwned_titled {value : Tree Node} (h : value.AttributesOwned) :
    (titled value).AttributesOwned := by
  cases value
  simpa [Tree.AttributesOwned, titled, Tree.Everywhere, Tree.ForestEverywhere, Tree.label] using h

theorem attributesOwned_picked : picked.AttributesOwned := by
  simp [Tree.AttributesOwned, picked, Tree.Everywhere, Tree.ForestEverywhere, Tree.label]

theorem attributesOwned_spreading_picked : (spreading picked).AttributesOwned := by
  simp [Tree.AttributesOwned, spreading, picked, Tree.Everywhere, Tree.ForestEverywhere, Tree.label]

/-- Without an element in the value, the ruling goes by the tag of the owner. -/
theorem attribute_ruling_titled :
    let h : Hearing := ⟨Program.ofTree (titled picked), titlesOfOuter, {}, none⟩
    (titled picked).AttributesOwned ∧ h.program.nearestOfKind? 5 .attribute = some 2 ∧
      h.program.openingWithin? 5 2 = none ∧
      h.inIgnoredAttribute 5 (h.program.nearestOfKind? 5 .attribute) = .ok true ∧
      (ExceptT.run (h.resolve 5) ⟨.ofSize 6, []⟩).1 = .ok none := by
  have howned := attributesOwned_titled attributesOwned_picked
  have hattr : (Program.ofTree (titled picked)).nearestOfKind? 5 .attribute = some 2 := by decide
  obtain ⟨owner, howner, -, hsame, hallowed, -⟩ := attribute_ruling (titled picked) howned
    titlesOfOuter {} none hattr
  have hnone : (Program.ofTree (titled picked)).openingWithin? 5 2 = none := by decide
  refine ⟨howned, hattr, hnone, ?_, rfl⟩
  rw [hsame.2 hnone] at hallowed
  have hfirst : owner = 1 := by
    have hone : (Program.ofTree (titled picked)).parent? 2 = some 1 := by decide
    exact Option.some.inj (howner.symm.trans hone)
  subst hfirst
  exact hallowed

/-- With one, the attribute of the outer element is put down to the inner one: it is not found on
the allow-list, and the complaint names the inner tag. -/
theorem ruling_titled_spreading :
    let h : Hearing := ⟨Program.ofTree (titled (spreading picked)), titlesOfOuter, {}, none⟩
    (titled (spreading picked)).AttributesOwned ∧
      h.program.nearestOfKind? 8 .attribute = some 2 ∧ h.program.parent? 2 = some 1 ∧
      h.program.nameAt 1 = .text "Outer" ∧
      titlesOfOuter.ignoresAttribute (h.program.nameAt 1) (h.program.nameAt 2) = .ok true ∧
      h.inIgnoredAttribute 8 (some 2) = .ok false ∧
      (ExceptT.run (h.resolve 8) ⟨.ofSize 9, []⟩).1 = .ok (some
        ⟨"attribute", [("string", .text "'Hello'"), ("attribute", .text "title"),
          ("tag", .text "Inner"), ("code", .text "<Inner>")]⟩) :=
  ⟨attributesOwned_titled attributesOwned_spreading_picked, by decide, by decide, rfl, rfl, rfl,
    rfl⟩

end Hearing

end LiteralLint
