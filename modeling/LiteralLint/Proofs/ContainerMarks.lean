import LiteralLint.Proofs.DecisionList
import LiteralLint.Proofs.Widening

/-!
# Marks and ancestors

Whether a node lies inside a container can be told in two ways: from the marks that a run has made so
far, or from the ancestors of the node, each looked at anew. The two agree whenever a run leaves a
node. All numbers up to that of the node are entered by then, and they are all that can mark one of
its ancestors: a call or a template marks itself, and an element is marked by its opening, which
comes right after it.

The rule about arguments of container calls asks the ancestors again. As it comes after the rules
about marks, it has nothing left to decide.

## Main definitions

* `Program.isTranslationContainer`: a translation container, told from the program alone.

## Main results

* `Tree.enter_mem_before_leave`: what is entered before a node is left.
* `Lint.marks_eq_marksAfter`: the marks at any moment of a run.
* `Lint.inside_eq_ancestors`: marks and ancestors agree.
-/

namespace LiteralLint

/-! ## Events before an exit -/

namespace Tree

open Arena

variable {α : Type}

mutual

/-- Every number of a tree is entered on its walk. -/
theorem enter_mem_eventsFrom (t : Tree α) {n j : Nat} (hn : n ≤ j) (hj : j < n + t.size) :
    Event.enter j ∈ t.eventsFrom n := by
  cases t with
  | node l cs =>
      rw [size] at hj
      rw [eventsFrom]
      rcases Nat.eq_or_lt_of_le hn with rfl | hlt
      · exact List.mem_cons_self
      · have hbelow := enter_mem_forestEventsFrom cs (n := n + 1) hlt (by omega)
        exact List.mem_cons_of_mem _ (List.mem_append_left _ hbelow)

theorem enter_mem_forestEventsFrom (cs : List (Tree α)) {n j : Nat} (hn : n ≤ j)
    (hj : j < n + forestSize cs) : Event.enter j ∈ forestEventsFrom n cs := by
  cases cs with
  | nil =>
      rw [forestSize] at hj
      omega
  | cons t rest =>
      rw [forestSize] at hj
      rw [forestEventsFrom]
      by_cases hlt : j < n + t.size
      · exact List.mem_append_left _ (enter_mem_eventsFrom t hn hlt)
      · exact List.mem_append_right _ (enter_mem_forestEventsFrom rest (by omega) (by omega))

end

/-- An item in the middle of two lists stands in the first or in the second. -/
theorem split_append {β : Type} {xs ys before after : List β} {x : β}
    (h : xs ++ ys = before ++ x :: after) :
    (∃ rest, xs = before ++ x :: rest) ∨ ∃ front, before = xs ++ front ∧ ys = front ++ x :: after := by
  rcases List.append_eq_append_iff.1 h with ⟨front, hbefore, hys⟩ | ⟨back, hxs, hafter⟩
  · exact Or.inr ⟨front, hbefore, hys⟩
  · cases back with
    | nil =>
        rw [List.append_nil] at hxs
        exact Or.inr ⟨[], by rw [hxs, List.append_nil], hafter.symm⟩
    | cons y rest =>
        obtain ⟨rfl, -⟩ := List.cons.inj hafter
        exact Or.inl ⟨rest, hxs⟩

mutual

/-- When a number of a tree is left, all numbers from that of the root up to it are entered. -/
theorem enter_mem_before_leave (t : Tree α) {n i j : Nat} {before after : List Event}
    (h : t.eventsFrom n = before ++ .leave i :: after) (hn : n ≤ j) (hj : j ≤ i) :
    Event.enter j ∈ before := by
  cases t with
  | node l cs =>
      rw [eventsFrom] at h
      cases before with
      | nil => cases h
      | cons e before =>
          obtain ⟨rfl, htail⟩ := List.cons.inj h
          rcases Nat.eq_or_lt_of_le hn with rfl | hlt
          · exact List.mem_cons_self
          · refine List.mem_cons_of_mem _ ?_
            rcases split_append htail with ⟨rest, hbelow⟩ | ⟨front, -, hroot⟩
            · exact enter_mem_before_leave_forest cs hbelow hlt hj
            · -- only the root itself is left after the nodes below it
              cases front with
              | nil =>
                  cases hroot
                  omega
              | cons f front =>
                  obtain ⟨-, hnil⟩ := List.cons.inj hroot
                  cases front <;> cases hnil

theorem enter_mem_before_leave_forest (cs : List (Tree α)) {n i j : Nat}
    {before after : List Event} (h : forestEventsFrom n cs = before ++ .leave i :: after)
    (hn : n ≤ j) (hj : j ≤ i) : Event.enter j ∈ before := by
  cases cs with
  | nil => cases before <;> cases h
  | cons t rest =>
      rw [forestEventsFrom] at h
      rcases split_append h with ⟨back, hfirst⟩ | ⟨front, rfl, hrest⟩
      · exact enter_mem_before_leave t hfirst hn hj
      · by_cases hlt : j < n + t.size
        · exact List.mem_append_left _ (enter_mem_eventsFrom t hn hlt)
        · exact List.mem_append_right _
            (enter_mem_before_leave_forest rest hrest (by omega) hj)

end

end Tree

/-! ## Containers, told from the program -/

theorem Datum.isOneOf_eq_true {texts : List Text} {d : Datum} :
    d.isOneOf texts = .ok true ↔ d.text?.any texts.contains = true := by
  cases d <;> simp [Datum.isOneOf, Datum.text?]

namespace Program

/-- Whether a node is an opening that names a translation component. -/
def opensComponent (p : Program) (o : Nat) : Bool :=
  p.kindAt o == some .elementOpening &&
    (p.nameAt o).text?.any Baseline.translationComponents.contains

/-- Whether a node is a template whose tag translates. -/
def isTranslationTemplate (p : Program) (i : Nat) : Bool :=
  p.kindAt i == some .taggedTemplate &&
    (p.templateTag i).text?.any Baseline.translationTags.contains

/-- Whether a node is an element with an opening that names a translation component, or such an
opening without an element around it. -/
def isTranslationElement (p : Program) (i : Nat) : Bool :=
  p.kindAt i == some .element && (p.childrenOf i).any p.opensComponent ||
    p.opensComponent i && !(p.parent? i).any fun e => p.kindAt e == some .element

/-- Whether a node is a translation container: a call of a translator, a template or an element. -/
def isTranslationContainer (p : Program) (c : Configuration) (i : Nat) : Prop :=
  p.isTranslationCall c i = .ok true ∨ p.isTranslationTemplate i ∨ p.isTranslationElement i

theorem opensComponent_iff {p : Program} {o : Nat} :
    p.opensComponent o ↔ p.kindAt o = some .elementOpening ∧
      (p.nameAt o).isOneOf Baseline.translationComponents = .ok true := by
  unfold opensComponent
  rw [Datum.isOneOf_eq_true, Bool.and_eq_true, beq_iff_eq]

theorem isTranslationTemplate_iff {p : Program} {i : Nat} :
    p.isTranslationTemplate i ↔ p.kindAt i = some .taggedTemplate ∧
      (p.templateTag i).isOneOf Baseline.translationTags = .ok true := by
  unfold isTranslationTemplate
  rw [Datum.isOneOf_eq_true, Bool.and_eq_true, beq_iff_eq]

theorem kindAt_of_isTranslationCall {p : Program} {c : Configuration} {i : Nat}
    (h : p.isTranslationCall c i = .ok true) : p.kindAt i = some .call := by
  unfold isTranslationCall at h
  split at h
  · cases h
  · rename_i hkind
    simpa using hkind

theorem kindAt_of_isTechnicalCall {p : Program} {c : Configuration} {i : Nat}
    (h : p.isTechnicalCall c i = .ok true) : p.kindAt i = some .call := by
  unfold isTechnicalCall at h
  unfold kindAt
  split at h
  · cases h
  · rename_i n hn
    split at h
    · cases h
    · rename_i hkind
      rw [hn, Option.map_some]
      simpa using hkind

end Program

section

variable {t : Tree Node}

theorem parent?_of_mem_childrenOf {a o : Nat} (h : o ∈ (Program.ofTree t).childrenOf a)
    (ha : a < t.size) : (Program.ofTree t).parent? o = some a := by
  obtain ⟨parent, s, hs, -⟩ := Arena.Holds.exists_subtree (P := fun _ _ => True) t
    (Arena.holds_ofTree t) (Tree.everywhere_of_forall (fun _ _ => trivial) t) (Nat.zero_le a)
    (by omega)
  cases s with
  | node l cs =>
      rw [Program.ofTree, hs.2.2.1] at h
      obtain ⟨child, -, hchild⟩ := hs.2.2.2.exists_of_mem h
      cases child with
      | node k ds => exact hchild.2.1

/-- A translation element is what some opening of a translation component opens. -/
theorem Program.isTranslationElement_iff {a : Nat} :
    (Program.ofTree t).isTranslationElement a ↔
      ∃ o, (Program.ofTree t).opensComponent o ∧ a = Marks.wrapper (Program.ofTree t) o := by
  unfold isTranslationElement Marks.wrapper
  simp only [Bool.or_eq_true, Bool.and_eq_true, beq_iff_eq, List.any_eq_true, Bool.not_eq_true']
  constructor
  · rintro (⟨hkind, o, ho, hopens⟩ | ⟨hopens, hparent⟩)
    · have ha : a < t.size := by
        unfold kindAt at hkind
        obtain ⟨n, hn, -⟩ := Option.map_eq_some_iff.1 hkind
        exact Arena.lt_of_node? hn
      refine ⟨o, hopens, ?_⟩
      simp [parent?_of_mem_childrenOf ho ha, hkind]
    · refine ⟨a, hopens, ?_⟩
      split
      · rename_i e hp
        rw [hp, Option.any_some] at hparent
        exact (if_neg (by simpa using hparent)).symm
      · rfl
  · rintro ⟨o, hopens, ha⟩
    split at ha
    · rename_i e hp
      split at ha
      · rename_i hkind
        subst ha
        exact Or.inl ⟨by simpa using hkind, o, (Arena.parent?_lt hp).2.2, hopens⟩
      · rename_i hkind
        subst ha
        exact Or.inr ⟨hopens, by simpa [hp] using hkind⟩
    · rename_i hp
      subst ha
      exact Or.inr ⟨hopens, by simp [hp]⟩

end

namespace Marks

variable {p : Program} {c : Configuration} {j a : Nat}

/-- What entering a node marks as a translation: a call or a template itself, and with an opening
what it opens. -/
theorem mem_enter_translation_iff :
    a ∈ (Marks.enter {} p c j).1.translation ↔
      a = j ∧ (p.isTranslationCall c j = .ok true ∨ p.isTranslationTemplate j) ∨
        p.opensComponent j ∧ a = wrapper p j := by
  rw [Program.isTranslationTemplate_iff, Program.opensComponent_iff]
  by_cases hcall : p.kindAt j = some .call
  · rw [(mem_enter_call hcall).1]
    simp [hcall]
  · have hno : p.isTranslationCall c j ≠ .ok true :=
      fun h => hcall (Program.kindAt_of_isTranslationCall h)
    unfold enter
    split
    · exact absurd ‹_› hcall
    · rename_i hkind
      cases htag : (p.templateTag j).isOneOf Baseline.translationTags with
      | error f => simp [hkind, hno]
      | ok translates => cases translates <;> simp [hkind, hno, addTranslation]
    · rename_i hkind
      cases hname : (p.nameAt j).isOneOf Baseline.translationComponents with
      | error f => simp [hkind, hno]
      | ok translates => cases translates <;> simp [hkind, hno, addTranslation]
    · rename_i htemplate hopening
      refine iff_of_false List.not_mem_nil ?_
      rintro (⟨-, h | ⟨h, -⟩⟩ | ⟨⟨h, -⟩, -⟩)
      · exact hno h
      · exact htemplate h
      · exact hopening h

theorem mem_enter_technical_iff (hp : p.WellTyped) :
    a ∈ (Marks.enter {} p c j).1.technical ↔ a = j ∧ p.isTechnicalCall c j = .ok true := by
  by_cases hcall : p.kindAt j = some .call
  · rw [(mem_enter_call hcall).2]
    simp [Program.isTranslationCall_ok hp c j]
  · have hno : p.isTechnicalCall c j ≠ .ok true :=
      fun h => hcall (Program.kindAt_of_isTechnicalCall h)
    unfold enter
    split
    · exact absurd ‹_› hcall
    · split
      · simp [hno]
      · split <;> simp [hno, addTranslation]
    · split
      · simp [hno]
      · split <;> simp [hno, addTranslation]
    · simp [hno]

end Marks

/-! ## The marks at an exit -/

namespace Lint

open Arena LiteralLint.Tree

/-- The numbers that are entered among some events, in order. -/
def entered (events : List Event) : List Nat :=
  events.filterMap fun
    | .enter i => some i
    | .leave _ => none

theorem mem_entered {events : List Event} {j : Nat} : j ∈ entered events ↔ .enter j ∈ events := by
  unfold entered
  rw [List.mem_filterMap]
  constructor
  · rintro ⟨_ | _, he, h⟩ <;> cases h
    exact he
  · intro h
    exact ⟨_, h, rfl⟩

theorem marks_leave (c : Case) (r : Run) (i : Nat) : (leave c r i).marks = r.marks := by
  unfold leave
  split
  · rfl
  · split
    · rfl
    · dsimp only
      rcases ((c.hearing r.marks).resolve i).run ⟨r.table, []⟩ with ⟨f | _ | complaint, s⟩
      · rfl
      · rfl
      · dsimp only
        split <;> rfl

/-- **The marks at any moment of a run** are those of the nodes entered until then. -/
theorem marks_eq_marksAfter (c : Case) (events : List Event) :
    (events.foldl (step c) (start c)).marks = marksAfter c (entered events) := by
  suffices h : ∀ r : Run, (events.foldl (step c) r).marks =
      (entered events).foldl (fun m i => (m.enter c.program c.config i).1) r.marks from h (start c)
  induction events with
  | nil => exact fun _ => rfl
  | cons e rest ih =>
      intro r
      rw [List.foldl_cons, ih]
      cases e with
      | enter i =>
          show List.foldl _ (enter c r i).marks _ = _
          rw [(enter_run c r i).1]
          rfl
      | leave i =>
          show List.foldl _ (leave c r i).marks _ = _
          rw [marks_leave]
          rfl

section

variable {t : Tree Node} (config : Configuration) (oracle : Option Oracle) {is : List Nat} {i : Nat}

/-- Technical calls above a node are marked as soon as all numbers up to it are entered. -/
theorem insideTechnical_marksAfter (ht : t.Everywhere fun n _ => n.WellTyped)
    (hentered : ∀ j ≤ i, j ∈ is) :
    let c := Case.ofTree t config oracle
    (marksAfter c is).insideTechnical c.program i ↔
      ∃ a ∈ c.program.ancestors i, c.program.isTechnicalCall config a = .ok true := by
  intro c
  have hp : c.program.WellTyped := Hearing.wellTyped_ofTree ht
  unfold Marks.insideTechnical
  simp only [List.any_eq_true, List.contains_iff_mem, (mem_marksAfter c is _).2,
    Marks.mem_enter_technical_iff hp]
  refine exists_congr fun a => and_congr_right fun ha => ?_
  constructor
  · rintro ⟨j, -, rfl, h⟩
    exact h
  · intro h
    have hlt : a < i := lt_of_mem_ancestors ha
    exact ⟨a, hentered a (by omega), rfl, h⟩

/-- So are the translation containers above it, if openings stand first. -/
theorem insideTranslation_marksAfter (hfirst : OpeningsFirst t) (hentered : ∀ j ≤ i, j ∈ is) :
    let c := Case.ofTree t config oracle
    (marksAfter c is).insideTranslation c.program i ↔
      ∃ a ∈ c.program.ancestors i, c.program.isTranslationContainer config a := by
  intro c
  unfold Marks.insideTranslation
  simp only [List.any_eq_true, List.contains_iff_mem, (mem_marksAfter c is _).1]
  refine exists_congr fun a => and_congr_right fun ha => ?_
  have hlt : a < i := lt_of_mem_ancestors ha
  constructor
  · rintro ⟨j, -, hj⟩
    rcases Marks.mem_enter_translation_iff.1 hj with ⟨rfl, h | h⟩ | ⟨hopens, rfl⟩
    · exact Or.inl h
    · exact Or.inr (Or.inl h)
    · exact Or.inr (Or.inr (Program.isTranslationElement_iff.2 ⟨j, hopens, rfl⟩))
  · rintro (h | h | h)
    · exact ⟨a, hentered a (by omega), Marks.mem_enter_translation_iff.2 (.inl ⟨rfl, .inl h⟩)⟩
    · exact ⟨a, hentered a (by omega), Marks.mem_enter_translation_iff.2 (.inl ⟨rfl, .inr h⟩)⟩
    · -- the opening that makes the mark is the number after its element at most
      obtain ⟨o, hopens, hwrapper⟩ := Program.isTranslationElement_iff.1 h
      have hmark : a ∈ (Marks.enter {} c.program config o).1.translation :=
        Marks.mem_enter_translation_iff.2 (.inr ⟨hopens, hwrapper⟩)
      have hle : o ≤ a + 1 := le_succ_of_mem_enter hfirst (.inl hmark)
      exact ⟨o, hentered o (by omega), hmark⟩

end

end Lint

namespace Hearing

theorem mem_of_callOfArgument? {h : Hearing} {below call : Nat} {above : List Nat}
    (hcall : h.callOfArgument? below above = some call) : call ∈ above := by
  induction above generalizing below with
  | nil => cases hcall
  | cons a rest ih =>
      rw [callOfArgument?] at hcall
      split at hcall
      · cases hcall
        exact List.mem_cons_self
      · exact List.mem_cons_of_mem _ (ih hcall)

/-- An argument of a container call has a container call above it. -/
theorem exists_ancestor_of_argument {h : Hearing} {i : Nat}
    (harg : h.argumentOfContainerCall i = .ok true) :
    ∃ a ∈ h.program.ancestors i, h.program.isTechnicalCall h.config a = .ok true ∨
      h.program.isTranslationCall h.config a = .ok true := by
  unfold argumentOfContainerCall at harg
  split at harg
  · cases harg
  · rename_i call hcall
    refine ⟨call, mem_of_callOfArgument? hcall, ?_⟩
    unfold isContainerCall at harg
    cases htechnical : h.program.isTechnicalCall h.config call with
    | error f =>
        rw [htechnical] at harg
        cases harg
    | ok technical =>
        rw [htechnical] at harg
        cases technical with
        | true => exact .inl rfl
        | false => exact .inr harg

end Hearing

namespace Lint

open Arena LiteralLint.Tree

/-- **Marks and ancestors agree.** Whenever a run leaves a node, the node counts as inside a technical
container just if one of its ancestors is a technical call, and as inside a translation container
just if one of them is a translation container. An argument of a container call is inside by these
marks already, so the rule about such arguments has nothing left to decide. -/
theorem inside_eq_ancestors (t : Tree Node) (ht : t.Everywhere fun n _ => n.WellTyped)
    (hfirst : OpeningsFirst t) (config : Configuration) (oracle : Option Oracle)
    {before after : List Event} {i : Nat}
    (hexit : (Program.ofTree t).walk = before ++ .leave i :: after) :
    let c := Case.ofTree t config oracle
    let m := (before.foldl (step c) (start c)).marks
    (m.insideTechnical c.program i ↔
        ∃ a ∈ c.program.ancestors i, c.program.isTechnicalCall config a = .ok true) ∧
      (m.insideTranslation c.program i ↔
        ∃ a ∈ c.program.ancestors i, c.program.isTranslationContainer config a) ∧
      ((c.hearing m).argumentOfContainerCall i = .ok true →
        m.insideTechnical c.program i ∨ m.insideTranslation c.program i) := by
  intro c m
  have hm : m = marksAfter c (entered before) := marks_eq_marksAfter c before
  have hentered : ∀ j ≤ i, j ∈ entered before := by
    intro j hj
    rw [Program.ofTree, walk_ofTree] at hexit
    exact mem_entered.2 (enter_mem_before_leave t hexit (Nat.zero_le j) hj)
  have htechnical := insideTechnical_marksAfter config oracle ht hentered
  have htranslation := insideTranslation_marksAfter config oracle hfirst hentered
  rw [hm]
  refine ⟨htechnical, htranslation, fun harg => ?_⟩
  obtain ⟨a, ha, h | h⟩ := Hearing.exists_ancestor_of_argument harg
  · exact .inl (htechnical.2 ⟨a, ha, h⟩)
  · exact .inr (htranslation.2 ⟨a, ha, .inl h⟩)

/-- The inclusion of a module in translated markup. -/
def wrappedInclusion : Tree Node :=
  .node { kind := .element }
    [.node { kind := .elementOpening, name := .text "Trans" } [],
      .node { kind := .call }
        [.node { kind := .identifier, role := some "callee", name := .text "require" } [],
          .node { kind := .literal, role := some "argument", value := .text "./a" } []]]

/-- The argument of the call lies in a container of either sort. -/
theorem wrappedInclusion_inside :
    let c := Case.ofTree wrappedInclusion ⟨[], .ofNames [], .ofNames [], [], [], []⟩ none
    let before : List Event := [.enter 0, .enter 1, .leave 1, .enter 2, .enter 3, .leave 3, .enter 4]
    let m := (before.foldl (step c) (start c)).marks
    c.program.walk = before ++ .leave 4 :: [.leave 2, .leave 0] ∧
      (wrappedInclusion.Everywhere fun n _ => n.WellTyped) ∧ OpeningsFirst wrappedInclusion ∧
      m.insideTechnical c.program 4 ∧ m.insideTranslation c.program 4 := by
  have hwalk : (Program.ofTree wrappedInclusion).walk =
      [.enter 0, .enter 1, .leave 1, .enter 2, .enter 3, .leave 3, .enter 4] ++
        .leave 4 :: [.leave 2, .leave 0] := by decide
  have hwell : wrappedInclusion.Everywhere fun n _ => n.WellTyped := by
    simp only [wrappedInclusion, Everywhere, ForestEverywhere, and_true]
    repeat' constructor
  have hfirst : OpeningsFirst wrappedInclusion := by
    simp [OpeningsFirst, wrappedInclusion, Everywhere, ForestEverywhere, Tree.label]
  have h := inside_eq_ancestors wrappedInclusion hwell hfirst
    ⟨[], .ofNames [], .ofNames [], [], [], []⟩ none hwalk
  refine ⟨hwalk, hwell, hfirst, h.1.2 ⟨2, by decide, rfl⟩, h.2.1.2 ⟨0, by decide, ?_⟩⟩
  exact Or.inr (Or.inr (by decide))

end Lint

end LiteralLint
