import LiteralLint.Builder
import LiteralLint.Proofs.Embedding
import LiteralLint.Proofs.Places

/-!
# Callees by their components

A rule with a point in it is compared with a callee as text: the rendered chain of names has to end
in the rule, with a point before it. What is meant is a comparison of components, and it comes to
that.
A text is known from the pieces between its points, so a text with a point before it ends in another
one just if its last pieces are the pieces of the other, wherever else there are points, at its two
ends or next to each other.

A chain of names is rendered from its innermost object outwards; its names have no points, so the
pieces of the rendered text are the names.

## Main definitions

* `Program.Chain`: a callee that is a chain of names.

## Main results

* `Text.cons_suffix_cons_iff`: ending in a text, behind a separator, by pieces.
* `Program.dottedName_chain`: the rendered text of a chain.
* `Program.calleeMatches_chain`: **which chains match some rules**.
-/

namespace LiteralLint

/-! ## Pieces of a text -/

namespace Text

variable {sep : CodePoint}

theorem splitOn_ne_nil (sep : CodePoint) (t : Text) : splitOn sep t ≠ [] := by
  cases t with
  | nil => simp [splitOn]
  | cons c t =>
      rw [splitOn]
      split
      · simp
      · split <;> simp

/-- A text is known from its pieces. -/
theorem join_splitOn (t : Text) : join [sep] (splitOn sep t) = t := by
  induction t with
  | nil => rfl
  | cons c t ih =>
      rw [splitOn]
      split
      · rename_i hc
        subst hc
        obtain ⟨piece, pieces, hpieces⟩ := List.exists_cons_of_ne_nil (splitOn_ne_nil c t)
        rw [hpieces] at ih ⊢
        show [] ++ [c] ++ join [c] (piece :: pieces) = _
        rw [ih]
        rfl
      · split
        · rename_i hnil
          exact absurd hnil (splitOn_ne_nil _ t)
        · rename_i piece pieces hpieces
          rw [hpieces] at ih
          rw [← ih]
          cases pieces <;> rfl

/-- The pieces on either side of a separator. -/
theorem splitOn_append_cons (s t : Text) :
    splitOn sep (s ++ sep :: t) = splitOn sep s ++ splitOn sep t := by
  induction s with
  | nil =>
      show splitOn sep (sep :: t) = _
      rw [splitOn, splitOn, if_pos rfl]
      rfl
  | cons c s ih =>
      rw [List.cons_append, splitOn, splitOn]
      split
      · rw [ih]
        rfl
      · obtain ⟨piece, pieces, hpieces⟩ := List.exists_cons_of_ne_nil (splitOn_ne_nil sep s)
        rw [ih, hpieces]
        rfl

/-- **Ending in a text, behind a separator, by pieces.** -/
theorem cons_suffix_cons_iff (s t : Text) :
    sep :: s <:+ sep :: t ↔ splitOn sep s <:+ splitOn sep t := by
  constructor
  · rintro ⟨before, hbefore⟩
    cases before with
    | nil =>
        cases hbefore
        exact List.suffix_refl _
    | cons c before =>
        have ht : before ++ sep :: s = t := (List.cons.inj hbefore).2
        rw [← ht, splitOn_append_cons]
        exact List.suffix_append _ _
  · rintro ⟨before, hbefore⟩
    have ht : t = join [sep] (before ++ splitOn sep s) := by rw [hbefore, join_splitOn]
    cases before with
    | nil =>
        rw [List.nil_append, join_splitOn] at ht
        subst ht
        exact List.suffix_refl _
    | cons piece pieces =>
        rw [join_append (by simp) (splitOn_ne_nil sep s), join_splitOn] at ht
        rw [ht]
        exact ⟨sep :: join [sep] (piece :: pieces), rfl⟩

end Text

/-! ## Rules -/

namespace CalleeRules

theorem mem_simple_ofNames {names : List Text} {n : Text} :
    n ∈ (ofNames names).simple ↔ n ∈ names ∧ 46 ∉ n := by
  rw [ofNames, List.mem_filter]
  simp

theorem mem_qualified_ofNames {names : List Text} {n : Text} :
    n ∈ (ofNames names).qualified ↔ n ∈ names ∧ 46 ∈ n := by
  rw [ofNames, List.mem_filter]
  simp

/-- A rule without a point matches one name. -/
theorem matchesSimple_ofNames (names : List Text) {n : Text} (hn : 46 ∉ n) :
    ∃ b, (ofNames names).matchesSimple (.text n) = .ok b ∧ (b = true ↔ n ∈ names) := by
  refine ⟨(ofNames names).simple.contains n, rfl, ?_⟩
  rw [List.contains_iff_mem, mem_simple_ofNames]
  exact ⟨And.left, fun h => ⟨h, hn⟩⟩

/-- A rule with a point matches the last components of a text. The rule itself needs no comparison
of its own. -/
theorem endsInQualified_ofNames (names : List Text) (d : Text) :
    (ofNames names).endsInQualified d = true ↔
      ∃ rule ∈ names, 46 ∈ rule ∧ Text.splitOn 46 rule <:+ Text.splitOn 46 d := by
  have hends : ∀ rule : Text, Text.endsWith (46 :: d) (46 :: rule) = true ↔
      Text.splitOn 46 rule <:+ Text.splitOn 46 d := fun rule =>
    List.isSuffixOf_iff_suffix.trans (Text.cons_suffix_cons_iff rule d)
  rw [endsInQualified, Bool.or_eq_true, List.contains_iff_mem, List.any_eq_true]
  constructor
  · rintro (hrule | ⟨rule, hrule, hsuffix⟩)
    · obtain ⟨hmem, hpoint⟩ := mem_qualified_ofNames.1 hrule
      exact ⟨d, hmem, hpoint, List.suffix_refl _⟩
    · obtain ⟨hmem, hpoint⟩ := mem_qualified_ofNames.1 hrule
      exact ⟨rule, hmem, hpoint, (hends rule).1 hsuffix⟩
  · rintro ⟨rule, hmem, hpoint, hsuffix⟩
    exact Or.inr ⟨rule, mem_qualified_ofNames.2 ⟨hmem, hpoint⟩, (hends rule).2 hsuffix⟩

theorem matchesQualified_ofNames (names : List Text) (d : Text) :
    ∃ b, (ofNames names).matchesQualified (.text d) = .ok b ∧
      (b = true ↔ d ≠ [] ∧
        ∃ rule ∈ names, 46 ∈ rule ∧ Text.splitOn 46 rule <:+ Text.splitOn 46 d) := by
  cases d with
  | nil => exact ⟨false, rfl, by simp⟩
  | cons c d =>
      refine ⟨(ofNames names).endsInQualified (c :: d), rfl, ?_⟩
      rw [endsInQualified_ofNames]
      simp

end CalleeRules

/-! ## Chains -/

namespace Program

/-- A node that is a chain of names, given from its innermost object on: an identifier, or a member
of such a node. -/
inductive Chain (p : Program) : Nat → List Text → Prop
  | identifier {i : Nat} {n : Text} (hkind : p.kindAt i = some .identifier)
      (hname : p.nameAt i = .text n) : Chain p i [n]
  | member {i object : Nat} {n : Text} {names : List Text}
      (hkind : p.kindAt i = some .memberAccess) (hname : p.nameAt i = .text n)
      (hobject : p.childInRole? i "object" = some object) (h : Chain p object names) :
      Chain p i (names ++ [n])

variable {t : Tree Node} {i : Nat} {names : List Text}

theorem Chain.ne_nil {p : Program} (h : p.Chain i names) : names ≠ [] := by
  cases h <;> simp

/-- A chain goes down the tree, so it is no longer than there are nodes from its outermost on. -/
theorem Chain.add_length_le (h : (ofTree t).Chain i names) : i + names.length ≤ t.size := by
  induction h with
  | identifier hkind _ =>
      obtain ⟨n, hn, -⟩ := node?_of_kindAt hkind
      exact Arena.lt_of_node? hn
  | member hkind _ hobject _ ih =>
      have hlt := (lt_of_childInRole? hkind hobject).1
      rw [List.length_append, List.length_singleton]
      omega

theorem exists_node_of_chain {p : Program} {k : NodeKind} {n : Text} (hkind : p.kindAt i = some k)
    (hname : p.nameAt i = .text n) : ∃ node, p.node? i = some node ∧ node.kind = k ∧
      node.name = .text n := by
  obtain ⟨node, hnode, hk⟩ := Option.map_eq_some_iff.1 hkind
  refine ⟨node, hnode, hk, ?_⟩
  rwa [nameAt, hnode] at hname

/-- A chain is rendered if the bound on the descent is long enough. -/
theorem dottedNameUpTo_chain {p : Program} (h : p.Chain i names) :
    ∀ bound, names.length ≤ bound →
      p.dottedNameUpTo bound i = .ok (.text (Text.join [46] names)) := by
  induction h with
  | identifier hkind hname =>
      intro bound hbound
      obtain ⟨node, hnode, hk, hn⟩ := exists_node_of_chain hkind hname
      obtain ⟨bound, rfl⟩ : ∃ b, bound = b + 1 := ⟨bound - 1, by simp at hbound; omega⟩
      rw [dottedNameUpTo, hnode]
      simp only [hk, hn]
      rfl
  | @member i object n names hkind hname hobject h ih =>
      intro bound hbound
      obtain ⟨node, hnode, hk, hn⟩ := exists_node_of_chain hkind hname
      rw [List.length_append, List.length_singleton] at hbound
      obtain ⟨bound, rfl⟩ : ∃ b, bound = b + 1 := ⟨bound - 1, by omega⟩
      rw [dottedNameUpTo, hnode]
      simp only [hk, hn, hobject, ih bound (by omega)]
      show Except.ok (Datum.text (Text.cat [Text.join [46] names, [46], n])) = _
      rw [Text.join_append h.ne_nil (by simp), Text.cat, List.flatten_cons, List.flatten_cons,
        List.flatten_singleton]
      rfl

/-- **The rendered text of a chain** has the names with points between them. -/
theorem dottedName_chain (h : (ofTree t).Chain i names) :
    (ofTree t).dottedName i = .ok (.text (Text.join [46] names)) := by
  refine dottedNameUpTo_chain h _ ?_
  have hlength := h.add_length_le
  rw [show (ofTree t).size = t.size from Arena.size_ofTree t]
  omega

/-- An identifier is matched by its name. -/
theorem calleeMatches_identifier {n : Text} (hkind : (ofTree t).kindAt i = some .identifier)
    (hname : (ofTree t).nameAt i = .text n) (hn : 46 ∉ n) (rules : List Text) :
    ∃ b, (ofTree t).calleeMatches i (.ofNames rules) = .ok b ∧ (b = true ↔ n ∈ rules) := by
  obtain ⟨b, hb, hiff⟩ := CalleeRules.matchesSimple_ofNames rules hn
  refine ⟨b, ?_, hiff⟩
  rw [calleeMatches, hkind]
  dsimp only
  rw [hname, hb]

/-- A member is matched by its own name, or by the last names of its chain. -/
theorem calleeMatches_member {object : Nat} {n : Text}
    (hkind : (ofTree t).kindAt i = some .memberAccess) (hname : (ofTree t).nameAt i = .text n)
    (hobject : (ofTree t).childInRole? i "object" = some object)
    (h : (ofTree t).Chain object names) (hpoints : ∀ m ∈ names ++ [n], 46 ∉ m) (rules : List Text) :
    ∃ b, (ofTree t).calleeMatches i (.ofNames rules) = .ok b ∧
      (b = true ↔ n ∈ rules ∨
        ∃ rule ∈ rules, 46 ∈ rule ∧ Text.splitOn 46 rule <:+ names ++ [n]) := by
  obtain ⟨simple, hsimple, hmem⟩ :=
    CalleeRules.matchesSimple_ofNames rules (hpoints n (by simp))
  obtain ⟨qualified, hqualified, hsuffix⟩ :=
    CalleeRules.matchesQualified_ofNames rules (Text.join [46] (names ++ [n]))
  have hrendered : Text.join [46] (names ++ [n]) ≠ [] := by
    rw [Text.join_append h.ne_nil (by simp)]
    simp
  rw [Text.splitOn_join (by simp) hpoints] at hsuffix
  rw [calleeMatches, hkind]
  dsimp only
  rw [hname, hsimple, dottedName_chain (.member hkind hname hobject h)]
  cases simple with
  | true => exact ⟨true, rfl, iff_of_true rfl (Or.inl (hmem.1 rfl))⟩
  | false =>
      have hn : n ∉ rules := fun hn => Bool.noConfusion (hmem.2 hn)
      refine ⟨qualified, hqualified, hsuffix.trans ?_⟩
      simp only [hrendered, hn, ne_eq, not_false_eq_true, true_and, false_or]

/-- A node is the callee of a call. -/
structure IsCallee (p : Program) (call callee : Nat) : Prop where
  kind : p.kindAt call = some .call
  role : p.childInRole? call "callee" = some callee

/-- A call is a translation just if its callee is one of a translator. -/
theorem isTranslationCall_of_isCallee {p : Program} {call callee : Nat} (h : p.IsCallee call callee)
    (c : Configuration) :
    p.isTranslationCall c call = p.calleeMatches callee c.translatorCallees := by
  rw [isTranslationCall, h.kind, h.role]
  rfl

/-- **Which callees match some rules.** A chain of at least two names without points matches just if
its last name is one of the rules, or the components of a rule with a point are the last names of
the chain. An identifier matches just if its name is one of the rules. Either decides which calls
are translations. And a text, whatever its points, matches as a rendered chain just if it is not
empty and the components of a rule with a point are its last components. -/
theorem calleeMatches_chain (t : Tree Node) (rules : List Text) :
    (∀ call callee names n, (ofTree t).IsCallee call callee →
      (ofTree t).Chain callee (names ++ [n]) → names ≠ [] → (∀ m ∈ names ++ [n], 46 ∉ m) →
      ∃ b, (ofTree t).calleeMatches callee (.ofNames rules) = .ok b ∧
        (b = true ↔ n ∈ rules ∨
          ∃ rule ∈ rules, 46 ∈ rule ∧ Text.splitOn 46 rule <:+ names ++ [n]) ∧
        ∀ c : Configuration, c.translatorCallees = .ofNames rules →
          (ofTree t).isTranslationCall c call = .ok b) ∧
    (∀ call callee n, (ofTree t).IsCallee call callee → (ofTree t).Chain callee [n] → 46 ∉ n →
      ∃ b, (ofTree t).calleeMatches callee (.ofNames rules) = .ok b ∧ (b = true ↔ n ∈ rules) ∧
        ∀ c : Configuration, c.translatorCallees = .ofNames rules →
          (ofTree t).isTranslationCall c call = .ok b) ∧
    ∀ d, ∃ b, (CalleeRules.ofNames rules).matchesQualified (.text d) = .ok b ∧
      (b = true ↔ d ≠ [] ∧
        ∃ rule ∈ rules, 46 ∈ rule ∧ Text.splitOn 46 rule <:+ Text.splitOn 46 d) := by
  have hcall : ∀ {call callee b}, (ofTree t).IsCallee call callee →
      (ofTree t).calleeMatches callee (.ofNames rules) = .ok b →
      ∀ c : Configuration, c.translatorCallees = .ofNames rules →
        (ofTree t).isTranslationCall c call = .ok b := by
    intro call callee b hcallee hb c hc
    rw [isTranslationCall_of_isCallee hcallee, hc, hb]
  refine ⟨fun call callee names n hcallee hchain hne hpoints => ?_,
    fun call callee n hcallee hchain hpoint => ?_, CalleeRules.matchesQualified_ofNames rules⟩
  · generalize hwhole : names ++ [n] = whole at hchain hpoints ⊢
    cases hchain with
    | identifier _ _ =>
        have hlength := congrArg List.length hwhole
        rw [List.length_append, List.length_singleton, List.length_singleton] at hlength
        exact absurd (List.eq_nil_of_length_eq_zero (by omega)) hne
    | @member _ object m names' hkind hname hobject hrest =>
        obtain ⟨rfl, hlast⟩ := List.append_inj' hwhole rfl
        cases hlast
        obtain ⟨b, hb, hiff⟩ := calleeMatches_member hkind hname hobject hrest hpoints rules
        exact ⟨b, hb, hiff, hcall hcallee hb⟩
  · generalize hwhole : [n] = whole at hchain
    cases hchain with
    | identifier hkind hname =>
        cases hwhole
        obtain ⟨b, hb, hiff⟩ := calleeMatches_identifier hkind hname hpoint rules
        exact ⟨b, hb, hiff, hcall hcallee hb⟩
    | member _ _ _ hrest =>
        have hlength := congrArg List.length hwhole
        rw [List.length_append, List.length_singleton, List.length_singleton] at hlength
        exact absurd (List.eq_nil_of_length_eq_zero (by omega)) hrest.ne_nil

/-- The call `this.socket.on()`. -/
def socketCall : Tree Node := Builder.call (.names "this.socket.on") []

/-- The names of its callee before the last. -/
def socketNames : List Text := ["this", "socket"]

/-- A rule is about whole components: `socket.on` matches, `ocket.on` does not. -/
theorem calleeMatches_chain_socket :
    (ofTree socketCall).IsCallee 0 1 ∧
      (ofTree socketCall).Chain 1 (socketNames ++ [Text.ofString "on"]) ∧
      (ofTree socketCall).calleeMatches 1 (.ofNames ["socket.on"]) = .ok true ∧
      (ofTree socketCall).calleeMatches 1 (.ofNames ["ocket.on"]) = .ok false := by
  have hcallee : (ofTree socketCall).IsCallee 0 1 := ⟨by cbv, by cbv⟩
  have hthis : (ofTree socketCall).Chain 3 [Text.ofString "this"] := .identifier (by cbv) (by cbv)
  have hsocket : (ofTree socketCall).Chain 2 ([Text.ofString "this"] ++ [Text.ofString "socket"]) :=
    .member (by cbv) (by cbv) (by cbv) hthis
  have hchain : (ofTree socketCall).Chain 1 (socketNames ++ [Text.ofString "on"]) :=
    .member (by cbv) (by cbv) (by cbv) hsocket
  have hne : socketNames ≠ [] := by simp [socketNames]
  have hpoints : ∀ m ∈ socketNames ++ [Text.ofString "on"], 46 ∉ m := by decide
  refine ⟨hcallee, hchain, ?_, ?_⟩
  · obtain ⟨b, hb, hiff, -⟩ := (calleeMatches_chain socketCall ["socket.on"]).1 0 1 socketNames _
      hcallee hchain hne hpoints
    have hsuffix : Text.splitOn 46 "socket.on" <:+ socketNames ++ [Text.ofString "on"] := by decide
    rw [hb, hiff.2 (Or.inr ⟨_, List.mem_singleton.2 rfl, by decide, hsuffix⟩)]
  · obtain ⟨b, hb, hiff, -⟩ := (calleeMatches_chain socketCall ["ocket.on"]).1 0 1 socketNames _
      hcallee hchain hne hpoints
    have hno : b = false := by
      refine Bool.eq_false_iff.2 fun hyes => ?_
      rcases hiff.1 hyes with hmem | ⟨rule, hrule, -, hsuffix⟩
      · exact absurd hmem (by decide)
      · rw [List.mem_singleton.1 hrule] at hsuffix
        exact absurd hsuffix (by decide)
    rw [hb, hno]

end Program

end LiteralLint
