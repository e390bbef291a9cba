import Mathlib.Data.Finset.Basic
import Mathlib.Data.List.ReduceOption
import LiteralLint.Proofs.Comments
import LiteralLint.Proofs.ContextualType

/-!
# What names of types stand for

A name of a type is expanded by leaving its declarations out and resolving what it stands for. So a
name in its own expansion stays a reference, and a cycle of declarations is cut where it closes.

Cutting loses no literal. A path from an annotation to a literal may come to a name again, but from
the last time on it goes where the declarations of the name are not needed. So each literal that is
reached at all is reached without the declarations that are left out.

A resolver for a whole file does not leave declarations out but keeps the set of the names that it
is resolving. It puts a name into the set before it follows the name and takes it out after, so that
it returns with the set that it was called with, whatever it has resolved before.

## Main definitions

* `TypeAliases.Declares`: what a file declares under a name.
* `TypeAnnotation.Leads`: from an annotation to what it stands for or consists of.
* `TypeAnnotation.resolveWithin`: resolving with a set of names, to a depth.

## Main results

* `TypeAliases.lookup_ofTree`: the last declaration of a name counts.
* `TypeAnnotation.returns_resolve`: resolving with a set of names returns, with the set as it was.
* `TypeAnnotation.mem_resolve_iff`: the literals of a resolved type.
* `TypeAnnotation.resolve_reaches`: both, for the annotations of a file.
-/

namespace LiteralLint

/-! ## Declarations -/

namespace TypeAliases

/-- The declarations of types in a tree, in the order of the text. -/
def declarations (source : Bytes) (t : ParseTree) : List (Text × ParseTree) :=
  t.subtrees.filterMap (declaration? source)

/-- What a tree declares under a name: it says so last. -/
def Declares (source : Bytes) (root : ParseTree) (name : Text) (t : ParseTree) : Prop :=
  ∃ before after, declarations source root = before ++ (name, t) :: after ∧
    ∀ a ∈ after, a.1 ≠ name

mutual

/-- The declarations that are found are those of the tree, from the last to the first. -/
theorem ofTree_eq_reverse (source : Bytes) :
    ∀ t : ParseTree, ofTree source t = (declarations source t).reverse
  | .node c cs => by
      have hchildren := collectAll_eq_reverse source cs
      have hroot : declarations source (.node c cs) =
          (declaration? source (.node c cs)).toList ++
            (Tree.forestSubtrees cs).filterMap (declaration? source) := by
        rw [declarations, Tree.subtrees, List.filterMap_cons]
        cases declaration? source (.node c cs) <;> rfl
      rw [ofTree_eq, hroot, List.reverse_append]
      refine congr (congrArg _ hchildren) ?_
      cases declaration? source (.node c cs) <;> rfl

theorem collectAll_eq_reverse (source : Bytes) :
    ∀ cs : List ParseTree, collectAll source [] cs =
      ((Tree.forestSubtrees cs).filterMap (declaration? source)).reverse
  | [] => rfl
  | t :: rest => by
      rw [collectAll_cons, collectAll_eq_reverse source rest, ofTree_eq_reverse source t,
        Tree.forestSubtrees, List.filterMap_append, List.reverse_append, declarations]

end

/-- **The last declaration of a name counts.** -/
theorem lookup_ofTree {source : Bytes} {root t : ParseTree} {name : Text} :
    (ofTree source root).lookup name = some t ↔ Declares source root name t := by
  rw [List.lookup_eq_some_iff, ofTree_eq_reverse]
  constructor
  · rintro ⟨after, before, hsplit, hafter⟩
    refine ⟨before.reverse, after.reverse, ?_, fun a ha => ?_⟩
    · rw [List.reverse_eq_iff.1 hsplit, List.reverse_append, List.reverse_cons, List.append_assoc]
      rfl
    · exact fun hname => by simpa [hname] using hafter a (List.mem_reverse.1 ha)
  · rintro ⟨before, after, hsplit, hafter⟩
    refine ⟨after.reverse, before.reverse, by rw [hsplit]; simp, fun a ha => ?_⟩
    exact bne_iff_ne.2 (hafter a (List.mem_reverse.1 ha)).symm

/-! ### Names in progress -/

/-- The declarations of names that are not in a set. -/
def outside (resolving : Finset Text) (as : TypeAliases) : TypeAliases :=
  as.filter fun a => decide (a.1 ∉ resolving)

theorem outside_empty (as : TypeAliases) : as.outside ∅ = as :=
  List.filter_eq_self.2 fun a _ => by simp

theorem outside_insert (as : TypeAliases) (resolving : Finset Text) (name : Text) :
    as.outside (insert name resolving) = (as.outside resolving).without name := by
  unfold outside without
  rw [List.filter_filter]
  refine List.filter_congr fun a _ => ?_
  rw [Bool.eq_iff_iff, decide_eq_true_iff, Bool.and_eq_true, bne_iff_ne, decide_eq_true_iff,
    Finset.mem_insert, not_or]

theorem lookup_outside_of_mem {resolving : Finset Text} {name : Text} (as : TypeAliases)
    (h : name ∈ resolving) : (as.outside resolving).lookup name = none := by
  refine List.lookup_eq_none_iff.2 fun a ha => ?_
  have hout : a.1 ∉ resolving := by simpa using (List.mem_filter.1 ha).2
  simpa using fun hname : name = a.1 => hout (hname ▸ h)

theorem lookup_outside_of_notMem {resolving : Finset Text} {name : Text} (as : TypeAliases)
    (h : name ∉ resolving) : (as.outside resolving).lookup name = as.lookup name := by
  induction as with
  | nil => rfl
  | cons a rest ih =>
      obtain ⟨k, u⟩ := a
      simp only [outside, List.filter_cons] at ih ⊢
      by_cases hk : k ∉ resolving
      · rw [if_pos (decide_eq_true hk), List.lookup_cons, List.lookup_cons, ih]
      · have hne : (name == k) = false := beq_eq_false_iff_ne.2 fun hname => hk (hname ▸ h)
        rw [if_neg (by simpa using hk), List.lookup_cons, hne, ih]

theorem lookup_without_of_ne {name other : Text} (as : TypeAliases) (h : other ≠ name) :
    (as.without name).lookup other = as.lookup other := by
  have houtside := outside_insert as ∅ name
  rw [outside_empty] at houtside
  rw [← houtside]
  exact lookup_outside_of_notMem as (by simpa using h)

end TypeAliases

namespace TypeAnnotation

open Relation (ReflTransGen)

variable {source : Bytes}

/-! ## One construct -/

/-- The properties with the one that a member of an object type declares. -/
def withMember (source : Bytes) (declared : ParseTree → Option DeclaredType)
    (properties : List (Text × DeclaredType)) (m : ParseTree) : List (Text × DeclaredType) :=
  if m.type == "property_signature" then
    addProperty ((m.inField? "name").map (propertyKey source)) properties
      ((m.inField? "type").bind declared)
  else properties

theorem result_resolveNamed (as : TypeAliases) (cs : List ParseTree) :
    (resolveNamed source as cs).result =
      ((cs.filter ParseTree.named).map fun u => (resolve source as u).result).reduceOption := by
  induction cs with
  | nil => rw [resolveNamed]; rfl
  | cons c rest ih =>
      rw [resolveNamed]
      by_cases hnamed : c.named = true
      · rw [if_pos hnamed, List.filter_cons_of_pos hnamed, List.map_cons]
        show (resolve source as c).result.toList ++ _ = _
        rw [ih]
        cases (resolve source as c).result <;> rfl
      · rw [if_neg hnamed, List.filter_cons_of_neg hnamed, ih]

theorem result_resolveMembers (as : TypeAliases) (cs : List ParseTree)
    (before : List (Text × DeclaredType)) :
    (resolveMembers source as before cs).result =
      cs.foldl (withMember source fun u => (resolve source as u).result) before := by
  induction cs generalizing before with
  | nil => rw [resolveMembers]; rfl
  | cons m rest ih =>
      have hdeclared : (((m.inField? "type").map (resolve source as)).getD ⟨none, []⟩).result =
          (m.inField? "type").bind fun u => (resolve source as u).result := by
        cases m.inField? "type" <;> rfl
      rw [resolveMembers_cons, List.foldl_cons, withMember]
      by_cases hproperty : (m.type == "property_signature") = true
      · rw [if_pos hproperty, if_pos hproperty, ← hdeclared]
        exact ih _
      · rw [if_neg hproperty, if_neg hproperty]
        exact ih _

theorem result_named (name : Text) (r : Resolution (Option DeclaredType)) :
    (r.named name).result = some (r.result.getD (.reference (some name))) := by
  unfold Resolution.named
  cases r.result <;> rfl

/-- The type of a construct, from the types of the constructs that are read for it. -/
theorem result_resolve (as : TypeAliases) (t : ParseTree) :
    (resolve source as t).result =
      if isWrapper t.type then t.namedChildren.head?.bind fun u => (resolve source as u).result
      else if t.type == "literal_type" then some (literalType source t)
      else if t.type == "union_type" then
        some (.union (t.namedChildren.map fun u => (resolve source as u).result).reduceOption)
      else if t.type == "intersection_type" then
        some (.intersection (t.namedChildren.map fun u => (resolve source as u).result).reduceOption)
      else if t.type == "object_type" || t.type == "interface_body" then
        some (.object
          (t.children.foldl (withMember source fun u => (resolve source as u).result) []))
      else if t.type == "predefined_type" then some (.keyword (some (t.text source)))
      else if t.type == "type_identifier" then
        some (match as.lookup (t.text source) with
          | none => .reference (some (t.text source))
          | some target => (resolve source (as.without (t.text source)) target).result.getD
              (.reference (some (t.text source))))
      else some (.other (some (t.text source))) := by
  by_cases hname : t.type = "type_identifier"
  · rw [resolve_name as hname]
    simp only [hname, isWrapper, String.reduceBEq, Bool.or_self, Bool.false_eq_true, if_false,
      if_true]
    cases as.lookup (t.text source) with
    | none => rfl
    | some target => exact result_named _ _
  · cases t with
    | node c cs =>
        have hother : (c.type == "type_identifier") = false := beq_eq_false_iff_ne.2 hname
        rw [resolve]
        simp only [ParseTree.type, Tree.label, hother, Bool.false_eq_true, if_false]
        split
        · rw [resolveFirst_eq, ParseTree.namedChildren, List.head?_filter]
          show _ = (cs.find? ParseTree.named).bind _
          cases cs.find? ParseTree.named <;> rfl
        split
        · rfl
        split
        · exact congrArg (fun ts => some (DeclaredType.union ts)) (result_resolveNamed as cs)
        split
        · exact congrArg (fun ts => some (DeclaredType.intersection ts)) (result_resolveNamed as cs)
        split
        · exact congrArg (fun ps => some (DeclaredType.object ps)) (result_resolveMembers as cs [])
        split <;> rfl

/-! ## Resolving with a set of names -/

/-- Computations with the set of the names that are being resolved. They fail if they go deeper than
they may. -/
abbrev Resolving (α : Type) := StateT (Finset Text) Option α

/-- The type of a construct that may be missing. -/
def resolvePresent (convert : ParseTree → Resolving (Option DeclaredType)) :
    Option ParseTree → Resolving (Option DeclaredType)
  | none => pure none
  | some t => convert t

/-- The properties with the one that a member of an object type declares. -/
def resolveMember (source : Bytes) (convert : ParseTree → Resolving (Option DeclaredType))
    (properties : List (Text × DeclaredType)) (m : ParseTree) :
    Resolving (List (Text × DeclaredType)) :=
  if m.type == "property_signature" then do
    let declared ← resolvePresent convert (m.inField? "type")
    return addProperty ((m.inField? "name").map (propertyKey source)) properties declared
  else return properties

/-- What a name stands for. While that is resolved, the name is in the set. -/
def resolveReference (aliases : TypeAliases)
    (convert : ParseTree → Resolving (Option DeclaredType)) (name : Text) :
    Resolving DeclaredType :=
  match aliases.lookup name with
  | none => return .reference (some name)
  | some target => do
    if name ∈ (← get) then return .reference (some name)
    modify (insert name)
    let declared ← convert target
    modify fun resolving => resolving.erase name
    return declared.getD (.reference (some name))

/-- The type of a construct, by a way to resolve the constructs that are read for it. -/
def resolveBy (source : Bytes) (aliases : TypeAliases)
    (convert : ParseTree → Resolving (Option DeclaredType)) (t : ParseTree) :
    Resolving (Option DeclaredType) :=
  if isWrapper t.type then resolvePresent convert t.namedChildren.head?
  else if t.type == "literal_type" then return some (literalType source t)
  else if t.type == "union_type" then do
    return some (.union (← t.namedChildren.mapM convert).reduceOption)
  else if t.type == "intersection_type" then do
    return some (.intersection (← t.namedChildren.mapM convert).reduceOption)
  else if t.type == "object_type" || t.type == "interface_body" then do
    return some (.object (← t.children.foldlM (resolveMember source convert) []))
  else if t.type == "predefined_type" then return some (.keyword (some (t.text source)))
  else if t.type == "type_identifier" then do
    return some (← resolveReference aliases convert (t.text source))
  else return some (.other (some (t.text source)))

/-- The type of a construct, resolved to a depth. -/
def resolveWithin (source : Bytes) (aliases : TypeAliases) :
    Nat → ParseTree → Resolving (Option DeclaredType)
  | 0, _ => failure
  | depth + 1, t => resolveBy source aliases (resolveWithin source aliases depth) t

/-- From some depth on, a computation returns a value, with the set of names as it was. -/
def Returns {α : Type} (m : Nat → Resolving α) (resolving : Finset Text) (a : α) : Prop :=
  ∃ bound, ∀ depth, bound ≤ depth → (m depth).run resolving = some (a, resolving)

section Returns

variable {α β : Type} {resolving : Finset Text}

theorem returns_pure (a : α) : Returns (fun _ => pure a) resolving a := ⟨0, fun _ _ => rfl⟩

theorem Returns.bind {m : Nat → Resolving α} {next : Nat → α → Resolving β} {a : α} {b : β}
    (hm : Returns m resolving a) (hnext : Returns (fun depth => next depth a) resolving b) :
    Returns (fun depth => m depth >>= next depth) resolving b := by
  obtain ⟨bound, hbound⟩ := hm
  obtain ⟨bound', hbound'⟩ := hnext
  refine ⟨max bound bound', fun depth hdepth => ?_⟩
  rw [StateT.run_bind, hbound depth (le_trans (le_max_left ..) hdepth)]
  exact hbound' depth (le_trans (le_max_right ..) hdepth)

theorem returns_mapM {f : Nat → ParseTree → Resolving α} {g : ParseTree → α} {ts : List ParseTree}
    (h : ∀ t ∈ ts, Returns (fun depth => f depth t) resolving (g t)) :
    Returns (fun depth => ts.mapM (f depth)) resolving (ts.map g) := by
  induction ts with
  | nil =>
      simp only [List.mapM_nil]
      exact returns_pure []
  | cons t rest ih =>
      have hrest := ih fun u hu => h u (List.mem_cons_of_mem t hu)
      simp only [List.mapM_cons]
      exact (h t List.mem_cons_self).bind (hrest.bind (returns_pure _))

theorem returns_foldlM {f : Nat → β → ParseTree → Resolving β} {g : β → ParseTree → β}
    {ts : List ParseTree} (b : β)
    (h : ∀ t ∈ ts, ∀ b, Returns (fun depth => f depth b t) resolving (g b t)) :
    Returns (fun depth => ts.foldlM (f depth) b) resolving (ts.foldl g b) := by
  induction ts generalizing b with
  | nil =>
      simp only [List.foldlM_nil]
      exact returns_pure b
  | cons t rest ih =>
      have hrest := ih (g b t) fun u hu => h u (List.mem_cons_of_mem t hu)
      simp only [List.foldlM_cons]
      exact (h t List.mem_cons_self b).bind hrest

theorem returns_resolvePresent {convert : Nat → ParseTree → Resolving (Option DeclaredType)}
    {g : ParseTree → Option DeclaredType} {o : Option ParseTree}
    (h : ∀ t, o = some t → Returns (fun depth => convert depth t) resolving (g t)) :
    Returns (fun depth => resolvePresent (convert depth) o) resolving (o.bind g) := by
  cases o with
  | none => exact returns_pure none
  | some t => exact h t rfl

theorem returns_resolveMember {convert : Nat → ParseTree → Resolving (Option DeclaredType)}
    {g : ParseTree → Option DeclaredType} {m : ParseTree}
    (h : m.type = "property_signature" →
      ∀ t, m.inField? "type" = some t → Returns (fun depth => convert depth t) resolving (g t))
    (properties : List (Text × DeclaredType)) :
    Returns (fun depth => resolveMember source (convert depth) properties m) resolving
      (withMember source g properties m) := by
  unfold resolveMember withMember
  by_cases hproperty : (m.type == "property_signature") = true
  · simp only [if_pos hproperty]
    exact (returns_resolvePresent (h (eq_of_beq hproperty))).bind (returns_pure _)
  · simp only [if_neg hproperty]
    exact returns_pure properties

/-- A name that is not in the set is put into the set and taken out again. -/
theorem returns_resolveReference {convert : Nat → ParseTree → Resolving (Option DeclaredType)}
    {aliases : TypeAliases} {name : Text} {target : ParseTree} {declared : Option DeclaredType}
    (hlookup : aliases.lookup name = some target) (hname : name ∉ resolving)
    (h : Returns (fun depth => convert depth target) (insert name resolving) declared) :
    Returns (fun depth => resolveReference aliases (convert depth) name) resolving
      (declared.getD (.reference (some name))) := by
  obtain ⟨bound, hbound⟩ := h
  refine ⟨bound, fun depth hdepth => ?_⟩
  have htarget := hbound depth hdepth
  unfold resolveReference
  rw [hlookup]
  simp only [StateT.run_bind, StateT.run_get, StateT.run_modify, StateT.run_pure, htarget,
    Option.pure_def, Option.bind_eq_bind, Option.bind_some, if_neg hname,
    Finset.erase_insert hname]

/-- A name in the set stays a reference, and so does one that nothing declares. -/
theorem returns_reference {convert : Nat → ParseTree → Resolving (Option DeclaredType)}
    {aliases : TypeAliases} {name : Text}
    (h : (aliases.outside resolving).lookup name = none) :
    Returns (fun depth => resolveReference aliases (convert depth) name) resolving
      (.reference (some name)) := by
  unfold resolveReference
  cases hlookup : aliases.lookup name with
  | none => exact returns_pure _
  | some target =>
      have hname : name ∈ resolving := by
        by_contra hout
        rw [TypeAliases.lookup_outside_of_notMem aliases hout, hlookup] at h
        cases h
      refine ⟨0, fun depth _ => ?_⟩
      simp only [StateT.run_bind, StateT.run_get, StateT.run_pure, Option.pure_def,
        Option.bind_eq_bind, Option.bind_some, if_pos hname]

end Returns

/-- **Resolving with a set of names** returns what resolving with the declarations of the other
names gives, and leaves the set as it was. -/
theorem returns_resolve (aliases : TypeAliases) (resolving : Finset Text) (t : ParseTree) :
    Returns (fun depth => resolveWithin source aliases depth t) resolving
      (resolve source (aliases.outside resolving) t).result := by
  -- One more level is enough for a construct.
  suffices hstep : Returns
      (fun depth => resolveBy source aliases (resolveWithin source aliases depth) t) resolving
      (resolve source (aliases.outside resolving) t).result by
    obtain ⟨bound, hbound⟩ := hstep
    refine ⟨bound + 1, fun depth hdepth => ?_⟩
    obtain ⟨depth, rfl⟩ : ∃ d, depth = d + 1 := ⟨depth - 1, by omega⟩
    exact hbound depth (by omega)
  have hpart : ∀ u, ParseTree.StandsIn u t → Returns (fun depth => resolveWithin source aliases depth u)
      resolving (resolve source (aliases.outside resolving) u).result := by
    intro u hu
    have hsize := hu.size_lt
    exact returns_resolve aliases resolving u
  have hnamed : ∀ u ∈ t.namedChildren, Returns
      (fun depth => resolveWithin source aliases depth u) resolving
      (resolve source (aliases.outside resolving) u).result :=
    fun u hu => hpart u (Or.inl (List.mem_filter.1 hu).1)
  rw [result_resolve]
  unfold resolveBy
  split
  · exact returns_resolvePresent fun u hu => hnamed u (List.mem_of_head? hu)
  split
  · exact returns_pure _
  split
  · exact (returns_mapM hnamed).bind (returns_pure _)
  split
  · exact (returns_mapM hnamed).bind (returns_pure _)
  split
  · refine Returns.bind (returns_foldlM [] fun m hm properties => ?_) (returns_pure _)
    refine returns_resolveMember (fun _ u hu => hpart u (Or.inr ⟨m, hm, ?_⟩)) properties
    exact List.mem_of_find?_eq_some hu
  split
  · exact returns_pure _
  split
  · refine Returns.bind ?_ (returns_pure _)
    cases hlookup : (aliases.outside resolving).lookup (t.text source) with
    | none => exact returns_reference hlookup
    | some target =>
        have hname : t.text source ∉ resolving := fun hmem => by
          rw [TypeAliases.lookup_outside_of_mem aliases hmem] at hlookup
          cases hlookup
        have hdeclared := hlookup
        rw [TypeAliases.lookup_outside_of_notMem aliases hname] at hdeclared
        have hshorter : (aliases.outside (insert (t.text source) resolving)).length <
            (aliases.outside resolving).length := by
          rw [TypeAliases.outside_insert]
          exact TypeAliases.length_without_lt hlookup
        rw [← TypeAliases.outside_insert]
        exact returns_resolveReference hdeclared hname
          (returns_resolve aliases (insert (t.text source) resolving) target)
  · exact returns_pure _
termination_by ((aliases.outside resolving).length, t.size)
decreasing_by
  · exact Prod.Lex.right _ hsize
  · exact Prod.Lex.left _ _ hshorter

/-! ## Literals that are reached -/

/-- From an annotation to what it stands for, or to what it is the union of. -/
inductive Leads (source : Bytes) (declares : Text → ParseTree → Prop) : ParseTree → ParseTree → Prop
  | inside {t u : ParseTree} (htype : isWrapper t.type = true)
      (hfirst : t.namedChildren.head? = some u) : Leads source declares t u
  | member {t u : ParseTree} (htype : t.type = "union_type") (hmember : u ∈ t.namedChildren) :
      Leads source declares t u
  | name {t u : ParseTree} (htype : t.type = "type_identifier")
      (hdeclares : declares (t.text source) u) : Leads source declares t u

/-- An annotation is the literal type of a string. -/
def IsStringType (source : Bytes) (t : ParseTree) (v : Text) : Prop :=
  t.type = "literal_type" ∧ ∃ u, t.namedChildren.head? = some u ∧ u.type = "string" ∧
    v = StringLiteral.value (u.text source)

/-- An annotation leads to the literal type of a string in any number of steps. -/
def Reaches (source : Bytes) (declares : Text → ParseTree → Prop) (t : ParseTree) (v : Text) :
    Prop :=
  ∃ u, ReflTransGen (Leads source declares) t u ∧ IsStringType source u v

/-- The string literals of a type, if there is one. -/
def literalsOf (declared : Option DeclaredType) : List Text :=
  (declared.map DeclaredType.stringLiterals).getD []

/-- What is found under a name. -/
def Finds (as : TypeAliases) (name : Text) (t : ParseTree) : Prop := as.lookup name = some t

section Reaches

variable {declares : Text → ParseTree → Prop} {t : ParseTree} {v : Text}

theorem reaches_iff : Reaches source declares t v ↔
    IsStringType source t v ∨ ∃ u, Leads source declares t u ∧ Reaches source declares u v := by
  constructor
  · rintro ⟨u, hpath, hu⟩
    rcases ReflTransGen.cases_head hpath with rfl | ⟨w, hlead, hpath⟩
    · exact Or.inl hu
    · exact Or.inr ⟨w, hlead, u, hpath, hu⟩
  · rintro (ht | ⟨w, hlead, u, hpath, hu⟩)
    · exact ⟨t, .refl, ht⟩
    · exact ⟨u, .head hlead hpath, hu⟩

theorem leads_iff_of_wrapper {u : ParseTree} (h : isWrapper t.type = true) :
    Leads source declares t u ↔ t.namedChildren.head? = some u := by
  refine ⟨fun hlead => ?_, .inside h⟩
  cases hlead with
  | inside _ hfirst => exact hfirst
  | member htype _ => exact absurd h (by rw [htype]; decide)
  | name htype _ => exact absurd h (by rw [htype]; decide)

theorem leads_iff_of_union {u : ParseTree} (h : t.type = "union_type") :
    Leads source declares t u ↔ u ∈ t.namedChildren := by
  refine ⟨fun hlead => ?_, .member h⟩
  cases hlead with
  | inside htype _ => exact absurd htype (by rw [h]; decide)
  | member _ hmember => exact hmember
  | name htype _ => exact absurd (h.symm.trans htype) (by decide)

theorem leads_iff_of_name {u : ParseTree} (h : t.type = "type_identifier") :
    Leads source declares t u ↔ declares (t.text source) u := by
  refine ⟨fun hlead => ?_, .name h⟩
  cases hlead with
  | inside htype _ => exact absurd htype (by rw [h]; decide)
  | member htype _ => exact absurd (h.symm.trans htype) (by decide)
  | name _ hdeclares => exact hdeclares

/-- A construct of another kind leads nowhere. -/
theorem not_leads {u : ParseTree} (hwrapper : ¬isWrapper t.type = true)
    (hunion : t.type ≠ "union_type") (hname : t.type ≠ "type_identifier") :
    ¬Leads source declares t u := by
  intro hlead
  cases hlead with
  | inside htype _ => exact hwrapper htype
  | member htype _ => exact hunion htype
  | name htype _ => exact hname htype

/-- What is reached from a construct that is no literal is reached from what it leads to. -/
theorem reaches_iff_of_ne (h : t.type ≠ "literal_type") :
    Reaches source declares t v ↔ ∃ u, Leads source declares t u ∧ Reaches source declares u v := by
  rw [reaches_iff]
  exact or_iff_right fun hstring => h hstring.1

theorem Leads.mono {declares' : Text → ParseTree → Prop}
    (h : ∀ name u, declares name u → declares' name u) {u : ParseTree}
    (hlead : Leads source declares t u) : Leads source declares' t u := by
  cases hlead with
  | inside htype hfirst => exact .inside htype hfirst
  | member htype hmember => exact .member htype hmember
  | name htype hdeclares => exact .name htype (h _ _ hdeclares)

theorem Reaches.mono {declares' : Text → ParseTree → Prop}
    (h : ∀ name u, declares name u → declares' name u) (hreach : Reaches source declares t v) :
    Reaches source declares' t v := by
  obtain ⟨u, hpath, hu⟩ := hreach
  exact ⟨u, ReflTransGen.mono (fun _ _ hlead => Leads.mono h hlead) _ _ hpath, hu⟩

end Reaches

/-- **Cutting loses nothing.** What is reached with the declarations of a name is reached without
them, from the same construct or from what the name stands for. -/
theorem reaches_without {as : TypeAliases} {name : Text} {target t : ParseTree} {v : Text}
    (htarget : as.lookup name = some target) (h : Reaches source (Finds as) t v) :
    Reaches source (Finds (as.without name)) t v ∨
      Reaches source (Finds (as.without name)) target v := by
  obtain ⟨u, hpath, hu⟩ := h
  induction hpath using ReflTransGen.head_induction_on with
  | refl => exact Or.inl ⟨u, .refl, hu⟩
  | head hlead _ ih =>
      rcases ih with hreach | hreach
      · -- Only a step from the name itself is lost, and that one goes to its target.
        cases hlead with
        | inside htype hfirst => exact Or.inl (reaches_iff.2 (Or.inr ⟨_, .inside htype hfirst, hreach⟩))
        | member htype hmember =>
            exact Or.inl (reaches_iff.2 (Or.inr ⟨_, .member htype hmember, hreach⟩))
        | name htype hfinds =>
            rename_i w x _
            by_cases hname : w.text source = name
            · rw [Finds, hname, htarget, Option.some_inj] at hfinds
              exact Or.inr (hfinds ▸ hreach)
            · refine Or.inl (reaches_iff.2 (Or.inr ⟨x, .name htype ?_, hreach⟩))
              rw [Finds, TypeAliases.lookup_without_of_ne as hname]
              exact hfinds
      · exact Or.inr hreach

theorem mem_literalsOf_literalType {t : ParseTree} {v : Text} (htype : t.type = "literal_type") :
    v ∈ literalsOf (some (literalType source t)) ↔ IsStringType source t v := by
  unfold literalType IsStringType
  cases hnamed : t.namedChildren with
  | nil => simp [literalsOf, DeclaredType.stringLiterals]
  | cons u rest =>
      by_cases hstring : u.type = "string"
      · simp [htype, hstring, literalValue, literalsOf, DeclaredType.stringLiterals]
      · have hnone : literalsOf (some (.literal (literalValue source u))) = [] := by
          unfold literalValue
          rw [if_neg (by simpa using hstring)]
          split
          · rfl
          split
          · rfl
          split
          · rfl
          · unfold NumberLiteral.realValue
            split <;> rfl
        simp [hnone, hstring]

theorem mem_literalsOf_union {ts : List (Option DeclaredType)} {v : Text} :
    v ∈ literalsOf (some (.union ts.reduceOption)) ↔ ∃ o ∈ ts, v ∈ literalsOf o := by
  show v ∈ DeclaredType.stringLiterals (.union ts.reduceOption) ↔ _
  rw [DeclaredType.stringLiterals, DeclaredType.mem_memberLiterals]
  constructor
  · rintro ⟨t, ht, hv⟩
    exact ⟨some t, List.reduceOption_mem_iff.1 ht, hv⟩
  · rintro ⟨o, ho, hv⟩
    cases o with
    | none => exact nomatch hv
    | some t => exact ⟨t, List.reduceOption_mem_iff.2 ho, hv⟩

/-- **The literals of a resolved type** are those that the annotation leads to. -/
theorem mem_resolve_iff (as : TypeAliases) (t : ParseTree) (v : Text) :
    v ∈ literalsOf (resolve source as t).result ↔ Reaches source (Finds as) t v := by
  have hnamed : ∀ u ∈ t.namedChildren,
      (v ∈ literalsOf (resolve source as u).result ↔ Reaches source (Finds as) u v) := by
    intro u hu
    have hsize : u.size < t.size := Tree.size_lt_of_mem_children (List.mem_filter.1 hu).1
    exact mem_resolve_iff as u v
  rw [result_resolve]
  by_cases hwrapper : isWrapper t.type = true
  · have hne : t.type ≠ "literal_type" := fun heq => by
      rw [heq] at hwrapper
      exact absurd hwrapper (by decide)
    rw [if_pos hwrapper, reaches_iff_of_ne hne]
    simp only [leads_iff_of_wrapper hwrapper]
    cases hfirst : t.namedChildren.head? with
    | none => exact ⟨nofun, fun ⟨_, hnone, _⟩ => nomatch hnone⟩
    | some u =>
        simp only [Option.some_inj, exists_eq_left']
        exact hnamed u (List.mem_of_head? hfirst)
  rw [if_neg hwrapper]
  by_cases hliteral : t.type = "literal_type"
  · rw [if_pos (beq_iff_eq.2 hliteral), mem_literalsOf_literalType hliteral, reaches_iff]
    refine (or_iff_left ?_).symm
    rintro ⟨u, hlead, -⟩
    exact not_leads hwrapper (by simp [hliteral]) (by simp [hliteral]) hlead
  rw [if_neg (mt beq_iff_eq.1 hliteral), reaches_iff_of_ne hliteral]
  by_cases hunion : t.type = "union_type"
  · rw [if_pos (beq_iff_eq.2 hunion), mem_literalsOf_union]
    simp only [leads_iff_of_union hunion]
    constructor
    · rintro ⟨o, ho, hv⟩
      obtain ⟨u, hu, rfl⟩ := List.mem_map.1 ho
      exact ⟨u, hu, (hnamed u hu).1 hv⟩
    · rintro ⟨u, hu, hreach⟩
      exact ⟨_, List.mem_map_of_mem hu, (hnamed u hu).2 hreach⟩
  rw [if_neg (mt beq_iff_eq.1 hunion)]
  by_cases hname : t.type = "type_identifier"
  · simp only [leads_iff_of_name hname, hname, String.reduceBEq, Bool.or_self, Bool.false_eq_true,
      if_false, if_true, Finds]
    cases hlookup : as.lookup (t.text source) with
    | none => exact ⟨nofun, fun ⟨_, hnone, _⟩ => nomatch hnone⟩
    | some target =>
        have hshorter := TypeAliases.length_without_lt hlookup
        have htarget := mem_resolve_iff (as.without (t.text source)) target v
        have hdeclared : ∀ o : Option DeclaredType,
            v ∈ literalsOf (some (o.getD (.reference (some (t.text source))))) ↔
              v ∈ literalsOf o := fun o => by cases o <;> rfl
        rw [hdeclared, htarget]
        simp only [Option.some_inj, exists_eq_left']
        exact ⟨fun hreach => hreach.mono fun _ _ => TypeAliases.lookup_of_without,
          fun hreach => or_self_iff.1 (reaches_without hlookup hreach)⟩
  · refine iff_of_false ?_ fun ⟨u, hlead, _⟩ => not_leads hwrapper hunion hname hlead
    rw [if_neg (mt beq_iff_eq.1 hname)]
    repeat' split
    all_goals exact nofun
termination_by (as.length, t.size)
decreasing_by
  · exact Prod.Lex.right _ hsize
  · exact Prod.Lex.left _ _ hshorter

/-! ## The annotations of a file -/

theorem finds_ofTree (source : Bytes) (root : ParseTree) :
    Finds (TypeAliases.ofTree source root) = TypeAliases.Declares source root :=
  funext fun _ => funext fun _ => propext TypeAliases.lookup_ofTree

/-- **Cutting cycles of names loses and invents no literal.** For any names in progress, the type of
an annotation is resolved at some depth, and the names in progress are then those from before. With
none in progress the type is the same after any other annotations. Its string literals are those of
the literal types to which the annotation leads by the last declarations of names. -/
theorem resolve_reaches (source : Bytes) (root t : ParseTree) :
    let aliases := TypeAliases.ofTree source root
    (∀ resolving : Finset Text, ∃ declared,
      Returns (fun depth => resolveWithin source aliases depth t) resolving declared) ∧
    (∀ earlier : List ParseTree,
      Returns
        (fun depth => do
          let _ ← earlier.mapM (resolveWithin source aliases depth)
          resolveWithin source aliases depth t)
        ∅ (resolve source aliases t).result) ∧
    ∀ v, v ∈ literalsOf (resolve source aliases t).result ↔
      Reaches source (TypeAliases.Declares source root) t v := by
  intro aliases
  refine ⟨fun resolving => ⟨_, returns_resolve aliases resolving t⟩, fun earlier => ?_, fun v => ?_⟩
  · have hearlier : Returns (fun depth => earlier.mapM (resolveWithin source aliases depth)) ∅
        (earlier.map fun u => (resolve source (aliases.outside ∅) u).result) :=
      returns_mapM fun u _ => returns_resolve aliases ∅ u
    have ht : Returns (fun depth => resolveWithin source aliases depth t) ∅
        (resolve source (aliases.outside ∅) t).result :=
      returns_resolve aliases ∅ t
    rw [TypeAliases.outside_empty] at ht
    exact hearlier.bind ht
  · rw [mem_resolve_iff, finds_ofTree]

end TypeAnnotation

end LiteralLint
