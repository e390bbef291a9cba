import Mathlib.Logic.Relation
import LiteralLint.Proofs.Arena
import LiteralLint.Source.TypeAnnotation

/-!
# Parse trees without comments

A comment can stand between any two constructs. To take the comments out of a parse tree leaves
every other construct as it is, with its type, field and place, and so leaves everything that is
read off a single construct: its text, its span, what it is called.

What is read off the children of a construct changes only where a comment is taken for a part: as
the child that fills a field, or as the first named child where that one stands for the whole. For
type annotations this is said by a relation between a construct and the constructs that are read for
it. An annotation from which no comment is reached declares the same type with and without comments.

## Main definitions

* `ParseTree.withoutComments`: a parse tree without comments.
* `ParseTree.FieldsClear`: no comment fills a field.
* `TypeAnnotation.Reads`: what is read for the type of a construct.

## Main results

* `TypeAliases.ofTree_withoutComments`: the types that a file declares.
* `TypeAnnotation.resolve_withoutComments`: the type that an annotation declares.
-/

namespace LiteralLint

open LiteralLint.Tree

namespace ParseTree

/-- Whether a construct is a comment. -/
def isComment (t : ParseTree) : Bool := t.type == "comment" || t.type == "html_comment"

mutual

/-- A parse tree without the comments below its root. -/
def withoutComments : ParseTree → ParseTree
  | .node c cs => .node c (listWithoutComments cs)

/-- Some parse trees without the comments among and below them. -/
def listWithoutComments : List ParseTree → List ParseTree
  | [] => []
  | t :: rest =>
    if isComment t then listWithoutComments rest
    else withoutComments t :: listWithoutComments rest

end

/-! ## What stays -/

@[simp] theorem label_withoutComments (t : ParseTree) : (withoutComments t).label = t.label := by
  cases t
  rfl

@[simp] theorem type_withoutComments (t : ParseTree) : type (withoutComments t) = type t := by
  rw [type, label_withoutComments, type]

@[simp] theorem named_withoutComments (t : ParseTree) : named (withoutComments t) = named t := by
  rw [named, label_withoutComments, named]

@[simp] theorem field_withoutComments (t : ParseTree) : field (withoutComments t) = field t := by
  rw [field, label_withoutComments, field]

@[simp] theorem text_withoutComments (source : Bytes) (t : ParseTree) :
    text source (withoutComments t) = text source t := by
  rw [text, label_withoutComments, text]

@[simp] theorem span_withoutComments (source : Bytes) (t : ParseTree) :
    span source (withoutComments t) = span source t := by
  rw [span, label_withoutComments, span]

theorem children_withoutComments (t : ParseTree) :
    (withoutComments t).children = listWithoutComments t.children := by
  cases t
  rfl

/-! ## Parts of a construct -/

theorem listWithoutComments_cons {c : ParseTree} (h : isComment c = false)
    (rest : List ParseTree) :
    listWithoutComments (c :: rest) = withoutComments c :: listWithoutComments rest := by
  rw [listWithoutComments, h]
  rfl

theorem listWithoutComments_eq (cs : List ParseTree) :
    listWithoutComments cs = (cs.filter fun c => !isComment c).map withoutComments := by
  induction cs with
  | nil => rfl
  | cons c rest ih =>
      rw [listWithoutComments]
      by_cases hc : isComment c = true
      · rw [if_pos hc, ih, List.filter_cons_of_neg (by simp [hc])]
      · rw [if_neg hc, ih, List.filter_cons_of_pos (by simp [hc]), List.map_cons]

theorem listWithoutComments_of_forall {cs : List ParseTree} (h : ∀ c ∈ cs, isComment c = false) :
    listWithoutComments cs = cs.map withoutComments := by
  have hall : (cs.filter fun c => !isComment c) = cs :=
    List.filter_eq_self.2 fun c hc => by rw [h c hc]; rfl
  rw [listWithoutComments_eq, hall]

theorem toList_map_withoutComments {o : Option ParseTree}
    (h : ∀ c, o = some c → isComment c = false) :
    (o.map withoutComments).toList = listWithoutComments o.toList := by
  cases o with
  | none => rfl
  | some c =>
      rw [listWithoutComments_of_forall fun d hd => h d (Option.mem_toList.1 hd)]
      rfl

/-- The first child with a property is found without the comments, if it is none. -/
theorem find?_listWithoutComments {p : ParseTree → Bool} (hp : ∀ c, p (withoutComments c) = p c)
    {cs : List ParseTree} (hclear : ∀ c, cs.find? p = some c → isComment c = false) :
    (listWithoutComments cs).find? p = (cs.find? p).map withoutComments := by
  induction cs with
  | nil => rfl
  | cons c rest ih =>
      by_cases hpc : p c = true
      · have hc : isComment c = false := hclear c (List.find?_cons_of_pos hpc)
        rw [listWithoutComments_cons hc, List.find?_cons_of_pos hpc,
          List.find?_cons_of_pos (by rw [hp, hpc]), Option.map_some]
      · have hrest := ih fun d hd => hclear d (by rw [List.find?_cons_of_neg hpc]; exact hd)
        rw [listWithoutComments, List.find?_cons_of_neg hpc, ← hrest]
        by_cases hc : isComment c = true
        · rw [if_pos hc]
        · rw [if_neg hc, List.find?_cons_of_neg (by rw [hp]; exact hpc)]

theorem filter_listWithoutComments {p : ParseTree → Bool} (hp : ∀ c, p (withoutComments c) = p c)
    (cs : List ParseTree) :
    (listWithoutComments cs).filter p = listWithoutComments (cs.filter p) := by
  rw [listWithoutComments_eq, listWithoutComments_eq, List.filter_map, List.filter_filter,
    List.filter_filter]
  have hsame : p ∘ withoutComments = p := funext hp
  rw [hsame]
  simp only [Bool.and_comm]

/-- Children of which none is a comment. -/
theorem filter_listWithoutComments_eq_map {p : ParseTree → Bool}
    (hp : ∀ c, p (withoutComments c) = p c) (hclear : ∀ c, p c = true → isComment c = false)
    (cs : List ParseTree) :
    (listWithoutComments cs).filter p = (cs.filter p).map withoutComments := by
  rw [filter_listWithoutComments hp]
  exact listWithoutComments_of_forall fun c hc => hclear c (List.mem_filter.1 hc).2

theorem any_listWithoutComments {p : ParseTree → Bool} (hp : ∀ c, p (withoutComments c) = p c)
    (hclear : ∀ c, p c = true → isComment c = false) (cs : List ParseTree) :
    (listWithoutComments cs).any p = cs.any p := by
  induction cs with
  | nil => rfl
  | cons c rest ih =>
      rw [listWithoutComments, List.any_cons, ← ih]
      by_cases hc : isComment c = true
      · have hpc : p c = false := Bool.eq_false_iff.2 fun hpc => by
          rw [hclear c hpc] at hc
          cases hc
        rw [if_pos hc, hpc, Bool.false_or]
      · rw [if_neg hc, List.any_cons, hp]

theorem head?_listWithoutComments {cs : List ParseTree}
    (hclear : ∀ c, cs.head? = some c → isComment c = false) :
    (listWithoutComments cs).head? = cs.head?.map withoutComments := by
  cases cs with
  | nil => rfl
  | cons c rest =>
      have hc : isComment c = false := hclear c rfl
      rw [listWithoutComments_cons hc]
      rfl

theorem namedChildren_withoutComments (t : ParseTree) :
    (withoutComments t).namedChildren = listWithoutComments t.namedChildren := by
  rw [namedChildren, children_withoutComments, filter_listWithoutComments named_withoutComments]
  rfl

/-- No comment is the child that fills a field. -/
def FieldsClear (t : ParseTree) : Prop :=
  ∀ name c, t.inField? name = some c → isComment c = false

theorem fieldsClear_of_forall {t : ParseTree}
    (h : ∀ c ∈ t.children, field c ≠ none → isComment c = false) : FieldsClear t := by
  intro name c hc
  unfold inField? at hc
  have hfield := List.find?_some hc
  refine h c (List.mem_of_find?_eq_some hc) ?_
  rw [eq_of_beq hfield]
  exact Option.some_ne_none name

theorem inField?_withoutComments {t : ParseTree} (h : FieldsClear t) (name : String) :
    (withoutComments t).inField? name = (t.inField? name).map withoutComments := by
  rw [inField?, children_withoutComments]
  exact find?_listWithoutComments (fun c => by rw [field_withoutComments]) (h name)

theorem fieldText?_withoutComments {t : ParseTree} (h : FieldsClear t) (source : Bytes)
    (name : String) : (withoutComments t).fieldText? source name = t.fieldText? source name := by
  rw [fieldText?, inField?_withoutComments h, Option.map_map, fieldText?]
  have htext : text source ∘ withoutComments = text source :=
    funext fun c => text_withoutComments source c
  rw [htext]

/-- A construct that stands in another, at a depth of one or two. -/
def StandsIn (u t : ParseTree) : Prop := u ∈ t.children ∨ ∃ c ∈ t.children, u ∈ c.children

theorem StandsIn.size_lt {u t : ParseTree} (h : StandsIn u t) : u.size < t.size := by
  rcases h with hu | ⟨c, hc, hu⟩
  · exact size_lt_of_mem_children hu
  · exact Nat.lt_trans (size_lt_of_mem_children hu) (size_lt_of_mem_children hc)

theorem StandsIn.everywhere {P : Construct → List ParseTree → Prop} {u t : ParseTree}
    (h : StandsIn u t) (ht : t.Everywhere P) : u.Everywhere P := by
  rcases h with hu | ⟨c, hc, hu⟩
  · exact ht.of_mem_children hu
  · exact (ht.of_mem_children hc).of_mem_children hu

end ParseTree

open ParseTree

/-! ## Declared types -/

namespace TypeAliases

/-- Declarations without the comments in them. -/
def withoutComments (as : TypeAliases) : TypeAliases :=
  as.map fun a => (a.1, ParseTree.withoutComments a.2)

theorem lookup_withoutComments (as : TypeAliases) (name : Text) :
    (withoutComments as).lookup name = (as.lookup name).map ParseTree.withoutComments := by
  induction as with
  | nil => rfl
  | cons a rest ih =>
      obtain ⟨k, u⟩ := a
      show List.lookup name ((k, ParseTree.withoutComments u) :: withoutComments rest) = _
      rw [List.lookup_cons, List.lookup_cons]
      by_cases hk : (name == k) = true
      · rw [hk]
        rfl
      · rw [Bool.eq_false_iff.2 hk]
        exact ih

theorem without_withoutComments (as : TypeAliases) (name : Text) :
    (withoutComments as).without name = withoutComments (as.without name) := by
  unfold without withoutComments
  rw [List.filter_map]
  rfl

theorem lookup_without_self (as : TypeAliases) (name : Text) :
    (as.without name).lookup name = none := by
  refine List.lookup_eq_none_iff.2 fun a ha => ?_
  have hne : (a.1 != name) = true := (List.mem_filter.1 ha).2
  rw [bne_iff_ne] at hne
  exact bne_iff_ne.2 hne.symm

/-- What is declared when the declarations of a name are left out is declared. -/
theorem lookup_of_without {as : TypeAliases} {name other : Text} {u : ParseTree}
    (h : (as.without name).lookup other = some u) : as.lookup other = some u := by
  induction as with
  | nil => exact h
  | cons a rest ih =>
      obtain ⟨k, v⟩ := a
      simp only [without, List.filter_cons] at h
      rw [List.lookup_cons]
      by_cases hother : (other == k) = true
      · rw [hother]
        by_cases hk : (k != name) = true
        · rw [if_pos hk, List.lookup_cons, hother] at h
          exact h
        · -- The name is left out, so that it is not declared.
          rw [if_neg hk] at h
          have hsame : k = name := by simpa using hk
          have hnone : (without name rest).lookup other = none := by
            rw [eq_of_beq hother, hsame]
            exact lookup_without_self rest name
          rw [without, h] at hnone
          cases hnone
      · rw [Bool.eq_false_iff.2 hother]
        by_cases hk : (k != name) = true
        · rw [if_pos hk, List.lookup_cons, Bool.eq_false_iff.2 hother] at h
          exact ih h
        · rw [if_neg hk] at h
          exact ih h

theorem declaration?_withoutComments {t : ParseTree} (h : FieldsClear t) (source : Bytes) :
    declaration? source (ParseTree.withoutComments t) =
      (declaration? source t).map fun a => (a.1, ParseTree.withoutComments a.2) := by
  have hbody : ∀ name, (ParseTree.withoutComments t).inField? name =
      (t.inField? name).map ParseTree.withoutComments := inField?_withoutComments h
  unfold declaration?
  rw [type_withoutComments, fieldText?_withoutComments h, hbody, hbody]
  cases t.fieldText? source "name" with
  | none => rfl
  | some name =>
      dsimp only
      by_cases halias : (t.type == "type_alias_declaration") = true
      · rw [if_pos halias, if_pos halias]
        cases t.inField? "value" <;> rfl
      · rw [if_neg halias, if_neg halias]
        by_cases hinterface : (t.type == "interface_declaration") = true
        · rw [if_pos hinterface, if_pos hinterface]
          cases t.inField? "body" <;> rfl
        · rw [if_neg hinterface, if_neg hinterface]
          rfl

/-! ### Collecting -/

mutual

/-- What a tree declares does not depend on what was found before it. -/
theorem collect_eq (source : Bytes) :
    ∀ (t : ParseTree) (found : TypeAliases), collect source found t = ofTree source t ++ found
  | .node c cs, found => by
      rw [collect, ofTree, collect, collectAll_eq source cs,
        collectAll_eq source cs ((declaration? source (.node c cs)).toList ++ []),
        List.append_nil, List.append_assoc]

theorem collectAll_eq (source : Bytes) :
    ∀ (cs : List ParseTree) (found : TypeAliases),
      collectAll source found cs = collectAll source [] cs ++ found
  | [], _ => rfl
  | t :: rest, found => by
      rw [collectAll, collectAll, collectAll_eq source rest (collect source found t),
        collectAll_eq source rest (collect source [] t), collect_eq source t found,
        collect_eq source t [], List.append_nil, List.append_assoc]

end

theorem ofTree_eq (source : Bytes) (t : ParseTree) :
    ofTree source t = collectAll source [] t.children ++ (declaration? source t).toList := by
  cases t with
  | node c cs =>
      rw [ofTree, collect, collectAll_eq, List.append_nil]
      rfl

theorem collectAll_cons (source : Bytes) (t : ParseTree) (rest : List ParseTree) :
    collectAll source [] (t :: rest) = collectAll source [] rest ++ ofTree source t := by
  rw [collectAll, collectAll_eq, ofTree]

/-- No comment fills a field, and a comment declares no types. -/
def Clear (source : Bytes) (t : ParseTree) : Prop :=
  FieldsClear t ∧ (isComment t = true → ofTree source t = [])

theorem withoutComments_append (as bs : TypeAliases) :
    withoutComments (as ++ bs) = withoutComments as ++ withoutComments bs := List.map_append

mutual

/-- **The types that a file declares without its comments** are those that it declares, without the
comments in them. -/
theorem ofTree_withoutComments (source : Bytes) :
    ∀ t : ParseTree, (t.Everywhere fun c cs => Clear source (.node c cs)) →
      ofTree source (ParseTree.withoutComments t) = withoutComments (ofTree source t)
  | .node c cs, ht => by
      have hchildren := collectAll_withoutComments source cs ht.2
      have hroot := declaration?_withoutComments ht.1.1 source
      rw [ofTree_eq, ofTree_eq, hroot, withoutComments_append, children_withoutComments]
      rw [show (Tree.node c cs).children = cs from rfl, hchildren]
      cases declaration? source (.node c cs) <;> rfl

theorem collectAll_withoutComments (source : Bytes) :
    ∀ cs : List ParseTree,
      (ForestEverywhere (fun c cs => Clear source (.node c cs)) cs) →
      collectAll source [] (listWithoutComments cs) = withoutComments (collectAll source [] cs)
  | [], _ => rfl
  | t :: rest, hcs => by
      have hrest := collectAll_withoutComments source rest hcs.2
      rw [listWithoutComments, collectAll_cons, withoutComments_append]
      by_cases hcomment : isComment t = true
      · have hclear : Clear source t := hcs.1.self
        have hsilent := hclear.2 hcomment
        rw [if_pos hcomment, hrest, hsilent]
        exact (List.append_nil _).symm
      · rw [if_neg hcomment, collectAll_cons, hrest, ofTree_withoutComments source t hcs.1]

end

theorem mem_children_of_declaration? {source : Bytes} {t : ParseTree} {a : Text × ParseTree}
    (h : declaration? source t = some a) : a.2 ∈ t.children := by
  unfold declaration? at h
  dsimp only at h
  split at h
  · rename_i name body _ hbody
    cases h
    by_cases halias : (t.type == "type_alias_declaration") = true
    · rw [if_pos halias] at hbody
      exact List.mem_of_find?_eq_some hbody
    · rw [if_neg halias] at hbody
      by_cases hinterface : (t.type == "interface_declaration") = true
      · rw [if_pos hinterface] at hbody
        exact List.mem_of_find?_eq_some hbody
      · rw [if_neg hinterface] at hbody
        cases hbody
  · cases h

section everywhere

variable {P : Construct → List ParseTree → Prop} {source : Bytes}

mutual

/-- What holds everywhere in a tree holds everywhere in what the tree declares. -/
theorem everywhere_of_mem_ofTree :
    ∀ t : ParseTree, t.Everywhere P → ∀ a ∈ ofTree source t, a.2.Everywhere P
  | .node c cs, ht, a, ha => by
      rw [ofTree_eq] at ha
      rcases List.mem_append.1 ha with ha | ha
      · exact everywhere_of_mem_collectAll cs ht.2 a ha
      · have hchild := mem_children_of_declaration? (Option.mem_toList.1 ha)
        exact everywhere_of_mem ht.2 hchild

theorem everywhere_of_mem_collectAll :
    ∀ cs : List ParseTree, ForestEverywhere P cs →
      ∀ a ∈ collectAll source [] cs, a.2.Everywhere P
  | [], _, _, ha => nomatch ha
  | t :: rest, hcs, a, ha => by
      rw [collectAll_cons] at ha
      rcases List.mem_append.1 ha with ha | ha
      · exact everywhere_of_mem_collectAll rest hcs.2 a ha
      · exact everywhere_of_mem_ofTree t hcs.1 a ha

end

theorem everywhere_of_lookup {t u : ParseTree} {name : Text} (ht : t.Everywhere P)
    (h : (ofTree source t).lookup name = some u) : u.Everywhere P := by
  obtain ⟨before, after, hsplit, -⟩ := List.lookup_eq_some_iff.1 h
  exact everywhere_of_mem_ofTree t ht (name, u) (by rw [hsplit]; simp)

end everywhere

end TypeAliases

/-! ## Declared types of annotations -/

namespace TypeAnnotation

/-- What is read for the type of a construct: the first construct inside some of them, all of those
inside others, the types of properties, and what the name of a type stands for. -/
inductive Reads (source : Bytes) (aliases : TypeAliases) : ParseTree → ParseTree → Prop
  | inside {t u : ParseTree} (htype : isWrapper t.type = true ∨ t.type = "literal_type")
      (hfirst : t.namedChildren.head? = some u) : Reads source aliases t u
  | member {t u : ParseTree} (htype : t.type = "union_type" ∨ t.type = "intersection_type")
      (hmember : u ∈ t.namedChildren) : Reads source aliases t u
  | property {t m u : ParseTree} (htype : t.type = "object_type" ∨ t.type = "interface_body")
      (hmember : m ∈ t.children) (hproperty : m.type = "property_signature")
      (hdeclared : m.inField? "type" = some u) : Reads source aliases t u
  | declared {t u : ParseTree} (htype : t.type = "type_identifier")
      (hlookup : aliases.lookup (t.text source) = some u) : Reads source aliases t u

/-- No comment is read for the type of a construct, at any number of steps. -/
def Legible (source : Bytes) (aliases : TypeAliases) (t : ParseTree) : Prop :=
  ∀ u, Relation.ReflTransGen (Reads source aliases) t u → isComment u = false

variable {source : Bytes} {aliases : TypeAliases}

theorem Legible.of_reads {t u : ParseTree} (h : Legible source aliases t)
    (hread : Reads source aliases t u) : Legible source aliases u :=
  fun v hv => h v (.head hread hv)

theorem Legible.isComment_eq {t : ParseTree} (h : Legible source aliases t) :
    isComment t = false := h t .refl

theorem legible_of_reads {t : ParseTree} (hcomment : isComment t = false)
    (hreads : ∀ u, Reads source aliases t u →
      Legible source aliases u) : Legible source aliases t := by
  intro u hu
  rcases Relation.ReflTransGen.cases_head hu with rfl | ⟨v, hread, hv⟩
  · exact hcomment
  · exact hreads v hread u hv

/-! ### Lists of constructs -/

theorem resolveFirst_eq (as : TypeAliases) (wanted : ParseTree → Bool) (cs : List ParseTree) :
    resolveFirst source as wanted cs =
      ((cs.find? wanted).map (resolve source as)).getD ⟨none, []⟩ := by
  induction cs with
  | nil =>
      rw [resolveFirst]
      rfl
  | cons c rest ih =>
      rw [resolveFirst]
      by_cases hc : wanted c = true
      · rw [if_pos hc, List.find?_cons_of_pos hc]
        rfl
      · rw [if_neg hc, List.find?_cons_of_neg hc, ih]

variable {as as' : TypeAliases}

theorem resolveFirst_withoutComments {wanted : ParseTree → Bool}
    (hwanted : ∀ c, wanted (withoutComments c) = wanted c) {cs : List ParseTree}
    (h : ∀ c, cs.find? wanted = some c → isComment c = false ∧
      resolve source as' (withoutComments c) = resolve source as c) :
    resolveFirst source as' wanted (listWithoutComments cs) =
      resolveFirst source as wanted cs := by
  rw [resolveFirst_eq, resolveFirst_eq,
    find?_listWithoutComments hwanted fun c hc => (h c hc).1, Option.map_map]
  cases hfind : cs.find? wanted with
  | none => rfl
  | some c => exact (h c hfind).2

theorem resolveNamed_withoutComments {cs : List ParseTree}
    (h : ∀ c ∈ cs, c.named = true → isComment c = false ∧
      resolve source as' (withoutComments c) = resolve source as c) :
    resolveNamed source as' (listWithoutComments cs) = resolveNamed source as cs := by
  induction cs with
  | nil =>
      rw [listWithoutComments, resolveNamed, resolveNamed]
  | cons c rest ih =>
      have hrest := ih fun d hd => h d (List.mem_cons_of_mem c hd)
      by_cases hnamed : c.named = true
      · obtain ⟨hcomment, hresolve⟩ := h c (List.mem_cons_self ..) hnamed
        rw [listWithoutComments_cons hcomment, resolveNamed, resolveNamed,
          if_pos (by rw [named_withoutComments, hnamed]), if_pos hnamed, hresolve, hrest]
      · rw [listWithoutComments, resolveNamed, if_neg hnamed]
        by_cases hcomment : isComment c = true
        · rw [if_pos hcomment, hrest]
        · rw [if_neg hcomment, resolveNamed, if_neg (by rw [named_withoutComments]; exact hnamed),
            hrest]

/-- The type that a property declares. -/
theorem resolveFirst_type (as : TypeAliases) (m : ParseTree) :
    resolveFirst source as (fun t => t.field == some "type") m.children =
      ((m.inField? "type").map (resolve source as)).getD ⟨none, []⟩ := resolveFirst_eq as _ _

theorem resolveMembers_cons (as : TypeAliases) (before : List (Text × DeclaredType))
    (m : ParseTree) (rest : List ParseTree) :
    resolveMembers source as before (m :: rest) =
      if m.type == "property_signature" then
        let key := (m.inField? "name").map (propertyKey source)
        let declared := ((m.inField? "type").map (resolve source as)).getD ⟨none, []⟩
        let later := resolveMembers source as (addProperty key before declared.result) rest
        ⟨later.result, declared.expansions ++ later.expansions⟩
      else resolveMembers source as before rest := by
  rw [← resolveFirst_type]
  cases m with
  | node c cs =>
      rw [resolveMembers]
      rfl

theorem propertyKey_withoutComments (name : ParseTree) :
    propertyKey source (withoutComments name) = propertyKey source name := by
  rw [propertyKey, type_withoutComments, text_withoutComments, propertyKey]

theorem resolveMembers_withoutComments {cs : List ParseTree}
    (h : ∀ m ∈ cs, m.type = "property_signature" → FieldsClear m ∧
      ∀ u, m.inField? "type" = some u →
        resolve source as' (withoutComments u) = resolve source as u)
    (before : List (Text × DeclaredType)) :
    resolveMembers source as' before (listWithoutComments cs) =
      resolveMembers source as before cs := by
  induction cs generalizing before with
  | nil =>
      rw [listWithoutComments, resolveMembers, resolveMembers]
  | cons m rest ih =>
      have hrest := ih fun d hd => h d (List.mem_cons_of_mem m hd)
      by_cases hproperty : (m.type == "property_signature") = true
      · obtain ⟨hclear, hresolve⟩ := h m (List.mem_cons_self ..) (eq_of_beq hproperty)
        have hcomment : isComment m = false := by
          rw [isComment, eq_of_beq hproperty]
          decide
        have hkey : propertyKey source ∘ withoutComments = propertyKey source :=
          funext propertyKey_withoutComments
        have hdeclared :
            (((m.inField? "type").map withoutComments).map (resolve source as')).getD ⟨none, []⟩ =
              ((m.inField? "type").map (resolve source as)).getD ⟨none, []⟩ := by
          cases hfield : m.inField? "type" with
          | none => rfl
          | some u => exact hresolve u hfield
        rw [listWithoutComments_cons hcomment, resolveMembers_cons, resolveMembers_cons,
          if_pos hproperty, if_pos (by rw [type_withoutComments, hproperty]),
          inField?_withoutComments hclear, inField?_withoutComments hclear, hdeclared,
          Option.map_map, hkey]
        dsimp only
        rw [hrest]
      · rw [listWithoutComments, resolveMembers_cons, if_neg hproperty]
        by_cases hcomment : isComment m = true
        · rw [if_pos hcomment, hrest]
        · rw [if_neg hcomment, resolveMembers_cons,
            if_neg (by rw [type_withoutComments]; exact hproperty), hrest]

/-! ### Constructs -/

theorem literalType_withoutComments {t : ParseTree}
    (h : ∀ c, t.namedChildren.head? = some c → isComment c = false) :
    literalType source (withoutComments t) = literalType source t := by
  have hhead := head?_listWithoutComments h
  unfold literalType
  rw [namedChildren_withoutComments]
  cases hnamed : t.namedChildren with
  | nil => rfl
  | cons inner rest =>
      have hinner : isComment inner = false := h inner (by rw [hnamed]; rfl)
      rw [listWithoutComments_cons hinner]
      show DeclaredType.literal (literalValue source (withoutComments inner)) = _
      rw [literalValue, type_withoutComments, text_withoutComments, ← literalValue]

/-- The name of a type stands for what is declared under it. -/
theorem resolve_name (as : TypeAliases) {t : ParseTree} (htype : t.type = "type_identifier") :
    resolve source as t =
      match as.lookup (t.text source) with
      | none => ⟨some (.reference (some (t.text source))), []⟩
      | some target =>
        (resolve source (as.without (t.text source)) target).named (t.text source) := by
  cases t with
  | node c cs =>
      have hctype : c.type = "type_identifier" := htype
      rw [resolve]
      simp only [hctype, isWrapper, String.reduceBEq, Bool.or_self, Bool.false_eq_true, if_false,
        if_true]
      split <;> rename_i hlookup <;> rw [hlookup]

/-- What is read for a construct stands in it, unless the construct is a name. -/
theorem Reads.standsIn {t u : ParseTree} (h : Reads source aliases t u)
    (hname : t.type ≠ "type_identifier") : StandsIn u t := by
  cases h with
  | inside _ hfirst => exact Or.inl (List.mem_filter.1 (List.mem_of_head? hfirst)).1
  | member _ hmember => exact Or.inl (List.mem_filter.1 hmember).1
  | property _ hmember _ hdeclared => exact Or.inr ⟨_, hmember, List.mem_of_find?_eq_some hdeclared⟩
  | declared htype _ => exact absurd htype hname

/-- A construct that is no name declares what it declares without comments, if what is read for it
does. -/
theorem resolve_withoutComments_of_reads (aliases : TypeAliases) {t : ParseTree}
    (hname : t.type ≠ "type_identifier")
    (hclear : ∀ m ∈ t.children, FieldsClear m)
    (hread : ∀ u, Reads source aliases t u → isComment u = false ∧
      resolve source as' (withoutComments u) = resolve source as u) :
    resolve source as' (withoutComments t) = resolve source as t := by
  cases t with
  | node c cs =>
      show resolve source as' (.node c (listWithoutComments cs)) = _
      rw [resolve, resolve]
      by_cases hwrapper : isWrapper c.type = true
      · rw [if_pos hwrapper, if_pos hwrapper]
        refine resolveFirst_withoutComments named_withoutComments fun u hu => ?_
        refine hread u (.inside (Or.inl hwrapper) ?_)
        rw [ParseTree.namedChildren, List.head?_filter]
        exact hu
      rw [if_neg hwrapper, if_neg hwrapper]
      by_cases hliteral : (c.type == "literal_type") = true
      · have hsame : literalType source (withoutComments (.node c cs)) =
            literalType source (.node c cs) :=
          literalType_withoutComments fun u hu =>
            (hread u (.inside (Or.inr (eq_of_beq hliteral)) hu)).1
        rw [if_pos hliteral, if_pos hliteral, ← hsame]
        rfl
      rw [if_neg hliteral, if_neg hliteral]
      have hmembers : c.type = "union_type" ∨ c.type = "intersection_type" →
          resolveNamed source as' (listWithoutComments cs) = resolveNamed source as cs := by
        intro htype
        refine resolveNamed_withoutComments fun u hu hnamed => ?_
        exact hread u (.member htype (List.mem_filter.2 ⟨hu, hnamed⟩))
      by_cases hunion : (c.type == "union_type") = true
      · rw [if_pos hunion, if_pos hunion, hmembers (Or.inl (eq_of_beq hunion))]
      rw [if_neg hunion, if_neg hunion]
      by_cases hintersection : (c.type == "intersection_type") = true
      · rw [if_pos hintersection, if_pos hintersection,
          hmembers (Or.inr (eq_of_beq hintersection))]
      rw [if_neg hintersection, if_neg hintersection]
      by_cases hobject : (c.type == "object_type" || c.type == "interface_body") = true
      · have htype : c.type = "object_type" ∨ c.type = "interface_body" := by
          simpa using hobject
        have hproperties : resolveMembers source as' [] (listWithoutComments cs) =
            resolveMembers source as [] cs :=
          resolveMembers_withoutComments
            (fun m hm hproperty => ⟨hclear m hm, fun u hu =>
              (hread u (.property htype hm hproperty hu)).2⟩) []
        rw [if_pos hobject, if_pos hobject, hproperties]
      rw [if_neg hobject, if_neg hobject]
      by_cases hkeyword : (c.type == "predefined_type") = true
      · rw [if_pos hkeyword, if_pos hkeyword]
        rfl
      rw [if_neg hkeyword, if_neg hkeyword]
      have hother : ¬(c.type == "type_identifier") = true := fun h => hname (eq_of_beq h)
      rw [if_neg hother, if_neg hother]
      rfl

/-- **The type that an annotation declares without comments** is the type that it declares, if no
comment is read for it. -/
theorem resolve_withoutComments
    (hdeclared : ∀ name u, aliases.lookup name = some u →
      u.Everywhere fun c cs => FieldsClear (.node c cs)) :
    ∀ (as : TypeAliases) (t : ParseTree),
      (∀ name u, as.lookup name = some u → aliases.lookup name = some u) →
      (t.Everywhere fun c cs => FieldsClear (.node c cs)) → Legible source aliases t →
      resolve source as.withoutComments (withoutComments t) = resolve source as t := by
  intro as t has ht hlegible
  by_cases hname : t.type = "type_identifier"
  · rw [resolve_name as.withoutComments (by rw [type_withoutComments, hname]),
      resolve_name as hname, text_withoutComments, TypeAliases.lookup_withoutComments,
      TypeAliases.without_withoutComments]
    cases hlookup : as.lookup (t.text source) with
    | none => rfl
    | some target =>
        have htarget := resolve_withoutComments hdeclared (as.without (t.text source)) target
          (fun name u hu => has name u (TypeAliases.lookup_of_without hu))
          (hdeclared _ target (has _ target hlookup))
          (hlegible.of_reads (.declared hname (has _ target hlookup)))
        rw [Option.map_some]
        dsimp only
        rw [htarget]
  · refine resolve_withoutComments_of_reads aliases hname (fun m hm => ?_) fun u hu => ?_
    · exact (ht.of_mem_children hm).self
    · have hlegible' := hlegible.of_reads hu
      have hstands := hu.standsIn hname
      have hsize := hstands.size_lt
      exact ⟨hlegible'.isComment_eq,
        resolve_withoutComments hdeclared as u has (hstands.everywhere ht) hlegible'⟩
termination_by as t => (as.length, t.size)
decreasing_by
  · exact Prod.Lex.left _ _ (TypeAliases.length_without_lt hlookup)
  · exact Prod.Lex.right _ hsize

end TypeAnnotation

end LiteralLint
