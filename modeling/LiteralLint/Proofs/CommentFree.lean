import LiteralLint.Proofs.Comments
import LiteralLint.Proofs.Conversion

/-!
# Conversion without comments

Conversion drops comments, wherever they stand. The program tree of a file is the one of the file
without its comments, as long as no comment is mistaken for a part of a construct. `Unmistaken`
lists the four places where one can be: a field; the name of an attribute; the expression in a key
in brackets; and an annotation.

Conversion is taken as the recursion `conv`. A construct without comments calls for the same node,
and for the same tasks but those for comments, which yield nothing.

## Main definitions

* `Conversion.Unmistaken`: no comment is mistaken for a part of a construct.
* `Conversion.contextOf`: what conversion knows about a file.

## Main results

* `Conversion.expand_withoutComments`: the node and the tasks for a construct without comments.
* `Conversion.conv_withoutComments`: what becomes of a construct without comments.
* `Conversion.convert_withoutComments`: the program tree of a file without comments.
-/

namespace LiteralLint

namespace Conversion

open LiteralLint.Tree LiteralLint.ParseTree

/-! ## Tasks and nodes -/

/-- A task without the comments in its construct. -/
def Task.withoutComments (k : Task) : Task := { k with tree := ParseTree.withoutComments k.tree }

/-- Tasks without those for comments, and without the comments in the others. -/
def tasksWithoutComments (ts : List Task) : List Task :=
  (ts.filter fun k => !isComment k.tree).map Task.withoutComments

/-- A node, and what is left to convert below it but for comments. -/
def Expansion.withoutComments (e : Expansion) : Expansion :=
  { e with tasks := tasksWithoutComments e.tasks }

/-- What conversion knows about a file without its comments. -/
def Context.withoutComments (ctx : Context) : Context :=
  { ctx with aliases := ctx.aliases.map TypeAliases.withoutComments }

theorem isDropped_of_isComment {t : ParseTree} (h : isComment t = true) :
    isDropped t.type = true := by
  unfold isDropped
  rw [← isComment, h]
  rfl

theorem isComment_of_not_isDropped {t : ParseTree} (h : (!isDropped t.type) = true) :
    isComment t = false := by
  by_contra hcomment
  rw [isDropped_of_isComment (eq_true_of_ne_false hcomment)] at h
  cases h

/-- A construct of a given type is a comment only if the type is one of comments. -/
theorem isComment_of_type {t : ParseTree} {type : String} (htype : t.type = type)
    (hcomment : (type == "comment" || type == "html_comment") = false) : isComment t = false := by
  rw [isComment, htype, hcomment]

variable {ctx : Context} {t : ParseTree}

theorem tasksWithoutComments_append (ts us : List Task) :
    tasksWithoutComments (ts ++ us) = tasksWithoutComments ts ++ tasksWithoutComments us := by
  unfold tasksWithoutComments
  rw [List.filter_append, List.map_append]

theorem tasksWithoutComments_cons_of_comment {k : Task} (h : isComment k.tree = true)
    (ks : List Task) : tasksWithoutComments (k :: ks) = tasksWithoutComments ks := by
  unfold tasksWithoutComments
  rw [List.filter_cons_of_neg (by rw [h]; exact Bool.false_ne_true)]

theorem tasksWithoutComments_cons {k : Task} (h : isComment k.tree = false) (ks : List Task) :
    tasksWithoutComments (k :: ks) = k.withoutComments :: tasksWithoutComments ks := by
  unfold tasksWithoutComments
  rw [List.filter_cons_of_pos (by rw [h]; rfl), List.map_cons]

theorem childTask_withoutComments (t : ParseTree) (role : String) (c : ParseTree) :
    childTask (withoutComments t) role (withoutComments c) =
      (childTask t role c).withoutComments := by
  rw [childTask, type_withoutComments]
  rfl

/-- Tasks for constructs without the comments among them. -/
theorem map_childTask_withoutComments (t : ParseTree) (role : ParseTree → String)
    (hrole : ∀ c, role (withoutComments c) = role c) (cs : List ParseTree) :
    (listWithoutComments cs).map (fun c => childTask (withoutComments t) (role c) c) =
      tasksWithoutComments (cs.map fun c => childTask t (role c) c) := by
  have htask : ((fun c => childTask (withoutComments t) (role c) c) ∘ withoutComments) =
      Task.withoutComments ∘ fun c => childTask t (role c) c := by
    funext c
    show childTask (withoutComments t) (role (withoutComments c)) (withoutComments c) = _
    rw [hrole, childTask_withoutComments]
    rfl
  rw [listWithoutComments_eq, List.map_map, htask, tasksWithoutComments, List.filter_map,
    List.map_map]
  rfl

/-- Tasks in one role. -/
theorem map_childTask_withoutComments_of_role (t : ParseTree) (role : String)
    (cs : List ParseTree) :
    (listWithoutComments cs).map (childTask (withoutComments t) role) =
      tasksWithoutComments (cs.map (childTask t role)) :=
  map_childTask_withoutComments t (fun _ => role) (fun _ => rfl) cs

@[simp] theorem source_withoutComments : ctx.withoutComments.source = ctx.source := rfl

@[simp] theorem aliases_withoutComments :
    ctx.withoutComments.aliases = ctx.aliases.map TypeAliases.withoutComments := rfl

theorem plainNode_withoutComments (role : Option String) :
    plainNode ctx.withoutComments (withoutComments t) role = plainNode ctx t role := by
  unfold plainNode
  rw [type_withoutComments, source_withoutComments, text_withoutComments, span_withoutComments]

theorem childTasks_withoutComments : childTasks (withoutComments t) =
    tasksWithoutComments (childTasks t) := by
  unfold childTasks
  rw [namedChildren_withoutComments, type_withoutComments]
  exact map_childTask_withoutComments t (fun c => roleOf t.type c.field)
    (fun c => by rw [field_withoutComments]) _

theorem namedNode_withoutComments (h : FieldsClear t) (n : Node) :
    named ctx.withoutComments (withoutComments t) n = named ctx t n := by
  have hname : ∀ name, fieldName ctx.withoutComments name (withoutComments t) =
      fieldName ctx name t := by
    intro name
    unfold fieldName
    rw [source_withoutComments, fieldText?_withoutComments h]
  unfold named
  rw [source_withoutComments, fieldText?_withoutComments h, type_withoutComments, hname, hname]

/-! ## The forms of constructs -/

theorem template_withoutComments (n : Node) :
    template ctx.withoutComments (withoutComments t) n = (template ctx t n).withoutComments := by
  let isHole (c : ParseTree) : Bool := c.type == "template_substitution"
  have hsame : ∀ c, isHole (withoutComments c) = isHole c := by
    intro c
    dsimp only [isHole]
    rw [type_withoutComments]
  have hholes : (withoutComments t).children.filter isHole =
      listWithoutComments (t.children.filter isHole) := by
    rw [children_withoutComments, filter_listWithoutComments hsame]
  have hempty : (listWithoutComments (t.children.filter isHole)).isEmpty =
      (t.children.filter isHole).isEmpty := by
    rw [listWithoutComments_of_forall fun c hc =>
      isComment_of_type (eq_of_beq (List.mem_filter.1 hc).2) (by decide), List.isEmpty_map]
  unfold template
  rw [source_withoutComments, text_withoutComments]
  dsimp only
  rw [hholes, hempty, map_childTask_withoutComments_of_role]
  rfl

theorem call_withoutComments (h : FieldsClear t) (n : Node) :
    call (withoutComments t) n = (call t n).withoutComments := by
  have hcallee : ∀ role, ((t.inField? "function").map withoutComments).toList.map
      (childTask (withoutComments t) role) =
        tasksWithoutComments ((t.inField? "function").toList.map (childTask t role)) := by
    intro role
    rw [toList_map_withoutComments (h "function"), map_childTask_withoutComments_of_role]
  have hmodule : (((t.inField? "function").map withoutComments).any fun f => f.type == "import") =
      (t.inField? "function").any fun f => f.type == "import" := by
    cases t.inField? "function" with
    | none => rfl
    | some f =>
        show ((withoutComments f).type == "import") = _
        rw [type_withoutComments]
        rfl
  unfold call
  rw [inField?_withoutComments h, inField?_withoutComments h]
  cases harguments : t.inField? "arguments" with
  | none =>
      dsimp only [Option.map_none]
      rw [hcallee, hmodule]
      rfl
  | some arguments =>
      have hclear : isComment arguments = false := h _ arguments harguments
      have hquasi : tasksWithoutComments [childTask t "quasi" arguments] =
          [childTask (withoutComments t) "quasi" (withoutComments arguments)] := by
        rw [tasksWithoutComments_cons hclear, childTask_withoutComments]
        rfl
      dsimp only [Option.map_some]
      rw [type_withoutComments, hmodule, hcallee, hcallee, namedChildren_withoutComments,
        map_childTask_withoutComments_of_role, ← hquasi, ← tasksWithoutComments_append,
        ← tasksWithoutComments_append]
      by_cases htemplate : (arguments.type == "template_string") = true
      · rw [if_pos htemplate, if_pos htemplate]
        rfl
      · rw [if_neg htemplate, if_neg htemplate]
        rfl

theorem element_withoutComments (n : Node) :
    element (withoutComments t) n = (element t n).withoutComments := by
  have htasks := map_childTask_withoutComments t
    (fun c => if c.field == some "open_tag" then "opening" else "child")
    (fun c => by rw [field_withoutComments]) t.namedChildren
  unfold element
  rw [namedChildren_withoutComments, htasks]
  rfl

theorem selfClosingElement_withoutComments (h : FieldsClear t) (n : Node) :
    selfClosingElement ctx.withoutComments (withoutComments t) n =
      (selfClosingElement ctx t n).withoutComments := by
  unfold selfClosingElement
  rw [namedNode_withoutComments h, childTasks_withoutComments]
  rfl

theorem attributeString_withoutComments :
    attributeString ctx.withoutComments (withoutComments t) = attributeString ctx t := by
  unfold attributeString
  rw [source_withoutComments, text_withoutComments, span_withoutComments, type_withoutComments]

theorem attr_withoutComments (h : ∀ c, t.namedChildren.head? = some c → isComment c = false)
    (n : Node) :
    attr ctx.withoutComments (withoutComments t) n = (attr ctx t n).withoutComments := by
  unfold attr
  rw [namedChildren_withoutComments]
  cases hnamed : t.namedChildren with
  | nil => rfl
  | cons name values =>
      have hname : isComment name = false := h name (by rw [hnamed]; rfl)
      have hstring : ∀ v : ParseTree, ((withoutComments v).type == "string") =
          (v.type == "string") := fun v => by rw [type_withoutComments]
      have hready : (listWithoutComments values).filter (fun v : ParseTree => v.type == "string") =
          (values.filter fun v : ParseTree => v.type == "string").map withoutComments :=
        filter_listWithoutComments_eq_map hstring
          (fun v hv => isComment_of_type (eq_of_beq hv) (by decide)) values
      have htasks : ((listWithoutComments values).filter
          fun v : ParseTree => !(v.type == "string")) =
            listWithoutComments (values.filter fun v : ParseTree => !(v.type == "string")) :=
        filter_listWithoutComments (fun v => by rw [hstring]) values
      have hnode : (fun v => Tree.node (attributeString ctx.withoutComments v) []) ∘
          withoutComments = fun v => Tree.node (attributeString ctx v) [] :=
        funext fun v => congrArg (Tree.node · []) attributeString_withoutComments
      rw [listWithoutComments_cons hname]
      dsimp only
      rw [hready, htasks, List.map_map, hnode, map_childTask_withoutComments_of_role,
        source_withoutComments, text_withoutComments]
      rfl

theorem general_withoutComments (h : FieldsClear t) (n : Node) :
    general ctx.withoutComments (withoutComments t) n =
      (general ctx t n).withoutComments := by
  unfold general
  rw [inField?_withoutComments h, Option.isSome_map, type_withoutComments]
  dsimp only
  rw [namedNode_withoutComments h, childTasks_withoutComments]
  rfl

theorem assertion_withoutComments (n : Node) :
    assertion (withoutComments t) n = (assertion t n).withoutComments := by
  have hparts : ((withoutComments t).namedChildren.filter fun c : ParseTree =>
      !isDropped c.type) =
        (t.namedChildren.filter fun c : ParseTree => !isDropped c.type).map withoutComments := by
    rw [namedChildren_withoutComments]
    exact filter_listWithoutComments_eq_map (fun c => by rw [type_withoutComments])
      (fun _ hc => isComment_of_not_isDropped hc) _
  have hrole : ∀ i c, assertionRole t.type i (withoutComments c) = assertionRole t.type i c := by
    intro i c
    unfold assertionRole
    rw [type_withoutComments]
  have htasks : ∀ parts : List ParseTree, (∀ c ∈ parts, isComment c = false) →
      (parts.map withoutComments).mapIdx
        (fun i c => childTask (withoutComments t) (assertionRole t.type i c) c) =
          tasksWithoutComments
            (parts.mapIdx fun i c => childTask t (assertionRole t.type i c) c) := by
    intro parts hparts
    have hall : ((parts.mapIdx fun i c => childTask t (assertionRole t.type i c) c).filter
        fun k => !isComment k.tree) =
          parts.mapIdx fun i c => childTask t (assertionRole t.type i c) c := by
      refine List.filter_eq_self.2 fun k hk => ?_
      obtain ⟨i, hi, rfl⟩ := List.mem_mapIdx.1 hk
      rw [childTask, hparts _ (List.getElem_mem hi)]
      rfl
    unfold tasksWithoutComments
    rw [hall]
    refine List.ext_getElem (by simp) fun i hi hi' => ?_
    simp only [List.getElem_mapIdx, List.getElem_map]
    rw [hrole, childTask_withoutComments]
  unfold assertion
  rw [hparts, type_withoutComments]
  dsimp only
  rw [htasks _ fun c hc => isComment_of_not_isDropped (List.mem_filter.1 hc).2]
  rfl

theorem isComputedKey_withoutComments (role : String) (c : ParseTree) :
    isComputedKey role (withoutComments c) = isComputedKey role c := by
  unfold isComputedKey
  rw [type_withoutComments]

theorem isComment_of_isComputedKey {role : String} {c : ParseTree}
    (h : isComputedKey role c = true) : isComment c = false := by
  unfold isComputedKey at h
  rw [Bool.and_eq_true] at h
  exact isComment_of_type (eq_of_beq h.2) (by decide)

/-- No comment stands before the expression in a key in brackets. -/
def KeyClear (t c : ParseTree) : Prop :=
  isComputedKey (roleOf t.type c.field) c = true →
    ∀ d, c.namedChildren.head? = some d → isComment d = false

theorem propertyTask?_withoutComments {c : ParseTree} (hkey : KeyClear t c) :
    propertyTask? (withoutComments t) (withoutComments c) =
      (propertyTask? t c).map Task.withoutComments := by
  unfold propertyTask?
  rw [type_withoutComments, field_withoutComments]
  dsimp only
  rw [isComputedKey_withoutComments]
  by_cases hcomputed : isComputedKey (roleOf t.type c.field) c = true
  · rw [if_pos hcomputed, if_pos hcomputed, namedChildren_withoutComments,
      head?_listWithoutComments (hkey hcomputed), Option.map_map, Option.map_map]
    have htask : childTask (withoutComments c) (roleOf t.type c.field) ∘ withoutComments =
        Task.withoutComments ∘ childTask c (roleOf t.type c.field) :=
      funext fun d => childTask_withoutComments c _ d
    rw [htask]
  · rw [if_neg hcomputed, if_neg hcomputed, childTask_withoutComments]
    rfl

/-- A task for a part that is no comment is for no comment, and the other way round. -/
theorem isComment_of_propertyTask? {c : ParseTree} {k : Task} (hkey : KeyClear t c)
    (h : propertyTask? t c = some k) : isComment k.tree = isComment c := by
  unfold propertyTask? at h
  by_cases hcomputed : isComputedKey (roleOf t.type c.field) c = true
  · rw [if_pos hcomputed] at h
    obtain ⟨d, hd, rfl⟩ := Option.map_eq_some_iff.1 h
    rw [isComment_of_isComputedKey hcomputed]
    exact hkey hcomputed d hd
  · rw [if_neg hcomputed] at h
    cases h
    rfl

theorem propertyTasks_withoutComments {cs : List ParseTree} (hkeys : ∀ c ∈ cs, KeyClear t c) :
    (listWithoutComments cs).filterMap (propertyTask? (withoutComments t)) =
      tasksWithoutComments (cs.filterMap (propertyTask? t)) := by
  induction cs with
  | nil => rfl
  | cons c rest ih =>
      have hrest := ih fun d hd => hkeys d (List.mem_cons_of_mem c hd)
      have hkey := hkeys c (List.mem_cons_self ..)
      have htask := propertyTask?_withoutComments hkey
      rw [listWithoutComments]
      by_cases hc : isComment c = true
      · rw [if_pos hc, hrest]
        cases hk : propertyTask? t c with
        | none => rw [List.filterMap_cons_none hk]
        | some k =>
            have hcomment : isComment k.tree = true := by
              rw [isComment_of_propertyTask? hkey hk, hc]
            rw [List.filterMap_cons_some hk, tasksWithoutComments_cons_of_comment hcomment]
      · rw [if_neg hc]
        cases hk : propertyTask? t c with
        | none =>
            rw [hk] at htask
            rw [List.filterMap_cons_none hk, List.filterMap_cons_none htask, hrest]
        | some k =>
            have hcomment : isComment k.tree = false := by
              rw [isComment_of_propertyTask? hkey hk, Bool.eq_false_iff.2 hc]
            rw [hk] at htask
            rw [List.filterMap_cons_some hk, List.filterMap_cons_some htask, hrest,
              tasksWithoutComments_cons hcomment]

theorem property_withoutComments (hkeys : ∀ c ∈ t.namedChildren, KeyClear t c) (n : Node) :
    property (withoutComments t) n = (property t n).withoutComments := by
  have hcomputed : ((listWithoutComments t.namedChildren).any fun c =>
      isComputedKey (roleOf t.type c.field) c) =
        t.namedChildren.any fun c => isComputedKey (roleOf t.type c.field) c :=
    any_listWithoutComments
      (fun c => by rw [field_withoutComments, isComputedKey_withoutComments])
      (fun c hc => isComment_of_isComputedKey hc) _
  unfold property
  rw [namedChildren_withoutComments, type_withoutComments, hcomputed,
    propertyTasks_withoutComments hkeys]
  rfl

theorem bindingRole_withoutComments (target : String) (c : ParseTree) :
    bindingRole target (withoutComments c) = bindingRole target c := by
  unfold bindingRole
  rw [type_withoutComments, field_withoutComments]

/-- The names that a binding declares. -/
theorem bindingNames_withoutComments (target : String) (cs : List ParseTree) :
    ((listWithoutComments cs).filter fun c : ParseTree =>
      bindingRole target c == "name" && c.field == some target) =
        (cs.filter fun c : ParseTree =>
          bindingRole target c == "name" && c.field == some target).map withoutComments := by
  refine filter_listWithoutComments_eq_map
    (fun c => by rw [bindingRole_withoutComments, field_withoutComments]) (fun c hc => ?_) cs
  rw [Bool.and_eq_true] at hc
  obtain ⟨hrole, hfield⟩ := hc
  by_cases hidentifier : (c.type == "identifier") = true
  · exact isComment_of_type (eq_of_beq hidentifier) (by decide)
  · rw [bindingRole, if_pos hfield, if_neg hidentifier] at hrole
    exact absurd hrole (by decide)

theorem binding_withoutComments (hfields : FieldsClear t)
    (hresolve : ∀ aliases annotated, ctx.aliases = some aliases →
      t.inField? "type" = some annotated →
        TypeAnnotation.resolve ctx.source aliases.withoutComments (withoutComments annotated) =
          TypeAnnotation.resolve ctx.source aliases annotated)
    (n : Node) :
    binding ctx.withoutComments (withoutComments t) n = (binding ctx t n).withoutComments := by
  have htasks : ∀ target, (listWithoutComments t.namedChildren).map
      (fun c => childTask (withoutComments t) (bindingRole target c) c) =
        tasksWithoutComments (t.namedChildren.map fun c => childTask t (bindingRole target c) c) :=
    fun target => map_childTask_withoutComments t (bindingRole target)
      (bindingRole_withoutComments target) _
  unfold binding
  rw [type_withoutComments, namedChildren_withoutComments, inField?_withoutComments hfields,
    source_withoutComments, aliases_withoutComments]
  dsimp only
  rw [bindingNames_withoutComments, List.getLast?_map, htasks]
  generalize List.getLast? _ = last
  cases last <;> simp only [Option.map_none, Option.map_some, text_withoutComments]
  all_goals
    cases haliases : ctx.aliases with
    | none => rfl
    | some aliases =>
        cases hannotated : t.inField? "type" with
        | none => rfl
        | some annotated =>
            dsimp only [Option.map_some]
            rw [hresolve aliases annotated haliases hannotated]
            rfl

/-! ## Any construct -/

/-- No comment is mistaken for a part of a construct: not for what fills a field, the name of an
attribute, the expression in a key in brackets, nor for anything that is read for a declared type.
A comment itself declares no types. -/
structure Unmistaken (ctx : Context) (t : ParseTree) : Prop where
  fields : FieldsClear t
  names : t.type = "jsx_attribute" → ∀ c, t.namedChildren.head? = some c → isComment c = false
  keys : tableKind t.type = .objectProperty → ∀ c ∈ t.namedChildren, KeyClear t c
  annotations : tableKind t.type = .variableBinding → ∀ aliases annotated,
    ctx.aliases = some aliases → t.inField? "type" = some annotated →
      TypeAnnotation.Legible ctx.source aliases annotated
  silent : ctx.aliases.isSome = true → isComment t = true → TypeAliases.ofTree ctx.source t = []

/-- **The node for a construct without comments** is the one for the construct, and the tasks below
it are those for what is no comment. -/
theorem expand_withoutComments {k : Task} (h : Unmistaken ctx k.tree)
    (hresolve : ∀ aliases annotated, tableKind k.tree.type = .variableBinding →
      ctx.aliases = some aliases → k.tree.inField? "type" = some annotated →
        TypeAnnotation.resolve ctx.source aliases.withoutComments (withoutComments annotated) =
          TypeAnnotation.resolve ctx.source aliases annotated) :
    expand ctx.withoutComments k.withoutComments = (expand ctx k).withoutComments := by
  obtain ⟨t, role, within⟩ := k
  have hplain : plainNode ctx.withoutComments (withoutComments t) role = plainNode ctx t role :=
    plainNode_withoutComments role
  change expand ctx.withoutComments ⟨withoutComments t, role, within⟩ = _
  unfold expand
  dsimp only at h hresolve ⊢
  rw [hplain, source_withoutComments, text_withoutComments, type_withoutComments]
  have hkind : (plainNode ctx t role).kind = tableKind t.type := rfl
  generalize plainNode ctx t role = n at hkind ⊢
  generalize htype : t.type = type
  split
  case h_2 => exact template_withoutComments n
  case h_9 => exact call_withoutComments h.fields n
  case h_10 => exact element_withoutComments n
  case h_11 => exact selfClosingElement_withoutComments h.fields n
  case h_12 => exact attr_withoutComments (h.names htype) n
  case h_13 =>
    by_cases hidentifier : identifierTypes.contains type = true
    · rw [if_pos hidentifier, if_pos hidentifier]
      rfl
    rw [if_neg hidentifier, if_neg hidentifier]
    by_cases hproperty : (n.kind == .objectProperty) = true
    · rw [if_pos hproperty, if_pos hproperty]
      exact property_withoutComments (h.keys (hkind ▸ eq_of_beq hproperty)) n
    rw [if_neg hproperty, if_neg hproperty]
    by_cases hmethod : (type == "method_definition" && within == "object") = true
    · rw [if_pos hmethod, if_pos hmethod, childTasks_withoutComments]
      rfl
    rw [if_neg hmethod, if_neg hmethod]
    by_cases hbinding : (n.kind == .variableBinding) = true
    · rw [if_pos hbinding, if_pos hbinding]
      exact binding_withoutComments h.fields
        (fun aliases annotated => hresolve aliases annotated (hkind ▸ eq_of_beq hbinding)) n
    rw [if_neg hbinding, if_neg hbinding]
    by_cases hassertion : (n.kind == .typeAssertion) = true
    · rw [if_pos hassertion, if_pos hassertion]
      exact assertion_withoutComments n
    · rw [if_neg hassertion, if_neg hassertion]
      exact general_withoutComments h.fields n
  all_goals rfl

/-! ## What becomes of a construct -/

theorem standsIn_of_mem_map (role : ParseTree → String) {cs : List ParseTree}
    (hcs : ∀ c ∈ cs, StandsIn c t) {u : ParseTree} {k : Task}
    (hk : k ∈ cs.map fun c => childTask u (role c) c) : StandsIn k.tree t := by
  obtain ⟨c, hc, rfl⟩ := List.mem_map.1 hk
  exact hcs c hc

theorem standsIn_of_mem_namedChildren {c : ParseTree} (hc : c ∈ t.namedChildren) :
    StandsIn c t := Or.inl (List.mem_filter.1 hc).1

theorem standsIn_of_mem_childTasks {k : Task} (hk : k ∈ childTasks t) : StandsIn k.tree t :=
  standsIn_of_mem_map (fun c => roleOf t.type c.field)
    (fun _ hc => standsIn_of_mem_namedChildren hc) hk

theorem standsIn_of_mem_call {n : Node} {k : Task} (hk : k ∈ (call t n).tasks) :
    StandsIn k.tree t := by
  have hcallee : ∀ role, k ∈ (t.inField? "function").toList.map (childTask t role) →
      StandsIn k.tree t := fun role hk =>
    standsIn_of_mem_map (fun _ => role)
      (fun c hc => Or.inl (mem_children_of_inField? (Option.mem_toList.1 hc))) hk
  unfold call at hk
  cases harguments : t.inField? "arguments" with
  | none =>
      rw [harguments] at hk
      exact hcallee _ hk
  | some arguments =>
      have hmem := mem_children_of_inField? harguments
      rw [harguments] at hk
      dsimp only at hk
      by_cases htemplate : (arguments.type == "template_string") = true
      · rw [if_pos htemplate] at hk
        rcases List.mem_append.1 hk with hk | hk
        · exact hcallee _ hk
        · rcases List.mem_singleton.1 hk with rfl
          exact Or.inl hmem
      · rw [if_neg htemplate] at hk
        rcases List.mem_append.1 hk with hk | hk
        · exact hcallee _ hk
        · obtain ⟨c, hc, rfl⟩ := List.mem_map.1 hk
          exact Or.inr ⟨arguments, hmem, (List.mem_filter.1 hc).1⟩

theorem standsIn_of_propertyTask? {c : ParseTree} {k : Task} (hc : c ∈ t.namedChildren)
    (hk : propertyTask? t c = some k) : StandsIn k.tree t := by
  have hmem : c ∈ t.children := (List.mem_filter.1 hc).1
  unfold propertyTask? at hk
  dsimp only at hk
  split at hk
  · obtain ⟨d, hd, rfl⟩ := Option.map_eq_some_iff.1 hk
    exact Or.inr ⟨c, hmem, (List.mem_filter.1 (List.mem_of_head? hd)).1⟩
  · cases hk
    exact Or.inl hmem

theorem standsIn_of_mem_attr {n : Node} {k : Task} (hk : k ∈ (attr ctx t n).tasks) :
    StandsIn k.tree t := by
  unfold attr at hk
  split at hk
  · cases hk
  · rename_i name values hnamed
    refine standsIn_of_mem_map (fun _ => "value") (fun c hc => ?_) hk
    have hvalue : c ∈ values := (List.mem_filter.1 hc).1
    exact standsIn_of_mem_namedChildren (by rw [hnamed]; exact List.mem_cons_of_mem name hvalue)

theorem standsIn_of_mem_binding {n : Node} {k : Task} (hk : k ∈ (binding ctx t n).tasks) :
    StandsIn k.tree t := by
  unfold binding at hk
  split at hk
  all_goals
    exact standsIn_of_mem_map (fun c => bindingRole _ c)
      (fun c hc => standsIn_of_mem_namedChildren hc) hk

theorem standsIn_of_mem_assertion {n : Node} {k : Task} (hk : k ∈ (assertion t n).tasks) :
    StandsIn k.tree t := by
  obtain ⟨i, hi, rfl⟩ := List.mem_mapIdx.1 hk
  exact standsIn_of_mem_namedChildren (List.mem_filter.1 (List.getElem_mem hi)).1

/-- The tasks below a construct are for constructs that stand in it. -/
theorem standsIn_of_mem_tasks {k k' : Task} (hk : k' ∈ (expand ctx k).tasks) :
    StandsIn k'.tree k.tree := by
  unfold expand at hk
  dsimp only at hk
  split at hk
  case h_2 =>
    exact standsIn_of_mem_map (fun _ => "expression")
      (fun c hc => Or.inl (List.mem_filter.1 hc).1) hk
  case h_9 => exact standsIn_of_mem_call hk
  case h_10 =>
    exact standsIn_of_mem_map (fun c => if c.field == some "open_tag" then "opening" else "child")
      (fun c hc => standsIn_of_mem_namedChildren hc) hk
  case h_11 => exact standsIn_of_mem_childTasks hk
  case h_12 => exact standsIn_of_mem_attr hk
  case h_13 =>
    split at hk
    · cases hk
    · split at hk
      · obtain ⟨c, hc, hk⟩ := List.mem_filterMap.1 hk
        exact standsIn_of_propertyTask? hc hk
      · split at hk
        · exact standsIn_of_mem_childTasks hk
        · split at hk
          · exact standsIn_of_mem_binding hk
          · split at hk
            · exact standsIn_of_mem_assertion hk
            · exact standsIn_of_mem_childTasks hk
  all_goals cases hk

theorem expressionIn?_withoutComments :
    expressionIn? (withoutComments t) = (expressionIn? t).map withoutComments := by
  unfold expressionIn?
  rw [children_withoutComments]
  refine find?_listWithoutComments
    (fun c => by rw [named_withoutComments, type_withoutComments]) fun c hc => ?_
  have hkept := List.find?_some hc
  rw [Bool.and_eq_true] at hkept
  exact isComment_of_not_isDropped hkept.2

/-- Tasks for comments yield nothing. -/
theorem filterMap_tasksWithoutComments {ctx' : Context} {ks : List Task}
    (h : ∀ k ∈ ks, conv ctx' k.withoutComments = conv ctx k) :
    (tasksWithoutComments ks).filterMap (conv ctx') = ks.filterMap (conv ctx) := by
  induction ks with
  | nil => rfl
  | cons k rest ih =>
      have hrest := ih fun k' hk' => h k' (List.mem_cons_of_mem k hk')
      have hk := h k (List.mem_cons_self ..)
      by_cases hcomment : isComment k.tree = true
      · have hnone := conv_of_isDropped ctx k (isDropped_of_isComment hcomment)
        rw [tasksWithoutComments_cons_of_comment hcomment, List.filterMap_cons_none hnone, hrest]
      · rw [tasksWithoutComments_cons (Bool.eq_false_iff.2 hcomment), List.filterMap_cons,
          List.filterMap_cons, hk, hrest]

/-- Every type that is declared is free of comments in fields. -/
def DeclaredClear (ctx : Context) : Prop :=
  ∀ aliases, ctx.aliases = some aliases → ∀ name u, aliases.lookup name = some u →
    u.Everywhere fun c cs => FieldsClear (.node c cs)

theorem resolve_annotation_withoutComments (hdeclared : DeclaredClear ctx)
    (ht : t.Everywhere fun c cs => Unmistaken ctx (.node c cs)) {aliases : TypeAliases}
    {annotated : ParseTree} (hkind : tableKind t.type = .variableBinding)
    (haliases : ctx.aliases = some aliases) (hannotated : t.inField? "type" = some annotated) :
    TypeAnnotation.resolve ctx.source aliases.withoutComments (withoutComments annotated) =
      TypeAnnotation.resolve ctx.source aliases annotated := by
  have hroot : Unmistaken ctx t := ht.self
  have hfields : annotated.Everywhere fun c cs => FieldsClear (.node c cs) :=
    Everywhere.imp (fun _ _ h => h.fields) annotated
      (ht.of_mem_children (mem_children_of_inField? hannotated))
  exact TypeAnnotation.resolve_withoutComments (hdeclared aliases haliases) aliases annotated
    (fun _ _ h => h) hfields (hroot.annotations hkind aliases annotated haliases hannotated)

/-- **What becomes of a construct without comments** is what becomes of the construct. -/
theorem conv_withoutComments (hdeclared : DeclaredClear ctx) (k : Task)
    (h : k.tree.Everywhere fun c cs => Unmistaken ctx (.node c cs)) :
    conv ctx.withoutComments k.withoutComments = conv ctx k := by
  induction hsize : k.tree.size using Nat.strongRecOn generalizing k with
  | ind size ih =>
      have htype : k.withoutComments.tree.type = k.tree.type := type_withoutComments k.tree
      by_cases hdropped : isDropped k.tree.type = true
      · rw [conv_of_isDropped ctx k hdropped, conv_of_isDropped _ _ (by rw [htype, hdropped])]
      have hkept : isDropped k.tree.type = false := Bool.eq_false_iff.2 hdropped
      by_cases htransparent : isTransparent k.tree.type = true
      · have hinside : expressionIn? k.withoutComments.tree =
            (expressionIn? k.tree).map withoutComments := expressionIn?_withoutComments
        rw [conv_of_isTransparent ctx k hkept htransparent,
          conv_of_isTransparent _ _ (by rw [htype, hkept]) (by rw [htype, htransparent]),
          hinside, htype]
        cases hinner : expressionIn? k.tree with
        | none => rfl
        | some inner =>
            have hlt := size_lt_of_expressionIn? hinner
            rw [hsize] at hlt
            exact ih inner.size hlt ⟨inner, k.role, k.tree.type⟩
              (h.of_mem_children (List.mem_of_find?_eq_some hinner)) rfl
      have hrecord : isTransparent k.tree.type = false := Bool.eq_false_iff.2 htransparent
      have hexpand := expand_withoutComments h.self fun aliases annotated hkind haliases =>
        resolve_annotation_withoutComments hdeclared h hkind haliases
      have hparts : (tasksWithoutComments (expand ctx k).tasks).filterMap
          (conv ctx.withoutComments) = (expand ctx k).tasks.filterMap (conv ctx) := by
        refine filterMap_tasksWithoutComments fun k' hk' => ?_
        have hlt := size_lt_of_mem_tasks hk'
        rw [hsize] at hlt
        exact ih k'.tree.size hlt k' ((standsIn_of_mem_tasks hk').everywhere h) rfl
      have hlabel : k.withoutComments.tree.label = k.tree.label := label_withoutComments k.tree
      rw [conv_of_record ctx k hkept hrecord,
        conv_of_record _ _ (by rw [htype, hkept]) (by rw [htype, hrecord]), record, record,
        hexpand, hlabel]
      show some ((expand ctx k).withoutComments.outcome _
        ((tasksWithoutComments (expand ctx k).tasks).filterMap _)) = _
      rw [hparts]
      rfl

/-! ## Whole files -/

/-- What conversion knows about a file, with its types if they count. -/
def contextOf (source : Bytes) (typed : Bool) (t : ParseTree) : Context :=
  ⟨source, if typed then some (TypeAliases.ofTree source t) else none⟩

theorem contextOf_withoutComments (source : Bytes) (typed : Bool) (t : ParseTree)
    (h : t.Everywhere fun c cs => Unmistaken (contextOf source typed t) (.node c cs)) :
    contextOf source typed (withoutComments t) = (contextOf source typed t).withoutComments := by
  cases typed with
  | false => rfl
  | true =>
      have hclear : t.Everywhere fun c cs => TypeAliases.Clear source (.node c cs) :=
        Everywhere.imp (fun _ _ h => ⟨h.fields, h.silent rfl⟩) t h
      show (⟨source, some _⟩ : Context) = ⟨source, some _⟩
      rw [TypeAliases.ofTree_withoutComments source t hclear]

theorem declaredClear_contextOf (source : Bytes) (typed : Bool) (t : ParseTree)
    (h : t.Everywhere fun c cs => Unmistaken (contextOf source typed t) (.node c cs)) :
    DeclaredClear (contextOf source typed t) := by
  intro aliases haliases name u hu
  cases typed with
  | false => cases haliases
  | true =>
      cases haliases
      exact Everywhere.imp (fun _ _ h => h.fields) u (TypeAliases.everywhere_of_lookup h hu)

/-- **Comments are invisible.** The program tree of a file is that of the file without its comments,
if no comment is mistaken for a part of a construct. -/
theorem convert_withoutComments (source : Bytes) (typed : Bool) (t : ParseTree)
    (h : t.Everywhere fun c cs => Unmistaken (contextOf source typed t) (.node c cs)) :
    convert (contextOf source typed (withoutComments t)) (withoutComments t) =
      convert (contextOf source typed t) t := by
  have hconv := conv_withoutComments (declaredClear_contextOf source typed t h) ⟨t, none, ""⟩ h
  have hrecursively : recursively (contextOf source typed t).withoutComments (withoutComments t) =
      recursively (contextOf source typed t) t := by
    unfold recursively
    rw [← hconv, type_withoutComments]
    rfl
  rw [contextOf_withoutComments source typed t h, convert_eq_convertLogged,
    convert_eq_convertLogged, convertLogged_eq_recursively, convertLogged_eq_recursively,
    hrecursively]

/-! ### A comment before a declaration -/

/-- A construct without fields for comments that is no attribute, no property and no binding. -/
theorem unmistaken_of_kind {c : Construct} {cs : List ParseTree}
    (hfields : ∀ d ∈ cs, d.field ≠ none → isComment d = false)
    (hattribute : c.type ≠ "jsx_attribute") (hproperty : tableKind c.type ≠ .objectProperty)
    (hbinding : tableKind c.type ≠ .variableBinding)
    (hcomment : isComment (.node c cs) = true → cs = []) : Unmistaken ctx (.node c cs) where
  fields := fieldsClear_of_forall hfields
  names htype := absurd htype hattribute
  keys hkind := absurd hkind hproperty
  annotations hkind := absurd hkind hbinding
  silent _ h := by
    rw [hcomment h]
    rfl

/-- The source of a declaration with a comment before it. -/
def declarationSource : Bytes := Utf8.encode (Text.ofString "/*c*/let x:'a'")

/-- Its parse tree. -/
def declarationTree : ParseTree :=
  .node ⟨"program", true, none, 0, 14⟩ [
    .node ⟨"comment", true, none, 0, 5⟩ [],
    .node ⟨"lexical_declaration", true, none, 5, 14⟩ [
      .node ⟨"let", false, some "kind", 5, 8⟩ [],
      .node ⟨"variable_declarator", true, none, 9, 14⟩ [
        .node ⟨"identifier", true, some "name", 9, 10⟩ [],
        .node ⟨"type_annotation", true, some "type", 10, 14⟩ [
          .node ⟨":", false, none, 10, 11⟩ [],
          .node ⟨"literal_type", true, none, 11, 14⟩ [
            .node ⟨"string", true, none, 11, 14⟩ []]]]]]

theorem legible_declared (source : Bytes) (aliases : TypeAliases) :
    TypeAnnotation.Legible source aliases
      (.node ⟨"type_annotation", true, some "type", 10, 14⟩ [
        .node ⟨":", false, none, 10, 11⟩ [],
        .node ⟨"literal_type", true, none, 11, 14⟩ [
          .node ⟨"string", true, none, 11, 14⟩ []]]) := by
  have hstring : TypeAnnotation.Legible source aliases (.node ⟨"string", true, none, 11, 14⟩ []) := by
    refine TypeAnnotation.legible_of_reads (by decide) fun u hu => ?_
    cases hu with
    | inside htype _ => exact absurd htype (by decide)
    | member htype _ => exact absurd htype (by decide)
    | property htype _ _ _ => exact absurd htype (by decide)
    | declared htype _ => exact absurd htype (by decide)
  have hliteral : TypeAnnotation.Legible source aliases
      (.node ⟨"literal_type", true, none, 11, 14⟩ [.node ⟨"string", true, none, 11, 14⟩ []]) := by
    refine TypeAnnotation.legible_of_reads (by decide) fun u hu => ?_
    cases hu with
    | inside _ hfirst =>
        cases hfirst
        exact hstring
    | member htype _ => exact absurd htype (by decide)
    | property htype _ _ _ => exact absurd htype (by decide)
    | declared htype _ => exact absurd htype (by decide)
  refine TypeAnnotation.legible_of_reads (by decide) fun u hu => ?_
  cases hu with
  | inside _ hfirst =>
      cases hfirst
      exact hliteral
  | member htype _ => exact absurd htype (by decide)
  | property htype _ _ _ => exact absurd htype (by decide)
  | declared htype _ => exact absurd htype (by decide)

theorem convert_declarationTree :
    (declarationTree.Everywhere fun c cs =>
      Unmistaken (contextOf declarationSource true declarationTree) (.node c cs)) ∧
    convert (contextOf declarationSource true (withoutComments declarationTree))
        (withoutComments declarationTree) =
      convert (contextOf declarationSource true declarationTree) declarationTree := by
  have hclear : declarationTree.Everywhere fun c cs =>
      Unmistaken (contextOf declarationSource true declarationTree) (.node c cs) := by
    simp only [declarationTree, Everywhere, ForestEverywhere, and_true]
    refine ⟨?_, ?_, ?_, ?_, ?_, ?_, ?_, ?_, ?_, ?_⟩
    case refine_5 =>
      exact {
        fields := fieldsClear_of_forall (by decide)
        names := fun htype => absurd htype (by decide)
        keys := fun hkind => absurd hkind (by decide)
        annotations := fun _ aliases annotated _ hannotated => by
          cases hannotated
          exact legible_declared _ aliases
        silent := fun _ hcomment => absurd hcomment (by decide) }
    all_goals
      exact unmistaken_of_kind (by decide) (by decide) (by decide) (by decide) (by decide)
  exact ⟨hclear, convert_withoutComments declarationSource true declarationTree hclear⟩

/-! ### A comment in a key -/

/-- The source of a property whose key in brackets has a comment before its expression. -/
def keySource : Bytes := Utf8.encode (Text.ofString "(\x7b[/*c*/ 'a']: 'Hello'\x7d)")

/-- Its parse tree. -/
def keyTree : ParseTree :=
  .node ⟨"program", true, none, 0, 24⟩ [
    .node ⟨"expression_statement", true, none, 0, 24⟩ [
      .node ⟨"parenthesized_expression", true, none, 0, 24⟩ [
        .node ⟨"(", false, none, 0, 1⟩ [],
        .node ⟨"object", true, none, 1, 23⟩ [
          .node ⟨"\x7b", false, none, 1, 2⟩ [],
          .node ⟨"pair", true, none, 2, 22⟩ [
            .node ⟨"computed_property_name", true, some "key", 2, 13⟩ [
              .node ⟨"[", false, none, 2, 3⟩ [],
              .node ⟨"comment", true, none, 3, 8⟩ [],
              .node ⟨"string", true, none, 9, 12⟩ [
                .node ⟨"'", false, none, 9, 10⟩ [],
                .node ⟨"string_fragment", true, none, 10, 11⟩ [],
                .node ⟨"'", false, none, 11, 12⟩ []],
              .node ⟨"]", false, none, 12, 13⟩ []],
            .node ⟨":", false, none, 13, 14⟩ [],
            .node ⟨"string", true, some "value", 15, 22⟩ [
              .node ⟨"'", false, none, 15, 16⟩ [],
              .node ⟨"string_fragment", true, none, 16, 21⟩ [],
              .node ⟨"'", false, none, 21, 22⟩ []]],
          .node ⟨"\x7d", false, none, 22, 23⟩ []],
        .node ⟨")", false, none, 23, 24⟩ []]]]

/-- The comment is taken for the expression in the key, and the property is left without a key. -/
theorem convert_keyTree_ne :
    isComment keyTree = false ∧
      convert (contextOf keySource false (withoutComments keyTree)) (withoutComments keyTree) ≠
        convert (contextOf keySource false keyTree) keyTree := by
  refine ⟨by decide, fun hsame => ?_⟩
  have hsizes := congrArg (fun c => c.tree.size) hsame
  have hwithout : (convert (contextOf keySource false (withoutComments keyTree))
      (withoutComments keyTree)).tree.size = 6 := by decide +kernel
  have hwith : (convert (contextOf keySource false keyTree) keyTree).tree.size = 5 := by
    decide +kernel
  rw [hwithout, hwith] at hsizes
  cases hsizes

end Conversion

end LiteralLint
