import LiteralLint.Proofs.CommentFree
import LiteralLint.Proofs.Conversion

/-!
# The two forms of an element

An element is written with one tag that closes itself, or with an opening and a closing tag. Conversion
takes different ways: for one tag it makes the opening itself, around which it puts the element, and
for two tags the opening is a part that is converted like any other and gives the element its name.
Both end in the same place, because a part is converted by what it is and by the role that it plays;
of the construct around it only objects matter, for the methods in them. Closing tags are dropped.

The types that a file declares are collected from all of it, closing tags included. A closing tag of
the grammar has a name and brackets, so none is declared there, and the two forms of a file of one
element are converted with the same types.

## Main definitions

* `ParseTree.oneTag`, `ParseTree.twoTags`: the two forms.
* `Node.bare`: a node without its text, its place and what its producer calls it.
* `Conversion.SameElement`: two elements that differ in these only, with the same parts.

## Main results

* `Conversion.conv_within`: what matters of the construct around a part.
* `Conversion.run_waiting`: a construct that is converted in a role.
* `Conversion.convert_forms`: **the two forms are converted alike**.
-/

namespace LiteralLint

/-! ## Forms -/

/-- A node without its text, its place and what its producer calls it. -/
def Node.bare (n : Node) : Node := { n with text := .text [], span := none, label := "" }

namespace ParseTree

/-- An element with one tag. -/
def oneTag (c : Construct) (parts : List ParseTree) : ParseTree :=
  .node { c with type := "jsx_self_closing_element" } parts

/-- An opening tag. -/
def openingTag (c : Construct) (parts : List ParseTree) : ParseTree :=
  .node { c with type := "jsx_opening_element", named := true, field := some "open_tag" } parts

/-- A closing tag. -/
def closingTag (c : Construct) (parts : List ParseTree) : ParseTree :=
  .node { c with type := "jsx_closing_element" } parts

/-- An element of an opening tag and perhaps a closing tag, with nothing in between. -/
def twoTags (c opening : Construct) (parts : List ParseTree)
    (closing : Option (Construct × List ParseTree)) : ParseTree :=
  .node { c with type := "jsx_element" }
    (openingTag opening parts :: closing.toList.map fun x => closingTag x.1 x.2)

end ParseTree

namespace Conversion

open ParseTree (oneTag twoTags openingTag closingTag)

/-- Elements with a role and a name, and with the same parts in an opening of that name, which differ
in the text, the place and the producer's label of the element and of the opening only. -/
def SameElement (role : Option String) (name : Datum) (t u : Tree Node) : Prop :=
  ∃ element element' opening opening' parts,
    t = .node element [.node opening parts] ∧ u = .node element' [.node opening' parts] ∧
      element.bare = element'.bare ∧ opening.bare = opening'.bare ∧
      (element.kind = .element ∧ element.role = role ∧ element.name = name) ∧
      opening.kind = .elementOpening ∧ opening.role = some "opening" ∧ opening.name = name

/-! ## What matters of the construct around a part -/

/-- Only methods are told apart by the construct around them, by whether it is an object. -/
theorem expand_within (ctx : Context) (t : ParseTree) (role : Option String) {within within' : String}
    (h : (within == "object") = (within' == "object")) :
    expand ctx ⟨t, role, within⟩ = expand ctx ⟨t, role, within'⟩ := by
  unfold expand
  dsimp only
  rw [h]

/-- **What matters of the construct around a part** is whether it is an object. -/
theorem conv_within (ctx : Context) (t : ParseTree) (role : Option String) {within within' : String}
    (h : (within == "object") = (within' == "object")) :
    conv ctx ⟨t, role, within⟩ = conv ctx ⟨t, role, within'⟩ := by
  cases hdropped : isDropped t.type with
  | true => rw [conv_of_isDropped ctx _ hdropped, conv_of_isDropped ctx _ hdropped]
  | false =>
      cases htransparent : isTransparent t.type with
      | true =>
          rw [conv_of_isTransparent ctx _ hdropped htransparent,
            conv_of_isTransparent ctx _ hdropped htransparent]
      | false =>
          rw [conv_of_record ctx _ hdropped htransparent,
            conv_of_record ctx _ hdropped htransparent]
          unfold record
          rw [expand_within ctx t role h]

/-- The parts of a tag in their roles, whichever tag it is. -/
theorem conv_childTasks_tag (ctx : Context) (c o : Construct) (parts : List ParseTree) :
    (childTasks (oneTag c parts)).filterMap (conv ctx) =
      (childTasks (openingTag o parts)).filterMap (conv ctx) := by
  unfold childTasks
  rw [List.filterMap_map, List.filterMap_map]
  refine List.filterMap_congr fun part _ => ?_
  have hwithin : ("jsx_self_closing_element" == "object") = ("jsx_opening_element" == "object") := by
    decide
  exact conv_within ctx part _ hwithin

/-! ## The records of the two forms -/

section

variable (ctx : Context) (c opening : Construct) (parts : List ParseTree)

/-- The opening node of either form. -/
def openingNode (t : ParseTree) : Node :=
  { plainNode ctx t (some "opening") with kind := .elementOpening, name := fieldName ctx "name" t }

theorem expand_oneTag (role : Option String) (within : String) :
    expand ctx ⟨oneTag c parts, role, within⟩ =
      { node := openingNode ctx (oneTag c parts)
        tasks := childTasks (oneTag c parts)
        around := some { plainNode ctx (oneTag c parts) role with
          kind := .element, name := fieldName ctx "name" (oneTag c parts) } } := rfl

theorem expand_openingTag (within : String) :
    expand ctx ⟨openingTag opening parts, some "opening", within⟩ =
      { node := openingNode ctx (openingTag opening parts)
        tasks := childTasks (openingTag opening parts) } := rfl

theorem expand_twoTags (closing : Option (Construct × List ParseTree)) (role : Option String)
    (within : String) :
    expand ctx ⟨twoTags c opening parts closing, role, within⟩ =
      element (twoTags c opening parts closing)
        (plainNode ctx (twoTags c opening parts closing) role) := rfl

/-- What is below the opening of either form. -/
def below : List Outcome := (childTasks (openingTag opening parts)).filterMap (conv ctx)

/-- The record of an element with one tag: what is below the tag is below its opening. -/
theorem record_oneTag (role : Option String) (within : String) :
    (record ctx ⟨oneTag c parts, role, within⟩).toConverted =
      ⟨.node { plainNode ctx (oneTag c parts) role with
          kind := .element, name := fieldName ctx "name" (oneTag c parts) }
        [.node (openingNode ctx (oneTag c parts)) ((below ctx opening parts).map fun p => p.tree)],
        (below ctx opening parts).flatMap fun p => p.expansions⟩ := by
  have hname := namedAfter_of_kind (n := openingNode ctx (oneTag c parts)) nofun nofun
  unfold record
  rw [expand_oneTag, conv_childTasks_tag ctx c opening parts]
  unfold Expansion.outcome
  dsimp only
  rw [hname]
  rfl

/-- The record of an opening tag. -/
theorem record_openingTag (within : String) :
    (record ctx ⟨openingTag opening parts, some "opening", within⟩).toConverted =
      ⟨.node (openingNode ctx (openingTag opening parts))
          ((below ctx opening parts).map fun p => p.tree),
        (below ctx opening parts).flatMap fun p => p.expansions⟩ := by
  have hname := namedAfter_of_kind (n := openingNode ctx (openingTag opening parts)) nofun nofun
  unfold record
  rw [expand_openingTag]
  unfold Expansion.outcome
  dsimp only
  rw [hname]
  rfl

/-- The opening is all that there is to convert in an element with two tags. -/
theorem conv_tasks_twoTags (closing : Option (Construct × List ParseTree)) (n : Node) :
    (element (twoTags c opening parts closing) n).tasks.filterMap (conv ctx) =
      [record ctx ⟨openingTag opening parts, some "opening", "jsx_element"⟩] := by
  have hopening : conv ctx ⟨openingTag opening parts, some "opening", "jsx_element"⟩ = some
      (record ctx ⟨openingTag opening parts, some "opening", "jsx_element"⟩) :=
    conv_of_record ctx _ rfl rfl
  have htasks : ∃ others, (element (twoTags c opening parts closing) n).tasks =
      ⟨openingTag opening parts, some "opening", "jsx_element"⟩ :: others ∧
        ∀ k ∈ others, isDropped k.tree.type = true := by
    refine ⟨_, rfl, fun k hk => ?_⟩
    obtain ⟨t, ht, rfl⟩ := List.mem_map.1 hk
    obtain ⟨x, -, rfl⟩ := List.mem_map.1 (List.mem_filter.1 ht).1
    rfl
  obtain ⟨others, htasks, hdropped⟩ := htasks
  rw [htasks, List.filterMap_cons_some hopening, List.filterMap_eq_nil_iff.2]
  exact fun k hk => conv_of_isDropped ctx k (hdropped k hk)

/-- The record of an element with two tags: it takes the name of its opening. -/
theorem record_twoTags (closing : Option (Construct × List ParseTree)) (role : Option String)
    (within : String) :
    (record ctx ⟨twoTags c opening parts closing, role, within⟩).toConverted =
      ⟨.node { plainNode ctx (twoTags c opening parts closing) role with
          kind := .element, name := fieldName ctx "name" (openingTag opening parts) }
        [.node (openingNode ctx (openingTag opening parts))
          ((below ctx opening parts).map fun p => p.tree)],
        (below ctx opening parts).flatMap fun p => p.expansions⟩ := by
  have hopening := record_openingTag ctx opening parts "jsx_element"
  have htree := congrArg Converted.tree hopening
  have hexpansions := congrArg Converted.expansions hopening
  dsimp only at htree hexpansions
  unfold record
  rw [expand_twoTags, conv_tasks_twoTags]
  unfold Expansion.outcome element
  dsimp only
  rw [List.map_singleton, List.map_singleton, List.flatMap_singleton, htree, hexpansions]
  rfl

/-- The records of the two forms are the same element. -/
theorem sameElement_record (c' : Construct) (closing : Option (Construct × List ParseTree))
    (role : Option String) (within : String) :
    SameElement role (fieldName ctx "name" (oneTag c parts))
        (record ctx ⟨oneTag c parts, role, within⟩).tree
        (record ctx ⟨twoTags c' opening parts closing, role, within⟩).tree ∧
      (record ctx ⟨oneTag c parts, role, within⟩).expansions =
        (record ctx ⟨twoTags c' opening parts closing, role, within⟩).expansions := by
  have hone := record_oneTag ctx c opening parts role within
  have htwo := record_twoTags ctx c' opening parts closing role within
  refine ⟨⟨_, _, _, _, _, congrArg Converted.tree hone, congrArg Converted.tree htwo, rfl, rfl,
    ⟨rfl, rfl, rfl⟩, rfl, rfl, rfl⟩, ?_⟩
  exact (congrArg Converted.expansions hone).trans (congrArg Converted.expansions htwo).symm

end

/-! ## Constructs in a role and in a file -/

/-- A frame in which a construct waits to be converted in a role. -/
def Frame.waiting (role : Option String) (within : String) (t : ParseTree) : Frame :=
  { node := { kind := .other }, tasks := [⟨t, role, within⟩] }

/-- A construct that is converted in a role. -/
theorem run_waiting {ctx : Context} {t : ParseTree} {role : Option String} {within : String}
    {p : Outcome} (h : conv ctx ⟨t, role, within⟩ = some p) :
    run ctx [] (.waiting role within t) [] = ⟨.node { kind := .other } [p.tree], p.expansions⟩ := by
  rw [run_eq_runLogged ctx [] [], runLogged_eq_unwound ctx [] [] _ [] (Or.inl rfl) (by simp), unwound,
    Frame.waiting, Frame.finished_of_some rfl h, Frame.finished_nil ctx (tasks_hear _ _)]
  simp [Outcome.after, Frame.take, Frame.hear, Frame.add, Frame.close]

theorem convert_of_conv {ctx : Context} {t : ParseTree} {p : Outcome}
    (h : conv ctx ⟨t, none, ""⟩ = some p) : convert ctx t = p.toConverted := by
  rw [convert_eq_convertLogged, convertLogged_eq_recursively, recursively, h]
  rfl

/-- Only an alias and an interface declare a type. -/
theorem declaration?_of_type {t : ParseTree} (halias : (t.type == "type_alias_declaration") = false)
    (hinterface : (t.type == "interface_declaration") = false) (source : Bytes) :
    TypeAliases.declaration? source t = none := by
  unfold TypeAliases.declaration?
  rw [halias, hinterface]
  cases t.fieldText? source "name" <;> rfl

/-- In a file of one element, a closing tag matters for the types that it declares. -/
theorem contextOf_twoTags (source : Bytes) (typed : Bool) (c c' opening : Construct)
    (parts : List ParseTree) (closing : Option (Construct × List ParseTree))
    (h : typed = true → ∀ x ∈ closing, TypeAliases.ofTree source (closingTag x.1 x.2) = []) :
    contextOf source typed (twoTags c' opening parts closing) =
      contextOf source typed (oneTag c parts) := by
  cases typed with
  | false => rfl
  | true =>
      have hopening : TypeAliases.ofTree source (openingTag opening parts) =
          TypeAliases.ofTree source (oneTag c parts) := rfl
      have hclosing : TypeAliases.collectAll source []
          (closing.toList.map fun x => closingTag x.1 x.2) = [] := by
        cases closing with
        | none => rfl
        | some x => exact h rfl x rfl
      have hfile : TypeAliases.ofTree source (twoTags c' opening parts closing) =
          TypeAliases.ofTree source (oneTag c parts) := by
        rw [TypeAliases.ofTree_eq, declaration?_of_type rfl rfl]
        show TypeAliases.collectAll source []
          (openingTag opening parts :: closing.toList.map fun x => closingTag x.1 x.2) ++ [] = _
        rw [List.append_nil, TypeAliases.collectAll_cons, hclosing, hopening, List.nil_append]
      unfold contextOf
      rw [if_pos rfl, if_pos rfl, hfile]

/-- **The two forms are converted alike**: in every role, with the same knowledge about the file,
to elements that differ in the text, the place and the producer's label of the element and of the
opening only, with the same types expanded on the way; and as files, if no type is declared in a
closing tag where types count. -/
theorem convert_forms (c c' opening : Construct) (parts : List ParseTree)
    (closing : Option (Construct × List ParseTree)) :
    (∀ ctx role within, ∃ t u expansions,
        run ctx [] (.waiting role within (oneTag c parts)) [] =
            ⟨.node { kind := .other } [t], expansions⟩ ∧
          run ctx [] (.waiting role within (twoTags c' opening parts closing)) [] =
            ⟨.node { kind := .other } [u], expansions⟩ ∧
          SameElement role (fieldName ctx "name" (oneTag c parts)) t u) ∧
      ∀ source typed,
        (typed = true → ∀ x ∈ closing, TypeAliases.ofTree source (closingTag x.1 x.2) = []) →
        let one := convert (contextOf source typed (oneTag c parts)) (oneTag c parts)
        let two := convert (contextOf source typed (twoTags c' opening parts closing))
          (twoTags c' opening parts closing)
        SameElement none (fieldName (contextOf source typed (oneTag c parts)) "name" (oneTag c parts))
          one.tree two.tree ∧ one.expansions = two.expansions := by
  have hone : ∀ ctx role within, conv ctx ⟨oneTag c parts, role, within⟩ =
      some (record ctx ⟨oneTag c parts, role, within⟩) := fun ctx role within =>
    conv_of_record ctx _ rfl rfl
  have htwo : ∀ ctx role within, conv ctx ⟨twoTags c' opening parts closing, role, within⟩ =
      some (record ctx ⟨twoTags c' opening parts closing, role, within⟩) := fun ctx role within =>
    conv_of_record ctx _ rfl rfl
  constructor
  · intro ctx role within
    obtain ⟨hsame, hexpansions⟩ := sameElement_record ctx c opening parts c' closing role within
    refine ⟨_, _, _, run_waiting (hone ctx role within), ?_, hsame⟩
    rw [run_waiting (htwo ctx role within), hexpansions]
  · intro source typed hclosing
    dsimp only
    rw [contextOf_twoTags source typed c c' opening parts closing hclosing,
      convert_of_conv (hone _ none ""), convert_of_conv (htwo _ none "")]
    exact sameElement_record _ c opening parts c' closing none ""

/-! ### A parameter in a tag -/

/-- The source of a parameter. -/
def parameterSource : Bytes := Utf8.encode (Text.ofString "x:T")

/-- A parameter with a type, as the only part of an element. -/
def parameterParts : List ParseTree := [
  .node ⟨"required_parameter", true, none, 0, 3⟩ [
    .node ⟨"identifier", true, some "pattern", 0, 1⟩ [],
    .node ⟨"type_annotation", true, some "type", 1, 3⟩ [
      .node ⟨":", false, none, 1, 2⟩ [],
      .node ⟨"type_identifier", true, none, 2, 3⟩ []]]]

/-- A closing tag with nothing but its brackets. -/
theorem convert_forms_closed :
    (∀ x ∈ (some (default, []) : Option (Construct × List ParseTree)),
        TypeAliases.ofTree parameterSource (closingTag x.1 x.2) = []) ∧
      SameElement none .missing
        (convert (contextOf parameterSource true (oneTag default parameterParts))
          (oneTag default parameterParts)).tree
        (convert (contextOf parameterSource true
            (twoTags default default parameterParts (some (default, []))))
          (twoTags default default parameterParts (some (default, [])))).tree := by
  have hclosing : ∀ x ∈ (some (default, []) : Option (Construct × List ParseTree)),
      TypeAliases.ofTree parameterSource (closingTag x.1 x.2) = [] := by
    intro x hx
    cases hx
    rfl
  obtain ⟨-, hfiles⟩ := convert_forms default default default parameterParts (some (default, []))
  exact ⟨hclosing, (hfiles parameterSource true fun _ => hclosing).1⟩

end Conversion

end LiteralLint
