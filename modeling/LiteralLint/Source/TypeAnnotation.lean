import LiteralLint.Source.ParseTree
import LiteralLint.Source.NumberLiteral
import LiteralLint.Source.StringLiteral

/-!
# Type annotations

An annotation is reduced to a declared type. Names of types that the file itself declares are
expanded; a name that occurs within its own expansion stays a reference, so that expanding ends
for every set of declarations.

## Main definitions

* `TypeAliases`: the declarations of a file.
* `TypeAnnotation.resolve`: the declared type of an annotation, with the names that were expanded.
-/

namespace LiteralLint

/-- The types that a file declares, by name. -/
abbrev TypeAliases := List (Text × ParseTree)

namespace TypeAliases

/-- The declarations without those of a name. -/
def without (name : Text) (as : TypeAliases) : TypeAliases := as.filter fun a => a.1 != name

theorem length_without_lt {name : Text} {as : TypeAliases} {t : ParseTree}
    (h : as.lookup name = some t) : (as.without name).length < as.length := by
  induction as with
  | nil => simp at h
  | cons a rest ih =>
    obtain ⟨k, u⟩ := a
    by_cases hk : name = k
    · subst hk
      have := List.length_filter_le (fun a : Text × ParseTree => a.1 != name) rest
      simp only [without, List.filter_cons, bne_self_eq_false, Bool.false_eq_true, if_false,
        List.length_cons]
      omega
    · have hb : (name == k) = false := by simpa using hk
      have hb' : (k != name) = true := by simpa using fun e => hk e.symm
      rw [List.lookup_cons, hb] at h
      have := ih h
      simp only [without, List.filter_cons, hb', if_true, List.length_cons] at this ⊢
      omega

/-- The name and the body that a construct declares, if it declares a type. -/
def declaration? (source : Bytes) (t : ParseTree) : Option (Text × ParseTree) :=
  let body := if t.type == "type_alias_declaration" then t.inField? "value"
    else if t.type == "interface_declaration" then t.inField? "body"
    else none
  match t.fieldText? source "name", body with
  | some name, some b => some (name, b)
  | _, _ => none

mutual

/-- The declarations of a tree put in front of others, so that the last declaration of a name is
the first that is found. -/
def collect (source : Bytes) (found : TypeAliases) : ParseTree → TypeAliases
  | .node c cs =>
    collectAll source ((declaration? source (.node c cs)).toList ++ found) cs

/-- The declarations of a list of trees put in front of others. -/
def collectAll (source : Bytes) (found : TypeAliases) : List ParseTree → TypeAliases
  | [] => found
  | t :: rest => collectAll source (collect source found t) rest

end

/-- The types that a file declares. -/
def ofTree (source : Bytes) (t : ParseTree) : TypeAliases := collect source [] t

end TypeAliases

namespace TypeAnnotation

/-- The expansion of a name, and the form of the type it stands for. -/
structure Expansion where
  name : Text
  form : String
  deriving DecidableEq

/-- What an annotation resolves to, and the names expanded on the way, innermost first. -/
structure Resolution (α : Type) where
  result : α
  expansions : List Expansion := []

namespace Resolution

variable {α β : Type}

/-- The resolution with its result changed. -/
def map (f : α → β) (r : Resolution α) : Resolution β := ⟨f r.result, r.expansions⟩

/-- One resolution after another. -/
def both (f : α → β → α) (r : Resolution β) (s : Resolution α) : Resolution α :=
  ⟨f s.result r.result, r.expansions ++ s.expansions⟩

/-- The resolution of a name, from that of the type it stands for. A type that declares nothing
leaves the name as it is. -/
def named (name : Text) (r : Resolution (Option DeclaredType)) : Resolution (Option DeclaredType) :=
  match r.result with
  | none => ⟨some (.reference (some name)), r.expansions⟩
  | some t => ⟨some t, r.expansions ++ [⟨name, t.form⟩]⟩

end Resolution

/-- Constructs that stand for their first named child. -/
def isWrapper (type : String) : Bool :=
  type == "type_annotation" || type == "parenthesized_type" || type == "opting_type_annotation"

/-- The value of the construct inside a literal type. -/
def literalValue (source : Bytes) (t : ParseTree) : Datum :=
  if t.type == "string" then .text (StringLiteral.value (t.text source))
  else if t.type == "true" then .flag true
  else if t.type == "false" then .flag false
  else if t.type == "null" || t.type == "undefined" then .missing
  else NumberLiteral.realValue (t.text source)

/-- A literal type; it is opaque if nothing is inside. -/
def literalType (source : Bytes) (t : ParseTree) : DeclaredType :=
  match t.namedChildren with
  | [] => .other none
  | inner :: _ => .literal (literalValue source inner)

/-- The key of a property. -/
def propertyKey (source : Bytes) (name : ParseTree) : Text :=
  if name.type == "string" then StringLiteral.value (name.text source) else name.text source

/-- Sets the property that a member declares, if it has a name and a type. -/
def addProperty (key : Option Text) (properties : List (Text × DeclaredType))
    (declared : Option DeclaredType) : List (Text × DeclaredType) :=
  match key, declared with
  | some k, some t => DeclaredType.setProperty k t properties
  | _, _ => properties

/-! ### Sizes -/

theorem sizeOf_children_lt (c : Construct) (cs : List ParseTree) :
    sizeOf cs < sizeOf (Tree.node c cs) := by
  simp only [Tree.node.sizeOf_spec]; omega

/-! ### Resolving -/

mutual

/-- The type that an annotation declares, if it declares one. -/
def resolve (source : Bytes) (aliases : TypeAliases) :
    ParseTree → Resolution (Option DeclaredType)
  | .node c cs =>
    let text : Text := ParseTree.text source (.node c cs)
    if isWrapper c.type then resolveFirst source aliases ParseTree.named cs
    else if c.type == "literal_type" then ⟨some (literalType source (.node c cs)), []⟩
    else if c.type == "union_type" then
      (resolveNamed source aliases cs).map fun ts => some (.union ts)
    else if c.type == "intersection_type" then
      (resolveNamed source aliases cs).map fun ts => some (.intersection ts)
    else if c.type == "object_type" || c.type == "interface_body" then
      (resolveMembers source aliases [] cs).map fun ps => some (.object ps)
    else if c.type == "predefined_type" then ⟨some (.keyword (some text)), []⟩
    else if c.type == "type_identifier" then
      match _declared : aliases.lookup text with
      | none => ⟨some (.reference (some text)), []⟩
      | some target => (resolve source (aliases.without text) target).named text
    else ⟨some (.other (some text)), []⟩
termination_by t => (aliases.length, sizeOf t)
decreasing_by
  all_goals first
    | exact Prod.Lex.left _ _ (TypeAliases.length_without_lt (by assumption))
    | exact Prod.Lex.right _ (sizeOf_children_lt _ _)

/-- The type that the first child of a kind declares. -/
def resolveFirst (source : Bytes) (aliases : TypeAliases) (wanted : ParseTree → Bool) :
    List ParseTree → Resolution (Option DeclaredType)
  | [] => ⟨none, []⟩
  | t :: rest =>
    if wanted t then resolve source aliases t else resolveFirst source aliases wanted rest
termination_by ts => (aliases.length, sizeOf ts)

/-- The types that the named children declare. -/
def resolveNamed (source : Bytes) (aliases : TypeAliases) :
    List ParseTree → Resolution (List DeclaredType)
  | [] => ⟨[], []⟩
  | t :: rest =>
    if t.named then
      (resolve source aliases t).both (fun ts t => t.toList ++ ts) (resolveNamed source aliases rest)
    else resolveNamed source aliases rest
termination_by ts => (aliases.length, sizeOf ts)

/-- The properties that the members of an object type declare, after others. -/
def resolveMembers (source : Bytes) (aliases : TypeAliases)
    (before : List (Text × DeclaredType)) :
    List ParseTree → Resolution (List (Text × DeclaredType))
  | [] => ⟨before, []⟩
  | .node c cs :: rest =>
    if c.type == "property_signature" then
      let key := (ParseTree.inField? "name" (.node c cs)).map (propertyKey source)
      let declared := resolveFirst source aliases (fun t => t.field == some "type") cs
      let later := resolveMembers source aliases (addProperty key before declared.result) rest
      ⟨later.result, declared.expansions ++ later.expansions⟩
    else resolveMembers source aliases before rest
termination_by ts => (aliases.length, sizeOf ts)

end

end TypeAnnotation

end LiteralLint
