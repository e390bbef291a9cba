import Mathlib.Data.List.DropRight
import LiteralLint.Options.Merge

/-!
# Extending options

Options are extended through their record: it is written out under underscored names, values are put
at the end of its lists, and the result is read like any other record. A record that was written out
has every name once and every value of the right form, so reading it back cannot fail; what reading
does to it is to trim the names of callees once more. Options that were read before are trimmed
already, and then an extension is seen in the lists it extends and nowhere else.

## Main definitions

* `Options.Valid`: options as reading leaves them.
* `Options.Extension`: values to add, by field.

## Main results

* `Options.valid_of_ofJson`: what is read is valid.
* `Options.ofJson_toJson`: valid options read back as themselves.
* `Options.merged_members`: extended options are valid, and each list is the old one with the new
  values after it.
-/

namespace LiteralLint

/-! ## Trimmed names -/

namespace Text

theorem stripOf_eq (drop : CodePoint → Bool) (t : Text) :
    stripOf drop t = (t.dropWhile drop).rdropWhile drop := rfl

theorem stripOf_stripOf (drop : CodePoint → Bool) (t : Text) :
    stripOf drop (stripOf drop t) = stripOf drop t := by
  rw [stripOf_eq drop t]
  generalize hbody : t.dropWhile drop = body
  -- what is left has no such code point in front: it is empty or begins as the body does
  have hfront : (body.rdropWhile drop).dropWhile drop = body.rdropWhile drop := by
    rw [List.dropWhile_eq_self_iff]
    intro hpos
    have hprefix := List.rdropWhile_prefix drop (l := body)
    have hbodypos : 0 < body.length := Nat.lt_of_lt_of_le hpos hprefix.length_le
    have hhead : (body.rdropWhile drop)[0] = body[0] := hprefix.getElem hpos
    rw [hhead]
    subst hbody
    exact List.dropWhile_get_zero_not drop t hbodypos
  rw [stripOf_eq, hfront, List.rdropWhile_idempotent]

theorem strip_strip (t : Text) : strip (strip t) = strip t := stripOf_stripOf isBlank t

end Text

namespace Options

theorem normalized_append (f : Field) (ts us : List Text) :
    normalized f (ts ++ us) = normalized f ts ++ normalized f us := by
  cases f <;> simp [normalized]

/-- Trimming a second time changes nothing. -/
theorem normalized_normalized (f : Field) (ts : List Text) :
    normalized f (normalized f ts) = normalized f ts := by
  have htrimmed : ∀ us : List Text,
      (((us.map Text.strip).filter fun t => !t.isEmpty).map Text.strip).filter (fun t => !t.isEmpty) =
        (us.map Text.strip).filter fun t => !t.isEmpty := by
    intro us
    have hmap : ((us.map Text.strip).filter fun t => !t.isEmpty).map Text.strip =
        (us.map Text.strip).filter fun t => !t.isEmpty := by
      refine (List.map_congr_left ?_).trans (List.map_id _)
      intro t ht
      obtain ⟨u, -, rfl⟩ := List.mem_map.1 (List.mem_filter.1 ht).1
      exact Text.strip_strip u
    rw [hmap, List.filter_filter]
    simp only [Bool.and_self]
  cases f with
  | ignoreCallee => exact htrimmed ts
  | ignoreTranslatorCallee => exact htrimmed ts
  | ignore => rfl
  | ignoreProperties => rfl
  | ignoreAttributes => rfl

/-! ## Valid options -/

/-- Options as reading leaves them: the names of callees are trimmed and none is blank. -/
def Valid (o : Options) : Prop := ∀ f, normalized f (o.get f) = o.get f

/-- The options with their names of callees trimmed. -/
def trimmed (o : Options) : Options :=
  { o with
    ignoreCallee := normalized .ignoreCallee o.ignoreCallee
    ignoreTranslatorCallee := normalized .ignoreTranslatorCallee o.ignoreTranslatorCallee }

theorem get_trimmed (o : Options) (f : Field) : o.trimmed.get f = normalized f (o.get f) := by
  cases f <;> rfl

theorem valid_trimmed (o : Options) : o.trimmed.Valid := by
  intro f
  rw [get_trimmed, normalized_normalized]

theorem get_set_self (o : Options) (f : Field) (ts : List Text) : (o.set f ts).get f = ts := by
  cases f <;> rfl

theorem get_set_ne (o : Options) {f g : Field} (h : f ≠ g) (ts : List Text) :
    (o.set f ts).get g = o.get g := by
  cases f <;> cases g <;> first | exact absurd rfl h | rfl

theorem ignoreTags_set (o : Options) (f : Field) (ts : List Text) :
    (o.set f ts).ignoreTags = o.ignoreTags := by
  cases f <;> rfl

theorem set_get (o : Options) (f : Field) : o.set f (o.get f) = o := by
  cases f <;> rfl

/-- Options are equal if their lists are. -/
theorem ext_get {o o' : Options} (h : ∀ f, o.get f = o'.get f) (htags : o.ignoreTags = o'.ignoreTags) :
    o = o' := by
  cases o
  cases o'
  cases h .ignore
  cases h .ignoreCallee
  cases h .ignoreTranslatorCallee
  cases h .ignoreProperties
  cases h .ignoreAttributes
  cases htags
  rfl

theorem Valid.trimmed_eq {o : Options} (ho : o.Valid) : o.trimmed = o :=
  ext_get (fun f => (get_trimmed o f).trans (ho f)) rfl

/-! ## The record of some options -/

/-- The members of the record with underscored names. -/
def record (o : Options) : List (Text × Json) :=
  Field.all.map (fun f => (f.snakeName, textsJson (o.get f))) ++
    [(tagsSnakeName, .array (o.ignoreTags.map tagRuleJson))]

theorem toJson_eq (o : Options) : o.toJson = .object o.record := rfl

theorem find?_record_field (o : Options) (f : Field) :
    Json.find? f.snakeName o.record = some (textsJson (o.get f)) := by
  cases f <;> rfl

theorem find?_record_tags (o : Options) :
    Json.find? tagsSnakeName o.record = some (.array (o.ignoreTags.map tagRuleJson)) := by
  rfl

theorem setMember_record_field (o : Options) (f : Field) (ts : List Text) :
    Json.setMember f.snakeName (textsJson ts) o.record = (o.set f ts).record := by
  cases f <;> rfl

theorem setMember_record_tags (o : Options) (rules : List TagRule) :
    Json.setMember tagsSnakeName (.array (rules.map tagRuleJson)) o.record =
      { o with ignoreTags := rules }.record := by
  rfl

/-! ## Reading a record -/

section

open Shape

theorem both_eq_ok {α β : Type} {a : Checked α} {b : Checked β} {x : α × β} :
    both a b = .ok x ↔ a = .ok x.1 ∧ b = .ok x.2 := by
  obtain ⟨x, y⟩ := x
  cases a <;> cases b <;> simp [both]

theorem without_eq_ok {α : Type} {fs : List Fault} {c : Checked α} {x : α} :
    without fs c = .ok x ↔ fs = [] ∧ c = .ok x := by
  cases c with
  | error gs => simp [without]
  | ok y => cases fs <;> simp [without]

theorem map_eq_ok {ε α β : Type} {f : α → β} {e : Except ε α} {y : β} :
    e.map f = .ok y ↔ ∃ x, e = .ok x ∧ f x = y := by
  cases e <;> simp [Except.map]

/-- A list reads item by item. -/
theorem itemsFrom_map {α : Type} {check : List Step → Json → Checked α} {toJson : α → Json}
    (h : ∀ path x, check path (toJson x) = .ok x) (path : List Step) (xs : List α) :
    ∀ i, itemsFrom check path i (xs.map toJson) = .ok xs := by
  induction xs with
  | nil => intro i; rfl
  | cons x rest ih =>
      intro i
      rw [List.map_cons, itemsFrom, h, ih]
      rfl

theorem texts_textsJson (path : List Step) (ts : List Text) :
    texts path (textsJson ts) = .ok ts := by
  have hitem : ∀ path t, Shape.text path (Json.text t) = .ok t := fun _ _ => rfl
  exact itemsFrom_map hitem path ts 0

theorem tagChoice_choiceJson (path : List Step) (c : TagChoice) :
    tagChoice path (choiceJson c) = .ok c := by
  cases c with
  | one t => rfl
  | many ts =>
      unfold tagChoice choiceJson
      rw [texts_textsJson]
      rfl

theorem tagRule_tagRuleJson (path : List Step) (r : TagRule) :
    tagRule path (tagRuleJson r) = .ok r := by
  have htag : Json.find? "tag" [("tag", choiceJson r.tag), ("attributes", textsJson r.attributes)] =
      some (choiceJson r.tag) := rfl
  have hattributes : Json.find? "attributes"
      [("tag", choiceJson r.tag), ("attributes", textsJson r.attributes)] =
        some (textsJson r.attributes) := rfl
  unfold tagRule tagRuleJson
  simp only [htag, hattributes, orAbsent, tagChoice_choiceJson, texts_textsJson]
  rfl

/-- Under whichever of its names a field is looked up, it is there. -/
theorem find?_nameIn_record (o : Options) (f : Field) :
    Json.find? (nameIn o.record f.camelName f.snakeName) o.record = some (textsJson (o.get f)) := by
  cases f <;> rfl

theorem fieldOf_record (o : Options) (f : Field) :
    fieldOf o.record f = .ok (normalized f (o.get f)) := by
  unfold fieldOf
  simp only [find?_nameIn_record, orAbsent, texts_textsJson]
  rfl

/-- A record reads as the options it was made from, trimmed. -/
theorem ofJson_record (o : Options) : ofJson (.object o.record) = .ok o.trimmed := by
  have htags : Json.find? (nameIn o.record tagsCamelName tagsSnakeName) o.record =
      some (.array (o.ignoreTags.map tagRuleJson)) := rfl
  have hrules : list tagRule [.key (nameIn o.record tagsCamelName tagsSnakeName)]
      (.array (o.ignoreTags.map tagRuleJson)) = .ok o.ignoreTags :=
    itemsFrom_map tagRule_tagRuleJson _ _ 0
  unfold ofJson
  simp only [fieldOf_record, htags, orAbsent, hrules]
  rfl

/-- **Valid options read back as themselves.** -/
theorem ofJson_toJson {o : Options} (ho : o.Valid) : ofJson o.toJson = .ok o := by
  rw [toJson_eq, ofJson_record, ho.trimmed_eq]

theorem normalized_of_fieldOf {members : List (Text × Json)} {f : Field} {ts : List Text}
    (h : fieldOf members f = .ok ts) : normalized f ts = ts := by
  unfold fieldOf at h
  obtain ⟨us, -, rfl⟩ := map_eq_ok.1 h
  exact normalized_normalized f us

/-- **What is read is valid**, whichever record it is read from. -/
theorem valid_of_ofJson {v : Json} {o : Options} (h : ofJson v = .ok o) : o.Valid := by
  unfold ofJson at h
  split at h
  · obtain ⟨-, h⟩ := without_eq_ok.1 h
    obtain ⟨⟨a, b, c, d, e, rules⟩, hfields, rfl⟩ := map_eq_ok.1 h
    simp only [both_eq_ok] at hfields
    obtain ⟨hignore, hcallee, htranslator, hproperties, hattributes, -⟩ := hfields
    intro f
    cases f with
    | ignore => exact normalized_of_fieldOf hignore
    | ignoreCallee => exact normalized_of_fieldOf hcallee
    | ignoreTranslatorCallee => exact normalized_of_fieldOf htranslator
    | ignoreProperties => exact normalized_of_fieldOf hproperties
    | ignoreAttributes => exact normalized_of_fieldOf hattributes
  · cases h

end

/-! ## Extensions -/

/-- Values to add to some options: texts for its lists, and tag rules. -/
structure Extension where
  texts : List (Field × List Text) := []
  rules : List TagRule := []

namespace Extension

/-- The texts to add to one list. -/
def textsOf (e : Extension) (f : Field) : List Text :=
  (e.texts.filter fun x => x.1 = f).flatMap Prod.snd

/-- The values by underscored names, as options take them. -/
def members (e : Extension) : List (Text × Json) :=
  e.texts.map (fun x => (x.1.snakeName, textsJson x.2)) ++
    [(tagsSnakeName, .array (e.rules.map tagRuleJson))]

end Extension

/-- The options with texts put at the end of one list. -/
def addTexts (o : Options) (x : Field × List Text) : Options := o.set x.1 (o.get x.1 ++ x.2)

theorem ignoreTags_addTexts (o : Options) (x : Field × List Text) :
    (o.addTexts x).ignoreTags = o.ignoreTags := ignoreTags_set _ _ _

theorem get_addTexts (o : Options) (x : Field × List Text) (f : Field) :
    (o.addTexts x).get f = o.get f ++ if x.1 = f then x.2 else [] := by
  unfold addTexts
  by_cases hf : x.1 = f
  · subst hf
    rw [get_set_self, if_pos rfl]
  · rw [get_set_ne o hf, if_neg hf, List.append_nil]

/-- Extending the list of a field in a record. An empty value leaves the record as it is, which is
what adding nothing does. -/
theorem extendField_record (o : Options) (x : Field × List Text) :
    extendField o.record x.1.snakeName (textsJson x.2) = .ok (o.addTexts x).record := by
  obtain ⟨f, ts⟩ := x
  unfold extendField addTexts
  cases ts with
  | nil =>
      rw [List.append_nil, set_get]
      rfl
  | cons t rest =>
      have hnonempty : isEmptyValue (textsJson (t :: rest)) = false := rfl
      have happend : textsJson (o.get f ++ t :: rest) =
          .array (listItems (textsJson (o.get f)) ++ (t :: rest).map .text) := by
        unfold textsJson
        rw [List.map_append]
        rfl
      rw [hnonempty, find?_record_field, ← setMember_record_field, happend]
      rfl

theorem extendField_record_tags (o : Options) (rules : List TagRule) :
    extendField o.record tagsSnakeName (.array (rules.map tagRuleJson)) =
      .ok { o with ignoreTags := o.ignoreTags ++ rules }.record := by
  unfold extendField
  cases rules with
  | nil =>
      rw [List.append_nil]
      rfl
  | cons r rest =>
      have hnonempty : isEmptyValue (.array ((r :: rest).map tagRuleJson)) = false := rfl
      rw [hnonempty, find?_record_tags, ← setMember_record_tags o (o.ignoreTags ++ r :: rest),
        List.map_append]
      rfl

/-- Extending several fields in turn. -/
theorem extendFields_record (texts : List (Field × List Text)) (more : List (Text × Json)) :
    ∀ o : Options,
      extendFields o.record (texts.map (fun x => (x.1.snakeName, textsJson x.2)) ++ more) =
        extendFields (texts.foldl addTexts o).record more := by
  induction texts with
  | nil => intro o; rfl
  | cons x rest ih =>
      intro o
      rw [List.map_cons, List.cons_append, extendFields, extendField_record]
      exact ih (o.addTexts x)

theorem get_foldl_addTexts (texts : List (Field × List Text)) (f : Field) :
    ∀ o : Options, (texts.foldl addTexts o).get f =
      o.get f ++ (texts.filter fun x => x.1 = f).flatMap Prod.snd := by
  induction texts with
  | nil => intro o; simp
  | cons x rest ih =>
      intro o
      rw [List.foldl_cons, ih, get_addTexts, List.append_assoc]
      by_cases hf : x.1 = f <;> simp [hf]

theorem ignoreTags_foldl_addTexts (texts : List (Field × List Text)) :
    ∀ o : Options, (texts.foldl addTexts o).ignoreTags = o.ignoreTags := by
  induction texts with
  | nil => intro o; rfl
  | cons x rest ih =>
      intro o
      rw [List.foldl_cons, ih, ignoreTags_addTexts]

/-- **Extended options are valid, and have the new values after the old ones**, trimmed where the
field is one of callees. -/
theorem merged_members {o : Options} (ho : o.Valid) (e : Extension) :
    ∃ o', o.merged e.members = .ok o' ∧ o'.Valid ∧
      (∀ f, o'.get f = o.get f ++ normalized f (e.textsOf f)) ∧
      o'.ignoreTags = o.ignoreTags ++ e.rules := by
  have htags := ignoreTags_foldl_addTexts e.texts o
  have hget := fun f => get_foldl_addTexts e.texts f o
  generalize hextended : e.texts.foldl addTexts o = extended at htags hget
  let result : Options := { extended with ignoreTags := extended.ignoreTags ++ e.rules }
  have hresult : ∀ f, result.get f = extended.get f := fun f => by cases f <;> rfl
  have hrecord : extendFields o.record e.members = .ok result.record := by
    rw [Extension.members, extendFields_record, hextended, extendFields, extendField_record_tags]
    rfl
  refine ⟨result.trimmed, ?_, valid_trimmed result, ?_, ?_⟩
  · unfold merged
    rw [toJson_eq]
    dsimp only
    rw [hrecord]
    dsimp only
    rw [ofJson_record]
    rfl
  · intro f
    rw [get_trimmed, hresult, hget, normalized_append, ho f]
    rfl
  · show extended.ignoreTags ++ e.rules = _
    rw [htags]

end Options

end LiteralLint
