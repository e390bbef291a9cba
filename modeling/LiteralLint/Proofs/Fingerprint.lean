import LiteralLint.Options.Fingerprint
import LiteralLint.Proofs.CacheLoading
import LiteralLint.Proofs.JsonRoundTrip
import LiteralLint.Proofs.Utf8

/-!
# What a fingerprint stands for

A cache is used again if its fingerprint is the one of the run. The payload behind a fingerprint is a
line of JSON, and a line reads back: it gives the description of the options, and the description
gives the options. So different runs have different payloads, which are different bytes, and a cache
that was made for another run is taken just if the digests of two messages begin with the same sixteen
digits.

The options are those without halves of surrogate pairs in their strings, since two halves next to
each other are written like the character that they make.

## Main definitions

* `Options.Encodable`: no string of the options, those of the tag rules included, has such a half.
* `Sha256.Collide`: two messages whose digests begin alike.

## Main results

* `Options.description_injective`: the description gives the options.
* `Options.payload_injective`: **equal payloads are those of the same options and the same use of
  types**, and loading a cache that was made for others takes a collision.
-/

namespace LiteralLint

/-- Two messages whose digests begin with the same sixteen digits. -/
def Sha256.Collide (m m' : Bytes) : Prop := m ≠ m' ∧ (hexDigest m).take 16 = (hexDigest m').take 16

/-- The strings of a tag rule. -/
def TagRule.texts (r : TagRule) : List Text := r.tag.tags ++ r.attributes

namespace Options

/-- The strings of the options. -/
def texts (o : Options) : List Text :=
  Field.all.flatMap o.get ++ o.ignoreTags.flatMap TagRule.texts

/-- The strings of the options have scalar values only. -/
def Encodable (o : Options) : Prop := ∀ t ∈ o.texts, t.all Text.isScalar = true

instance (o : Options) : Decidable o.Encodable :=
  inferInstanceAs (Decidable (∀ t ∈ o.texts, t.all Text.isScalar = true))

/-! ## The description -/

theorem textsJson_injective {ts ts' : List Text} (h : textsJson ts = textsJson ts') : ts = ts' :=
  List.map_injective_iff.2 (fun _ _ => Json.text.inj) (Json.array.inj h)

theorem choiceJson_injective {c c' : TagChoice} (h : choiceJson c = choiceJson c') : c = c' := by
  cases c with
  | one t =>
      cases c' with
      | one t' => rw [Json.text.inj h]
      | many ts' => cases h
  | many ts =>
      cases c' with
      | one t' => cases h
      | many ts' => rw [textsJson_injective h]

theorem tagRuleDescription_injective {r r' : TagRule}
    (h : tagRuleDescription r = tagRuleDescription r') : r = r' := by
  obtain ⟨tag, attributes⟩ := r
  obtain ⟨tag', attributes'⟩ := r'
  simp only [tagRuleDescription, Json.object.injEq, List.cons.injEq, Prod.mk.injEq, true_and,
    and_true] at h
  rw [textsJson_injective h.1, choiceJson_injective h.2]

/-- **The description gives the options.** -/
theorem description_injective {o o' : Options} (h : o.description = o'.description) : o = o' := by
  simp only [description, Json.object.injEq, List.cons.injEq, Prod.mk.injEq, true_and,
    and_true, Json.array.injEq] at h
  obtain ⟨hignore, hattributes, hcallee, hproperties, htags, htranslator⟩ := h
  have hrules := List.map_injective_iff.2 (fun _ _ => tagRuleDescription_injective) htags
  cases o
  cases o'
  simp only [mk.injEq]
  exact ⟨textsJson_injective hignore, textsJson_injective hcallee, textsJson_injective htranslator,
    textsJson_injective hproperties, textsJson_injective hattributes, hrules⟩

/-! ## The payload -/

/-- What the payload is the line of. -/
def payloadJson (o : Options) (useTypes : Bool) : Json :=
  .object [("options", o.description), ("use_types", .bool useTypes), ("version", .text version)]

theorem payload_eq (o : Options) (useTypes : Bool) :
    o.payload useTypes = Json.line .ascii (o.payloadJson useTypes) :=
  rfl

theorem plain_textsJson {ts : List Text} (h : ∀ t ∈ ts, t.all Text.isScalar = true) :
    (textsJson ts).Plain := by
  refine Json.itemsPlain_iff.2 fun v hv => ?_
  obtain ⟨t, ht, rfl⟩ := List.mem_map.1 hv
  exact h t ht

theorem plain_tagRuleDescription {r : TagRule}
    (h : ∀ t ∈ r.texts, t.all Text.isScalar = true) : (tagRuleDescription r).Plain := by
  have hattributes := plain_textsJson fun t ht => h t (List.mem_append_right _ ht)
  have hchoice : (choiceJson r.tag).Plain := by
    have htags : ∀ t ∈ r.tag.tags, t.all Text.isScalar = true := fun t ht =>
      h t (List.mem_append_left _ ht)
    cases htag : r.tag with
    | one t => exact htags t (by rw [htag]; exact List.mem_singleton_self t)
    | many ts => exact plain_textsJson fun t ht => htags t (by rw [htag]; exact ht)
  have hnames : (["attributes", "tag"] : List Text).Nodup := by decide
  exact ⟨hnames, by decide, hattributes, by decide, hchoice, trivial⟩

theorem plain_payloadJson {o : Options} {useTypes : Bool} (h : o.Encodable) :
    (o.payloadJson useTypes).Plain := by
  have hfield : ∀ f, (textsJson (o.get f)).Plain := by
    intro f
    refine plain_textsJson fun t ht => h t (List.mem_append_left _ ?_)
    exact List.mem_flatMap.2 ⟨f, by cases f <;> decide, ht⟩
  have hrules : (Json.array (o.ignoreTags.map tagRuleDescription)).Plain := by
    refine Json.itemsPlain_iff.2 fun v hv => ?_
    obtain ⟨r, hr, rfl⟩ := List.mem_map.1 hv
    exact plain_tagRuleDescription fun t ht =>
      h t (List.mem_append_right _ (List.mem_flatMap.2 ⟨r, hr, ht⟩))
  have hnames : (["ignore", "ignore_attributes", "ignore_callee", "ignore_properties",
      "ignore_tags", "ignore_translator_callee"] : List Text).Nodup := by decide
  have hdescription : o.description.Plain :=
    ⟨hnames, by decide, hfield .ignore, by decide, hfield .ignoreAttributes, by decide,
      hfield .ignoreCallee, by decide, hfield .ignoreProperties, by decide, hrules, by decide,
      hfield .ignoreTranslatorCallee, trivial⟩
  have hversion : version.all Text.isScalar = true := by decide
  have houter : (["options", "use_types", "version"] : List Text).Nodup := by decide
  exact ⟨houter, by decide, hdescription, by decide, trivial, by decide, hversion, trivial⟩

theorem payloadJson_injective {o o' : Options} {useTypes useTypes' : Bool}
    (h : o.payloadJson useTypes = o'.payloadJson useTypes') : o = o' ∧ useTypes = useTypes' := by
  simp only [payloadJson, Json.object.injEq, List.cons.injEq, Prod.mk.injEq, true_and, and_true,
    Json.bool.injEq] at h
  exact ⟨description_injective h.1, h.2⟩

theorem all_isScalar_payload {o : Options} (useTypes : Bool) (h : o.Encodable) :
    (o.payload useTypes).all Text.isScalar = true := by
  rw [payload_eq]
  refine List.all_eq_true.2 fun (c : Nat) hc => Utf8.isScalar_of_range (.inl ?_)
  exact Nat.lt_trans (Json.lt_of_mem_line (plain_payloadJson h) hc) (by decide)

variable {o o' : Options} {useTypes useTypes' : Bool}

/-- The payload gives all that it was made from. -/
theorem eq_of_payload_eq (ho : o.Encodable) (ho' : o'.Encodable)
    (h : o.payload useTypes = o'.payload useTypes') : o = o' ∧ useTypes = useTypes' := by
  rw [payload_eq, payload_eq] at h
  exact payloadJson_injective
    (Json.line_injective (plain_payloadJson ho) (plain_payloadJson ho') h)

/-- So do its bytes. -/
theorem eq_of_encode_payload_eq (ho : o.Encodable) (ho' : o'.Encodable)
    (h : Utf8.encode (o.payload useTypes) = Utf8.encode (o'.payload useTypes')) :
    o = o' ∧ useTypes = useTypes' := by
  have hread := Utf8.decode?_encode (all_isScalar_payload useTypes ho)
  rw [h, Utf8.decode?_encode (all_isScalar_payload useTypes' ho')] at hread
  exact eq_of_payload_eq ho ho' (Except.ok.inj hread).symm

/-- One fingerprint for two runs is one run, or a collision. -/
theorem eq_or_collide (ho : o.Encodable) (ho' : o'.Encodable)
    (h : o.fingerprint useTypes = o'.fingerprint useTypes') :
    (o = o' ∧ useTypes = useTypes') ∨
      Sha256.Collide (Utf8.encode (o.payload useTypes)) (Utf8.encode (o'.payload useTypes')) := by
  by_cases hbytes : Utf8.encode (o.payload useTypes) = Utf8.encode (o'.payload useTypes')
  · exact .inl (eq_of_encode_payload_eq ho ho' hbytes)
  · exact .inr ⟨hbytes, h⟩

/-- **Equal payloads are those of the same options and the same use of types**, down to the order of
the strings and the form of each tag rule. So a run that loads a cache which has been made for other
options, or another use of types, has come upon two messages with the same beginning of their
digests. -/
theorem payload_injective (ho : o.Encodable) (ho' : o'.Encodable) :
    (o.payload useTypes = o'.payload useTypes' → o = o' ∧ useTypes = useTypes') ∧
      ∀ (fs fs' : FileSystem) (root : Path) (c : Cache),
        Job.Does (Cache.load root (o.fingerprint useTypes)) fs (.ok (some c)) fs' →
        c.fingerprint = o'.fingerprint useTypes' →
        (o = o' ∧ useTypes = useTypes') ∨
          Sha256.Collide (Utf8.encode (o.payload useTypes))
            (Utf8.encode (o'.payload useTypes')) := by
  refine ⟨eq_of_payload_eq ho ho', fun fs fs' root c hload hmade => ?_⟩
  exact eq_or_collide ho ho' ((Cache.fingerprint_of_load hload).symm.trans hmade)

/-- A tag and a list of this one tag have different payloads. -/
theorem payload_ne_of_oneTag :
    payload { ignoreTags := [⟨.one "a", ["id"]⟩] } true ≠
      payload { ignoreTags := [⟨.many ["a"], ["id"]⟩] } true := by
  intro h
  have hsame := (payload_injective (by decide) (by decide)).1 h
  exact absurd hsame.1 (by decide)

end Options

end LiteralLint
