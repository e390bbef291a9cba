import LiteralLint.Proofs.MessagePack
import LiteralLint.Proofs.SinglePass
import LiteralLint.Finding.Record
import LiteralLint.Source

/-!
# Findings that are stored and read back

A finding is stored as a record, and the check of a stored record gives the finding back. The
record is a plain document if the fields of the finding have distinct names. They do, whatever
the program: every complaint that a decision list can end in names its fields itself, and a finding
keeps the fields of its complaint.

## Main results

* `Finding.ofValue_ofJson`: a stored finding is checked to be itself.
* `Finding.plain_ofJson`: its record is a plain document.
* `Source.lint_fields`: the findings of a source have distinct fields.
-/

namespace LiteralLint

/-! ## Fields of complaints -/

namespace Complaint

/-- The fields of a complaint have different names. -/
def Distinct (c : Complaint) : Prop := (c.data.map Prod.fst).Nodup

/-- The fields that hold text are some of the fields. -/
theorem texts_sublist (data : List (Text × Datum)) :
    ((data.filterMap fun m => m.2.text?.map fun t => (m.1, t)).map Prod.fst).Sublist
      (data.map Prod.fst) := by
  induction data with
  | nil => exact List.Sublist.slnil
  | cons m rest ih =>
      obtain ⟨name, d⟩ := m
      cases hd : d.text? with
      | none =>
          rw [List.filterMap_cons_none (by simp [hd])]
          exact ih.cons name
      | some t =>
          rw [List.filterMap_cons_some (b := (name, t)) (by simp [hd])]
          exact ih.cons_cons name

theorem toFinding_fields {c : Complaint} {place : Option Span} {f : Finding}
    (hc : c.Distinct) (h : c.toFinding place = .ok f) : (f.data.map Prod.fst).Nodup := by
  obtain ⟨message, data, -, hdata, rfl⟩ := toFinding_eq_ok.1 h
  unfold textData at hdata
  split at hdata
  · cases hdata
    exact (texts_sublist c.data).nodup hc
  · cases hdata

end Complaint

namespace Hearing

theorem distinct_textComplaint (n : Node) : (textComplaint n).Distinct := by
  show List.Nodup [Text.ofString "string"]
  decide

theorem distinct_placeholderComplaint (n : Node) : (placeholderComplaint n).Distinct := by
  show List.Nodup [Text.ofString "string", Text.ofString "code"]
  decide

theorem distinct_propertyComplaint (h : Hearing) (n : Node) (property : Nat) :
    (h.propertyComplaint n property).Distinct := by
  show List.Nodup [Text.ofString "string", Text.ofString "code"]
  decide

theorem distinct_attributeComplaint (h : Hearing) (i : Nat) (n : Node) (attr : Nat) :
    (h.attributeComplaint i n attr).Distinct := by
  show List.Nodup
    [Text.ofString "string", Text.ofString "attribute", Text.ofString "tag", Text.ofString "code"]
  decide

theorem distinct_genericComplaint (h : Hearing) (i : Nat) (n : Node) :
    (h.genericComplaint i n).Distinct := by
  show List.Nodup
    [Text.ofString "string", Text.ofString "code", Text.ofString "type", Text.ofString "ancestry"]
  decide

/-- A decision list that can only end in complaints with different fields. -/
def EndsDistinct (d : Except NodeFault (Option Complaint)) : Prop :=
  ∀ c, d = .ok (some c) → c.Distinct

/-- Every complaint that a decision list ends in has different fields. -/
theorem endsDistinct_decision (h : Hearing) (i : Nat) (n : Node) :
    EndsDistinct (h.decision i n) := by
  intro c hd
  rcases complaint_of_decision hd with rfl | rfl | ⟨property, -, rfl⟩ | ⟨attr, -, rfl⟩ | rfl
  · exact distinct_textComplaint n
  · exact distinct_placeholderComplaint n
  · exact h.distinct_propertyComplaint n property
  · exact h.distinct_attributeComplaint i n attr
  · exact h.distinct_genericComplaint i n

end Hearing

/-! ## Fields of findings -/

/-- The findings of a source have distinct fields. -/
theorem Source.lint_fields {parsers : Parsers} {config : Configuration} {language : Text}
    {useTypes : Bool} {source : Bytes} {j : Source.Judgement}
    (h : Source.lint parsers config language useTypes source = .ok j) :
    ∀ f ∈ j.findings, (f.data.map Prod.fst).Nodup := by
  unfold Source.lint at h
  cases hread : Source.read parsers language useTypes source with
  | error e =>
      rw [hread] at h
      cases h
  | ok program =>
      rw [hread] at h
      cases h
      intro f hf
      obtain ⟨oracle, hof⟩ : ∃ oracle,
          f ∈ Lint.findings (.ofTree program.tree config oracle) := ⟨_, hf⟩
      rw [Lint.findings_eq_found] at hof
      obtain ⟨⟨i, g⟩, hmem, rfl⟩ := List.mem_map.1 hof
      obtain ⟨x, -, hx⟩ := List.mem_filterMap.1 hmem
      obtain ⟨g', hg, heq⟩ := Option.map_eq_some_iff.1 hx
      cases heq
      obtain ⟨n, complaint, -, -, hdecision, hok⟩ := Lint.findingAt_eq_some.1 hg
      exact Complaint.toFinding_fields (Hearing.endsDistinct_decision _ _ _ _ hdecision) hok

/-! ## Records -/

namespace Finding

open MessagePack (Value Key Plain)

/-- The record of a finding, as a document. -/
def document (f : Finding) : Value :=
  .map [(.text "message_id", .text f.id), (.text "message", .text f.message),
    (.text "data", .map (f.data.map fun (k, v) => (.text k, .text v))),
    (.text "position", match f.position with
      | some s => .map [(.text "start_line", .int s.startLine),
          (.text "start_column", .int s.startColumn), (.text "end_line", .int s.endLine),
          (.text "end_column", .int s.endColumn)]
      | none => .nil)]

theorem ofMembers_texts (data : List (Text × Text)) :
    Value.ofMembers (data.map fun (k, v) => (k, .text v)) =
      data.map fun (k, v) => (.text k, .text v) := by
  induction data with
  | nil => rfl
  | cons m data ih =>
      show (_, _) :: Value.ofMembers (data.map fun (k, v) => (k, .text v)) = _
      rw [ih]
      rfl

theorem ofJson_toJson (f : Finding) : Value.ofJson f.toJson = f.document := by
  obtain ⟨id, message, data, position⟩ := f
  have hdata := ofMembers_texts data
  cases position with
  | none =>
      show Value.map [_, _, (_, .map (Value.ofMembers _)), _] = _
      rw [hdata]
      rfl
  | some s =>
      show Value.map [_, _, (_, .map (Value.ofMembers _)), _] = _
      rw [hdata]
      rfl

theorem storedTextMembers_texts (path : List Shape.Step) (data : List (Text × Text)) :
    Shape.storedTextMembers path (data.map fun (k, v) => (.text k, .text v)) = .ok data := by
  induction data with
  | nil => rfl
  | cons m data ih =>
      obtain ⟨k, v⟩ := m
      rw [List.map_cons, Shape.storedTextMembers, ih]
      rfl

/-- **A stored finding is checked to be itself.** -/
theorem ofValue_ofJson (f : Finding) : ofValue (Value.ofJson f.toJson) = .ok f := by
  rw [ofJson_toJson]
  obtain ⟨id, message, data, position⟩ := f
  have hdata : Shape.storedTexts [.key "data"]
      (.map (data.map fun (k, v) => (.text k, .text v))) = .ok data :=
    storedTextMembers_texts _ data
  cases position with
  | none =>
      show (Shape.both (.ok id) (Shape.both (.ok message)
        (Shape.both (Shape.storedTexts [.key "data"] (.map _)) (.ok none)))).map _ = _
      rw [hdata]
      rfl
  | some s =>
      show (Shape.both (.ok id) (Shape.both (.ok message)
        (Shape.both (Shape.storedTexts [.key "data"] (.map _)) (.ok (some s))))).map _ = _
      rw [hdata]
      rfl

/-- **The record of a finding is a plain document** if its fields have different names. -/
theorem plain_ofJson {f : Finding} (hFields : (f.data.map Prod.fst).Nodup) (levels : Nat) :
    Plain (levels + 2) (Value.ofJson f.toJson) := by
  have hKeys : ((f.data.map fun (k, v) => ((.text k : Key), (.text v : Value))).map
      Prod.fst).Nodup := by
    have heq : (f.data.map fun (k, v) => ((.text k : Key), (.text v : Value))).map Prod.fst =
        (f.data.map Prod.fst).map Key.text := by
      simp [Function.comp_def]
    rw [heq]
    exact List.Pairwise.map Key.text (fun a b hne heq => hne (Key.text.inj heq)) hFields
  have hData : Plain (levels + 1) (.map (f.data.map fun (k, v) => (.text k, .text v))) := by
    refine Plain.map hKeys ?_
    intro m hm
    obtain ⟨d, -, rfl⟩ := List.mem_map.1 hm
    exact Plain.text _ _
  rw [ofJson_toJson]
  refine Plain.map ?_ ?_
  · show List.Nodup [(.text "message_id" : Key), .text "message", .text "data", .text "position"]
    decide
  · simp only [List.forall_mem_cons]
    refine ⟨Plain.text _ _, Plain.text _ _, hData, ?_, by simp⟩
    cases f.position with
    | none => exact Plain.nil _
    | some s =>
        refine Plain.map ?_ ?_
        · show List.Nodup [(.text "start_line" : Key), .text "start_column", .text "end_line",
            .text "end_column"]
          decide
        · simp only [List.forall_mem_cons]
          exact ⟨Plain.int _ _, Plain.int _ _, Plain.int _ _, Plain.int _ _, by simp⟩

end Finding

end LiteralLint
