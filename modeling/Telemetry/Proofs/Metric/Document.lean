import Telemetry.Metric.Document
import Telemetry.Proofs.Json.Reread
import Telemetry.Proofs.Json.Structure
import Telemetry.Proofs.Metric.Merging

/-!
# Reading back metrics

The document of a metric is read as the metric (`Metric.takes_document`), but for its value, which
is read as its own document says, and not at all if it is not finite. So is the document of a list
of them (`Metric.parseList_listDocumentBytes`).
-/

namespace Telemetry.Metric

open Json Json.Reader

/-- The metric that is read from the document of a valid metric. -/
def reread (m : Metric) : Metric := { m with value := m.value.map Binary64.reread }

/-- The metric that is read from the document of any metric: a value that is not finite is lost. -/
def recorded (m : Metric) : Metric :=
  { m with value := m.value.bind fun v => if v.isFinite then some v.reread else none }

theorem recorded_eq_reread {m : Metric} (h : m.validate = .ok ()) : m.recorded = m.reread := by
  obtain ⟨name, kind, value, delta⟩ := m
  rw [validate_eq_ok_iff, violation?_eq_none_iff] at h
  obtain ⟨-, ⟨-, -, v, rfl, hfinite⟩ | ⟨-, rfl, -⟩⟩ := h
  · show Metric.mk name kind (if v.isFinite then _ else _) delta = _
    rw [if_pos hfinite]
    rfl
  · rfl

theorem loads_name (name : String) (m : Metric) :
    Takes (do pure { m with name := ← text "a string" }) (Bytes.ofText (quote name))
      { m with name := name } :=
  (takes_quote "a string" name).map fun name => { m with name := name }

theorem loads_kind (kind : Kind) (m : Metric) :
    Takes (do pure { m with kind := ← kindReader }) (Bytes.ofText (quote kind.text))
      { m with kind := kind } := by
  have htakes : Takes kindReader (Bytes.ofText (quote kind.text)) kind :=
    takes_choice (Kind.ofText?_text kind)
  exact htakes.map fun kind => { m with kind := kind }

theorem loads_value (v : Binary64) (m : Metric) :
    Takes (do pure { m with value := ← nullable real }) (Bytes.ofText v.document)
      { m with value := if v.isFinite then some v.reread else none } := by
  have htakes : Takes (nullable real) (Bytes.ofText v.document)
      (if v.isFinite then some v.reread else none) := by
    by_cases h : v.isFinite = true
    · rw [if_pos h]
      exact (Binary64.takes_document h).1.nullable (Binary64.isPresent_document h)
    · rw [if_neg h]
      unfold Binary64.document
      rw [if_neg h]
      exact takes_null real
  exact htakes.map fun value => { m with value := value }

theorem loads_delta (d : Int64) (m : Metric) :
    Takes (do pure { m with delta := ← nullable int64 }) (Bytes.ofText (int64Text d))
      { m with delta := some d } :=
  ((takes_int64 d).nullable (isPresent_int64Text d)).map fun delta => { m with delta := delta }

/-- **The document of a metric is taken as the metric**, its value read back if it has one. -/
theorem takes_document (m : Metric) :
    Takes reader (Bytes.ofText m.document) m.recorded := by
  obtain ⟨name, kind, value, delta⟩ := m
  refine Record.takes_object "Metric" ⟨_, _, rfl, nofun, loads_name name _, ?_⟩
  refine ⟨_, _, rfl, show "type" ∉ ["id"] by decide, loads_kind kind _, ?_⟩
  -- the other two fields are written if the metric has them
  cases value with
  | none =>
    cases delta with
    | none => exact ⟨rfl, rfl⟩
    | some d =>
      exact ⟨_, _, rfl, show "delta" ∉ ["type", "id"] by decide, loads_delta d _, rfl, rfl⟩
  | some v =>
    refine ⟨_, _, rfl, show "value" ∉ ["type", "id"] by decide, loads_value v _, ?_⟩
    cases delta with
    | none => exact ⟨rfl, rfl⟩
    | some d =>
      exact ⟨_, _, rfl, show "delta" ∉ ["value", "type", "id"] by decide, loads_delta d _, rfl, rfl⟩

/-- **The document of a list of metrics is read as the metrics**, their values read back. -/
theorem parseList_listDocumentBytes (ms : List Metric) :
    parseList (listDocumentBytes ms) = .ok (ms.map recorded) := by
  have htakes : Takes (list reader) (listDocumentBytes ms) (ms.map recorded) := by
    refine takes_array fun m _ => ⟨takes_document m, ?_⟩
    exact ⟨0x7b, _, Record.ofText_object _, by decide, by decide⟩
  unfold parseList
  rw [htakes.parse]
  rfl

end Telemetry.Metric
