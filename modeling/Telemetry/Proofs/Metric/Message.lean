import Telemetry.Proofs.Fallible
import Telemetry.Proofs.Metric.Merging
import Telemetry.Rpc.Message

/-!
# Metrics and their messages

Each metric has one message, and a message is read as a metric only if it is the message of one that
may be stored (`MetricMessage.toMetrics_eq_ok_iff`). So nothing is lost on the way to a message and
back, and nothing is made up.
-/

namespace Telemetry

theorem Kind.ofNumber?_eq_some_iff {n : Int} {kind : Kind} :
    Kind.ofNumber? n = some kind ↔ n = kind.number := by
  unfold ofNumber?
  split
  next h => cases kind <;> simp [number, h]
  next hgauge =>
    split
    next h => cases kind <;> simp [number, h]
    next hcounter => cases kind <;> simp [number, hgauge, hcounter]

namespace MetricMessage

/-- A metric as a message says it is, if its kind is that of the message. -/
def asKind (p : MetricMessage) (kind : Kind) : Metric := ⟨p.id, kind, p.value, p.delta⟩

theorem eq_ofMetric_iff {p : MetricMessage} {m : Metric} :
    p = ofMetric m ↔ p.kind = m.kind.number ∧ p.asKind m.kind = m := by
  obtain ⟨id, kind, value, delta⟩ := p
  obtain ⟨name, kind', value', delta'⟩ := m
  simp only [ofMetric, asKind, mk.injEq, Metric.mk.injEq]
  tauto

theorem ofMetric_injective : Function.Injective ofMetric := by
  intro m m' h
  obtain ⟨hkind, hm⟩ := eq_ofMetric_iff.mp h
  have hsame : m'.kind = m.kind := by
    rw [← Option.some.injEq, ← Kind.ofNumber?_eq_some_iff.mpr hkind]
    exact Kind.ofNumber?_eq_some_iff.mpr rfl
  rw [← hm, hsame]
  rfl

theorem toMetric_eq_ok_iff {p : MetricMessage} {m : Metric} :
    p.toMetric = .ok m ↔ p = ofMetric m ∧ m.validate = .ok () := by
  rw [eq_ofMetric_iff]
  unfold toMetric
  cases hkind : Kind.ofNumber? p.kind with
  | none =>
    refine ⟨nofun, fun ⟨⟨hnumber, _⟩, _⟩ => ?_⟩
    rw [Kind.ofNumber?_eq_some_iff.mpr hnumber] at hkind
    cases hkind
  | some kind =>
    dsimp only
    rw [Fallible.map_eq_ok_iff]
    constructor
    · rintro ⟨_, hvalid, rfl⟩
      exact ⟨⟨Kind.ofNumber?_eq_some_iff.mp hkind, rfl⟩, hvalid⟩
    · rintro ⟨⟨hnumber, hm⟩, hvalid⟩
      rw [Kind.ofNumber?_eq_some_iff.mpr hnumber] at hkind
      cases hkind
      have hm : (⟨p.id, m.kind, p.value, p.delta⟩ : Metric) = m := hm
      rw [hm]
      exact ⟨(), hvalid, rfl⟩

/-- A message that is no metric breaks a rule. -/
theorem toMetric_eq_error {p : MetricMessage} {f : Fault} (h : p.toMetric = .error f) :
    ∃ v, f = .validation v := by
  unfold toMetric at h
  split at h
  next => cases h; exact ⟨_, rfl⟩
  next kind _ =>
    unfold Metric.validate at h
    dsimp only at h
    split at h
    next => cases h
    next v _ => cases h; exact ⟨v, rfl⟩

/-- **Messages that are read are those of metrics that may be stored**, each of its own. -/
theorem toMetrics_eq_ok_iff {ps : List MetricMessage} {ms : List Metric} :
    toMetrics ps = .ok ms ↔ ps = ofMetrics ms ∧ ∀ m ∈ ms, m.validate = .ok () := by
  unfold toMetrics ofMetrics
  rw [Fallible.mapM_eq_ok_iff]
  constructor
  · intro h
    induction h with
    | nil => exact ⟨rfl, nofun⟩
    | cons hp _ ih =>
      obtain ⟨rfl, hvalid⟩ := toMetric_eq_ok_iff.mp hp
      obtain ⟨rfl, hall⟩ := ih
      exact ⟨rfl, List.forall_mem_cons.mpr ⟨hvalid, hall⟩⟩
  · rintro ⟨rfl, hall⟩
    induction ms with
    | nil => exact .nil
    | cons m ms ih =>
      obtain ⟨hvalid, hall⟩ := List.forall_mem_cons.mp hall
      exact .cons (toMetric_eq_ok_iff.mpr ⟨rfl, hvalid⟩) (ih hall)

theorem toMetrics_eq_error {ps : List MetricMessage} {f : Fault} (h : toMetrics ps = .error f) :
    ∃ v, f = .validation v := by
  obtain ⟨p, -, hp⟩ := Fallible.exists_error_of_mapM h
  exact toMetric_eq_error hp

/-- Messages are read if each has the number of a kind and is a metric of that kind that may be
stored. -/
theorem exists_toMetrics_iff {ps : List MetricMessage} :
    (∃ ms, toMetrics ps = .ok ms) ↔
      ∀ p ∈ ps, ∃ kind, p.kind = kind.number ∧ (p.asKind kind).validate = .ok () := by
  constructor
  · rintro ⟨ms, h⟩ p hp
    obtain ⟨rfl, hall⟩ := toMetrics_eq_ok_iff.mp h
    obtain ⟨m, hm, rfl⟩ := List.mem_map.mp hp
    exact ⟨m.kind, rfl, hall m hm⟩
  · intro h
    have hread : ∀ p ∈ ps, ∃ m, p.toMetric = .ok m := fun p hp => by
      obtain ⟨kind, hkind, hvalid⟩ := h p hp
      exact ⟨p.asKind kind, toMetric_eq_ok_iff.mpr ⟨eq_ofMetric_iff.mpr ⟨hkind, rfl⟩, hvalid⟩⟩
    cases hps : toMetrics ps with
    | ok ms => exact ⟨ms, rfl⟩
    | error f =>
      obtain ⟨p, hp, hfault⟩ := Fallible.exists_error_of_mapM hps
      obtain ⟨m, hm⟩ := hread p hp
      rw [hm] at hfault
      cases hfault

end MetricMessage

end Telemetry
