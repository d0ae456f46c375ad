import Mathlib.Algebra.Order.Group.Int
import Telemetry.Metric
import Telemetry.Proofs.Fallible

/-!
# What merging two metrics gives

Merging succeeds for two metrics of one name and kind and for no others
(`merge_eq_ok_iff`), and then gives `absorb`: the stored metric with the value of a gauge
replaced, or with the increment of a counter added and kept within its range. Absorbing
keeps the name and the kind, and a valid metric that absorbs a valid one of its kind is
valid (`validate_absorb`).
-/

namespace Telemetry

theorem toInt_ofIntClamp (i : Int) :
    (Int64.ofIntClamp i).toInt = max Int64.minValue.toInt (min Int64.maxValue.toInt i) := by
  have hends : Int64.minValue.toInt ≤ Int64.maxValue.toInt := by decide
  by_cases hlow : Int64.minValue.toInt ≤ i
  · by_cases hhigh : i ≤ Int64.maxValue.toInt
    · rw [Int64.toInt_ofIntClamp hlow hhigh, min_eq_right hhigh, max_eq_right hlow]
    · rw [min_eq_left (Int.le_of_not_le hhigh), max_eq_right hends, Int64.ofIntClamp, dif_pos hlow,
        dif_neg hhigh]
  · have hless : i ≤ Int64.minValue.toInt := Int.le_of_not_le hlow
    rw [min_eq_right (Int.le_trans hless hends), max_eq_left hless, Int64.ofIntClamp, dif_neg hlow]

/-- The sum of two increments is kept at the ends of the range. -/
theorem toInt_saturatingAdd (a b : Int64) :
    (saturatingAdd a b).toInt =
      max Int64.minValue.toInt (min Int64.maxValue.toInt (a.toInt + b.toInt)) :=
  toInt_ofIntClamp _

/-- Nothing is added to zero. -/
theorem saturatingAdd_zero_left (d : Int64) : saturatingAdd 0 d = d := by
  unfold saturatingAdd
  rw [Int64.toInt_zero, Int.zero_add]
  exact Int64.ofIntClamp_toInt d

namespace Metric

theorem validate_eq_ok_iff {m : Metric} : m.validate = .ok () ↔ m.violation? = none := by
  unfold validate
  cases m.violation? with
  | none => simp
  | some v => simp

/-- A valid metric has a name, and just the field of its kind, a gauge a finite one. -/
theorem violation?_eq_none_iff {m : Metric} :
    m.violation? = none ↔
      m.name ≠ "" ∧
        ((m.kind = .gauge ∧ m.delta = none ∧ ∃ v, m.value = some v ∧ v.isFinite = true) ∨
          (m.kind = .counter ∧ m.value = none ∧ ∃ d, m.delta = some d)) := by
  obtain ⟨name, kind, value, delta⟩ := m
  unfold violation?
  by_cases hname : name = ""
  · subst hname
    simp
  · have hempty : name.isEmpty = false := by simpa using hname
    cases kind <;> cases value <;> cases delta <;> simp [hempty, hname]

/-- A stored metric with an incoming one of its name and kind taken in. -/
def absorb (stored incoming : Metric) : Metric :=
  match stored.kind with
  | .gauge => { stored with value := incoming.value }
  | .counter =>
    { stored with delta := some (saturatingAdd (stored.delta.getD 0) (incoming.delta.getD 0)) }

@[simp] theorem absorb_name (stored incoming : Metric) :
    (stored.absorb incoming).name = stored.name := by
  unfold absorb
  cases stored.kind <;> rfl

@[simp] theorem absorb_kind (stored incoming : Metric) :
    (stored.absorb incoming).kind = stored.kind := by
  unfold absorb
  cases h : stored.kind <;> rfl

theorem absorb_value {stored : Metric} (h : stored.kind = .gauge) (incoming : Metric) :
    (stored.absorb incoming).value = incoming.value := by
  unfold absorb
  rw [h]

theorem absorb_delta {stored : Metric} (h : stored.kind = .counter) (incoming : Metric) :
    (stored.absorb incoming).delta =
      some (saturatingAdd (stored.delta.getD 0) (incoming.delta.getD 0)) := by
  unfold absorb
  rw [h]

theorem merge_eq_ok_iff {stored incoming merged : Metric} :
    stored.merge incoming = .ok merged ↔
      stored.name = incoming.name ∧ stored.kind = incoming.kind ∧
        merged = stored.absorb incoming := by
  unfold merge
  split
  next hname => simp [hname]
  next hname =>
    split
    next hkind => simp [hkind]
    next hkind =>
      rw [not_not] at hname hkind
      unfold absorb
      constructor
      · intro h
        refine ⟨hname, hkind, ?_⟩
        cases hk : stored.kind <;> rw [hk] at h <;> cases h <;> rfl
      · rintro ⟨-, -, rfl⟩
        cases stored.kind <;> rfl

theorem merge_eq_ok {stored incoming : Metric} (hname : stored.name = incoming.name)
    (hkind : stored.kind = incoming.kind) :
    stored.merge incoming = .ok (stored.absorb incoming) :=
  merge_eq_ok_iff.mpr ⟨hname, hkind, rfl⟩

/-- Absorbing keeps a metric valid: the field of its kind is there and finite, and the other
one stays away. -/
theorem validate_absorb {stored incoming : Metric} (hs : stored.validate = .ok ())
    (hi : incoming.validate = .ok ()) (hkind : stored.kind = incoming.kind) :
    (stored.absorb incoming).validate = .ok () := by
  rw [validate_eq_ok_iff, violation?_eq_none_iff] at hs hi ⊢
  obtain ⟨hname, hs⟩ := hs
  obtain ⟨-, hi⟩ := hi
  refine ⟨by rw [absorb_name]; exact hname, ?_⟩
  rcases hs with ⟨hg, hd, -⟩ | ⟨hc, hv, -⟩
  · -- a gauge takes the incoming value, which is finite
    rcases hi with ⟨-, -, v, hv, hfin⟩ | ⟨hc, -⟩
    · refine Or.inl ⟨by rw [absorb_kind]; exact hg, ?_, v, ?_, hfin⟩
      · unfold absorb
        rw [hg]
        exact hd
      · rw [absorb_value hg]
        exact hv
    · rw [← hkind, hg] at hc
      cases hc
  · -- a counter always ends with an increment
    refine Or.inr ⟨by rw [absorb_kind]; exact hc, ?_, _, absorb_delta hc incoming⟩
    unfold absorb
    rw [hc]
    exact hv

end Metric

end Telemetry
