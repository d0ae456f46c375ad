import Telemetry.Proofs.Decimal.Plain
import Telemetry.Proofs.Metric.Merging

/-!
# The text of a value

What a person is shown of a metric is a number in plain digits, or a word for a value that is not
finite: letters, digits, points and minus signs, whatever the metric is (`Metric.mem_valueText`).
The text of a valid metric is read back as the metric, under its kind and name
(`Metric.ofTexts_valueText`).
-/

namespace Telemetry

/-- The characters that texts of values are made of. -/
def isValueChar (c : Char) : Bool := c.isAlphanum || c = '-' || c = '.'

theorem ne_of_isValueChar {c c' : Char} (h : isValueChar c = true) (h' : isValueChar c' = false) :
    c ≠ c' := by
  intro heq
  rw [heq, h'] at h
  cases h

theorem toNat_lt_of_isValueChar {c : Char} (h : isValueChar c = true) : c.toNat < 0x80 := by
  have hends : 'Z'.toNat < 0x80 ∧ 'z'.toNat < 0x80 ∧ '9'.toNat < 0x80 ∧ '-'.toNat < 0x80 ∧
    '.'.toNat < 0x80 := by decide
  unfold isValueChar Char.isAlphanum Char.isAlpha Char.isUpper Char.isLower Char.isDigit at h
  simp only [Bool.or_eq_true, Bool.and_eq_true, decide_eq_true_eq] at h
  obtain (((⟨-, h⟩ | ⟨-, h⟩) | ⟨-, h⟩) | rfl) | rfl := h
  · exact Nat.lt_of_le_of_lt h hends.1
  · exact Nat.lt_of_le_of_lt h hends.2.1
  · exact Nat.lt_of_le_of_lt h hends.2.2.1
  · exact hends.2.2.2.1
  · exact hends.2.2.2.2

theorem isValueChar_of_isDigit {c : Char} (h : c.isDigit = true) : isValueChar c = true := by
  simp [isValueChar, Char.isAlphanum, h]

theorem Decimal.mem_positional {d : Decimal} {c : Char} (h : c ∈ d.positional []) :
    isValueChar c = true := by
  obtain ⟨-, hdigits, -⟩ | ⟨whole, fraction, hform, hwhole, hfraction, -⟩ := d.positional_cases
  · exact isValueChar_of_isDigit (hdigits.isDigit c h)
  · rw [hform, List.mem_append, List.mem_cons] at h
    obtain h | h | h := h
    · exact isValueChar_of_isDigit (hwhole.isDigit c h)
    · rw [h]
      decide
    · exact isValueChar_of_isDigit (hfraction.isDigit c h)

theorem Binary64.mem_plain {x : Binary64} {c : Char} (h : c ∈ x.plain.toList) :
    isValueChar c = true := by
  have hwords : ∀ word ∈ ["NaN", "-inf", "inf"], word.toList.all isValueChar = true := by decide
  unfold plain at h
  split at h
  · exact List.all_eq_true.mp (hwords _ (by simp)) c h
  · split at h
    · split at h
      · exact List.all_eq_true.mp (hwords _ (by simp)) c h
      · exact List.all_eq_true.mp (hwords _ (by simp)) c h
    · rw [String.toList_ofList, List.mem_append] at h
      obtain hsign | hdigits := h
      · unfold signChars at hsign
        split at hsign
        · rw [List.mem_singleton.mp hsign]
          decide
        · cases hsign
      · exact Decimal.mem_positional hdigits

theorem mem_int64Text {d : Int64} {c : Char} (h : c ∈ (int64Text d).toList) :
    isValueChar c = true := by
  unfold int64Text at h
  rw [String.toList_ofList, List.mem_append] at h
  obtain hsign | hdigits := h
  · split at hsign
    · rw [List.mem_singleton.mp hsign]
      decide
    · cases hsign
  · exact isValueChar_of_isDigit ((Json.Reader.areDigits_digitChars _).isDigit c hdigits)

theorem Kind.mem_text {k : Kind} {c : Char} (h : c ∈ k.text.toList) : isValueChar c = true := by
  have hall : k.text.toList.all isValueChar = true := by
    cases k with
    | gauge => decide
    | counter => decide
  exact List.all_eq_true.mp hall c h

namespace Metric

theorem mem_valueText {m : Metric} {c : Char} (h : c ∈ m.valueText.toList) :
    isValueChar c = true := by
  unfold valueText at h
  split at h
  · exact Binary64.mem_plain h
  · exact mem_int64Text h
  · cases h

/-- **The text of a value is read back.** Under its kind and name, the text of a valid metric spells
the metric itself: a gauge to the last bit, a counter with its sign. -/
theorem ofTexts_valueText {m : Metric} (h : m.validate = .ok ()) :
    ofTexts m.kind.text m.name m.valueText = .ok m := by
  have hkind := Kind.ofText?_text m.kind
  obtain ⟨-, ⟨hgauge, hdelta, v, hv, hfinite⟩ | ⟨hcounter, hvalue, d, hd⟩⟩ :=
    violation?_eq_none_iff.mp (validate_eq_ok_iff.mp h)
  · have htext : m.valueText = v.plain := by
      unfold valueText
      rw [hv]
    have hm : gauge m.name v = m := by
      unfold gauge
      rw [← hgauge, ← hdelta, ← hv]
    unfold ofTexts
    rw [hkind, hgauge, htext, Decimal.readReal_plain hfinite]
    dsimp only
    rw [hm, h]
    rfl
  · have htext : m.valueText = int64Text d := by
      unfold valueText
      rw [hvalue, hd]
    have hm : counter m.name d = m := by
      unfold counter
      rw [← hcounter, ← hvalue, ← hd]
    unfold ofTexts
    rw [hkind, hcounter, htext, Decimal.readInt64_int64Text]
    dsimp only
    rw [hm, h]
    rfl

theorem valueText_ne_empty {m : Metric} (h : m.validate = .ok ()) : m.valueText ≠ "" := by
  intro hempty
  have hread := ofTexts_valueText h
  unfold ofTexts at hread
  rw [hempty, Kind.ofText?_text] at hread
  cases hkind : m.kind with
  | gauge =>
    rw [hkind] at hread
    cases hread
  | counter =>
    rw [hkind] at hread
    cases hread

end Metric

end Telemetry
