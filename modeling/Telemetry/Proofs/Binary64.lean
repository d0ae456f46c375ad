import Mathlib.Tactic.Linarith
import Mathlib.Tactic.Ring
import Telemetry.Binary64

/-!
# Rounding to a double

The magnitudes of the codes grow strictly, each by a power of two from the one before
(`Binary64.units_strictMono`, `Binary64.units_previous`). What rounds to a code are the ratios between the midpoints to the codes on
either side of it, with the midpoints themselves if it is even (`Binary64.RoundsTo`), and
`nearestCode` finds the code to which a ratio rounds (`Binary64.nearestCode_eq`). So rounding a
magnitude that is a code's own gives that code, and rounding what is no larger gives no larger one.
-/

namespace Telemetry

/-- A rounded quotient is off by half at most, and by half only if it is even. -/
theorem roundHalfEven_spec (num : Nat) {den : Nat} (hden : 0 < den) :
    2 * (roundHalfEven num den * den) ≤ 2 * num + den ∧
      2 * num ≤ 2 * (roundHalfEven num den * den) + den ∧
      (roundHalfEven num den % 2 = 1 →
        2 * (roundHalfEven num den * den) < 2 * num + den ∧
          2 * num < 2 * (roundHalfEven num den * den) + den) := by
  have hsplit : num / den * den + num % den = num := by
    rw [Nat.mul_comm]
    exact Nat.div_add_mod num den
  have hrest : num % den < den := Nat.mod_lt num hden
  unfold roundHalfEven
  dsimp only
  split
  · omega
  · split
    next h => rw [Nat.add_mul, Nat.one_mul]; omega
    next h =>
      rcases Nat.mod_two_eq_zero_or_one (num / den) with heven | hodd
      · rw [heven, Nat.add_zero]
        omega
      · rw [hodd, Nat.add_mul, Nat.one_mul]
        omega

/-- A quotient of more is not rounded to less. -/
theorem roundHalfEven_mono {num num' den : Nat} (hden : 0 < den) (h : num ≤ num') :
    roundHalfEven num den ≤ roundHalfEven num' den := by
  rcases Nat.eq_or_lt_of_le h with rfl | hlt
  · exact Nat.le_refl _
  · obtain ⟨hhigh, -⟩ := roundHalfEven_spec num hden
    obtain ⟨-, hlow, -⟩ := roundHalfEven_spec num' hden
    by_contra hgt
    have hmul := Nat.mul_le_mul_right den (Nat.not_le.mp hgt)
    rw [Nat.succ_mul] at hmul
    omega

/-- What is not above a whole number is not rounded to more. -/
theorem roundHalfEven_le {num den k : Nat} (hden : 0 < den) (h : num ≤ k * den) :
    roundHalfEven num den ≤ k := by
  obtain ⟨hhigh, -⟩ := roundHalfEven_spec num hden
  by_contra hgt
  have hmul := Nat.mul_le_mul_right den (Nat.not_le.mp hgt)
  rw [Nat.succ_mul] at hmul
  omega

namespace Binary64

/-! ## Magnitudes -/

/-- Whether some bits are dropped from a magnitude that keeps these as its leading ones: fifty-three
bits or, if nothing is dropped, fewer. -/
def Leading (dropped kept : Nat) : Prop := kept ≤ 2 ^ 53 ∧ (dropped = 0 ∨ 2 ^ 52 ≤ kept)

theorem units_eq {dropped kept : Nat} (h : Leading dropped kept) :
    units (dropped * 2 ^ 52 + kept) = kept * 2 ^ dropped := by
  obtain ⟨hle, hnormal⟩ := h
  unfold units
  rw [Nat.one_shiftLeft, Nat.shiftRight_eq_div_pow, Nat.shiftLeft_eq]
  split
  next hlt =>
    -- nothing is dropped from so small a magnitude
    have hdropped : dropped = 0 := by omega
    subst hdropped
    omega
  next hge =>
    -- the bit in front is not among those of a code, unless rounding has carried it over
    rcases Nat.lt_or_ge kept (2 ^ 53) with hkept | hkept
    · have hmod : (dropped * 2 ^ 52 + kept) % 2 ^ 52 = kept - 2 ^ 52 := by omega
      have hdiv : (dropped * 2 ^ 52 + kept) / 2 ^ 52 - 1 = dropped := by omega
      rw [hmod, hdiv, Nat.add_sub_cancel' (by omega)]
    · have hkept : kept = 2 ^ 53 := Nat.le_antisymm hle hkept
      have hmod : (dropped * 2 ^ 52 + kept) % 2 ^ 52 = 0 := by omega
      have hdiv : (dropped * 2 ^ 52 + kept) / 2 ^ 52 - 1 = dropped + 1 := by omega
      rw [hmod, hdiv, hkept, Nat.add_zero, ← Nat.pow_add, ← Nat.pow_add]
      congr 1
      omega

/-- The code after one with some bits dropped is at least the last bit kept away. -/
theorem units_next {dropped kept : Nat} (h : Leading dropped kept) :
    (kept + 1) * 2 ^ dropped ≤ units (dropped * 2 ^ 52 + kept + 1) := by
  rcases Nat.lt_or_ge kept (2 ^ 53) with hlt | hge
  · have hnext : Leading dropped (kept + 1) := ⟨hlt, h.2.imp_right Nat.le_succ_of_le⟩
    rw [Nat.add_assoc, units_eq hnext]
  · -- past the last of the bits kept, one more is dropped
    have hkept : kept = 2 ^ 53 := Nat.le_antisymm h.1 hge
    have hnext : Leading (dropped + 1) (2 ^ 52 + 1) := ⟨by decide, Or.inr (by decide)⟩
    rw [show dropped * 2 ^ 52 + kept + 1 = (dropped + 1) * 2 ^ 52 + (2 ^ 52 + 1) by omega,
      units_eq hnext, show 2 ^ (dropped + 1) = 2 * 2 ^ dropped from Nat.pow_succ', ← Nat.mul_assoc]
    exact Nat.mul_le_mul_right _ (by omega)

/-- The code before one with some bits dropped is as far away as the last bit kept, unless it has
one bit less to drop. -/
theorem units_previous {dropped kept : Nat} (h : Leading dropped kept) :
    (dropped = 0 ∧ kept = 0) ∨
      units (dropped * 2 ^ 52 + kept - 1) + 2 ^ dropped = kept * 2 ^ dropped ∨
      (dropped ≠ 0 ∧ kept = 2 ^ 52) := by
  obtain ⟨hle, hnormal⟩ := h
  rcases Nat.eq_zero_or_pos kept with hkept | hkept
  · exact Or.inl ⟨by omega, hkept⟩
  · by_cases hprevious : dropped = 0 ∨ 2 ^ 52 ≤ kept - 1
    · have hleading : Leading dropped (kept - 1) := ⟨by omega, hprevious⟩
      refine Or.inr (Or.inl ?_)
      rw [show dropped * 2 ^ 52 + kept - 1 = dropped * 2 ^ 52 + (kept - 1) by omega,
        units_eq hleading, ← Nat.succ_mul]
      congr 1
      omega
    · exact Or.inr (Or.inr (by omega))

theorem exists_leading (c : Nat) :
    ∃ dropped kept, c = dropped * 2 ^ 52 + kept ∧ Leading dropped kept := by
  refine ⟨c / 2 ^ 52 - 1, c - (c / 2 ^ 52 - 1) * 2 ^ 52, ?_, ?_, ?_⟩
  · omega
  · omega
  · omega

theorem units_lt_succ (c : Nat) : units c < units (c + 1) := by
  obtain ⟨dropped, kept, rfl, hleading⟩ := exists_leading c
  rw [units_eq hleading]
  refine Nat.lt_of_lt_of_le ?_ (units_next hleading)
  exact Nat.mul_lt_mul_of_pos_right (Nat.lt_succ_self kept) (Nat.two_pow_pos dropped)

/-- The next magnitude is away by the last of fifty-three bits at least. -/
theorem units_le_gap (c : Nat) : units c ≤ 2 ^ 53 * (units (c + 1) - units c) := by
  obtain ⟨dropped, kept, rfl, hleading⟩ := exists_leading c
  have hnext := units_next hleading
  rw [Nat.add_mul, Nat.one_mul] at hnext
  rw [units_eq hleading]
  calc kept * 2 ^ dropped ≤ 2 ^ 53 * 2 ^ dropped := Nat.mul_le_mul_right _ hleading.1
    _ ≤ 2 ^ 53 * (units (dropped * 2 ^ 52 + kept + 1) - kept * 2 ^ dropped) :=
      Nat.mul_le_mul_left _ (Nat.le_sub_of_add_le' hnext)

theorem units_strictMono : StrictMono units := strictMono_nat_of_lt_succ units_lt_succ

theorem units_le_units {c c' : Nat} : units c ≤ units c' ↔ c ≤ c' := units_strictMono.le_iff_le

/-- Whatever fits into fifty-three bits is a magnitude, and so it is times a power of two. -/
theorem exists_units {kept : Nat} (h : kept ≤ 2 ^ 53) (dropped : Nat) :
    ∃ c, units c = kept * 2 ^ dropped := by
  induction dropped generalizing kept with
  | zero => exact ⟨0 * 2 ^ 52 + kept, units_eq ⟨h, Or.inl rfl⟩⟩
  | succ dropped ih =>
    by_cases hfull : 2 ^ 52 ≤ kept
    · exact ⟨(dropped + 1) * 2 ^ 52 + kept, units_eq ⟨h, Or.inr hfull⟩⟩
    · -- there is room for one of the bits that are dropped
      obtain ⟨c, hc⟩ := ih (show kept * 2 ≤ 2 ^ 53 by omega)
      exact ⟨c, by rw [hc, Nat.mul_assoc, Nat.pow_succ']⟩

/-- So few bits of so small a magnitude are not dropped further than this. -/
theorem Leading.dropped_le {dropped kept e : Nat} (h : Leading dropped kept)
    (hlt : kept * 2 ^ dropped < 2 ^ 53 * 2 ^ e) : dropped ≤ e := by
  by_contra hgt
  have hfull : 2 ^ 52 ≤ kept := h.2.resolve_left (by omega)
  have hpower : 2 * 2 ^ e ≤ 2 ^ dropped := by
    rw [← Nat.pow_succ']
    exact Nat.pow_le_pow_right (by decide) (by omega)
  have hlarge := Nat.mul_le_mul hfull hpower
  omega

/-- What a magnitude has over a multiple of a power of two is a magnitude, unless it is so large
that it has lost bits of that multiple. -/
theorem exists_units_add {c whole e : Nat} (hlow : whole * 2 ^ e ≤ units c)
    (hhigh : units c < 2 ^ 53 * 2 ^ e) : ∃ c', whole * 2 ^ e + units c' = units c := by
  obtain ⟨dropped, kept, rfl, hleading⟩ := exists_leading c
  rw [units_eq hleading] at hlow hhigh ⊢
  have hsplit : whole * 2 ^ e = whole * 2 ^ (e - dropped) * 2 ^ dropped := by
    rw [Nat.mul_assoc, ← Nat.pow_add, Nat.sub_add_cancel (hleading.dropped_le hhigh)]
  rw [hsplit] at hlow ⊢
  have hle : whole * 2 ^ (e - dropped) ≤ kept :=
    Nat.le_of_mul_le_mul_right hlow (Nat.two_pow_pos dropped)
  have hrest : kept - whole * 2 ^ (e - dropped) ≤ 2 ^ 53 := (Nat.sub_le _ _).trans hleading.1
  obtain ⟨c', hc'⟩ := exists_units hrest dropped
  refine ⟨c', ?_⟩
  rw [hc', ← Nat.add_mul, Nat.add_sub_cancel' hle]

/-- The magnitude after a large one is far away. -/
theorem units_add_le {c e : Nat} (h : 2 ^ 53 * 2 ^ e ≤ units c) :
    units c + 2 * 2 ^ e ≤ units (c + 1) := by
  obtain ⟨dropped, kept, rfl, hleading, hkept⟩ :
      ∃ dropped kept, c = dropped * 2 ^ 52 + kept ∧ Leading dropped kept ∧ kept < 2 ^ 53 := by
    refine ⟨c / 2 ^ 52 - 1, c - (c / 2 ^ 52 - 1) * 2 ^ 52, ?_, ⟨?_, ?_⟩, ?_⟩ <;> omega
  have hnext := units_next hleading
  rw [units_eq hleading] at h ⊢
  -- more bits are dropped than the power of two has
  have hdropped : e < dropped := by
    by_contra hge
    have hpower : 2 ^ dropped ≤ 2 ^ e := Nat.pow_le_pow_right (by decide) (Nat.not_lt.mp hge)
    have hsmall : kept * 2 ^ dropped ≤ kept * 2 ^ e := Nat.mul_le_mul_left _ hpower
    have hless := Nat.mul_lt_mul_of_pos_right hkept (Nat.two_pow_pos e)
    omega
  have hpower : 2 * 2 ^ e ≤ 2 ^ dropped := by
    rw [← Nat.pow_succ']
    exact Nat.pow_le_pow_right (by decide) hdropped
  rw [Nat.succ_mul] at hnext
  omega

/-! ## What rounds to a code -/

/-- Whether a ratio lies between the midpoints to the codes on either side of a code, the midpoints
included if the code is even. -/
structure RoundsTo (c num den : Nat) : Prop where
  low : (units (c - 1) + units c) * den ≤ 2 * num
  high : 2 * num ≤ (units c + units (c + 1)) * den
  inner : c % 2 = 1 → (units (c - 1) + units c) * den < 2 * num ∧
    2 * num < (units c + units (c + 1)) * den

namespace RoundsTo

variable {c c' num den factor : Nat}

/-- What rounds to a code depends on the ratio only. -/
theorem mul_iff (h : 0 < factor) :
    RoundsTo c (num * factor) (den * factor) ↔ RoundsTo c num den := by
  have hle : ∀ u, u * (den * factor) ≤ 2 * (num * factor) ↔ u * den ≤ 2 * num := fun u => by
    rw [← Nat.mul_assoc, ← Nat.mul_assoc]
    exact Nat.mul_le_mul_right_iff h
  have hge : ∀ u, 2 * (num * factor) ≤ u * (den * factor) ↔ 2 * num ≤ u * den := fun u => by
    rw [← Nat.mul_assoc, ← Nat.mul_assoc]
    exact Nat.mul_le_mul_right_iff h
  constructor
  · rintro ⟨hlow, hhigh, hinner⟩
    refine ⟨(hle _).mp hlow, (hge _).mp hhigh, fun hodd => ?_⟩
    exact ⟨lt_iff_lt_of_le_iff_le (hge _) |>.mp (hinner hodd).1,
      lt_iff_lt_of_le_iff_le (hle _) |>.mp (hinner hodd).2⟩
  · rintro ⟨hlow, hhigh, hinner⟩
    refine ⟨(hle _).mpr hlow, (hge _).mpr hhigh, fun hodd => ?_⟩
    exact ⟨lt_iff_lt_of_le_iff_le (hge _) |>.mpr (hinner hodd).1,
      lt_iff_lt_of_le_iff_le (hle _) |>.mpr (hinner hodd).2⟩

/-- A ratio does not round to a code below another one to which it rounds. -/
theorem not_lt (h : RoundsTo c num den) (h' : RoundsTo c' num den) (hden : 0 < den) :
    ¬ c < c' := by
  intro hlt
  have hbefore : units c ≤ units (c' - 1) := units_le_units.mpr (by omega)
  have hafter : units (c + 1) ≤ units c' := units_le_units.mpr (by omega)
  have hsum : (units c + units (c + 1)) * den ≤ (units (c' - 1) + units c') * den :=
    Nat.mul_le_mul_right den (Nat.add_le_add hbefore hafter)
  -- the midpoint below the one is the midpoint above the other, so they are neighbours
  have heq : (units c + units (c + 1)) * den = (units (c' - 1) + units c') * den :=
    Nat.le_antisymm hsum (h'.low.trans h.high)
  have hsame : units c + units (c + 1) = units (c' - 1) + units c' :=
    Nat.eq_of_mul_eq_mul_right hden heq
  have hnext : c' - 1 = c := units_strictMono.injective (by omega)
  -- but of two neighbours one is odd, and the midpoint does not round to that one
  have hlow := h'.low
  have hhigh := h.high
  rcases Nat.mod_two_eq_zero_or_one c with heven | hodd
  · have hodd : c' % 2 = 1 := by omega
    have := (h'.inner hodd).1
    omega
  · have := (h.inner hodd).2
    omega

theorem unique (h : RoundsTo c num den) (h' : RoundsTo c' num den) (hden : 0 < den) : c = c' :=
  Nat.le_antisymm (Nat.not_lt.mp (h'.not_lt h hden)) (Nat.not_lt.mp (h.not_lt h' hden))

/-- What is no larger rounds to no larger a code. -/
theorem le_of_le {num' : Nat} (h : RoundsTo c num den) (h' : RoundsTo c' num' den)
    (hden : 0 < den) (hle : num ≤ num') : c ≤ c' := by
  rcases Nat.eq_or_lt_of_le hle with rfl | hlt
  · exact (h.unique h' hden).le
  · by_contra hgt
    have hbefore : units c' ≤ units (c - 1) := units_le_units.mpr (by omega)
    have hafter : units (c' + 1) ≤ units c := units_le_units.mpr (by omega)
    have hsum : (units c' + units (c' + 1)) * den ≤ (units (c - 1) + units c) * den :=
      Nat.mul_le_mul_right den (Nat.add_le_add hbefore hafter)
    have hlow := h.low
    have hhigh := h'.high
    omega

end RoundsTo

/-- The code to which a ratio rounds, if there were codes beyond the infinite one. -/
def roundedCode (num den : Nat) : Nat :=
  let dropped := Nat.log2 (num / den) - 52
  dropped * 2 ^ 52 + roundHalfEven num (den * 2 ^ dropped)

theorem nearestCode_eq_min (num den : Nat) :
    nearestCode num den = min (roundedCode num den) infinityCode := by
  unfold nearestCode roundedCode
  dsimp only
  rw [Nat.shiftLeft_eq, Nat.shiftLeft_eq]

/-- The bits that are dropped leave fifty-three at most, and just as many if any are dropped. -/
theorem dropped_spec (num : Nat) {den : Nat} (hden : 0 < den) :
    num < 2 ^ 53 * (den * 2 ^ (Nat.log2 (num / den) - 52)) ∧
      (Nat.log2 (num / den) - 52 = 0 ∨
        2 ^ 52 * (den * 2 ^ (Nat.log2 (num / den) - 52)) ≤ num) := by
  have hassoc : ∀ a k, 2 ^ a * (den * 2 ^ k) = 2 ^ (a + k) * den := fun a k => by
    rw [Nat.pow_add, Nat.mul_comm den, Nat.mul_assoc]
  generalize hsize : Nat.log2 (num / den) = size
  rw [hassoc, hassoc]
  -- the logarithm is one less than the number of bits before the point
  constructor
  · have hquotient : num / den < 2 ^ (size + 1) := hsize ▸ Nat.lt_log2_self
    have hpower : 2 ^ (size + 1) ≤ 2 ^ (53 + (size - 52)) :=
      Nat.pow_le_pow_right (by decide) (by omega)
    exact (Nat.div_lt_iff_lt_mul hden).mp (hquotient.trans_le hpower)
  · by_cases hzero : size - 52 = 0
    · exact Or.inl hzero
    · have hne : num / den ≠ 0 := by
        intro h
        rw [h, Nat.log2_zero] at hsize
        omega
      have hquotient : 2 ^ (52 + (size - 52)) ≤ num / den := by
        rw [show 52 + (size - 52) = size from by omega, ← hsize]
        exact Nat.log2_self_le hne
      exact Or.inr ((Nat.le_div_iff_mul_le hden).mp hquotient)

/-- A rounded ratio keeps as many leading bits as a double has. -/
theorem leading_rounded (num : Nat) {den : Nat} (hden : 0 < den) :
    Leading (Nat.log2 (num / den) - 52)
      (roundHalfEven num (den * 2 ^ (Nat.log2 (num / den) - 52))) := by
  obtain ⟨hlt, hle⟩ := dropped_spec num hden
  generalize Nat.log2 (num / den) - 52 = dropped at hlt hle
  have hpos : 0 < den * 2 ^ dropped := Nat.mul_pos hden (Nat.two_pow_pos dropped)
  obtain ⟨hlow, hhigh, -⟩ := roundHalfEven_spec num hpos
  generalize den * 2 ^ dropped = unit at *
  constructor
  · by_contra hgt
    have := Nat.mul_le_mul_right unit (Nat.not_le.mp hgt)
    omega
  · refine hle.imp_right fun hle => ?_
    by_contra hgt
    have := Nat.mul_le_mul_right unit (Nat.not_le.mp hgt)
    rw [Nat.succ_mul] at this
    omega

/-- **A ratio rounds to its rounded code.** -/
theorem roundsTo_roundedCode (num : Nat) {den : Nat} (hden : 0 < den) :
    RoundsTo (roundedCode num den) num den := by
  have hleading := leading_rounded num hden
  obtain ⟨-, hle⟩ := dropped_spec num hden
  unfold roundedCode
  dsimp only
  generalize Nat.log2 (num / den) - 52 = dropped at *
  have hpos : 0 < den * 2 ^ dropped := Nat.mul_pos hden (Nat.two_pow_pos dropped)
  obtain ⟨hlow, hhigh, hinner⟩ := roundHalfEven_spec num hpos
  generalize roundHalfEven num (den * 2 ^ dropped) = kept at *
  have hscale : ∀ a, a * 2 ^ dropped * den = a * (den * 2 ^ dropped) := fun a => by
    rw [Nat.mul_assoc, Nat.mul_comm den]
  have hparity : (dropped * 2 ^ 52 + kept) % 2 = kept % 2 := by omega
  -- both midpoints are half of the last bit kept away, or more
  have habove : 2 * (kept * (den * 2 ^ dropped)) + den * 2 ^ dropped ≤
      (units (dropped * 2 ^ 52 + kept) + units (dropped * 2 ^ 52 + kept + 1)) * den := by
    have hsum := Nat.mul_le_mul_right den (Nat.add_le_add_left (units_next hleading)
      (units (dropped * 2 ^ 52 + kept)))
    refine Nat.le_trans (Nat.le_of_eq ?_) hsum
    rw [units_eq hleading, ← Nat.add_mul, hscale, ← Nat.add_assoc, Nat.add_mul, Nat.add_mul,
      Nat.one_mul, Nat.two_mul]
  rcases units_previous hleading with ⟨hdropped, hkept⟩ | hprevious | ⟨hdropped, hkept⟩
  · -- there is no code before zero
    subst hdropped hkept
    refine ⟨?_, hhigh.trans habove, nofun⟩
    show (units 0 + units 0) * den ≤ 2 * num
    rw [show units 0 = 0 from rfl, Nat.zero_mul]
    exact Nat.zero_le _
  · have hbelow : (units (dropped * 2 ^ 52 + kept - 1) + units (dropped * 2 ^ 52 + kept)) * den +
        den * 2 ^ dropped = 2 * (kept * (den * 2 ^ dropped)) := by
      rw [Nat.add_mul, Nat.add_right_comm, Nat.mul_comm den (2 ^ dropped), ← Nat.add_mul,
        hprevious, Nat.mul_comm (2 ^ dropped) den, units_eq hleading, hscale, Nat.two_mul]
    refine ⟨by omega, hhigh.trans habove, fun hodd => ?_⟩
    have hinner := hinner (hparity ▸ hodd)
    omega
  · -- the code before is only half as far away, but the ratio is not below this one
    have hexact := hle.resolve_left hdropped
    have hless : (units (dropped * 2 ^ 52 + kept - 1) + units (dropped * 2 ^ 52 + kept)) * den <
        2 * num := by
      have hprevious := units_lt_succ (dropped * 2 ^ 52 + kept - 1)
      rw [Nat.sub_add_cancel (by omega)] at hprevious
      have hself : units (dropped * 2 ^ 52 + kept) * den ≤ num := by
        rw [units_eq hleading, hscale, hkept]
        exact hexact
      have hsum := Nat.mul_lt_mul_of_pos_right hprevious hden
      rw [Nat.add_mul]
      omega
    refine ⟨hless.le, hhigh.trans habove, fun hodd => ?_⟩
    omega

/-- **A ratio is rounded to the one code to which it rounds.** -/
theorem nearestCode_eq {c num den : Nat} (h : RoundsTo c num den) (hden : 0 < den) :
    nearestCode num den = min c infinityCode := by
  rw [nearestCode_eq_min, (roundsTo_roundedCode num hden).unique h hden]

theorem roundedCode_mono {num num' den den' : Nat} (hden : 0 < den) (hden' : 0 < den')
    (h : num * den' ≤ num' * den) : roundedCode num den ≤ roundedCode num' den' := by
  have hrounds := (RoundsTo.mul_iff hden').mpr (roundsTo_roundedCode num hden)
  have hrounds' := (RoundsTo.mul_iff hden).mpr (roundsTo_roundedCode num' hden')
  rw [Nat.mul_comm den' den] at hrounds'
  exact hrounds.le_of_le hrounds' (Nat.mul_pos hden hden') h

/-- **Rounding keeps order.** -/
theorem nearestCode_mono {num num' den den' : Nat} (hden : 0 < den) (hden' : 0 < den')
    (h : num * den' ≤ num' * den) : nearestCode num den ≤ nearestCode num' den' := by
  rw [nearestCode_eq_min, nearestCode_eq_min]
  exact min_le_min_right _ (roundedCode_mono hden hden' h)

theorem nearestCode_le_infinityCode (num den : Nat) : nearestCode num den ≤ infinityCode := by
  rw [nearestCode_eq_min]
  exact Nat.min_le_right _ _

theorem unitsPerOne_pos : 0 < unitsPerOne := by decide

theorem unitsPerOne_eq : unitsPerOne = 2 ^ 1074 := by
  -- for any exponent first, since a power of this size is not to be worked out
  have hshift : ∀ n : Nat, 1 <<< n = 2 ^ n := Nat.one_shiftLeft
  exact hshift 1074

/-- What is not above a code is not rounded to one above it. -/
theorem roundedCode_le {c num den : Nat} (h : num ≤ units c * den) (hden : 0 < den) :
    roundedCode num den ≤ c := by
  have hlow := (roundsTo_roundedCode num hden).low
  by_contra hgt
  have hbefore : units c ≤ units (roundedCode num den - 1) := units_le_units.mpr (by omega)
  have hafter : units c < units (roundedCode num den) := units_strictMono (by omega)
  have hsum : (units c + units c) * den <
      (units (roundedCode num den - 1) + units (roundedCode num den)) * den :=
    Nat.mul_lt_mul_of_pos_right (by omega) hden
  rw [Nat.add_mul] at hsum
  omega

/-- What a large magnitude is increased by is lost if it is less than half of the way to the next
one. -/
theorem nearestCode_add_le {c num e : Nat} (h : 2 ^ 53 * 2 ^ e ≤ units c) (hnum : num < 2 ^ e) :
    nearestCode (units c + num) 1 ≤ c := by
  have hgap := units_add_le h
  have hlow := (roundsTo_roundedCode (units c + num) Nat.one_pos).low
  rw [nearestCode_eq_min]
  refine (Nat.min_le_left _ _).trans ?_
  by_contra hgt
  have hbefore : units c ≤ units (roundedCode (units c + num) 1 - 1) :=
    units_le_units.mpr (by omega)
  have hafter : units (c + 1) ≤ units (roundedCode (units c + num) 1) :=
    units_le_units.mpr (by omega)
  omega

theorem nearestCode_le {c num den : Nat} (h : num ≤ units c * den) (hden : 0 < den) :
    nearestCode num den ≤ c := by
  rw [nearestCode_eq_min]
  exact (Nat.min_le_left _ _).trans (roundedCode_le h hden)

/-- The magnitude of a code rounds to it. -/
theorem roundsTo_units (c : Nat) : RoundsTo c (units c) 1 := by
  have habove := units_lt_succ c
  rcases Nat.eq_zero_or_pos c with rfl | hpos
  · exact ⟨by decide, by omega, nofun⟩
  · have hbelow := units_lt_succ (c - 1)
    rw [Nat.sub_add_cancel hpos] at hbelow
    exact ⟨by omega, by omega, fun _ => by omega⟩

/-- What is not below a code is not rounded to one below it. -/
theorem le_roundedCode {c num den : Nat} (h : units c * den ≤ num) (hden : 0 < den) :
    c ≤ roundedCode num den := by
  have hhigh := (roundsTo_roundedCode num hden).high
  by_contra hgt
  have hbefore : units (roundedCode num den) < units c := units_strictMono (by omega)
  have hafter : units (roundedCode num den + 1) ≤ units c := units_le_units.mpr (by omega)
  have hsum : (units (roundedCode num den) + units (roundedCode num den + 1)) * den <
      (units c + units c) * den := Nat.mul_lt_mul_of_pos_right (by omega) hden
  rw [Nat.add_mul (units c)] at hsum
  omega

/-- Rounding adds half of the last of fifty-three bits at most. -/
theorem units_roundedCode_le {num den : Nat} (hden : 0 < den) (h : 2 ^ 52 * den ≤ num) :
    2 ^ 53 * (units (roundedCode num den) * den) ≤ (2 ^ 53 + 1) * num := by
  have hleading := leading_rounded num hden
  obtain ⟨-, hle⟩ := dropped_spec num hden
  unfold roundedCode
  dsimp only
  generalize Nat.log2 (num / den) - 52 = dropped at *
  have hunit : 2 ^ 52 * (den * 2 ^ dropped) ≤ num := by
    rcases hle with rfl | hle
    · rwa [Nat.pow_zero, Nat.mul_one]
    · exact hle
  have hpos : 0 < den * 2 ^ dropped := Nat.mul_pos hden (Nat.two_pow_pos dropped)
  obtain ⟨hlow, -, -⟩ := roundHalfEven_spec num hpos
  rw [units_eq hleading, Nat.mul_assoc, Nat.mul_comm (2 ^ dropped) den]
  omega

/-! ## The bits of a double -/

theorem infinityCode_lt : infinityCode < 2 ^ 63 := by decide

section ofCode

variable {c : Nat} (h : c < 2 ^ 63)
include h

theorem toNat_ofCode (negative : Bool) :
    (ofCode negative c).bits.toNat = if negative then 2 ^ 63 + c else c := by
  unfold ofCode
  rw [UInt64.toNat_ofNat']
  cases negative with
  | true =>
    show (1 <<< 63 + c) % 2 ^ 64 = 2 ^ 63 + c
    omega
  | false =>
    show c % 2 ^ 64 = c
    omega

theorem code_ofCode (negative : Bool) : (ofCode negative c).code = c := by
  unfold code
  rw [toNat_ofCode h]
  cases negative with
  | true =>
    show (2 ^ 63 + c) % 2 ^ 63 = c
    omega
  | false =>
    show c % 2 ^ 63 = c
    omega

theorem isNegative_ofCode (negative : Bool) : (ofCode negative c).isNegative = negative := by
  unfold isNegative
  rw [toNat_ofCode h]
  cases negative with
  | true =>
    show decide (1 <<< 63 ≤ 2 ^ 63 + c) = true
    exact decide_eq_true (by omega)
  | false =>
    show decide (1 <<< 63 ≤ c) = false
    exact decide_eq_false (by omega)

end ofCode

theorem code_lt (x : Binary64) : x.code < 2 ^ 63 := Nat.mod_lt _ (by decide)

/-- A double is its sign and its code. -/
theorem ofCode_code (x : Binary64) : ofCode x.isNegative x.code = x := by
  have hbits : x.bits.toNat < 2 ^ 64 := x.bits.toNat_lt
  have hcode := toNat_ofCode x.code_lt x.isNegative
  have hsame : (ofCode x.isNegative x.code).bits = x.bits := by
    apply UInt64.toNat_inj.mp
    rw [hcode]
    unfold isNegative code
    rw [show 1 <<< 63 = 2 ^ 63 from rfl]
    split
    next h =>
      have h := of_decide_eq_true h
      omega
    next h =>
      have h := of_decide_eq_false (Bool.eq_false_iff.mpr h)
      omega
  cases x
  exact congrArg Binary64.mk hsame

theorem isNaN_ofCode_of_le {a : Nat} (ha : a ≤ infinityCode) (negative : Bool) :
    (ofCode negative a).isNaN = false := by
  unfold isNaN
  rw [code_ofCode (ha.trans_lt infinityCode_lt)]
  exact decide_eq_false (by omega)

theorem signedUnits_ofCode {a : Nat} (ha : a ≤ infinityCode) :
    (ofCode false a).signedUnits = units a := by
  unfold signedUnits
  rw [isNegative_ofCode (ha.trans_lt infinityCode_lt), code_ofCode (ha.trans_lt infinityCode_lt),
    if_neg Bool.false_ne_true]

/-- Magnitudes are ordered as their codes are. -/
theorem le_ofCode {a b : Nat} (ha : a ≤ infinityCode) (hb : b ≤ infinityCode) :
    (ofCode false a).le (ofCode false b) = decide (a ≤ b) := by
  unfold le
  rw [isNaN_ofCode_of_le ha, isNaN_ofCode_of_le hb, signedUnits_ofCode ha, signedUnits_ofCode hb,
    Bool.not_false, Bool.true_and, Bool.true_and, decide_eq_decide, Int.ofNat_le]
  exact units_le_units

section finite

variable {a b : Nat}

theorem neg_ofCode (ha : a < infinityCode) : (ofCode false a).neg = ofCode true a := by
  have hcode : a < 2 ^ 63 := ha.trans infinityCode_lt
  unfold neg
  rw [isNegative_ofCode hcode, code_ofCode hcode]
  rfl

theorem isFinite_ofCode (ha : a < infinityCode) (negative : Bool) :
    (ofCode negative a).isFinite = true := by
  unfold isFinite
  rw [code_ofCode (ha.trans infinityCode_lt)]
  exact decide_eq_true ha

theorem isNaN_ofCode (ha : a < infinityCode) (negative : Bool) :
    (ofCode negative a).isNaN = false := by
  unfold isNaN
  rw [code_ofCode (ha.trans infinityCode_lt)]
  exact decide_eq_false (by omega)

theorem isInfinite_ofCode (ha : a < infinityCode) (negative : Bool) :
    (ofCode negative a).isInfinite = false := by
  unfold isInfinite
  rw [code_ofCode (ha.trans infinityCode_lt)]
  exact decide_eq_false (by omega)

/-- The product of two finite magnitudes is rounded once. -/
theorem mul_ofCode (ha : a < infinityCode) (hb : b < infinityCode) :
    (ofCode false a).mul (ofCode false b) =
      ofCode false (nearestCode (units a * units b) unitsPerOne) := by
  have ha' : a < 2 ^ 63 := ha.trans infinityCode_lt
  have hb' : b < 2 ^ 63 := hb.trans infinityCode_lt
  unfold mul
  dsimp only
  rw [isNegative_ofCode ha', isNegative_ofCode hb', code_ofCode ha', code_ofCode hb',
    isNaN_ofCode ha, isNaN_ofCode hb, isInfinite_ofCode ha, isInfinite_ofCode hb]
  rfl

/-- The quotient of two finite magnitudes is rounded once. -/
theorem div_ofCode (ha : a < infinityCode) (hb : b < infinityCode) (hpos : b ≠ 0) :
    (ofCode false a).div (ofCode false b) =
      ofCode false (nearestCode (units a * unitsPerOne) (units b)) := by
  have ha' : a < 2 ^ 63 := ha.trans infinityCode_lt
  have hb' : b < 2 ^ 63 := hb.trans infinityCode_lt
  have hzero : (ofCode false b).isZero = false := by
    unfold isZero
    rw [code_ofCode hb']
    exact decide_eq_false hpos
  unfold div
  dsimp only
  rw [isNegative_ofCode ha', isNegative_ofCode hb', code_ofCode ha', code_ofCode hb',
    isNaN_ofCode ha, isNaN_ofCode hb, isInfinite_ofCode ha, isInfinite_ofCode hb, hzero]
  rfl

/-- The sum of two finite magnitudes is rounded once. -/
theorem add_ofCode (ha : a < infinityCode) (hb : b < infinityCode) :
    (ofCode false a).add (ofCode false b) = ofCode false (nearestCode (units a + units b) 1) := by
  have ha' : a < 2 ^ 63 := ha.trans infinityCode_lt
  have hb' : b < 2 ^ 63 := hb.trans infinityCode_lt
  unfold add
  rw [isNegative_ofCode ha', isNegative_ofCode hb', isNaN_ofCode ha, isNaN_ofCode hb,
    isInfinite_ofCode ha, isInfinite_ofCode hb, signedUnits_ofCode ha.le, signedUnits_ofCode hb.le]
  dsimp only
  rw [if_neg (by simp), if_neg (by simp), if_neg (by simp)]
  split
  next hzero =>
    rw [show units a + units b = 0 by omega]
    decide +kernel
  next =>
    rw [show ((units a : Int) + units b).natAbs = units a + units b by omega,
      decide_eq_false (by omega)]

end finite

end Binary64

end Telemetry
