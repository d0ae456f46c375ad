import Telemetry.Proofs.Json.Scaled

/-!
# Powers of doubles

A power of a double that is at least one is computed by squaring and multiplying, and each of these
steps is rounded. It still grows with its exponent: rounding keeps order (`nearestCode_mono`), so a
factor more never makes a product smaller, and what the lowest bits of an exponent have gathered is
never more than the square that takes their place when they carry over (`powerCode_le_succ`). A
negative exponent gives the reciprocal, so the power grows from one end of the exponents to the
other (`factorCode_mono`).
-/

namespace Telemetry

namespace Binary64

open Json.Reader (oneCode units_oneCode oneCode_lt)

/-! ## Products -/

/-- The code of the product of two magnitudes. -/
def times (a b : Nat) : Nat := nearestCode (units a * units b) unitsPerOne

theorem times_mono {a a' b b' : Nat} (ha : a ≤ a') (hb : b ≤ b') : times a b ≤ times a' b' := by
  refine nearestCode_mono unitsPerOne_pos unitsPerOne_pos (Nat.mul_le_mul_right _ ?_)
  exact Nat.mul_le_mul (units_le_units.mpr ha) (units_le_units.mpr hb)

theorem times_comm (a b : Nat) : times a b = times b a := by
  unfold times
  rw [Nat.mul_comm]

theorem times_le (a b : Nat) : times a b ≤ infinityCode := nearestCode_le_infinityCode _ _

/-- A factor of at least one makes nothing smaller. -/
theorem le_times {a b : Nat} (ha : oneCode ≤ a) (hb : b ≤ infinityCode) : b ≤ times a b := by
  unfold times
  rw [nearestCode_eq_min]
  refine Nat.le_min.mpr ⟨le_roundedCode ?_ unitsPerOne_pos, hb⟩
  rw [Nat.mul_comm (units a)]
  exact Nat.mul_le_mul_left _ (units_oneCode ▸ units_le_units.mpr ha)

theorem mul_ofCode_of_finite {a b : Nat} (ha : a < infinityCode) (hb : b < infinityCode) :
    (ofCode false a).mul (ofCode false b) = ofCode false (times a b) := mul_ofCode ha hb

theorem isInfinite_ofCode_eq {a : Nat} (ha : a ≤ infinityCode) (negative : Bool) :
    (ofCode negative a).isInfinite = decide (a = infinityCode) := by
  unfold isInfinite
  rw [code_ofCode (ha.trans_lt infinityCode_lt)]

/-- A product with an infinite factor is infinite, or no number if the other one is zero. -/
theorem mul_ofCode_of_infinite {a b : Nat} (ha : a ≤ infinityCode) (hb : b ≤ infinityCode)
    (h : a = infinityCode ∨ b = infinityCode) :
    (ofCode false a).mul (ofCode false b) =
      if a = 0 ∨ b = 0 then nan else ofCode false infinityCode := by
  have ha' : a < 2 ^ 63 := ha.trans_lt infinityCode_lt
  have hb' : b < 2 ^ 63 := hb.trans_lt infinityCode_lt
  unfold mul isZero
  rw [isNaN_ofCode_of_le ha, isNaN_ofCode_of_le hb, isInfinite_ofCode_eq ha,
    isInfinite_ofCode_eq hb, isNegative_ofCode ha', isNegative_ofCode hb', code_ofCode ha',
    code_ofCode hb']
  simp only [Bool.or_self, Bool.false_eq_true, if_false, Bool.or_eq_true, decide_eq_true_eq, h,
    if_true, bne_self_eq_false]
  rfl

theorem isFinite_mul_of_infinite {a b : Nat} (ha : a ≤ infinityCode) (hb : b ≤ infinityCode)
    (h : a = infinityCode ∨ b = infinityCode) :
    ((ofCode false a).mul (ofCode false b)).isFinite = false := by
  rw [mul_ofCode_of_infinite ha hb h]
  split <;> decide

/-- Magnitudes of at least one are multiplied like finite ones even if they are infinite. -/
theorem mul_ofCode_of_one_le {a b : Nat} (ha : oneCode ≤ a) (hb : oneCode ≤ b)
    (ha' : a ≤ infinityCode) (hb' : b ≤ infinityCode) :
    (ofCode false a).mul (ofCode false b) = ofCode false (times a b) := by
  by_cases hinfinite : a = infinityCode ∨ b = infinityCode
  · have hlarge : infinityCode ≤ times a b := by
      have hright := le_times ha hb'
      have hleft := le_times hb ha'
      rw [times_comm] at hleft
      rcases hinfinite with rfl | rfl
      · exact hleft
      · exact hright
    have hpos : 0 < oneCode := by decide
    rw [mul_ofCode_of_infinite ha' hb' hinfinite, if_neg (by omega),
      Nat.le_antisymm (times_le a b) hlarge]
  · exact mul_ofCode_of_finite (by omega) (by omega)

/-! ## Powers -/

/-- The code of what repeated squaring makes of a magnitude, an exponent, and what it has
gathered so far. -/
def powerCode (base gathered : Nat) (exponent : Nat) : Nat :=
  if exponent = 0 then gathered
  else
    powerCode (times base base) (if exponent % 2 = 1 then times gathered base else gathered)
      (exponent / 2)
termination_by exponent

theorem powerCode_zero (base gathered : Nat) : powerCode base gathered 0 = gathered := by
  rw [powerCode, if_pos rfl]

theorem powerCode_of_even {exponent : Nat} (h : exponent % 2 = 0) (base gathered : Nat) :
    powerCode base gathered exponent = powerCode (times base base) gathered (exponent / 2) := by
  by_cases hzero : exponent = 0
  · rw [hzero, Nat.zero_div, powerCode_zero, powerCode_zero]
  · rw [powerCode, if_neg hzero, if_neg (by omega)]

theorem powerCode_of_odd {exponent : Nat} (h : exponent % 2 = 1) (base gathered : Nat) :
    powerCode base gathered exponent =
      powerCode (times base base) (times gathered base) (exponent / 2) := by
  rw [powerCode, if_neg (by omega), if_pos h]

theorem powerCode_bounds {base gathered : Nat} (hbase : oneCode ≤ base)
    (hbase' : base ≤ infinityCode) (hgathered : oneCode ≤ gathered)
    (hgathered' : gathered ≤ infinityCode) (exponent : Nat) :
    oneCode ≤ powerCode base gathered exponent ∧
      powerCode base gathered exponent ≤ infinityCode := by
  induction exponent using Nat.strongRecOn generalizing base gathered with
  | ind exponent ih =>
    by_cases hzero : exponent = 0
    · rw [hzero, powerCode_zero]
      exact ⟨hgathered, hgathered'⟩
    · have hsquare := hbase.trans (le_times hbase hbase')
      have hsmaller : exponent / 2 < exponent := Nat.div_lt_self (by omega) (by decide)
      rcases Nat.mod_two_eq_zero_or_one exponent with heven | hodd
      · rw [powerCode_of_even heven]
        exact ih _ hsmaller hsquare (times_le _ _) hgathered hgathered'
      · rw [powerCode_of_odd hodd]
        exact ih _ hsmaller hsquare (times_le _ _) (hbase.trans (le_times hgathered hbase'))
          (times_le _ _)

theorem powerLoop_zero (fuel : Nat) (base result : Binary64) :
    powerLoop fuel base 0 result = result := by
  cases fuel <;> rfl

theorem powerLoop_succ (fuel : Nat) (base result : Binary64) (exponent : Nat) :
    powerLoop (fuel + 1) base exponent result =
      powerLoop fuel (mul base base) (exponent / 2)
        (if exponent % 2 = 1 then mul result base else result) := by
  conv => lhs; unfold powerLoop
  dsimp only
  by_cases hlast : exponent / 2 = 0
  · rw [if_pos hlast, hlast, powerLoop_zero]
  · rw [if_neg hlast]

/-- The loop computes it, if there is a round for every bit. -/
theorem powerLoop_ofCode {base gathered : Nat} (hbase : oneCode ≤ base)
    (hbase' : base ≤ infinityCode) (hgathered : oneCode ≤ gathered)
    (hgathered' : gathered ≤ infinityCode) {fuel exponent : Nat} (hfuel : exponent ≤ fuel) :
    powerLoop fuel (ofCode false base) exponent (ofCode false gathered) =
      ofCode false (powerCode base gathered exponent) := by
  induction fuel generalizing base gathered exponent with
  | zero =>
    obtain rfl : exponent = 0 := Nat.le_zero.mp hfuel
    rw [powerLoop_zero, powerCode_zero]
  | succ fuel ih =>
    have hsquare := hbase.trans (le_times hbase hbase')
    have hproduct := hbase.trans (le_times hgathered hbase')
    rw [powerLoop_succ, mul_ofCode_of_one_le hbase hbase hbase' hbase',
      mul_ofCode_of_one_le hgathered hbase hgathered' hbase']
    rcases Nat.mod_two_eq_zero_or_one exponent with heven | hodd
    · rw [if_neg (by omega), powerCode_of_even heven]
      exact ih hsquare (times_le _ _) hgathered hgathered' (by omega)
    · rw [if_pos hodd, powerCode_of_odd hodd]
      exact ih hsquare (times_le _ _) hproduct (times_le _ _) (by omega)

theorem powerCode_mono {base base' gathered gathered' : Nat} (hbase : base ≤ base')
    (hgathered : gathered ≤ gathered') (exponent : Nat) :
    powerCode base gathered exponent ≤ powerCode base' gathered' exponent := by
  induction exponent using Nat.strongRecOn generalizing base base' gathered gathered' with
  | ind exponent ih =>
    by_cases hzero : exponent = 0
    · rw [hzero, powerCode_zero, powerCode_zero]
      exact hgathered
    · have hsmaller : exponent / 2 < exponent := Nat.div_lt_self (by omega) (by decide)
      rcases Nat.mod_two_eq_zero_or_one exponent with heven | hodd
      · rw [powerCode_of_even heven, powerCode_of_even heven]
        exact ih _ hsmaller (times_mono hbase hbase) hgathered
      · rw [powerCode_of_odd hodd, powerCode_of_odd hodd]
        exact ih _ hsmaller (times_mono hbase hbase) (times_mono hgathered hbase)

/-- **A power does not shrink when its exponent grows by one.** While ones carry over, what they
have gathered stays below the square that takes their place. -/
theorem powerCode_le_succ {base gathered : Nat} (hbase : oneCode ≤ base)
    (hbase' : base ≤ infinityCode) (hgathered : gathered ≤ base) (exponent : Nat) :
    powerCode base gathered exponent ≤ powerCode base oneCode (exponent + 1) := by
  induction exponent using Nat.strongRecOn generalizing base gathered with
  | ind exponent ih =>
    rcases Nat.mod_two_eq_zero_or_one exponent with heven | hodd
    · -- the lowest bit is set, and the others are the same
      have hnext : (exponent + 1) % 2 = 1 := by omega
      rw [powerCode_of_even heven, powerCode_of_odd hnext,
        show (exponent + 1) / 2 = exponent / 2 by omega]
      exact powerCode_mono (Nat.le_refl _)
        (hgathered.trans (le_times (Nat.le_refl _) hbase')) _
    · have hnext : (exponent + 1) % 2 = 0 := by omega
      rw [powerCode_of_odd hodd, powerCode_of_even hnext,
        show (exponent + 1) / 2 = exponent / 2 + 1 by omega]
      exact ih _ (Nat.div_lt_self (by omega) (by decide)) (hbase.trans (le_times hbase hbase'))
        (times_le _ _) (times_mono hgathered (Nat.le_refl _))

theorem powerCode_mono_exponent {base exponent exponent' : Nat} (hbase : oneCode ≤ base)
    (hbase' : base ≤ infinityCode) (h : exponent ≤ exponent') :
    powerCode base oneCode exponent ≤ powerCode base oneCode exponent' := by
  induction h with
  | refl => exact Nat.le_refl _
  | step _ ih => exact ih.trans (powerCode_le_succ hbase hbase' hbase _)

/-! ## Reciprocals -/

/-- The code of the reciprocal of a magnitude that is at least one. -/
def inverseCode (a : Nat) : Nat :=
  if a = infinityCode then 0 else nearestCode (unitsPerOne * unitsPerOne) (units a)

theorem units_pos {a : Nat} (ha : oneCode ≤ a) : 0 < units a :=
  unitsPerOne_pos.trans_le (units_oneCode ▸ units_le_units.mpr ha)

theorem inverseCode_le {a : Nat} (ha : oneCode ≤ a) : inverseCode a ≤ oneCode := by
  unfold inverseCode
  split
  · exact Nat.zero_le _
  · refine nearestCode_le ?_ (units_pos ha)
    rw [units_oneCode]
    exact Nat.mul_le_mul_left _ (units_oneCode ▸ units_le_units.mpr ha)

theorem inverseCode_anti {a b : Nat} (ha : oneCode ≤ a) (hb : b ≤ infinityCode) (h : a ≤ b) :
    inverseCode b ≤ inverseCode a := by
  unfold inverseCode
  split
  · exact Nat.zero_le _
  · rw [if_neg (by omega)]
    refine nearestCode_mono (units_pos (ha.trans h)) (units_pos ha) ?_
    exact Nat.mul_le_mul_left _ (units_le_units.mpr h)

theorem div_one_ofCode {a : Nat} (ha : oneCode ≤ a) (ha' : a ≤ infinityCode) :
    (ofCode false oneCode).div (ofCode false a) = ofCode false (inverseCode a) := by
  unfold inverseCode
  split
  next hinfinite =>
    subst hinfinite
    rfl
  next hfinite =>
    rw [div_ofCode oneCode_lt (by omega) (by unfold oneCode at ha; omega), units_oneCode]

/-! ## Powers with any exponent -/

/-- The code of a power of a magnitude that is at least one. -/
def factorCode (base : Nat) (exponent : Int) : Nat :=
  if exponent < 0 then inverseCode (powerCode base oneCode exponent.natAbs)
  else powerCode base oneCode exponent.natAbs

theorem ofNat_one : ofNat 1 = ofCode false oneCode :=
  congrArg (ofCode false) Json.Reader.natCode_one

section factor

variable {base : Nat} (hbase : oneCode ≤ base) (hbase' : base ≤ infinityCode)
include hbase hbase'

theorem power_ofCode (exponent : Int) :
    (ofCode false base).power exponent = ofCode false (factorCode base exponent) := by
  have hloop := powerLoop_ofCode hbase hbase' (Nat.le_refl oneCode) oneCode_lt.le
    (Nat.le_succ exponent.natAbs)
  obtain ⟨hlow, hhigh⟩ := powerCode_bounds hbase hbase' (Nat.le_refl oneCode) oneCode_lt.le
    exponent.natAbs
  unfold power factorCode
  dsimp only
  rw [ofNat_one, hloop]
  split
  · exact div_one_ofCode hlow hhigh
  · rfl

theorem factorCode_le (exponent : Int) : factorCode base exponent ≤ infinityCode := by
  obtain ⟨hlow, hhigh⟩ := powerCode_bounds hbase hbase' (Nat.le_refl oneCode) oneCode_lt.le
    exponent.natAbs
  unfold factorCode
  split
  · exact (inverseCode_le hlow).trans oneCode_lt.le
  · exact hhigh

/-- **A power of what is at least one grows with its exponent.** -/
theorem factorCode_mono {exponent exponent' : Int} (h : exponent ≤ exponent') :
    factorCode base exponent ≤ factorCode base exponent' := by
  have hbounds := powerCode_bounds hbase hbase' (Nat.le_refl oneCode) oneCode_lt.le
  unfold factorCode
  split
  next hneg =>
    split
    next hneg' =>
      -- of two reciprocals that of the smaller power is the larger
      exact inverseCode_anti (hbounds _).1 (hbounds _).2
        (powerCode_mono_exponent hbase hbase' (by omega))
    next => exact (inverseCode_le (hbounds _).1).trans (hbounds _).1
  next hnonneg =>
    rw [if_neg (by omega)]
    exact powerCode_mono_exponent hbase hbase' (by omega)

end factor

end Binary64

end Telemetry
