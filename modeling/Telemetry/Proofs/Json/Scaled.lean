import Telemetry.Proofs.Json.Real

/-!
# A decimal as its reader computes it

A reader rounds the digits of a decimal to a double and multiplies or divides it by a power of ten
rounded to a double (`Reader.scaled`). For the decimal that a finite double is written as, this ends
in a finite double (`Reader.exists_scaled`): a division makes nothing larger, and a product stays in
range because rounding adds too little to take any but the few largest codes out of it.

It ends in the very double that was written if the digits and the power of ten are doubles
themselves, since then it is rounded only once (`Reader.scaled_exact`). Otherwise it may not.
-/

namespace Telemetry

namespace Json.Reader

open Binary64

/-- The code of a natural number. -/
def natCode (n : Nat) : Nat := nearestCode (n * unitsPerOne) 1

theorem ofNat_pow (k : Nat) : ofNat (Nat.pow 10 k) = ofCode false (natCode (10 ^ k)) := rfl

/-- The code of one. -/
def oneCode : Nat := 1023 * 2 ^ 52

theorem units_oneCode : units oneCode = unitsPerOne := by decide +kernel

theorem oneCode_lt : oneCode < infinityCode := by decide

/-- A natural number that is a double has its code. -/
theorem natCode_of_units {n c : Nat} (h : units c = n * unitsPerOne) (hc : c < infinityCode) :
    natCode n = c := by
  have hround := roundsTo_units c
  rw [h] at hround
  exact (nearestCode_eq hround Nat.one_pos).trans (Nat.min_eq_left hc.le)

theorem natCode_one : natCode 1 = oneCode :=
  natCode_of_units (units_oneCode.trans (Nat.one_mul _).symm) oneCode_lt

/-- What is at least one has a code that is at least that of one. -/
theorem oneCode_le_natCode {n : Nat} (h : 0 < n) : oneCode ≤ natCode n := by
  unfold natCode
  rw [nearestCode_eq_min]
  refine Nat.le_min.mpr ⟨le_roundedCode ?_ Nat.one_pos, oneCode_lt.le⟩
  rw [units_oneCode, Nat.mul_one]
  exact Nat.le_mul_of_pos_left _ h

theorem natCode_lt {n : Nat} (h : n ≤ 10 ^ 308) : natCode n < infinityCode := by
  have hlarge : 10 ^ 308 * unitsPerOne ≤ units (infinityCode - 1) := by decide +kernel
  have hle : natCode n ≤ infinityCode - 1 := by
    refine nearestCode_le ?_ Nat.one_pos
    rw [Nat.mul_one]
    exact (Nat.mul_le_mul_right _ h).trans hlarge
  exact Nat.lt_of_le_of_lt hle (by decide)

theorem natCode_lt_of_fits {n : Nat} (h : n < UInt64.size) : natCode n < infinityCode := by
  have hsize : UInt64.size ≤ 10 ^ 20 := by decide
  apply natCode_lt
  refine (h.le.trans hsize).trans ?_
  apply Nat.pow_le_pow_right
  · decide
  · decide

/-- The powers of ten that are applied at once are finite and no less than one. -/
theorem natCode_pow_lt {k : Nat} (h : k ≤ 308) : natCode (10 ^ k) < infinityCode := by
  apply natCode_lt
  apply Nat.pow_le_pow_right
  · decide
  · exact h

theorem oneCode_le_natCode_pow (k : Nat) : oneCode ≤ natCode (10 ^ k) :=
  oneCode_le_natCode (Nat.pow_pos (by decide))

/-- Dividing by what is at least one gives no larger code. -/
theorem quotientCode_le {a b : Nat} (hb : oneCode ≤ b) :
    nearestCode (units a * unitsPerOne) (units b) ≤ a := by
  have hunits : unitsPerOne ≤ units b := units_oneCode ▸ units_le_units.mpr hb
  refine nearestCode_le (Nat.mul_le_mul_left _ hunits) ?_
  exact Nat.lt_of_lt_of_le (by decide) hunits

/-- A power of ten below the range of a double is applied in steps. -/
theorem scaled_step (x : Binary64) {exponent : Int} (h : ¬ exponent.natAbs ≤ 308)
    (hneg : exponent ≤ 0) :
    ∃ k ≤ 308, scaled x exponent =
      if x.isZero then .ok x else scaled (x.div (ofNat (Nat.pow 10 k))) (exponent + 308) := by
  refine ⟨308, Nat.le_refl 308, ?_⟩
  rw [scaled, if_neg h, dif_neg (by omega)]

/-- A finite magnitude can be made smaller by any power of ten. -/
theorem scaled_of_nonpos {a : Nat} (ha : a < infinityCode) {exponent : Int} (h : exponent ≤ 0) :
    ∃ b ≤ a, scaled (ofCode false a) exponent = .ok (ofCode false b) := by
  induction hsize : exponent.natAbs using Nat.strongRecOn generalizing a exponent with
  | ind size ih =>
    by_cases hrange : exponent.natAbs ≤ 308
    · have hlt : natCode (10 ^ exponent.natAbs) < infinityCode := natCode_pow_lt hrange
      have hone : oneCode ≤ natCode (10 ^ exponent.natAbs) := oneCode_le_natCode_pow _
      rw [scaled, if_pos hrange]
      dsimp only
      rw [ofNat_pow]
      split
      next hnonneg =>
        -- no power at all: the product with one
        have hzero : exponent.natAbs = 0 := by omega
        have hle : nearestCode (units a * units (natCode (10 ^ exponent.natAbs))) unitsPerOne ≤ a := by
          rw [hzero, Nat.pow_zero, natCode_one, units_oneCode]
          exact nearestCode_le (Nat.le_refl _) (by decide)
        refine ⟨_, hle, ?_⟩
        rw [mul_ofCode ha hlt, isInfinite_ofCode (hle.trans_lt ha), if_neg Bool.false_ne_true]
      next =>
        refine ⟨_, quotientCode_le hone, ?_⟩
        rw [div_ofCode ha hlt (by unfold oneCode at hone; omega)]
    · -- a step makes the magnitude no larger, so the rest is a smaller case
      obtain ⟨k, hk, hstep⟩ := scaled_step (ofCode false a) hrange h
      have hlt : natCode (10 ^ k) < infinityCode := natCode_pow_lt hk
      have hone : oneCode ≤ natCode (10 ^ k) := oneCode_le_natCode_pow k
      have hsmall := quotientCode_le (a := a) hone
      rw [hstep]
      split
      next => exact ⟨a, Nat.le_refl a, rfl⟩
      next =>
        rw [ofNat_pow, div_ofCode ha hlt (by unfold oneCode at hone; omega)]
        obtain ⟨b, hb, hread⟩ := ih (exponent + 308).natAbs (by omega) (hsmall.trans_lt ha)
          (show exponent + 308 ≤ 0 by omega) rfl
        exact ⟨b, hb.trans hsmall, hread⟩

/-- A finite magnitude can be made larger by a power of ten if the product is in range. -/
theorem scaled_of_pos {a : Nat} (ha : a < infinityCode) {exponent : Int} (hpos : 0 < exponent)
    (hle : exponent ≤ 308)
    (hfinite : nearestCode (units a * units (natCode (10 ^ exponent.toNat))) unitsPerOne <
      infinityCode) :
    scaled (ofCode false a) exponent =
      .ok (ofCode false
        (nearestCode (units a * units (natCode (10 ^ exponent.toNat))) unitsPerOne)) := by
  have hsize : exponent.natAbs = exponent.toNat := by omega
  have hlt : natCode (10 ^ exponent.toNat) < infinityCode := natCode_pow_lt (by omega)
  rw [scaled, if_pos (by omega)]
  dsimp only
  rw [if_pos hpos.le, ofNat_pow, hsize, mul_ofCode ha hlt,
    isInfinite_ofCode hfinite, if_neg Bool.false_ne_true]

/-! ## Every finite double is read back -/

theorem units_natCode_le {n : Nat} (h : 0 < n) :
    2 ^ 53 * units (natCode n) ≤ (2 ^ 53 + 1) * (n * unitsPerOne) := by
  have hlarge : 2 ^ 52 * 1 ≤ n * unitsPerOne :=
    Nat.le_trans (by decide) (Nat.le_mul_of_pos_left unitsPerOne h)
  have hrounded := units_roundedCode_le Nat.one_pos hlarge
  rw [Nat.mul_one] at hrounded
  refine Nat.le_trans (Nat.mul_le_mul_left _ (units_le_units.mpr ?_)) hrounded
  unfold natCode
  rw [nearestCode_eq_min]
  exact Nat.min_le_left _ _

/-- The product that is read for a decimal is in range, if the decimal rounds to a code some way
below the largest. -/
theorem product_lt {d : Decimal} {c : Nat} (h : d.RoundsTo c) (hdigits : 0 < d.digits)
    (hpos : 0 < d.exponent) (hc : c + 9 ≤ infinityCode) :
    nearestCode (units (natCode d.digits) * units (natCode (10 ^ d.exponent.toNat))) unitsPerOne <
      infinityCode := by
  have hvalue : d.digits * 10 ^ d.exponent.toNat * unitsPerOne * 2 ≤
      units (infinityCode - 9) + units (infinityCode - 8) := by
    have hhigh := h.high
    rw [show (-d.exponent).toNat = 0 by omega, Nat.pow_zero, Nat.mul_one] at hhigh
    have hself : units c ≤ units (infinityCode - 9) := units_le_units.mpr (by omega)
    have hnext : units (c + 1) ≤ units (infinityCode - 8) := units_le_units.mpr (by omega)
    omega
  -- two roundings up take no more than these few codes
  have hroom : (units (infinityCode - 9) + units (infinityCode - 8)) * (2 ^ 53 + 1) ^ 2 <
      (units (infinityCode - 1) + units infinityCode) * 2 ^ 106 := by decide +kernel
  by_contra hge
  rw [nearestCode_eq_min] at hge
  -- so the product is not below the midpoint to the infinite code
  have hlow : (units (infinityCode - 1) + units infinityCode) * unitsPerOne ≤
      2 * (units (natCode d.digits) * units (natCode (10 ^ d.exponent.toNat))) := by
    refine Nat.le_trans (Nat.mul_le_mul_right _ ?_) (roundsTo_roundedCode _ (by decide)).low
    exact Nat.add_le_add (units_le_units.mpr (by omega)) (units_le_units.mpr (by omega))
  have hfirst := units_natCode_le hdigits
  have hsecond := units_natCode_le (show 0 < 10 ^ d.exponent.toNat from Nat.pow_pos (by decide))
  have hproduct := Nat.mul_le_mul hfirst hsecond
  have hcompare : (units (infinityCode - 1) + units infinityCode) * 2 ^ 106 * unitsPerOne ≤
      (units (infinityCode - 9) + units (infinityCode - 8)) * (2 ^ 53 + 1) ^ 2 * unitsPerOne := by
    calc (units (infinityCode - 1) + units infinityCode) * 2 ^ 106 * unitsPerOne
        = (units (infinityCode - 1) + units infinityCode) * unitsPerOne * 2 ^ 106 := by ring
      _ ≤ 2 * (units (natCode d.digits) * units (natCode (10 ^ d.exponent.toNat))) * 2 ^ 106 :=
          Nat.mul_le_mul_right _ hlow
      _ = 2 * (2 ^ 53 * units (natCode d.digits) *
            (2 ^ 53 * units (natCode (10 ^ d.exponent.toNat)))) := by ring
      _ ≤ 2 * ((2 ^ 53 + 1) * (d.digits * unitsPerOne) *
            ((2 ^ 53 + 1) * (10 ^ d.exponent.toNat * unitsPerOne))) :=
          Nat.mul_le_mul_left _ hproduct
      _ = d.digits * 10 ^ d.exponent.toNat * unitsPerOne * 2 * (2 ^ 53 + 1) ^ 2 *
            unitsPerOne := by ring
      _ ≤ (units (infinityCode - 9) + units (infinityCode - 8)) * (2 ^ 53 + 1) ^ 2 *
            unitsPerOne :=
          Nat.mul_le_mul_right _ (Nat.mul_le_mul_right _ hvalue)
  exact absurd hcompare
    (Nat.not_le.mpr (Nat.mul_lt_mul_of_pos_right hroom (show 0 < unitsPerOne by decide)))

/-- The products for the few largest codes are in range as well. -/
theorem product_lt_of_large : ∀ k < 8,
    nearestCode (units (natCode (Decimal.shortest .toEven (infinityCode - 1 - k)).digits) *
      units (natCode (10 ^ (Decimal.shortest .toEven (infinityCode - 1 - k)).exponent.toNat)))
      unitsPerOne < infinityCode := by decide +kernel

/-- **The document of a finite double is read without a defect**, as a finite magnitude. -/
theorem exists_scaled {c : Nat} (hc : c < infinityCode) :
    ∃ b < infinityCode,
      scaled (ofNat (Decimal.shortest .toEven c).written.digits)
        (Decimal.shortest .toEven c).written.exponent = .ok (ofCode false b) := by
  have hdown : ∀ {n : Nat} {exponent : Int}, n < UInt64.size → exponent ≤ 0 →
      ∃ b < infinityCode, scaled (ofNat n) exponent = .ok (ofCode false b) := by
    intro n exponent hn hexponent
    have hfinite : natCode n < infinityCode := natCode_lt_of_fits hn
    obtain ⟨b, hb, hread⟩ := scaled_of_nonpos hfinite hexponent
    exact ⟨b, hb.trans_lt hfinite, hread⟩
  rcases Nat.eq_zero_or_pos c with rfl | hpos
  · exact hdown (by decide) (by decide)
  · have hne : c ≠ 0 := Nat.pos_iff_ne_zero.mp hpos
    obtain ⟨hrounds, hfits⟩ := Decimal.shortest_spec .toEven hc
    have hwritten := Decimal.digits_written_lt hfits
    rcases Int.lt_or_le 0 (Decimal.shortest .toEven c).written.exponent with hup | hexponent
    · -- a power of ten above one is written as such
      have hsame : (Decimal.shortest .toEven c).written = Decimal.shortest .toEven c := by
        unfold Decimal.written at hup ⊢
        split
        next h =>
          rw [if_pos h] at hup
          exact absurd (show (0 : Int) < -1 from hup) (by decide)
        next => rfl
      rw [hsame] at hup ⊢
      have hlarge := hrounds.exponent_lt hne hc
      have hfinite : natCode (Decimal.shortest .toEven c).digits < infinityCode :=
        natCode_lt_of_fits hfits
      have hproduct : nearestCode (units (natCode (Decimal.shortest .toEven c).digits) *
          units (natCode (10 ^ (Decimal.shortest .toEven c).exponent.toNat))) unitsPerOne <
            infinityCode := by
        rcases Nat.lt_or_ge infinityCode (c + 9) with htop | hbelow
        · have hcode : c = infinityCode - 1 - (infinityCode - 1 - c) := by omega
          rw [hcode]
          exact product_lt_of_large _ (by omega)
        · exact product_lt hrounds (hrounds.digits_pos hne) hup hbelow
      exact ⟨_, hproduct, scaled_of_pos hfinite hup (Int.lt_add_one_iff.mp hlarge) hproduct⟩
    · exact hdown hwritten hexponent

/-! ## Decimals that are read exactly -/

/-- A natural number below the fifty-third power of two is a double. -/
theorem units_natCode {n : Nat} (h : n < 2 ^ 53) : units (natCode n) = n * unitsPerOne := by
  rcases Nat.eq_zero_or_pos n with rfl | hpos
  · have hzero : units 0 = 0 * unitsPerOne := (Nat.zero_mul _).symm
    rw [natCode_of_units hzero (by decide), hzero]
  · have hne : n ≠ 0 := Nat.pos_iff_ne_zero.mp hpos
    have hlog : Nat.log2 n < 53 := (Nat.log2_lt hne).mpr h
    -- shifted to fifty-three bits, the number is what a code keeps
    have hleading : Leading (1022 + Nat.log2 n) (n * 2 ^ (52 - Nat.log2 n)) := by
      constructor
      · calc n * 2 ^ (52 - Nat.log2 n)
            ≤ 2 ^ (Nat.log2 n + 1) * 2 ^ (52 - Nat.log2 n) :=
              Nat.mul_le_mul_right _ Nat.lt_log2_self.le
          _ = 2 ^ 53 := by
              rw [← Nat.pow_add, show Nat.log2 n + 1 + (52 - Nat.log2 n) = 53 by omega]
      · refine Or.inr ?_
        calc 2 ^ 52 = 2 ^ Nat.log2 n * 2 ^ (52 - Nat.log2 n) := by
              rw [← Nat.pow_add, show Nat.log2 n + (52 - Nat.log2 n) = 52 by omega]
          _ ≤ n * 2 ^ (52 - Nat.log2 n) := Nat.mul_le_mul_right _ (Nat.log2_self_le hne)
    have hunits := units_eq hleading
    have hpower : n * 2 ^ (52 - Nat.log2 n) * 2 ^ (1022 + Nat.log2 n) = n * unitsPerOne := by
      rw [Nat.mul_assoc, ← Nat.pow_add, show 52 - Nat.log2 n + (1022 + Nat.log2 n) = 1074 by omega]
      unfold unitsPerOne
      rw [Nat.one_shiftLeft]
    rw [hpower] at hunits
    have hfinite : (1022 + Nat.log2 n) * 2 ^ 52 + n * 2 ^ (52 - Nat.log2 n) < infinityCode := by
      have hlarge : infinityCode = 2047 * 2 ^ 52 := by decide
      have hfraction := hleading.1
      omega
    rw [natCode_of_units hunits hfinite, hunits]

/-- So are the powers of ten up to the twenty-second. -/
theorem units_natCode_pow : ∀ k < 23, units (natCode (10 ^ k)) = 10 ^ k * unitsPerOne := by
  decide +kernel

/-- A decimal whose digits and whose power of ten are doubles is read as the double to which it
rounds, since it is rounded only once. -/
theorem scaled_exact {d : Decimal} {c : Nat} (h : d.RoundsTo c) (hfinite : c < infinityCode)
    (hdigits : d.digits < 2 ^ 53) (hexponent : d.exponent.natAbs ≤ 22) :
    scaled (ofNat d.digits) d.exponent = .ok (ofCode false c) := by
  have hfits := natCode_lt_of_fits (show d.digits < UInt64.size from hdigits.trans (by decide))
  have hlt : natCode (10 ^ d.exponent.natAbs) < infinityCode := natCode_pow_lt (by omega)
  have hone := oneCode_le_natCode_pow d.exponent.natAbs
  have hratio : Binary64.RoundsTo c
      (d.digits * 10 ^ d.exponent.toNat * unitsPerOne * unitsPerOne)
      (10 ^ (-d.exponent).toNat * unitsPerOne) := (RoundsTo.mul_iff (by decide)).mpr h
  have hmin : min c infinityCode = c := Nat.min_eq_left hfinite.le
  rw [scaled, if_pos (by omega)]
  dsimp only
  rw [ofNat_pow]
  rcases Int.lt_or_le d.exponent 0 with hneg | hnonneg
  · -- the digits and the power are what they are, so only the quotient is rounded
    rw [if_neg (by omega)]
    have hnum : d.digits * 10 ^ d.exponent.toNat * unitsPerOne * unitsPerOne =
        d.digits * unitsPerOne * unitsPerOne := by
      rw [show d.exponent.toNat = 0 by omega, Nat.pow_zero, Nat.mul_one]
    rw [hnum, show (-d.exponent).toNat = d.exponent.natAbs by omega] at hratio
    show Except.ok ((ofCode false (natCode d.digits)).div _) = _
    rw [div_ofCode hfits hlt (by unfold oneCode at hone; omega), units_natCode hdigits,
      units_natCode_pow _ (by omega),
      nearestCode_eq hratio (Nat.mul_pos (Nat.pow_pos (by decide)) (by decide)), hmin]
  · rw [if_pos hnonneg]
    have hnum : d.digits * 10 ^ d.exponent.toNat * unitsPerOne * unitsPerOne =
        d.digits * unitsPerOne * (10 ^ d.exponent.natAbs * unitsPerOne) := by
      rw [show d.exponent.toNat = d.exponent.natAbs by omega]
      ring
    rw [hnum, show (-d.exponent).toNat = 0 by omega, Nat.pow_zero, Nat.one_mul] at hratio
    have hproduct : (ofCode false (natCode d.digits)).mul
        (ofCode false (natCode (10 ^ d.exponent.natAbs))) = ofCode false c := by
      rw [mul_ofCode hfits hlt, units_natCode hdigits, units_natCode_pow _ (by omega),
        nearestCode_eq hratio (by decide), hmin]
    show (if ((ofCode false (natCode d.digits)).mul _).isInfinite then _ else _) = _
    rw [hproduct, isInfinite_ofCode hfinite, if_neg Bool.false_ne_true]
    exact congrArg _ hproduct

end Json.Reader

end Telemetry
