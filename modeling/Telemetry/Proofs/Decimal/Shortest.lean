import Telemetry.Decimal.Shortest
import Telemetry.Proofs.Binary64

/-!
# The shortest decimal rounds to its double

The walk over the grids ends at a point that rounds to the code it was made for
(`Decimal.shortest_spec`): the finest grid has one, and the two points next to the magnitude of a
code are all that has to be looked at. The grid before has none, so its points are further apart
than the midpoints around the code, and the digits fit sixty-four bits.
-/

namespace Telemetry.Decimal

open Binary64 (units unitsPerOne infinityCode units_strictMono units_le_units units_le_gap)

/-- Whether a decimal rounds to a code. -/
def RoundsTo (d : Decimal) (c : Nat) : Prop :=
  Binary64.RoundsTo c (d.digits * 10 ^ d.exponent.toNat * unitsPerOne) (10 ^ (-d.exponent).toNat)

/-- What magnitudes are multiplied by to be compared with the points of a grid. -/
def scale (exponent : Int) : Nat := 10 ^ (-exponent).toNat

/-- How far apart the points of a grid are, in halves of the smallest double and scaled. -/
def step (exponent : Int) : Nat := 10 ^ exponent.toNat * (2 * unitsPerOne)

theorem scale_pos (exponent : Int) : 0 < scale exponent := Nat.pow_pos (by decide)

theorem step_pos (exponent : Int) : 0 < step exponent :=
  Nat.mul_pos (Nat.pow_pos (by decide)) (by decide)

theorem roundsTo_iff {n c : Nat} {exponent : Int} :
    RoundsTo ⟨n, exponent⟩ c ↔
      (units (c - 1) + units c) * scale exponent ≤ n * step exponent ∧
        n * step exponent ≤ (units c + units (c + 1)) * scale exponent ∧
          (c % 2 = 1 → (units (c - 1) + units c) * scale exponent < n * step exponent ∧
            n * step exponent < (units c + units (c + 1)) * scale exponent) := by
  have hdouble : n * step exponent = 2 * (n * 10 ^ exponent.toNat * unitsPerOne) := by
    unfold step
    ring
  rw [hdouble]
  exact ⟨fun ⟨hlow, hhigh, hinner⟩ => ⟨hlow, hhigh, hinner⟩,
    fun ⟨hlow, hhigh, hinner⟩ => ⟨hlow, hhigh, hinner⟩⟩

/-! ## The points of one grid -/

/-- The grid point at or below the magnitude of a code. -/
def pointBelow (c : Nat) (exponent : Int) : Nat := 2 * units c * scale exponent / step exponent

theorem pointBelow_le (c : Nat) (exponent : Int) :
    pointBelow c exponent * step exponent ≤ 2 * units c * scale exponent := Nat.div_mul_le_self _ _

theorem lt_pointBelow (c : Nat) (exponent : Int) :
    2 * units c * scale exponent < (pointBelow c exponent + 1) * step exponent := by
  rw [Nat.mul_comm _ (step exponent)]
  exact Nat.lt_mul_div_succ _ (step_pos exponent)

/-- Only the two points around the magnitude of a code are looked at, and one of them is taken if it
rounds to the code. -/
theorem gridPoint_cases (tie : Tie) (c : Nat) (exponent : Int) :
    (∃ n, gridPoint tie c exponent = some n ∧ RoundsTo ⟨n, exponent⟩ c ∧
        n ≤ pointBelow c exponent + 1) ∨
      gridPoint tie c exponent = none ∧ ¬ RoundsTo ⟨pointBelow c exponent, exponent⟩ c ∧
        ¬ RoundsTo ⟨pointBelow c exponent + 1, exponent⟩ c := by
  have hinside : ∀ n, (if c % 2 = 0 then
        decide ((units (c - 1) + units c) * scale exponent ≤ n * step exponent) &&
          decide (n * step exponent ≤ (units c + units (c + 1)) * scale exponent)
      else
        decide ((units (c - 1) + units c) * scale exponent < n * step exponent) &&
          decide (n * step exponent < (units c + units (c + 1)) * scale exponent)) = true ↔
      RoundsTo ⟨n, exponent⟩ c := by
    intro n
    rw [roundsTo_iff]
    split
    next heven =>
      simp only [Bool.and_eq_true, decide_eq_true_eq]
      exact ⟨fun h => ⟨h.1, h.2, fun hodd => by omega⟩, fun h => ⟨h.1, h.2.1⟩⟩
    next hodd =>
      simp only [Bool.and_eq_true, decide_eq_true_eq]
      exact ⟨fun h => ⟨h.1.le, h.2.le, fun _ => h⟩, fun h => h.2.2 (by omega)⟩
  have hno : ∀ {b : Bool} {n : Nat}, (b = true ↔ RoundsTo ⟨n, exponent⟩ c) → b = false →
      ¬ RoundsTo ⟨n, exponent⟩ c := by
    rintro b n hb rfl h
    exact absurd (hb.mpr h) (by decide)
  have hnext := Nat.le_succ (pointBelow c exponent)
  unfold gridPoint
  dsimp only
  split
  next hbelow habove => exact Or.inr ⟨rfl, hno (hinside _) hbelow, hno (hinside _) habove⟩
  next hbelow _ => exact Or.inl ⟨_, rfl, (hinside _).mp hbelow, hnext⟩
  next _ habove => exact Or.inl ⟨_, rfl, (hinside _).mp habove, Nat.le_refl _⟩
  next hbelow habove =>
    have hbelow := (hinside _).mp hbelow
    have habove := (hinside _).mp habove
    split
    · exact Or.inl ⟨_, rfl, hbelow, hnext⟩
    · split
      · exact Or.inl ⟨_, rfl, habove, Nat.le_refl _⟩
      · cases tie with
        | away => exact Or.inl ⟨_, rfl, habove, Nat.le_refl _⟩
        | toEven =>
          dsimp only
          split
          · exact Or.inl ⟨_, rfl, hbelow, hnext⟩
          · exact Or.inl ⟨_, rfl, habove, Nat.le_refl _⟩

theorem of_gridPoint {tie : Tie} {c n : Nat} {exponent : Int}
    (h : gridPoint tie c exponent = some n) :
    RoundsTo ⟨n, exponent⟩ c ∧ n ≤ pointBelow c exponent + 1 := by
  obtain ⟨n', hn, hspec⟩ | ⟨hnone, -⟩ := gridPoint_cases tie c exponent
  · obtain rfl := Option.some.inj (h.symm.trans hn)
    exact hspec
  · rw [h] at hnone
    cases hnone

/-- A grid misses a code only if its points are further apart than the midpoints around it. -/
theorem le_step_of_none {tie : Tie} {c : Nat} {exponent : Int}
    (h : gridPoint tie c exponent = none) :
    units (c + 1) * scale exponent ≤ units (c - 1) * scale exponent + step exponent := by
  obtain ⟨n, hn, -⟩ | ⟨-, hbelow, habove⟩ := gridPoint_cases tie c exponent
  · rw [h] at hn
    cases hn
  · have hle := pointBelow_le c exponent
    have hlt := lt_pointBelow c exponent
    generalize pointBelow c exponent = below at *
    have hprevious : units (c - 1) * scale exponent ≤ units c * scale exponent :=
      Nat.mul_le_mul_right _ (units_le_units.mpr (Nat.sub_le c 1))
    have hnext : units c * scale exponent < units (c + 1) * scale exponent :=
      Nat.mul_lt_mul_of_pos_right (units_strictMono (Nat.lt_succ_self c)) (scale_pos exponent)
    rw [roundsTo_iff] at hbelow habove
    rw [Nat.mul_assoc] at hle hlt
    rw [Nat.add_mul, Nat.add_mul] at hbelow habove
    rw [Nat.add_mul, Nat.one_mul] at habove hlt
    -- the point below lies at the lower midpoint at most, the one above at the upper at least
    have hlow : below * step exponent ≤
        units (c - 1) * scale exponent + units c * scale exponent := by
      by_contra hgt
      exact hbelow ⟨by omega, by omega, fun _ => by omega⟩
    have hhigh : units c * scale exponent + units (c + 1) * scale exponent ≤
        below * step exponent + step exponent := by
      by_contra hgt
      exact habove ⟨by omega, by omega, fun _ => by omega⟩
    omega

/-! ## The walk over the grids -/

/-- The walk ends at the first grid that has a point, if one of those it comes to has. -/
theorem firstGrid_spec {tie : Tie} {c : Nat} (fuel : Nat) {exponent : Int}
    (h : ∃ k < fuel, gridPoint tie c (exponent - k) ≠ none) :
    gridPoint tie c (firstGrid tie c fuel exponent).exponent =
        some (firstGrid tie c fuel exponent).digits ∧
      ((firstGrid tie c fuel exponent).exponent = exponent ∨
        gridPoint tie c ((firstGrid tie c fuel exponent).exponent + 1) = none) := by
  induction fuel generalizing exponent with
  | zero =>
    obtain ⟨k, hk, -⟩ := h
    exact absurd hk (Nat.not_lt_zero k)
  | succ fuel ih =>
    unfold firstGrid
    cases hpoint : gridPoint tie c exponent with
    | some n => exact ⟨hpoint, Or.inl rfl⟩
    | none =>
      -- the grid that has a point is one of those still to come
      obtain ⟨k, hk, hne⟩ := h
      have hk0 : k ≠ 0 := by
        rintro rfl
        exact hne (by simpa using hpoint)
      have hrest : ∃ k < fuel, gridPoint tie c (exponent - 1 - k) ≠ none := by
        refine ⟨k - 1, by omega, ?_⟩
        rwa [show exponent - 1 - ((k - 1 : Nat) : Int) = exponent - k by omega]
      obtain ⟨hfound, hbefore⟩ := ih hrest
      refine ⟨hfound, Or.inr ?_⟩
      rcases hbefore with hstart | hnone
      · dsimp only at hstart ⊢
        rw [hstart, Int.sub_add_cancel]
        exact hpoint
      · exact hnone

theorem firstGrid_exponent (tie : Tie) (c fuel : Nat) (exponent : Int) :
    exponent - fuel ≤ (firstGrid tie c fuel exponent).exponent ∧
      (firstGrid tie c fuel exponent).exponent ≤ exponent := by
  induction fuel generalizing exponent with
  | zero =>
    show exponent - (0 : Nat) ≤ exponent ∧ exponent ≤ exponent
    omega
  | succ fuel ih =>
    unfold firstGrid
    split
    · show exponent - ((fuel + 1 : Nat) : Int) ≤ exponent ∧ exponent ≤ exponent
      omega
    · have hrest := ih (exponent - 1)
      omega

/-- The finest grid has a point for every code but zero. -/
theorem finestGrid_ne_none (tie : Tie) {c : Nat} (hc : c ≠ 0) :
    gridPoint tie c (coarsestGrid - 639) ≠ none := by
  intro h
  have hle := le_step_of_none h
  -- its points are closer than two of the smallest doubles
  have hfine : step (coarsestGrid - 639) < 2 * scale (coarsestGrid - 639) := by decide +kernel
  have hgap : units (c - 1) + 2 ≤ units (c + 1) := by
    have hbefore : units (c - 1) < units c := units_strictMono (by omega)
    have hafter : units c < units (c + 1) := units_strictMono (by omega)
    omega
  have hscaled := Nat.mul_le_mul_right (scale (coarsestGrid - 639)) hgap
  rw [Nat.add_mul] at hscaled
  omega

/-- What rounds to a code other than zero is not zero. -/
theorem RoundsTo.digits_pos {d : Decimal} {c : Nat} (h : d.RoundsTo c) (hc : c ≠ 0) :
    0 < d.digits := by
  have hunits : 0 < units c := Nat.zero_lt_of_lt (units_strictMono (Nat.pos_of_ne_zero hc))
  have hlow := (roundsTo_iff.mp h).1
  have hpos : 0 < (units (c - 1) + units c) * scale d.exponent :=
    Nat.mul_pos (by omega) (scale_pos _)
  by_contra hzero
  rw [Nat.eq_zero_of_not_pos hzero, Nat.zero_mul] at hlow
  omega

/-- A power of ten that some number of times rounds to a finite code is no larger than it. -/
theorem RoundsTo.exponent_lt {d : Decimal} {c : Nat} (h : d.RoundsTo c) (hc : c ≠ 0)
    (hfinite : c < infinityCode) : d.exponent < coarsestGrid := by
  by_contra hge
  have hhigh := (roundsTo_iff.mp h).2.1
  have hscale : scale d.exponent = 1 := by
    unfold scale
    rw [show (-d.exponent).toNat = 0 by unfold coarsestGrid at hge; omega, Nat.pow_zero]
  have hstep : step coarsestGrid ≤ d.digits * step d.exponent := by
    refine Nat.le_trans ?_ (Nat.le_mul_of_pos_left _ (h.digits_pos hc))
    refine Nat.mul_le_mul_right _ (Nat.pow_le_pow_right (by decide) ?_)
    omega
  have hlarge : 2 * units infinityCode < step coarsestGrid := by decide +kernel
  have hself : units c ≤ units infinityCode := units_le_units.mpr hfinite.le
  have hnext : units (c + 1) ≤ units infinityCode := units_le_units.mpr hfinite
  rw [hscale, Nat.mul_one] at hhigh
  omega

/-- The points of the grid before are ten times as far apart. -/
theorem step_succ_mul_scale (exponent : Int) :
    step (exponent + 1) * scale exponent = 10 * step exponent * scale (exponent + 1) := by
  unfold step scale
  rcases Int.lt_or_le exponent 0 with hneg | hpos
  · rw [show (-exponent).toNat = (-(exponent + 1)).toNat + 1 by omega,
      show (exponent + 1).toNat = 0 by omega, show exponent.toNat = 0 by omega, Nat.pow_succ]
    ring
  · rw [show (exponent + 1).toNat = exponent.toNat + 1 by omega,
      show (-exponent).toNat = 0 by omega, show (-(exponent + 1)).toNat = 0 by omega, Nat.pow_succ]
    ring

/-- The digits at a point fit sixty-four bits if the grid before has no point. -/
theorem digits_lt_of_none {tie : Tie} {c n : Nat} {exponent : Int}
    (h : gridPoint tie c exponent = some n) (hnone : gridPoint tie c (exponent + 1) = none) :
    n < UInt64.size := by
  obtain ⟨-, hn⟩ := of_gridPoint h
  have hpoint := pointBelow_le c exponent
  have hle := le_step_of_none hnone
  -- a magnitude has fifty-three bits, and the grid before is too coarse for the last of them
  have hgap : units c * scale (exponent + 1) ≤ 2 ^ 53 * step (exponent + 1) := by
    have hprevious := Nat.mul_le_mul_right (scale (exponent + 1))
      (units_le_units.mpr (Nat.sub_le c 1))
    have hnext : (units (c + 1) - units c) * scale (exponent + 1) ≤ step (exponent + 1) := by
      rw [Nat.sub_mul]
      omega
    calc units c * scale (exponent + 1)
        ≤ 2 ^ 53 * (units (c + 1) - units c) * scale (exponent + 1) :=
          Nat.mul_le_mul_right _ (units_le_gap c)
      _ ≤ 2 ^ 53 * step (exponent + 1) := by
          rw [Nat.mul_assoc]
          exact Nat.mul_le_mul_left _ hnext
  have hbelow : pointBelow c exponent ≤ 2 ^ 54 * 10 := by
    refine Nat.le_of_mul_le_mul_right ?_ (Nat.mul_pos (step_pos exponent) (scale_pos (exponent + 1)))
    calc pointBelow c exponent * (step exponent * scale (exponent + 1))
        = pointBelow c exponent * step exponent * scale (exponent + 1) := by ring
      _ ≤ 2 * units c * scale exponent * scale (exponent + 1) := Nat.mul_le_mul_right _ hpoint
      _ = 2 * scale exponent * (units c * scale (exponent + 1)) := by ring
      _ ≤ 2 * scale exponent * (2 ^ 53 * step (exponent + 1)) := Nat.mul_le_mul_left _ hgap
      _ = 2 ^ 54 * (step (exponent + 1) * scale exponent) := by ring
      _ = 2 ^ 54 * 10 * (step exponent * scale (exponent + 1)) := by
          rw [step_succ_mul_scale]
          ring
  have hsize : UInt64.size = 2 ^ 64 := rfl
  omega

/-- The digits at a point of the coarsest grid fit sixty-four bits. -/
theorem digits_lt_of_coarsest {tie : Tie} {c n : Nat} (hfinite : c < infinityCode)
    (h : gridPoint tie c coarsestGrid = some n) : n < UInt64.size := by
  obtain ⟨-, hn⟩ := of_gridPoint h
  have hscale : scale coarsestGrid = 1 := rfl
  have hlarge : 2 * units infinityCode < step coarsestGrid := by decide +kernel
  have hself : units c ≤ units infinityCode := units_le_units.mpr hfinite.le
  -- the first point behind zero is beyond all finite magnitudes
  have hbelow : pointBelow c coarsestGrid = 0 := by
    unfold pointBelow
    rw [hscale, Nat.mul_one, Nat.div_eq_of_lt (by omega)]
  have hsize : UInt64.size = 2 ^ 64 := rfl
  omega

theorem shortest_exponent (tie : Tie) (c : Nat) :
    -400 < (shortest tie c).exponent ∧ (shortest tie c).exponent < 400 := by
  unfold shortest
  split
  · exact ⟨by decide, by decide⟩
  · have hbounds := firstGrid_exponent tie c gridCount coarsestGrid
    unfold gridCount coarsestGrid at hbounds
    unfold gridCount coarsestGrid
    omega

/-- **The shortest decimal of a finite double rounds to it**, and its digits fit sixty-four bits. -/
theorem shortest_spec (tie : Tie) {c : Nat} (hfinite : c < infinityCode) :
    (shortest tie c).RoundsTo c ∧ (shortest tie c).digits < UInt64.size := by
  unfold shortest
  split
  next hzero =>
    subst hzero
    exact ⟨roundsTo_iff.mpr (by decide), by decide⟩
  next hne =>
    obtain ⟨hfound, hbefore⟩ := firstGrid_spec gridCount
      ⟨639, by decide, finestGrid_ne_none tie hne⟩
    refine ⟨(of_gridPoint hfound).1, ?_⟩
    rcases hbefore with hstart | hnone
    · rw [hstart] at hfound
      exact digits_lt_of_coarsest hfinite hfound
    · exact digits_lt_of_none hfound hnone

end Telemetry.Decimal
