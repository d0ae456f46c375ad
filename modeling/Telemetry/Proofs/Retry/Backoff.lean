import Telemetry.Proofs.Binary64.Power
import Telemetry.Settings.Server

/-!
# How the wait between tries grows

The wait before another try is a product of doubles, rounded to nanoseconds and cut off at the
largest wait. Whatever the policy, it is never above that (`RetryPolicy.delay_le_maxDelay`), though
the cut is made in doubles: the seconds of a span are the double nearest to it, or so near that no
double lies between the two (`Nanos.units_mul_le_of_lt`). And it grows with the exponent
(`RetryPolicy.delay_mono`).

The exponent is the number of the try only below 2^31. From there on it is negative, and the waits
begin anew below the first one (`RetryPolicy.delay_grows_by_halves`).
-/

namespace Telemetry

open Binary64 Json.Reader

/-! ## Spans as doubles -/

namespace Nanos

/-- The code of a fraction of a second. -/
def fractionCode (n : Nat) : Nat := nearestCode (n * unitsPerOne) 1000000000

/-- The code of a span in seconds. -/
def secondsCode (n : Nanos) : Nat :=
  if natCode (n / 1000000000) < infinityCode then
    nearestCode (units (natCode (n / 1000000000)) + units (fractionCode (n % 1000000000))) 1
  else infinityCode

theorem fractionCode_lt {n : Nat} (h : n < 1000000000) : fractionCode n < oneCode := by
  have hnear : 999999999 * unitsPerOne ≤ units (oneCode - 1) * 1000000000 := by decide +kernel
  have hle : fractionCode n ≤ oneCode - 1 := by
    refine nearestCode_le ?_ (by decide)
    exact (Nat.mul_le_mul_right _ (show n ≤ 999999999 by omega)).trans hnear
  exact Nat.lt_of_le_of_lt hle (by decide)

theorem div_fraction {n : Nat} (h : n < 1000000000) :
    (ofNat n).div (ofNat 1000000000) = ofCode false (fractionCode n) := by
  have hrounds : RoundsTo (roundedCode (n * unitsPerOne) 1000000000)
      (n * unitsPerOne * unitsPerOne) (1000000000 * unitsPerOne) :=
    (RoundsTo.mul_iff unitsPerOne_pos).mpr (roundsTo_roundedCode _ (by decide))
  have hbillion := natCode_lt_of_fits (n := 1000000000) (by decide)
  have hpos : natCode 1000000000 ≠ 0 := by
    have hone := oneCode_le_natCode (n := 1000000000) (by decide)
    unfold oneCode at hone
    omega
  show (ofCode false (natCode n)).div (ofCode false (natCode 1000000000)) = _
  rw [div_ofCode (natCode_lt_of_fits (h.trans (by decide))) hbillion hpos,
    units_natCode (h.trans (by decide)), units_natCode (by decide),
    nearestCode_eq hrounds (by decide)]
  unfold fractionCode
  rw [nearestCode_eq_min]

theorem seconds_eq (n : Nanos) : n.seconds = ofCode false n.secondsCode := by
  have hrest : n % 1000000000 < 1000000000 := Nat.mod_lt _ (by decide)
  have hfraction := fractionCode_lt hrest
  unfold seconds secondsCode
  rw [div_fraction hrest]
  show (ofCode false (natCode (n / 1000000000))).add _ = _
  split
  next hfinite => exact add_ofCode hfinite (hfraction.trans oneCode_lt)
  next hinfinite =>
    -- an infinite number of seconds is not changed by a fraction
    have hcode : natCode (n / 1000000000) = infinityCode :=
      Nat.le_antisymm (nearestCode_le_infinityCode _ _) (Nat.not_lt.mp hinfinite)
    have hself : (ofCode false infinityCode).isNaN = false := isNaN_ofCode_of_le (Nat.le_refl _) _
    rw [hcode]
    unfold add
    rw [hself, isNaN_ofCode (hfraction.trans oneCode_lt),
      isInfinite_ofCode (hfraction.trans oneCode_lt)]
    rfl

theorem secondsCode_le (n : Nanos) : n.secondsCode ≤ infinityCode := by
  unfold secondsCode
  split
  · exact nearestCode_le_infinityCode _ _
  · exact Nat.le_refl _

/-- A magnitude that is no less than some seconds and a fraction is no less than what is left of
them in a double. -/
theorem sum_le_of_le {whole rest c : Nat} (hrest : rest < 1000000000)
    (hfinite : natCode whole < infinityCode)
    (h : whole * unitsPerOne * 1000000000 + rest * unitsPerOne ≤ units c * 1000000000) :
    nearestCode (units (natCode whole) + units (fractionCode rest)) 1 ≤ c := by
  have hsmall : units (fractionCode rest) < unitsPerOne :=
    units_oneCode ▸ units_strictMono (fractionCode_lt hrest)
  have hwhole : whole * unitsPerOne ≤ units c := by omega
  rcases Nat.lt_or_ge whole (2 ^ 53) with hexact | hlarge
  · -- the whole seconds are exact, and so is what a magnitude has beyond them
    refine nearestCode_le ?_ Nat.one_pos
    rw [units_natCode hexact, Nat.mul_one]
    by_cases hc : units c < 2 ^ 53 * unitsPerOne
    · obtain ⟨c', hc'⟩ : ∃ c', whole * unitsPerOne + units c' = units c := by
        rw [unitsPerOne_eq] at hwhole hc ⊢
        exact exists_units_add hwhole hc
      have hle : fractionCode rest ≤ c' := nearestCode_le (by omega) (by decide)
      have hunits := units_le_units.mpr hle
      omega
    · have hnext := Nat.mul_le_mul_right unitsPerOne (Nat.succ_le_of_lt hexact)
      rw [Nat.succ_mul] at hnext
      omega
  · -- a fraction is lost among so many seconds
    have hcode : natCode whole ≤ c := nearestCode_le (by omega) Nat.one_pos
    refine Nat.le_trans ?_ hcode
    rw [unitsPerOne_eq] at hsmall
    refine nearestCode_add_le ?_ hsmall
    obtain ⟨c', hc'⟩ := exists_units (Nat.le_refl (2 ^ 53)) 1074
    rw [← hc']
    refine units_le_units.mpr ?_
    unfold natCode at hfinite ⊢
    rw [nearestCode_eq_min] at hfinite ⊢
    rw [Nat.min_eq_left (by omega)]
    refine le_roundedCode ?_ Nat.one_pos
    rw [hc', Nat.mul_one, ← unitsPerOne_eq]
    exact Nat.mul_le_mul_right _ hlarge

theorem secondsCode_le_of_le {n c : Nat} (h : n * unitsPerOne ≤ units c * 1000000000) :
    secondsCode n ≤ c := by
  have hrest : n % 1000000000 < 1000000000 := Nat.mod_lt n (by decide)
  have hsplit : n = n / 1000000000 * 1000000000 + n % 1000000000 := by omega
  unfold secondsCode
  generalize n / 1000000000 = whole at *
  generalize n % 1000000000 = rest at *
  rw [hsplit, Nat.add_mul, Nat.mul_right_comm] at h
  split
  next hfinite => exact sum_le_of_le hrest hfinite h
  next hinfinite =>
    have hcode : natCode whole ≤ c := nearestCode_le (by omega) Nat.one_pos
    exact (Nat.not_lt.mp hinfinite).trans hcode

/-- **The double below that of a span is not above the span**: no double lies between the two. -/
theorem units_mul_lt_of_lt {n c : Nat} (h : c < secondsCode n) :
    units c * 1000000000 < n * unitsPerOne := by
  by_contra hge
  exact absurd (secondsCode_le_of_le (Nat.not_lt.mp hge)) (by omega)

theorem ofSecondsReal_ofCode {c : Nat} (hc : c < 2 ^ 63) :
    ofSecondsReal (ofCode false c) = roundHalfEven (units c * 1000000000) unitsPerOne := by
  unfold ofSecondsReal
  rw [code_ofCode hc]

end Nanos

/-! ## The wait -/

namespace RetryPolicy

/-- The code of the factor from one wait to the next. -/
def baseCode (p : RetryPolicy) : Nat := (p.multiplier.max (ofNat 1)).code

/-- The code of the factor of a try. -/
def factor (p : RetryPolicy) (attempt : Nat) : Nat :=
  factorCode p.baseCode (signed32 attempt)

/-- Whatever the multiplier, the factor is a number of at least one. -/
theorem baseCode_spec (p : RetryPolicy) :
    oneCode ≤ p.baseCode ∧ p.baseCode ≤ infinityCode ∧
      p.multiplier.max (ofNat 1) = ofCode false p.baseCode := by
  have hone : (ofNat 1).code = oneCode := by
    rw [ofNat_one, code_ofCode (oneCode_lt.trans infinityCode_lt)]
  have hself : oneCode ≤ (ofNat 1).code ∧ (ofNat 1).code ≤ infinityCode ∧
      ofNat 1 = ofCode false (ofNat 1).code := by
    rw [hone]
    exact ⟨Nat.le_refl _, oneCode_lt.le, ofNat_one⟩
  unfold baseCode Binary64.max
  generalize p.multiplier = x
  have hnumber : (ofNat 1).isNaN = false := by
    rw [ofNat_one]
    exact isNaN_ofCode oneCode_lt _
  rw [hnumber]
  split
  · exact hself
  next hx =>
    rw [if_neg Bool.false_ne_true]
    split
    · exact hself
    next hle =>
      -- neither below one nor not a number, so it is a magnitude
      have hx : x.isNaN = false := Bool.eq_false_iff.mpr hx
      have hcode : x.code ≤ infinityCode := Nat.not_lt.mp (of_decide_eq_false hx)
      have hgreater : (units oneCode : Int) < x.signedUnits := by
        by_contra hnot
        refine hle ?_
        unfold Binary64.le
        rw [hx, hnumber, ofNat_one, signedUnits_ofCode oneCode_lt.le]
        exact decide_eq_true (Int.not_lt.mp hnot)
      have hsign : x.isNegative = false := by
        by_contra hneg
        unfold signedUnits at hgreater
        rw [if_pos (Bool.eq_true_of_not_eq_false hneg)] at hgreater
        omega
      unfold signedUnits at hgreater
      rw [hsign, if_neg Bool.false_ne_true] at hgreater
      refine ⟨?_, hcode, ?_⟩
      · exact units_le_units.mp (by omega)
      · rw [← hsign, ofCode_code]

theorem factor_le (p : RetryPolicy) (attempt : Nat) : p.factor attempt ≤ infinityCode :=
  factorCode_le p.baseCode_spec.1 p.baseCode_spec.2.1 _

theorem factor_mono (p : RetryPolicy) {a b : Nat} (h : signed32 a ≤ signed32 b) :
    p.factor a ≤ p.factor b :=
  factorCode_mono p.baseCode_spec.1 p.baseCode_spec.2.1 h

/-- The wait as a product of two magnitudes that is compared with a third. -/
theorem delay_eq (p : RetryPolicy) (attempt : Nat) :
    p.delay attempt =
      let wait :=
        (ofCode false (Nanos.secondsCode p.initialDelay)).mul (ofCode false (p.factor attempt))
      if !wait.isFinite || (ofCode false (Nanos.secondsCode p.maxDelay)).le wait then p.maxDelay
      else Nanos.ofSecondsReal wait := by
  obtain ⟨hlow, hhigh, hbase⟩ := p.baseCode_spec
  have hpower : (ofCode false p.baseCode).power (signed32 attempt) =
      ofCode false (p.factor attempt) := power_ofCode hlow hhigh _
  unfold delay
  rw [hbase, hpower, Nanos.seconds_eq, Nanos.seconds_eq]

/-- Whether the wait after a try is cut off: a factor is infinite, or the product is not below the
largest wait. -/
def CutOff (p : RetryPolicy) (attempt : Nat) : Prop :=
  Nanos.secondsCode p.initialDelay = infinityCode ∨ p.factor attempt = infinityCode ∨
    Nanos.secondsCode p.maxDelay ≤ times (Nanos.secondsCode p.initialDelay) (p.factor attempt)

theorem CutOff.mono {p : RetryPolicy} {a b : Nat} (h : signed32 a ≤ signed32 b)
    (hcut : p.CutOff a) : p.CutOff b := by
  have hfactor := p.factor_mono h
  rcases hcut with hinitial | hinfinite | hlarge
  · exact Or.inl hinitial
  · exact Or.inr (Or.inl (Nat.le_antisymm (p.factor_le b) (hinfinite ▸ hfactor)))
  · exact Or.inr (Or.inr (hlarge.trans (times_mono (Nat.le_refl _) hfactor)))

theorem delay_of_cutOff {p : RetryPolicy} {attempt : Nat} (h : p.CutOff attempt) :
    p.delay attempt = p.maxDelay := by
  have hinitial := Nanos.secondsCode_le p.initialDelay
  have hfactor := p.factor_le attempt
  rw [delay_eq]
  dsimp only
  by_cases hinfinite :
      Nanos.secondsCode p.initialDelay = infinityCode ∨ p.factor attempt = infinityCode
  · rw [isFinite_mul_of_infinite hinitial hfactor hinfinite]
    rfl
  · have hlarge := (or_assoc.mpr h).resolve_left hinfinite
    rw [not_or] at hinfinite
    have hle : (ofCode false (Nanos.secondsCode p.maxDelay)).le
        (ofCode false (times (Nanos.secondsCode p.initialDelay) (p.factor attempt))) = true := by
      rw [le_ofCode (Nanos.secondsCode_le _) (times_le _ _)]
      exact decide_eq_true hlarge
    rw [mul_ofCode_of_finite (by omega) (by omega), hle, Bool.or_true, if_pos rfl]

/-- A wait that is not cut off is the product, in nanoseconds. -/
theorem delay_of_not_cutOff {p : RetryPolicy} {attempt : Nat} (h : ¬p.CutOff attempt) :
    times (Nanos.secondsCode p.initialDelay) (p.factor attempt) < Nanos.secondsCode p.maxDelay ∧
      p.delay attempt = roundHalfEven
        (units (times (Nanos.secondsCode p.initialDelay) (p.factor attempt)) * 1000000000)
          unitsPerOne := by
  have hinitial := Nanos.secondsCode_le p.initialDelay
  have hfactor := p.factor_le attempt
  have hmax := Nanos.secondsCode_le p.maxDelay
  unfold CutOff at h
  rw [not_or, not_or, Nat.not_le] at h
  obtain ⟨hinitial', hfactor', hsmall⟩ := h
  refine ⟨hsmall, ?_⟩
  rw [delay_eq]
  dsimp only
  rw [mul_ofCode_of_finite (by omega) (by omega), isFinite_ofCode (by omega),
    le_ofCode hmax (times_le _ _), decide_eq_false (by omega), Bool.not_true, Bool.false_or,
    if_neg Bool.false_ne_true,
    Nanos.ofSecondsReal_ofCode ((hsmall.trans_le hmax).trans infinityCode_lt)]

/-- No wait is longer than the largest. -/
theorem delay_le_maxDelay (p : RetryPolicy) (attempt : Nat) : p.delay attempt ≤ p.maxDelay := by
  by_cases hcut : p.CutOff attempt
  · rw [delay_of_cutOff hcut]
  · obtain ⟨hsmall, hdelay⟩ := delay_of_not_cutOff hcut
    rw [hdelay]
    exact roundHalfEven_le unitsPerOne_pos (Nanos.units_mul_lt_of_lt hsmall).le

/-- The wait grows with the exponent. -/
theorem delay_mono (p : RetryPolicy) {a b : Nat} (h : signed32 a ≤ signed32 b) :
    p.delay a ≤ p.delay b := by
  by_cases hcut : p.CutOff b
  · rw [delay_of_cutOff hcut]
    exact p.delay_le_maxDelay a
  · obtain ⟨-, hdelay⟩ := delay_of_not_cutOff hcut
    obtain ⟨-, hdelay'⟩ := delay_of_not_cutOff fun hcut' : p.CutOff a => hcut (hcut'.mono h)
    rw [hdelay, hdelay']
    refine roundHalfEven_mono unitsPerOne_pos (Nat.mul_le_mul_right _ ?_)
    exact units_le_units.mpr (times_mono (Nat.le_refl _) (p.factor_mono h))

/-! ## Numbers of tries as exponents -/

theorem signed32_of_lt {n : Nat} (h : n < 2 ^ 31) : signed32 n = n := by
  unfold signed32 UInt32.size
  rw [Int.bmod_def]
  omega

theorem signed32_of_ge {n : Nat} (h : 2 ^ 31 ≤ n) (h' : n < 2 ^ 32) :
    signed32 n = n - 2 ^ 32 := by
  unfold signed32 UInt32.size
  rw [Int.bmod_def]
  omega

/-- **The wait grows in each half of the numbers of tries, and falls from one to the other.** No
wait is longer than the largest one. Below 2^31 a later try is waited for at least as long as an
earlier one, and so it is from 2^31 on; but no wait from there on is longer than one before. So
the waits grow all along just if they are all the same. -/
theorem delay_grows_by_halves (p : RetryPolicy) :
    (∀ n, p.delay n ≤ p.maxDelay) ∧
      (∀ a b, a ≤ b → b < 2 ^ 31 → p.delay a ≤ p.delay b) ∧
      (∀ a b, 2 ^ 31 ≤ a → a ≤ b → b < 2 ^ 32 → p.delay a ≤ p.delay b) ∧
      (∀ a b, a < 2 ^ 31 → 2 ^ 31 ≤ b → b < 2 ^ 32 → p.delay b ≤ p.delay a) ∧
      ((∀ a b, a ≤ b → b < 2 ^ 32 → p.delay a ≤ p.delay b) ↔
        ∀ n < 2 ^ 32, p.delay n = p.delay 0) := by
  have hfirst : ∀ a b, a ≤ b → b < 2 ^ 31 → p.delay a ≤ p.delay b := by
    intro a b hab hb
    refine p.delay_mono ?_
    rw [signed32_of_lt hb, signed32_of_lt (hab.trans_lt hb)]
    omega
  have hsecond : ∀ a b, 2 ^ 31 ≤ a → a ≤ b → b < 2 ^ 32 → p.delay a ≤ p.delay b := by
    intro a b ha hab hb
    refine p.delay_mono ?_
    rw [signed32_of_ge ha (hab.trans_lt hb), signed32_of_ge (ha.trans hab) hb]
    omega
  have hfall : ∀ a b, a < 2 ^ 31 → 2 ^ 31 ≤ b → b < 2 ^ 32 → p.delay b ≤ p.delay a := by
    intro a b ha hb hb'
    refine p.delay_mono ?_
    rw [signed32_of_lt ha, signed32_of_ge hb hb']
    omega
  refine ⟨p.delay_le_maxDelay, hfirst, hsecond, hfall, fun hgrows n hn => ?_,
    fun hsame a b hab hb => ?_⟩
  · have hstart := hgrows 0 n (Nat.zero_le n) hn
    -- the last wait of the second half is not longer than the first one of all
    have hlast := hgrows n (2 ^ 32 - 1) (by omega) (by decide)
    have hend := hfall 0 (2 ^ 32 - 1) (by decide) (by decide) (by decide)
    exact Nat.le_antisymm (hlast.trans hend) hstart
  · rw [hsame a (hab.trans_lt hb), hsame b hb]

/-- With the settings that a server has by default, there is no wait at all after try number
2^31, though there is one of a second after the first try. -/
theorem delay_falls_to_zero :
    ServerSettings.standard.validate = .ok () ∧
      ServerSettings.standard.storageRetry.policy.delay 0 = 1000000000 ∧
      ServerSettings.standard.storageRetry.policy.delay (2 ^ 31) = 0 := by
  refine ⟨?_, ?_, ?_⟩
  · decide +kernel
  · decide +kernel
  · decide +kernel

end RetryPolicy

end Telemetry
