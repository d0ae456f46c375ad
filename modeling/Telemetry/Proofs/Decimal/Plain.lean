import Telemetry.Proofs.Json.Real

/-!
# The plain form of a number is read back

The plain form of a decimal is a row of digits, or two rows with a point between them, and what
the digits spell is the decimal again (`Decimal.positional_cases`). A decimal that rounds to a
finite double is read as that double (`Decimal.readMagnitude_positional`), so the plain form of a
finite double, which is its shortest decimal, is read as the double itself, with its sign and down
to the last bit (`Decimal.readReal_plain`). The same holds of integers of sixty-four bits
(`Decimal.readInt64_int64Text`).
-/

namespace Telemetry.Decimal

open Json.Reader (AreDigits areDigits_digitChars areDigits_append_zeros areDigits_zeros_append
  areDigits_zero ofDigitChars_digitChars isDigit_bounds le_ofDigitChars)
open Binary64 (infinityCode ofCode)

/-! ## Rows of digits -/

theorem digitValue_of_isDigit {c : Char} (h : c.isDigit = true) :
    digitValue c = some (c.toNat - '0'.toNat) := by
  obtain ⟨hlow, hhigh⟩ := isDigit_bounds h
  unfold digitValue
  rw [if_pos]
  exact ⟨hlow, hhigh⟩

/-- A row of digits is taken as a whole, up to what is no digit. -/
theorem takeDigits_append {cs : List Char} (h : ∀ c ∈ cs, c.isDigit = true) (value count : Nat)
    {rest : List Char} (hrest : ∀ c ∈ rest.head?, digitValue c = none) :
    takeDigits value count (cs ++ rest) =
      (Nat.ofDigitChars 10 cs value, count + cs.length, rest) := by
  induction cs generalizing value count with
  | nil =>
    cases rest with
    | nil => rfl
    | cons c rest =>
      show takeDigits value count (c :: rest) = _
      unfold takeDigits
      rw [hrest c rfl]
      rfl
  | cons c cs ih =>
    rw [List.cons_append]
    unfold takeDigits
    rw [digitValue_of_isDigit (h c List.mem_cons_self)]
    dsimp only
    rw [ih fun c' hc' => h c' (List.mem_cons_of_mem c hc'), Nat.ofDigitChars_cons,
      List.length_cons, Nat.add_assoc, Nat.add_comm 1]

theorem takeDigits_self {cs : List Char} (h : ∀ c ∈ cs, c.isDigit = true) (value count : Nat) :
    takeDigits value count cs = (Nat.ofDigitChars 10 cs value, count + cs.length, []) := by
  have htake := @takeDigits_append cs h value count [] nofun
  rwa [List.append_nil] at htake

/-- **What the plain form of a decimal spells.** A whole number has its digits and a zero for each
power of ten; any other has as many digits behind its point as its exponent says. -/
theorem positional_cases (d : Decimal) :
    (0 ≤ d.exponent ∧ AreDigits (d.positional []) ∧
        Nat.ofDigitChars 10 (d.positional []) 0 = d.digits * 10 ^ d.exponent.toNat) ∨
      ∃ whole fraction, d.positional [] = whole ++ '.' :: fraction ∧ AreDigits whole ∧
        AreDigits fraction ∧ Nat.ofDigitChars 10 (whole ++ fraction) 0 = d.digits ∧
          d.exponent = -(fraction.length : Int) := by
  have hdigits := areDigits_digitChars d.digits
  have hvalue := ofDigitChars_digitChars d.digits
  unfold positional
  dsimp only
  generalize digitChars d.digits = cs at *
  split
  next hexponent =>
    rw [List.append_nil]
    refine Or.inl ⟨hexponent, areDigits_append_zeros hdigits _, ?_⟩
    rw [Nat.ofDigitChars_append, hvalue, Nat.ofDigitChars_replicate_zero, Nat.mul_comm]
  next hexponent =>
    generalize hplaces : (-d.exponent).toNat = places
    refine Or.inr ?_
    split
    next hlength =>
      -- the point stands among the digits
      refine ⟨_, _, rfl, ⟨?_, fun c hc => hdigits.isDigit c (List.mem_of_mem_take hc)⟩,
        ⟨?_, fun c hc => hdigits.isDigit c (List.mem_of_mem_drop hc)⟩, ?_, ?_⟩
      · intro hnil
        have hlengths := congrArg List.length hnil
        rw [List.length_take, List.length_nil] at hlengths
        omega
      · intro hnil
        have hlengths := congrArg List.length hnil
        rw [List.length_drop, List.length_nil] at hlengths
        omega
      · rw [List.take_append_drop, hvalue]
      · rw [List.length_drop]
        omega
    next hlength =>
      -- zeros take the places up to the digits
      refine ⟨['0'], _, rfl, areDigits_zero, areDigits_zeros_append hdigits _, ?_, ?_⟩
      · rw [Nat.ofDigitChars_append, Nat.ofDigitChars_append, Nat.ofDigitChars_replicate_zero]
        exact hvalue
      · rw [List.length_append, List.length_replicate]
        omega

theorem exists_cons_positional (d : Decimal) :
    ∃ c cs, d.positional [] = c :: cs ∧ c.isDigit = true := by
  obtain ⟨-, hdigits, -⟩ | ⟨whole, fraction, hform, hwhole, -⟩ := d.positional_cases
  · exact hdigits.exists_cons
  · obtain ⟨c, cs, rfl, hc⟩ := hwhole.exists_cons
    exact ⟨c, _, hform, hc⟩

/-! ## Rounding what was read -/

/-- A decimal that rounds to a finite double is taken for that double, as long as its size is not
so large or so small that it is not looked at. -/
theorem nearest_of_roundsTo {d : Decimal} {c : Nat} (h : d.RoundsTo c) (hfinite : c < infinityCode)
    (hlow : -400 ≤ (digitChars d.digits).length + d.exponent)
    (hhigh : (digitChars d.digits).length + d.exponent ≤ 400) (negative : Bool) :
    nearest negative d.digits d.exponent = ofCode negative c := by
  have hcode : min c infinityCode = c := Nat.min_eq_left hfinite.le
  unfold nearest
  dsimp only
  by_cases hdigits : d.digits = 0
  · -- nothing but zero itself rounds to zero
    rw [if_pos hdigits]
    by_cases hzero : c = 0
    · rw [hzero]
    · exact absurd hdigits (h.digits_pos hzero).ne'
  rw [if_neg hdigits, if_neg (by omega), if_neg (by omega)]
  split
  next hexponent =>
    have hratio : Binary64.RoundsTo c (d.digits * 10 ^ d.exponent.toNat * Binary64.unitsPerOne)
        (10 ^ (-d.exponent).toNat) := h
    rw [show (-d.exponent).toNat = 0 by omega, Nat.pow_zero] at hratio
    have hnearest := Binary64.nearestCode_eq hratio Nat.one_pos
    rw [hcode] at hnearest
    exact congrArg (ofCode negative) hnearest
  next hexponent =>
    have hratio : Binary64.RoundsTo c (d.digits * 10 ^ d.exponent.toNat * Binary64.unitsPerOne)
        (10 ^ (-d.exponent).toNat) := h
    rw [show d.exponent.toNat = 0 by omega, Nat.pow_zero, Nat.mul_one] at hratio
    have hnearest := Binary64.nearestCode_eq hratio (Nat.pow_pos (by decide))
    rw [hcode] at hnearest
    exact congrArg (ofCode negative) hnearest

/-- A row of digits is the magnitude that it spells. -/
theorem readMagnitude_whole {cs : List Char} (h : AreDigits cs) (negative : Bool) :
    readMagnitude negative cs = some (nearest negative (Nat.ofDigitChars 10 cs 0) 0) := by
  obtain ⟨c, rest, rfl, -⟩ := h.exists_cons
  unfold readMagnitude
  rw [takeDigits_self h.isDigit]
  dsimp only
  rw [if_neg (by simp)]
  rfl

/-- Two rows of digits with a point between them are the magnitude that they spell. -/
theorem readMagnitude_point {whole fraction : List Char} (hwhole : AreDigits whole)
    (hfraction : AreDigits fraction) (negative : Bool) :
    readMagnitude negative (whole ++ '.' :: fraction) =
      some (nearest negative (Nat.ofDigitChars 10 (whole ++ fraction) 0)
        (-(fraction.length : Int))) := by
  have hpoint : ∀ c ∈ ('.' :: fraction).head?, digitValue c = none := by
    intro c hc
    cases hc
    rfl
  have hlength : whole.length ≠ 0 := fun h => hwhole.ne_nil (List.eq_nil_of_length_eq_zero h)
  unfold readMagnitude
  rw [takeDigits_append hwhole.isDigit 0 0 hpoint]
  simp [takeDigits_self hfraction.isDigit, hlength, readExponent, Nat.ofDigitChars_append]

/-- **The plain form of a decimal is read as the double to which it rounds.** -/
theorem readMagnitude_positional {d : Decimal} {c : Nat} (h : d.RoundsTo c)
    (hfinite : c < infinityCode) (hfits : d.digits < UInt64.size) (hlow : -400 < d.exponent)
    (hhigh : d.exponent < coarsestGrid) (negative : Bool) :
    readMagnitude negative (d.positional []) = some (ofCode negative c) := by
  have hgrid : coarsestGrid = 309 := rfl
  have hfew : d.digits < 10 ^ 20 := hfits.trans_le (by decide)
  obtain ⟨hexponent, hdigits, hvalue⟩ | ⟨whole, fraction, hform, hwhole, hfraction, hvalue,
      hexponent⟩ := d.positional_cases
  · -- the zeros for the power of ten have become digits
    have hwhole : RoundsTo ⟨d.digits * 10 ^ d.exponent.toNat, 0⟩ c := by
      have hratio : Binary64.RoundsTo c (d.digits * 10 ^ d.exponent.toNat * Binary64.unitsPerOne)
          (10 ^ (-d.exponent).toNat) := h
      rw [show (-d.exponent).toNat = 0 by omega] at hratio
      show Binary64.RoundsTo c (d.digits * 10 ^ d.exponent.toNat * 10 ^ 0 * Binary64.unitsPerOne)
        (10 ^ 0)
      rw [Nat.pow_zero] at hratio ⊢
      rwa [Nat.mul_one]
    have hlength : (digitChars (d.digits * 10 ^ d.exponent.toNat)).length ≤ 400 := by
      refine (Nat.length_toDigits_le_iff (by decide) (by decide)).mpr ?_
      calc d.digits * 10 ^ d.exponent.toNat
          < 10 ^ 20 * 10 ^ d.exponent.toNat :=
            Nat.mul_lt_mul_of_pos_right hfew (Nat.pow_pos (by decide))
        _ = 10 ^ (20 + d.exponent.toNat) := (Nat.pow_add ..).symm
        _ ≤ 10 ^ 400 := Nat.pow_le_pow_right (by decide) (by omega)
    rw [readMagnitude_whole hdigits, hvalue]
    refine congrArg some (nearest_of_roundsTo hwhole hfinite ?_ ?_ negative)
    · show (-400 : Int) ≤ (digitChars (d.digits * 10 ^ d.exponent.toNat)).length + 0
      omega
    · show ((digitChars (d.digits * 10 ^ d.exponent.toNat)).length : Int) + 0 ≤ 400
      omega
  · have hlength : (digitChars d.digits).length ≤ 20 :=
      (Nat.length_toDigits_le_iff (by decide) (by decide)).mpr hfew
    rw [hform, readMagnitude_point hwhole hfraction, hvalue, ← hexponent]
    exact congrArg some (nearest_of_roundsTo h hfinite (by omega) (by omega) negative)

/-- The shortest decimal of a finite double is read as that double. -/
theorem readMagnitude_shortest {c : Nat} (hfinite : c < infinityCode) (negative : Bool) :
    readMagnitude negative ((shortest .away c).positional []) = some (ofCode negative c) := by
  obtain ⟨hrounds, hfits⟩ := shortest_spec .away hfinite
  have hhigh : (shortest .away c).exponent < coarsestGrid := by
    by_cases hzero : c = 0
    · rw [hzero]
      decide
    · exact hrounds.exponent_lt hzero hfinite
  exact readMagnitude_positional hrounds hfinite hfits (shortest_exponent .away c).1 hhigh negative

/-! ## Whole texts -/

/-- A digit is no sign. -/
theorem ne_sign_of_isDigit {c : Char} (h : c.isDigit = true) : c ≠ '-' ∧ c ≠ '+' := by
  constructor
  · intro heq
    rw [heq] at h
    cases h
  · intro heq
    rw [heq] at h
    cases h

/-- **The plain form of a finite double is read as the double itself**, bit for bit. -/
theorem readReal_plain {x : Binary64} (h : x.isFinite = true) : readReal x.plain = .ok x := by
  have hfinite : x.code < infinityCode := of_decide_eq_true h
  have hread := readMagnitude_shortest hfinite x.isNegative
  rw [Binary64.ofCode_code] at hread
  have hnan : x.isNaN = false := decide_eq_false (by omega)
  have hinfinite : x.isInfinite = false := decide_eq_false (by omega)
  obtain ⟨c, cs, hform, hc⟩ := exists_cons_positional (shortest .away x.code)
  rw [hform] at hread
  have htext : x.plain.toList = x.signChars ++ c :: cs := by
    unfold Binary64.plain
    rw [hnan, hinfinite, hform]
    exact String.toList_ofList
  unfold readReal
  dsimp only
  rw [htext]
  unfold Binary64.signChars
  cases hnegative : x.isNegative with
  | true =>
    rw [hnegative] at hread
    simp [hread]
  | false =>
    rw [hnegative] at hread
    obtain ⟨hminus, hplus⟩ := ne_sign_of_isDigit hc
    simp [hread, hminus, hplus]

/-- A row of digits is read to its end if its number is in the range. -/
theorem readDigits64_eq {cs : List Char} (h : ∀ c ∈ cs, c.isDigit = true) {negative : Bool}
    {value : Nat}
    (hfits : if negative then Nat.ofDigitChars 10 cs value ≤ 2 ^ 63
      else Nat.ofDigitChars 10 cs value < 2 ^ 63) :
    readDigits64 negative value cs = .ok (Nat.ofDigitChars 10 cs value) := by
  induction cs generalizing value with
  | nil => rfl
  | cons c cs ih =>
    rw [Nat.ofDigitChars_cons] at hfits ⊢
    -- the number so far is in the range because the whole one is
    have hstep := le_ofDigitChars cs (10 * value + (c.toNat - '0'.toNat))
    have hshift : 1 <<< 63 = 2 ^ 63 := rfl
    unfold readDigits64
    rw [digitValue_of_isDigit (h c List.mem_cons_self)]
    dsimp only
    cases negative with
    | true =>
      rw [if_pos rfl] at hfits ⊢
      rw [if_neg (by omega)]
      exact ih (fun c' hc' => h c' (List.mem_cons_of_mem c hc')) hfits
    | false =>
      rw [if_neg Bool.false_ne_true] at hfits ⊢
      rw [if_neg (by omega)]
      exact ih (fun c' hc' => h c' (List.mem_cons_of_mem c hc')) hfits

/-- **An integer of sixty-four bits is read from its digits as it was**, the least one included. -/
theorem readInt64_int64Text (d : Int64) : readInt64 (int64Text d) = .ok d := by
  have hlow := d.le_toInt
  have hhigh := d.toInt_lt
  have hdigits := areDigits_digitChars d.toInt.natAbs
  have hvalue := ofDigitChars_digitChars d.toInt.natAbs
  obtain ⟨c, cs, hcs, hc⟩ := hdigits.exists_cons
  have htext : (int64Text d).toList =
      (if d.toInt < 0 then ['-'] else []) ++ digitChars d.toInt.natAbs := String.toList_ofList
  unfold readInt64
  rw [htext, hcs]
  by_cases hnegative : d.toInt < 0
  · have hread : readDigits64 true 0 (c :: cs) = .ok d.toInt.natAbs := by
      rw [← hcs]
      refine (readDigits64_eq hdigits.isDigit ?_).trans (congrArg _ hvalue)
      rw [hvalue, if_pos rfl]
      omega
    simp [hnegative, hread, Except.map, abs_of_neg hnegative]
  · have hread : readDigits64 false 0 (c :: cs) = .ok d.toInt.natAbs := by
      rw [← hcs]
      refine (readDigits64_eq hdigits.isDigit ?_).trans (congrArg _ hvalue)
      rw [hvalue, if_neg Bool.false_ne_true]
      omega
    have hint : (d.toInt.natAbs : Int) = d.toInt := by omega
    obtain ⟨hminus, hplus⟩ := ne_sign_of_isDigit hc
    simp [hnegative, hread, Except.map, hint, hminus, hplus]

end Telemetry.Decimal
