import Telemetry.Proofs.Decimal.Shortest
import Telemetry.Proofs.Json.Number

/-!
# Reading back a double

A double is written as the shortest decimal that rounds to it, with a point or a power of ten where
its size asks for one. What a reader makes of that is the decimal as it stands there
(`Decimal.written`): its digits rounded to a double, times or over a power of ten rounded to a
double.
-/

namespace Telemetry

namespace Decimal

/-- Whether the document form of a decimal has no power of ten. -/
def inPlaces (d : Decimal) : Bool :=
  d.digits = 0 || Binary64.positionalExponent (d.exponent + (digitChars d.digits).length - 1)

/-- The document form of a decimal. -/
def documentForm (d : Decimal) : List Char :=
  if d.inPlaces then d.positional ['.', '0'] else d.scientific

/-- A decimal as its document form spells it: a whole number without a power of ten has all its
digits, and one more behind the point. -/
def written (d : Decimal) : Decimal :=
  if d.inPlaces ∧ 0 ≤ d.exponent then ⟨d.digits * 10 ^ (d.exponent.toNat + 1), -1⟩ else d

/-- A whole number without a power of ten is small. -/
theorem digits_written_lt {d : Decimal} (hfits : d.digits < UInt64.size) :
    d.written.digits < UInt64.size := by
  unfold written
  split
  next h =>
    obtain ⟨hplaces, hexponent⟩ := h
    dsimp only
    by_cases hzero : d.digits = 0
    · rw [hzero, Nat.zero_mul]
      decide
    · unfold inPlaces Binary64.positionalExponent at hplaces
      simp only [hzero, decide_false, Bool.false_or, Bool.and_eq_true, decide_eq_true_eq] at hplaces
      have hlength : 0 < (digitChars d.digits).length := Nat.length_toDigits_pos
      have hdigits : d.digits < 10 ^ (digitChars d.digits).length :=
        (Nat.length_toDigits_le_iff (by decide) hlength).mp (Nat.le_refl _)
      -- seventeen places at most, with the one behind the point
      calc d.digits * 10 ^ (d.exponent.toNat + 1)
          < 10 ^ (digitChars d.digits).length * 10 ^ (d.exponent.toNat + 1) :=
            Nat.mul_lt_mul_of_pos_right hdigits (Nat.pow_pos (by decide))
        _ = 10 ^ ((digitChars d.digits).length + (d.exponent.toNat + 1)) := (Nat.pow_add ..).symm
        _ ≤ 10 ^ 17 := Nat.pow_le_pow_right (by decide) (by omega)
        _ ≤ UInt64.size := by decide
  next => exact hfits

/-- A decimal rounds to a code as it is written, if it does at all. -/
theorem RoundsTo.written {d : Decimal} {c : Nat} (h : d.RoundsTo c) : d.written.RoundsTo c := by
  unfold Decimal.written
  split
  next hwhole =>
    have hnonneg : (-d.exponent).toNat = 0 := by omega
    -- ten times the digits over ten is the same ratio
    have hratio : Binary64.RoundsTo c
        (d.digits * 10 ^ d.exponent.toNat * Binary64.unitsPerOne * 10)
        (10 ^ (-d.exponent).toNat * 10) := (Binary64.RoundsTo.mul_iff (by decide)).mpr h
    rw [hnonneg] at hratio
    have hnum : d.digits * 10 ^ d.exponent.toNat * Binary64.unitsPerOne * 10 =
        d.digits * 10 ^ (d.exponent.toNat + 1) * 10 ^ (-1 : Int).toNat * Binary64.unitsPerOne := by
      rw [show (-1 : Int).toNat = 0 from rfl, Nat.pow_succ]
      ring
    rw [hnum] at hratio
    exact hratio
  next => exact h

end Decimal

namespace Json.Reader

open Decimal (digitChars)

/-- Whether a text is one of a number, read as a decimal behind its sign. -/
structure ReadsAs (cs : List Char) (d : Decimal) : Prop where
  head : ∃ c ∈ cs.head?, c.isDigit = true
  ascii : ∀ c ∈ cs, c.toNat < 0x80
  read : ∀ negative limit rest, Ends rest →
    number negative limit (Reader.ascii cs ++ rest) =
      (realOf negative d.digits d.exponent).map fun x => (.real x, rest)

theorem AreDigits.ascii {cs : List Char} (h : ∀ c ∈ cs, c.isDigit = true) :
    ∀ c ∈ cs, c.toNat < 0x80 := fun c hc => by
  have hbounds := isDigit_bounds (h c hc)
  omega

theorem AreDigits.head {cs : List Char} (h : AreDigits cs) (rest : List Char) :
    ∃ c ∈ (cs ++ rest).head?, c.isDigit = true := by
  obtain ⟨c, cs, rfl, hc⟩ := h.exists_cons
  exact ⟨c, rfl, hc⟩

/-- Whole digits, a point and more digits. -/
theorem readsAs_point {whole fraction : List Char} (hwhole : AreDigits whole)
    (hzero : whole.head? = some '0' → whole = ['0']) (hfraction : AreDigits fraction)
    (hfits : Nat.ofDigitChars 10 (whole ++ fraction) 0 < UInt64.size) :
    ReadsAs (whole ++ '.' :: fraction)
      ⟨Nat.ofDigitChars 10 (whole ++ fraction) 0, -(fraction.length : Int)⟩ := by
  refine ⟨hwhole.head _, fun c hc => ?_, fun negative limit rest hrest => ?_⟩
  · rcases List.mem_append.mp hc with hc | hc
    · exact AreDigits.ascii hwhole.isDigit c hc
    · rcases List.mem_cons.mp hc with rfl | hc
      · decide
      · exact AreDigits.ascii hfraction.isDigit c hc
  · rw [Nat.ofDigitChars_append] at hfits ⊢
    have hwholeFits := Nat.lt_of_le_of_lt (le_ofDigitChars fraction _) hfits
    have hpoint : NoDigit (0x2e :: (ascii fraction ++ rest)) := noDigit_cons (by decide) _
    have hbytes : ascii (whole ++ '.' :: fraction) ++ rest =
        ascii whole ++ 0x2e :: (ascii fraction ++ rest) := by
      unfold ascii
      rw [List.map_append, List.append_assoc]
      rfl
    rw [hbytes, number_ascii hwhole hzero hwholeFits negative limit hpoint,
      numberTail_fraction negative _ _ hfraction hfits hrest]

theorem areDigits_zero : AreDigits ['0'] := areDigits_digitChars 0

theorem areDigits_zeros_append {cs : List Char} (h : AreDigits cs) (n : Nat) :
    AreDigits (List.replicate n '0' ++ cs) := by
  refine ⟨List.append_ne_nil_of_right_ne_nil _ h.ne_nil, fun c hc => ?_⟩
  rcases List.mem_append.mp hc with hc | hc
  · rw [List.eq_of_mem_replicate hc]
    rfl
  · exact h.isDigit c hc

theorem areDigits_append_zeros {cs : List Char} (h : AreDigits cs) (n : Nat) :
    AreDigits (cs ++ List.replicate n '0') := by
  refine ⟨List.append_ne_nil_of_left_ne_nil h.ne_nil _, fun c hc => ?_⟩
  rcases List.mem_append.mp hc with hc | hc
  · exact h.isDigit c hc
  · rw [List.eq_of_mem_replicate hc]
    rfl

/-- A whole number, zeros in place of a power of ten, and a last zero behind the point. -/
theorem readsAs_whole {n zeros : Nat} (hzero : n = 0 → zeros = 0)
    (hfits : n * 10 ^ (zeros + 1) < UInt64.size) :
    ReadsAs (digitChars n ++ List.replicate zeros '0' ++ ['.', '0']) ⟨n * 10 ^ (zeros + 1), -1⟩ := by
  have hvalue : Nat.ofDigitChars 10 (digitChars n ++ List.replicate zeros '0' ++ ['0']) 0 =
      n * 10 ^ (zeros + 1) := by
    rw [Nat.ofDigitChars_append, Nat.ofDigitChars_append, ofDigitChars_digitChars,
      Nat.ofDigitChars_replicate_zero, Nat.ofDigitChars_cons, Nat.ofDigitChars_nil, Nat.pow_succ]
    show 10 * (10 ^ zeros * n) + 0 = _
    ring
  have hdigits := areDigits_append_zeros (areDigits_digitChars n) zeros
  have hhead : (digitChars n ++ List.replicate zeros '0').head? = some '0' →
      digitChars n ++ List.replicate zeros '0' = ['0'] := by
    intro h
    rw [List.head?_append_of_ne_nil _ (areDigits_digitChars n).ne_nil] at h
    have hn := eq_zero_of_head_digitChars h
    rw [hzero hn, hn]
    rfl
  have hread := readsAs_point hdigits hhead areDigits_zero (by rwa [hvalue])
  rw [hvalue] at hread
  exact hread

/-- A number with a point among its digits. -/
theorem readsAs_split {n places : Nat} (hn : n ≠ 0) (hplaces : 0 < places)
    (hlength : places < (digitChars n).length) (hfits : n < UInt64.size) :
    ReadsAs ((digitChars n).take ((digitChars n).length - places) ++
      '.' :: (digitChars n).drop ((digitChars n).length - places)) ⟨n, -(places : Int)⟩ := by
  have hdigits := areDigits_digitChars n
  have hvalue := ofDigitChars_digitChars n
  have hhead := fun h => hn (eq_zero_of_head_digitChars (n := n) h)
  generalize digitChars n = cs at *
  have hwhole : AreDigits (cs.take (cs.length - places)) := by
    refine ⟨fun h => ?_, fun c hc => hdigits.isDigit c (List.mem_of_mem_take hc)⟩
    have hlengths := congrArg List.length h
    rw [List.length_take, List.length_nil] at hlengths
    omega
  have hfraction : AreDigits (cs.drop (cs.length - places)) := by
    refine ⟨fun h => ?_, fun c hc => hdigits.isDigit c (List.mem_of_mem_drop hc)⟩
    have hlengths := congrArg List.length h
    rw [List.length_drop, List.length_nil] at hlengths
    omega
  have hzero : (cs.take (cs.length - places)).head? = some '0' →
      cs.take (cs.length - places) = ['0'] := by
    intro h
    rw [List.head?_take, if_neg (by omega)] at h
    exact absurd h hhead
  have hread := readsAs_point hwhole hzero hfraction (by rwa [List.take_append_drop, hvalue])
  rw [List.take_append_drop, hvalue, List.length_drop,
    show cs.length - (cs.length - places) = places by omega] at hread
  exact hread

/-- A number below one. -/
theorem readsAs_below {n places : Nat} (hlength : (digitChars n).length ≤ places)
    (hfits : n < UInt64.size) :
    ReadsAs ('0' :: '.' :: (List.replicate (places - (digitChars n).length) '0' ++ digitChars n))
      ⟨n, -(places : Int)⟩ := by
  have hvalue : Nat.ofDigitChars 10
      (['0'] ++ (List.replicate (places - (digitChars n).length) '0' ++ digitChars n)) 0 = n := by
    rw [Nat.ofDigitChars_append, Nat.ofDigitChars_append, Nat.ofDigitChars_replicate_zero,
      Nat.ofDigitChars_cons, Nat.ofDigitChars_nil]
    exact ofDigitChars_digitChars n
  have hread := readsAs_point areDigits_zero (fun _ => rfl)
    (areDigits_zeros_append (areDigits_digitChars n) (places - (digitChars n).length))
    (by rwa [hvalue])
  rw [hvalue, List.length_append, List.length_replicate, Nat.sub_add_cancel hlength] at hread
  exact hread

theorem ascii_power (power : Int) :
    ascii ('e' :: (if power < 0 then '-' else '+') :: digitChars power.natAbs) =
      0x65 :: powerBytes power := by
  unfold powerBytes
  by_cases hneg : power < 0
  · rw [if_pos hneg, if_pos hneg]
    rfl
  · rw [if_neg hneg, if_neg hneg]
    rfl

/-- One digit, a point if more digits follow, and a power of ten. -/
theorem number_scientific {c : Char} {cs : List Char} (h : AreDigits (c :: cs))
    (hfits : Nat.ofDigitChars 10 (c :: cs) 0 < UInt64.size) {power : Int}
    (hpower : power.natAbs ≤ largestExponent) (negative : Bool) (limit : Nat) {rest : Bytes}
    (hrest : Ends rest) :
    number negative limit
        (ascii (c :: ((if cs.isEmpty then [] else '.' :: cs) ++ 'e' ::
          (if power < 0 then '-' else '+') :: digitChars power.natAbs)) ++ rest) =
      (realOf negative (Nat.ofDigitChars 10 (c :: cs) 0) (-(cs.length : Int) + power)).map
        fun x => (.real x, rest) := by
  have hbytes : ∀ fraction : List Char,
      ascii (c :: (fraction ++ 'e' :: (if power < 0 then '-' else '+') ::
        digitChars power.natAbs)) ++ rest =
      ascii [c] ++ (ascii fraction ++ 0x65 :: (powerBytes power ++ rest)) := by
    intro fraction
    have hpowerBytes := ascii_power power
    unfold ascii at *
    rw [List.map_cons, List.map_append, hpowerBytes, List.cons_append, List.append_assoc]
    rfl
  have hfirst : AreDigits [c] :=
    ⟨nofun, fun c' hc' => h.isDigit c' (List.mem_singleton.mp hc' ▸ List.mem_cons_self)⟩
  have hhead : [c].head? = some '0' → [c] = ['0'] := fun h => by rw [Option.some.inj h]
  rw [show c :: cs = [c] ++ cs from rfl, Nat.ofDigitChars_append] at hfits ⊢
  have hfirstFits := Nat.lt_of_le_of_lt (le_ofDigitChars cs _) hfits
  rw [hbytes]
  -- a single digit has no point behind it
  cases cs with
  | nil =>
    have hmark : NoDigit (0x65 :: (powerBytes power ++ rest)) := noDigit_cons (by decide) _
    refine (number_ascii hfirst hhead hfirstFits negative limit hmark).trans ?_
    rw [numberTail_power negative _ _ hpower hrest.noDigit, Nat.ofDigitChars_nil,
      show -(([] : List Char).length : Int) + power = power from Int.zero_add _]
  | cons c' cs =>
    have hfraction : AreDigits (c' :: cs) :=
      ⟨nofun, fun c'' hc'' => h.isDigit c'' (List.mem_cons_of_mem c hc'')⟩
    have hpoint : NoDigit (0x2e :: (ascii (c' :: cs) ++ 0x65 :: (powerBytes power ++ rest))) :=
      noDigit_cons (by decide) _
    refine (number_ascii hfirst hhead hfirstFits negative limit hpoint).trans ?_
    exact numberTail_fraction_power negative _ _ hfraction hfits hpower hrest.noDigit

/-- A number with a power of ten. -/
theorem readsAs_scientific {d : Decimal} (hfits : d.digits < UInt64.size)
    (hpower : (d.exponent + (digitChars d.digits).length).natAbs < largestExponent) :
    ReadsAs d.scientific d := by
  have hdigits := areDigits_digitChars d.digits
  have hvalue := ofDigitChars_digitChars d.digits
  unfold Decimal.scientific
  generalize digitChars d.digits = cs at *
  cases cs with
  | nil => exact absurd rfl hdigits.ne_nil
  | cons c cs =>
    dsimp only
    rw [List.length_cons] at hpower
    have hrest : ∀ c' ∈ cs, c'.toNat < 0x80 := fun c' hc' =>
      AreDigits.ascii hdigits.isDigit c' (List.mem_cons_of_mem c hc')
    refine ⟨⟨c, rfl, hdigits.isDigit c List.mem_cons_self⟩, fun c' hc' => ?_,
      fun negative limit rest hends => ?_⟩
    · have hfraction : ∀ c' ∈ (if cs.isEmpty then [] else '.' :: cs), c'.toNat < 0x80 := by
        split
        · nofun
        · exact List.forall_mem_cons.mpr ⟨by decide, hrest⟩
      have hsign : (if d.exponent + cs.length < 0 then '-' else '+').toNat < 0x80 := by
        split <;> decide
      rcases List.mem_cons.mp hc' with rfl | hc'
      · exact AreDigits.ascii hdigits.isDigit c' List.mem_cons_self
      · rcases List.mem_append.mp hc' with hc' | hc'
        · exact hfraction c' hc'
        · rcases List.mem_cons.mp hc' with rfl | hc'
          · decide
          · rcases List.mem_cons.mp hc' with rfl | hc'
            · exact hsign
            · exact AreDigits.ascii (areDigits_digitChars _).isDigit c' hc'
    · rw [number_scientific hdigits (hvalue.symm ▸ hfits) (by omega) negative limit hends, hvalue,
        show -(cs.length : Int) + (d.exponent + cs.length) = d.exponent by omega]

/-- **The document form of a decimal is read as the decimal that it spells.** -/
theorem readsAs_documentForm {d : Decimal} (hzero : d.digits = 0 → d.exponent = 0)
    (hfits : d.digits < UInt64.size)
    (hpower : (d.exponent + (digitChars d.digits).length).natAbs < largestExponent) :
    ReadsAs d.documentForm d.written := by
  have hwritten := Decimal.digits_written_lt hfits
  unfold Decimal.documentForm
  unfold Decimal.written at hwritten ⊢
  split
  next hplaces =>
    unfold Decimal.positional
    dsimp only
    split
    next hexponent =>
      -- zeros take the places up to the point, and one stands behind it
      rw [if_pos ⟨hplaces, hexponent⟩] at hwritten ⊢
      exact readsAs_whole (fun h => by rw [hzero h]; rfl) hwritten
    next hexponent =>
      have hn : d.digits ≠ 0 := fun h => hexponent (by rw [hzero h])
      have hpart : (⟨d.digits, -((-d.exponent).toNat : Int)⟩ : Decimal) = d := by
        rw [show -((-d.exponent).toNat : Int) = d.exponent by omega]
      rw [if_neg (show ¬ (d.inPlaces = true ∧ 0 ≤ d.exponent) from fun h => hexponent h.2)]
      -- the point stands among the digits, or zeros take the places behind it
      split
      next hlength =>
        have hread := readsAs_split hn (by omega) hlength hfits
        rwa [hpart] at hread
      next hlength =>
        have hread := readsAs_below (Nat.not_lt.mp hlength) hfits
        rwa [hpart] at hread
  next hplaces =>
    rw [if_neg fun h => hplaces h.1]
    exact readsAs_scientific hfits hpower

end Json.Reader

end Telemetry
