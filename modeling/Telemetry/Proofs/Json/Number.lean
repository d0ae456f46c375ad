import Telemetry.Proofs.Json.Text

/-!
# Reading back digits

A run of digits that fits sixty-four bits is read as its number, whatever follows that is not a
digit (`Reader.digits_ascii`). From this the forms in which a number is written are read one by one:
whole digits, digits with a point among them, and either with a signed power of ten behind.
-/

namespace Telemetry.Json.Reader

/-- The bytes of ASCII characters. -/
def ascii (cs : List Char) : Bytes := cs.map Bytes.ofChar

theorem utf8_eq_ascii {cs : List Char} (h : ∀ c ∈ cs, c.toNat < 0x80) : utf8 cs = ascii cs := by
  induction cs with
  | nil => rfl
  | cons c cs ih =>
    have hrest := ih fun c' hc' => h c' (List.mem_cons_of_mem c hc')
    rw [utf8, List.flatMap_cons, Bytes.utf8EncodeChar_ascii (h c List.mem_cons_self)]
    exact congrArg (Bytes.ofChar c :: ·) hrest

/-- Whether characters are digits, one at least. -/
structure AreDigits (cs : List Char) : Prop where
  ne_nil : cs ≠ []
  isDigit : ∀ c ∈ cs, c.isDigit = true

/-- Whether no digit comes first. -/
def NoDigit (rest : Bytes) : Prop := ∀ b ∈ rest.head?, digit b = none

theorem Ends.noDigit {rest : Bytes} (h : Ends rest) : NoDigit rest := by
  intro b hb
  rcases h b hb with rfl | rfl | rfl <;> rfl

theorem noDigit_cons {b : UInt8} (h : digit b = none) (rest : Bytes) : NoDigit (b :: rest) := by
  intro b' hb'
  cases hb'
  exact h

theorem isDigit_bounds {c : Char} (h : c.isDigit = true) : 48 ≤ c.toNat ∧ c.toNat ≤ 57 := by
  simp only [Char.isDigit, Bool.and_eq_true, decide_eq_true_eq] at h
  exact ⟨h.1, h.2⟩

theorem toNat_ofChar {c : Char} (h : c.isDigit = true) : (Bytes.ofChar c).toNat = c.toNat := by
  obtain ⟨-, hhigh⟩ := isDigit_bounds h
  show c.toNat.toUInt8.toNat = c.toNat
  rw [Nat.toUInt8, UInt8.toNat_ofNat']
  omega

theorem digit_ofChar {c : Char} (h : c.isDigit = true) :
    digit (Bytes.ofChar c) = some (c.toNat - 48) := by
  obtain ⟨hlow, hhigh⟩ := isDigit_bounds h
  unfold digit
  rw [toNat_ofChar h, if_pos (by omega)]

theorem isNone_digit_ofChar {c : Char} (h : c.isDigit = true) :
    (digit (Bytes.ofChar c)).isNone = false := by
  rw [digit_ofChar h]
  rfl

theorem AreDigits.exists_cons {cs : List Char} (h : AreDigits cs) :
    ∃ c rest, cs = c :: rest ∧ c.isDigit = true := by
  obtain ⟨hne, hdigit⟩ := h
  obtain ⟨c, rest, rfl⟩ := List.exists_cons_of_ne_nil hne
  exact ⟨c, rest, rfl, hdigit c List.mem_cons_self⟩

/-- Digits only add to a number. -/
theorem le_ofDigitChars (cs : List Char) (n : Nat) : n ≤ Nat.ofDigitChars 10 cs n := by
  rw [Nat.ofDigitChars_eq_ofDigitChars_zero]
  exact Nat.le_trans (Nat.le_mul_of_pos_left n (Nat.pow_pos (by decide))) (Nat.le_add_right _ _)

/-- **Digits that fit sixty-four bits extend a number as they should.** -/
theorem digits_ascii {cs : List Char} (h : ∀ c ∈ cs, c.isDigit = true) {significand : Nat}
    (hfits : Nat.ofDigitChars 10 cs significand < UInt64.size) (taken : Nat) {rest : Bytes}
    (hrest : NoDigit rest) :
    digits significand taken 0 (ascii cs ++ rest) =
      ⟨Nat.ofDigitChars 10 cs significand, taken + cs.length, 0, rest⟩ := by
  induction cs generalizing significand taken with
  | nil =>
    show digits significand taken 0 rest = _
    rw [Nat.ofDigitChars_nil]
    cases rest with
    | nil => rfl
    | cons b rest =>
      unfold digits
      rw [hrest b rfl]
      rfl
  | cons c cs ih =>
    -- the number so far fits because the whole one does
    have hc := h c List.mem_cons_self
    rw [Nat.ofDigitChars_cons] at hfits ⊢
    have hnext : 10 * significand + (c.toNat - '0'.toNat) = significand * 10 + (c.toNat - 48) := by
      rw [Nat.mul_comm]
      rfl
    rw [hnext] at hfits ⊢
    have hstep : significand * 10 + (c.toNat - 48) < UInt64.size :=
      Nat.lt_of_le_of_lt (le_ofDigitChars cs _) hfits
    show digits significand taken 0 (Bytes.ofChar c :: (ascii cs ++ rest)) = _
    unfold digits
    rw [digit_ofChar hc]
    dsimp only
    rw [if_pos ⟨rfl, hstep⟩, ih (fun c' hc' => h c' (List.mem_cons_of_mem c hc')) hfits,
      List.length_cons, Nat.add_assoc, Nat.add_comm 1]

theorem takeWhile_ascii {cs : List Char} (h : ∀ c ∈ cs, c.isDigit = true) {rest : Bytes}
    (hrest : NoDigit rest) :
    (ascii cs ++ rest).takeWhile (fun b => (digit b).isSome) = ascii cs ∧
      (ascii cs ++ rest).dropWhile (fun b => (digit b).isSome) = rest := by
  have hascii : ∀ b ∈ ascii cs, (digit b).isSome = true := by
    intro b hb
    obtain ⟨c, hc, rfl⟩ := List.mem_map.mp hb
    rw [digit_ofChar (h c hc)]
    rfl
  rw [List.takeWhile_append_of_pos hascii, List.dropWhile_append_of_pos hascii]
  cases rest with
  | nil => exact ⟨List.append_nil _, rfl⟩
  | cons b rest =>
    have hb : (digit b).isSome = false := by
      rw [hrest b rfl]
      rfl
    rw [List.takeWhile_cons, List.dropWhile_cons, hb]
    exact ⟨List.append_nil _, rfl⟩

theorem foldl_ascii {cs : List Char} (h : ∀ c ∈ cs, c.isDigit = true) (n : Nat) :
    (ascii cs).foldl (fun n b => n * 10 + (b.toNat - 0x30)) n = Nat.ofDigitChars 10 cs n := by
  induction cs generalizing n with
  | nil => rfl
  | cons c cs ih =>
    show (ascii cs).foldl _ (n * 10 + ((Bytes.ofChar c).toNat - 0x30)) = _
    rw [ih fun c' hc' => h c' (List.mem_cons_of_mem c hc'), Nat.ofDigitChars_cons,
      toNat_ofChar (h c List.mem_cons_self), Nat.mul_comm]
    rfl

/-! ## The forms of a number -/

/-- The digits of a number are digits. -/
theorem areDigits_digitChars (n : Nat) : AreDigits (Decimal.digitChars n) :=
  ⟨Nat.toDigits_ne_nil, fun _ hc => Nat.isDigit_of_mem_toDigits (by decide) (by decide) hc⟩

theorem ofDigitChars_digitChars (n : Nat) : Nat.ofDigitChars 10 (Decimal.digitChars n) 0 = n :=
  Nat.ofDigitChars_ten_toDigits

/-- Only zero begins with a zero. -/
theorem eq_zero_of_head_digitChars {n : Nat} (h : (Decimal.digitChars n).head? = some '0') :
    n = 0 := by
  induction n using Nat.strongRecOn with
  | ind n ih =>
    unfold Decimal.digitChars at h ih
    rcases Nat.lt_or_ge n 10 with hlt | hge
    · rw [Nat.toDigits_of_lt_base hlt] at h
      have hdigit : ∀ d < 10, Nat.digitChar d = '0' → d = 0 := by decide
      exact hdigit n hlt (Option.some.inj h)
    · rw [Nat.toDigits_of_base_le (by decide) hge,
        List.head?_append_of_ne_nil _ Nat.toDigits_ne_nil] at h
      have := ih (n / 10) (by omega) h
      omega

theorem digitChars_eq_of_head {n : Nat} (h : (Decimal.digitChars n).head? = some '0') :
    Decimal.digitChars n = ['0'] := by
  rw [eq_zero_of_head_digitChars h]
  rfl

/-- A number that has no leading zero is read up to the end of its whole digits. -/
theorem number_ascii {cs : List Char} (h : AreDigits cs) (hzero : cs.head? = some '0' → cs = ['0'])
    (hfits : Nat.ofDigitChars 10 cs 0 < UInt64.size) (negative : Bool) (limit : Nat) {rest : Bytes}
    (hrest : NoDigit rest) :
    number negative limit (ascii cs ++ rest) =
      numberTail negative ⟨Nat.ofDigitChars 10 cs 0, cs.length, 0, rest⟩ := by
  have hdigits := digits_ascii h.isDigit hfits 0 hrest
  obtain ⟨c, cs, rfl, hc⟩ := h.exists_cons
  show number negative limit (Bytes.ofChar c :: (ascii cs ++ rest)) = _
  by_cases hfirst : c = '0'
  · -- behind a leading zero there may be no digit, and there is none
    subst hfirst
    obtain rfl : cs = [] := (List.cons.inj (hzero rfl)).2
    cases rest with
    | nil => rfl
    | cons b rest =>
      show (if (digit b).isSome then .error .malformed
        else numberTail negative ⟨0, 1, 0, b :: rest⟩) = _
      rw [hrest b rfl]
      rfl
  · obtain ⟨hlow, -⟩ := isDigit_bounds hc
    have hpos : c.toNat - 48 ≠ 0 := by
      intro h
      exact hfirst (by rw [← Char.ofNat_toNat c, show c.toNat = 48 by omega])
    unfold number
    dsimp only
    rw [digit_ofChar hc]
    split
    next heq => cases heq
    next heq => exact absurd (Option.some.inj heq) hpos
    next =>
      rw [Nat.zero_add] at hdigits
      exact congrArg (numberTail negative) hdigits

/-- The sign and the digits of a power of ten. -/
def powerBytes (power : Int) : Bytes :=
  (if power < 0 then 0x2d else 0x2b) :: ascii (Decimal.digitChars power.natAbs)

/-- A signed power of ten is read as the digits behind its sign. -/
theorem realWithExponent_sign (negative : Bool) (significand : Nat) (exponent : Int)
    {sign : UInt8} {down : Bool} (hsign : sign = if down then 0x2d else 0x2b) {b : UInt8}
    (hb : (digit b).isNone = false) {body rest : Bytes} {power : Nat}
    (hpower : ((b :: body).takeWhile fun b => (digit b).isSome).foldl
      (fun n b => n * 10 + (b.toNat - 0x30)) 0 = power)
    (hlarge : power ≤ largestExponent)
    (hrest : ((b :: body).dropWhile fun b => (digit b).isSome) = rest) :
    realWithExponent negative significand exponent (sign :: b :: body) =
      (realOf negative significand (if down then exponent - power else exponent + power)).map
        fun x => (x, rest) := by
  subst hsign hpower hrest
  have hlarge := Nat.not_lt.mpr hlarge
  cases down with
  | true =>
    show (if (digit b).isNone then _ else if largestExponent < _ then _ else _) = _
    rw [hb, if_neg Bool.false_ne_true]
    exact if_neg hlarge
  | false =>
    show (if (digit b).isNone then _ else if largestExponent < _ then _ else _) = _
    rw [hb, if_neg Bool.false_ne_true]
    exact if_neg hlarge

theorem realWithExponent_power (negative : Bool) (significand : Nat) (exponent : Int) {power : Int}
    (hpower : power.natAbs ≤ largestExponent) {rest : Bytes} (hrest : NoDigit rest) :
    realWithExponent negative significand exponent (powerBytes power ++ rest) =
      (realOf negative significand (exponent + power)).map fun x => (x, rest) := by
  have hdigits := areDigits_digitChars power.natAbs
  have hvalue := ofDigitChars_digitChars power.natAbs
  unfold powerBytes
  generalize Decimal.digitChars power.natAbs = cs at *
  obtain ⟨htake, hdrop⟩ := takeWhile_ascii hdigits.isDigit hrest
  have hfold := foldl_ascii hdigits.isDigit 0
  -- the sign is taken off and put back
  have hexponent : (if decide (power < 0) then exponent - (power.natAbs : Int)
      else exponent + power.natAbs) = exponent + power := by
    by_cases hneg : power < 0
    · rw [decide_eq_true hneg, if_pos rfl]
      omega
    · rw [decide_eq_false hneg, if_neg Bool.false_ne_true]
      omega
  obtain ⟨c, cs, rfl, hc⟩ := hdigits.exists_cons
  rw [← hexponent]
  refine realWithExponent_sign negative significand exponent ?_ (isNone_digit_ofChar hc) ?_ hpower
    hdrop
  · simp only [decide_eq_true_eq]
  · exact (congrArg _ htake).trans (hfold.trans hvalue)

/-! ## What follows whole digits -/

section tail

variable (negative : Bool) (significand taken : Nat) {rest : Bytes}

/-- Nothing. -/
theorem numberTail_whole (hrest : Ends rest) :
    numberTail negative ⟨significand, taken, 0, rest⟩ =
      if !negative then .ok (.natural significand, rest)
      else if significand = 0 ∨ 1 <<< 63 < significand then
        .ok (.real (Binary64.ofNat significand).neg, rest)
      else .ok (.negative (-(significand : Int)), rest) := by
  cases rest with
  | nil => rfl
  | cons b rest => rcases hrest b rfl with rfl | rfl | rfl <;> rfl

/-- A power of ten. -/
theorem numberTail_power {power : Int} (hpower : power.natAbs ≤ largestExponent)
    (hrest : NoDigit rest) :
    numberTail negative ⟨significand, taken, 0, 0x65 :: (powerBytes power ++ rest)⟩ =
      (realOf negative significand power).map fun x => (.real x, rest) := by
  have hread := realWithExponent_power negative significand 0 hpower hrest
  rw [Int.zero_add] at hread
  show (realWithExponent negative significand 0 (powerBytes power ++ rest)).map _ = _
  rw [hread]
  cases realOf negative significand power <;> rfl

/-- A point with digits behind it comes to a power of ten below one, and a further power of ten
may follow. -/
theorem numberTail_point {b : UInt8} (hb : (digit b).isNone = false) {body : Bytes}
    {value places : Nat} :
    digits significand 0 0 (b :: body) = ⟨value, places, 0, rest⟩ →
    numberTail negative ⟨significand, taken, 0, 0x2e :: b :: body⟩ =
      match rest with
      | [] => (realOf negative value (-(places : Int))).map fun x => (.real x, [])
      | e :: rest =>
        if e = 0x65 ∨ e = 0x45 then
          (realWithExponent negative value (-(places : Int)) rest).map fun (x, rest) =>
            (.real x, rest)
        else (realOf negative value (-(places : Int))).map fun x => (.real x, e :: rest) := by
  intro hdigits
  have hplaces : ((0 : Nat) : Int) - (places : Int) = -(places : Int) := by omega
  unfold numberTail
  split
  next fraction heq =>
    obtain rfl : b :: body = fraction := (List.cons.inj heq).2
    dsimp only
    rw [hb, if_neg Bool.false_ne_true, hdigits]
    dsimp only
    rw [hplaces]
    cases rest <;> rfl
  next hpoint heq => exact absurd (List.cons.inj heq).1.symm hpoint
  next heq => cases heq

/-- A point with digits behind it. -/
theorem numberTail_fraction {cs : List Char} (h : AreDigits cs)
    (hfits : Nat.ofDigitChars 10 cs significand < UInt64.size) (hrest : Ends rest) :
    numberTail negative ⟨significand, taken, 0, 0x2e :: (ascii cs ++ rest)⟩ =
      (realOf negative (Nat.ofDigitChars 10 cs significand) (-(cs.length : Int))).map
        fun x => (.real x, rest) := by
  have hdigits := digits_ascii h.isDigit hfits 0 hrest.noDigit
  rw [Nat.zero_add] at hdigits
  obtain ⟨c, cs, rfl, hc⟩ := h.exists_cons
  refine (numberTail_point negative significand taken (isNone_digit_ofChar hc) hdigits).trans ?_
  cases rest with
  | nil => rfl
  | cons b rest => rcases hrest b rfl with rfl | rfl | rfl <;> rfl

/-- A point with digits behind it, and a power of ten. -/
theorem numberTail_fraction_power {cs : List Char} (h : AreDigits cs)
    (hfits : Nat.ofDigitChars 10 cs significand < UInt64.size) {power : Int}
    (hpower : power.natAbs ≤ largestExponent) (hrest : NoDigit rest) :
    numberTail negative
        ⟨significand, taken, 0, 0x2e :: (ascii cs ++ 0x65 :: (powerBytes power ++ rest))⟩ =
      (realOf negative (Nat.ofDigitChars 10 cs significand) (-(cs.length : Int) + power)).map
        fun x => (.real x, rest) := by
  have hmark : NoDigit (0x65 :: (powerBytes power ++ rest)) := noDigit_cons (by decide) _
  have hdigits := digits_ascii h.isDigit hfits 0 hmark
  have hread := realWithExponent_power negative (Nat.ofDigitChars 10 cs significand)
    (-(cs.length : Int)) hpower hrest
  rw [Nat.zero_add] at hdigits
  obtain ⟨c, cs, rfl, hc⟩ := h.exists_cons
  refine (numberTail_point negative significand taken (isNone_digit_ofChar hc) hdigits).trans ?_
  dsimp only
  rw [if_pos (Or.inl rfl), hread]
  cases realOf negative (Nat.ofDigitChars 10 (c :: cs) significand)
    (-((c :: cs).length : Int) + power) <;> rfl

end tail

/-! ## Numbers with a sign -/

/-- The characters of a number with a minus sign if it is negative. -/
def signed (negative : Bool) (cs : List Char) : List Char := (if negative then ['-'] else []) ++ cs

/-- A digit is no byte outside the range of the digits. -/
theorem ofChar_ne {c : Char} (h : c.isDigit = true) {b : UInt8} (hb : b.toNat < 48 ∨ 57 < b.toNat) :
    Bytes.ofChar c ≠ b := by
  rintro rfl
  have hbounds := isDigit_bounds h
  rw [toNat_ofChar h] at hb
  omega

theorem solid_ofChar {c : Char} (h : c.isDigit = true) : isBlank (Bytes.ofChar c) = false := by
  have hne : ∀ b : UInt8, b.toNat < 48 → Bytes.ofChar c ≠ b := fun b hb => ofChar_ne h (Or.inl hb)
  unfold isBlank
  rw [decide_eq_false (hne 0x20 (by decide)), decide_eq_false (hne 0x0a (by decide)),
    decide_eq_false (hne 0x09 (by decide)), decide_eq_false (hne 0x0d (by decide))]
  rfl

/-- A number does not begin like `null`. -/
theorem isPresent_signed (negative : Bool) {c : Char} (h : c.isDigit = true) (cs : List Char) :
    IsPresent (ascii (signed negative (c :: cs))) := by
  cases negative with
  | true => exact ⟨0x2d, ascii (c :: cs), rfl, by decide, by decide⟩
  | false =>
    exact ⟨Bytes.ofChar c, ascii cs, rfl, solid_ofChar h, ofChar_ne h (Or.inr (by decide))⟩

/-- A number is read behind its sign. -/
theorem anyNumber_signed (expected : String) (negative : Bool) {c : Char} (h : c.isDigit = true)
    (cs : List Char) (limit : Nat) (rest : Bytes) :
    anyNumber expected limit (ascii (signed negative (c :: cs)) ++ rest) =
      number negative limit (ascii (c :: cs) ++ rest) := by
  cases negative with
  | true =>
    refine (bind_of_ok (start_of_solid (b := 0x2d) (by decide) limit _)).trans ?_
    rfl
  | false =>
    have hsign : Bytes.ofChar c ≠ 0x2d := ofChar_ne h (Or.inl (by decide))
    refine (bind_of_ok (start_of_solid (solid_ofChar h) limit _)).trans ?_
    rw [if_neg hsign, digit_ofChar h]
    rfl

/-- Signs and digits are ASCII. -/
theorem utf8_signed (negative : Bool) {cs : List Char} (h : ∀ c ∈ cs, c.toNat < 0x80) :
    utf8 (signed negative cs) = ascii (signed negative cs) := by
  refine utf8_eq_ascii fun c hc => ?_
  rcases List.mem_append.mp hc with hc | hc
  · cases negative with
    | true =>
      rw [List.mem_singleton.mp hc]
      decide
    | false => cases hc
  · exact h c hc

theorem ofText_int64Text (d : Int64) :
    Bytes.ofText (int64Text d) =
      ascii (signed (decide (d.toInt < 0)) (Decimal.digitChars d.toInt.natAbs)) := by
  have hdigits : ∀ c ∈ Decimal.digitChars d.toInt.natAbs, c.toNat < 0x80 := fun c hc => by
    have hbounds := isDigit_bounds ((areDigits_digitChars _).isDigit c hc)
    omega
  rw [← utf8_signed _ hdigits]
  unfold int64Text signed
  rw [Bytes.ofText_ofList]
  simp only [decide_eq_true_eq]

theorem isPresent_int64Text (d : Int64) : IsPresent (Bytes.ofText (int64Text d)) := by
  obtain ⟨c, cs, hcs, hc⟩ := (areDigits_digitChars d.toInt.natAbs).exists_cons
  rw [ofText_int64Text, hcs]
  exact isPresent_signed _ hc cs

/-- An integer is read with its sign, since its digits fit sixty-four bits. -/
theorem integer_int64Text (d : Int64) (limit : Nat) {rest : Bytes} (hrest : Ends rest) :
    integer "i64" Int64.minValue.toInt Int64.maxValue.toInt limit
      (Bytes.ofText (int64Text d) ++ rest) = .ok (d.toInt, rest) := by
  have hlow := d.le_toInt
  have hhigh := d.toInt_lt
  have hmin : Int64.minValue.toInt = -2 ^ 63 := rfl
  have hmax : Int64.maxValue.toInt = 2 ^ 63 - 1 := rfl
  have hshift : 1 <<< 63 = 2 ^ 63 := rfl
  have hdigits := areDigits_digitChars d.toInt.natAbs
  have hvalue := ofDigitChars_digitChars d.toInt.natAbs
  have hfits : d.toInt.natAbs < UInt64.size := by
    have hsize : UInt64.size = 2 ^ 64 := rfl
    omega
  have hnumber := number_ascii hdigits digitChars_eq_of_head (hvalue.symm ▸ hfits)
    (decide (d.toInt < 0)) limit hrest.noDigit
  rw [hvalue, numberTail_whole _ _ _ hrest] at hnumber
  obtain ⟨c, cs, hcs, hc⟩ := hdigits.exists_cons
  rw [hcs] at hnumber
  have hany := (anyNumber_signed "i64" (decide (d.toInt < 0)) hc cs limit rest).trans hnumber
  rw [ofText_int64Text, hcs]
  by_cases hneg : d.toInt < 0
  · rw [decide_eq_true hneg] at hany ⊢
    -- the least integer is the largest number that may stand behind a minus sign
    have hrange : ¬ (d.toInt.natAbs = 0 ∨ 1 <<< 63 < d.toInt.natAbs) := by omega
    rw [Bool.not_true, if_neg Bool.false_ne_true, if_neg hrange] at hany
    refine (bind_of_ok hany).trans ?_
    dsimp only
    rw [if_pos (by omega)]
    show Except.ok (-(d.toInt.natAbs : Int), rest) = _
    rw [show -(d.toInt.natAbs : Int) = d.toInt by omega]
  · rw [decide_eq_false hneg] at hany ⊢
    rw [Bool.not_false, if_pos rfl] at hany
    refine (bind_of_ok hany).trans ?_
    dsimp only
    rw [if_pos (by omega)]
    show Except.ok ((d.toInt.natAbs : Int), rest) = _
    rw [show (d.toInt.natAbs : Int) = d.toInt by omega]

/-- **An integer is taken as its digits.** -/
theorem takes_int64 (d : Int64) : Takes int64 (Bytes.ofText (int64Text d)) d := by
  intro limit rest hlimit hrest
  refine (bind_of_ok (integer_int64Text d limit hrest)).trans ?_
  rw [Int64.ofInt_toInt]
  rfl

end Telemetry.Json.Reader
