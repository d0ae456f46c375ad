import Telemetry.Proofs.Json.Scaled

/-!
# What becomes of a double that is written and read

The document of a finite double is always read, and as a finite double, but not always as the same
one (`Binary64.reread`): `2 ^ 53 - 1` comes back one less. A double that is spelled exactly comes
back as it was (`Binary64.reread_of_spelledExactly`).
-/

namespace Telemetry

namespace Decimal

/-- The document form of the shortest decimal of a finite double is read as it is written. -/
theorem readsAs_shortest {c : Nat} (hc : c < Binary64.infinityCode) :
    Json.Reader.ReadsAs (shortest .toEven c).documentForm (shortest .toEven c).written := by
  have hexponent := shortest_exponent .toEven c
  obtain ⟨hrounds, hfits⟩ := shortest_spec .toEven hc
  have hzero : (shortest .toEven c).digits = 0 → (shortest .toEven c).exponent = 0 := by
    intro h
    by_cases hzero : c = 0
    · rw [hzero]
      rfl
    · exact absurd h (hrounds.digits_pos hzero).ne'
  have hlength : (digitChars (shortest .toEven c).digits).length ≤ 20 :=
    (Nat.length_toDigits_le_iff (by decide) (by decide)).mpr (hfits.trans_le (by decide))
  refine Json.Reader.readsAs_documentForm hzero hfits ?_
  have hlarge : Json.Reader.largestExponent = 2 ^ 31 - 1 := rfl
  omega

end Decimal

open Json.Reader

namespace Binary64

/-- The double that a reader makes of the document of a double. -/
def reread (v : Binary64) : Binary64 :=
  match Json.Reader.parse Json.Reader.real (Bytes.ofText v.document) with
  | .ok x => x
  | .error _ => v

/-- The document of a finite double is its sign and its decimal. -/
theorem ofText_document {v : Binary64} (h : v.isFinite = true)
    (hascii : ∀ c ∈ (Decimal.shortest .toEven v.code).documentForm, c.toNat < 0x80) :
    Bytes.ofText v.document =
      ascii (signed v.isNegative (Decimal.shortest .toEven v.code).documentForm) := by
  rw [← utf8_signed _ hascii]
  unfold document
  rw [if_pos h, Bytes.ofText_ofList]
  rfl

theorem isPresent_document {v : Binary64} (h : v.isFinite = true) :
    IsPresent (Bytes.ofText v.document) := by
  have hreads := Decimal.readsAs_shortest (of_decide_eq_true h)
  obtain ⟨c, hhead, hdigit⟩ := hreads.head
  rw [ofText_document h hreads.ascii]
  obtain ⟨cs, hform⟩ := List.head?_eq_some_iff.mp hhead
  rw [hform]
  exact isPresent_signed _ hdigit cs

/-- **A finite double is taken as its document**, and what is read is a finite double that the
digits and the power of ten in it make. -/
theorem takes_document {v : Binary64} (h : v.isFinite = true) :
    Takes real (Bytes.ofText v.document) v.reread ∧ v.reread.isFinite = true ∧
      realOf v.isNegative (Decimal.shortest .toEven v.code).written.digits
        (Decimal.shortest .toEven v.code).written.exponent = .ok v.reread := by
  have hc : v.code < infinityCode := of_decide_eq_true h
  obtain ⟨b, hb, hscaled⟩ := exists_scaled hc
  have hreal : realOf v.isNegative (Decimal.shortest .toEven v.code).written.digits
      (Decimal.shortest .toEven v.code).written.exponent = .ok (ofCode v.isNegative b) := by
    unfold realOf
    rw [hscaled]
    -- the magnitude is read first and has its sign changed then
    show Except.ok (if v.isNegative then (ofCode false b).neg else ofCode false b) = _
    rw [neg_ofCode hb]
    cases v.isNegative <;> rfl
  have hreads := Decimal.readsAs_shortest hc
  have htakes : Takes real (Bytes.ofText v.document) (ofCode v.isNegative b) := by
    intro limit rest hlimit hrest
    obtain ⟨c, hhead, hdigit⟩ := hreads.head
    have hnumber := hreads.read v.isNegative limit rest hrest
    rw [hreal] at hnumber
    rw [ofText_document h hreads.ascii]
    obtain ⟨cs, hform⟩ := List.head?_eq_some_iff.mp hhead
    rw [hform] at hnumber ⊢
    have hany := (anyNumber_signed "f64" v.isNegative hdigit cs limit rest).trans hnumber
    exact bind_of_ok hany
  have hreread : v.reread = ofCode v.isNegative b := by
    unfold reread
    rw [htakes.parse]
  rw [hreread]
  exact ⟨htakes, isFinite_ofCode hb _, hreal⟩

/-- Whether the digits that a double is written with and the power of ten behind them are doubles
themselves. -/
def spelledExactly (v : Binary64) : Bool :=
  (Decimal.shortest .toEven v.code).written.digits < 2 ^ 53 &&
    (Decimal.shortest .toEven v.code).written.exponent.natAbs ≤ 22

/-- **A finite double that is spelled exactly is read back as itself.** -/
theorem reread_of_spelledExactly {v : Binary64} (h : v.isFinite = true)
    (hexact : v.spelledExactly = true) : v.reread = v := by
  have hc : v.code < infinityCode := of_decide_eq_true h
  obtain ⟨-, -, hread⟩ := takes_document h
  unfold spelledExactly at hexact
  simp only [Bool.and_eq_true, decide_eq_true_eq] at hexact
  have hrounds := (Decimal.shortest_spec .toEven hc).1.written
  unfold Json.Reader.realOf at hread
  rw [Json.Reader.scaled_exact hrounds hc hexact.1 hexact.2] at hread
  have hself : (if v.isNegative then (ofCode false v.code).neg else ofCode false v.code) = v := by
    rw [neg_ofCode hc]
    conv_rhs => rw [← ofCode_code v]
    cases v.isNegative <;> rfl
  exact (Except.ok.inj hread).symm.trans hself

/-- Two tenths are spelled exactly. The largest double below `2 ^ 53` is not, since it is written with
one more digit behind a point, and comes back as its neighbour. -/
example : reread ⟨0x3fc999999999999a⟩ = ⟨0x3fc999999999999a⟩ ∧
    reread ⟨0x433fffffffffffff⟩ = ⟨0x433ffffffffffffe⟩ := by decide +kernel

end Binary64

end Telemetry
