import Telemetry.Proofs.Gzip.Bits

/-!
# The fixed codes

A symbol written in a fixed code is the symbol that is read (`Inflate.symbol_symbolBits`), and a
reference is read with the length and the distance it was written with
(`Inflate.reference_again`). Reading a symbol compares bits with the codes of each length in turn;
`Code.resolve` is that search on a list of bits, which can be computed for every symbol of a code.
-/

namespace Telemetry

namespace Inflate

/-- The symbol whose code these bits are, all of them. The other arguments are those of
`symbolLoop`. -/
def Code.resolve (c : Code) : Nat → Nat → Nat → Nat → List Bool → Option Nat
  | _, _, _, _, [] => none
  | length, code, first, index, x :: rest =>
    let code := code + x.toNat
    let count := c.counts.getD length 0
    if code < first + count then
      if rest.isEmpty then some (c.symbols.getD (index + (code - first)) 0) else none
    else c.resolve (length + 1) (2 * code) (2 * (first + count)) (index + count) rest

theorem symbolLoop_of_resolve {c : Code} {coded more : List Bool} {s : Nat} {fuel : Nat}
    (hfuel : coded.length ≤ fuel) {length code first index : Nat}
    (hresolve : c.resolve length code first index coded = some s) {b : Bits}
    (h : b.Left (coded ++ more)) :
    ∃ b' : Bits, b'.Left more ∧ symbolLoop c fuel length code first index b = .ok (s, b') := by
  induction coded generalizing fuel length code first index b with
  | nil => simp [Code.resolve] at hresolve
  | cons x coded ih =>
    cases fuel with
    | zero => simp at hfuel
    | succ fuel =>
      obtain ⟨b₁, (h₁ : b₁.Left (coded ++ more)), hbit⟩ := h.bit
      rw [Code.resolve] at hresolve
      rw [symbolLoop, hbit]
      show ∃ b' : Bits, b'.Left more ∧
        (if code + x.toNat < first + c.counts.getD length 0 then
          .ok (c.symbols.getD (index + (code + x.toNat - first)) 0, b₁)
        else symbolLoop c fuel (length + 1) (2 * (code + x.toNat))
          (2 * (first + c.counts.getD length 0)) (index + c.counts.getD length 0) b₁) = _
      split at hresolve
      next hfound =>
        rw [if_pos hfound]
        split at hresolve
        next hend =>
          rw [List.isEmpty_iff.mp hend, List.nil_append] at h₁
          rw [Option.some.inj hresolve]
          exact ⟨b₁, h₁, rfl⟩
        next => cases hresolve
      next hfound =>
        rw [if_neg hfound]
        exact ih (Nat.le_of_succ_le_succ hfuel) hresolve h₁

end Inflate

/-! ## Symbols -/

namespace Deflate

/-- The bits of a symbol in the fixed code of literals and lengths. -/
def symbolBits (s : Nat) : List Bool :=
  if s < 144 then codeBits 8 (0x30 + s)
  else if s < 256 then codeBits 9 (0x190 + (s - 144))
  else if s < 280 then codeBits 7 (s - 256)
  else codeBits 8 (0xc0 + (s - 280))

@[simp] theorem length_codeBits (n code : Nat) : (codeBits n code).length = n := by
  rw [codeBits, List.length_reverse, lowBits.length_eq]

theorem symbolBits_bounds (s : Nat) :
    1 ≤ (symbolBits s).length ∧ (symbolBits s).length ≤ 9 ∧
      (256 ≤ s → (symbolBits s).length ≤ 8) := by
  unfold symbolBits
  split_ifs <;> rw [length_codeBits] <;> omega

theorem Writer.Wrote.putSymbol {w : Writer} {written : List Bool} (h : w.Wrote written) (s : Nat) :
    (w.putSymbol s).Wrote (written ++ symbolBits s) := by
  unfold Writer.putSymbol symbolBits
  split_ifs <;> exact h.putCode (by decide) _

end Deflate

namespace Inflate

theorem resolve_fixedLiterals :
    ∀ s < 288, fixedLiterals.resolve 1 0 0 0 (Deflate.symbolBits s) = some s := by
  decide +kernel

theorem resolve_fixedDistances :
    ∀ s < 30, fixedDistances.resolve 1 0 0 0 (codeBits 5 s) = some s := by
  decide +kernel

variable {b : Bits} {more : List Bool}

/-- **A symbol is read as it was written.** -/
theorem symbol_symbolBits {s : Nat} (hs : s < 288) (h : b.Left (Deflate.symbolBits s ++ more)) :
    ∃ b' : Bits, b'.Left more ∧ symbol fixedLiterals b = .ok (s, b') :=
  symbolLoop_of_resolve
    ((Deflate.symbolBits_bounds s).2.1.trans (by decide : 9 ≤ longestCode))
    (resolve_fixedLiterals s hs) h

/-- So is that of a distance. -/
theorem symbol_codeBits {s : Nat} (hs : s < 30) (h : b.Left (codeBits 5 s ++ more)) :
    ∃ b' : Bits, b'.Left more ∧ symbol fixedDistances b = .ok (s, b') :=
  symbolLoop_of_resolve ((Deflate.length_codeBits 5 s).trans_le (by decide : 5 ≤ longestCode))
    (resolve_fixedDistances s hs) h

end Inflate

/-! ## References -/

namespace Deflate

/-- What the symbol of a length and its extra bits add up to. -/
theorem lengthSymbol_spec : ∀ n < 259, 3 ≤ n →
    256 < (lengthSymbol n).1 ∧ (lengthSymbol n).1 < 288 ∧
      ((lengthSymbol n).2.1 ≤ 5 ∧ (lengthSymbol n).2.1 + 3 ≤ n) ∧
      (lengthSymbol n).2.2 < 2 ^ (lengthSymbol n).2.1 ∧
      Inflate.lengthExtra[(lengthSymbol n).1 - 257]? = some (lengthSymbol n).2.1 ∧
      Inflate.lengthBase[(lengthSymbol n).1 - 257]? = some (n - (lengthSymbol n).2.2) ∧
      (lengthSymbol n).2.2 ≤ n := by
  decide +kernel

/-- The rows of the table of distances: two for each number of extra bits from one on. -/
theorem distance_row : ∀ extra < 14, ∀ half < 4, 1 ≤ extra ∧ 2 ≤ half →
    Inflate.distanceExtra[2 * extra + half]? = some extra ∧
      Inflate.distanceBase[2 * extra + half]? = some (half * 2 ^ extra + 1) := by
  decide

/-- What the symbol of a distance and its extra bits add up to. -/
theorem distanceSymbol_spec {n : Nat} (hpos : 1 ≤ n) (hn : n ≤ farthestMatch) :
    (distanceSymbol n).1 < 30 ∧ (distanceSymbol n).2.1 ≤ 13 ∧
      (distanceSymbol n).2.2 < 2 ^ (distanceSymbol n).2.1 ∧
      Inflate.distanceExtra[(distanceSymbol n).1]? = some (distanceSymbol n).2.1 ∧
      ∃ base, Inflate.distanceBase[(distanceSymbol n).1]? = some base ∧
        base + (distanceSymbol n).2.2 = n := by
  unfold distanceSymbol
  split
  next hsmall =>
    have hrows : ∀ m < 5, 1 ≤ m → m - 1 < 30 ∧ Inflate.distanceExtra[m - 1]? = some 0 ∧
        Inflate.distanceBase[m - 1]? = some m := by decide
    obtain ⟨hsymbol, hextra, hbase⟩ := hrows n hsmall hpos
    exact ⟨hsymbol, Nat.zero_le 13, Nat.one_pos, hextra, n, hbase, Nat.add_zero n⟩
  next hlarge =>
    dsimp only
    -- the two highest bits of `n - 1` choose the symbol, the others follow it
    have hne : n - 1 ≠ 0 := by omega
    have hlog : 2 ≤ Nat.log2 (n - 1) := (Nat.le_log2 hne).mpr (by omega)
    have hfar : Nat.log2 (n - 1) < 15 := (Nat.log2_lt hne).mpr (by
      unfold farthestMatch at hn
      omega)
    obtain ⟨extra, hextra⟩ : ∃ extra, Nat.log2 (n - 1) = extra + 1 :=
      ⟨Nat.log2 (n - 1) - 1, by omega⟩
    have hlow : 2 ^ extra * 2 ≤ n - 1 := by
      have hle := Nat.log2_self_le hne
      rwa [hextra, Nat.pow_succ] at hle
    have hhigh : n - 1 < 2 ^ extra * 4 := by
      have hlt := Nat.lt_log2_self (n := n - 1)
      rw [hextra, Nat.pow_succ, Nat.pow_succ] at hlt
      omega
    have hhalf : 2 ≤ (n - 1) / 2 ^ extra ∧ (n - 1) / 2 ^ extra < 4 := by
      constructor
      · exact (Nat.le_div_iff_mul_le (Nat.two_pow_pos extra)).mpr (by omega)
      · exact (Nat.div_lt_iff_lt_mul (Nat.two_pow_pos extra)).mpr (by omega)
    obtain ⟨hrow, hbase⟩ := distance_row extra (by omega) _ hhalf.2 ⟨by omega, hhalf.1⟩
    rw [hextra, Nat.add_sub_cancel, Nat.shiftRight_eq_div_pow, Nat.one_shiftLeft]
    refine ⟨by omega, by omega, Nat.mod_lt _ (Nat.two_pow_pos extra), hrow, _, hbase, ?_⟩
    have hdivmod := Nat.div_add_mod' (n - 1) (2 ^ extra)
    omega

namespace Token

/-- Whether a token can be written: the lengths and distances of references are bounded. -/
def IsSound : Token → Prop
  | .literal _ => True
  | .again n distance => (3 ≤ n ∧ n < 259) ∧ 1 ≤ distance ∧ distance ≤ farthestMatch

/-- The bits of a token. -/
def toBits : Token → List Bool
  | .literal b => symbolBits b.toNat
  | .again n distance =>
    symbolBits (lengthSymbol n).1 ++
      (lowBits (lengthSymbol n).2.1 (lengthSymbol n).2.2 ++
        (codeBits 5 (distanceSymbol distance).1 ++
          lowBits (distanceSymbol distance).2.1 (distanceSymbol distance).2.2))

/-- A byte takes nine bits at most. -/
theorem toBits_bounds {t : Token} (h : t.IsSound) :
    1 ≤ t.toBits.length ∧ t.toBits.length ≤ 9 * t.size := by
  cases t with
  | literal b =>
    have hbits := symbolBits_bounds b.toNat
    exact ⟨hbits.1, hbits.2.1⟩
  | again n distance =>
    obtain ⟨⟨hlow, hhigh⟩, hpos, hfar⟩ := h
    obtain ⟨hsymbol, -, hextra, -⟩ := lengthSymbol_spec n hhigh hlow
    obtain ⟨-, hextra', -⟩ := distanceSymbol_spec hpos hfar
    have hbits := symbolBits_bounds (lengthSymbol n).1
    have hshort := hbits.2.2 hsymbol.le
    simp only [toBits, List.length_append, lowBits.length_eq, length_codeBits, size]
    omega

end Token

theorem Writer.Wrote.putToken {w : Writer} {written : List Bool} (h : w.Wrote written)
    {t : Token} (ht : t.IsSound) : (w.putToken t).Wrote (written ++ t.toBits) := by
  cases t with
  | literal b => exact h.putSymbol b.toNat
  | again n distance =>
    obtain ⟨⟨hlow, hhigh⟩, hpos, hfar⟩ := ht
    obtain ⟨-, -, hextra, hvalue, -⟩ := lengthSymbol_spec n hhigh hlow
    obtain ⟨-, hextra', hvalue', -⟩ := distanceSymbol_spec hpos hfar
    rw [Token.toBits, ← List.append_assoc, ← List.append_assoc, ← List.append_assoc]
    have hlength := (h.putSymbol (lengthSymbol n).1).put (by omega) hvalue
    have hcode := hlength.putCode (by decide : 5 ≤ 24) (distanceSymbol distance).1
    have hfits : (distanceSymbol distance).2.1 ≤ 24 := by omega
    exact hcode.put hfits hvalue'

end Deflate

/-- **A reference is read as it was written**: as long, and as far back. -/
theorem Inflate.reference_again {b : Bits} {more : List Bool} {n distance : Nat}
    (h : (Deflate.Token.again n distance).IsSound)
    (hleft : b.Left (lowBits (Deflate.lengthSymbol n).2.1 (Deflate.lengthSymbol n).2.2 ++
      (codeBits 5 (Deflate.distanceSymbol distance).1 ++
        lowBits (Deflate.distanceSymbol distance).2.1 (Deflate.distanceSymbol distance).2.2) ++
      more)) :
    ∃ b' : Bits, b'.Left more ∧
      codedLoop.reference fixedDistances (Deflate.lengthSymbol n).1 b =
        .ok ((n, distance), b') := by
  obtain ⟨⟨hlow, hhigh⟩, hpos, hfar⟩ := h
  obtain ⟨-, -, -, hvalue, hextra, hbase, hle⟩ := Deflate.lengthSymbol_spec n hhigh hlow
  obtain ⟨hsymbol, -, hvalue', hextra', base, hbase', hsum⟩ := Deflate.distanceSymbol_spec hpos hfar
  rw [List.append_assoc, List.append_assoc] at hleft
  obtain ⟨b₁, h₁, hmore⟩ := hleft.bits hvalue
  obtain ⟨b₂, h₂, hdistance⟩ := symbol_codeBits hsymbol h₁
  obtain ⟨b₃, h₃, hbeyond⟩ := h₂.bits hvalue'
  refine ⟨b₃, h₃, ?_⟩
  unfold codedLoop.reference
  simp only [hbase, hextra, hmore, hdistance, hbase', hextra', hbeyond, bind, Except.bind]
  rw [Nat.sub_add_cancel hle, hsum]
  rfl

end Telemetry
