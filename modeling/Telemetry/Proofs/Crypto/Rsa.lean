import Mathlib.Data.Nat.ChineseRemainder
import Mathlib.FieldTheory.Finite.Basic
import Telemetry.Crypto.Rsa

/-!
# Secrets under a public key come back under its private key

A private key opens what is wrapped for a public key if it carries that key and its primes are two
(`Rsa.PrivateKey.Opens`): by Fermat's little theorem the two exponents undo each other modulo both
primes (`Rsa.pow_modEq_self`), so modulo their product. The block that carries a secret is smaller
than the modulus because it begins with a zero, and it is read back byte for byte. So a secret that
the modulus has room for is wrapped and unwrapped (`Rsa.unwrap_wrap`).
-/

namespace Telemetry

/-! ## Numbers and their bytes -/

namespace Der

theorem foldl_number (b : Bytes) (n : Nat) :
    b.foldl (fun n x => n * 256 + x.toNat) n = n * 256 ^ b.length + number b := by
  unfold number
  induction b generalizing n with
  | nil => simp
  | cons x b ih =>
    rw [List.foldl_cons, List.foldl_cons, ih, ih (0 * 256 + x.toNat), List.length_cons]
    ring

theorem number_cons (x : UInt8) (b : Bytes) :
    number (x :: b) = x.toNat * 256 ^ b.length + number b := by
  show b.foldl (fun n x => n * 256 + x.toNat) (0 * 256 + x.toNat) = _
  rw [foldl_number, Nat.zero_mul, Nat.zero_add]

theorem number_concat (b : Bytes) (x : UInt8) : number (b ++ [x]) = number b * 256 + x.toNat :=
  List.foldl_concat ..

theorem number_lt (b : Bytes) : number b < 256 ^ b.length := by
  induction b with
  | nil => exact Nat.one_pos
  | cons x b ih =>
    have hx : (x.toNat + 1) * 256 ^ b.length ≤ 256 * 256 ^ b.length :=
      Nat.mul_le_mul_right _ x.toNat_lt
    rw [number_cons, List.length_cons, Nat.pow_succ']
    rw [Nat.add_mul, Nat.one_mul] at hx
    omega

end Der

namespace Rsa

@[simp] theorem length_bytesOf (count n : Nat) : (bytesOf count n).length = count := by
  rw [bytesOf, List.length_map, List.length_range]

theorem bytesOf_succ (count n : Nat) :
    bytesOf (count + 1) n = bytesOf count (n / 256) ++ [n.toUInt8] := by
  unfold bytesOf
  rw [List.range_succ, List.map_append, List.map_singleton]
  congr 1
  · refine List.map_congr_left fun i hi => ?_
    have hi' := List.mem_range.mp hi
    have hplace : 8 * (count + 1 - 1 - i) = 8 * (count - 1 - i) + 8 := by omega
    rw [hplace, Nat.shiftRight_eq_div_pow, Nat.shiftRight_eq_div_pow, Nat.pow_add,
      Nat.mul_comm (2 ^ _), ← Nat.div_div_eq_div_mul]
  · rw [Nat.add_sub_cancel, Nat.sub_self]
    exact congrArg (fun x => [x]) (UInt8.toNat.inj (Nat.mod_mod n 256))

theorem number_bytesOf (count n : Nat) : Der.number (bytesOf count n) = n % 256 ^ count := by
  induction count generalizing n with
  | zero => exact (Nat.mod_one n).symm
  | succ count ih =>
    have hlast : n.toUInt8.toNat = n % 256 := rfl
    rw [bytesOf_succ, Der.number_concat, ih, hlast, Nat.pow_succ', Nat.mod_mul, Nat.add_comm,
      Nat.mul_comm]

theorem bytesOf_number (b : Bytes) : bytesOf b.length (Der.number b) = b := by
  induction b using List.reverseRecOn with
  | nil => rfl
  | append_singleton b x ih =>
    have hx := x.toNat_lt
    have hlast : (Der.number b * 256 + x.toNat).toUInt8 = x := by
      refine UInt8.toNat.inj ?_
      show (Der.number b * 256 + x.toNat) % 256 = x.toNat
      omega
    have hfront : (Der.number b * 256 + x.toNat) / 256 = Der.number b := by omega
    rw [List.length_append, List.length_singleton, bytesOf_succ, Der.number_concat, hlast, hfront,
      ih]

/-- A number has as many bytes as its size says. -/
theorem size_bounds {k : PublicKey} (h : k.modulus ≠ 0) :
    256 ^ (k.size - 1) ≤ k.modulus ∧ k.modulus < 256 ^ k.size := by
  have hlow := Nat.log2_self_le h
  have hhigh := Nat.lt_log2_self (n := k.modulus)
  have hbytes : ∀ n, 256 ^ n = 2 ^ (8 * n) := fun n => Nat.pow_mul 2 8 n ▸ rfl
  unfold PublicKey.size bitLength
  rw [if_neg h, hbytes, hbytes]
  exact ⟨(Nat.pow_le_pow_right Nat.two_pos (by omega)).trans hlow,
    hhigh.trans_le (Nat.pow_le_pow_right Nat.two_pos (by omega))⟩

/-! ## Powers -/

theorem powerMod_eq (base exponent modulus : Nat) :
    powerMod base exponent modulus = base ^ exponent % modulus := by
  induction exponent using Nat.strongRecOn generalizing base with
  | ind exponent ih =>
    rw [powerMod]
    split
    next hzero => rw [hzero, Nat.pow_zero]
    next hpos =>
      have hhalf : powerMod (base * base % modulus) (exponent / 2) modulus =
          base ^ (2 * (exponent / 2)) % modulus := by
        rw [ih _ (by omega), ← Nat.pow_mod, Nat.pow_mul, Nat.pow_two]
      dsimp only
      rw [hhalf]
      split
      next hodd =>
        have hsplit : exponent = 2 * (exponent / 2) + 1 := by omega
        conv_rhs => rw [hsplit, Nat.pow_succ']
        rw [Nat.mul_mod_mod]
      next heven =>
        have hsplit : exponent = 2 * (exponent / 2) := by omega
        rw [← hsplit]

/-- **Fermat's little theorem** for an exponent that is one more than a multiple of what it takes to
come round. -/
theorem pow_modEq_self {p n : Nat} (hp : p.Prime) (h : n % (p - 1) = 1) (a : Nat) :
    a ^ n ≡ a [MOD p] := by
  have := Fact.mk hp
  rw [← ZMod.natCast_eq_natCast_iff, Nat.cast_pow]
  by_cases ha : (a : ZMod p) = 0
  · rw [ha, zero_pow]
    rintro rfl
    rw [Nat.zero_mod] at h
    cases h
  · rw [← Nat.div_add_mod n (p - 1), h, pow_add, pow_mul, ZMod.pow_card_sub_one_eq_one ha, one_pow,
      one_mul, pow_one]

/-- Whether a private key is that of a public key: it carries it, and its primes are two. -/
structure PrivateKey.Opens (k : PrivateKey) (pub : PublicKey) : Prop where
  toPublic_eq : k.toPublic = pub
  exists_primes : ∃ p q : Nat, p.Prime ∧ q.Prime ∧ p ≠ q ∧ k.isSound p q = true

namespace PrivateKey.Opens

variable {k : PrivateKey} {pub : PublicKey}

/-- The two exponents undo each other. -/
theorem pow_pow_mod (h : k.Opens pub) {m : Nat} (hm : m < pub.modulus) :
    (m ^ pub.exponent % pub.modulus) ^ k.secret % pub.modulus = m := by
  obtain ⟨rfl, p, q, hp, hq, hne, hsound⟩ := h
  unfold PrivateKey.isSound at hsound
  simp only [Bool.and_eq_true, decide_eq_true_eq] at hsound
  obtain ⟨⟨⟨-, hproduct⟩, hfirst⟩, hsecond⟩ := hsound
  have hcoprime : p.Coprime q := (Nat.coprime_primes hp hq).mpr hne
  have hboth : m ^ (k.toPublic.exponent * k.secret) ≡ m [MOD k.toPublic.modulus] := by
    rw [← hproduct]
    exact (Nat.modEq_and_modEq_iff_modEq_mul hcoprime).mp
      ⟨pow_modEq_self hp hfirst m, pow_modEq_self hq hsecond m⟩
  rw [← Nat.pow_mod, ← Nat.pow_mul, hboth, Nat.mod_eq_of_lt hm]

theorem modulus_ne_zero (h : k.Opens pub) : pub.modulus ≠ 0 := by
  obtain ⟨rfl, p, q, hp, hq, -, hsound⟩ := h
  unfold PrivateKey.isSound at hsound
  simp only [Bool.and_eq_true, decide_eq_true_eq] at hsound
  rw [← hsound.1.1.2]
  exact Nat.mul_ne_zero hp.ne_zero hq.ne_zero

end PrivateKey.Opens

/-! ## Blocks -/

/-- The secret of a block is what stands behind its filler. -/
theorem secretOf_block {random : Bytes} (hrandom : ∀ x ∈ random, x ≠ 0)
    (hlong : 8 ≤ random.length) (secret : Bytes) :
    secretOf (0 :: 2 :: (random ++ 0 :: secret)) = some secret := by
  have hfiller : (random ++ 0 :: secret).takeWhile (· ≠ 0) = random := by
    rw [List.takeWhile_append_of_pos (by simpa using hrandom),
      List.takeWhile_cons_of_neg (by simp), List.append_nil]
  rw [secretOf, hfiller, if_neg, List.drop_append, List.drop_of_length_le (Nat.le_succ _),
    Nat.add_sub_cancel_left]
  · rfl
  · rw [List.length_append, List.length_cons]
    omega

/-- A block is smaller than a modulus of its length. -/
theorem number_block_lt {pub : PublicKey} (hmodulus : pub.modulus ≠ 0) {rest : Bytes}
    (hlength : (0 :: 2 :: rest).length = pub.size) :
    Der.number (0 :: 2 :: rest) < pub.modulus := by
  have hrest := Der.number_lt rest
  have hsize : pub.size - 1 = rest.length + 1 := by
    rw [← hlength]
    rfl
  refine Nat.lt_of_lt_of_le ?_ (size_bounds hmodulus).1
  rw [hsize, Der.number_cons, Der.number_cons, Nat.pow_succ']
  show 0 * _ + (2 * _ + _) < _
  omega

/-- **A secret that a modulus has room for comes back**, if there are bytes enough to fill the block
up with, and none of them is zero. -/
theorem unwrap_wrap {k : PrivateKey} {pub : PublicKey} (h : k.Opens pub) {filler : Bytes}
    (hfiller : ∀ x ∈ filler, x ≠ 0) (secret : Bytes)
    (hlong : pub.size ≤ filler.length + secret.length + 3)
    (hroom : secret.length + 11 ≤ pub.size) :
    ∃ block, wrap pub filler secret = some block ∧ block.length = pub.size ∧
      unwrap k block = some secret := by
  have hmodulus := h.modulus_ne_zero
  have hrandom : (filler.take (pub.size - secret.length - 3)).length =
      pub.size - secret.length - 3 := List.length_take_of_le (by omega)
  have hplain : ∀ x ∈ filler.take (pub.size - secret.length - 3), x ≠ 0 := fun x hx =>
    hfiller x (List.mem_of_mem_take hx)
  refine ⟨_, if_neg (Nat.not_lt.mpr hroom), length_bytesOf _ _, ?_⟩
  generalize filler.take (pub.size - secret.length - 3) = random at hrandom hplain
  have hlength : (0 :: 2 :: (random ++ 0 :: secret)).length = pub.size := by
    rw [List.length_cons, List.length_cons, List.length_append, List.length_cons]
    omega
  have hnumber := number_block_lt hmodulus hlength
  have hcipher : ∀ c, Der.number (bytesOf pub.size (c % pub.modulus)) = c % pub.modulus := by
    intro c
    rw [number_bytesOf]
    exact Nat.mod_eq_of_lt ((Nat.mod_lt c (Nat.pos_of_ne_zero hmodulus)).trans
      (size_bounds hmodulus).2)
  unfold unwrap
  simp only [powerMod_eq, hcipher, h.toPublic_eq]
  rw [if_neg (Nat.not_le.mpr (Nat.mod_lt _ (Nat.pos_of_ne_zero hmodulus))),
    h.pow_pow_mod hnumber, if_neg (not_not_intro rfl), ← hlength, bytesOf_number]
  exact secretOf_block hplain (by omega) secret

end Rsa

end Telemetry
