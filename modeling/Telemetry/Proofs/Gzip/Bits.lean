import Mathlib.Tactic.Ring
import Telemetry.Gzip.Deflate
import Telemetry.Gzip.Inflate

/-!
# Streams of bits

What is written bit by bit and what is read bit by bit are both lists of bits: a writer is the bits
that were put into it (`Deflate.Writer.Wrote`), a reader the bits that it has left
(`Inflate.Bits.Left`). A number of some bits and a code, whose highest bit comes first, are put
behind what was written; bits in front are what is read next. A reader is never ahead by more than
seven bits, so the bytes that follow a stream are found behind what fills up its last byte
(`Inflate.Bits.Left.aligned_eq`).
-/

namespace Telemetry

/-- The `n` lowest bits of a number, the lowest first. -/
def lowBits : Nat → Nat → List Bool
  | 0, _ => []
  | n + 1, value => decide (value % 2 = 1) :: lowBits n (value / 2)

namespace lowBits

@[simp] theorem length_eq (n value : Nat) : (lowBits n value).length = n := by
  induction n generalizing value with
  | zero => rfl
  | succ n ih => rw [lowBits, List.length_cons, ih]

/-- A number on top of one of `m` bits. -/
theorem add_mul {m a : Nat} (n b : Nat) (h : a < 2 ^ m) :
    lowBits (m + n) (a + b * 2 ^ m) = lowBits m a ++ lowBits n b := by
  induction m generalizing a with
  | zero =>
    obtain rfl : a = 0 := by simpa using h
    simp [lowBits]
  | succ m ih =>
    rw [Nat.pow_succ] at h
    have hdouble : b * 2 ^ (m + 1) = 2 * (b * 2 ^ m) := by ring
    have hlow : (a + b * 2 ^ (m + 1)) % 2 = a % 2 := by omega
    have hhigh : (a + b * 2 ^ (m + 1)) / 2 = a / 2 + b * 2 ^ m := by omega
    rw [Nat.add_right_comm, lowBits, hlow, hhigh, ih (by omega)]
    rfl

theorem split (m n value : Nat) :
    lowBits (m + n) value = lowBits m value ++ lowBits n (value / 2 ^ m) := by
  induction m generalizing value with
  | zero => simp [lowBits]
  | succ m ih =>
    rw [Nat.add_right_comm, lowBits, ih, Nat.div_div_eq_div_mul, ← Nat.pow_succ']
    rfl

theorem mod_eq (n value : Nat) : lowBits n (value % 2 ^ n) = lowBits n value := by
  have hsplit := add_mul n (value / 2 ^ n) (Nat.mod_lt value (Nat.two_pow_pos n))
  rw [Nat.mod_add_div', split n n value] at hsplit
  exact (List.append_cancel_right hsplit).symm

theorem zero_eq (n : Nat) : lowBits n 0 = List.replicate n false := by
  induction n with
  | zero => rfl
  | succ n ih =>
    rw [lowBits, Nat.zero_div, ih]
    rfl

theorem injective {n a b : Nat} (ha : a < 2 ^ n) (hb : b < 2 ^ n)
    (h : lowBits n a = lowBits n b) : a = b := by
  induction n generalizing a b with
  | zero => omega
  | succ n ih =>
    rw [lowBits, lowBits, List.cons.injEq, decide_eq_decide] at h
    rw [Nat.pow_succ] at ha hb
    have htail := ih (by omega) (by omega) h.2
    have hhead := h.1
    omega

end lowBits

/-- The bits of bytes, the lowest of each byte first. -/
def Bytes.toBits (b : Bytes) : List Bool := b.flatMap fun x => lowBits 8 x.toNat

namespace Bytes

@[simp] theorem toBits_append (a b : Bytes) : toBits (a ++ b) = toBits a ++ toBits b :=
  List.flatMap_append

@[simp] theorem length_toBits (b : Bytes) : (toBits b).length = 8 * b.length := by
  induction b with
  | nil => rfl
  | cons x b ih =>
    show (lowBits 8 x.toNat ++ toBits b).length = _
    rw [List.length_append, ih, lowBits.length_eq, List.length_cons]
    ring

theorem toBits_injective {a b : Bytes} (h : toBits a = toBits b) : a = b := by
  induction a generalizing b with
  | nil =>
    cases b with
    | nil => rfl
    | cons y b => simpa using congrArg List.length h
  | cons x a ih =>
    cases b with
    | nil => simpa using congrArg List.length h
    | cons y b =>
      have hcons : lowBits 8 x.toNat ++ toBits a = lowBits 8 y.toNat ++ toBits b := h
      obtain ⟨hhead, htail⟩ := List.append_inj hcons (by simp)
      have hbyte := lowBits.injective x.toNat_lt y.toNat_lt hhead
      rw [UInt8.toNat.inj hbyte, ih htail]

end Bytes

/-- The bits of a code of `n` bits, the highest first. -/
def codeBits (n code : Nat) : List Bool := (lowBits n code).reverse

/-! ## Writing -/

namespace Deflate

theorem reversed_lt (n value : Nat) : reversed n value < 2 ^ n := by
  induction n generalizing value with
  | zero => simp [reversed]
  | succ n ih =>
    have htail := ih (value / 2)
    have hbit : value % 2 * 2 ^ n ≤ 1 * 2 ^ n := Nat.mul_le_mul_right _ (by omega)
    rw [reversed, Nat.shiftLeft_eq, Nat.pow_succ]
    omega

theorem lowBits_reversed (n code : Nat) : lowBits n (reversed n code) = codeBits n code := by
  induction n generalizing code with
  | zero => rfl
  | succ n ih =>
    rw [reversed, Nat.shiftLeft_eq, Nat.add_comm (code % 2 * 2 ^ n),
      lowBits.add_mul 1 _ (reversed_lt n _), ih]
    show _ ++ [decide (code % 2 % 2 = 1)] =
      (decide (code % 2 = 1) :: lowBits n (code / 2)).reverse
    rw [List.reverse_cons, Nat.mod_mod, codeBits]

/-- A writer into which these bits were put. -/
structure Writer.Wrote (w : Writer) (written : List Bool) : Prop where
  toBits_eq : Bytes.toBits w.soFar.reverse ++ lowBits w.count w.held = written
  held_lt : w.held < 2 ^ w.count
  count_lt : w.count < 8

/-- Filled bytes are moved out and no bit changes. -/
theorem flush_toBits (fuel : Nat) {w : Writer} (hheld : w.held < 2 ^ w.count)
    (hcount : w.count < 8 * (fuel + 1)) :
    (flush fuel w).Wrote (Bytes.toBits w.soFar.reverse ++ lowBits w.count w.held) := by
  induction fuel generalizing w with
  | zero => exact ⟨rfl, hheld, hcount⟩
  | succ fuel ih =>
    rw [flush]
    split
    next hfull =>
      obtain ⟨more, hmore⟩ := Nat.exists_eq_add_of_le hfull
      have hout : w.held.toUInt8.toNat = w.held % 2 ^ 8 := rfl
      have hrest : w.held / 256 < 2 ^ (w.count - 8) := by
        rw [hmore, Nat.pow_add] at hheld
        rw [hmore, Nat.add_sub_cancel_left]
        exact Nat.div_lt_of_lt_mul hheld
      have hw := ih (w := ⟨w.held / 256, w.count - 8, w.held.toUInt8 :: w.soFar⟩) hrest
        (by dsimp only; omega)
      have hbits : Bytes.toBits (w.held.toUInt8 :: w.soFar).reverse ++
          lowBits (w.count - 8) (w.held / 256) =
          Bytes.toBits w.soFar.reverse ++ lowBits w.count w.held := by
        rw [List.reverse_cons, Bytes.toBits_append, List.append_assoc, hmore,
          Nat.add_sub_cancel_left, lowBits.split 8 more]
        show _ ++ (lowBits 8 w.held.toUInt8.toNat ++ [] ++ _) = _
        rw [hout, lowBits.mod_eq, List.append_nil]
        rfl
      rwa [hbits] at hw
    next hfull => exact ⟨rfl, hheld, by omega⟩

namespace Writer.Wrote

variable {w : Writer} {written : List Bool}

theorem put (h : w.Wrote written) {n value : Nat} (hn : n ≤ 24) (hvalue : value < 2 ^ n) :
    (w.put n value).Wrote (written ++ lowBits n value) := by
  have hheld : w.held + value * 2 ^ w.count < 2 ^ (w.count + n) := by
    have hvalue' : (value + 1) * 2 ^ w.count ≤ 2 ^ n * 2 ^ w.count :=
      Nat.mul_le_mul_right _ hvalue
    rw [Nat.add_comm w.count n, Nat.pow_add]
    have hlow := h.held_lt
    rw [Nat.add_mul, Nat.one_mul] at hvalue'
    omega
  have hflush := flush_toBits 4 (w := ⟨w.held + value <<< w.count, w.count + n, w.soFar⟩)
    (by rw [Nat.shiftLeft_eq]; exact hheld) (by have := h.count_lt; dsimp only; omega)
  dsimp only at hflush
  rw [Nat.shiftLeft_eq, lowBits.add_mul n value h.held_lt, ← List.append_assoc,
    h.toBits_eq] at hflush
  unfold Writer.put
  rwa [Nat.shiftLeft_eq]

theorem putCode (h : w.Wrote written) {n : Nat} (hn : n ≤ 24) (code : Nat) :
    (w.putCode n code).Wrote (written ++ codeBits n code) := by
  rw [← lowBits_reversed]
  exact h.put hn (reversed_lt n code)

/-- The bytes of what was written: the last one is filled up with zeros. -/
theorem toBits_finish (h : w.Wrote written) :
    ∃ fill < 8, Bytes.toBits
      (if 0 < w.count then w.held.toUInt8 :: w.soFar else w.soFar).reverse =
        written ++ List.replicate fill false := by
  have hcount := h.count_lt
  split
  next hpos =>
    obtain ⟨fill, hfill⟩ := Nat.exists_eq_add_of_lt hcount
    refine ⟨fill + 1, by omega, ?_⟩
    have hbyte : w.held.toUInt8.toNat = w.held :=
      Nat.mod_eq_of_lt (h.held_lt.trans_le (Nat.pow_le_pow_right Nat.two_pos hcount.le))
    have hbits : lowBits 8 w.held = lowBits w.count w.held ++ List.replicate (fill + 1) false := by
      rw [hfill, Nat.add_assoc, lowBits.split, Nat.div_eq_of_lt h.held_lt, lowBits.zero_eq]
    rw [List.reverse_cons, Bytes.toBits_append]
    show _ ++ (lowBits 8 w.held.toUInt8.toNat ++ []) = _
    rw [hbyte, hbits, List.append_nil, ← List.append_assoc, h.toBits_eq]
  next hpos =>
    refine ⟨0, by omega, ?_⟩
    rw [← h.toBits_eq, Nat.eq_zero_of_not_pos hpos]
    simp [lowBits]

end Writer.Wrote

end Deflate

/-! ## Reading -/

namespace Inflate

/-- A reader that has these bits left, and not a whole byte of them taken. -/
structure Bits.Left (b : Bits) (left : List Bool) : Prop where
  toBits_eq : lowBits b.count b.held ++ Bytes.toBits b.rest = left
  count_lt : b.count < 8

namespace Bits.Left

theorem start (input : Bytes) : Bits.Left ⟨0, 0, input⟩ (Bytes.toBits input) :=
  ⟨rfl, Nat.zero_lt_succ 7⟩

variable {b : Bits} {more : List Bool}

/-- One bit is taken. -/
theorem takeBits_succ {x : Bool} (h : b.Left (x :: more)) (n weight value : Nat) :
    ∃ b' : Bits, b'.Left more ∧
      takeBits (n + 1) weight value b = takeBits n (2 * weight) (value + x.toNat * weight) b' := by
  obtain ⟨held, count, rest⟩ := b
  obtain ⟨hleft, hcount⟩ := h
  dsimp only at hleft hcount
  cases count with
  | succ count =>
    rw [lowBits, List.cons_append, List.cons.injEq] at hleft
    refine ⟨⟨held / 2, count, rest⟩, ⟨hleft.2, by dsimp only; omega⟩, ?_⟩
    have hbit : x.toNat = held % 2 := by
      rw [← hleft.1]
      rcases Nat.mod_two_eq_zero_or_one held with hmod | hmod <;> simp [hmod]
    rw [takeBits, if_pos (Nat.succ_pos count), hbit]
    rfl
  | zero =>
    cases rest with
    | nil => simp [lowBits, Bytes.toBits] at hleft
    | cons y rest =>
      have hcons : decide (y.toNat % 2 = 1) :: (lowBits 7 (y.toNat / 2) ++ Bytes.toBits rest) =
          x :: more := hleft
      rw [List.cons.injEq] at hcons
      refine ⟨⟨y.toNat / 2, 7, rest⟩, ⟨hcons.2, Nat.lt_succ_self 7⟩, ?_⟩
      have hbit : x.toNat = y.toNat % 2 := by
        rw [← hcons.1]
        rcases Nat.mod_two_eq_zero_or_one y.toNat with hmod | hmod <;> simp [hmod]
      rw [takeBits, if_neg (Nat.lt_irrefl 0), hbit]

theorem takeBits (n number : Nat) (h : b.Left (lowBits n number ++ more)) (weight value : Nat) :
    ∃ b' : Bits, b'.Left more ∧
      takeBits n weight value b = .ok (value + number % 2 ^ n * weight, b') := by
  induction n generalizing b number weight value with
  | zero => exact ⟨b, h, by simp [Inflate.takeBits, Nat.mod_one]⟩
  | succ n ih =>
    obtain ⟨b₁, h₁, hfirst⟩ := takeBits_succ h n weight value
    obtain ⟨b₂, h₂, hrest⟩ := ih (number / 2) h₁ (2 * weight)
      (value + (decide (number % 2 = 1)).toNat * weight)
    refine ⟨b₂, h₂, ?_⟩
    rw [hfirst, hrest]
    have hbit : (decide (number % 2 = 1)).toNat = number % 2 := by
      rcases Nat.mod_two_eq_zero_or_one number with hmod | hmod <;> simp [hmod]
    rw [hbit, Nat.pow_succ', Nat.mod_mul]
    congr 2
    ring

/-- A number in front is read. -/
theorem bits {n number : Nat} (h : b.Left (lowBits n number ++ more)) (hn : number < 2 ^ n) :
    ∃ b' : Bits, b'.Left more ∧ bits n b = .ok (number, b') := by
  obtain ⟨b', h', hread⟩ := takeBits n number h 1 0
  refine ⟨b', h', ?_⟩
  rw [Nat.mod_eq_of_lt hn, Nat.mul_one, Nat.zero_add] at hread
  exact hread

/-- One bit in front is read. -/
theorem bit {x : Bool} (h : b.Left (x :: more)) :
    ∃ b' : Bits, b'.Left more ∧ Inflate.bits 1 b = .ok (x.toNat, b') := by
  have hnumber : b.Left (lowBits 1 x.toNat ++ more) := by cases x <;> exact h
  exact bits hnumber (by cases x <;> decide)

/-- **The bytes behind a stream** are found where its last byte is filled up. -/
theorem aligned_eq {fill : List Bool} {rest : Bytes} (h : b.Left (fill ++ Bytes.toBits rest))
    (hfill : fill.length < 8) : b.aligned = rest := by
  have hcount := h.count_lt
  have hlength := congrArg List.length h.toBits_eq
  rw [List.length_append, List.length_append, lowBits.length_eq, Bytes.length_toBits,
    Bytes.length_toBits] at hlength
  have htail := (List.append_inj h.toBits_eq (by rw [lowBits.length_eq]; omega)).2
  exact Bytes.toBits_injective htail

end Bits.Left

end Inflate

end Telemetry
