import Telemetry.Gzip
import Telemetry.Proofs.Gzip.Codes
import Telemetry.Proofs.Utf8

/-!
# Compressed bodies are read back

A reference whose bytes were compared with the data goes on where the data before it ends, so the
tokens of a body stand for it (`Deflate.append_tokens`). They are decoded one by one
(`Inflate.codedLoop_tokens`), so inflating what was deflated gives the body and finds the trailer
behind it (`Inflate.inflate_deflate`). `Gzip.gunzip_compress` is the round trip of a whole member,
and `Gzip.length_compress_le` says that compressing never adds much: a byte takes nine bits at most.
-/

namespace Telemetry

/-! ## What tokens stand for -/

namespace Inflate

theorem size_copyBack (distance n : Nat) (out : ByteArray) :
    (copyBack distance n out).size = out.size + n := by
  induction n generalizing out with
  | zero => rfl
  | succ n ih =>
    rw [copyBack, ih, ByteArray.size_push]
    omega

variable {data : Bytes} {out : ByteArray} {i j : Nat}

/-- What is back in the beginning of some data is what stands there. -/
theorem byteBack_eq (hout : out.data.toList = data.take i) (hi : i ≤ data.length) (hj : j < i) :
    some (byteBack (i - j) out) = data[j]? := by
  have hsize : out.size = i := by
    rw [← ByteArray.size_data, ← Array.length_toList, hout, List.length_take_of_le hi]
  have hplace : out.size - (i - j) = j := by omega
  have hbyte : out.data.toList[j]? = data[j]? := by
    rw [hout, List.getElem?_take_of_lt hj]
  unfold byteBack
  rw [dif_pos ⟨by omega, by omega⟩, ← hbyte]
  simp only [hplace]
  rw [Array.getElem?_toList]
  exact (Array.getElem?_eq_getElem _).symm

/-- What stands alike at an earlier place can be taken from there. -/
theorem copyBack_eq {n : Nat} (hout : out.data.toList = data.take i) (hj : j < i)
    (halike : ∀ k < n, i + k < data.length ∧ data[i + k]? = data[j + k]?) :
    (copyBack (i - j) n out).data.toList = data.take (i + n) := by
  induction n generalizing out i j with
  | zero => exact hout
  | succ n ih =>
    obtain ⟨hi, hsame⟩ := halike 0 (Nat.succ_pos n)
    have hbyte := byteBack_eq hout hi.le hj
    rw [← show data[i]? = data[j]? from hsame] at hbyte
    have hpush : (out.push (byteBack (i - j) out)).data.toList = data.take (i + 1) := by
      rw [ByteArray.data_push, Array.toList_push, hout, List.take_add_one, ← hbyte]
      rfl
    have hrest := ih hpush (j := j + 1) (Nat.succ_lt_succ hj) fun k hk => by
      rw [Nat.add_right_comm, Nat.add_right_comm j]
      exact halike (k + 1) (Nat.succ_lt_succ hk)
    rw [Nat.add_sub_add_right, Nat.add_right_comm] at hrest
    exact hrest

end Inflate

namespace Deflate

/-- What a token adds to the bytes before it. -/
def Token.append (out : ByteArray) : Token → ByteArray
  | .literal b => out.push b
  | .again n distance => Inflate.copyBack distance n out

theorem common_le (data : Array UInt8) (i j most : Nat) : common data i j most ≤ most := by
  induction most generalizing i j with
  | zero => exact Nat.le_refl 0
  | succ most ih =>
    rw [common]
    split
    · exact Nat.succ_le_succ (ih _ _)
    · exact Nat.zero_le _

/-- Bytes that were compared are alike. -/
theorem alike_of_lt_common {data : Array UInt8} {i j most k : Nat}
    (h : k < common data i j most) : i + k < data.size ∧ data[i + k]? = data[j + k]? := by
  induction most generalizing i j k with
  | zero => exact absurd h (Nat.not_lt_zero k)
  | succ most ih =>
    rw [common] at h
    split at h
    next hfirst =>
      cases k with
      | zero => exact hfirst
      | succ k =>
        have hrest := ih (Nat.lt_of_succ_lt_succ h)
        rw [Nat.add_right_comm, Nat.add_right_comm j] at hrest
        exact hrest
    next => exact absurd h (Nat.not_lt_zero k)

section

variable {data : Bytes} {out : ByteArray} {i : Nat}

/-- **A token goes on where the data before it ends**, whatever place was proposed for it. -/
theorem append_tokenAt (hout : out.data.toList = data.take i) (hi : i < data.length) (j : Nat) :
    ((tokenAt data.toArray i j).append out).data.toList =
      data.take (i + (tokenAt data.toArray i j).size) := by
  unfold tokenAt
  dsimp only
  split
  next hmatch =>
    refine Inflate.copyBack_eq hout hmatch.2.1 fun k hk => ?_
    have halike := alike_of_lt_common hk
    simpa using halike
  next =>
    show (out.push _).data.toList = data.take (i + 1)
    rw [ByteArray.data_push, Array.toList_push, hout, List.take_add_one,
      List.getElem?_eq_getElem hi]
    simp [hi]

theorem isSound_tokenAt (data : Array UInt8) (i j : Nat) : (tokenAt data i j).IsSound := by
  unfold tokenAt
  dsimp only
  split
  next hmatch =>
    have hmost := common_le data i j longestMatch
    exact ⟨⟨hmatch.1, Nat.lt_succ_of_le hmost⟩, by omega, hmatch.2.2⟩
  next => trivial

theorem Token.IsSound.size_pos {t : Token} (h : t.IsSound) : 0 < t.size := by
  cases t with
  | literal b => exact Nat.one_pos
  | again n distance => exact Nat.lt_of_lt_of_le (by decide) h.1.1

/-- The tokens found so far stand for the data up to the place that is looked at. -/
theorem append_search {left : Nat} {places : Array Nat} {soFar : List Token}
    (hleft : data.length ≤ i + left)
    (hout : (soFar.reverse.foldl Token.append ByteArray.empty).data.toList = data.take i) :
    ((search data.toArray left i places soFar).foldl Token.append ByteArray.empty).data.toList =
      data := by
  induction left generalizing i places soFar with
  | zero =>
    rw [search, hout]
    exact List.take_of_length_le hleft
  | succ left ih =>
    rw [search]
    split
    next hi =>
      have hstep := append_tokenAt hout (by simpa using hi)
        (places.getD (hashAt data.toArray i) data.toArray.size)
      have hpos := (isSound_tokenAt data.toArray i
        (places.getD (hashAt data.toArray i) data.toArray.size)).size_pos
      refine ih (by omega) ?_
      rw [List.reverse_cons, List.foldl_append]
      exact hstep
    next hi =>
      rw [hout]
      exact List.take_of_length_le (by simpa using hi)

/-- **The tokens of a body stand for it.** -/
theorem append_tokens (data : Bytes) :
    ((tokens data).foldl Token.append ByteArray.empty).data.toList = data :=
  append_search (Nat.le_add_left _ _) rfl

theorem isSound_search {data : Array UInt8} {left : Nat} {places : Array Nat} {soFar : List Token}
    (hsoFar : ∀ t ∈ soFar, t.IsSound) : ∀ t ∈ search data left i places soFar, t.IsSound := by
  induction left generalizing i places soFar with
  | zero => exact fun t ht => hsoFar t (List.mem_reverse.mp ht)
  | succ left ih =>
    rw [search]
    split
    · exact ih (List.forall_mem_cons.mpr ⟨isSound_tokenAt _ _ _, hsoFar⟩)
    · exact fun t ht => hsoFar t (List.mem_reverse.mp ht)

theorem isSound_tokens (data : Bytes) : ∀ t ∈ tokens data, t.IsSound :=
  isSound_search (List.forall_mem_nil _)

end

/-! ## The bits of tokens -/

theorem size_append (ts : List Token) (out : ByteArray) :
    (ts.foldl Token.append out).size = out.size + (ts.map Token.size).sum := by
  induction ts generalizing out with
  | nil => rfl
  | cons t ts ih =>
    have hone : (t.append out).size = out.size + t.size := by
      cases t with
      | literal b => exact ByteArray.size_push ..
      | again n distance => exact Inflate.size_copyBack distance n out
    rw [List.foldl_cons, ih, hone, List.map_cons, List.sum_cons, Nat.add_assoc]

theorem sum_size_tokens (data : Bytes) : ((tokens data).map Token.size).sum = data.length := by
  have hsize := size_append (tokens data) ByteArray.empty
  rw [← ByteArray.size_data, ← Array.length_toList, append_tokens] at hsize
  exact (hsize.trans (Nat.zero_add _)).symm

theorem flatMap_toBits_bounds {ts : List Token} (hts : ∀ t ∈ ts, t.IsSound) :
    ts.length ≤ (ts.flatMap Token.toBits).length ∧
      (ts.flatMap Token.toBits).length ≤ 9 * (ts.map Token.size).sum := by
  induction ts with
  | nil => exact ⟨Nat.le_refl 0, Nat.le_refl 0⟩
  | cons t ts ih =>
    have hhead := Token.toBits_bounds (hts t List.mem_cons_self)
    have htail := ih fun t' ht' => hts t' (List.mem_cons_of_mem t ht')
    rw [List.flatMap_cons, List.length_append, List.length_cons, List.map_cons, List.sum_cons]
    omega

theorem Writer.Wrote.putTokens {w : Writer} {written : List Bool} (h : w.Wrote written)
    {ts : List Token} (hts : ∀ t ∈ ts, t.IsSound) :
    (ts.foldl Writer.putToken w).Wrote (written ++ ts.flatMap Token.toBits) := by
  induction ts generalizing w written with
  | nil => rwa [List.flatMap_nil, List.append_nil]
  | cons t ts ih =>
    rw [List.flatMap_cons, ← List.append_assoc]
    exact ih (h.putToken (hts t List.mem_cons_self)) fun t' ht' =>
      hts t' (List.mem_cons_of_mem t ht')

/-- The bits of a body: the mark of the last block, the form of the block, the tokens and the end
mark. -/
def bodyBits (data : Bytes) : List Bool :=
  lowBits 1 1 ++ lowBits 2 1 ++ (tokens data).flatMap Token.toBits ++ symbolBits 256

theorem toBits_deflate (data : Bytes) :
    ∃ fill < 8, Bytes.toBits (deflate data) = bodyBits data ++ List.replicate fill false := by
  have hempty : Writer.Wrote ⟨0, 0, []⟩ [] := ⟨rfl, Nat.one_pos, Nat.zero_lt_succ 7⟩
  have hlast : (Writer.put ⟨0, 0, []⟩ 1 1).Wrote (lowBits 1 1) :=
    hempty.put (by decide) (by decide)
  have hstart : ((Writer.put ⟨0, 0, []⟩ 1 1).put 2 1).Wrote (lowBits 1 1 ++ lowBits 2 1) :=
    hlast.put (by decide) (by decide)
  exact ((hstart.putTokens (isSound_tokens data)).putSymbol 256).toBits_finish

end Deflate

/-! ## Inflating -/

namespace Inflate

open Deflate

/-- One symbol of a coded block. What a reference is made of does not matter here; the equation
compiler would open it and count its way down to the first symbol of a length. -/
theorem codedLoop_succ (literals distances : Code) (fuel : Nat) (out : ByteArray) (b : Bits) :
    codedLoop literals distances (fuel + 1) out b =
      match symbol literals b with
      | .error e => ⟨out, .error e⟩
      | .ok (s, b) =>
        if s < 256 then codedLoop literals distances fuel (out.push s.toUInt8) b
        else if s = 256 then ⟨out, .ok b⟩
        else
          match codedLoop.reference distances s b with
          | .error e => ⟨out, .error e⟩
          | .ok ((length, distance), b) =>
            codedLoop literals distances fuel (copyBack distance length out) b := by
  delta codedLoop codedLoop._f
  generalize codedLoop.reference distances = reference
  rfl

/-- **Tokens are decoded** one by one up to the end mark. -/
theorem codedLoop_tokens {ts : List Token} (hts : ∀ t ∈ ts, t.IsSound) {fuel : Nat}
    (hfuel : ts.length < fuel) {b : Bits} {more : List Bool} (out : ByteArray)
    (h : b.Left (ts.flatMap Token.toBits ++ (symbolBits 256 ++ more))) :
    ∃ b' : Bits, b'.Left more ∧
      codedLoop fixedLiterals fixedDistances fuel out b = ⟨ts.foldl Token.append out, .ok b'⟩ := by
  induction ts generalizing fuel b out with
  | nil =>
    obtain ⟨fuel, rfl⟩ := Nat.exists_eq_succ_of_ne_zero (Nat.ne_of_gt hfuel)
    obtain ⟨b', h', hend⟩ := symbol_symbolBits (by decide) h
    refine ⟨b', h', ?_⟩
    rw [codedLoop_succ, hend]
    rfl
  | cons t ts ih =>
    obtain ⟨fuel, rfl⟩ := Nat.exists_eq_succ_of_ne_zero (Nat.ne_of_gt (Nat.zero_lt_of_lt hfuel))
    have hts' : ∀ t' ∈ ts, t'.IsSound := fun t' ht' => hts t' (List.mem_cons_of_mem t ht')
    have hfuel' : ts.length < fuel := Nat.lt_of_succ_lt_succ hfuel
    rw [List.flatMap_cons, List.append_assoc] at h
    cases t with
    | literal x =>
      have hx := x.toNat_lt
      obtain ⟨b₁, h₁, hsymbol⟩ := symbol_symbolBits (by omega) h
      obtain ⟨b₂, h₂, hrest⟩ := ih hts' hfuel' (out.push x) h₁
      refine ⟨b₂, h₂, ?_⟩
      have hbyte : x.toNat.toUInt8 = x := UInt8.ofNat_toNat
      rw [codedLoop_succ, hsymbol]
      dsimp only
      rw [if_pos (by omega), hbyte, hrest]
      rfl
    | again n distance =>
      have hsound := hts _ List.mem_cons_self
      obtain ⟨hlow, hhigh, -⟩ := lengthSymbol_spec n hsound.1.2 hsound.1.1
      rw [Token.toBits, List.append_assoc] at h
      obtain ⟨b₁, h₁, hsymbol⟩ := symbol_symbolBits hhigh h
      obtain ⟨b₂, h₂, hreference⟩ := reference_again hsound h₁
      obtain ⟨b₃, h₃, hrest⟩ := ih hts' hfuel' (copyBack distance n out) h₂
      refine ⟨b₃, h₃, ?_⟩
      rw [codedLoop_succ, hsymbol]
      dsimp only
      rw [if_neg (by omega), if_neg (by omega), hreference]
      exact hrest

/-- **Inflating undoes deflating**, and what follows the data is left over. -/
theorem inflate_deflate (data rest : Bytes) :
    (inflate (deflate data ++ rest)).output.toList = data ∧
      (inflate (deflate data ++ rest)).ending = .complete rest := by
  obtain ⟨fill, hfill, hbits⟩ := toBits_deflate data
  have hstart := Bits.Left.start (deflate data ++ rest)
  have hmost : ((tokens data)).length < 8 * (deflate data ++ rest).length + 1 := by
    have hlength := congrArg List.length hbits
    have htokens := (flatMap_toBits_bounds (isSound_tokens data)).1
    simp only [Bytes.length_toBits, bodyBits, List.length_append] at hlength
    rw [List.length_append]
    omega
  rw [Bytes.toBits_append, hbits] at hstart
  simp only [bodyBits, List.append_assoc] at hstart
  obtain ⟨b₁, h₁, hlast⟩ := hstart.bits (by decide)
  obtain ⟨b₂, h₂, hform⟩ := h₁.bits (by decide)
  obtain ⟨b₃, h₃, hcoded⟩ := codedLoop_tokens (isSound_tokens data) hmost ByteArray.empty h₂
  have haligned : b₃.aligned = rest := h₃.aligned_eq (by rwa [List.length_replicate])
  have hblocks : blocks (8 * (deflate data ++ rest).length + 1)
      (8 * (deflate data ++ rest).length + 1) ByteArray.empty ⟨0, 0, deflate data ++ rest⟩ =
        ⟨(tokens data).foldl Token.append ByteArray.empty, .ok b₃⟩ := by
    rw [blocks, hlast]
    dsimp only
    rw [block, hform]
    dsimp only
    rw [if_neg (by decide), if_pos rfl, hcoded]
    rfl
  unfold inflate
  dsimp only
  rw [hblocks]
  exact ⟨(Bytes.toList_eq _).trans (append_tokens data), congrArg Ending.complete haligned⟩

end Inflate

/-! ## Members -/

namespace Gzip

theorem littleEndian_fourBytes (n : Nat) : littleEndian (fourBytes n) = n % 2 ^ 32 := by
  have hbyte : ∀ m : Nat, (m % 256).toUInt8.toNat = m % 256 := fun m =>
    Nat.mod_mod m 256
  show (n >>> 0 % 256).toUInt8.toNat + 256 * ((n >>> 8 % 256).toUInt8.toNat +
    256 * ((n >>> 16 % 256).toUInt8.toNat + 256 * ((n >>> 24 % 256).toUInt8.toNat + 256 * 0))) = _
  simp only [hbyte, Nat.shiftRight_eq_div_pow]
  omega

@[simp] theorem length_fourBytes (n : Nat) : (fourBytes n).length = 4 := rfl

theorem afterHeader?_compress (data : Bytes) :
    afterHeader? (compress data) = some (Deflate.deflate data ++
      (fourBytes (Crc32.checksum data).toNat ++ fourBytes data.length)) := by
  unfold compress
  rw [List.append_assoc, List.append_assoc]
  rfl

theorem trailerFits_fourBytes (data : Bytes) :
    trailerFits data (fourBytes (Crc32.checksum data).toNat ++ fourBytes data.length) = true := by
  have hsum : (Crc32.checksum data).toNat % 2 ^ 32 = (Crc32.checksum data).toNat :=
    Nat.mod_eq_of_lt (UInt32.toNat_lt _)
  unfold trailerFits
  rw [List.take_left' (length_fourBytes _), List.drop_left' (length_fourBytes _),
    List.take_of_length_le (length_fourBytes _).le, littleEndian_fourBytes,
    littleEndian_fourBytes, hsum]
  simp

theorem whole?_deflate (data : Bytes) :
    whole? (Inflate.inflate (Deflate.deflate data ++
      (fourBytes (Crc32.checksum data).toNat ++ fourBytes data.length))) = some data := by
  obtain ⟨houtput, hending⟩ := Inflate.inflate_deflate data
    (fourBytes (Crc32.checksum data).toNat ++ fourBytes data.length)
  unfold whole?
  rw [hending]
  dsimp only
  rw [houtput, if_pos (trailerFits_fourBytes data)]

/-- **Decompressing undoes compressing.** -/
theorem gunzip_compress (data : Bytes) : gunzip (compress data) = some data := by
  unfold gunzip
  rw [afterHeader?_compress]
  exact whole?_deflate data

theorem length_compress_le (data : Bytes) :
    8 * (compress data).length ≤ 9 * data.length + 166 := by
  obtain ⟨fill, hfill, hbits⟩ := Deflate.toBits_deflate data
  have hlength := congrArg List.length hbits
  have htokens := (Deflate.flatMap_toBits_bounds (Deflate.isSound_tokens data)).2
  have hend := (Deflate.symbolBits_bounds 256).2.2 (Nat.le_refl 256)
  rw [Deflate.sum_size_tokens] at htokens
  simp only [Bytes.length_toBits, Deflate.bodyBits, List.length_append, lowBits.length_eq,
    List.length_replicate] at hlength
  unfold compress
  simp only [List.length_append, length_fourBytes, List.length_cons, List.length_nil]
  omega

/-- A member is never empty. -/
theorem compress_ne_nil (data : Bytes) : compress data ≠ [] := by
  unfold compress
  rw [List.append_assoc, List.append_assoc]
  exact List.cons_ne_nil _ _

end Gzip

end Telemetry
