import Telemetry.Proofs.Gzip.RoundTrip

/-!
# Decompressing under a bound

What is decoded of a stream is never taken back, so to stop at some bytes is to learn of the whole
stream whether it has so many, and how it ends if not (`Inflate.inflateUntil_eq`). So a reader that
stops one byte behind its bound comes to the verdict that the size of the whole body gives
(`Gzip.decompress_by_size`).
-/

namespace Telemetry

/-! ## What was decoded stays -/

namespace Inflate

theorem size_le_codedLoop (literals distances : Code) (fuel : Nat) (out : ByteArray) (b : Bits) :
    out.size ≤ (codedLoop literals distances fuel out b).out.size := by
  induction fuel generalizing out b with
  | zero => exact Nat.le_refl _
  | succ fuel ih =>
    rw [codedLoop_succ]
    split
    next => exact Nat.le_refl _
    next s b _ =>
      split
      next => exact Nat.le_trans (by rw [ByteArray.size_push]; omega) (ih _ _)
      next =>
        split
        next => exact Nat.le_refl _
        next =>
          split
          next => exact Nat.le_refl _
          next => exact Nat.le_trans (by rw [size_copyBack]; omega) (ih _ _)

theorem size_le_copy (n : Nat) (out : ByteArray) (rest : Bytes) :
    out.size ≤ (storedBlock.copy n out rest).1.size := by
  induction n generalizing out rest with
  | zero => exact Nat.le_refl _
  | succ n ih =>
    cases rest with
    | nil => exact Nat.le_refl _
    | cons x rest => exact Nat.le_trans (by rw [ByteArray.size_push]; omega) (ih (out.push x) rest)

theorem size_le_storedBlock (out : ByteArray) (b : Bits) :
    out.size ≤ (storedBlock out b).out.size := by
  unfold storedBlock
  split
  next l0 l1 n0 n1 rest _ =>
    dsimp only
    split
    next => exact Nat.le_refl _
    next =>
      split
      next => exact size_le_copy _ _ _
      next => exact size_le_copy _ _ _
  next => exact Nat.le_refl _

theorem size_le_block (fuel : Nat) (out : ByteArray) (b : Bits) :
    out.size ≤ (block fuel out b).out.size := by
  unfold block
  split
  next => exact Nat.le_refl _
  next form b _ =>
    split
    next => exact size_le_storedBlock out b
    next =>
      split
      next => exact size_le_codedLoop _ _ fuel out b
      next =>
        split
        next =>
          split
          next => exact Nat.le_refl _
          next => exact size_le_codedLoop _ _ fuel out _
        next => exact Nat.le_refl _

/-- **What was decoded stays**: the blocks that follow only add to it. -/
theorem size_le_blocks (symbols fuel : Nat) (out : ByteArray) (b : Bits) :
    out.size ≤ (blocks symbols fuel out b).out.size := by
  induction fuel generalizing out b with
  | zero => exact Nat.le_refl _
  | succ fuel ih =>
    rw [blocks]
    split
    next => exact Nat.le_refl _
    next isLast b _ =>
      dsimp only
      have hblock := size_le_block symbols out b
      split
      next => exact hblock
      next b' _ =>
        split
        next => exact hblock
        next => exact Nat.le_trans hblock (ih _ _)

/-! ## Stopping early -/

section Until

variable {enough : Nat}

theorem cut_of_le {p : Progress} (h : enough ≤ p.out.size) : cut enough p = none := if_pos h

theorem cut_of_lt {p : Progress} (h : p.out.size < enough) : cut enough p = some p :=
  if_neg (Nat.not_le.mpr h)

/-- One symbol of a coded block, with what a reference is made of left aside. -/
theorem codedUntil_succ (literals distances : Code) (fuel : Nat) (out : ByteArray) (b : Bits) :
    codedUntil enough literals distances (fuel + 1) out b =
      if enough ≤ out.size then none
      else
        match symbol literals b with
        | .error e => some ⟨out, .error e⟩
        | .ok (s, b) =>
          if s < 256 then codedUntil enough literals distances fuel (out.push s.toUInt8) b
          else if s = 256 then some ⟨out, .ok b⟩
          else
            match codedLoop.reference distances s b with
            | .error e => some ⟨out, .error e⟩
            | .ok ((length, distance), b) =>
              codedUntil enough literals distances fuel (copyBack distance length out) b := by
  delta codedUntil codedUntil._f
  generalize codedLoop.reference distances = reference
  rfl

theorem codedUntil_eq (literals distances : Code) (fuel : Nat) (out : ByteArray) (b : Bits) :
    codedUntil enough literals distances fuel out b =
      cut enough (codedLoop literals distances fuel out b) := by
  induction fuel generalizing out b with
  | zero => rfl
  | succ fuel ih =>
    by_cases hfull : enough ≤ out.size
    · have hgrown := size_le_codedLoop literals distances (fuel + 1) out b
      rw [codedUntil_succ, if_pos hfull, cut_of_le (Nat.le_trans hfull hgrown)]
    · -- the block goes on, or ends with what there is
      have hends : ∀ stop, cut enough ⟨out, stop⟩ = some ⟨out, stop⟩ := fun _ =>
        cut_of_lt (Nat.not_le.mp hfull)
      rw [codedUntil_succ, if_neg hfull, codedLoop_succ]
      rcases symbol literals b with e | ⟨s, b₁⟩
      · exact (hends _).symm
      · dsimp only
        by_cases hliteral : s < 256
        · rw [if_pos hliteral, if_pos hliteral, ih]
        · rw [if_neg hliteral, if_neg hliteral]
          by_cases hend : s = 256
          · rw [if_pos hend, if_pos hend, hends]
          · rw [if_neg hend, if_neg hend]
            rcases codedLoop.reference distances s b₁ with e | ⟨⟨length, distance⟩, b₂⟩
            · exact (hends _).symm
            · exact ih _ _

theorem blockUntil_eq (fuel : Nat) (out : ByteArray) (b : Bits) :
    blockUntil enough fuel out b = cut enough (block fuel out b) := by
  unfold blockUntil block
  rcases bits 2 b with e | ⟨form, b₁⟩
  · rfl
  · dsimp only
    by_cases hstored : form = 0
    · rw [if_pos hstored, if_pos hstored]
    · rw [if_neg hstored, if_neg hstored]
      by_cases hfixed : form = 1
      · rw [if_pos hfixed, if_pos hfixed, codedUntil_eq]
      · rw [if_neg hfixed, if_neg hfixed]
        by_cases hgiven : form = 2
        · rw [if_pos hgiven, if_pos hgiven]
          rcases givenCodes b₁ with e | ⟨⟨literals, distances⟩, b₂⟩
          · rfl
          · exact codedUntil_eq literals distances fuel out b₂
        · rw [if_neg hgiven, if_neg hgiven]

theorem blocksUntil_eq (symbols fuel : Nat) (out : ByteArray) (b : Bits) :
    blocksUntil enough symbols fuel out b = cut enough (blocks symbols fuel out b) := by
  induction fuel generalizing out b with
  | zero => rfl
  | succ fuel ih =>
    rw [blocksUntil, blocks]
    rcases bits 1 b with e | ⟨isLast, b₁⟩
    · rfl
    · dsimp only
      rw [blockUntil_eq]
      obtain ⟨out₁, stop⟩ := block symbols out b₁
      by_cases hfull : enough ≤ out₁.size
      · -- what follows the block does not matter
        rw [cut_of_le hfull]
        rcases stop with e | b₂
        · exact (cut_of_le hfull).symm
        · dsimp only
          split
          · exact (cut_of_le hfull).symm
          · exact (cut_of_le (Nat.le_trans hfull (size_le_blocks symbols fuel out₁ b₂))).symm
      · have hends : ∀ stop, cut enough ⟨out₁, stop⟩ = some ⟨out₁, stop⟩ := fun _ =>
          cut_of_lt (Nat.not_le.mp hfull)
        rw [hends]
        rcases stop with e | b₂
        · exact (hends _).symm
        · dsimp only
          by_cases hlast : isLast = 1
          · rw [if_pos hlast, if_pos hlast, hends]
          · rw [if_neg hlast, if_neg hlast, ih]

/-- **To stop early** is to learn whether there are enough bytes, and how the stream ends if not. -/
theorem inflateUntil_eq (input : Bytes) :
    inflateUntil enough input =
      if enough ≤ (inflate input).output.size then none else some (inflate input) := by
  unfold inflateUntil inflate
  dsimp only
  rw [blocksUntil_eq]
  unfold cut
  split
  next hfull => exact (if_pos hfull).symm
  next hfull => exact (if_neg hfull).symm

end Until

end Inflate

namespace Gzip

variable {limit : Nat} {data : Bytes}

theorem lt_decodedFor (limit : Nat) : limit < decodedFor limit := by
  unfold decodedFor
  have hwindow : windowSize = 32768 := rfl
  rw [hwindow]
  omega

/-- Decompressing by what the whole stream is. -/
theorem decompress_eq (limit : Nat) (data : Bytes) :
    decompress limit data =
      match afterHeader? data with
      | none => .error (.validation .badGzip)
      | some body =>
        let r := Inflate.inflate body
        if limit < r.output.size then
          if r.ending = .corrupt ∧ r.output.size < decodedFor limit then
            .error (.validation .badGzip)
          else .error (.validation (.gzipTooLong limit))
        else
          match whole? r with
          | some output => .ok output
          | none => .error (.validation .badGzip) := by
  unfold decompress
  cases afterHeader? data with
  | none => rfl
  | some body =>
    dsimp only
    rw [Inflate.inflateUntil_eq]
    by_cases hfull : decodedFor limit ≤ (Inflate.inflate body).output.size
    · rw [if_pos hfull, if_pos (Nat.lt_of_lt_of_le (lt_decodedFor limit) hfull),
        if_neg fun hearly => Nat.not_le.mpr hearly.2 hfull]
    · rw [if_neg hfull]
      dsimp only
      by_cases hcorrupt : (Inflate.inflate body).ending = .corrupt
      · have hnone : whole? (Inflate.inflate body) = none := by
          unfold whole?
          rw [hcorrupt]
        have hearly : (Inflate.inflate body).ending = .corrupt ∧
            (Inflate.inflate body).output.size < decodedFor limit :=
          ⟨hcorrupt, Nat.not_le.mp hfull⟩
        rw [if_pos hcorrupt, hnone, if_pos hearly]
        exact (ite_self _).symm
      · have hlate : ¬((Inflate.inflate body).ending = .corrupt ∧
            (Inflate.inflate body).output.size < decodedFor limit) := fun h => hcorrupt h.1
        rw [if_neg hcorrupt]
        exact ite_congr rfl (fun _ => (if_neg hlate).symm) fun _ => rfl

theorem length_of_whole? {r : Inflate.Result} {output : Bytes} (h : whole? r = some output) :
    output.length = r.output.size := by
  unfold whole? at h
  split at h
  next rest _ =>
    dsimp only at h
    split at h
    next =>
      rw [← Option.some.inj h, Bytes.toList_eq, Array.length_toList]
      rfl
    next => cases h
  next => cases h

/-- A whole body of the right size is what decompressing gives. -/
theorem decompress_of_gunzip {output : Bytes} (h : gunzip data = some output) (limit : Nat) :
    decompress limit data =
      if output.length ≤ limit then .ok output else .error (.validation (.gzipTooLong limit)) := by
  obtain ⟨body, hbody, hwhole⟩ := Option.bind_eq_some_iff.mp h
  rw [decompress_eq, hbody]
  dsimp only
  rw [← length_of_whole? hwhole]
  split
  next hlong =>
    have hcomplete : (Inflate.inflate body).ending ≠ .corrupt := by
      intro hcorrupt
      unfold whole? at hwhole
      rw [hcorrupt] at hwhole
      cases hwhole
    rw [if_neg fun h => hcomplete h.1, if_neg (Nat.not_le.mpr hlong)]
  next hshort => rw [hwhole, if_pos (Nat.not_lt.mp hshort)]

/-- What is no whole body is turned down, as such or as too long. -/
theorem decompress_of_gunzip_none (h : gunzip data = none) (limit : Nat) :
    decompress limit data = .error (.validation .badGzip) ∨
      decompress limit data = .error (.validation (.gzipTooLong limit)) := by
  rw [decompress_eq]
  cases hbody : afterHeader? data with
  | none => exact Or.inl rfl
  | some body =>
    have hwhole : whole? (Inflate.inflate body) = none := by
      unfold gunzip at h
      rwa [hbody] at h
    dsimp only
    rw [hwhole]
    split
    next =>
      split
      next => exact Or.inl rfl
      next => exact Or.inr rfl
    next => exact Or.inl rfl

/-- **Under a bound that a body keeps, decompressing undoes compressing.** -/
theorem decompress_compress {limit : Nat} {data : Bytes} (h : data.length ≤ limit) :
    decompress limit (compress data) = .ok data := by
  rw [decompress_of_gunzip (gunzip_compress data), if_pos h]

/-- **Bounded decompression is full decompression with a look at the size.** Where the whole data is
decompressed, the result under a bound is all of it if it is not longer than the bound, and else the
complaint that it is; where it is not, there is no result under any bound. So each result is whole
and keeps the bound, a higher bound leaves it as it is, and what was compressed comes back exactly
if it keeps the bound. -/
theorem decompress_by_size (limit : Nat) (data : Bytes) :
    (∀ output, gunzip data = some output → decompress limit data =
        if output.length ≤ limit then .ok output else .error (.validation (.gzipTooLong limit))) ∧
      (gunzip data = none → decompress limit data = .error (.validation .badGzip) ∨
        decompress limit data = .error (.validation (.gzipTooLong limit))) ∧
      (∀ output, decompress limit data = .ok output ↔
        gunzip data = some output ∧ output.length ≤ limit) ∧
      (∀ output, decompress limit data = .ok output →
        ∀ higher, limit ≤ higher → decompress higher data = .ok output) ∧
      decompress limit (compress data) =
        if data.length ≤ limit then .ok data else .error (.validation (.gzipTooLong limit)) := by
  have hresult : ∀ limit output, decompress limit data = .ok output ↔
      gunzip data = some output ∧ output.length ≤ limit := by
    intro limit output
    cases hgunzip : gunzip data with
    | none =>
      rcases decompress_of_gunzip_none hgunzip limit with herror | herror <;> rw [herror] <;> simp
    | some whole =>
      rw [decompress_of_gunzip hgunzip limit]
      split
      next hshort =>
        rw [Except.ok.injEq, Option.some.injEq]
        exact ⟨fun h => ⟨h, h ▸ hshort⟩, And.left⟩
      next hlong => exact ⟨nofun, fun ⟨h, hshort⟩ => absurd (Option.some.inj h ▸ hshort) hlong⟩
  refine ⟨fun output h => decompress_of_gunzip h limit, fun h => decompress_of_gunzip_none h limit,
    hresult limit, fun output h higher hle => ?_, decompress_of_gunzip (gunzip_compress data) limit⟩
  obtain ⟨hgunzip, hshort⟩ := (hresult limit output).mp h
  exact (hresult higher output).mpr ⟨hgunzip, Nat.le_trans hshort hle⟩

end Gzip

end Telemetry
