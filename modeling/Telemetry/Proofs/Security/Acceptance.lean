import Mathlib.Data.List.TakeWhile
import Telemetry.Proofs.Security.Signature

/-!
# Which texts are signatures

A text is a signature of some bytes if it spells out their code: two digits for each byte, the high
one first, in either case, with nothing but blanks around them (`Hex.Spells`). Exactly these texts
are accepted, so without its blanks and in lower case each of them is the signature that is sent
(`Signer.accepted_iff_spelled`).
-/

namespace Telemetry

/-! ## Digits in either case -/

namespace Hex

/-- Whether a character is a digit that counts `n`, in either case. -/
def Digit (c : Char) (n : Nat) : Prop :=
  n < 16 ∧ (c = Nat.digitChar n ∨ c = (Nat.digitChar n).toUpper)

/-- Whether characters spell out bytes. -/
inductive Spells : List Char → Bytes → Prop
  | nil : Spells [] []
  | cons {high low : Char} {x : UInt8} {cs : List Char} {b : Bytes}
    (hhigh : Digit high (x.toNat / 16)) (hlow : Digit low (x.toNat % 16)) (h : Spells cs b) :
    Spells (high :: low :: cs) (x :: b)

/-- What holds of each ASCII code holds of each ASCII character. -/
theorem forall_ascii {P : Char → Prop} (h : ∀ m < 128, P (Char.ofNat m)) {c : Char}
    (hc : c.toNat < 128) : P c := by
  have hcode := h c.toNat hc
  rwa [Char.ofNat_toNat] at hcode

/-- Only ASCII characters are digits. -/
theorem toNat_lt_of_digitOf {c : Char} {n : Nat} (h : digitOf c = some n) : c.toNat < 128 := by
  have hle : ∀ {d : Char}, c ≤ d → c.toNat ≤ d.toNat := fun hcd => hcd
  unfold digitOf at h
  split at h
  next hc => exact Nat.lt_of_le_of_lt (hle hc.2) (by decide)
  next =>
    split at h
    next hc => exact Nat.lt_of_le_of_lt (hle hc.2) (by decide)
    next =>
      split at h
      next hc => exact Nat.lt_of_le_of_lt (hle hc.2) (by decide)
      next => cases h

theorem digitOf_eq_some_iff {c : Char} {n : Nat} : digitOf c = some n ↔ Digit c n := by
  constructor
  · intro h
    have hascii : ∀ m < 128, ∀ n ∈ digitOf (Char.ofNat m),
        n < 16 ∧ (Char.ofNat m = Nat.digitChar n ∨ Char.ofNat m = (Nat.digitChar n).toUpper) := by
      decide
    exact forall_ascii (P := fun c => ∀ n ∈ digitOf c, Digit c n) hascii (toNat_lt_of_digitOf h) n h
  · have hupper : ∀ n < 16, digitOf (Nat.digitChar n).toUpper = some n := by decide
    rintro ⟨hn, rfl | rfl⟩
    · exact digitOf_digitChar n hn
    · exact hupper n hn

/-- A digit in either case is the one that is written, once it is in lower case. -/
theorem digit_iff_toLower {c : Char} {n : Nat} :
    Digit c n ↔ n < 16 ∧ c.toLower = Nat.digitChar n := by
  refine and_congr_right fun hn => ⟨?_, fun h => ?_⟩
  · have hlower : ∀ n < 16, (Nat.digitChar n).toLower = Nat.digitChar n ∧
        (Nat.digitChar n).toUpper.toLower = Nat.digitChar n := by decide
    rintro (rfl | rfl)
    · exact (hlower n hn).1
    · exact (hlower n hn).2
  · by_cases hc : c.toNat < 128
    · have hascii : ∀ m < 128, ∀ n < 16, (Char.ofNat m).toLower = Nat.digitChar n →
          Char.ofNat m = Nat.digitChar n ∨ Char.ofNat m = (Nat.digitChar n).toUpper := by
        decide +kernel
      exact forall_ascii (P := fun c => ∀ n < 16, c.toLower = Nat.digitChar n →
        c = Nat.digitChar n ∨ c = (Nat.digitChar n).toUpper) hascii hc n hn h
    · -- a character beyond ASCII has no case here
      have hsame : c.toLower = c := by
        unfold Char.toLower
        refine dif_neg fun hcase => hc ?_
        exact Nat.lt_of_le_of_lt hcase.2 (by decide)
      exact Or.inl (hsame.symm.trans h)

theorem Digit.isBlank {c : Char} {n : Nat} (h : Digit c n) : Text.isBlank c = false := by
  have hupper : ∀ n < 16, Text.isBlank (Nat.digitChar n).toUpper = false := by decide
  obtain ⟨hn, rfl | rfl⟩ := h
  · exact isBlank_digitChar n hn
  · exact hupper n hn

/-! ## Bytes spelled out -/

theorem byte_of_halves {m n : Nat} (hm : m < 16) (hn : n < 16) :
    (m * 16 + n).toUInt8.toNat / 16 = m ∧ (m * 16 + n).toUInt8.toNat % 16 = n := by
  have hbyte : (m * 16 + n).toUInt8.toNat = m * 16 + n := Nat.mod_eq_of_lt (by omega)
  rw [hbyte]
  omega

/-- What is read are the bytes that are spelled out. -/
theorem decodeChars_eq_some_iff {cs : List Char} {b : Bytes} :
    decodeChars cs = some b ↔ Spells cs b := by
  constructor
  · intro h
    fun_induction decodeChars cs generalizing b with
    | case1 =>
      cases h
      exact .nil
    | case2 c => cases h
    | case3 high low cs m n tail htail hn hm ih =>
      cases h
      have hhigh := digitOf_eq_some_iff.mp hm
      have hlow := digitOf_eq_some_iff.mp hn
      obtain ⟨hdiv, hmod⟩ := byte_of_halves hhigh.1 hlow.1
      exact .cons (hdiv.symm ▸ hhigh) (hmod.symm ▸ hlow) (ih htail)
    | case4 high low cs hnone ih => cases h
  · intro h
    induction h with
    | nil => rfl
    | cons hhigh hlow _ ih =>
      rw [decodeChars, digitOf_eq_some_iff.mpr hhigh, digitOf_eq_some_iff.mpr hlow, ih]
      dsimp only
      rw [Nat.div_add_mod', show ∀ x : UInt8, x.toNat.toUInt8 = x from fun _ => UInt8.ofNat_toNat]

namespace Spells

variable {cs : List Char} {b : Bytes}

theorem exists_digit (h : Spells cs b) : ∀ c ∈ cs, ∃ n, Digit c n := by
  induction h with
  | nil => exact List.forall_mem_nil _
  | cons hhigh hlow _ ih =>
    exact List.forall_mem_cons.mpr ⟨⟨_, hhigh⟩, List.forall_mem_cons.mpr ⟨⟨_, hlow⟩, ih⟩⟩

theorem length_eq (h : Spells cs b) : cs.length = 2 * b.length := by
  induction h with
  | nil => rfl
  | cons _ _ _ ih =>
    simp only [List.length_cons, ih]
    omega

/-- Characters spell out the same bytes only. -/
theorem bytes_eq {b' : Bytes} (h : Spells cs b) (h' : Spells cs b') : b = b' :=
  Option.some.inj ((decodeChars_eq_some_iff.mpr h).symm.trans (decodeChars_eq_some_iff.mpr h'))

/-- **Bytes are spelled out** by what is written of them, in either case. -/
theorem iff_toLower : Spells cs b ↔ cs.map Char.toLower = encodeChars b := by
  constructor
  · intro h
    induction h with
    | nil => rfl
    | cons hhigh hlow _ ih =>
      rw [List.map_cons, List.map_cons, ih, (digit_iff_toLower.mp hhigh).2,
        (digit_iff_toLower.mp hlow).2]
      rfl
  · intro h
    induction b generalizing cs with
    | nil =>
      rw [List.map_eq_nil_iff.mp h]
      exact .nil
    | cons x b ih =>
      have hx := x.toNat_lt
      obtain ⟨high, cs, rfl, hhigh, h⟩ := List.map_eq_cons_iff.mp h
      obtain ⟨low, cs, rfl, hlow, h⟩ := List.map_eq_cons_iff.mp h
      exact .cons (digit_iff_toLower.mpr ⟨by omega, hhigh⟩)
        (digit_iff_toLower.mpr ⟨by omega, hlow⟩) (ih h)

/-- Some bytes are spelled out by any digits that make up pairs. -/
theorem exists_iff :
    (∃ b, Spells cs b) ↔ cs.length % 2 = 0 ∧ ∀ c ∈ cs, ∃ n, Digit c n := by
  constructor
  · rintro ⟨b, h⟩
    rw [h.length_eq]
    exact ⟨Nat.mul_mod_right 2 _, h.exists_digit⟩
  · rintro ⟨heven, hdigits⟩
    fun_induction decodeChars cs with
    | case1 => exact ⟨[], .nil⟩
    | case2 c => cases heven
    | case3 high low cs m n tail htail hn hm ih =>
      exact ⟨_, decodeChars_eq_some_iff.mp (by rw [decodeChars, hm, hn, htail])⟩
    | case4 high low cs hnone ih =>
      obtain ⟨⟨m, hm⟩, hdigits⟩ := List.forall_mem_cons.mp hdigits
      obtain ⟨⟨n, hn⟩, hdigits⟩ := List.forall_mem_cons.mp hdigits
      obtain ⟨b, hb⟩ := ih (by simp only [List.length_cons] at heven; omega) hdigits
      exact absurd (decodeChars_eq_some_iff.mpr hb) fun hrest =>
        hnone m n b (digitOf_eq_some_iff.mpr hm) (digitOf_eq_some_iff.mpr hn) hrest

end Spells

end Hex

/-! ## Blanks around a text -/

namespace Text

theorem trimChars_append {front middle back : List Char} (hfront : ∀ c ∈ front, isBlank c = true)
    (hmiddle : ∀ c ∈ middle, isBlank c = false) (hback : ∀ c ∈ back, isBlank c = true) :
    trimChars (front ++ middle ++ back) = middle := by
  have hstop : ∀ l : List Char, (∀ c ∈ l, isBlank c = false) → ∀ rest : List Char,
      (∀ c ∈ rest, isBlank c = true) → (l ++ rest).dropWhile isBlank =
        if l = [] then [] else l ++ rest := by
    intro l hl rest hrest
    cases l with
    | nil => rw [if_pos rfl, List.nil_append, List.dropWhile_eq_nil_iff.mpr hrest]
    | cons c l =>
      rw [if_neg (List.cons_ne_nil c l), List.cons_append,
        List.dropWhile_cons_of_neg (by simp [hl c List.mem_cons_self])]
  unfold trimChars trimEndChars
  rw [List.append_assoc, List.dropWhile_append_of_pos hfront, hstop middle hmiddle back hback]
  split
  next hempty => rw [hempty]; rfl
  next hempty =>
    rw [List.reverse_append,
      List.dropWhile_append_of_pos fun c hc => hback c (List.mem_reverse.mp hc)]
    have hend := hstop middle.reverse (fun c hc => hmiddle c (List.mem_reverse.mp hc)) [] nofun
    rw [if_neg (by simpa using hempty), List.append_nil] at hend
    rw [hend, List.reverse_reverse]

/-- What is left of a text stands between blanks. -/
theorem exists_trimChars (cs : List Char) :
    ∃ front back, cs = front ++ trimChars cs ++ back ∧ ∀ c ∈ front ++ back, isBlank c = true := by
  refine ⟨cs.takeWhile isBlank, ((cs.dropWhile isBlank).reverse.takeWhile isBlank).reverse, ?_, ?_⟩
  · unfold trimChars trimEndChars
    rw [List.append_assoc, ← List.reverse_append, List.takeWhile_append_dropWhile,
      List.reverse_reverse, List.takeWhile_append_dropWhile]
  · intro c hc
    rcases List.mem_append.mp hc with hc | hc
    · exact List.mem_takeWhile_imp hc
    · exact List.mem_takeWhile_imp (List.mem_reverse.mp hc)

end Text

/-! ## Codes -/

/-- A hash has thirty-two bytes. -/
theorem Sha256.length_digest (message : Bytes) : (Sha256.digest message).length = 32 := by
  unfold digest
  generalize absorbAll _ _ _ = state
  rfl

namespace Signer

variable {s : Signer} {payload : Bytes} {text : String}

/-- What fits some bytes spells out their code between blanks. -/
theorem fits_iff_spells : s.Fits payload text ↔
    Hex.Spells (Text.trim text).toList (Hmac.code s.key payload) := Hex.decodeChars_eq_some_iff

/-- That is so whatever the blanks are, -/
theorem fits_iff_between : s.Fits payload text ↔
    ∃ front digits back, text.toList = front ++ digits ++ back ∧
      (∀ c ∈ front ++ back, Text.isBlank c = true) ∧
      Hex.Spells digits (Hmac.code s.key payload) := by
  rw [fits_iff_spells, Text.trim, String.toList_ofList]
  constructor
  · intro h
    obtain ⟨front, back, htext, hblank⟩ := Text.exists_trimChars text.toList
    exact ⟨front, _, back, htext, hblank, h⟩
  · rintro ⟨front, digits, back, htext, hblank, h⟩
    have hdigits : ∀ c ∈ digits, Text.isBlank c = false := fun c hc =>
      (h.exists_digit c hc).elim fun _ hdigit => hdigit.isBlank
    rw [htext, Text.trimChars_append (fun c hc => hblank c (List.mem_append_left _ hc)) hdigits
      fun c hc => hblank c (List.mem_append_right _ hc)]
    exact h

/-- and it is the signature that is sent, once it is in lower case. -/
theorem fits_iff_lower : s.Fits payload text ↔
    Text.lowerAscii (Text.trim text) = s.sign payload := by
  rw [fits_iff_spells, Hex.Spells.iff_toLower, ← toList_sign, Text.lowerAscii]
  constructor
  · intro h
    rw [h, String.ofList_toList]
  · intro h
    rw [← h, String.toList_ofList]

/-- What is written of bytes are lower-case digits. -/
theorem lower_of_mem {c : Char} {b : Bytes} (h : c ∈ Hex.encodeChars b) :
    ('0' ≤ c ∧ c ≤ '9') ∨ ('a' ≤ c ∧ c ≤ 'f') := by
  have hlower : ∀ n < 16, ('0' ≤ Nat.digitChar n ∧ Nat.digitChar n ≤ '9') ∨
      ('a' ≤ Nat.digitChar n ∧ Nat.digitChar n ≤ 'f') := by decide
  obtain ⟨n, hn, rfl⟩ := Hex.exists_digit_of_mem h
  exact hlower n hn

/-- What comes of a check: the text is accepted, or it is no code at all, or that of other bytes. -/
theorem verify_cases (s : Signer) (payload : Bytes) (text : String) :
    (s.Fits payload text ∧ s.verify payload text = .ok ()) ∨
      (¬(∃ b, Hex.Spells (Text.trim text).toList b) ∧
        s.verify payload text = .error (.signature .notHex)) ∨
      (∃ b, b ≠ Hmac.code s.key payload ∧ Hex.Spells (Text.trim text).toList b) ∧
        s.verify payload text = .error (.signature .mismatch) := by
  unfold Fits verify
  cases hdecode : Hex.decode (Text.trim text) with
  | none =>
    refine Or.inr (Or.inl ⟨fun ⟨b, hb⟩ => ?_, rfl⟩)
    have hread : Hex.decode (Text.trim text) = some b := Hex.decodeChars_eq_some_iff.mpr hb
    rw [hdecode] at hread
    cases hread
  | some b =>
    by_cases hcode : b = Hmac.code s.key payload
    · exact Or.inl ⟨congrArg some hcode, if_pos hcode⟩
    · exact Or.inr (Or.inr ⟨⟨b, hcode, Hex.decodeChars_eq_some_iff.mp hdecode⟩, if_neg hcode⟩)

/-- **Exactly the texts that spell out the code are accepted.** A text is a signature of some bytes
if it spells out the thirty-two bytes of their code between blanks, which is so exactly if in lower
case and without blanks it is the signature that is sent. Any other text is turned down for its
signature: as no code, if what stands between its blanks is not made of pairs of digits, and else as
the code of other bytes. The signature that is sent has sixty-four lower-case digits and is
accepted. -/
theorem accepted_iff_spelled (s : Signer) (payload : Bytes) (text : String) :
    (Hmac.code s.key payload).length = 32 ∧
      (s.verify payload text = .ok () ↔
        ∃ front digits back, text.toList = front ++ digits ++ back ∧
          (∀ c ∈ front ++ back, Text.isBlank c = true) ∧
          Hex.Spells digits (Hmac.code s.key payload)) ∧
      (s.verify payload text = .ok () ↔
        Text.lowerAscii (Text.trim text) = s.sign payload) ∧
      (s.verify payload text = .error (.signature .notHex) ↔
        ¬((Text.trim text).length % 2 = 0 ∧ ∀ c ∈ (Text.trim text).toList, ∃ n, Hex.Digit c n)) ∧
      (s.verify payload text = .error (.signature .mismatch) ↔
        ∃ b, b ≠ Hmac.code s.key payload ∧ Hex.Spells (Text.trim text).toList b) ∧
      (s.verify payload text = .ok () ∨
        ∃ defect, s.verify payload text = .error (.signature defect)) ∧
      (s.sign payload).length = 64 ∧
      (∀ c ∈ (s.sign payload).toList, ('0' ≤ c ∧ c ≤ '9') ∨ ('a' ≤ c ∧ c ≤ 'f')) ∧
      s.verify payload (s.sign payload) = .ok () := by
  have hcode : (Hmac.code s.key payload).length = 32 := Sha256.length_digest _
  have hlength : (s.sign payload).length = 64 := by
    have hspelled := Hex.decodeChars_eq_some_iff.mp
      (Hex.decodeChars_encodeChars (Hmac.code s.key payload))
    rw [← String.length_toList, toList_sign, hspelled.length_eq, hcode]
  -- one of three things comes of a check, and each of them shuts out the others
  have hcases : (s.verify payload text = .error (.signature .notHex) ↔
        ¬∃ b, Hex.Spells (Text.trim text).toList b) ∧
      (s.verify payload text = .error (.signature .mismatch) ↔
        ∃ b, b ≠ Hmac.code s.key payload ∧ Hex.Spells (Text.trim text).toList b) ∧
      (s.verify payload text = .ok () ∨
        ∃ defect, s.verify payload text = .error (.signature defect)) := by
    rcases verify_cases s payload text with ⟨hfits, hok⟩ | ⟨hnone, herror⟩ | ⟨⟨b, hne, hb⟩, herror⟩
    · have hcode := fits_iff_spells.mp hfits
      rw [hok]
      refine ⟨⟨nofun, fun h => absurd ⟨_, hcode⟩ h⟩, ⟨nofun, ?_⟩, Or.inl rfl⟩
      rintro ⟨b, hne, hb⟩
      exact absurd (hb.bytes_eq hcode) hne
    · rw [herror]
      exact ⟨⟨fun _ => hnone, fun _ => rfl⟩, ⟨nofun, fun ⟨b, _, hb⟩ => absurd ⟨b, hb⟩ hnone⟩,
        Or.inr ⟨_, rfl⟩⟩
    · rw [herror]
      exact ⟨⟨nofun, fun h => absurd ⟨b, hb⟩ h⟩, ⟨fun _ => ⟨b, hne, hb⟩, fun _ => rfl⟩,
        Or.inr ⟨_, rfl⟩⟩
  refine ⟨hcode, verify_eq_ok_iff.trans fits_iff_between,
    verify_eq_ok_iff.trans fits_iff_lower, ?_, hcases.2.1, hcases.2.2, hlength,
    fun c hc => lower_of_mem (toList_sign s payload ▸ hc), s.verify_sign payload⟩
  rw [hcases.1, Hex.Spells.exists_iff, String.length_toList]

end Signer

end Telemetry
