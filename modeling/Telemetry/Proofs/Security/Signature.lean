import Telemetry.Proofs.Server.Signed

/-!
# Signatures that are read back

A signature is written in digits that stand in any header as they are, and it is accepted for the
bytes that it was made for (`Signer.verify_sign`).
-/

namespace Telemetry

namespace Hex

theorem digitOf_digitChar : ∀ n < 16, digitOf (Nat.digitChar n) = some n := by decide

/-- A digit stands for itself where blanks are left out. -/
theorem isBlank_digitChar : ∀ n < 16, Text.isBlank (Nat.digitChar n) = false := by decide

/-- A digit is a character that can be seen, and ASCII. -/
theorem digitChar_bounds :
    ∀ n < 16, 0x20 ≤ (Nat.digitChar n).toNat ∧ (Nat.digitChar n).toNat < 0x7f := by decide

/-- What is written are digits. -/
theorem exists_digit_of_mem {c : Char} {b : Bytes} (h : c ∈ encodeChars b) :
    ∃ n < 16, c = Nat.digitChar n := by
  obtain ⟨x, -, hc⟩ := List.mem_flatMap.mp h
  have hx := x.toNat_lt
  rcases List.mem_cons.mp hc with rfl | hc
  · exact ⟨x.toNat / 16, by omega, rfl⟩
  · exact ⟨x.toNat % 16, by omega, List.mem_singleton.mp hc⟩

theorem decodeChars_encodeChars (b : Bytes) : decodeChars (encodeChars b) = some b := by
  induction b with
  | nil => rfl
  | cons x b ih =>
    have hx := x.toNat_lt
    have hbyte : (x.toNat / 16 * 16 + x.toNat % 16).toUInt8 = x := by
      rw [Nat.div_add_mod']
      exact UInt8.ofNat_toNat
    show decodeChars (Nat.digitChar (x.toNat / 16) :: Nat.digitChar (x.toNat % 16) ::
      encodeChars b) = _
    rw [decodeChars, digitOf_digitChar _ (by omega), digitOf_digitChar _ (by omega), ih]
    simp only [hbyte]

theorem decode_encode (b : Bytes) : decode (encode b) = some b := by
  unfold decode encode
  rw [String.toList_ofList]
  exact decodeChars_encodeChars b

end Hex

namespace Text

theorem trimChars_of_forall {cs : List Char} (h : ∀ c ∈ cs, isBlank c = false) :
    trimChars cs = cs := by
  have hfront : ∀ l : List Char, (∀ c ∈ l, isBlank c = false) → l.dropWhile isBlank = l := by
    intro l hl
    cases l with
    | nil => rfl
    | cons c l => rw [List.dropWhile_cons_of_neg (by simp [hl c List.mem_cons_self])]
  unfold trimChars trimEndChars
  rw [hfront cs h, hfront _ fun c hc => h c (List.mem_reverse.mp hc), List.reverse_reverse]

/-- A text without blanks is left as it is. -/
theorem trim_of_forall {s : String} (h : ∀ c ∈ s.toList, isBlank c = false) : trim s = s := by
  unfold trim
  rw [trimChars_of_forall h, String.ofList_toList]

end Text

namespace Signer

theorem toList_sign (s : Signer) (payload : Bytes) :
    (s.sign payload).toList = Hex.encodeChars (Hmac.code s.key payload) := String.toList_ofList

/-- **A signature is accepted** for what it was made for. -/
theorem verify_sign (s : Signer) (payload : Bytes) :
    s.verify payload (s.sign payload) = .ok () := by
  rw [verify_eq_ok_iff]
  unfold Fits
  rw [Text.trim_of_forall]
  · exact Hex.decode_encode _
  · intro c hc
    rw [toList_sign] at hc
    obtain ⟨n, hn, rfl⟩ := Hex.exists_digit_of_mem hc
    exact Hex.isBlank_digitChar n hn

/-- A signature has only characters that can be seen. -/
theorem sign_bounds (s : Signer) (payload : Bytes) :
    ∀ c ∈ (s.sign payload).toList, 0x20 ≤ c.toNat ∧ c.toNat < 0x7f := by
  intro c hc
  rw [toList_sign] at hc
  obtain ⟨n, hn, rfl⟩ := Hex.exists_digit_of_mem hc
  exact Hex.digitChar_bounds n hn

end Signer

/-- A server that has the key of a sender, or none, accepts what the sender signs. -/
theorem Guard.verify_of_shared {g : Guard} {signer : Option Signer}
    (hshared : ∀ key, g.signer = some key → signer = some key) (payload : Bytes) :
    g.verify payload (signer.map fun s => s.sign payload) = .ok () := by
  unfold verify
  cases hkey : g.signer with
  | none => rfl
  | some key =>
    rw [hshared key hkey]
    exact key.verify_sign payload

end Telemetry
