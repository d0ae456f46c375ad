import Telemetry.Crypto.Envelope
import Telemetry.Proofs.Crypto.Gcm
import Telemetry.Proofs.Crypto.Rsa

/-!
# Envelopes open for the key they were made for

An envelope is split at the length of the modulus, which is as long as the part with the session key
(`Rsa.unwrap_wrap`); the rest is the body under that session key (`Gcm.decrypt_encrypt`). So what is
put into an envelope is taken out of it again (`Decryptor.decrypt_encrypt`).
-/

namespace Telemetry

/-- Whether what was drawn is enough for an envelope with a modulus of so many bytes. -/
structure EnvelopeSeed.Fits (seed : EnvelopeSeed) (size : Nat) : Prop where
  length_sessionKey : seed.sessionKey.length = sessionKeyLength
  filler_ne_zero : ∀ x ∈ seed.filler, x ≠ 0
  size_le : size ≤ seed.filler.length + sessionKeyLength + 3

/-- Whether a modulus has room for a session key. -/
def Encryptor.HasRoom (e : Encryptor) : Prop := sessionKeyLength + 11 ≤ e.keySize

namespace Encryptor

variable {e : Encryptor} {seed : EnvelopeSeed}

/-- An envelope is made if there is room for the session key. -/
theorem exists_encrypt_iff (hkey : seed.sessionKey.length = sessionKeyLength) (plain : Bytes) :
    (∃ envelope, e.encrypt seed plain = .ok envelope) ↔ e.HasRoom := by
  unfold encrypt Rsa.wrap HasRoom
  rw [hkey]
  split
  next hwrap =>
    split at hwrap
    next hsmall => exact ⟨fun ⟨_, h⟩ => (nomatch h), fun h => absurd hsmall (Nat.not_lt.mpr h)⟩
    next => cases hwrap
  next wrapped hwrap =>
    split at hwrap
    next => cases hwrap
    next hroom => exact ⟨fun _ => Nat.not_lt.mp hroom, fun _ => ⟨_, rfl⟩⟩

end Encryptor

/-- **An envelope opens to the body** for the holder of the private key, and it is as much longer as
the modulus and the tag. -/
theorem Decryptor.decrypt_encrypt {d : Decryptor} {e : Encryptor} (h : d.key.Opens e.key)
    {seed : EnvelopeSeed} (hseed : seed.Fits e.keySize) {plain envelope : Bytes}
    (hencrypt : e.encrypt seed plain = .ok envelope) :
    d.decrypt envelope = .ok plain ∧ envelope.length = e.keySize + plain.length + 16 := by
  have hkey := hseed.length_sessionKey
  have hroom : e.HasRoom := (Encryptor.exists_encrypt_iff hkey plain).mp ⟨envelope, hencrypt⟩
  have hsize : d.keySize = e.keySize := congrArg Rsa.PublicKey.size h.toPublic_eq
  obtain ⟨wrapped, hwrap, hlength, hunwrap⟩ := Rsa.unwrap_wrap h hseed.filler_ne_zero
    seed.sessionKey (by rw [hkey]; exact hseed.size_le) (by rw [hkey]; exact hroom)
  have hlength' : wrapped.length = d.keySize := hlength.trans hsize.symm
  unfold Encryptor.encrypt at hencrypt
  rw [hwrap] at hencrypt
  cases hencrypt
  constructor
  · unfold decrypt
    rw [if_neg (by rw [List.length_append]; omega), List.take_left' hlength',
      List.drop_left' hlength', hunwrap]
    dsimp only
    rw [if_neg (not_not_intro hkey), Gcm.decrypt_encrypt hkey]
  · rw [List.length_append, hlength', hsize, Gcm.length_encrypt hkey, Nat.add_assoc]

end Telemetry
