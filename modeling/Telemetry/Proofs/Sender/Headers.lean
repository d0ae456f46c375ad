import Telemetry.Http.Message
import Telemetry.Proofs.Security.Signature
import Telemetry.Proofs.Utf8
import Telemetry.Rpc.Service
import Telemetry.Sender.Http
import Telemetry.Sender.Rpc

/-!
# What a server reads from the headers of a sender

A text of visible ASCII characters is read from a header as it was written
(`Http.headerText?_cons_self`). So the signature that a sender sends and its mark for an envelope
reach the server, over both transports.
-/

namespace Telemetry

/-- Whether a text has only ASCII characters that can be seen, blanks included. -/
def Text.IsVisible (s : String) : Prop := ∀ c ∈ s.toList, 0x20 ≤ c.toNat ∧ c.toNat < 0x7f

theorem Text.isVisible_of_all {s : String}
    (h : s.toList.all (fun c => 0x20 ≤ c.toNat && c.toNat < 0x7f) = true) : IsVisible s := by
  intro c hc
  simpa using List.all_eq_true.mp h c hc

namespace Http

theorem isHeaderByte_iff {b : UInt8} :
    isHeaderByte b = true ↔ b.toNat = 9 ∨ 0x20 ≤ b.toNat ∧ b.toNat < 0x7f := by
  unfold isHeaderByte
  simp [← UInt8.toNat_inj, UInt8.le_iff_toNat_le, UInt8.lt_iff_toNat_lt]

theorem all_isHeaderByte {s : String} (h : Text.IsVisible s) :
    (Bytes.ofText s).all isHeaderByte = true := by
  rw [List.all_eq_true]
  intro b hb
  rw [Bytes.ofText_eq] at hb
  obtain ⟨c, hc, hb⟩ := List.mem_flatMap.mp hb
  obtain ⟨hlow, hhigh⟩ := h c hc
  rw [Bytes.utf8EncodeChar_ascii (by omega), List.mem_singleton] at hb
  have hvalue : b.toNat = c.toNat := by
    rw [hb, Bytes.ofChar]
    exact Nat.mod_eq_of_lt (by omega)
  rw [isHeaderByte_iff, hvalue]
  exact Or.inr ⟨hlow, hhigh⟩

section Lookup

variable {name name' : String} (rest : List (String × Bytes))

/-- A visible text is read from its header as it was written. -/
theorem headerText?_cons_self {s : String} (hname : Text.lowerAscii name' = Text.lowerAscii name)
    (h : Text.IsVisible s) : headerText? ((name', Bytes.ofText s) :: rest) name = some s := by
  unfold headerText?
  rw [List.find?_cons_of_pos (by simpa using hname)]
  dsimp only
  rw [if_pos (all_isHeaderByte h)]
  exact Bytes.toText?_ofText s

theorem headerText?_cons_of_ne (hname : Text.lowerAscii name' ≠ Text.lowerAscii name)
    (value : Bytes) : headerText? ((name', value) :: rest) name = headerText? rest name := by
  unfold headerText?
  rw [List.find?_cons_of_neg (by simpa using hname)]

/-- A header that may be there is under no other name. -/
theorem headerText?_option_of_ne {α : Type} (hname : Text.lowerAscii name' ≠ Text.lowerAscii name)
    (value : Option α) (bytes : α → Bytes) :
    headerText? (value.map fun a => (name', bytes a)).toList name = none := by
  cases value with
  | none => rfl
  | some a => exact headerText?_cons_of_ne [] hname (bytes a)

end Lookup

end Http

/-- Metadata are read as headers are. -/
theorem Rpc.Request.text?_eq (r : Rpc.Request) {key : String} (h : Text.lowerAscii key = key) :
    r.text? key = Http.headerText? r.metadata key := by
  unfold Rpc.Request.text? Http.headerText?
  rw [h]
  rfl

/-! ## Parcels -/

theorem isVisible_true : Text.IsVisible "true" := Text.isVisible_of_all (by decide)

/-- Whether the signature of a parcel can be put into a header. -/
def Parcel.IsVisible (p : Parcel) : Prop := ∀ s, p.signature = some s → Text.IsVisible s

/-- **What a parcel is**: the signature of the document, and the document itself or its envelope. -/
theorem Sealer.pack_spec {s : Sealer} {seed : EnvelopeSeed} {plain : Bytes} {p : Parcel}
    (h : s.pack seed plain = .ok p) :
    p.signature = s.signer.map (fun signer => signer.sign plain) ∧
      p.isEnvelope = s.encryptor.isSome ∧ (s.encryptor = none → p.body = plain) ∧
        ∀ e, s.encryptor = some e → e.encrypt seed plain = .ok p.body := by
  unfold pack at h
  dsimp only at h
  split at h
  next hnone =>
    cases h
    rw [hnone]
    exact ⟨rfl, rfl, fun _ => rfl, fun e he => (nomatch he)⟩
  next e hsome =>
    obtain ⟨envelope, henvelope, rfl⟩ := Fallible.map_eq_ok_iff.mp h
    rw [hsome]
    refine ⟨rfl, rfl, fun hnone => (nomatch hnone), fun e' he' => ?_⟩
    rw [← Option.some.inj he']
    exact henvelope

theorem Sealer.isVisible_pack {s : Sealer} {seed : EnvelopeSeed} {plain : Bytes} {p : Parcel}
    (h : s.pack seed plain = .ok p) : p.IsVisible := by
  intro text htext
  rw [(pack_spec h).1] at htext
  obtain ⟨signer, -, rfl⟩ := Option.map_eq_some_iff.mp htext
  exact signer.sign_bounds plain

section Headers

variable {p : Parcel}

/-- The headers of a parcel under the names that a transport has for them, behind others and
before the own address. -/
def Parcel.headers (p : Parcel) (signatureName envelopeName : String)
    (rest : List (String × Bytes)) : List (String × Bytes) :=
  ((p.signature.map fun s => (signatureName, s)).toList ++
    (if p.isEnvelope then [(envelopeName, "true")] else [])).map
      (fun h => (h.1, Bytes.ofText h.2)) ++ rest

theorem Parcel.headerText?_signature (h : p.IsVisible) {signatureName envelopeName : String}
    (hnames : Text.lowerAscii envelopeName ≠ Text.lowerAscii signatureName)
    {rest : List (String × Bytes)} (hrest : Http.headerText? rest signatureName = none) :
    Http.headerText? (p.headers signatureName envelopeName rest) signatureName = p.signature := by
  unfold Parcel.headers
  cases hsignature : p.signature with
  | some s => exact Http.headerText?_cons_self _ rfl (h s hsignature)
  | none =>
    cases p.isEnvelope with
    | true => exact (Http.headerText?_cons_of_ne _ hnames _).trans hrest
    | false => exact hrest

theorem Parcel.headerText?_envelope {signatureName envelopeName : String}
    (hnames : Text.lowerAscii signatureName ≠ Text.lowerAscii envelopeName)
    {rest : List (String × Bytes)} (hrest : Http.headerText? rest envelopeName = none) :
    Http.headerText? (p.headers signatureName envelopeName rest) envelopeName =
      if p.isEnvelope then some "true" else none := by
  have hmark : ∀ rest' : List (String × Bytes), rest' =
      (if p.isEnvelope then [(envelopeName, Bytes.ofText "true")] else []) ++ rest →
      Http.headerText? rest' envelopeName = if p.isEnvelope then some "true" else none := by
    rintro _ rfl
    cases p.isEnvelope with
    | true => exact Http.headerText?_cons_self _ rfl isVisible_true
    | false => exact hrest
  unfold Parcel.headers
  cases p.signature with
  | some s =>
    refine (Http.headerText?_cons_of_ne _ hnames _).trans (hmark _ ?_)
    cases p.isEnvelope <;> rfl
  | none =>
    refine hmark _ ?_
    cases p.isEnvelope <;> rfl

end Headers

end Telemetry
