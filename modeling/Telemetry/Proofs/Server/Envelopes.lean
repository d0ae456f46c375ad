import Telemetry.Proofs.Server.Untrusted

/-!
# Envelopes that do not open

Whatever keeps an envelope from being opened, it is one fault (`Guard.openBody_eq_error`), and that
fault is met before the signature and the store are. So what is answered to a request with such an
envelope tells nothing about it (`rejected_envelopes_alike`). A body that is too long is turned down
before its envelope is looked at, and told so (`oversized_envelope_is_told_apart`).
-/

namespace Telemetry

/-- Opening fails in one way only. -/
theorem Decryptor.decrypt_eq_error {d : Decryptor} {envelope : Bytes} {f : Fault}
    (h : d.decrypt envelope = .error f) : f = .decrypt := by
  unfold decrypt at h
  split at h
  next => cases h; rfl
  next =>
    split at h
    next => cases h; rfl
    next =>
      split at h
      next => cases h; rfl
      next =>
        split at h
        next => cases h
        next => cases h; rfl

theorem Guard.openBody_eq_error {g : Guard} {envelope : Bytes} {f : Fault}
    (h : g.openBody envelope true = .error f) : f = .decrypt := by
  unfold openBody at h
  rw [if_neg (by decide)] at h
  split at h
  next => cases h; rfl
  next d _ => exact Decryptor.decrypt_eq_error h

namespace Http

namespace Request

/-- What a request brings, without its compression. -/
def unzipped (r : Request) : Except Fault Bytes :=
  if r.hasHeader "Content-Encoding" Gzip.encoding then Gzip.decompress maxBody r.body
  else .ok r.body

/-- Whether a request of an admitted peer is said to bring an envelope, and what it brings does not
open, for whatever reason. -/
structure BringsLocked (g : Guard) (r : Request) : Prop where
  admitted : g.checkPeer (r.header? addressHeader) = .ok ()
  flagged : r.hasHeader envelopeHeader "true" = true
  nonempty : r.body ≠ []
  locked : ∃ envelope f, r.unzipped = .ok envelope ∧ g.openBody envelope true = .error f

end Request

/-- What is answered to a body that cannot be opened, unless it is too long to be read. -/
def lockedOut (isTooLong : Prop) [Decidable isTooLong] : Response :=
  if isTooLong then .ofProblem ⟨.badRequest, "요청 본문 읽기 실패: length limit exceeded"⟩
  else .ofFault .decrypt

theorem status_lockedOut (isTooLong : Prop) [Decidable isTooLong] :
    (lockedOut isTooLong).status = 400 := by
  unfold lockedOut
  split <;> rfl

section Requests

variable {σ : Type} {g : Guard} {r : Request}

theorem Request.BringsLocked.plainBody (h : r.BringsLocked g) :
    r.plainBody g = .error .decrypt := by
  obtain ⟨envelope, f, hunzipped, hopen⟩ := h.locked
  obtain rfl := Guard.openBody_eq_error hopen
  unfold Request.unzipped at hunzipped
  unfold Request.plainBody Http.openBody
  rw [h.flagged]
  split at hunzipped
  next hcompressed =>
    rw [if_pos hcompressed, hunzipped]
    show (do let plain ← g.openBody envelope true; _) = _
    rw [hopen]
    rfl
  next hcompressed =>
    cases hunzipped
    rw [if_neg hcompressed]
    show (do let plain ← g.openBody r.body true; _) = _
    rw [hopen]
    rfl

/-- What is answered to an envelope that does not open is made of nothing that is in it. -/
theorem respond_of_bringsLocked (h : r.BringsLocked g) (store : Store (StateM σ)) :
    respond g store r = pure (r.dispatched g (lockedOut (maxBody < r.body.length))) := by
  have hopen : ∀ go : Bytes → StateM σ Response,
      openRequest g r go = pure (lockedOut (maxBody < r.body.length)) := by
    intro go
    unfold openRequest lockedOut
    split
    · rfl
    · rw [if_neg (by simpa using h.nonempty), h.plainBody]
  unfold respond respondAdmitted
  rw [h.admitted]
  simp only [hopen, pure_bind]
  rfl

/-- A response goes out alike for requests to one route that accept the same. -/
theorem dispatched_of_alike {r' : Request} (hroute : r.route.Alike r'.route)
    (hmethod : r'.method = r.method)
    (haccept : r'.header? "Accept-Encoding" = r.header? "Accept-Encoding") (response : Response) :
    r.dispatched g response = r'.dispatched g response := by
  unfold Request.dispatched
  rw [hmethod, haccept]
  exact finish_of_alike hroute _ _

end Requests

end Http

namespace Rpc

/-- What is answered to an envelope that does not open is the same for all of them. -/
theorem answer_of_locked {m : Type → Type} [Monad m] {g : Guard} (store : Store m) {r : Request}
    (hadmitted : g.checkPeer (r.text? addressKey) = .ok ()) (hflagged : r.isEnvelope = true)
    (hlocked : ∃ f, g.openBody r.envelope true = .error f) :
    answer g store r = pure (.error ⟨.invalidArgument, Fault.decrypt.message⟩) := by
  obtain ⟨f, hopen⟩ := hlocked
  obtain rfl := Guard.openBody_eq_error hopen
  have hfault : ∀ {α : Type} (reader : Json.Reader α) (document : α → Bytes)
      (plain : Except Fault α), r.open g reader document plain = .error .decrypt := by
    intro α reader document plain
    rw [Request.open_of_admitted hadmitted, hflagged, if_pos rfl, hopen]
    rfl
  exact answer_of_open_error store hfault

end Rpc

/-- **Envelopes that do not open are answered alike.** For every server, let two requests of
admitted peers be said to bring envelopes, and let what they bring not open, for whatever reasons.

* Two HTTP requests to one route by one method that accept the same encodings are answered alike,
  with status 400, if their bodies are both short enough to be read or both too long; what they
  bring, how they sign it and what is stored does not show, and the state of the store is left as
  it is.
* Two remote calls are refused alike, and leave the state as it is. -/
theorem rejected_envelopes_alike (g : Guard) :
    (∀ {σ σ' : Type} (store : Store (StateM σ)) (store' : Store (StateM σ')) (s : σ) (s' : σ')
      (r r' : Http.Request),
      r.BringsLocked g → r'.BringsLocked g →
        (r.body.length ≤ Http.maxBody ↔ r'.body.length ≤ Http.maxBody) →
          r.route.Alike r'.route → r'.method = r.method →
            r'.header? "Accept-Encoding" = r.header? "Accept-Encoding" →
              ∃ reply : Http.Response, reply.status = 400 ∧
                (Http.respond g store r).run s = (reply, s) ∧
                  (Http.respond g store' r').run s' = (reply, s')) ∧
    ∃ status : RpcStatus, status.code = .invalidArgument ∧
      ∀ {σ : Type} (store : Store (StateM σ)) (s : σ) (r : Rpc.Request),
        g.checkPeer (r.text? Rpc.addressKey) = .ok () → r.isEnvelope = true →
          (∃ f, g.openBody r.envelope true = .error f) →
            (Rpc.answer g store r).run s = (.error status, s) := by
  refine ⟨?_, ⟨.invalidArgument, Fault.decrypt.message⟩, rfl,
    fun store s r hadmitted hflagged hlocked => ?_⟩
  · intro σ σ' store store' s s' r r' h h' hlength hroute hmethod haccept
    refine ⟨r.dispatched g (Http.lockedOut (Http.maxBody < r.body.length)), ?_, ?_, ?_⟩
    · exact (r.status_dispatched g _).trans (Http.status_lockedOut _)
    · rw [Http.respond_of_bringsLocked h]
      rfl
    · have htold : Http.lockedOut (Http.maxBody < r'.body.length) =
          Http.lockedOut (Http.maxBody < r.body.length) := by
        unfold Http.lockedOut
        simp only [← Nat.not_le, hlength]
      rw [Http.respond_of_bringsLocked h', htold,
        ← Http.dispatched_of_alike hroute hmethod haccept]
      rfl
  · rw [Rpc.answer_of_locked store hadmitted hflagged hlocked]
    rfl

/-- For a modulus of three bytes, an envelope that is too short, and one whose first part holds no
session key. -/
theorem rejected_envelopes_alike_of_short_and_empty :
    let g : Guard := ⟨some ⟨[0x6b]⟩, some ⟨⟨⟨67591, 3⟩, 44715⟩⟩, none⟩
    let flag : List (String × Bytes) := [(Http.envelopeHeader, Bytes.ofText "true")]
    let r : Http.Request := ⟨"POST", "/update/", flag, [0x7b]⟩
    let r' : Http.Request :=
      ⟨"POST", "/update/", (Http.signatureHeader, [0x30]) :: flag, [0, 0, 0, 0x7d]⟩
    let s : DumpingStore := .plain .empty
    let s' : DumpingStore := { s with table := ⟨[("hits", .counter "hits" 2)]⟩ }
    (r.BringsLocked g ∧ r'.BringsLocked g) ∧
      ∃ reply : Http.Response, reply.status = 400 ∧
        (Http.respond g DumpingStore.call r).run s = (reply, s) ∧
          (Http.respond g DumpingStore.call r').run s' = (reply, s') := by
  intro g flag r r' s s'
  have hshort : g.openBody r.body true = .error .decrypt := by decide +kernel
  have hempty : g.openBody r'.body true = .error .decrypt := by decide +kernel
  have h : r.BringsLocked g := ⟨rfl, by decide +kernel, nofun, _, _, rfl, hshort⟩
  have h' : r'.BringsLocked g := ⟨rfl, by decide +kernel, nofun, _, _, rfl, hempty⟩
  exact ⟨⟨h, h'⟩, (rejected_envelopes_alike g).1 DumpingStore.call DumpingStore.call s s' r r' h h'
    (by decide +kernel) (.refl _) rfl rfl⟩

/-- A server without a private key, where no envelope opens, tells one that is too long to be read
from a short one. -/
theorem oversized_envelope_is_told_apart :
    let g : Guard := ⟨none, none, none⟩
    let flag : List (String × Bytes) := [(Http.envelopeHeader, Bytes.ofText "true")]
    let r : Http.Request := ⟨"POST", "/update/", flag, [0x30]⟩
    let r' : Http.Request := { r with body := List.replicate (Http.maxBody + 1) 0x30 }
    let s : DumpingStore := .plain .empty
    (r.BringsLocked g ∧ r'.BringsLocked g) ∧
      (r'.route = r.route ∧ r'.method = r.method ∧
        r'.header? "Accept-Encoding" = r.header? "Accept-Encoding") ∧
      ((Http.respond g DumpingStore.call r).run s).1 ≠
        ((Http.respond g DumpingStore.call r').run s).1 := by
  intro g flag r r' s
  have h : r.BringsLocked g := ⟨rfl, by decide +kernel, nofun, _, _, rfl, rfl⟩
  have h' : r'.BringsLocked g :=
    ⟨rfl, h.flagged, List.cons_ne_nil _ _, r'.body, .decrypt, rfl, rfl⟩
  refine ⟨⟨h, h'⟩, ⟨rfl, rfl, rfl⟩, ?_⟩
  have hlong : Http.maxBody < r'.body.length := by
    rw [List.length_replicate]
    exact Nat.lt_succ_self _
  rw [Http.respond_of_bringsLocked h, Http.respond_of_bringsLocked h']
  unfold Http.lockedOut
  rw [if_neg (by decide), if_pos hlong]
  decide +kernel

end Telemetry
