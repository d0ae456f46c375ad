import Mathlib.NumberTheory.LucasLehmer
import Telemetry.Proofs.Crypto.Envelope
import Telemetry.Proofs.Gzip.Bounded
import Telemetry.Proofs.Metric.Document
import Telemetry.Proofs.Sender.Messages
import Telemetry.Proofs.Sender.Replies
import Telemetry.Proofs.Server.Requests

/-!
# Both ends agree

A sender signs, seals and compresses in this order; a server decompresses, opens and checks in the
other, and finds in the headers which of it was done. `matched_ends_agree` says that nothing of this
changes a byte, in either direction, as long as the server has the keys that go with those of the
sender, and that a server with a signing key turns down a sender without one.

The bodies that a server opens may be four times as long as those that its routes read. A document
between the two bounds is opened, and then turned down by its route
(`long_document_is_not_read`).
-/

namespace Telemetry

/-! ## Parcels -/

/-- Whether a server has what goes with the keys of a sender: its signing key or none, and the
private key to its public key. -/
structure Guard.Matches (g : Guard) (s : Sealer) : Prop where
  signer : ∀ key, g.signer = some key → s.signer = some key
  decryptor : ∀ e, s.encryptor = some e → ∃ d, g.decryptor = some d ∧ d.key.Opens e.key

namespace Sealer

/-- Whether what was drawn is enough for the envelopes of a sender, if it makes any. -/
def TakesSeed (s : Sealer) (seed : EnvelopeSeed) : Prop :=
  ∀ e, s.encryptor = some e → seed.Fits e.keySize

/-- Whether the public key of a sender, if it has one, is long enough for a session key. -/
def HasRoom (s : Sealer) : Prop := ∀ e, s.encryptor = some e → e.HasRoom

variable {s : Sealer} {seed : EnvelopeSeed} {plain : Bytes}

theorem exists_pack (hseed : s.TakesSeed seed) (hroom : s.HasRoom) (plain : Bytes) :
    ∃ p, s.pack seed plain = .ok p := by
  unfold pack
  cases hencryptor : s.encryptor with
  | none => exact ⟨_, rfl⟩
  | some e =>
    obtain ⟨envelope, henvelope⟩ :=
      (Encryptor.exists_encrypt_iff (hseed e hencryptor).length_sessionKey plain).mpr
        (hroom e hencryptor)
    dsimp only
    rw [henvelope]
    exact ⟨_, rfl⟩

theorem length_pack {e : Encryptor} (hencryptor : s.encryptor = some e)
    {d : Decryptor} (hopens : d.key.Opens e.key) (hseed : s.TakesSeed seed) {p : Parcel}
    (h : s.pack seed plain = .ok p) : p.body.length = e.keySize + plain.length + 16 := by
  have henvelope := (pack_spec h).2.2.2 e hencryptor
  exact (Decryptor.decrypt_encrypt hopens (hseed e hencryptor) henvelope).2

/-- **A parcel opens to what was packed.** -/
theorem openBody_pack {g : Guard} (hmatch : g.Matches s) (hseed : s.TakesSeed seed) {p : Parcel}
    (h : s.pack seed plain = .ok p) : g.openBody p.body p.isEnvelope = .ok plain := by
  obtain ⟨-, hmark, hplain, hsealed⟩ := pack_spec h
  unfold Guard.openBody
  rw [hmark]
  cases hencryptor : s.encryptor with
  | none =>
    rw [hplain hencryptor]
    rfl
  | some e =>
    obtain ⟨d, hdecryptor, hopens⟩ := hmatch.decryptor e hencryptor
    rw [hdecryptor]
    exact (Decryptor.decrypt_encrypt hopens (hseed e hencryptor) (hsealed e hencryptor)).1

end Sealer

/-! ## Over HTTP -/

namespace Http

/-- Whether a route reads its body as a document. -/
def Route.readsDocument : Route → Bool
  | .update | .updates | .find => true
  | _ => false

/-- The response to a document that is too long for its route. -/
def tooLong : Response :=
  .plain 413 "Failed to buffer the request body: length limit exceeded"

theorem Route.handle_of_long {m : Type → Type} [Monad m] {route : Route} {document : Bytes}
    (hreads : route.readsDocument = true) (hlong : maxRouteBody < document.length)
    (store : Store m) : route.handle store document = pure tooLong := by
  cases route with
  | update => exact if_pos hlong
  | updates => exact if_pos hlong
  | find => exact if_pos hlong
  | _ => cases hreads

/-- A route that reads a document takes what is posted. -/
theorem Route.allows_of_readsDocument {route : Route} (hreads : route.readsDocument = true) :
    route ≠ .unknown ∧ route.allows "POST" = true := by
  cases route with
  | update => decide
  | updates => decide
  | find => decide
  | _ => cases hreads

end Http

theorem Http.Request.hasHeader_of_header? {r : Http.Request} {name value text : String}
    (h : r.header? name = some text) (htext : Text.lowerAscii text = value) :
    r.hasHeader name value = true := by
  unfold Http.Request.hasHeader
  rw [h]
  exact decide_eq_true htext

/-- Whether a request is within the bound on bodies, as it is sent and decompressed. -/
def Http.Request.IsWithinBound (r : Http.Request) : Prop :=
  r.body.length ≤ Http.maxBody ∧
    ∀ body, Gzip.gunzip r.body = some body → body.length ≤ Http.maxBody

namespace HttpSender

variable {s : HttpSender} {seed : EnvelopeSeed} {path : String} {document : Bytes}
  {r : Http.Request}

theorem headers_eq (s : HttpSender) (p : Parcel) :
    (s.headers p).map (fun h => (h.1, Bytes.ofText h.2)) =
      ("Content-Type", Bytes.ofText "application/json") ::
        ("Content-Encoding", Bytes.ofText Gzip.encoding) ::
          p.headers Http.signatureHeader Http.envelopeHeader
            (s.address.map fun ip => (Http.addressHeader, Bytes.ofText ip.text)).toList := by
  unfold headers Parcel.headers
  rw [List.append_assoc [_, _], List.map_append, List.map_append]
  cases s.address <;> rfl

/-- What is posted, as the server sees it: a compressed parcel, with the signature and the mark
of the parcel in the headers. -/
theorem request_spec (h : s.request seed path document = .ok r) :
    ∃ p, s.sealer.pack seed document = .ok p ∧ r.method = "POST" ∧
      r.body = Gzip.compress p.body ∧ r.hasHeader "Content-Encoding" Gzip.encoding = true ∧
        r.hasHeader Http.envelopeHeader "true" = p.isEnvelope ∧
          r.header? Http.signatureHeader = p.signature := by
  obtain ⟨p, hpack, rfl⟩ := Fallible.map_eq_ok_iff.mp h
  have haddress : ∀ {name : String}, Text.lowerAscii Http.addressHeader ≠ Text.lowerAscii name →
      Http.headerText? (s.address.map fun ip => (Http.addressHeader, Bytes.ofText ip.text)).toList
        name = none := fun hname => Http.headerText?_option_of_ne hname s.address _
  refine ⟨p, hpack, rfl, rfl, ?_, ?_, ?_⟩
  · have hencoding : Http.headerText? ((s.headers p).map fun h => (h.1, Bytes.ofText h.2))
        "Content-Encoding" = some Gzip.encoding := by
      rw [headers_eq, Http.headerText?_cons_of_ne _ (by decide)]
      exact Http.headerText?_cons_self _ rfl isVisible_encoding
    exact Http.Request.hasHeader_of_header? hencoding (by decide)
  · unfold Http.Request.hasHeader Http.Request.header?
    dsimp only
    rw [headers_eq, Http.headerText?_cons_of_ne _ (by decide),
      Http.headerText?_cons_of_ne _ (by decide),
      Parcel.headerText?_envelope (by decide) (haddress (by decide))]
    cases p.isEnvelope <;> decide
  · unfold Http.Request.header?
    dsimp only
    rw [headers_eq, Http.headerText?_cons_of_ne _ (by decide),
      Http.headerText?_cons_of_ne _ (by decide),
      Parcel.headerText?_signature (Sealer.isVisible_pack hpack) (by decide)
        (haddress (by decide))]

theorem route_request (h : s.request seed path document = .ok r) :
    r.route = Http.Route.ofPath (Http.Route.pathOf (Locator.target (s.locator path))) := by
  obtain ⟨p, -, rfl⟩ := Fallible.map_eq_ok_iff.mp h
  rfl

theorem signature_request (h : s.request seed path document = .ok r) :
    r.header? Http.signatureHeader = s.sealer.signer.map fun signer => signer.sign document := by
  obtain ⟨p, hpack, -, -, -, -, hsignature⟩ := request_spec h
  rw [hsignature, (Sealer.pack_spec hpack).1]

/-- A parcel that is short enough before it is compressed is so afterwards. -/
theorem isWithinBound_request (h : s.request seed path document = .ok r)
    (hshort : ∀ p, s.sealer.pack seed document = .ok p →
      9 * p.body.length + 166 ≤ 8 * Http.maxBody) : r.IsWithinBound := by
  obtain ⟨p, hpack, -, hbody, -⟩ := request_spec h
  have hparcel := hshort p hpack
  have hcompressed := Gzip.length_compress_le p.body
  constructor
  · rw [hbody]
    omega
  · intro body hgunzip
    rw [hbody, Gzip.gunzip_compress] at hgunzip
    rw [← Option.some.inj hgunzip]
    omega

/-- What is posted is opened to what it was before it was sealed, and is signed. -/
theorem plainBody_request {g : Guard} (hmatch : g.Matches s.sealer)
    (hseed : s.sealer.TakesSeed seed) (h : s.request seed path document = .ok r)
    (hbound : r.IsWithinBound) : r.plainBody g = .ok document := by
  obtain ⟨p, hpack, hpost, hbody, hcompressed, henvelope, -⟩ := request_spec h
  have hparcel : p.body.length ≤ Http.maxBody :=
    hbound.2 p.body (by rw [hbody, Gzip.gunzip_compress])
  have hopen : Http.openBody g r.body true p.isEnvelope = .ok document := by
    unfold Http.openBody
    rw [if_pos rfl, hbody, Gzip.decompress_compress hparcel]
    exact Sealer.openBody_pack hmatch hseed hpack
  unfold Http.Request.plainBody
  rw [hcompressed, henvelope, hopen, signature_request h]
  show (do
    if r.method = "POST" then
      g.verify document (s.sealer.signer.map fun key : Signer => key.sign document)
    pure document) = _
  rw [if_pos hpost, Guard.verify_of_shared hmatch.signer]
  rfl

theorem isEmpty_body_request (h : s.request seed path document = .ok r) :
    ¬r.body.isEmpty = true := by
  obtain ⟨p, -, -, hbody, -⟩ := request_spec h
  rw [List.isEmpty_iff, hbody]
  exact Gzip.compress_ne_nil p.body

/-- **What is posted reaches the handler** as it was before it was sealed. -/
theorem openRequest_request {g : Guard} (hmatch : g.Matches s.sealer)
    (hseed : s.sealer.TakesSeed seed) (h : s.request seed path document = .ok r)
    (hbound : r.IsWithinBound) {m : Type → Type} [Monad m] (go : Bytes → m Http.Response) :
    Http.openRequest g r go = go document := by
  unfold Http.openRequest
  rw [if_neg (Nat.not_lt.mpr hbound.1), if_neg (isEmpty_body_request h),
    plainBody_request hmatch hseed h hbound]

theorem admitted?_request {g : Guard} (hmatch : g.Matches s.sealer)
    (hseed : s.sealer.TakesSeed seed) (h : s.request seed path document = .ok r)
    (hbound : r.IsWithinBound) (hpeer : g.checkPeer (r.header? Http.addressHeader) = .ok ()) :
    r.admitted? g = some document := by
  unfold Http.Request.admitted?
  rw [hpeer]
  dsimp only
  rw [if_neg (Nat.not_lt.mpr hbound.1), if_neg (isEmpty_body_request h),
    plainBody_request hmatch hseed h hbound]
  rfl

/-- What a server answers to what is posted to a route that reads documents is the answer of this
route to the document. -/
theorem respond_request {g : Guard} (hmatch : g.Matches s.sealer)
    (hseed : s.sealer.TakesSeed seed) (h : s.request seed path document = .ok r)
    (hbound : r.IsWithinBound) (hpeer : g.checkPeer (r.header? Http.addressHeader) = .ok ())
    (hreads : r.route.readsDocument = true) {σ : Type} (store : Store (StateM σ)) :
    Http.respond g store r =
      r.route.handle store document >>= fun response => pure (r.dispatched g response) := by
  obtain ⟨hknown, hallows⟩ := Http.Route.allows_of_readsDocument hreads
  obtain ⟨p, -, hpost, -⟩ := request_spec h
  rw [Http.respond_of_admitted (admitted?_request hmatch hseed h hbound hpeer), if_neg hknown,
    hpost, if_pos hallows]

end HttpSender

/-- What tells of a problem is no success. -/
theorem Http.status_ofProblem_ge (p : Http.Problem) : 400 ≤ (Http.Response.ofProblem p).status := by
  show 400 ≤ p.status
  unfold Http.Problem.status
  cases p.kind <;> decide

/-- **What is posted without a signature does not reach the handler** of a server with a key. -/
theorem Http.openRequest_of_unsigned {g : Guard} (hsigner : g.signer.isSome) {r : Http.Request}
    (hpost : r.method = "POST") (hbody : r.body ≠ [])
    (hunsigned : r.header? Http.signatureHeader = none) :
    ∃ response : Http.Response, 400 ≤ response.status ∧
      ∀ {m : Type → Type} [Monad m] (go : Bytes → m Http.Response),
        Http.openRequest g r go = pure response := by
  obtain ⟨signer, hsigner⟩ := Option.isSome_iff_exists.mp hsigner
  have hfault : ∃ f, r.plainBody g = .error f := by
    cases hplain : r.plainBody g with
    | error f => exact ⟨f, rfl⟩
    | ok plain =>
      obtain ⟨_, text, -, htext, -⟩ := Http.signed_of_plainBody hsigner hpost hplain
      cases hunsigned.symm.trans htext
  obtain ⟨f, hfault⟩ := hfault
  have hnonempty : ¬r.body.isEmpty = true := by rwa [List.isEmpty_iff]
  by_cases hlong : Http.maxBody < r.body.length
  · exact ⟨_, Http.status_ofProblem_ge _, fun go => if_pos hlong⟩
  · refine ⟨.ofFault f, Http.status_ofProblem_ge _, fun go => ?_⟩
    unfold Http.openRequest
    rw [if_neg hlong, if_neg hnonempty, hfault]

/-! ## By remote calls -/

namespace Rpc

variable {g : Guard} {r : Request}

/-- Of a request with an envelope, what it holds is to be signed, and is read. -/
theorem Request.open_of_envelope {α : Type} {reader : Json.Reader α} {document : α → Bytes}
    {plain : Except Fault α} (hadmitted : g.checkPeer (r.text? addressKey) = .ok ())
    (henvelope : r.isEnvelope = true) {signed : Bytes}
    (hopen : g.openBody r.envelope true = .ok signed)
    (hverify : g.verify signed (r.text? signatureKey) = .ok ()) :
    r.open g reader document plain =
      (Json.Reader.parse reader signed).mapError .serialization := by
  rw [open_of_admitted hadmitted, henvelope, if_pos rfl, hopen]
  show (do
    let content ← (Json.Reader.parse reader signed).mapError Fault.serialization
    g.verify signed (r.text? signatureKey)
    pure content) = _
  cases Json.Reader.parse reader signed with
  | error d => rfl
  | ok content =>
    show (do g.verify signed (r.text? signatureKey); pure content) = _
    rw [hverify]
    rfl

/-- **A call without a signature is not answered by the store** of a server with a key. -/
theorem answer_of_unsigned (hsigner : g.signer.isSome) (hunsigned : r.text? signatureKey = none) :
    ∃ status, ∀ {m : Type → Type} [Monad m] (store : Store m),
      answer g store r = pure (.error status) := by
  obtain ⟨signer, hsigner⟩ := Option.isSome_iff_exists.mp hsigner
  have hfault : ∀ {α : Type} (reader : Json.Reader α) (document : α → Bytes)
      (plain : Except Fault α), ∃ f, r.open g reader document plain = .error f := by
    intro α reader document plain
    cases hopen : r.open g reader document plain with
    | error f => exact ⟨f, rfl⟩
    | ok content =>
      obtain ⟨signed, hverify, -⟩ := Request.verify_of_open hopen
      obtain ⟨text, htext, -⟩ := (Guard.verify_eq_ok_iff hsigner).mp hverify
      cases hunsigned.symm.trans htext
  cases hpayload : r.payload with
  | metric message =>
    obtain ⟨f, hf⟩ := hfault Metric.reader Metric.documentBytes (metricOf message)
    exact ⟨_, fun store => by rw [answer_metric store hpayload, hf]⟩
  | metrics messages =>
    obtain ⟨f, hf⟩ := hfault (Json.Reader.list Metric.reader) Metric.listDocumentBytes
      (MetricMessage.toMetrics messages)
    exact ⟨_, fun store => by rw [answer_metrics store hpayload, hf]⟩

end Rpc

/-- **An envelope that is sent by a remote call opens** to what was sealed, and the signature that
comes with it holds. -/
theorem RpcSender.openBody_request {s : RpcSender} {g : Guard} (hmatch : g.Matches s.sealer)
    {seed : EnvelopeSeed} (hseed : s.sealer.TakesSeed seed) (hsome : s.sealer.encryptor.isSome)
    {document : Bytes} {plain other : Rpc.Payload} {r : Rpc.Request}
    (h : s.request seed document plain other = .ok r) :
    r.isEnvelope = true ∧ g.openBody r.envelope true = .ok document ∧
      g.verify document (r.text? Rpc.signatureKey) = .ok () := by
  have henvelope : r.isEnvelope = true := (isEnvelope_request h).trans hsome
  refine ⟨henvelope, ?_, ?_⟩
  · obtain ⟨p, hpack, rfl⟩ := Fallible.map_eq_ok_iff.mp h
    have hopen := Sealer.openBody_pack hmatch hseed hpack
    have hmark : p.isEnvelope = true := (Sealer.pack_spec hpack).2.1.trans hsome
    rw [hmark] at hopen
    dsimp only
    rw [hmark]
    exact hopen
  · rw [text?_signature h]
    exact Guard.verify_of_shared hmatch.signer document

/-- **Matched ends agree byte for byte**, whether or not a sender signs and makes envelopes. Let a
server have the signing key of the sender or none, and the private key that goes with the public
key of the sender if it has one.

* A sender builds a request for every document if its public key has room for a session key. What it
  posts is opened to the document if it is within the bound on bodies, whatever is then done with it.
  A server that admits the sender hands the document to the route. A route that reads documents
  answers what it reads there if the document is no longer than `maxRouteBody`, and with a refusal
  that leaves the store alone if it is. An envelope that is sent by a remote call opens to the
  document and is signed, so a server that admits the sender reads this document.
* If the server has a signing key and the sender has none, then what it sends is answered without
  the handler or the store.
* Of a response of a handler, signed and compressed as it may be, a sender comes to the body that
  the handler has made and to the signature of this body, and it reads this body unless it has
  another key than the server. No handler encodes a body itself. -/
theorem matched_ends_agree (s : Sealer) (g : Guard) :
    (g.Matches s → ∀ (seed : EnvelopeSeed) (document : Bytes), s.TakesSeed seed →
      (∀ (sender : HttpSender) (path : String), sender.sealer = s →
        (s.HasRoom → ∃ r, sender.request seed path document = .ok r) ∧
          ∀ r, sender.request seed path document = .ok r → r.IsWithinBound →
            (∀ {m : Type → Type} [Monad m] (go : Bytes → m Http.Response),
              Http.openRequest g r go = go document) ∧
            (∀ {m : Type → Type} [Monad m] {α : Type} (reader : Json.Reader α)
              (go : α → m Http.Response),
              Http.openRequest g r (fun body => Http.withDocument reader body go) =
                if document.length ≤ Http.maxRouteBody then
                  match Json.Reader.parse reader document with
                  | .error d => pure (.ofFault (.serialization d))
                  | .ok content => go content
                else pure (.plain 413 "Failed to buffer the request body: length limit exceeded")) ∧
            (g.checkPeer (r.header? Http.addressHeader) = .ok () → r.route.readsDocument = true →
              ∀ {σ : Type} (store : Store (StateM σ)),
                Http.respond g store r =
                    (r.route.handle store document >>= fun response =>
                      pure (r.dispatched g response)) ∧
                  (Http.maxRouteBody < document.length →
                    Http.respond g store r = pure (r.dispatched g Http.tooLong)))) ∧
      ∀ (sender : RpcSender) (plain other : Rpc.Payload), sender.sealer = s →
        s.encryptor.isSome →
          (s.HasRoom → ∃ r, sender.request seed document plain other = .ok r) ∧
            ∀ r, sender.request seed document plain other = .ok r →
              (r.isEnvelope = true ∧ g.openBody r.envelope true = .ok document ∧
                g.verify document (r.text? Rpc.signatureKey) = .ok ()) ∧
              ∀ {α : Type} (reader : Json.Reader α) (write : α → Bytes) (content : Except Fault α),
                g.checkPeer (r.text? Rpc.addressKey) = .ok () →
                  r.open g reader write content =
                    (Json.Reader.parse reader document).mapError .serialization) ∧
    (g.signer.isSome → s.signer = none → ∀ (seed : EnvelopeSeed) (document : Bytes),
      (∀ (sender : HttpSender) (path : String) (r : Http.Request), sender.sealer = s →
        sender.request seed path document = .ok r →
          ∃ response : Http.Response, 400 ≤ response.status ∧
            ∀ {m : Type → Type} [Monad m] (go : Bytes → m Http.Response),
              Http.openRequest g r go = pure response) ∧
      ∀ (sender : RpcSender) (plain other : Rpc.Payload) (r : Rpc.Request), sender.sealer = s →
        sender.request seed document plain other = .ok r →
          ∃ status, ∀ {m : Type → Type} [Monad m] (store : Store m),
            Rpc.answer g store r = pure (.error status)) ∧
    (∀ (acceptsCompressed : Bool) (response : Http.Response), response.IsPlain →
      response.body ≠ [] →
        let reply := Http.Reply.ofResponse (Http.wrap g acceptsCompressed response)
        HttpSender.plainBody reply = .ok response.body ∧
          reply.header? Http.signatureHeader = g.sign response.body ∧
            ((∀ key key', g.signer = some key → s.signer = some key' → key = key') →
              ∀ {α : Type} (sender : HttpSender) (read : Bytes → Except Fault α),
                sender.sealer = s → sender.receive read reply =
                  if 200 ≤ response.status ∧ response.status < 300 then read response.body
                  else .error (HttpSender.refusal response.status (Text.lossy response.body)))) ∧
    ∀ {σ : Type} (store : Store (StateM σ)) (route : Http.Route) (body : Bytes),
      Http.AnswersPlain (route.handle store body) := by
  refine ⟨fun hmatch seed document hseed => ⟨?_, ?_⟩, fun hsigner hmute seed document => ⟨?_, ?_⟩,
    ?_, Http.isPlain_handle⟩
  · rintro sender path rfl
    refine ⟨fun hroom => ?_, fun r hr hbound => ⟨?_, ?_, ?_⟩⟩
    · obtain ⟨p, hp⟩ := Sealer.exists_pack hseed hroom document
      exact ⟨_, Fallible.map_eq_ok_iff.mpr ⟨p, hp, rfl⟩⟩
    · intro m _ go
      exact HttpSender.openRequest_request hmatch hseed hr hbound go
    · intro m _ α reader go
      rw [HttpSender.openRequest_request hmatch hseed hr hbound]
      by_cases hshort : document.length ≤ Http.maxRouteBody
      · rw [if_pos hshort]
        exact if_neg (Nat.not_lt.mpr hshort)
      · rw [if_neg hshort]
        exact if_pos (Nat.not_le.mp hshort)
    · intro hpeer hreads σ store
      have hrespond := HttpSender.respond_request hmatch hseed hr hbound hpeer hreads store
      refine ⟨hrespond, fun hlong => ?_⟩
      rw [hrespond, Http.Route.handle_of_long hreads hlong, pure_bind]
  · rintro sender plain other rfl hsome
    refine ⟨fun hroom => ?_, fun r hr => ?_⟩
    · obtain ⟨p, hp⟩ := Sealer.exists_pack hseed hroom document
      exact ⟨_, Fallible.map_eq_ok_iff.mpr ⟨p, hp, rfl⟩⟩
    · have hopen := RpcSender.openBody_request hmatch hseed hsome hr
      exact ⟨hopen, fun reader write content hadmitted =>
        Rpc.Request.open_of_envelope hadmitted hopen.1 hopen.2.1 hopen.2.2⟩
  · rintro sender path r rfl hr
    have hunsigned := HttpSender.signature_request hr
    rw [hmute] at hunsigned
    obtain ⟨p, -, hpost, hbody, -⟩ := HttpSender.request_spec hr
    exact Http.openRequest_of_unsigned hsigner hpost
      (by rw [hbody]; exact Gzip.compress_ne_nil p.body) hunsigned
  · rintro sender plain other r rfl hr
    have hunsigned := RpcSender.text?_signature hr
    rw [hmute] at hunsigned
    exact Rpc.answer_of_unsigned hsigner hunsigned
  · intro acceptsCompressed response hplain hbody
    refine ⟨HttpSender.plainBody_wrap g acceptsCompressed hbody hplain,
      HttpSender.header?_signature_wrap g acceptsCompressed hbody, ?_⟩
    rintro hagree α sender read rfl
    exact HttpSender.receive_wrap g acceptsCompressed hbody hplain hagree read

/-- A sender that signs and makes envelopes reaches a server with its keys over both transports, and
reads a reply; one that does neither is turned down. -/
theorem matched_ends_agree_of_mersenne :
    let round : Nat := (mersenne 127 - 1) * (mersenne 521 - 1) / 6
    let key : Rsa.PrivateKey :=
      ⟨⟨mersenne 127 * mersenne 521, 65537⟩, (1 + 65280 * round) / 65537⟩
    let signer : Signer := ⟨[0x6b]⟩
    let s : Sealer := ⟨some signer, some ⟨key.toPublic⟩⟩
    let g : Guard := ⟨some signer, some ⟨key⟩, none⟩
    let seed : EnvelopeSeed := ⟨List.replicate 32 7, List.replicate 64 1⟩
    let http : HttpSender := ⟨"http://localhost:8080", s, none, false⟩
    let rpc : RpcSender := ⟨"http://localhost:3200", s, none, false⟩
    let document : Bytes := (Metric.counter "hits" 5).documentBytes
    (g.Matches s ∧ s.TakesSeed seed ∧ s.HasRoom) ∧
      (∃ r, http.request seed "/update/" document = .ok r ∧ r.IsWithinBound ∧
        (∀ go : Bytes → Id Http.Response, Http.openRequest g r go = go document) ∧
        r.Brings ((Http.respond g DumpingStore.call r).run (.plain .empty)).1 document) ∧
      (∃ r, rpc.request seed document (.metric none) (.metric none) = .ok r ∧
        g.openBody r.envelope true = .ok document) ∧
      (∃ r response,
        (HttpSender.ofAddress "localhost:8080").request seed "/update/" document = .ok r ∧
          400 ≤ response.status ∧
            ∀ go : Bytes → Id Http.Response, Http.openRequest g r go = response) ∧
      http.receive .ok (.ofResponse (Http.wrap g true (.plain 200 "OK"))) =
        .ok (Bytes.ofText "OK") := by
  intro round key signer s g seed http rpc document
  have hfirst : (mersenne 127).Prime := lucas_lehmer_sufficiency _ (by simp) (by norm_num)
  have hsecond : (mersenne 521).Prime := lucas_lehmer_sufficiency _ (by simp) (by norm_num)
  have hopens : key.Opens key.toPublic :=
    ⟨rfl, mersenne 127, mersenne 521, hfirst, hsecond, by decide +kernel, by decide +kernel⟩
  have hsize : key.toPublic.size = 81 := by decide +kernel
  have hlength : document.length = 40 := by decide +kernel
  have hmatch : g.Matches s := by
    refine ⟨fun _ h => h, fun e he => ⟨⟨key⟩, rfl, ?_⟩⟩
    rw [← Option.some.inj he]
    exact hopens
  have hseed : s.TakesSeed seed := by
    intro e he
    rw [← Option.some.inj he]
    refine ⟨rfl, fun x hx => ?_, hsize.trans_le (by decide)⟩
    rw [List.eq_of_mem_replicate hx]
    decide
  have hroom : s.HasRoom := by
    intro e he
    rw [← Option.some.inj he]
    exact (by decide : 43 ≤ 81).trans_eq hsize.symm
  obtain ⟨hhttp, hrpc⟩ := (matched_ends_agree s g).1 hmatch seed document hseed
  obtain ⟨r, hr⟩ := (hhttp http "/update/" rfl).1 hroom
  have hbound : r.IsWithinBound := by
    refine HttpSender.isWithinBound_request hr fun p hp => ?_
    rw [Sealer.length_pack rfl hopens hseed hp]
    show 9 * (key.toPublic.size + document.length + 16) + 166 ≤ 8 * Http.maxBody
    rw [hsize, hlength]
    decide
  have hroute : r.route = .update := (HttpSender.route_request hr).trans (by decide +kernel)
  obtain ⟨hopened, -, hrespond⟩ := (hhttp http "/update/" rfl).2 r hr hbound
  have hanswer := (hrespond rfl (by rw [hroute]; rfl) DumpingStore.call).1
  have hhandled : let response := ((Http.Route.update.handle DumpingStore.call document).run
      (.plain .empty)).1
      response.encoding = none ∧ response.body = document := by decide +kernel
  have hbrought : r.Brings ((Http.respond g DumpingStore.call r).run (.plain .empty)).1
      document := by
    rw [hanswer, hroute]
    have hbrings := r.brings_dispatched g hhandled.1
    rw [hhandled.2] at hbrings
    exact hbrings
  obtain ⟨call, hcall⟩ := (hrpc rpc (.metric none) (.metric none) rfl rfl).1 hroom
  have hsealed := (hrpc rpc (.metric none) (.metric none) rfl rfl).2 call hcall
  obtain ⟨mute, hmute⟩ : ∃ r,
      (HttpSender.ofAddress "localhost:8080").request seed "/update/" document = .ok r := ⟨_, rfl⟩
  obtain ⟨response, hstatus, hturned⟩ := ((matched_ends_agree ⟨none, none⟩ g).2.1 rfl rfl seed
    document).1 _ _ mute rfl hmute
  refine ⟨⟨hmatch, hseed, hroom⟩, ⟨r, hr, hbound, fun go => hopened go, hbrought⟩,
    ⟨call, hcall, hsealed.1.2.1⟩, ⟨mute, response, hmute, hstatus, fun go => hturned go⟩, ?_⟩
  have hagree : ∀ key key', g.signer = some key → s.signer = some key' → key = key' :=
    fun _ _ hkey hkey' => Option.some.inj (hkey.symm.trans hkey')
  exact ((matched_ends_agree s g).2.2.1 true (.plain 200 "OK") rfl (by decide +kernel)).2.2 hagree
    http .ok rfl

/-! ## Between the two bounds -/

/-- How long the document of a metric is that is listed some times over. -/
theorem Metric.length_listDocumentBytes_replicate (m : Metric) (n : Nat) :
    (Metric.listDocumentBytes (List.replicate (n + 1) m)).length =
      (n + 1) * (m.documentBytes.length + 1) + 1 := by
  have htail : (Json.tailBytes (List.replicate n m.document)).length =
      n * (m.documentBytes.length + 1) := by
    unfold Json.tailBytes
    rw [List.length_flatMap, List.map_replicate, List.sum_replicate, smul_eq_mul]
    rfl
  unfold listDocumentBytes listDocument
  rw [List.map_replicate, Json.Reader.ofText_array, List.replicate_succ, Json.ofText_intercalate,
    List.length_cons, List.length_append, List.length_append, htail, Nat.succ_mul]
  show m.documentBytes.length + _ + 1 + 1 = _
  omega

/-- A batch of sixty-five thousand increments is well within the bound on bodies, as it is sent and
as it is opened, and is a document that reads as what was sent. The route for batches refuses it. -/
theorem long_document_is_not_read :
    let batch : List Metric := List.replicate 65536 (.counter "hits" 1)
    let document : Bytes := Metric.listDocumentBytes batch
    let sender : HttpSender := .ofAddress "localhost:8080"
    let g : Guard := ⟨none, none, none⟩
    document.length < Http.maxBody ∧ Metric.parseList document = .ok batch ∧
      g.Matches sender.sealer ∧
      ∃ r, sender.request ⟨[], []⟩ HttpSender.batchPath document = .ok r ∧ r.IsWithinBound ∧
        r.route = .updates ∧
        ∃ response : Http.Response, response.status = 413 ∧
          ∀ {σ : Type} (store : Store (StateM σ)), Http.respond g store r = pure response := by
  intro batch document sender g
  have hone : (Metric.counter "hits" 1).documentBytes.length = 40 := by decide +kernel
  have hlength : document.length = 65536 * 41 + 1 := by
    have hrepeated := Metric.length_listDocumentBytes_replicate (.counter "hits" 1) 65535
    rw [hone] at hrepeated
    exact hrepeated
  have hparse : Metric.parseList document = .ok batch := by
    rw [Metric.parseList_listDocumentBytes, List.map_replicate]
    rfl
  have hmatch : g.Matches sender.sealer := ⟨nofun, nofun⟩
  have hseed : sender.sealer.TakesSeed ⟨[], []⟩ := nofun
  obtain ⟨r, hr⟩ : ∃ r, sender.request ⟨[], []⟩ HttpSender.batchPath document = .ok r := ⟨_, rfl⟩
  have hbound : r.IsWithinBound := by
    refine HttpSender.isWithinBound_request hr fun p hp => ?_
    rw [(Sealer.pack_spec hp).2.2.1 rfl, hlength]
    decide
  have hroute : r.route = .updates := (HttpSender.route_request hr).trans (by decide +kernel)
  have hlong : Http.maxRouteBody < document.length := by
    rw [hlength]
    decide
  have hreads : r.route.readsDocument = true := by
    rw [hroute]
    rfl
  refine ⟨?_, hparse, hmatch, r, hr, hbound, hroute, r.dispatched g Http.tooLong,
    r.status_dispatched g _, fun store => ?_⟩
  · rw [hlength]
    decide
  · rw [HttpSender.respond_request hmatch hseed hr hbound rfl hreads,
      Http.Route.handle_of_long hreads hlong, pure_bind]

end Telemetry
