import Telemetry.Proofs.Metric.Message
import Telemetry.Proofs.Sender.Headers
import Telemetry.Sender.Rpc

/-!
# Metrics that travel as messages

What a sender without a public key sends by a remote call are messages, and the server writes the
document anew that the sender has signed. As no metric is changed on the way, it is the same
document, so the signature holds and the sender's metrics are taken in; and metrics that may not be
stored are refused before any signature is looked at (`plain_calls_survive`).
-/

namespace Telemetry

/-! ## What is sent -/

namespace RpcSender

variable {s : RpcSender} {seed : EnvelopeSeed} {document : Bytes} {plain other : Rpc.Payload}

theorem metadata_eq (s : RpcSender) (p : Parcel) :
    s.metadata p = p.headers Rpc.signatureKey Rpc.envelopeKey
      (s.address.map fun ip => (Rpc.addressKey, Bytes.ofText ip.text)).toList := by
  unfold metadata Parcel.headers
  rw [List.map_append]
  cases s.address <;> rfl

/-- The signature of a request is that of its document. -/
theorem text?_signature {r : Rpc.Request} (h : s.request seed document plain other = .ok r) :
    r.text? Rpc.signatureKey = s.sealer.signer.map fun signer => signer.sign document := by
  obtain ⟨p, hpack, rfl⟩ := Fallible.map_eq_ok_iff.mp h
  rw [Rpc.Request.text?_eq _ (by decide)]
  dsimp only
  rw [metadata_eq, Parcel.headerText?_signature (Sealer.isVisible_pack hpack) (by decide)
    (Http.headerText?_option_of_ne (by decide) s.address _), (Sealer.pack_spec hpack).1]

/-- A request is marked just if it brings an envelope. -/
theorem isEnvelope_request {r : Rpc.Request} (h : s.request seed document plain other = .ok r) :
    r.isEnvelope = s.sealer.encryptor.isSome := by
  obtain ⟨p, hpack, rfl⟩ := Fallible.map_eq_ok_iff.mp h
  unfold Rpc.Request.isEnvelope
  rw [Rpc.Request.text?_eq _ (by decide)]
  dsimp only
  rw [metadata_eq, Parcel.headerText?_envelope (by decide)
    (Http.headerText?_option_of_ne (by decide) s.address _), ← (Sealer.pack_spec hpack).2.1]
  cases p.isEnvelope <;> decide

/-- Without a public key, what is sent is what was to be sent. -/
theorem exists_request (hplain : s.sealer.encryptor = none) (seed : EnvelopeSeed)
    (document : Bytes) (plain other : Rpc.Payload) :
    ∃ r, s.request seed document plain other = .ok r ∧ r.payload = plain := by
  unfold request Sealer.pack
  rw [hplain]
  exact ⟨_, rfl, rfl⟩

end RpcSender

/-! ## What is opened -/

namespace Rpc

section Opening

variable {α : Type} {r : Request} {g : Guard} {reader : Json.Reader α} {document : α → Bytes}
  {plain : Except Fault α}

/-- Of a request without an envelope, the document of what it brings is to be signed. -/
theorem Request.open_of_plain (hadmitted : g.checkPeer (r.text? addressKey) = .ok ())
    (hplain : r.isEnvelope = false) :
    r.open g reader document plain = (do
      let content ← plain
      g.verify (document content) (r.text? signatureKey)
      pure content) := by
  rw [open_of_admitted hadmitted, hplain]
  rfl

/-- What is no metric is refused, whatever it is signed with. -/
theorem Request.open_of_violation (hadmitted : g.checkPeer (r.text? addressKey) = .ok ())
    (hplain : r.isEnvelope = false) {v : Violation} (h : plain = .error (.validation v)) :
    r.open g reader document plain = .error (.validation v) := by
  rw [open_of_plain hadmitted hplain, h]
  rfl

end Opening

variable {m : Type → Type} [Monad m]

/-- The answer to a request of one metric, once it is opened. -/
def takeIn (store : Store m) (metric : Metric) : m (Except RpcStatus Reply) := do
  pure (withStatus (fun x => .metric (MetricMessage.ofMetric x)) (← Ingest.update store metric))

/-- The answer to a request of a batch, once it is opened. -/
def takeInMany (store : Store m) (batch : List Metric) : m (Except RpcStatus Reply) := do
  pure (withStatus (fun xs => .metrics (MetricMessage.ofMetrics xs))
    (← Ingest.updateMany store batch))

/-- Whether an answer refuses what was brought as invalid, without asking the store. -/
def Refuses (act : m (Except RpcStatus Reply)) : Prop :=
  ∃ text, act = pure (.error ⟨.invalidArgument, text⟩)

section Answers

variable {g : Guard} {r : Request} (store : Store m)

theorem answer_metric {message : Option MetricMessage} (hpayload : r.payload = .metric message) :
    answer g store r =
      match r.open g Metric.reader Metric.documentBytes (metricOf message) with
      | .error f => pure (.error (RpcStatus.ofFault f))
      | .ok metric => takeIn store metric := by
  unfold answer
  rw [hpayload]
  rfl

theorem answer_metrics {messages : List MetricMessage}
    (hpayload : r.payload = .metrics messages) :
    answer g store r =
      match r.open g (Json.Reader.list Metric.reader) Metric.listDocumentBytes
        (MetricMessage.toMetrics messages) with
      | .error f => pure (.error (RpcStatus.ofFault f))
      | .ok batch => takeInMany store batch := by
  unfold answer
  rw [hpayload]
  rfl

/-- A metric that may not be stored is refused. -/
theorem refuses_metric {metric : Metric} (hadmitted : g.checkPeer (r.text? addressKey) = .ok ())
    (hplain : r.isEnvelope = false) (hpayload : r.payload = .metric (some (.ofMetric metric)))
    (hinvalid : metric.validate ≠ .ok ()) : Refuses (answer g store r) := by
  cases hread : metricOf (some (.ofMetric metric)) with
  | ok x =>
    obtain ⟨hx, hvalid⟩ := MetricMessage.toMetric_eq_ok_iff.mp hread
    rw [MetricMessage.ofMetric_injective hx] at hinvalid
    exact absurd hvalid hinvalid
  | error f =>
    obtain ⟨v, rfl⟩ := MetricMessage.toMetric_eq_error hread
    rw [answer_metric store hpayload, Request.open_of_violation hadmitted hplain hread]
    exact ⟨_, rfl⟩

/-- A batch is refused as a whole if one of its metrics may not be stored. -/
theorem refuses_metrics {batch : List Metric}
    (hadmitted : g.checkPeer (r.text? addressKey) = .ok ()) (hplain : r.isEnvelope = false)
    (hpayload : r.payload = .metrics (MetricMessage.ofMetrics batch))
    (hinvalid : ∃ x ∈ batch, x.validate ≠ .ok ()) : Refuses (answer g store r) := by
  cases hread : MetricMessage.toMetrics (MetricMessage.ofMetrics batch) with
  | ok ms =>
    obtain ⟨hms, hall⟩ := MetricMessage.toMetrics_eq_ok_iff.mp hread
    obtain rfl := List.map_injective_iff.mpr MetricMessage.ofMetric_injective hms
    obtain ⟨x, hx, hinvalid⟩ := hinvalid
    exact absurd (hall x hx) hinvalid
  | error f =>
    obtain ⟨v, rfl⟩ := MetricMessage.toMetrics_eq_error hread
    rw [answer_metrics store hpayload, Request.open_of_violation hadmitted hplain hread]
    exact ⟨_, rfl⟩

end Answers

end Rpc

namespace RpcSender

variable {s : RpcSender} {g : Guard} {m : Type → Type} [Monad m]

/-- What a sender without a public key has signed holds for a server that has its key or none: what
is opened is what was sent. -/
theorem open_request {α : Type} (hplain : s.sealer.encryptor = none)
    (hshared : ∀ key, g.signer = some key → s.sealer.signer = some key) {seed : EnvelopeSeed}
    {document : α → Bytes} {content : α} {plain other : Rpc.Payload} {r : Rpc.Request}
    (h : s.request seed (document content) plain other = .ok r)
    (hadmitted : g.checkPeer (r.text? Rpc.addressKey) = .ok ()) (reader : Json.Reader α) :
    r.open g reader document (.ok content) = .ok content := by
  have hunmarked : r.isEnvelope = false := by
    rw [isEnvelope_request h, hplain]
    rfl
  rw [Rpc.Request.open_of_plain hadmitted hunmarked, text?_signature h]
  show (do g.verify (document content) _; pure content) = _
  rw [Guard.verify_of_shared hshared]
  rfl

end RpcSender

/-- **Metrics that travel as messages arrive as they were.**

* The messages of metrics that may be stored are read as these metrics, so the document that is
  written anew of them is the one that their sender signed.
* Just those lists of messages are read in which each message has the number of a kind and is a
  metric of that kind that may be stored; and what is read of them has these messages.
* Of a server that admits the sender, and whatever the metadata say of a signature, messages of
  metrics one of which may not be stored are refused as invalid.
* What a sender without a public key sends are the messages of its metrics. If they may be stored,
  then a server that has the key of the sender, or none, and that admits it, takes in these
  metrics. -/
theorem plain_calls_survive :
    ((∀ x : Metric, x.validate = .ok () →
        (MetricMessage.ofMetric x).toMetric = .ok x ∧
          (MetricMessage.ofMetric x).toMetric.map Metric.documentBytes = .ok x.documentBytes) ∧
      ∀ xs : List Metric, (∀ x ∈ xs, x.validate = .ok ()) →
        MetricMessage.toMetrics (MetricMessage.ofMetrics xs) = .ok xs ∧
          (MetricMessage.toMetrics (MetricMessage.ofMetrics xs)).map Metric.listDocumentBytes =
            .ok (Metric.listDocumentBytes xs)) ∧
    (∀ ps : List MetricMessage,
      (∀ xs, MetricMessage.toMetrics ps = .ok xs → MetricMessage.ofMetrics xs = ps) ∧
        ((∃ xs, MetricMessage.toMetrics ps = .ok xs) ↔
          ∀ p ∈ ps, ∃ kind, p.kind = kind.number ∧ (p.asKind kind).validate = .ok ())) ∧
    (∀ {m : Type → Type} [Monad m] (g : Guard) (store : Store m) (r : Rpc.Request),
      g.checkPeer (r.text? Rpc.addressKey) = .ok () → r.isEnvelope = false →
        (∀ x, r.payload = .metric (some (.ofMetric x)) → x.validate ≠ .ok () →
          Rpc.Refuses (Rpc.answer g store r)) ∧
        ∀ xs, r.payload = .metrics (MetricMessage.ofMetrics xs) →
          (∃ x ∈ xs, x.validate ≠ .ok ()) → Rpc.Refuses (Rpc.answer g store r)) ∧
    ∀ (s : RpcSender) (seed : EnvelopeSeed), s.sealer.encryptor = none →
      (∀ x : Metric, ∃ r, s.singleRequest seed x = .ok r ∧
        r.payload = .metric (some (.ofMetric x)) ∧ r.isEnvelope = false ∧
          ∀ {m : Type → Type} [Monad m] (g : Guard) (store : Store m), x.validate = .ok () →
            (∀ key, g.signer = some key → s.sealer.signer = some key) →
              g.checkPeer (r.text? Rpc.addressKey) = .ok () →
                Rpc.answer g store r = Rpc.takeIn store x) ∧
      ∀ xs : List Metric, ∃ r, s.batchRequest seed xs = .ok r ∧
        r.payload = .metrics (MetricMessage.ofMetrics xs) ∧ r.isEnvelope = false ∧
          ∀ {m : Type → Type} [Monad m] (g : Guard) (store : Store m),
            (∀ x ∈ xs, x.validate = .ok ()) →
              (∀ key, g.signer = some key → s.sealer.signer = some key) →
                g.checkPeer (r.text? Rpc.addressKey) = .ok () →
                  Rpc.answer g store r = Rpc.takeInMany store xs := by
  have hsingle : ∀ x : Metric, x.validate = .ok () → (MetricMessage.ofMetric x).toMetric = .ok x :=
    fun x hx => MetricMessage.toMetric_eq_ok_iff.mpr ⟨rfl, hx⟩
  have hmany : ∀ xs : List Metric, (∀ x ∈ xs, x.validate = .ok ()) →
      MetricMessage.toMetrics (MetricMessage.ofMetrics xs) = .ok xs :=
    fun xs hxs => MetricMessage.toMetrics_eq_ok_iff.mpr ⟨rfl, hxs⟩
  refine ⟨⟨fun x hx => ⟨hsingle x hx, ?_⟩, fun xs hxs => ⟨hmany xs hxs, ?_⟩⟩,
    fun ps => ⟨fun xs h => (MetricMessage.toMetrics_eq_ok_iff.mp h).1.symm,
      MetricMessage.exists_toMetrics_iff⟩,
    fun g store r hadmitted hplain =>
      ⟨fun x => Rpc.refuses_metric store hadmitted hplain,
        fun xs => Rpc.refuses_metrics store hadmitted hplain⟩,
    fun s seed hplain => ⟨fun x => ?_, fun xs => ?_⟩⟩
  · rw [hsingle x hx]
    rfl
  · rw [hmany xs hxs]
    rfl
  · obtain ⟨r, hr, hpayload⟩ := RpcSender.exists_request hplain seed x.documentBytes
      (.metric (some (.ofMetric x))) (.metric none)
    refine ⟨r, hr, hpayload, ?_, fun g store hx hshared hadmitted => ?_⟩
    · rw [RpcSender.isEnvelope_request hr, hplain]
      rfl
    · have hread : Rpc.metricOf (some (.ofMetric x)) = .ok x := hsingle x hx
      rw [Rpc.answer_metric store hpayload, hread,
        RpcSender.open_request hplain hshared hr hadmitted]
  · obtain ⟨r, hr, hpayload⟩ := RpcSender.exists_request hplain seed (Metric.listDocumentBytes xs)
      (.metrics (MetricMessage.ofMetrics xs)) (.metrics [])
    refine ⟨r, hr, hpayload, ?_, fun g store hxs hshared hadmitted => ?_⟩
    · rw [RpcSender.isEnvelope_request hr, hplain]
      rfl
    · rw [Rpc.answer_metrics store hpayload, hmany xs hxs,
        RpcSender.open_request hplain hshared hr hadmitted]

/-- A signed counter is taken in by a server with the key; one without an increment is refused. -/
theorem plain_calls_survive_of_hits :
    let signer : Signer := ⟨[0x6b]⟩
    let s : RpcSender := ⟨"http://localhost:3200", ⟨some signer, none⟩, none, false⟩
    let g : Guard := ⟨some signer, none, none⟩
    let hits : Metric := .counter "hits" 5
    let odd : Rpc.Request :=
      ⟨[(Rpc.signatureKey, [0x30])], .metric (some ⟨"hits", 2, none, none⟩), []⟩
    (hits.validate = .ok () ∧ (⟨"hits", .counter, none, none⟩ : Metric).validate ≠ .ok ()) ∧
      (∃ r, s.singleRequest ⟨[], []⟩ hits = .ok r ∧ g.checkPeer (r.text? Rpc.addressKey) = .ok () ∧
        Rpc.answer g Table.answer r = Rpc.takeIn Table.answer hits) ∧
      Rpc.Refuses (Rpc.answer g Table.answer odd) := by
  intro signer s g hits odd
  obtain ⟨-, -, hrefused, hsent⟩ := plain_calls_survive
  obtain ⟨r, hr, -, -, htaken⟩ := (hsent s ⟨[], []⟩ rfl).1 hits
  refine ⟨⟨rfl, by decide⟩, ⟨r, hr, rfl, htaken g Table.answer rfl (fun _ h => h) rfl⟩, ?_⟩
  exact (hrefused g Table.answer odd rfl (by decide +kernel)).1 ⟨"hits", .counter, none, none⟩ rfl
    (by decide)

end Telemetry
