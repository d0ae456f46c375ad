import Telemetry.Http.Server
import Telemetry.Proofs.Fallible
import Telemetry.Proofs.Server.Storage
import Telemetry.Rpc.Service

/-!
# Which requests change what is stored

A server with a key changes what it stores at the request of those who have signed, with one
exception: an update that is spelled out in the path of a request with an empty body, which is
let through before its signature is looked at (`signature_enforced_iff`).
-/

namespace Telemetry

open Fallible (bind_eq_ok_iff)

/-! ## Signatures -/

/-- Whether a text is a signature of some bytes: the digits of their code, between blanks. -/
def Signer.Fits (s : Signer) (plain : Bytes) (text : String) : Prop :=
  Hex.decode (Text.trim text) = some (Hmac.code s.key plain)

theorem Signer.verify_eq_ok_iff {s : Signer} {plain : Bytes} {text : String} :
    s.verify plain text = .ok () ↔ s.Fits plain text := by
  unfold verify Fits
  split
  next h => simp [h]
  next code h =>
    rw [h]
    split
    next hcode => simp [hcode]
    next hcode => simp [hcode]

/-- With a key, what is checked has to be signed. -/
theorem Guard.verify_eq_ok_iff {g : Guard} {signer : Signer} (hsigner : g.signer = some signer)
    {plain : Bytes} {signature : Option String} :
    g.verify plain signature = .ok () ↔ ∃ text, signature = some text ∧ signer.Fits plain text := by
  unfold verify
  rw [hsigner]
  cases signature with
  | none => simp
  | some text => simp [Signer.verify_eq_ok_iff]

/-! ## Actions that change nothing -/

/-- Whether an action keeps what is seen of the state. -/
def Keeps {σ β α : Type} (view : σ → β) (act : StateM σ α) : Prop :=
  ∀ s, view (act.run s).2 = view s

namespace Keeps

variable {σ β α γ : Type} {view : σ → β}

theorem pure (a : α) : Keeps view (Pure.pure a : StateM σ α) := fun _ => rfl

theorem bind {act : StateM σ α} {next : α → StateM σ γ} (h : Keeps view act)
    (hnext : ∀ a, Keeps view (next a)) : Keeps view (act >>= next) := by
  intro s
  rw [StateT.run_bind]
  exact (hnext _ _).trans (h s)

/-- What is made of a result does not matter. -/
theorem map {act : StateM σ α} (h : Keeps view act) (f : α → γ) :
    Keeps view (act >>= fun a => Pure.pure (f a)) :=
  h.bind fun _ => pure _

end Keeps

section Reads

variable {σ β : Type} {view : σ → β} {store : Store (StateM σ)}

theorem Ingest.keeps_get (hreads : ∀ c : StoreCall, c.writes = false → Keeps view (store c))
    (kind : Kind) (name : String) : Keeps view (Ingest.get store kind name) := by
  refine (hreads (.get name) rfl).bind fun reply => ?_
  split
  · exact .pure _
  · split <;> exact .pure _
  · exact .pure _

namespace Http

/-- Whether a route is there for updates. -/
def Route.updates? : Route → Bool
  | .update | .updates | .updatePath _ _ _ => true
  | _ => false

theorem keeps_withDocument {α : Type} {reader : Json.Reader α} {body : Bytes}
    {go : α → StateM σ Response} (h : ∀ a, Keeps view (go a)) :
    Keeps view (withDocument reader body go) := by
  unfold withDocument
  split
  · exact .pure _
  · split
    · exact .pure _
    · exact h _

theorem keeps_withParts {parts : List (String × String)} {go : List String → StateM σ Response}
    (h : ∀ texts, decodeParts parts = .ok texts → Keeps view (go texts)) :
    Keeps view (withParts parts go) := by
  unfold withParts
  split
  next => exact .pure _
  next texts htexts => exact h texts htexts

/-- A route that is not there for updates only reads. -/
theorem keeps_handle_of_reading
    (hreads : ∀ c : StoreCall, c.writes = false → Keeps view (store c)) {route : Route}
    (h : route.updates? = false) (body : Bytes) : Keeps view (route.handle store body) := by
  cases route with
  | index => exact (hreads .list rfl).map _
  | ping => exact (hreads .ping rfl).map _
  | update => cases h
  | updates => cases h
  | updatePath kind name value => cases h
  | find => exact keeps_withDocument fun q => (Ingest.keeps_get hreads q.kind q.name).map _
  | findPath kind name =>
    refine keeps_withParts fun texts _ => ?_
    split
    · unfold valueFromPath
      split
      · exact .pure _
      · exact (Ingest.keeps_get hreads _ _).map _
    · exact .pure _
  | unknown => exact .pure _

/-- The metric that the parts of a path spell out, if they spell one. -/
def spelledMetric? (kind name value : String) : Option Metric :=
  match decodeParts [("mtype", kind), ("name", name), ("value", value)] with
  | .ok [kind, name, value] =>
    if name.isEmpty then none else (Metric.ofTexts kind name value).toOption
  | _ => none

/-- A problem is no success. -/
theorem Problem.status_ne (p : Problem) : p.status ≠ 200 := by
  unfold status
  cases p.kind <;> decide

/-- Whether a request is turned down: without a success, and before the store is asked. -/
def TurnsDown (act : StateM σ Response) : Prop :=
  ∃ response : Response, response.status ≠ 200 ∧ act = pure response

namespace TurnsDown

theorem problem (p : Problem) : TurnsDown (pure (.ofProblem p) : StateM σ Response) :=
  ⟨_, p.status_ne, rfl⟩

theorem fault (f : Fault) : TurnsDown (pure (.ofFault f) : StateM σ Response) := problem _

theorem plain {status : Nat} (h : status ≠ 200) (text : String) :
    TurnsDown (pure (.plain status text) : StateM σ Response) := ⟨_, h, rfl⟩

theorem bare {status : Nat} (h : status ≠ 200) :
    TurnsDown (pure (.bare status) : StateM σ Response) := ⟨_, h, rfl⟩

theorem keeps {act : StateM σ Response} (h : TurnsDown act) : Keeps view act := by
  obtain ⟨response, -, rfl⟩ := h
  exact .pure response

end TurnsDown

/-- A path that spells no metric is turned down. -/
theorem turnsDown_updatePath {kind name value : String}
    (h : spelledMetric? kind name value = none) (body : Bytes) :
    TurnsDown ((Route.updatePath kind name value).handle store body) := by
  unfold spelledMetric? at h
  unfold Route.handle withParts
  dsimp only
  split
  next => exact .plain (by decide) _
  next texts htexts =>
    rw [htexts] at h
    split
    next kind' name' value' =>
      unfold updateFromPath
      split
      · exact .problem _
      next hname =>
        dsimp only at h
        rw [if_neg hname] at h
        cases hmetric : Metric.ofTexts kind' name' value' with
        | error f => exact .fault f
        | ok metric =>
          rw [hmetric] at h
          cases h
    next => exact .bare (by decide)

/-- A path that spells a metric has it merged. -/
theorem handle_updatePath {kind name value : String} {m : Metric}
    (h : spelledMetric? kind name value = some m) (body : Bytes) :
    (Route.updatePath kind name value).handle store body =
      Ingest.update store m >>= fun result =>
        pure (answerWith (fun x => .plain 200 x.valueText) result) := by
  unfold spelledMetric? at h
  split at h
  next kind' name' value' htexts =>
    have hhandle : (Route.updatePath kind name value).handle store body =
        updateFromPath store kind' name' value' := by
      simp only [Route.handle, withParts, htexts]
    rw [hhandle]
    unfold updateFromPath
    split at h
    next => cases h
    next hname =>
      rw [if_neg hname]
      cases hmetric : Metric.ofTexts kind' name' value' with
      | error f =>
        rw [hmetric] at h
        cases h
      | ok metric =>
        rw [hmetric] at h
        cases h
        rfl
  next => cases h

/-- An empty body is no document. -/
theorem keeps_handle_of_empty
    (hreads : ∀ c : StoreCall, c.writes = false → Keeps view (store c)) {route : Route}
    (h : ∀ kind name value, route = .updatePath kind name value →
      spelledMetric? kind name value = none) : Keeps view (route.handle store []) := by
  cases route with
  | update => exact Keeps.pure _
  | updates => exact Keeps.pure _
  | updatePath kind name value => exact (turnsDown_updatePath (h kind name value rfl) []).keeps
  | index => exact keeps_handle_of_reading hreads rfl []
  | ping => exact keeps_handle_of_reading hreads rfl []
  | find => exact keeps_handle_of_reading hreads rfl []
  | findPath kind name => exact keeps_handle_of_reading hreads rfl []
  | unknown => exact keeps_handle_of_reading hreads rfl []

namespace Request

def route (r : Request) : Route := Route.ofPath (Route.pathOf r.target)

/-- The body of a request without its compression and its envelope. -/
def opened (g : Guard) (r : Request) : Except Fault Bytes :=
  openBody g r.body (r.hasHeader "Content-Encoding" Gzip.encoding)
    (r.hasHeader envelopeHeader "true")

/-- Whether a request carries a signature of its plain body. -/
def Signed (g : Guard) (signer : Signer) (r : Request) : Prop :=
  ∃ plain text, r.opened g = .ok plain ∧ r.header? signatureHeader = some text ∧
    signer.Fits plain text

/-- The metric of a bare update: a request of an admitted peer whose body is empty and whose
path spells a metric to be merged. -/
def bareUpdate? (g : Guard) (r : Request) : Option Metric :=
  if r.method = "POST" ∧ r.body.isEmpty ∧ g.checkPeer (r.header? addressHeader) = .ok () then
    match r.route with
    | .updatePath kind name value => spelledMetric? kind name value
    | _ => none
  else none

end Request

/-- What is posted with a body is signed, or has no plain body. -/
theorem signed_of_plainBody {g : Guard} {signer : Signer} (hsigner : g.signer = some signer)
    {r : Request} (hpost : r.method = "POST") {plain : Bytes} (h : r.plainBody g = .ok plain) :
    r.Signed g signer := by
  unfold Request.plainBody at h
  obtain ⟨opened, hopened, h⟩ := bind_eq_ok_iff.mp h
  rw [if_pos hpost] at h
  obtain ⟨_, hverify, h⟩ := bind_eq_ok_iff.mp h
  obtain ⟨text, htext, hfits⟩ := (Guard.verify_eq_ok_iff hsigner).mp hverify
  exact ⟨opened, text, hopened, htext, hfits⟩

/-- What is reached behind the signature changes nothing if there is none. -/
theorem keeps_openRequest {g : Guard} {signer : Signer} (hsigner : g.signer = some signer)
    {r : Request} (hunsigned : ¬r.Signed g signer) {go : Bytes → StateM σ Response}
    (hempty : r.body.isEmpty → Keeps view (go []))
    (hget : r.method ≠ "POST" → ∀ plain, Keeps view (go plain)) :
    Keeps view (openRequest g r go) := by
  unfold openRequest
  split
  · exact .pure _
  · split
    next h => exact hempty h
    next =>
      split
      next => exact .pure _
      next plain hplain =>
        exact hget (fun hpost => hunsigned (signed_of_plainBody hsigner hpost hplain)) plain

/-- A route for updates takes only what is posted. -/
theorem post_of_allows {route : Route} {method : String} (h : route.allows method = true)
    (hupdates : route.updates? = true) : method = "POST" := by
  cases route with
  | update => exact of_decide_eq_true h
  | updates => exact of_decide_eq_true h
  | updatePath kind name value => exact of_decide_eq_true h
  | index => cases hupdates
  | ping => cases hupdates
  | find => cases hupdates
  | findPath kind name => cases hupdates
  | unknown => cases hupdates

/-- **A request that is not signed changes nothing, unless it is a bare update.** -/
theorem keeps_respond (hreads : ∀ c : StoreCall, c.writes = false → Keeps view (store c))
    {g : Guard} {signer : Signer} (hsigner : g.signer = some signer) {r : Request}
    (hunsigned : ¬r.Signed g signer) (hbare : r.bareUpdate? g = none) :
    Keeps view (respond g store r) := by
  unfold respond
  dsimp only
  cases hpeer : g.checkPeer (r.header? addressHeader) with
  | error f => exact .pure _
  | ok u =>
    refine Keeps.map (Keeps.map (keeps_openRequest hsigner hunsigned ?_ ?_) _) _
    · -- an empty body is let through, and then only a path can say what to store
      intro hempty
      split
      · exact .pure _
      · split
        next hallows =>
          refine keeps_handle_of_empty hreads fun kind name value hroute => ?_
          have hpost : r.method = "POST" := post_of_allows hallows (by rw [hroute]; rfl)
          unfold Request.bareUpdate? at hbare
          rw [if_pos ⟨hpost, hempty, hpeer⟩] at hbare
          rw [show r.route = Route.updatePath kind name value from hroute] at hbare
          exact hbare
        next => exact .pure _
    · -- what is not posted is checked nowhere, but reaches no route for updates
      intro hget plain
      split
      · exact .pure _
      · split
        next hallows =>
          refine keeps_handle_of_reading hreads ?_ plain
          by_contra hupdates
          exact hget (post_of_allows hallows (by simpa using hupdates))
        next => exact .pure _

/-- A bare update is merged, whoever sent it. -/
theorem respond_of_bareUpdate {g : Guard} {r : Request} {m : Metric}
    (h : r.bareUpdate? g = some m) (s : σ) :
    ((respond g store r).run s).2 = ((Ingest.update store m).run s).2 := by
  unfold Request.bareUpdate? at h
  split at h
  next hbare =>
    obtain ⟨hpost, hempty, hpeer⟩ := hbare
    split at h
    next kind name value hroute =>
      -- the signature is passed over
      have hopen : ∀ go : Bytes → StateM σ Response, openRequest g r go = go [] := by
        intro go
        have hbody : r.body = [] := List.isEmpty_iff.mp hempty
        unfold openRequest
        rw [hbody]
        rfl
      have hallows : r.route.allows r.method = true := by
        rw [hroute, hpost]
        rfl
      unfold respond respondAdmitted
      dsimp only
      rw [hpeer]
      rw [hopen]
      rw [show Route.ofPath (Route.pathOf r.target) = r.route from rfl, hallows, hroute]
      show (((Route.updatePath kind name value).handle store []).run s).2 = _
      rw [handle_updatePath h []]
      rfl
    next => cases h
  next => cases h

end Http

namespace Rpc

namespace Request

def isEnvelope (r : Request) : Bool :=
  (r.text? envelopeKey).any fun v => Text.lowerAscii v = "true"

/-- What the signature of a request is about: what its envelope holds, or else the document of
its messages. -/
def plaintext (g : Guard) (r : Request) : Except Fault Bytes :=
  if r.isEnvelope then g.openBody r.envelope true
  else
    match r.payload with
    | .metric message => (metricOf message).map Metric.documentBytes
    | .metrics messages => (MetricMessage.toMetrics messages).map Metric.listDocumentBytes

/-- Whether a request carries a signature of what it is about. -/
def Signed (g : Guard) (signer : Signer) (r : Request) : Prop :=
  ∃ plain text, r.plaintext g = .ok plain ∧ r.text? signatureKey = some text ∧
    signer.Fits plain text

/-- Of an admitted peer, what an envelope holds or what the messages say is read and checked. -/
theorem open_of_admitted {α : Type} {r : Request} {g : Guard} {reader : Json.Reader α}
    {document : α → Bytes} {plain : Except Fault α}
    (hadmitted : g.checkPeer (r.text? addressKey) = .ok ()) :
    r.open g reader document plain =
      if r.isEnvelope then (do
        let signed ← g.openBody r.envelope true
        let content ← (Json.Reader.parse reader signed).mapError Fault.serialization
        g.verify signed (r.text? signatureKey)
        pure content)
      else (do
        let content ← plain
        g.verify (document content) (r.text? signatureKey)
        pure content) := by
  unfold Request.open isEnvelope
  rw [hadmitted]
  dsimp only
  split
  next => simp only [pure_bind]; rfl
  next => simp only [pure_bind]; rfl

/-- What is opened was checked against its signature. -/
theorem verify_of_open {α : Type} {r : Request} {g : Guard} {reader : Json.Reader α}
    {document : α → Bytes} {plain : Except Fault α} {content : α}
    (h : r.open g reader document plain = .ok content) :
    ∃ signed, g.verify signed (r.text? signatureKey) = .ok () ∧
      (if r.isEnvelope then g.openBody r.envelope true else plain.map document) = .ok signed := by
  unfold Request.open at h
  obtain ⟨_, -, h⟩ := bind_eq_ok_iff.mp h
  dsimp only at h
  unfold isEnvelope
  split at h
  next henvelope =>
    -- what is signed is what was sealed
    rw [if_pos henvelope]
    obtain ⟨signed, hsigned, h⟩ := bind_eq_ok_iff.mp h
    obtain ⟨_, -, h⟩ := bind_eq_ok_iff.mp h
    obtain ⟨_, hpair, h⟩ := bind_eq_ok_iff.mp h
    cases hpair
    obtain ⟨_, hverify, -⟩ := bind_eq_ok_iff.mp h
    exact ⟨signed, hverify, hsigned⟩
  next henvelope =>
    -- what is signed is the document of the messages
    rw [if_neg henvelope]
    obtain ⟨content', hplain, h⟩ := bind_eq_ok_iff.mp h
    obtain ⟨_, hpair, h⟩ := bind_eq_ok_iff.mp h
    cases hpair
    obtain ⟨_, hverify, -⟩ := bind_eq_ok_iff.mp h
    rw [hplain]
    exact ⟨document content', hverify, rfl⟩

end Request

/-- **A remote call that is not signed changes nothing.** -/
theorem keeps_answer {g : Guard} {signer : Signer} (hsigner : g.signer = some signer)
    {r : Request} (hunsigned : ¬r.Signed g signer) : Keeps view (answer g store r) := by
  have hsigned : ∀ signed, g.verify signed (r.text? signatureKey) = .ok () →
      r.plaintext g ≠ .ok signed := by
    intro signed hverify hplain
    obtain ⟨text, htext, hfits⟩ := (Guard.verify_eq_ok_iff hsigner).mp hverify
    exact hunsigned ⟨signed, text, hplain, htext, hfits⟩
  unfold answer
  split
  next message hpayload =>
    split
    next => exact .pure _
    next metric hopen =>
      obtain ⟨signed, hverify, hplain⟩ := Request.verify_of_open hopen
      refine absurd ?_ (hsigned signed hverify)
      unfold Request.plaintext
      rw [hpayload]
      exact hplain
  next messages hpayload =>
    split
    next => exact .pure _
    next batch hopen =>
      obtain ⟨signed, hverify, hplain⟩ := Request.verify_of_open hopen
      refine absurd ?_ (hsigned signed hverify)
      unfold Request.plaintext
      rw [hpayload]
      exact hplain

end Rpc

end Reads

/-! ## Runs of a server -/

/-- What a server meets. -/
inductive Arrival
  | http (r : Http.Request)
  | rpc (r : Rpc.Request)
  /-- it is time to look which store is to be used -/
  | check

namespace Arrival

/-- The storage of a server after it has dealt with what it met. -/
def serve (g : Guard) (s : Storage) : Arrival → Storage
  | http r => ((Http.respond g Storage.call r).run s).2
  | rpc r => ((Rpc.answer g Storage.call r).run s).2
  | check => s.check

def serveAll (g : Guard) (s : Storage) (arrivals : List Arrival) : Storage :=
  arrivals.foldl (serve g) s

def Signed (g : Guard) (signer : Signer) : Arrival → Prop
  | http r => r.Signed g signer
  | rpc r => r.Signed g signer
  | check => False

/-- The metric of a bare update, if it is one. -/
def bareUpdate? (g : Guard) : Arrival → Option Metric
  | http r => r.bareUpdate? g
  | _ => none

variable {g : Guard} {signer : Signer}

theorem stored_serve (hsigner : g.signer = some signer) {a : Arrival}
    (hunsigned : ¬a.Signed g signer) (hbare : a.bareUpdate? g = none) (s : Storage) :
    (a.serve g s).stored = s.stored := by
  cases a with
  | http r =>
    exact Http.keeps_respond (fun c hc => Storage.stored_call hc) hsigner hunsigned hbare s
  | rpc r => exact Rpc.keeps_answer hsigner hunsigned s
  | check => exact Storage.stored_check s

theorem serve_of_bareUpdate {a : Arrival} {m : Metric} (h : a.bareUpdate? g = some m)
    (s : Storage) : a.serve g s = ((Ingest.update Storage.call m).run s).2 := by
  cases a with
  | http r => exact Http.respond_of_bareUpdate h s
  | rpc r => cases h
  | check => cases h

/-- Whether it changes what is stored. -/
def Changes (g : Guard) (s : Storage) (a : Arrival) : Prop := (a.serve g s).stored ≠ s.stored

/-- **What changes the storage of a server with a key was signed, bare updates apart.** In a run
over requests and remote calls of any kind, all those that change what is stored carry a
signature of their plain text exactly if the bare updates do whose metric changes something when
it is merged; and it is merged, signed or not. -/
theorem signature_enforced_iff (hsigner : g.signer = some signer) (start : Storage)
    (arrivals : List Arrival) :
    (∀ before a after, arrivals = before ++ a :: after →
        a.Changes g (serveAll g start before) → a.Signed g signer) ↔
      ∀ before a after m, arrivals = before ++ a :: after → a.bareUpdate? g = some m →
        ((Ingest.update Storage.call m).run (serveAll g start before)).2.stored ≠
            (serveAll g start before).stored →
          a.Signed g signer := by
  constructor
  · intro henforced before a after m harrivals hbare hmerged
    refine henforced before a after harrivals ?_
    unfold Changes
    rw [serve_of_bareUpdate hbare]
    exact hmerged
  · intro hbares before a after harrivals hchanges
    cases hbare : a.bareUpdate? g with
    | none =>
      by_contra hunsigned
      exact hchanges (stored_serve hsigner hunsigned hbare _)
    | some m =>
      refine hbares before a after m harrivals hbare ?_
      unfold Changes at hchanges
      rw [serve_of_bareUpdate hbare] at hchanges
      exact hchanges

/-- A storage in memory alone, with nothing in it. -/
def blank : Storage := ⟨.plain .empty, none, ⟨0, 0, ⟨0⟩, 0, none⟩, .memory, .fresh⟩

/-- Where nothing is spelled out in a path, all changes are signed. -/
theorem signature_enforced_on_bodies :
    let signer : Signer := ⟨[0x6b]⟩
    let g : Guard := ⟨some signer, none, none⟩
    let arrivals : List Arrival :=
      [.http ⟨"POST", "/update/", [], [0x5b, 0x5d]⟩,
        .rpc ⟨[], .metric (some ⟨"hits", 2, none, some 5⟩), []⟩]
    g.signer = some signer ∧
      ∀ before a after, arrivals = before ++ a :: after →
        a.Changes g (serveAll g blank before) → a.Signed g signer := by
  intro signer g arrivals
  refine ⟨rfl, (signature_enforced_iff rfl blank arrivals).mpr ?_⟩
  intro before a after m harrivals hbare
  have hnone : ∀ a ∈ arrivals, a.bareUpdate? g = none := by
    intro a ha
    rcases List.mem_cons.mp ha with rfl | ha
    · rfl
    · rw [List.mem_singleton.mp ha]
      rfl
  rw [hnone a (by rw [harrivals]; simp)] at hbare
  cases hbare

/-- Five hits for a server with a key, in a path and without a signature. -/
theorem bare_update_is_not_signed :
    let signer : Signer := ⟨[0x6b]⟩
    let g : Guard := ⟨some signer, none, none⟩
    let a : Arrival := .http ⟨"POST", "/update/counter/hits/5", [], []⟩
    a.Changes g blank ∧ ¬a.Signed g signer := by
  intro signer g a
  refine ⟨?_, ?_⟩
  · have hchanged : (a.serve g blank).stored = (⟨[("hits", .counter "hits" 5)]⟩, none) := by
      decide +kernel
    unfold Changes
    rw [hchanged]
    decide +kernel
  · rintro ⟨plain, text, -, htext, -⟩
    cases htext

end Arrival

end Telemetry
