import Telemetry.Http.Server
import Telemetry.Proofs.Server.Requests
import Telemetry.Rpc.Service

/-!
# Peers outside the trusted network

A server with a trusted network turns away whoever states no address in it, before it looks at
anything else: what it answers is made of the stated address and of the route and method that were
asked for, and its store is not asked at all. So two such requests are answered alike, whatever they
bring and whatever the server knows (`untrusted_peers_learn_nothing`).
-/

namespace Telemetry

/-! ## Stated addresses -/

/-- Whether a peer may come in by the address that it states. -/
def Subnet.Admits (network : Subnet) (stated : Option String) : Prop :=
  ∃ text ip, stated = some text ∧ IpAddress.ofText? (Text.trim text) = some ip ∧
    network.contains ip = true

namespace Guard

/-- What is said of a stated address that is no way in. -/
def refusal (stated : Option String) : String :=
  let raw := Text.trim (stated.getD "")
  match IpAddress.ofText? raw with
  | none => "에이전트 IP 확인 불가: " ++ Text.quoted raw
  | some ip => ip.text ++ "는 신뢰 서브넷 밖"

theorem checkPeer_of_admits {g : Guard} {network : Subnet} (hnetwork : g.trusted = some network)
    {stated : Option String} (h : network.Admits stated) : g.checkPeer stated = .ok () := by
  obtain ⟨text, ip, rfl, hip, hcontains⟩ := h
  unfold checkPeer
  rw [hnetwork, Option.getD_some]
  dsimp only
  rw [hip]
  exact if_pos hcontains

theorem checkPeer_of_not_admits {g : Guard} {network : Subnet}
    (hnetwork : g.trusted = some network) {stated : Option String}
    (h : ¬network.Admits stated) : g.checkPeer stated = .error (.forbidden (refusal stated)) := by
  unfold checkPeer refusal
  rw [hnetwork]
  dsimp only
  cases hip : IpAddress.ofText? (Text.trim (stated.getD "")) with
  | none => rfl
  | some ip =>
    refine if_neg fun hcontains => h ?_
    cases stated with
    | none =>
      -- nothing is no address
      cases hip
    | some text => exact ⟨text, ip, rfl, hip, hcontains⟩

/-- A server with a trusted network admits just those who state an address in it. -/
theorem checkPeer_eq_ok_iff {g : Guard} {network : Subnet} (hnetwork : g.trusted = some network)
    {stated : Option String} : g.checkPeer stated = .ok () ↔ network.Admits stated := by
  refine ⟨fun hok => ?_, checkPeer_of_admits hnetwork⟩
  by_contra h
  rw [checkPeer_of_not_admits hnetwork h] at hok
  cases hok

end Guard

/-! ## What is answered -/

namespace Http

namespace Route

/-- Whether two routes are one, whatever names and values are spelled out in their paths. -/
def Alike : Route → Route → Prop
  | .index, .index | .ping, .ping | .update, .update | .updates, .updates
  | .updatePath _ _ _, .updatePath _ _ _ | .find, .find | .findPath _ _, .findPath _ _
  | .unknown, .unknown => True
  | _, _ => False

theorem Alike.refl (route : Route) : route.Alike route := by
  cases route <;> exact trivial

end Route

theorem finish_of_alike {route route' : Route} (h : route.Alike route') (method : String)
    (response : Response) : finish route method response = finish route' method response := by
  cases route <;> cases route' <;> first | rfl | cases h

/-- What a peer is answered that is not admitted: the reason, in the form in which a route answers
a method. -/
def turnAway (route : Route) (method : String) (stated : Option String) : Response :=
  finish route method (.ofFault (.forbidden (Guard.refusal stated)))

theorem status_turnAway (route : Route) (method : String) (stated : Option String) :
    (turnAway route method stated).status = 403 := status_finish _ _ _

/-- The reason is told unless the answer is to have no body. -/
theorem body_turnAway {method : String} (hmethod : method ≠ "HEAD") (route : Route)
    (stated : Option String) :
    (turnAway route method stated).body =
      Bytes.ofText (Problem.document ⟨.forbidden, "접근 거부: " ++ Guard.refusal stated⟩) := by
  unfold turnAway finish
  rw [if_neg hmethod]
  split <;> rfl

/-- Whoever is not admitted is turned away, and nothing else happens. -/
theorem respond_of_not_admits {m : Type → Type} [Monad m] {g : Guard} {network : Subnet}
    (hnetwork : g.trusted = some network) (store : Store m) {r : Request}
    (h : ¬network.Admits (r.header? addressHeader)) :
    respond g store r = pure (turnAway r.route r.method (r.header? addressHeader)) := by
  unfold respond
  rw [Guard.checkPeer_of_not_admits hnetwork h]
  rfl

end Http

namespace Rpc

/-- A request of a peer that is not admitted is not opened. -/
theorem Request.open_of_refused {α : Type} {r : Request} {g : Guard} {f : Fault}
    (h : g.checkPeer (r.text? addressKey) = .error f) (reader : Json.Reader α)
    (document : α → Bytes) (plain : Except Fault α) :
    r.open g reader document plain = .error f := by
  unfold Request.open
  rw [h]
  rfl

/-- A request that is not opened is answered by the fault alone. -/
theorem answer_of_open_error {m : Type → Type} [Monad m] {g : Guard} (store : Store m) {r : Request}
    {f : Fault}
    (h : ∀ {α : Type} (reader : Json.Reader α) (document : α → Bytes) (plain : Except Fault α),
      r.open g reader document plain = .error f) :
    answer g store r = pure (.error (RpcStatus.ofFault f)) := by
  unfold answer
  split
  next => rw [h]
  next => rw [h]

/-- Whoever is not admitted is turned away, and nothing else happens. -/
theorem answer_of_not_admits {m : Type → Type} [Monad m] {g : Guard} {network : Subnet}
    (hnetwork : g.trusted = some network) (store : Store m) {r : Request}
    (h : ¬network.Admits (r.text? addressKey)) :
    answer g store r =
      pure (.error ⟨.permissionDenied, "접근 거부: " ++ Guard.refusal (r.text? addressKey)⟩) := by
  have hpeer := Guard.checkPeer_of_not_admits hnetwork h
  exact answer_of_open_error store (Request.open_of_refused hpeer)

end Rpc

/-- **Untrusted peers learn and change nothing.** Let a peer state no address, or one that cannot be
read, or one outside the trusted network of a server. Then, whatever else it sends and whatever
keys, settings and metrics the server has:

* an HTTP request, to any route or to none, is answered with status 403 and a text made of the
  stated address, and leaves the state of the store as it is;
* two requests with the same stated address to one route by one method are answered alike, also by
  two servers with the same network and different keys and metrics;
* a remote call is denied with a text made of the stated address, and leaves the state as it is. -/
theorem untrusted_peers_learn_nothing (network : Subnet) :
    (∀ {σ : Type} (g : Guard) (store : Store (StateM σ)) (s : σ) (r : Http.Request),
      g.trusted = some network → ¬network.Admits (r.header? Http.addressHeader) →
        let reply := ((Http.respond g store r).run s).1
        ((Http.respond g store r).run s).2 = s ∧ reply.status = 403 ∧
          (r.method ≠ "HEAD" → reply.body = Bytes.ofText (Http.Problem.document
            ⟨.forbidden, "접근 거부: " ++ Guard.refusal (r.header? Http.addressHeader)⟩))) ∧
    (∀ {σ σ' : Type} (g g' : Guard) (store : Store (StateM σ)) (store' : Store (StateM σ'))
      (s : σ) (s' : σ') (r r' : Http.Request),
      g.trusted = some network → g'.trusted = some network →
        ¬network.Admits (r.header? Http.addressHeader) →
          r'.header? Http.addressHeader = r.header? Http.addressHeader →
            r.route.Alike r'.route → r'.method = r.method →
              ((Http.respond g store r).run s).1 = ((Http.respond g' store' r').run s').1) ∧
    ∀ {σ : Type} (g : Guard) (store : Store (StateM σ)) (s : σ) (r : Rpc.Request),
      g.trusted = some network → ¬network.Admits (r.text? Rpc.addressKey) →
        (Rpc.answer g store r).run s =
          (.error ⟨.permissionDenied, "접근 거부: " ++ Guard.refusal (r.text? Rpc.addressKey)⟩, s) := by
  refine ⟨fun g store s r hnetwork hout => ?_, ?_, fun g store s r hnetwork hout => ?_⟩
  · rw [Http.respond_of_not_admits hnetwork store hout]
    exact ⟨rfl, Http.status_turnAway _ _ _, fun hmethod => Http.body_turnAway hmethod _ _⟩
  · intro σ σ' g g' store store' s s' r r' hnetwork hnetwork' hout hstated hroute hmethod
    have hout' : ¬network.Admits (r'.header? Http.addressHeader) := hstated ▸ hout
    rw [Http.respond_of_not_admits hnetwork store hout,
      Http.respond_of_not_admits hnetwork' store' hout', hstated, hmethod]
    exact Http.finish_of_alike hroute _ _
  · rw [Rpc.answer_of_not_admits hnetwork store hout]
    rfl

/-- A peer from elsewhere asks two servers with one network for a value: one has no key, the other
has one and has stored what is asked for. -/
theorem untrusted_peers_learn_nothing_of_hits :
    let network : Subnet := ⟨.v4 0x0a010000#32, 16⟩
    let stranger : List (String × Bytes) := [("x-real-ip", Bytes.ofText "192.168.0.1")]
    let g : Guard := ⟨none, none, some network⟩
    let g' : Guard := ⟨some ⟨[0x6b]⟩, none, some network⟩
    let s : DumpingStore := .plain .empty
    let s' : DumpingStore := { s with table := ⟨[("hits", .counter "hits" 2)]⟩ }
    let r : Http.Request := ⟨"GET", "/value/counter/hits", stranger, []⟩
    let r' : Http.Request := ⟨"GET", "/value/gauge/load", ("Accept", [0x2a]) :: stranger, [0x7b]⟩
    let call : Rpc.Request := ⟨stranger, .metric (some ⟨"hits", 2, none, some 5⟩), []⟩
    (¬network.Admits (r.header? Http.addressHeader) ∧ ¬network.Admits (call.text? Rpc.addressKey)) ∧
      (((Http.respond g DumpingStore.call r).run s).1.status = 403 ∧
        ((Http.respond g DumpingStore.call r).run s).1 =
          ((Http.respond g' DumpingStore.call r').run s').1) ∧
      (Rpc.answer g' DumpingStore.call call).run s' =
        (.error ⟨.permissionDenied, "접근 거부: 192.168.0.1는 신뢰 서브넷 밖"⟩, s') := by
  intro network stranger g g' s s' r r' call
  have hnetwork : g.trusted = some network ∧ g'.trusted = some network := ⟨rfl, rfl⟩
  have hout : ¬network.Admits (some "192.168.0.1") := by
    rw [← Guard.checkPeer_eq_ok_iff hnetwork.1]
    decide +kernel
  have hr : r.header? Http.addressHeader = some "192.168.0.1" := by decide +kernel
  have hr' : r'.header? Http.addressHeader = some "192.168.0.1" := by decide +kernel
  have hcall : call.text? Rpc.addressKey = some "192.168.0.1" := by decide +kernel
  obtain ⟨hone, htwo, hrpc⟩ := untrusted_peers_learn_nothing network
  have hroute : r.route.Alike r'.route := by
    have hroutes : r.route = .findPath "counter" "hits" ∧ r'.route = .findPath "gauge" "load" := by
      decide +kernel
    rw [hroutes.1, hroutes.2]
    exact trivial
  have hasked : ¬network.Admits (r.header? Http.addressHeader) := by
    rw [hr]
    exact hout
  have hcalled : ¬network.Admits (call.text? Rpc.addressKey) := by
    rw [hcall]
    exact hout
  have hanswer := hrpc g' DumpingStore.call s' call hnetwork.2 hcalled
  rw [hcall, show Guard.refusal (some "192.168.0.1") = "192.168.0.1는 신뢰 서브넷 밖" by
    decide +kernel] at hanswer
  have hdenied := (hone g DumpingStore.call s r hnetwork.1 hasked).2.1
  have halike := htwo g g' DumpingStore.call DumpingStore.call s s' r r' hnetwork.1 hnetwork.2
    hasked (hr'.trans hr.symm) hroute rfl
  exact ⟨⟨hasked, hcalled⟩, ⟨hdenied, halike⟩, hanswer⟩

end Telemetry
