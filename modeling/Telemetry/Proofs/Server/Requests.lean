import Telemetry.Proofs.Gzip.RoundTrip
import Telemetry.Proofs.Server.Demand
import Telemetry.Proofs.Server.Signed

/-!
# What requests do to the metrics

A request that is let through wants something of the metrics, and what it is answered and what it
leaves is what comes of that; a request that is turned down leaves the metrics as they are. So an
answer that is no success has changed nothing, and one that is shows the whole merge
(`requests_follow_merges`).
-/

namespace Telemetry

namespace Http

section Routes

variable {σ : Type} {view : σ → Table} {store : Store (StateM σ)}

/-- What a body says as JSON, if a route takes it. -/
def decoded? {α : Type} (reader : Json.Reader α) (body : Bytes) : Option α :=
  if maxRouteBody < body.length then none else (Json.Reader.parse reader body).toOption

/-- The kind and name that the parts of a path spell out, if they spell them. -/
def spelledQuery? (kind name : String) : Option (Kind × String) :=
  match decodeParts [("mtype", kind), ("name", name)] with
  | .ok [kind, name] => (Kind.ofText? kind).map fun k => (k, name)
  | _ => none

namespace Route

/-- What a route wants of the metrics for a plain body. -/
def demand? (route : Route) (body : Bytes) : Option Demand :=
  match route with
  | .index => some .list
  | .ping => some .ping
  | .update => (decoded? Metric.reader body).map fun m => .merge [m]
  | .updates => ((decoded? (Json.Reader.list Metric.reader) body).filter (· ≠ [])).map .merge
  | .updatePath kind name value => (spelledMetric? kind name value).map fun m => .merge [m]
  | .find => (decoded? ValueQuery.reader body).map fun q => .find q.kind q.name
  | .findPath kind name => (spelledQuery? kind name).map fun q => .find q.1 q.2
  | .unknown => none

/-- How a route shows metrics: as a page, as documents, or as the text of a value. -/
def present (route : Route) (ms : List Metric) : Response :=
  match route, ms with
  | .index, ms => .html (IndexPage.page ms)
  | .ping, _ => .plain 200 "OK"
  | .updates, ms => .json 200 (Metric.listDocument ms)
  | .update, [m] | .find, [m] => .json 200 m.document
  | .updatePath _ _ _, [m] | .findPath _ _, [m] => .plain 200 m.valueText
  | _, _ => .bare 404

/-- What is to be read in that: the page, the document of one metric or of all, or the text of a
value. -/
def shown (route : Route) (ms : List Metric) : Bytes :=
  match route, ms with
  | .index, ms => Bytes.ofText (IndexPage.page ms)
  | .ping, _ => Bytes.ofText "OK"
  | .updates, ms => Metric.listDocumentBytes ms
  | .update, [m] | .find, [m] => m.documentBytes
  | .updatePath _ _ _, [m] | .findPath _ _, [m] => Bytes.ofText m.valueText
  | _, _ => []

theorem present_spec (route : Route) (ms : List Metric) :
    (route.present ms).encoding = none ∧ (route.present ms).body = route.shown ms := by
  unfold present shown
  split <;> exact ⟨rfl, rfl⟩

end Route

/-- What each route may want. -/
inductive Route.Wants : Route → Demand → Prop
  | index : Wants .index .list
  | ping : Wants .ping .ping
  | update (m : Metric) : Wants .update (.merge [m])
  | updates (batch : List Metric) : Wants .updates (.merge batch)
  | updatePath (kind name value : String) (m : Metric) :
    Wants (.updatePath kind name value) (.merge [m])
  | find (kind : Kind) (name : String) : Wants .find (.find kind name)
  | findPath (kind name : String) (k : Kind) (n : String) :
    Wants (.findPath kind name) (.find k n)

namespace Route

theorem wants_of_demand? {route : Route} {body : Bytes} {d : Demand}
    (h : route.demand? body = some d) : route.Wants d := by
  cases route with
  | index =>
    cases h
    exact .index
  | ping =>
    cases h
    exact .ping
  | unknown => cases h
  | update =>
    obtain ⟨m, -, rfl⟩ := Option.map_eq_some_iff.mp h
    exact .update m
  | updates =>
    obtain ⟨batch, -, rfl⟩ := Option.map_eq_some_iff.mp h
    exact .updates batch
  | updatePath kind name value =>
    obtain ⟨m, -, rfl⟩ := Option.map_eq_some_iff.mp h
    exact .updatePath kind name value m
  | find =>
    obtain ⟨q, -, rfl⟩ := Option.map_eq_some_iff.mp h
    exact .find q.kind q.name
  | findPath kind name =>
    obtain ⟨q, -, rfl⟩ := Option.map_eq_some_iff.mp h
    exact .findPath kind name q.1 q.2

/-- Just the routes for updates want a merge. -/
theorem Wants.updates?_iff {route : Route} {d : Demand} (h : route.Wants d) :
    route.updates? = true ↔ ∃ batch, d = .merge batch := by
  cases h <;> simp [updates?]

/-- What a route shows of a demand that was met is a success. -/
theorem Wants.status_present {route : Route} {d : Demand} (h : route.Wants d) {t : Table}
    {ms : List Metric} (hms : (d.answer t).1 = .ok ms) : (route.present ms).status = 200 := by
  have hone : ∀ m, d = .merge [m] → ∃ x, ms = [x] := by
    rintro m rfl
    cases hmerged : mergeBatch t.get? [m] with
    | error f =>
      rw [Demand.answer_merge_of_error hmerged] at hms
      cases hms
    | ok merged =>
      rw [Demand.answer_merge_of_ok hmerged] at hms
      cases hms
      exact (exists_of_mergeBatch_singleton hmerged).2
  have hfound : ∀ kind name, d = .find kind name → ∃ x, ms = [x] := by
    rintro kind name rfl
    unfold Demand.answer at hms
    dsimp only at hms
    split at hms
    next m _ =>
      dsimp only at hms
      split at hms
      · cases hms
        exact ⟨m, rfl⟩
      · cases hms
    next => cases hms
  cases h with
  | index => rfl
  | ping => rfl
  | updates batch => rfl
  | update m =>
    obtain ⟨x, rfl⟩ := hone m rfl
    rfl
  | updatePath kind name value m =>
    obtain ⟨x, rfl⟩ := hone m rfl
    rfl
  | find kind name =>
    obtain ⟨x, rfl⟩ := hfound kind name rfl
    rfl
  | findPath kind name k n =>
    obtain ⟨x, rfl⟩ := hfound k n rfl
    rfl

end Route

theorem withDocument_of_none {α : Type} {reader : Json.Reader α} {body : Bytes}
    (h : decoded? reader body = none) (go : α → StateM σ Response) :
    TurnsDown (withDocument reader body go) := by
  unfold decoded? at h
  unfold withDocument
  split
  next => exact .plain (by decide) _
  next hlength =>
    rw [if_neg hlength] at h
    cases hparse : Json.Reader.parse reader body with
    | error d => exact .fault _
    | ok a =>
      rw [hparse] at h
      cases h

theorem withDocument_of_some {α : Type} {reader : Json.Reader α} {body : Bytes} {a : α}
    (h : decoded? reader body = some a) (go : α → StateM σ Response) :
    withDocument reader body go = go a := by
  unfold decoded? at h
  unfold withDocument
  split at h
  next => cases h
  next hlength =>
    rw [if_neg hlength]
    cases hparse : Json.Reader.parse reader body with
    | error d =>
      rw [hparse] at h
      cases h
    | ok b =>
      rw [hparse] at h
      cases h
      rfl

theorem answerWith_ok {α : Type} (f : α → Response) (a : α) : answerWith f (.ok a) = f a := rfl

/-- A path that spells no kind and name is turned down. -/
theorem turnsDown_findPath {kind name : String} (h : spelledQuery? kind name = none)
    (body : Bytes) : TurnsDown ((Route.findPath kind name).handle store body) := by
  unfold spelledQuery? at h
  unfold Route.handle withParts
  dsimp only
  split
  next => exact .plain (by decide) _
  next texts htexts =>
    rw [htexts] at h
    split
    next kind' name' =>
      unfold valueFromPath
      rw [Option.map_eq_none_iff.mp h]
      exact .fault _
    next => exact .bare (by decide)

/-- A path that spells a kind and name has the metric found. -/
theorem handle_findPath {kind name : String} {q : Kind × String}
    (h : spelledQuery? kind name = some q) (body : Bytes) :
    (Route.findPath kind name).handle store body =
      Ingest.get store q.1 q.2 >>= fun result =>
        pure (answerWith (fun x => .plain 200 x.valueText) result) := by
  unfold spelledQuery? at h
  unfold Route.handle withParts
  dsimp only
  split at h
  next kind' name' htexts =>
    obtain ⟨k, hkind, rfl⟩ := Option.map_eq_some_iff.mp h
    rw [htexts]
    dsimp only
    unfold valueFromPath
    rw [hkind]
  next => cases h

/-- A route that wants nothing turns the request down. -/
theorem turnsDown_handle {route : Route} {body : Bytes} (h : route.demand? body = none) :
    TurnsDown (route.handle store body) := by
  cases route with
  | index => cases h
  | ping => cases h
  | update => exact withDocument_of_none (Option.map_eq_none_iff.mp h) _
  | updates =>
    cases hbatch : decoded? (Json.Reader.list Metric.reader) body with
    | none => exact withDocument_of_none hbatch _
    | some batch =>
      replace h : ((decoded? (Json.Reader.list Metric.reader) body).filter (· ≠ [])).map
          Demand.merge = none := h
      have hempty : batch = [] := by simpa [hbatch, Option.filter] using h
      subst hempty
      show TurnsDown (withDocument _ body _)
      rw [withDocument_of_some hbatch]
      exact .fault _
  | updatePath kind name value =>
    exact turnsDown_updatePath (Option.map_eq_none_iff.mp h) body
  | find => exact withDocument_of_none (Option.map_eq_none_iff.mp h) _
  | findPath kind name => exact turnsDown_findPath (Option.map_eq_none_iff.mp h) body
  | unknown => exact .bare (by decide)

/-- What a route answers and leaves is what comes of what it wants. -/
theorem meets_handle (hstore : AnswersAs view store) {route : Route} {body : Bytes} {d : Demand}
    (h : route.demand? body = some d) :
    Meets view d (answerWith route.present) (route.handle store body) := by
  cases route with
  | index =>
    cases h
    exact (Meets.list hstore).map _
  | ping =>
    cases h
    exact .ping hstore rfl
  | update =>
    obtain ⟨m, hbody, rfl⟩ := Option.map_eq_some_iff.mp h
    show Meets view _ _ (withDocument Metric.reader body _)
    rw [withDocument_of_some hbody]
    exact .update hstore m (fun _ => rfl) (fun _ => rfl)
  | updates =>
    obtain ⟨batch, hbatch, rfl⟩ := Option.map_eq_some_iff.mp h
    obtain ⟨hbody, hsome⟩ := Option.filter_eq_some_iff.mp hbatch
    show Meets view _ _ (withDocument (Json.Reader.list Metric.reader) body _)
    rw [withDocument_of_some hbody]
    unfold Ingest.updateMany
    rw [if_neg (by simpa using hsome)]
    exact (Meets.mergeMany hstore batch).map _
  | updatePath kind name value =>
    obtain ⟨m, hpath, rfl⟩ := Option.map_eq_some_iff.mp h
    rw [handle_updatePath hpath]
    exact .update hstore m (fun _ => rfl) (fun _ => rfl)
  | find =>
    obtain ⟨q, hbody, rfl⟩ := Option.map_eq_some_iff.mp h
    show Meets view _ _ (withDocument ValueQuery.reader body _)
    rw [withDocument_of_some hbody]
    exact .get hstore q.kind q.name (fun _ => rfl) (fun _ => rfl)
  | findPath kind name =>
    obtain ⟨q, hpath, rfl⟩ := Option.map_eq_some_iff.mp h
    rw [handle_findPath hpath]
    exact .get hstore q.1 q.2 (fun _ => rfl) (fun _ => rfl)
  | unknown => cases h

end Routes

theorem status_wrap (g : Guard) (acceptsCompressed : Bool) (response : Response) :
    (wrap g acceptsCompressed response).status = response.status := by
  unfold wrap
  split
  · rfl
  · dsimp only
    split <;> rfl

theorem status_finish (route : Route) (method : String) (response : Response) :
    (finish route method response).status = response.status := by
  unfold finish
  dsimp only
  split <;> split <;> rfl

namespace Request

/-- The plain body that a request brings to its route, if its peer is admitted and its body is
short enough, can be opened and is signed. -/
def admitted? (g : Guard) (r : Request) : Option Bytes :=
  match g.checkPeer (r.header? addressHeader) with
  | .error _ => none
  | .ok () =>
    if maxBody < r.body.length then none
    else if r.body.isEmpty then some []
    else (r.plainBody g).toOption

/-- What a request wants of the metrics. -/
def demand? (g : Guard) (r : Request) : Option Demand :=
  (r.admitted? g).bind fun body =>
    if r.route.allows r.method then r.route.demand? body else none

/-- A response as it goes out: signed, compressed, and without a body where none was asked for. -/
def dispatched (g : Guard) (r : Request) (response : Response) : Response :=
  finish r.route r.method (wrap g ((r.header? "Accept-Encoding").any acceptsGzip) response)

theorem status_dispatched (g : Guard) (r : Request) (response : Response) :
    (r.dispatched g response).status = response.status :=
  (status_finish _ _ _).trans (status_wrap _ _ _)

/-- Whether a response brings some bytes to who sent a request: as its body, or compressed if it
says so. A request that asks for no body gets none. -/
def Brings (r : Request) (response : Response) (content : Bytes) : Prop :=
  if r.method = "HEAD" then response.body = []
  else if response.encoding = some Gzip.encoding then Gzip.gunzip response.body = some content
  else response.encoding = none ∧ response.body = content

/-- **What a response has in it arrives**, however it goes out. -/
theorem brings_dispatched (g : Guard) (r : Request) {response : Response}
    (hplain : response.encoding = none) : r.Brings (r.dispatched g response) response.body := by
  have hencoding : ∀ reply : Response, (finish r.route r.method reply).encoding = reply.encoding := by
    intro reply
    unfold finish
    dsimp only
    split <;> split <;> rfl
  unfold Brings dispatched
  rw [hencoding]
  by_cases hhead : r.method = "HEAD"
  · rw [if_pos hhead]
    unfold finish
    dsimp only
    rw [if_pos hhead]
  · have hbody : ∀ reply : Response, (finish r.route r.method reply).body = reply.body := by
      intro reply
      unfold finish
      dsimp only
      rw [if_neg hhead]
      split <;> rfl
    rw [if_neg hhead, hbody]
    unfold wrap
    split
    next => simp [hplain]
    next =>
      dsimp only
      split
      · exact (if_pos rfl).mpr (Gzip.gunzip_compress response.body)
      · simp [hplain]

/-- So does what a route shows. -/
theorem brings_present (g : Guard) (r : Request) (ms : List Metric) :
    r.Brings (r.dispatched g (r.route.present ms)) (r.route.shown ms) := by
  obtain ⟨hplain, hbody⟩ := r.route.present_spec ms
  rw [← hbody]
  exact r.brings_dispatched g hplain

end Request

section Requests

variable {σ : Type} {view : σ → Table} {store : Store (StateM σ)} {g : Guard} {r : Request}

theorem TurnsDown.map {act : StateM σ Response} (h : TurnsDown act) {f : Response → Response}
    (hf : ∀ response, (f response).status = response.status) :
    TurnsDown (act >>= fun response => pure (f response)) := by
  obtain ⟨response, hstatus, rfl⟩ := h
  refine ⟨f response, ?_, pure_bind _ _⟩
  rw [hf]
  exact hstatus

/-- What comes of a request that brings a body to its route. -/
theorem respond_of_admitted {body : Bytes} (h : r.admitted? g = some body) :
    respond g store r =
      (if r.route = .unknown then pure (.bare 404)
        else if r.route.allows r.method then r.route.handle store body
        else pure (.bare 405)) >>= fun response => pure (r.dispatched g response) := by
  unfold Request.admitted? at h
  unfold respond respondAdmitted openRequest
  cases hpeer : g.checkPeer (r.header? addressHeader) with
  | error f =>
    rw [hpeer] at h
    cases h
  | ok _ =>
    rw [hpeer] at h
    dsimp only at h ⊢
    split at h
    next => cases h
    next hlength =>
      rw [if_neg hlength]
      split at h
      next hempty =>
        cases h
        rw [if_pos hempty]
        simp only [bind_assoc, pure_bind]
        rfl
      next hempty =>
        rw [if_neg hempty]
        cases hplain : r.plainBody g with
        | error f =>
          rw [hplain] at h
          cases h
        | ok plain =>
          rw [hplain] at h
          cases h
          simp only [bind_assoc, pure_bind]
          rfl

/-- A request that brings no body to its route is turned down. -/
theorem turnsDown_of_not_admitted (h : r.admitted? g = none) :
    TurnsDown (respond g store r) := by
  unfold Request.admitted? at h
  unfold respond
  cases hpeer : g.checkPeer (r.header? addressHeader) with
  | error f => exact (TurnsDown.fault f).map (status_finish _ _)
  | ok _ =>
    rw [hpeer] at h
    dsimp only at h
    refine TurnsDown.map (TurnsDown.map ?_ (status_wrap _ _)) (status_finish _ _)
    unfold openRequest
    split at h
    next hlength =>
      rw [if_pos hlength]
      exact .problem _
    next hlength =>
      rw [if_neg hlength]
      split at h
      next => cases h
      next hempty =>
        rw [if_neg hempty]
        cases hplain : r.plainBody g with
        | error f => exact .fault f
        | ok plain =>
          rw [hplain] at h
          cases h

/-- A request that wants nothing of the metrics is turned down. -/
theorem turnsDown_respond (store : Store (StateM σ)) (h : r.demand? g = none) :
    TurnsDown (respond g store r) := by
  cases hbody : r.admitted? g with
  | none => exact turnsDown_of_not_admitted hbody
  | some body =>
    rw [respond_of_admitted hbody]
    refine TurnsDown.map ?_ (r.status_dispatched g)
    split
    next => exact .bare (by decide)
    next =>
      unfold Request.demand? at h
      rw [hbody, Option.bind_some] at h
      split
      next hallows =>
        rw [if_pos hallows] at h
        exact turnsDown_handle h
      next => exact .bare (by decide)

/-- What is answered to a request and left after it is what comes of what it wants. -/
theorem meets_respond (hstore : AnswersAs view store) {d : Demand} (h : r.demand? g = some d) :
    Meets view d (fun result => r.dispatched g (answerWith r.route.present result))
      (respond g store r) := by
  obtain ⟨body, hbody, h⟩ := Option.bind_eq_some_iff.mp h
  split at h
  next hallows =>
    rw [respond_of_admitted hbody]
    refine Meets.map ?_ (r.dispatched g)
    split
    next hunknown =>
      rw [hunknown] at h
      cases h
    next => exact meets_handle hstore h
  next => cases h

theorem Request.wants_of_demand? {d : Demand} (h : r.demand? g = some d) : r.route.Wants d := by
  obtain ⟨body, -, h⟩ := Option.bind_eq_some_iff.mp h
  split at h
  next => exact Route.wants_of_demand? h
  next => cases h

/-- An answer that is no success has changed nothing. -/
theorem unchanged_of_failure (hstore : AnswersAs view store) {s : σ}
    (h : ((respond g store r).run s).1.status ≠ 200) :
    view ((respond g store r).run s).2 = view s := by
  cases hd : r.demand? g with
  | none => exact (turnsDown_respond store hd).keeps s
  | some d =>
    obtain ⟨s', hrun, hview⟩ := meets_respond hstore hd s
    rw [hrun] at h ⊢
    refine hview.trans ?_
    cases hanswer : (d.answer (view s)).1 with
    | error f => exact Demand.answer_of_error hanswer
    | ok ms =>
      rw [hanswer] at h
      refine absurd ?_ h
      dsimp only
      rw [answerWith_ok, Request.status_dispatched]
      exact (Request.wants_of_demand? hd).status_present hanswer

/-- A request to a route that is not there for updates changes nothing. -/
theorem unchanged_of_reading (hstore : AnswersAs view store) (h : r.route.updates? = false)
    (s : σ) : view ((respond g store r).run s).2 = view s := by
  cases hd : r.demand? g with
  | none => exact (turnsDown_respond store hd).keeps s
  | some d =>
    obtain ⟨s', hrun, hview⟩ := meets_respond hstore hd s
    rw [hrun]
    refine hview.trans (Demand.answer_of_reading (fun batch hbatch => ?_) _)
    have hupdates := (Request.wants_of_demand? hd).updates?_iff.mpr ⟨batch, hbatch⟩
    rw [h] at hupdates
    cases hupdates

/-- An answer that is a success is one to a request that wants something. -/
theorem exists_demand_of_success {s : σ} (h : ((respond g store r).run s).1.status = 200) :
    ∃ d, r.demand? g = some d := by
  cases hd : r.demand? g with
  | none =>
    obtain ⟨response, hstatus, hresponse⟩ := turnsDown_respond store hd
    rw [hresponse] at h
    exact absurd h hstatus
  | some d => exact ⟨d, rfl⟩

/-- A batch is merged as a whole, and the response shows what it was merged to. -/
theorem respond_merge (hstore : AnswersAs view store) {batch : List Metric}
    (h : r.demand? g = some (.merge batch)) (s : σ) :
    match mergeBatch (view s).get? batch with
    | .ok merged =>
      ((respond g store r).run s).1 = r.dispatched g (r.route.present merged) ∧
        r.Brings ((respond g store r).run s).1 (r.route.shown merged) ∧
          ((respond g store r).run s).1.status = 200 ∧
            view ((respond g store r).run s).2 = (view s).insertAll merged
    | .error f => ((respond g store r).run s).1 = r.dispatched g (.ofFault f) ∧
        ((respond g store r).run s).1.status ≠ 200 := by
  obtain ⟨s', hrun, hview⟩ := meets_respond hstore h s
  rw [hrun]
  cases hmerged : mergeBatch (view s).get? batch with
  | error f =>
    rw [Demand.answer_merge_of_error hmerged]
    refine ⟨rfl, ?_⟩
    rw [Request.status_dispatched]
    exact (Problem.ofFault f).status_ne
  | ok merged =>
    rw [Demand.answer_merge_of_ok hmerged] at hview ⊢
    dsimp only
    rw [answerWith_ok]
    refine ⟨rfl, r.brings_present g merged, ?_, hview⟩
    rw [Request.status_dispatched]
    exact (Request.wants_of_demand? h).status_present (t := view s)
      (by rw [Demand.answer_merge_of_ok hmerged])

/-- The metric of a kind and name is shown, if there is one. -/
theorem respond_find (hstore : AnswersAs view store) {kind : Kind} {name : String}
    (h : r.demand? g = some (.find kind name)) (s : σ) :
    match ((view s).get? name).filter (·.kind = kind) with
    | some m =>
      ((respond g store r).run s).1 = r.dispatched g (r.route.present [m]) ∧
        r.Brings ((respond g store r).run s).1 (r.route.shown [m]) ∧
          ((respond g store r).run s).1.status = 200
    | none => ((respond g store r).run s).1.status = 404 := by
  obtain ⟨s', hrun, -⟩ := meets_respond hstore h s
  rw [hrun]
  have hanswer := Demand.answer_find kind name (view s)
  cases hfound : ((view s).get? name).filter (·.kind = kind) with
  | none =>
    rw [hfound] at hanswer
    rw [hanswer]
    exact r.status_dispatched g _
  | some m =>
    rw [hfound] at hanswer
    rw [hanswer]
    dsimp only
    rw [answerWith_ok]
    refine ⟨rfl, r.brings_present g [m], ?_⟩
    rw [Request.status_dispatched]
    exact (Request.wants_of_demand? h).status_present (t := view s) (by rw [hanswer])

end Requests

end Http

namespace Rpc

namespace Request

/-- The batch that a request brings to be merged, if its peer, its envelope, its messages and its
signature are in order. -/
def batch? (g : Guard) (r : Request) : Option (List Metric) :=
  match r.payload with
  | .metric message =>
    (r.open g Metric.reader Metric.documentBytes (metricOf message)).toOption.map fun m => [m]
  | .metrics messages =>
    (r.open g (Json.Reader.list Metric.reader) Metric.listDocumentBytes
      (MetricMessage.toMetrics messages)).toOption.filter (· ≠ [])

/-- How a request is shown metrics: one if it brought one, or else a list. -/
def present (r : Request) (ms : List Metric) : Reply :=
  match r.payload, ms with
  | .metric _, [m] => .metric (.ofMetric m)
  | _, ms => .metrics (MetricMessage.ofMetrics ms)

end Request

section Requests

variable {σ : Type} {view : σ → Table} {store : Store (StateM σ)} {g : Guard} {r : Request}

/-- A request that brings no batch is refused before the store is asked. -/
theorem answer_of_no_batch (store : Store (StateM σ)) (h : r.batch? g = none) :
    ∃ status, answer g store r = pure (.error status) := by
  unfold Request.batch? at h
  unfold answer
  split
  next message hpayload =>
    rw [hpayload] at h
    split
    next f => exact ⟨_, rfl⟩
    next m hopen =>
      dsimp only at h
      rw [hopen] at h
      cases h
  next messages hpayload =>
    rw [hpayload] at h
    split
    next f => exact ⟨_, rfl⟩
    next batch hopen =>
      have hempty : batch = [] := by simpa [hopen, Option.filter, Except.toOption] using h
      subst hempty
      exact ⟨RpcStatus.ofFault (.validation .emptyBatch), rfl⟩

/-- What is answered to a request and left after it is what comes of its batch. -/
theorem meets_answer (hstore : AnswersAs view store) {batch : List Metric}
    (h : r.batch? g = some batch) :
    Meets view (.merge batch) (withStatus r.present) (answer g store r) := by
  unfold Request.batch? at h
  unfold answer
  split
  next message hpayload =>
    rw [hpayload] at h
    obtain ⟨m, hopen, rfl⟩ := Option.map_eq_some_iff.mp h
    split
    next f hfault =>
      rw [hfault] at hopen
      cases hopen
    next m' hopen' =>
      rw [hopen'] at hopen
      cases hopen
      refine .update hstore m (fun x => ?_) (fun _ => rfl)
      unfold Request.present
      rw [hpayload]
      rfl
  next messages hpayload =>
    rw [hpayload] at h
    obtain ⟨hopen, hsome⟩ := Option.filter_eq_some_iff.mp h
    have hpresent : r.present = fun ms => .metrics (MetricMessage.ofMetrics ms) := by
      funext ms
      unfold Request.present
      rw [hpayload]
    split
    next f hfault =>
      rw [hfault] at hopen
      cases hopen
    next batch' hopen' =>
      rw [hopen'] at hopen
      cases hopen
      unfold Ingest.updateMany
      rw [if_neg (by simpa using hsome), hpresent]
      exact (Meets.mergeMany hstore batch).map _

/-- A batch is merged as a whole, and the reply shows what it was merged to. -/
theorem answer_merge (hstore : AnswersAs view store) {batch : List Metric}
    (h : r.batch? g = some batch) (s : σ) :
    match mergeBatch (view s).get? batch with
    | .ok merged =>
      ((answer g store r).run s).1 = .ok (r.present merged) ∧
        view ((answer g store r).run s).2 = (view s).insertAll merged
    | .error f =>
      ((answer g store r).run s).1 = .error (RpcStatus.ofFault f) ∧
        view ((answer g store r).run s).2 = view s := by
  obtain ⟨s', hrun, hview⟩ := meets_answer hstore h s
  rw [hrun]
  cases hmerged : mergeBatch (view s).get? batch with
  | error f =>
    rw [Demand.answer_merge_of_error hmerged] at hview ⊢
    exact ⟨rfl, hview⟩
  | ok merged =>
    rw [Demand.answer_merge_of_ok hmerged] at hview ⊢
    exact ⟨rfl, hview⟩

end Requests

end Rpc

/-! ## Over both -/

/-- **Requests follow the merge rule.** Whatever is asked of a server with a store in memory, over
HTTP or by a remote call:

* an answer that is no success has changed nothing, and neither has any answer of a route that is
  not there for updates;
* a success is the answer to a request that could be read to the end and wants something, which is
  a merge just if the route is there for updates;
* a batch that can be merged is written as a whole over what there was, and the answer brings what
  it was merged to, as a document or as the text of the value; one that cannot is refused;
* a metric that is asked for is brought in the same way, or is not found if none is stored of that
  kind and name. -/
theorem requests_follow_merges (g : Guard) (s : DumpingStore) :
    (∀ r : Http.Request,
      let response := ((Http.respond g DumpingStore.call r).run s).1
      let after := ((Http.respond g DumpingStore.call r).run s).2.table
      (response.status ≠ 200 → after = s.table) ∧
      (r.route.updates? = false → after = s.table) ∧
      (response.status = 200 →
        ∃ d, r.demand? g = some d ∧ (r.route.updates? = true ↔ ∃ batch, d = .merge batch)) ∧
      (∀ batch, r.demand? g = some (.merge batch) →
        match mergeBatch s.table.get? batch with
        | .ok merged =>
          response = r.dispatched g (r.route.present merged) ∧
            r.Brings response (r.route.shown merged) ∧ response.status = 200 ∧
              after = s.table.insertAll merged
        | .error f => response = r.dispatched g (.ofFault f) ∧ response.status ≠ 200) ∧
      (∀ kind name, r.demand? g = some (.find kind name) →
        match (s.table.get? name).filter (·.kind = kind) with
        | some m =>
          response = r.dispatched g (r.route.present [m]) ∧
            r.Brings response (r.route.shown [m]) ∧ response.status = 200
        | none => response.status = 404)) ∧
    ∀ r : Rpc.Request,
      let result := ((Rpc.answer g DumpingStore.call r).run s).1
      let after := ((Rpc.answer g DumpingStore.call r).run s).2.table
      (∀ status, result = .error status → after = s.table) ∧
      (∀ reply, result = .ok reply → ∃ batch, r.batch? g = some batch) ∧
      ∀ batch, r.batch? g = some batch →
        match mergeBatch s.table.get? batch with
        | .ok merged => result = .ok (r.present merged) ∧ after = s.table.insertAll merged
        | .error f => result = .error (RpcStatus.ofFault f) ∧ after = s.table := by
  have hstore := DumpingStore.answersAs_call
  refine ⟨fun r => ⟨?_, ?_, ?_, ?_, ?_⟩, fun r => ⟨?_, ?_, ?_⟩⟩
  · exact Http.unchanged_of_failure hstore
  · exact fun h => Http.unchanged_of_reading hstore h s
  · intro h
    obtain ⟨d, hd⟩ := Http.exists_demand_of_success h
    exact ⟨d, hd, (Http.Request.wants_of_demand? hd).updates?_iff⟩
  · exact fun batch h => Http.respond_merge hstore h s
  · exact fun kind name h => Http.respond_find hstore h s
  · intro status h
    cases hbatch : r.batch? g with
    | none =>
      obtain ⟨status', hrefused⟩ := Rpc.answer_of_no_batch DumpingStore.call hbatch
      rw [hrefused]
      rfl
    | some batch =>
      have hmerge := Rpc.answer_merge hstore hbatch s
      cases hmerged : mergeBatch s.table.get? batch with
      | error f =>
        rw [hmerged] at hmerge
        exact hmerge.2
      | ok merged =>
        rw [hmerged] at hmerge
        cases h.symm.trans hmerge.1
  · intro reply h
    cases hbatch : r.batch? g with
    | some batch => exact ⟨batch, rfl⟩
    | none =>
      obtain ⟨status, hrefused⟩ := Rpc.answer_of_no_batch DumpingStore.call hbatch
      rw [hrefused] at h
      cases h
  · exact fun batch h => Rpc.answer_merge hstore h s

/-- Five hits more, in a path and as a message; the total arrives as it is, or compressed where that
is accepted. -/
theorem requests_follow_merges_on_hits :
    let g : Guard := ⟨none, none, none⟩
    let s : DumpingStore :=
      { DumpingStore.plain .empty with table := ⟨[("hits", .counter "hits" 2)]⟩ }
    let post : Http.Request := ⟨"POST", "/update/counter/hits/5", [], []⟩
    let eased : Http.Request :=
      { post with headers := [("Accept-Encoding", Bytes.ofText "gzip")] }
    let call : Rpc.Request := ⟨[], .metric (some ⟨"hits", 2, none, some 5⟩), []⟩
    let after : Table := ⟨[("hits", .counter "hits" 7)]⟩
    (((Http.respond g DumpingStore.call post).run s).1.status = 200 ∧
      ((Http.respond g DumpingStore.call post).run s).1.body = Bytes.ofText "7" ∧
        ((Http.respond g DumpingStore.call post).run s).2.table = after) ∧
      Gzip.gunzip ((Http.respond g DumpingStore.call eased).run s).1.body =
          some (Bytes.ofText "7") ∧
        ((Rpc.answer g DumpingStore.call call).run s).1 =
            .ok (.metric ⟨"hits", 2, none, some 7⟩) ∧
          ((Rpc.answer g DumpingStore.call call).run s).2.table = after := by
  intro g s post eased call after
  obtain ⟨hhttp, hrpc⟩ := requests_follow_merges g s
  have hdemand : post.demand? g = some (.merge [.counter "hits" 5]) := by decide +kernel
  have heased : eased.demand? g = some (.merge [.counter "hits" 5]) := by decide +kernel
  have hbatch : call.batch? g = some [.counter "hits" 5] := by decide +kernel
  have hmerged : mergeBatch s.table.get? [.counter "hits" 5] = .ok [.counter "hits" 7] := rfl
  have hafter : s.table.insertAll [.counter "hits" 7] = after := by decide +kernel
  have hshown : post.route.shown [.counter "hits" 7] = Bytes.ofText "7" := by decide +kernel
  have hpost := (hhttp post).2.2.2.1 _ hdemand
  have hcompressed := (hhttp eased).2.2.2.1 _ heased
  have hcall := (hrpc call).2.2 _ hbatch
  rw [hmerged] at hpost hcompressed hcall
  obtain ⟨hresponse, hbrings, hstatus, hwritten⟩ := hpost
  obtain ⟨hzipped, hzippedBrings, -, -⟩ := hcompressed
  rw [hshown] at hbrings
  rw [show eased.route.shown [.counter "hits" 7] = Bytes.ofText "7" from hshown] at hzippedBrings
  refine ⟨⟨hstatus, ?_, hwritten.trans hafter⟩, ?_, hcall.1, hcall.2.trans hafter⟩
  · have hencoding : ((Http.respond g DumpingStore.call post).run s).1.encoding = none := by
      rw [hresponse]
      decide +kernel
    unfold Http.Request.Brings at hbrings
    rw [if_neg (by decide), hencoding, if_neg nofun] at hbrings
    exact hbrings.2
  · have hencoding : ((Http.respond g DumpingStore.call eased).run s).1.encoding =
        some Gzip.encoding := by
      rw [hzipped]
      decide +kernel
    unfold Http.Request.Brings at hzippedBrings
    rw [if_neg (by decide), if_pos hencoding] at hzippedBrings
    exact hzippedBrings

end Telemetry
