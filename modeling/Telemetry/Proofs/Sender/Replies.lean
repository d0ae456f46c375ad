import Telemetry.Http.Server
import Telemetry.Proofs.Gzip.RoundTrip
import Telemetry.Proofs.Sender.Headers

/-!
# What a sender reads of a wrapped response

A route answers in plain (`Http.isPlain_handle`); what surrounds the routes adds a signature of the
plain body and compresses it where that is accepted. A sender takes the same two layers off again:
it comes to the body that the route has made, and finds a signature that holds
(`HttpSender.receive_wrap`).
-/

namespace Telemetry

namespace Http

/-! ## Headers of responses -/

/-- The headers that have a value. -/
def spelledHeaders (fields : List (String × Option String)) : List (String × Bytes) :=
  fields.filterMap fun (name, value) => value.map fun v => (name, Bytes.ofText v)

section Lookup

variable {name name' : String} {value : Option String} {rest : List (String × Option String)}

theorem headerText?_spelled_self (hname : Text.lowerAscii name' = Text.lowerAscii name)
    (h : ∀ s, value = some s → Text.IsVisible s)
    (hrest : headerText? (spelledHeaders rest) name = none) :
    headerText? (spelledHeaders ((name', value) :: rest)) name = value := by
  cases value with
  | none => exact hrest
  | some s => exact headerText?_cons_self _ hname (h s rfl)

theorem headerText?_spelled_of_ne (hname : Text.lowerAscii name' ≠ Text.lowerAscii name) :
    headerText? (spelledHeaders ((name', value) :: rest)) name =
      headerText? (spelledHeaders rest) name := by
  cases value with
  | none => rfl
  | some s => exact headerText?_cons_of_ne _ hname _

end Lookup

namespace Reply

variable {r : Response}

theorem header?_encoding (h : ∀ s, r.encoding = some s → Text.IsVisible s) :
    (ofResponse r).header? "Content-Encoding" = r.encoding := by
  show headerText? (spelledHeaders _) _ = _
  rw [headerText?_spelled_of_ne (by decide), headerText?_spelled_of_ne (by decide),
    headerText?_spelled_self rfl h]
  rw [headerText?_spelled_of_ne (by decide)]
  rfl

theorem header?_signature (h : ∀ s, r.signature = some s → Text.IsVisible s) :
    (ofResponse r).header? signatureHeader = r.signature := by
  show headerText? (spelledHeaders _) _ = _
  rw [headerText?_spelled_of_ne (by decide), headerText?_spelled_of_ne (by decide),
    headerText?_spelled_of_ne (by decide), headerText?_spelled_self rfl h rfl]

end Reply

/-- A response with a body is signed, and compressed where that is accepted. -/
theorem wrap_of_body (g : Guard) (acceptsCompressed : Bool) {response : Response}
    (hbody : response.body ≠ []) :
    wrap g acceptsCompressed response =
      if acceptsCompressed then
        { response with
          encoding := some Gzip.encoding
          signature := g.sign response.body
          body := Gzip.compress response.body }
      else { response with signature := g.sign response.body } := by
  unfold wrap
  rw [if_neg (by rwa [List.isEmpty_iff])]

/-! ## Responses of routes -/

/-- Whether a response says of no encoding. -/
def Response.IsPlain (r : Response) : Prop := r.encoding = none

/-- Whether what an action answers is plain. -/
def AnswersPlain {σ : Type} (act : StateM σ Response) : Prop := ∀ s, (act.run s).1.IsPlain

namespace AnswersPlain

variable {σ α : Type}

theorem pure {r : Response} (h : r.IsPlain) : AnswersPlain (Pure.pure r : StateM σ Response) :=
  fun _ => h

theorem bind (act : StateM σ α) {next : α → StateM σ Response} (h : ∀ a, AnswersPlain (next a)) :
    AnswersPlain (act >>= next) := by
  intro s
  rw [StateT.run_bind]
  exact h _ _

theorem answerWith (act : StateM σ (Except Fault α)) {f : α → Response}
    (h : ∀ a, (f a).IsPlain) :
    AnswersPlain (act >>= fun result => Pure.pure (Http.answerWith f result)) :=
  bind act fun result => pure (by
    cases result with
    | ok a => exact h a
    | error e => rfl)

theorem withDocument {reader : Json.Reader α} {body : Bytes} {go : α → StateM σ Response}
    (h : ∀ a, AnswersPlain (go a)) : AnswersPlain (Http.withDocument reader body go) := by
  unfold Http.withDocument
  split
  · exact pure rfl
  · split
    · exact pure rfl
    · exact h _

theorem withParts {parts : List (String × String)} {go : List String → StateM σ Response}
    (h : ∀ texts, AnswersPlain (go texts)) : AnswersPlain (Http.withParts parts go) := by
  unfold Http.withParts
  split
  · exact pure rfl
  · exact h _

end AnswersPlain

/-- **Routes answer in plain**, whatever is asked and stored. -/
theorem isPlain_handle {σ : Type} (store : Store (StateM σ)) (route : Route) (body : Bytes) :
    AnswersPlain (route.handle store body) := by
  cases route with
  | index => exact .answerWith _ fun _ => rfl
  | ping => exact .answerWith _ fun _ => rfl
  | update => exact .withDocument fun _ => .answerWith _ fun _ => rfl
  | updates => exact .withDocument fun _ => .answerWith _ fun _ => rfl
  | updatePath kind name value =>
    refine .withParts fun texts => ?_
    split
    · unfold updateFromPath
      split
      · exact .pure rfl
      · split
        · exact .pure rfl
        · exact .answerWith _ fun _ => rfl
    · exact .pure rfl
  | find => exact .withDocument fun _ => .answerWith _ fun _ => rfl
  | findPath kind name =>
    refine .withParts fun texts => ?_
    split
    · unfold valueFromPath
      split
      · exact .pure rfl
      · exact .answerWith _ fun _ => rfl
    · exact .pure rfl
  | unknown => exact .pure rfl

end Http

/-! ## Replies -/

theorem Guard.isVisible_sign (g : Guard) (body : Bytes) :
    ∀ s, g.sign body = some s → Text.IsVisible s := by
  intro s hs
  obtain ⟨signer, -, rfl⟩ := Option.map_eq_some_iff.mp hs
  exact signer.sign_bounds body

theorem isVisible_encoding : Text.IsVisible Gzip.encoding := Text.isVisible_of_all (by decide)

namespace HttpSender

section Received

variable {reply : Http.Reply} {body : Bytes}

theorem plainBody_of_plain (h : reply.header? "Content-Encoding" = none) :
    plainBody reply = .ok reply.body := by
  unfold plainBody
  rw [h]
  rfl

theorem plainBody_of_compressed (h : reply.header? "Content-Encoding" = some Gzip.encoding)
    (hbody : reply.body = Gzip.compress body) : plainBody reply = .ok body := by
  have hmember : reply.body.isEmpty = false := by
    rw [hbody, ← Bool.not_eq_true, List.isEmpty_iff]
    exact Gzip.compress_ne_nil body
  unfold plainBody
  rw [h, hmember, if_pos (by decide), hbody, Gzip.gunzip_compress]

/-- A reply is read if its status is that of a success and its signature holds. -/
theorem receive_eq {α : Type} (s : HttpSender) (read : Bytes → Except Fault α)
    (hplain : plainBody reply = .ok body)
    (hsigned : ∀ signer signature, s.sealer.signer = some signer →
      reply.header? Http.signatureHeader = some signature →
        signer.verify body signature = .ok ()) :
    s.receive read reply =
      if 200 ≤ reply.status ∧ reply.status < 300 then read body
      else .error (refusal reply.status (Text.lossy body)) := by
  unfold receive
  rw [hplain]
  by_cases hsuccess : 200 ≤ reply.status ∧ reply.status < 300
  · rw [if_pos hsuccess, if_neg (by simp; omega)]
    split
    next signer signature hsigner hsignature =>
      simp only [bind, Except.bind, hsigned signer signature hsigner hsignature]
    next => rfl
  · rw [if_neg hsuccess, if_pos (by simp; omega)]
    rfl

end Received

section Wrapped

variable (g : Guard) (acceptsCompressed : Bool) {response : Http.Response}
  (hbody : response.body ≠ [])

include hbody

/-- The signature that a sender finds is that of the body that was made. -/
theorem header?_signature_wrap :
    (Http.Reply.ofResponse (Http.wrap g acceptsCompressed response)).header? Http.signatureHeader =
      g.sign response.body := by
  have hsignature : (Http.wrap g acceptsCompressed response).signature = g.sign response.body := by
    rw [Http.wrap_of_body g acceptsCompressed hbody]
    cases acceptsCompressed <;> rfl
  rw [Http.Reply.header?_signature (by rw [hsignature]; exact g.isVisible_sign _), hsignature]

variable (hplain : response.IsPlain)

include hplain

/-- A sender comes to the body that was made. -/
theorem plainBody_wrap :
    plainBody (.ofResponse (Http.wrap g acceptsCompressed response)) = .ok response.body := by
  rw [Http.wrap_of_body g acceptsCompressed hbody]
  cases acceptsCompressed with
  | true =>
    refine plainBody_of_compressed (Http.Reply.header?_encoding fun s hs => ?_) rfl
    rw [← Option.some.inj hs]
    exact isVisible_encoding
  | false =>
    refine plainBody_of_plain ((Http.Reply.header?_encoding fun s hs => ?_).trans hplain)
    cases hplain.symm.trans hs

/-- **What was wrapped is read as it was made**, by a sender that has no other key than the
server. -/
theorem receive_wrap {α : Type} {s : HttpSender}
    (hagree : ∀ key key', g.signer = some key → s.sealer.signer = some key' → key = key')
    (read : Bytes → Except Fault α) :
    s.receive read (.ofResponse (Http.wrap g acceptsCompressed response)) =
      if 200 ≤ response.status ∧ response.status < 300 then read response.body
      else .error (refusal response.status (Text.lossy response.body)) := by
  have hstatus : (Http.Reply.ofResponse (Http.wrap g acceptsCompressed response)).status =
      response.status := by
    rw [Http.wrap_of_body g acceptsCompressed hbody]
    cases acceptsCompressed <;> rfl
  rw [receive_eq s read (plainBody_wrap g acceptsCompressed hbody hplain), hstatus]
  intro signer signature hsigner hsignature
  rw [header?_signature_wrap g acceptsCompressed hbody] at hsignature
  obtain ⟨key, hkey, rfl⟩ := Option.map_eq_some_iff.mp hsignature
  rw [hagree key signer hkey hsigner]
  exact signer.verify_sign response.body

end Wrapped

end HttpSender

end Telemetry
