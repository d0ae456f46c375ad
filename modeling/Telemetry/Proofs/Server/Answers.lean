import Mathlib.Data.List.Nodup
import Mathlib.Data.List.Perm.Basic
import Telemetry.Proofs.Server.History

/-!
# Which writes were answered

The history of a server says of each write what the one who asked for it was told: the writes that
wait are those of the open requests that have had theirs done, and the answered ones are those
whose requests were served with a success (`Answers.happens`).
-/

namespace Telemetry

/-- Whether a request has had its write done. -/
def OpenRequest.hasWritten (r : OpenRequest) : Bool :=
  r.call.writes && r.reply.any fun reply => reply.toOption.isSome

/-- Whether it was a write, and answered with a success. -/
def ServedRequest.hasWritten (r : ServedRequest) : Bool := r.call.writes && r.isSuccess

/-- What is to be told of a write, and to whom. -/
def Write.key (w : Write) : Nat × StoreCall := (w.writer, w.call)

/-- What is to be told of a request, and to whom. -/
def OpenRequest.key (r : OpenRequest) : Nat × StoreCall := (r.writer, r.call)

/-- A request that waits for a reply has had nothing done. -/
theorem OpenRequest.hasWritten_of_none {r : OpenRequest} (h : r.reply = none) :
    r.hasWritten = false := by
  rcases r with ⟨writer, call, _ | reply⟩
  · exact Bool.and_false _
  · cases h

theorem OpenRequest.hasWritten_of_some {r : OpenRequest} {reply : Except Fault r.call.Reply}
    (h : r.reply = some reply) : r.hasWritten = ServedRequest.hasWritten ⟨r.call, reply⟩ := by
  rcases r with ⟨writer, call, _ | reply'⟩
  · cases h
  · cases h
    rfl

theorem OpenRequest.hasWritten_of_ok {call : StoreCall} (h : call.writes = true) (writer : Nat)
    (reply : call.Reply) : OpenRequest.hasWritten ⟨writer, call, some (.ok reply)⟩ = true :=
  (OpenRequest.hasWritten_of_some rfl).trans (Bool.and_eq_true_iff.mpr ⟨h, rfl⟩)

namespace History

/-- The writes after another one. -/
theorem writes_write (h : History) (w : Write) :
    ({ h with fresh := h.fresh ++ [w] } : History).writes = h.writes ++ [w] :=
  (List.append_assoc _ _ _).symm

theorem filter_waiting_settle (writer : Nat) {fate : Fate} (hfate : fate ≠ .waiting)
    (ws : List Write) :
    (ws.map (settle writer fate)).filter (·.fate = .waiting) =
      (ws.filter (·.fate = .waiting)).filter (·.writer ≠ writer) := by
  induction ws with
  | nil => rfl
  | cons w ws ih =>
    rw [List.map_cons, List.filter_cons, List.filter_cons, ih]
    unfold settle
    by_cases hw : w.writer = writer <;> by_cases hf : w.fate = .waiting <;> simp [hw, hf, hfate]

theorem filter_answered_settle_gone (writer : Nat) (ws : List Write) :
    (ws.map (settle writer .gone)).filter (·.fate = .answered) =
      ws.filter (·.fate = .answered) := by
  induction ws with
  | nil => rfl
  | cons w ws ih =>
    rw [List.map_cons, List.filter_cons, List.filter_cons, ih]
    unfold settle
    by_cases hw : w.writer = writer <;> by_cases hf : w.fate = .waiting <;> simp [hw, hf]

/-- Those that are answered now are those of the writer that were waiting. -/
theorem perm_answered_settle (writer : Nat) (ws : List Write) :
    (((ws.map (settle writer .answered)).filter (·.fate = .answered)).map (·.call)).Perm
      (((ws.filter (·.fate = .waiting)).filter (·.writer = writer)).map (·.call) ++
        (ws.filter (·.fate = .answered)).map (·.call)) := by
  induction ws with
  | nil => exact .refl _
  | cons w ws ih =>
    rw [List.map_cons, List.filter_cons, List.filter_cons, List.filter_cons, settle]
    by_cases hf : w.fate = .waiting
    · by_cases hw : w.writer = writer
      · simpa [hw, hf] using ih
      · simpa [hw, hf] using ih
    · by_cases ha : w.fate = .answered
      · simpa [hf, ha] using (ih.cons w.call).trans List.perm_middle.symm
      · simpa [hf, ha] using ih

end History

namespace ServerLife

variable {s s' : ServerLife} {h h' : History}

/-- What holds of the answers all along. -/
structure Answers (s : ServerLife) (h : History) : Prop where
  distinct : (s.requests.map (·.writer)).Nodup
  /-- the writes that wait for an answer are those of the requests that have had theirs done -/
  waiting : ((h.writes.filter (·.fate = .waiting)).map Write.key).Perm
    ((s.requests.filter (·.hasWritten)).map OpenRequest.key)
  /-- the writes that were answered are those that were answered with a success -/
  answered : ((h.writes.filter (·.fate = .answered)).map (·.call)).Perm
    ((s.served.filter (·.hasWritten)).map (·.call))

/-- A request among the others. -/
theorem exists_split (hdistinct : (s.requests.map (·.writer)).Nodup) {r : OpenRequest}
    (hr : s.request? r.writer = some r) :
    ∃ before after, s.requests = before ++ r :: after ∧
      (∀ o ∈ before ++ after, o.writer ≠ r.writer) ∧
      ∀ reply, s.withReply r reply = before ++ ⟨r.writer, r.call, some reply⟩ :: after := by
  obtain ⟨before, after, hrequests⟩ := List.append_of_mem (writer_of_request? hr).1
  have hothers : ∀ o ∈ before ++ after, o.writer ≠ r.writer := by
    rw [hrequests, List.map_append, List.map_cons, List.nodup_middle] at hdistinct
    rw [← List.map_append] at hdistinct
    intro o ho heq
    exact (List.nodup_cons.mp hdistinct).1 (heq ▸ List.mem_map_of_mem ho)
  have hbefore : ∀ o ∈ before, o.writer ≠ r.writer :=
    fun o ho => hothers o (List.mem_append_left _ ho)
  have hafter : ∀ o ∈ after, o.writer ≠ r.writer :=
    fun o ho => hothers o (List.mem_append_right _ ho)
  refine ⟨before, after, hrequests, hothers, fun reply => ?_⟩
  unfold withReply
  rw [hrequests, List.map_append, List.map_cons, if_pos rfl]
  rw [List.map_congr_left fun o ho => if_neg (hbefore o ho), List.map_id']
  rw [List.map_congr_left fun o ho => if_neg (hafter o ho), List.map_id']

/-- A reply may be that a write is done, and the others stay as they are. -/
theorem written_withReply (hdistinct : (s.requests.map (·.writer)).Nodup) {r : OpenRequest}
    (hr : s.request? r.writer = some r) (hreply : r.reply = none)
    (reply : Except Fault r.call.Reply) :
    (((s.withReply r reply).filter (·.hasWritten)).map OpenRequest.key).Perm
      ((if OpenRequest.hasWritten ⟨r.writer, r.call, some reply⟩ then [r.key] else []) ++
        (s.requests.filter (·.hasWritten)).map OpenRequest.key) := by
  obtain ⟨before, after, hrequests, -, hwith⟩ := exists_split hdistinct hr
  rw [hwith, hrequests, List.filter_append, List.filter_append, List.filter_cons,
    List.filter_cons, OpenRequest.hasWritten_of_none hreply, if_neg Bool.false_ne_true,
    List.map_append, List.map_append]
  split
  next => exact List.perm_middle
  next => exact .refl _

theorem map_writer_withReply (s : ServerLife) (r : OpenRequest)
    (reply : Except Fault r.call.Reply) :
    (s.withReply r reply).map (·.writer) = s.requests.map (·.writer) := by
  unfold withReply
  rw [List.map_map]
  refine List.map_congr_left fun o _ => ?_
  show (if o.writer = r.writer then _ else o : OpenRequest).writer = o.writer
  split
  next heq => exact heq.symm
  next => rfl

namespace Answers

/-- When a writer is done with, the others wait on. -/
theorem waiting_close (hs : Answers s h) (writer : Nat) {fate : Fate} (hfate : fate ≠ .waiting) :
    (((h.close writer fate).writes.filter (·.fate = .waiting)).map Write.key).Perm
      (((s.without writer).filter (·.hasWritten)).map OpenRequest.key) := by
  have hwrites : ∀ ws : List Write, (ws.filter (·.writer ≠ writer)).map Write.key =
      (ws.map Write.key).filter (·.1 ≠ writer) := fun ws => by rw [List.filter_map]; rfl
  have hrequests : ∀ rs : List OpenRequest, (rs.filter (·.writer ≠ writer)).map OpenRequest.key =
      (rs.map OpenRequest.key).filter (·.1 ≠ writer) := fun rs => by rw [List.filter_map]; rfl
  have hwithout : (s.without writer).filter (·.hasWritten) =
      (s.requests.filter (·.hasWritten)).filter (·.writer ≠ writer) := List.filter_comm _ _ _
  rw [History.writes_close, History.filter_waiting_settle writer hfate, hwrites, hwithout,
    hrequests]
  exact hs.waiting.filter _

/-- The calls of a writer that wait for an answer: its write, if it has had it done. -/
theorem waiting_of (hs : Answers s h) {r : OpenRequest} (hr : s.request? r.writer = some r) :
    (((h.writes.filter (·.fate = .waiting)).filter (·.writer = r.writer)).map (·.call)).Perm
      (if r.hasWritten then [r.call] else []) := by
  obtain ⟨before, after, hrequests, hothers, -⟩ := exists_split hs.distinct hr
  have hwrites : ∀ ws : List Write, (ws.filter (·.writer = r.writer)).map (·.call) =
      ((ws.map Write.key).filter (·.1 = r.writer)).map (·.2) := by
    intro ws
    rw [List.filter_map, List.map_map]
    rfl
  have hnone : ∀ os : List OpenRequest, (∀ o ∈ os, o ∈ before ++ after) →
      os.filter (fun o => decide (o.writer = r.writer) && o.hasWritten) = [] :=
    fun os hos => List.filter_eq_nil_iff.mpr fun o ho => by simp [hothers o (hos o ho)]
  have hkeys : ∀ rs : List OpenRequest,
      (((rs.filter (·.hasWritten)).map OpenRequest.key).filter (·.1 = r.writer)).map (·.2) =
        (rs.filter fun o => decide (o.writer = r.writer) && o.hasWritten).map (·.call) := by
    intro rs
    rw [List.filter_map, List.map_map, List.filter_filter]
    rfl
  rw [hwrites]
  refine ((hs.waiting.filter _).map _).trans (.of_eq ?_)
  rw [hkeys, hrequests, List.filter_append, List.filter_cons,
    hnone before fun o ho => List.mem_append_left _ ho,
    hnone after fun o ho => List.mem_append_right _ ho, decide_eq_true rfl, Bool.true_and]
  split <;> rfl

theorem happens (hs : Answers s h) (hstep : Happens s h s' h') : Answers s' h' := by
  cases hstep with
  | nothing => exact hs
  | ask isLast hloop => exact ⟨hs.distinct, hs.waiting, hs.answered⟩
  | resume isLast result hloop hresult => exact ⟨hs.distinct, hs.waiting, hs.answered⟩
  | stop => exact ⟨hs.distinct, hs.waiting, hs.answered⟩
  | change writer change rest files hdump happly =>
    exact ⟨hs.distinct, hs.waiting, hs.answered⟩
  | finish writer hdump => exact ⟨hs.distinct, hs.waiting, hs.answered⟩
  | begin writer rest path hholder hwaiting hpath =>
    have hwrites : History.writes ⟨h.writes, [], true⟩ = h.writes := List.append_nil _
    exact ⟨hs.distinct, by rw [hwrites]; exact hs.waiting, by rw [hwrites]; exact hs.answered⟩
  | arrive writer call hnew hloop hresult =>
    refine ⟨?_, ?_, hs.answered⟩
    · rw [List.map_append]
      refine List.nodup_append.mpr ⟨hs.distinct, List.nodup_singleton _, ?_⟩
      rintro _ hold _ hwriter rfl
      obtain ⟨o, ho, rfl⟩ := List.mem_map.mp hold
      have hother := List.find?_eq_none.mp hnew o ho
      rw [List.mem_singleton.mp hwriter] at hother
      exact hother (decide_eq_true rfl)
    · rw [List.filter_append, List.filter_cons,
        OpenRequest.hasWritten_of_none (r := ⟨writer, call, none⟩) rfl]
      simpa using hs.waiting
  | write r hr hreply hwrites reply table hanswer =>
    have hrequests := written_withReply hs.distinct hr hreply (.ok reply)
    rw [OpenRequest.hasWritten_of_ok hwrites, if_pos rfl] at hrequests
    refine ⟨?_, ?_, ?_⟩
    · rw [map_writer_withReply]
      exact hs.distinct
    · rw [History.writes_write, List.filter_append, List.map_append]
      refine List.Perm.trans ?_ hrequests.symm
      exact (hs.waiting.append_right [r.key]).trans (List.perm_append_singleton _ _)
    · -- the new write is not answered yet
      rw [History.writes_write, List.filter_append]
      exact (List.append_nil (h.writes.filter (·.fate = .answered))).symm ▸ hs.answered
  | keep r hr hreply reply hkept =>
    have hwritten : OpenRequest.hasWritten ⟨r.writer, r.call, some reply⟩ = false := by
      rw [OpenRequest.hasWritten_of_some rfl]
      rcases hkept with hreads | ⟨f, rfl⟩
      · exact Bool.and_eq_false_iff.mpr (Or.inl hreads)
      · exact Bool.and_false _
    have hrequests := written_withReply hs.distinct hr hreply reply
    rw [hwritten, if_neg Bool.false_ne_true, List.nil_append] at hrequests
    refine ⟨?_, hs.waiting.trans hrequests.symm, hs.answered⟩
    rw [map_writer_withReply]
    exact hs.distinct
  | respond r hr reply hreply hawaits =>
    refine ⟨hs.distinct.sublist (List.filter_sublist.map _), hs.waiting_close r.writer nofun, ?_⟩
    rw [History.writes_close]
    refine (History.perm_answered_settle r.writer h.writes).trans ?_
    -- of the waiting writes its own is answered now, if it was one
    refine ((hs.waiting_of hr).append hs.answered).trans (.of_eq ?_)
    rw [List.filter_cons, ← OpenRequest.hasWritten_of_some hreply]
    split <;> rfl
  | leave writer hloop hholder =>
    refine ⟨hs.distinct.sublist (List.filter_sublist.map _), hs.waiting_close writer nofun, ?_⟩
    rw [History.writes_close, History.filter_answered_settle_gone]
    exact hs.answered

end Answers

end ServerLife

end Telemetry
