import Telemetry.Proofs.Store.Dumping
import Telemetry.Server.Lifetime

/-!
# The writes of a server, and what became of them

Beside the life of a server its history is kept (`History`): which writes took effect, whether
the last dump that began has them, and what became of those who asked for them. `happens_step`
says once what an event can do to a server and its history, as long as no change of a dump fails
and nobody leaves while its dump is under way (`isCalm`). So what every such event keeps holds
after every run of them (`runsCalmly_induct`).
-/

namespace Telemetry

/-- What became of the one who asked for a write. -/
inductive Fate
  /-- it waits for the answer -/
  | waiting
  | answered
  /-- it has left without an answer -/
  | gone
deriving DecidableEq

/-- A write that took effect. -/
structure Write where
  writer : Nat
  call : StoreCall
  fate : Fate
deriving DecidableEq

structure History where
  /-- the writes before the last dump that began -/
  copied : List Write
  /-- the writes since then -/
  fresh : List Write
  /-- whether any dump has begun -/
  begun : Bool
deriving DecidableEq

namespace DumpingStore

/-- The store after a write. -/
def written (s : DumpingStore) (writer : Nat) (table : Table) : DumpingStore :=
  if s.dumpsWrites then { s with table := table, waiting := s.waiting ++ [writer] }
  else { s with table := table }

/-- What a call does to a store with a snapshot file: it writes, or nothing changes. -/
theorem perform_eq (s : DumpingStore) {path : String} (hpath : s.snapshot = some path)
    (writer : Nat) (c : StoreCall) :
    s.perform writer c =
      match (Table.answer c).run s.table with
      | (.ok reply, table) => (.ok reply, if c.writes then s.written writer table else s)
      | (.error f, _) => (.error f, s) := by
  unfold perform
  rw [show Table.answer c s.table = (Table.answer c).run s.table from rfl]
  rcases hanswer : (Table.answer c).run s.table with ⟨f | reply, table⟩
  · have htable := Table.answer_of_error (congrArg Prod.fst hanswer)
    rw [hanswer] at htable
    cases htable
    rfl
  · cases hwrites : c.writes with
    | false =>
      have htable := Table.answer_of_reading hwrites s.table
      rw [hanswer] at htable
      cases htable
      rfl
    | true =>
      unfold written ask
      dsimp only
      rw [hpath, Bool.true_and]
      cases s.dumpsWrites <;> rfl

end DumpingStore

namespace ServerLife

/-- The requests with the reply to one of them. -/
def withReply (s : ServerLife) (r : OpenRequest) (reply : Except Fault r.call.Reply) :
    List OpenRequest :=
  s.requests.map fun o => if o.writer = r.writer then ⟨r.writer, r.call, some reply⟩ else o

end ServerLife

namespace History

def empty : History := ⟨[], [], false⟩

/-- All writes, in their order. -/
def writes (h : History) : List Write := h.copied ++ h.fresh

/-- A write whose writer is done with. -/
def settle (writer : Nat) (fate : Fate) (w : Write) : Write :=
  if w.writer = writer ∧ w.fate = .waiting then { w with fate := fate } else w

/-- A writer is done with. -/
def close (h : History) (writer : Nat) (fate : Fate) : History :=
  { h with
    copied := h.copied.map (settle writer fate)
    fresh := h.fresh.map (settle writer fate) }

/-- The history after an event that a server meets. -/
def after (h : History) (s : ServerLife) : ServerLife.Event → History
  | .perform writer =>
    match s.request? writer with
    | some ⟨_, call, none⟩ =>
      match (s.store.perform writer call).1 with
      | .ok _ =>
        if call.writes then { h with fresh := h.fresh ++ [⟨writer, call, .waiting⟩] } else h
      | .error _ => h
    | _ => h
  | .respond writer =>
    match s.request? writer with
    | some r => if r.reply.isSome && !s.awaitsDump r then h.close writer .answered else h
    | none => h
  | .leave writer => if writer = ServerLife.loopWriter then h else h.close writer .gone
  | .dump .begin =>
    match s.store.holder, s.store.waiting, s.store.snapshot with
    | none, _ :: _, some _ => ⟨h.writes, [], true⟩
    | _, _, _ => h
  | _ => h

theorem settle_of_writer_ne {writer : Nat} {w : Write} (h : w.writer ≠ writer) (fate : Fate) :
    settle writer fate w = w :=
  if_neg fun hw => h hw.1

theorem settle_of_fate_ne {w : Write} (h : w.fate ≠ .waiting) (writer : Nat) (fate : Fate) :
    settle writer fate w = w :=
  if_neg fun hw => h hw.2

theorem writes_close (h : History) (writer : Nat) (fate : Fate) :
    (h.close writer fate).writes = h.writes.map (settle writer fate) :=
  List.map_append.symm

end History

namespace ServerLife

/-- The history of a server that meets some events. -/
def history (s : ServerLife) (events : List Event) : History :=
  (events.foldl (fun p e => (p.1.step e, p.2.after p.1 e)) (s, History.empty)).2

theorem run_concat (s : ServerLife) (events : List Event) (e : Event) :
    s.run (events ++ [e]) = (s.run events).step e := by
  unfold run
  rw [List.foldl_append]
  rfl

theorem history_concat (s : ServerLife) (events : List Event) (e : Event) :
    s.history (events ++ [e]) = (s.history events).after (s.run events) e := by
  have hrun : ∀ (events : List Event) (p : ServerLife × History),
      (events.foldl (fun p e => (p.1.step e, p.2.after p.1 e)) p).1 = p.1.run events := by
    intro events
    induction events with
    | nil => exact fun _ => rfl
    | cons e events ih => exact fun p => ih _
  unfold history
  rw [List.foldl_append]
  exact congrArg (fun s' => History.after _ s' e) (hrun events (s, History.empty))

/-- Whether an event is none of the mishaps: a change of a dump that fails, or a writer that
leaves while its dump is under way. -/
def isCalm (s : ServerLife) : Event → Bool
  | .dump (.proceed writer) =>
    match s.store.dumps.find? fun d => d.writer = writer with
    | some ⟨_, change :: _⟩ => (s.store.files.apply change).isOk
    | _ => true
  | .leave writer => s.store.holder ≠ some writer
  | _ => true

/-- Whether a run is without a mishap. -/
def runsCalmly (s : ServerLife) : List Event → Bool
  | [] => true
  | e :: events => s.isCalm e && (s.step e).runsCalmly events

theorem runsCalmly_concat (s : ServerLife) (events : List Event) (e : Event) :
    s.runsCalmly (events ++ [e]) = (s.runsCalmly events && (s.run events).isCalm e) := by
  induction events generalizing s with
  | nil => exact Bool.and_comm _ _
  | cons e' events ih =>
    rw [List.cons_append, runsCalmly, runsCalmly, ih, Bool.and_assoc]
    rfl

/-! ## What can happen -/

/-- What an event can do to a server and its history. -/
inductive Happens (s : ServerLife) (h : History) : ServerLife → History → Prop
  | nothing : Happens s h s h
  | arrive (writer : Nat) (call : StoreCall) (hnew : s.request? writer = none)
    (hloop : writer ≠ loopWriter) (hresult : s.dumpResult? writer = none) :
    Happens s h { s with requests := s.requests ++ [⟨writer, call, none⟩] } h
  /-- a write takes effect -/
  | write (r : OpenRequest) (hr : s.request? r.writer = some r) (hreply : r.reply = none)
    (hwrites : r.call.writes = true) (reply : r.call.Reply) (table : Table)
    (hanswer : (Table.answer r.call).run s.store.table = (.ok reply, table)) :
    Happens s h
      { s with
        store := s.store.written r.writer table
        requests := s.withReply r (.ok reply) }
      { h with fresh := h.fresh ++ [⟨r.writer, r.call, .waiting⟩] }
  /-- a call only reads, or fails -/
  | keep (r : OpenRequest) (hr : s.request? r.writer = some r) (hreply : r.reply = none)
    (reply : Except Fault r.call.Reply) (hkept : r.call.writes = false ∨ ∃ f, reply = .error f) :
    Happens s h { s with requests := s.withReply r reply } h
  | respond (r : OpenRequest) (hr : s.request? r.writer = some r)
    (reply : Except Fault r.call.Reply) (hreply : r.reply = some reply)
    (hawaits : s.awaitsDump r = false) :
    Happens s h
      { s with requests := s.without r.writer, served := ⟨r.call, reply⟩ :: s.served }
      (h.close r.writer .answered)
  | leave (writer : Nat) (hloop : writer ≠ loopWriter) (hholder : s.store.holder ≠ some writer) :
    Happens s h
      { s with
        requests := s.without writer
        store := { s.store with waiting := s.store.waiting.filter (· ≠ writer) } }
      (h.close writer .gone)
  | begin (writer : Nat) (rest : List Nat) (path : String) (hholder : s.store.holder = none)
    (hwaiting : s.store.waiting = writer :: rest) (hpath : s.store.snapshot = some path) :
    Happens s h
      { s with
        store := { s.store with
          holder := some writer
          waiting := rest
          dumps := s.store.dumps ++
            [⟨writer, Snapshot.changes s.store.files path s.store.table.metrics⟩] } }
      ⟨h.writes, [], true⟩
  /-- a dump makes a change -/
  | change (writer : Nat) (change : FileTree.Change) (rest : List FileTree.Change)
    (files : FileTree)
    (hdump : s.store.dumps.find? (fun d => d.writer = writer) = some ⟨writer, change :: rest⟩)
    (happly : s.store.files.apply change = .ok files) :
    Happens s h
      { s with
        store := { s.store with
          files := files
          dumps := s.store.dumps.map fun d =>
            if d.writer = writer then { d with rest := rest } else d } } h
  | finish (writer : Nat)
    (hdump : s.store.dumps.find? (fun d => d.writer = writer) = some ⟨writer, []⟩) :
    Happens s h { s with store := s.store.finish writer (.ok ()) } h
  /-- the loop asks for a dump -/
  | ask (isLast : Bool) (hloop : s.loop = .waiting) :
    Happens s h
      { s with
        store := { s.store with
          ended := s.store.ended.filter fun e => e.1 ≠ loopWriter
          waiting := s.store.waiting ++ [loopWriter] }
        loop := .dumping isLast } h
  | resume (isLast : Bool) (result : Except Fault Unit) (hloop : s.loop = .dumping isLast)
    (hresult : s.dumpResult? loopWriter = some result) :
    Happens s h { s with loop := if isLast then .ended else .waiting } h
  | stop : Happens s h { s with signal := s.signal.trigger } h

theorem writer_of_request? {s : ServerLife} {writer : Nat} {r : OpenRequest}
    (h : s.request? writer = some r) : r ∈ s.requests ∧ r.writer = writer :=
  ⟨List.mem_of_find?_eq_some h, by simpa using List.find?_some h⟩

theorem mem_without_iff {s : ServerLife} {writer : Nat} {r : OpenRequest} :
    r ∈ s.without writer ↔ r ∈ s.requests ∧ r.writer ≠ writer := by
  unfold without
  rw [List.mem_filter, decide_eq_true_iff]

/-- The request that has its reply, and the others. -/
theorem mem_withReply_iff {s : ServerLife} {r : OpenRequest} (hr : s.request? r.writer = some r)
    {reply : Except Fault r.call.Reply} {o : OpenRequest} :
    o ∈ s.withReply r reply ↔ o = ⟨r.writer, r.call, some reply⟩ ∨ o ∈ s.without r.writer := by
  unfold withReply
  rw [List.mem_map, mem_without_iff]
  constructor
  · rintro ⟨o', ho', rfl⟩
    split
    next => exact Or.inl rfl
    next hne => exact Or.inr ⟨ho', hne⟩
  · rintro (rfl | ⟨ho, hne⟩)
    · exact ⟨r, (writer_of_request? hr).1, if_pos rfl⟩
    · exact ⟨o, ho, if_neg hne⟩

theorem happens_perform (s : ServerLife) (h : History) {path : String}
    (hpath : s.store.snapshot = some path) (writer : Nat) :
    Happens s h (s.step (.perform writer)) (h.after s (.perform writer)) := by
  unfold step History.after
  dsimp only
  cases hr : s.request? writer with
  | none => exact .nothing
  | some r =>
    obtain ⟨-, rfl⟩ := writer_of_request? hr
    dsimp only
    rcases r with ⟨writer, call, _ | reply⟩
    · dsimp only
      unfold ServerLife.perform
      rw [s.store.perform_eq hpath]
      rcases hanswer : (Table.answer call).run s.store.table with ⟨f | reply, table⟩
      · exact .keep ⟨writer, call, none⟩ hr rfl (.error f) (Or.inr ⟨f, rfl⟩)
      · cases hwrites : call.writes with
        | true => exact .write ⟨writer, call, none⟩ hr rfl hwrites reply table hanswer
        | false => exact .keep ⟨writer, call, none⟩ hr rfl (.ok reply) (Or.inl hwrites)
    · exact .nothing

theorem happens_askForDump {s : ServerLife} (h : History) {path : String}
    (hpath : s.store.snapshot = some path) (isLast : Bool) (hloop : s.loop = .waiting) :
    Happens s h (s.askForDump isLast) h := by
  unfold askForDump DumpingStore.ask
  dsimp only
  split
  next hnone => exact absurd (hpath.symm.trans hnone) nofun
  next => exact .ask isLast hloop

theorem happens_arrive (s : ServerLife) (h : History) (writer : Nat) (call : StoreCall) :
    Happens s h (s.step (.arrive writer call)) h := by
  unfold step
  dsimp only
  split
  next => exact .nothing
  next hnew =>
    simp only [Bool.or_eq_true, decide_eq_true_eq, not_or, Bool.not_eq_true,
      Option.isSome_eq_false_iff, Option.isNone_iff_eq_none] at hnew
    obtain ⟨⟨⟨-, hloop⟩, hrequest⟩, hresult⟩ := hnew
    exact .arrive writer call hrequest hloop hresult

theorem happens_respond (s : ServerLife) (h : History) (writer : Nat) :
    Happens s h (s.step (.respond writer)) (h.after s (.respond writer)) := by
  unfold step History.after
  dsimp only
  cases hr : s.request? writer with
  | none => exact .nothing
  | some r =>
    obtain ⟨-, rfl⟩ := writer_of_request? hr
    rcases r with ⟨writer, call, _ | reply⟩
    · exact .nothing
    · dsimp only
      by_cases hawaits : s.awaitsDump ⟨writer, call, some reply⟩ = true
      · rw [if_pos hawaits, if_neg (by simp [hawaits])]
        exact .nothing
      · rw [if_neg hawaits, if_pos (by simp [hawaits])]
        exact .respond ⟨writer, call, some reply⟩ hr reply rfl (by simpa using hawaits)

theorem happens_leave {s : ServerLife} (h : History) {writer : Nat}
    (hcalm : s.isCalm (.leave writer) = true) :
    Happens s h (s.step (.leave writer)) (h.after s (.leave writer)) := by
  have hholder : s.store.holder ≠ some writer := of_decide_eq_true hcalm
  have hdrop : s.store.step (.drop writer) =
      { s.store with waiting := s.store.waiting.filter (· ≠ writer) } := by
    unfold DumpingStore.step
    dsimp only
    rw [if_neg hholder]
  unfold step History.after
  dsimp only
  split
  next => exact .nothing
  next hloop =>
    rw [hdrop]
    exact .leave writer hloop hholder

theorem happens_begin (s : ServerLife) (h : History) :
    Happens s h (s.step (.dump .begin)) (h.after s (.dump .begin)) := by
  unfold step DumpingStore.step
  dsimp only
  split
  next writer rest path hholder hwaiting hsnapshot =>
    have hafter : h.after s (.dump .begin) = ⟨h.writes, [], true⟩ := by
      simp only [History.after, hholder, hwaiting, hsnapshot]
    rw [hafter]
    exact .begin writer rest path hholder hwaiting hsnapshot
  next hnot =>
    unfold History.after
    dsimp only
    split
    next writer rest path hholder hwaiting hsnapshot =>
      exact absurd hsnapshot (hnot writer rest path hholder hwaiting)
    next => exact .nothing

theorem happens_proceed {s : ServerLife} (h : History) {writer : Nat}
    (hcalm : s.isCalm (.dump (.proceed writer)) = true) :
    Happens s h (s.step (.dump (.proceed writer))) h := by
  unfold isCalm at hcalm
  unfold step DumpingStore.step
  dsimp only at hcalm ⊢
  cases hdump : s.store.dumps.find? fun d => d.writer = writer with
  | none => exact .nothing
  | some d =>
    obtain ⟨w, changes⟩ := d
    have hw : w = writer := by simpa using List.find?_some hdump
    subst hw
    rw [hdump] at hcalm
    cases changes with
    | nil => exact .finish w hdump
    | cons change rest =>
      dsimp only at hcalm ⊢
      cases happly : s.store.files.apply change with
      | error cause =>
        rw [happly] at hcalm
        cases hcalm
      | ok files => exact .change w change rest files hdump happly

/-- **What an event can do**, if it is no mishap. -/
theorem happens_step (s : ServerLife) (h : History) {path : String}
    (hpath : s.store.snapshot = some path) {e : Event} (hcalm : s.isCalm e = true) :
    Happens s h (s.step e) (h.after s e) := by
  cases e with
  | arrive writer call => exact happens_arrive s h writer call
  | perform writer => exact happens_perform s h hpath writer
  | respond writer => exact happens_respond s h writer
  | leave writer => exact happens_leave h hcalm
  | dump e =>
    cases e with
    | drop writer => exact .nothing
    | begin => exact happens_begin s h
    | proceed writer => exact happens_proceed h hcalm
  | tick =>
    unfold step
    dsimp only
    split
    next hticks =>
      simp only [Bool.and_eq_true, decide_eq_true_eq] at hticks
      exact happens_askForDump h hpath false hticks.1
    next => exact .nothing
  | hear =>
    unfold step
    dsimp only
    split
    next hhears =>
      simp only [Bool.and_eq_true, decide_eq_true_eq] at hhears
      exact happens_askForDump h hpath true hhears.1
    next => exact .nothing
  | resume =>
    unfold step
    dsimp only
    split
    next isLast result hloop hresult => exact .resume isLast result hloop hresult
    next => exact .nothing
  | stop => exact .stop

/-- No event changes where the store dumps, or when. -/
theorem Happens.plan_eq {s s' : ServerLife} {h h' : History} (hstep : Happens s h s' h') :
    s'.store.snapshot = s.store.snapshot ∧ s'.store.dumpsWrites = s.store.dumpsWrites := by
  cases hstep with
  | write r hr hreply hwrites reply table hanswer =>
    unfold DumpingStore.written
    dsimp only
    split <;> exact ⟨rfl, rfl⟩
  | finish writer hdump =>
    unfold DumpingStore.finish DumpingStore.removeDump
    dsimp only
    split <;> exact ⟨rfl, rfl⟩
  | ask isLast hloop => exact ⟨rfl, rfl⟩
  | nothing => exact ⟨rfl, rfl⟩
  | arrive writer call hnew hloop hresult => exact ⟨rfl, rfl⟩
  | keep r hr hreply reply hkept => exact ⟨rfl, rfl⟩
  | respond r hr reply hreply hawaits => exact ⟨rfl, rfl⟩
  | leave writer hloop hholder => exact ⟨rfl, rfl⟩
  | begin writer rest path hholder hwaiting hpath => exact ⟨rfl, rfl⟩
  | change writer change rest files hdump happly => exact ⟨rfl, rfl⟩
  | resume isLast result hloop hresult => exact ⟨rfl, rfl⟩
  | stop => exact ⟨rfl, rfl⟩

/-- What holds at first, and goes on to hold whatever happens, holds after any run without a
mishap. -/
theorem runsCalmly_induct {s : ServerLife} {events : List Event}
    (hcalm : s.runsCalmly events = true) {path : String} (hpath : s.store.snapshot = some path)
    {P : ServerLife → History → Prop} (hstart : P s .empty)
    (hstep : ∀ {s s' h h'}, P s h → Happens s h s' h' → P s' h') :
    P (s.run events) (s.history events) := by
  suffices h : (s.run events).store.snapshot = some path ∧ P (s.run events) (s.history events) from
    h.2
  induction events using List.reverseRecOn with
  | nil => exact ⟨hpath, hstart⟩
  | append_singleton events e ih =>
    rw [runsCalmly_concat, Bool.and_eq_true] at hcalm
    obtain ⟨hsnapshot, hbefore⟩ := ih hcalm.1
    have hhappens := happens_step _ (s.history events) hsnapshot hcalm.2
    rw [run_concat, history_concat]
    exact ⟨hhappens.plan_eq.1.trans hsnapshot, hstep hbefore hhappens⟩

end ServerLife

end Telemetry
