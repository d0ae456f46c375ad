import Telemetry.Proofs.Lookup
import Telemetry.Proofs.Server.Answers

/-!
# No answer before the dump

A server that dumps each write answers a write only when a dump that the writer asked for has
ended. The turns come in the order in which they were asked for, and the table is taken when a turn
begins; so a write that no dump has yet is one whose writer still waits for its turn (`Turns.fresh`),
and it cannot have been answered. What carries this is that a number stands for one request until
its dump has ended, and is not given out again after that.
-/

namespace Telemetry

/-- Those who asked for a dump that has not ended, in the order of their turns. -/
def DumpingStore.asked (s : DumpingStore) : List Nat := s.holder.toList ++ s.waiting

namespace ServerLife

variable {s s' : ServerLife} {h h' : History}

/-- What holds of the turns all along, where each write is dumped. -/
structure Turns (s : ServerLife) (h : History) : Prop where
  dumps : s.store.dumpsWrites = true
  loop : ∀ r ∈ s.requests, r.writer ≠ loopWriter
  once : (s.store.asked.filter (· ≠ loopWriter)).Nodup
  /-- only a request whose write is done asks for a dump, -/
  asked : ∀ w ∈ s.store.asked, w ≠ loopWriter → ∃ r ∈ s.requests, r.writer = w ∧ r.hasWritten
  /-- and as long as it waits, none of its number has ended -/
  ended : ∀ w ∈ s.store.asked, w ≠ loopWriter → s.dumpResult? w = none
  new : ∀ r ∈ s.requests, r.reply = none → s.dumpResult? r.writer = none
  /-- a write that no dump has waits for its turn, unless its writer has left -/
  fresh : ∀ x ∈ h.fresh, x.fate = .gone ∨ x.fate = .waiting ∧ x.writer ∈ s.store.waiting

/-- Requests with the same number are the same. -/
theorem eq_of_writer_eq (hdistinct : (s.requests.map (·.writer)).Nodup) {r o : OpenRequest}
    (hr : r ∈ s.requests) (ho : o ∈ s.requests) (h : r.writer = o.writer) : r = o :=
  List.inj_on_of_nodup_map hdistinct hr ho h

namespace Turns

/-- A request that waits for a reply has not asked for a dump. -/
theorem not_asked_of_new (ht : Turns s h) (ha : Answers s h) {r : OpenRequest}
    (hr : r ∈ s.requests) (hreply : r.reply = none) : r.writer ∉ s.store.asked := by
  intro hasked
  obtain ⟨o, ho, hwriter, hwritten⟩ := ht.asked r.writer hasked (ht.loop r hr)
  rw [eq_of_writer_eq ha.distinct ho hr hwriter, OpenRequest.hasWritten_of_none hreply] at hwritten
  cases hwritten

/-- A request that may be answered no longer waits for a dump. -/
theorem not_asked_of_not_awaits (ht : Turns s h) (ha : Answers s h) {r : OpenRequest}
    (hr : r ∈ s.requests) (hreply : r.reply ≠ none) (hawaits : s.awaitsDump r = false) :
    r.writer ∉ s.store.asked := by
  intro hasked
  have hloop := ht.loop r hr
  obtain ⟨o, ho, hwriter, hwritten⟩ := ht.asked r.writer hasked hloop
  rw [eq_of_writer_eq ha.distinct ho hr hwriter] at hwritten
  have hended := ht.ended r.writer hasked hloop
  unfold awaitsDump at hawaits
  rw [ht.dumps, hended] at hawaits
  -- its write is done and its dump has not ended, so it would have to wait
  rcases r with ⟨writer, call, _ | f | reply⟩
  · exact hreply rfl
  · exact Bool.false_ne_true ((Bool.and_false _).symm.trans hwritten)
  · have hreads : call.writes = false := by simpa using hawaits
    rw [OpenRequest.hasWritten_of_some rfl, ServedRequest.hasWritten, hreads] at hwritten
    cases hwritten

/-- The requests that asked for a dump are there as long as only another one gets its reply or is
done with. -/
theorem asked_of_ne (ht : Turns s h) {w writer : Nat} (hw : w ∈ s.store.asked)
    (hloop : w ≠ loopWriter) (hne : w ≠ writer) :
    ∃ r ∈ s.without writer, r.writer = w ∧ r.hasWritten := by
  obtain ⟨o, ho, rfl, hwritten⟩ := ht.asked w hw hloop
  exact ⟨o, mem_without_iff.mpr ⟨ho, hne⟩, rfl, hwritten⟩

/-- A reply to one request leaves the others as they are. -/
theorem reply (ht : Turns s h) (ha : Answers s h) {r : OpenRequest}
    (hr : s.request? r.writer = some r) (hreply : r.reply = none)
    (reply : Except Fault r.call.Reply) :
    Turns { s with requests := s.withReply r reply } h := by
  have hmem := (writer_of_request? hr).1
  refine ⟨ht.dumps, fun o ho => ?_, ht.once, fun w hw hloop => ?_, ht.ended, fun o ho hnone => ?_,
    ht.fresh⟩
  · rcases (mem_withReply_iff hr).mp ho with rfl | ho
    · exact ht.loop r hmem
    · exact ht.loop o (mem_without_iff.mp ho).1
  · have hne : w ≠ r.writer := by
      rintro rfl
      exact ht.not_asked_of_new ha hmem hreply hw
    obtain ⟨o, ho, heq⟩ := ht.asked_of_ne hw hloop hne
    exact ⟨o, (mem_withReply_iff hr).mpr (Or.inr ho), heq⟩
  · rcases (mem_withReply_iff hr).mp ho with rfl | ho
    · cases hnone
    · exact ht.new o (mem_without_iff.mp ho).1 hnone

/-- A request whose write is done asks for a dump. -/
theorem ask (ht : Turns s h) {r : OpenRequest} (hr : r ∈ s.requests) (hwritten : r.hasWritten)
    (hasked : r.writer ∉ s.store.asked) (hresult : s.dumpResult? r.writer = none)
    (table : Table) :
    Turns { s with store := { s.store with
        table := table
        waiting := s.store.waiting ++ [r.writer] } }
      { h with fresh := h.fresh ++ [⟨r.writer, r.call, .waiting⟩] } := by
  have hasks : s.store.holder.toList ++ (s.store.waiting ++ [r.writer]) =
      s.store.asked ++ [r.writer] := (List.append_assoc _ _ _).symm
  have hmem : ∀ w ∈ s.store.holder.toList ++ (s.store.waiting ++ [r.writer]),
      w ∈ s.store.asked ∨ w = r.writer := by
    intro w hw
    rw [hasks] at hw
    exact (List.mem_append.mp hw).imp_right List.mem_singleton.mp
  refine ⟨ht.dumps, ht.loop, ?_, fun w hw hloop => ?_, fun w hw hloop => ?_, ht.new,
    fun x hx => ?_⟩
  · unfold DumpingStore.asked
    rw [hasks, List.filter_append]
    refine List.nodup_append.mpr ⟨ht.once, (List.nodup_singleton _).filter _, ?_⟩
    rintro w hw _ hr rfl
    rw [List.mem_singleton.mp (List.mem_of_mem_filter hr)] at hw
    exact hasked (List.mem_of_mem_filter hw)
  · rcases hmem w hw with hw | rfl
    · exact ht.asked w hw hloop
    · exact ⟨r, hr, rfl, hwritten⟩
  · rcases hmem w hw with hw | rfl
    · exact ht.ended w hw hloop
    · exact hresult
  · rcases List.mem_append.mp hx with hx | hx
    · exact (ht.fresh x hx).imp_right fun hw => ⟨hw.1, List.mem_append_left _ hw.2⟩
    · rw [List.mem_singleton.mp hx]
      exact Or.inr ⟨rfl, List.mem_append_right _ (List.mem_singleton_self _)⟩

/-- A writer that has not asked for a dump is done with. -/
theorem close (ht : Turns s h) {writer : Nat} (hasked : writer ∉ s.store.asked) (fate : Fate)
    (served : List ServedRequest) :
    Turns { s with requests := s.without writer, served := served } (h.close writer fate) := by
  have hne : ∀ w ∈ s.store.asked, w ≠ writer := by
    rintro w hw rfl
    exact hasked hw
  refine ⟨ht.dumps, fun o ho => ht.loop o (mem_without_iff.mp ho).1, ht.once,
    fun w hw hloop => ht.asked_of_ne hw hloop (hne w hw), ht.ended,
    fun o ho => ht.new o (mem_without_iff.mp ho).1, fun x hx => ?_⟩
  obtain ⟨y, hy, rfl⟩ := List.mem_map.mp hx
  rcases ht.fresh y hy with hgone | ⟨hwaits, hwaiting⟩
  · rw [History.settle_of_fate_ne (by rw [hgone]; nofun)]
    exact Or.inl hgone
  · rw [History.settle_of_writer_ne (hne y.writer (List.mem_append_right _ hwaiting))]
    exact Or.inr ⟨hwaits, hwaiting⟩

/-- A writer leaves that does not have the turn. -/
theorem leave (ht : Turns s h) {writer : Nat} (hholder : s.store.holder ≠ some writer) :
    Turns
      { s with
        requests := s.without writer
        store := { s.store with waiting := s.store.waiting.filter (· ≠ writer) } }
      (h.close writer .gone) := by
  have hasks : s.store.holder.toList ++ s.store.waiting.filter (· ≠ writer) =
      s.store.asked.filter (· ≠ writer) := by
    have hheld : s.store.holder.toList.filter (· ≠ writer) = s.store.holder.toList := by
      refine List.filter_eq_self.mpr fun w hw => decide_eq_true ?_
      rintro rfl
      exact hholder (Option.mem_toList.mp hw)
    unfold DumpingStore.asked
    rw [List.filter_append, hheld]
  have hmem : ∀ w ∈ s.store.holder.toList ++ s.store.waiting.filter (· ≠ writer),
      w ∈ s.store.asked ∧ w ≠ writer := by
    intro w hw
    rw [hasks, List.mem_filter, decide_eq_true_iff] at hw
    exact hw
  refine ⟨ht.dumps, fun o ho => ht.loop o (mem_without_iff.mp ho).1, ?_,
    fun w hw hloop => ht.asked_of_ne (hmem w hw).1 hloop (hmem w hw).2,
    fun w hw => ht.ended w (hmem w hw).1, fun o ho => ht.new o (mem_without_iff.mp ho).1,
    fun x hx => ?_⟩
  · unfold DumpingStore.asked
    rw [hasks, List.filter_comm]
    exact ht.once.filter _
  · obtain ⟨y, hy, rfl⟩ := List.mem_map.mp hx
    rcases ht.fresh y hy with hgone | ⟨hwaits, hwaiting⟩
    · rw [History.settle_of_fate_ne (by rw [hgone]; nofun)]
      exact Or.inl hgone
    · by_cases hy : y.writer = writer
      · refine Or.inl ?_
        unfold History.settle
        rw [if_pos ⟨hy, hwaits⟩]
      · rw [History.settle_of_writer_ne hy]
        exact Or.inr ⟨hwaits, List.mem_filter.mpr ⟨hwaiting, decide_eq_true hy⟩⟩

/-- The next one has the turn: whoever waited for it waits for its dump now. -/
theorem begin (ht : Turns s h) {writer : Nat} {rest : List Nat} (hholder : s.store.holder = none)
    (hwaiting : s.store.waiting = writer :: rest) (dumps : List Dump) :
    Turns
      { s with store := { s.store with holder := some writer, waiting := rest, dumps := dumps } }
      ⟨h.writes, [], true⟩ := by
  have hasks : writer :: rest = s.store.asked := by
    unfold DumpingStore.asked
    rw [hholder, hwaiting]
    rfl
  refine ⟨ht.dumps, ht.loop, ?_, fun w hw => ht.asked w (hasks ▸ hw),
    fun w hw => ht.ended w (hasks ▸ hw), ht.new, nofun⟩
  show ((writer :: rest).filter _).Nodup
  rw [hasks]
  exact ht.once

/-- The dump of the one who has the turn has ended. -/
theorem finish (ht : Turns s h) (ha : Answers s h) (writer : Nat) (result : Except Fault Unit) :
    Turns { s with store := s.store.finish writer result } h := by
  unfold DumpingStore.finish DumpingStore.removeDump
  dsimp only
  split
  next hholder =>
    have hasks : s.store.asked = writer :: s.store.waiting := by
      unfold DumpingStore.asked
      rw [hholder]
      rfl
    have honce := ht.once
    rw [hasks] at honce
    have hother : ∀ w, w ≠ writer →
        ((writer, result) :: s.store.ended).lookup w = s.dumpResult? w := by
      intro w hne
      rw [List.lookup_cons, beq_false_of_ne hne]
      rfl
    refine ⟨ht.dumps, ht.loop, ?_, fun w hw => ht.asked w (hasks ▸ List.mem_cons_of_mem _ hw),
      fun w hw hloop => ?_, fun r hr hreply => ?_, ht.fresh⟩
    · exact honce.sublist ((List.sublist_cons_self _ _).filter _)
    · -- each has one turn only, so the one whose dump has ended waits no more
      have hne : w ≠ writer := by
        rintro rfl
        rw [List.filter_cons, if_pos (decide_eq_true hloop)] at honce
        exact (List.nodup_cons.mp honce).1 (List.mem_filter.mpr ⟨hw, decide_eq_true hloop⟩)
      exact (hother w hne).trans (ht.ended w (hasks ▸ List.mem_cons_of_mem _ hw) hloop)
    · have hne : r.writer ≠ writer := by
        rintro rfl
        exact ht.not_asked_of_new ha hr hreply (hasks ▸ List.mem_cons_self)
      exact (hother r.writer hne).trans (ht.new r hr hreply)
  next => exact ⟨ht.dumps, ht.loop, ht.once, ht.asked, ht.ended, ht.new, ht.fresh⟩

/-- The loop asks for a dump. -/
theorem loopAsks (ht : Turns s h) (loop : DumpLoop) :
    Turns
      { s with
        store := { s.store with
          ended := s.store.ended.filter fun e => e.1 ≠ loopWriter
          waiting := s.store.waiting ++ [loopWriter] }
        loop := loop } h := by
  have hasks : s.store.holder.toList ++ (s.store.waiting ++ [loopWriter]) =
      s.store.asked ++ [loopWriter] := (List.append_assoc _ _ _).symm
  have hmem : ∀ w ∈ s.store.holder.toList ++ (s.store.waiting ++ [loopWriter]),
      w ≠ loopWriter → w ∈ s.store.asked := by
    intro w hw hloop
    rw [hasks] at hw
    exact (List.mem_append.mp hw).resolve_right fun hw => hloop (List.mem_singleton.mp hw)
  have hother : ∀ w, w ≠ loopWriter →
      (s.store.ended.filter fun e => e.1 ≠ loopWriter).lookup w = s.dumpResult? w :=
    fun w hne => lookup_filter (p := (· ≠ loopWriter)) (decide_eq_true hne) _
  refine ⟨ht.dumps, ht.loop, ?_, fun w hw hloop => ht.asked w (hmem w hw hloop) hloop,
    fun w hw hloop => (hother w hloop).trans (ht.ended w (hmem w hw hloop) hloop),
    fun r hr hreply => (hother r.writer (ht.loop r hr)).trans (ht.new r hr hreply),
    fun x hx => (ht.fresh x hx).imp_right fun hw => ⟨hw.1, List.mem_append_left _ hw.2⟩⟩
  unfold DumpingStore.asked
  rw [hasks, List.filter_append]
  exact (List.append_nil (s.store.asked.filter (· ≠ loopWriter))).symm ▸ ht.once

theorem happens (ht : Turns s h) (ha : Answers s h) (hstep : Happens s h s' h') :
    Turns s' h' := by
  cases hstep with
  | nothing => exact ht
  | resume isLast result hloop hresult =>
    exact ⟨ht.dumps, ht.loop, ht.once, ht.asked, ht.ended, ht.new, ht.fresh⟩
  | stop => exact ⟨ht.dumps, ht.loop, ht.once, ht.asked, ht.ended, ht.new, ht.fresh⟩
  | change writer change rest files hdump happly =>
    exact ⟨ht.dumps, ht.loop, ht.once, ht.asked, ht.ended, ht.new, ht.fresh⟩
  | arrive writer call hnew hloop hresult =>
    refine ⟨ht.dumps, fun o ho => ?_, ht.once, fun w hw hw' => ?_, ht.ended, fun o ho hnone => ?_,
      ht.fresh⟩
    · rcases List.mem_append.mp ho with ho | ho
      · exact ht.loop o ho
      · rw [List.mem_singleton.mp ho]
        exact hloop
    · obtain ⟨o, ho, heq⟩ := ht.asked w hw hw'
      exact ⟨o, List.mem_append_left _ ho, heq⟩
    · rcases List.mem_append.mp ho with ho | ho
      · exact ht.new o ho hnone
      · rw [List.mem_singleton.mp ho]
        exact hresult
  | write r hr hreply hwrites reply table hanswer =>
    have hmem := (writer_of_request? hr).1
    have hasked := ht.not_asked_of_new ha hmem hreply
    have hresult := ht.new r hmem hreply
    unfold DumpingStore.written
    rw [if_pos ht.dumps]
    exact (ht.reply ha hr hreply (.ok reply)).ask ((mem_withReply_iff hr).mpr (Or.inl rfl))
      (OpenRequest.hasWritten_of_ok hwrites r.writer reply) hasked hresult table
  | keep r hr hreply reply hkept => exact ht.reply ha hr hreply reply
  | respond r hr reply hreply hawaits =>
    have hasked := ht.not_asked_of_not_awaits ha (writer_of_request? hr).1
      (by rw [hreply]; nofun) hawaits
    exact ht.close hasked .answered _
  | leave writer hloop hholder => exact ht.leave hholder
  | begin writer rest path hholder hwaiting hpath => exact ht.begin hholder hwaiting _
  | finish writer hdump => exact ht.finish ha writer (.ok ())
  | ask isLast hloop => exact ht.loopAsks (.dumping isLast)

end Turns

end ServerLife

end Telemetry
