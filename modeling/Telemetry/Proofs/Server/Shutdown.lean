import Telemetry.Proofs.Server.Saved
import Telemetry.Proofs.Server.Turns

/-!
# What a server leaves behind

When every task of a server has ended, its snapshot file holds the writes that were done before the
last dump began, and no others (`left_at_end`). In a server that dumps each write none of the
others was answered. In one that dumps at intervals they may have been: the loop hears the signal
on its own, and its last dump can come before a write of a request that is still served
(`answered_write_is_lost`).
-/

namespace Telemetry

/-- A store with a snapshot file at first. -/
theorem DumpingStore.withSnapshot_eq {files : FileTree} {path : String} {interval : Nanos}
    {restore : Bool} {store : DumpingStore}
    (h : withSnapshot files path interval restore = .ok store) :
    store =
      { plain files with
        table := store.table
        snapshot := some path
        dumpsWrites := interval = 0 } := by
  unfold withSnapshot at h
  dsimp only at h
  split at h
  · obtain ⟨metrics, -, h⟩ := Fallible.bind_eq_ok_iff.mp h
    rw [← Except.ok.inj h]
  · rw [← Except.ok.inj h]

namespace ServerLife

section start

variable {files : FileTree} {path : String} {interval : Nanos} {restore : Bool}
  {store : DumpingStore}

/-- The loop of dumps runs if there is a snapshot file. -/
theorem start_loop (h : DumpingStore.withSnapshot files path interval restore = .ok store)
    (signal : StopSignal) : (start store interval signal).loop = .waiting := by
  rw [DumpingStore.withSnapshot_eq h]
  unfold start SnapshotLoop.start
  by_cases hinterval : interval = 0
  · simp [hinterval]
  · simp [hinterval]

theorem saved_start (h : DumpingStore.withSnapshot files path interval restore = .ok store)
    (signal : StopSignal) :
    Saved path store.table (start store interval signal) .empty := by
  have hloop : (start store interval signal).loop ≠ .ended := by
    rw [start_loop h]
    nofun
  have hstore := DumpingStore.withSnapshot_eq h
  refine ⟨congrArg (·.snapshot) hstore, rfl, Or.inl ⟨congrArg (·.dumps) hstore,
    congrArg (·.holder) hstore, nofun⟩, fun hended => ?_, fun hended => absurd hended hloop⟩
  exact absurd (congrArg (·.ended) hstore) hended

theorem answers_start (store : DumpingStore) (interval : Nanos) (signal : StopSignal) :
    Answers (start store interval signal) .empty :=
  ⟨List.nodup_nil, .nil, .nil⟩

theorem turns_start (h : DumpingStore.withSnapshot files path 0 restore = .ok store)
    (signal : StopSignal) : Turns (start store 0 signal) .empty := by
  have hstore := DumpingStore.withSnapshot_eq h
  have hasked : store.asked = [] := by
    rw [hstore]
    rfl
  refine ⟨congrArg (·.dumpsWrites) hstore, fun r hr => absurd hr List.not_mem_nil, ?_,
    fun w hw => ?_, fun w hw => ?_, fun r hr => absurd hr List.not_mem_nil,
    fun x hx => absurd hx List.not_mem_nil⟩
  · show (store.asked.filter _).Nodup
    rw [hasked]
    exact List.nodup_nil
  · exact absurd (hasked ▸ hw) List.not_mem_nil
  · exact absurd (hasked ▸ hw) List.not_mem_nil

end start

/-- **What a server leaves behind.** After any run without a mishap in which every task has ended,
the snapshot file holds the table after the writes that were done before the last dump began, on
top of what the server began with. The writes that came after it are in the table only, and may
have been answered all the same; where each write is dumped, none of them was. -/
theorem left_at_end {files : FileTree} {path : String} {interval : Nanos} {restore : Bool}
    {store : DumpingStore}
    (hstore : DumpingStore.withSnapshot files path interval restore = .ok store)
    {events : List Event} (hcalm : (start store interval .fresh).runsCalmly events = true)
    (hover : ((start store interval .fresh).run events).isOver = true) :
    let s := (start store interval .fresh).run events
    let h := (start store interval .fresh).history events
    s.store.files.read path =
        .ok (Metric.listDocumentBytes (store.table.afterCalls (h.copied.map (·.call))).metrics) ∧
      s.store.table = store.table.afterCalls ((h.copied ++ h.fresh).map (·.call)) ∧
      (((h.copied ++ h.fresh).filter (·.fate = .answered)).map (·.call)).Perm
        ((s.served.filter (·.hasWritten)).map (·.call)) ∧
      (interval = 0 → ∀ w ∈ h.fresh, w.fate ≠ .answered) := by
  intro s h
  have hsnapshot := (saved_start hstore .fresh).snapshot
  have hsaved : Saved path store.table s h :=
    runsCalmly_induct hcalm hsnapshot (saved_start hstore .fresh) Saved.happens
  have hanswers : Answers s h :=
    runsCalmly_induct hcalm hsnapshot (answers_start store interval .fresh) Answers.happens
  simp only [isOver, Bool.and_eq_true, decide_eq_true_eq, List.isEmpty_iff] at hover
  obtain ⟨⟨⟨-, hended⟩, -⟩, hdumps⟩ := hover
  refine ⟨?_, hsaved.table, hanswers.answered, ?_⟩
  · -- the loop has ended, so a dump has begun, and none is under way any more
    rcases hsaved.saves with ⟨-, -, hread⟩ | ⟨writer, rest, hdump, -⟩
    · exact hread (hsaved.loop hended)
    · rw [hdump] at hdumps
      cases hdumps
  · rintro rfl w hw
    have hturns : Answers s h ∧ Turns s h :=
      runsCalmly_induct hcalm hsnapshot
        (P := fun s h => Answers s h ∧ Turns s h)
        ⟨answers_start store 0 .fresh, turns_start hstore .fresh⟩
        fun hst hstep => ⟨hst.1.happens hstep, hst.2.happens hst.1 hstep⟩
    rcases hturns.2.fresh w hw with hgone | ⟨hwaits, -⟩
    · rw [hgone]
      nofun
    · rw [hwaits]
      nofun

/-- Two writes in a server that dumps each write, of which the second one comes when the first has
its turn: both are in the file at the end. -/
theorem left_at_end_after_two_writes :
    let store : DumpingStore := { DumpingStore.plain .empty with
      snapshot := some "m.json"
      dumpsWrites := true }
    let events : List Event :=
      [.arrive 1 (.mergeMany [.counter "hits" 5]), .arrive 2 (.mergeMany [.counter "hits" 2]),
        .perform 1, .dump .begin, .perform 2, .stop, .hear, .dump (.proceed 1),
        .dump (.proceed 1), .dump (.proceed 1), .respond 1, .dump .begin, .dump (.proceed 2),
        .dump (.proceed 2), .dump (.proceed 2), .respond 2, .dump .begin, .dump (.proceed 0),
        .dump (.proceed 0), .dump (.proceed 0), .resume]
    let s := (start store 0 .fresh).run events
    DumpingStore.withSnapshot .empty "m.json" 0 false = .ok store ∧
      (start store 0 .fresh).runsCalmly events = true ∧ s.isOver = true ∧
      s.served.map (·.call) =
        [.mergeMany [.counter "hits" 2], .mergeMany [.counter "hits" 5]] ∧
      s.store.files.read "m.json" = .ok (Metric.listDocumentBytes [.counter "hits" 7]) := by
  intro store events s
  have hstore : DumpingStore.withSnapshot .empty "m.json" 0 false = .ok store := rfl
  have hcalm : (start store 0 .fresh).runsCalmly events = true := by decide +kernel
  have hover : s.isOver = true := by decide +kernel
  have hcopied : (store.table.afterCalls
      (((start store 0 .fresh).history events).copied.map (·.call))).metrics =
        [.counter "hits" 7] := by decide +kernel
  have hserved : s.served.map (·.call) =
      [.mergeMany [.counter "hits" 2], .mergeMany [.counter "hits" 5]] := by decide +kernel
  obtain ⟨hread, -⟩ := left_at_end hstore hcalm hover
  rw [hcopied, show (start store 0 .fresh).run events = s from rfl] at hread
  exact ⟨hstore, hcalm, hover, hserved, hread⟩

/-- A request comes in before the stop signal and is served after the last dump of a server that
dumps at intervals: it was told that its five hits are counted, and the file has none. -/
theorem answered_write_is_lost :
    let store : DumpingStore := { DumpingStore.plain .empty with snapshot := some "m.json" }
    let interval : Nanos := 300000000000
    let call : StoreCall := .mergeMany [.counter "hits" 5]
    let events : List Event :=
      [.arrive 1 call, .stop, .hear, .dump .begin, .dump (.proceed 0), .dump (.proceed 0),
        .dump (.proceed 0), .resume, .perform 1, .respond 1]
    let s := (start store interval .fresh).run events
    DumpingStore.withSnapshot .empty "m.json" interval false = .ok store ∧
      (start store interval .fresh).runsCalmly events = true ∧ s.isOver = true ∧
      s.served.map (fun r => (r.call, r.isSuccess)) = [(call, true)] ∧
      s.store.table.metrics = [.counter "hits" 5] ∧
      s.store.files.read "m.json" = .ok (Metric.listDocumentBytes []) ∧
      Snapshot.load s.store.files "m.json" = .ok [] := by
  intro store interval call events s
  refine ⟨rfl, ?_, ?_, ?_, ?_, ?_, ?_⟩
  · decide +kernel
  · decide +kernel
  · decide +kernel
  · decide +kernel
  · decide +kernel
  · decide +kernel

end ServerLife

end Telemetry
