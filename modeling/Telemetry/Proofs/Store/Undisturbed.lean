import Telemetry.Proofs.Server.Shutdown
import Telemetry.Proofs.Store.Dumping

/-!
# A store that nobody disturbs

One who is alone with a store gets a turn at once, and its dump makes one change after another until
it ends or one of them fails (`DumpingStore.settleWithin_of_dump`). So a dump is the saving of a
snapshot (`DumpingStore.AtRest.run_persist`), and between two calls nobody waits and no dump is
under way (`DumpingStore.AtRest.afterCalls`).
-/

namespace Telemetry

/-! ## A snapshot that is saved -/

namespace Snapshot

theorem length_changes_le (files : FileTree) (path : String) (metrics : List Metric) :
    (changes files path metrics).length ≤ 3 := by
  unfold changes
  dsimp only
  split
  · split <;> exact Nat.le_of_ble_eq_true rfl
  · exact Nat.le_of_ble_eq_true rfl

/-- When all changes of a saving are made, the file is what it was to be. -/
theorem Stage.read_of_applyAll {files files' : FileTree} {path : String} {bytes : Bytes}
    {changes : List FileTree.Change} (h : Stage files path bytes changes)
    (happly : files.applyAll changes = (files', .ok ())) : files'.read path = .ok bytes := by
  induction changes generalizing files with
  | nil =>
    cases h with
    | done hread =>
      cases happly
      exact hread
  | cons change rest ih =>
    unfold FileTree.applyAll at happly
    cases hchange : files.apply change with
    | error cause =>
      rw [hchange] at happly
      cases happly
    | ok next =>
      rw [hchange] at happly
      exact ih (h.apply hchange) happly

/-- A snapshot is saved if all its changes are made, and then reads as the list of the metrics. -/
theorem save_of_applyAll {files files' : FileTree} {path : String} {metrics : List Metric}
    (h : files.applyAll (changes files path metrics) = (files', .ok ())) :
    save files path metrics = (files', .ok ()) ∧
      files'.read path = .ok (Metric.listDocumentBytes metrics) := by
  refine ⟨?_, (Stage.changes files path metrics).read_of_applyAll h⟩
  unfold save
  rw [h]
  rfl

end Snapshot

namespace DumpingStore

variable {s : DumpingStore} {path : String}

/-! ## One dump from beginning to end -/

theorem settleWithin_of_still {n : Nat} (hdumps : s.dumps = []) (hwaiting : s.waiting = []) :
    s.settleWithin n = s := by
  cases n with
  | zero => rfl
  | succ n =>
    have hnext : s.next? = none := by
      unfold next?
      rw [hdumps, hwaiting]
      rfl
    rw [settleWithin, hnext]

section Dump

variable {writer : Nat} {changes : List FileTree.Change}

/-- The only dump is what goes on. -/
theorem settleWithin_succ_of_dump (hdumps : s.dumps = [⟨writer, changes⟩]) (n : Nat) :
    s.settleWithin (n + 1) = (s.step (.proceed writer)).settleWithin n := by
  have hnext : s.next? = some (.proceed writer) := by
    unfold next?
    rw [hdumps]
  rw [settleWithin, hnext]

/-- When the only dump ends, its writer gives the turn back. -/
theorem finish_of_dump (hdumps : s.dumps = [⟨writer, changes⟩]) (hholder : s.holder = some writer)
    (result : Except Fault Unit) :
    s.finish writer result =
      { s with dumps := [], holder := none, ended := (writer, result) :: s.ended } := by
  unfold finish removeDump
  dsimp only
  rw [if_pos hholder, hdumps]
  simp

/-- What the only dump does next. -/
theorem step_of_dump (hdumps : s.dumps = [⟨writer, changes⟩]) (hholder : s.holder = some writer) :
    s.step (.proceed writer) =
      match changes with
      | [] => { s with dumps := [], holder := none, ended := (writer, .ok ()) :: s.ended }
      | change :: rest =>
        match s.files.apply change with
        | .ok files => { s with files := files, dumps := [⟨writer, rest⟩] }
        | .error cause =>
          { s with
            dumps := []
            holder := none
            ended := (writer, .error (.file cause)) :: s.ended } := by
  have hfind : s.dumps.find? (fun d => d.writer = writer) = some ⟨writer, changes⟩ := by
    rw [hdumps, List.find?_cons_of_pos (by simp)]
  unfold step
  dsimp only
  rw [hfind]
  cases changes with
  | nil => exact finish_of_dump hdumps hholder _
  | cons change rest =>
    dsimp only
    cases s.files.apply change with
    | error cause => exact finish_of_dump hdumps hholder _
    | ok files =>
      dsimp only
      rw [hdumps]
      simp

/-- **A dump that nobody disturbs** makes its changes one after another, as far as they succeed,
and ends with what came of them. -/
theorem settleWithin_of_dump (hdumps : s.dumps = [⟨writer, changes⟩])
    (hholder : s.holder = some writer) (hwaiting : s.waiting = []) (n : Nat) :
    s.settleWithin (changes.length + 1 + n) =
      { s with
        files := (s.files.applyAll changes).1
        dumps := []
        holder := none
        ended := (writer, (s.files.applyAll changes).2.mapError .file) :: s.ended } := by
  induction changes generalizing s with
  | nil =>
    rw [Nat.add_right_comm, settleWithin_succ_of_dump hdumps, step_of_dump hdumps hholder]
    exact settleWithin_of_still rfl hwaiting
  | cons change rest ih =>
    rw [Nat.add_right_comm, settleWithin_succ_of_dump hdumps, step_of_dump hdumps hholder]
    unfold FileTree.applyAll
    dsimp only
    cases s.files.apply change with
    | error cause =>
      -- what is left of the dump is not done
      exact settleWithin_of_still rfl hwaiting
    | ok files =>
      exact ih (s := { s with files := files, dumps := [⟨writer, rest⟩] }) rfl hholder hwaiting

end Dump

/-! ## Between two calls -/

/-- Whether nobody waits for a turn or has it, in a store with a snapshot file. -/
structure AtRest (s : DumpingStore) (path : String) : Prop where
  snapshot : s.snapshot = some path
  waiting : s.waiting = []
  holder : s.holder = none
  dumps : s.dumps = []
  ended : s.ended = []

namespace AtRest

theorem withSnapshot {files : FileTree} {interval : Nanos} {restore : Bool}
    (h : DumpingStore.withSnapshot files path interval restore = .ok s) : s.AtRest path := by
  rw [withSnapshot_eq h]
  exact ⟨rfl, rfl, rfl, rfl, rfl⟩

/-- **Who asks for a dump alone** gets the snapshot saved, or as much of it as can be. -/
theorem settle_ask (h : s.AtRest path) (writer : Nat) :
    (s.ask writer).settle =
      { s with
        files := (Snapshot.save s.files path s.table.metrics).1
        ended := [(writer, (Snapshot.save s.files path s.table.metrics).2)] } := by
  obtain ⟨table, files, snapshot, dumpsWrites, waiting, holder, dumps, ended⟩ := s
  obtain ⟨rfl, rfl, rfl, rfl, rfl⟩ := h
  obtain ⟨n, hn⟩ := Nat.exists_eq_add_of_le (Snapshot.length_changes_le files path table.metrics)
  -- one event begins the dump, and the changes and the end of it are four more at most
  have hpending : 5 = (Snapshot.changes files path table.metrics).length + 1 + (n + 1) := by omega
  show settleWithin ⟨table, files, some path, dumpsWrites, [],
    some writer, [⟨writer, Snapshot.changes files path table.metrics⟩], []⟩ 5 = _
  rw [hpending, settleWithin_of_dump rfl rfl rfl]
  rfl

/-- A dump that nobody disturbs is the saving of a snapshot. -/
theorem run_persist (h : s.AtRest path) :
    persist.run s =
      ((Snapshot.save s.files path s.table.metrics).2,
        { s with files := (Snapshot.save s.files path s.table.metrics).1 }) := by
  show ((((s.ask soleWriter).settle.ended.head?).map (·.2)).getD (.ok ()),
    { (s.ask soleWriter).settle with ended := [] }) = _
  rw [h.settle_ask, ← h.ended]
  rfl

/-- It leaves nobody waiting and nothing under way, -/
theorem dumped (h : s.AtRest path) (writer : Nat) :
    { (s.ask writer).settle with ended := [] }.AtRest path := by
  rw [h.settle_ask]
  exact ⟨h.snapshot, h.waiting, h.holder, h.dumps, rfl⟩

/-- and so does a call that nobody disturbs, whether or not it is dumped. -/
theorem call (h : s.AtRest path) (c : StoreCall) : ((DumpingStore.call c).run s).2.AtRest path := by
  show { (s.perform soleWriter c).2.settle with ended := [] }.AtRest path
  have hstill : ∀ {s : DumpingStore}, s.AtRest path → { s.settle with ended := [] }.AtRest path := by
    intro s h
    rw [settle, settleWithin_of_still h.dumps h.waiting]
    exact ⟨h.snapshot, h.waiting, h.holder, h.dumps, rfl⟩
  have hwritten : ∀ t, { s with table := t }.AtRest path := fun t =>
    ⟨h.snapshot, h.waiting, h.holder, h.dumps, h.ended⟩
  unfold perform
  dsimp only
  rcases Table.answer c s.table with ⟨_ | reply, table⟩
  · exact hstill (hwritten table)
  · dsimp only
    -- a write is dumped at once or not at all
    split
    · exact (hwritten table).dumped soleWriter
    · exact hstill (hwritten table)

end AtRest

/-- A store after some calls, one after another. -/
def afterCalls (s : DumpingStore) (calls : List StoreCall) : DumpingStore :=
  calls.foldl (fun s c => ((call c).run s).2) s

theorem afterCalls_concat (s : DumpingStore) (calls : List StoreCall) (c : StoreCall) :
    s.afterCalls (calls ++ [c]) = ((call c).run (s.afterCalls calls)).2 := by
  unfold afterCalls
  rw [List.foldl_append]
  rfl

/-- Its table is the one after these calls. -/
theorem table_afterCalls (s : DumpingStore) (calls : List StoreCall) :
    (s.afterCalls calls).table = s.table.afterCalls calls := by
  induction calls using List.reverseRecOn with
  | nil => rfl
  | append_singleton calls c ih =>
    rw [afterCalls_concat, Table.afterCalls_concat, ← ih]
    exact (answersAs_call c _).2

theorem AtRest.afterCalls (h : s.AtRest path) (calls : List StoreCall) :
    (s.afterCalls calls).AtRest path := by
  induction calls using List.reverseRecOn with
  | nil => exact h
  | append_singleton calls c ih =>
    rw [afterCalls_concat]
    exact ih.call c

end DumpingStore

end Telemetry
