import Telemetry.Proofs.Server.History
import Telemetry.Proofs.Store.Snapshot

/-!
# What the snapshot file of a server holds

As long as nothing goes wrong with the dumps and nobody leaves while its own is under way, there
is one dump at a time, and between two of them the snapshot file holds the metrics as they were
when the last dump began (`Saved.happens`).
-/

namespace Telemetry

/-- The table after some calls. -/
def Table.afterCalls (t : Table) (calls : List StoreCall) : Table :=
  calls.foldl (fun t c => ((Table.answer c).run t).2) t

theorem Table.afterCalls_concat (t : Table) (calls : List StoreCall) (c : StoreCall) :
    t.afterCalls (calls ++ [c]) = ((Table.answer c).run (t.afterCalls calls)).2 := by
  unfold afterCalls
  rw [List.foldl_append]
  rfl

namespace History

/-- The table after the writes that the last dump has. -/
def copy (h : History) (t : Table) : Table := t.afterCalls (h.copied.map (·.call))

theorem call_settle (writer : Nat) (fate : Fate) (w : Write) :
    (settle writer fate w).call = w.call := by
  unfold settle
  split <;> rfl

theorem map_call_settle (writer : Nat) (fate : Fate) (ws : List Write) :
    (ws.map (settle writer fate)).map (·.call) = ws.map (·.call) := by
  rw [List.map_map]
  exact List.map_congr_left fun w _ => call_settle writer fate w

theorem copy_close (h : History) (writer : Nat) (fate : Fate) (t : Table) :
    (h.close writer fate).copy t = h.copy t :=
  congrArg t.afterCalls (map_call_settle writer fate h.copied)

end History

/-- Whether a store has at most one dump under way, which is that of the one who has the turn, and
brings a table to its file; and whether it is there when no dump is under way, if one has begun. -/
def DumpingStore.Saves (s : DumpingStore) (path : String) (image : Table) (begun : Bool) : Prop :=
  (s.dumps = [] ∧ s.holder = none ∧
      (begun = true → s.files.read path = .ok (Metric.listDocumentBytes image.metrics))) ∨
    ∃ writer rest, s.dumps = [⟨writer, rest⟩] ∧ s.holder = some writer ∧ begun = true ∧
      Snapshot.Stage s.files path (Metric.listDocumentBytes image.metrics) rest

namespace DumpingStore.Saves

variable {s : DumpingStore} {path : String} {image : Table} {begun : Bool} {writer : Nat}

/-- A dump that begins brings the table to the file as it is then. -/
theorem begin (h : s.Saves path image begun) (hholder : s.holder = none) (rest : List Nat) :
    Saves
      { s with
        holder := some writer
        waiting := rest
        dumps := s.dumps ++ [⟨writer, Snapshot.changes s.files path s.table.metrics⟩] }
      path s.table true := by
  rcases h with ⟨hdumps, -, -⟩ | ⟨w, changes, -, hheld, -⟩
  · refine Or.inr ⟨writer, _, ?_, rfl, rfl, .changes s.files path s.table.metrics⟩
    rw [hdumps]
    rfl
  · rw [hholder] at hheld
    cases hheld

/-- The dump under way is the only one. -/
theorem dumps_eq (h : s.Saves path image begun) {d : Dump}
    (hd : s.dumps.find? (fun d => d.writer = writer) = some d) :
    s.dumps = [d] ∧ s.holder = some d.writer ∧ begun = true ∧
      Snapshot.Stage s.files path (Metric.listDocumentBytes image.metrics) d.rest := by
  rcases h with ⟨hdumps, -, -⟩ | ⟨w, changes, hdumps, hheld, hbegun, hstage⟩
  · rw [hdumps] at hd
    cases hd
  · have hmem := List.mem_of_find?_eq_some hd
    rw [hdumps] at hmem
    cases List.mem_singleton.mp hmem
    exact ⟨hdumps, hheld, hbegun, hstage⟩

/-- A change of a dump brings it on. -/
theorem change (h : s.Saves path image begun) {change : FileTree.Change}
    {rest : List FileTree.Change}
    (hd : s.dumps.find? (fun d => d.writer = writer) = some ⟨writer, change :: rest⟩)
    {files : FileTree} (happly : s.files.apply change = .ok files) :
    Saves
      { s with
        files := files
        dumps := s.dumps.map fun d => if d.writer = writer then { d with rest := rest } else d }
      path image begun := by
  obtain ⟨hdumps, hheld, hbegun, hstage⟩ := h.dumps_eq hd
  refine Or.inr ⟨writer, rest, ?_, hheld, hbegun, hstage.apply happly⟩
  rw [hdumps]
  simp

/-- When a dump has ended, the file is what it was to be. -/
theorem finish (h : s.Saves path image begun)
    (hd : s.dumps.find? (fun d => d.writer = writer) = some ⟨writer, []⟩) :
    (s.finish writer (.ok ())).Saves path image begun := by
  obtain ⟨hdumps, hheld, -, hstage⟩ := h.dumps_eq hd
  have hread : s.files.read path = .ok (Metric.listDocumentBytes image.metrics) := by
    cases hstage with
    | done hread => exact hread
  unfold DumpingStore.finish removeDump
  dsimp only
  rw [if_pos hheld]
  refine Or.inl ⟨?_, rfl, fun _ => hread⟩
  dsimp only
  rw [hdumps]
  simp

end DumpingStore.Saves

namespace ServerLife

/-- What holds of the snapshot file all along, if the server began with a table. -/
structure Saved (path : String) (t : Table) (s : ServerLife) (h : History) : Prop where
  snapshot : s.store.snapshot = some path
  table : s.store.table = t.afterCalls (h.writes.map (·.call))
  saves : s.store.Saves path (h.copy t) h.begun
  ended : s.store.ended ≠ [] → h.begun = true
  loop : s.loop = .ended → h.begun = true

namespace Saved

variable {path : String} {t : Table} {s s' : ServerLife} {h h' : History}

theorem happens (hs : Saved path t s h) (hstep : Happens s h s' h') : Saved path t s' h' := by
  cases hstep with
  | nothing => exact hs
  | arrive writer call hnew hloop hresult =>
    exact ⟨hs.snapshot, hs.table, hs.saves, hs.ended, hs.loop⟩
  | keep r hr hreply reply hkept => exact ⟨hs.snapshot, hs.table, hs.saves, hs.ended, hs.loop⟩
  | stop => exact ⟨hs.snapshot, hs.table, hs.saves, hs.ended, hs.loop⟩
  | write r hr hreply hwrites reply table hanswer =>
    have htable : table = t.afterCalls
        (({ h with fresh := h.fresh ++ [⟨r.writer, r.call, .waiting⟩] } : History).writes.map
          (·.call)) := by
      unfold History.writes
      rw [← List.append_assoc, List.map_append]
      rw [show [(⟨r.writer, r.call, .waiting⟩ : Write)].map (·.call) = [r.call] from rfl]
      rw [Table.afterCalls_concat]
      rw [show h.copied ++ h.fresh = h.writes from rfl, ← hs.table, hanswer]
    unfold DumpingStore.written
    split
    · exact ⟨hs.snapshot, htable, hs.saves, hs.ended, hs.loop⟩
    · exact ⟨hs.snapshot, htable, hs.saves, hs.ended, hs.loop⟩
  | respond r hr reply hreply hawaits =>
    refine ⟨hs.snapshot, ?_, ?_, hs.ended, hs.loop⟩
    · rw [History.writes_close, History.map_call_settle]
      exact hs.table
    · rw [History.copy_close]
      exact hs.saves
  | leave writer hloop hholder =>
    refine ⟨hs.snapshot, ?_, ?_, hs.ended, hs.loop⟩
    · rw [History.writes_close, History.map_call_settle]
      exact hs.table
    · rw [History.copy_close]
      exact hs.saves
  | begin writer rest path' hholder hwaiting hpath =>
    obtain rfl : path = path' := Option.some.inj (hs.snapshot.symm.trans hpath)
    have hcopy : History.copy ⟨h.writes, [], true⟩ t = s.store.table := hs.table.symm
    refine ⟨hs.snapshot, ?_, ?_, fun _ => rfl, fun _ => rfl⟩
    · unfold History.writes
      rw [List.append_nil]
      exact hs.table
    · rw [hcopy]
      exact hs.saves.begin hholder rest
  | change writer change rest files hdump happly =>
    exact ⟨hs.snapshot, hs.table, hs.saves.change hdump happly, hs.ended, hs.loop⟩
  | finish writer hdump =>
    have hbegun := (hs.saves.dumps_eq hdump).2.2.1
    refine ⟨?_, ?_, hs.saves.finish hdump, fun _ => hbegun, hs.loop⟩
    · unfold DumpingStore.finish DumpingStore.removeDump
      dsimp only
      split <;> exact hs.snapshot
    · rw [DumpingStore.table_finish]
      exact hs.table
  | ask isLast hloop =>
    refine ⟨hs.snapshot, hs.table, hs.saves, fun hended => hs.ended ?_, nofun⟩
    rintro hnil
    exact hended (by rw [hnil]; rfl)
  | resume isLast result hloop hresult =>
    refine ⟨hs.snapshot, hs.table, hs.saves, hs.ended, fun _ => hs.ended fun hnil => ?_⟩
    unfold dumpResult? at hresult
    rw [hnil] at hresult
    cases hresult

end Saved

end ServerLife

end Telemetry
