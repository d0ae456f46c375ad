import Telemetry.Proofs.Postgres.Quiet
import Telemetry.Proofs.Retry.Patient
import Telemetry.Proofs.Store.Dumping
import Telemetry.Server.Storage

/-!
# What a storage holds

The metrics that a storage holds are those in memory and the rows of its database. Calls that
only read leave both as they are, and so does a look at which store is to be used
(`Storage.stored_call`, `Storage.stored_check`).
-/

namespace Telemetry

namespace Storage

/-- The metrics that a storage holds: those in memory, and the rows of its database if it has
one. -/
def stored (s : Storage) : Table × Option (List (String × Postgres.Row)) :=
  (s.memory.table, s.client.map (·.rows))

theorem stored_memoryStore {c : StoreCall} (h : c.writes = false) (s : Storage) :
    ((memoryStore c).run s).2.stored = s.stored := by
  have htable : ((DumpingStore.call c).run s.memory).2.table = s.memory.table :=
    (DumpingStore.answersAs_call c s.memory).2.trans (Table.answer_of_reading h _)
  exact congrArg (·, s.client.map (·.rows)) htable

theorem stored_withClient {α : Type} {run : StateM Postgres.Client α}
    (hrun : ∀ client, (run client).2.rows = client.rows) {s : Storage} (h : s.client.isSome) :
    (withClient run s).2.stored = s.stored ∧ (withClient run s).2.client.isSome := by
  obtain ⟨client, hclient⟩ := Option.isSome_iff_exists.mp h
  unfold withClient stored
  rw [hclient]
  exact ⟨congrArg (fun rows => (s.memory.table, some rows)) (hrun client), rfl⟩

theorem stored_durableStore {c : StoreCall} (h : c.writes = false) (policy : RetryPolicy)
    {s : Storage} (hclient : s.client.isSome) :
    ((durableStore policy c).run s).2.stored = s.stored := by
  have htry : ∀ s' : Storage, s'.stored = s.stored ∧ s'.client.isSome →
      (withClient (Postgres.Client.answer c) s').2.stored = s.stored ∧
        (withClient (Postgres.Client.answer c) s').2.client.isSome := by
    rintro s' ⟨hstored, hsome⟩
    have hkept := stored_withClient (Postgres.Client.rows_answer h) hsome
    exact ⟨hkept.1.trans hstored, hkept.2⟩
  have hretried := (RetryPolicy.tryFrom_keeps policy (fun s : Storage => s.signal.on)
    (fun _ _ => false) c.word (P := fun s' => s'.stored = s.stored ∧ s'.client.isSome) htry
    policy.maxRetries 0 ⟨rfl, hclient⟩).1
  cases c, h using StoreCall.reading_cases with
  | ping => exact (htry s ⟨rfl, hclient⟩).1
  | get name => exact hretried
  | getMany names => exact hretried
  | list => exact hretried

/-- The durable store of the pair is the database, if there is one. -/
theorem durable_eq_some {s : Storage} {store : Store (StateM Storage)}
    (h : s.pair.durable = some store) : s.client.isSome ∧ store = durableStore s.policy := by
  unfold pair at h
  dsimp only at h
  split at h
  next hclient =>
    cases h
    exact ⟨hclient, rfl⟩
  next => cases h

theorem stored_durable {s : Storage} {store : Store (StateM Storage)}
    (hstore : s.pair.durable = some store) {c : StoreCall} (h : c.writes = false) :
    ((store c).run s).2.stored = s.stored := by
  obtain ⟨hclient, rfl⟩ := durable_eq_some hstore
  exact stored_durableStore h s.policy hclient

theorem stored_current {c : StoreCall} (h : c.writes = false) (s : Storage) :
    ((s.pair.current s.active c).run s).2.stored = s.stored := by
  unfold Failover.current
  cases s.active with
  | memory => exact stored_memoryStore h s
  | durable =>
    cases hstore : s.pair.durable with
    | none => exact stored_memoryStore h s
    | some store => exact stored_durable hstore h

/-- A call that only reads leaves everything stored as it is. -/
theorem stored_call {c : StoreCall} (h : c.writes = false) (s : Storage) :
    ((call c).run s).2.stored = s.stored := by
  cases c, h using StoreCall.reading_cases with
  | ping =>
    show (((s.pair.ping).run s).2).stored = s.stored
    unfold Failover.ping
    cases hstore : s.pair.durable with
    | none => rfl
    | some store => exact stored_durable hstore rfl
  | get name => exact stored_current rfl s
  | getMany names => exact stored_current rfl s
  | list => exact stored_current rfl s

/-- To look which store is to be used changes nothing that is stored. -/
theorem stored_check (s : Storage) : s.check.stored = s.stored := by
  show ((s.pair.check).run s).2.stored = s.stored
  unfold Failover.check
  cases hstore : s.pair.durable with
  | none => rfl
  | some store =>
    have hping := stored_durable hstore (c := .ping) rfl
    simp only [StateT.run_bind]
    rcases hrun : (store .ping).run s with ⟨_ | _, s'⟩
    · rw [hrun] at hping
      exact hping
    · rw [hrun] at hping
      exact hping

end Storage

end Telemetry
