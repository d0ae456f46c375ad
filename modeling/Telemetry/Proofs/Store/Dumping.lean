import Telemetry.Proofs.Store.Table
import Telemetry.Store.Dumping

/-!
# A store in memory seen as its table

Of a store in memory only the table matters to its replies, and dumping leaves the table alone.
So to whoever asks it, the store is its table (`DumpingStore.answersAs_call`).
-/

namespace Telemetry

/-- Whether a store answers as the table does that is seen of its state. -/
def AnswersAs {σ : Type} (view : σ → Table) (store : Store (StateM σ)) : Prop :=
  ∀ (c : StoreCall) (s : σ),
    ((store c).run s).1 = ((Table.answer c).run (view s)).1 ∧
      view ((store c).run s).2 = ((Table.answer c).run (view s)).2

/-- A call as it runs, once it is known what the table answers. -/
theorem AnswersAs.run_eq {σ : Type} {view : σ → Table} {store : Store (StateM σ)}
    (h : AnswersAs view store) {c : StoreCall} {s : σ} {reply : Except Fault c.Reply} {t : Table}
    (ht : (Table.answer c).run (view s) = (reply, t)) :
    ∃ s', (store c).run s = (reply, s') ∧ view s' = t := by
  obtain ⟨hreply, hview⟩ := h c s
  rw [ht] at hreply hview
  exact ⟨((store c).run s).2, Prod.ext hreply rfl, hview⟩

/-- What comes after an action goes on from where it ended. -/
theorem run_bind_of_run {σ α β : Type} {act : StateM σ α} {next : α → StateM σ β} {s s' : σ}
    {a : α} (h : act.run s = (a, s')) : (act >>= next).run s = (next a).run s' := by
  rw [StateT.run_bind, h]
  rfl

namespace DumpingStore

theorem table_finish (s : DumpingStore) (writer : Nat) (result : Except Fault Unit) :
    (s.finish writer result).table = s.table := by
  unfold finish
  dsimp only
  split <;> rfl

/-- Dumping changes nothing in the table. -/
theorem table_step (s : DumpingStore) (e : Event) : (s.step e).table = s.table := by
  cases e with
  | begin =>
    unfold step
    dsimp only
    split <;> rfl
  | proceed writer =>
    unfold step
    dsimp only
    split
    · rfl
    · exact table_finish s writer _
    · split
      · rfl
      · exact table_finish s writer _
  | drop writer => rfl

theorem table_settleWithin (s : DumpingStore) (n : Nat) : (s.settleWithin n).table = s.table := by
  induction n generalizing s with
  | zero => rfl
  | succ n ih =>
    unfold settleWithin
    split
    · rfl
    · rw [ih, table_step]

theorem table_ask (s : DumpingStore) (writer : Nat) : (s.ask writer).table = s.table := by
  unfold ask
  cases s.snapshot <;> rfl

/-- A call is answered by the table, whatever is dumped after it. -/
theorem perform_answers (s : DumpingStore) (writer : Nat) (c : StoreCall) :
    (s.perform writer c).1 = ((Table.answer c).run s.table).1 ∧
      (s.perform writer c).2.table = ((Table.answer c).run s.table).2 := by
  unfold perform
  rw [show (Table.answer c).run s.table = Table.answer c s.table from rfl]
  rcases Table.answer c s.table with ⟨_ | reply, table⟩
  · exact ⟨rfl, rfl⟩
  · refine ⟨rfl, ?_⟩
    dsimp only
    split
    · exact table_ask _ writer
    · rfl

/-- **A store in memory answers as its table does.** -/
theorem answersAs_call : AnswersAs table call := fun c s =>
  ⟨(s.perform_answers soleWriter c).1,
    (table_settleWithin _ _).trans (s.perform_answers soleWriter c).2⟩

end DumpingStore

end Telemetry
