import Telemetry.Proofs.Store.Dumping
import Telemetry.Server.Ingest

/-!
# What can be wanted of the metrics

All that a server does with a store is to list the metrics, to see whether it is there, to merge
a batch or to find a metric (`Demand`). What comes of it is said for a table, and every store that
answers as its table does comes to the same (`Meets`).
-/

namespace Telemetry

/-- What a request that is let through wants of the metrics. -/
inductive Demand
  /-- all of them -/
  | list
  | ping
  /-- a batch is to be merged into them -/
  | merge (batch : List Metric)
  /-- the metric of a kind and name -/
  | find (kind : Kind) (name : String)
deriving DecidableEq

namespace Demand

/-- What comes of a demand on a table: the metrics to be shown, and the table after it. -/
def answer (d : Demand) (t : Table) : Except Fault (List Metric) × Table :=
  match d with
  | .list => (.ok t.metrics, t)
  | .ping => (.ok [], t)
  | .merge batch =>
    match mergeBatch t.get? batch with
    | .ok merged => (.ok merged, t.insertAll merged)
    | .error f => (.error f, t)
  | .find kind name =>
    match t.get? name with
    | some m => (if m.kind = kind then .ok [m] else .error (Ingest.missing kind name), t)
    | none => (.error (Ingest.missing kind name), t)

theorem answer_merge_of_ok {batch merged : List Metric} {t : Table}
    (h : mergeBatch t.get? batch = .ok merged) :
    (merge batch).answer t = (.ok merged, t.insertAll merged) := by
  simp only [answer, h]

theorem answer_merge_of_error {batch : List Metric} {t : Table} {f : Fault}
    (h : mergeBatch t.get? batch = .error f) : (merge batch).answer t = (.error f, t) := by
  simp only [answer, h]

theorem answer_merge (batch : List Metric) (t : Table) :
    (merge batch).answer t = (Table.answer (.mergeMany batch)).run t := by
  rw [Table.answer_mergeMany]
  rfl

theorem answer_find (kind : Kind) (name : String) (t : Table) :
    (find kind name).answer t =
      match (t.get? name).filter (·.kind = kind) with
      | some m => (.ok [m], t)
      | none => (.error (Ingest.missing kind name), t) := by
  unfold answer
  dsimp only
  cases t.get? name with
  | none => rfl
  | some m => by_cases hkind : m.kind = kind <;> simp [Option.filter, hkind]

/-- Only a merge changes a table. -/
theorem answer_of_reading {d : Demand} (h : ∀ batch, d ≠ .merge batch) (t : Table) :
    (d.answer t).2 = t := by
  cases d with
  | list => rfl
  | ping => rfl
  | merge batch => exact absurd rfl (h batch)
  | find kind name =>
    unfold answer
    dsimp only
    split <;> rfl

/-- A demand that fails changes nothing. -/
theorem answer_of_error {d : Demand} {t : Table} {f : Fault} (h : (d.answer t).1 = .error f) :
    (d.answer t).2 = t := by
  by_cases hmerge : ∃ batch, d = .merge batch
  · obtain ⟨batch, rfl⟩ := hmerge
    unfold answer at h ⊢
    dsimp only at h ⊢
    split at h
    next => cases h
    next => rfl
  · exact answer_of_reading (fun batch hd => hmerge ⟨batch, hd⟩) t

end Demand

/-- A batch of one metric is merged to one metric. -/
theorem exists_of_mergeBatch_singleton {stored : String → Option Metric} {m : Metric}
    {merged : List Metric} (h : mergeBatch stored [m] = .ok merged) :
    m.validate = .ok () ∧ ∃ x, merged = [x] := by
  replace h : mergeMember stored [] m >>= (fun results => pure results) = .ok merged := h
  rw [bind_pure] at h
  unfold mergeMember at h
  obtain ⟨_, hvalid, h⟩ := Fallible.bind_eq_ok_iff.mp h
  refine ⟨hvalid, ?_⟩
  rw [if_neg (by simp)] at h
  cases hstored : stored m.name with
  | none =>
    rw [hstored] at h
    cases h
    exact ⟨m, rfl⟩
  | some s =>
    rw [hstored] at h
    obtain ⟨x, -, hx⟩ := Fallible.bind_eq_ok_iff.mp h
    cases hx
    exact ⟨x, rfl⟩

theorem mergeBatch_singleton_of_invalid {stored : String → Option Metric} {m : Metric} {f : Fault}
    (h : m.validate = .error f) : mergeBatch stored [m] = .error f := by
  have hmember : mergeMember stored [] m = .error f := by
    unfold mergeMember
    rw [h]
    rfl
  show (mergeMember stored [] m >>= fun results => pure results) = _
  rw [hmember]
  rfl

section Meets

variable {σ α : Type} {view : σ → Table} {store : Store (StateM σ)}

/-- Whether an action comes to what a demand comes to on the table that is seen of the state, and
how it shows that. -/
def Meets (view : σ → Table) (d : Demand) (shown : Except Fault (List Metric) → α)
    (act : StateM σ α) : Prop :=
  ∀ s, ∃ s', act.run s = (shown (d.answer (view s)).1, s') ∧ view s' = (d.answer (view s)).2

namespace Meets

theorem map {β : Type} {d : Demand} {shown : Except Fault (List Metric) → α} {act : StateM σ α}
    (h : Meets view d shown act) (f : α → β) :
    Meets view d (fun result => f (shown result)) (act >>= fun a => pure (f a)) := by
  intro s
  obtain ⟨s', hrun, hview⟩ := h s
  exact ⟨s', by rw [run_bind_of_run hrun]; rfl, hview⟩

theorem list (hstore : AnswersAs view store) :
    Meets view .list id (store .list) := fun s => hstore.run_eq (c := .list) (s := s) rfl

theorem ping (hstore : AnswersAs view store) {shown : Except Fault (List Metric) → α}
    {f : Except Fault Unit → α} (hok : shown (.ok []) = f (.ok ())) :
    Meets view .ping shown (store .ping >>= fun result => pure (f result)) := by
  intro s
  obtain ⟨s', hrun, hview⟩ := hstore.run_eq
    (show (Table.answer .ping).run (view s) = (.ok (), view s) from rfl)
  refine ⟨s', ?_, hview⟩
  rw [run_bind_of_run hrun, show (Demand.ping.answer (view s)).1 = .ok [] from rfl, hok]
  rfl

theorem mergeMany (hstore : AnswersAs view store) (batch : List Metric) :
    Meets view (.merge batch) id (store (.mergeMany batch)) :=
  fun s => hstore.run_eq (Demand.answer_merge batch (view s)).symm

/-- An update of one metric is a merge of a batch of one. -/
theorem update (hstore : AnswersAs view store) (metric : Metric)
    {shown : Except Fault (List Metric) → α} {f : Except Fault Metric → α}
    (hok : ∀ x, shown (.ok [x]) = f (.ok x)) (herror : ∀ e, shown (.error e) = f (.error e)) :
    Meets view (.merge [metric]) shown
      (Ingest.update store metric >>= fun result => pure (f result)) := by
  intro s
  unfold Ingest.update
  cases hvalid : metric.validate with
  | error e =>
    rw [Demand.answer_merge_of_error (mergeBatch_singleton_of_invalid hvalid), herror]
    exact ⟨s, rfl, rfl⟩
  | ok u =>
    obtain ⟨s', hrun, hview⟩ := mergeMany hstore [metric] s
    refine ⟨s', ?_, hview⟩
    dsimp only
    rw [bind_assoc, run_bind_of_run hrun]
    cases hmerged : mergeBatch (view s).get? [metric] with
    | error e =>
      rw [Demand.answer_merge_of_error hmerged, herror]
      rfl
    | ok merged =>
      obtain ⟨-, x, rfl⟩ := exists_of_mergeBatch_singleton hmerged
      rw [Demand.answer_merge_of_ok hmerged, hok]
      rfl

/-- To get a metric is to find it. -/
theorem get (hstore : AnswersAs view store) (kind : Kind) (name : String)
    {shown : Except Fault (List Metric) → α} {f : Except Fault Metric → α}
    (hok : ∀ x, shown (.ok [x]) = f (.ok x)) (herror : ∀ e, shown (.error e) = f (.error e)) :
    Meets view (.find kind name) shown
      (Ingest.get store kind name >>= fun result => pure (f result)) := by
  intro s
  obtain ⟨s', hrun, hview⟩ := hstore.run_eq
    (show (Table.answer (.get name)).run (view s) = (.ok ((view s).get? name), view s) from rfl)
  refine ⟨s', ?_, hview.trans (Demand.answer_of_reading (fun _ h => by cases h) _).symm⟩
  unfold Ingest.get
  rw [bind_assoc, run_bind_of_run hrun]
  unfold Demand.answer
  dsimp only
  cases (view s).get? name with
  | none => rw [herror]; rfl
  | some m =>
    dsimp only
    split
    next => rw [hok]; rfl
    next => rw [herror]; rfl

end Meets

end Meets

end Telemetry
