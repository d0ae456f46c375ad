import Mathlib.Data.List.Basic
import Telemetry.Postgres.Talk
import Telemetry.Proofs.Lookup

/-!
# What a statement does to a database

A statement of one session, with whatever goes wrong with it (`reply?`), leaves the others
alone: their transactions and their locks are what they were, and a lock still belongs to
one session at a time (`Frame`, `frame_reply?`). Committed rows change in one way only, by
the changes of a transaction that commits (`execute_commit`); all other statements of an open
transaction are kept apart until then.
-/

namespace Telemetry.Postgres

/-! ## Rows -/

/-- The rows of the metrics, none if there is no table yet. -/
def Tables.rows (t : Tables) : List (String × Row) := t.metrics.getD []

/-- The rows after some metrics are written, one after another. -/
def putAll (rows : List (String × Row)) (ms : List Metric) : List (String × Row) :=
  ms.foldl (fun rows m => putRow m.name (.ofMetric m) rows) rows

/-- Writing under a name leaves the rows of other names alone, wherever they stand. -/
theorem filter_putRow {p : String → Bool} {name : String} (h : p name = false) (r : Row)
    (rows : List (String × Row)) :
    (putRow name r rows).filter (fun e => p e.1) = rows.filter (fun e => p e.1) := by
  induction rows with
  | nil => simp [putRow, h]
  | cons e rows ih =>
    unfold putRow
    split
    · -- a new row goes in before this one
      rw [List.filter_cons_of_neg (by simp [h])]
    · split
      next heq =>
        -- it takes the place of this one, of the same name
        subst heq
        rw [List.filter_cons_of_neg (by simp [h]), List.filter_cons_of_neg (by simp [h])]
      next =>
        rw [List.filter_cons, List.filter_cons, ih]

theorem filter_putAll {p : String → Bool} {ms : List Metric} (h : ∀ m ∈ ms, p m.name = false)
    (rows : List (String × Row)) :
    (putAll rows ms).filter (fun e => p e.1) = rows.filter (fun e => p e.1) := by
  induction ms generalizing rows with
  | nil => rfl
  | cons m ms ih =>
    show (putAll (putRow m.name (.ofMetric m) rows) ms).filter _ = _
    rw [ih fun m hm => h m (List.mem_cons_of_mem _ hm),
      filter_putRow (h m List.mem_cons_self)]

namespace Change

/-- Whether a change writes a metric. -/
def isPut : Change → Bool
  | .put _ _ => true
  | _ => false

/-- The change that writes a metric. -/
def ofMetric (m : Metric) : Change := .put m.name (.ofMetric m)

end Change

/-- Whether a statement writes a metric. -/
def Statement.isPut : Statement → Bool
  | .insert _ | .upsert _ => true
  | _ => false

namespace Tables

theorem rows_apply {t : Tables} {c : Change} (h : c.isPut = false) :
    (t.apply c).rows = t.rows := by
  cases c with
  | put name row => cases h
  | makeMetrics => cases hm : t.metrics <;> simp [apply, rows, hm]
  | makeVersions => rfl
  | addVersion v => rfl

/-- Changes that write no metric leave the rows as they are. -/
theorem rows_applyAll {t : Tables} {cs : List Change} (h : ∀ c ∈ cs, c.isPut = false) :
    (t.applyAll cs).rows = t.rows := by
  induction cs generalizing t with
  | nil => rfl
  | cons c cs ih =>
    show ((t.apply c).applyAll cs).rows = t.rows
    rw [ih fun c hc => h c (List.mem_cons_of_mem _ hc), rows_apply (h c List.mem_cons_self)]

theorem isSome_metrics_apply {t : Tables} (h : t.metrics.isSome) (c : Change) :
    (t.apply c).metrics.isSome := by
  cases c <;> simp [apply, h]

/-- A table that is there stays there. -/
theorem isSome_metrics_applyAll {t : Tables} (h : t.metrics.isSome) (cs : List Change) :
    (t.applyAll cs).metrics.isSome := by
  induction cs generalizing t with
  | nil => exact h
  | cons c cs ih => exact ih (isSome_metrics_apply h c)

/-- The changes of some metrics write just these. -/
theorem applyAll_ofMetric (t : Tables) (ms : List Metric) :
    t.applyAll (ms.map Change.ofMetric) =
      { t with metrics := t.metrics.map fun rows => putAll rows ms } := by
  induction ms generalizing t with
  | nil =>
    show t = { t with metrics := t.metrics.map fun rows => rows }
    rw [Option.map_id']
  | cons m ms ih =>
    show (t.apply (Change.ofMetric m)).applyAll (ms.map Change.ofMetric) = _
    rw [ih]
    show ({ t with metrics := (t.metrics.map _).map _ } : Tables) = _
    rw [Option.map_map]
    rfl

theorem rows_applyAll_ofMetric {t : Tables} (h : t.metrics.isSome) (ms : List Metric) :
    (t.applyAll (ms.map Change.ofMetric)).rows = putAll t.rows ms := by
  obtain ⟨rows, hrows⟩ := Option.isSome_iff_exists.mp h
  unfold Tables.rows
  rw [applyAll_ofMetric, hrows]
  rfl

end Tables

namespace Database

/-! ## Sessions apart from each other -/

@[simp] theorem transaction?_close_self (d : Database) (i : Nat) :
    (d.close i).transaction? i = none :=
  lookup_filter_eq_none (p := (· ≠ i)) (by simp) d.transactions

theorem transaction?_close_of_ne {i j : Nat} (h : j ≠ i) (d : Database) :
    (d.close i).transaction? j = d.transaction? j :=
  lookup_filter (p := (· ≠ i)) (by simpa using h) d.transactions

@[simp] theorem transaction?_setTransaction_self (d : Database) (i : Nat) (t : Transaction) :
    (d.setTransaction i t).transaction? i = some t := by
  show List.lookup i (_ :: _) = _
  rw [List.lookup_cons, beq_self_eq_true]

theorem transaction?_setTransaction_of_ne {i j : Nat} (h : j ≠ i) (d : Database)
    (t : Transaction) : (d.setTransaction i t).transaction? j = d.transaction? j := by
  show List.lookup j (_ :: _) = _
  rw [List.lookup_cons, beq_false_of_ne h]
  exact lookup_filter (p := (· ≠ i)) (by simpa using h) d.transactions

/-- Whether a session holds a lock. -/
def Holds (d : Database) (session : Nat) (id : LockId) : Prop := (id, session) ∈ d.locks

/-- No lock has two holders. -/
def Exclusive (d : Database) : Prop :=
  ∀ {id i j}, d.Holds i id → d.Holds j id → i = j

/-- What a session leaves alone: the transactions and the locks of the others. -/
structure Frame (d d' : Database) (session : Nat) : Prop where
  transactions : ∀ {j}, j ≠ session → d'.transaction? j = d.transaction? j
  locks : ∀ {j id}, j ≠ session → (d'.Holds j id ↔ d.Holds j id)
  exclusive : d.Exclusive → d'.Exclusive
  /-- a table of metrics stays where it is -/
  table : d.committed.metrics.isSome → d'.committed.metrics.isSome

namespace Frame

variable {d d' d'' : Database} {session : Nat}

theorem refl (d : Database) (session : Nat) : Frame d d session :=
  ⟨fun _ => rfl, fun _ => Iff.rfl, fun h => h, fun h => h⟩

theorem trans (h : Frame d d' session) (h' : Frame d' d'' session) : Frame d d'' session :=
  ⟨fun hj => (h'.transactions hj).trans (h.transactions hj),
    fun hj => (h'.locks hj).trans (h.locks hj),
    fun he => h'.exclusive (h.exclusive he), fun ht => h'.table (h.table ht)⟩

theorem close (d : Database) (session : Nat) : Frame d (d.close session) session := by
  refine ⟨fun hj => transaction?_close_of_ne hj d, fun {j id} hj => ?_, fun he => ?_, fun h => h⟩
  · show (id, j) ∈ d.locks.filter _ ↔ _
    rw [List.mem_filter]
    exact ⟨fun h => h.1, fun h => ⟨h, by simpa using hj⟩⟩
  · intro id i j hi hj
    exact he (List.mem_filter.mp hi).1 (List.mem_filter.mp hj).1

theorem setTransaction (d : Database) (session : Nat) (t : Transaction) :
    Frame d (d.setTransaction session t) session :=
  ⟨fun hj => transaction?_setTransaction_of_ne hj d t, fun _ => Iff.rfl, fun h => h, fun h => h⟩

/-- What is committed may become more, as long as a table stays. -/
theorem commit {t : Tables} (h : Frame d d' session)
    (ht : d'.committed.metrics.isSome → t.metrics.isSome) :
    Frame d { d' with committed := t } session :=
  ⟨h.transactions, h.locks, h.exclusive, fun hs => ht (h.table hs)⟩

end Frame

@[simp] theorem committed_close (d : Database) (i : Nat) : (d.close i).committed = d.committed := rfl

@[simp] theorem committed_spoil (d : Database) (i : Nat) :
    (d.spoil i).committed = d.committed := by
  unfold spoil
  split <;> rfl

theorem transaction?_spoil_self (d : Database) (i : Nat) :
    (d.spoil i).transaction? i =
      (d.transaction? i).map fun t => { t with spoilt := true } := by
  unfold spoil
  cases h : d.transaction? i with
  | none => exact h
  | some t => exact transaction?_setTransaction_self d i _

theorem Frame.spoil (d : Database) (session : Nat) : Frame d (d.spoil session) session := by
  unfold Database.spoil
  split
  · exact Frame.setTransaction d session _
  · exact Frame.refl d session

theorem Frame.change (d : Database) (session : Nat) (c : Change) :
    Frame d (d.change session c) session := by
  unfold Database.change
  split
  · exact Frame.setTransaction d session _
  · exact (Frame.refl d session).commit fun h => Tables.isSome_metrics_apply h c

/-! ## Statements -/

theorem frame_commit (d : Database) (session : Nat) : Frame d (d.commit session) session := by
  unfold commit
  split
  · split
    · exact Frame.close d session
    · exact (Frame.close d session).commit fun h => Tables.isSome_metrics_applyAll h _
  · exact Frame.refl d session

/-- A lock that is granted is nobody else's. -/
theorem Frame.lock {d : Database} {session : Nat} {id : LockId} (h : d.grants session id) :
    Frame d { d with locks := (id, session) :: d.locks } session := by
  have hfree : ∀ {j}, d.Holds j id → j = session := by
    intro j hj
    have := List.all_eq_true.mp h (id, j) hj
    simpa using this
  refine ⟨fun _ => rfl, fun {j id'} hj => ?_, fun he => ?_, fun h => h⟩
  · constructor
    · intro hm
      rcases List.mem_cons.mp hm with heq | hm
      · cases heq
        exact absurd rfl hj
      · exact hm
    · exact fun hm => List.mem_cons_of_mem _ hm
  · intro id' i j hi hj
    -- two holders of one lock, the new one or those before
    rcases List.mem_cons.mp hi with heq | hi
    · cases heq
      rcases List.mem_cons.mp hj with heq | hj
      · cases heq
        rfl
      · exact (hfree hj).symm
    · rcases List.mem_cons.mp hj with heq | hj
      · cases heq
        exact hfree hi
      · exact he hi hj

/-- What a statement can do to a database. -/
inductive Effect (d : Database) (session : Nat) : Statement → Database → Prop
  | begun : Effect d session .begin (d.setTransaction session .fresh)
  | committed : Effect d session .commit (d.commit session)
  | rolledBack : Effect d session .rollback (d.close session)
  | nothing (s : Statement) : Effect d session s d
  | spoilt (s : Statement) : Effect d session s (d.spoil session)
  | locked {id : LockId} (granted : d.grants session id) :
      Effect d session (.lock id) { d with locks := (id, session) :: d.locks }
  | changed {s : Statement} {c : Change} (put : c.isPut = s.isPut) :
      Effect d session s (d.change session c)

theorem effect_withMetrics {d d' : Database} {session : Nat} {s : Statement} {reply : Reply}
    {go : List (String × Row) → Option (Reply × Database)}
    (hgo : ∀ rows, go rows = some (reply, d') → Effect d session s d')
    (h : d.withMetrics session go = some (reply, d')) : Effect d session s d' := by
  unfold withMetrics at h
  split at h
  · cases h
    exact .spoilt s
  · exact hgo _ h

theorem effect_withVersions {d d' : Database} {session : Nat} {s : Statement} {reply : Reply}
    {go : List Nat → Option (Reply × Database)}
    (hgo : ∀ versions, go versions = some (reply, d') → Effect d session s d')
    (h : d.withVersions session go = some (reply, d')) : Effect d session s d' := by
  unfold withVersions at h
  split at h
  · cases h
    exact .spoilt s
  · exact hgo _ h

theorem effect_execute {d d' : Database} {session : Nat} {s : Statement} {reply : Reply}
    (h : d.execute session s = some (reply, d')) : Effect d session s d' := by
  unfold execute at h
  split at h
  · cases h; exact .begun
  · cases h; exact .committed
  · cases h; exact .rolledBack
  · split at h
    · -- the transaction is spoilt
      cases h; exact .nothing _
    · split at h
      · -- a lock, granted or waited for
        split at h
        next hg =>
          cases h
          split
          · exact .nothing _
          · exact .locked hg
        · cases h
      · -- the tables and their versions
        cases h; exact .changed rfl
      · cases h; exact .changed rfl
      · refine effect_withVersions (fun _ h => ?_) h
        cases h; exact .nothing _
      · refine effect_withVersions (fun _ h => ?_) h
        cases h; exact .changed rfl
      · -- rows that are looked up
        refine effect_withMetrics (fun _ h => ?_) h
        cases h; exact .nothing _
      · refine effect_withMetrics (fun _ h => ?_) h
        cases h; exact .nothing _
      · refine effect_withMetrics (fun _ h => ?_) h
        cases h; exact .nothing _
      · -- rows that are written, if the name is still free
        refine effect_withMetrics (fun _ h => ?_) h
        split at h
        · cases h; exact .spoilt _
        · cases h; exact .changed rfl
      · refine effect_withMetrics (fun _ h => ?_) h
        cases h; exact .changed rfl
      · cases h; exact .nothing _

/-- A statement touches nothing but its own session and what it commits. -/
theorem frame_execute {d d' : Database} {session : Nat} {s : Statement} {reply : Reply}
    (h : d.execute session s = some (reply, d')) : Frame d d' session := by
  cases effect_execute h with
  | begun => exact Frame.setTransaction d session _
  | committed => exact frame_commit d session
  | rolledBack => exact Frame.close d session
  | nothing => exact Frame.refl d session
  | spoilt => exact Frame.spoil d session
  | locked granted => exact Frame.lock granted
  | changed => exact Frame.change d session _

/-- The reply to a statement with what goes wrong with it, if anything does. -/
def reply? (d : Database) (session : Nat) (mishap : Option Mishap) (s : Statement) :
    Option (Reply × Database) :=
  match mishap with
  | some mishap => d.executeWith session s mishap
  | none => d.execute session s

/-- What can come of a statement: it is executed and its reply arrives; it is executed and the
connection is lost; or it fails, and is not executed. -/
theorem reply?_cases {d d' : Database} {session : Nat} {mishap : Option Mishap} {s : Statement}
    {reply : Reply} (h : d.reply? session mishap s = some (reply, d')) :
    (mishap = none ∧ d.execute session s = some (reply, d')) ∨
      (mishap = some (.loss true) ∧ reply = .failed .connection ∧
        ∃ r d₁, d.execute session s = some (r, d₁) ∧ d' = d₁.close session) ∨
      (mishap ≠ none ∧ mishap ≠ some (.loss true) ∧ (∃ f, reply = .failed f) ∧
        (d' = d.spoil session ∨ d' = d.close session)) := by
  match mishap, h with
  | none, h => exact Or.inl ⟨rfl, h⟩
  | some (.refusal code text), h =>
    cases h
    exact Or.inr (Or.inr ⟨by simp, by simp, ⟨_, rfl⟩, Or.inl rfl⟩)
  | some (.loss false), h =>
    cases h
    exact Or.inr (Or.inr ⟨by simp, by simp, ⟨_, rfl⟩, Or.inr rfl⟩)
  | some (.loss true), h =>
    obtain ⟨⟨r, d₁⟩, hr, heq⟩ := Option.map_eq_some_iff.mp h
    cases heq
    exact Or.inr (Or.inl ⟨rfl, rfl, r, d₁, hr, rfl⟩)

theorem frame_reply? {d d' : Database} {session : Nat} {mishap : Option Mishap} {s : Statement}
    {reply : Reply} (h : d.reply? session mishap s = some (reply, d')) : Frame d d' session := by
  rcases reply?_cases h with ⟨-, hx⟩ | ⟨-, -, r, d₁, hx, rfl⟩ | ⟨-, -, -, rfl | rfl⟩
  · exact frame_execute hx
  · exact (frame_execute hx).trans (Frame.close d₁ session)
  · exact Frame.spoil d session
  · exact Frame.close d session

/-- Whatever fails, failing leaves the committed rows alone. -/
theorem rows_of_failure {d d' : Database} {session : Nat}
    (h : d' = d.spoil session ∨ d' = d.close session) :
    d'.committed.rows = d.committed.rows := by
  rcases h with rfl | rfl
  · rw [committed_spoil]
  · rfl

/-! ## Transactions that write no metric -/

/-- Whether the open transaction of a session, if there is one, has written no metric. -/
def Clean (d : Database) (session : Nat) : Prop :=
  ∀ t, d.transaction? session = some t → ∀ c ∈ t.changes, c.isPut = false

theorem clean_of_none {d : Database} {session : Nat} (h : d.transaction? session = none) :
    d.Clean session := by
  intro t ht
  rw [h] at ht
  cases ht

theorem clean_close (d : Database) (session : Nat) : (d.close session).Clean session :=
  clean_of_none (transaction?_close_self d session)

theorem clean_setTransaction {d : Database} {session : Nat} {t : Transaction}
    (h : ∀ c ∈ t.changes, c.isPut = false) : (d.setTransaction session t).Clean session := by
  intro t' ht'
  rw [transaction?_setTransaction_self] at ht'
  cases ht'
  exact h

theorem Clean.spoil {d : Database} {session : Nat} (h : d.Clean session) :
    (d.spoil session).Clean session := by
  intro t ht
  rw [transaction?_spoil_self] at ht
  obtain ⟨t', ht', rfl⟩ := Option.map_eq_some_iff.mp ht
  exact h t' ht'

theorem Clean.change {d : Database} {session : Nat} (h : d.Clean session) {c : Change}
    (hc : c.isPut = false) : (d.change session c).Clean session := by
  unfold Database.change
  split
  next t ht =>
    refine clean_setTransaction fun c' hc' => ?_
    rcases List.mem_append.mp hc' with hc' | hc'
    · exact h t ht c' hc'
    · rw [List.mem_singleton.mp hc']
      exact hc
  next hnone =>
    -- outside a transaction a change is made at once
    exact clean_of_none hnone

/-- A change that writes no metric leaves the rows alone. -/
theorem rows_change (d : Database) (session : Nat) {c : Change} (hc : c.isPut = false) :
    (d.change session c).committed.rows = d.committed.rows := by
  unfold Database.change
  split
  · rfl
  · exact Tables.rows_apply hc

theorem Clean.commit {d : Database} {session : Nat} (h : d.Clean session) :
    (d.commit session).Clean session := by
  unfold Database.commit
  split
  · split
    · exact clean_close d session
    · exact clean_close d session
  · exact h

theorem rows_commit {d : Database} {session : Nat} (h : d.Clean session) :
    (d.commit session).committed.rows = d.committed.rows := by
  unfold Database.commit
  split
  next t ht =>
    split
    · rfl
    · exact Tables.rows_applyAll (h t ht)
  next => rfl

/-- A transaction that has written no metric still has not after a statement that writes
none. -/
theorem clean_execute {d d' : Database} {session : Nat} {s : Statement} {reply : Reply}
    (hs : s.isPut = false) (hclean : s = .begin ∨ d.Clean session)
    (h : d.execute session s = some (reply, d')) : d'.Clean session := by
  have hfresh : (d.setTransaction session .fresh).Clean session :=
    clean_setTransaction fun c hc => by cases hc
  rcases hclean with rfl | hclean
  · cases h
    exact hfresh
  · cases effect_execute h with
    | begun => exact hfresh
    | committed => exact hclean.commit
    | rolledBack => exact clean_close d session
    | nothing => exact hclean
    | spoilt => exact hclean.spoil
    | locked => exact hclean
    | changed put => exact hclean.change (put.trans hs)

/-- Nothing but a commit makes rows public that were written in a transaction. -/
theorem rows_execute {d d' : Database} {session : Nat} {s : Statement} {reply : Reply}
    (hs : s.isPut = false) (hcommit : s = .commit → d.Clean session)
    (h : d.execute session s = some (reply, d')) : d'.committed.rows = d.committed.rows := by
  cases effect_execute h with
  | begun => rfl
  | committed => exact rows_commit (hcommit rfl)
  | rolledBack => rfl
  | nothing => rfl
  | spoilt => rw [committed_spoil]
  | locked => rfl
  | changed put => exact rows_change d session (put.trans hs)

/-! ## Statements of a transaction that writes metrics -/

/-- A lock that is granted is held from then on. -/
theorem execute_lock {d d' : Database} {session : Nat} {id : LockId} {reply : Reply}
    (ht : d.transaction? session = some .fresh)
    (h : d.execute session (.lock id) = some (reply, d')) :
    reply = .done ∧ d'.Holds session id ∧ (∀ id', d.Holds session id' → d'.Holds session id') ∧
      d'.transaction? session = some .fresh ∧ d'.committed = d.committed := by
  unfold execute at h
  rw [ht] at h
  simp only [Transaction.fresh, Option.any_some, Bool.false_eq_true, if_false] at h
  split at h
  · cases h
    split
    next hmem => exact ⟨rfl, hmem, fun _ h => h, ht, rfl⟩
    next => exact ⟨rfl, List.mem_cons_self, fun _ h => List.mem_cons_of_mem _ h, ht, rfl⟩
  · cases h

/-- A look-up in a transaction that has written nothing yet finds what is committed. -/
theorem execute_findAll {d d' : Database} {session : Nat} {names : List String} {reply : Reply}
    (ht : d.transaction? session = some .fresh)
    (h : d.execute session (.findAll names) = some (reply, d')) :
    ((∃ f, reply = .failed f) ∧ d' = d.spoil session) ∨
      ∃ rows, d.committed.metrics = some rows ∧
        reply = .rows (rows.filter fun e => e.1 ∈ names) ∧ d' = d := by
  have hview : d.view session = d.committed := by
    unfold view
    rw [ht]
    rfl
  unfold execute at h
  rw [ht] at h
  simp only [Transaction.fresh, Option.any_some, Bool.false_eq_true, if_false] at h
  unfold withMetrics at h
  rw [hview] at h
  split at h
  · cases h
    exact Or.inl ⟨⟨_, rfl⟩, rfl⟩
  next rows hrows =>
    cases h
    exact Or.inr ⟨rows, hrows, rfl, rfl⟩

/-- A metric that is written is one more change of the transaction. -/
theorem execute_upsert {d d' : Database} {session : Nat} {m : Metric} {changes : List Change}
    {reply : Reply} (ht : d.transaction? session = some ⟨changes, false⟩)
    (h : d.execute session (.upsert m) = some (reply, d')) :
    ((∃ f, reply = .failed f) ∧ d' = d.spoil session) ∨
      (reply = .done ∧
        d' = d.setTransaction session ⟨changes ++ [Change.ofMetric m], false⟩) := by
  unfold execute at h
  rw [ht] at h
  simp only [Option.any_some, Bool.false_eq_true, if_false] at h
  unfold withMetrics at h
  split at h
  · cases h
    exact Or.inl ⟨⟨_, rfl⟩, rfl⟩
  · cases h
    refine Or.inr ⟨rfl, ?_⟩
    unfold change
    rw [ht]
    rfl

/-- A transaction that commits has all its changes made at once. -/
theorem execute_commit {d d' : Database} {session : Nat} {changes : List Change} {reply : Reply}
    (ht : d.transaction? session = some ⟨changes, false⟩)
    (h : d.execute session .commit = some (reply, d')) :
    reply = .done ∧ d'.committed = d.committed.applyAll changes := by
  have hcommit : d.commit session =
      { d.close session with committed := d.committed.applyAll changes } := by
    unfold commit
    rw [ht]
    rfl
  cases h
  exact ⟨rfl, by rw [hcommit]⟩

/-- Whether a statement makes rows of metrics public: the commit of a transaction that has
written some, executed whether or not its reply arrives. -/
def publishes (d : Database) (session : Nat) (mishap : Option Mishap) (s : Statement) : Bool :=
  s = .commit && (mishap = none || mishap = some (.loss true)) &&
    (d.transaction? session).any fun t => !t.spoilt && t.changes.any Change.isPut

theorem publishes_commit {d : Database} {session : Nat} {mishap : Option Mishap}
    {changes : List Change} (ht : d.transaction? session = some ⟨changes, false⟩)
    (hput : changes.any Change.isPut = true)
    (hmishap : mishap = none ∨ mishap = some (.loss true)) :
    d.publishes session mishap .commit = true := by
  unfold publishes
  rw [ht]
  rcases hmishap with rfl | rfl
  · simpa using hput
  · simpa using hput

/-- A transaction that has written no metric makes nothing public. -/
theorem publishes_of_clean {d : Database} {session : Nat} (h : d.Clean session)
    (mishap : Option Mishap) (s : Statement) : d.publishes session mishap s = false := by
  unfold publishes
  cases ht : d.transaction? session with
  | none => simp
  | some t =>
    have hany : t.changes.any Change.isPut = false := by
      rw [List.any_eq_false]
      intro c hc
      rw [h t ht c hc]
      simp
    simp [hany]

/-- A statement that waits makes nothing public. -/
theorem publishes_of_waiting {d : Database} {session : Nat} {mishap : Option Mishap}
    {s : Statement} (h : d.reply? session mishap s = none) :
    d.publishes session mishap s = false := by
  by_cases hs : s = .commit
  · -- a commit never waits
    subst hs
    rcases mishap with _ | ⟨_ | (_ | _)⟩ <;> cases h
  · simp [publishes, hs]

end Database

end Telemetry.Postgres
