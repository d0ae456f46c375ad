import Telemetry.Proofs.Postgres.Stage

/-!
# Which locks a merge holds

`Stage` says which locks a merge holds at the least. Here it is said which it holds at the most,
for as long as it may ask for another one (`Grip`): while the tables are being brought up to date
it asks for the lock of the migrations, having none yet, and gives that back before the merge
begins; after that it holds the locks of the names that it has come past, in the order of the
names, and no others. Once all of them are held, or something has failed, it asks for no lock any
more, so it does not matter what it holds. A step of the merge keeps this (`Grip.step`), and so
do the steps of others (`Grip.frame`).
-/

namespace Telemetry.Postgres

/-! ## Locks of a session -/

/-- Whether a statement is neither a lock nor the beginning or the end of a transaction. -/
def Statement.isInner : Statement → Bool
  | .begin | .commit | .rollback | .lock _ => false
  | _ => true

namespace Database

variable {d d' : Database} {i : Nat} {id : LockId} {s : Statement} {reply : Reply}

/-- A session gets a lock if nobody else holds it. -/
theorem grants_iff : d.grants i id = true ↔ ∀ j, d.Holds j id → j = i := by
  unfold grants
  rw [List.all_eq_true]
  constructor
  · intro h j hj
    simpa using h (id, j) hj
  · rintro h ⟨id', j⟩ hmem
    by_cases hid : id' = id
    · subst hid
      simp [h j hmem]
    · simp [hid]

theorem not_holds_close (d : Database) (i : Nat) (id : LockId) : ¬(d.close i).Holds i id := by
  intro h
  have hne := (List.mem_filter.mp h).2
  simp at hne

/-- A transaction that commits gives all its locks back. -/
theorem not_holds_commit (h : (d.transaction? i).isSome) (id : LockId) :
    ¬(d.commit i).Holds i id := by
  obtain ⟨t, ht⟩ := Option.isSome_iff_exists.mp h
  unfold commit
  rw [ht]
  by_cases hspoilt : t.spoilt
  · simp only [hspoilt, if_true]
    exact not_holds_close d i id
  · simp only [hspoilt]
    exact not_holds_close d i id

/-- Nothing ends a transaction but its end. -/
theorem isSome_transaction?_execute (hs : s.isInner ∨ ∃ id, s = .lock id)
    (hopen : (d.transaction? i).isSome) (h : d.execute i s = some (reply, d')) :
    (d'.transaction? i).isSome := by
  cases effect_execute h with
  | begun => rw [transaction?_setTransaction_self]; rfl
  | committed => rcases hs with hs | ⟨_, hs⟩ <;> cases hs
  | rolledBack => rcases hs with hs | ⟨_, hs⟩ <;> cases hs
  | nothing => exact hopen
  | spoilt => rw [transaction?_spoil_self, Option.isSome_map]; exact hopen
  | locked => exact hopen
  | changed =>
    obtain ⟨t, ht⟩ := Option.isSome_iff_exists.mp hopen
    unfold change
    rw [ht]
    dsimp only
    rw [transaction?_setTransaction_self]
    rfl

/-- A session that asks for a lock, and does not fail, has that lock and those that it had. -/
theorem holds_execute_lock (h : d.execute i (.lock id) = some (reply, d'))
    (hreply : ∀ f, reply ≠ .failed f) (id' : LockId) :
    d'.Holds i id' ↔ d.Holds i id' ∨ id' = id := by
  unfold execute at h
  dsimp only at h
  split at h
  · cases h
    exact absurd rfl (hreply _)
  · split at h
    · cases h
      split
      next hmem =>
        constructor
        · exact Or.inl
        · rintro (hold | rfl)
          · exact hold
          · exact hmem
      next =>
        show (id', i) ∈ (id, i) :: d.locks ↔ (id', i) ∈ d.locks ∨ id' = id
        simp [or_comm]
    · cases h

/-- A statement fails, or it is executed and nothing goes wrong with it. -/
theorem failed_or_executed {mishap : Option Mishap}
    (h : d.reply? i mishap s = some (reply, d')) :
    (∃ f, reply = .failed f) ∨
      (d.execute i s = some (reply, d') ∧ ∀ f, reply ≠ .failed f) := by
  by_cases hfailed : ∃ f, reply = .failed f
  · exact Or.inl hfailed
  · rw [not_exists] at hfailed
    rcases reply?_cases h with ⟨-, hx⟩ | ⟨-, hlost, -⟩ | ⟨-, -, hlost, -⟩
    · exact Or.inr ⟨hx, hfailed⟩
    · exact absurd hlost (hfailed _)
    · obtain ⟨f, hf⟩ := hlost
      exact absurd hf (hfailed f)

end Database

/-! ## Talks and their locks -/

namespace Talk

variable {α β : Type}

/-- Whether a talk asks for no lock any more. -/
def Lockless : Talk α → Prop
  | .done _ => True
  | .ask s next => (∀ id, s ≠ .lock id) ∧ ∀ r, (next r).Lockless

/-- Whether a talk asks for no lock any more, and ends with a fault. -/
def Failing : Talk (Except Fault α) → Prop
  | .done (.ok _) => False
  | .done (.error _) => True
  | .ask s next => (∀ id, s ≠ .lock id) ∧ ∀ r, (next r).Failing

/-- Where a talk stands that holds one lock at a time. -/
inductive Phase
  /-- no transaction of it is open -/
  | closed
  /-- its transaction has no lock yet -/
  | opened
  /-- its transaction may have its lock -/
  | locked

/-- How a statement moves a talk that takes no lock but that of the migrations, once in each
transaction. -/
inductive Phase.Moves : Phase → Statement → Phase → Prop
  | begin : Moves .closed .begin .opened
  | lock : Moves .opened (.lock .migrations) .locked
  | inner {s : Statement} (h : s.isInner) : Moves .locked s .locked
  | commit : Moves .locked .commit .closed
  | rollback : Moves .locked .rollback .closed

/-- Whether a talk goes from one phase to the next, and fails for good if a statement fails. -/
def Tidy : Phase → Talk (Except Fault α) → Prop
  | p, .done (.ok _) => p = .closed
  | _, .done (.error _) => True
  | p, .ask s next =>
    ∃ p', p.Moves s p' ∧ (∀ f, (next (.failed f)).Failing) ∧
      ∀ r, (∀ f, r ≠ .failed f) → (next r).Tidy p'

/-- A statement after which a tidy talk goes on in one way unless it failed. -/
theorem tidy_ask {p p' : Phase} {s : Statement} {onFailure : Failure → Talk (Except Fault α)}
    {rest : Talk (Except Fault α)} (hmoves : p.Moves s p') (hfailure : ∀ f, (onFailure f).Failing)
    (hrest : rest.Tidy p') :
    (ask s fun
      | .failed f => onFailure f
      | _ => rest).Tidy p := by
  refine ⟨p', hmoves, hfailure, fun r hr => ?_⟩
  cases r
  case failed f => exact absurd rfl (hr f)
  all_goals exact hrest

/-- What follows a talk that has failed is only its fault. -/
theorem Failing.lockless_bind {t : Talk (Except Fault α)} (h : t.Failing)
    {go : Except Fault α → Talk β} (hgo : ∀ f, (go (.error f)).Lockless) :
    (t.bind go).Lockless := by
  induction t with
  | done a =>
    cases a with
    | ok a => exact h.elim
    | error f => exact hgo f
  | ask s next ih => exact ⟨h.1, fun r => ih r (h.2 r)⟩

end Talk

open Talk (Phase)

namespace Migration

theorem failing_abandon (f : Failure) : (abandon f : Talk (Except Fault Unit)).Failing :=
  ⟨by simp, fun _ => trivial⟩

theorem tidy_abandon (f : Failure) : (abandon f : Talk (Except Fault Unit)).Tidy .locked :=
  ⟨.closed, .rollback, fun _ => trivial, fun _ _ => trivial⟩

theorem tidy_applyAll {ms : List (Nat × Statement)} (hms : ∀ m ∈ ms, m.2.isInner) :
    (applyAll ms).Tidy .locked := by
  induction ms with
  | nil => exact Talk.tidy_ask .commit failing_abandon rfl
  | cons m ms ih =>
    obtain ⟨version, statement⟩ := m
    refine Talk.tidy_ask (.inner (hms (version, statement) List.mem_cons_self)) failing_abandon ?_
    refine Talk.tidy_ask (.inner rfl) failing_abandon ?_
    exact ih fun m hm => hms m (List.mem_cons_of_mem _ hm)

theorem isInner_of_mem_above {latest : Nat} {m : Nat × Statement} (hm : m ∈ above latest) :
    m.2.isInner := by
  have hm : m ∈ migrations := List.mem_of_mem_filter hm
  rw [List.mem_singleton.mp hm]
  rfl

/-- Bringing the tables up to date takes one lock, and gives it back. -/
theorem tidy_migrate : migrate.Tidy .closed := by
  refine Talk.tidy_ask .begin (fun _ => trivial) ?_
  refine Talk.tidy_ask .lock failing_abandon ?_
  refine Talk.tidy_ask (.inner rfl) failing_abandon ?_
  refine ⟨.locked, .inner rfl, failing_abandon, fun r hr => ?_⟩
  cases r
  case failed f => exact absurd rfl (hr f)
  case version latest => exact tidy_applyAll fun m hm => isInner_of_mem_above hm
  all_goals exact tidy_abandon _

end Migration

namespace Merge

variable {batch : List Metric}

theorem lockless_abandon {α : Type} (f : Fault) : (abandon f : Talk (Except Fault α)).Lockless :=
  ⟨by simp, fun _ => trivial⟩

theorem lockless_write {α : Type} (result : α) (ms : List Metric) :
    (write result ms).Lockless := by
  induction ms with
  | nil =>
    refine ⟨by simp, fun r => ?_⟩
    cases r
    case failed f => exact lockless_abandon _
    all_goals trivial
  | cons m ms ih =>
    refine ⟨by simp, fun r => ?_⟩
    cases r
    case failed f => exact lockless_abandon _
    all_goals exact ih

/-- Once all its locks are held a merge asks for no other. -/
theorem lockless_readAndWrite (batch : List Metric) : (readAndWrite batch).Lockless := by
  refine ⟨by simp, fun r => ?_⟩
  cases r
  case rows rows =>
    dsimp only
    split
    · exact lockless_abandon _
    · exact lockless_write _ _
  all_goals exact lockless_abandon _

end Merge

/-! ## The locks of a merge -/

/-- What is true of the session of a talk in some phase. -/
def Talk.Phase.Fits (d : Database) (session : Nat) : Phase → Prop
  | .closed => ∀ id, ¬d.Holds session id
  | .opened => (d.transaction? session).isSome ∧ ∀ id, ¬d.Holds session id
  | .locked => (d.transaction? session).isSome

theorem Talk.Phase.Fits.step {d d' : Database} {i : Nat} {p p' : Phase} {s : Statement}
    {reply : Reply} (h : p.Fits d i) (hmoves : p.Moves s p')
    (hx : d.execute i s = some (reply, d')) : p'.Fits d' i := by
  cases hmoves with
  | begin =>
    cases hx
    exact ⟨by rw [Database.transaction?_setTransaction_self]; rfl, h⟩
  | lock => exact Database.isSome_transaction?_execute (Or.inr ⟨_, rfl⟩) h.1 hx
  | inner hs => exact Database.isSome_transaction?_execute (Or.inl hs) h hx
  | commit =>
    cases hx
    exact Database.not_holds_commit h
  | rollback =>
    cases hx
    exact Database.not_holds_close d i

/-- What is true of the locks of a session when a call to merge a batch has come to some point
of its talk. -/
inductive Grip (d : Database) (session : Nat) (batch : List Metric) :
    Talk (Except Fault (List Metric)) → Prop
  /-- the tables are being brought up to date, or the merge is about to begin -/
  | preparing {t : Talk (Except Fault Unit)} {p : Phase} (tidy : t.Tidy p)
      (fits : p.Fits d session) : Grip d session batch (t.bind (MergeCall.proceed batch))
  /-- the locks of the names up to here are held, and no others -/
  | locking (taken : List String) {rest : List String}
      (names : Merge.lockOrder batch = taken ++ rest)
      (held : ∀ id, d.Holds session id ↔ ∃ name ∈ taken, nameLock name = id) :
      Grip d session batch (Merge.lockAll batch rest)
  /-- it asks for no lock any more -/
  | past {talk : Talk (Except Fault (List Metric))} (lockless : talk.Lockless) :
      Grip d session batch talk

section Grip

variable {d d' : Database} {i : Nat} {batch : List Metric} {mishap : Option Database.Mishap}
  {s : Statement} {next : Reply → Talk (Except Fault (List Metric))} {reply : Reply}

/-- The merge begins: it has a transaction, and no lock yet. -/
theorem Grip.step_begin (hnone : ∀ id, ¬d.Holds i id)
    (htalk : Talk.ask s next = Merge.merge batch)
    (h : d.reply? i mishap s = some (reply, d')) : Grip d' i batch (next reply) := by
  cases htalk
  rcases Database.failed_or_executed h with ⟨f, rfl⟩ | ⟨hx, -⟩
  · exact .past trivial
  · cases hx
    refine .locking [] rfl fun id => ?_
    constructor
    · exact fun hid => absurd hid (hnone id)
    · rintro ⟨name, hname, -⟩
      cases hname

theorem Grip.step_preparing {go : Reply → Talk (Except Fault Unit)} {p : Phase}
    (tidy : (Talk.ask s go).Tidy p) (fits : p.Fits d i)
    (h : d.reply? i mishap s = some (reply, d')) :
    Grip d' i batch ((go reply).bind (MergeCall.proceed batch)) := by
  obtain ⟨p', hmoves, hfailure, hreply⟩ := tidy
  rcases Database.failed_or_executed h with ⟨f, rfl⟩ | ⟨hx, hok⟩
  · exact .past ((hfailure f).lockless_bind fun _ => trivial)
  · exact .preparing (hreply reply hok) (fits.step hmoves hx)

theorem Grip.step_lock {taken rest : List String} {name : String}
    (names : Merge.lockOrder batch = taken ++ name :: rest)
    (held : ∀ id, d.Holds i id ↔ ∃ name ∈ taken, nameLock name = id)
    (htalk : Talk.ask s next = Merge.lockAll batch (name :: rest))
    (h : d.reply? i mishap s = some (reply, d')) : Grip d' i batch (next reply) := by
  cases htalk
  rcases Database.failed_or_executed h with ⟨f, rfl⟩ | ⟨hx, hok⟩
  · exact .past (Merge.lockless_abandon _)
  · have hnext : Grip d' i batch (Merge.lockAll batch rest) := by
      refine .locking (taken ++ [name]) (by rw [names, List.append_assoc]; rfl) fun id => ?_
      rw [Database.holds_execute_lock hx hok, held]
      simp only [List.mem_append, List.mem_singleton]
      constructor
      · rintro (⟨name', hname', rfl⟩ | rfl)
        · exact ⟨name', Or.inl hname', rfl⟩
        · exact ⟨name, Or.inr rfl, rfl⟩
      · rintro ⟨name', hname' | rfl, rfl⟩
        · exact Or.inl ⟨name', hname', rfl⟩
        · exact Or.inr rfl
    cases reply
    case failed f => exact absurd rfl (hok f)
    all_goals exact hnext

/-- **Every step of a merge leaves it with the locks that it has come past.** -/
theorem Grip.step (hgrip : Grip d i batch (.ask s next))
    (h : d.reply? i mishap s = some (reply, d')) : Grip d' i batch (next reply) := by
  generalize htalk : Talk.ask s next = talk at hgrip
  cases hgrip with
  | @preparing t p tidy fits =>
    match t, htalk with
    | .done (.ok ()), htalk =>
      -- nothing is left of the preparation
      cases tidy
      exact Grip.step_begin fits htalk h
    | .done (.error f), htalk => cases htalk
    | .ask s' go, htalk => cases htalk; exact Grip.step_preparing tidy fits h
  | @locking taken rest names held =>
    match rest, names, htalk with
    | name :: rest, names, htalk => exact Grip.step_lock names held htalk h
    | [], names, htalk =>
      cases htalk
      exact .past ((Merge.lockless_readAndWrite batch).2 reply)
  | past lockless =>
    cases htalk
    exact .past (lockless.2 reply)

/-- Steps of another session take no lock away, and give none. -/
theorem Grip.frame {talk : Talk (Except Fault (List Metric))} {other : Nat}
    (hgrip : Grip d i batch talk) (hother : i ≠ other) (hframe : Database.Frame d d' other) :
    Grip d' i batch talk := by
  have hholds : ∀ {id}, d'.Holds i id ↔ d.Holds i id := hframe.locks hother
  cases hgrip with
  | @preparing t p tidy fits =>
    refine .preparing tidy ?_
    cases p with
    | closed => exact fun id hid => fits id (hholds.mp hid)
    | opened =>
      refine ⟨?_, fun id hid => fits.2 id (hholds.mp hid)⟩
      rw [hframe.transactions hother]
      exact fits.1
    | locked =>
      show (d'.transaction? i).isSome
      rw [hframe.transactions hother]
      exact fits
  | locking taken names held => exact .locking taken names fun id => hholds.trans (held id)
  | past lockless => exact .past lockless

/-- A call that asks the database does so once the tables are up to date. -/
theorem MergeCall.talk_eq {call : MergeCall}
    (hcall : withoutDatabase (.mergeMany call.batch) = none) :
    call.talk = (prepare call.ready).bind (proceed call.batch) := by
  unfold talk
  rw [hcall]

/-- When the call is made it has no lock. -/
theorem Grip.start {call : MergeCall} (hcall : withoutDatabase (.mergeMany call.batch) = none)
    (hnone : ∀ id, ¬d.Holds i id) : Grip d i call.batch call.talk := by
  have htidy : (MergeCall.prepare call.ready).Tidy .closed := by
    unfold MergeCall.prepare
    split
    · rfl
    · exact Migration.tidy_migrate
  rw [MergeCall.talk_eq hcall]
  exact .preparing htidy hnone

/-- A merge that asks for a lock has none, and asks for that of the migrations; or it has those
of the names before the one whose lock it asks for. -/
theorem Grip.of_lock {id : LockId} (hgrip : Grip d i batch (.ask (.lock id) next)) :
    (id = .migrations ∧ ∀ id, ¬d.Holds i id) ∨
      ∃ taken name rest, Merge.lockOrder batch = taken ++ name :: rest ∧ id = nameLock name ∧
        ∀ id, d.Holds i id ↔ ∃ name ∈ taken, nameLock name = id := by
  generalize htalk : Talk.ask (.lock id) next = talk at hgrip
  cases hgrip with
  | @preparing t p tidy fits =>
    match t, htalk with
    | .done (.ok ()), htalk => cases htalk
    | .done (.error f), htalk => cases htalk
    | .ask s' go, htalk =>
      cases htalk
      obtain ⟨p', hmoves, -, -⟩ := tidy
      cases hmoves with
      | lock => exact Or.inl ⟨rfl, fits.2⟩
      | inner h => cases h
  | @locking taken rest names held =>
    match rest, names, htalk with
    | name :: rest, names, htalk =>
      cases htalk
      exact Or.inr ⟨taken, name, rest, names, rfl, held⟩
    | [], names, htalk => cases htalk
  | past lockless =>
    cases htalk
    exact absurd rfl (lockless.1 id)

end Grip

end Telemetry.Postgres
