import Telemetry.Proofs.Postgres.Quiet
import Telemetry.Proofs.Postgres.Rows

/-!
# How far a merge has come

A merge in a database is a talk of many statements, and between any two of them others may
do theirs. `Stage` says what is true of the database at each point of the talk: which locks
are held, what the open transaction holds so far, and, once the rows were read, that the
committed rows of the batch still are the ones that were read. A step of the talk itself
either goes on to another stage and leaves the committed rows alone (`Kept`), or commits, and
then the rows are those before with the whole merge written over them (`Published`); that is
`Stage.step`. Steps of others do not disturb a stage (`Stage.frame`), since no one else
writes names whose locks are held.
-/

namespace Telemetry.Postgres

/-- A call to merge a batch. -/
structure MergeCall where
  batch : List Metric
  /-- whether the tables are known to be there when the call begins -/
  ready : Bool

namespace MergeCall

/-- What follows once the tables were brought up to date, or were not. -/
def proceed (batch : List Metric) : Except Fault Unit → Talk (Except Fault (List Metric))
  | .error f => .done (.error f)
  | .ok () => Merge.merge batch

/-- The talk before that. -/
def prepare (ready : Bool) : Talk (Except Fault Unit) :=
  if ready then .done (.ok ()) else Migration.migrate

/-- The call as one talk. -/
def talk (c : MergeCall) : Talk (Except Fault (List Metric)) :=
  match withoutDatabase (.mergeMany c.batch) with
  | some reply => .done reply
  | none => (prepare c.ready).bind (proceed c.batch)

/-- A call asks the database only to merge a batch of valid metrics that is not empty. -/
theorem withoutDatabase_eq_none_iff {batch : List Metric} :
    withoutDatabase (.mergeMany batch) = none ↔ validateAll batch = .ok () ∧ batch ≠ [] := by
  simp only [withoutDatabase]
  cases validateAll batch with
  | error f => simp
  | ok u => cases batch <;> simp

/-- Without the database a call is refused, or has nothing to do. -/
theorem of_withoutDatabase {batch : List Metric} {reply : Except Fault (List Metric)}
    (h : withoutDatabase (.mergeMany batch) = some reply) :
    (∃ f, reply = .error f) ∨ (batch = [] ∧ reply = .ok []) := by
  simp only [withoutDatabase] at h
  cases hvalid : validateAll batch with
  | error f =>
    rw [hvalid] at h
    cases h
    exact Or.inl ⟨f, rfl⟩
  | ok u =>
    rw [hvalid] at h
    cases batch with
    | nil =>
      cases h
      exact Or.inr ⟨rfl, rfl⟩
    | cons m batch => cases h

end MergeCall

/-! ## Stages -/

/-- The lock of a name. -/
def nameLock (name : String) : LockId := .name (lockKey name)

/-- What is true of the database when a call to merge a batch has come to some point of its
talk, the last statement of which was `last`. -/
inductive Stage (d : Database) (session : Nat) (batch : List Metric) (last : Option Statement) :
    Talk (Except Fault (List Metric)) → Prop
  /-- the tables are being brought up to date, in a transaction that has written no metric
  once it is begun -/
  | preparing {t : Talk (Except Fault Unit)} {opened : Bool} (quiet : t.Quiet opened)
      (clean : opened = true → d.Clean session ∧ ¬last.any Statement.isPut) :
      Stage d session batch last (t.bind (MergeCall.proceed batch))
  /-- the locks of the names up to here are held, and nothing else has happened -/
  | locking (taken : List String) {rest : List String} (names : Merge.lockOrder batch = taken ++ rest)
      (fresh : d.transaction? session = some .fresh)
      (held : ∀ name ∈ taken, d.Holds session (nameLock name)) :
      Stage d session batch last (Merge.lockAll batch rest)
  /-- some results are written, and what is committed still is what they were made from -/
  | writing (done : List Metric) {merged rest : List Metric} (results : merged = done ++ rest)
      (written : d.transaction? session = some ⟨done.map Change.ofMetric, false⟩)
      (held : ∀ name ∈ uniqueNames batch, d.Holds session (nameLock name))
      (read : ∃ rows, d.committed.metrics = some rows ∧
        Merge.fold batch (rows.filter fun e => e.1 ∈ uniqueNames batch) = .ok merged)
      (said : done ≠ [] → last.any Statement.isPut) :
      Stage d session batch last (Merge.write merged rest)
  /-- it was given up -/
  | abandoned (f : Fault) : Stage d session batch last (Merge.abandon f)
  | failed (f : Fault) : Stage d session batch last (.done (.error f))

/-- Whether a statement commits what was written just before it. It is executed even where
the reply to it is lost. -/
def Statement.isMerge (mishap : Option Database.Mishap) (last : Option Statement)
    (s : Statement) : Bool :=
  s = .commit && (mishap = none || mishap = some (.loss true)) && last.any isPut

theorem Statement.isMerge_commit {mishap : Option Database.Mishap} {last : Option Statement}
    (hlast : last.any isPut = true) (hmishap : mishap = none ∨ mishap = some (.loss true)) :
    isMerge mishap last .commit = true := by
  unfold isMerge
  rw [hlast]
  rcases hmishap with rfl | rfl
  · rfl
  · rfl

/-- A step that goes on to another stage: no row that is committed has changed. -/
structure Kept (d d' : Database) (session : Nat) (batch : List Metric)
    (mishap : Option Database.Mishap) (last : Option Statement) (s : Statement)
    (talk : Talk (Except Fault (List Metric))) : Prop where
  stage : Stage d' session batch (some s) talk
  rows : d'.committed.rows = d.committed.rows
  silent : d.publishes session mishap s = false
  uncounted : s.isMerge mishap last = false

/-- The fault of a commit whose reply did not arrive. -/
def lostCommit : Fault := Failure.connection.fault "트랜잭션 커밋"

/-- A step that commits a merge: it was made from the rows that are committed, and is written
over them as a whole. If the reply to the commit arrives, so do the results. -/
structure Published (d d' : Database) (session : Nat) (batch : List Metric)
    (mishap : Option Database.Mishap) (last : Option Statement) (s : Statement)
    (talk : Talk (Except Fault (List Metric))) (merged : List Metric) : Prop where
  fold : Merge.fold batch (d.committed.rows.filter fun e => e.1 ∈ uniqueNames batch) = .ok merged
  rows : d'.committed.rows = putAll d.committed.rows merged
  held : ∀ name ∈ uniqueNames batch, d.Holds session (nameLock name)
  visible : d.publishes session mishap s = true
  counted : s.isMerge mishap last = true
  outcome : (mishap = none ∧ talk = .done (.ok merged)) ∨
    (mishap = some (.loss true) ∧ talk = Merge.abandon lostCommit)

theorem Kept.of_ne_commit {d d' : Database} {session : Nat} {batch : List Metric}
    {mishap : Option Database.Mishap} {last : Option Statement} {s : Statement}
    {talk : Talk (Except Fault (List Metric))} (hs : s ≠ .commit)
    (stage : Stage d' session batch (some s) talk)
    (rows : d'.committed.rows = d.committed.rows) :
    Kept d d' session batch mishap last s talk :=
  ⟨stage, rows, by simp [Database.publishes, hs], by simp [Statement.isMerge, hs]⟩

/-! ## Steps of the talk -/

section Steps

variable {d d' : Database} {session : Nat} {batch : List Metric}
  {mishap : Option Database.Mishap} {last : Option Statement} {s : Statement}
  {next : Reply → Talk (Except Fault (List Metric))} {reply : Reply}

/-- A statement that does not commit: it is enough to know what it comes to when it is executed,
and where the talk goes on when it fails. -/
theorem Kept.of_execute (h : d.reply? session mishap s = some (reply, d')) (hs : s ≠ .commit)
    (hfailed : ∀ f d', Stage d' session batch (some s) (next (.failed f)))
    (hexecute : ∀ {r d₁}, d.execute session s = some (r, d₁) →
      Stage d₁ session batch (some s) (next r) ∧ d₁.committed.rows = d.committed.rows) :
    Kept d d' session batch mishap last s (next reply) := by
  rcases Database.reply?_cases h with
    ⟨-, hx⟩ | ⟨-, rfl, r, d₁, hx, rfl⟩ | ⟨-, -, ⟨f, rfl⟩, hfail⟩
  · obtain ⟨hstage, hrows⟩ := hexecute hx
    exact Kept.of_ne_commit hs hstage hrows
  · -- executed, but the connection is lost
    obtain ⟨-, hrows⟩ := hexecute hx
    exact Kept.of_ne_commit hs (hfailed _ _) (by rw [Database.committed_close, hrows])
  · -- not executed
    exact Kept.of_ne_commit hs (hfailed f _) (Database.rows_of_failure hfail)

theorem step_begin (htalk : Talk.ask s next = Merge.merge batch)
    (h : d.reply? session mishap s = some (reply, d')) :
    Kept d d' session batch mishap last s (next reply) := by
  cases htalk
  apply Kept.of_execute h (by simp)
  · exact fun _ _ => .failed _
  · intro r d₁ hx
    cases hx
    refine ⟨.locking [] rfl (Database.transaction?_setTransaction_self d session _) ?_, rfl⟩
    intro name hname
    cases hname

/-- Bringing the tables up to date goes on. -/
theorem step_quiet {go : Reply → Talk (Except Fault Unit)} {opened : Bool}
    (quiet : (Talk.ask s go).Quiet opened)
    (clean : opened = true → d.Clean session ∧ ¬last.any Statement.isPut)
    (h : d.reply? session mishap s = some (reply, d')) :
    Kept d d' session batch mishap last s ((go reply).bind (MergeCall.proceed batch)) := by
  have hsaid : ¬(some s).any Statement.isPut := by simp [quiet.1]
  obtain ⟨hrows, opened', quiet', clean'⟩ :=
    Database.quiet_step quiet (fun hopened => (clean hopened).1) h
  refine ⟨.preparing quiet' fun hopened => ⟨clean' hopened, hsaid⟩, hrows, ?_, ?_⟩
  · by_cases hs : s = .commit
    · exact Database.publishes_of_clean (clean (quiet.2.1 hs)).1 mishap s
    · simp [Database.publishes, hs]
  · by_cases hs : s = .commit
    · have hlast := (clean (quiet.2.1 hs)).2
      rw [Bool.not_eq_true] at hlast
      simp [Statement.isMerge, hlast]
    · simp [Statement.isMerge, hs]

theorem step_lock {taken rest : List String} {name : String}
    (names : Merge.lockOrder batch = taken ++ name :: rest)
    (fresh : d.transaction? session = some .fresh)
    (held : ∀ name ∈ taken, d.Holds session (nameLock name))
    (htalk : Talk.ask s next = Merge.lockAll batch (name :: rest))
    (h : d.reply? session mishap s = some (reply, d')) :
    Kept d d' session batch mishap last s (next reply) := by
  cases htalk
  apply Kept.of_execute h (by simp)
  · exact fun _ _ => .abandoned _
  · intro r d₁ hx
    obtain ⟨rfl, hnew, hold, hfresh, hcommitted⟩ := Database.execute_lock fresh hx
    refine ⟨.locking (taken ++ [name]) ?_ hfresh ?_, by rw [hcommitted]⟩
    · rw [names, List.append_assoc]
      rfl
    · intro name' hname'
      rcases List.mem_append.mp hname' with hname' | hname'
      · exact hold _ (held name' hname')
      · rw [List.mem_singleton.mp hname']
        exact hnew

/-- Once all locks are held the rows of the batch are read; what is made from them is right
for as long as they stay what they are. -/
theorem step_read {taken : List String} (names : Merge.lockOrder batch = taken)
    (fresh : d.transaction? session = some .fresh)
    (held : ∀ name ∈ taken, d.Holds session (nameLock name))
    (htalk : Talk.ask s next = Merge.readAndWrite batch)
    (h : d.reply? session mishap s = some (reply, d')) :
    Kept d d' session batch mishap last s (next reply) := by
  cases htalk
  have hheld : ∀ name ∈ uniqueNames batch, d.Holds session (nameLock name) := by
    intro name hname
    refine held name ?_
    rw [← names]
    exact List.mem_mergeSort.mpr hname
  apply Kept.of_execute h (by simp)
  · exact fun _ _ => .abandoned _
  · intro r d₁ hx
    rcases Database.execute_findAll fresh hx with ⟨⟨f, rfl⟩, rfl⟩ | ⟨rows, hrows, rfl, rfl⟩
    · -- there is no table
      exact ⟨.abandoned _, by rw [Database.committed_spoil]⟩
    · refine ⟨?_, rfl⟩
      dsimp only
      split
      next => exact .abandoned _
      next merged hmerged =>
        exact .writing [] rfl fresh hheld ⟨rows, hrows, hmerged⟩ fun h => absurd rfl h

theorem step_write {merged done rest : List Metric} {m : Metric}
    (results : merged = done ++ m :: rest)
    (written : d.transaction? session = some ⟨done.map Change.ofMetric, false⟩)
    (held : ∀ name ∈ uniqueNames batch, d.Holds session (nameLock name))
    (read : ∃ rows, d.committed.metrics = some rows ∧
      Merge.fold batch (rows.filter fun e => e.1 ∈ uniqueNames batch) = .ok merged)
    (htalk : Talk.ask s next = Merge.write merged (m :: rest))
    (h : d.reply? session mishap s = some (reply, d')) :
    Kept d d' session batch mishap last s (next reply) := by
  cases htalk
  apply Kept.of_execute h (by simp)
  · exact fun _ _ => .abandoned _
  · intro r d₁ hx
    rcases Database.execute_upsert written hx with ⟨⟨f, rfl⟩, rfl⟩ | ⟨rfl, rfl⟩
    · exact ⟨.abandoned _, by rw [Database.committed_spoil]⟩
    · refine ⟨.writing (done ++ [m]) ?_ ?_ held read fun _ => rfl, rfl⟩
      · rw [results, List.append_assoc]
        rfl
      · rw [Database.transaction?_setTransaction_self, List.map_append]
        rfl

/-- The commit either publishes the whole merge, told or untold, or nothing of it. -/
theorem step_commit {merged : List Metric} (hbatch : batch ≠ [])
    (written : d.transaction? session = some ⟨merged.map Change.ofMetric, false⟩)
    (held : ∀ name ∈ uniqueNames batch, d.Holds session (nameLock name))
    (read : ∃ rows, d.committed.metrics = some rows ∧
      Merge.fold batch (rows.filter fun e => e.1 ∈ uniqueNames batch) = .ok merged)
    (said : merged ≠ [] → last.any Statement.isPut)
    (htalk : Talk.ask s next = Merge.write merged [])
    (h : d.reply? session mishap s = some (reply, d')) :
    Kept d d' session batch mishap last s (next reply) ∨
      Published d d' session batch mishap last s (next reply) merged := by
  cases htalk
  obtain ⟨rows, hrows, hfold⟩ := read
  have hne : merged ≠ [] := Merge.ne_nil_of_fold hbatch hfold
  have hputs : (merged.map Change.ofMetric).any Change.isPut = true := by
    obtain ⟨m, ms, rfl⟩ := List.exists_cons_of_ne_nil hne
    rfl
  have hread : Merge.fold batch (d.committed.rows.filter fun e => e.1 ∈ uniqueNames batch) =
      .ok merged := by
    unfold Tables.rows
    rw [hrows]
    exact hfold
  have hexecute : ∀ {r d₁}, d.execute session .commit = some (r, d₁) →
      r = .done ∧ d₁.committed.rows = putAll d.committed.rows merged := by
    intro r d₁ hx
    obtain ⟨hr, hcommitted⟩ := Database.execute_commit written hx
    refine ⟨hr, ?_⟩
    rw [hcommitted]
    exact Tables.rows_applyAll_ofMetric (by rw [hrows]; rfl) merged
  rcases Database.reply?_cases h with
    ⟨rfl, hx⟩ | ⟨rfl, rfl, r, d₁, hx, rfl⟩ | ⟨hnone, hloss, ⟨f, rfl⟩, hfail⟩
  · obtain ⟨rfl, hput⟩ := hexecute hx
    exact Or.inr ⟨hread, hput, held, Database.publishes_commit written hputs (Or.inl rfl),
      Statement.isMerge_commit (said hne) (Or.inl rfl), Or.inl ⟨rfl, rfl⟩⟩
  · -- committed, but the client is not told
    obtain ⟨-, hput⟩ := hexecute hx
    exact Or.inr ⟨hread, hput, held, Database.publishes_commit written hputs (Or.inr rfl),
      Statement.isMerge_commit (said hne) (Or.inr rfl), Or.inr ⟨rfl, rfl⟩⟩
  · -- not executed, so nothing of the merge is there
    refine Or.inl ⟨.abandoned _, Database.rows_of_failure hfail, ?_, ?_⟩
    · simp [Database.publishes, hnone, hloss]
    · simp [Statement.isMerge, hnone, hloss]

theorem step_rollback {f : Fault} (htalk : Talk.ask s next = Merge.abandon f)
    (h : d.reply? session mishap s = some (reply, d')) :
    Kept d d' session batch mishap last s (next reply) := by
  cases htalk
  apply Kept.of_execute h (by simp)
  · exact fun _ _ => .failed _
  · intro r d₁ hx
    cases hx
    exact ⟨.failed _, rfl⟩

/-- **Every step of a merge keeps the committed rows, or commits the merge as a whole.** -/
theorem Stage.step (hstage : Stage d session batch last (.ask s next)) (hbatch : batch ≠ [])
    (h : d.reply? session mishap s = some (reply, d')) :
    Kept d d' session batch mishap last s (next reply) ∨
      ∃ merged, Published d d' session batch mishap last s (next reply) merged := by
  generalize htalk : Talk.ask s next = talk at hstage
  cases hstage with
  | @preparing t opened quiet clean =>
    -- what is left of the preparation decides whether the merge begins already
    match t, htalk with
    | .done (.ok ()), htalk => exact Or.inl (step_begin htalk h)
    | .done (.error f), htalk => cases htalk
    | .ask s' go, htalk => cases htalk; exact Or.inl (step_quiet quiet clean h)
  | @locking taken rest names fresh held =>
    match rest, names, htalk with
    | name :: rest, names, htalk => exact Or.inl (step_lock names fresh held htalk h)
    | [], names, htalk =>
      -- the last lock is held
      exact Or.inl (step_read (names.trans (List.append_nil taken)) fresh held htalk h)
  | @writing done merged rest results written held read said =>
    match rest, results, htalk with
    | m :: rest, results, htalk => exact Or.inl (step_write results written held read htalk h)
    | [], results, htalk =>
      -- all results are written
      rw [List.append_nil] at results
      subst results
      exact (step_commit hbatch written held read said htalk h).imp_right fun hp => ⟨merged, hp⟩
  | abandoned f => exact Or.inl (step_rollback htalk h)
  | failed f => cases htalk

/-- A statement that did not come through ends the talk, or brings it closer to its end. -/
theorem Stage.refuse (hstage : Stage d session batch last (.ask s next)) (f : Failure) :
    Stage d session batch last (next (.failed f)) := by
  generalize htalk : Talk.ask s next = talk at hstage
  cases hstage with
  | @preparing t opened quiet clean =>
    match t, htalk with
    | .done (.ok ()), htalk => cases htalk; exact .failed _
    | .done (.error f), htalk => cases htalk
    | .ask s' next', htalk =>
      cases htalk
      exact .preparing (quiet.2.2.1 f) clean
  | @locking taken rest names fresh held =>
    match rest, htalk with
    | name :: rest, htalk => cases htalk; exact .abandoned _
    | [], htalk => cases htalk; exact .abandoned _
  | @writing done merged rest results written held read said =>
    match rest, htalk with
    | m :: rest, htalk => cases htalk; exact .abandoned _
    | [], htalk => cases htalk; exact .abandoned _
  | abandoned f => cases htalk; exact .failed _
  | failed f => cases htalk

/-- A merge that has come to its end without committing has failed. -/
theorem Stage.error_of_done {result : Except Fault (List Metric)}
    (hstage : Stage d session batch last (.done result)) : ∃ f, result = .error f := by
  generalize htalk : Talk.done result = talk at hstage
  cases hstage with
  | @preparing t opened quiet clean =>
    match t, htalk with
    | .done (.ok ()), htalk => cases htalk
    | .done (.error f), htalk => cases htalk; exact ⟨f, rfl⟩
    | .ask s' next', htalk => cases htalk
  | @locking taken rest names fresh held => cases rest <;> cases htalk
  | @writing done merged rest results written held read said => cases rest <;> cases htalk
  | abandoned f => cases htalk
  | failed f => cases htalk; exact ⟨f, rfl⟩

/-- Where a merge stands when the call is made. -/
theorem Stage.start {call : MergeCall} (hcall : withoutDatabase (.mergeMany call.batch) = none) :
    Stage d session call.batch last call.talk := by
  have hquiet : (MergeCall.prepare call.ready).Quiet false := by
    unfold MergeCall.prepare
    split
    · trivial
    · exact Migration.quiet_migrate
  have htalk : call.talk = (MergeCall.prepare call.ready).bind (MergeCall.proceed call.batch) := by
    unfold MergeCall.talk
    rw [hcall]
  rw [htalk]
  exact .preparing hquiet nofun

/-- Steps of another session do not disturb a stage, if they leave alone the rows of names
whose locks it holds. -/
theorem Stage.frame {talk : Talk (Except Fault (List Metric))} {other : Nat}
    (hstage : Stage d session batch last talk) (hother : session ≠ other)
    (hframe : Database.Frame d d' other)
    (hrows : (∀ name ∈ uniqueNames batch, d.Holds session (nameLock name)) →
      (d'.committed.rows.filter fun e => e.1 ∈ uniqueNames batch) =
        d.committed.rows.filter fun e => e.1 ∈ uniqueNames batch) :
    Stage d' session batch last talk := by
  have hholds : ∀ {id}, d.Holds session id → d'.Holds session id :=
    fun h => (hframe.locks hother).mpr h
  cases hstage with
  | preparing quiet clean =>
    refine .preparing quiet fun hopened => ⟨?_, (clean hopened).2⟩
    unfold Database.Clean
    rw [hframe.transactions hother]
    exact (clean hopened).1
  | locking taken names fresh held =>
    exact .locking taken names (by rw [hframe.transactions hother]; exact fresh)
      fun name hname => hholds (held name hname)
  | @writing done merged rest results written held read said =>
    refine .writing done results (by rw [hframe.transactions hother]; exact written)
      (fun name hname => hholds (held name hname)) ?_ said
    -- the rows of the batch are locked, so they are the ones that were read
    obtain ⟨rows, hsome, hfold⟩ := read
    obtain ⟨rows', hsome'⟩ := Option.isSome_iff_exists.mp (hframe.table (by rw [hsome]; rfl))
    refine ⟨rows', hsome', ?_⟩
    have hsame := hrows held
    unfold Tables.rows at hsame
    rw [hsome, hsome'] at hsame
    rw [← hfold]
    exact congrArg (Merge.fold batch) hsame
  | abandoned f => exact .abandoned f
  | failed f => exact .failed f

end Steps

end Telemetry.Postgres
