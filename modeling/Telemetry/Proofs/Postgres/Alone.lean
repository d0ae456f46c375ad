import Telemetry.Proofs.Postgres.Stage

/-!
# A merge with nobody else there

A client whose server never fails holds a talk just as the database executes it (`Talk.Runs`,
`Client.hold_of_runs`). Run so, a merge either leaves the rows alone and says why, or writes
what `Merge.fold` makes of the rows of the batch (`Client.answer_mergeMany_alone`). This is what
a merge among others is compared with (`mergeAlone`).
-/

namespace Telemetry.Postgres

/-! ## Talks on their own -/

/-- A talk that is executed from a database to its end, with nothing in between: what comes
of it, and the database after it. -/
inductive Talk.Runs {α : Type} (session : Nat) : Talk α → Database → α → Database → Prop
  | done (a : α) (d : Database) : Runs session (.done a) d a d
  | ask {s : Statement} {next : Reply → Talk α} {d d₁ d' : Database} {reply : Reply} {a : α}
      (replied : d.execute session s = some (reply, d₁))
      (rest : Runs session (next reply) d₁ a d') : Runs session (.ask s next) d a d'

/-- Whether nothing ever goes wrong between a client and its server. -/
structure Client.Faultless (c : Client) : Prop where
  stillOpen : c.closed = false
  reachable : c.server.reachable = true
  unharmed : ∀ received s, c.server.mishap received s = none

namespace Client

/-- A statement that is executed is a statement that is sent. -/
theorem send_of_execute {c : Client} (hc : c.Faultless) {s : Statement} {reply : Reply}
    {d : Database} (h : c.server.database.execute session s = some (reply, d)) :
    ∃ received, send s c =
      (reply, { c with server := { c.server with database := d, received := received } }) := by
  refine ⟨s :: c.server.received, ?_⟩
  unfold send
  rw [if_neg (by rw [hc.stillOpen]; simp), if_neg (by rw [hc.reachable]; simp)]
  simp only [hc.unharmed, h]

theorem hold_of_runs {α : Type} {t : Talk α} {a : α} {d d' : Database}
    (h : t.Runs session d a d') {c : Client} (hd : c.server.database = d) (hc : c.Faultless) :
    ∃ received, (hold t).run c =
      (a, { c with server := { c.server with database := d', received := received } }) := by
  induction h generalizing c with
  | done a d =>
    subst hd
    exact ⟨c.server.received, rfl⟩
  | @ask s next d d₁ d' reply a replied rest ih =>
    subst hd
    obtain ⟨received, hsend⟩ := send_of_execute hc replied
    rw [hold_ask, hsend]
    exact ih (c := { c with server := { c.server with database := d₁, received := received } })
      rfl ⟨hc.stillOpen, hc.reachable, hc.unharmed⟩

end Client

/-! ## The statements of a merge, one by one -/

namespace Database

/-- A database with one open transaction, and no locks but its own. -/
def busy (t : Tables) (changes : List Change) (locks : List LockId) : Database :=
  ⟨t, [(Client.session, ⟨changes, false⟩)], locks.map fun id => (id, Client.session)⟩

variable {t : Tables} {changes : List Change} {locks : List LockId}

theorem begin_alone (t : Tables) :
    (ofTables t).execute Client.session .begin = some (.done, busy t [] []) := rfl

/-- A lock is granted to the only one who asks. -/
theorem lock_alone (t : Tables) (changes : List Change) (locks : List LockId) (id : LockId) :
    ∃ locks', (busy t changes locks).execute Client.session (.lock id) =
      some (.done, busy t changes locks') := by
  have hgrants : (busy t changes locks).grants Client.session id = true := by
    refine List.all_eq_true.mpr fun e he => ?_
    obtain ⟨_, -, rfl⟩ := List.mem_map.mp he
    simp
  show ∃ locks', (if (busy t changes locks).grants Client.session id then _ else _) = _
  rw [if_pos hgrants]
  split
  · exact ⟨locks, rfl⟩
  · exact ⟨id :: locks, rfl⟩

theorem upsert_alone (h : t.metrics.isSome) (m : Metric) :
    (busy t changes locks).execute Client.session (.upsert m) =
      some (.done, busy t (changes ++ [Change.ofMetric m]) locks) := by
  obtain ⟨rows, hrows⟩ := Option.isSome_iff_exists.mp (Tables.isSome_metrics_applyAll h changes)
  show (busy t changes locks).withMetrics Client.session _ = _
  unfold withMetrics
  rw [show ((busy t changes locks).view Client.session).metrics = some rows from hrows]
  rfl

theorem findAll_alone {rows : List (String × Row)} (h : t.metrics = some rows)
    (names : List String) :
    (busy t [] locks).execute Client.session (.findAll names) =
      some (.rows (rows.filter fun e => e.1 ∈ names), busy t [] locks) := by
  show (busy t [] locks).withMetrics Client.session _ = _
  unfold withMetrics
  rw [show ((busy t [] locks).view Client.session).metrics = some rows from h]

/-- Whatever ends the only transaction leaves nothing behind but what is committed. -/
theorem close_alone : (busy t changes locks).close Client.session = ofTables t := by
  have hlocks : (locks.map fun id => (id, Client.session)).filter
      (fun e => e.2 ≠ Client.session) = [] := by
    rw [List.filter_eq_nil_iff]
    intro e he
    obtain ⟨_, -, rfl⟩ := List.mem_map.mp he
    simp
  unfold close
  show (⟨t, [], (locks.map fun id => (id, Client.session)).filter _⟩ : Database) = _
  rw [hlocks]
  rfl

theorem commit_alone :
    (busy t changes locks).execute Client.session .commit =
      some (.done, ofTables (t.applyAll changes)) := by
  show some (Reply.done, { (busy t changes locks).close Client.session with
    committed := t.applyAll changes }) = _
  rw [close_alone]
  rfl

theorem rollback_alone :
    (busy t changes locks).execute Client.session .rollback = some (.done, ofTables t) := by
  show some (Reply.done, (busy t changes locks).close Client.session) = _
  rw [close_alone]

end Database

/-! ## The merge as a whole -/

namespace Merge

theorem runs_abandon {α : Type} {t : Tables} {changes : List Change} {locks : List LockId}
    (f : Fault) :
    (abandon f : Talk (Except Fault α)).Runs Client.session (.busy t changes locks) (.error f) (.ofTables t) :=
  .ask Database.rollback_alone (.done _ _)

theorem runs_write {α : Type} {t : Tables} (h : t.metrics.isSome) (result : α)
    (ms : List Metric) (changes : List Change) (locks : List LockId) :
    (write result ms).Runs Client.session (.busy t changes locks) (.ok result)
      (.ofTables (t.applyAll (changes ++ ms.map Change.ofMetric))) := by
  induction ms generalizing changes with
  | nil =>
    rw [List.map_nil, List.append_nil]
    exact .ask Database.commit_alone (.done _ _)
  | cons m ms ih =>
    have hrest := ih (changes ++ [Change.ofMetric m])
    rw [List.append_assoc] at hrest
    exact .ask (Database.upsert_alone h m) hrest

/-- What a merge in a table makes of its rows, and what it returns. -/
def outcome (rows : List (String × Row)) (batch : List Metric) :
    Except Fault (List Metric) × List (String × Row) :=
  match fold batch (rows.filter fun e => e.1 ∈ uniqueNames batch) with
  | .error f => (.error f, rows)
  | .ok merged => (.ok merged, putAll rows merged)

theorem runs_lockAll {rows : List (String × Row)} {versions : List Nat} (batch : List Metric)
    (names : List String) (locks : List LockId) :
    (lockAll batch names).Runs Client.session (.busy ⟨some rows, some versions⟩ [] locks)
      (outcome rows batch).1 (.ofTables ⟨some (outcome rows batch).2, some versions⟩) := by
  induction names generalizing locks with
  | cons name names ih =>
    obtain ⟨locks', hlock⟩ := Database.lock_alone ⟨some rows, some versions⟩ [] locks
      (nameLock name)
    exact .ask hlock (ih locks')
  | nil =>
    refine .ask (Database.findAll_alone rfl _) ?_
    show Talk.Runs Client.session (match fold batch (rows.filter _) with
      | .error fault => abandon fault
      | .ok merged => write merged merged) _ _ _
    unfold outcome
    split
    next f _ => exact runs_abandon f
    next merged _ =>
      have hwrite := runs_write (t := ⟨some rows, some versions⟩) rfl merged merged [] locks
      rw [List.nil_append, Tables.applyAll_ofMetric] at hwrite
      exact hwrite

theorem runs_merge (rows : List (String × Row)) (versions : List Nat) (batch : List Metric) :
    (merge batch).Runs Client.session (.ofTables ⟨some rows, some versions⟩)
      (outcome rows batch).1 (.ofTables ⟨some (outcome rows batch).2, some versions⟩) :=
  .ask (Database.begin_alone _) (runs_lockAll batch _ [])

end Merge

namespace Migration

/-- Once the latest version is read, the migrations above it are all that is left to do. -/
theorem runs_migrate_of_rest {t : Tables} {d : Database}
    (h : (applyAll (above ((t.versions.getD []).foldl max 0))).Runs Client.session
      (.busy t [.makeVersions] [.migrations]) (.ok ()) d) :
    migrate.Runs Client.session (.ofTables t) (.ok ()) d := by
  have hlock : (Database.busy t [] []).execute Client.session (.lock .migrations) =
      some (.done, .busy t [] [.migrations]) := rfl
  have hmake : (Database.busy t [] [.migrations]).execute Client.session .createVersions =
      some (.done, .busy t [.makeVersions] [.migrations]) := rfl
  have hlatest : (Database.busy t [.makeVersions] [.migrations]).execute Client.session
      .latestVersion = some (.version ((t.versions.getD []).foldl max 0),
        .busy t [.makeVersions] [.migrations]) := rfl
  exact .ask (Database.begin_alone t) (.ask hlock (.ask hmake (.ask hlatest h)))

/-- Tables that are up to date stay as they are. -/
theorem runs_migrate {versions : List Nat} (h : above (versions.foldl max 0) = [])
    (rows : List (String × Row)) :
    migrate.Runs Client.session (.ofTables ⟨some rows, some versions⟩) (.ok ())
      (.ofTables ⟨some rows, some versions⟩) := by
  refine runs_migrate_of_rest ?_
  show (applyAll (above (versions.foldl max 0))).Runs _ _ _ _
  rw [h]
  exact .ask Database.commit_alone (.done _ _)

end Migration

namespace Client

theorem answer_mergeMany_of_some {batch : List Metric} {reply : Except Fault (List Metric)}
    (h : withoutDatabase (.mergeMany batch) = some reply) :
    answer (.mergeMany batch) = pure reply := by
  simp only [answer, h]

theorem answer_mergeMany_of_none {batch : List Metric}
    (h : withoutDatabase (.mergeMany batch) = none) :
    answer (.mergeMany batch) = prepared (hold (Merge.merge batch)) := by
  simp only [answer, h]
  rfl

/-- Whether a client has a database to itself that is in order and has some rows: nothing goes
wrong on the way, and the tables are up to date. -/
structure AloneWith (c : Client) (rows : List (String × Row)) : Prop extends Faultless c where
  database : ∃ versions, Migration.above (versions.foldl max 0) = [] ∧
    c.server.database = .ofTables ⟨some rows, some versions⟩

theorem AloneWith.rows_eq {c : Client} {rows : List (String × Row)} (h : c.AloneWith rows) :
    c.server.database.committed.rows = rows := by
  obtain ⟨versions, -, hd⟩ := h.database
  rw [hd]
  rfl

/-- A client that nothing happens to, of a server with some rows. -/
def overRows (rows : List (String × Row)) : Client :=
  .ofServer ⟨true, .ofTables ⟨some rows, some [1]⟩, [], fun _ _ => none⟩

theorem aloneWith_overRows (rows : List (String × Row)) : (overRows rows).AloneWith rows :=
  ⟨⟨rfl, rfl, fun _ _ => rfl⟩, [1], rfl, rfl⟩

/-- Tables that are up to date are found to be so. -/
theorem ensureTables_alone {c : Client} {rows : List (String × Row)} (h : c.AloneWith rows) :
    ∃ c', ensureTables.run c = (.ok (), c') ∧ c'.AloneWith rows := by
  obtain ⟨versions, hversions, hd⟩ := h.database
  rw [ensureTables_run]
  cases hready : c.ready with
  | true => exact ⟨c, rfl, h⟩
  | false =>
    obtain ⟨received, hmigrate⟩ :=
      hold_of_runs (Migration.runs_migrate hversions rows) hd h.toFaultless
    rw [if_neg (by simp), hmigrate]
    exact ⟨_, rfl, ⟨h.stillOpen, h.reachable, h.unharmed⟩, versions, hversions, rfl⟩

end Client

/-- What a merge returns that nobody disturbs, and the rows after it. -/
def Merge.undisturbed (rows : List (String × Row)) (batch : List Metric) :
    Except Fault (List Metric) × List (String × Row) :=
  match withoutDatabase (.mergeMany batch) with
  | some reply => (reply, rows)
  | none => outcome rows batch

/-- **With a database to itself a merge takes effect as a whole or not at all.** -/
theorem Client.answer_mergeMany_alone {c : Client} {rows : List (String × Row)}
    (h : c.AloneWith rows) (batch : List Metric) :
    ((answer (.mergeMany batch)).run c).1 = (Merge.undisturbed rows batch).1 ∧
      ((answer (.mergeMany batch)).run c).2.AloneWith (Merge.undisturbed rows batch).2 := by
  unfold Merge.undisturbed
  cases hdatabase : withoutDatabase (.mergeMany batch) with
  | some reply =>
    rw [answer_mergeMany_of_some hdatabase]
    exact ⟨rfl, h⟩
  | none =>
    rw [answer_mergeMany_of_none hdatabase, prepared_run]
    -- first the tables are found to be up to date, in a transaction of its own
    obtain ⟨c', hensure, h'⟩ := ensureTables_alone h
    obtain ⟨versions, hversions, hd⟩ := h'.database
    obtain ⟨received, hmerge⟩ :=
      hold_of_runs (Merge.runs_merge rows versions batch) hd h'.toFaultless
    rw [hensure]
    dsimp only
    rw [hmerge]
    exact ⟨rfl, ⟨h'.stillOpen, h'.reachable, h'.unharmed⟩, versions, hversions, rfl⟩

/-- What a merge returns that has the store to itself, and the rows after it. -/
def mergeAlone (rows : List (String × Row)) (batch : List Metric) :
    Except Fault (List Metric) × List (String × Row) :=
  let (result, after) := (Client.answer (.mergeMany batch)).run (.overRows rows)
  (result, after.server.database.committed.rows)

theorem mergeAlone_eq (rows : List (String × Row)) (batch : List Metric) :
    mergeAlone rows batch =
      match withoutDatabase (.mergeMany batch) with
      | some reply => (reply, rows)
      | none => Merge.outcome rows batch := by
  obtain ⟨hresult, hafter⟩ :=
    Client.answer_mergeMany_alone (Client.aloneWith_overRows rows) batch
  exact Prod.ext hresult hafter.rows_eq

/-! ## One merge after another -/

/-- Merges one after another, each over the rows that the one before has left: what they
return, and the rows in the end. -/
def serialRun (rows : List (String × Row)) :
    List (List Metric) → List (Except Fault (List Metric)) × List (String × Row)
  | [] => ([], rows)
  | batch :: rest =>
    let (result, after) := mergeAlone rows batch
    let (results, final) := serialRun after rest
    (result :: results, final)

theorem serialRun_concat (rows : List (String × Row)) (batches : List (List Metric))
    (batch : List Metric) :
    serialRun rows (batches ++ [batch]) =
      ((serialRun rows batches).1 ++ [(mergeAlone (serialRun rows batches).2 batch).1],
        (mergeAlone (serialRun rows batches).2 batch).2) := by
  induction batches generalizing rows with
  | nil => rfl
  | cons first batches ih =>
    show ((mergeAlone rows first).1 :: (serialRun (mergeAlone rows first).2 (batches ++ [batch])).1,
      (serialRun (mergeAlone rows first).2 (batches ++ [batch])).2) = _
    rw [ih]
    rfl

/-- A merge that succeeds on its own folds each name of the batch. -/
theorem foldName_mergeAlone {rows : List (String × Row)} {batch : List Metric}
    (hok : ∃ merged, (mergeAlone rows batch).1 = .ok merged) (name : String) :
    foldName (metricAt rows name) (occurrences batch name) =
      .ok (metricAt (mergeAlone rows batch).2 name) := by
  rw [mergeAlone_eq] at hok ⊢
  cases h : withoutDatabase (.mergeMany batch) with
  | some reply =>
    rw [h] at hok
    obtain ⟨merged, rfl⟩ := hok
    rcases MergeCall.of_withoutDatabase h with ⟨f, hf⟩ | ⟨rfl, -⟩
    · cases hf
    · exact foldName_nil _
  | none =>
    rw [h] at hok
    unfold Merge.outcome at hok ⊢
    cases hfold : Merge.fold batch (rows.filter fun e => e.1 ∈ uniqueNames batch) with
    | error f =>
      rw [hfold] at hok
      obtain ⟨merged, hmerged⟩ := hok
      cases hmerged
    | ok merged => exact Merge.foldName_metricAt hfold name

/-- The serial run folds each name with its occurrences in all its batches. -/
theorem foldName_serialRun {rows : List (String × Row)} {batches : List (List Metric)}
    (hok : ∀ result ∈ (serialRun rows batches).1, ∃ merged, result = .ok merged) (name : String) :
    foldName (metricAt rows name) (occurrences batches.flatten name) =
      .ok (metricAt (serialRun rows batches).2 name) := by
  induction batches generalizing rows with
  | nil => exact foldName_nil _
  | cons batch batches ih =>
    have hfirst := hok (mergeAlone rows batch).1 List.mem_cons_self
    have hrest := ih fun result hr => hok result (List.mem_cons_of_mem _ hr)
    show foldName _ (occurrences (batch ++ batches.flatten) name) = .ok (metricAt
      (serialRun (mergeAlone rows batch).2 batches).2 name)
    have happend : occurrences (batch ++ batches.flatten) name =
        occurrences batch name ++ occurrences batches.flatten name := List.filter_append ..
    rw [happend, foldName_append, foldName_mergeAlone hfirst]
    exact hrest

/-- So a counter has the sum of all its increments after it. -/
theorem delta_serialRun {rows : List (String × Row)} {batches : List (List Metric)}
    (hok : ∀ result ∈ (serialRun rows batches).1, ∃ merged, result = .ok merged)
    {name : String} {m : Metric} (hm : metricAt (serialRun rows batches).2 name = some m)
    (hkind : m.kind = .counter) :
    m.delta = some (sumFrom (((metricAt rows name).bind (·.delta)).getD 0)
      (occurrences batches.flatten name)) := by
  have hfold := foldName_serialRun hok name
  rw [hm] at hfold
  have hvalid := (metricAt_eq_some hm).2
  rw [Metric.validate_eq_ok_iff, Metric.violation?_eq_none_iff, hkind] at hvalid
  obtain ⟨-, ⟨hgauge, -⟩ | ⟨-, -, d, hd⟩⟩ := hvalid
  · cases hgauge
  · rw [← foldName_delta hfold hkind, hd]
    rfl

end Telemetry.Postgres
