import Telemetry.Proofs.Postgres.Schedule

/-!
# How far bringing the tables up to date has come

Of a list of migrations those are pending that are above the latest recorded version
(`Migration.pending`). Making and recording them, one after another, brings the tables up to date
(`Migration.upgrade`), and after that none is pending any more (`Migration.pending_upgrade`).

A session does this in one transaction under one lock. `Upgrading` says what is true of the
database at each point of its talk: from the moment that the version is read, the lock is held,
and what was pending then still is. A step of the session commits nothing, or all that is pending
(`Upgrading.step`). Steps of others do not disturb it, as long as they commit nothing while it
has the lock (`Upgrading.frame`).
-/

namespace Telemetry.Postgres

/-! ## What migrations make of tables -/

/-- The changes that a statement makes in its transaction. -/
def Statement.changes : Statement → List Change
  | .createVersions => [.makeVersions]
  | .createMetrics => [.makeMetrics]
  | .addVersion v => [.addVersion v]
  | .insert m | .upsert m => [.ofMetric m]
  | _ => []

namespace Tables

/-- The versions that are recorded. -/
def recorded (t : Tables) : List Nat := t.versions.getD []

/-- The latest of them, zero if there is none. -/
def latest (t : Tables) : Nat := t.recorded.foldl max 0

theorem applyAll_append (t : Tables) (cs cs' : List Change) :
    t.applyAll (cs ++ cs') = (t.applyAll cs).applyAll cs' :=
  List.foldl_append

/-- A table of versions that is there is not made again. -/
theorem apply_makeVersions {t : Tables} {versions : List Nat} (h : t.versions = some versions) :
    t.apply .makeVersions = t := by
  obtain ⟨metrics, _⟩ := t
  cases h
  rfl

/-- Only what records a version changes the versions. -/
theorem versions_apply {t : Tables} {versions : List Nat} (h : t.versions = some versions)
    {c : Change} (hc : ∀ v, c ≠ .addVersion v) : (t.apply c).versions = some versions := by
  cases c with
  | makeVersions => simp [apply, h]
  | addVersion v => exact absurd rfl (hc v)
  | makeMetrics => exact h
  | put name row => exact h

theorem versions_applyAll {t : Tables} {versions : List Nat} (h : t.versions = some versions)
    {cs : List Change} (hcs : ∀ c ∈ cs, ∀ v, c ≠ .addVersion v) :
    (t.applyAll cs).versions = some versions := by
  induction cs generalizing t with
  | nil => exact h
  | cons c cs ih =>
    exact ih (versions_apply h (hcs c List.mem_cons_self))
      fun c hc => hcs c (List.mem_cons_of_mem _ hc)

end Tables

namespace Migration

/-- What a list of migrations has to be: the versions ascend, and no statement ends the
transaction, takes a lock or records a version by itself. -/
structure Listed (listed : List (Nat × Statement)) : Prop where
  ascending : (listed.map (·.1)).Pairwise (· < ·)
  inner : ∀ m ∈ listed, m.2.isInner
  unrecorded : ∀ m ∈ listed, ∀ v, m.2 ≠ .addVersion v

theorem listed_migrations : Listed migrations where
  ascending := by decide
  inner := by decide
  unrecorded := by
    intro m hm
    rw [List.mem_singleton.mp hm]
    exact fun v => by simp

/-- The migrations above the latest version that is recorded. -/
def pending (listed : List (Nat × Statement)) (t : Tables) : List (Nat × Statement) :=
  listed.filter fun m => t.latest < m.1

/-- The changes of some migrations, each recorded after it is made. -/
def changes (ms : List (Nat × Statement)) : List Change :=
  ms.flatMap fun m => m.2.changes ++ [.addVersion m.1]

/-- The changes that bring tables up to date. -/
def upgrade (listed : List (Nat × Statement)) (t : Tables) : List Change :=
  .makeVersions :: changes (pending listed t)

theorem changes_concat (ms : List (Nat × Statement)) (m : Nat × Statement) :
    changes (ms ++ [m]) = changes ms ++ m.2.changes ++ [.addVersion m.1] := by
  simp [changes]

variable {listed : List (Nat × Statement)} {t : Tables}

theorem ne_addVersion_of_mem_changes {s : Statement} (hs : ∀ v, s ≠ .addVersion v) {c : Change}
    (hc : c ∈ s.changes) (v : Nat) : c ≠ .addVersion v := by
  cases s with
  | addVersion w => exact absurd rfl (hs w)
  | createVersions => rw [List.mem_singleton.mp hc]; simp
  | createMetrics => rw [List.mem_singleton.mp hc]; simp
  | insert m => rw [List.mem_singleton.mp hc]; simp [Change.ofMetric]
  | upsert m => rw [List.mem_singleton.mp hc]; simp [Change.ofMetric]
  | _ => cases hc

/-- Each migration is recorded once, in its place. -/
theorem versions_applyAll_changes {ms : List (Nat × Statement)}
    (hms : ∀ m ∈ ms, ∀ v, m.2 ≠ .addVersion v) {versions : List Nat}
    (h : t.versions = some versions) :
    (t.applyAll (changes ms)).versions = some (versions ++ ms.map (·.1)) := by
  induction ms generalizing t versions with
  | nil => rw [List.map_nil, List.append_nil]; exact h
  | cons m ms ih =>
    have hmade := Tables.versions_applyAll h
      fun c hc => ne_addVersion_of_mem_changes (hms m List.mem_cons_self) hc
    have hrecorded : ((t.applyAll m.2.changes).apply (.addVersion m.1)).versions =
        some (versions ++ [m.1]) := by
      show (t.applyAll m.2.changes).versions.map _ = _
      rw [hmade]
      rfl
    have hrest := ih (fun m hm => hms m (List.mem_cons_of_mem _ hm)) hrecorded
    rw [List.append_assoc, List.singleton_append] at hrest
    rw [List.map_cons, ← hrest]
    show (t.applyAll (m.2.changes ++ [.addVersion m.1] ++ changes ms)).versions = _
    rw [Tables.applyAll_append, Tables.applyAll_append]
    rfl

/-- Bringing tables up to date records the migrations that were pending after those that were
recorded before. -/
theorem versions_upgrade (h : Listed listed) (t : Tables) :
    (t.applyAll (upgrade listed t)).versions =
      some (t.recorded ++ (pending listed t).map (·.1)) :=
  versions_applyAll_changes (t := t.apply .makeVersions)
    (fun m hm => h.unrecorded m (List.mem_of_mem_filter hm)) rfl

theorem le_foldl_max (l : List Nat) (b : Nat) :
    b ≤ l.foldl max b ∧ ∀ n ∈ l, n ≤ l.foldl max b := by
  induction l generalizing b with
  | nil => exact ⟨Nat.le_refl b, nofun⟩
  | cons a l ih =>
    obtain ⟨hb, hl⟩ := ih (max b a)
    refine ⟨Nat.le_trans (Nat.le_max_left b a) hb, fun n hn => ?_⟩
    rcases List.mem_cons.mp hn with rfl | hn
    · exact Nat.le_trans (Nat.le_max_right b n) hb
    · exact hl n hn

/-- No migration is above the latest version of tables that were brought up to date. -/
theorem le_latest_upgrade (h : Listed listed) (t : Tables) :
    ∀ m ∈ listed, m.1 ≤ (t.applyAll (upgrade listed t)).latest := by
  have hlatest : (t.applyAll (upgrade listed t)).latest =
      ((pending listed t).map (·.1)).foldl max t.latest := by
    unfold Tables.latest Tables.recorded
    rw [versions_upgrade h, Option.getD_some, List.foldl_append]
    rfl
  obtain ⟨hle, hall⟩ := le_foldl_max ((pending listed t).map (·.1)) t.latest
  intro m hm
  rw [hlatest]
  by_cases hpending : t.latest < m.1
  · exact hall m.1 (List.mem_map_of_mem (List.mem_filter.mpr ⟨hm, decide_eq_true hpending⟩))
  · exact Nat.le_trans (Nat.not_lt.mp hpending) hle

/-- After that no migration is pending. -/
theorem pending_upgrade (h : Listed listed) (t : Tables) :
    pending listed (t.applyAll (upgrade listed t)) = [] := by
  refine List.filter_eq_nil_iff.mpr fun m hm => ?_
  rw [decide_eq_true_eq]
  exact Nat.not_lt.mpr (le_latest_upgrade h t m hm)

/-- Tables that were brought up to date stay as they are. -/
theorem upgrade_upgrade (h : Listed listed) (t : Tables) :
    (t.applyAll (upgrade listed t)).applyAll (upgrade listed (t.applyAll (upgrade listed t))) =
      t.applyAll (upgrade listed t) := by
  have hagain : upgrade listed (t.applyAll (upgrade listed t)) = [.makeVersions] := by
    show _ :: changes (pending listed (t.applyAll (upgrade listed t))) = _
    rw [pending_upgrade h]
    rfl
  rw [hagain]
  exact Tables.apply_makeVersions (versions_upgrade h t)

/-! ## The talk, from one statement to the next -/

/-- Once a migration is made it is recorded, and the rest follows. -/
def record (version : Nat) (rest : List (Nat × Statement)) : Talk (Except Fault Unit) :=
  .ask (.addVersion version) fun
    | .failed f => abandon f
    | _ => applyAll rest

/-- What is made depends on the latest version that is recorded. -/
def read (listed : List (Nat × Statement)) : Talk (Except Fault Unit) :=
  .ask .latestVersion fun
    | .version latest => applyAll (listed.filter fun m => latest < m.1)
    | .failed f => abandon f
    | _ => abandon .rowNotFound

/-- The table of versions is made if it is not there. -/
def prepare (listed : List (Nat × Statement)) : Talk (Except Fault Unit) :=
  .ask .createVersions fun
    | .failed f => abandon f
    | _ => read listed

/-- First of all the lock is taken. -/
def lock (listed : List (Nat × Statement)) : Talk (Except Fault Unit) :=
  .ask (.lock .migrations) fun
    | .failed f => abandon f
    | _ => prepare listed

/-- Brings the tables up to date with any list of migrations. -/
def migrateBy (listed : List (Nat × Statement)) : Talk (Except Fault Unit) :=
  .ask .begin fun
    | .failed f => .done (.error (f.fault operation))
    | _ => lock listed

/-- What a session asks besides the migrations. -/
def service : List Statement :=
  [.begin, .lock .migrations, .createVersions, .latestVersion, .commit, .rollback]

theorem migrate_eq : migrate = migrateBy migrations := rfl

end Migration

namespace Database

variable {d d' : Database} {i : Nat} {s : Statement} {reply : Reply} {changes : List Change}

/-- What comes of a statement inside a transaction that has not failed. -/
inductive Inner (d : Database) (i : Nat) (s : Statement) : Reply → Database → Prop
  | failed (f : Failure) : Inner d i s (.failed f) (d.spoil i)
  | looked {reply : Reply} (ok : ∀ f, reply ≠ .failed f) (none : s.changes = []) :
      Inner d i s reply d
  | changed {c : Change} (one : s.changes = [c]) : Inner d i s .done (d.change i c)

theorem inner_withMetrics {go : List (String × Row) → Option (Reply × Database)}
    (hgo : ∀ rows, go rows = some (reply, d') → Inner d i s reply d')
    (h : d.withMetrics i go = some (reply, d')) : Inner d i s reply d' := by
  unfold withMetrics at h
  split at h
  · cases h
    exact .failed _
  · exact hgo _ h

theorem inner_withVersions {go : List Nat → Option (Reply × Database)}
    (hgo : ∀ versions, go versions = some (reply, d') → Inner d i s reply d')
    (h : d.withVersions i go = some (reply, d')) : Inner d i s reply d' := by
  unfold withVersions at h
  split at h
  · cases h
    exact .failed _
  · exact hgo _ h

/-- A statement inside a transaction fails, looks something up, or makes its change. -/
theorem inner_execute (ht : d.transaction? i = some ⟨changes, false⟩) (hs : s.isInner)
    (h : d.execute i s = some (reply, d')) : Inner d i s reply d' := by
  unfold execute at h
  rw [ht] at h
  simp only [Option.any_some, Bool.false_eq_true, if_false] at h
  cases s with
  | begin => cases hs
  | commit => cases hs
  | rollback => cases hs
  | lock id => cases hs
  | selectOne => cases h; exact .looked (by simp) rfl
  | createVersions => cases h; exact .changed rfl
  | createMetrics => cases h; exact .changed rfl
  | latestVersion =>
    refine inner_withVersions (fun _ h => ?_) h
    cases h; exact .looked (by simp) rfl
  | addVersion v =>
    refine inner_withVersions (fun _ h => ?_) h
    cases h; exact .changed rfl
  | find name =>
    refine inner_withMetrics (fun _ h => ?_) h
    cases h; exact .looked (by simp) rfl
  | findAll names =>
    refine inner_withMetrics (fun _ h => ?_) h
    cases h; exact .looked (by simp) rfl
  | all =>
    refine inner_withMetrics (fun _ h => ?_) h
    cases h; exact .looked (by simp) rfl
  | insert m =>
    -- the name may be taken
    refine inner_withMetrics (fun _ h => ?_) h
    split at h
    · cases h; exact .failed _
    · cases h; exact .changed rfl
  | upsert m =>
    refine inner_withMetrics (fun _ h => ?_) h
    cases h; exact .changed rfl

theorem Inner.committed (ht : d.transaction? i = some ⟨changes, false⟩)
    (h : Inner d i s reply d') : d'.committed = d.committed := by
  cases h with
  | failed f => exact committed_spoil d i
  | looked => rfl
  | changed => exact (transaction?_change ht _).2

/-- If it does not fail, the transaction holds its changes after those before. -/
theorem Inner.transaction? (ht : d.transaction? i = some ⟨changes, false⟩)
    (h : Inner d i s reply d') (hok : ∀ f, reply ≠ .failed f) :
    d'.transaction? i = some ⟨changes ++ s.changes, false⟩ := by
  cases h with
  | failed f => exact absurd rfl (hok f)
  | looked _ none => rw [none, List.append_nil]; exact ht
  | changed one => rw [one]; exact (transaction?_change ht _).1

theorem locks_change (ht : d.transaction? i = some ⟨changes, false⟩) (c : Change) :
    (d.change i c).locks = d.locks := by
  unfold change
  rw [ht]
  rfl

/-- Nor does it give a lock back. -/
theorem Inner.holds (ht : d.transaction? i = some ⟨changes, false⟩)
    (h : Inner d i s reply d') (hok : ∀ f, reply ≠ .failed f) {id : LockId}
    (hid : d.Holds i id) : d'.Holds i id := by
  cases h with
  | failed f => exact absurd rfl (hok f)
  | looked => exact hid
  | changed => unfold Holds; rw [locks_change ht]; exact hid

/-- The latest version is that of the tables as they are committed, if the transaction has only
made sure that there is a table of versions. -/
theorem execute_latestVersion (ht : d.transaction? i = some ⟨[.makeVersions], false⟩)
    (h : d.execute i .latestVersion = some (reply, d')) :
    reply = .version d.committed.latest ∧ d' = d := by
  have hversions : (d.view i).versions = some d.committed.recorded := by
    rw [view_eq ht]
    rfl
  unfold execute withVersions at h
  rw [ht] at h
  simp only [Option.any_some, Bool.false_eq_true, if_false, hversions] at h
  cases h
  exact ⟨rfl, rfl⟩

/-- Whether a statement commits a transaction that has not failed. It is executed even where the
reply to it is lost. -/
def completes (d : Database) (session : Nat) (mishap : Option Mishap) (s : Statement) : Bool :=
  s = .commit && (mishap = none || mishap = some (.loss true)) &&
    (d.transaction? session).any fun t => !t.spoilt

theorem completes_of_waiting {mishap : Option Mishap} (h : d.reply? i mishap s = none) :
    d.completes i mishap s = false := by
  by_cases hs : s = .commit
  · -- a commit never waits
    subst hs
    rcases mishap with _ | ⟨_ | (_ | _)⟩ <;> cases h
  · simp [completes, hs]

end Database

/-! ## Stages -/

open Migration (pending upgrade)

/-- What is true of the database when a session has come to some point of bringing the tables up
to date. -/
inductive Upgrading (listed : List (Nat × Statement)) (d : Database) (session : Nat) :
    Talk (Except Fault Unit) → Prop
  | starting : Upgrading listed d session (Migration.migrateBy listed)
  | locking (fresh : d.transaction? session = some .fresh) :
      Upgrading listed d session (Migration.lock listed)
  | preparing (fresh : d.transaction? session = some .fresh)
      (held : d.Holds session .migrations) : Upgrading listed d session (Migration.prepare listed)
  | reading (prepared : d.transaction? session = some ⟨[.makeVersions], false⟩)
      (held : d.Holds session .migrations) : Upgrading listed d session (Migration.read listed)
  /-- some of the pending migrations are made and recorded, and they still are pending for
  everybody else -/
  | applying (made : List (Nat × Statement)) {rest : List (Nat × Statement)}
      (split : pending listed d.committed = made ++ rest)
      (written : d.transaction? session =
        some ⟨.makeVersions :: Migration.changes made, false⟩)
      (held : d.Holds session .migrations) : Upgrading listed d session (Migration.applyAll rest)
  /-- one more is made, but not recorded yet -/
  | recording (made : List (Nat × Statement)) {m : Nat × Statement}
      {rest : List (Nat × Statement)} (split : pending listed d.committed = made ++ m :: rest)
      (written : d.transaction? session =
        some ⟨.makeVersions :: Migration.changes made ++ m.2.changes, false⟩)
      (held : d.Holds session .migrations) :
      Upgrading listed d session (Migration.record m.1 rest)
  | abandoned (f : Failure) : Upgrading listed d session (Migration.abandon f)
  | failed (f : Fault) : Upgrading listed d session (.done (.error f))

namespace Upgrading

/-- A step after which nothing more is committed than before. -/
structure Keeps (listed : List (Nat × Statement)) (d d' : Database) (session : Nat)
    (mishap : Option Database.Mishap) (s : Statement) (talk : Talk (Except Fault Unit)) :
    Prop where
  stage : Upgrading listed d' session talk
  committed : d'.committed = d.committed
  silent : d.completes session mishap s = false

/-- A step that commits: all that was pending is made and recorded, whether or not the session is
told. -/
structure Commits (listed : List (Nat × Statement)) (d d' : Database) (session : Nat)
    (mishap : Option Database.Mishap) (s : Statement) (talk : Talk (Except Fault Unit)) :
    Prop where
  committed : d'.committed = d.committed.applyAll (upgrade listed d.committed)
  held : d.Holds session .migrations
  visible : d.completes session mishap s = true
  outcome : (mishap = none ∧ talk = .done (.ok ())) ∨
    (mishap = some (.loss true) ∧ talk = Migration.abandon .connection)

variable {listed : List (Nat × Statement)} {d d' : Database} {i : Nat}
  {mishap : Option Database.Mishap} {s : Statement} {next : Reply → Talk (Except Fault Unit)}
  {reply : Reply}

/-- A statement that does not commit: it is enough to know what it comes to when it is executed,
and where the talk goes on when it fails. -/
theorem Keeps.of_execute (h : d.reply? i mishap s = some (reply, d')) (hs : s ≠ .commit)
    (hfailed : ∀ f d', Upgrading listed d' i (next (.failed f)))
    (hexecute : ∀ {r d₁}, d.execute i s = some (r, d₁) → d₁.committed = d.committed ∧
      ((∀ f, r ≠ .failed f) → Upgrading listed d₁ i (next r))) :
    Keeps listed d d' i mishap s (next reply) := by
  have hsilent : d.completes i mishap s = false := by simp [Database.completes, hs]
  rcases Database.reply?_cases h with
    ⟨-, hx⟩ | ⟨-, rfl, r, d₁, hx, rfl⟩ | ⟨-, -, ⟨f, rfl⟩, hfail⟩
  · obtain ⟨hcommitted, hstage⟩ := hexecute hx
    refine ⟨?_, hcommitted, hsilent⟩
    by_cases hok : ∀ f, reply ≠ .failed f
    · exact hstage hok
    · obtain ⟨f, hf⟩ := not_forall.mp hok
      rw [not_not.mp hf]
      exact hfailed f d'
  · -- executed, but the connection is lost
    exact ⟨hfailed _ _, (hexecute hx).1, hsilent⟩
  · refine ⟨hfailed f _, ?_, hsilent⟩
    rcases hfail with rfl | rfl
    · exact Database.committed_spoil d i
    · rfl

/-- As `Keeps.of_execute`, for a statement inside the transaction. -/
theorem Keeps.of_inner {changes : List Change} (hs : s.isInner)
    (ht : d.transaction? i = some ⟨changes, false⟩) (held : d.Holds i .migrations)
    (h : d.reply? i mishap s = some (reply, d'))
    (hfailed : ∀ f d', Upgrading listed d' i (next (.failed f)))
    (hexecute : ∀ {r d₁}, (∀ f, r ≠ .failed f) →
      d₁.transaction? i = some ⟨changes ++ s.changes, false⟩ → d₁.committed = d.committed →
      d₁.Holds i .migrations → Upgrading listed d₁ i (next r)) :
    Keeps listed d d' i mishap s (next reply) := by
  have hne : s ≠ .commit := by
    rintro rfl
    cases hs
  refine Keeps.of_execute h hne hfailed fun {r d₁} hx => ?_
  have hinner := Database.inner_execute ht hs hx
  exact ⟨hinner.committed ht, fun hok =>
    hexecute hok (hinner.transaction? ht hok) (hinner.committed ht) (hinner.holds ht hok held)⟩

theorem step_starting (htalk : Talk.ask s next = Migration.migrateBy listed)
    (h : d.reply? i mishap s = some (reply, d')) : Keeps listed d d' i mishap s (next reply) := by
  cases htalk
  apply Keeps.of_execute h (by simp)
  · exact fun _ _ => .failed _
  · intro r d₁ hx
    cases hx
    exact ⟨rfl, fun _ => .locking (Database.transaction?_setTransaction_self d i _)⟩

theorem step_locking (fresh : d.transaction? i = some .fresh)
    (htalk : Talk.ask s next = Migration.lock listed)
    (h : d.reply? i mishap s = some (reply, d')) : Keeps listed d d' i mishap s (next reply) := by
  cases htalk
  apply Keeps.of_execute h (by simp)
  · exact fun _ _ => .abandoned _
  · intro r d₁ hx
    obtain ⟨rfl, hheld, -, hfresh, hcommitted⟩ := Database.execute_lock fresh hx
    exact ⟨hcommitted, fun _ => .preparing hfresh hheld⟩

theorem step_preparing (fresh : d.transaction? i = some .fresh) (held : d.Holds i .migrations)
    (htalk : Talk.ask s next = Migration.prepare listed)
    (h : d.reply? i mishap s = some (reply, d')) : Keeps listed d d' i mishap s (next reply) := by
  cases htalk
  apply Keeps.of_inner rfl fresh held h
  · exact fun _ _ => .abandoned _
  · intro r d₁ hok ht _ hheld
    have hnext : Upgrading listed d₁ i (Migration.read listed) := .reading ht hheld
    cases r
    case failed f => exact absurd rfl (hok f)
    all_goals exact hnext

/-- The version is read under the lock, so it stays the latest one until the lock is given
back. -/
theorem step_reading (prepared : d.transaction? i = some ⟨[.makeVersions], false⟩)
    (held : d.Holds i .migrations) (htalk : Talk.ask s next = Migration.read listed)
    (h : d.reply? i mishap s = some (reply, d')) : Keeps listed d d' i mishap s (next reply) := by
  cases htalk
  apply Keeps.of_execute h (by simp)
  · exact fun _ _ => .abandoned _
  · intro r d₁ hx
    obtain ⟨rfl, rfl⟩ := Database.execute_latestVersion prepared hx
    exact ⟨rfl, fun _ => .applying [] rfl prepared held⟩

theorem step_making (hlisted : Migration.Listed listed) {made rest : List (Nat × Statement)}
    {m : Nat × Statement} (split : pending listed d.committed = made ++ m :: rest)
    (written : d.transaction? i = some ⟨.makeVersions :: Migration.changes made, false⟩)
    (held : d.Holds i .migrations) (htalk : Talk.ask s next = Migration.applyAll (m :: rest))
    (h : d.reply? i mishap s = some (reply, d')) : Keeps listed d d' i mishap s (next reply) := by
  obtain ⟨version, statement⟩ := m
  have hm : (version, statement) ∈ pending listed d.committed := by
    rw [split]
    exact List.mem_append_right _ List.mem_cons_self
  cases htalk
  apply Keeps.of_inner (hlisted.inner _ (List.mem_of_mem_filter hm)) written held h
  · exact fun _ _ => .abandoned _
  · intro r d₁ hok ht hcommitted hheld
    have hsplit : pending listed d₁.committed = made ++ (version, s) :: rest := by
      rw [hcommitted]
      exact split
    have hnext : Upgrading listed d₁ i (Migration.record version rest) :=
      .recording made hsplit ht hheld
    cases r
    case failed f => exact absurd rfl (hok f)
    all_goals exact hnext

theorem step_recording {made rest : List (Nat × Statement)} {m : Nat × Statement}
    (split : pending listed d.committed = made ++ m :: rest)
    (written : d.transaction? i =
      some ⟨.makeVersions :: Migration.changes made ++ m.2.changes, false⟩)
    (held : d.Holds i .migrations) (htalk : Talk.ask s next = Migration.record m.1 rest)
    (h : d.reply? i mishap s = some (reply, d')) : Keeps listed d d' i mishap s (next reply) := by
  cases htalk
  apply Keeps.of_inner rfl written held h
  · exact fun _ _ => .abandoned _
  · intro r d₁ hok ht hcommitted hheld
    have hnext : Upgrading listed d₁ i (Migration.applyAll rest) := by
      refine .applying (made ++ [m]) ?_ ?_ hheld
      · rw [hcommitted, split, List.append_assoc]
        rfl
      · rw [ht, Migration.changes_concat]
        rfl
    cases r
    case failed f => exact absurd rfl (hok f)
    all_goals exact hnext

/-- The commit makes and records all that was pending, or nothing. -/
theorem step_commit
    (written : d.transaction? i =
      some ⟨.makeVersions :: Migration.changes (pending listed d.committed), false⟩)
    (held : d.Holds i .migrations) (htalk : Talk.ask s next = Migration.applyAll [])
    (h : d.reply? i mishap s = some (reply, d')) :
    Keeps listed d d' i mishap s (next reply) ∨ Commits listed d d' i mishap s (next reply) := by
  cases htalk
  rcases Database.reply?_cases h with
    ⟨rfl, hx⟩ | ⟨rfl, rfl, r, d₁, hx, rfl⟩ | ⟨hnone, hloss, ⟨f, rfl⟩, hfail⟩
  · obtain ⟨rfl, hcommitted⟩ := Database.execute_commit written hx
    refine .inr ⟨hcommitted, held, ?_, .inl ⟨rfl, rfl⟩⟩
    simp [Database.completes, written]
  · -- committed, but the session is not told
    obtain ⟨-, hcommitted⟩ := Database.execute_commit written hx
    refine .inr ⟨hcommitted, held, ?_, .inr ⟨rfl, rfl⟩⟩
    simp [Database.completes, written]
  · refine .inl ⟨.abandoned f, ?_, ?_⟩
    · rcases hfail with rfl | rfl
      · exact Database.committed_spoil d i
      · rfl
    · simp [Database.completes, hnone, hloss]

theorem step_abandoned {f : Failure} (htalk : Talk.ask s next = Migration.abandon f)
    (h : d.reply? i mishap s = some (reply, d')) : Keeps listed d d' i mishap s (next reply) := by
  cases htalk
  apply Keeps.of_execute h (by simp)
  · exact fun _ _ => .failed _
  · intro r d₁ hx
    cases hx
    exact ⟨rfl, fun _ => .failed _⟩

/-- **Every step of a session commits nothing, or all that is pending.** -/
theorem step (hlisted : Migration.Listed listed) (hstage : Upgrading listed d i (.ask s next))
    (h : d.reply? i mishap s = some (reply, d')) :
    Keeps listed d d' i mishap s (next reply) ∨ Commits listed d d' i mishap s (next reply) := by
  generalize htalk : Talk.ask s next = talk at hstage
  cases hstage with
  | starting => exact .inl (step_starting htalk h)
  | locking fresh => exact .inl (step_locking fresh htalk h)
  | preparing fresh held => exact .inl (step_preparing fresh held htalk h)
  | reading prepared held => exact .inl (step_reading prepared held htalk h)
  | @applying made rest split written held =>
    cases rest with
    | cons m rest => exact .inl (step_making hlisted split written held htalk h)
    | nil =>
      rw [List.append_nil] at split
      rw [← split] at written
      exact step_commit written held htalk h
  | recording made split written held => exact .inl (step_recording split written held htalk h)
  | abandoned f => exact .inl (step_abandoned htalk h)
  | failed f => cases htalk

/-- What a session asks next is no migration but a pending one. -/
theorem statement (hstage : Upgrading listed d i (.ask s next)) :
    s ∈ Migration.service ∨
      ∃ m ∈ pending listed d.committed, s = m.2 ∨ s = .addVersion m.1 := by
  generalize htalk : Talk.ask s next = talk at hstage
  cases hstage with
  | starting => cases htalk; exact .inl (by decide)
  | locking => cases htalk; exact .inl (by decide)
  | preparing => cases htalk; exact .inl (by decide)
  | reading => cases htalk; exact .inl (by decide)
  | @applying made rest split =>
    cases rest with
    | nil => cases htalk; exact .inl (by decide)
    | cons m rest =>
      cases htalk
      refine .inr ⟨m, ?_, .inl rfl⟩
      rw [split]
      exact List.mem_append_right _ List.mem_cons_self
  | @recording made m rest split =>
    cases htalk
    refine .inr ⟨m, ?_, .inr rfl⟩
    rw [split]
    exact List.mem_append_right _ List.mem_cons_self
  | abandoned => cases htalk; exact .inl (by decide)
  | failed => cases htalk

/-- A session that has come to its end without committing has failed. -/
theorem error_of_done {result : Except Fault Unit}
    (hstage : Upgrading listed d i (.done result)) : ∃ f, result = .error f := by
  generalize htalk : Talk.done result = talk at hstage
  cases hstage with
  | starting => cases htalk
  | locking => cases htalk
  | preparing => cases htalk
  | reading => cases htalk
  | @applying made rest => cases rest <;> cases htalk
  | recording => cases htalk
  | abandoned => cases htalk
  | failed f => cases htalk; exact ⟨f, rfl⟩

/-- Steps of another session do not disturb a stage, if they commit nothing while it has the
lock. -/
theorem frame {talk : Talk (Except Fault Unit)} {other : Nat}
    (hstage : Upgrading listed d i talk) (hother : i ≠ other)
    (hframe : Database.Frame d d' other)
    (hcommitted : d.Holds i .migrations → d'.committed = d.committed) :
    Upgrading listed d' i talk := by
  have hholds : ∀ {id}, d.Holds i id → d'.Holds i id := fun h => (hframe.locks hother).mpr h
  have htransaction : d'.transaction? i = d.transaction? i := hframe.transactions hother
  cases hstage with
  | starting => exact .starting
  | locking fresh => exact .locking (htransaction.trans fresh)
  | preparing fresh held => exact .preparing (htransaction.trans fresh) (hholds held)
  | reading prepared held => exact .reading (htransaction.trans prepared) (hholds held)
  | applying made split written held =>
    exact .applying made (by rw [hcommitted held]; exact split) (htransaction.trans written)
      (hholds held)
  | recording made split written held =>
    exact .recording made (by rw [hcommitted held]; exact split) (htransaction.trans written)
      (hholds held)
  | abandoned f => exact .abandoned f
  | failed f => exact .failed f

end Upgrading

end Telemetry.Postgres
