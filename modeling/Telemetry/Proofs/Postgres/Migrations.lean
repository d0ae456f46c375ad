import Telemetry.Proofs.Postgres.Upgrade

/-!
# Bringing the tables up to date at once

Several servers may bring the tables of one database up to date at once, statement by statement
and in any order. Whoever commits has the lock, so what was pending when it read the version
still is when it commits (`Crowd.Migrated.commit`); the first commit makes all that was pending
in the beginning, and every later one finds nothing to do (`migrations_made_once`).

What fails is not always undone: a session whose commit is executed and not answered has failed,
and what it has made stays (`failed_migration_is_committed`).
-/

namespace Telemetry.Postgres

open Migration (pending upgrade)

namespace Crowd

/-- Sessions that bring the tables up to date, all at once. -/
def ofMigrations (listed : List (Nat × Statement)) (tables : Tables) (n : Nat) :
    Crowd (Except Fault Unit) :=
  ⟨.ofTables tables, List.replicate n (Migration.migrateBy listed)⟩

section Log

variable {α : Type}

/-- The transaction that a turn commits, if it commits one. -/
def completed? (c : Crowd α) (turn : Turn) : Option Commit :=
  match c.talks[turn.session]? with
  | some (.ask s _) =>
    if c.database.completes turn.session turn.mishap s then
      some ⟨turn.session, turn.mishap.isNone⟩
    else none
  | _ => none

/-- The transactions that are committed in the course of some turns, in order. -/
def completed (c : Crowd α) : List Turn → List Commit
  | [] => []
  | turn :: turns => (c.completed? turn).toList ++ (c.step turn).completed turns

theorem completed_concat (c : Crowd α) (turns : List Turn) (turn : Turn) :
    c.completed (turns ++ [turn]) =
      c.completed turns ++ ((c.run turns).completed? turn).toList := by
  induction turns generalizing c with
  | nil => exact List.append_nil _
  | cons first turns ih =>
    show _ ++ (c.step first).completed (turns ++ [turn]) = _
    rw [ih, ← List.append_assoc]
    rfl

/-- Who commits is told, unless the reply is lost. -/
theorem told_of_completed? {c : Crowd α} {turn : Turn} {e : Commit}
    (h : c.completed? turn = some e) (hlost : turn.mishap ≠ some (.loss true)) : e.told = true := by
  unfold completed? at h
  split at h
  next s next htalk =>
    split at h
    next hcompletes =>
      cases h
      have hmishap : turn.mishap = none ∨ turn.mishap = some (.loss true) := by
        simp only [Database.completes, Bool.and_eq_true, Bool.or_eq_true, decide_eq_true_eq]
          at hcompletes
        exact hcompletes.1.2
      exact Option.isNone_iff_eq_none.mpr (hmishap.resolve_right hlost)
    next => cases h
  next => cases h

theorem told_of_mem_completed {c : Crowd α} {turns : List Turn} {e : Commit}
    (he : e ∈ c.completed turns) (hlost : ∀ turn ∈ turns, turn.mishap ≠ some (.loss true)) :
    e.told = true := by
  induction turns generalizing c with
  | nil => exact absurd he List.not_mem_nil
  | cons turn turns ih =>
    rcases List.mem_append.mp he with hnow | hlater
    · exact told_of_completed? (Option.mem_toList.mp hnow) (hlost turn List.mem_cons_self)
    · exact ih hlater fun turn hturn => hlost turn (List.mem_cons_of_mem _ hturn)

end Log

/-- Where a session stands that has committed: it has succeeded, or it was not told and gives
up. -/
def Ended (c : Crowd (Except Fault Unit)) (e : Commit) : Prop :=
  (e.told = true ∧ c.talks[e.session]? = some (.done (.ok ()))) ∨
    (e.told = false ∧ (c.talks[e.session]? = some (Migration.abandon .connection) ∨
      c.talks[e.session]? = some (.done (.error (Failure.connection.fault Migration.operation)))))

theorem Ended.step {c : Crowd (Except Fault Unit)} {e : Commit} {i : Nat} {s : Statement}
    {next : Reply → Talk (Except Fault Unit)} (h : c.Ended e)
    (htalk : c.talks[i]? = some (.ask s next)) (reply : Reply) (d' : Database) :
    Ended ⟨d', c.talks.set i (next reply)⟩ e := by
  unfold Ended
  by_cases hi : i = e.session
  · subst hi
    have hset := getElem?_set_of_some htalk (next reply)
    -- only one that was not told goes on, and it has nothing left but to give up
    rcases h with ⟨-, hdone⟩ | ⟨htold, habandon | hdone⟩
    · cases htalk.symm.trans hdone
    · cases htalk.symm.trans habandon
      exact .inr ⟨htold, .inr hset⟩
    · cases htalk.symm.trans hdone
  · rw [List.getElem?_set_ne hi]
    exact h

/-- The state of sessions that bring the tables up to date, of which those in `log` have
committed. -/
structure Migrated (listed : List (Nat × Statement)) (tables : Tables) (log : List Commit)
    (c : Crowd (Except Fault Unit)) : Prop where
  exclusive : c.database.Exclusive
  committed : c.database.committed =
    if log = [] then tables else tables.applyAll (upgrade listed tables)
  once : (log.map (·.session)).Nodup
  ended : ∀ e ∈ log, c.Ended e
  others : ∀ i talk, c.talks[i]? = some talk → i ∉ log.map (·.session) →
    Upgrading listed c.database i talk

namespace Migrated

variable {listed : List (Nat × Statement)} {tables : Tables} {log : List Commit}
  {c : Crowd (Except Fault Unit)}

theorem start (listed : List (Nat × Statement)) (tables : Tables) (n : Nat) :
    Migrated listed tables [] (ofMigrations listed tables n) where
  exclusive := by
    intro id i j hi
    cases hi
  committed := rfl
  once := List.nodup_nil
  ended := nofun
  others := by
    intro i talk htalk _
    rw [List.eq_of_mem_replicate (List.mem_of_getElem? htalk)]
    exact .starting

section Step

variable {i : Nat} {mishap : Option Database.Mishap} {s : Statement}
  {next : Reply → Talk (Except Fault Unit)} {reply : Reply} {d' : Database}

/-- The other sessions, after a step that commits nothing while they have the lock. -/
theorem others_step (h : Migrated listed tables log c)
    (hframe : Database.Frame c.database d' i)
    (hcommitted : ∀ j, j ≠ i → c.database.Holds j .migrations →
      d'.committed = c.database.committed)
    {j : Nat} (hij : j ≠ i) {talk talk' : Talk (Except Fault Unit)}
    (htalk : (c.talks.set i talk')[j]? = some talk) (hj : j ∉ log.map (·.session)) :
    Upgrading listed d' j talk := by
  rw [List.getElem?_set_ne fun h => hij h.symm] at htalk
  exact (h.others j talk htalk hj).frame hij hframe (hcommitted j hij)

/-- A step that commits nothing. -/
theorem keep (h : Migrated listed tables log c) (htalk : c.talks[i]? = some (.ask s next))
    (hframe : Database.Frame c.database d' i)
    (hcommitted : d'.committed = c.database.committed)
    (hself : i ∉ log.map (·.session) → Upgrading listed d' i (next reply)) :
    Migrated listed tables log ⟨d', c.talks.set i (next reply)⟩ where
  exclusive := hframe.exclusive h.exclusive
  committed := hcommitted.trans h.committed
  once := h.once
  ended := fun e he => (h.ended e he).step htalk reply d'
  others := by
    intro j talk htalk' hj
    by_cases hij : j = i
    · subst hij
      cases (getElem?_set_of_some htalk (next reply)).symm.trans htalk'
      exact hself hj
    · exact h.others_step hframe (fun _ _ _ => hcommitted) hij htalk' hj

/-- A step that commits. Whatever was pending when the version was read still is, and after the
first commit nothing is pending any more. -/
theorem commit (h : Migrated listed tables log c) (hlisted : Migration.Listed listed)
    (htalk : c.talks[i]? = some (.ask s next)) (hi : i ∉ log.map (·.session))
    (hframe : Database.Frame c.database d' i)
    (hcommits : Upgrading.Commits listed c.database d' i mishap s (next reply)) :
    Migrated listed tables (log ++ [⟨i, mishap.isNone⟩]) ⟨d', c.talks.set i (next reply)⟩ where
  exclusive := hframe.exclusive h.exclusive
  committed := by
    rw [if_neg (by simp)]
    refine hcommits.committed.trans ?_
    rw [h.committed]
    split
    · rfl
    · exact Migration.upgrade_upgrade hlisted tables
  once := by
    rw [List.map_append, List.map_singleton, ← List.concat_eq_append]
    exact List.Nodup.concat hi h.once
  ended := by
    intro e he
    rcases List.mem_append.mp he with he | he
    · exact (h.ended e he).step htalk reply d'
    · rw [List.mem_singleton.mp he]
      have hset := getElem?_set_of_some htalk (next reply)
      rcases hcommits.outcome with ⟨rfl, hdone⟩ | ⟨rfl, habandon⟩
      · exact .inl ⟨rfl, by rw [← hdone]; exact hset⟩
      · exact .inr ⟨rfl, .inl (by rw [← habandon]; exact hset)⟩
  others := by
    intro j talk htalk' hj
    rw [List.map_append, List.mem_append, not_or] at hj
    have hij : j ≠ i := fun heq => hj.2 (by simp [heq])
    -- nobody else has the lock
    exact h.others_step hframe (fun j hij hheld => absurd (h.exclusive hheld hcommits.held) hij)
      hij htalk' hj.1

end Step

/-- A session that has committed can only be giving up. -/
theorem abandons_of_mem (h : Migrated listed tables log c) {i : Nat} {s : Statement}
    {next : Reply → Talk (Except Fault Unit)} (htalk : c.talks[i]? = some (.ask s next))
    (hi : i ∈ log.map (·.session)) : Talk.ask s next = Migration.abandon .connection := by
  obtain ⟨e, he, rfl⟩ := List.mem_map.mp hi
  rcases h.ended e he with ⟨-, hdone⟩ | ⟨-, habandon | hdone⟩
  · cases htalk.symm.trans hdone
  · exact Option.some.inj (htalk.symm.trans habandon)
  · cases htalk.symm.trans hdone

/-- A session gets a reply: it commits, or nothing is committed. -/
theorem replied (h : Migrated listed tables log c) (hlisted : Migration.Listed listed) {i : Nat}
    {mishap : Option Database.Mishap} {s : Statement}
    {next : Reply → Talk (Except Fault Unit)} {reply : Reply} {d' : Database}
    (htalk : c.talks[i]? = some (.ask s next))
    (hreply : c.database.reply? i mishap s = some (reply, d')) :
    Migrated listed tables
      (log ++ (if c.database.completes i mishap s then some ⟨i, mishap.isNone⟩ else none).toList)
      ⟨d', c.talks.set i (next reply)⟩ := by
  have hframe := Database.frame_reply? hreply
  have hkeep : Upgrading.Keeps listed c.database d' i mishap s (next reply) →
      Migrated listed tables (log ++ (if c.database.completes i mishap s then
        some (⟨i, mishap.isNone⟩ : Commit) else none).toList) ⟨d', c.talks.set i (next reply)⟩ := by
    intro hkept
    rw [hkept.silent]
    show Migrated listed tables (log ++ []) _
    rw [List.append_nil]
    exact h.keep htalk hframe hkept.committed fun _ => hkept.stage
  by_cases hi : i ∈ log.map (·.session)
  · exact hkeep (Upgrading.step_abandoned (h.abandons_of_mem htalk hi) hreply)
  · rcases (h.others i _ htalk hi).step hlisted hreply with hkept | hcommits
    · exact hkeep hkept
    · rw [hcommits.visible]
      exact h.commit hlisted htalk hi hframe hcommits

theorem step (h : Migrated listed tables log c) (hlisted : Migration.Listed listed) (turn : Turn) :
    Migrated listed tables (log ++ (c.completed? turn).toList) (c.step turn) := by
  obtain ⟨i, mishap⟩ := turn
  have hidle : c.completed? ⟨i, mishap⟩ = none → c.step ⟨i, mishap⟩ = c →
      Migrated listed tables (log ++ (c.completed? ⟨i, mishap⟩).toList)
        (c.step ⟨i, mishap⟩) := by
    intro hcompleted hstep
    rw [hcompleted, hstep]
    show Migrated listed tables (log ++ []) c
    rw [List.append_nil]
    exact h
  cases htalk : c.talks[i]? with
  | none => exact hidle (by simp only [completed?, htalk]) (by simp only [Crowd.step, htalk])
  | some talk =>
    cases talk with
    | done a => exact hidle (by simp only [completed?, htalk]) (by simp only [Crowd.step, htalk])
    | ask s next =>
      have hcompleted : c.completed? ⟨i, mishap⟩ =
          if c.database.completes i mishap s then some ⟨i, mishap.isNone⟩ else none := by
        simp only [completed?, htalk]
      cases hreply : c.database.reply? i mishap s with
      | none =>
        -- it waits for the lock
        rw [Database.completes_of_waiting hreply] at hcompleted
        exact hidle hcompleted (step_of_waiting htalk hreply)
      | some r =>
        rw [hcompleted, step_of_reply htalk hreply]
        exact h.replied hlisted htalk hreply

theorem run (hlisted : Migration.Listed listed) (tables : Tables) (n : Nat)
    (turns : List Turn) :
    Migrated listed tables ((ofMigrations listed tables n).completed turns)
      ((ofMigrations listed tables n).run turns) := by
  induction turns using List.reverseRecOn with
  | nil => exact start listed tables n
  | append_singleton turns turn ih =>
    rw [completed_concat, run_concat]
    exact ih.step hlisted turn

/-- A session that has come to its end has committed if it succeeded. If it failed, it has not, or
was not told. -/
theorem told_of_done (h : Migrated listed tables log c) {i : Nat} {result : Except Fault Unit}
    (htalk : c.talks[i]? = some (.done result)) :
    (result = .ok () → ⟨i, true⟩ ∈ log) ∧
      ((∃ f, result = .error f) → ∀ e ∈ log, e.session = i → e.told = false) := by
  constructor
  · rintro rfl
    have hi : i ∈ log.map (·.session) := by
      by_contra hi
      obtain ⟨f, hf⟩ := (h.others i _ htalk hi).error_of_done
      cases hf
    obtain ⟨⟨session, told⟩, he, rfl⟩ := List.mem_map.mp hi
    rcases h.ended _ he with ⟨htold, -⟩ | ⟨-, habandon | hdone⟩
    · dsimp only at htold
      rw [← htold]
      exact he
    · cases htalk.symm.trans habandon
    · cases htalk.symm.trans hdone
  · rintro ⟨f, rfl⟩ e he rfl
    rcases h.ended e he with ⟨-, hdone⟩ | ⟨htold, -⟩
    · cases htalk.symm.trans hdone
    · exact htold

/-- No session asks for a migration that was not pending in the beginning. -/
theorem statement (h : Migrated listed tables log c) (hlisted : Migration.Listed listed) {i : Nat}
    {s : Statement} {next : Reply → Talk (Except Fault Unit)}
    (htalk : c.talks[i]? = some (.ask s next)) :
    s ∈ Migration.service ∨ ∃ m ∈ pending listed tables, s = m.2 ∨ s = .addVersion m.1 := by
  by_cases hi : i ∈ log.map (·.session)
  · cases h.abandons_of_mem htalk hi
    exact .inl (by decide)
  · rcases (h.others i _ htalk hi).statement with hservice | ⟨m, hm, hs⟩
    · exact .inl hservice
    · refine .inr ⟨m, ?_, hs⟩
      rw [h.committed] at hm
      split at hm
      · exact hm
      · rw [Migration.pending_upgrade hlisted] at hm
        cases hm

end Migrated

end Crowd

/-- **Each migration is made once.** However many sessions bring the tables up to date at once,
with their statements in any order and whatever goes wrong with them, what is committed is what
was there in the beginning, or that with all pending migrations made and recorded, once and in
the order of their versions. The latter is so from the first commit on, and hence once a session
has succeeded. A session that has failed has committed nothing if statements that are executed
are also answered, and otherwise nothing but what it was not told of: the reply to its commit was
lost. No migration is asked for that was not pending in the beginning.

The pending migrations are those of the list above the latest version that was recorded in the
beginning, and the list may be any whose versions ascend, like the one there is. -/
theorem migrations_made_once :
    Migration.migrate = Migration.migrateBy Migration.migrations ∧
    Migration.Listed Migration.migrations ∧
    ∀ listed, Migration.Listed listed → ∀ (tables : Tables) (n : Nat) (turns : List Crowd.Turn),
      let start := Crowd.ofMigrations listed tables n
      let final := start.run turns
      let log := start.completed turns
      final.database.committed =
          (if log = [] then tables else tables.applyAll (upgrade listed tables)) ∧
        (log ≠ [] → final.database.committed.recorded =
          tables.recorded ++ (pending listed tables).map (·.1)) ∧
        ((pending listed tables).map (·.1)).Pairwise (· < ·) ∧
        (log.map (·.session)).Nodup ∧
        (∀ i, final.talks[i]? = some (.done (.ok ())) → ⟨i, true⟩ ∈ log) ∧
        ((∀ turn ∈ turns, turn.mishap ≠ some (.loss true)) →
          ∀ i f, final.talks[i]? = some (.done (.error f)) → i ∉ log.map (·.session)) ∧
        (∀ i f, final.talks[i]? = some (.done (.error f)) →
          ∀ e ∈ log, e.session = i → e.told = false) ∧
        ∀ (i : Nat) (s : Statement) (next : Reply → Talk (Except Fault Unit)),
          final.talks[i]? = some (.ask s next) →
            s ∈ Migration.service ∨
              ∃ m ∈ pending listed tables, s = m.2 ∨ s = .addVersion m.1 := by
  refine ⟨Migration.migrate_eq, Migration.listed_migrations,
    fun listed hlisted tables n turns => ?_⟩
  intro start final log
  have h : Crowd.Migrated listed tables log final := Crowd.Migrated.run hlisted tables n turns
  refine ⟨h.committed, fun hlog => ?_, ?_, h.once, fun i htalk => (h.told_of_done htalk).1 rfl,
    fun hlost i f htalk hi => ?_, fun i f htalk => (h.told_of_done htalk).2 ⟨f, rfl⟩,
    fun i s next htalk => h.statement hlisted htalk⟩
  · rw [h.committed, if_neg hlog]
    unfold Tables.recorded
    rw [Migration.versions_upgrade hlisted, Option.getD_some]
    rfl
  · exact hlisted.ascending.sublist (List.Sublist.map _ List.filter_sublist)
  · obtain ⟨e, he, hsession⟩ := List.mem_map.mp hi
    have htold := Crowd.told_of_mem_completed he hlost
    rw [(h.told_of_done htalk).2 ⟨f, rfl⟩ e he hsession] at htold
    cases htold

/-- Two servers that start on an empty database. -/
def twoServers : Crowd (Except Fault Unit) := .ofMigrations Migration.migrations ⟨none, none⟩ 2

/-- Turns in which the second of them asks for the lock while the first has it. -/
def bothAtOnce : List Crowd.Turn :=
  [0, 1, 0, 1, 0, 0, 0, 0, 0, 1, 1, 1, 1].map fun session => ⟨session, none⟩

/-- The second server waits for the first, and then finds nothing to do. -/
theorem migrations_made_once_by_two :
    (twoServers.completed bothAtOnce).map (·.session) = [0, 1] ∧
      (twoServers.run bothAtOnce).database.committed = ⟨some [], some [1]⟩ := by
  have hlog : (twoServers.completed bothAtOnce).map (·.session) = [0, 1] := by decide +kernel
  have hne : twoServers.completed bothAtOnce ≠ [] := by
    intro hnone
    rw [hnone] at hlog
    cases hlog
  have hcommitted := (migrations_made_once.2.2 Migration.migrations migrations_made_once.2.1
    ⟨none, none⟩ 2 bothAtOnce).1
  exact ⟨hlog, (hcommitted.trans (if_neg hne)).trans (by decide)⟩

/-- One server alone on an empty database. -/
def oneServer : Crowd (Except Fault Unit) := .ofMigrations Migration.migrations ⟨none, none⟩ 1

/-- Turns in which the connection of the only server is lost after its commit is executed. -/
def commitUnanswered : List Crowd.Turn :=
  [none, none, none, none, none, none, some (.loss true), none].map fun mishap => ⟨0, mishap⟩

/-- A call that fails can leave a trace: its migration is made and recorded, and it was not told. -/
theorem failed_migration_is_committed :
    (oneServer.run commitUnanswered).talks[0]? =
        some (.done (.error (Failure.connection.fault Migration.operation))) ∧
      oneServer.database.committed = ⟨none, none⟩ ∧
        (oneServer.run commitUnanswered).database.committed = ⟨some [], some [1]⟩ :=
  ⟨rfl, rfl, by decide +kernel⟩

end Telemetry.Postgres
