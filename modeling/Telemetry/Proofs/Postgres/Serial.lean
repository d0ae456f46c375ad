import Telemetry.Proofs.Postgres.Alone

/-!
# Merges at once

Merges that are made at once, statement by statement and in any order, come out as if those of
them that were committed had been made one after another, in the order of their commits
(`merges_serializable`). At each step of the crowd the committed rows are those of the serial
run so far, and every call that was not committed yet stands at a stage of its own (`Serial`).
A commit keeps both: what it writes was made from the rows that are still there, and the names
that it writes are locked, so that no other call has read them (`Serial.others_step`).
-/

namespace Telemetry.Postgres

namespace Crowd

/-- Calls to merge that are made at once. -/
def ofCalls (tables : Tables) (calls : List MergeCall) : Crowd (Except Fault (List Metric)) :=
  ⟨.ofTables tables, calls.map MergeCall.talk⟩

/-- A transaction that was committed. -/
structure Commit where
  session : Nat
  /-- whether its client got the reply -/
  told : Bool

variable {α : Type}

/-- The merge that a turn commits, if it commits one. -/
def commit? (c : Crowd α) (turn : Turn) : Option Commit :=
  match c.talks[turn.session]? with
  | some (.ask s _) =>
    if c.database.publishes turn.session turn.mishap s then
      some ⟨turn.session, turn.mishap.isNone⟩
    else none
  | _ => none

/-- The merges that are committed in the course of some turns, in the order of their
commits. -/
def commits (c : Crowd α) : List Turn → List Commit
  | [] => []
  | turn :: turns => (c.commit? turn).toList ++ (c.step turn).commits turns

theorem commits_concat (c : Crowd α) (turns : List Turn) (turn : Turn) :
    c.commits (turns ++ [turn]) = c.commits turns ++ ((c.run turns).commit? turn).toList := by
  induction turns generalizing c with
  | nil => exact List.append_nil _
  | cons first turns ih =>
    show _ ++ (c.step first).commits (turns ++ [turn]) = _
    rw [ih, ← List.append_assoc]
    rfl

theorem run_concat (c : Crowd α) (turns : List Turn) (turn : Turn) :
    c.run (turns ++ [turn]) = (c.run turns).step turn := by
  unfold run
  rw [List.foldl_append]
  rfl

theorem step_of_waiting {c : Crowd α} {i : Nat} {mishap : Option Database.Mishap} {s : Statement}
    {next : Reply → Talk α} (htalk : c.talks[i]? = some (.ask s next))
    (h : c.database.reply? i mishap s = none) : c.step ⟨i, mishap⟩ = c := by
  cases mishap with
  | none =>
    replace h : c.database.execute i s = none := h
    simp only [step, htalk, h]
  | some mishap =>
    replace h : c.database.executeWith i s mishap = none := h
    simp only [step, htalk, h]

theorem step_of_reply {c : Crowd α} {i : Nat} {mishap : Option Database.Mishap} {s : Statement}
    {next : Reply → Talk α} {r : Reply × Database} (htalk : c.talks[i]? = some (.ask s next))
    (h : c.database.reply? i mishap s = some r) :
    c.step ⟨i, mishap⟩ = ⟨r.2, c.talks.set i (next r.1)⟩ := by
  cases mishap with
  | none =>
    replace h : c.database.execute i s = some r := h
    simp only [step, htalk, h]
  | some mishap =>
    replace h : c.database.executeWith i s mishap = some r := h
    simp only [step, htalk, h]

/-- The batch of a call that was committed. -/
def batchOf (calls : List MergeCall) (e : Commit) : List Metric :=
  (calls[e.session]?.map (·.batch)).getD []

/-- What a call that was committed has come to, next to the result of the serial run: it has
returned that result, or if the reply to its commit was lost, it gives up. -/
def Answered (c : Crowd (Except Fault (List Metric))) (e : Commit)
    (result : Except Fault (List Metric)) : Prop :=
  (∃ merged, result = .ok merged) ∧
    ((e.told = true ∧ c.talks[e.session]? = some (.done result)) ∨
      (e.told = false ∧ (c.talks[e.session]? = some (Merge.abandon lostCommit) ∨
        c.talks[e.session]? = some (.done (.error lostCommit)))))

/-- What is true of a call that was not committed: it is under way, or was answered without
the database. -/
def Pending (d : Database) (i : Nat) (call : MergeCall)
    (talk : Talk (Except Fault (List Metric))) : Prop :=
  (withoutDatabase (.mergeMany call.batch) = none ∧
      ∃ last, Stage d i call.batch last talk) ∨
    ∃ result, withoutDatabase (.mergeMany call.batch) = some result ∧ talk = .done result

/-- A step of another call leaves a call where it is, if it leaves alone the rows whose locks
that call holds. -/
theorem Pending.frame {d d' : Database} {i j : Nat} {call : MergeCall}
    {talk : Talk (Except Fault (List Metric))} (h : Pending d j call talk) (hij : j ≠ i)
    (hframe : Database.Frame d d' i)
    (hrows : (∀ name ∈ uniqueNames call.batch, d.Holds j (nameLock name)) →
      (d'.committed.rows.filter fun e => e.1 ∈ uniqueNames call.batch) =
        d.committed.rows.filter fun e => e.1 ∈ uniqueNames call.batch) :
    Pending d' j call talk := by
  rcases h with ⟨hcall, last, hstage⟩ | hanswered
  · exact Or.inl ⟨hcall, last, hstage.frame hij hframe hrows⟩
  · exact Or.inr hanswered

theorem Answered.step {c : Crowd (Except Fault (List Metric))} {e : Commit}
    {result : Except Fault (List Metric)} {i : Nat} {s : Statement}
    {next : Reply → Talk (Except Fault (List Metric))} (h : c.Answered e result)
    (htalk : c.talks[i]? = some (.ask s next)) (reply : Reply) (d' : Database) :
    Answered ⟨d', c.talks.set i (next reply)⟩ e result := by
  refine ⟨h.1, ?_⟩
  replace h := h.2
  by_cases hi : i = e.session
  · subst hi
    have hset : (c.talks.set e.session (next reply))[e.session]? = some (next reply) := by
      rw [List.getElem?_set_self']
      rw [htalk]
      rfl
    -- the one talk of an answered call that goes on is giving up
    rcases h with ⟨-, hdone⟩ | ⟨htold, habandon | hdone⟩
    · rw [htalk] at hdone
      cases hdone
    · rw [htalk] at habandon
      cases habandon
      exact Or.inr ⟨htold, Or.inr hset⟩
    · rw [htalk] at hdone
      cases hdone
  · have hget : (c.talks.set i (next reply))[e.session]? = c.talks[e.session]? :=
      List.getElem?_set_ne hi
    rw [hget]
    exact h

/-! ## What holds at every step -/

/-- The state of a crowd of merges of which those in `log` were committed. -/
structure Serial (tables : Tables) (calls : List MergeCall) (log : List Commit)
    (c : Crowd (Except Fault (List Metric))) : Prop where
  size : c.talks.length = calls.length
  exclusive : c.database.Exclusive
  rows : c.database.committed.rows = (serialRun tables.rows (log.map (batchOf calls))).2
  once : (log.map (·.session)).Nodup
  answers : List.Forall₂ c.Answered log (serialRun tables.rows (log.map (batchOf calls))).1
  others : ∀ i call talk, calls[i]? = some call → c.talks[i]? = some talk →
    i ∉ log.map (·.session) → Pending c.database i call talk

namespace Serial

variable {tables : Tables} {calls : List MergeCall} {log : List Commit}
  {c : Crowd (Except Fault (List Metric))}

theorem start (tables : Tables) (calls : List MergeCall) :
    Serial tables calls [] (ofCalls tables calls) where
  size := List.length_map _
  exclusive := by
    intro id i j hi
    cases hi
  rows := rfl
  once := List.nodup_nil
  answers := .nil
  others := by
    intro i call talk hcall htalk _
    have htalk : call.talk = talk := by
      have hmap : (calls.map MergeCall.talk)[i]? = some talk := htalk
      rw [List.getElem?_map, hcall] at hmap
      exact Option.some.inj hmap
    subst htalk
    cases h : withoutDatabase (.mergeMany call.batch) with
    | some result =>
      refine Or.inr ⟨result, h, ?_⟩
      unfold MergeCall.talk
      rw [h]
    | none => exact Or.inl ⟨h, none, Stage.start h⟩

section Step

variable {i : Nat} {s : Statement} {next : Reply → Talk (Except Fault (List Metric))}
  {reply : Reply} {d' : Database}

/-- The other calls, after a step that leaves alone the rows whose locks they hold. -/
theorem others_step (h : Serial tables calls log c) (hframe : Database.Frame c.database d' i)
    (hrows : ∀ batch j, j ≠ i →
      (∀ name ∈ uniqueNames batch, c.database.Holds j (nameLock name)) →
        (d'.committed.rows.filter fun e => e.1 ∈ uniqueNames batch) =
          c.database.committed.rows.filter fun e => e.1 ∈ uniqueNames batch)
    {j : Nat} (hij : j ≠ i) {call : MergeCall} (hcall : calls[j]? = some call)
    {talk talk' : Talk (Except Fault (List Metric))}
    (htalk : (c.talks.set i talk')[j]? = some talk) (hj : j ∉ log.map (·.session)) :
    Pending d' j call talk := by
  rw [List.getElem?_set_ne fun h => hij h.symm] at htalk
  exact (h.others j call talk hcall htalk hj).frame hij hframe (hrows call.batch j hij)

/-- A step that commits nothing. -/
theorem keep (h : Serial tables calls log c) (htalk : c.talks[i]? = some (.ask s next))
    (hframe : Database.Frame c.database d' i)
    (hrows : d'.committed.rows = c.database.committed.rows)
    (hself : ∀ call, calls[i]? = some call → i ∉ log.map (·.session) →
      Pending d' i call (next reply)) :
    Serial tables calls log ⟨d', c.talks.set i (next reply)⟩ where
  size := (List.length_set ..).trans h.size
  exclusive := hframe.exclusive h.exclusive
  rows := hrows.trans h.rows
  once := h.once
  answers := h.answers.imp fun _ _ hanswered => hanswered.step htalk reply d'
  others := by
    intro j call talk hcall htalk' hj
    by_cases hij : j = i
    · subst hij
      have hset : (c.talks.set j (next reply))[j]? = some (next reply) := by
        rw [List.getElem?_set_self', htalk]
        rfl
      cases hset.symm.trans htalk'
      exact hself call hcall hj
    · exact h.others_step hframe (fun batch j _ _ => by rw [hrows]) hij hcall htalk' hj

/-- A step that commits a merge: it is what the merge does on its own after those before. -/
theorem publish (h : Serial tables calls log c) (htalk : c.talks[i]? = some (.ask s next))
    (hframe : Database.Frame c.database d' i) {call : MergeCall} (hcall : calls[i]? = some call)
    (hi : i ∉ log.map (·.session)) (hasks : withoutDatabase (.mergeMany call.batch) = none)
    {mishap : Option Database.Mishap} {last : Option Statement} {merged : List Metric}
    (hpublished : Published c.database d' i call.batch mishap last s (next reply) merged) :
    Serial tables calls (log ++ [⟨i, mishap.isNone⟩]) ⟨d', c.talks.set i (next reply)⟩ := by
  have hset : (c.talks.set i (next reply))[i]? = some (next reply) := by
    rw [List.getElem?_set_self', htalk]
    rfl
  have hbatch : batchOf calls ⟨i, mishap.isNone⟩ = call.batch := by
    unfold batchOf
    rw [hcall]
    rfl
  have halone : mergeAlone (serialRun tables.rows (log.map (batchOf calls))).2 call.batch =
      (.ok merged, putAll c.database.committed.rows merged) := by
    rw [mergeAlone_eq, hasks, ← h.rows]
    unfold Merge.outcome
    rw [hpublished.fold]
  have hserial : serialRun tables.rows
      ((log ++ [(⟨i, mishap.isNone⟩ : Commit)]).map (batchOf calls)) =
      ((serialRun tables.rows (log.map (batchOf calls))).1 ++ [.ok merged],
        putAll c.database.committed.rows merged) := by
    rw [List.map_append, List.map_singleton, hbatch, serialRun_concat, halone]
  refine ⟨(List.length_set ..).trans h.size, hframe.exclusive h.exclusive, ?_, ?_, ?_, ?_⟩
  · rw [hserial]
    exact hpublished.rows
  · rw [List.map_append, List.map_singleton, ← List.concat_eq_append]
    exact List.Nodup.concat hi h.once
  · rw [hserial]
    refine List.rel_append (h.answers.imp fun _ _ hanswered => hanswered.step htalk reply d') ?_
    refine .cons ⟨⟨merged, rfl⟩, ?_⟩ .nil
    rcases hpublished.outcome with ⟨rfl, hdone⟩ | ⟨rfl, habandon⟩
    · exact Or.inl ⟨rfl, by rw [← hdone]; exact hset⟩
    · exact Or.inr ⟨rfl, Or.inl (by rw [← habandon]; exact hset)⟩
  · intro j call' talk hcall' htalk' hj
    rw [List.map_append, List.mem_append, not_or] at hj
    have hij : j ≠ i := fun heq => hj.2 (by simp [heq])
    refine h.others_step hframe (fun batch j hij hheld => ?_) hij hcall' htalk' hj.1
    -- no name is locked by two calls
    rw [hpublished.rows]
    refine filter_putAll (p := fun name => name ∈ uniqueNames batch) (fun m hm => ?_) _
    rw [decide_eq_false_iff_not]
    intro hname
    have hmine : m.name ∈ uniqueNames call.batch := by
      rw [← Merge.names_of_fold hpublished.fold]
      exact List.mem_map_of_mem hm
    exact hij (h.exclusive (hheld m.name hname) (hpublished.held m.name hmine))

end Step

/-- A call that was committed can only be giving up. -/
theorem abandons_of_mem (h : Serial tables calls log c) {i : Nat} {s : Statement}
    {next : Reply → Talk (Except Fault (List Metric))} (htalk : c.talks[i]? = some (.ask s next))
    (hi : i ∈ log.map (·.session)) : Talk.ask s next = Merge.abandon lostCommit := by
  obtain ⟨e, he, rfl⟩ := List.mem_map.mp hi
  obtain ⟨k, hk, rfl⟩ := List.getElem_of_mem he
  obtain ⟨-, ⟨-, hdone⟩ | ⟨-, habandon | hdone⟩⟩ :=
    h.answers.get hk (by rw [← h.answers.length_eq]; exact hk)
  · cases htalk.symm.trans hdone
  · exact Option.some.inj (htalk.symm.trans habandon)
  · cases htalk.symm.trans hdone

/-- A call gets a reply: its merge is committed, or nothing is. -/
theorem replied (h : Serial tables calls log c) {i : Nat} {mishap : Option Database.Mishap}
    {s : Statement} {next : Reply → Talk (Except Fault (List Metric))} {reply : Reply}
    {d' : Database} (htalk : c.talks[i]? = some (.ask s next))
    (hreply : c.database.reply? i mishap s = some (reply, d')) :
    Serial tables calls
      (log ++ (if c.database.publishes i mishap s then some ⟨i, mishap.isNone⟩ else none).toList)
      ⟨d', c.talks.set i (next reply)⟩ := by
  have hframe := Database.frame_reply? hreply
  have hkeep : c.database.publishes i mishap s = false →
      d'.committed.rows = c.database.committed.rows →
      (∀ call, calls[i]? = some call → i ∉ log.map (·.session) →
        Pending d' i call (next reply)) →
      Serial tables calls (log ++ (if c.database.publishes i mishap s then
        some (⟨i, mishap.isNone⟩ : Commit) else none).toList) ⟨d', c.talks.set i (next reply)⟩ := by
    intro hsilent hrows hself
    rw [hsilent]
    show Serial tables calls (log ++ []) _
    rw [List.append_nil]
    exact h.keep htalk hframe hrows hself
  by_cases hi : i ∈ log.map (·.session)
  · -- it was committed before, and its client gives up
    have hkept : Kept c.database d' i [] mishap none s (next reply) :=
      step_rollback (h.abandons_of_mem htalk hi) hreply
    exact hkeep hkept.silent hkept.rows fun _ _ hnot => absurd hi hnot
  · obtain ⟨call, hcall⟩ : ∃ call, calls[i]? = some call := by
      have hlt : i < c.talks.length := (List.getElem?_eq_some_iff.mp htalk).1
      rw [h.size] at hlt
      exact ⟨calls[i], List.getElem?_eq_getElem hlt⟩
    rcases h.others i call _ hcall htalk hi with ⟨hasks, last, hstage⟩ | ⟨_, -, hdone⟩
    · -- it is under way
      have hbatch := (MergeCall.withoutDatabase_eq_none_iff.mp hasks).2
      rcases hstage.step hbatch hreply with hkept | ⟨merged, hpublished⟩
      · refine hkeep hkept.silent hkept.rows fun call' hcall' _ => ?_
        cases hcall.symm.trans hcall'
        exact Or.inl ⟨hasks, _, hkept.stage⟩
      · rw [hpublished.visible]
        exact h.publish htalk hframe hcall hi hasks hpublished
    · cases hdone

theorem step (h : Serial tables calls log c) (turn : Turn) :
    Serial tables calls (log ++ (c.commit? turn).toList) (c.step turn) := by
  obtain ⟨i, mishap⟩ := turn
  have hidle : c.commit? ⟨i, mishap⟩ = none → c.step ⟨i, mishap⟩ = c →
      Serial tables calls (log ++ (c.commit? ⟨i, mishap⟩).toList) (c.step ⟨i, mishap⟩) := by
    intro hcommit hstep
    rw [hcommit, hstep]
    show Serial tables calls (log ++ []) c
    rw [List.append_nil]
    exact h
  cases htalk : c.talks[i]? with
  | none => exact hidle (by simp only [commit?, htalk]) (by simp only [Crowd.step, htalk])
  | some talk =>
    cases talk with
    | done a => exact hidle (by simp only [commit?, htalk]) (by simp only [Crowd.step, htalk])
    | ask s next =>
      have hcommit : c.commit? ⟨i, mishap⟩ =
          if c.database.publishes i mishap s then some ⟨i, mishap.isNone⟩ else none := by
        simp only [commit?, htalk]
      cases hreply : c.database.reply? i mishap s with
      | none =>
        -- it waits for a lock
        rw [Database.publishes_of_waiting hreply] at hcommit
        exact hidle hcommit (step_of_waiting htalk hreply)
      | some r =>
        rw [hcommit, step_of_reply htalk hreply]
        exact h.replied htalk hreply

theorem run (tables : Tables) (calls : List MergeCall) (turns : List Turn) :
    Serial tables calls ((ofCalls tables calls).commits turns)
      ((ofCalls tables calls).run turns) := by
  induction turns using List.reverseRecOn with
  | nil => exact start tables calls
  | append_singleton turns turn ih =>
    rw [commits_concat, run_concat]
    exact ih.step turn

end Serial

end Crowd

/-- **Merges at once are merges one after another.** Of any calls to merge that are made at
once, with their statements in any order and whatever goes wrong with them, those that were
committed leave the rows that they leave when they are made one after another in the order of
their commits, and have returned what they return then, unless the reply to the commit was
lost. Those that have come to their end without a commit have failed, or had nothing to do. Each
name holds what the batches that were committed make of it, so a counter has the sum of all
their increments, kept within the range of sixty-four bits at each step. -/
theorem merges_serializable (tables : Tables) (calls : List MergeCall)
    (turns : List Crowd.Turn) :
    let start := Crowd.ofCalls tables calls
    let final := start.run turns
    let log := start.commits turns
    let batches := log.map (Crowd.batchOf calls)
    let serial := serialRun tables.rows batches
    final.database.committed.rows = serial.2 ∧
      (log.map (·.session)).Nodup ∧
      List.Forall₂ final.Answered log serial.1 ∧
      (∀ i call result, calls[i]? = some call → final.talks[i]? = some (.done result) →
        i ∉ log.map (·.session) →
          (∃ f, result = .error f) ∨ (call.batch = [] ∧ result = .ok [])) ∧
      ∀ name,
        foldName (metricAt tables.rows name) (occurrences batches.flatten name) =
          .ok (metricAt final.database.committed.rows name) ∧
        ∀ m, metricAt final.database.committed.rows name = some m → m.kind = .counter →
          ∃ total : Int64, m.delta = some total ∧
            total = sumFrom (((metricAt tables.rows name).bind (·.delta)).getD 0)
              (occurrences batches.flatten name) ∧
            total.toInt = clampedSum (((metricAt tables.rows name).bind (·.delta)).getD 0).toInt
              (occurrences batches.flatten name) := by
  intro start final log batches serial
  have h := Crowd.Serial.run tables calls turns
  have hok : ∀ result ∈ serial.1, ∃ merged, result = .ok merged := by
    intro result hr
    obtain ⟨k, hk, rfl⟩ := List.getElem_of_mem hr
    exact (h.answers.get (by rw [h.answers.length_eq]; exact hk) hk).1
  refine ⟨h.rows, h.once, h.answers, ?_, ?_⟩
  · intro i call result hcall htalk hi
    rcases h.others i call _ hcall htalk hi with ⟨-, last, hstage⟩ | ⟨r, hr, hdone⟩
    · exact Or.inl hstage.error_of_done
    · -- it never asked the database
      cases hdone
      exact MergeCall.of_withoutDatabase hr
  · intro name
    rw [h.rows]
    exact ⟨foldName_serialRun hok name,
      fun m hm hkind => ⟨_, delta_serialRun hok hm hkind, rfl, toInt_sumFrom _ _⟩⟩

end Telemetry.Postgres
