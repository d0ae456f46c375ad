import Telemetry.Proofs.Postgres.Locks
import Telemetry.Proofs.Postgres.Serial

/-!
# How merges come to their locks

A crowd reaches a state if some turns lead there (`Crowd.Reaches`). A call that nobody keeps from
the lock of the migrations comes to its first lock (`Crowd.reaches_first`), and from there takes
the locks of as many names as nobody else has taken (`Crowd.reaches_lockAll`), whatever the others
are doing.
-/

namespace Telemetry.Postgres

namespace Crowd

section Talks

variable {α : Type} {talks : List (Talk α)} {i : Nat} {t : Talk α}

theorem getElem?_set_of_some (h : talks[i]? = some t) (t' : Talk α) :
    (talks.set i t')[i]? = some t' := by
  rw [List.getElem?_set_self', h]
  rfl

theorem set_of_getElem? (h : talks[i]? = some t) : talks.set i t = talks := by
  obtain ⟨hlt, rfl⟩ := List.getElem?_eq_some_iff.mp h
  exact List.set_getElem_self hlt

end Talks

/-- Whether a crowd comes to a state in the course of some turns. -/
def Reaches {α : Type} (c c' : Crowd α) : Prop := ∃ turns, c.run turns = c'

namespace Reaches

variable {α β : Type} {c c' c'' : Crowd α}

theorem refl (c : Crowd α) : c.Reaches c := ⟨[], rfl⟩

theorem trans (h : c.Reaches c') (h' : c'.Reaches c'') : c.Reaches c'' := by
  obtain ⟨turns, rfl⟩ := h
  obtain ⟨turns', rfl⟩ := h'
  refine ⟨turns ++ turns', ?_⟩
  unfold run
  rw [List.foldl_append]

/-- A talk gets the reply to its next statement. -/
theorem ask {i : Nat} {s : Statement} {next : Reply → Talk α} {reply : Reply} {d' : Database}
    (htalk : c.talks[i]? = some (.ask s next))
    (hx : c.database.execute i s = some (reply, d')) :
    c.Reaches ⟨d', c.talks.set i (next reply)⟩ := by
  have hreply : c.database.reply? i none s = some (reply, d') := hx
  exact ⟨[⟨i, none⟩], step_of_reply htalk hreply⟩

/-- A talk goes on for as long as its beginning runs on its own. -/
theorem of_runs {i : Nat} {t : Talk β} {f : β → Talk α} {a : β} {d d' : Database}
    (h : t.Runs i d a d') {talks : List (Talk α)} (htalk : talks[i]? = some (t.bind f)) :
    (⟨d, talks⟩ : Crowd α).Reaches ⟨d', talks.set i (f a)⟩ := by
  induction h generalizing talks with
  | done a d =>
    have hset : talks.set i (f a) = talks := set_of_getElem? htalk
    rw [hset]
    exact refl _
  | @ask s next d d₁ d' reply a replied rest ih =>
    have hstep : (⟨d, talks⟩ : Crowd α).Reaches ⟨d₁, talks.set i ((next reply).bind f)⟩ :=
      ask (c := ⟨d, talks⟩) htalk replied
    have hrest := ih (getElem?_set_of_some htalk _)
    rw [List.set_set] at hrest
    exact hstep.trans hrest

end Reaches

end Crowd

/-! ## The statements on the way -/

section Runs

variable {d : Database} {i : Nat} {changes : List Change}

theorem Talk.Runs.frame {α : Type} {t : Talk α} {a : α} {d d' : Database}
    (h : t.Runs i d a d') : Database.Frame d d' i := by
  induction h with
  | done a d => exact Database.Frame.refl d i
  | ask replied rest ih => exact (Database.frame_execute replied).trans ih

namespace Database

/-- A session whose transaction has not failed gets a lock that nobody else holds. -/
theorem executes_lock (ht : d.transaction? i = some .fresh) {id : LockId}
    (hfree : ∀ j, d.Holds j id → j = i) :
    ∃ d', d.execute i (.lock id) = some (.done, d') ∧ d'.transaction? i = some .fresh := by
  unfold execute
  rw [ht]
  simp only [Transaction.fresh, Option.any_some, Bool.false_eq_true, if_false]
  rw [if_pos (grants_iff.mpr hfree)]
  refine ⟨_, rfl, ?_⟩
  split
  · exact ht
  · exact ht

/-- It waits for one that somebody else holds. -/
theorem execute_lock_eq_none (ht : d.transaction? i = some .fresh) {id : LockId} {j : Nat}
    (hheld : d.Holds j id) (hji : j ≠ i) : d.execute i (.lock id) = none := by
  have hgrants : ¬d.grants i id = true := fun h => hji (grants_iff.mp h j hheld)
  unfold execute
  rw [ht]
  simp only [Transaction.fresh, Option.any_some, Bool.false_eq_true, if_false]
  rw [if_neg hgrants]

theorem transaction?_change {d : Database} (ht : d.transaction? i = some ⟨changes, false⟩)
    (c : Change) :
    (d.change i c).transaction? i = some ⟨changes ++ [c], false⟩ ∧
      (d.change i c).committed = d.committed := by
  unfold change
  rw [ht]
  exact ⟨transaction?_setTransaction_self d i _, rfl⟩

theorem view_eq (ht : d.transaction? i = some ⟨changes, false⟩) :
    d.view i = d.committed.applyAll changes := by
  unfold view
  rw [ht]

theorem executes_latestVersion (ht : d.transaction? i = some ⟨changes, false⟩)
    (hversions : (d.committed.applyAll changes).versions.isSome) :
    ∃ latest, d.execute i .latestVersion = some (.version latest, d) := by
  obtain ⟨versions, hversions⟩ := Option.isSome_iff_exists.mp hversions
  unfold execute withVersions
  rw [view_eq ht, hversions, ht]
  exact ⟨_, rfl⟩

theorem execute_addVersion (ht : d.transaction? i = some ⟨changes, false⟩)
    (hversions : (d.committed.applyAll changes).versions.isSome) (version : Nat) :
    d.execute i (.addVersion version) = some (.done, d.change i (.addVersion version)) := by
  obtain ⟨versions, hversions⟩ := Option.isSome_iff_exists.mp hversions
  unfold execute withVersions
  rw [view_eq ht, hversions, ht]
  rfl

end Database

theorem Tables.isSome_versions_applyAll_concat {t : Tables} {c : Change}
    (h : (t.applyAll changes).versions.isSome) :
    (t.applyAll (changes ++ [c])).versions.isSome := by
  unfold applyAll at h ⊢
  rw [List.foldl_concat]
  cases c <;> simp [apply, h]

namespace Migration

/-- Making and recording migrations comes to its end, and leaves no lock behind. -/
theorem runs_applyAll {ms : List (Nat × Statement)} (hms : ∀ m ∈ ms, m.2 = .createMetrics)
    (ht : d.transaction? i = some ⟨changes, false⟩)
    (hversions : (d.committed.applyAll changes).versions.isSome) :
    ∃ d', (applyAll ms).Runs i d (.ok ()) d' ∧ ∀ id, ¬d'.Holds i id := by
  induction ms generalizing d changes with
  | nil =>
    refine ⟨d.commit i, .ask rfl (.done _ _), ?_⟩
    exact Database.not_holds_commit (by rw [ht]; rfl)
  | cons m ms ih =>
    obtain ⟨version, statement⟩ := m
    obtain rfl : statement = .createMetrics := hms _ List.mem_cons_self
    -- the table is made
    have hmake : d.execute i .createMetrics = some (.done, d.change i .makeMetrics) := by
      unfold Database.execute
      rw [ht]
      rfl
    obtain ⟨ht₁, hcommitted₁⟩ := Database.transaction?_change ht .makeMetrics
    have hversions₁ : ((d.change i .makeMetrics).committed.applyAll
        (changes ++ [.makeMetrics])).versions.isSome := by
      rw [hcommitted₁]
      exact Tables.isSome_versions_applyAll_concat hversions
    -- and recorded
    have hrecord := Database.execute_addVersion ht₁ hversions₁ version
    obtain ⟨ht₂, hcommitted₂⟩ := Database.transaction?_change ht₁ (.addVersion version)
    obtain ⟨d', hruns, hnone⟩ := ih (fun m hm => hms m (List.mem_cons_of_mem _ hm)) ht₂ (by
      rw [hcommitted₂]
      exact Tables.isSome_versions_applyAll_concat hversions₁)
    exact ⟨d', .ask hmake (.ask hrecord hruns), hnone⟩

/-- With nobody else at it, the tables are brought up to date. -/
theorem runs_migrate_of_free (hfree : ∀ j, ¬d.Holds j .migrations) :
    ∃ d', migrate.Runs i d (.ok ()) d' ∧ ∀ id, ¬d'.Holds i id := by
  have hbegin : d.execute i .begin = some (.done, d.setTransaction i .fresh) := rfl
  obtain ⟨d₁, hlock, ht₁⟩ := Database.executes_lock (d := d.setTransaction i .fresh)
    (Database.transaction?_setTransaction_self d i _) (fun j hj => absurd hj (hfree j))
  have hmake : d₁.execute i .createVersions = some (.done, d₁.change i .makeVersions) := by
    unfold Database.execute
    rw [ht₁]
    rfl
  obtain ⟨ht₂, -⟩ := Database.transaction?_change ht₁ .makeVersions
  have hversions : ((d₁.change i .makeVersions).committed.applyAll
      ([] ++ [.makeVersions])).versions.isSome := rfl
  obtain ⟨latest, hlatest⟩ := Database.executes_latestVersion ht₂ hversions
  have hms : ∀ m ∈ above latest, m.2 = .createMetrics := by
    intro m hm
    have hm : m ∈ migrations := List.mem_of_mem_filter hm
    rw [List.mem_singleton.mp hm]
  obtain ⟨d', hruns, hnone⟩ := runs_applyAll hms ht₂ hversions
  exact ⟨d', .ask hbegin (.ask hlock (.ask hmake (.ask hlatest hruns))), hnone⟩

end Migration

end Runs

namespace Crowd

variable {c : Crowd (Except Fault (List Metric))} {i : Nat}

/-- A call comes to its first lock. -/
theorem reaches_first {call : MergeCall} (htalk : c.talks[i]? = some call.talk)
    (hasks : withoutDatabase (.mergeMany call.batch) = none)
    (hfree : ∀ j, ¬c.database.Holds j .migrations) (hnone : ∀ id, ¬c.database.Holds i id) :
    ∃ d', c.Reaches ⟨d', c.talks.set i (Merge.lockAll call.batch (Merge.lockOrder call.batch))⟩ ∧
      Database.Frame c.database d' i ∧ d'.transaction? i = some .fresh ∧ ∀ id, ¬d'.Holds i id := by
  -- first it has the tables brought up to date
  obtain ⟨d₁, hruns, hnone₁⟩ : ∃ d₁, (MergeCall.prepare call.ready).Runs i c.database (.ok ()) d₁ ∧
      ∀ id, ¬d₁.Holds i id := by
    unfold MergeCall.prepare
    split
    · exact ⟨c.database, .done _ _, hnone⟩
    · exact Migration.runs_migrate_of_free hfree
  rw [MergeCall.talk_eq hasks] at htalk
  have hprepared : c.Reaches ⟨d₁, c.talks.set i (Merge.merge call.batch)⟩ :=
    Reaches.of_runs hruns htalk
  have hbegun := Reaches.ask (c := ⟨d₁, c.talks.set i (Merge.merge call.batch)⟩)
    (getElem?_set_of_some htalk _) rfl
  rw [List.set_set] at hbegun
  refine ⟨_, hprepared.trans hbegun, ?_, Database.transaction?_setTransaction_self d₁ i _, hnone₁⟩
  exact hruns.frame.trans (Database.Frame.setTransaction d₁ i _)

/-- A merge takes the locks of some names that nobody else has taken. -/
theorem reaches_lockAll {batch : List Metric} {taken rest : List String}
    (htalk : c.talks[i]? = some (Merge.lockAll batch (taken ++ rest)))
    (ht : c.database.transaction? i = some .fresh)
    (hfree : ∀ name ∈ taken, ∀ j, c.database.Holds j (nameLock name) → j = i) :
    ∃ d', c.Reaches ⟨d', c.talks.set i (Merge.lockAll batch rest)⟩ ∧
      Database.Frame c.database d' i ∧ d'.transaction? i = some .fresh ∧
      ∀ id, d'.Holds i id ↔ c.database.Holds i id ∨ ∃ name ∈ taken, nameLock name = id := by
  induction taken generalizing c with
  | nil =>
    have hset : c.talks.set i (Merge.lockAll batch rest) = c.talks := set_of_getElem? htalk
    refine ⟨c.database, ?_, Database.Frame.refl _ _, ht, fun id => by simp⟩
    rw [hset]
    exact Reaches.refl c
  | cons name taken ih =>
    obtain ⟨d₁, hlock, ht₁⟩ := Database.executes_lock ht (hfree name List.mem_cons_self)
    have hheld₁ := Database.holds_execute_lock hlock (by simp)
    have hframe₁ := Database.frame_execute hlock
    have hstep := Reaches.ask htalk hlock
    have hfree₁ : ∀ name ∈ taken, ∀ j, d₁.Holds j (nameLock name) → j = i := by
      intro name' hname' j hj
      by_contra hji
      exact hji (hfree name' (List.mem_cons_of_mem _ hname') j ((hframe₁.locks hji).mp hj))
    obtain ⟨d', hrest, hframe, ht', hheld⟩ :=
      ih (c := ⟨d₁, c.talks.set i (Merge.lockAll batch (taken ++ rest))⟩)
        (getElem?_set_of_some htalk _) ht₁ hfree₁
    rw [List.set_set] at hrest
    refine ⟨d', hstep.trans hrest, hframe₁.trans hframe, ht', fun id => ?_⟩
    rw [hheld, hheld₁]
    simp only [List.mem_cons, exists_eq_or_imp]
    rw [or_assoc, eq_comm]

end Crowd

end Telemetry.Postgres
