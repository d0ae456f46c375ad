import Mathlib.Data.List.Perm.Basic
import Telemetry.Agent.Report

/-!
# The polls that jobs carry

A report tells all the polls that were taken for it, once or not at all, and whether it goes out
as one job or as many, its jobs carry just these (`Tells.carried`, `Report.tells_jobs`).
-/

namespace Telemetry

namespace Job

/-- The metrics of a job that tell polls. -/
def pollMetrics (j : Job) : List Metric := j.metrics.filter fun m => m.name = pollCountName

/-- Whether a job tells polls at most once, and then some. -/
def TellsOnce (j : Job) : Prop :=
  j.pollMetrics = [] ∨ ∃ d, 0 < d ∧ j.pollMetrics = [.counter pollCountName d]

theorem polls_of_nil {j : Job} (h : j.pollMetrics = []) : j.polls.toInt = 0 := by
  show ((j.pollMetrics.filterMap Metric.delta).sum).toInt = 0
  rw [h]
  rfl

theorem polls_of_singleton {j : Job} {d : Int64} (h : j.pollMetrics = [.counter pollCountName d]) :
    j.polls = d := by
  show (j.pollMetrics.filterMap Metric.delta).sum = d
  rw [h]
  exact Int64.add_zero d

theorem TellsOnce.polls_nonneg {j : Job} (h : j.TellsOnce) : 0 ≤ j.polls.toInt := by
  rcases h with h | ⟨d, hd, h⟩
  · exact Int.le_of_eq (polls_of_nil h).symm
  · rw [polls_of_singleton h]
    exact Int.le_of_lt (Int64.lt_iff_toInt_lt.mp hd)

end Job

theorem toInt_eq_zero_of_not_pos {polls : Int64} (hpolls : 0 ≤ polls.toInt) (h : ¬0 < polls) :
    polls.toInt = 0 := by
  have hle : ¬(0 : Int64).toInt < polls.toInt := fun hlt => h (Int64.lt_iff_toInt_lt.mpr hlt)
  rw [Int64.toInt_zero] at hle
  omega

/-- How many polls some jobs carry. -/
def carried : List Job → Int
  | [] => 0
  | j :: js => j.polls.toInt + carried js

theorem carried_cons (j : Job) (js : List Job) : carried (j :: js) = j.polls.toInt + carried js :=
  rfl

theorem carried_append (js ks : List Job) : carried (js ++ ks) = carried js + carried ks := by
  induction js with
  | nil => exact (Int.zero_add _).symm
  | cons j js ih => rw [List.cons_append, carried_cons, carried_cons, ih, Int.add_assoc]

theorem carried_perm {js ks : List Job} (h : js.Perm ks) : carried js = carried ks := by
  induction h with
  | nil => rfl
  | cons j _ ih => rw [carried_cons, carried_cons, ih]
  | swap j k js => simp only [carried_cons, Int.add_left_comm]
  | trans _ _ ih ih' => exact ih.trans ih'

theorem carried_nonneg {js : List Job} (h : ∀ j ∈ js, j.TellsOnce) : 0 ≤ carried js := by
  induction js with
  | nil => exact Int.le_refl 0
  | cons j js ih =>
    have hj := (h j List.mem_cons_self).polls_nonneg
    have hjs := ih fun k hk => h k (List.mem_cons_of_mem j hk)
    rw [carried_cons]
    omega

/-- Whether some jobs together tell a number of polls: once if there are any, or else not at
all. -/
def Tells (jobs : List Job) (polls : Int64) : Prop :=
  jobs.flatMap Job.pollMetrics = if 0 < polls then [.counter pollCountName polls] else []

theorem carried_of_silent {jobs : List Job} (h : jobs.flatMap Job.pollMetrics = []) :
    carried jobs = 0 ∧ ∀ j ∈ jobs, j.TellsOnce := by
  induction jobs with
  | nil => exact ⟨rfl, fun _ hj => by cases hj⟩
  | cons j js ih =>
    rw [List.flatMap_cons, List.append_eq_nil_iff] at h
    obtain ⟨hcarried, honce⟩ := ih h.2
    rw [carried_cons, hcarried, Job.polls_of_nil h.1]
    exact ⟨rfl, List.forall_mem_cons.mpr ⟨Or.inl h.1, honce⟩⟩

namespace Tells

variable {jobs : List Job} {polls : Int64}

/-- Jobs carry the polls that they tell together, and each tells them at most once. -/
theorem carried (h : Tells jobs polls) (hpolls : 0 ≤ polls.toInt) :
    carried jobs = polls.toInt ∧ ∀ j ∈ jobs, j.TellsOnce := by
  unfold Tells at h
  split at h
  next hpos =>
    -- one of them tells the polls, the others are silent
    induction jobs with
    | nil => cases h
    | cons j js ih =>
      rw [List.flatMap_cons] at h
      rw [carried_cons]
      rcases List.append_eq_singleton_iff.mp h with ⟨hj, hjs⟩ | ⟨hj, hjs⟩
      · obtain ⟨hcarried, honce⟩ := ih hjs
        rw [hcarried, Job.polls_of_nil hj, Int.zero_add]
        exact ⟨rfl, List.forall_mem_cons.mpr ⟨Or.inl hj, honce⟩⟩
      · obtain ⟨hcarried, honce⟩ := carried_of_silent hjs
        rw [hcarried, Job.polls_of_singleton hj, Int.add_zero]
        exact ⟨rfl, List.forall_mem_cons.mpr ⟨Or.inr ⟨polls, hpos, hj⟩, honce⟩⟩
  next hpos =>
    rw [toInt_eq_zero_of_not_pos hpolls hpos]
    exact carried_of_silent h

theorem length_le (h : Tells jobs polls) : (jobs.flatMap Job.pollMetrics).length ≤ 1 := by
  rw [h]
  split <;> simp

end Tells

namespace Report

theorem filter_withPolls (snapshot : List Metric) (polls : Int64) :
    ((withPolls snapshot polls).filter fun m => m.name = pollCountName) =
      if 0 < polls then [.counter pollCountName polls] else [] := by
  have hnone : ((snapshot.filter fun m => m.name ≠ pollCountName).filter
      fun m => m.name = pollCountName) = [] := by
    rw [List.filter_filter]
    simp
  unfold withPolls
  rw [List.filter_append, hnone, List.nil_append]
  split <;> simp [Metric.counter]

/-- In whatever way a report is sent, its jobs have its metrics. -/
theorem flatMap_pollMetrics_jobs (isBatch : Bool) (report : List Metric) :
    (jobs isBatch report).flatMap Job.pollMetrics =
      report.filter fun m => m.name = pollCountName := by
  unfold jobs
  split
  · exact List.append_nil _
  · rw [List.flatMap_map]
    induction report with
    | nil => rfl
    | cons m ms ih =>
      rw [List.flatMap_cons, ih]
      unfold Job.pollMetrics Job.metrics
      by_cases hm : m.name = pollCountName <;> simp [hm]

/-- The jobs of a report tell the polls that were taken for it. -/
theorem tells_jobs (isBatch : Bool) (snapshot : List Metric) (polls : Int64) :
    Tells (jobs isBatch (withPolls snapshot polls)) polls := by
  unfold Tells
  rw [flatMap_pollMetrics_jobs, filter_withPolls]

end Report

end Telemetry
