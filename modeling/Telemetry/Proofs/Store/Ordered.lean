import Telemetry.Proofs.Server.Saved
import Telemetry.Proofs.Store.Growth

/-!
# The order of a table

Whatever a table is asked, what it becomes is what it was with some valid metrics written to it
(`Table.exists_insertAll`). So it keeps its entries in the order of their names, each name once, and
each valid metric under its own (`Table.Ordered.afterCalls`, `Table.Sound.afterCalls`). Such a table
is made again by writing its metrics one after another, since each of them goes to the end
(`Table.Ordered.ofMetrics_metrics`).
-/

namespace Telemetry

open Fallible (bind_eq_ok_iff)

namespace Table

/-! ## What a call writes -/

/-- **What a call writes to a table**, if anything, are valid metrics. -/
theorem exists_insertAll {t : Table} (h : t.Sound) (c : StoreCall) :
    ∃ ms, (∀ m ∈ ms, m.validate = .ok ()) ∧ ((Table.answer c).run t).2 = t.insertAll ms := by
  have hnothing : ∃ ms : List Metric, (∀ m ∈ ms, m.validate = .ok ()) ∧ t = t.insertAll ms :=
    ⟨[], nofun, rfl⟩
  cases c with
  | get name => exact hnothing
  | getMany names => exact hnothing
  | ping => exact hnothing
  | list => exact hnothing
  | create m =>
    show ∃ ms, _ ∧ (t.keep ((t.create m).map fun t => (t, ()))).2 = t.insertAll ms
    cases hcreate : t.create m with
    | error f => exact hnothing
    | ok t' =>
      obtain ⟨⟨⟩, hvalid, hcreate⟩ := bind_eq_ok_iff.mp hcreate
      dsimp only at hcreate
      split at hcreate
      · cases hcreate
      · exact ⟨[m], List.forall_mem_singleton.mpr hvalid, (Except.ok.inj hcreate).symm⟩
  | update m =>
    show ∃ ms, _ ∧ (t.keep ((t.update m).map fun t => (t, ()))).2 = t.insertAll ms
    cases hupdate : t.update m with
    | error f => exact hnothing
    | ok t' =>
      obtain ⟨⟨⟩, hvalid, hupdate⟩ := bind_eq_ok_iff.mp hupdate
      exact ⟨[m], List.forall_mem_singleton.mpr hvalid, (Except.ok.inj hupdate).symm⟩
  | updateMany ms =>
    show ∃ ms, _ ∧ (t.keep ((t.updateMany _).map fun t => (t, ()))).2 = t.insertAll ms
    cases hupdate : t.updateMany ms with
    | error f => exact hnothing
    | ok t' =>
      obtain ⟨⟨⟩, hvalid, hupdate⟩ := bind_eq_ok_iff.mp hupdate
      exact ⟨ms, validateAll_eq_ok_iff.mp hvalid, (Except.ok.inj hupdate).symm⟩
  | mergeMany batch =>
    rw [answer_mergeMany]
    cases hmerged : mergeBatch t.get? batch with
    | error f => exact hnothing
    | ok merged => exact ⟨merged, validateAll_eq_ok_iff.mp (h.of_mergeBatch hmerged).2, rfl⟩

namespace Sound

variable {t : Table}

theorem of_answer (h : t.Sound) (c : StoreCall) : ((Table.answer c).run t).2.Sound := by
  obtain ⟨ms, hms, hanswer⟩ := exists_insertAll h c
  rw [hanswer]
  exact h.insertAll hms

/-- A sound table stays so whatever it is asked. -/
theorem afterCalls (h : t.Sound) (calls : List StoreCall) : (t.afterCalls calls).Sound := by
  induction calls using List.reverseRecOn with
  | nil => exact h
  | append_singleton calls c ih =>
    rw [afterCalls_concat]
    exact ih.of_answer c

end Sound

/-! ## Names in order -/

/-- Whether the names of a table go up from each entry to those behind it. -/
def Ordered (t : Table) : Prop := t.entries.Pairwise fun a b => a.1 < b.1

namespace Ordered

variable {t : Table}

theorem empty : Table.empty.Ordered := List.Pairwise.nil

theorem pairwise_insertEntry {es : List (String × Metric)}
    (h : es.Pairwise fun a b => a.1 < b.1) (name : String) (m : Metric) :
    (insertEntry name m es).Pairwise fun a b => a.1 < b.1 := by
  induction es with
  | nil => exact List.pairwise_singleton _ _
  | cons e es ih =>
    obtain ⟨hfirst, hrest⟩ := List.pairwise_cons.mp h
    unfold insertEntry
    -- the entry comes before the first one, in its place, or somewhere behind it
    split
    next hless =>
      refine List.pairwise_cons.mpr ⟨fun e' he' => ?_, h⟩
      rcases List.mem_cons.mp he' with rfl | he'
      · exact hless
      · exact String.lt_trans hless (hfirst e' he')
    next hless =>
      split
      next heq => exact List.pairwise_cons.mpr ⟨fun e' he' => heq ▸ hfirst e' he', hrest⟩
      next hne =>
        have hgreater : e.1 < name :=
          Std.lt_of_le_of_ne (String.not_lt.mp hless) (Ne.symm hne)
        refine List.pairwise_cons.mpr ⟨fun e' he' => ?_, ih hrest⟩
        rcases mem_insertEntry he' with rfl | he'
        · exact hgreater
        · exact hfirst e' he'

theorem insertAll (h : t.Ordered) (ms : List Metric) : (t.insertAll ms).Ordered := by
  induction ms using List.reverseRecOn with
  | nil => exact h
  | append_singleton ms m ih =>
    rw [insertAll_concat]
    exact pairwise_insertEntry ih m.name m

/-- The names of a sound table stay in order whatever it is asked. -/
theorem afterCalls (h : t.Ordered) (hsound : t.Sound) (calls : List StoreCall) :
    (t.afterCalls calls).Ordered := by
  induction calls using List.reverseRecOn with
  | nil => exact h
  | append_singleton calls c ih =>
    rw [afterCalls_concat]
    obtain ⟨ms, -, hanswer⟩ := exists_insertAll (hsound.afterCalls calls) c
    rw [hanswer]
    exact ih.insertAll ms

end Ordered

/-! ## A table made again -/

/-- A name behind all others goes to the end. -/
theorem insertEntry_of_forall_lt {name : String} {es : List (String × Metric)}
    (h : ∀ e ∈ es, e.1 < name) (m : Metric) : insertEntry name m es = es ++ [(name, m)] := by
  induction es with
  | nil => rfl
  | cons e es ih =>
    obtain ⟨hfirst, hrest⟩ := List.forall_mem_cons.mp h
    have hless : ¬ name < e.1 := fun hless => String.lt_irrefl _ (String.lt_trans hless hfirst)
    have hne : name ≠ e.1 := by
      rintro rfl
      exact String.lt_irrefl _ hfirst
    rw [insertEntry, if_neg hless, if_neg hne, ih hrest]
    rfl

/-- **A table in order is made again from its metrics**, if each stands under its own name. -/
theorem Ordered.ofMetrics_metrics {t : Table} (h : t.Ordered)
    (hnames : ∀ e ∈ t.entries, e.2.name = e.1) : ofMetrics t.metrics = t := by
  obtain ⟨es⟩ := t
  unfold Ordered at h
  unfold metrics ofMetrics
  dsimp only at h hnames ⊢
  induction es using List.reverseRecOn with
  | nil => rfl
  | append_singleton es e ih =>
    -- the last metric is written last, when all others are in their places
    obtain ⟨hes, -, hlast⟩ := List.pairwise_append.mp h
    rw [List.map_append, List.map_singleton, insertAll_concat,
      ih hes fun e' he' => hnames e' (List.mem_append_left _ he'), hnames e (by simp)]
    unfold insert
    rw [insertEntry_of_forall_lt fun e' he' => hlast e' he' e (by simp)]

end Table

end Telemetry
