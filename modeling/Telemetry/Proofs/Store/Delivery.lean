import Telemetry.Proofs.Metric.Sums
import Telemetry.Proofs.Store.Stepwise

/-!
# The order of delivery

Whether batches are taken in does not depend on their order or on how their members are grouped:
each member has to be valid and of the kind that its name has, and that kind is the same wherever
the fold of the name begins (`Admissible.perm`). What becomes of a name depends only on its own
occurrences (`Table.foldName_of_afterBatch`). For a counter that is a sum, so its order is lost
where the sum does not have to be kept in its range, or only at one end of it.

Of batches without a name in common each finds what it would have found without the other
(`Table.get?_answer_mergeMany_of_ne`), so they commute altogether.
-/

namespace Telemetry

open Fallible (bind_eq_ok_iff map_eq_ok_iff)

/-! ## Which batches are taken in -/

/-- What a merged batch found under one of its names has this name. -/
theorem keyed_of_mergeBatch {stored : String → Option Metric} {batch merged : List Metric}
    (h : mergeBatch stored batch = .ok merged) :
    ∀ m ∈ batch, ∀ s, stored m.name = some s → s.name = m.name := by
  induction batch using List.reverseRecOn generalizing merged with
  | nil => exact List.forall_mem_nil _
  | append_singleton batch m ih =>
    rw [mergeBatch_concat] at h
    obtain ⟨results, hresults, hm⟩ := bind_eq_ok_iff.mp h
    have hbatch := ih hresults
    have hf := folded_of_mergeBatch hresults
    intro m' hm' s hs
    rcases List.mem_append.mp hm' with hm' | hm'
    · exact hbatch m' hm' s hs
    · cases List.mem_singleton.mp hm'
      by_cases hseen : m.name ∈ uniqueNames batch
      · obtain ⟨x, hx, hname⟩ := mem_uniqueNames.mp hseen
        rw [← hname] at hs ⊢
        exact hbatch x hx s hs
      · have hnew : ¬∃ r ∈ results, r.name = m.name := fun h => hseen (hf.mem_iff.mpr h)
        obtain ⟨-, r, hr, -⟩ := (mergeMember_new_eq_ok_iff hnew).mp hm
        rw [hs, foldName_some_singleton] at hr
        obtain ⟨_, hmerge, -⟩ := map_eq_ok_iff.mp hr
        exact (Metric.merge_eq_ok_iff.mp hmerge).1

/-- What is stored, without what stands under a wrong name. -/
def keyedPart (stored : String → Option Metric) (name : String) : Option Metric :=
  (stored name).filter fun s => s.name = name

theorem name_of_keyedPart {stored : String → Option Metric} {name : String} {s : Metric}
    (h : keyedPart stored name = some s) : s.name = name :=
  of_decide_eq_true (Option.filter_eq_some_iff.mp h).2

theorem keyedPart_eq {stored : String → Option Metric} {name : String}
    (h : ∀ s, stored name = some s → s.name = name) : keyedPart stored name = stored name := by
  unfold keyedPart
  cases hs : stored name with
  | none => rfl
  | some s => simp [Option.filter, h s hs]

/-- What stands under a wrong name does not matter to a batch that has not got this name. -/
theorem exists_mergeBatch_of_keyed {stored : String → Option Metric} {batch : List Metric}
    (hkeyed : ∀ m ∈ batch, ∀ s, stored m.name = some s → s.name = m.name) :
    (∃ merged, mergeBatch stored batch = .ok merged) ↔ Admissible stored batch := by
  have hpart : ∀ m ∈ batch, stored m.name = keyedPart stored m.name :=
    fun m hm => (keyedPart_eq (hkeyed m hm)).symm
  rw [mergeBatch_congr hpart, (mergeBatch_folded (fun _ _ => name_of_keyedPart) batch).1]
  unfold Admissible
  refine forall₂_congr fun m hm => ?_
  rw [hpart m hm]

/-- Just those batches can be merged that are admissible and find nothing under a wrong name. -/
theorem exists_mergeBatch_iff {stored : String → Option Metric} {batch : List Metric} :
    (∃ merged, mergeBatch stored batch = .ok merged) ↔
      (∀ m ∈ batch, ∀ s, stored m.name = some s → s.name = m.name) ∧ Admissible stored batch := by
  constructor
  · intro h
    obtain ⟨merged, hmerged⟩ := h
    have hkeyed := keyed_of_mergeBatch hmerged
    exact ⟨hkeyed, (exists_mergeBatch_of_keyed hkeyed).mp ⟨merged, hmerged⟩⟩
  · intro h
    exact (exists_mergeBatch_of_keyed h.1).mpr h.2

theorem occurrences_perm {batch batch' : List Metric} (h : batch'.Perm batch) (name : String) :
    (occurrences batch' name).Perm (occurrences batch name) := h.filter _

namespace Admissible

variable {stored : String → Option Metric} {batch batch' : List Metric}

/-- Wherever the fold of a name begins, the kind is the same. -/
theorem kindOf_perm (h : Admissible stored batch) (hperm : batch'.Perm batch) (name : String) :
    kindOf (stored name) (occurrences batch' name) =
      kindOf (stored name) (occurrences batch name) := by
  have hocc := occurrences_perm hperm name
  unfold kindOf
  cases hs : stored name with
  | some s => rfl
  | none =>
    cases hfirst : occurrences batch' name with
    | nil =>
      rw [hfirst] at hocc
      rw [← hocc.nil_eq]
    | cons m rest =>
      have hm : m ∈ occurrences batch name := by
        refine hocc.mem_iff.mp ?_
        rw [hfirst]
        exact List.mem_cons_self
      obtain ⟨hbatch, hname⟩ := List.mem_filter.mp hm
      have hkind := (h m hbatch).2
      rw [of_decide_eq_true hname, hs] at hkind
      exact hkind.symm

/-- The order of a batch does not matter. -/
theorem perm (h : Admissible stored batch) (hperm : batch'.Perm batch) :
    Admissible stored batch' := by
  intro m hm
  obtain ⟨hvalid, hkind⟩ := h m (hperm.mem_iff.mp hm)
  exact ⟨hvalid, (h.kindOf_perm hperm m.name).trans hkind⟩

end Admissible

/-! ## What becomes of a name -/

/-- The results of a batch have each name once. -/
theorem Folded.occurrences_of_mem {stored : String → Option Metric} {seen results : List Metric}
    (h : Folded stored seen results) {r : Metric} (hr : r ∈ results) :
    occurrences results r.name = [r] := by
  obtain ⟨front, back, rfl, hothers⟩ := h.exists_split hr
  have hnone : ∀ l : List Metric, (∀ x ∈ l, x.name ≠ r.name) → occurrences l r.name = [] :=
    fun l hl => List.filter_eq_nil_iff.mpr fun x hx => by simpa using hl x hx
  have hfront := hnone front fun x hx => hothers x (List.mem_append_left _ hx)
  have hback := hnone back fun x hx => hothers x (List.mem_append_right _ hx)
  unfold occurrences at hfront hback ⊢
  rw [List.filter_append, hfront, List.filter_cons_of_pos (by simp), hback]
  rfl

namespace Table

/-- The increment under a name, or zero. -/
def total (t : Table) (name : String) : Int64 := ((t.get? name).bind (·.delta)).getD 0

theorem exists_afterBatch_iff {t : Table} {batch : List Metric} :
    (∃ t', t.afterBatch batch = .ok t') ↔ ∃ merged, mergeBatch t.get? batch = .ok merged := by
  rw [afterBatch_eq]
  constructor
  · rintro ⟨t', h⟩
    obtain ⟨merged, hmerged, -⟩ := map_eq_ok_iff.mp h
    exact ⟨merged, hmerged⟩
  · rintro ⟨merged, hmerged⟩
    exact ⟨_, map_eq_ok_iff.mpr ⟨merged, hmerged, rfl⟩⟩

theorem admissible_of_afterBatch {t t' : Table} {batch : List Metric}
    (h : t.afterBatch batch = .ok t') : Admissible t.get? batch :=
  (exists_mergeBatch_iff.mp (exists_afterBatch_iff.mp ⟨t', h⟩)).2

/-- A batch that can be merged can be merged in any order. -/
theorem exists_afterBatch_of_perm {t t' : Table} {batch batch' : List Metric}
    (h : t.afterBatch batch = .ok t') (hperm : batch'.Perm batch) :
    ∃ t'', t.afterBatch batch' = .ok t'' := by
  obtain ⟨hkeyed, hadmissible⟩ := exists_mergeBatch_iff.mp (exists_afterBatch_iff.mp ⟨t', h⟩)
  refine exists_afterBatch_iff.mpr (exists_mergeBatch_iff.mpr ⟨?_, hadmissible.perm hperm⟩)
  exact fun m hm => hkeyed m (hperm.mem_iff.mp hm)

/-- After a batch each name has what its fold gives. -/
theorem foldName_of_afterBatch {t t' : Table} {batch : List Metric}
    (h : t.afterBatch batch = .ok t') (name : String) :
    foldName (t.get? name) (occurrences batch name) = .ok (t'.get? name) := by
  rw [afterBatch_eq] at h
  obtain ⟨merged, hmerged, rfl⟩ := map_eq_ok_iff.mp h
  have hf := folded_of_mergeBatch hmerged
  rw [get?_insertAll]
  by_cases hname : name ∈ uniqueNames batch
  · obtain ⟨r, hr, rfl⟩ := hf.mem_iff.mp hname
    rw [hf.occurrences_of_mem hr]
    exact hf.entries r hr
  · have hnone : occurrences merged name = [] := by
      rw [occurrences_eq_nil_iff, mem_uniqueNames, ← hf.mem_iff]
      exact hname
    rw [hnone, occurrences_eq_nil_iff.mpr hname, foldName_nil]
    rfl

/-- After a batch a counter has the sum of its increments on top of what was stored. -/
theorem total_of_afterBatch {t t' : Table} {batch : List Metric} {name : String}
    (h : t.afterBatch batch = .ok t')
    (hcounter : kindOf (t.get? name) (occurrences batch name) = some .counter) :
    t'.total name = sumFrom (t.total name) (occurrences batch name) := by
  have hfold := foldName_of_afterBatch h name
  unfold total
  cases hget : t'.get? name with
  | none =>
    rw [hget] at hfold
    obtain ⟨hstored, hnone⟩ := foldName_eq_none hfold
    rw [hstored, hnone] at hcounter
    cases hcounter
  | some r =>
    rw [hget] at hfold
    have hkind := kindOf_of_foldName hfold
    rw [hcounter] at hkind
    exact foldName_delta hfold (Option.some.inj hkind).symm

/-! ## Batches without a name in common -/

/-- What a batch writes into a table: its results, or nothing if it fails. -/
def written (t : Table) (batch : List Metric) : List Metric :=
  (mergeBatch t.get? batch).toOption.getD []

theorem exists_of_mem_written {t : Table} {batch : List Metric} {r : Metric}
    (h : r ∈ t.written batch) : ∃ m ∈ batch, m.name = r.name := by
  unfold written at h
  cases hmerged : mergeBatch t.get? batch with
  | error f =>
    rw [hmerged] at h
    cases h
  | ok merged =>
    rw [hmerged] at h
    exact mem_uniqueNames.mp ((folded_of_mergeBatch hmerged).mem_iff.mpr ⟨r, h, rfl⟩)

theorem run_mergeMany (t : Table) (batch : List Metric) :
    (answer (.mergeMany batch)).run t =
      (mergeBatch t.get? batch, t.insertAll (t.written batch)) := by
  rw [answer_mergeMany]
  unfold written
  cases mergeBatch t.get? batch <;> rfl

/-- A batch leaves other names alone. -/
theorem get?_insertAll_written {t : Table} {batch : List Metric} {name : String}
    (h : ∀ m ∈ batch, m.name ≠ name) : (t.insertAll (t.written batch)).get? name = t.get? name := by
  have hnone : occurrences (t.written batch) name = [] := by
    rw [occurrences_eq_nil_iff, mem_uniqueNames]
    rintro ⟨r, hr, hname⟩
    obtain ⟨m, hm, hname'⟩ := exists_of_mem_written hr
    exact h m hm (hname'.trans hname)
  rw [get?_insertAll, hnone]
  rfl

variable {a b : List Metric}

/-- A batch is merged as if one without its names had not come before. -/
theorem mergeBatch_after_other (h : ∀ m ∈ a, ∀ m' ∈ b, m.name ≠ m'.name) (t : Table) :
    mergeBatch (t.insertAll (t.written a)).get? b = mergeBatch t.get? b :=
  mergeBatch_congr fun m' hm' => get?_insertAll_written fun m hm => h m hm m' hm'

/-- Batches without a name in common are answered alike and leave the same table in either
order. -/
theorem mergeMany_comm (h : ∀ m ∈ a, ∀ m' ∈ b, m.name ≠ m'.name) (t : Table) :
    (answer (.mergeMany b)).run ((answer (.mergeMany a)).run t).2 =
      (((answer (.mergeMany b)).run t).1,
        ((answer (.mergeMany a)).run ((answer (.mergeMany b)).run t).2).2) := by
  have h' : ∀ m ∈ b, ∀ m' ∈ a, m.name ≠ m'.name := fun m hm m' hm' => (h m' hm' m hm).symm
  have hb : (t.insertAll (t.written a)).written b = t.written b :=
    congrArg (fun x => x.toOption.getD []) (mergeBatch_after_other h t)
  have ha : (t.insertAll (t.written b)).written a = t.written a :=
    congrArg (fun x => x.toOption.getD []) (mergeBatch_after_other h' t)
  rw [run_mergeMany t a, run_mergeMany t b, run_mergeMany, run_mergeMany,
    mergeBatch_after_other h, hb, ha]
  refine congrArg (Prod.mk _) (insertAll_comm (fun r hr r' hr' heq => ?_) t)
  obtain ⟨m, hm, hname⟩ := exists_of_mem_written hr
  obtain ⟨m', hm', hname'⟩ := exists_of_mem_written hr'
  exact h m hm m' hm' (hname.trans (heq.trans hname'.symm))

end Table

/-! ## Deliveries to a store in memory -/

namespace DumpingStore

/-- Batches that are merged one after the other. -/
def deliver (batches : List (List Metric)) :
    StateM DumpingStore (List (Except Fault (List Metric))) :=
  batches.mapM fun batch => call (.mergeMany batch)

/-- Whether all of some batches are taken in. -/
def Accepts (s : DumpingStore) (batches : List (List Metric)) : Prop :=
  ∀ reply ∈ ((deliver batches).run s).1, reply.isOk = true

instance (s : DumpingStore) (batches : List (List Metric)) : Decidable (s.Accepts batches) :=
  inferInstanceAs (Decidable (∀ reply ∈ ((deliver batches).run s).1, reply.isOk = true))

/-- What a counter has after some batches. -/
def totalAfter (s : DumpingStore) (batches : List (List Metric)) (name : String) : Int64 :=
  ((deliver batches).run s).2.table.total name

theorem accepts_iff {s : DumpingStore} {batches : List (List Metric)} {t : Table} :
    (s.Accepts batches ∧ ((deliver batches).run s).2.table = t) ↔
      s.table.afterBatch batches.flatten = .ok t := by
  rw [← Table.foldlM_afterBatch]
  exact Makes.mapM (Makes.mergeMany answersAs_call) batches s t

section Orders

variable {s : DumpingStore} {batches other : List (List Metric)} {name : String}

/-- Batches that are taken in are so in any order and in any groups. -/
theorem Accepts.perm (h : s.Accepts batches) (hperm : other.flatten.Perm batches.flatten) :
    s.Accepts other := by
  obtain ⟨t, ht⟩ := Table.exists_afterBatch_of_perm (accepts_iff.mp ⟨h, rfl⟩) hperm
  exact (accepts_iff.mpr ht).1

/-- After batches that were taken in, a counter has the sum of its increments in the order in which
they came. -/
theorem Accepts.totalAfter_eq (h : s.Accepts batches)
    (hcounter : kindOf (s.table.get? name) (occurrences batches.flatten name) = some .counter) :
    s.totalAfter batches name = sumFrom (s.table.total name) (occurrences batches.flatten name) :=
  Table.total_of_afterBatch (accepts_iff.mp ⟨h, rfl⟩) hcounter

/-- In any order a counter has the sum of its increments in that order. -/
theorem Accepts.totalAfter_perm (h : s.Accepts batches)
    (hcounter : kindOf (s.table.get? name) (occurrences batches.flatten name) = some .counter)
    (hperm : other.flatten.Perm batches.flatten) :
    s.totalAfter other name = sumFrom (s.table.total name) (occurrences other.flatten name) := by
  have hadmissible := Table.admissible_of_afterBatch (accepts_iff.mp ⟨h, rfl⟩)
  exact (h.perm hperm).totalAfter_eq ((hadmissible.kindOf_perm hperm name).trans hcounter)

end Orders

/-- Two batches are answered as the table answers them. -/
theorem run_deliver_pair (s : DumpingStore) (a b : List Metric) :
    let first := (Table.answer (.mergeMany a)).run s.table
    let second := (Table.answer (.mergeMany b)).run first.2
    ((deliver [a, b]).run s).1 = [first.1, second.1] ∧
      ((deliver [a, b]).run s).2.table = second.2 := by
  intro first second
  obtain ⟨hfirst, htable⟩ := answersAs_call (.mergeMany a) s
  obtain ⟨hsecond, htable'⟩ :=
    answersAs_call (.mergeMany b) ((call (.mergeMany a)).run s).2
  rw [htable] at hsecond htable'
  have hrun : ((deliver [a, b]).run s).1 =
      [((call (.mergeMany a)).run s).1,
        ((call (.mergeMany b)).run ((call (.mergeMany a)).run s).2).1] := rfl
  exact ⟨by rw [hrun, hfirst, hsecond], htable'⟩

/-- **Counters do not depend on the order of delivery.** If a store takes in some batches, it takes
in the same members in any order and in any groups. A counter that is not negative and that nothing
is taken away from ends with what it had and all that was added, or at the end of the range,
whatever the order was. Also with increments of both signs two orders end alike, if in neither of
them a sum leaves the range on the way. Two batches without a name in common get the same replies in
either order, and leave the same metrics, also if one of them fails. -/
theorem delivery_order (s : DumpingStore) :
    (∀ batches, s.Accepts batches → ∀ name,
      kindOf (s.table.get? name) (occurrences batches.flatten name) = some .counter →
      ∀ other, other.flatten.Perm batches.flatten →
        let start := s.table.total name
        let incoming := occurrences batches.flatten name
        s.Accepts other ∧
          (0 ≤ start.toInt → (∀ m ∈ incoming, 0 ≤ (m.delta.getD 0).toInt) →
            (s.totalAfter other name).toInt =
              min Int64.maxValue.toInt (start.toInt + sumOfDeltas incoming)) ∧
          (StaysInRange start incoming → StaysInRange start (occurrences other.flatten name) →
            s.totalAfter other name = s.totalAfter batches name ∧
              (s.totalAfter other name).toInt = start.toInt + sumOfDeltas incoming)) ∧
    ∀ a b : List Metric, (∀ m ∈ a, ∀ m' ∈ b, m.name ≠ m'.name) →
      ((deliver [a, b]).run s).2.table = ((deliver [b, a]).run s).2.table ∧
        ((deliver [a, b]).run s).1 = ((deliver [b, a]).run s).1.reverse := by
  constructor
  · intro batches haccepts name hcounter other hperm start incoming
    have hocc : (occurrences other.flatten name).Perm incoming := occurrences_perm hperm name
    have hother := haccepts.totalAfter_perm hcounter hperm
    refine ⟨haccepts.perm hperm, ?_, ?_⟩
    · intro hstart hincoming
      rw [hother, toInt_sumFrom_of_nonneg hstart fun m hm => hincoming m (hocc.mem_iff.mp hm),
        sumOfDeltas_perm hocc]
    · intro hrange hrangeOther
      have hsum := toInt_sumFrom_of_staysInRange hrange
      have hsumOther := toInt_sumFrom_of_staysInRange hrangeOther
      rw [sumOfDeltas_perm hocc] at hsumOther
      rw [hother, haccepts.totalAfter_eq hcounter]
      exact ⟨Int64.toInt_inj.mp (hsumOther.trans hsum.symm), hsumOther⟩
  · intro a b h
    have h' : ∀ m ∈ b, ∀ m' ∈ a, m.name ≠ m'.name := fun m hm m' hm' => (h m' hm' m hm).symm
    obtain ⟨hreplies, htable⟩ := run_deliver_pair s a b
    obtain ⟨hreplies', htable'⟩ := run_deliver_pair s b a
    have hb := Table.mergeMany_comm h s.table
    have ha := Table.mergeMany_comm h' s.table
    refine ⟨htable.trans ((congrArg Prod.snd hb).trans htable'.symm), ?_⟩
    rw [hreplies, hreplies', hb, ha]
    rfl

/-- Two agents report a counter, which reaches the end of the range, and each another metric; and a
batch that fails is delivered before or after one of them. -/
theorem delivery_order_of_two_agents :
    let s := plain .empty
    let one : List Metric := [.counter "hits" 5, .gauge "cpu" ⟨0x4045000000000000⟩]
    let two : List Metric := [.counter "errors" 1, .counter "hits" Int64.maxValue]
    let bad : List Metric := [.counter "polls" 1, .counter "" 1]
    let regrouped := [[.counter "hits" Int64.maxValue], one, [.counter "errors" 1]]
    s.Accepts [one, two] ∧ regrouped.flatten.Perm [one, two].flatten ∧ s.Accepts regrouped ∧
      (s.totalAfter regrouped "hits").toInt = min Int64.maxValue.toInt (0 + (5 + (2 ^ 63 - 1))) ∧
      ((deliver [one, bad]).run s).2.table = ((deliver [bad, one]).run s).2.table ∧
      ((deliver [one, bad]).run s).1 = ((deliver [bad, one]).run s).1.reverse := by
  intro s one two bad regrouped
  have haccepts : s.Accepts [one, two] := by decide +kernel
  have hperm : regrouped.flatten.Perm [one, two].flatten := by decide +kernel
  obtain ⟨hcounters, hapart⟩ := delivery_order s
  obtain ⟨hregrouped, hsum, -⟩ :=
    hcounters [one, two] haccepts "hits" (by decide +kernel) regrouped hperm
  refine ⟨haccepts, hperm, hregrouped, ?_, hapart one bad (by decide +kernel)⟩
  exact hsum (by decide +kernel) (by decide +kernel)

end DumpingStore

end Telemetry
