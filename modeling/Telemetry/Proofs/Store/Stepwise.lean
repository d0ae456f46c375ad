import Telemetry.Proofs.Server.Demand

/-!
# Batches taken apart

While a batch is merged, its later members meet the results so far and not the table. Had the
results so far been written, they would meet the same metrics there: a name that was seen has the
same metric in both, and no other name was touched. So a batch with one member more is the batch
and then that member (`Table.afterBatch_concat`), and two batches in one are the one and then the
other, up to the fault with which they fail (`Table.afterBatch_append`).

The results are written at the end, in the order in which their names appeared. That the same table
comes of it is due to insertions that commute (`Table.insert_comm`) or replace one another
(`Table.insert_insert_self`).
-/

namespace Telemetry

open Fallible (bind_eq_ok_iff map_eq_ok_iff)

/-! ## Insertions one after the other -/

namespace Table

/-- Of two metrics put under one name the later one stays. -/
theorem insertEntry_insertEntry_self (name : String) (m m' : Metric)
    (es : List (String × Metric)) :
    insertEntry name m (insertEntry name m' es) = insertEntry name m es := by
  induction es with
  | nil => simp [insertEntry]
  | cons e es ih =>
    by_cases hless : name < e.1
    · simp [insertEntry, hless]
    · by_cases heq : name = e.1
      · simp [insertEntry, heq]
      · simp [insertEntry, hless, heq, ih]

theorem insertEntry_comm_of_lt {name other : String} (h : name < other) (m m' : Metric)
    (es : List (String × Metric)) :
    insertEntry name m (insertEntry other m' es) =
      insertEntry other m' (insertEntry name m es) := by
  have hback : ¬other < name := fun hless => String.lt_irrefl _ (String.lt_trans h hless)
  have hne : other ≠ name := fun heq => String.lt_irrefl name (heq ▸ h)
  induction es with
  | nil => simp [insertEntry, h, hback, hne]
  | cons e es ih =>
    -- the first entry is behind both names, between them, or before them, or has one of them
    by_cases hother : other < e.1
    · simp [insertEntry, hother, String.lt_trans h hother, h, hback, hne]
    · by_cases hothereq : other = e.1
      · subst hothereq
        simp [insertEntry, h, hback, hne]
      · by_cases hname : name < e.1
        · simp [insertEntry, hother, hothereq, hname, hback, hne]
        · by_cases hnameeq : name = e.1
          · subst hnameeq
            simp [insertEntry, hback, hne]
          · simp [insertEntry, hother, hothereq, hname, hnameeq, ih]

/-- Metrics under two names can be put into their places in either order. -/
theorem insertEntry_comm {name other : String} (h : name ≠ other) (m m' : Metric)
    (es : List (String × Metric)) :
    insertEntry name m (insertEntry other m' es) =
      insertEntry other m' (insertEntry name m es) := by
  by_cases hless : name < other
  · exact insertEntry_comm_of_lt hless m m' es
  · have hgreater : other < name := Std.lt_of_le_of_ne (String.not_lt.mp hless) (Ne.symm h)
    exact (insertEntry_comm_of_lt hgreater m' m es).symm

theorem insert_insert_self (t : Table) (name : String) (m m' : Metric) :
    (t.insert name m').insert name m = t.insert name m :=
  congrArg Table.mk (insertEntry_insertEntry_self name m m' t.entries)

theorem insert_comm {name other : String} (h : name ≠ other) (t : Table) (m m' : Metric) :
    (t.insert other m').insert name m = (t.insert name m).insert other m' :=
  congrArg Table.mk (insertEntry_comm h m m' t.entries)

theorem insertAll_append (t : Table) (front back : List Metric) :
    t.insertAll (front ++ back) = (t.insertAll front).insertAll back := List.foldl_append

/-- A metric can be written before others of other names. -/
theorem insert_insertAll_comm {name : String} {ms : List Metric} (h : ∀ m ∈ ms, m.name ≠ name)
    (t : Table) (m : Metric) : (t.insertAll ms).insert name m = (t.insert name m).insertAll ms := by
  induction ms using List.reverseRecOn with
  | nil => rfl
  | append_singleton ms last ih =>
    have hlast : name ≠ last.name := fun heq => h last (by simp) heq.symm
    rw [insertAll_concat, insertAll_concat, insert_comm hlast,
      ih fun m' hm' => h m' (List.mem_append_left _ hm')]

/-- Metrics of different names can be written in either order. -/
theorem insertAll_comm {ms ms' : List Metric} (h : ∀ m ∈ ms, ∀ m' ∈ ms', m.name ≠ m'.name)
    (t : Table) : (t.insertAll ms).insertAll ms' = (t.insertAll ms').insertAll ms := by
  induction ms' using List.reverseRecOn with
  | nil => rfl
  | append_singleton ms' last ih =>
    rw [insertAll_concat, insertAll_concat,
      ih fun m hm m' hm' => h m hm m' (List.mem_append_left _ hm'),
      insert_insertAll_comm fun m hm => h m hm last (by simp)]

end Table

/-! ## The loop over any stored metrics -/

/-- A batch that could be merged was folded name by name. -/
theorem folded_of_mergeBatch {stored : String → Option Metric} {batch merged : List Metric}
    (h : mergeBatch stored batch = .ok merged) : Folded stored batch merged := by
  induction batch using List.reverseRecOn generalizing merged with
  | nil =>
    cases h
    exact Folded.nil
  | append_singleton batch m ih =>
    rw [mergeBatch_concat] at h
    obtain ⟨results, hresults, hm⟩ := bind_eq_ok_iff.mp h
    have hf := ih hresults
    by_cases hseen : m.name ∈ uniqueNames batch
    · exact (mergeMember_seen_spec hf hseen).2 merged hm
    · have hnew : ¬∃ r ∈ results, r.name = m.name := fun h => hseen (hf.mem_iff.mpr h)
      obtain ⟨-, r, hr, rfl⟩ := (mergeMember_new_eq_ok_iff hnew).mp hm
      exact hf.append hseen hr

/-- A name has one result. -/
theorem Folded.exists_split {stored : String → Option Metric} {seen results : List Metric}
    (h : Folded stored seen results) {r : Metric} (hr : r ∈ results) :
    ∃ front back, results = front ++ r :: back ∧ ∀ x ∈ front ++ back, x.name ≠ r.name := by
  obtain ⟨front, back, rfl⟩ := List.append_of_mem hr
  refine ⟨front, back, rfl, fun x hx heq => ?_⟩
  have hnodup := nodup_uniqueNames seen
  rw [← h.names, List.map_append, List.map_cons, List.nodup_middle, List.nodup_cons,
    ← List.map_append] at hnodup
  exact hnodup.1 (List.mem_map.mpr ⟨x, hx, heq⟩)

/-- A member whose name has a result changes that result only. -/
theorem mergeMember_of_split {stored : String → Option Metric} {front back : List Metric}
    {r m : Metric} (hname : r.name = m.name) (hothers : ∀ x ∈ front ++ back, x.name ≠ m.name) :
    mergeMember stored (front ++ r :: back) m =
      m.validate >>= fun _ => (r.merge m).map fun r' => front ++ r' :: back := by
  have hkeep : ∀ l : List Metric, (∀ x ∈ l, x.name ≠ m.name) →
      (l.mapM fun x => if x.name = m.name then x.merge m else .ok x) = .ok l := by
    intro l hl
    have hid := Fallible.mapM_eq_ok_of_forall (l := l) (g := id)
      (f := fun x => if x.name = m.name then x.merge m else .ok x)
      fun x hx => if_neg (hl x hx)
    rw [List.map_id] at hid
    exact hid
  have hfront := hkeep front fun x hx => hothers x (List.mem_append_left _ hx)
  have hback := hkeep back fun x hx => hothers x (List.mem_append_right _ hx)
  rw [mergeMember_of_seen ⟨r, by simp, hname⟩, List.mapM_append, hfront, List.mapM_cons, hback,
    if_pos hname]
  congr
  funext _
  cases r.merge m <;> rfl

/-! ## A table after a batch -/

namespace Table

/-- The table after a batch, if that can be merged. -/
def afterBatch (t : Table) (batch : List Metric) : Except Fault Table :=
  (t.mergeMany batch).map (·.1)

theorem afterBatch_eq (t : Table) (batch : List Metric) :
    t.afterBatch batch = (mergeBatch t.get? batch).map t.insertAll := by
  unfold afterBatch mergeMany
  cases mergeBatch t.get? batch <;> rfl

theorem afterBatch_singleton (t : Table) (m : Metric) :
    t.afterBatch [m] = m.validate >>= fun _ =>
      (foldName (t.get? m.name) [m]).map fun r => t.insertAll r.toList := by
  have hmember : mergeBatch t.get? [m] = mergeMember t.get? [] m := bind_pure _
  rw [afterBatch_eq, hmember, mergeMember_of_new (by simp)]
  cases m.validate with
  | error f => rfl
  | ok _ => cases foldName (t.get? m.name) [m] <;> rfl

/-- A member whose name was not met yet finds in the table what was there before. -/
theorem afterBatch_concat_of_new {t : Table} {results : List Metric} {m : Metric}
    (hnew : ¬∃ r ∈ results, r.name = m.name) :
    (mergeMember t.get? results m).map t.insertAll = (t.insertAll results).afterBatch [m] := by
  have hget : (t.insertAll results).get? m.name = t.get? m.name := by
    have hnone : occurrences results m.name = [] := by
      rw [occurrences_eq_nil_iff, mem_uniqueNames]
      exact hnew
    rw [get?_insertAll, hnone]
    rfl
  rw [afterBatch_singleton, hget, mergeMember_of_new hnew]
  cases m.validate with
  | error f => rfl
  | ok _ =>
    cases foldName (t.get? m.name) [m] with
    | error f => rfl
    | ok r => exact congrArg Except.ok (insertAll_append t results r.toList)

/-- A member whose name was met finds in the table the result of that name. -/
theorem afterBatch_concat_of_seen {t : Table} {front back : List Metric} {r m : Metric}
    (hname : r.name = m.name) (hothers : ∀ x ∈ front ++ back, x.name ≠ m.name) :
    (mergeMember t.get? (front ++ r :: back) m).map t.insertAll =
      (t.insertAll (front ++ r :: back)).afterBatch [m] := by
  have hback : ∀ x ∈ back, x.name ≠ m.name := fun x hx => hothers x (List.mem_append_right _ hx)
  have hwritten : ∀ x : Metric, x.name = m.name →
      t.insertAll (front ++ x :: back) =
        ((t.insertAll front).insertAll back).insert m.name x := by
    intro x hx
    rw [insert_insertAll_comm hback, ← hx]
    exact insertAll_append t front (x :: back)
  rw [hwritten r hname, afterBatch_singleton, get?_insert_self, foldName_some_singleton,
    mergeMember_of_split hname hothers]
  cases m.validate with
  | error f => rfl
  | ok _ =>
    cases hmerge : r.merge m with
    | error f => rfl
    | ok r' =>
      have hname' : r'.name = m.name := by
        obtain ⟨-, -, rfl⟩ := Metric.merge_eq_ok_iff.mp hmerge
        exact (Metric.absorb_name r m).trans hname
      refine congrArg Except.ok ?_
      calc t.insertAll (front ++ r' :: back)
          = ((t.insertAll front).insertAll back).insert m.name r' := hwritten r' hname'
        _ = (((t.insertAll front).insertAll back).insert m.name r).insert m.name r' :=
            (insert_insert_self _ _ _ _).symm
        _ = (((t.insertAll front).insertAll back).insert m.name r).insert r'.name r' := by
            rw [hname']

/-- **One member more.** A batch with one member more is the batch and then that member. -/
theorem afterBatch_concat (t : Table) (batch : List Metric) (m : Metric) :
    t.afterBatch (batch ++ [m]) = t.afterBatch batch >>= fun t' => t'.afterBatch [m] := by
  rw [afterBatch_eq, afterBatch_eq t batch, mergeBatch_concat]
  cases hresults : mergeBatch t.get? batch with
  | error f => rfl
  | ok results =>
    show (mergeMember t.get? results m).map t.insertAll = (t.insertAll results).afterBatch [m]
    have hf := folded_of_mergeBatch hresults
    by_cases hseen : ∃ r ∈ results, r.name = m.name
    · obtain ⟨r, hr, hname⟩ := hseen
      obtain ⟨front, back, rfl, hothers⟩ := hf.exists_split hr
      exact afterBatch_concat_of_seen hname (hname ▸ hothers)
    · exact afterBatch_concat_of_new hseen

/-- **Two batches in one** are the one and then the other. -/
theorem afterBatch_append (t : Table) (front back : List Metric) :
    t.afterBatch (front ++ back) = t.afterBatch front >>= fun t' => t'.afterBatch back := by
  induction back using List.reverseRecOn with
  | nil =>
    rw [List.append_nil]
    exact (bind_pure (t.afterBatch front)).symm
  | append_singleton back m ih =>
    rw [← List.append_assoc, afterBatch_concat, ih, bind_assoc]
    congr
    funext t'
    exact (afterBatch_concat t' back m).symm

/-- Batches one after the other are one batch. -/
theorem foldlM_afterBatch (t : Table) (batches : List (List Metric)) :
    batches.foldlM afterBatch t = t.afterBatch batches.flatten := by
  induction batches generalizing t with
  | nil => rfl
  | cons batch batches ih =>
    rw [List.foldlM_cons, List.flatten_cons, afterBatch_append]
    congr
    funext t'
    exact ih t'

end Table

/-! ## Stores that keep a table -/

section Makes

variable {σ α β : Type} {view : σ → Table} {store : Store (StateM σ)}

/-- Whether an action succeeds just where a change of the table that is seen of the state can be
made, and has made it then. -/
def Makes (view : σ → Table) (change : Table → Except Fault Table)
    (act : StateM σ (Except Fault β)) : Prop :=
  ∀ s, (act.run s).1.map (fun _ => view (act.run s).2) = change (view s)

namespace Makes

theorem isOk_iff {change : Table → Except Fault Table} {act : StateM σ (Except Fault β)}
    (h : Makes view change act) (s : σ) (t : Table) :
    ((act.run s).1.isOk = true ∧ view (act.run s).2 = t) ↔ change (view s) = .ok t := by
  rw [← h s]
  cases (act.run s).1 with
  | error f => simp [Except.isOk, Except.toBool, Except.map]
  | ok b => simp [Except.isOk, Except.toBool, Except.map]

/-- What replies and leaves its state as the table does to a batch, up to the form of the reply. -/
theorem of_answer {batch : List Metric} {act : StateM σ (Except Fault β)} (form : β → List Metric)
    (h : ∀ s, (act.run s).1.map form = ((Table.answer (.mergeMany batch)).run (view s)).1 ∧
      view (act.run s).2 = ((Table.answer (.mergeMany batch)).run (view s)).2) :
    Makes view (·.afterBatch batch) act := by
  intro s
  obtain ⟨hreply, hview⟩ := h s
  calc (act.run s).1.map (fun _ => view (act.run s).2)
      = ((act.run s).1.map form).map (fun _ => view (act.run s).2) := by
        cases (act.run s).1 <;> rfl
    _ = (mergeBatch (view s).get? batch).map (view s).insertAll := by
        rw [hreply, hview, Table.answer_mergeMany]
        cases mergeBatch (view s).get? batch <;> rfl
    _ = (view s).afterBatch batch := (Table.afterBatch_eq _ _).symm

theorem mergeMany (hstore : AnswersAs view store) (batch : List Metric) :
    Makes view (·.afterBatch batch) (store (.mergeMany batch)) := by
  refine of_answer id fun s => ?_
  rw [Except.map_id]
  exact hstore (.mergeMany batch) s

/-- A single update merges a batch of one. -/
theorem update (hstore : AnswersAs view store) (m : Metric) :
    Makes view (·.afterBatch [m]) (Ingest.update store m) := by
  refine of_answer ([·]) fun s => ?_
  have hmeets : Meets view (.merge [m]) id
      (Ingest.update store m >>= fun reply => pure (reply.map ([·]))) :=
    Meets.update hstore m (fun _ => rfl) (fun _ => rfl)
  obtain ⟨s', hrun, hview⟩ := hmeets s
  rw [Demand.answer_merge] at hrun hview
  rw [StateT.run_bind] at hrun
  obtain ⟨hreply, hstate⟩ := Prod.mk.inj hrun
  exact ⟨hreply, (congrArg view hstate).trans hview⟩

/-- **A whole run.** Actions one after the other all succeed just where all their changes can be
made in turn. -/
theorem mapM {step : Table → α → Except Fault Table} {act : α → StateM σ (Except Fault β)}
    (h : ∀ a, Makes view (step · a) (act a)) (l : List α) (s : σ) (t : Table) :
    ((∀ reply ∈ ((l.mapM act).run s).1, reply.isOk = true) ∧ view ((l.mapM act).run s).2 = t) ↔
      l.foldlM step (view s) = .ok t := by
  induction l generalizing s with
  | nil =>
    rw [List.mapM_nil]
    constructor
    · intro h
      exact congrArg Except.ok h.2
    · intro h
      exact ⟨List.forall_mem_nil _, Except.ok.inj h⟩
  | cons a l ih =>
    have hrun : (((a :: l).mapM act).run s) =
        (((act a).run s).1 :: ((l.mapM act).run ((act a).run s).2).1,
          ((l.mapM act).run ((act a).run s).2).2) := by
      rw [List.mapM_cons]
      rfl
    rw [hrun, List.forall_mem_cons, List.foldlM_cons, bind_eq_ok_iff, and_assoc]
    dsimp only
    rw [ih]
    constructor
    · rintro ⟨hok, hrest⟩
      exact ⟨_, ((h a).isOk_iff s _).mp ⟨hok, rfl⟩, hrest⟩
    · rintro ⟨t', hstep, hrest⟩
      obtain ⟨hok, rfl⟩ := ((h a).isOk_iff s t').mpr hstep
      exact ⟨hok, hrest⟩

end Makes

end Makes

/-! ## The store in memory -/

/-- Two ways that succeed just where one change of a table can be made, and have made it then, come
to the same. -/
theorem same_of_iff {P Q : Prop} {x y : Table} {change : Except Fault Table}
    (hx : ∀ t, P ∧ x = t ↔ change = .ok t) (hy : ∀ t, Q ∧ y = t ↔ change = .ok t) :
    (P ↔ Q) ∧ (P → x = y) := by
  have hthere : P → Q ∧ y = x := fun hP => (hy x).mpr ((hx x).mp ⟨hP, rfl⟩)
  have hback : Q → P ∧ x = y := fun hQ => (hx y).mpr ((hy y).mp ⟨hQ, rfl⟩)
  exact ⟨⟨fun hP => (hthere hP).1, fun hQ => (hback hQ).1⟩, fun hP => (hthere hP).2.symm⟩

namespace DumpingStore

/-- **Batch boundaries do not matter.** A store in memory takes in two batches as one just if it
takes in the first and then the second, and holds the same metrics then. So a batch is taken in just
if each of its metrics is, by single updates one after the other, and again the same metrics are
held. -/
theorem batch_boundaries (s : DumpingStore) :
    (∀ a b,
      let whole := (call (.mergeMany (a ++ b))).run s
      let first := (call (.mergeMany a)).run s
      let second := (call (.mergeMany b)).run first.2
      (whole.1.isOk = true ↔ first.1.isOk = true ∧ second.1.isOk = true) ∧
        (whole.1.isOk = true → whole.2.table = second.2.table)) ∧
    ∀ batch,
      let whole := (call (.mergeMany batch)).run s
      let each := (batch.mapM (Ingest.update call)).run s
      (whole.1.isOk = true ↔ ∀ reply ∈ each.1, reply.isOk = true) ∧
        (whole.1.isOk = true → whole.2.table = each.2.table) := by
  constructor
  · intro a b whole first second
    have hfirst := (Makes.mergeMany answersAs_call a).isOk_iff s
    have hsecond := (Makes.mergeMany answersAs_call b).isOk_iff first.2
    refine same_of_iff ((Makes.mergeMany answersAs_call (a ++ b)).isOk_iff s) fun t => ?_
    rw [Table.afterBatch_append, bind_eq_ok_iff, and_assoc, hsecond]
    constructor
    · rintro ⟨hok, hb⟩
      exact ⟨first.2.table, (hfirst _).mp ⟨hok, rfl⟩, hb⟩
    · rintro ⟨t', ha, hb⟩
      obtain ⟨hok, rfl⟩ := (hfirst t').mpr ha
      exact ⟨hok, hb⟩
  · intro batch whole each
    refine same_of_iff ((Makes.mergeMany answersAs_call batch).isOk_iff s) fun t => ?_
    have hone : batch.foldlM (fun t m => t.afterBatch [m]) s.table = s.table.afterBatch batch := by
      have hbatches := Table.foldlM_afterBatch s.table (batch.map ([·]))
      rw [List.foldlM_map, ← List.flatMap_def, List.flatMap_singleton'] at hbatches
      exact hbatches
    rw [← hone]
    exact Makes.mapM (Makes.update answersAs_call) batch s t

/-- A batch with a counter twice, which is cut between the two, and then with a gauge of its name
behind it. -/
theorem batch_boundaries_of_counter_twice :
    let s := plain .empty
    let a : List Metric := [.counter "hits" 5, .gauge "cpu" ⟨0x4045000000000000⟩]
    let b : List Metric := [.counter "hits" 1]
    let c : List Metric := [.gauge "hits" ⟨0x4045000000000000⟩]
    let whole := (call (.mergeMany (a ++ b))).run s
    let second := (call (.mergeMany b)).run ((call (.mergeMany a)).run s).2
    whole.1.isOk = true ∧ whole.2.table = second.2.table ∧
      second.2.table.get? "hits" = some (.counter "hits" 6) ∧
      ((call (.mergeMany (a ++ c))).run s).1.isOk = false ∧
      ((call (.mergeMany a)).run s).1.isOk = true ∧
      ((call (.mergeMany c)).run ((call (.mergeMany a)).run s).2).1.isOk = false := by
  intro s a b c whole second
  have hok : whole.1.isOk = true := by decide +kernel
  have hsame := ((batch_boundaries s).1 a b).2 hok
  have hc : ¬((call (.mergeMany (a ++ c))).run s).1.isOk = true := by decide +kernel
  have ha : ((call (.mergeMany a)).run s).1.isOk = true := by decide +kernel
  have hneither := mt ((batch_boundaries s).1 a c).1.mpr hc
  refine ⟨hok, hsame, by decide +kernel, Bool.eq_false_iff.mpr hc, ha, Bool.eq_false_iff.mpr ?_⟩
  exact fun h => hneither ⟨ha, h⟩

end DumpingStore

end Telemetry
