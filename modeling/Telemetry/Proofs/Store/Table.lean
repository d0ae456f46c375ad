import Telemetry.Proofs.Metric.Batch
import Telemetry.Store.Memory

/-!
# Tables before and after a write

A look-up in a table after some metrics were written finds the last of them with the name, and
what was there before if there is none (`Table.get?_insertAll`). A batch is merged with what the
table has under the names of the batch, whatever else it holds (`mergeBatch_congr`), and if that
fails, it is because a rule is broken (`BreaksRules.mergeBatch`).
-/

namespace Telemetry

open Fallible (bind_eq_ok_iff)

/-- The calls that only read. -/
theorem StoreCall.reading_cases {motive : (c : StoreCall) → c.writes = false → Prop}
    (get : ∀ name, motive (.get name) rfl) (getMany : ∀ names, motive (.getMany names) rfl)
    (list : motive .list rfl) (ping : motive .ping rfl) (c : StoreCall) (h : c.writes = false) :
    motive c h := by
  cases c with
  | get name => exact get name
  | getMany names => exact getMany names
  | list => exact list
  | ping => exact ping
  | create m => cases h
  | update m => cases h
  | updateMany ms => cases h
  | mergeMany batch => cases h

/-- A call that only reads leaves a table as it is. -/
theorem Table.answer_of_reading {c : StoreCall} (h : c.writes = false) (t : Table) :
    ((Table.answer c).run t).2 = t := by
  cases c, h using StoreCall.reading_cases <;> rfl

/-- A call that fails leaves a table as it is. -/
theorem Table.answer_of_error {c : StoreCall} {t : Table} {f : Fault}
    (h : ((Table.answer c).run t).1 = .error f) : ((Table.answer c).run t).2 = t := by
  have hkeep : ∀ {α : Type} (x : Except Fault (Table × α)) (f : Fault),
      (t.keep x).1 = .error f → (t.keep x).2 = t := by
    intro α x f hx
    cases x with
    | error e => rfl
    | ok p => cases hx
  cases hwrites : c.writes with
  | false => exact answer_of_reading hwrites t
  | true =>
    cases c with
    | create m => exact hkeep _ f h
    | update m => exact hkeep _ f h
    | updateMany ms => exact hkeep _ f h
    | mergeMany batch => exact hkeep _ f h
    | get name => cases hwrites
    | getMany names => cases hwrites
    | ping => cases hwrites
    | list => cases hwrites

namespace Table

/-- What a merge makes of a table. -/
theorem answer_mergeMany (t : Table) (batch : List Metric) :
    (answer (.mergeMany batch)).run t =
      match mergeBatch t.get? batch with
      | .ok merged => (.ok merged, t.insertAll merged)
      | .error f => (.error f, t) := by
  show t.keep (t.mergeMany batch) = _
  unfold mergeMany
  cases mergeBatch t.get? batch <;> rfl

theorem lookup_insertEntry_self (name : String) (m : Metric) (es : List (String × Metric)) :
    (insertEntry name m es).lookup name = some m := by
  induction es with
  | nil => simp [insertEntry]
  | cons e es ih =>
    unfold insertEntry
    split
    · simp
    · split
      · simp
      next hne =>
        rw [List.lookup_cons, beq_false_of_ne hne]
        exact ih

theorem lookup_insertEntry_of_ne {name other : String} (h : other ≠ name) (m : Metric)
    (es : List (String × Metric)) : (insertEntry name m es).lookup other = es.lookup other := by
  induction es with
  | nil => simp [insertEntry, List.lookup_cons, beq_false_of_ne h]
  | cons e es ih =>
    unfold insertEntry
    split
    · rw [List.lookup_cons, beq_false_of_ne h]
    · split
      next heq =>
        rw [List.lookup_cons, List.lookup_cons, beq_false_of_ne h, ← heq, beq_false_of_ne h]
      next => rw [List.lookup_cons, List.lookup_cons, ih]

theorem mem_insertEntry {name : String} {m : Metric} {es : List (String × Metric)}
    {e : String × Metric} (h : e ∈ insertEntry name m es) : e = (name, m) ∨ e ∈ es := by
  induction es with
  | nil => exact Or.inl (List.mem_singleton.mp h)
  | cons e' es ih =>
    unfold insertEntry at h
    split at h
    · exact List.mem_cons.mp h
    · split at h
      · rcases List.mem_cons.mp h with rfl | h
        · exact Or.inl rfl
        · exact Or.inr (List.mem_cons_of_mem _ h)
      · rcases List.mem_cons.mp h with rfl | h
        · exact Or.inr List.mem_cons_self
        · exact (ih h).imp_right (List.mem_cons_of_mem _)

theorem get?_insert_self (t : Table) (name : String) (m : Metric) :
    (t.insert name m).get? name = some m := lookup_insertEntry_self name m t.entries

theorem get?_insert_of_ne {name other : String} (h : other ≠ name) (t : Table) (m : Metric) :
    (t.insert name m).get? other = t.get? other := lookup_insertEntry_of_ne h m t.entries

theorem insertAll_concat (t : Table) (ms : List Metric) (m : Metric) :
    t.insertAll (ms ++ [m]) = (t.insertAll ms).insert m.name m := by
  unfold insertAll
  rw [List.foldl_append]
  rfl

/-- Of the metrics written under a name the last one stays. -/
theorem get?_insertAll (t : Table) (ms : List Metric) (name : String) :
    (t.insertAll ms).get? name = (occurrences ms name).getLast?.or (t.get? name) := by
  induction ms using List.reverseRecOn with
  | nil => rfl
  | append_singleton ms m ih =>
    rw [insertAll_concat]
    by_cases hname : m.name = name
    · subst hname
      rw [get?_insert_self, occurrences_concat_self, List.getLast?_concat]
      rfl
    · rw [get?_insert_of_ne (fun h => hname h.symm), ih, occurrences_concat_of_ne hname]

/-- The part of a table under some names has just what the table has under these. -/
theorem get?_restrict (t : Table) (names : List String) (name : String) :
    (t.restrict names).get? name = if name ∈ names then t.get? name else none := by
  induction names using List.reverseRecOn with
  | nil => rfl
  | append_singleton names last ih =>
    cases hget : t.get? last with
    | none =>
      have hstep : t.restrict (names ++ [last]) = t.restrict names := by
        unfold restrict
        rw [List.foldl_append, List.foldl_cons, List.foldl_nil, hget]
      rw [hstep, ih]
      by_cases hname : name = last
      · rw [hname, hget, ite_self, ite_self]
      · simp [hname]
    | some m =>
      have hstep : t.restrict (names ++ [last]) = (t.restrict names).insert last m := by
        unfold restrict
        rw [List.foldl_append, List.foldl_cons, List.foldl_nil, hget]
      rw [hstep]
      by_cases hname : name = last
      · rw [hname, get?_insert_self, if_pos (by simp), hget]
      · rw [get?_insert_of_ne hname, ih]
        simp [hname]

end Table

/-- Writing checks all that is to be written. -/
theorem validateAll_eq_ok_iff {ms : List Metric} :
    validateAll ms = .ok () ↔ ∀ m ∈ ms, m.validate = .ok () := by
  induction ms with
  | nil => exact ⟨fun _ m hm => (by cases hm), fun _ => rfl⟩
  | cons m ms ih =>
    have hcons : validateAll (m :: ms) = m.validate >>= fun _ => validateAll ms := rfl
    rw [hcons, bind_eq_ok_iff, List.forall_mem_cons, ← ih]
    exact ⟨fun ⟨_, hm, hms⟩ => ⟨hm, hms⟩, fun ⟨hm, hms⟩ => ⟨(), hm, hms⟩⟩

/-! ## What a table is to hold -/

namespace Table

/-- Whether each metric of a table is valid and stands under its own name. -/
def Sound (t : Table) : Prop := ∀ e ∈ t.entries, e.2.name = e.1 ∧ e.2.validate = .ok ()

instance (t : Table) : Decidable t.Sound :=
  inferInstanceAs (Decidable (∀ e ∈ t.entries, e.2.name = e.1 ∧ e.2.validate = .ok ()))

namespace Sound

variable {t : Table}

theorem empty : Table.empty.Sound := fun _ he => by cases he

theorem of_get? (h : t.Sound) {name : String} {m : Metric} (hm : t.get? name = some m) :
    m.name = name ∧ m.validate = .ok () := by
  obtain ⟨before, after, hentries, -⟩ := List.lookup_eq_some_iff.mp hm
  exact h (name, m) (by rw [hentries]; simp)

theorem insert (h : t.Sound) {m : Metric} (hm : m.validate = .ok ()) :
    (t.insert m.name m).Sound := by
  intro e he
  rcases mem_insertEntry he with rfl | he
  · exact ⟨rfl, hm⟩
  · exact h e he

/-- Writing valid metrics leaves a table as it is to be. -/
theorem insertAll (h : t.Sound) {ms : List Metric} (hms : ∀ m ∈ ms, m.validate = .ok ()) :
    (t.insertAll ms).Sound := by
  induction ms using List.reverseRecOn with
  | nil => exact h
  | append_singleton ms m ih =>
    rw [insertAll_concat]
    exact (ih fun m' hm' => hms m' (List.mem_append_left _ hm')).insert (hms m (by simp))

end Sound

end Table

/-! ## What a merge depends on -/

theorem mergeMember_congr {stored stored' : String → Option Metric} {m : Metric}
    (h : stored m.name = stored' m.name) (results : List Metric) :
    mergeMember stored results m = mergeMember stored' results m := by
  unfold mergeMember
  rw [h]

/-- Only what is stored under the names of a batch matters to it. -/
theorem mergeBatch_congr {stored stored' : String → Option Metric} {batch : List Metric}
    (h : ∀ m ∈ batch, stored m.name = stored' m.name) :
    mergeBatch stored batch = mergeBatch stored' batch := by
  induction batch using List.reverseRecOn with
  | nil => rfl
  | append_singleton batch m ih =>
    rw [mergeBatch_concat, mergeBatch_concat, ih fun m' hm' => h m' (List.mem_append_left _ hm')]
    congr
    funext results
    exact mergeMember_congr (h m (by simp)) results

/-! ## Why a merge fails -/

/-- Whether something fails, if it does, because a rule is broken. -/
def BreaksRules {α : Type} (x : Except Fault α) : Prop :=
  ∀ f, x = .error f → ∃ v, f = .validation v

namespace BreaksRules

variable {α β : Type}

theorem ok (a : α) : BreaksRules (.ok a) := fun _ h => by cases h

theorem violation (v : Violation) : BreaksRules (.error (.validation v) : Except Fault α) :=
  fun _ h => by cases h; exact ⟨v, rfl⟩

theorem bind {x : Except Fault α} {f : α → Except Fault β} (hx : BreaksRules x)
    (hf : ∀ a, BreaksRules (f a)) : BreaksRules (x >>= f) := by
  cases x with
  | error e =>
    intro f' h
    cases h
    exact hx e rfl
  | ok a => exact hf a

theorem mapM {f : α → Except Fault β} (hf : ∀ a, BreaksRules (f a)) (l : List α) :
    BreaksRules (l.mapM f) := by
  induction l with
  | nil => exact ok []
  | cons a l ih =>
    rw [List.mapM_cons]
    exact (hf a).bind fun b => ih.bind fun bs => ok (b :: bs)

theorem validate (m : Metric) : BreaksRules m.validate := by
  unfold Metric.validate
  cases m.violation? with
  | none => exact ok ()
  | some v => exact violation v

theorem validateAll (ms : List Metric) : BreaksRules (validateAll ms) := by
  unfold Telemetry.validateAll
  induction ms with
  | nil => exact ok ()
  | cons m ms ih =>
    show BreaksRules (m.validate >>= fun _ => ms.forM Metric.validate)
    exact (validate m).bind fun _ => ih

theorem merge (stored incoming : Metric) : BreaksRules (stored.merge incoming) := by
  unfold Metric.merge
  split
  · exact violation _
  · split
    · exact violation _
    · cases stored.kind <;> exact ok _

theorem mergeMember (stored : String → Option Metric) (results : List Metric) (m : Metric) :
    BreaksRules (mergeMember stored results m) := by
  refine (validate m).bind fun _ => ?_
  split
  · refine mapM (fun r => ?_) results
    split
    · exact merge r m
    · exact ok r
  · cases stored m.name with
    | none => exact ok _
    | some s => exact (merge s m).bind fun _ => ok _

/-- A batch that cannot be merged breaks a rule. -/
theorem mergeBatch (stored : String → Option Metric) (batch : List Metric) :
    BreaksRules (mergeBatch stored batch) := by
  induction batch using List.reverseRecOn with
  | nil => exact ok []
  | append_singleton batch m ih =>
    rw [mergeBatch_concat]
    exact ih.bind fun results => mergeMember stored results m

end BreaksRules

end Telemetry
