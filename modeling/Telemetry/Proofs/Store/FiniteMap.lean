import Telemetry.Proofs.Store.Restart

/-!
# A store in memory is a finite map

Whatever calls and dumps come in which order, a store in memory stands for a map from names to valid
metrics of these names, and each of its replies is read off that map (`DumpingStore.Holds`). A call
fails exactly if it may not be done to the map and changes nothing then; otherwise the map changes
by what the call writes, all at once, under the names that it was given
(`DumpingStore.calls_change_map`).
-/

namespace Telemetry

open Fallible (bind_eq_ok_iff)

/-! ## What a call does to a map -/

namespace StoreCall

/-- The names of the metrics that a call is given to write or to fold in. -/
def given : StoreCall → List String
  | .create m | .update m => [m.name]
  | .updateMany ms | .mergeMany ms => ms.map (·.name)
  | .get _ | .getMany _ | .ping | .list => []

/-- The metrics that a call writes, one after another, by what it was given or by its reply. -/
def written : (c : StoreCall) → c.Reply → List Metric
  | .create m, _ | .update m, _ => [m]
  | .updateMany ms, _ => ms
  | .mergeMany _, merged => merged
  | .get _, _ | .getMany _, _ | .ping, _ | .list, _ => []

/-- Whether a call may be done to a map: what is written is valid, what is created is new, and what
is folded in fits. -/
def Allowed (stored : String → Option Metric) : StoreCall → Prop
  | .create m => m.validate = .ok () ∧ stored m.name = none
  | .update m => m.validate = .ok ()
  | .updateMany ms => ∀ m ∈ ms, m.validate = .ok ()
  | .mergeMany batch => Admissible stored batch
  | .get _ | .getMany _ | .ping | .list => True

end StoreCall

/-- A map after some metrics were written to it: of those with one name the last one stays. -/
def afterWriting (stored : String → Option Metric) (ms : List Metric) (name : String) :
    Option Metric :=
  (occurrences ms name).getLast?.or (stored name)

theorem afterWriting_of_forall_ne {ms : List Metric} {name : String} (h : ∀ m ∈ ms, m.name ≠ name)
    (stored : String → Option Metric) : afterWriting stored ms name = stored name := by
  have hnone : occurrences ms name = [] := by
    rw [occurrences_eq_nil_iff, mem_uniqueNames]
    rintro ⟨m, hm, hname⟩
    exact h m hm hname
  unfold afterWriting
  rw [hnone]
  rfl

/-! ## Tables as maps -/

namespace Table

/-- **A call is done as a whole or not at all.** If it may not be done to the map that a table is,
it fails and leaves the table as it is; else it succeeds and writes what it is to write. -/
theorem answer_cases {t : Table} (h : t.Sound) (c : StoreCall) :
    (¬c.Allowed t.get? ∧ ∃ f, (answer c).run t = (.error f, t)) ∨
      (c.Allowed t.get? ∧ ∃ r, (answer c).run t = (.ok r, t.insertAll (c.written r))) := by
  cases c with
  | get name => exact Or.inr ⟨trivial, _, rfl⟩
  | getMany names => exact Or.inr ⟨trivial, _, rfl⟩
  | ping => exact Or.inr ⟨trivial, _, rfl⟩
  | list => exact Or.inr ⟨trivial, _, rfl⟩
  | create m =>
    have hrun : (answer (.create m)).run t = t.keep ((t.create m).map fun t => (t, ())) := rfl
    unfold create at hrun
    cases hvalid : m.validate with
    | error f =>
      rw [hvalid] at hrun
      exact Or.inl ⟨fun hallowed => (nomatch hvalid.symm.trans hallowed.1), f, hrun⟩
    | ok u =>
      rw [hvalid] at hrun
      cases hget : t.get? m.name with
      | none =>
        rw [hget] at hrun
        exact Or.inr ⟨⟨hvalid, hget⟩, (), hrun⟩
      | some stored =>
        rw [hget] at hrun
        exact Or.inl ⟨fun hallowed => (nomatch hget.symm.trans hallowed.2), _, hrun⟩
  | update m =>
    have hrun : (answer (.update m)).run t = t.keep ((t.update m).map fun t => (t, ())) := rfl
    unfold update at hrun
    cases hvalid : m.validate with
    | error f =>
      rw [hvalid] at hrun
      exact Or.inl ⟨fun hallowed => (nomatch hvalid.symm.trans hallowed), f, hrun⟩
    | ok u =>
      rw [hvalid] at hrun
      exact Or.inr ⟨hvalid, (), hrun⟩
  | updateMany ms =>
    have hrun : (answer (.updateMany ms)).run t =
      t.keep ((t.updateMany ms).map fun t => (t, ())) := rfl
    unfold updateMany at hrun
    cases hvalid : validateAll ms with
    | error f =>
      rw [hvalid] at hrun
      refine Or.inl ⟨fun hallowed => ?_, f, hrun⟩
      cases hvalid.symm.trans (validateAll_eq_ok_iff.mpr hallowed)
    | ok u =>
      rw [hvalid] at hrun
      exact Or.inr ⟨validateAll_eq_ok_iff.mp hvalid, (), hrun⟩
  | mergeMany batch =>
    have hadmissible := (mergeBatch_folded h.keyed batch).1
    rw [answer_mergeMany]
    cases hmerged : mergeBatch t.get? batch with
    | error f =>
      refine Or.inl ⟨fun hallowed => ?_, f, rfl⟩
      obtain ⟨merged, hok⟩ := hadmissible.mpr hallowed
      cases hmerged.symm.trans hok
    | ok merged => exact Or.inr ⟨hadmissible.mp ⟨merged, hmerged⟩, merged, rfl⟩

/-- What is written has names that the call was given. -/
theorem name_mem_given {t : Table} (h : t.Sound) {c : StoreCall} {r : c.Reply}
    (hr : ((answer c).run t).1 = .ok r) : ∀ m ∈ c.written r, m.name ∈ c.given := by
  cases c with
  | get name => exact nofun
  | getMany names => exact nofun
  | ping => exact nofun
  | list => exact nofun
  | create m => exact fun m hm => List.mem_map_of_mem hm
  | update m => exact fun m hm => List.mem_map_of_mem hm
  | updateMany ms => exact fun m hm => List.mem_map_of_mem hm
  | mergeMany batch =>
    rw [answer_mergeMany] at hr
    split at hr
    next merged hmerged =>
      have hfolded := (mergeBatch_folded h.keyed batch).2 merged hmerged
      cases hr
      intro m hm
      exact List.mem_map.mpr (mem_uniqueNames.mp (hfolded.mem_iff.mpr ⟨m, hm, rfl⟩))
    next => cases hr

theorem get?_insertAll_eq (t : Table) (ms : List Metric) :
    (t.insertAll ms).get? = afterWriting t.get? ms := funext (get?_insertAll t ms)

namespace Ordered

variable {t : Table}

/-- The entries of a table in order are just what is found in it. -/
theorem mem_entries_iff (h : t.Ordered) {name : String} {m : Metric} :
    (name, m) ∈ t.entries ↔ t.get? name = some m := by
  obtain ⟨es⟩ := t
  unfold Ordered at h
  unfold get?
  dsimp only at h ⊢
  induction es with
  | nil => exact ⟨nofun, nofun⟩
  | cons e es ih =>
    obtain ⟨hfirst, hrest⟩ := List.pairwise_cons.mp h
    rw [List.mem_cons, List.lookup_cons]
    by_cases hname : name = e.1
    · -- no entry behind the first has its name
      have hnot : (name, m) ∉ es := fun hmem => String.lt_irrefl _ (hname ▸ hfirst _ hmem)
      rw [hname, beq_self_eq_true]
      subst hname
      exact ⟨fun hmem => congrArg (fun e => some e.2) (hmem.resolve_right hnot).symm,
        fun hfound => Or.inl (Prod.ext rfl (Option.some.inj hfound).symm)⟩
    · have hne : (name, m) ≠ e := fun heq => hname (congrArg Prod.fst heq)
      rw [beq_false_of_ne hname, ← ih hrest]
      exact or_iff_right hne

theorem restrict (t : Table) (names : List String) : (t.restrict names).Ordered := by
  unfold Table.restrict
  induction names using List.reverseRecOn with
  | nil => exact .empty
  | append_singleton names last ih =>
    rw [List.foldl_append, List.foldl_cons, List.foldl_nil]
    split
    · exact pairwise_insertEntry ih _ _
    · exact ih

end Ordered

end Table

/-! ## Stores as maps -/

namespace DumpingStore

/-- The stores that there can be: empty or restored at first, and then after calls and dumps of
anyone, in any order and however the dumps end, which may be told and forgotten. -/
inductive Reached : DumpingStore → Prop
  | plain (files : FileTree) : Reached (plain files)
  | withSnapshot {files : FileTree} {path : String} {interval : Nanos} {restore : Bool}
    {s : DumpingStore} (h : DumpingStore.withSnapshot files path interval restore = .ok s) :
    Reached s
  | perform {s : DumpingStore} (h : Reached s) (writer : Nat) (c : StoreCall) :
    Reached (s.perform writer c).2
  | ask {s : DumpingStore} (h : Reached s) (writer : Nat) : Reached (s.ask writer)
  | step {s : DumpingStore} (h : Reached s) (e : Event) : Reached (s.step e)
  | forget {s : DumpingStore} (h : Reached s) : Reached { s with ended := [] }

/-- Whether a store stands for a map: the map has valid metrics under their own names, and who looks
is told what the map has and changes nothing. A list has each metric once, in the order of the
names, and of some names those metrics are told that there are, each once. -/
structure Holds (s : DumpingStore) (stored : String → Option Metric) : Prop where
  valid : ∀ name m, stored name = some m → m.name = name ∧ m.validate = .ok ()
  get : ∀ writer name, s.perform writer (.get name) = (.ok (stored name), s)
  list : ∀ writer, ∃ ms, s.perform writer .list = (.ok ms, s) ∧
    (ms.Pairwise fun a b => a.name < b.name) ∧ ∀ m, m ∈ ms ↔ stored m.name = some m
  getMany : ∀ writer names, ∃ found : Table, s.perform writer (.getMany names) = (.ok found, s) ∧
    (found.entries.Pairwise fun a b => a.1 < b.1) ∧
    ∀ name m, (name, m) ∈ found.entries ↔ name ∈ names ∧ stored name = some m

variable {s : DumpingStore}

namespace Reached

theorem settleWithin (h : s.Reached) (n : Nat) : (s.settleWithin n).Reached := by
  induction n generalizing s with
  | zero => exact h
  | succ n ih =>
    unfold DumpingStore.settleWithin
    split
    next => exact h
    next e _ => exact ih (h.step e)

/-- A call that nobody disturbs is a call with the dumps after it. -/
theorem call (h : s.Reached) (c : StoreCall) : ((DumpingStore.call c).run s).2.Reached :=
  ((h.perform soleWriter c).settleWithin _).forget

theorem sound_ordered (h : s.Reached) : s.table.Sound ∧ s.table.Ordered := by
  induction h with
  | plain files => exact ⟨.empty, .empty⟩
  | withSnapshot h => exact ⟨sound_withSnapshot h, ordered_withSnapshot h⟩
  | @perform s _ writer c ih =>
    obtain ⟨ms, hms, hanswer⟩ := Table.exists_insertAll ih.1 c
    rw [(s.perform_answers writer c).2, hanswer]
    exact ⟨ih.1.insertAll hms, ih.2.insertAll ms⟩
  | @ask s _ writer ih => rwa [table_ask]
  | @step s _ e ih => rwa [table_step]
  | forget _ ih => exact ih

end Reached

theorem holds_of_table (hsound : s.table.Sound) (hordered : s.table.Ordered) :
    s.Holds s.table.get? where
  valid := fun _ _ => hsound.of_get?
  get := fun _ _ => rfl
  list := by
    have hname : ∀ e ∈ s.table.entries, e.2.name = e.1 := fun e he => (hsound e he).1
    refine fun _ => ⟨s.table.metrics, rfl, ?_, fun m => ?_⟩
    · refine List.pairwise_map.mpr (hordered.imp_of_mem fun ha hb hless => ?_)
      rwa [hname _ ha, hname _ hb]
    · rw [← hordered.mem_entries_iff]
      refine ⟨fun hm => ?_, fun he => List.mem_map_of_mem (f := (·.2)) he⟩
      obtain ⟨e, he, rfl⟩ := List.mem_map.mp hm
      rwa [hname e he]
  getMany := fun _ names => by
    refine ⟨s.table.restrict names, rfl, Table.Ordered.restrict _ names, fun name m => ?_⟩
    rw [(Table.Ordered.restrict s.table names).mem_entries_iff, Table.get?_restrict]
    split
    next hmem => exact (and_iff_right hmem).symm
    next hmem => exact ⟨nofun, fun h => absurd h.1 hmem⟩

/-- A call that fails leaves all of a store as it is. -/
theorem perform_of_error {c : StoreCall} {f : Fault} (writer : Nat)
    (h : (Table.answer c).run s.table = (.error f, s.table)) :
    s.perform writer c = (.error f, s) := by
  have hanswer : Table.answer c s.table = (.error f, s.table) := h
  unfold perform
  rw [hanswer]

/-- **A store in memory is a finite map, and calls change it all at once or not at all.** Every
store that there can be stands for a map from names to metrics. A call that may not be done to the
map fails, and the store is then exactly as it was; a call that may be done succeeds, and the map is
then as it was but for what the call has written, under names that it was given. -/
theorem calls_change_map (h : s.Reached) (writer : Nat) (c : StoreCall) :
    ∃ stored, s.Holds stored ∧
      ((¬c.Allowed stored ∧ ∃ f, s.perform writer c = (.error f, s)) ∨
        (c.Allowed stored ∧ ∃ r s', s.perform writer c = (.ok r, s') ∧
          s'.Holds (afterWriting stored (c.written r)) ∧
          ∀ name ∉ c.given, afterWriting stored (c.written r) name = stored name)) := by
  obtain ⟨hsound, hordered⟩ := h.sound_ordered
  refine ⟨s.table.get?, holds_of_table hsound hordered, ?_⟩
  rcases Table.answer_cases hsound c with ⟨hallowed, f, hanswer⟩ | ⟨hallowed, r, hanswer⟩
  · exact Or.inl ⟨hallowed, f, perform_of_error writer hanswer⟩
  · obtain ⟨hsound', hordered'⟩ := (h.perform writer c).sound_ordered
    have hreply : (s.perform writer c).1 = .ok r :=
      (s.perform_answers writer c).1.trans (congrArg Prod.fst hanswer)
    have htable : (s.perform writer c).2.table = s.table.insertAll (c.written r) :=
      (s.perform_answers writer c).2.trans (congrArg Prod.snd hanswer)
    refine Or.inr ⟨hallowed, r, (s.perform writer c).2, Prod.ext hreply rfl, ?_,
      fun name hname => ?_⟩
    · rw [← Table.get?_insertAll_eq, ← htable]
      exact holds_of_table hsound' hordered'
    · have hgiven := Table.name_mem_given hsound (congrArg Prod.fst hanswer)
      have hother : ∀ m ∈ c.written r, m.name ≠ name := by
        rintro m hm rfl
        exact hname (hgiven m hm)
      exact afterWriting_of_forall_ne hother _

/-- A counter is restored, and then written twice in one batch. -/
theorem calls_change_map_of_restored_hits :
    let hits : String := "\x7b\"id\":\"hits\",\"type\":\"counter\",\"delta\":7\x7d"
    let files : FileTree := ⟨[(["m.json"], .file (Bytes.ofText ("[" ++ hits ++ "]")))]⟩
    let batch : List Metric := [.counter "hits" 5, .counter "hits" 6]
    ∃ s, withSnapshot files "m.json" 0 true = .ok s ∧ s.Reached ∧
      ∃ stored, s.Holds stored ∧ stored "hits" = some (.counter "hits" 7) ∧
        ∃ s', s.perform 1 (.updateMany batch) = (.ok (), s') ∧
          s'.Holds (afterWriting stored batch) ∧
          afterWriting stored batch "hits" = some (.counter "hits" 6) := by
  intro hits files batch
  have hload : Snapshot.load files "m.json" = .ok [.counter "hits" 7] := by decide +kernel
  let s : DumpingStore := { plain files with
    table := .ofMetrics [.counter "hits" 7]
    snapshot := some "m.json"
    dumpsWrites := true }
  have hs : withSnapshot files "m.json" 0 true = .ok s := by
    unfold withSnapshot
    rw [if_pos rfl, hload]
    rfl
  obtain ⟨stored, hholds, hcall⟩ := calls_change_map (.withSnapshot hs) 1 (.updateMany batch)
  have hhits : stored "hits" = some (.counter "hits" 7) :=
    Except.ok.inj (congrArg Prod.fst (hholds.get 1 "hits")).symm
  refine ⟨s, hs, .withSnapshot hs, stored, hholds, hhits, ?_⟩
  rcases hcall with ⟨hallowed, -⟩ | ⟨-, ⟨⟩, s', hperform, hholds', -⟩
  · exact absurd (show ∀ m ∈ batch, m.validate = .ok () by decide) hallowed
  · exact ⟨s', hperform, hholds', rfl⟩

end DumpingStore

end Telemetry
