import Telemetry.Proofs.Store.Table
import Telemetry.Store.Dumping

/-!
# How a table grows

A merge takes no name away and gives none another kind, and it leaves a table of valid metrics as
one (`Table.Grows.of_merge`). What is loaded from a snapshot file is such a table, whatever the file
holds, since a metric that is not valid is passed over (`Table.sound_of_load`).
-/

namespace Telemetry

namespace Table

/-- A sound table has each metric under its own name. -/
theorem Sound.keyed {t : Table} (h : t.Sound) (name : String) (m : Metric)
    (hm : t.get? name = some m) : m.name = name := (h.of_get? hm).1

/-- A batch that can be merged is valid, and so is what it gives. -/
theorem Sound.of_mergeBatch {t : Table} {batch merged : List Metric} (h : t.Sound)
    (hmerged : mergeBatch t.get? batch = .ok merged) :
    validateAll batch = .ok () ∧ validateAll merged = .ok () := by
  obtain ⟨hok, hfolded⟩ := mergeBatch_folded (fun _ _ hs => (h.of_get? hs).1) batch
  have hvalid : ∀ m ∈ batch, m.validate = .ok () := fun m hm => (hok.mp ⟨merged, hmerged⟩ m hm).1
  refine ⟨validateAll_eq_ok_iff.mpr hvalid, validateAll_eq_ok_iff.mpr fun r hr => ?_⟩
  refine validate_foldName ((hfolded merged hmerged).entries r hr) ?_ ?_
  · exact fun s hs => (h.of_get? hs).2
  · exact fun m hm => hvalid m (List.mem_of_mem_filter hm)

/-- Whether a table has become another without harm: if it held valid metrics under their own names,
the other one does, and has a metric of the same kind wherever it had one. -/
structure Grows (t t' : Table) : Prop where
  sound : t.Sound → t'.Sound
  kept : t.Sound → ∀ {name : String} {m : Metric}, t.get? name = some m →
    ∃ m', t'.get? name = some m' ∧ m'.kind = m.kind

namespace Grows

variable {t t' t'' : Table}

theorem refl (t : Table) : t.Grows t := ⟨id, fun _ _ m hm => ⟨m, hm, rfl⟩⟩

theorem of_eq (h : t' = t) : t.Grows t' := h ▸ refl t

theorem trans (h : t.Grows t') (h' : t'.Grows t'') : t.Grows t'' := by
  refine ⟨fun hsound => h'.sound (h.sound hsound), fun hsound name m hm => ?_⟩
  obtain ⟨m', hm', hkind⟩ := h.kept hsound hm
  obtain ⟨m'', hm'', hkind'⟩ := h'.kept (h.sound hsound) hm'
  exact ⟨m'', hm'', hkind'.trans hkind⟩

/-- **A merge does a table no harm.** The result of a name is of the kind with which its fold
begins, which is the kind of what is stored. -/
theorem of_merge {batch merged : List Metric} (h : mergeBatch t.get? batch = .ok merged) :
    t.Grows (t.insertAll merged) := by
  have hfolded : t.Sound → Folded t.get? batch merged := fun hsound =>
    (mergeBatch_folded hsound.keyed batch).2 merged h
  refine ⟨fun hsound => ?_, fun hsound name m hm => ?_⟩
  · exact hsound.insertAll (validateAll_eq_ok_iff.mp (hsound.of_mergeBatch h).2)
  · -- the last result of the name, if there is one, is what is found now
    rw [get?_insertAll]
    cases hlast : (occurrences merged name).getLast? with
    | none => exact ⟨m, hm, rfl⟩
    | some r =>
      have hr : r ∈ merged ∧ r.name = name := by
        have hmem := List.mem_of_getLast? hlast
        simpa [occurrences] using hmem
      have hkind := kindOf_of_foldName ((hfolded hsound).entries r hr.1)
      rw [hr.2, hm] at hkind
      exact ⟨r, rfl, (Option.some.inj hkind).symm⟩

end Grows

end Table

/-- A snapshot file that can be loaded gives valid metrics only. -/
theorem Snapshot.validate_of_load {files : FileTree} {path : String} {ms : List Metric}
    (h : load files path = .ok ms) : ∀ m ∈ ms, m.validate = .ok () := by
  unfold load at h
  split at h
  · cases h
    exact nofun
  · split at h
    · cases h
    · cases h
      exact nofun
    · obtain ⟨found, -, rfl⟩ := Fallible.map_eq_ok_iff.mp h
      intro m hm
      rw [Metric.validate_eq_ok_iff]
      simpa using (List.mem_filter.mp hm).2

/-- A store with a snapshot file begins with a sound table, restored or empty. -/
theorem DumpingStore.sound_withSnapshot {files : FileTree} {path : String} {interval : Nanos}
    {restore : Bool} {store : DumpingStore}
    (h : withSnapshot files path interval restore = .ok store) : store.table.Sound := by
  unfold withSnapshot at h
  dsimp only at h
  split at h
  · obtain ⟨ms, hms, h⟩ := Fallible.bind_eq_ok_iff.mp h
    rw [← Except.ok.inj h]
    exact Table.Sound.empty.insertAll (Snapshot.validate_of_load hms)
  · rw [← Except.ok.inj h]
    exact .empty

end Telemetry
