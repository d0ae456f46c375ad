import Telemetry.Agent.Readings
import Telemetry.Proofs.Json.Number
import Telemetry.Proofs.Json.Scaled
import Telemetry.Proofs.Server.Demand

/-!
# Snapshots are merged whole

Whatever was read from the machine, and of however many cores, the metrics of a snapshot are valid
(`Readings.validate_of_mem_metrics`) and no two of them have the same name
(`Readings.nodup_names`): cores are numbered, and no name of the table is that of a numbered core.
The count of polls goes through a double on its way into the table and is itself again as long as
fifty-three bits hold it (`Readings.tabledPolls_eq`).
A batch like that has nothing to say against itself. Only a metric that is stored with another kind
is a reason to refuse it, and if it is merged, every member has a result of its own
(`mergeBatch_of_nodup`).
-/

namespace Telemetry

/-! ## Batches without a name twice -/

theorem uniqueNames_of_nodup {batch : List Metric} (h : (batch.map (·.name)).Nodup) :
    uniqueNames batch = batch.map (·.name) := by
  induction batch using List.reverseRecOn with
  | nil => rfl
  | append_singleton batch m ih =>
    rw [List.map_append, List.map_singleton, List.nodup_append] at h
    obtain ⟨hbatch, -, hnew⟩ := h
    have hm : m.name ∉ uniqueNames batch := by
      rw [ih hbatch]
      exact fun hmem => hnew _ hmem _ List.mem_cons_self rfl
    rw [uniqueNames_concat, if_neg hm, ih hbatch, List.map_append, List.map_singleton]

/-- The first occurrence of the name of a member is the member itself. -/
theorem head?_occurrences_of_nodup {batch : List Metric} (h : (batch.map (·.name)).Nodup)
    {m : Metric} (hm : m ∈ batch) : (occurrences batch m.name).head? = some m := by
  have hmem : m ∈ occurrences batch m.name := List.mem_filter.mpr ⟨hm, decide_eq_true rfl⟩
  cases hocc : occurrences batch m.name with
  | nil =>
    rw [hocc] at hmem
    cases hmem
  | cons first rest =>
    have hfirst : first ∈ occurrences batch m.name := by
      rw [hocc]
      exact List.mem_cons_self
    obtain ⟨hfirst, hname⟩ := List.mem_filter.mp hfirst
    exact congrArg some (List.inj_on_of_nodup_map h hfirst hm (of_decide_eq_true hname))

/-- **A batch without a name twice** is refused only for the sake of what is stored, and each of its
members has a result of its own. -/
theorem mergeBatch_of_nodup {stored : String → Option Metric}
    (keyed : ∀ name s, stored name = some s → s.name = name) {batch : List Metric}
    (hvalid : ∀ m ∈ batch, m.validate = .ok ()) (hnames : (batch.map (·.name)).Nodup) :
    ((∃ merged, mergeBatch stored batch = .ok merged) ↔
        ∀ m ∈ batch, ∀ s, stored m.name = some s → s.kind = m.kind) ∧
      ∀ merged, mergeBatch stored batch = .ok merged →
        merged.map (·.name) = batch.map (·.name) := by
  have hkind : ∀ m ∈ batch, kindOf (stored m.name) (occurrences batch m.name) = some m.kind ↔
      ∀ s, stored m.name = some s → s.kind = m.kind := by
    intro m hm
    unfold kindOf
    rw [head?_occurrences_of_nodup hnames hm]
    cases stored m.name with
    | none => simp
    | some s => simp
  obtain ⟨hok, hfolded⟩ := mergeBatch_folded keyed batch
  constructor
  · rw [hok]
    constructor
    · intro h m hm
      exact (hkind m hm).mp (h m hm).2
    · intro h m hm
      exact ⟨hvalid m hm, (hkind m hm).mpr (h m hm)⟩
  · intro merged h
    rw [(hfolded merged h).names, uniqueNames_of_nodup hnames]

namespace Readings

/-! ## The names of a snapshot -/

theorem natText_injective {a b : Nat} (h : natText a = natText b) : a = b := by
  have hchars : Decimal.digitChars a = Decimal.digitChars b := String.ofList_injective h
  rw [← Json.Reader.ofDigitChars_digitChars a, hchars, Json.Reader.ofDigitChars_digitChars]

/-- The names of the table. -/
def tableNames : List String := gauges.map (·.1) ++ [pollCountName]

/-- The name of the gauge of a core. -/
def coreName (i : Nat) : String := "CPUutilization" ++ natText (i + 1)

theorem coreName_injective {i j : Nat} (h : coreName i = coreName j) : i = j := by
  have hchars := congrArg String.toList h
  unfold coreName at hchars
  rw [String.toList_append, String.toList_append] at hchars
  have htext := natText_injective (String.toList_inj.mp (List.append_cancel_left hchars))
  omega

/-- No core has a name of the table: of these names, one begins as those of the cores do, and it
ends where their numbers begin. -/
theorem coreName_not_mem_tableNames (i : Nat) : coreName i ∉ tableNames := by
  have htable : tableNames.all fun name =>
      "CPUutilization".toList.isPrefixOf name.toList = false || name = "CPUutilization" := by
    decide
  intro hmem
  have hname := List.all_eq_true.mp htable _ hmem
  have hfront : "CPUutilization".toList.isPrefixOf (coreName i).toList = true := by
    unfold coreName
    rw [String.toList_append, List.isPrefixOf_iff_prefix]
    exact List.prefix_append _ _
  rw [hfront] at hname
  have hbare : coreName i = "CPUutilization" := by simpa using hname
  have hdigits : Decimal.digitChars (i + 1) = [] := by
    simpa [coreName, natText] using congrArg String.toList hbare
  exact (Json.Reader.areDigits_digitChars (i + 1)).ne_nil hdigits

theorem names_metrics (r : Readings) :
    r.metrics.map (·.name) = tableNames ++ (List.range r.coreUtilization.length).map coreName := by
  have hcores : (r.coreUtilization.mapIdx coreMetric).map (·.name) =
      (List.range r.coreUtilization.length).map coreName := by
    refine List.ext_getElem (by simp) fun i hi hi' => ?_
    simp [coreMetric, coreName, Metric.gauge]
  unfold metrics
  rw [List.map_append, hcores]
  rfl

/-- **No name is there twice.** -/
theorem nodup_names (r : Readings) : (r.metrics.map (·.name)).Nodup := by
  have htable : tableNames.Nodup := by decide
  have hcores : ((List.range r.coreUtilization.length).map coreName).Nodup :=
    List.Nodup.map (fun _ _ => coreName_injective) List.nodup_range
  rw [names_metrics]
  refine htable.append hcores fun name hname hcore => ?_
  obtain ⟨i, -, rfl⟩ := List.mem_map.mp hcore
  exact coreName_not_mem_tableNames i hname

/-! ## What a snapshot is made of -/

theorem isFinite_finiteOrZero (x : Binary64) : (finiteOrZero x).isFinite = true := by
  unfold finiteOrZero
  split
  next h => exact h
  next => decide

theorem validate_gauge {name : String} (hname : name ≠ "") (x : Binary64) :
    (Metric.gauge name (finiteOrZero x)).validate = .ok () :=
  Metric.validate_eq_ok_iff.mpr (Metric.violation?_eq_none_iff.mpr
    ⟨hname, Or.inl ⟨rfl, rfl, _, rfl, isFinite_finiteOrZero x⟩⟩)

theorem coreName_ne_empty (i : Nat) : coreName i ≠ "" := by
  intro hempty
  have hchars := congrArg String.toList hempty
  unfold coreName at hchars
  rw [String.toList_append] at hchars
  exact absurd (List.append_eq_nil_iff.mp hchars).1 (by decide)

/-- **Every metric of a snapshot is valid**, whatever was read. -/
theorem validate_of_mem_metrics {r : Readings} {m : Metric} (h : m ∈ r.metrics) :
    m.validate = .ok () := by
  have hnames : tableNames.all (· ≠ "") = true := by decide
  unfold metrics tableMetrics at h
  rw [List.mem_append, List.mem_append, List.mem_map, List.mem_singleton] at h
  obtain (⟨e, he, rfl⟩ | rfl) | hcore := h
  · have hmem : e.1 ∈ tableNames := List.mem_append_left _ (List.mem_map_of_mem he)
    exact validate_gauge (of_decide_eq_true (List.all_eq_true.mp hnames _ hmem)) _
  · have hname : pollCountName ≠ "" := by decide
    exact Metric.validate_eq_ok_iff.mpr (Metric.violation?_eq_none_iff.mpr
      ⟨hname, Or.inr ⟨rfl, rfl, _, rfl⟩⟩)
  · obtain ⟨i, hi, rfl⟩ := List.mem_mapIdx.mp hcore
    exact validate_gauge (coreName_ne_empty i) _

/-! ## The count of polls -/

theorem toInt64_ofInt {i : Int} (h : i.natAbs < 2 ^ 53) : (Binary64.ofInt i).toInt64.toInt = i := by
  have hle : Json.Reader.natCode i.natAbs ≤ Binary64.infinityCode :=
    Binary64.nearestCode_le_infinityCode _ _
  have hlt := hle.trans_lt Binary64.infinityCode_lt
  have hcode : Binary64.ofInt i =
      Binary64.ofCode (decide (i < 0)) (Json.Reader.natCode i.natAbs) := rfl
  have hpos : 0 < Binary64.unitsPerOne := Binary64.unitsPerOne_pos
  rw [hcode, Binary64.toInt64, Binary64.isNaN_ofCode_of_le hle, if_neg Bool.false_ne_true,
    Binary64.isNegative_ofCode hlt, Binary64.code_ofCode hlt, Json.Reader.units_natCode h,
    Nat.mul_div_cancel _ hpos]
  have hwhole : (if decide (i < 0) then -(i.natAbs : Int) else (i.natAbs : Int)) = i := by
    split
    next hneg =>
      have hneg := of_decide_eq_true hneg
      omega
    next hnot =>
      have hnot : ¬i < 0 := fun hneg => hnot (decide_eq_true hneg)
      omega
  have hlow : Int64.minValue.toInt ≤ i := by
    have hmin : Int64.minValue.toInt ≤ -2 ^ 53 := by decide
    omega
  have hhigh : i ≤ Int64.maxValue.toInt := by
    have hmax : 2 ^ 53 ≤ Int64.maxValue.toInt := by decide
    omega
  exact (congrArg (fun j => (Int64.ofIntClamp j).toInt) hwhole).trans
    (Int64.toInt_ofIntClamp hlow hhigh)

/-- The table has the count of polls itself, if that is a double. -/
theorem tabledPolls_eq {r : Readings} (h : r.pollCount.toInt.natAbs < 2 ^ 53) :
    r.tabledPolls = r.pollCount :=
  Int64.toInt_inj.mp (toInt64_ofInt h)

end Readings

/-- **Snapshots are merged whole.** A snapshot has the metrics of the table, which are fourteen gauges
and the counter of polls, and one gauge for each core, in their order, with zero for a reading that
is not finite. The counter has the count of polls as a double keeps it, which is the count itself
below the fifty-third power of two. All of its metrics are valid and no two have the same name. So a
server over any store merges it unless a metric is stored under one of its names with another kind,
and what it returns are as many metrics, one for each that was sent and in their order. -/
theorem snapshot_merged_whole (r : Readings) :
    (let reading (x : Binary64) : Binary64 := if x.isFinite then x else .zero;
      r.metrics =
        [ .gauge "TotalMemory" (reading r.totalMemory),
          .gauge "FreeMemory" (reading r.freeMemory),
          .gauge "AvailableMemory" (reading r.availableMemory),
          .gauge "UsedMemory" (reading r.usedMemory),
          .gauge "TotalSwap" (reading r.totalSwap),
          .gauge "SwapUsed" (reading r.usedSwap),
          .gauge "CPUutilization" (reading r.cpuUtilization),
          .gauge "LoadAverage1" (reading r.loadAverage1),
          .gauge "LoadAverage5" (reading r.loadAverage5),
          .gauge "LoadAverage15" (reading r.loadAverage15),
          .gauge "ProcessMemory" (reading r.processMemory),
          .gauge "ProcessCPU" (reading r.processCpu),
          .gauge "Uptime" (reading r.uptime),
          .gauge "RandomValue" (reading r.random),
          .counter "PollCount" (Binary64.ofInt r.pollCount.toInt).toInt64 ] ++
        r.coreUtilization.mapIdx fun i usage =>
          .gauge ("CPUutilization" ++ natText (i + 1)) (reading usage)) ∧
    (r.pollCount.toInt.natAbs < 2 ^ 53 →
      (Binary64.ofInt r.pollCount.toInt).toInt64 = r.pollCount) ∧
    (∀ m ∈ r.metrics, m.validate = .ok ()) ∧
    (r.metrics.map (·.name)).Nodup ∧
    ∀ {σ : Type} {view : σ → Table} {store : Store (StateM σ)}, AnswersAs view store → ∀ s : σ,
      (∀ name other, (view s).get? name = some other → other.name = name) →
      ∃ result s', (Ingest.updateMany store r.metrics).run s = (result, s') ∧
        ((∃ merged, result = .ok merged) ↔
          ∀ m ∈ r.metrics, ∀ other, (view s).get? m.name = some other → other.kind = m.kind) ∧
        ∀ merged, result = .ok merged →
          merged.map (·.name) = r.metrics.map (·.name) ∧ merged.length = r.metrics.length ∧
            view s' = (view s).insertAll merged := by
  have hvalid : ∀ m ∈ r.metrics, m.validate = .ok () := fun m hm => r.validate_of_mem_metrics hm
  refine ⟨rfl, Readings.tabledPolls_eq, hvalid, r.nodup_names, ?_⟩
  intro σ view store hstore s keyed
  obtain ⟨hok, hnames⟩ := mergeBatch_of_nodup keyed hvalid r.nodup_names
  obtain ⟨s', hrun, hview⟩ := Meets.mergeMany hstore r.metrics s
  have hsome : r.metrics.isEmpty = false := rfl
  have hreply : ((Demand.merge r.metrics).answer (view s)).1 =
      mergeBatch (view s).get? r.metrics := by
    cases hmerged : mergeBatch (view s).get? r.metrics with
    | ok merged => rw [Demand.answer_merge_of_ok hmerged]
    | error f => rw [Demand.answer_merge_of_error hmerged]
  refine ⟨mergeBatch (view s).get? r.metrics, s', ?_, hok, ?_⟩
  · unfold Ingest.updateMany
    rw [hsome, if_neg Bool.false_ne_true, hrun, hreply]
    rfl
  · intro merged h
    have hsame := hnames merged h
    rw [Demand.answer_merge_of_ok h] at hview
    exact ⟨hsame, by simpa using congrArg List.length hsame, hview⟩

/-- The first snapshot of an agent on two cores, one of which has no reading, just as the free memory
has none: a server that has nothing yet takes all of its seventeen metrics as they are. -/
theorem snapshot_merged_whole_of_two_cores :
    let r : Readings :=
      { totalMemory := ⟨0x4030000000000000⟩
        freeMemory := ⟨0x7ff0000000000000⟩
        coreUtilization := [⟨0x7ff8000000000000⟩, ⟨0x4024000000000000⟩]
        pollCount := 3 }
    ∃ merged s', (Ingest.updateMany DumpingStore.call r.metrics).run (DumpingStore.plain .empty) =
        (.ok merged, s') ∧
      merged.map (·.name) = ["TotalMemory", "FreeMemory", "AvailableMemory", "UsedMemory",
        "TotalSwap", "SwapUsed", "CPUutilization", "LoadAverage1", "LoadAverage5", "LoadAverage15",
        "ProcessMemory", "ProcessCPU", "Uptime", "RandomValue", "PollCount", "CPUutilization1",
        "CPUutilization2"] ∧
      merged.length = 17 ∧
      r.metrics.take 3 = [.gauge "TotalMemory" ⟨0x4030000000000000⟩, .gauge "FreeMemory" .zero,
        .gauge "AvailableMemory" .zero] ∧
      r.metrics.drop 14 = [.counter "PollCount" 3, .gauge "CPUutilization1" .zero,
        .gauge "CPUutilization2" ⟨0x4024000000000000⟩] := by
  intro r
  obtain ⟨hmetrics, hpolls, -, -, hmerged⟩ := snapshot_merged_whole r
  obtain ⟨result, s', hrun, hok, hwhole⟩ :=
    hmerged DumpingStore.answersAs_call (DumpingStore.plain .empty) nofun
  obtain ⟨merged, rfl⟩ := hok.mpr nofun
  obtain ⟨hnames, hlength, -⟩ := hwhole merged rfl
  rw [hpolls (by decide)] at hmetrics
  refine ⟨merged, s', hrun, hnames.trans ?_, hlength.trans ?_, ?_, ?_⟩ <;> rw [hmetrics] <;>
    decide +kernel

end Telemetry
