import Telemetry.Proofs.Server.Requests
import Telemetry.Proofs.Store.Growth

/-!
# What lasts in a server without a database

Whatever is asked of a server that keeps its metrics in memory alone, all that becomes of them is
what merges make of them (`Storage.lasting_call`). So whatever it meets and in whatever order, every
metric it holds is valid, and a name that was stored once is there for good and keeps its kind
(`stored_metrics_last`).
-/

namespace Telemetry

namespace Storage

/-- Whether a storage in memory alone stays one, and its table comes to no harm. -/
def Lasts (s s' : Storage) : Prop :=
  s.client = none → s'.client = none ∧ s.memory.table.Grows s'.memory.table

theorem Lasts.refl (s : Storage) : s.Lasts s := fun h => ⟨h, .refl _⟩

theorem Lasts.trans {s s' s'' : Storage} (h : s.Lasts s') (h' : s'.Lasts s'') : s.Lasts s'' := by
  intro hclient
  obtain ⟨hclient', hgrows⟩ := h hclient
  obtain ⟨hclient'', hgrows'⟩ := h' hclient'
  exact ⟨hclient'', hgrows.trans hgrows'⟩

/-- A storage of which nothing stored has changed. -/
theorem Lasts.of_stored {s s' : Storage} (h : s'.stored = s.stored) : s.Lasts s' := by
  obtain ⟨htable, hrows⟩ := Prod.ext_iff.mp h
  intro hclient
  refine ⟨?_, .of_eq htable⟩
  have hnone : s'.client.map (·.rows) = none := by
    rw [show s'.client.map (·.rows) = s.client.map (·.rows) from hrows, hclient]
    rfl
  exact Option.map_eq_none_iff.mp hnone

/-- Whether an action lets a storage last. -/
def Lasting {α : Type} (act : StateM Storage α) : Prop :=
  ∀ s : Storage, s.Lasts (act.run s).2

namespace Lasting

variable {α β : Type}

theorem pure (a : α) : Lasting (Pure.pure a : StateM Storage α) := Lasts.refl

theorem bind {act : StateM Storage α} {next : α → StateM Storage β} (h : Lasting act)
    (hnext : ∀ a, Lasting (next a)) : Lasting (act >>= next) := by
  intro s
  rw [StateT.run_bind]
  exact (h s).trans (hnext _ _)

theorem map {act : StateM Storage α} (h : Lasting act) (f : α → β) :
    Lasting (act >>= fun a => Pure.pure (f a)) :=
  h.bind fun _ => pure _

theorem of_keeps {act : StateM Storage α} (h : Keeps stored act) : Lasting act :=
  fun s => .of_stored (h s)

end Lasting

/-- **A merge in memory lasts.** -/
theorem lasting_merge (batch : List Metric) : Lasting (call (.mergeMany batch)) := by
  intro s hclient
  have hdurable : s.pair.durable = none := by
    unfold pair
    rw [hclient]
    rfl
  have hcurrent : s.pair.current s.active = memoryStore := by
    unfold Failover.current
    rw [hdurable]
    cases s.active <;> rfl
  have hcall : (call (.mergeMany batch)).run s = (memoryStore (.mergeMany batch)).run s :=
    congrFun (congrFun hcurrent (.mergeMany batch)) s
  rw [hcall]
  refine ⟨hclient, ?_⟩
  have htable : ((memoryStore (.mergeMany batch)).run s).2.memory.table =
      ((Table.answer (.mergeMany batch)).run s.memory.table).2 :=
    (DumpingStore.answersAs_call (.mergeMany batch) s.memory).2
  rw [htable, Table.answer_mergeMany]
  cases hmerged : mergeBatch s.memory.table.get? batch with
  | error f => exact .refl _
  | ok merged => exact .of_merge hmerged

theorem lasting_update (m : Metric) : Lasting (Ingest.update call m) := by
  unfold Ingest.update
  split
  · exact .pure _
  · refine (lasting_merge [m]).bind fun reply => ?_
    split <;> exact .pure _

theorem lasting_updateMany (batch : List Metric) : Lasting (Ingest.updateMany call batch) := by
  unfold Ingest.updateMany
  split
  · exact .pure _
  · exact lasting_merge batch

end Storage

open Storage (Lasting lasting_update lasting_updateMany stored_call)

namespace Http

theorem lasting_withDocument {α : Type} {reader : Json.Reader α} {body : Bytes}
    {go : α → StateM Storage Response} (h : ∀ a, Lasting (go a)) :
    Lasting (withDocument reader body go) := by
  cases hbody : decoded? reader body with
  | none => exact .of_keeps (withDocument_of_none hbody go).keeps
  | some a =>
    rw [withDocument_of_some hbody]
    exact h a

/-- Every route lets a storage last: those that are not there for updates only read, and the others
merge what they are brought. -/
theorem lasting_handle (route : Route) (body : Bytes) :
    Lasting (route.handle Storage.call body) := by
  have hreads : route.updates? = false → Lasting (route.handle Storage.call body) := fun h =>
    .of_keeps (keeps_handle_of_reading (fun _ hc => stored_call hc) h body)
  cases route with
  | update => exact lasting_withDocument fun m => (lasting_update m).map _
  | updates => exact lasting_withDocument fun batch => (lasting_updateMany batch).map _
  | updatePath kind name value =>
    cases hpath : spelledMetric? kind name value with
    | none => exact .of_keeps (turnsDown_updatePath hpath body).keeps
    | some m =>
      rw [handle_updatePath hpath]
      exact (lasting_update m).map _
  | index => exact hreads rfl
  | ping => exact hreads rfl
  | find => exact hreads rfl
  | findPath kind name => exact hreads rfl
  | unknown => exact hreads rfl

theorem lasting_respond (g : Guard) (r : Request) : Lasting (respond g Storage.call r) := by
  cases hbody : r.admitted? g with
  | none => exact .of_keeps (turnsDown_of_not_admitted hbody).keeps
  | some body =>
    rw [respond_of_admitted hbody]
    refine Lasting.map ?_ _
    split
    · exact .pure _
    · split
      · exact lasting_handle r.route body
      · exact .pure _

end Http

theorem Rpc.lasting_answer (g : Guard) (r : Rpc.Request) :
    Lasting (Rpc.answer g Storage.call r) := by
  unfold Rpc.answer
  split
  · split
    · exact .pure _
    · exact (lasting_update _).map _
  · split
    · exact .pure _
    · exact (lasting_updateMany _).map _

namespace Arrival

variable {g : Guard}

theorem lasts_serve (s : Storage) (a : Arrival) : s.Lasts (a.serve g s) := by
  cases a with
  | http r => exact Http.lasting_respond g r s
  | rpc r => exact Rpc.lasting_answer g r s
  | check => exact .of_stored (Storage.stored_check s)

theorem serveAll_append (s : Storage) (before after : List Arrival) :
    serveAll g s (before ++ after) = serveAll g (serveAll g s before) after := List.foldl_append

theorem lasts_serveAll (s : Storage) (arrivals : List Arrival) :
    s.Lasts (serveAll g s arrivals) := by
  induction arrivals generalizing s with
  | nil => exact .refl s
  | cons a arrivals ih => exact (lasts_serve s a).trans (ih (a.serve g s))

end Arrival

/-- What a server has in memory at its start is sound, whatever file it comes from. -/
theorem Storage.sound_of_openMemory {settings : ServerSettings} {files : FileTree}
    {memory : DumpingStore} (h : openMemory settings files = .ok memory) : memory.table.Sound := by
  unfold openMemory at h
  split at h
  · exact DumpingStore.sound_withSnapshot h
  · cases h
    exact .empty

/-- A storage that is built without a database is one in memory alone. -/
theorem Storage.of_build {settings : ServerSettings} {files : FileTree} {server : Postgres.Server}
    {signal : StopSignal} {start : Storage} (h : build settings files server signal = .ok start)
    (hmemory : settings.databaseDsn = none) :
    start.client = none ∧ start.memory.table.Sound := by
  unfold build at h
  obtain ⟨memory, hopened, h⟩ := Fallible.bind_eq_ok_iff.mp h
  rw [hmemory] at h
  cases h
  exact ⟨rfl, sound_of_openMemory hopened⟩

/-- **Stored metrics last.** A server without a database, with a snapshot file or without one, meets
any requests and remote calls. At each moment, all that it holds stands under its own name, which is
not empty, and is a gauge with nothing but a finite value or a counter with nothing but a total; and
every name that was stored at an earlier moment is stored, with the kind that it had then. -/
theorem stored_metrics_last {settings : ServerSettings} {files : FileTree}
    {server : Postgres.Server} {signal : StopSignal} {start : Storage}
    (hstart : Storage.build settings files server signal = .ok start)
    (hmemory : settings.databaseDsn = none) (g : Guard) (arrivals : List Arrival) (n : Nat) :
    let table (k : Nat) := (Arrival.serveAll g start (arrivals.take k)).memory.table
    (∀ e ∈ (table n).entries,
      e.2.name = e.1 ∧ e.1 ≠ "" ∧
        ((e.2.kind = .gauge ∧ e.2.delta = none ∧ ∃ v, e.2.value = some v ∧ v.isFinite = true) ∨
          (e.2.kind = .counter ∧ e.2.value = none ∧ ∃ d, e.2.delta = some d))) ∧
      ∀ k ≤ n, ∀ name m, (table k).get? name = some m →
        ∃ m', (table n).get? name = some m' ∧ m'.kind = m.kind := by
  intro table
  obtain ⟨hclient, hsound⟩ := Storage.of_build hstart hmemory
  refine ⟨fun e he => ?_, fun k hk name m hm => ?_⟩
  · obtain ⟨-, hgrows⟩ := Arrival.lasts_serveAll (g := g) start (arrivals.take n) hclient
    obtain ⟨hname, hvalid⟩ := hgrows.sound hsound e he
    rw [Metric.validate_eq_ok_iff, Metric.violation?_eq_none_iff, hname] at hvalid
    exact ⟨hname, hvalid⟩
  · obtain ⟨hclient', hgrows⟩ := Arrival.lasts_serveAll (g := g) start (arrivals.take k) hclient
    -- what is met up to the later moment is met up to the earlier one or after it
    have hsplit : arrivals.take n = arrivals.take k ++ (arrivals.take n).drop k := by
      conv_lhs =>
        rw [← List.take_append_drop k (arrivals.take n), List.take_take, Nat.min_eq_left hk]
    have hlater := (Arrival.lasts_serveAll (g := g) (Arrival.serveAll g start (arrivals.take k))
      ((arrivals.take n).drop k) hclient').2
    rw [← Arrival.serveAll_append, ← hsplit] at hlater
    exact hlater.kept (hgrows.sound hsound) hm

/-- A server that is restarted on a file with two hits, and one metric that is not valid, is asked to
make a gauge of the hits and then to count five more. -/
theorem stored_metrics_last_after_restart :
    let content := Bytes.ofText
      "[\x7b\"id\":\"hits\",\"type\":\"counter\",\"delta\":2\x7d,\x7b\"id\":\"\",\"type\":\"gauge\",\"value\":1.5\x7d]"
    let files : FileTree := ⟨[(["m.json"], .file content)]⟩
    let settings : ServerSettings := { ServerSettings.standard with fileStoragePath := some "m.json" }
    let g : Guard := ⟨none, none, none⟩
    let arrivals : List Arrival :=
      [.http ⟨"POST", "/update/gauge/hits/1.5", [], []⟩,
        .rpc ⟨[], .metric (some ⟨"hits", 2, none, some 5⟩), []⟩]
    ∃ start, Storage.build settings files Storage.nowhere .fresh = .ok start ∧
      settings.databaseDsn = none ∧
      start.memory.table.get? "hits" = some (.counter "hits" 2) ∧
      ∃ m, (Arrival.serveAll g start arrivals).memory.table.get? "hits" = some m ∧
        m.kind = .counter := by
  intro content files settings g arrivals
  have hload : Snapshot.load files "m.json" = .ok [.counter "hits" 2] := by decide +kernel
  let memory : DumpingStore :=
    { DumpingStore.plain files with table := ⟨[("hits", .counter "hits" 2)]⟩, snapshot := some "m.json" }
  let start : Storage := ⟨memory, none, settings.storageRetry.policy, .memory, .fresh⟩
  have hopened : Storage.openMemory settings files = .ok memory := by
    show DumpingStore.withSnapshot files "m.json" _ true = _
    unfold DumpingStore.withSnapshot
    rw [if_pos rfl, hload]
    rfl
  have hstart : Storage.build settings files Storage.nowhere .fresh = .ok start := by
    unfold Storage.build
    rw [hopened]
    rfl
  have hlast := (stored_metrics_last hstart rfl g arrivals 2).2 0 (by decide) "hits"
    (.counter "hits" 2) rfl
  exact ⟨start, hstart, rfl, rfl, hlast⟩

end Telemetry
