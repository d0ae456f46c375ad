import Telemetry.Proofs.Server.Shutdown
import Telemetry.Proofs.Store.Draft

/-!
# The snapshot file never goes back

In a server that dumps each write, the snapshot file is at every moment what it was at first, or
the dump of the table after so many of the writes (`Versioned`). As long as nothing goes wrong with
the dumps and nobody leaves while its own is under way, that number never goes down, and a write
that was answered is among them (`dumps_never_go_back`). A client that leaves frees its turn before
its dump has ended, and that dump may then come after a newer one (`older_dump_comes_last`).
-/

namespace Telemetry

/-- Whether a write has not been answered: its writer has left, or has asked for a dump that has not
ended. -/
def Write.IsUntold (asked : List Nat) (w : Write) : Prop :=
  w.fate = .gone ∨ w.fate = .waiting ∧ w.writer ∈ asked

theorem Write.IsUntold.mono {asked asked' : List Nat} (h : ∀ x ∈ asked, x ∈ asked') {w : Write}
    (hw : w.IsUntold asked) : w.IsUntold asked' :=
  hw.imp_right fun hw => ⟨hw.1, h _ hw.2⟩

/-- A writer that is done with is another one, or has left. -/
theorem Write.IsUntold.settle {asked asked' : List Nat} {writer : Nat} {fate : Fate}
    (h : ∀ x ∈ asked, x ≠ writer ∧ x ∈ asked' ∨ x = writer ∧ fate = .gone) {w : Write}
    (hw : w.IsUntold asked) : (History.settle writer fate w).IsUntold asked' := by
  rcases hw with hgone | ⟨hwaits, hasked⟩
  · rw [History.settle_of_fate_ne (by rw [hgone]; nofun)]
    exact Or.inl hgone
  · rcases h w.writer hasked with ⟨hne, hasked'⟩ | ⟨heq, rfl⟩
    · rw [History.settle_of_writer_ne hne]
      exact Or.inr ⟨hwaits, hasked'⟩
    · refine Or.inl ?_
      unfold History.settle
      rw [if_pos ⟨heq, hwaits⟩]

namespace History

theorem length_copied_le (h : History) : h.copied.length ≤ h.writes.length := by
  unfold writes
  rw [List.length_append]
  exact Nat.le_add_right _ _

/-- The table after the first few writes. -/
def state (h : History) (t : Table) (n : Nat) : Table :=
  t.afterCalls ((h.writes.take n).map (·.call))

theorem state_close (h : History) (writer : Nat) (fate : Fate) (t : Table) (n : Nat) :
    (h.close writer fate).state t n = h.state t n := by
  unfold state
  rw [writes_close, ← List.map_take, map_call_settle]

theorem state_write {h : History} (w : Write) (t : Table) {n : Nat} (hn : n ≤ h.copied.length) :
    ({ h with fresh := h.fresh ++ [w] } : History).state t n = h.state t n := by
  unfold state
  rw [writes_write, List.take_append_of_le_length (Nat.le_trans hn h.length_copied_le)]

theorem state_copied (h : History) (t : Table) : h.state t h.copied.length = h.copy t := by
  unfold state copy writes
  rw [List.take_left]

end History

namespace ServerLife

/-- Whether a version of the snapshot file is no older than another one. -/
def Advances (version version' : Option Nat) : Prop := ∀ n ∈ version, ∃ m ∈ version', n ≤ m

theorem Advances.refl (version : Option Nat) : Advances version version :=
  fun n hn => ⟨n, hn, Nat.le_refl n⟩

theorem Advances.trans {version version' version'' : Option Nat} (h : Advances version version')
    (h' : Advances version' version'') : Advances version version'' := by
  intro n hn
  obtain ⟨m, hm, hnm⟩ := h n hn
  obtain ⟨k, hk, hmk⟩ := h' m hm
  exact ⟨k, hk, Nat.le_trans hnm hmk⟩

/-- What the snapshot file holds: the dump of the table after so many writes, or what was there
at first. -/
def Shows (files : FileTree) (path : String) (t : Table) (s : ServerLife) (h : History) :
    Option Nat → Prop
  | none => files.Untouched s.store.files path
  | some n => s.store.files.read path = .ok (Metric.listDocumentBytes (h.state t n).metrics)

/-- What holds of the version in the snapshot file all along. -/
structure Versioned (files : FileTree) (path : String) (t : Table) (s : ServerLife) (h : History)
    (version : Option Nat) : Prop where
  shows : Shows files path t s h version
  copied : ∀ n ∈ version, n ≤ h.copied.length
  /-- a dump that has nothing left to do is in its place -/
  placed : ∀ d ∈ s.store.dumps, d.rest = [] → version = some h.copied.length
  /-- a write that is not in the file has not been answered -/
  untold : ∀ w ∈ h.writes.drop (version.getD 0), w.IsUntold s.store.asked

namespace Versioned

variable {files : FileTree} {path : String} {t : Table} {s s' : ServerLife} {h h' : History}
  {version : Option Nat}

/-- Of the writes that are not in the file, those are left that no dump has, once a dump is in its
place. -/
theorem drop_copied (h : History) : h.writes.drop h.copied.length = h.fresh := by
  unfold History.writes
  exact List.drop_left

/-- A write that has been answered is in the file. -/
theorem exists_of_answered (hv : Versioned files path t s h version) {i : Nat} {w : Write}
    (hw : h.writes[i]? = some w) (hanswered : w.fate = .answered) : ∃ n ∈ version, i < n := by
  have htold : ¬w.IsUntold s.store.asked := by
    rintro (hgone | ⟨hwaits, -⟩)
    · rw [hanswered] at hgone
      cases hgone
    · rw [hanswered] at hwaits
      cases hwaits
  by_contra hout
  have hle : version.getD 0 ≤ i := by
    cases version with
    | none => exact Nat.zero_le i
    | some n => exact Nat.le_of_not_lt fun hn => hout ⟨n, rfl, hn⟩
  refine htold (hv.untold w (List.mem_of_getElem? (i := i - version.getD 0) ?_))
  rw [List.getElem?_drop, Nat.add_sub_cancel' hle]
  exact hw

/-- A step after which the file and the dumps are as before, and nobody has been answered. -/
theorem of_same (hv : Versioned files path t s h version)
    (hfiles : s'.store.files = s.store.files) (hdumps : s'.store.dumps = s.store.dumps)
    (hstate : ∀ n ≤ h.copied.length, h'.state t n = h.state t n)
    (hcopied : h'.copied.length = h.copied.length)
    (huntold : ∀ w ∈ h'.writes.drop (version.getD 0), w.IsUntold s'.store.asked) :
    Versioned files path t s' h' version := by
  refine ⟨?_, ?_, ?_, huntold⟩
  · cases version with
    | none =>
      show files.Untouched s'.store.files path
      rw [hfiles]
      exact hv.shows
    | some n =>
      show s'.store.files.read path = _
      rw [hfiles, hstate n (hv.copied n rfl)]
      exact hv.shows
  · rw [hcopied]
    exact hv.copied
  · rw [hcopied, hdumps]
    exact hv.placed

/-- A writer is done with. -/
theorem close (hv : Versioned files path t s h version) {writer : Nat} {fate : Fate}
    (hfiles : s'.store.files = s.store.files) (hdumps : s'.store.dumps = s.store.dumps)
    (hasked : ∀ x ∈ s.store.asked,
      x ≠ writer ∧ x ∈ s'.store.asked ∨ x = writer ∧ fate = .gone) :
    Versioned files path t s' (h.close writer fate) version := by
  refine hv.of_same hfiles hdumps (fun n _ => h.state_close writer fate t n)
    (List.length_map _) fun w hw => ?_
  rw [History.writes_close, ← List.map_drop] at hw
  obtain ⟨x, hx, rfl⟩ := List.mem_map.mp hw
  exact (hv.untold x hx).settle hasked

/-- A write takes effect, and its writer asks for a dump. -/
theorem write (hv : Versioned files path t s h version) (ht : Turns s h) {r : OpenRequest}
    (table : Table) (requests : List OpenRequest) :
    Versioned files path t
      { s with store := s.store.written r.writer table, requests := requests }
      { h with fresh := h.fresh ++ [⟨r.writer, r.call, .waiting⟩] } version := by
  unfold DumpingStore.written
  rw [if_pos ht.dumps]
  refine hv.of_same rfl rfl (fun n hn => History.state_write _ t hn) rfl fun w hw => ?_
  have hasked : s.store.holder.toList ++ (s.store.waiting ++ [r.writer]) =
      s.store.asked ++ [r.writer] := (List.append_assoc _ _ _).symm
  show w.IsUntold (s.store.holder.toList ++ (s.store.waiting ++ [r.writer]))
  rw [hasked]
  rw [History.writes_write, List.drop_append] at hw
  rcases List.mem_append.mp hw with hw | hw
  · exact (hv.untold w hw).mono fun x hx => List.mem_append_left _ hx
  · rw [List.mem_singleton.mp (List.mem_of_mem_drop hw)]
    exact Or.inr ⟨rfl, List.mem_append_right _ (List.mem_singleton_self _)⟩

/-- A dump begins: the file is not touched, and the same writes are missing from it. -/
theorem begin (hv : Versioned files path t s h version) {writer : Nat} {rest : List Nat}
    (hholder : s.store.holder = none) (hwaiting : s.store.waiting = writer :: rest)
    (hdumps : s.store.dumps = []) :
    Versioned files path t
      { s with
        store := { s.store with
          holder := some writer
          waiting := rest
          dumps := s.store.dumps ++
            [⟨writer, Snapshot.changes s.store.files path s.store.table.metrics⟩] } }
      ⟨h.writes, [], true⟩ version := by
  have hwrites : History.writes ⟨h.writes, [], true⟩ = h.writes := List.append_nil _
  have hstate : ∀ n, History.state ⟨h.writes, [], true⟩ t n = h.state t n := fun n => by
    unfold History.state
    rw [hwrites]
  refine ⟨?_, fun n hn => ?_, fun d hd hrest => ?_, fun w hw => ?_⟩
  · cases version with
    | none => exact hv.shows
    | some n =>
      show s.store.files.read path = _
      rw [hstate]
      exact hv.shows
  · exact Nat.le_trans (hv.copied n hn) h.length_copied_le
  · -- there is something left to do at first
    rw [hdumps] at hd
    rw [List.mem_singleton.mp hd] at hrest
    exact absurd hrest (by simp [Snapshot.changes])
  · rw [hwrites] at hw
    refine (hv.untold w hw).mono fun x hx => ?_
    show x ∈ writer :: rest
    unfold DumpingStore.asked at hx
    rw [hholder, hwaiting] at hx
    exact hx

/-- A change of a dump: the last one puts it into its place, and those before it do not touch the
file. -/
theorem change (hv : Versioned files path t s h version) (hs : Saved path t s h)
    (ht : Turns s h) {writer : Nat} {change : FileTree.Change} {rest : List FileTree.Change}
    {files' : FileTree}
    (hdump : s.store.dumps.find? (fun d => d.writer = writer) = some ⟨writer, change :: rest⟩)
    (happly : s.store.files.apply change = .ok files') :
    ∃ version', Advances version version' ∧ Versioned files path t
      { s with
        store := { s.store with
          files := files'
          dumps := s.store.dumps.map fun d =>
            if d.writer = writer then { d with rest := rest } else d } } h version' := by
  obtain ⟨hdumps, -, -, hstage⟩ := hs.saves.dumps_eq hdump
  have hafter : (s.store.dumps.map fun d =>
      if d.writer = writer then { d with rest := rest } else d) = [⟨writer, rest⟩] := by
    rw [hdumps]
    simp
  have hmore : rest ≠ [] → ∀ d ∈ (s.store.dumps.map fun d =>
      if d.writer = writer then { d with rest := rest } else d), d.rest = [] →
        version = some h.copied.length := by
    intro hne d hd hrest
    rw [hafter] at hd
    rw [List.mem_singleton.mp hd] at hrest
    exact absurd hrest hne
  cases hstage with
  | directories parent =>
    refine ⟨version, .refl version, ?_, hv.copied, hmore (by simp), hv.untold⟩
    cases version with
    | none => exact FileTree.Untouched.createDirectories hv.shows happly
    | some n => exact FileTree.read_of_createDirectories happly hv.shows
  | write =>
    refine ⟨version, .refl version, ?_, hv.copied, hmore (by simp), hv.untold⟩
    cases version with
    | none => exact FileTree.Untouched.writeDraft hv.shows happly
    | some n => exact (FileTree.read_of_write_draft happly).trans hv.shows
  | rename hread =>
    refine ⟨some h.copied.length, fun n hn => ⟨_, rfl, hv.copied n hn⟩, ?_, ?_, fun _ _ _ => rfl, ?_⟩
    · show files'.read path = _
      rw [h.state_copied]
      exact FileTree.read_of_rename hread happly
    · intro n hn
      exact Nat.le_of_eq (Option.some.inj hn).symm
    · intro w hw
      rw [Option.getD_some, drop_copied] at hw
      exact (ht.fresh w hw).imp_right fun hw => ⟨hw.1, List.mem_append_right _ hw.2⟩

/-- A dump that has ended is in the file, so whoever asked for it may be answered. -/
theorem finish (hv : Versioned files path t s h version) (ht : Turns s h) {writer : Nat}
    (hdump : s.store.dumps.find? (fun d => d.writer = writer) = some ⟨writer, []⟩)
    (result : Except Fault Unit) :
    Versioned files path t { s with store := s.store.finish writer result } h version := by
  have hversion := hv.placed _ (List.mem_of_find?_eq_some hdump) rfl
  have hfiles : (s.store.finish writer result).files = s.store.files := by
    unfold DumpingStore.finish DumpingStore.removeDump
    dsimp only
    split <;> rfl
  have hdumps : ∀ d ∈ (s.store.finish writer result).dumps, d ∈ s.store.dumps := by
    unfold DumpingStore.finish DumpingStore.removeDump
    dsimp only
    split <;> exact fun d hd => List.mem_of_mem_filter hd
  have hasked : ∀ x ∈ s.store.waiting, x ∈ (s.store.finish writer result).asked := by
    unfold DumpingStore.finish DumpingStore.removeDump
    dsimp only
    split <;> exact fun x hx => List.mem_append_right _ hx
  subst hversion
  refine ⟨?_, hv.copied, fun d hd hrest => rfl, fun w hw => ?_⟩
  · show (s.store.finish writer result).files.read path = _
    rw [hfiles]
    exact hv.shows
  · rw [Option.getD_some, drop_copied] at hw
    exact (ht.fresh w hw).imp_right fun hw => ⟨hw.1, hasked _ hw.2⟩

theorem happens (hv : Versioned files path t s h version) (hs : Saved path t s h)
    (ha : Answers s h) (ht : Turns s h) (hstep : Happens s h s' h') :
    ∃ version', Advances version version' ∧ Versioned files path t s' h' version' := by
  have hsame : Versioned files path t s' h' version → ∃ version', Advances version version' ∧
      Versioned files path t s' h' version' := fun hv' => ⟨version, .refl version, hv'⟩
  cases hstep with
  | nothing => exact hsame hv
  | arrive writer call hnew hloop hresult =>
    exact hsame ⟨hv.shows, hv.copied, hv.placed, hv.untold⟩
  | keep r hr hreply reply hkept => exact hsame ⟨hv.shows, hv.copied, hv.placed, hv.untold⟩
  | resume isLast result hloop hresult =>
    exact hsame ⟨hv.shows, hv.copied, hv.placed, hv.untold⟩
  | stop => exact hsame ⟨hv.shows, hv.copied, hv.placed, hv.untold⟩
  | write r hr hreply hwrites reply table hanswer => exact hsame (hv.write ht table _)
  | respond r hr reply hreply hawaits =>
    have hasked := ht.not_asked_of_not_awaits ha (writer_of_request? hr).1
      (by rw [hreply]; nofun) hawaits
    refine hsame (hv.close rfl rfl fun x hx => Or.inl ⟨?_, hx⟩)
    rintro rfl
    exact hasked hx
  | leave writer hloop hholder =>
    refine hsame (hv.close rfl rfl fun x hx => ?_)
    by_cases hxw : x = writer
    · exact Or.inr ⟨hxw, rfl⟩
    · refine Or.inl ⟨hxw, ?_⟩
      rcases List.mem_append.mp hx with hx | hx
      · exact List.mem_append_left _ hx
      · exact List.mem_append_right _ (List.mem_filter.mpr ⟨hx, decide_eq_true hxw⟩)
  | begin writer rest path' hholder hwaiting hpath =>
    obtain rfl : path = path' := Option.some.inj (hs.snapshot.symm.trans hpath)
    refine hsame (hv.begin hholder hwaiting ?_)
    -- nobody has the turn, so no dump is under way
    rcases hs.saves with ⟨hdumps, -⟩ | ⟨w, rest', -, hheld, -⟩
    · exact hdumps
    · rw [hholder] at hheld
      cases hheld
  | change writer change rest files hdump happly => exact hv.change hs ht hdump happly
  | finish writer hdump => exact hsame (hv.finish ht hdump (.ok ()))
  | ask isLast hloop =>
    refine hsame (hv.of_same rfl rfl (fun _ _ => rfl) rfl fun w hw => ?_)
    refine (hv.untold w hw).mono fun x hx => ?_
    rcases List.mem_append.mp hx with hx | hx
    · exact List.mem_append_left _ hx
    · exact List.mem_append_right _ (List.mem_append_left _ hx)

end Versioned

/-- No write is undone. -/
theorem Happens.calls_prefix {s s' : ServerLife} {h h' : History} (hstep : Happens s h s' h') :
    h.writes.map (·.call) <+: h'.writes.map (·.call) := by
  have hclose : ∀ writer fate,
      h.writes.map (·.call) <+: (h.close writer fate).writes.map (·.call) := by
    intro writer fate
    have hcalls : (h.close writer fate).writes.map (·.call) = h.writes.map (·.call) := by
      rw [History.writes_close, History.map_call_settle]
    exact hcalls.symm ▸ List.prefix_refl _
  cases hstep with
  | write r hr hreply hwrites reply table hanswer =>
    rw [History.writes_write, List.map_append]
    exact List.prefix_append _ _
  | respond r hr reply hreply hawaits => exact hclose r.writer .answered
  | leave writer hloop hholder => exact hclose writer .gone
  | begin writer rest path hholder hwaiting hpath =>
    have hwrites : History.writes ⟨h.writes, [], true⟩ = h.writes := List.append_nil _
    exact hwrites.symm ▸ List.prefix_refl _
  | nothing => exact List.prefix_refl _
  | arrive writer call hnew hloop hresult => exact List.prefix_refl _
  | keep r hr hreply reply hkept => exact List.prefix_refl _
  | change writer change rest files hdump happly => exact List.prefix_refl _
  | finish writer hdump => exact List.prefix_refl _
  | ask isLast hloop => exact List.prefix_refl _
  | resume isLast result hloop hresult => exact List.prefix_refl _
  | stop => exact List.prefix_refl _

/-- A run without a mishap has had none at any moment. -/
theorem runsCalmly_take {s : ServerLife} {events : List Event} (h : s.runsCalmly events = true)
    (k : Nat) : s.runsCalmly (events.take k) = true := by
  induction events generalizing s k with
  | nil => rw [List.take_nil]; rfl
  | cons e events ih =>
    cases k with
    | zero => rfl
    | succ k =>
      rw [runsCalmly, Bool.and_eq_true] at h
      rw [List.take_succ_cons, runsCalmly, h.1, ih h.2]
      rfl

section Run

variable {files : FileTree} {path : String} {restore : Bool} {store : DumpingStore}
  {events : List Event}

/-- What holds after any run without a mishap of a server that dumps each write. -/
theorem invariants_run (hstore : DumpingStore.withSnapshot files path 0 restore = .ok store)
    (hcalm : (start store 0 .fresh).runsCalmly events = true) :
    let s := (start store 0 .fresh).run events
    let h := (start store 0 .fresh).history events
    Saved path store.table s h ∧ Answers s h ∧ Turns s h :=
  runsCalmly_induct hcalm (saved_start hstore .fresh).snapshot
    (P := fun s h => Saved path store.table s h ∧ Answers s h ∧ Turns s h)
    ⟨saved_start hstore .fresh, answers_start store 0 .fresh, turns_start hstore .fresh⟩
    fun ⟨hs, ha, ht⟩ hstep => ⟨hs.happens hstep, ha.happens hstep, ht.happens ha hstep⟩

theorem versioned_start (hstore : DumpingStore.withSnapshot files path 0 restore = .ok store) :
    Versioned files path store.table (start store 0 .fresh) .empty none := by
  have hplain := DumpingStore.withSnapshot_eq hstore
  have hfiles : store.files = files := congrArg (·.files) hplain
  have hdumps : store.dumps = [] := congrArg (·.dumps) hplain
  refine ⟨?_, nofun, fun d hd => ?_, nofun⟩
  · show files.Untouched store.files path
    rw [hfiles]
    exact .refl files path
  · rw [show (start store 0 .fresh).store.dumps = [] from hdumps] at hd
    cases hd

/-- The version of the file at each moment of a run. -/
theorem versioned_run (hstore : DumpingStore.withSnapshot files path 0 restore = .ok store)
    (hcalm : (start store 0 .fresh).runsCalmly events = true) :
    ∃ version : Nat → Option Nat, (∀ k l, k ≤ l → Advances (version k) (version l)) ∧
      ∀ k, Versioned files path store.table ((start store 0 .fresh).run (events.take k))
          ((start store 0 .fresh).history (events.take k)) (version k) ∧
        ((start store 0 .fresh).history (events.take k)).writes.map (·.call) <+:
          ((start store 0 .fresh).history events).writes.map (·.call) := by
  induction events using List.reverseRecOn with
  | nil =>
    refine ⟨fun _ => none, fun _ _ _ => .refl none, fun k => ?_⟩
    rw [List.take_nil]
    exact ⟨versioned_start hstore, List.prefix_refl _⟩
  | append_singleton events e ih =>
    rw [runsCalmly_concat, Bool.and_eq_true] at hcalm
    obtain ⟨version, hadvances, hversioned⟩ := ih hcalm.1
    obtain ⟨hs, ha, ht⟩ := invariants_run hstore hcalm.1
    have hlast := (hversioned events.length).1
    rw [List.take_length] at hlast
    have hstep := happens_step _ ((start store 0 .fresh).history events) hs.snapshot hcalm.2
    obtain ⟨version', hnew, hversioned'⟩ := hlast.happens hs ha ht hstep
    rw [history_concat]
    -- up to the last event all is as before
    refine ⟨fun k => if k ≤ events.length then version k else version', fun k l hkl => ?_,
      fun k => ?_⟩
    · dsimp only
      by_cases hl : l ≤ events.length
      · rw [if_pos (Nat.le_trans hkl hl), if_pos hl]
        exact hadvances k l hkl
      · rw [if_neg hl]
        split
        next hk => exact (hadvances k events.length hk).trans hnew
        next => exact .refl version'
    · dsimp only
      by_cases hk : k ≤ events.length
      · rw [if_pos hk, List.take_append_of_le_length hk]
        exact ⟨(hversioned k).1, (hversioned k).2.trans hstep.calls_prefix⟩
      · have hall : (events ++ [e]).take k = events ++ [e] :=
          List.take_of_length_le (by rw [List.length_append, List.length_singleton]; omega)
        rw [if_neg hk, hall, run_concat, history_concat]
        exact ⟨hversioned', List.prefix_refl _⟩

end Run

/-- **A synchronous dump never takes the snapshot file back.** In a server that dumps each write, and
after any run of it in which nothing goes wrong with the dumps and nobody leaves while its own is
under way, there is for each moment a version of the snapshot file: none as long as what was there
at first is still there, and then a number of writes. The file is the complete dump of the table
after just so many writes; this number never goes down, and every write that was answered with
success by then is among them, whatever dump is under way. -/
theorem dumps_never_go_back {files : FileTree} {path : String} {restore : Bool}
    {store : DumpingStore}
    (hstore : DumpingStore.withSnapshot files path 0 restore = .ok store) {events : List Event}
    (hcalm : (start store 0 .fresh).runsCalmly events = true) :
    let calls := ((start store 0 .fresh).history events).writes.map (·.call)
    let state (n : Nat) : Table := store.table.afterCalls (calls.take n)
    ∃ version : Nat → Option Nat,
      (∀ k l, k ≤ l → ∀ n ∈ version k, ∃ m ∈ version l, n ≤ m) ∧
      ∀ k,
        let s := (start store 0 .fresh).run (events.take k)
        let h := (start store 0 .fresh).history (events.take k)
        h.writes.map (·.call) = calls.take h.writes.length ∧
          s.store.table = state h.writes.length ∧
          ((h.writes.filter (·.fate = .answered)).map (·.call)).Perm
            ((s.served.filter (·.hasWritten)).map (·.call)) ∧
          (∀ i w, h.writes[i]? = some w → w.fate = .answered → ∃ n ∈ version k, i < n) ∧
          match version k with
          | none =>
            (∀ content, files.read path = .ok content → s.store.files.read path = .ok content) ∧
              ∀ content, s.store.files.read path = .ok content →
                ∃ p, files.node? p = some (.file content)
          | some n =>
            n ≤ h.writes.length ∧
              s.store.files.read path = .ok (Metric.listDocumentBytes (state n).metrics) := by
  intro calls state
  obtain ⟨version, hadvances, hversioned⟩ := versioned_run hstore hcalm
  refine ⟨version, hadvances, fun k => ?_⟩
  intro s h
  obtain ⟨hs, ha, -⟩ := invariants_run hstore (runsCalmly_take hcalm k)
  obtain ⟨hv, hprefix⟩ := hversioned k
  have hcalls : h.writes.map (·.call) = calls.take h.writes.length := by
    have htake := List.prefix_iff_eq_take.mp hprefix
    rwa [List.length_map] at htake
  have hstate : ∀ n ≤ h.writes.length, h.state store.table n = state n := by
    intro n hn
    show store.table.afterCalls _ = store.table.afterCalls _
    rw [List.map_take, hcalls, List.take_take, Nat.min_eq_left hn]
  refine ⟨hcalls, ?_, ha.answered, fun i w hw hanswered => hv.exists_of_answered hw hanswered, ?_⟩
  · rw [← hstate _ (Nat.le_refl _)]
    unfold History.state
    rw [List.take_length]
    exact hs.table
  · have hshows := hv.shows
    have hcopied := hv.copied
    cases hversion : version k with
    | none =>
      rw [hversion] at hshows
      exact ⟨hshows.kept, fun content hread => hshows.exists_of_read hread⟩
    | some n =>
      rw [hversion] at hshows hcopied
      have hn : n ≤ h.writes.length := Nat.le_trans (hcopied n rfl) h.length_copied_le
      refine ⟨hn, ?_⟩
      rw [← hstate n hn]
      exact hshows

/-- Two writes of which the second one comes while the first is dumped: when it is answered the file
has both. -/
theorem dumps_in_order_of_two_writes :
    let store : DumpingStore := { DumpingStore.plain .empty with
      snapshot := some "m.json"
      dumpsWrites := true }
    let events : List Event :=
      [.arrive 1 (.mergeMany [.counter "hits" 5]), .arrive 2 (.mergeMany [.counter "hits" 2]),
        .perform 1, .dump .begin, .perform 2, .dump (.proceed 1), .dump (.proceed 1),
        .dump (.proceed 1), .respond 1, .dump .begin, .dump (.proceed 2), .dump (.proceed 2),
        .dump (.proceed 2), .respond 2]
    let final := (start store 0 .fresh).run events
    DumpingStore.withSnapshot .empty "m.json" 0 false = .ok store ∧
      (start store 0 .fresh).runsCalmly events = true ∧
      final.store.files.read "m.json" = .ok (Metric.listDocumentBytes [.counter "hits" 7]) := by
  intro store events final
  have hstore : DumpingStore.withSnapshot .empty "m.json" 0 false = .ok store := rfl
  have hcalm : (start store 0 .fresh).runsCalmly events = true := by decide +kernel
  have hwrites : ((start store 0 .fresh).history events).writes =
      [⟨1, .mergeMany [.counter "hits" 5], .answered⟩,
        ⟨2, .mergeMany [.counter "hits" 2], .answered⟩] := by decide +kernel
  have hstate : (store.table.afterCalls
      [.mergeMany [.counter "hits" 5], .mergeMany [.counter "hits" 2]]).metrics =
        [.counter "hits" 7] := by decide +kernel
  have hsecond : ((start store 0 .fresh).history events).writes[1]? =
      some ⟨2, .mergeMany [.counter "hits" 2], .answered⟩ := by rw [hwrites]; rfl
  obtain ⟨version, -, hmoments⟩ := dumps_never_go_back hstore hcalm
  have hmoment := hmoments events.length
  rw [List.take_length] at hmoment
  obtain ⟨-, -, -, hanswered, hfile⟩ := hmoment
  obtain ⟨n, hn, hlast⟩ := hanswered 1 _ hsecond rfl
  rw [show version events.length = some n from hn] at hfile
  obtain ⟨hle, hread⟩ := hfile
  rw [hwrites] at hle hread
  -- both writes have been answered, so it has both
  have hboth : n = 2 := Nat.le_antisymm hle hlast
  subst hboth
  refine ⟨hstore, hcalm, ?_⟩
  rw [show final = (start store 0 .fresh).run events from rfl, hread, ← hstate]
  rfl

/-- A client leaves while the dump of its write is under way. The next write has its turn at once,
and is answered when its own dump has ended; then the older dump goes on, and takes the file back to
what it was before that write. -/
theorem older_dump_comes_last :
    let store : DumpingStore := { DumpingStore.plain .empty with
      snapshot := some "m.json"
      dumpsWrites := true }
    let events : List Event :=
      [.arrive 1 (.mergeMany [.counter "hits" 5]), .arrive 2 (.mergeMany [.counter "hits" 2]),
        .perform 1, .dump .begin, .leave 1, .perform 2, .dump .begin, .dump (.proceed 2),
        .dump (.proceed 2), .dump (.proceed 2), .respond 2, .dump (.proceed 1),
        .dump (.proceed 1), .dump (.proceed 1)]
    let answered := (start store 0 .fresh).run (events.take 11)
    let final := (start store 0 .fresh).run events
    DumpingStore.withSnapshot .empty "m.json" 0 false = .ok store ∧
      answered.served.map (fun r => (r.call, r.isSuccess)) =
        [(.mergeMany [.counter "hits" 2], true)] ∧
      answered.store.files.read "m.json" =
        .ok (Metric.listDocumentBytes [.counter "hits" 7]) ∧
      final.store.dumps = [] ∧
      final.store.table.metrics = [.counter "hits" 7] ∧
      final.store.files.read "m.json" = .ok (Metric.listDocumentBytes [.counter "hits" 5]) := by
  intro store events answered final
  refine ⟨rfl, ?_, ?_, ?_, ?_, ?_⟩
  · decide +kernel
  · decide +kernel
  · decide +kernel
  · decide +kernel
  · decide +kernel

end ServerLife

end Telemetry
