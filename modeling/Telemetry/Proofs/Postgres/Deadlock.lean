import Mathlib.Data.Finset.Max
import Mathlib.Data.String.Basic
import Telemetry.Proofs.Postgres.Schedule

/-!
# Merges that wait for each other

Each merge takes the locks of its names in the order of the names. That keeps merges from
waiting for each other in a circle as long as each name has a lock of its own: then whoever
holds the lock that is waited for waits for a later one (`Interlock.not_of_apart`). But a lock is
on the key of a name, and two names may have one key. Some merges can come to wait for each other
exactly if the keys of their names interlock (`Interlock`, `deadlock_iff_interlock`): in one
direction the locks that are held in a deadlock are those of the names that were come past
(`Deadlocked.interlock`), in the other a run is put together in which every merge comes to the
name whose lock it does not get (`Interlock.reaches`).
-/

namespace Telemetry.Postgres

namespace Crowd

variable {α : Type}

/-- Whether a talk waits for a lock that another one holds. -/
def WaitsFor (c : Crowd α) (i j : Nat) : Prop :=
  j ≠ i ∧ ∃ id next, c.talks[i]? = some (.ask (.lock id) next) ∧ c.waits i ∧ c.database.Holds j id

/-- Whether there are some of the talks, and each of them waits for another of them. -/
def Deadlocked (c : Crowd α) (members : Finset Nat) : Prop :=
  members.Nonempty ∧ ∀ i ∈ members, ∃ j ∈ members, c.WaitsFor i j

/-! ## The locks in a crowd -/

/-- What is true of the locks of a crowd of merges. -/
structure Gripped (calls : List MergeCall) (c : Crowd (Except Fault (List Metric))) : Prop where
  exclusive : c.database.Exclusive
  grips : ∀ i talk, c.talks[i]? = some talk →
    (∃ call, calls[i]? = some call ∧ withoutDatabase (.mergeMany call.batch) = none ∧
        Grip c.database i call.batch talk) ∨
      ∃ result, talk = .done result

namespace Gripped

variable {tables : Tables} {calls : List MergeCall} {c : Crowd (Except Fault (List Metric))}

theorem start (tables : Tables) (calls : List MergeCall) : Gripped calls (ofCalls tables calls) where
  exclusive := by
    intro id i j hi
    cases hi
  grips := by
    intro i talk htalk
    have hmap : (calls.map MergeCall.talk)[i]? = some talk := htalk
    rw [List.getElem?_map] at hmap
    obtain ⟨call, hcall, rfl⟩ := Option.map_eq_some_iff.mp hmap
    cases h : withoutDatabase (.mergeMany call.batch) with
    | none =>
      refine Or.inl ⟨call, hcall, h, .start h fun id hid => ?_⟩
      cases hid
    | some result =>
      refine Or.inr ⟨result, ?_⟩
      unfold MergeCall.talk
      rw [h]

theorem step (h : Gripped calls c) (turn : Turn) : Gripped calls (c.step turn) := by
  obtain ⟨i, mishap⟩ := turn
  cases htalk : c.talks[i]? with
  | none => simpa only [Crowd.step, htalk] using h
  | some talk =>
    cases talk with
    | done a => simpa only [Crowd.step, htalk] using h
    | ask s next =>
      cases hreply : c.database.reply? i mishap s with
      | none =>
        rw [step_of_waiting htalk hreply]
        exact h
      | some r =>
        obtain ⟨reply, d'⟩ := r
        have hframe := Database.frame_reply? hreply
        rw [step_of_reply htalk hreply]
        refine ⟨hframe.exclusive h.exclusive, fun j talk' htalk' => ?_⟩
        by_cases hij : j = i
        · subst hij
          cases (getElem?_set_of_some htalk (next reply)).symm.trans htalk'
          rcases h.grips j _ htalk with ⟨call, hcall, hasks, hgrip⟩ | ⟨result, hdone⟩
          · exact Or.inl ⟨call, hcall, hasks, hgrip.step hreply⟩
          · cases hdone
        · -- another one stays where it is
          have hset : (c.talks.set i (next reply))[j]? = c.talks[j]? :=
            List.getElem?_set_ne fun h => hij h.symm
          rcases h.grips j talk' (hset.symm.trans htalk') with ⟨call, hcall, hasks, hgrip⟩ | hdone
          · exact Or.inl ⟨call, hcall, hasks, hgrip.frame hij hframe⟩
          · exact Or.inr hdone

theorem run (tables : Tables) (calls : List MergeCall) (turns : List Turn) :
    Gripped calls ((ofCalls tables calls).run turns) := by
  induction turns using List.reverseRecOn with
  | nil => exact start tables calls
  | append_singleton turns turn ih =>
    rw [run_concat]
    exact ih.step turn

end Gripped

end Crowd

/-! ## Keys that interlock -/

/-- Merges that can come to wait for each other: each has taken the locks of some of its first
names, no two of them have taken a common key, and the key of the next name of each is taken by
another one. -/
structure Interlock (calls : List MergeCall) where
  members : Finset Nat
  nonempty : members.Nonempty
  taken : Nat → List String
  next : Nat → String
  order : ∀ i ∈ members, ∃ call rest, calls[i]? = some call ∧
    withoutDatabase (.mergeMany call.batch) = none ∧
    Merge.lockOrder call.batch = taken i ++ next i :: rest
  apart : ∀ i ∈ members, ∀ j ∈ members, i ≠ j →
    ∀ a ∈ taken i, ∀ b ∈ taken j, lockKey a ≠ lockKey b
  waits : ∀ i ∈ members, ∃ j ∈ members, j ≠ i ∧ ∃ name ∈ taken j, lockKey name = lockKey (next i)

/-- Whether no two names of some batches share a key. -/
def KeysApart (calls : List MergeCall) : Prop :=
  ∀ call ∈ calls, ∀ call' ∈ calls, ∀ a ∈ uniqueNames call.batch, ∀ b ∈ uniqueNames call'.batch,
    lockKey a = lockKey b → a = b

theorem nameLock_inj {a b : String} : nameLock a = nameLock b ↔ lockKey a = lockKey b := by
  unfold nameLock
  rw [LockId.name.injEq]

namespace Merge

/-- The names whose locks are taken stand in their order, each of them once. -/
theorem pairwise_lockOrder (batch : List Metric) : (lockOrder batch).Pairwise (· < ·) := by
  have hsorted : (lockOrder batch).Pairwise fun a b => decide (a ≤ b) = true := by
    refine List.pairwise_mergeSort (fun a b c hab hbc => ?_) (fun a b => ?_) _
    · simp only [decide_eq_true_eq] at hab hbc ⊢
      exact le_trans hab hbc
    · simpa using le_total a b
  have hnodup : (lockOrder batch).Nodup :=
    (List.mergeSort_perm _ _).nodup_iff.mpr (nodup_uniqueNames batch)
  refine (hsorted.and hnodup).imp fun {a b} h => ?_
  exact lt_of_le_of_ne (of_decide_eq_true h.1) h.2

theorem mem_lockOrder {batch : List Metric} {name : String} :
    name ∈ lockOrder batch ↔ name ∈ uniqueNames batch := List.mem_mergeSort

end Merge

/-- Names that stand in their order already stay there. -/
theorem Merge.lockOrder_of_pairwise {batch : List Metric}
    (h : (uniqueNames batch).Pairwise (· ≤ ·)) : lockOrder batch = uniqueNames batch :=
  List.mergeSort_of_pairwise (h.imp fun h => decide_eq_true h)

/-- **Names that each have a key of their own do not interlock.** Whoever has taken the lock that
another one asks for has come past that name, and asks for a later one itself. -/
theorem Interlock.not_of_apart {calls : List MergeCall} (hkeys : KeysApart calls)
    (h : Interlock calls) : False := by
  -- the one that asks for the last of all these names
  obtain ⟨i, hi, hlast⟩ := h.members.exists_max_image h.next h.nonempty
  obtain ⟨j, hj, -, name, hname, hkey⟩ := h.waits i hi
  obtain ⟨call, rest, hcall, -, horder⟩ := h.order i hi
  obtain ⟨call', rest', hcall', -, horder'⟩ := h.order j hj
  have hmem : h.next i ∈ uniqueNames call.batch := by
    rw [← Merge.mem_lockOrder, horder]
    simp
  have hmem' : name ∈ uniqueNames call'.batch := by
    rw [← Merge.mem_lockOrder, horder']
    simp [hname]
  have hsame : name = h.next i :=
    hkeys call' (List.mem_of_getElem? hcall') call (List.mem_of_getElem? hcall) name hmem'
      (h.next i) hmem hkey
  have hlater : name < h.next j := by
    have hpairwise := Merge.pairwise_lockOrder call'.batch
    rw [horder', List.pairwise_append] at hpairwise
    exact hpairwise.2.2 name hname (h.next j) List.mem_cons_self
  rw [hsame] at hlater
  exact absurd (hlast j hj) (not_le_of_gt hlater)

/-- What is held in a deadlock interlocks. -/
theorem Crowd.Deadlocked.interlock {calls : List MergeCall}
    {c : Crowd (Except Fault (List Metric))} {members : Finset Nat} (h : c.Deadlocked members)
    (hgripped : c.Gripped calls) : Nonempty (Interlock calls) := by
  obtain ⟨hne, hwaits⟩ := h
  -- whoever asks for a lock asks for that of the migrations, and nobody waits for it, or for that
  -- of a name
  have hasks : ∀ i ∈ members, ∃ id, (∃ j ∈ members, j ≠ i ∧ c.database.Holds j id) ∧
      ((id = .migrations ∧ ∀ id, ¬c.database.Holds i id) ∨
        ∃ taken name, (∃ call rest, calls[i]? = some call ∧
            withoutDatabase (.mergeMany call.batch) = none ∧
            Merge.lockOrder call.batch = taken ++ name :: rest) ∧
          id = nameLock name ∧
          ∀ id, c.database.Holds i id ↔ ∃ name ∈ taken, nameLock name = id) := by
    intro i hi
    obtain ⟨j, hj, hji, id, next, htalk, -, hheld⟩ := hwaits i hi
    refine ⟨id, ⟨j, hj, hji, hheld⟩, ?_⟩
    rcases hgripped.grips i _ htalk with ⟨call, hcall, hdatabase, hgrip⟩ | ⟨result, hdone⟩
    · rcases hgrip.of_lock with hfirst | ⟨taken, name, rest, horder, hid, hheld⟩
      · exact Or.inl hfirst
      · exact Or.inr ⟨taken, name, ⟨call, rest, hcall, hdatabase, horder⟩, hid, hheld⟩
    · cases hdone
  have hnames : ∀ i ∈ members, ∃ taken name, (∃ call rest, calls[i]? = some call ∧
        withoutDatabase (.mergeMany call.batch) = none ∧
        Merge.lockOrder call.batch = taken ++ name :: rest) ∧
      (∃ j ∈ members, j ≠ i ∧ c.database.Holds j (nameLock name)) ∧
      ∀ id, c.database.Holds i id ↔ ∃ name ∈ taken, nameLock name = id := by
    intro i hi
    obtain ⟨id, ⟨j, hj, hji, hheld⟩, hmine⟩ := hasks i hi
    obtain ⟨_, -, htheirs⟩ := hasks j hj
    rcases htheirs with ⟨-, hnone⟩ | ⟨taken', name', -, -, hheld'⟩
    · exact absurd hheld (hnone id)
    · -- what the other one holds is the lock of a name
      obtain ⟨name'', -, rfl⟩ := (hheld' id).mp hheld
      rcases hmine with ⟨hid, -⟩ | ⟨taken, name, horder, hid, hheld''⟩
      · cases hid
      · exact ⟨taken, name, horder, ⟨j, hj, hji, hid ▸ hheld⟩, hheld''⟩
  choose! taken next horder hwaits' hheld using hnames
  refine ⟨⟨members, hne, taken, next, horder, ?_, ?_⟩⟩
  · intro i hi j hj hij a ha b hb hkey
    have hi' := (hheld i hi _).mpr ⟨a, ha, rfl⟩
    have hj' := (hheld j hj _).mpr ⟨b, hb, (nameLock_inj.mpr hkey).symm⟩
    exact hij (hgripped.exclusive hi' hj')
  · intro i hi
    obtain ⟨j, hj, hji, hheld'⟩ := hwaits' i hi
    obtain ⟨name, hname, hlock⟩ := (hheld j hj _).mp hheld'
    exact ⟨j, hj, hji, name, hname, nameLock_inj.mp hlock⟩

/-! ## How merges come to wait for each other -/

namespace Interlock

variable {calls : List MergeCall}

/-- A crowd in which some merges have taken the locks that they have taken when they wait for
each other, and the others have not begun. -/
structure Staged (h : Interlock calls) (ready : List Nat)
    (c : Crowd (Except Fault (List Metric))) : Prop where
  waiting : ∀ i ∈ ready, c.database.transaction? i = some .fresh ∧
    ∃ batch rest, c.talks[i]? = some (Merge.lockAll batch (h.next i :: rest))
  untouched : ∀ i, i ∉ ready → c.talks[i]? = calls[i]?.map MergeCall.talk
  held : ∀ i id, c.database.Holds i id ↔ i ∈ ready ∧ ∃ name ∈ h.taken i, nameLock name = id

/-- One more of them takes its locks, since what the others hold has other keys. -/
theorem Staged.cons {h : Interlock calls} {ready : List Nat}
    {c : Crowd (Except Fault (List Metric))} (hstaged : h.Staged ready c)
    (hready : ∀ j ∈ ready, j ∈ h.members) {i : Nat} (hi : i ∈ h.members) (hnew : i ∉ ready) :
    ∃ c', c.Reaches c' ∧ h.Staged (i :: ready) c' := by
  obtain ⟨call, rest, hcall, hasks, horder⟩ := h.order i hi
  have htalk : c.talks[i]? = some call.talk := by
    rw [hstaged.untouched i hnew, hcall]
    rfl
  have hnone : ∀ id, ¬c.database.Holds i id := fun id hid => hnew ((hstaged.held i id).mp hid).1
  have hfree : ∀ j, ¬c.database.Holds j .migrations := by
    intro j hj
    obtain ⟨-, name, -, hname⟩ := (hstaged.held j _).mp hj
    cases hname
  obtain ⟨d₁, hfirst, hframe₁, ht₁, hnone₁⟩ := Crowd.reaches_first htalk hasks hfree hnone
  rw [horder] at hfirst
  have hfree₁ : ∀ name ∈ h.taken i, ∀ j, d₁.Holds j (nameLock name) → j = i := by
    intro name hname j hj
    by_contra hji
    obtain ⟨hjready, name', hname', hlock⟩ := (hstaged.held j _).mp ((hframe₁.locks hji).mp hj)
    exact h.apart j (hready j hjready) i hi hji name' hname' name hname (nameLock_inj.mp hlock)
  obtain ⟨d', hrest, hframe, ht, hheld⟩ :=
    Crowd.reaches_lockAll (c := ⟨d₁, c.talks.set i _⟩) (Crowd.getElem?_set_of_some htalk _) ht₁
      hfree₁
  rw [List.set_set] at hrest
  refine ⟨_, hfirst.trans hrest, ⟨?_, ?_, ?_⟩⟩
  · intro j hj
    by_cases hji : j = i
    · subst hji
      exact ⟨ht, call.batch, rest, Crowd.getElem?_set_of_some htalk _⟩
    · have hjready : j ∈ ready := (List.mem_cons.mp hj).resolve_left hji
      obtain ⟨ht', batch, rest', htalk'⟩ := hstaged.waiting j hjready
      refine ⟨?_, batch, rest', ?_⟩
      · exact ((hframe.transactions hji).trans (hframe₁.transactions hji)).trans ht'
      · exact (List.getElem?_set_ne fun heq => hji heq.symm).trans htalk'
  · intro j hj
    rw [List.mem_cons, not_or] at hj
    exact (List.getElem?_set_ne fun heq => hj.1 heq.symm).trans (hstaged.untouched j hj.2)
  · intro j id
    by_cases hji : j = i
    · subst hji
      rw [hheld]
      simp [hnone₁]
    · rw [hframe.locks hji]
      show d₁.Holds j id ↔ _
      rw [hframe₁.locks hji, hstaged.held]
      simp [hji]

/-- One after another they come to where they wait. -/
theorem reaches (h : Interlock calls) (tables : Tables) {ready : List Nat}
    (hready : ∀ i ∈ ready, i ∈ h.members) (hnodup : ready.Nodup) :
    ∃ c, (Crowd.ofCalls tables calls).Reaches c ∧ h.Staged ready c := by
  induction ready with
  | nil =>
    refine ⟨_, .refl _, ⟨nofun, fun i _ => List.getElem?_map, fun i id => ?_⟩⟩
    constructor
    · intro hid
      cases hid
    · rintro ⟨hi, -⟩
      cases hi
  | cons i ready ih =>
    rw [List.nodup_cons] at hnodup
    obtain ⟨hi, hready⟩ := List.forall_mem_cons.mp hready
    obtain ⟨c, hreaches, hstaged⟩ := ih hready hnodup.2
    obtain ⟨c', hnext, hstaged'⟩ := hstaged.cons hready hi hnodup.1
    exact ⟨c', hreaches.trans hnext, hstaged'⟩

/-- **Merges whose keys interlock can come to wait for each other.** -/
theorem deadlocks (h : Interlock calls) (tables : Tables) :
    ∃ turns, ((Crowd.ofCalls tables calls).run turns).Deadlocked h.members := by
  have hmembers : ∀ i ∈ h.members.toList, i ∈ h.members := fun i hi => Finset.mem_toList.mp hi
  obtain ⟨c, ⟨turns, hturns⟩, hstaged⟩ := h.reaches tables hmembers h.members.nodup_toList
  refine ⟨turns, h.nonempty, fun i hi => ?_⟩
  rw [hturns]
  obtain ⟨ht, batch, rest, htalk⟩ := hstaged.waiting i (Finset.mem_toList.mpr hi)
  obtain ⟨j, hj, hji, name, hname, hkey⟩ := h.waits i hi
  have hheld : c.database.Holds j (nameLock (h.next i)) :=
    (hstaged.held j _).mpr ⟨Finset.mem_toList.mpr hj, name, hname, nameLock_inj.mpr hkey⟩
  refine ⟨j, hj, hji, nameLock (h.next i), _, htalk, ?_, hheld⟩
  unfold Crowd.waits
  rw [htalk]
  show (c.database.execute i (.lock (nameLock (h.next i)))).isNone = true
  rw [Database.execute_lock_eq_none ht hheld hji]
  rfl

end Interlock

/-- **Batches come to a deadlock only through a shared key.** Of any calls to merge that are made
at once, with their statements in any order and whatever goes wrong with them, some can come to
wait for each other exactly if the keys of their names interlock. If no two names of the batches
share a key, they never do. -/
theorem deadlock_iff_interlock (tables : Tables) (calls : List MergeCall) :
    ((∃ turns members, ((Crowd.ofCalls tables calls).run turns).Deadlocked members) ↔
        Nonempty (Interlock calls)) ∧
      (KeysApart calls → ∀ turns members,
        ¬((Crowd.ofCalls tables calls).run turns).Deadlocked members) := by
  have honly : ∀ turns members, ((Crowd.ofCalls tables calls).run turns).Deadlocked members →
      Nonempty (Interlock calls) :=
    fun turns members h => h.interlock (Crowd.Gripped.run tables calls turns)
  refine ⟨⟨?_, ?_⟩, ?_⟩
  · rintro ⟨turns, members, h⟩
    exact honly turns members h
  · rintro ⟨h⟩
    obtain ⟨turns, hdeadlocked⟩ := h.deadlocks tables
    exact ⟨turns, h.members, hdeadlocked⟩
  · intro hkeys turns members h
    obtain ⟨interlock⟩ := honly turns members h
    exact interlock.not_of_apart hkeys

/-- Two batches with the same names in either order never wait for each other. -/
theorem no_deadlock_of_hits_and_misses :
    let calls : List MergeCall := [⟨[.counter "hits" 1, .counter "misses" 1], true⟩,
      ⟨[.counter "misses" 1, .counter "hits" 1], false⟩]
    KeysApart calls ∧ ∀ turns members,
      ¬((Crowd.ofCalls ⟨none, none⟩ calls).run turns).Deadlocked members := by
  intro calls
  have hkeys : KeysApart calls := by
    unfold KeysApart
    decide +kernel
  exact ⟨hkeys, (deadlock_iff_interlock ⟨none, none⟩ calls).2 hkeys⟩

/-- Two names share a key, one of them before and one after the name that two batches have in
common. Each batch holds the lock that the other one asks for. -/
theorem batches_deadlock_on_shared_key :
    let calls : List MergeCall := [⟨[.counter "8yn0iYCKYHlIj4-BwPqk" 1, .counter "C" 1], true⟩,
      ⟨[.counter "C" 1, .counter "GReLUrM4wMqfg9yzV3KQ" 1], true⟩]
    lockKey "8yn0iYCKYHlIj4-BwPqk" = lockKey "GReLUrM4wMqfg9yzV3KQ" ∧
      (∀ call ∈ calls, validateAll call.batch = .ok ()) ∧
      ∃ turns members,
        ((Crowd.ofCalls ⟨some [], some [1]⟩ calls).run turns).Deadlocked members := by
  intro calls
  have hfirst : Merge.lockOrder [.counter "8yn0iYCKYHlIj4-BwPqk" 1, .counter "C" 1] =
      ["8yn0iYCKYHlIj4-BwPqk", "C"] := Merge.lockOrder_of_pairwise (by decide +kernel)
  have hsecond : Merge.lockOrder [.counter "C" 1, .counter "GReLUrM4wMqfg9yzV3KQ" 1] =
      ["C", "GReLUrM4wMqfg9yzV3KQ"] := Merge.lockOrder_of_pairwise (by decide +kernel)
  let interlock : Interlock calls :=
    { members := {0, 1}
      nonempty := ⟨0, by simp⟩
      taken := fun i => if i = 0 then ["8yn0iYCKYHlIj4-BwPqk"] else ["C"]
      next := fun i => if i = 0 then "C" else "GReLUrM4wMqfg9yzV3KQ"
      order := by
        intro i hi
        rcases Finset.mem_insert.mp hi with rfl | hi
        · exact ⟨_, [], rfl, rfl, hfirst⟩
        · obtain rfl := Finset.mem_singleton.mp hi
          exact ⟨_, [], rfl, rfl, hsecond⟩
      apart := by decide +kernel
      waits := by decide +kernel }
  refine ⟨by decide +kernel, by decide +kernel, ?_⟩
  obtain ⟨turns, hdeadlocked⟩ := interlock.deadlocks ⟨some [], some [1]⟩
  exact ⟨turns, interlock.members, hdeadlocked⟩

end Telemetry.Postgres
