import Telemetry.Proofs.Metric.Merging
import Mathlib.Data.List.Induction
import Mathlib.Data.List.Nodup

/-!
# What merging a batch gives

`mergeBatch` works through a batch with all its names mixed, one list of results for all of
them. Seen from one name it is a plain fold: the occurrences of the name are merged, in
their order, into what is stored under it, or into the first of them if nothing is
(`foldName`). The loop keeps just that for every name it has met (`Folded`), so the results
stand in the order of `uniqueNames` and no name sees another.

A batch is refused exactly if one of its members is not valid or has another kind than the
metric where the fold of its name begins (`Admissible`).
-/

namespace Telemetry

open Fallible (bind_eq_ok_iff map_eq_ok_iff mapM_eq_ok_of_forall exists_ok_of_mapM)

/-! ## The names of a batch -/

/-- The members of a batch with a name, in their order. -/
def occurrences (batch : List Metric) (name : String) : List Metric :=
  batch.filter fun m => m.name = name

theorem occurrences_concat_self (batch : List Metric) (m : Metric) :
    occurrences (batch ++ [m]) m.name = occurrences batch m.name ++ [m] := by
  simp [occurrences]

theorem occurrences_concat_of_ne {m : Metric} {name : String} (h : m.name ≠ name)
    (batch : List Metric) : occurrences (batch ++ [m]) name = occurrences batch name := by
  simp [occurrences, h]

theorem uniqueNames_concat (batch : List Metric) (m : Metric) :
    uniqueNames (batch ++ [m]) =
      if m.name ∈ uniqueNames batch then uniqueNames batch else uniqueNames batch ++ [m.name] := by
  unfold uniqueNames
  rw [List.foldl_append]
  rfl

theorem mem_uniqueNames {batch : List Metric} {name : String} :
    name ∈ uniqueNames batch ↔ ∃ m ∈ batch, m.name = name := by
  induction batch using List.reverseRecOn with
  | nil => simp [uniqueNames]
  | append_singleton batch m ih =>
    rw [uniqueNames_concat]
    split
    next hm =>
      -- the last name was met before
      rw [ih]
      constructor
      · rintro ⟨x, hx, hn⟩
        exact ⟨x, List.mem_append_left _ hx, hn⟩
      · rintro ⟨x, hx, hn⟩
        rcases List.mem_append.mp hx with hx | hx
        · exact ⟨x, hx, hn⟩
        · rw [List.mem_singleton.mp hx] at hn
          rw [hn] at hm
          exact ih.mp hm
    next hm =>
      rw [List.mem_append, ih, List.mem_singleton]
      constructor
      · rintro (⟨x, hx, hn⟩ | hn)
        · exact ⟨x, List.mem_append_left _ hx, hn⟩
        · exact ⟨m, by simp, hn.symm⟩
      · rintro ⟨x, hx, hn⟩
        rcases List.mem_append.mp hx with hx | hx
        · exact Or.inl ⟨x, hx, hn⟩
        · rw [List.mem_singleton.mp hx] at hn
          exact Or.inr hn.symm

theorem nodup_uniqueNames (batch : List Metric) : (uniqueNames batch).Nodup := by
  induction batch using List.reverseRecOn with
  | nil => exact List.nodup_nil
  | append_singleton batch m ih =>
    rw [uniqueNames_concat]
    split
    next => exact ih
    next hm =>
      rw [← List.concat_eq_append]
      exact List.Nodup.concat hm ih

/-- A name that was met has occurrences, and one that was not has none. -/
theorem occurrences_eq_nil_iff {batch : List Metric} {name : String} :
    occurrences batch name = [] ↔ name ∉ uniqueNames batch := by
  rw [mem_uniqueNames]
  simp [occurrences]

theorem occurrences_of_new {seen : List Metric} {m : Metric} (hm : m.name ∉ uniqueNames seen) :
    occurrences (seen ++ [m]) m.name = [m] := by
  rw [occurrences_concat_self, occurrences_eq_nil_iff.mpr hm]
  rfl

/-! ## The fold of one name -/

/-- What becomes of a name: its occurrences merged into what is stored under it, or into the
first of them if nothing is. -/
def foldName : Option Metric → List Metric → Except Fault (Option Metric)
  | some stored, incoming => (incoming.foldlM Metric.merge stored).map some
  | none, [] => .ok none
  | none, first :: rest => (rest.foldlM Metric.merge first).map some

theorem foldName_nil (stored : Option Metric) : foldName stored [] = .ok stored := by
  cases stored <;> rfl

/-- The kind of the metric where the fold of a name begins. -/
def kindOf (stored : Option Metric) (incoming : List Metric) : Option Kind :=
  (stored.or incoming.head?).map (·.kind)

/-- The fold of a name can be interrupted anywhere and taken up again. -/
theorem foldName_append (stored : Option Metric) (front back : List Metric) :
    foldName stored (front ++ back) = foldName stored front >>= fun s => foldName s back := by
  have hfold : ∀ (start : Metric) (ms : List Metric),
      ((ms ++ back).foldlM Metric.merge start).map some =
        ((ms.foldlM Metric.merge start).map some >>= fun s => foldName s back) := by
    intro start ms
    rw [List.foldlM_append]
    cases ms.foldlM Metric.merge start <;> rfl
  match stored, front with
  | some s, ms => exact hfold s ms
  | none, first :: rest => exact hfold first rest
  | none, [] => rfl

theorem foldName_some_singleton (s m : Metric) :
    foldName (some s) [m] = (s.merge m).map some := by
  show (List.foldlM Metric.merge s [m]).map some = _
  rw [List.foldlM_cons]
  cases s.merge m <;> rfl

/-- One more occurrence is merged into what the fold has given so far. -/
theorem foldName_concat {stored : Option Metric} {incoming : List Metric} {r : Metric}
    (h : foldName stored incoming = .ok (some r)) (m : Metric) :
    foldName stored (incoming ++ [m]) = (r.merge m).map some := by
  rw [foldName_append, h]
  exact foldName_some_singleton r m

/-- The fold gives nothing only where there is nothing to fold. -/
theorem foldName_eq_none {stored : Option Metric} {incoming : List Metric}
    (h : foldName stored incoming = .ok none) : stored = none ∧ incoming = [] := by
  have hfold : ∀ x : Except Fault Metric, x.map some ≠ .ok none := by
    intro x hx
    obtain ⟨a, -, ha⟩ := map_eq_ok_iff.mp hx
    cases ha
  match stored, incoming with
  | none, [] => exact ⟨rfl, rfl⟩
  | some s, ms => exact absurd h (hfold _)
  | none, first :: rest => exact absurd h (hfold _)

/-- An occurrence after others does not decide where the fold begins. -/
theorem kindOf_concat {stored : Option Metric} {incoming : List Metric} {r : Metric}
    (h : foldName stored incoming = .ok (some r)) (m : Metric) :
    kindOf stored (incoming ++ [m]) = kindOf stored incoming := by
  match stored, incoming with
  | some s, ms => rfl
  | none, first :: rest => rfl
  | none, [] => cases h

theorem foldlM_merge_induction {P : Metric → Prop} {incoming : List Metric} {start r : Metric}
    (h : incoming.foldlM Metric.merge start = .ok r) (hstart : P start)
    (hstep : ∀ s m, P s → m ∈ incoming → s.name = m.name → s.kind = m.kind → P (s.absorb m)) :
    P r := by
  induction incoming generalizing start with
  | nil =>
    cases h
    exact hstart
  | cons m incoming ih =>
    rw [List.foldlM_cons] at h
    obtain ⟨next, hnext, h⟩ := bind_eq_ok_iff.mp h
    obtain ⟨hname, hkind, rfl⟩ := Metric.merge_eq_ok_iff.mp hnext
    refine ih h (hstep start m hstart List.mem_cons_self hname hkind) ?_
    exact fun s m' hs hm' => hstep s m' hs (List.mem_cons_of_mem m hm')

/-- Merging keeps a property that absorbing a further occurrence keeps. -/
theorem foldName_induction {P : Metric → Prop} {stored : Option Metric} {incoming : List Metric}
    {r : Metric} (h : foldName stored incoming = .ok (some r))
    (hstart : ∀ s, stored.or incoming.head? = some s → P s)
    (hstep : ∀ s m, P s → m ∈ incoming → s.name = m.name → s.kind = m.kind → P (s.absorb m)) :
    P r := by
  match stored, incoming with
  | some s, incoming =>
    obtain ⟨_, hfold, hr⟩ := map_eq_ok_iff.mp h
    cases hr
    exact foldlM_merge_induction hfold (hstart s rfl) hstep
  | none, first :: rest =>
    obtain ⟨_, hfold, hr⟩ := map_eq_ok_iff.mp h
    cases hr
    refine foldlM_merge_induction hfold (hstart first rfl) fun s m hs hm => ?_
    exact hstep s m hs (List.mem_cons_of_mem first hm)
  | none, [] => cases h

/-- The fold of a name ends with the kind with which it began. -/
theorem kindOf_of_foldName {stored : Option Metric} {incoming : List Metric} {r : Metric}
    (h : foldName stored incoming = .ok (some r)) : kindOf stored incoming = some r.kind := by
  refine foldName_induction (P := fun r => kindOf stored incoming = some r.kind) h ?_ ?_
  · intro s hs
    unfold kindOf
    rw [hs]
    rfl
  · intro s m hs _ _ _
    rw [Metric.absorb_kind]
    exact hs

/-- A single occurrence that can be merged gives a metric of its own name and kind. -/
theorem of_foldName_singleton {stored : Option Metric} {m r : Metric}
    (h : foldName stored [m] = .ok (some r)) : r.name = m.name ∧ r.kind = m.kind := by
  cases stored with
  | none =>
    cases h
    exact ⟨rfl, rfl⟩
  | some s =>
    rw [foldName_some_singleton] at h
    obtain ⟨_, hmerge, hr⟩ := map_eq_ok_iff.mp h
    cases hr
    obtain ⟨hname, hkind, rfl⟩ := Metric.merge_eq_ok_iff.mp hmerge
    exact ⟨(Metric.absorb_name s m).trans hname, (Metric.absorb_kind s m).trans hkind⟩

theorem exists_foldName_singleton {stored : Option Metric} {m : Metric}
    (keyed : ∀ s, stored = some s → s.name = m.name) (h : kindOf stored [m] = some m.kind) :
    ∃ r, foldName stored [m] = .ok (some r) := by
  cases stored with
  | none => exact ⟨m, rfl⟩
  | some s =>
    have hmerge := Metric.merge_eq_ok (keyed s rfl) (Option.some.inj h)
    exact ⟨s.absorb m, by rw [foldName_some_singleton, hmerge]; rfl⟩

/-! ## The loop -/

/-- What the results of a loop are after the members seen so far: one for each name, in the
order of the names, and each what the fold of its name gives. -/
structure Folded (stored : String → Option Metric) (seen results : List Metric) : Prop where
  names : results.map (·.name) = uniqueNames seen
  entries : ∀ r ∈ results, foldName (stored r.name) (occurrences seen r.name) = .ok (some r)

/-- Whether a member fits what comes before it: it is valid, and of the kind with which the
fold of its name begins. -/
def Fits (stored : String → Option Metric) (seen : List Metric) (m : Metric) : Prop :=
  m.validate = .ok () ∧
    kindOf (stored m.name) (occurrences (seen ++ [m]) m.name) = some m.kind

section Loop

variable {stored : String → Option Metric} {seen results : List Metric} {m : Metric}

namespace Folded

theorem nil : Folded stored [] [] := ⟨rfl, fun r hr => by cases hr⟩

theorem mem_iff (h : Folded stored seen results) {name : String} :
    name ∈ uniqueNames seen ↔ ∃ r ∈ results, r.name = name := by
  rw [← h.names, List.mem_map]

/-- The result of a name has the kind with which its fold begins, also once there is one
occurrence more. -/
theorem kind_eq (h : Folded stored seen results) {r : Metric} (hr : r ∈ results)
    (hname : r.name = m.name) :
    kindOf (stored m.name) (occurrences (seen ++ [m]) m.name) = some r.kind := by
  have hentry := h.entries r hr
  rw [hname] at hentry
  rw [occurrences_concat_self, kindOf_concat hentry]
  exact kindOf_of_foldName hentry

theorem kind_eq_of_fits (h : Folded stored seen results) (hfits : Fits stored seen m)
    {r : Metric} (hr : r ∈ results) (hname : r.name = m.name) : r.kind = m.kind := by
  have hkind := h.kind_eq hr hname
  rw [hfits.2] at hkind
  exact (Option.some.inj hkind).symm

/-- A member whose name was met before is absorbed by the result of that name. -/
theorem absorb (h : Folded stored seen results) (hm : m.name ∈ uniqueNames seen)
    (hfits : Fits stored seen m) :
    Folded stored (seen ++ [m])
      (results.map fun r => if r.name = m.name then r.absorb m else r) := by
  constructor
  · -- the names stay where they are
    rw [uniqueNames_concat, if_pos hm, ← h.names, List.map_map]
    refine List.map_congr_left fun r _ => ?_
    show (if r.name = m.name then r.absorb m else r).name = r.name
    split
    · exact Metric.absorb_name r m
    · rfl
  · intro r' hr'
    obtain ⟨r, hr, rfl⟩ := List.mem_map.mp hr'
    have hentry := h.entries r hr
    split
    next hname =>
      -- the fold of its own name goes on by one occurrence
      have hkind := h.kind_eq_of_fits hfits hr hname
      rw [hname] at hentry
      rw [Metric.absorb_name, hname, occurrences_concat_self, foldName_concat hentry,
        Metric.merge_eq_ok hname hkind]
      rfl
    next hname =>
      -- other names do not see it
      rw [occurrences_concat_of_ne (fun h => hname h.symm)]
      exact hentry

/-- A member with a new name adds the result of that name. -/
theorem append (h : Folded stored seen results) (hm : m.name ∉ uniqueNames seen) {r : Metric}
    (hr : foldName (stored m.name) [m] = .ok (some r)) :
    Folded stored (seen ++ [m]) (results ++ [r]) := by
  have hname := (of_foldName_singleton hr).1
  constructor
  · rw [uniqueNames_concat, if_neg hm, List.map_append, h.names, ← hname]
    rfl
  · intro r' hr'
    rcases List.mem_append.mp hr' with hr' | hr'
    · -- the results so far are of other names
      have hne : m.name ≠ r'.name := fun heq => hm (h.mem_iff.mpr ⟨r', hr', heq.symm⟩)
      rw [occurrences_concat_of_ne hne]
      exact h.entries r' hr'
    · rw [List.mem_singleton.mp hr', hname, occurrences_of_new hm]
      exact hr

end Folded

/-- A member whose name has a result is merged into that. -/
theorem mergeMember_of_seen (h : ∃ r ∈ results, r.name = m.name) :
    mergeMember stored results m = m.validate >>= fun _ =>
      results.mapM fun r => if r.name = m.name then r.merge m else .ok r := by
  have hany : results.any (fun r => r.name = m.name) = true := by
    simpa using h
  unfold mergeMember
  rw [if_pos hany]

/-- A member with a new name begins a fold. -/
theorem mergeMember_of_new (h : ¬∃ r ∈ results, r.name = m.name) :
    mergeMember stored results m = m.validate >>= fun _ =>
      (foldName (stored m.name) [m]).map fun r => results ++ r.toList := by
  have hany : ¬results.any (fun r => r.name = m.name) = true := by
    simpa using h
  unfold mergeMember
  rw [if_neg hany]
  cases stored m.name with
  | none => rfl
  | some s =>
    simp only [foldName_some_singleton]
    cases s.merge m <;> rfl

theorem mergeMember_new_eq_ok_iff (hnew : ¬∃ r ∈ results, r.name = m.name)
    {results' : List Metric} :
    mergeMember stored results m = .ok results' ↔
      m.validate = .ok () ∧
        ∃ r, foldName (stored m.name) [m] = .ok (some r) ∧ results' = results ++ [r] := by
  rw [mergeMember_of_new hnew, bind_eq_ok_iff]
  constructor
  · rintro ⟨_, hvalid, h⟩
    obtain ⟨o, ho, rfl⟩ := map_eq_ok_iff.mp h
    cases o with
    | none => cases (foldName_eq_none ho).2
    | some r => exact ⟨hvalid, r, ho, rfl⟩
  · rintro ⟨hvalid, r, hr, rfl⟩
    exact ⟨(), hvalid, by rw [hr]; rfl⟩

/-- A member that fits the result of its name is merged into it. -/
theorem mergeMember_seen_eq (hf : Folded stored seen results)
    (hseen : ∃ r ∈ results, r.name = m.name) (hfits : Fits stored seen m) :
    mergeMember stored results m =
      .ok (results.map fun r => if r.name = m.name then r.absorb m else r) := by
  rw [mergeMember_of_seen hseen, hfits.1]
  refine mapM_eq_ok_of_forall fun r hr => ?_
  split
  next hname => exact Metric.merge_eq_ok hname (hf.kind_eq_of_fits hfits hr hname)
  next => rfl

/-- What is merged into the result of its name does fit it. -/
theorem fits_of_mergeMember_seen (hf : Folded stored seen results)
    (hseen : ∃ r ∈ results, r.name = m.name) {results' : List Metric}
    (h : mergeMember stored results m = .ok results') : Fits stored seen m := by
  rw [mergeMember_of_seen hseen] at h
  obtain ⟨_, hvalid, h⟩ := bind_eq_ok_iff.mp h
  obtain ⟨r, hr, hname⟩ := hseen
  obtain ⟨_, -, hmerge⟩ := exists_ok_of_mapM h r hr
  rw [if_pos hname] at hmerge
  obtain ⟨-, hkind, -⟩ := Metric.merge_eq_ok_iff.mp hmerge
  exact ⟨hvalid, by rw [hf.kind_eq hr hname, hkind]⟩

/-- A step of the loop over a member whose name was met before. -/
theorem mergeMember_seen_spec (hf : Folded stored seen results)
    (hm : m.name ∈ uniqueNames seen) :
    ((∃ results', mergeMember stored results m = .ok results') ↔ Fits stored seen m) ∧
      ∀ results', mergeMember stored results m = .ok results' →
        Folded stored (seen ++ [m]) results' := by
  have hseen := hf.mem_iff.mp hm
  constructor
  · constructor
    · rintro ⟨_, h⟩
      exact fits_of_mergeMember_seen hf hseen h
    · intro hfits
      exact ⟨_, mergeMember_seen_eq hf hseen hfits⟩
  · intro results' h
    have hfits := fits_of_mergeMember_seen hf hseen h
    rw [mergeMember_seen_eq hf hseen hfits] at h
    cases h
    exact hf.absorb hm hfits

/-- A step of the loop over a member with a new name. What is stored under the name has the
name itself. -/
theorem mergeMember_new_spec (hf : Folded stored seen results) (hm : m.name ∉ uniqueNames seen)
    (keyed : ∀ s, stored m.name = some s → s.name = m.name) :
    ((∃ results', mergeMember stored results m = .ok results') ↔ Fits stored seen m) ∧
      ∀ results', mergeMember stored results m = .ok results' →
        Folded stored (seen ++ [m]) results' := by
  have hnew : ¬∃ r ∈ results, r.name = m.name := fun h => hm (hf.mem_iff.mpr h)
  unfold Fits
  rw [occurrences_of_new hm]
  constructor
  · constructor
    · rintro ⟨results', h⟩
      obtain ⟨hvalid, r, hr, -⟩ := (mergeMember_new_eq_ok_iff hnew).mp h
      exact ⟨hvalid, by rw [kindOf_of_foldName hr, (of_foldName_singleton hr).2]⟩
    · rintro ⟨hvalid, hkind⟩
      obtain ⟨r, hr⟩ := exists_foldName_singleton keyed hkind
      exact ⟨_, (mergeMember_new_eq_ok_iff hnew).mpr ⟨hvalid, r, hr, rfl⟩⟩
  · intro results' h
    obtain ⟨-, r, hr, rfl⟩ := (mergeMember_new_eq_ok_iff hnew).mp h
    exact hf.append hm hr

theorem mergeMember_spec (hf : Folded stored seen results)
    (keyed : ∀ name s, stored name = some s → s.name = name) (m : Metric) :
    ((∃ results', mergeMember stored results m = .ok results') ↔ Fits stored seen m) ∧
      ∀ results', mergeMember stored results m = .ok results' →
        Folded stored (seen ++ [m]) results' := by
  by_cases hm : m.name ∈ uniqueNames seen
  · exact mergeMember_seen_spec hf hm
  · exact mergeMember_new_spec hf hm (keyed m.name)

end Loop

/-- Whether a batch can be merged: its members are valid, and each is of the kind with which
the fold of its name begins. -/
def Admissible (stored : String → Option Metric) (batch : List Metric) : Prop :=
  ∀ m ∈ batch, m.validate = .ok () ∧
    kindOf (stored m.name) (occurrences batch m.name) = some m.kind

/-- Whether a batch can be merged is decided member by member: what comes later does not
matter to those before. -/
theorem admissible_concat {stored : String → Option Metric} {batch : List Metric} {m : Metric} :
    Admissible stored (batch ++ [m]) ↔ Admissible stored batch ∧ Fits stored batch m := by
  have hbefore : ∀ x ∈ batch, kindOf (stored x.name) (occurrences (batch ++ [m]) x.name) =
      kindOf (stored x.name) (occurrences batch x.name) := by
    intro x hx
    by_cases hname : m.name = x.name
    · -- its fold begins before the last member
      have hocc : occurrences batch x.name ≠ [] := by
        rw [Ne, occurrences_eq_nil_iff, not_not, mem_uniqueNames]
        exact ⟨x, hx, rfl⟩
      rw [← hname, occurrences_concat_self, hname]
      unfold kindOf
      rw [List.head?_append_of_ne_nil _ hocc]
    · rw [occurrences_concat_of_ne hname]
  constructor
  · intro h
    refine ⟨fun x hx => ?_, h m (by simp)⟩
    rw [← hbefore x hx]
    exact h x (List.mem_append_left _ hx)
  · rintro ⟨h, hm⟩ x hx
    rcases List.mem_append.mp hx with hx | hx
    · rw [hbefore x hx]
      exact h x hx
    · rw [List.mem_singleton.mp hx]
      exact hm

theorem mergeBatch_concat (stored : String → Option Metric) (batch : List Metric) (m : Metric) :
    mergeBatch stored (batch ++ [m]) =
      mergeBatch stored batch >>= fun results => mergeMember stored results m := by
  unfold mergeBatch
  rw [List.foldlM_append]
  congr
  funext results
  rw [List.foldlM_cons]
  cases mergeMember stored results m <;> rfl

/-- The whole loop: it succeeds on just the batches that can be merged, and then folds each
name on its own. -/
theorem mergeBatch_folded {stored : String → Option Metric}
    (keyed : ∀ name s, stored name = some s → s.name = name) (batch : List Metric) :
    ((∃ merged, mergeBatch stored batch = .ok merged) ↔ Admissible stored batch) ∧
      ∀ merged, mergeBatch stored batch = .ok merged → Folded stored batch merged := by
  induction batch using List.reverseRecOn with
  | nil =>
    refine ⟨⟨fun _ m hm => (by cases hm), fun _ => ⟨[], rfl⟩⟩, ?_⟩
    intro merged h
    cases h
    exact Folded.nil
  | append_singleton batch m ih =>
    obtain ⟨ihok, ihfolded⟩ := ih
    refine ⟨⟨?_, ?_⟩, ?_⟩
    · rintro ⟨merged, h⟩
      rw [mergeBatch_concat] at h
      obtain ⟨results, hresults, hm⟩ := bind_eq_ok_iff.mp h
      refine admissible_concat.mpr ⟨ihok.mp ⟨results, hresults⟩, ?_⟩
      exact (mergeMember_spec (ihfolded results hresults) keyed m).1.mp ⟨merged, hm⟩
    · intro h
      obtain ⟨hbatch, hfits⟩ := admissible_concat.mp h
      obtain ⟨results, hresults⟩ := ihok.mpr hbatch
      obtain ⟨merged, hm⟩ :=
        (mergeMember_spec (ihfolded results hresults) keyed m).1.mpr hfits
      exact ⟨merged, by rw [mergeBatch_concat, hresults]; exact hm⟩
    · intro merged h
      rw [mergeBatch_concat] at h
      obtain ⟨results, hresults, hm⟩ := bind_eq_ok_iff.mp h
      exact (mergeMember_spec (ihfolded results hresults) keyed m).2 merged hm

/-! ## What the fold of a name gives -/

/-- The sum of the increments of some metrics on top of a start, step by step within the
range. -/
def sumFrom (start : Int64) (incoming : List Metric) : Int64 :=
  incoming.foldl (fun total m => saturatingAdd total (m.delta.getD 0)) start

/-- What that is as an integer: each increment is added, and a sum that leaves the range is put
back to the end where it left it. -/
def clampedSum (start : Int) (incoming : List Metric) : Int :=
  incoming.foldl (fun total m =>
    max Int64.minValue.toInt (min Int64.maxValue.toInt (total + (m.delta.getD 0).toInt))) start

theorem toInt_sumFrom (start : Int64) (incoming : List Metric) :
    (sumFrom start incoming).toInt = clampedSum start.toInt incoming := by
  unfold sumFrom clampedSum
  induction incoming generalizing start with
  | nil => rfl
  | cons m incoming ih => rw [List.foldl_cons, List.foldl_cons, ih, toInt_saturatingAdd]

/-- The last occurrence was merged into what the others give, or it is the only one and
nothing is stored. -/
theorem foldName_concat_cases {stored : Option Metric} {front : List Metric} {m r : Metric}
    (h : foldName stored (front ++ [m]) = .ok (some r)) :
    (stored = none ∧ front = [] ∧ r = m) ∨
      ∃ before, foldName stored front = .ok (some before) ∧ before.merge m = .ok r := by
  rw [foldName_append] at h
  obtain ⟨s, hs, h⟩ := bind_eq_ok_iff.mp h
  cases s with
  | none =>
    obtain ⟨hstored, hfront⟩ := foldName_eq_none hs
    cases h
    exact Or.inl ⟨hstored, hfront, rfl⟩
  | some before =>
    rw [foldName_some_singleton] at h
    obtain ⟨a, ha, har⟩ := map_eq_ok_iff.mp h
    cases har
    exact Or.inr ⟨before, hs, ha⟩

/-- A gauge ends with its last value. -/
theorem foldName_value {stored : Option Metric} {incoming : List Metric} {r : Metric}
    (h : foldName stored incoming = .ok (some r)) (hkind : r.kind = .gauge)
    (hne : incoming ≠ []) : r.value = (incoming.getLast hne).value := by
  obtain ⟨front, m, rfl⟩ : ∃ front m, incoming = front ++ [m] :=
    ⟨_, _, (List.dropLast_append_getLast hne).symm⟩
  rw [List.getLast_append_singleton]
  rcases foldName_concat_cases h with ⟨-, -, rfl⟩ | ⟨before, -, hmerge⟩
  · rfl
  · obtain ⟨-, -, rfl⟩ := Metric.merge_eq_ok_iff.mp hmerge
    rw [Metric.absorb_kind] at hkind
    exact Metric.absorb_value hkind m

/-- A counter ends with the sum of its increments on top of what is stored. -/
theorem foldName_delta {stored : Option Metric} {incoming : List Metric} {r : Metric}
    (h : foldName stored incoming = .ok (some r)) (hkind : r.kind = .counter) :
    r.delta.getD 0 = sumFrom ((stored.bind (·.delta)).getD 0) incoming := by
  induction incoming using List.reverseRecOn generalizing r with
  | nil =>
    match stored with
    | some s => cases h; rfl
    | none => cases h
  | append_singleton front m ih =>
    unfold sumFrom at ih ⊢
    rw [List.foldl_append]
    rcases foldName_concat_cases h with ⟨rfl, rfl, rfl⟩ | ⟨before, hbefore, hmerge⟩
    · exact (saturatingAdd_zero_left _).symm
    · obtain ⟨-, -, rfl⟩ := Metric.merge_eq_ok_iff.mp hmerge
      rw [Metric.absorb_kind] at hkind
      rw [Metric.absorb_delta hkind, ih hbefore hkind]
      rfl

/-- A counter into which something valid was merged has an increment. -/
theorem foldName_delta_isSome {stored : Option Metric} {incoming : List Metric} {r : Metric}
    (h : foldName stored incoming = .ok (some r)) (hkind : r.kind = .counter)
    (hne : incoming ≠ []) (hvalid : ∀ m ∈ incoming, m.validate = .ok ()) :
    r.delta = some (r.delta.getD 0) := by
  obtain ⟨front, m, rfl⟩ : ∃ front m, incoming = front ++ [m] :=
    ⟨_, _, (List.dropLast_append_getLast hne).symm⟩
  rcases foldName_concat_cases h with ⟨-, -, rfl⟩ | ⟨before, -, hmerge⟩
  · have hm := hvalid r (by simp)
    rw [Metric.validate_eq_ok_iff, Metric.violation?_eq_none_iff, hkind] at hm
    obtain ⟨-, ⟨hg, -⟩ | ⟨-, -, d, hd⟩⟩ := hm
    · cases hg
    · rw [hd]
      rfl
  · obtain ⟨-, -, rfl⟩ := Metric.merge_eq_ok_iff.mp hmerge
    rw [Metric.absorb_kind] at hkind
    rw [Metric.absorb_delta hkind]
    rfl

/-- The fold of valid metrics is valid. -/
theorem validate_foldName {stored : Option Metric} {incoming : List Metric} {r : Metric}
    (h : foldName stored incoming = .ok (some r))
    (hstored : ∀ s, stored = some s → s.validate = .ok ())
    (hincoming : ∀ m ∈ incoming, m.validate = .ok ()) : r.validate = .ok () := by
  refine foldName_induction (P := fun r => r.validate = .ok ()) h ?_ ?_
  · intro s hs
    match stored, incoming with
    | some s', _ => cases hs; exact hstored s rfl
    | none, m :: rest => cases hs; exact hincoming s List.mem_cons_self
    | none, [] => cases hs
  · intro s m hs hm _ hkind
    exact Metric.validate_absorb hs (hincoming m hm) hkind

/-! ## Batches as a whole -/

/-- **Merging a batch folds each name on its own.** Over metrics stored under their own
names, a batch is merged exactly if its members are valid and each is of the kind with which
its name begins. The results then are one for each name, in the order of first appearance,
and the result of a name is the fold of its occurrences: for a gauge the last value, for a
counter the sum of the increments on top of what is stored, kept within the range of sixty-four
bits at each step. Results from valid metrics are valid. -/
theorem mergeBatch_spec (stored : String → Option Metric)
    (keyed : ∀ name s, stored name = some s → s.name = name) (batch : List Metric) :
    ((∃ merged, mergeBatch stored batch = .ok merged) ↔
        (∀ m ∈ batch, m.validate = .ok ()) ∧
          ∀ m ∈ batch, kindOf (stored m.name) (occurrences batch m.name) = some m.kind) ∧
      ∀ merged, mergeBatch stored batch = .ok merged →
        merged.map (·.name) = uniqueNames batch ∧
        (uniqueNames batch).Nodup ∧
        (∀ name, name ∈ uniqueNames batch ↔ ∃ m ∈ batch, m.name = name) ∧
        (∀ r ∈ merged,
          foldName (stored r.name) (occurrences batch r.name) = .ok (some r) ∧
          (r.kind = .gauge →
            ∃ last, (occurrences batch r.name).getLast? = some last ∧ r.value = last.value) ∧
          (r.kind = .counter →
            ∃ total : Int64, r.delta = some total ∧
              total = sumFrom (((stored r.name).bind (·.delta)).getD 0)
                (occurrences batch r.name) ∧
              total.toInt = clampedSum (((stored r.name).bind (·.delta)).getD 0).toInt
                (occurrences batch r.name))) ∧
        ((∀ name s, stored name = some s → s.validate = .ok ()) →
          ∀ r ∈ merged, r.validate = .ok ()) := by
  obtain ⟨hok, hfolded⟩ := mergeBatch_folded keyed batch
  constructor
  · rw [hok]
    exact ⟨fun h => ⟨fun m hm => (h m hm).1, fun m hm => (h m hm).2⟩,
      fun h m hm => ⟨h.1 m hm, h.2 m hm⟩⟩
  · intro merged h
    have hf := hfolded merged h
    have hbatch : ∀ m ∈ batch, m.validate = .ok () := fun m hm => (hok.mp ⟨merged, h⟩ m hm).1
    refine ⟨hf.names, nodup_uniqueNames batch, fun _ => mem_uniqueNames, ?_, ?_⟩
    · intro r hr
      have hentry := hf.entries r hr
      have hne : occurrences batch r.name ≠ [] := by
        rw [Ne, occurrences_eq_nil_iff, not_not]
        exact hf.mem_iff.mpr ⟨r, hr, rfl⟩
      refine ⟨hentry, ?_, ?_⟩
      · intro hkind
        exact ⟨_, List.getLast?_eq_some_getLast hne, foldName_value hentry hkind hne⟩
      · intro hkind
        refine ⟨_, ?_, rfl, toInt_sumFrom _ _⟩
        rw [← foldName_delta hentry hkind]
        exact foldName_delta_isSome hentry hkind hne
          fun m hm => hbatch m (List.mem_of_mem_filter hm)
    · intro hstored r hr
      refine validate_foldName (hf.entries r hr) (hstored r.name) ?_
      exact fun m hm => hbatch m (List.mem_of_mem_filter hm)

/-- A batch with a counter twice, over what is stored of it, and a gauge between: ten hits, five more
and one more are sixteen. -/
theorem mergeBatch_spec_counter_and_gauge :
    let stored : String → Option Metric :=
      fun name => if name = "hits" then some (.counter "hits" 10) else none
    let batch : List Metric :=
      [.counter "hits" 5, .gauge "cpu" ⟨0x4045000000000000⟩, .counter "hits" 1]
    let merged : List Metric := [.counter "hits" 16, .gauge "cpu" ⟨0x4045000000000000⟩]
    (∀ name s, stored name = some s → s.name = name) ∧
      mergeBatch stored batch = .ok merged ∧
      (∃ total : Int64, (Metric.counter "hits" 16).delta = some total ∧ total.toInt = 10 + 5 + 1) ∧
      clampedSum 10 (occurrences batch "hits") = 10 + 5 + 1 ∧
      ∃ last, (occurrences batch "cpu").getLast? = some last ∧
        last.value = some ⟨0x4045000000000000⟩ := by
  intro stored batch merged
  have keyed : ∀ name s, stored name = some s → s.name = name := by
    intro name s h
    by_cases hname : name = "hits"
    · subst hname
      cases h
      rfl
    · simp [stored, hname] at h
  have hmerged : mergeBatch stored batch = .ok merged := rfl
  have hsum : clampedSum 10 (occurrences batch "hits") = 10 + 5 + 1 := by decide
  obtain ⟨-, -, -, hentries, -⟩ := (mergeBatch_spec stored keyed batch).2 _ hmerged
  obtain ⟨-, -, hcounter⟩ := hentries (.counter "hits" 16) List.mem_cons_self
  obtain ⟨-, hgauge, -⟩ := hentries (.gauge "cpu" ⟨0x4045000000000000⟩) (by simp [merged])
  obtain ⟨total, hdelta, -, htotal⟩ := hcounter rfl
  obtain ⟨last, hlast, hvalue⟩ := hgauge rfl
  exact ⟨keyed, hmerged, ⟨total, hdelta, htotal.trans hsum⟩, hsum, last, hlast, hvalue.symm⟩

end Telemetry
