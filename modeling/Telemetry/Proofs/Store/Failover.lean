import Telemetry.Proofs.Store.Dumping
import Telemetry.Store.Failover

/-!
# Two stores and their histories

A pair of stores is asked things and checked from time to time, at moments that decide what a store
answers besides its state. Which store a call goes to depends on all the checks before it, but only
through the latest one (`Failover.run_of_checked`). So the calls fall into two histories, and each
store is as its own history has left it (`Failover.run_eq`). What a store is asked by a check, or by
a question whether the pair can be reached, is in the history of the durable store as well; the
calls that are left without it are those that were routed to a store (`Failover.routed`).

A durable store may do something to be reached, such as to make its tables. Where that does not
show in what is stored, its history comes to the same without it (`Failover.IgnoresPings.replay`).

Without a durable store there is one history, that of the memory (`Failover.run_alone`).
-/

namespace Telemetry

namespace Failover

variable {ε σ δ μ : Type}

/-! ## What happens to a pair of stores -/

/-- What can happen to a pair of stores, and when. -/
inductive Act (ε : Type)
  | check (moment : ε)
  | call (moment : ε) (c : StoreCall)
deriving DecidableEq

/-- The store in use and the state of the stores after something happened. -/
def act (pair : ε → Failover (StateM σ)) (s : Backend × σ) : Act ε → Backend × σ
  | .check moment => (pair moment).check.run s.2
  | .call moment c => (s.1, (((pair moment).answer s.1 c).run s.2).2)

def run (pair : ε → Failover (StateM σ)) (s : Backend × σ) (acts : List (Act ε)) : Backend × σ :=
  acts.foldl (act pair) s

theorem run_append (pair : ε → Failover (StateM σ)) (s : Backend × σ) (front back : List (Act ε)) :
    run pair s (front ++ back) = run pair (run pair s front) back :=
  List.foldl_append

/-- A store that is the first of two. -/
def onFirst (store : Store (StateM δ)) : Store (StateM (δ × μ)) := fun c s =>
  (((store c).run s.1).1, (((store c).run s.1).2, s.2))

/-- A store that is the second of two. -/
def onSecond (store : Store (StateM μ)) : Store (StateM (δ × μ)) := fun c s =>
  (((store c).run s.2).1, (s.1, ((store c).run s.2).2))

/-- The pair of two stores at a moment. -/
def pairAt (durable : Option (ε → Store (StateM δ))) (memory : ε → Store (StateM μ))
    (moment : ε) : Failover (StateM (δ × μ)) :=
  ⟨durable.map fun store => onFirst (store moment), onSecond (memory moment)⟩

/-! ## The history of a store -/

/-- The moment of a check. -/
def Act.checked? : Act ε → Option ε
  | .check moment => some moment
  | .call _ _ => none

/-- A call that is for the store in use. -/
def Act.operation? : Act ε → Option (ε × StoreCall)
  | .check _ => none
  | .call moment c => if c = .ping then none else some (moment, c)

/-- What a store is asked when something happens, while one of the stores is in use: whether it can
be reached is asked of the durable store, and all else of the store in use. -/
def Act.asks (active backend : Backend) : Act ε → List (ε × StoreCall)
  | .check moment => if backend = .durable then [(moment, .ping)] else []
  | .call moment c =>
    if (if c = .ping then Backend.durable else active) = backend then [(moment, c)] else []

/-- All that a store is asked, given which store is in use after what happened before. -/
def history (active : List (Act ε) → Backend) (backend : Backend) :
    List (Act ε) → List (Act ε) → List (ε × StoreCall)
  | _, [] => []
  | before, a :: rest =>
    a.asks (active before) backend ++ history active backend (before ++ [a]) rest

/-- The calls that are routed to a store: all that it is asked, but whether it can be reached. -/
def routed (active : List (Act ε) → Backend) (backend : Backend) (acts : List (Act ε)) :
    List (ε × StoreCall) :=
  (history active backend [] acts).filter fun call => call.2 ≠ .ping

/-- A store after some calls of its own. -/
def replay (store : ε → Store (StateM σ)) (s : σ) (calls : List (ε × StoreCall)) : σ :=
  calls.foldl (fun s c => ((store c.1 c.2).run s).2) s

theorem replay_append (store : ε → Store (StateM σ)) (s : σ) (front back : List (ε × StoreCall)) :
    replay store s (front ++ back) = replay store (replay store s front) back :=
  List.foldl_append

theorem history_concat (active : List (Act ε) → Backend) (backend : Backend)
    (before acts : List (Act ε)) (a : Act ε) :
    history active backend before (acts ++ [a]) =
      history active backend before acts ++ a.asks (active (before ++ acts)) backend := by
  induction acts generalizing before with
  | nil =>
    rw [List.append_nil]
    exact List.append_nil _
  | cons first rest ih =>
    show first.asks _ backend ++ history active backend (before ++ [first]) (rest ++ [a]) = _
    rw [ih, List.append_assoc, List.singleton_append, ← List.append_assoc]
    rfl

/-- The memory is never asked whether it can be reached. -/
theorem ne_ping_of_mem_asks {active : Backend} {a : Act ε} {call : ε × StoreCall}
    (h : call ∈ a.asks active .memory) : call.2 ≠ .ping := by
  cases a with
  | check moment => cases h
  | call moment c =>
    by_cases hc : c = .ping
    · subst hc
      cases h
    · unfold Act.asks at h
      dsimp only at h
      rw [if_neg hc] at h
      split at h
      · rw [List.mem_singleton.mp h]
        exact hc
      · cases h

theorem routed_memory (active : List (Act ε) → Backend) (acts : List (Act ε)) :
    routed active .memory acts = history active .memory [] acts := by
  unfold routed
  refine List.filter_eq_self.mpr ?_
  induction acts using List.reverseRecOn with
  | nil => nofun
  | append_singleton acts a ih =>
    intro call hcall
    rw [history_concat] at hcall
    rcases List.mem_append.mp hcall with hcall | hcall
    · exact ih call hcall
    · exact decide_eq_true (ne_ping_of_mem_asks hcall)

/-! ## Questions that change nothing that is stored -/

/-- Whether what is seen of a store is only changed by the calls that are routed to it. In the states
that the store can be in, the question whether it can be reached changes nothing of that, and what a
call makes of it does not depend on anything else. -/
structure IgnoresPings {ν : Type} (store : ε → Store (StateM σ)) (view : σ → ν)
    (sound : σ → Prop) : Prop where
  ping : ∀ moment s, sound s →
    sound ((store moment .ping).run s).2 ∧ view ((store moment .ping).run s).2 = view s
  call : ∀ moment c, c ≠ .ping → ∀ s s', sound s → sound s' → view s = view s' →
    (sound ((store moment c).run s).2 ∧ sound ((store moment c).run s').2) ∧
      view ((store moment c).run s).2 = view ((store moment c).run s').2

/-- **A history comes to the same without the questions.** -/
theorem IgnoresPings.replay {ν : Type} {store : ε → Store (StateM σ)} {view : σ → ν}
    {sound : σ → Prop} (h : IgnoresPings store view sound) (calls : List (ε × StoreCall)) {s s' : σ}
    (hs : sound s) (hs' : sound s') (hview : view s = view s') :
    view (Failover.replay store s calls) =
      view (Failover.replay store s' (calls.filter fun call => call.2 ≠ .ping)) := by
  induction calls generalizing s s' with
  | nil => exact hview
  | cons call calls ih =>
    obtain ⟨moment, c⟩ := call
    by_cases hc : c = .ping
    · subst hc
      obtain ⟨hsound, hkept⟩ := h.ping moment s hs
      exact ih hsound hs' (hkept.trans hview)
    · obtain ⟨⟨hsound, hsound'⟩, hsame⟩ := h.call moment c hc s s' hs hs' hview
      have hkept : ((moment, c) :: calls).filter (fun call => call.2 ≠ .ping) =
          (moment, c) :: calls.filter fun call => call.2 ≠ .ping :=
        List.filter_cons_of_pos (decide_eq_true hc)
      rw [hkept]
      exact ih hsound hsound' hsame

/-! ## One step -/

section Steps

variable {durable : ε → Store (StateM δ)} {memory : ε → Store (StateM μ)}

/-- All but the question whether it can be reached is for the store in use. -/
theorem answer_eq_current {m : Type → Type} [Monad m] (f : Failover m) (active : Backend)
    {c : StoreCall} (h : c ≠ .ping) : f.answer active c = f.current active c := by
  cases c with
  | ping => exact absurd rfl h
  | _ => rfl

theorem answer_durable (moment : ε) {c : StoreCall} (h : c ≠ .ping) (d : δ) (m : μ) :
    ((pairAt (some durable) memory moment).answer .durable c).run (d, m) =
      (((durable moment c).run d).1, (((durable moment c).run d).2, m)) := by
  rw [answer_eq_current _ _ h]
  rfl

theorem answer_memory (moment : ε) (store : Option (ε → Store (StateM δ))) {c : StoreCall}
    (h : c ≠ .ping) (d : δ) (m : μ) :
    ((pairAt store memory moment).answer .memory c).run (d, m) =
      (((memory moment c).run m).1, (d, ((memory moment c).run m).2)) := by
  rw [answer_eq_current _ _ h]
  rfl

theorem answer_active (moment : ε) {c : StoreCall} (h : c ≠ .ping) (active : Backend) (d : δ)
    (m : μ) :
    ((pairAt (some durable) memory moment).answer active c).run (d, m) =
      match active with
      | .durable => (((durable moment c).run d).1, (((durable moment c).run d).2, m))
      | .memory => (((memory moment c).run m).1, (d, ((memory moment c).run m).2)) := by
  cases active with
  | durable => exact answer_durable moment h d m
  | memory => exact answer_memory moment _ h d m

/-- To ask the pair whether it can be reached is to ask the durable store. -/
theorem answer_ping (active : Backend) (moment : ε) (d : δ) (m : μ) :
    ((pairAt (some durable) memory moment).answer active .ping).run (d, m) =
      (((durable moment .ping).run d).1, (((durable moment .ping).run d).2, m)) := rfl

/-- A check asks the durable store, and chooses a store by its answer. -/
theorem run_check (moment : ε) (d : δ) (m : μ) :
    (pairAt (some durable) memory moment).check.run (d, m) =
      (if ((durable moment .ping).run d).1.isOk then .durable else .memory,
        (((durable moment .ping).run d).2, m)) := by
  have hping : (onFirst (durable moment) .ping : StateM (δ × μ) (Except Fault Unit)).run (d, m) =
      (((durable moment .ping).run d).1, (((durable moment .ping).run d).2, m)) := rfl
  refine (run_bind_of_run hping).trans ?_
  cases ((durable moment .ping).run d).1 <;> rfl

/-- **One step.** Each store does what it is asked, and nothing else happens to it. -/
theorem act_states (active : Backend) (a : Act ε) (d : δ) (m : μ) :
    (act (pairAt (some durable) memory) (active, (d, m)) a).2 =
      (replay durable d (a.asks active .durable), replay memory m (a.asks active .memory)) := by
  cases a with
  | check moment => exact congrArg Prod.snd (run_check moment d m)
  | call moment c =>
    by_cases hc : c = .ping
    · subst hc
      rfl
    · unfold act Act.asks
      dsimp only
      rw [if_neg hc, answer_active moment hc]
      cases active <;> rfl

end Steps

/-! ## Whole runs -/

section Runs

variable {durable : ε → Store (StateM δ)} {memory : ε → Store (StateM μ)}

/-- Calls choose nothing. -/
theorem run_of_unchecked (pair : ε → Failover (StateM σ)) (s : Backend × σ) {acts : List (Act ε)}
    (h : acts.filterMap Act.checked? = []) : (run pair s acts).1 = s.1 := by
  induction acts generalizing s with
  | nil => rfl
  | cons a rest ih =>
    cases a with
    | check moment => cases h
    | call moment c => exact ih (act pair s (.call moment c)) h

/-- **The latest check has chosen the store in use.** -/
theorem run_of_checked (s : Backend × δ × μ) (front : List (Act ε)) (moment : ε)
    {back : List (Act ε)} (h : back.filterMap Act.checked? = []) :
    (run (pairAt (some durable) memory) s (front ++ .check moment :: back)).1 =
      if ((durable moment .ping).run (run (pairAt (some durable) memory) s front).2.1).1.isOk then
        .durable
      else .memory := by
  rw [run_append]
  refine (run_of_unchecked _ (act _ (run _ s front) (.check moment)) h).trans ?_
  exact congrArg Prod.fst (run_check moment _ _)

/-- **A run makes two histories.** -/
theorem run_eq (acts : List (Act ε)) (d : δ) (m : μ) :
    let after := run (pairAt (some durable) memory) (.memory, (d, m))
    (after acts).2 =
      (replay durable d (history (fun before => (after before).1) .durable [] acts),
        replay memory m (history (fun before => (after before).1) .memory [] acts)) := by
  intro after
  induction acts using List.reverseRecOn with
  | nil => rfl
  | append_singleton acts a ih =>
    have hstep : after (acts ++ [a]) = act (pairAt (some durable) memory) (after acts) a :=
      run_append _ _ _ _
    rw [hstep, history_concat, history_concat, replay_append, replay_append, List.nil_append]
    refine (act_states (after acts).1 a (after acts).2.1 (after acts).2.2).trans ?_
    rw [ih]

/-- What is seen of the durable store is what the calls have made that were routed to it. -/
theorem view_run {ν : Type} {view : δ → ν} {sound : δ → Prop}
    (hview : IgnoresPings durable view sound) {d : δ} (hd : sound d) (acts : List (Act ε)) (m : μ) :
    let after := run (pairAt (some durable) memory) (.memory, (d, m))
    view (after acts).2.1 =
      view (replay durable d (routed (fun before => (after before).1) .durable acts)) :=
  (congrArg (fun states => view states.1) (run_eq acts d m)).trans (hview.replay _ hd hd rfl)

/-- **A memory alone** has all the calls in its history. -/
theorem run_alone (acts : List (Act ε)) (d : δ) (m : μ) :
    run (pairAt none memory) (.memory, (d, m)) acts =
      (.memory, (d, replay memory m (acts.filterMap Act.operation?))) := by
  induction acts generalizing m with
  | nil => rfl
  | cons a rest ih =>
    show run _ (act (pairAt none memory) (.memory, (d, m)) a) rest = _
    cases a with
    | check moment => exact ih m
    | call moment c =>
      by_cases hc : c = .ping
      · subst hc
        exact ih m
      · have hsome : (Act.call moment c).operation? = some (moment, c) := if_neg hc
        unfold act
        dsimp only
        rw [answer_memory moment none hc, ih, List.filterMap_cons_some hsome]
        rfl

end Runs

end Failover

end Telemetry
