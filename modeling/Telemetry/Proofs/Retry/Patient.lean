import Telemetry.Retry.Loop

/-!
# Tries that are waited for

In surroundings where no try is cut short, what the loop does is what its tries do, one after
another (`RetryPolicy.tryFrom_run`), so it keeps what each of them keeps.
-/

namespace Telemetry

variable {σ α : Type}

/-- Surroundings in which every try is waited for; when the stop signal comes is left open. -/
def RetrySurroundings.patient (stopping : σ → Bool) (stopped : Nanos → σ → Bool) :
    RetrySurroundings (StateM σ) where
  within := fun _ call => do pure (some (← call))
  isStopping := fun s => (stopping s, s)
  pause := fun span s => (stopped span s, s)

namespace RetryPolicy

variable (p : RetryPolicy) (stopping : σ → Bool) (stopped : Nanos → σ → Bool)
  (operation : String) (call : StateM σ (Except Fault α))

theorem tryFrom_run (left attempt : Nat) (s : σ) :
    (p.tryFrom (.patient stopping stopped) operation call left attempt).run s =
      match call.run s with
      | (.ok a, s') => (.ok a, s')
      | (.error f, s') =>
        if !f.isTransient then (.error f, s')
        else
          match left with
          | 0 => (.error f, s')
          | left + 1 =>
            if stopping s' then (.error .cancelled, s')
            else if stopped (p.delay attempt) s' then (.error .cancelled, s')
            else
              (p.tryFrom (.patient stopping stopped) operation call left (attempt + 1)).run s' := by
  conv => lhs; unfold tryFrom
  simp only [RetrySurroundings.patient, StateT.run_bind]
  rcases call.run s with ⟨f | a, s'⟩
  · show ((if !f.isTransient then _ else _ : StateM σ (Except Fault α)).run s') =
      if !f.isTransient then _ else _
    split
    · rfl
    · cases left with
      | zero => rfl
      | succ left =>
        show ((if stopping s' then _ else _ : StateM σ (Except Fault α)).run s') =
          if stopping s' then _ else _
        split
        · rfl
        · show ((if stopped (p.delay attempt) s' then _ else _ :
              StateM σ (Except Fault α)).run s') = if stopped (p.delay attempt) s' then _ else _
          split <;> rfl
  · rfl

variable {call}

/-- What every try keeps is kept. -/
theorem tryFrom_keeps {P : σ → Prop} (hcall : ∀ s, P s → P (call.run s).2)
    (left attempt : Nat) {s : σ} (h : P s) :
    P ((p.tryFrom (.patient stopping stopped) operation call left attempt).run s).2 := by
  induction left generalizing attempt s with
  | zero =>
    have hs := hcall s h
    rw [tryFrom_run]
    rcases hrun : call.run s with ⟨f | a, s'⟩
    · rw [hrun] at hs
      dsimp only
      split <;> exact hs
    · rw [hrun] at hs
      exact hs
  | succ left ih =>
    have hs := hcall s h
    rw [tryFrom_run]
    rcases hrun : call.run s with ⟨f | a, s'⟩
    · rw [hrun] at hs
      dsimp only
      -- given up, stopped before the pause or in it, or tried once more
      split
      · exact hs
      · split
        · exact hs
        · split
          · exact hs
          · exact ih (attempt + 1) hs
    · rw [hrun] at hs
      exact hs

end RetryPolicy

end Telemetry
