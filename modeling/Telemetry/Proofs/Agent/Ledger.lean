import Mathlib.Data.List.Induction
import Mathlib.Data.List.Infix
import Telemetry.Agent.PollLedger
import Telemetry.Proofs.Metric.Sums

/-!
# The ledger of polls as a book

The collector and the reporter have handles of one ledger, and whoever has a handle can copy it. A
book is kept of what was done through any of them: polls recorded, amounts taken, amounts put back.

What is pending is the balance of the book up to a multiple of `2 ^ 64` (`pending_eq_bmod`), which
is what counting in sixty-four bits comes to. It is the balance itself, and a poll that is recorded
is told just that, as long as the polls that came in since the last take fit into an `Int64`; where
they do not, what is pending is negative (`exact_iff_load`).
-/

namespace Telemetry.PollLedger

/-! ## Books -/

/-- What can be done through a handle. -/
inductive Call
  | record
  | take
  | restore (polls : Int64)
deriving DecidableEq

/-- What was done, with what was answered. -/
inductive Entry
  | recorded (told : Int64)
  | taken (polls : Int64)
  | restored (polls : Int64)
deriving DecidableEq

def Call.perform : Call → PollLedger → PollLedger × Entry
  | .record, l => (l.record.1, .recorded l.record.2)
  | .take, l => (l.take.1, .taken l.take.2)
  | .restore polls, l => (l.restore polls, .restored polls)

/-- What an entry adds to the balance. -/
def Entry.amount : Entry → Int
  | .recorded _ => 1
  | .taken polls => -polls.toInt
  | .restored polls => max polls.toInt 0

/-- The polls recorded, with the positive amounts restored, less the amounts taken. -/
def balance (book : List Entry) : Int := (book.map Entry.amount).sum

/-- What has come in since the last take, with an entry more. -/
def Entry.loadAfter (load : Int) : Entry → Int
  | .taken _ => 0
  | e => load + e.amount

/-- What has come in since the last take. -/
def load (book : List Entry) : Int := book.foldl Entry.loadAfter 0

theorem balance_concat (book : List Entry) (e : Entry) :
    balance (book ++ [e]) = balance book + e.amount := by
  simp [balance]

theorem load_concat (book : List Entry) (e : Entry) :
    load (book ++ [e]) = e.loadAfter (load book) := by
  simp [load]

theorem load_nonneg (book : List Entry) : 0 ≤ load book := by
  induction book using List.reverseRecOn with
  | nil => exact Int.le_refl 0
  | append_singleton book e ih =>
    rw [load_concat]
    cases e with
    | recorded told => exact Int.add_nonneg ih Int.one_nonneg
    | taken polls => exact Int.le_refl 0
    | restored polls => exact Int.add_nonneg ih (le_max_right _ _)

/-- A call adds to what is pending what its entry adds to the balance, in sixty-four bits. -/
theorem toInt_perform (c : Call) (l : PollLedger) :
    (c.perform l).1.pending.toInt =
      (l.pending.toInt + (c.perform l).2.amount).bmod (2 ^ 64) := by
  cases c with
  | record => exact Int64.toInt_add l.pending 1
  | take =>
    show (0 : Int64).toInt = (l.pending.toInt + -l.pending.toInt).bmod (2 ^ 64)
    rw [Int.add_right_neg]
    rfl
  | restore polls =>
    show (l.restore polls).pending.toInt = (l.pending.toInt + max polls.toInt 0).bmod (2 ^ 64)
    unfold restore
    split
    next hpos =>
      have hpolls : 0 < polls.toInt := Int64.lt_iff_toInt_lt.mp hpos
      rw [max_eq_left hpolls.le]
      exact Int64.toInt_add l.pending polls
    next hpos =>
      have hpolls : polls.toInt ≤ 0 := by
        rw [Int64.lt_iff_toInt_lt, Int64.toInt_zero] at hpos
        omega
      rw [max_eq_right hpolls, Int.add_zero]
      exact (Int64.toInt_bmod l.pending).symm

/-- No call adds more than the greatest amount there is. -/
theorem amount_perform_lt (c : Call) {l : PollLedger} (hl : 0 ≤ l.pending.toInt) :
    (c.perform l).2.amount < 2 ^ 63 := by
  cases c with
  | record =>
    show (1 : Int) < 2 ^ 63
    decide
  | take =>
    show -l.pending.toInt < 2 ^ 63
    omega
  | restore polls =>
    have hpolls := polls.toInt_lt
    show max polls.toInt 0 < 2 ^ 63
    omega

/-! ## Handles -/

/-- A ledger with the number of its handles and its book. -/
structure Shared where
  ledger : PollLedger
  handles : Nat
  book : List Entry
deriving DecidableEq

/-- What can happen to a ledger. -/
inductive Event
  /-- a handle is copied -/
  | clone (handle : Nat)
  | call (handle : Nat) (c : Call)
deriving DecidableEq

namespace Shared

/-- A new ledger, with one handle. -/
def start : Shared := ⟨.empty, 1, []⟩

/-- Nothing is done through a handle that nobody has. -/
def step (s : Shared) : Event → Shared
  | .clone handle => if handle < s.handles then { s with handles := s.handles + 1 } else s
  | .call handle c =>
    if handle < s.handles then
      { s with ledger := (c.perform s.ledger).1, book := s.book ++ [(c.perform s.ledger).2] }
    else s

/-- A ledger after all that has happened to it. -/
def run (history : List Event) : Shared := history.foldl step start

theorem run_concat (history : List Event) (e : Event) :
    run (history ++ [e]) = (run history).step e := by
  unfold run
  rw [List.foldl_append]
  rfl

/-- Ledger and book change together, or neither does. -/
theorem step_cases (s : Shared) (e : Event) :
    ((s.step e).ledger = s.ledger ∧ (s.step e).book = s.book) ∨
      ∃ c : Call, (s.step e).ledger = (c.perform s.ledger).1 ∧
        (s.step e).book = s.book ++ [(c.perform s.ledger).2] := by
  cases e with
  | clone handle =>
    unfold step
    dsimp only
    split
    · exact Or.inl ⟨rfl, rfl⟩
    · exact Or.inl ⟨rfl, rfl⟩
  | call handle c =>
    unfold step
    dsimp only
    split
    · exact Or.inr ⟨c, rfl, rfl⟩
    · exact Or.inl ⟨rfl, rfl⟩

/-- **What is pending is the balance in sixty-four bits**, whatever was done. -/
theorem pending_eq_bmod (history : List Event) :
    (run history).ledger.pending.toInt = (balance (run history).book).bmod (2 ^ 64) := by
  induction history using List.reverseRecOn with
  | nil => rfl
  | append_singleton history e ih =>
    rw [run_concat]
    obtain ⟨hledger, hbook⟩ | ⟨c, hledger, hbook⟩ := (run history).step_cases e
    · rw [hledger, hbook]
      exact ih
    · rw [hledger, hbook, toInt_perform, balance_concat, ih, Int.bmod_add_bmod]

/-! ## Where the count is exact -/

/-- Whether a ledger is what it is kept for: what is pending is a number of polls, it is the balance
of the book, and it was told if a poll was recorded last. -/
structure Exact (s : Shared) : Prop where
  nonneg : 0 ≤ s.ledger.pending.toInt
  balanced : s.ledger.pending.toInt = balance s.book
  told : ∀ told, s.book.getLast? = some (.recorded told) → told = s.ledger.pending

/-- Whether all that came in since the last take is pending as well. -/
structure Settled (s : Shared) : Prop extends Exact s where
  loaded : s.ledger.pending.toInt = load s.book

theorem settled_start : Settled start := ⟨⟨by decide, by decide, nofun⟩, by decide⟩

section Steps

variable {s s' : Shared}

/-- Handles do not matter. -/
theorem Settled.of_same (h : Settled s) (hledger : s'.ledger = s.ledger)
    (hbook : s'.book = s.book) : Settled s' := by
  obtain ⟨ledger, handles, book⟩ := s'
  dsimp only at hledger hbook
  subst hledger hbook
  exact ⟨⟨h.nonneg, h.balanced, h.told⟩, h.loaded⟩

/-- With another call, balance and load still are the same. -/
theorem Settled.load_perform (h : Settled s) (c : Call) :
    load (s.book ++ [(c.perform s.ledger).2]) =
      s.ledger.pending.toInt + (c.perform s.ledger).2.amount := by
  rw [load_concat, ← h.loaded]
  cases c with
  | record => rfl
  | take => exact (Int.add_right_neg _).symm
  | restore polls => rfl

/-- A poll that fits is told as it is counted. -/
theorem told_of_record {l : PollLedger} (hl : 0 ≤ l.pending.toInt)
    (hfits : l.pending.toInt + 1 < 2 ^ 63) : l.record.2 = l.record.1.pending := by
  have hcounted : l.record.1.pending.toInt = (l.pending.toInt + 1).bmod (2 ^ 64) :=
    toInt_perform .record l
  have htold : l.record.2.toInt =
      max Int64.minValue.toInt (min Int64.maxValue.toInt (l.pending.toInt + 1)) :=
    toInt_saturatingAdd l.pending 1
  have hmin : Int64.minValue.toInt < 0 := by decide
  have hmax : Int64.maxValue.toInt = 2 ^ 63 - 1 := by decide
  rw [Int.bmod_eq_of_le (by omega) (by omega)] at hcounted
  exact Int64.toInt_inj.mp (by omega)

/-- **What comes in and fits is counted.** -/
theorem Settled.step (h : Settled s) {e : Event} (hload : load (s.step e).book < 2 ^ 63) :
    Settled (s.step e) := by
  obtain ⟨hledger, hbook⟩ | ⟨c, hledger, hbook⟩ := s.step_cases e
  · exact h.of_same hledger hbook
  · have hsum := h.load_perform c
    have hsum_nonneg := load_nonneg (s.book ++ [(c.perform s.ledger).2])
    rw [hbook] at hload
    have hcounted := toInt_perform c s.ledger
    rw [Int.bmod_eq_of_le (by omega) (by omega)] at hcounted
    refine ⟨⟨?_, ?_, ?_⟩, ?_⟩
    · rw [hledger]
      omega
    · rw [hledger, hbook, hcounted, balance_concat, h.balanced]
    · rw [hledger, hbook, List.getLast?_concat]
      intro told htold
      cases c with
      | record =>
        have hfits : s.ledger.pending.toInt + 1 < 2 ^ 63 := hsum.symm.trans_lt hload
        cases htold
        exact told_of_record h.nonneg hfits
      | take => cases htold
      | restore polls => cases htold
    · rw [hledger, hbook, hcounted, hsum]

/-- **What comes in and does not fit makes the count negative.** -/
theorem Settled.pending_step_neg (h : Settled s) {e : Event}
    (hload : 2 ^ 63 ≤ load (s.step e).book) : (s.step e).ledger.pending.toInt < 0 := by
  have hpending := s.ledger.pending.toInt_lt
  obtain ⟨-, hbook⟩ | ⟨c, hledger, hbook⟩ := s.step_cases e
  · rw [hbook, ← h.loaded] at hload
    omega
  · have hsum := h.load_perform c
    have hamount := amount_perform_lt c h.nonneg
    rw [hbook] at hload
    rw [hledger, toInt_perform, Int.bmod_def]
    omega

end Steps

theorem settled_run {history : List Event}
    (h : ∀ front, front <+: history → load (run front).book < 2 ^ 63) :
    Settled (run history) := by
  induction history using List.reverseRecOn with
  | nil => exact settled_start
  | append_singleton history e ih =>
    have hload := h _ (List.prefix_refl _)
    rw [run_concat] at hload ⊢
    exact (ih fun front hfront => h front (hfront.trans (List.prefix_append _ _))).step hload

/-- As long as the count was exact, what came in did fit. -/
theorem load_lt_of_exact {history : List Event}
    (h : ∀ front, front <+: history → Exact (run front)) :
    ∀ front, front <+: history → load (run front).book < 2 ^ 63 := by
  induction history using List.reverseRecOn with
  | nil =>
    intro front hfront
    rw [List.prefix_nil.mp hfront]
    decide
  | append_singleton history e ih =>
    have hbefore := ih fun front hfront => h front (hfront.trans (List.prefix_append _ _))
    intro front hfront
    obtain rfl | hfront := List.prefix_concat_iff.mp hfront
    · have hexact := (h _ (List.prefix_refl _)).nonneg
      rw [run_concat] at hexact ⊢
      by_contra hload
      have hneg := (settled_run hbefore).pending_step_neg (Int.not_lt.mp hload)
      omega
    · exact hbefore front hfront

/-- **When the ledger is exact.** Whatever is done through whichever handles, what is pending is the
balance of the book up to a multiple of `2 ^ 64`. All along it is the balance itself, never negative
and told to who records a poll, just as long as what came in since the last take fits into an
`Int64`. -/
theorem exact_iff_load (history : List Event) :
    (run history).ledger.pending.toInt = (balance (run history).book).bmod (2 ^ 64) ∧
    ((∀ front, front <+: history → Exact (run front)) ↔
      ∀ front, front <+: history → load (run front).book < 2 ^ 63) := by
  refine ⟨pending_eq_bmod history, load_lt_of_exact, fun h front hfront => ?_⟩
  exact (settled_run fun front' hfront' => h front' (hfront'.trans hfront)).toExact

/-- Two polls whose report fails while there is a third, told through a handle of the collector's
own. -/
theorem exact_iff_load_after_failure :
    let history : List Event :=
      [.clone 0, .call 1 .record, .call 1 .record, .call 0 .take, .call 1 .record,
        .call 0 (.restore 2), .call 0 (.restore (-4))]
    (∀ front, front <+: history → load (run front).book < 2 ^ 63) ∧
      (∀ front, front <+: history → Exact (run front)) ∧ (run history).ledger.pending = 3 := by
  intro history
  have hload : ∀ front, front <+: history → load (run front).book < 2 ^ 63 := by
    have hinits : ∀ front ∈ history.inits, load (run front).book < 2 ^ 63 := by decide
    intro front hfront
    exact hinits front ((List.mem_inits _ _).mpr hfront)
  exact ⟨hload, (exact_iff_load history).2.mpr hload, by decide⟩

/-- All the polls that there can be, and one more through another handle: the answer stays at the
end of the range, and what is pending starts over at the other one. -/
theorem count_turns_negative :
    let s := run [.clone 0, .call 0 (.restore Int64.maxValue), .call 1 .record]
    s.book = [.restored Int64.maxValue, .recorded Int64.maxValue] ∧
      s.ledger.pending = Int64.minValue ∧ balance s.book = 2 ^ 63 ∧ ¬ Exact s := by
  intro s
  refine ⟨by decide, by decide, by decide, fun h => ?_⟩
  exact absurd h.nonneg (by decide)

end Shared

end Telemetry.PollLedger
