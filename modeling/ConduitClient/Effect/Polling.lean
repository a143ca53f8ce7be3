import Mathlib.Algebra.Order.Floor.Defs
import Mathlib.Algebra.Order.Floor.Semiring
import Mathlib.Algebra.Order.Field.Basic
import Mathlib.Tactic.Linarith
import Mathlib.Tactic.Ring

/-!
# Polling up to a deadline

A loop that looks at a clock, polls while the deadline is ahead, and goes on until a poll
decides. What each round would find is given as a sequence (`Polls`), and `run` is the loop
for a bounded number of rounds.

The loop gets to round `k` when no earlier round ended it (`Pending`). Then round `k` decides
(`Decides`), finds the deadline passed (`Expires`), or the loop gets to round `k + 1`. So a
run is decided by the first round that is not undecided (`run_eq_decided_iff` and its
siblings).
-/

namespace Effect

/-- What the rounds of a loop find: the clock before each poll, and what the poll decides. -/
structure Polls (τ β : Type) where
  check : ℕ → τ
  verdict : ℕ → Option β

/-- How a bounded number of rounds leaves the loop. -/
inductive Ending (β : Type) where
  /-- Poll `k` decided. -/
  | decided (k : ℕ) (b : β)
  /-- Round `k` found the deadline passed. -/
  | expired (k : ℕ)
  | polling
  deriving DecidableEq

/-- The number of polls made in the first `n` rounds. -/
def Ending.polls {β : Type} (n : ℕ) : Ending β → ℕ
  | .decided k _ => k + 1
  | .expired k => k
  | .polling => n

namespace Polls

section Order

variable {τ β : Type} [LinearOrder τ]

/-- The loop from round `k` on, for at most `n` rounds. -/
def run (p : Polls τ β) (deadline : τ) : (n k : ℕ) → Ending β
  | 0, _ => .polling
  | n + 1, k =>
    if p.check k < deadline then
      match p.verdict k with
      | some b => .decided k b
      | none => run p deadline n (k + 1)
    else .expired k

/-- The loop gets to round `k`. -/
def Pending (p : Polls τ β) (deadline : τ) (k : ℕ) : Prop :=
  ∀ j < k, p.check j < deadline ∧ p.verdict j = none

/-- The loop makes poll `k`. -/
def Made (p : Polls τ β) (deadline : τ) (k : ℕ) : Prop :=
  p.Pending deadline k ∧ p.check k < deadline

/-- Poll `k` is made, and decides. -/
def Decides (p : Polls τ β) (deadline : τ) (k : ℕ) (b : β) : Prop :=
  p.Made deadline k ∧ p.verdict k = some b

/-- The loop gets to round `k`, and finds the deadline passed. -/
def Expires (p : Polls τ β) (deadline : τ) (k : ℕ) : Prop :=
  p.Pending deadline k ∧ deadline ≤ p.check k

variable {p q : Polls τ β} {deadline : τ} {j k n : ℕ} {b : β}

theorem pending_zero : p.Pending deadline 0 := fun _ hj => absurd hj (Nat.not_lt_zero _)

theorem Pending.mono (h : p.Pending deadline k) (hjk : j ≤ k) : p.Pending deadline j :=
  fun i hi => h i (hi.trans_le hjk)

theorem pending_succ_iff :
    p.Pending deadline (k + 1) ↔ p.Made deadline k ∧ p.verdict k = none := by
  constructor
  · intro h
    obtain ⟨hcheck, hverdict⟩ := h k (Nat.lt_succ_self k)
    exact ⟨⟨h.mono (Nat.le_succ k), hcheck⟩, hverdict⟩
  · rintro ⟨⟨hpending, hcheck⟩, hverdict⟩ j hj
    rcases Nat.lt_succ_iff_lt_or_eq.mp hj with hlt | rfl
    · exact hpending j hlt
    · exact ⟨hcheck, hverdict⟩

/-- A loop with a clock that never goes back gets to every round before which nothing was
decided, as long as the clock is before the deadline then. -/
theorem made_of_monotone (hmono : Monotone p.check) (hcheck : p.check k < deadline)
    (hverdict : ∀ j < k, p.verdict j = none) : p.Made deadline k :=
  ⟨fun j hj => ⟨(hmono hj.le).trans_lt hcheck, hverdict j hj⟩, hcheck⟩

/-- What the rounds before `k + n` can do to a loop that gets to round `k`. -/
theorem run_cases (p : Polls τ β) (deadline : τ) (n : ℕ) (h : p.Pending deadline k) :
    (∃ j b, p.run deadline n k = .decided j b ∧ j < k + n ∧ p.Decides deadline j b) ∨
      (∃ j, p.run deadline n k = .expired j ∧ j < k + n ∧ p.Expires deadline j) ∨
      (p.run deadline n k = .polling ∧ p.Pending deadline (k + n)) := by
  -- induction on the rounds that are left, at any round the loop gets to
  induction n generalizing k with
  | zero => exact Or.inr (Or.inr ⟨rfl, h⟩)
  | succ n ih =>
    unfold run
    by_cases hcheck : p.check k < deadline
    · rw [if_pos hcheck]
      cases hverdict : p.verdict k with
      | some b => exact Or.inl ⟨k, b, rfl, by omega, ⟨h, hcheck⟩, hverdict⟩
      | none =>
        -- undecided before the deadline: the loop gets to the next round
        have hnext : p.Pending deadline (k + 1) :=
          pending_succ_iff.mpr ⟨⟨h, hcheck⟩, hverdict⟩
        have hrest := ih hnext
        rwa [show k + 1 + n = k + (n + 1) by omega] at hrest
    · rw [if_neg hcheck]
      exact Or.inr (Or.inl ⟨k, rfl, by omega, h, not_lt.mp hcheck⟩)

/-- No round behind one that decides is reached. -/
theorem Decides.le_of_pending (h : p.Decides deadline j b) (hk : p.Pending deadline k) :
    k ≤ j := by
  by_contra hlt
  have hnone := (hk j (not_le.mp hlt)).2
  rw [h.2] at hnone
  cases hnone

/-- No round behind one that finds the deadline passed is reached. -/
theorem Expires.le_of_pending (h : p.Expires deadline j) (hk : p.Pending deadline k) :
    k ≤ j := by
  by_contra hlt
  exact absurd (hk j (not_le.mp hlt)).1 (not_lt.mpr h.2)

theorem Decides.unique {b' : β} (h : p.Decides deadline j b) (h' : p.Decides deadline k b') :
    j = k ∧ b = b' := by
  obtain rfl : j = k :=
    le_antisymm (h'.le_of_pending h.1.1) (h.le_of_pending h'.1.1)
  exact ⟨rfl, Option.some.inj (h.2.symm.trans h'.2)⟩

theorem Expires.unique (h : p.Expires deadline j) (h' : p.Expires deadline k) : j = k :=
  le_antisymm (h'.le_of_pending h.1) (h.le_of_pending h'.1)

theorem Decides.not_expires (h : p.Decides deadline j b) : ¬ p.Expires deadline k := by
  intro h'
  obtain rfl : j = k := le_antisymm (h'.le_of_pending h.1.1) (h.le_of_pending h'.1)
  exact absurd h.1.2 (not_lt.mpr h'.2)

/-- **The three endings.** A poll ends the loop exactly when it is the first that decides. -/
theorem run_eq_decided_iff :
    p.run deadline n 0 = .decided k b ↔ k < n ∧ p.Decides deadline k b := by
  rcases run_cases p deadline n pending_zero with
    ⟨j, b', hrun, hj, hdecides⟩ | ⟨j, hrun, hj, hexpires⟩ | ⟨hrun, hpending⟩
  · rw [hrun, Ending.decided.injEq]
    constructor
    · rintro ⟨rfl, rfl⟩
      exact ⟨by omega, hdecides⟩
    · exact fun h => hdecides.unique h.2
  · rw [hrun]
    -- a loop ends in one way only
    exact iff_of_false (by simp) fun h => h.2.not_expires hexpires
  · rw [hrun]
    refine iff_of_false (by simp) fun h => ?_
    have hle := h.2.le_of_pending hpending
    omega

theorem run_eq_expired_iff :
    p.run deadline n 0 = .expired k ↔ k < n ∧ p.Expires deadline k := by
  rcases run_cases p deadline n pending_zero with
    ⟨j, b', hrun, hj, hdecides⟩ | ⟨j, hrun, hj, hexpires⟩ | ⟨hrun, hpending⟩
  · rw [hrun]
    exact iff_of_false (by simp) fun h => hdecides.not_expires h.2
  · rw [hrun, Ending.expired.injEq]
    constructor
    · rintro rfl
      exact ⟨by omega, hexpires⟩
    · exact fun h => hexpires.unique h.2
  · rw [hrun]
    refine iff_of_false (by simp) fun h => ?_
    have hle := h.2.le_of_pending hpending
    omega

theorem run_eq_polling_iff : p.run deadline n 0 = .polling ↔ p.Pending deadline n := by
  rcases run_cases p deadline n pending_zero with
    ⟨j, b', hrun, hj, hdecides⟩ | ⟨j, hrun, hj, hexpires⟩ | ⟨hrun, hpending⟩
  · rw [hrun]
    refine iff_of_false (by simp) fun h => ?_
    have hle := hdecides.le_of_pending h
    omega
  · rw [hrun]
    refine iff_of_false (by simp) fun h => ?_
    have hle := hexpires.le_of_pending h
    omega
  · rw [hrun, Nat.zero_add] at *
    exact iff_of_true rfl hpending

/-- Loops that look at one clock, and whose polls find the same as long as one of them makes
them, end alike. -/
theorem run_congr (hcheck : p.check = q.check)
    (hverdict : ∀ j, p.Made deadline j → p.verdict j = q.verdict j)
    (hpending : p.Pending deadline k) (n : ℕ) : p.run deadline n k = q.run deadline n k := by
  -- induction on the rounds; only polls that are made are looked at
  induction n generalizing k with
  | zero => rfl
  | succ n ih =>
    unfold run
    rw [← hcheck]
    split
    · next hk =>
      rw [← hverdict k ⟨hpending, hk⟩]
      cases hv : p.verdict k with
      | some b => rfl
      | none => exact ih (pending_succ_iff.mpr ⟨⟨hpending, hk⟩, hv⟩)
    · rfl

end Order

/-! ### The number of polls -/

section Field

variable {τ β : Type} [Field τ] [LinearOrder τ] [IsStrictOrderedRing τ]
  {p : Polls τ β} {deadline start step : τ} {n : ℕ}

/-- The clock after `k` rounds that take `step` each. -/
theorem check_ge_of_step (hstart : start ≤ p.check 0)
    (hstep : ∀ k, p.check k + step ≤ p.check (k + 1)) (k : ℕ) :
    start + k * step ≤ p.check k := by
  -- every round moves the clock by `step` at least
  induction k with
  | zero => simpa using hstart
  | succ k ih =>
    have hk : start + ((k + 1 : ℕ) : τ) * step = start + k * step + step := by
      push_cast
      ring
    rw [hk]
    exact (add_le_add_left ih step).trans (hstep k)

/-- Rounds that take `step` each are at most as many as fit before the deadline. -/
theorem made_lt_ceil [FloorSemiring τ] (hpos : 0 < step) (hstart : start ≤ p.check 0)
    (hstep : ∀ k, p.check k + step ≤ p.check (k + 1)) {k : ℕ} (h : p.Made deadline k) :
    k < ⌈(deadline - start) / step⌉₊ := by
  have hbefore : p.check k < deadline := h.2
  have hafter := check_ge_of_step hstart hstep k
  rw [Nat.lt_ceil, lt_div_iff₀ hpos]
  linarith

theorem pending_le_ceil [FloorSemiring τ] (hpos : 0 < step) (hstart : start ≤ p.check 0)
    (hstep : ∀ k, p.check k + step ≤ p.check (k + 1)) (h : p.Pending deadline n) :
    n ≤ ⌈(deadline - start) / step⌉₊ := by
  cases n with
  | zero => exact Nat.zero_le _
  | succ k => exact made_lt_ceil hpos hstart hstep (pending_succ_iff.mp h).1

/-- However many rounds there are, the polls made are at most as many as fit. -/
theorem polls_le_ceil [FloorSemiring τ] (deadline : τ) (hpos : 0 < step)
    (hstart : start ≤ p.check 0)
    (hstep : ∀ k, p.check k + step ≤ p.check (k + 1)) (n : ℕ) :
    (p.run deadline n 0).polls n ≤ ⌈(deadline - start) / step⌉₊ := by
  rcases run_cases p deadline n pending_zero with
    ⟨k, b, hrun, -, hdecides⟩ | ⟨k, hrun, -, hexpires⟩ | ⟨hrun, hpending⟩
  · rw [hrun]
    exact made_lt_ceil hpos hstart hstep hdecides.1
  · rw [hrun]
    exact pending_le_ceil hpos hstart hstep hexpires.1
  · rw [hrun]
    rw [Nat.zero_add] at hpending
    exact pending_le_ceil hpos hstart hstep hpending

/-- One round more than fits ends the loop. -/
theorem run_ne_polling [FloorSemiring τ] (deadline : τ) (hpos : 0 < step)
    (hstart : start ≤ p.check 0)
    (hstep : ∀ k, p.check k + step ≤ p.check (k + 1)) :
    p.run deadline (⌈(deadline - start) / step⌉₊ + 1) 0 ≠ .polling := by
  intro hrun
  -- a loop that still polls has made more polls than fit
  have hle := pending_le_ceil hpos hstart hstep (run_eq_polling_iff.mp hrun)
  omega

end Field

end Polls

end Effect
