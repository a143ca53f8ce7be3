import ConduitClient.Effect.Prog
import Mathlib.Algebra.Order.Group.Defs
import Mathlib.Algebra.Order.Monoid.Unbundled.Pow

/-!
# How long a program takes

The environment is a deterministic handler with a clock. `Prog.Takes` bounds the time that a
program takes, from every state and however it ends, with one rule for each construct: what
comes after one another adds up.

A loop that runs until a deadline looks at the clock in each turn (`Turn`). Where a turn is short
the loop ends shortly after its deadline (`Turn.overrun`), and where a turn is not too short it
does not turn forever (`Turn.ends`).
-/

namespace Effect

variable {S : Interface} {σ ε ε' α β γ τ : Type}

namespace Prog

/-- However its operations are answered, the program has an outcome of which `Q` holds. -/
def Results (Q : Except ε α → Prop) : Prog S ε α → Prop
  | done r => Q r
  | op _ k => ∀ a, Results Q (k a)

namespace Results

variable {Q : Except ε α → Prop} {p : Prog S ε α}

/-- A run has such an outcome. -/
theorem eval (hp : p.Results Q) (h : σ → (o : S.Op) → S.Ans o × σ) (s : σ) :
    Q (p.eval h s).1 := by
  induction p generalizing s with
  | done r => exact hp
  | op o k ih => exact ih _ (hp _) _

theorem handle {Q' : Except ε' β → Prop} {f : Except ε α → Prog S ε' β} (hp : p.Results Q)
    (hf : ∀ r, Q r → (f r).Results Q') : (p.handle f).Results Q' := by
  induction p with
  | done r => exact hf r hp
  | op o k ih => exact fun a => ih a (hp a)

/-- What holds of every outcome. -/
theorem any (h : ∀ r, Q r) (p : Prog S ε α) : p.Results Q := by
  induction p with
  | done r => exact h r
  | op o k ih => exact ih

/-- Sequencing, where something is claimed of values only. -/
theorem bind {M : α → Prop} {N : β → Prop} {f : α → Prog S ε β}
    (hp : p.Results fun r => ∀ a, r = .ok a → M a)
    (hf : ∀ a, M a → (f a).Results fun r => ∀ b, r = .ok b → N b) :
    (p >>= f).Results fun r => ∀ b, r = .ok b → N b := by
  refine hp.handle fun r hr => ?_
  cases r with
  | ok a => exact hf a (hr a rfl)
  | error e =>
    intro b hb
    cases hb

/-- There is one result for each element. -/
theorem collect (f : γ → Prog S ε β) (xs : List γ) :
    (Prog.collect f xs).Results fun r => ∀ bs, r = .ok bs → bs.length = xs.length := by
  induction xs with
  | nil =>
    intro bs hbs
    rw [← Except.ok.inj hbs]
    rfl
  | cons x xs ih =>
    refine bind (M := fun _ => True) (any (fun _ _ _ => trivial) (f x)) fun b _ => ?_
    refine bind ih fun bs hbs => ?_
    intro cs hcs
    rw [← Except.ok.inj hcs, List.length_cons, List.length_cons, hbs]

end Results

end Prog

section Takes

variable [AddCommMonoid τ] [PartialOrder τ]
  (h : σ → (o : S.Op) → S.Ans o × σ) (now : σ → τ)

/-- Whatever state it starts in, the program is over after the time `t`. -/
def Prog.Takes (p : Prog S ε α) (t : τ) : Prop := ∀ s, now (p.eval h s).2 ≤ now s + t

variable {h now} {p : Prog S ε α} {t t' : τ}

namespace Prog.Takes

/-- A single operation. -/
theorem perform {o : S.Op} (ho : ∀ s, now (h s o).2 ≤ now s + t) :
    (Prog.perform o : Prog S ε (S.Ans o)).Takes h now t := ho

/-- What follows without an operation takes no time. -/
theorem handle_done {r : Except ε α → Except ε' β} (hp : p.Takes h now t) :
    (p.handle fun a => .done (r a)).Takes h now t := by
  intro s
  rw [Prog.eval_handle]
  exact hp s

variable [IsOrderedAddMonoid τ]

theorem mono (hp : p.Takes h now t) (ht : t ≤ t') : p.Takes h now t' :=
  fun s => (hp s).trans (add_le_add_right ht _)

/-- A program that is done takes no time, so any bound will do. -/
theorem done {r : Except ε α} (ht : 0 ≤ t) : (Prog.done r : Prog S ε α).Takes h now t :=
  fun _ => le_add_of_nonneg_right ht

/-- A program and what comes after it, however it ends. -/
theorem handle {f : Except ε α → Prog S ε' β} (hp : p.Takes h now t)
    (hf : ∀ r, (f r).Takes h now t') : (p.handle f).Takes h now (t + t') := by
  intro s
  rw [Prog.eval_handle]
  calc now ((f (p.eval h s).1).eval h (p.eval h s).2).2
      ≤ now (p.eval h s).2 + t' := hf _ _
    _ ≤ now s + t + t' := add_le_add_left (hp s) t'
    _ = now s + (t + t') := add_assoc _ _ _

/-- Sequencing: the times add up. After an exception nothing follows. -/
theorem bind {f : α → Prog S ε β} (hp : p.Takes h now t) (hf : ∀ a, (f a).Takes h now t')
    (ht' : 0 ≤ t') : (p >>= f).Takes h now (t + t') := by
  refine hp.handle fun r => ?_
  cases r with
  | ok a => exact hf a
  | error e => exact done ht'

/-- A program and what comes after the values that it can have. -/
theorem bind_results {M : α → Prop} {f : α → Prog S ε β} (hp : p.Takes h now t)
    (hM : p.Results fun r => ∀ a, r = .ok a → M a) (hf : ∀ a, M a → (f a).Takes h now t')
    (ht' : 0 ≤ t') : (p >>= f).Takes h now (t + t') := by
  intro s
  cases hr : p.eval h s with
  | mk r s' =>
    -- `bind` does not apply, as the bound on `f` is for the values in `M` only
    have hvalue : ∀ a, r = .ok a → M a := fun a ha => hM.eval h s a (by rw [hr]; exact ha)
    have hs' : now s' ≤ now s + t := by
      have hp' := hp s
      rwa [hr] at hp'
    cases r with
    | ok a =>
      rw [Prog.eval_bind_ok h hr, ← add_assoc]
      exact (hf a (hvalue a rfl) s').trans (add_le_add_left hs' t')
    | error e =>
      rw [Prog.eval_bind_error h hr, ← add_assoc]
      exact hs'.trans (le_add_of_nonneg_right ht')

/-- The handler may run after the whole of the program. -/
theorem tryCatch {f : ε → Prog S ε α} (hp : p.Takes h now t) (hf : ∀ e, (f e).Takes h now t')
    (ht' : 0 ≤ t') : (p.tryCatch f).Takes h now (t + t') := by
  refine hp.handle fun r => ?_
  cases r with
  | ok a => exact done ht'
  | error e => exact hf e

/-- A loop over a list takes the time of its body for each element. -/
theorem forEach {f : γ → Prog S ε Unit} {xs : List γ} (hf : ∀ x ∈ xs, (f x).Takes h now t)
    (ht : 0 ≤ t) : (Prog.forEach f xs).Takes h now (xs.length • t) := by
  induction xs with
  | nil => exact done (le_of_eq (zero_nsmul t).symm)
  | cons x xs ih =>
    have hrest := ih fun y hy => hf y (List.mem_cons_of_mem x hy)
    have hall := (hf x List.mem_cons_self).bind (fun _ => hrest) (nsmul_nonneg ht _)
    rwa [List.length_cons, succ_nsmul']

theorem collect {f : γ → Prog S ε β} {xs : List γ} (hf : ∀ x ∈ xs, (f x).Takes h now t)
    (ht : 0 ≤ t) : (Prog.collect f xs).Takes h now (xs.length • t) := by
  induction xs with
  | nil => exact done (le_of_eq (zero_nsmul t).symm)
  | cons x xs ih =>
    have hrest := ih fun y hy => hf y (List.mem_cons_of_mem x hy)
    have hall := (hf x List.mem_cons_self).bind (fun b => hrest.bind
      (fun bs => done (r := .ok (b :: bs)) (le_refl 0)) (le_refl 0))
        (le_of_le_of_eq (nsmul_nonneg ht xs.length) (add_zero _).symm)
    rw [add_zero] at hall
    rwa [List.length_cons, succ_nsmul']

end Prog.Takes

end Takes

section Loops

variable [AddCommGroup τ] [LinearOrder τ] [IsOrderedAddMonoid τ]

/-- One turn of a loop that runs until a deadline: the program `p` is the turn and what comes
after it, `rest` the loop after the turn, and `B` says of an outcome that the loop has ended. -/
inductive Turn (h : σ → (o : S.Op) → S.Ans o × σ) (now : σ → τ) (deadline pause round exit : τ)
    (rest : γ → Prog S ε α) (B : Except ε α → Prop) (p : Prog S ε α) (s : σ) : Prop
  /-- The loop is left without the turn. -/
  | leaves {r : Except ε α} {s' : σ} (hp : p.eval h s = (r, s')) (hend : B r)
      (ht : now s' ≤ now s + exit)
  /-- The turn ends the loop. -/
  | decides (hbefore : now s < deadline) {r : Except ε α} {s' : σ} (hp : p.eval h s = (r, s'))
      (hend : B r) (ht : now s' ≤ now s + round)
  /-- The loop goes on. -/
  | goesOn (hbefore : now s < deadline) {x : γ} {s' : σ}
      (hp : p.eval h s = (rest x).eval h s') (hpause : now s + pause ≤ now s')
      (ht : now s' ≤ now s + round)

variable {h : σ → (o : S.Op) → S.Ans o × σ} {now : σ → τ} {deadline pause round exit : τ}
  {B : Except ε α → Prop} {loop : ℕ → γ → Prog S ε α}

/-- **The overrun.** The loop is over at most one turn after its deadline. -/
theorem Turn.overrun (hexit : 0 ≤ exit)
    (hzero : ∀ x, (loop 0 x).Takes h now exit)
    (hturn : ∀ n x s, Turn h now deadline pause round exit (loop n) B (loop (n + 1) x) s)
    (n : ℕ) (x : γ) (s : σ) :
    now ((loop n x).eval h s).2 ≤ max (now s) (deadline + round) + exit := by
  -- on the turns left; the bound does not mention where the loop is, so it is passed on
  induction n generalizing x s with
  | zero => exact (hzero x s).trans (add_le_add_left (le_max_left _ _) exit)
  | succ n ih =>
    cases hturn n x s with
    | leaves hp _ ht =>
      rw [hp]
      exact ht.trans (add_le_add_left (le_max_left _ _) exit)
    | @decides hbefore r s' hp _ ht =>
      rw [hp]
      calc now s'
          ≤ now s + round := ht
        _ ≤ deadline + round := add_le_add_left hbefore.le round
        _ ≤ max (now s) (deadline + round) := le_max_right _ _
        _ ≤ max (now s) (deadline + round) + exit := le_add_of_nonneg_right hexit
    | @goesOn hbefore x' s' hp _ ht =>
      -- the turn began before the deadline, so the maximum does not grow
      have hs' : now s' ≤ deadline + round := ht.trans (add_le_add_left hbefore.le round)
      rw [hp]
      calc now ((loop n x').eval h s').2
          ≤ max (now s') (deadline + round) + exit := ih x' s'
        _ = deadline + round + exit := by rw [max_eq_right hs']
        _ ≤ max (now s) (deadline + round) + exit := add_le_add_left (le_max_right _ _) exit

/-- **The end.** With enough turns for its pauses to get to the deadline, the loop ends. -/
theorem Turn.ends
    (hturn : ∀ n x s, Turn h now deadline pause round exit (loop n) B (loop (n + 1) x) s)
    (n : ℕ) (x : γ) (s : σ) (hn : deadline ≤ now s + n • pause) :
    B ((loop (n + 1) x).eval h s).1 := by
  -- on the pauses left until the deadline
  induction n generalizing x s with
  | zero =>
    -- none is left: the deadline has passed, so the loop can only be left
    rw [zero_nsmul, add_zero] at hn
    cases hturn 0 x s with
    | leaves hp hend _ =>
      rw [hp]
      exact hend
    | decides hbefore _ _ _ => exact absurd hbefore (not_lt.mpr hn)
    | goesOn hbefore _ _ _ => exact absurd hbefore (not_lt.mpr hn)
  | succ n ih =>
    cases hturn (n + 1) x s with
    | leaves hp hend _ =>
      rw [hp]
      exact hend
    | decides _ hp hend _ =>
      rw [hp]
      exact hend
    | @goesOn _ x' s' hp hpause _ =>
      -- the turn has used up one of them
      rw [hp]
      refine ih x' s' ?_
      calc deadline
          ≤ now s + (n + 1) • pause := hn
        _ = now s + pause + n • pause := by rw [succ_nsmul', add_assoc]
        _ ≤ now s' + n • pause := add_le_add_left hpause _

end Loops

end Effect
