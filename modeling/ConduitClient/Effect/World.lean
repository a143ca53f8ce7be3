import Mathlib.Logic.Function.Basic
import Mathlib.Logic.Relation
import ConduitClient.Effect.Prog

/-!
# Programs that share a world

A `World` says how an operation of one thread may be answered, as a relation: several
answers are possible and, where an operation has to wait, none may be possible yet. A world
also moves by itself (`drift`): another process acts, a message arrives, a child exits.

A configuration holds one program per thread and the state of the world. `Step` lets any
thread take one operation, lets the world drift, or kills a thread, so that `Reach` ranges
over every interleaving and every kill at any point. `Triple` and the rules for it are in
`ConduitClient/Effect/Contract.lean`.

`Lawful` ties the deterministic runs of `Prog.eval` to this semantics: a handler that only
gives answers the world allows produces a reachable configuration (`Lawful.reach`). It is
how a run on concrete inputs becomes an execution.
-/

namespace Effect

/-- How the threads `ι` of a world with states `σ` are answered, and how it moves alone. -/
structure World (S : Interface) (ι σ : Type) where
  /-- In state `s` an operation of thread `i` may be answered by `a`, leading to `s'`. -/
  answer : ι → σ → (o : S.Op) → S.Ans o → σ → Prop
  /-- A move of the world that no thread asked for. -/
  drift : σ → σ → Prop

/-- What each thread still has to run (`none` for a killed one), and the world's state. -/
structure Config (S : Interface) (ι ε α σ : Type) where
  thread : ι → Option (Prog S ε α)
  state : σ

variable {S : Interface} {ι ε α σ : Type} [DecidableEq ι] {W : World S ι σ}

/-- One step of a configuration. -/
inductive Step (W : World S ι σ) : Config S ι ε α σ → Config S ι ε α σ → Prop
  | exec {c : Config S ι ε α σ} (i : ι) {o : S.Op} {k : S.Ans o → Prog S ε α} {a : S.Ans o}
      {s' : σ} (hi : c.thread i = some (.op o k)) (ha : W.answer i c.state o a s') :
      Step W c ⟨Function.update c.thread i (some (k a)), s'⟩
  | kill {c : Config S ι ε α σ} (i : ι) :
      Step W c ⟨Function.update c.thread i none, c.state⟩
  | drift {c : Config S ι ε α σ} {s' : σ} (hd : W.drift c.state s') : Step W c ⟨c.thread, s'⟩

/-- A step of thread `i`. -/
def StepBy (W : World S ι σ) (i : ι) (c c' : Config S ι ε α σ) : Prop :=
  ∃ o k a, c.thread i = some (.op o k) ∧ W.answer i c.state o a c'.state ∧
    c'.thread = Function.update c.thread i (some (k a))

/-- Any number of steps, of any threads in any order. -/
abbrev Reach (W : World S ι σ) : Config S ι ε α σ → Config S ι ε α σ → Prop :=
  Relation.ReflTransGen (Step W)

/-- Thread `i` has ended with the outcome `r`. -/
def Config.Ended (c : Config S ι ε α σ) (i : ι) (r : Except ε α) : Prop :=
  c.thread i = some (.done r)

namespace Step

/-- A thread that has ended stays ended, unless it is killed. -/
theorem ended {c c' : Config S ι ε α σ} (hs : Step W c c') {i : ι} {r : Except ε α}
    (h : c.Ended i r) : c'.Ended i r ∨ c'.thread i = none := by
  cases hs with
  | exec j hj _ =>
    by_cases e : i = j
    · -- a thread that has ended asks for nothing any more
      subst e
      rw [Config.Ended, hj] at h
      exact absurd h (by simp)
    · exact Or.inl ((Function.update_of_ne e _ _).trans h)
  | kill j =>
    by_cases e : i = j
    · subst e; exact Or.inr (Function.update_self _ _ _)
    · exact Or.inl ((Function.update_of_ne e _ _).trans h)
  | drift _ => exact Or.inl h

end Step

/-- A step of a thread is a step. -/
theorem StepBy.step {c c' : Config S ι ε α σ} {i : ι} (h : StepBy W i c c') : Step W c c' := by
  obtain ⟨o, k, a, hi, ha, ht⟩ := h
  obtain ⟨t, s⟩ := c'
  obtain rfl : t = _ := ht
  exact .exec i hi ha

/-- Drifting is a way of reaching. -/
theorem Reach.drifts {c : Config S ι ε α σ} {s : σ}
    (h : Relation.ReflTransGen W.drift c.state s) : Reach W c ⟨c.thread, s⟩ := by
  induction h with
  | refl => exact .refl
  | tail _ hd ih => exact ih.tail (.drift hd)

/-! ### Deterministic runs as executions -/

/-- Along its run on `p` from `s`, the handler `h` gives thread `i` only answers that the
world allows, possibly after some drifting. -/
def Lawful (W : World S ι σ) (i : ι) (h : σ → (o : S.Op) → S.Ans o × σ) :
    Prog S ε α → σ → Prop
  | .done _, _ => True
  | .op o k, s =>
    (∃ s₁, Relation.ReflTransGen W.drift s s₁ ∧ W.answer i s₁ o (h s o).1 (h s o).2) ∧
      Lawful W i h (k (h s o).1) (h s o).2

omit [DecidableEq ι] in
/-- A handler that gives the world's answers, as long as it stays in `T`, is lawful there. -/
theorem Lawful.of_invariant {i : ι} {h : σ → (o : S.Op) → S.Ans o × σ} {T : σ → Prop}
    (ha : ∀ s o, T s →
      (∃ s₁, Relation.ReflTransGen W.drift s s₁ ∧ W.answer i s₁ o (h s o).1 (h s o).2) ∧
        T (h s o).2) (p : Prog S ε α) {s : σ} (hs : T s) :
    Lawful W i h p s := by
  induction p generalizing s with
  | done r => trivial
  | op o k ih => exact ⟨(ha s o hs).1, ih _ (ha s o hs).2⟩

omit [DecidableEq ι] in
/-- A handler that gives the world's answers is lawful on every program. -/
theorem Lawful.of_answer {i : ι} {h : σ → (o : S.Op) → S.Ans o × σ}
    (ha : ∀ s o, W.answer i s o (h s o).1 (h s o).2) (p : Prog S ε α) (s : σ) :
    Lawful W i h p s :=
  of_invariant (T := fun _ => True) (fun s o _ => ⟨⟨s, .refl, ha s o⟩, trivial⟩) p trivial

omit [DecidableEq ι] in
/-- So is one that gives them to the operations of a run. -/
theorem Lawful.of_steps {i : ι} {h : σ → (o : S.Op) → S.Ans o × σ} {p : Prog S ε α} {s : σ}
    (ha : ∀ x ∈ p.steps h s, W.answer i x.1 x.2 (h x.1 x.2).1 (h x.1 x.2).2) :
    Lawful W i h p s := by
  induction p generalizing s with
  | done r => trivial
  | op o k ih =>
    exact ⟨⟨s, .refl, ha (s, o) List.mem_cons_self⟩,
      ih _ fun x hx => ha x (List.mem_cons_of_mem _ hx)⟩

/-- A lawful deterministic run of one thread is an execution of the configuration. -/
theorem Lawful.reach {i : ι} {h : σ → (o : S.Op) → S.Ans o × σ} {p : Prog S ε α} {s : σ}
    (hl : Lawful W i h p s) (t : ι → Option (Prog S ε α)) (ht : t i = some p) :
    Reach W ⟨t, s⟩ ⟨Function.update t i (some (.done (p.eval h s).1)), (p.eval h s).2⟩ := by
  -- on the program, for any other threads
  induction p generalizing s t with
  | done r =>
    rw [Prog.eval_done, ← ht, Function.update_eq_self]
  | op o k ih =>
    obtain ⟨⟨s₁, hd, ha⟩, hk⟩ := hl
    -- the world drifts, the operation is answered, and the rest is an execution by induction
    have h₁ : Reach W ⟨t, s⟩ ⟨t, s₁⟩ := Reach.drifts (c := ⟨t, s⟩) hd
    have h₂ : Reach W ⟨t, s⟩ ⟨Function.update t i (some (k (h s o).1)), (h s o).2⟩ :=
      h₁.tail (.exec i ht ha)
    have h₃ := ih (h s o).1 hk (Function.update t i (some (k (h s o).1)))
      (Function.update_self _ _ _)
    rw [Function.update_idem] at h₃
    exact h₂.trans h₃

/-- The execution that a lawful deterministic run is, by where it ends. -/
theorem Lawful.exists_reach {i : ι} {h : σ → (o : S.Op) → S.Ans o × σ} {p : Prog S ε α} {s : σ}
    (hl : Lawful W i h p s) {t : ι → Option (Prog S ε α)} (ht : t i = some p) :
    ∃ c, Reach W ⟨t, s⟩ c ∧ c.Ended i (p.eval h s).1 ∧ c.state = (p.eval h s).2 ∧
      ∀ j, j ≠ i → c.thread j = t j :=
  ⟨_, hl.reach t ht, Function.update_self _ _ _, rfl, fun _ hj => Function.update_of_ne hj _ _⟩

end Effect
