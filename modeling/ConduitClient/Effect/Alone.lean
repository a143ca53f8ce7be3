import ConduitClient.Effect.Contract

/-!
# What a thread can do by itself

A contract says what a program does whatever it is answered. Here the answers are chosen:
`Can` says that a thread, taking every step itself, can bring its program to an outcome. It is
derived along the program, as a triple is, and the rules follow those of
`ConduitClient/Effect/Contract.lean`. `Can.reach` turns it into an execution in which no other
thread moves.
-/

namespace Effect

variable {S : Interface} {ι σ ε ε' α β : Type}

/-- Thread `i` can run `p` from `s`, by itself, to an outcome in `Q`. -/
def Can (W : World S ι σ) (i : ι) (Q : Except ε α → σ → Prop) : Prog S ε α → σ → Prop
  | .done r, s => Q r s
  | .op o k, s => ∃ a s', W.answer i s o a s' ∧ Can W i Q (k a) s'

namespace Can

variable {W : World S ι σ} {i : ι} {s : σ}

/-- The outcome of the first part is where the rest starts. -/
theorem handle {Q : Except ε α → σ → Prop} {Q' : Except ε' β → σ → Prop} {p : Prog S ε α}
    {f : Except ε α → Prog S ε' β} (h : Can W i Q p s)
    (hf : ∀ r s', Q r s' → Can W i Q' (f r) s') : Can W i Q' (p.handle f) s := by
  -- on the program, with the answers that were chosen for it
  induction p generalizing s with
  | done r => exact hf r s h
  | op o k ih =>
    obtain ⟨a, s', ha, hk⟩ := h
    exact ⟨a, s', ha, ih a hk⟩

/-- A weaker outcome. -/
theorem mono {Q Q' : Except ε α → σ → Prop} {p : Prog S ε α} (h : Can W i Q p s)
    (hQ : ∀ r s', Q r s' → Q' r s') : Can W i Q' p s := by
  rw [← p.handle_eq_self]
  exact h.handle hQ

variable {M : α → σ → Prop} {p : Prog S ε α}

/-- Sequencing after a program that can return. -/
theorem bind {Q : Except ε β → σ → Prop} {f : α → Prog S ε β}
    (h : Can W i (Contract.Returns M) p s) (hf : ∀ a s', M a s' → Can W i Q (f a) s') :
    Can W i Q (p >>= f) s :=
  h.handle fun r s' hr =>
    match r with
    | .ok a => hf a s' hr
    | .error _ => hr.elim

/-- A guarded program that can return. -/
theorem tryCatch {f : ε → Prog S ε α} (h : Can W i (Contract.Returns M) p s) :
    Can W i (Contract.Returns M) (p.tryCatch f) s :=
  h.handle fun r _ hr =>
    match r with
    | .ok _ => hr
    | .error _ => hr.elim

/-- What runs finally can return as well. -/
theorem tryFinally {N : α → σ → Prop} {q : Prog S ε Unit}
    (h : Can W i (Contract.Returns M) p s)
    (hq : ∀ a s', M a s' → Can W i (Contract.Returns fun _ => N a) q s') :
    Can W i (Contract.Returns N) (p.tryFinally q) s := by
  refine h.handle fun r s' hr => ?_
  cases r with
  | error e => exact hr.elim
  | ok a => exact (hq a s' hr).bind fun _ _ hn => hn

/-- One operation, with an answer of one's choice. -/
theorem perform {o : S.Op} {M : S.Ans o → σ → Prop} {a : S.Ans o} {s' : σ}
    (ha : W.answer i s o a s') (hM : M a s') :
    Can W i (Contract.Returns M) (Prog.perform o : Prog S ε (S.Ans o)) s :=
  ⟨a, s', ha, hM⟩

/-- An outcome that is passed on as the outcome of the program. -/
theorem orRaise {p : Prog S ε (Except ε α)} {a : α} {s' : σ} (hM : M a s')
    (h : Can W i (Contract.Returns fun r t => r = .ok a ∧ t = s') p s) :
    Can W i (Contract.Returns M) (p >>= Prog.ofExcept) s :=
  h.bind fun r t hrt => by
    obtain ⟨rfl, rfl⟩ := hrt
    exact hM

/-- A loop over a list: `P` is indexed by the elements already done. -/
theorem forEach {γ : Type} {f : γ → Prog S ε Unit} {P : List γ → σ → Prop}
    (hf : ∀ pre a s, P pre s → Can W i (Contract.Returns fun _ => P (pre ++ [a])) (f a) s)
    (pre todo : List γ) {s : σ} (hs : P pre s) :
    Can W i (Contract.Returns fun _ => P (pre ++ todo)) (Prog.forEach f todo) s := by
  induction todo generalizing pre s with
  | nil =>
    show P (pre ++ []) s
    rw [List.append_nil]
    exact hs
  | cons a todo ih =>
    rw [Prog.forEach_cons, List.append_cons]
    exact (hf pre a s hs).bind fun _ _ hs' => ih (pre ++ [a]) hs'

variable [DecidableEq ι]

/-- **Soundness.** What a thread can do by itself is an execution of its steps alone. -/
theorem reach {Q : Except ε α → σ → Prop} {c : Config S ι ε α σ} {p : Prog S ε α}
    (hp : c.thread i = some p) (h : Can W i Q p c.state) :
    ∃ c' r, Relation.ReflTransGen (StepBy W i) c c' ∧ c'.Ended i r ∧ Q r c'.state ∧
      ∀ j, j ≠ i → c'.thread j = c.thread j := by
  induction p generalizing c with
  | done r => exact ⟨c, r, .refl, hp, h, fun _ _ => rfl⟩
  | op o k ih =>
    obtain ⟨a, s', ha, hk⟩ := h
    -- the configuration after this answer, from which the rest is reached
    let d : Config S ι ε α σ := ⟨Function.update c.thread i (some (k a)), s'⟩
    have hd : StepBy W i c d := ⟨o, k, a, hp, ha, rfl⟩
    obtain ⟨c', r, hreach, hend, hQ, hothers⟩ := ih a (c := d) (Function.update_self _ _ _) hk
    refine ⟨c', r, .head hd hreach, hend, hQ, fun j hj => ?_⟩
    -- no step of the run is one of thread `j`
    rw [hothers j hj]
    exact Function.update_of_ne hj _ _

end Can

/-- Steps of one thread are steps. -/
theorem Reach.of_stepBy [DecidableEq ι] {W : World S ι σ} {i : ι} {c c' : Config S ι ε α σ}
    (h : Relation.ReflTransGen (StepBy W i) c c') : Reach W c c' :=
  h.lift id fun _ _ hs => hs.step

end Effect
