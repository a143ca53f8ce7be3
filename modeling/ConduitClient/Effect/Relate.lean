import ConduitClient.Effect.Prog

/-!
# Two programs side by side

Two programs run against two handlers, from states that are related by `I`. `Prog.Sim` says that
they end alike: both return, with values related by `V`, or both raise the same exception, and
the states are related as before.

The rules are those of a relational logic with an invariant: one for each construct, and for
loops one over lists that are related element by element. Nothing relates the operations that
the two programs perform on the way, so that one side may perform more of them than the other
(`Sim.of_eval`).
-/

namespace Effect

variable {S T : Interface} {ε α β γ δ σ τ : Type}

/-- Outcomes that are alike: related values, or the same exception. -/
def Outcome (V : α → β → Prop) : Except ε α → Except ε β → Prop
  | .ok a, .ok b => V a b
  | .error e, .error e' => e = e'
  | _, _ => False

theorem Outcome.mono {V W : α → β → Prop} (h : ∀ a b, V a b → W a b) {r : Except ε α}
    {r' : Except ε β} (hr : Outcome V r r') : Outcome W r r' := by
  cases r <;> cases r' <;> first | exact hr | exact h _ _ hr

/-- Outcomes that are related by equality are equal. -/
theorem outcome_eq_iff {r r' : Except ε α} : Outcome Eq r r' ↔ r = r' := by
  cases r <;> cases r' <;> simp [Outcome]

namespace Prog

/-- From states that are related by `I` the programs end alike, in related states. -/
def Sim (h : σ → (o : S.Op) → S.Ans o × σ) (h' : τ → (o : T.Op) → T.Ans o × τ)
    (I : σ → τ → Prop) (p : Prog S ε α) (q : Prog T ε β) (V : α → β → Prop) : Prop :=
  ∀ s t, I s t → Outcome V (p.eval h s).1 (q.eval h' t).1 ∧ I (p.eval h s).2 (q.eval h' t).2

namespace Sim

variable {h : σ → (o : S.Op) → S.Ans o × σ} {h' : τ → (o : T.Op) → T.Ans o × τ}
  {I : σ → τ → Prop} {V : α → β → Prop} {W : γ → δ → Prop}

theorem mono {V' : α → β → Prop} {p : Prog S ε α} {q : Prog T ε β} (hp : Sim h h' I p q V)
    (hV : ∀ a b, V a b → V' a b) : Sim h h' I p q V' :=
  fun s t hs => ⟨(hp s t hs).1.mono hV, (hp s t hs).2⟩

/-- Both are done. -/
theorem done {r : Except ε α} {r' : Except ε β} (hr : Outcome V r r') :
    Sim h h' I (.done r) (.done r') V :=
  fun _ _ hs => ⟨hr, hs⟩

theorem pure {a : α} {b : β} (hab : V a b) :
    Sim h h' I (Pure.pure a : Prog S ε α) (Pure.pure b : Prog T ε β) V :=
  .done hab

theorem raise (e : ε) : Sim h h' I (Prog.raise e : Prog S ε α) (Prog.raise e : Prog T ε β) V :=
  .done rfl

/-- What is known of the two runs as a whole. -/
theorem of_eval {p : Prog S ε α} {q : Prog T ε β}
    (hp : ∀ s t, I s t → ∃ r s' r' t', p.eval h s = (r, s') ∧ q.eval h' t = (r', t') ∧
      Outcome V r r' ∧ I s' t') : Sim h h' I p q V := by
  intro s t hs
  obtain ⟨r, s', r', t', hs', ht', hr, hI⟩ := hp s t hs
  rw [hs', ht']
  exact ⟨hr, hI⟩

/-- One operation on each side. -/
theorem perform {o : S.Op} {o' : T.Op} {R : S.Ans o → T.Ans o' → Prop}
    (ho : ∀ s t, I s t → R (h s o).1 (h' t o').1 ∧ I (h s o).2 (h' t o').2) :
    Sim h h' I (Prog.perform o : Prog S ε (S.Ans o)) (Prog.perform o' : Prog T ε (T.Ans o')) R :=
  fun s t hs => ho s t hs

/-- Continuations that end alike from outcomes that are alike. -/
theorem handle {ε' : Type} {p : Prog S ε α} {q : Prog T ε β} {f : Except ε α → Prog S ε' γ}
    {g : Except ε β → Prog T ε' δ} (hp : Sim h h' I p q V)
    (hok : ∀ a b, V a b → Sim h h' I (f (.ok a)) (g (.ok b)) W)
    (herror : ∀ e, Sim h h' I (f (.error e)) (g (.error e)) W) :
    Sim h h' I (p.handle f) (q.handle g) W := by
  intro s t hs
  obtain ⟨hout, hI⟩ := hp s t hs
  rw [eval_handle, eval_handle]
  -- one returns and the other raises in no case
  generalize (p.eval h s).1 = r at hout
  generalize (q.eval h' t).1 = r' at hout
  cases r with
  | ok a =>
    cases r' with
    | ok b => exact hok a b hout _ _ hI
    | error e => exact hout.elim
  | error e =>
    cases r' with
    | ok b => exact hout.elim
    | error e' =>
      obtain rfl : e = e' := hout
      exact herror e _ _ hI

/-- Sequencing. -/
theorem bind {p : Prog S ε α} {q : Prog T ε β} {f : α → Prog S ε γ} {g : β → Prog T ε δ}
    (hp : Sim h h' I p q V) (hf : ∀ a b, V a b → Sim h h' I (f a) (g b) W) :
    Sim h h' I (p >>= f) (q >>= g) W :=
  hp.handle hf fun e => .raise e

/-- Handlers see the same exception. -/
theorem tryCatch {p : Prog S ε α} {q : Prog T ε β} {f : ε → Prog S ε α} {g : ε → Prog T ε β}
    (hp : Sim h h' I p q V) (hf : ∀ e, Sim h h' I (f e) (g e) V) :
    Sim h h' I (p.tryCatch f) (q.tryCatch g) V :=
  hp.handle (fun _ _ hab => .done hab) hf

theorem ofExcept {r : Except ε α} {r' : Except ε β} (hr : Outcome V r r') :
    Sim h h' I (Prog.ofExcept r) (Prog.ofExcept r') V :=
  .done hr

/-- Loops over lists that are related element by element. -/
theorem forEach {R : γ → δ → Prop} {f : γ → Prog S ε Unit} {g : δ → Prog T ε Unit}
    (hf : ∀ a b, R a b → Sim h h' I (f a) (g b) Eq) {as : List γ} {bs : List δ}
    (hab : List.Forall₂ R as bs) : Sim h h' I (Prog.forEach f as) (Prog.forEach g bs) Eq := by
  induction hab with
  | nil => exact .pure rfl
  | cons hr _ ih => exact (hf _ _ hr).bind fun _ _ _ => ih

/-- Loops over one list that collect what is related. -/
theorem collect {f : γ → Prog S ε α} {g : γ → Prog T ε β}
    (hf : ∀ a, Sim h h' I (f a) (g a) V) (as : List γ) :
    Sim h h' I (Prog.collect f as) (Prog.collect g as) (List.Forall₂ V) := by
  induction as with
  | nil => exact .pure .nil
  | cons a as ih =>
    refine (hf a).bind fun b c hbc => ih.bind fun bs cs hbcs => ?_
    exact .pure (.cons hbc hbcs)

end Sim

end Prog

end Effect
