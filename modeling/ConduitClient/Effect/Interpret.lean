import ConduitClient.Effect.Contract

/-!
# Operations that stand for programs

A program may be written over operations that are programs themselves, one level below.
`Prog.interpret` puts the program `f o` in the place of every operation `o`. The programs
`f o` do not raise: what an operation can fail with is part of its answer, so their
exceptions are in `Empty`. This is why interpretation commutes with everything a `try`
statement does (`Prog.interpret_handle`), and so with sequencing as well.

`Contract.Implements` is when the replacement is sound. The world below is seen through a
`Contract.View`, and what is known after every answer of `o` above is known at the end of
`f o` below. `Keeps.interpret` carries a proof about the program above down to the program
that runs.
-/

namespace Effect

/-- Two interfaces side by side. -/
@[reducible] def Interface.sum (S T : Interface) : Interface :=
  ⟨S.Op ⊕ T.Op, Sum.elim S.Ans T.Ans⟩

/-- A program of `T` for every operation of `S`. -/
abbrev Implementation (S T : Interface) := (o : S.Op) → Prog T Empty (S.Ans o)

namespace Prog

variable {S T : Interface} {ε ε' α β : Type}

/-- Run to the end, and return the outcome. -/
def attempt (p : Prog S ε α) : Prog S ε' (Except ε α) := p.handle fun r => done (.ok r)

/-- Continue on the value of a program that does not raise. -/
def onValue (f : α → Prog S ε β) : Except Empty α → Prog S ε β
  | .ok a => f a

/-- The program, with `f o` in the place of every operation `o`. -/
def interpret (f : Implementation S T) : Prog S ε α → Prog T ε α
  | done r => done r
  | op o k => (f o).handle (onValue fun a => (k a).interpret f)

variable (f : Implementation S T)

@[simp] theorem interpret_done (r : Except ε α) :
    (done r : Prog S ε α).interpret f = done r := rfl

@[simp] theorem interpret_pure (a : α) : (pure a : Prog S ε α).interpret f = pure a := rfl

@[simp] theorem interpret_op (o : S.Op) (k : S.Ans o → Prog S ε α) :
    (op o k).interpret f = (f o).handle (onValue fun a => (k a).interpret f) := rfl

/-- Interpreting the parts of a handled program. -/
theorem interpret_handle (p : Prog S ε α) (g : Except ε α → Prog S ε' β) :
    (p.handle g).interpret f = (p.interpret f).handle fun r => (g r).interpret f := by
  induction p with
  | done r => rfl
  | op o k ih =>
    rw [handle_op, interpret_op, interpret_op, handle_handle]
    -- both run `f o` first, which returns an answer
    congr 1
    funext r
    cases r with
    | ok a => exact ih a
    | error e => exact e.elim

theorem interpret_bind (p : Prog S ε α) (g : α → Prog S ε β) :
    (p >>= g).interpret f = p.interpret f >>= fun a => (g a).interpret f := by
  rw [bind_def, bind_def, interpret_handle]
  congr 1
  funext r
  cases r <;> rfl

theorem interpret_tryCatch (p : Prog S ε α) (h : ε → Prog S ε α) :
    (p.tryCatch h).interpret f = (p.interpret f).tryCatch fun e => (h e).interpret f := by
  rw [tryCatch, tryCatch, interpret_handle]
  congr 1
  funext r
  cases r <;> rfl

/-- A program asks below for what the programs of its operations ask for. -/
theorem Only.interpret {φ : S.Op → Prop} {ψ : T.Op → Prop} {p : Prog S ε α} (hp : p.Only φ)
    (hf : ∀ o, φ o → (f o).Only ψ) : (p.interpret f).Only ψ := by
  induction p with
  | done r => trivial
  | op o k ih =>
    refine (hf o hp.1).handle fun r => ?_
    cases r with
    | ok a => exact ih a (hp.2 a)
    | error e => exact e.elim

end Prog

namespace Contract

variable {S T : Interface} {ι σ τ ε ε' α : Type} {W : World S ι σ} {W' : World T ι τ}

/-- The outcome of a program is a value of `attempt`. -/
theorem Triple.attempt {C : Contract W} {i : ι} {P : σ → Prop} {p : Prog S ε α}
    {Q : Except ε α → σ → Prop} (h : C.Triple i P p Q) (hQ : ∀ r, C.Stable i (Q r)) :
    C.Triple i P (p.attempt : Prog S ε' (Except ε α)) (Returns Q) :=
  h.handle fun r => .done (hQ r) fun _ _ hq => hq

/-- How the world of `C'`, below, is seen from the world of `C`. -/
structure View (C : Contract W) (C' : Contract W') (i : ι) where
  view : τ → σ
  inv : ∀ {t}, C'.inv t → C.inv (view t)
  rely : ∀ {t t'}, C'.inv t → C'.inv t' → C'.rely i t t' → C.rely i (view t) (view t')

variable {C : Contract W} {C' : Contract W'} {i : ι}

/-- What holds after every answer that `o` may get above, holds at the end of `q` below. -/
def Implements (V : View C C' i) (o : S.Op) (q : Prog T Empty (S.Ans o)) : Prop :=
  ∀ (K : S.Ans o → σ → Prop), (∀ a, C.Stable i (K a)) → ∀ t, C'.inv t →
    (∀ s, C.inv s → C.rely i (V.view t) s → ∀ a s', W.answer i s o a s' →
      C.inv s' ∧ C.guar i s s' ∧ K a s') →
    C'.Keeps i (Returns fun a t' => K a (V.view t')) q t

/-- One operation below does for one above when its answers are answers of the other. -/
theorem Implements.one (V : View C C' i) {o : S.Op} {o' : T.Op} (g : T.Ans o' → S.Ans o)
    (h : ∀ t b t', C'.inv t → W'.answer i t o' b t' →
      W.answer i (V.view t) o (g b) (V.view t') ∧
        (C.inv (V.view t') → C.guar i (V.view t) (V.view t') → C'.inv t' ∧ C'.guar i t t')) :
    Implements V o (.op o' fun b => .done (.ok (g b))) := by
  intro K hK t hI hspec t₁ hI₁ hr₁ b t₂ ha
  -- the answer is seen from above, where it keeps the contract, and that is carried back
  obtain ⟨habove, hback⟩ := h t₁ b t₂ hI₁ ha
  obtain ⟨hinv, hguar, hk⟩ := hspec _ (V.inv hI₁) (V.rely hI hI₁ hr₁) _ _ habove
  obtain ⟨hI₂, hg⟩ := hback hinv hguar
  refine ⟨hI₂, hg, fun t₃ hI₃ hr₃ => ?_⟩
  -- what is known of it survives what the thread relies on below
  show K (g b) (V.view t₃)
  exact hK (g b) (V.inv hI₂) (V.inv hI₃) (V.rely hI₂ hI₃ hr₃) hk

/-- **Soundness of interpretation.** What a program keeps to above, its interpretation keeps
to below. -/
theorem Keeps.interpret (V : View C C' i) {f : Implementation S T}
    (hf : ∀ o, Implements V o (f o)) {Q : Except ε α → σ → Prop} {p : Prog S ε α} {t : τ}
    (hI : C'.inv t) (h : C.Keeps i Q p (V.view t)) :
    C'.Keeps i (fun r t' => Q r (V.view t')) (p.interpret f) t := by
  induction p generalizing t with
  | done r =>
    intro t' hI' hr
    exact h (V.view t') (V.inv hI') (V.rely hI hI' hr)
  | op o k ih =>
    -- what is known of the continuation above is what the operation has to establish
    have hop := hf o (fun a s => C.Keeps i Q (k a) s)
      (fun a _ _ _ _ hr hk => hk.rely hr) t hI h
    refine Keeps.handle hI hop fun r t' hI' hr => ?_
    cases r with
    | ok a => exact ih a hI' hr
    | error e => exact e.elim

/-- The same for triples. -/
theorem Triple.interpret (V : View C C' i) {f : Implementation S T}
    (hf : ∀ o, Implements V o (f o)) {P : σ → Prop} {Q : Except ε α → σ → Prop}
    {p : Prog S ε α} (h : C.Triple i P p Q) :
    C'.Triple i (fun t => P (V.view t)) (p.interpret f) fun r t => Q r (V.view t) :=
  fun t hI hP => Keeps.interpret V hf hI (h (V.view t) (V.inv hI) hP)

end Contract

end Effect
