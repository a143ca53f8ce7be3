import ConduitClient.Effect.World

/-!
# Rely and guarantee

Each thread of a shared world is verified alone, against a contract: an invariant of the
world, what the thread *relies* on the others to respect between its own operations, and
what it *guarantees* about its own operations. `Contract` carries the proofs that the parts
fit together, so that a set of conditions which interfere cannot be put to use.

`Keeps` is the judgement on one program, by recursion on it; `Triple` is its form with a
precondition, for which the rules of this file give one step of a proof each. The
soundness theorem `Holds.reach` says that threads which keep their contracts alone keep
them in every interleaving.
-/

namespace Effect

variable {S : Interface} {ι σ : Type}

/-- The terms on which the threads of a world run together. -/
structure Contract (W : World S ι σ) where
  /-- Holds in every state between two operations. -/
  inv : σ → Prop
  /-- What thread `i` may count on while it is not running. -/
  rely : ι → σ → σ → Prop
  /-- What every operation of thread `i` respects. -/
  guar : ι → σ → σ → Prop
  rely_refl : ∀ i s, rely i s s
  rely_trans : ∀ {i s s' s''}, rely i s s' → rely i s' s'' → rely i s s''
  /-- The guarantee of a thread is what every other thread relies on. -/
  compat : ∀ {i j s s'}, i ≠ j → inv s → inv s' → guar i s s' → rely j s s'
  drift_inv : ∀ {s s'}, inv s → W.drift s s' → inv s'
  drift_rely : ∀ {i s s'}, inv s → W.drift s s' → rely i s s'

namespace Contract

variable {W : World S ι σ} {ε ε' α β : Type}

/-- From `s`, thread `i` runs `p` within the contract and ends in `Q`. -/
def Keeps (C : Contract W) (i : ι) (Q : Except ε α → σ → Prop) : Prog S ε α → σ → Prop
  | .done r, s => ∀ s', C.inv s' → C.rely i s s' → Q r s'
  | .op o k, s => ∀ s', C.inv s' → C.rely i s s' → ∀ a s'', W.answer i s' o a s'' →
      C.inv s'' ∧ C.guar i s' s'' ∧ Keeps C i Q (k a) s''

/-- A postcondition by cases: `M` for a value, `E` for an exception. -/
def Post (M : α → σ → Prop) (E : ε → σ → Prop) : Except ε α → σ → Prop
  | .ok a => M a
  | .error e => E e

/-- A postcondition for a value. Nothing is claimed of an exception. -/
abbrev Yields (M : α → σ → Prop) : Except ε α → σ → Prop := Post M fun _ _ => True

/-- A postcondition for a program that does not raise. -/
abbrev Returns (M : α → σ → Prop) : Except ε α → σ → Prop := Post M fun _ _ => False

/-- `P` survives what thread `i` relies on. -/
def Stable (C : Contract W) (i : ι) (P : σ → Prop) : Prop :=
  ∀ ⦃s s'⦄, C.inv s → C.inv s' → C.rely i s s' → P s → P s'

variable {C : Contract W} {i : ι} {Q Q' : Except ε α → σ → Prop}

/-- What does not depend on the state is stable; so are a postcondition by cases, a conjunction, a
disjunction and an existential statement whose parts are. -/
theorem Stable.const (φ : Prop) : C.Stable i fun _ => φ := fun _ _ _ _ _ h => h

theorem Stable.post {M : α → σ → Prop} {E : ε → σ → Prop} (hM : ∀ a, C.Stable i (M a))
    (hE : ∀ e, C.Stable i (E e)) (r : Except ε α) : C.Stable i (Post M E r) := by
  cases r with
  | ok a => exact hM a
  | error e => exact hE e

theorem Stable.yields {M : α → σ → Prop} (hM : ∀ a, C.Stable i (M a)) (r : Except ε α) :
    C.Stable i (Yields M r) :=
  post hM (fun _ => const True) r

theorem Stable.and {P P' : σ → Prop} (h : C.Stable i P) (h' : C.Stable i P') :
    C.Stable i fun s => P s ∧ P' s :=
  fun _ _ hI hI' hr hs => ⟨h hI hI' hr hs.1, h' hI hI' hr hs.2⟩

theorem Stable.or {P P' : σ → Prop} (h : C.Stable i P) (h' : C.Stable i P') :
    C.Stable i fun s => P s ∨ P' s :=
  fun _ _ hI hI' hr hs => hs.imp (h hI hI' hr) (h' hI hI' hr)

theorem Stable.exists {γ : Type} {P : γ → σ → Prop} (h : ∀ x, C.Stable i (P x)) :
    C.Stable i fun s => ∃ x, P x s :=
  fun _ _ hI hI' hr ⟨x, hx⟩ => ⟨x, h x hI hI' hr hx⟩

/-- What a thread keeps to is not disturbed by what it relies on. -/
theorem Keeps.rely {p : Prog S ε α} {s s' : σ} (h : C.Keeps i Q p s) (hr : C.rely i s s') :
    C.Keeps i Q p s' := by
  -- both cases begin with anything that the thread relies on, so one more move makes no difference
  cases p with
  | done r => exact fun s'' hI hr' => h s'' hI (C.rely_trans hr hr')
  | op o k => exact fun s'' hI hr' => h s'' hI (C.rely_trans hr hr')

/-- A weaker postcondition, where the invariant may be used. -/
theorem Keeps.mono {p : Prog S ε α} {s : σ} (h : C.Keeps i Q p s)
    (hQ : ∀ r s', C.inv s' → Q r s' → Q' r s') : C.Keeps i Q' p s := by
  induction p generalizing s with
  | done r => exact fun s' hI hr => hQ r s' hI (h s' hI hr)
  | op o k ih =>
    intro s' hI hr a s'' ha
    obtain ⟨hI', hg, hk⟩ := h s' hI hr a s'' ha
    exact ⟨hI', hg, ih a hk⟩

/-- The outcome of `p` is known to satisfy `Q`, and the continuation starts there. -/
theorem Keeps.handle {p : Prog S ε α} {s : σ} {f : Except ε α → Prog S ε' β}
    {Q' : Except ε' β → σ → Prop} (hI : C.inv s) (h : C.Keeps i Q p s)
    (hf : ∀ r s', C.inv s' → Q r s' → C.Keeps i Q' (f r) s') :
    C.Keeps i Q' (p.handle f) s := by
  induction p generalizing s with
  -- the continuation starts in the very state in which the program is done
  | done r => exact hf r s hI (h s hI (C.rely_refl i s))
  | op o k ih =>
    intro s' hI' hr a s'' ha
    obtain ⟨hI'', hg, hk⟩ := h s' hI' hr a s'' ha
    exact ⟨hI'', hg, ih a hI'' hk⟩

/-- **Frame.** What no operation of a program touches, and nothing beside, is kept by it. -/
theorem Keeps.frame {φ : S.Op → Prop} {P : σ → Prop} {p : Prog S ε α} {s : σ}
    (h : C.Keeps i Q p s) (hp : p.Only φ) (hP : C.Stable i P)
    (hφ : ∀ s o a s', φ o → C.inv s → W.answer i s o a s' → P s → P s') (hI : C.inv s)
    (hs : P s) : C.Keeps i (fun r s => Q r s ∧ P s) p s := by
  induction p generalizing s with
  | done r => exact fun s' hI' hr => ⟨h s' hI' hr, hP hI hI' hr hs⟩
  | op o k ih =>
    intro s' hI' hr a s'' ha
    -- the others leave `P` alone before the operation, and the operation does
    obtain ⟨hI'', hg, hk⟩ := h s' hI' hr a s'' ha
    exact ⟨hI'', hg, ih a hk (hp.2 a) hI'' (hφ s' o a s'' hp.1 hI' ha (hP hI hI' hr hs))⟩

/-- What the thread and all others respect is kept by every program. -/
theorem Keeps.and_kept {P : σ → Prop} {p : Prog S ε α} {s : σ} (h : C.Keeps i Q p s)
    (hP : C.Stable i P)
    (hG : ∀ s s', C.inv s → C.inv s' → C.guar i s s' → P s → P s') (hI : C.inv s) (hs : P s) :
    C.Keeps i (fun r s => Q r s ∧ P s) p s := by
  induction p generalizing s with
  | done r => exact fun s' hI' hr => ⟨h s' hI' hr, hP hI hI' hr hs⟩
  | op o k ih =>
    intro s' hI' hr a s'' ha
    obtain ⟨hI'', hg, hk⟩ := h s' hI' hr a s'' ha
    exact ⟨hI'', hg, ih a hk hI'' (hG s' s'' hI' hI'' hg (hP hI hI' hr hs))⟩

/-- A contract is kept where there are fewer answers, and where the thread may count on more. -/
theorem Keeps.transfer {W' : World S ι σ} {C' : Contract W'} {p : Prog S ε α} {s : σ}
    (h : C.Keeps i Q p s) (hinv : ∀ s, C'.inv s ↔ C.inv s)
    (hrely : ∀ s s', C'.rely i s s' → C.rely i s s')
    (hguar : ∀ s s', C.guar i s s' → C'.guar i s s')
    (hans : ∀ s o a s', W'.answer i s o a s' → W.answer i s o a s') : C'.Keeps i Q p s := by
  induction p generalizing s with
  | done r => exact fun s' hI hr => h s' ((hinv s').mp hI) (hrely s s' hr)
  | op o k ih =>
    intro s' hI hr a s'' ha
    obtain ⟨hI', hg, hk⟩ :=
      h s' ((hinv s').mp hI) (hrely s s' hr) a s'' (hans s' o a s'' ha)
    exact ⟨(hinv s'').mpr hI', hguar s' s'' hg, ih a hk⟩

/-! ### Rules for one program -/

/-- From every state in `P`, thread `i` runs `p` within the contract and ends in `Q`. -/
def Triple (C : Contract W) (i : ι) (P : σ → Prop) (p : Prog S ε α)
    (Q : Except ε α → σ → Prop) : Prop :=
  ∀ s, C.inv s → P s → C.Keeps i Q p s

namespace Triple

variable {P P' : σ → Prop} {p : Prog S ε α}

/-- A stronger precondition and a weaker postcondition, where the invariant may be used. -/
theorem conseq (h : C.Triple i P p Q) (hP : ∀ s, C.inv s → P' s → P s)
    (hQ : ∀ r s, C.inv s → Q r s → Q' r s) : C.Triple i P' p Q' :=
  fun s hI hs => (h s hI (hP s hI hs)).mono hQ

/-- A stronger precondition. -/
theorem pre (h : C.Triple i P p Q) (hP : ∀ s, P' s → P s) : C.Triple i P' p Q :=
  h.conseq (fun s _ => hP s) fun _ _ _ hq => hq

/-- What no operation of the program touches holds after it if it does before. -/
theorem frame {φ : S.Op → Prop} {R : σ → Prop} (h : C.Triple i P p Q) (hp : p.Only φ)
    (hR : C.Stable i R)
    (hφ : ∀ s o a s', φ o → C.inv s → W.answer i s o a s' → R s → R s') :
    C.Triple i (fun s => P s ∧ R s) p fun r s => Q r s ∧ R s :=
  fun s hI hs => (h s hI hs.1).frame hp hR hφ hI hs.2

/-- What the thread and all others respect holds after a program if it does before. -/
theorem and_kept {R : σ → Prop} (h : C.Triple i P p Q) (hR : C.Stable i R)
    (hG : ∀ s s', C.inv s → C.inv s' → C.guar i s s' → R s → R s') :
    C.Triple i (fun s => P s ∧ R s) p fun r s => Q r s ∧ R s :=
  fun s hI hs => (h s hI hs.1).and_kept hR hG hI hs.2

/-- The triple in a world with fewer answers, where the thread may count on more. -/
theorem transfer {W' : World S ι σ} {C' : Contract W'} (h : C.Triple i P p Q)
    (hinv : ∀ s, C'.inv s ↔ C.inv s) (hrely : ∀ s s', C'.rely i s s' → C.rely i s s')
    (hguar : ∀ s s', C.guar i s s' → C'.guar i s s')
    (hans : ∀ s o a s', W'.answer i s o a s' → W.answer i s o a s') : C'.Triple i P p Q :=
  fun s hI hs => (h s ((hinv s).mp hI) hs).transfer hinv hrely hguar hans

/-- What one operation does to a part of the state that the triple leaves open. -/
theorem op_and {o : S.Op} {r : S.Ans o → Except ε α} {R : σ → Prop} {N : Except ε α → σ → Prop}
    (h : C.Triple i P (.op o fun a => .done (r a)) Q) (hR : C.Stable i R)
    (hN : ∀ r, C.Stable i (N r))
    (hstep : ∀ s a s', C.inv s → W.answer i s o a s' → R s → N (r a) s') :
    C.Triple i (fun s => P s ∧ R s) (.op o fun a => .done (r a)) fun r s => Q r s ∧ N r s := by
  intro s hI hs s' hI' hr a s'' ha
  obtain ⟨hI'', hg, hk⟩ := h s hI hs.1 s' hI' hr a s'' ha
  -- `R` is still there when the operation is answered, and `N` from then on
  have hn := hstep s' a s'' hI' ha (hR hI hI' hr hs.2)
  exact ⟨hI'', hg, fun t ht hr' => ⟨hk t ht hr', hN _ hI'' ht hr' hn⟩⟩

/-- A weaker postcondition. -/
theorem weaken {M N : α → σ → Prop} {E E' : ε → σ → Prop} (h : C.Triple i P p (Post M E))
    (hM : ∀ a s, M a s → N a s) (hE : ∀ e s, E e s → E' e s) : C.Triple i P p (Post N E') := by
  refine h.conseq (fun _ _ hs => hs) fun r s _ hq => ?_
  cases r with
  | ok a => exact hM a s hq
  | error e => exact hE e s hq

/-- A program that is done owes its postcondition in every state it may be looked at. -/
theorem done {r : Except ε α} (hP : C.Stable i P)
    (h : ∀ s, C.inv s → P s → Q r s) : C.Triple i P (.done r) Q :=
  fun _ hI hs s' hI' hr => h s' hI' (hP hI hI' hr hs)

/-- The rule from which those for sequencing, `except` and `finally` follow. -/
theorem handle {f : Except ε α → Prog S ε' β} {Q' : Except ε' β → σ → Prop}
    (h : C.Triple i P p Q) (hf : ∀ r, C.Triple i (Q r) (f r) Q') :
    C.Triple i P (p.handle f) Q' :=
  fun s hI hs => (h s hI hs).handle hI fun r s' hI' hq => hf r s' hI' hq

/-- Sequencing: the exception of the first part is the exception of the whole. -/
theorem bind {f : α → Prog S ε β} {Q' : Except ε β → σ → Prop} (h : C.Triple i P p Q)
    (hf : ∀ a, C.Triple i (Q (.ok a)) (f a) Q')
    (he : ∀ e, C.Triple i (Q (.error e)) (.done (.error e)) Q') :
    C.Triple i P (p >>= f) Q' :=
  h.handle fun
    | .ok a => hf a
    | .error e => he e

/-- Sequencing, when an exception is treated alike all the way. -/
theorem bind_post {M : α → σ → Prop} {N : β → σ → Prop} {E : ε → σ → Prop}
    {f : α → Prog S ε β} (hE : ∀ e, C.Stable i (E e)) (h : C.Triple i P p (Post M E))
    (hf : ∀ a, C.Triple i (M a) (f a) (Post N E)) : C.Triple i P (p >>= f) (Post N E) :=
  h.bind hf fun e => done (hE e) fun _ _ h => h

/-- Sequencing, when nothing is claimed of an exception. -/
theorem bind_yields {M : α → σ → Prop} {N : β → σ → Prop} {f : α → Prog S ε β}
    (h : C.Triple i P p (Yields M)) (hf : ∀ a, C.Triple i (M a) (f a) (Yields N)) :
    C.Triple i P (p >>= f) (Yields N) :=
  bind_post (fun _ => Stable.const True) h hf

/-- Sequencing, when the first part does not raise. -/
theorem bind_returns {M : α → σ → Prop} {f : α → Prog S ε β} {Q' : Except ε β → σ → Prop}
    (h : C.Triple i P p (Returns M)) (hf : ∀ a, C.Triple i (M a) (f a) Q') :
    C.Triple i P (p >>= f) Q' :=
  h.bind hf fun _ _ _ h => h.elim

/-- A value that is returned. -/
theorem yield {M : α → σ → Prop} {a : α} (hP : C.Stable i P) (h : ∀ s, P s → M a s) :
    C.Triple i P (pure a : Prog S ε α) (Yields M) :=
  done hP fun s _ hs => h s hs

/-- A computation without side effects. -/
theorem ofExcept {M : α → σ → Prop} {r : Except ε α} (hP : C.Stable i P)
    (h : ∀ a s, r = .ok a → P s → M a s) : C.Triple i P (Prog.ofExcept r) (Yields M) := by
  cases r with
  | ok a => exact yield hP fun s hs => h a s rfl hs
  | error e => exact done hP fun _ _ _ => trivial

/-- Of an exception that is raised nothing is claimed. -/
theorem raise {M : α → σ → Prop} (e : ε) :
    C.Triple i (fun _ => True) (Prog.raise e : Prog S ε α) (Yields M) :=
  done (Stable.const True) fun _ _ _ => trivial

/-- A handler sees the exceptions only. -/
theorem tryCatch {f : ε → Prog S ε α} (h : C.Triple i P p Q)
    (hok : ∀ a, C.Triple i (Q (.ok a)) (.done (.ok a)) Q')
    (hf : ∀ e, C.Triple i (Q (.error e)) (f e) Q') : C.Triple i P (p.tryCatch f) Q' :=
  h.handle fun
    | .ok a => hok a
    | .error e => hf e

/-- What runs finally starts from the outcome of the first part, and an exception of it
becomes the outcome of the whole. -/
theorem tryFinally {q : Prog S ε Unit} (h : C.Triple i P p Q)
    (hq : ∀ r, C.Triple i (Q r) q (Post (fun _ => Q' r) fun e => Q' (.error e)))
    (hQ' : ∀ r, C.Stable i (Q' r)) : C.Triple i P (p.tryFinally q) Q' :=
  h.handle fun r => (hq r).handle fun
    | .ok _ => done (hQ' r) fun _ _ h => h
    | .error e => done (hQ' (.error e)) fun _ _ h => h

/-- One operation. The precondition has to survive until the operation is answered, and
the postcondition from then on. -/
theorem op {o : S.Op} {k : S.Ans o → Prog S ε α} {M : S.Ans o → σ → Prop}
    (hP : C.Stable i P)
    (ho : ∀ s a s', C.inv s → P s → W.answer i s o a s' →
      C.inv s' ∧ C.guar i s s' ∧ M a s')
    (hk : ∀ a, C.Triple i (M a) (k a) Q) : C.Triple i P (.op o k) Q := by
  intro s hI hs s' hI' hr a s'' ha
  obtain ⟨hI'', hg, hm⟩ := ho s' a s'' hI' (hP hI hI' hr hs) ha
  exact ⟨hI'', hg, hk a s'' hI'' hm⟩

/-- One operation by itself. -/
theorem perform {o : S.Op} {M : S.Ans o → σ → Prop} (hP : C.Stable i P)
    (hM : ∀ a, C.Stable i (M a))
    (ho : ∀ s a s', C.inv s → P s → W.answer i s o a s' →
      C.inv s' ∧ C.guar i s s' ∧ M a s') :
    C.Triple i P (Prog.perform o : Prog S ε (S.Ans o)) (Returns M) :=
  op hP ho fun a => done (hM a) fun _ _ h => h

/-- A fact that does not depend on the state. -/
theorem lift {φ : Prop} (h : φ → C.Triple i P p Q) : C.Triple i (fun s => φ ∧ P s) p Q :=
  fun s hI hs => h hs.1 s hI hs.2

/-- A precondition that holds of some `x`, which is fixed from then on. -/
theorem exists_elim {γ : Type} {P : γ → σ → Prop} (h : ∀ x, C.Triple i (P x) p Q) :
    C.Triple i (fun s => ∃ x, P x s) p Q :=
  fun s hI hs => hs.elim fun x hx => h x s hI hx

/-- An outcome that says nothing about the state. -/
theorem outcome {p : Prog S ε (Except ε' β)} {M E : σ → Prop}
    (h : C.Triple i P p (Returns fun _ => M)) (hE : ∀ s, M s → E s) :
    C.Triple i P p (Returns (Post (fun _ => M) fun _ => E)) := by
  refine h.weaken (fun r s hs => ?_) fun _ _ hf => hf
  cases r with
  | ok b => exact hs
  | error e => exact hE s hs

/-- An outcome that is passed on as the outcome of the program. -/
theorem orRaise {p : Prog S ε (Except ε α)} (hQ : ∀ r, C.Stable i (Q r))
    (hp : C.Triple i P p (Returns Q)) : C.Triple i P (p >>= Prog.ofExcept) Q :=
  hp.bind (fun r => done (hQ r) fun _ _ h => h) fun _ _ _ h => h.elim

/-- Where every operation keeps the contract, every program does. -/
theorem any (h : ∀ s o a s', C.inv s → W.answer i s o a s' → C.inv s' ∧ C.guar i s s')
    (p : Prog S ε α) : C.Triple i (fun _ => True) p fun _ _ => True := by
  intro s hI _
  induction p generalizing s with
  | done r => exact fun _ _ _ => trivial
  | op o k ih =>
    intro s' hI' _ a s'' ha
    obtain ⟨hI'', hg⟩ := h s' o a s'' hI' ha
    exact ⟨hI'', hg, ih a s'' hI''⟩

/-- One operation followed by the rest of the program. -/
theorem perform_bind {o : S.Op} {f : S.Ans o → Prog S ε α} {M : S.Ans o → σ → Prop}
    (hP : C.Stable i P)
    (ho : ∀ s a s', C.inv s → P s → W.answer i s o a s' →
      C.inv s' ∧ C.guar i s s' ∧ M a s')
    (hk : ∀ a, C.Triple i (M a) (f a) Q) : C.Triple i P (Prog.perform o >>= f) Q :=
  op hP ho hk

/-- A loop over a list: `P` is indexed by the elements already done, and an exception of
the body leaves the loop. -/
theorem forEach {γ : Type} {f : γ → Prog S ε Unit} {P : List γ → σ → Prop}
    {E : ε → σ → Prop} {whole : List γ} (hP : C.Stable i (P whole))
    (hE : ∀ e, C.Stable i (E e))
    (hf : ∀ pre a post, whole = pre ++ a :: post →
      C.Triple i (P pre) (f a) (Post (fun _ => P (pre ++ [a])) E)) :
    ∀ pre todo, whole = pre ++ todo →
      C.Triple i (P pre) (Prog.forEach f todo) (Post (fun _ => P whole) E) := by
  -- on the elements that are left; those before them are `pre`
  intro pre todo
  induction todo generalizing pre with
  | nil =>
    intro hw
    obtain rfl : whole = pre := by simpa using hw
    exact done hP fun s _ hs => hs
  | cons a todo ih =>
    intro hw
    refine bind (hf pre a todo hw) (fun _ => ih (pre ++ [a]) (by simp [hw])) fun e => ?_
    exact done (hE e) fun s _ hs => hs

end Triple

/-! ### Soundness -/

variable [DecidableEq ι]

/-- Every thread of the configuration keeps its contract from here on. -/
structure Holds (C : Contract W) (Q : ι → Except ε α → σ → Prop)
    (c : Config S ι ε α σ) : Prop where
  inv : C.inv c.state
  keeps : ∀ i p, c.thread i = some p → C.Keeps i (Q i) p c.state

variable {Q : ι → Except ε α → σ → Prop} {c c' : Config S ι ε α σ}

/-- No step of a configuration breaks a contract. -/
theorem Holds.step (h : C.Holds Q c) (hs : Step W c c') : C.Holds Q c' := by
  cases hs with
  | exec i hi ha =>
    obtain ⟨hI, hg, hk⟩ := h.keeps i _ hi c.state h.inv (C.rely_refl i _) _ _ ha
    refine ⟨hI, fun j p hj => ?_⟩
    by_cases e : j = i
    · subst e
      simp only [Function.update_self, Option.some.injEq] at hj
      subst hj
      exact hk
    · -- the other threads rely on what this operation guarantees
      have hj' : c.thread j = some p := (Function.update_of_ne e _ _).symm.trans hj
      exact (h.keeps j p hj').rely (C.compat (Ne.symm e) h.inv hI hg)
  | kill i =>
    -- a killed thread owes nothing, and the state is as before
    refine ⟨h.inv, fun j p hj => ?_⟩
    by_cases e : j = i
    · subst e
      simp [Function.update_self] at hj
    · exact h.keeps j p ((Function.update_of_ne e _ _).symm.trans hj)
  | drift hd =>
    -- a move of the world keeps the invariant, and every thread relies on it
    exact ⟨C.drift_inv h.inv hd, fun j p hj =>
      (h.keeps j p hj).rely (C.drift_rely h.inv hd)⟩

/-- **Soundness.** Threads that keep their contracts alone keep them in every interleaving. -/
theorem Holds.reach (h : C.Holds Q c) (hr : Reach W c c') : C.Holds Q c' := by
  induction hr with
  | refl => exact h
  | tail _ hs ih => exact ih.step hs

omit [DecidableEq ι] in
/-- The postcondition of a thread that has ended. -/
theorem Holds.ended (h : C.Holds Q c) {i : ι} {r : Except ε α} (hr : c.Ended i r) :
    Q i r c.state :=
  h.keeps i _ hr c.state h.inv (C.rely_refl i _)

/-- What a step of a well-behaved configuration does to the state: nothing, what some
thread guarantees, or a drift. -/
theorem Holds.step_cases (h : C.Holds Q c) (hs : Step W c c') :
    c'.state = c.state ∨ (∃ i, C.guar i c.state c'.state) ∨ W.drift c.state c'.state := by
  cases hs with
  | exec i hi ha =>
    obtain ⟨-, hg, -⟩ := h.keeps i _ hi c.state h.inv (C.rely_refl i _) _ _ ha
    exact Or.inr (Or.inl ⟨i, hg⟩)
  | kill i => exact Or.inl rfl
  | drift hd => exact Or.inr (Or.inr hd)

omit [DecidableEq ι] in
/-- A step of a thread respects its guarantee. -/
theorem Holds.stepBy [DecidableEq ι] (h : C.Holds Q c) {i : ι} (hs : StepBy W i c c') :
    C.guar i c.state c'.state := by
  obtain ⟨o, k, a, hi, ha, -⟩ := hs
  exact (h.keeps i _ hi c.state h.inv (C.rely_refl i _) a _ ha).2.1

/-- A step as thread `i` sees it: it is a step that `i` relies on, or one of its own. -/
theorem Holds.step_view (h : C.Holds Q c) (hs : Step W c c') (i : ι) :
    (C.rely i c.state c'.state ∧ (c'.thread i = c.thread i ∨ c'.thread i = none)) ∨
      ∃ o k a, c.thread i = some (.op o k) ∧ W.answer i c.state o a c'.state ∧
        c'.thread i = some (k a) := by
  cases hs with
  | exec j hj ha =>
    by_cases e : i = j
    · subst e
      exact Or.inr ⟨_, _, _, hj, ha, Function.update_self _ _ _⟩
    · -- an operation of another thread is what `i` relies on
      obtain ⟨hI, hg, -⟩ := h.keeps j _ hj c.state h.inv (C.rely_refl j _) _ _ ha
      exact Or.inl ⟨C.compat (Ne.symm e) h.inv hI hg, Or.inl (Function.update_of_ne e _ _)⟩
  | kill j =>
    refine Or.inl ⟨C.rely_refl i _, ?_⟩
    by_cases e : i = j
    · subst e
      exact Or.inr (Function.update_self _ _ _)
    · exact Or.inl (Function.update_of_ne e _ _)
  | drift hd => exact Or.inl ⟨C.drift_rely h.inv hd, Or.inl rfl⟩

/-- A property that every guarantee and every drift preserves is never lost. -/
theorem Holds.preserved {P : σ → Prop} (h : C.Holds Q c)
    (hg : ∀ i s s', C.inv s → C.inv s' → C.guar i s s' → P s → P s')
    (hd : ∀ s s', C.inv s → W.drift s s' → P s → P s')
    (hr : Reach W c c') (hP : P c.state) : P c'.state := by
  induction hr with
  | refl => exact hP
  | tail hr hs ih =>
    -- the configuration before the last step is well-behaved
    have hb := h.reach hr
    rcases hb.step_cases hs with he | ⟨i, hi⟩ | hd'
    · rw [he]; exact ih
    · exact hg i _ _ hb.inv (hb.step hs).inv hi ih
    · exact hd _ _ hb.inv hd' ih

end Contract

end Effect
