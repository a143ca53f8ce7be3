import ConduitClient.Effect.Contract

/-!
# One state for several threads

A world for one thread becomes a world for several that work on the same state
(`World.shared`). The state keeps for each thread the record of what it has done, so that what is
known of a thread can be said of its record, and no other thread touches it.

The contract of such a world (`Contract.shared`) rests on an order of its states that every
operation follows. What goes up along the order is known for good (`stable_later`), and so is what
a record says (`stable_own`).
-/

namespace Effect

variable {S : Interface} {ι σ ε α : Type}

/-- An operation, with the answer to it. -/
abbrev Deed (S : Interface) : Type := (o : S.Op) × S.Ans o

/-- A state, with what each thread has done to it. -/
structure Recorded (ι : Type) (S : Interface) (σ : Type) where
  state : σ
  own : ι → List (Deed S)

variable [DecidableEq ι]

/-- Thread `i` gets to the state `s'` by the deed `d`. -/
def Recorded.after (s : Recorded ι S σ) (i : ι) (d : Deed S) (s' : σ) : Recorded ι S σ :=
  ⟨s', Function.update s.own i (s.own i ++ [d])⟩

theorem Recorded.after_own (s : Recorded ι S σ) (i : ι) (d : Deed S) (s' : σ) :
    (s.after i d s').own i = s.own i ++ [d] :=
  Function.update_self i _ _

theorem Recorded.after_own_of_ne (s : Recorded ι S σ) {i j : ι} (h : j ≠ i) (d : Deed S)
    (s' : σ) : (s.after i d s').own j = s.own j :=
  Function.update_of_ne h _ _

/-- The world `W` for several threads. What a thread has done may rule an answer out. -/
def World.shared (W : World S Unit σ) (ι : Type) [DecidableEq ι]
    (A : List (Deed S) → (o : S.Op) → S.Ans o → Prop) : World S ι (Recorded ι S σ) where
  answer i s o a s' :=
    A (s.own i) o a ∧ ∃ t, W.answer () s.state o a t ∧ s' = s.after i ⟨o, a⟩ t
  drift s s' := W.drift s.state s'.state ∧ s'.own = s.own

variable {W : World S Unit σ} {A : List (Deed S) → (o : S.Op) → S.Ans o → Prop}

/-- The answers of `h` to thread `i`. -/
def Recorded.handle (h : σ → (o : S.Op) → S.Ans o × σ) (i : ι) (s : Recorded ι S σ) (o : S.Op) :
    S.Ans o × Recorded ι S σ :=
  ((h s.state o).1, s.after i ⟨o, (h s.state o).1⟩ (h s.state o).2)

/-- A record changes nothing of a run. -/
theorem Recorded.eval_state (h : σ → (o : S.Op) → S.Ans o × σ) (i : ι) (p : Prog S ε α)
    (s : Recorded ι S σ) :
    (p.eval (Recorded.handle h i) s).1 = (p.eval h s.state).1 ∧
      (p.eval (Recorded.handle h i) s).2.state = (p.eval h s.state).2 := by
  induction p generalizing s with
  | done r => exact ⟨rfl, rfl⟩
  | op o k ih => exact ih _ _

/-- A lawful run of one thread alone, where nothing that it has done rules its answers out. -/
theorem Lawful.shared {h : σ → (o : S.Op) → S.Ans o × σ} {T : σ → Prop}
    (hT : ∀ s own o, T s → (∃ s₁, Relation.ReflTransGen W.drift s s₁ ∧
      W.answer () s₁ o (h s o).1 (h s o).2) ∧ A own o (h s o).1 ∧ T (h s o).2)
    (i : ι) (p : Prog S ε α) {s : Recorded ι S σ} (hs : T s.state) :
    Lawful (W.shared ι A) i (Recorded.handle h i) p s := by
  refine Lawful.of_invariant (T := fun s => T s.state) (fun s o hs => ?_) p hs
  obtain ⟨⟨t, hdrift, ha⟩, hA, ht⟩ := hT s.state (s.own i) o hs
  -- the world drifts below the records
  have hdrift' : Relation.ReflTransGen (W.shared ι A).drift s ⟨t, s.own⟩ :=
    hdrift.lift (fun t => (⟨t, s.own⟩ : Recorded ι S σ)) fun _ _ hd => ⟨hd, rfl⟩
  exact ⟨⟨⟨t, s.own⟩, hdrift', hA, _, ha, rfl⟩, ht⟩

namespace Contract

/-- The contract of threads that share a state: what they do follows the order `L`, keeps the
invariant `I`, and leaves the records of the others alone. -/
def shared (W : World S Unit σ) (A : List (Deed S) → (o : S.Op) → S.Ans o → Prop)
    (I : Recorded ι S σ → Prop) (L : σ → σ → Prop) (hrefl : ∀ s, L s s)
    (htrans : ∀ {s s' s''}, L s s' → L s' s'' → L s s'') (hdrift : ∀ {s s'}, W.drift s s' → L s s')
    (hI : ∀ {s : Recorded ι S σ} {t}, I s → W.drift s.state t → I ⟨t, s.own⟩) :
    Contract (W.shared ι A) where
  inv := I
  rely i s s' := L s.state s'.state ∧ s'.own i = s.own i
  guar i s s' := L s.state s'.state ∧ ∀ j, j ≠ i → s'.own j = s.own j
  rely_refl i s := ⟨hrefl s.state, rfl⟩
  rely_trans h h' := ⟨htrans h.1 h'.1, h'.2.trans h.2⟩
  compat hij _ _ hg := ⟨hg.1, hg.2 _ hij.symm⟩
  drift_inv {s s'} h hd := by
    obtain ⟨t, own⟩ := s'
    obtain ⟨hd, rfl⟩ := hd
    exact hI h hd
  drift_rely {i s s'} _ hd := ⟨hdrift hd.1, congrFun hd.2 i⟩

variable {I : Recorded ι S σ → Prop} {L : σ → σ → Prop} {hrefl : ∀ s, L s s}
  {htrans : ∀ {s s' s''}, L s s' → L s' s'' → L s s''} {hdrift : ∀ {s s'}, W.drift s s' → L s s'}
  {hI : ∀ {s : Recorded ι S σ} {t}, I s → W.drift s.state t → I ⟨t, s.own⟩} {i : ι}

/-- What a thread has done is not changed by the others. -/
theorem stable_own (P : List (Deed S) → Prop) :
    (shared W A I L hrefl htrans hdrift hI).Stable i fun s => P (s.own i) :=
  fun _ s' _ _ hr hs => show P (s'.own i) from hr.2 ▸ hs

/-- What goes up along the order is not lost. -/
theorem stable_later {P : σ → Prop} (hP : ∀ s s', L s s' → P s → P s') :
    (shared W A I L hrefl htrans hdrift hI).Stable i fun s => P s.state :=
  fun _ _ _ _ hr hs => hP _ _ hr.1 hs

variable {P : Recorded ι S σ → Prop} {p : Prog S ε α} {Q : Except ε α → Recorded ι S σ → Prop}

/-- A single operation. -/
theorem Triple.perform_shared {o : S.Op} {M : S.Ans o → Recorded ι S σ → Prop}
    (hP : (shared W A I L hrefl htrans hdrift hI).Stable i P)
    (hM : ∀ a, (shared W A I L hrefl htrans hdrift hI).Stable i (M a))
    (ho : ∀ s a t, I s → P s → A (s.own i) o a → W.answer () s.state o a t →
      L s.state t ∧ I (s.after i ⟨o, a⟩ t) ∧ M a (s.after i ⟨o, a⟩ t)) :
    (shared W A I L hrefl htrans hdrift hI).Triple i P
      (Prog.perform o : Prog S ε (S.Ans o)) (Returns M) := by
  refine .perform hP hM fun s a s' hIs hs ha => ?_
  obtain ⟨hA, t, ht, rfl⟩ := ha
  -- the records of the others are left alone
  obtain ⟨hlater, hI', hM'⟩ := ho s a t hIs hs hA ht
  exact ⟨hI', ⟨hlater, fun j hj => s.after_own_of_ne hj _ t⟩, hM'⟩

/-- What goes up along the order holds after a program if it does before. -/
theorem Triple.and_later {R : σ → Prop}
    (h : (shared W A I L hrefl htrans hdrift hI).Triple i P p Q)
    (hR : ∀ s s', L s s' → R s → R s') :
    (shared W A I L hrefl htrans hdrift hI).Triple i (fun s => P s ∧ R s.state) p
      fun r s => Q r s ∧ R s.state :=
  h.and_kept (stable_later hR) fun _ _ _ _ hg hs => hR _ _ hg.1 hs

end Contract

end Effect
