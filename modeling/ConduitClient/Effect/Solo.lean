import ConduitClient.Effect.Contract

/-!
# A single thread

The executions of one program that has the world to itself, apart from what the world does
alone: where a run ends (`Ends`), what it passes through (`Passes`), and runs of one program
after another (`Series`). A contract needs no care for other threads then, and what the
program relies on is the drift of the world (`Contract.solo`).

`World.under` is a world whose moves meet a further condition; its executions are those of
the world in which every move meets it. `World.marked` is a world that remembers whether an
answer of a certain kind was met.
-/

namespace Effect

variable {S : Interface} {ι σ ε α : Type}

/-- The world, in which every answer meets `A` and every drift meets `D`. -/
def World.under (W : World S ι σ) (A : σ → (o : S.Op) → S.Ans o → σ → Prop)
    (D : σ → σ → Prop) : World S ι σ where
  answer i s o a s' := W.answer i s o a s' ∧ A s o a s'
  drift s s' := W.drift s s' ∧ D s s'

/-- A state, and whether something was met on the way to it. -/
structure Marked (σ : Type) where
  state : σ
  marked : Prop

/-- The world, in which an answer that meets `U` leaves a mark. -/
def World.marked (W : World S ι σ) (U : (o : S.Op) → S.Ans o → Prop) :
    World S ι (Marked σ) where
  answer i m o a m' := W.answer i m.state o a m'.state ∧ (m'.marked ↔ m.marked ∨ U o a)
  drift m m' := W.drift m.state m'.state ∧ (m'.marked ↔ m.marked)

/-- Whatever happens where moves meet a condition happens without it. -/
theorem Reach.of_under [DecidableEq ι] {W : World S ι σ}
    {A : σ → (o : S.Op) → S.Ans o → σ → Prop} {D : σ → σ → Prop} {c c' : Config S ι ε α σ}
    (h : Reach (W.under A D) c c') : Reach W c c' := by
  induction h with
  | refl => exact .refl
  | tail _ hs ih =>
    refine ih.tail ?_
    cases hs with
    | exec i hi ha => exact .exec i hi ha.1
    | kill i => exact .kill i
    | drift hd => exact .drift hd.1

variable {W : World S Unit σ}

/-- The program runs from `s`, and ends in `s'` with the outcome `r`. -/
def Ends (W : World S Unit σ) (p : Prog S ε α) (s : σ) (r : Except ε α) (s' : σ) : Prop :=
  ∃ c, Reach W ⟨fun _ => some p, s⟩ c ∧ c.Ended () r ∧ c.state = s'

/-- The program runs from `s`, and `s'` is a state of its run. -/
def Passes (W : World S Unit σ) (p : Prog S ε α) (s s' : σ) : Prop :=
  ∃ c, Reach W ⟨fun _ => some p, s⟩ c ∧ c.state = s'

/-- The programs run from `s` one after another, whatever the outcome of each, and the last
one ends in the last state. -/
inductive Series (W : World S Unit σ) (s : σ) : List (Prog S ε α) → σ → Prop
  | nil : Series W s [] s
  | snoc {ps : List (Prog S ε α)} {p : Prog S ε α} {r : Except ε α} {s' s'' : σ}
      (hs : Series W s ps s') (he : Ends W p s' r s'') : Series W s (ps ++ [p]) s''

/-- A run passes through the state in which it ends. -/
theorem Ends.passes {p : Prog S ε α} {s s' : σ} {r : Except ε α} (h : Ends W p s r s') :
    Passes W p s s' := by
  obtain ⟨c, hr, -, hs⟩ := h
  exact ⟨c, hr, hs⟩

theorem Ends.of_under {A : σ → (o : S.Op) → S.Ans o → σ → Prop} {D : σ → σ → Prop}
    {p : Prog S ε α} {s s' : σ} {r : Except ε α} (h : Ends (W.under A D) p s r s') :
    Ends W p s r s' := by
  obtain ⟨c, hr, he, hs⟩ := h
  exact ⟨c, hr.of_under, he, hs⟩

theorem Passes.of_under {A : σ → (o : S.Op) → S.Ans o → σ → Prop} {D : σ → σ → Prop}
    {p : Prog S ε α} {s s' : σ} (h : Passes (W.under A D) p s s') : Passes W p s s' := by
  obtain ⟨c, hr, hs⟩ := h
  exact ⟨c, hr.of_under, hs⟩

theorem Series.of_under {A : σ → (o : S.Op) → S.Ans o → σ → Prop} {D : σ → σ → Prop}
    {ps : List (Prog S ε α)} {s s' : σ} (h : Series (W.under A D) s ps s') :
    Series W s ps s' := by
  induction h with
  | nil => exact .nil
  | snoc _ he ih => exact .snoc ih he.of_under

/-- What every answer and every move of the world preserves holds where a run ends. -/
theorem Ends.invariant {I : σ → Prop}
    (ha : ∀ s o a s', I s → W.answer () s o a s' → I s') (hd : ∀ s s', I s → W.drift s s' → I s')
    {p : Prog S ε α} {s s' : σ} {r : Except ε α} (h : Ends W p s r s') (hs : I s) : I s' := by
  obtain ⟨c, hr, -, rfl⟩ := h
  -- on the steps of the run; a kill changes no state
  induction hr with
  | refl => exact hs
  | tail _ hstep ih =>
    cases hstep with
    | exec i hi hans => exact ha _ _ _ _ ih hans
    | kill i => exact ih
    | drift hdrift => exact hd _ _ ih hdrift

/-! ### Runs of composed programs -/

/-- A killed program does not end. -/
theorem not_ended_of_killed {s : σ} {c : Config S Unit ε α σ}
    (hr : Reach W ⟨fun _ => none, s⟩ c) (r : Except ε α) : ¬ c.Ended () r := by
  -- no step brings the program back
  have hnone : c.thread () = none := by
    induction hr with
    | refl => rfl
    | tail _ hs ih =>
      cases hs with
      | exec i hi ha =>
        rw [ih] at hi
        cases hi
      | kill i => simp
      | drift hd => exact ih
  rw [Config.Ended, hnone]
  simp

/-- A run may be preceded by moves of the world. -/
theorem Ends.of_drifts {p : Prog S ε α} {s s₁ s' : σ} {r : Except ε α}
    (hd : Relation.ReflTransGen W.drift s s₁) (h : Ends W p s₁ r s') : Ends W p s r s' := by
  obtain ⟨c, hr, he, hs⟩ := h
  have hdrifts : Reach W ⟨fun _ => some p, s⟩ ⟨fun _ => some p, s₁⟩ :=
    Reach.drifts (c := ⟨fun _ => some p, s⟩) hd
  exact ⟨c, hdrifts.trans hr, he, hs⟩

/-- What the world does after a run belongs to the run. -/
theorem Ends.drifts {p : Prog S ε α} {s s₁ s' : σ} {r : Except ε α} (h : Ends W p s r s₁)
    (hd : Relation.ReflTransGen W.drift s₁ s') : Ends W p s r s' := by
  obtain ⟨⟨t, u⟩, hr, he, hs⟩ := h
  obtain rfl : u = s₁ := hs
  exact ⟨⟨t, s'⟩, hr.trans (Reach.drifts (c := ⟨t, u⟩) hd), he, rfl⟩

/-- Where there is one thread, an update is of all threads. -/
theorem update_unit {β : Type} (f : Unit → β) (b : β) :
    Function.update f () b = fun _ => b := by
  funext u
  exact Function.update_self _ _ _

/-- A program that is done has run. Only the world still moves. -/
theorem Ends.done_iff {r₀ r : Except ε α} {s s' : σ} :
    Ends W (.done r₀) s r s' ↔ r = r₀ ∧ Relation.ReflTransGen W.drift s s' := by
  constructor
  · rintro ⟨c, hr, he, rfl⟩
    generalize hc₀ : (⟨fun _ => some (.done r₀), s⟩ : Config S Unit ε α σ) = c₀ at hr
    -- on the steps from the front, since it is the first state that is given
    induction hr using Relation.ReflTransGen.head_induction_on generalizing s with
    | refl =>
      subst hc₀
      exact ⟨(Prog.done.inj (Option.some.inj he)).symm, .refl⟩
    | head hs hrest ih =>
      subst hc₀
      cases hs with
      | exec i hi ha => cases hi
      | kill i =>
        rw [update_unit] at hrest
        exact absurd he (not_ended_of_killed hrest r)
      | drift hd =>
        obtain ⟨hr, hds⟩ := ih rfl
        exact ⟨hr, .head hd hds⟩
  · rintro ⟨rfl, hd⟩
    exact Ends.of_drifts hd ⟨_, .refl, rfl, rfl⟩

/-- A program that asks for an operation is answered, after the world has moved, and runs on
with the answer. -/
theorem Ends.op_iff {o : S.Op} {k : S.Ans o → Prog S ε α} {r : Except ε α} {s s' : σ} :
    Ends W (.op o k) s r s' ↔ ∃ s₁ a s₂, Relation.ReflTransGen W.drift s s₁ ∧
      W.answer () s₁ o a s₂ ∧ Ends W (k a) s₂ r s' := by
  constructor
  · rintro ⟨c, hr, he, rfl⟩
    generalize hc₀ : (⟨fun _ => some (.op o k), s⟩ : Config S Unit ε α σ) = c₀ at hr
    -- from the front as well: the world moves for a while, and then the operation is answered
    induction hr using Relation.ReflTransGen.head_induction_on generalizing s with
    | refl =>
      subst hc₀
      cases he
    | head hs hrest ih =>
      subst hc₀
      cases hs with
      | exec i hi ha =>
        -- this is the answer, and the rest is the run of the continuation
        cases hi
        rw [update_unit] at hrest
        exact ⟨s, _, _, .refl, ha, _, hrest, he, rfl⟩
      | kill i =>
        rw [update_unit] at hrest
        exact absurd he (not_ended_of_killed hrest r)
      | drift hd =>
        obtain ⟨s₁, a, s₂, hds, ha, hk⟩ := ih rfl
        exact ⟨s₁, a, s₂, .head hd hds, ha, hk⟩
  · rintro ⟨s₁, a, s₂, hd, ha, c, hr, he, rfl⟩
    refine Ends.of_drifts hd ⟨c, .head (.exec () rfl ha) ?_, he, rfl⟩
    rw [update_unit]
    exact hr

/-- The run of a handled program is a run of the program and one of the continuation. -/
theorem Ends.handle_iff {ε' β : Type} {p : Prog S ε α} {f : Except ε α → Prog S ε' β}
    {r : Except ε' β} {s s' : σ} :
    Ends W (p.handle f) s r s' ↔ ∃ r₁ s₁, Ends W p s r₁ s₁ ∧ Ends W (f r₁) s₁ r s' := by
  -- on the program; where it is done, what the world does then may be counted to either run
  induction p generalizing s with
  | done r₀ =>
    rw [Prog.handle_done]
    constructor
    · exact fun h => ⟨r₀, s, Ends.done_iff.mpr ⟨rfl, .refl⟩, h⟩
    · rintro ⟨r₁, s₁, h₁, h⟩
      obtain ⟨rfl, hd⟩ := Ends.done_iff.mp h₁
      exact h.of_drifts hd
  | op o k ih =>
    rw [Prog.handle_op, Ends.op_iff]
    constructor
    · rintro ⟨s₁, a, s₂, hd, ha, h⟩
      obtain ⟨r₁, s₃, h₁, h₂⟩ := (ih a).mp h
      exact ⟨r₁, s₃, Ends.op_iff.mpr ⟨s₁, a, s₂, hd, ha, h₁⟩, h₂⟩
    · rintro ⟨r₁, s₃, h₁, h₂⟩
      obtain ⟨s₁, a, s₂, hd, ha, hk⟩ := Ends.op_iff.mp h₁
      exact ⟨s₁, a, s₂, hd, ha, (ih a).mpr ⟨r₁, s₃, hk, h₂⟩⟩

/-- A sequence raises in its first part, or goes on from where that returned. -/
theorem Ends.bind {β : Type} {p : Prog S ε α} {f : α → Prog S ε β} {r : Except ε β} {s s' : σ}
    (h : Ends W (p >>= f) s r s') :
    (∃ e, r = .error e ∧ Ends W p s (.error e) s') ∨
      ∃ a s₁, Ends W p s (.ok a) s₁ ∧ Ends W (f a) s₁ r s' := by
  obtain ⟨r₁, s₁, h₁, h₂⟩ := Ends.handle_iff.mp h
  cases r₁ with
  | ok a => exact Or.inr ⟨a, s₁, h₁, h₂⟩
  | error e =>
    obtain ⟨rfl, hd⟩ := Ends.done_iff.mp h₂
    exact Or.inl ⟨e, rfl, h₁.drifts hd⟩

/-- A sequence whose first part returns. -/
theorem Ends.bind_ok {β : Type} {p : Prog S ε α} {f : α → Prog S ε β} {r : Except ε β}
    {s s₁ s' : σ} {a : α} (h₁ : Ends W p s (.ok a) s₁) (h₂ : Ends W (f a) s₁ r s') :
    Ends W (p >>= f) s r s' :=
  Ends.handle_iff.mpr ⟨.ok a, s₁, h₁, h₂⟩

/-- A sequence whose first part raises. -/
theorem Ends.bind_error {β : Type} {p : Prog S ε α} {f : α → Prog S ε β} {s s' : σ} {e : ε}
    (h : Ends W p s (.error e) s') : Ends W (p >>= f) s (.error e) s' :=
  Ends.handle_iff.mpr ⟨.error e, s', h, Ends.done_iff.mpr ⟨rfl, .refl⟩⟩

/-- One operation followed by the rest of the program. -/
theorem Ends.perform_bind_iff {o : S.Op} {f : S.Ans o → Prog S ε α} {r : Except ε α}
    {s s' : σ} :
    Ends W (Prog.perform o >>= f) s r s' ↔ ∃ s₁ a s₂, Relation.ReflTransGen W.drift s s₁ ∧
      W.answer () s₁ o a s₂ ∧ Ends W (f a) s₂ r s' :=
  Ends.op_iff

/-- What runs finally runs where the program has ended. If it returns, the outcome is the one of
the program. -/
theorem Ends.tryFinally {p : Prog S ε α} {q : Prog S ε Unit} {r : Except ε α} {s s' : σ}
    (h : Ends W (p.tryFinally q) s r s') :
    ∃ r₁ s₁ r₂, Ends W p s r₁ s₁ ∧ Ends W q s₁ r₂ s' ∧ (r₂ = .ok () → r = r₁) := by
  obtain ⟨r₁, s₁, h₁, h⟩ := Ends.handle_iff.mp h
  obtain ⟨r₂, s₂, h₂, h⟩ := Ends.handle_iff.mp h
  refine ⟨r₁, s₁, r₂, h₁, ?_⟩
  -- an exception of what runs finally replaces the outcome
  cases r₂ with
  | ok u =>
    obtain ⟨hr, hd⟩ := Ends.done_iff.mp h
    exact ⟨h₂.drifts hd, fun _ => hr⟩
  | error e =>
    obtain ⟨-, hd⟩ := Ends.done_iff.mp h
    exact ⟨h₂.drifts hd, fun he => by cases he⟩

/-- A program ends, where the world has an answer to whatever it may ask for. -/
theorem Prog.Only.ends {φ : S.Op → Prop} {p : Prog S ε α} (hp : p.Only φ)
    (h : ∀ s o, φ o → ∃ a s', W.answer () s o a s') (s : σ) : ∃ r s', Ends W p s r s' := by
  induction p generalizing s with
  | done r => exact ⟨r, s, Ends.done_iff.mpr ⟨rfl, .refl⟩⟩
  | op o k ih =>
    obtain ⟨a, s₁, ha⟩ := h s o hp.1
    obtain ⟨r, s', hk⟩ := ih a (hp.2 a) s₁
    exact ⟨r, s', Ends.op_iff.mpr ⟨s, a, s₁, .refl, ha, hk⟩⟩

/-- What the drift keeps, and the operations that a program may ask for, is kept by its
runs. -/
theorem Prog.Only.keeps {φ : S.Op → Prop} {P : σ → Prop} {p : Prog S ε α} (hp : p.Only φ)
    (hd : ∀ s s', W.drift s s' → P s → P s')
    (ha : ∀ s o a s', φ o → W.answer () s o a s' → P s → P s') {r : Except ε α} {s s' : σ}
    (h : Ends W p s r s') (hs : P s) : P s' := by
  have hdrifts {s s' : σ} (h : Relation.ReflTransGen W.drift s s') (hs : P s) : P s' := by
    induction h with
    | refl => exact hs
    | tail _ h ih => exact hd _ _ h ih
  induction p generalizing s with
  | done r₀ => exact hdrifts (Ends.done_iff.mp h).2 hs
  | op o k ih =>
    obtain ⟨s₁, a, s₂, hd₁, ha₁, hk⟩ := Ends.op_iff.mp h
    exact ih a (hp.2 a) hk (ha _ _ _ _ hp.1 ha₁ (hdrifts hd₁ hs))

/-- A map of the states that respects the drift, and the answers to what a program may ask for,
maps its runs. -/
theorem Ends.map {τ : Type} {W' : World S Unit τ} {φ : S.Op → Prop} {f : σ → τ}
    (hd : ∀ s s', W.drift s s' → W'.drift (f s) (f s'))
    (ha : ∀ s o a s', φ o → W.answer () s o a s' → W'.answer () (f s) o a (f s'))
    {p : Prog S ε α} (hp : p.Only φ) {r : Except ε α} {s s' : σ} (h : Ends W p s r s') :
    Ends W' p (f s) r (f s') := by
  have hdrifts {s s' : σ} (h : Relation.ReflTransGen W.drift s s') :
      Relation.ReflTransGen W'.drift (f s) (f s') :=
    h.lift f hd
  induction p generalizing s with
  | done r₀ =>
    obtain ⟨hr, hd₁⟩ := Ends.done_iff.mp h
    exact Ends.done_iff.mpr ⟨hr, hdrifts hd₁⟩
  | op o k ih =>
    obtain ⟨s₁, a, s₂, hd₁, ha₁, hk⟩ := Ends.op_iff.mp h
    exact Ends.op_iff.mpr ⟨f s₁, a, f s₂, hdrifts hd₁, ha _ _ _ _ hp.1 ha₁, ih a (hp.2 a) hk⟩

/-- A program asks for operations. -/
theorem Prog.only_true (p : Prog S ε α) : p.Only fun _ => True := by
  induction p with
  | done r => trivial
  | op o k ih => exact ⟨trivial, ih⟩

/-- A run with marks is a run. -/
theorem Ends.of_marked {U : (o : S.Op) → S.Ans o → Prop} {p : Prog S ε α} {r : Except ε α}
    {m m' : Marked σ} (h : Ends (W.marked U) p m r m') : Ends W p m.state r m'.state := by
  refine Ends.map (W := W.marked U) (f := Marked.state) ?_ ?_ p.only_true h
  · exact fun _ _ hd => hd.1
  · exact fun _ _ _ _ _ ha => ha.1

/-- Every run has its marks. -/
theorem Ends.exists_marked (U : (o : S.Op) → S.Ans o → Prop) {p : Prog S ε α}
    {r : Except ε α} {s s' : σ} (h : Ends W p s r s') (φ : Prop) :
    ∃ φ', Ends (W.marked U) p ⟨s, φ⟩ r ⟨s', φ'⟩ := by
  have hdrifts {s s' : σ} (φ : Prop) (h : Relation.ReflTransGen W.drift s s') :
      Relation.ReflTransGen (W.marked U).drift ⟨s, φ⟩ ⟨s', φ⟩ :=
    h.lift (fun s => Marked.mk s φ) fun _ _ hd => ⟨hd, Iff.rfl⟩
  induction p generalizing s φ with
  | done r₀ =>
    obtain ⟨hr, hd⟩ := Ends.done_iff.mp h
    exact ⟨φ, Ends.done_iff.mpr ⟨hr, hdrifts φ hd⟩⟩
  | op o k ih =>
    obtain ⟨s₁, a, s₂, hd, ha, hk⟩ := Ends.op_iff.mp h
    -- the mark after this answer is the one to go on with
    obtain ⟨φ', hends⟩ := ih a hk (φ ∨ U o a)
    exact ⟨φ', Ends.op_iff.mpr ⟨⟨s₁, φ⟩, a, ⟨s₂, φ ∨ U o a⟩, hdrifts φ hd, ⟨ha, Iff.rfl⟩, hends⟩⟩

/-- A lawful deterministic run is one that ends. -/
theorem Lawful.ends {h : σ → (o : S.Op) → S.Ans o × σ} {p : Prog S ε α} {s : σ}
    (hl : Lawful W () h p s) : Ends W p s (p.eval h s).1 (p.eval h s).2 := by
  obtain ⟨c, hr, he, hs, -⟩ := hl.exists_reach (t := fun _ => some p) rfl
  exact ⟨c, hr, he, hs⟩

namespace Contract

/-- The contract of a thread that has the world to itself. -/
def solo (W : World S Unit σ) (I : σ → Prop) (hI : ∀ s s', I s → W.drift s s' → I s') :
    Contract W where
  inv := I
  rely _ := Relation.ReflTransGen fun s s' => I s ∧ W.drift s s'
  guar _ _ _ := True
  rely_refl _ _ := .refl
  rely_trans h h' := h.trans h'
  compat hij := absurd rfl hij
  drift_inv h hd := hI _ _ h hd
  drift_rely h hd := .single ⟨h, hd⟩

variable {I : σ → Prop} {hI : ∀ s s', I s → W.drift s s' → I s'}

/-- To survive what a single thread relies on is to survive one move of the world. -/
theorem Stable.solo {P : σ → Prop} (h : ∀ s s', I s → W.drift s s' → P s → P s') :
    (solo W I hI).Stable () P := by
  intro s s' _ hI' hr hs
  clear hI'
  induction hr with
  | refl => exact hs
  | tail _ hd ih => exact h _ _ hd.1 hd.2 ih

variable {C : Contract W} {P : σ → Prop} {p : Prog S ε α} {Q : Except ε α → σ → Prop}

/-- A program with a triple is a configuration that keeps its contract. -/
theorem Triple.holds (h : C.Triple () P p Q) {s : σ} (hI : C.inv s) (hs : P s) :
    C.Holds (fun _ => Q) ⟨fun _ => some p, s⟩ where
  inv := hI
  keeps _ _ hp := Option.some.inj hp ▸ h s hI hs

/-- The postcondition holds where a run ends. -/
theorem Triple.ends (h : C.Triple () P p Q) {s s' : σ} {r : Except ε α} (hI : C.inv s)
    (hs : P s) (he : Ends W p s r s') : C.inv s' ∧ Q r s' := by
  obtain ⟨c, hr, hend, rfl⟩ := he
  have hc := (h.holds hI hs).reach hr
  exact ⟨hc.inv, hc.ended hend⟩

/-- The invariant holds wherever a run passes. -/
theorem Triple.passes (h : C.Triple () P p Q) {s s' : σ} (hI : C.inv s) (hs : P s)
    (hp : Passes W p s s') : C.inv s' := by
  obtain ⟨c, hr, rfl⟩ := hp
  exact ((h.holds hI hs).reach hr).inv

/-- What every program of a series starts from and leaves behind, whatever its outcome,
holds at its end. -/
theorem Triple.series {ps : List (Prog S ε α)} (h : ∀ p ∈ ps, C.Triple () P p fun _ => P)
    {s s' : σ} (hI : C.inv s) (hs : P s) (hr : Series W s ps s') : C.inv s' ∧ P s' := by
  -- on the programs that have run; each starts where the one before it has ended
  induction hr with
  | nil => exact ⟨hI, hs⟩
  | snoc _ he ih =>
    obtain ⟨hI', hs'⟩ := ih fun p hp => h p (List.mem_append_left _ hp)
    exact (h _ (by simp)).ends hI' hs' he

end Contract

end Effect
