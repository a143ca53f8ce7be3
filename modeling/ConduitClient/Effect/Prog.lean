import Mathlib.Data.List.Basic
import Mathlib.Order.Basic

/-!
# Programs that call on their surroundings

A sequential program with side effects is a tree: it is either done, with a value or an
exception, or it asks its surroundings for one operation and goes on with the answer it
receives. The surroundings are left open here. They are given either as a deterministic
handler (`Prog.eval`, below) or as a nondeterministic world that several programs share
(`ConduitClient/Effect/World.lean`).

Everything a `try` statement does is one primitive, `Prog.handle`, which continues on the
outcome whichever it is. Sequencing, `except` and `finally` are instances of it, so each
needs no law of its own.
-/

namespace Effect

/-- What a program may ask for: the operations, and the answers each one can have. -/
structure Interface where
  Op : Type
  Ans : Op → Type

/-- A program over the interface `S` that ends with a value in `α` or an exception in `ε`. -/
inductive Prog (S : Interface) (ε α : Type) : Type where
  | done (r : Except ε α)
  | op (o : S.Op) (k : S.Ans o → Prog S ε α)

namespace Prog

variable {S : Interface} {ε ε' α β γ : Type}

/-- Continue on the outcome of a program, be it a value or an exception. -/
def handle : Prog S ε α → (Except ε α → Prog S ε' β) → Prog S ε' β
  | done r, f => f r
  | op o k, f => op o fun a => (k a).handle f

/-- Continue on the value of a program, letting an exception through. -/
def onOk (f : α → Prog S ε β) : Except ε α → Prog S ε β
  | .ok a => f a
  | .error e => done (.error e)

/-- Continue on the exception of a program, letting a value through. -/
def onError (h : ε → Prog S ε' α) : Except ε α → Prog S ε' α
  | .ok a => done (.ok a)
  | .error e => h e

instance : Monad (Prog S ε) where
  pure a := done (.ok a)
  bind p f := p.handle (onOk f)

/-- Ask for one operation and return its answer. -/
def perform (o : S.Op) : Prog S ε (S.Ans o) := op o fun a => done (.ok a)

/-- Raise an exception. -/
def raise (e : ε) : Prog S ε α := done (.error e)

/-- A computation without side effects, as a program. -/
def ofExcept (r : Except ε α) : Prog S ε α := done r

/-- `try: p` followed by `except e: h e`. -/
def tryCatch (p : Prog S ε α) (h : ε → Prog S ε α) : Prog S ε α := p.handle (onError h)

/-- `try: p` followed by `finally: q`. An exception of `q` replaces the outcome of `p`. -/
def tryFinally (p : Prog S ε α) (q : Prog S ε Unit) : Prog S ε α :=
  p.handle fun r => q.handle (onOk fun _ => done r)

/-- `for a in as: f a`. -/
def forEach (f : α → Prog S ε Unit) : List α → Prog S ε Unit
  | [] => pure ()
  | a :: as => do
    f a
    forEach f as

/-- The outcomes of running `f` on each element, in order. -/
def collect (f : α → Prog S ε β) : List α → Prog S ε (List β)
  | [] => pure []
  | a :: as => do
    let b ← f a
    let bs ← collect f as
    pure (b :: bs)

/-! ### Unfolding -/

@[simp] theorem handle_done (r : Except ε α) (f : Except ε α → Prog S ε' β) :
    (done r : Prog S ε α).handle f = f r := rfl

@[simp] theorem handle_op (o : S.Op) (k : S.Ans o → Prog S ε α)
    (f : Except ε α → Prog S ε' β) :
    (op o k).handle f = op o fun a => (k a).handle f := rfl

@[simp] theorem onOk_ok (f : α → Prog S ε β) (a : α) : onOk f (.ok a) = f a := rfl

@[simp] theorem onOk_error (f : α → Prog S ε β) (e : ε) :
    onOk f (.error e) = done (.error e) := rfl

@[simp] theorem onError_error (h : ε → Prog S ε' α) (e : ε) : onError h (.error e) = h e := rfl

/-- Sequencing is handling. -/
theorem bind_def (p : Prog S ε α) (f : α → Prog S ε β) : (p >>= f) = p.handle (onOk f) := rfl

@[simp] theorem forEach_nil (f : α → Prog S ε Unit) : forEach f [] = pure () := rfl

@[simp] theorem forEach_cons (f : α → Prog S ε Unit) (a : α) (as : List α) :
    forEach f (a :: as) = (f a >>= fun _ => forEach f as) := rfl

@[simp] theorem collect_nil (f : α → Prog S ε β) : collect f [] = pure [] := rfl

@[simp] theorem collect_cons (f : α → Prog S ε β) (a : α) (as : List α) :
    collect f (a :: as) = (f a >>= fun b => collect f as >>= fun bs => pure (b :: bs)) := rfl

/-- Handling twice is handling once with the composed continuation. -/
theorem handle_handle {ε'' : Type} (p : Prog S ε α) (f : Except ε α → Prog S ε' β)
    (g : Except ε' β → Prog S ε'' γ) :
    (p.handle f).handle g = p.handle fun r => (f r).handle g := by
  -- on the program: both sides ask for the same operation, and the rest agrees
  induction p with
  | done r => rfl
  | op o k ih => simp only [handle_op, ih]

/-- Continuing with nothing changes nothing. -/
theorem handle_eq_self (p : Prog S ε α) : p.handle done = p := by
  induction p with
  | done r => rfl
  | op o k ih => simp only [handle_op, ih]

theorem id_map' (p : Prog S ε α) : id <$> p = p := by
  change p.handle (onOk fun a => done (.ok a)) = p
  -- the continuation is `done`, once by cases and once not
  conv_rhs => rw [← handle_eq_self p]
  congr 1
  funext r
  cases r <;> rfl

theorem bind_assoc' (p : Prog S ε α) (f : α → Prog S ε β) (g : β → Prog S ε γ) :
    (p >>= f) >>= g = p >>= fun a => f a >>= g := by
  simp only [bind_def, handle_handle]
  congr 1
  funext r
  -- after a value the rest is the same, after an exception there is none
  cases r <;> rfl

instance : LawfulMonad (Prog S ε) :=
  LawfulMonad.mk' (Prog S ε) id_map' (fun _ _ => rfl) bind_assoc'

/-- A loop over two lists, one after the other. -/
theorem forEach_append (f : α → Prog S ε Unit) (as bs : List α) :
    forEach f (as ++ bs) = (forEach f as >>= fun _ => forEach f bs) := by
  induction as with
  | nil => simp
  | cons a as ih => simp [ih]

theorem forEach_map {δ : Type} (f : α → Prog S ε Unit) (g : δ → α) (ds : List δ) :
    forEach f (ds.map g) = forEach (fun d => f (g d)) ds := by
  induction ds with
  | nil => rfl
  | cons d ds ih => simp [ih]

/-! ### What a program may ask for -/

/-- Every operation that the program may get to satisfies `φ`. -/
def Only (φ : S.Op → Prop) : Prog S ε α → Prop
  | done _ => True
  | op o k => φ o ∧ ∀ a, (k a).Only φ

variable {φ : S.Op → Prop}

theorem Only.mono {ψ : S.Op → Prop} (h : ∀ o, φ o → ψ o) {p : Prog S ε α} (hp : p.Only φ) :
    p.Only ψ := by
  induction p with
  | done r => trivial
  | op o k ih => exact ⟨h o hp.1, fun a => ih a (hp.2 a)⟩

/-- A handled program asks for what its parts ask for. The rules for sequencing, `try` and loops
follow. -/
theorem Only.handle {p : Prog S ε α} {f : Except ε α → Prog S ε' β} (hp : p.Only φ)
    (hf : ∀ r, (f r).Only φ) : (p.handle f).Only φ := by
  induction p with
  | done r => exact hf r
  | op o k ih => exact ⟨hp.1, fun a => ih a (hp.2 a)⟩

theorem Only.bind {p : Prog S ε α} {f : α → Prog S ε β} (hp : p.Only φ)
    (hf : ∀ a, (f a).Only φ) : (p >>= f).Only φ :=
  hp.handle fun
    | .ok a => hf a
    | .error _ => trivial

theorem Only.tryCatch {p : Prog S ε α} {h : ε → Prog S ε α} (hp : p.Only φ)
    (hh : ∀ e, (h e).Only φ) : (p.tryCatch h).Only φ :=
  hp.handle fun
    | .ok _ => trivial
    | .error e => hh e

theorem Only.perform {o : S.Op} (h : φ o) : (Prog.perform o : Prog S ε (S.Ans o)).Only φ :=
  ⟨h, fun _ => trivial⟩

theorem Only.forEach {f : α → Prog S ε Unit} {as : List α} (hf : ∀ a ∈ as, (f a).Only φ) :
    (Prog.forEach f as).Only φ := by
  induction as with
  | nil => trivial
  | cons a as ih =>
    exact (hf a List.mem_cons_self).bind fun _ => ih fun b hb => hf b (List.mem_cons_of_mem _ hb)

theorem Only.collect {f : α → Prog S ε β} (hf : ∀ a, (f a).Only φ) (as : List α) :
    (Prog.collect f as).Only φ := by
  induction as with
  | nil => trivial
  | cons a as ih => exact (hf a).bind fun _ => ih.bind fun _ => trivial

/-! ### Running against a deterministic handler -/

variable {σ : Type}

/-- The outcome and the final state of a program whose operations `h` answers. -/
def eval (h : σ → (o : S.Op) → S.Ans o × σ) : Prog S ε α → σ → Except ε α × σ
  | done r, s => (r, s)
  | op o k, s => eval h (k (h s o).1) (h s o).2

variable (h : σ → (o : S.Op) → S.Ans o × σ)

@[simp] theorem eval_done (r : Except ε α) (s : σ) : (done r : Prog S ε α).eval h s = (r, s) := rfl

@[simp] theorem eval_op (o : S.Op) (k : S.Ans o → Prog S ε α) (s : σ) :
    (op o k).eval h s = (k (h s o).1).eval h (h s o).2 := rfl

@[simp] theorem eval_pure (a : α) (s : σ) : (pure a : Prog S ε α).eval h s = (.ok a, s) := rfl

@[simp] theorem eval_raise (e : ε) (s : σ) :
    (raise e : Prog S ε α).eval h s = (.error e, s) := rfl

/-- A handled program runs the continuation from where the program stopped. -/
theorem eval_handle (p : Prog S ε α) (f : Except ε α → Prog S ε' β) (s : σ) :
    (p.handle f).eval h s = (f (p.eval h s).1).eval h (p.eval h s).2 := by
  induction p generalizing s with
  | done r => rfl
  | op o k ih => simp only [handle_op, eval_op, ih]

/-- Sequencing after a program that returned. -/
theorem eval_bind_ok {p : Prog S ε α} {f : α → Prog S ε β} {s s' : σ} {a : α}
    (hp : p.eval h s = (.ok a, s')) : (p >>= f).eval h s = (f a).eval h s' := by
  rw [bind_def, eval_handle, hp]
  rfl

/-- Sequencing after a program that raised. -/
theorem eval_bind_error {p : Prog S ε α} {f : α → Prog S ε β} {s s' : σ} {e : ε}
    (hp : p.eval h s = (.error e, s')) : (p >>= f).eval h s = (.error e, s') := by
  rw [bind_def, eval_handle, hp]
  rfl

/-- A guarded program that returned. -/
theorem eval_tryCatch_ok {p : Prog S ε α} {f : ε → Prog S ε α} {s s' : σ} {a : α}
    (hp : p.eval h s = (.ok a, s')) : (p.tryCatch f).eval h s = (.ok a, s') := by
  rw [tryCatch, eval_handle, hp]
  rfl

/-- A guarded program that raised. -/
theorem eval_tryCatch_error {p : Prog S ε α} {f : ε → Prog S ε α} {s s' : σ} {e : ε}
    (hp : p.eval h s = (.error e, s')) : (p.tryCatch f).eval h s = (f e).eval h s' := by
  rw [tryCatch, eval_handle, hp]
  rfl

@[simp] theorem eval_perform_bind (o : S.Op) (f : S.Ans o → Prog S ε β) (s : σ) :
    (perform o >>= f).eval h s = (f (h s o).1).eval h (h s o).2 := rfl

/-! ### The operations of a run -/

/-- The operations that a run performs, in order, each with the state it is performed in. -/
def steps : Prog S ε α → σ → List (σ × S.Op)
  | done _, _ => []
  | op o k, s => (s, o) :: steps (k (h s o).1) (h s o).2

@[simp] theorem steps_done (r : Except ε α) (s : σ) : (done r : Prog S ε α).steps h s = [] := rfl

@[simp] theorem steps_pure (a : α) (s : σ) : (pure a : Prog S ε α).steps h s = [] := rfl

@[simp] theorem steps_raise (e : ε) (s : σ) : (raise e : Prog S ε α).steps h s = [] := rfl

@[simp] theorem steps_op (o : S.Op) (k : S.Ans o → Prog S ε α) (s : σ) :
    (op o k).steps h s = (s, o) :: (k (h s o).1).steps h (h s o).2 := rfl

@[simp] theorem steps_perform_bind (o : S.Op) (f : S.Ans o → Prog S ε β) (s : σ) :
    (perform o >>= f).steps h s = (s, o) :: (f (h s o).1).steps h (h s o).2 := rfl

/-- A handled program performs its own operations and then those of the continuation. -/
theorem steps_handle (p : Prog S ε α) (f : Except ε α → Prog S ε' β) (s : σ) :
    (p.handle f).steps h s = p.steps h s ++ (f (p.eval h s).1).steps h (p.eval h s).2 := by
  induction p generalizing s with
  | done r => rfl
  | op o k ih => simp only [handle_op, steps_op, eval_op, ih, List.cons_append]

/-- Sequencing after a program that returned. -/
theorem steps_bind_ok {p : Prog S ε α} {f : α → Prog S ε β} {s s' : σ} {a : α}
    (hp : p.eval h s = (.ok a, s')) :
    (p >>= f).steps h s = p.steps h s ++ (f a).steps h s' := by
  rw [bind_def, steps_handle, hp]
  rfl

/-- Nothing is performed after a program that raised. -/
theorem steps_bind_error {p : Prog S ε α} {f : α → Prog S ε β} {s s' : σ} {e : ε}
    (hp : p.eval h s = (.error e, s')) : (p >>= f).steps h s = p.steps h s := by
  rw [bind_def, steps_handle, hp]
  exact List.append_nil _

/-- An operation of a sequence belongs to the first part, or to what comes after its value. -/
theorem mem_steps_bind_iff {p : Prog S ε α} {f : α → Prog S ε β} {s : σ} {x : σ × S.Op} :
    x ∈ (p >>= f).steps h s ↔
      x ∈ p.steps h s ∨ ∃ a s', p.eval h s = (.ok a, s') ∧ x ∈ (f a).steps h s' := by
  cases hp : p.eval h s with
  | mk r s' =>
    -- the second part is reached only with a value
    cases r with
    | ok a => simp [steps_bind_ok h hp]
    | error e => simp [steps_bind_error h hp]

/-- What every operation preserves holds in every state of a run. -/
theorem steps_invariant {I : σ → Prop} (hI : ∀ s o, I s → I (h s o).2) (p : Prog S ε α) {s : σ}
    (hs : I s) : ∀ x ∈ p.steps h s, I x.1 := by
  -- on the program, from any state with the invariant
  induction p generalizing s with
  | done r => exact fun x hx => absurd hx List.not_mem_nil
  | op o k ih =>
    intro x hx
    rcases List.mem_cons.mp hx with rfl | hx
    · exact hs
    · exact ih _ (hI s o hs) x hx

/-- A run performs what its program may ask for. -/
theorem Only.steps {p : Prog S ε α} (hp : p.Only φ) {s : σ} {x : σ × S.Op}
    (hx : x ∈ p.steps h s) : φ x.2 := by
  induction p generalizing s with
  | done r => cases hx
  | op o k ih =>
    rcases List.mem_cons.mp hx with rfl | hx
    · exact hp.1
    · exact ih _ (hp.2 _) hx

/-- What no operation decreases is not decreased by a program. -/
theorem le_eval {τ : Type} [Preorder τ] {h : σ → (o : S.Op) → S.Ans o × σ} {now : σ → τ}
    (hnow : ∀ s o, now s ≤ now (h s o).2) (p : Prog S ε α) (s : σ) :
    now s ≤ now (p.eval h s).2 := by
  induction p generalizing s with
  | done r => exact le_refl _
  | op o k ih => exact (hnow s o).trans (ih _ _)

end Prog

end Effect
