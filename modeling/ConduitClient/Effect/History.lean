import ConduitClient.Effect.Contract

/-!
# A value that changes by itself

A world may hold a value that others change, and a program that asks for it is told what it was
at some moment. `History` is such a value with what it has been; its moments are numbered, and
`now` is the number of the present one. `InOrder` is what a series of answers should be like:
each is true of a moment, the moments are in the order of the questions, and none lies outside
of a given interval. `Triple.collect` derives it for a program that asks one question after the
other from what is known of one.
-/

namespace Effect

/-- A value with the values it had before, oldest first. -/
structure History (ν : Type) where
  past : List ν := []
  current : ν

namespace History

variable {ν : Type} {h h' h'' : History ν} {k : ℕ} {v : ν}

/-- The number of the present moment. -/
def now (h : History ν) : ℕ := h.past.length

/-- The values at all moments. -/
def moments (h : History ν) : List ν := h.past ++ [h.current]

/-- The value was `v` at moment `k`. -/
def At (h : History ν) (k : ℕ) (v : ν) : Prop := h.moments[k]? = some v

/-- The value changes. -/
def turn (h : History ν) (v : ν) : History ν := ⟨h.past ++ [h.current], v⟩

/-- `h'` is how `h` went on. -/
def Extends (h h' : History ν) : Prop := h.moments <+: h'.moments

theorem extends_refl (h : History ν) : h.Extends h := List.prefix_rfl

theorem Extends.trans (h₁ : h.Extends h') (h₂ : h'.Extends h'') : h.Extends h'' :=
  List.IsPrefix.trans h₁ h₂

theorem extends_turn (h : History ν) (v : ν) : h.Extends (h.turn v) := List.prefix_append _ _

theorem length_moments (h : History ν) : h.moments.length = h.now + 1 := List.length_append

/-- Time does not go back. -/
theorem Extends.now_le (hE : h.Extends h') : h.now ≤ h'.now := by
  have hlength := hE.length_le
  rw [length_moments, length_moments] at hlength
  exact Nat.le_of_succ_le_succ hlength

/-- What was does not change. -/
theorem Extends.at (hE : h.Extends h') (hk : h.At k v) : h'.At k v := by
  obtain ⟨later, hlater⟩ := hE
  -- moment `k` lies in the part that both have
  have hlt : k < h.moments.length := (List.getElem?_eq_some_iff.mp hk).1
  rw [At, ← hlater, List.getElem?_append_left hlt]
  exact hk

/-- The present value is that of the present moment. -/
theorem at_now (h : History ν) : h.At h.now h.current := List.getElem?_concat_length

/-- Only moments that have come have a value. -/
theorem At.le_now (hk : h.At k v) : k ≤ h.now := by
  have hlt : k < h.moments.length := (List.getElem?_eq_some_iff.mp hk).1
  rw [length_moments] at hlt
  exact Nat.le_of_lt_succ hlt

end History

/-! ### A series of questions -/

variable {τ γ β : Type} [Preorder τ]

/-- Each `b` answers its `a` as of some moment, where `R a k b` is that it does so as of `k`.
The moments are in order, none of them is before `n`, and none after `m`. -/
inductive InOrder (R : γ → τ → β → Prop) (m : τ) : τ → List γ → List β → Prop
  | nil {n : τ} (hn : n ≤ m) : InOrder R m n [] []
  | cons {n k : τ} {a : γ} {as : List γ} {b : β} {bs : List β} (hn : n ≤ k) (h : R a k b)
      (hs : InOrder R m k as bs) : InOrder R m n (a :: as) (b :: bs)

variable {R R' : γ → τ → β → Prop} {n m m' : τ} {as : List γ} {bs : List β}

/-- Answers that are in order stay so, as what they say stays true. -/
theorem InOrder.mono (h : InOrder R m n as bs) (hR : ∀ a k b, R a k b → R' a k b)
    (hm : m ≤ m') : InOrder R' m' n as bs := by
  induction h with
  | nil hn => exact .nil (hn.trans hm)
  | cons hn h _ ih => exact .cons hn (hR _ _ _ h) ih

namespace Contract

variable {S : Interface} {ι σ ε : Type} {W : World S ι σ} {C : Contract W} {i : ι}
  {now : σ → τ} {R : σ → γ → τ → β → Prop} {f : γ → Prog S ε β}

/-- Nobody else can put them out of order. -/
theorem stable_inOrder (hnow : ∀ n, C.Stable i fun s => n ≤ now s)
    (hR : ∀ a k b, C.Stable i fun s => R s a k b) (n : τ) (as : List γ) (bs : List β) :
    C.Stable i fun s => InOrder (R s) (now s) n as bs := by
  intro s s' hI hI' hr h
  exact h.mono (fun a k b hab => hR a k b hI hI' hr hab) (hnow (now s) hI hI' hr le_rfl)

/-- **One question after the other.** If each is answered as of a moment not before it was
asked, then the answers to a series are in order. -/
theorem Triple.collect (hnow : ∀ n, C.Stable i fun s => n ≤ now s)
    (hR : ∀ a k b, C.Stable i fun s => R s a k b)
    (hG : ∀ s s' a k b, C.inv s → C.inv s' → C.guar i s s' → R s a k b → R s' a k b)
    (hf : ∀ a n, C.Triple i (fun s => n ≤ now s) (f a)
      (Returns fun b s => ∃ k, n ≤ k ∧ k ≤ now s ∧ R s a k b)) (as : List γ) (n : τ) :
    C.Triple i (fun s => n ≤ now s) (Prog.collect f as)
      (Returns fun bs s => InOrder (R s) (now s) n as bs) := by
  -- induction on the questions left; `n` is the moment of the answer before them
  induction as generalizing n with
  | nil => exact Triple.done (hnow n) fun s _ hs => InOrder.nil hs
  | cons a as ih =>
    refine (hf a n).bind_returns fun b => ?_
    refine Triple.exists_elim fun k => Triple.lift fun hn => ?_
    -- the first answer stays true while the others are asked for
    have hrest := (ih k).and_kept (hR a k b) fun s s' => hG s s' a k b
    refine Triple.bind hrest (fun bs => ?_) fun e => ?_
    · exact Triple.done ((stable_inOrder hnow hR k as bs).and (hR a k b))
        fun s _ hs => InOrder.cons hn hs.2 hs.1
    · exact Triple.done ((Stable.const False).and (hR a k b)) fun s _ hs => hs.1

end Contract

end Effect
