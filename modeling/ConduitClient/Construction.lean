import ConduitClient.Phases
import ConduitClient.Supervision

/-!
# The constructor

What holds when the constructor of a `LocalConduit` has returned, from what its operations
do one by one: `Startup` lists the assertions at three points (before the channel is opened,
while the engine is probed, after an answer) and what the operations have to preserve, and
`Startup.init` is the conclusion for the whole constructor. The way out after a failure,
which tears the subprocess down, is no concern of it.
-/

namespace Conduit

open Effect

variable {W : World Host Unit HostState}

/-- Assertions for a constructor whose channel goes to `addr`: `A` until the channel is
opened, `B` while the engine is probed, `R` when it has answered. -/
structure Startup (C : Contract W) (addr : String) (A B R : HostState → Prop) : Prop where
  /-- No operation breaks the contract. -/
  any : ∀ s o a s', C.inv s → W.answer () s o a s' → C.inv s' ∧ C.guar () s s'
  stableA : C.Stable () A
  stableB : C.Stable () B
  stableR : C.Stable () R
  keepsA : ∀ s o a s', C.inv s → HostOp.Harmless o → A s → W.answer () s o a s' → A s'
  opens : ∀ s a s', C.inv s → A s → W.answer () s (.openChannel addr) a s' → B s'
  keepsB : ∀ s o a s', C.inv s → HostOp.Harmless o → (∀ addr, o ≠ .openChannel addr) → B s →
    W.answer () s o a s' → B s'
  ready : ∀ s resp s', C.inv s → B s → W.answer () s (.recv .getInfo) (.ok resp) s' → R s'

namespace Startup

variable {C : Contract W} {addr : String} {A B R : HostState → Prop} {rt : Runtime}

/-- With a client `R` holds, and the client is the one that tears the subprocess down. -/
def Ready (R : HostState → Prop) : Except Exn (Option Client) → HostState → Prop :=
  Contract.Post (fun r s => ∀ client, r = some client → client = LocalConduit.boundClient ∧ R s)
    fun _ _ => True

theorem stable_ready (h : Startup C addr A B R) (r : Except Exn (Option Client)) :
    C.Stable () (Ready R r) := by
  refine Contract.Stable.post (fun a => ?_) (fun _ => Contract.Stable.const _) r
  exact fun _ _ hI hI' hr hq client hc => ⟨(hq client hc).1, h.stableR hI hI' hr (hq client hc).2⟩

/-! ### One operation -/

/-- An operation before the channel is opened. -/
theorem before (h : Startup C addr A B R) {o : HostOp} (ho : o.Harmless) :
    C.Triple () A (perform o) (Contract.Returns fun _ => A) := by
  refine Contract.Triple.perform h.stableA (fun _ => h.stableA) fun s a s' hI hA ha => ?_
  obtain ⟨hI', hg⟩ := h.any s o a s' hI ha
  exact ⟨hI', hg, h.keepsA s o a s' hI ho hA ha⟩

/-- An operation while the engine is probed. -/
theorem during (h : Startup C addr A B R) {o : HostOp} (ho : o.Harmless)
    (hne : ∀ addr, o ≠ .openChannel addr) :
    C.Triple () B (perform o) (Contract.Returns fun _ => B) := by
  refine Contract.Triple.perform h.stableB (fun _ => h.stableB) fun s a s' hI hB ha => ?_
  obtain ⟨hI', hg⟩ := h.any s o a s' hI ha
  exact ⟨hI', hg, h.keepsB s o a s' hI ho hne hB ha⟩

/-! ### The two phases -/

theorem launch (h : Startup C addr A B R) : Launch C A A A fun _ => True where
  stableA := h.stableA
  stableL := h.stableA
  stableS := h.stableA
  stableE := .const True
  ensureBinary _ := (h.before (by trivial)).outcome fun _ _ => trivial
  bindFreePort := (h.before (by trivial)).outcome fun _ _ => trivial
  releasePort _ := h.before (by trivial)
  openLog := (h.before (by trivial)).outcome fun _ _ => trivial
  spawn _ := (h.before (by trivial)).outcome fun _ _ => trivial
  setAttr := h.before (by trivial)
  registerAtexit := h.before (by trivial)

/-- Whatever is done on the way to an exception. -/
theorem ready_of_raise (h : Startup C addr A B R) {P : HostState → Prop} (p : HostM Unit)
    (q : HostM String) (e : String → Exn) :
    C.Triple () P (p >>= fun _ => q >>= fun tail => Prog.raise (e tail)) (Ready R) := by
  have hraise (tail : String) :
      C.Triple () (fun _ => True) (Prog.raise (e tail) : HostM (Option Client)) (Ready R) :=
    .done (.const True) fun _ _ _ => trivial
  -- nothing is asked of a state in which an exception is on its way
  have hrest : C.Triple () (fun _ => True)
      (p >>= fun _ => q >>= fun tail => Prog.raise (e tail)) (Ready R) := by
    refine (Contract.Triple.any h.any p).bind (fun _ => ?_) fun _ =>
      .done (.const True) fun _ _ _ => trivial
    exact (Contract.Triple.any h.any q).bind hraise fun _ =>
      .done (.const True) fun _ _ _ => trivial
  exact hrest.pre fun _ _ => trivial

theorem watch (h : Startup C addr A B R) (timeout : ℚ) :
    Watch C rt addr timeout B (fun _ => True) R (fun _ => B) (Ready R) where
  stableB := h.stableB
  stableR := h.stableR
  stableK _ := h.stableB
  stableQ := h.stable_ready
  monotonic := h.during (by trivial) (by simp)
  poll := by
    have hpoll : C.Triple () B (perform .poll) (Contract.Returns fun _ => B) :=
      h.during (by trivial) (by simp)
    -- whether the subprocess runs or not does not matter to `B`
    refine hpoll.weaken (fun exitCode s hs => ?_) fun _ _ hf => hf
    cases exitCode with
    | none => exact hs
    | some exitCode => trivial
  new := h.during (by trivial) (by simp)
  send _ := (h.during (by trivial) (by simp)).outcome fun _ hs => hs
  recv := by
    refine Contract.Triple.perform h.stableB (.post (fun _ => h.stableR) fun _ => h.stableB) ?_
    intro s a s' hI hB ha
    obtain ⟨hI', hg⟩ := h.any s _ a s' hI ha
    refine ⟨hI', hg, ?_⟩
    cases a with
    -- the only answer that makes the constructor return
    | ok resp => exact h.ready s resp s' hI hB ha
    | error e => exact h.keepsB s _ _ s' hI (by trivial) (by simp) hB ha
  sleep := (h.during (by trivial) (by simp)).outcome fun _ _ => trivial
  crashed exitCode := h.ready_of_raise _ _ _
  late last := h.ready_of_raise _ _ _
  answered _ hR client hc := ⟨(Option.some.inj hc).symm, hR⟩
  again _ _ _ _ hs := hs
  lost _ _ _ _ := trivial
  unfinished _ _ _ hc := by cases hc

theorem waitReady (h : Startup C addr A B R) (timeout : ℚ) (n : ℕ) :
    C.Triple () A (LocalConduit.waitReady rt addr timeout n) (Ready R) := by
  refine (h.watch timeout).waitReady (h.before (by trivial)) ?_ n
  refine Contract.Triple.perform h.stableA (fun _ => h.stableB) fun s a s' hI hA ha => ?_
  obtain ⟨hI', hg⟩ := h.any s _ a s' hI ha
  exact ⟨hI', hg, h.opens s a s' hI hA ha⟩

/-! ### The constructor -/

/-- With a `LocalConduit` its assertion holds, and its client is the one that tears the
subprocess down. -/
def Constructed (R : String → HostState → Prop) :
    Except Exn (Option LocalConduit) → HostState → Prop :=
  Contract.Post
    (fun r s => ∀ engine, r = some engine →
      engine.client = LocalConduit.boundClient ∧ R (address engine.grpcPort) s)
    fun _ _ => True

variable {B' R' : String → HostState → Prop} {stateDir : String}
  {version binary : Option String} {timeout : ℚ} {n : Nat}

theorem init (h : ∀ addr, Startup C addr A (B' addr) (R' addr)) :
    C.Triple () A (LocalConduit.init rt stateDir version binary timeout n)
      (Constructed R') := by
  rw [LocalConduit.init_eq]
  refine (h "").launch.launch.bind (fun l => ?_) fun e =>
    .done (.const True) fun _ _ _ => trivial
  have hready := (h (address l.2.1)).stable_ready
  -- the wait, with the handler that tears the subprocess down
  have hguarded : C.Triple () A
      ((LocalConduit.waitReady rt (address l.2.1) timeout n).tryCatch fun e =>
        LocalConduit.terminate >>= fun _ => Prog.raise e) (Ready (R' (address l.2.1))) := by
    refine ((h _).waitReady timeout n).tryCatch (fun client => ?_) fun e => ?_
    · exact .done (hready (.ok client)) fun _ _ hq => hq
    · -- the handler raises again, whatever the teardown has done
      refine (Contract.Triple.any (h "").any LocalConduit.terminate).bind (fun _ => ?_)
        fun _ => .done (.const True) fun _ _ _ => trivial
      exact .done (.const True) fun _ _ _ => trivial
  refine hguarded.bind (fun client => ?_) fun _ => .done (.const True) fun _ _ _ => trivial
  refine .done (hready (.ok client)) fun s _ hq engine he => ?_
  -- the object is built from the client that the wait has returned
  obtain ⟨client, rfl, rfl⟩ := Option.map_eq_some_iff.mp he
  exact hq client rfl

end Startup

end Conduit
