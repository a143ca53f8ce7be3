import ConduitClient.Effect.Solo
import ConduitClient.Local

/-!
# The phases of the constructor

`LocalConduit.__init__` acquires what it needs, up to the subprocess (`launch`), and then waits
for the API of the subprocess; when the wait raises, it stops the subprocess. The constructor
is cut there (`init_eq`, `init_error_iff`).

For each phase there is a rule over any world: `Launch` and `Watch` list what single operations
have to do to a few assertions, and the triple of the whole phase follows.
-/

namespace Conduit

open Effect

namespace LocalConduit

/-- The first phase of `LocalConduit.__init__`. -/
def launch (stateDir : String) (version binary : Option String) : HostM (String × ℕ × ℕ) := do
  let binaryPath ← binaryPathOf version binary
  let grpcPort ← freePort
  let httpPort ← freePort
  performOrRaise (perform .openLog)
  performOrRaise (perform (.spawn (engineArgs binaryPath stateDir grpcPort httpPort)))
  perform (.setAttr .stopped false)
  perform .registerAtexit
  return (binaryPath, grpcPort, httpPort)

/-- The constructor is its two phases. -/
theorem init_eq (rt : Runtime) (stateDir : String) (version binary : Option String)
    (timeout : ℚ) (n : ℕ) :
    init rt stateDir version binary timeout n =
      launch stateDir version binary >>= fun l =>
        (waitReady rt (address l.2.1) timeout n).tryCatch (fun e =>
            terminate >>= fun _ => Prog.raise e) >>= fun client =>
          pure (client.map fun client => ⟨stateDir, l.1, l.2.1, l.2.2, client⟩) := by
  simp only [init, launch, supervise, bind_assoc, pure_bind]

end LocalConduit

variable {σ : Type} {W : World Host Unit σ} {rt : Runtime} {stateDir addr : String}
  {version binary : Option String} {timeout : ℚ} {n : ℕ}

/-- The operations of the launch. -/
def HostOp.Launches : HostOp → Prop
  | .ensureBinary _ | .bindFreePort | .releasePort _ | .openLog | .spawn _ | .registerAtexit
  | .setAttr .stopped false => True
  | _ => False

theorem only_launch (stateDir : String) (version binary : Option String) :
    (LocalConduit.launch stateDir version binary).Only HostOp.Launches := by
  have hport : freePort.Only HostOp.Launches :=
    .bind (only_performOrRaise (.perform (by trivial))) fun _ =>
      .bind (.perform (by trivial)) fun _ => trivial
  have hbinary : (LocalConduit.binaryPathOf version binary).Only HostOp.Launches := by
    cases binary with
    | some binary => trivial
    | none => exact only_performOrRaise (.perform (by trivial))
  refine .bind hbinary fun _ => .bind hport fun _ => .bind hport fun _ => ?_
  refine .bind (only_performOrRaise (.perform (by trivial))) fun _ => ?_
  refine .bind (only_performOrRaise (.perform (by trivial))) fun _ => ?_
  exact .bind (.perform (by trivial)) fun _ => .bind (.perform (by trivial)) fun _ => trivial

/-- A constructor raises in its first phase, or else its wait raises, and then either the
teardown raises as well or the exception of the wait is raised again. -/
theorem init_error_iff {e : Exn} {s s' : σ} :
    Ends W (LocalConduit.init rt stateDir version binary timeout n) s (.error e) s' ↔
      Ends W (LocalConduit.launch stateDir version binary) s (.error e) s' ∨
        ∃ l s₁ e₀ s₂, Ends W (LocalConduit.launch stateDir version binary) s (.ok l) s₁ ∧
          Ends W (LocalConduit.waitReady rt (address l.2.1) timeout n) s₁ (.error e₀) s₂ ∧
          (Ends W LocalConduit.terminate s₂ (.error e) s' ∨
            e = e₀ ∧ Ends W LocalConduit.terminate s₂ (.ok ()) s') := by
  rw [LocalConduit.init_eq]
  constructor
  · intro h
    rcases h.bind with ⟨e', he, hlaunch⟩ | ⟨l, s₁, hlaunch, hrest⟩
    · -- the launch has raised, before there is anything to tear down
      cases he
      exact Or.inl hlaunch
    · rcases hrest.bind with ⟨e', he, hwait⟩ | ⟨client, s₂, -, hdone⟩
      · -- the wait has raised, and its handler ran
        cases he
        obtain ⟨r, s₂, hwait, hhandler⟩ := Ends.handle_iff.mp hwait
        cases r with
        | ok client => cases (Ends.done_iff.mp hhandler).1
        | error e₀ =>
          refine Or.inr ⟨l, s₁, e₀, s₂, hlaunch, hwait, ?_⟩
          rcases Ends.bind hhandler with ⟨e', he, hterm⟩ | ⟨_, s₃, hterm, hraise⟩
          · -- the teardown raises, which replaces the exception of the wait
            cases he
            exact Or.inl hterm
          · -- the teardown returns, and `raise` raises the exception of the wait again
            obtain ⟨he, hd⟩ := Ends.done_iff.mp hraise
            cases he
            exact Or.inr ⟨rfl, hterm.drifts hd⟩
      · cases (Ends.done_iff.mp hdone).1
  · rintro (hlaunch | ⟨l, s₁, e₀, s₂, hlaunch, hwait, hterm⟩)
    · -- the other way round, the phases are put together
      exact .bind_error hlaunch
    · refine .bind_ok hlaunch (.bind_error (Ends.handle_iff.mpr ⟨_, _, hwait, ?_⟩))
      rcases hterm with hterm | ⟨rfl, hterm⟩
      · exact .bind_error hterm
      · exact .bind_ok hterm (Ends.done_iff.mpr ⟨rfl, .refl⟩)

/-- A `ConduitError` of the constructor is one of the launch or one of the wait, where the
teardown raises none. -/
theorem init_conduit_error {s s' : σ} {err : ConduitError}
    (hterm : ∀ s e s', Ends W LocalConduit.terminate s (.error e) s' → e.Foreign)
    (h : Ends W (LocalConduit.init rt stateDir version binary timeout n) s
      (.error (.conduit err)) s') :
    Ends W (LocalConduit.launch stateDir version binary) s (.error (.conduit err)) s' ∨
      ∃ l s₁ s₂, Ends W (LocalConduit.launch stateDir version binary) s (.ok l) s₁ ∧
        Ends W (LocalConduit.waitReady rt (address l.2.1) timeout n) s₁
          (.error (.conduit err)) s₂ ∧
        Ends W LocalConduit.terminate s₂ (.ok ()) s' := by
  rcases init_error_iff.mp h with hlaunch | ⟨l, s₁, e₀, s₂, hlaunch, hwait, hraised⟩
  · exact Or.inl hlaunch
  · rcases hraised with hraised | ⟨rfl, hreturned⟩
    · -- the teardown has replaced the error by an exception of its own
      exact absurd rfl (hterm s₂ _ s' hraised err)
    · exact Or.inr ⟨l, s₁, s₂, hlaunch, hwait, hreturned⟩

variable {C : Contract W}

/-! ### The launch -/

/-- Assertions for the launch: `A` until the log is open, `L` until the subprocess runs, `S`
from then on, and `E` when an operation has raised. -/
structure Launch (C : Contract W) (A L S E : σ → Prop) : Prop where
  stableA : C.Stable () A
  stableL : C.Stable () L
  stableS : C.Stable () S
  stableE : C.Stable () E
  ensureBinary : ∀ version, C.Triple () A (perform (.ensureBinary version))
    (Contract.Returns (Contract.Post (fun _ => A) fun _ => E))
  bindFreePort : C.Triple () A (perform .bindFreePort)
    (Contract.Returns (Contract.Post (fun _ => A) fun _ => E))
  releasePort : ∀ port, C.Triple () A (perform (.releasePort port)) (Contract.Returns fun _ => A)
  openLog : C.Triple () A (perform .openLog)
    (Contract.Returns (Contract.Post (fun _ => L) fun _ => E))
  spawn : ∀ args, C.Triple () L (perform (.spawn args))
    (Contract.Returns (Contract.Post (fun _ => S) fun _ => E))
  setAttr : C.Triple () S (perform (.setAttr .stopped false)) (Contract.Returns fun _ => S)
  registerAtexit : C.Triple () S (perform .registerAtexit) (Contract.Returns fun _ => S)

namespace Launch

variable {A L S E : σ → Prop}

theorem binaryPathOf (h : Launch C A L S E) (version binary : Option String) :
    C.Triple () A (LocalConduit.binaryPathOf version binary)
      (Contract.Post (fun _ => A) fun _ => E) := by
  cases binary with
  | some binary => exact .done h.stableA fun _ _ hs => hs
  | none =>
    -- without a `binary` one is downloaded, or found in the cache
    exact .orRaise (.post (fun _ => h.stableA) fun _ => h.stableE) (h.ensureBinary version)

theorem freePort (h : Launch C A L S E) :
    C.Triple () A freePort (Contract.Post (fun _ => A) fun _ => E) := by
  refine Contract.Triple.bind_post (fun _ => h.stableE)
    (.orRaise (.post (fun _ => h.stableA) fun _ => h.stableE) h.bindFreePort) fun port => ?_
  exact (h.releasePort port).bind_returns fun _ => .done h.stableA fun _ _ hs => hs

/-- The whole launch. -/
theorem launch (h : Launch C A L S E) :
    C.Triple () A (LocalConduit.launch stateDir version binary)
      (Contract.Post (fun _ => S) fun _ => E) := by
  have hE (_ : Exn) : C.Stable () E := h.stableE
  refine (h.binaryPathOf version binary).bind_post hE fun binaryPath => ?_
  refine h.freePort.bind_post hE fun grpcPort => ?_
  refine h.freePort.bind_post hE fun httpPort => ?_
  have hopen := Contract.Triple.orRaise (.post (fun _ => h.stableL) hE) h.openLog
  refine Contract.Triple.bind_post hE hopen fun _ => ?_
  refine Contract.Triple.bind_post hE
    (.orRaise (.post (fun _ => h.stableS) hE) (h.spawn _)) fun _ => ?_
  refine h.setAttr.bind_returns fun _ => ?_
  refine h.registerAtexit.bind_returns fun _ => ?_
  exact .done h.stableS fun _ _ hs => hs

end Launch

/-! ### A call -/

/-- A stub that raises leaves `K`, and `_call` changes nothing but the exception. -/
theorem call_triple {lib : Codec} {m : Method} {r : Ref} {t : ℚ} {P M R : σ → Prop}
    {K : Exn → σ → Prop} (hM : C.Stable () M) (hR : C.Stable () R) (hK : ∀ e, C.Stable () (K e))
    (hsend : C.Triple () P (perform (.send m r t))
      (Contract.Returns (Contract.Post (fun _ => M) K)))
    (hrecv : C.Triple () M (perform (.recv m))
      (Contract.Returns (Contract.Post (fun _ => R) K))) :
    C.Triple () P (Client.call lib m r t)
      (Contract.Post (fun _ => R) fun e s => ∃ e₀, e = raised lib e₀ ∧ K e₀ s) := by
  have hstub : C.Triple () P (stub m r t) (Contract.Post (fun _ => R) K) := by
    refine Contract.Triple.bind_post hK (.orRaise (.post (fun _ => hM) hK) hsend) fun _ => ?_
    exact .orRaise (.post (fun _ => hR) hK) hrecv
  refine hstub.tryCatch (fun _ => .done hR fun _ _ hs => hs) fun e => ?_
  -- the translation of the failure performs no operation
  cases e with
  | rpc e =>
    have hraised : raised lib (.rpc e) = translated lib e := rfl
    unfold translated at hraised
    change C.Triple () _ (Prog.ofExcept _ >>= _) _
    cases hlib : ConduitError.fromRpcError lib e with
    | ok err =>
      rw [hlib] at hraised
      exact .done (hK _) fun _ _ hs => ⟨.rpc e, hraised.symm, hs⟩
    | error x =>
      rw [hlib] at hraised
      exact .done (hK _) fun _ _ hs => ⟨.rpc e, hraised.symm, hs⟩
  | _ => exact .done (hK _) fun _ _ hs => ⟨_, rfl, hs⟩

/-- `_log_tail` opens the log (`O`), finds its size (`Z`) and reads its end, which makes the text
(`T`). Each of the three may raise (`E`), and for an `OSError` a text stands in. -/
theorem logTail_rule {P O : σ → Prop} {Z : ℕ → σ → Prop} {T : String → σ → Prop}
    {E : Exn → σ → Prop} {maxBytes : ℕ} (hO : C.Stable () O) (hZ : ∀ size, C.Stable () (Z size))
    (hT : ∀ text, C.Stable () (T text)) (hE : ∀ e, C.Stable () (E e))
    (hopen : C.Triple () P (perform .openLogForReading)
      (Contract.Returns (Contract.Post (fun _ => O) E)))
    (hsize : C.Triple () O (perform .logSize) (Contract.Returns (Contract.Post Z E)))
    (hread : ∀ size, C.Triple () (Z size) (perform (.readLogFrom (size - maxBytes)))
      (Contract.Returns (Contract.Post (fun bytes => T (rt.decodeReplace bytes)) E)))
    (hlost : ∀ msg s, E (.os msg) s → T "<log unavailable>" s) :
    C.Triple () P (LocalConduit.logTail rt maxBytes) (Contract.Post T E) := by
  refine Contract.Triple.tryCatch (Q := Contract.Post T E) ?_
    (fun text => .done (hT text) fun _ _ hs => hs) fun e => ?_
  · refine Contract.Triple.bind_post hE (.orRaise (.post (fun _ => hO) hE) hopen) fun _ => ?_
    refine Contract.Triple.bind_post hE (.orRaise (.post hZ hE) hsize) fun size => ?_
    refine Contract.Triple.bind_post hE (.orRaise (.post (fun _ => hT _) hE) (hread size))
      fun bytes => ?_
    exact .done (hT _) fun _ _ hs => hs
  · cases e with
    -- `except OSError`
    | os msg => exact .done (hE _) fun s _ hs => hlost msg s hs
    | _ => exact .done (hE _) fun _ _ hs => hs

/-- `_log_tail` raises what its operations raise, and an `OSError` is caught. -/
theorem logTail_triple {P : σ → Prop} {φ : Exn → Prop} (hP : C.Stable () P)
    (hopen : C.Triple () P (perform .openLogForReading)
      (Contract.Returns (Contract.Post (fun _ => P) fun e s => φ e ∧ P s)))
    (hsize : C.Triple () P (perform .logSize)
      (Contract.Returns (Contract.Post (fun _ => P) fun e s => φ e ∧ P s)))
    (hread : ∀ k, C.Triple () P (perform (.readLogFrom k))
      (Contract.Returns (Contract.Post (fun _ => P) fun e s => φ e ∧ P s))) (maxBytes : ℕ) :
    C.Triple () P (LocalConduit.logTail rt maxBytes)
      (Contract.Post (fun _ => P) fun e s => φ e ∧ P s) := by
  have hE (e : Exn) : C.Stable () fun s => φ e ∧ P s := (Contract.Stable.const _).and hP
  exact logTail_rule hP (fun _ => hP) (fun _ => hP) hE hopen hsize (fun _ => hread _)
    fun _ _ hs => hs.2

/-- The end of a wait that is given up: the channel is closed (`M`), the log is read (`T`), and
the error is raised, unless an exception of the log (`E`) comes before it. -/
theorem giveUp_rule {P M : σ → Prop} {T : String → σ → Prop} {E : Exn → σ → Prop}
    {Q : Except Exn (Option Client) → σ → Prop} {exn : String → Exn} {maxBytes : ℕ}
    (hT : ∀ text, C.Stable () (T text)) (hE : ∀ e, C.Stable () (E e))
    (hclose : C.Triple () P (perform .closeChannel) (Contract.Returns fun _ => M))
    (htail : C.Triple () M (LocalConduit.logTail rt maxBytes) (Contract.Post T E))
    (hraise : ∀ text s, T text s → Q (.error (exn text)) s)
    (hlost : ∀ e s, E e s → Q (.error e) s) :
    C.Triple () P (perform .closeChannel >>= fun _ => LocalConduit.logTail rt maxBytes >>=
      fun tail => Prog.raise (exn tail)) Q := by
  refine hclose.bind_returns fun _ => htail.bind (fun text => ?_) fun e => ?_
  · exact .done (hT text) fun s _ hs => hraise text s hs
  · exact .done (hE e) fun s _ hs => hlost e s hs

/-! ### The wait -/

/-- Assertions for the wait: `B` while the subprocess is probed, `D` when it was seen to have
exited, `R` when a probe was answered, `K e` when its stub has raised `e`, and `Q` when the wait
is over. -/
structure Watch (C : Contract W) (rt : Runtime) (addr : String) (timeout : ℚ)
    (B D R : σ → Prop) (K : Exn → σ → Prop)
    (Q : Except Exn (Option Client) → σ → Prop) : Prop where
  stableB : C.Stable () B
  stableR : C.Stable () R
  stableK : ∀ e, C.Stable () (K e)
  stableQ : ∀ r, C.Stable () (Q r)
  monotonic : C.Triple () B (perform .monotonic) (Contract.Returns fun _ => B)
  poll : C.Triple () B (perform .poll)
    (Contract.Returns fun exitCode s => exitCode.elim (B s) fun _ => D s)
  new : C.Triple () B (perform (.new .getInfo)) (Contract.Returns fun _ => B)
  send : ∀ r, C.Triple () B (perform (.send .getInfo r 1))
    (Contract.Returns (Contract.Post (fun _ => B) K))
  recv : C.Triple () B (perform (.recv .getInfo))
    (Contract.Returns (Contract.Post (fun _ => R) K))
  sleep : C.Triple () B (perform (.sleep (1 / 10)))
    (Contract.Returns (Contract.Post (fun _ => B) fun e => Q (.error e)))
  /-- The subprocess was seen to have exited. -/
  crashed : ∀ exitCode, C.Triple () D (perform .closeChannel >>= fun _ =>
    LocalConduit.logTail rt 4096 >>= fun tail =>
      Prog.raise (.conduit (LocalConduit.crashedError exitCode tail))) Q
  /-- The time is over. -/
  late : ∀ last, C.Triple () B (perform .closeChannel >>= fun _ =>
    LocalConduit.logTail rt 4096 >>= fun tail =>
      Prog.raise (.conduit (LocalConduit.unreachableError rt addr timeout last tail))) Q
  answered : ∀ s, R s → Q (.ok (some LocalConduit.boundClient)) s
  /-- A `ConduitError` is caught. -/
  again : ∀ e err s, raised rt.toCodec e = .conduit err → K e s → B s
  /-- Everything else is not. -/
  lost : ∀ e s, (raised rt.toCodec e).Foreign → K e s → Q (.error (raised rt.toCodec e)) s
  unfinished : ∀ s, B s → Q (.ok none) s

namespace Watch

variable {B D R S : σ → Prop} {K : Exn → σ → Prop} {Q : Except Exn (Option Client) → σ → Prop}

/-- After a probe the API has answered, or it is probed again, or the wait is over. -/
theorem probe (h : Watch C rt addr timeout B D R K Q) :
    C.Triple () B (LocalConduit.probe rt)
      (Contract.Post (fun failed s => failed.elim (R s) fun _ => B s) fun e => Q (.error e)) := by
  have hraise (e : Exn) : C.Stable () fun s => ∃ e₀, e = raised rt.toCodec e₀ ∧ K e₀ s :=
    .exists fun e₀ => (Contract.Stable.const _).and (h.stableK e₀)
  have hget : C.Triple () B (Client.getInfo rt.toCodec 1)
      (Contract.Post (fun _ => R) fun e s => ∃ e₀, e = raised rt.toCodec e₀ ∧ K e₀ s) :=
    h.new.bind_returns fun r => call_triple h.stableB h.stableR h.stableK (h.send r) h.recv
  -- the body of the `try` yields nothing; only the handler yields an error to remember
  refine Contract.Triple.tryCatch
    (Q := Contract.Post (fun failed s => failed = none ∧ R s)
      fun e s => ∃ e₀, e = raised rt.toCodec e₀ ∧ K e₀ s) ?_ (fun failed => ?_) fun e => ?_
  · exact hget.bind_post hraise fun _ => .done h.stableR fun _ _ hs => ⟨rfl, hs⟩
  · refine .lift fun hnone => ?_
    subst hnone
    exact .done h.stableR fun _ _ hs => hs
  · cases e with
    | conduit err =>
      -- `except ConduitError`: the error is remembered, and the loop goes on
      refine .done (hraise _) fun s _ hs => ?_
      obtain ⟨e₀, he, hs⟩ := hs
      exact h.again e₀ err s he.symm hs
    | _ =>
      refine .done (hraise _) fun s _ hs => ?_
      obtain ⟨e₀, he, hs⟩ := hs
      -- no other exception has a handler
      have hother : (raised rt.toCodec e₀).Foreign := by
        rw [← he]
        exact fun _ => Exn.noConfusion
      exact he ▸ h.lost e₀ s hother hs

/-- The loop of `_wait_ready`, by the number of its iterations. -/
theorem probeLoop (h : Watch C rt addr timeout B D R K Q) (deadline : ℚ) (n : ℕ)
    (last : Option ConduitError) :
    C.Triple () B (LocalConduit.probeLoop rt addr timeout deadline n last) Q := by
  have hE (e : Exn) : C.Triple () (Q (.error e)) (.done (.error e)) Q :=
    .done (h.stableQ _) fun _ _ hs => hs
  -- induction on the iterations that are left, with `B` as the invariant
  induction n generalizing last with
  | zero => exact .done h.stableB fun s _ hs => h.unfinished s hs
  | succ n ih =>
    refine h.monotonic.bind_returns fun now => ?_
    split
    · -- before the deadline: look at the subprocess, then probe it
      refine h.poll.bind_returns fun exitCode => ?_
      cases exitCode with
      | some exitCode => exact h.crashed exitCode
      | none =>
        refine h.probe.bind (fun failed => ?_) hE
        cases failed with
        | none => exact .done h.stableR fun s _ hs => h.answered s hs
        | some err =>
          have hsleep : C.Triple () B (performOrRaise (perform (.sleep (1 / 10))))
              (Contract.Post (fun _ => B) fun e => Q (.error e)) :=
            .orRaise (.post (fun _ => h.stableB) fun e => h.stableQ (.error e)) h.sleep
          exact hsleep.bind (fun _ => ih _) hE
    · exact h.late last

/-- The whole wait. -/
theorem waitReady (h : Watch C rt addr timeout B D R K Q)
    (hmonotonic : C.Triple () S (perform .monotonic) (Contract.Returns fun _ => S))
    (hopen : C.Triple () S (perform (.openChannel addr)) (Contract.Returns fun _ => B))
    (n : ℕ) : C.Triple () S (LocalConduit.waitReady rt addr timeout n) Q := by
  refine hmonotonic.bind_returns fun now => ?_
  exact hopen.bind_returns fun _ => h.probeLoop _ n none

end Watch

end Conduit
