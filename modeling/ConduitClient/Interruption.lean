import ConduitClient.Teardown

/-!
# Teardowns that are cut short

`_terminate` sets its flag before it waits for the subprocess. When a wait is cut short, by
`KeyboardInterrupt` or because the subprocess outlives SIGKILL, the flag stays set, and every
call after that returns without a look at the subprocess (`eval_stopped`). So a later call
leaves the subprocess exited exactly when it has exited by itself before the call
(`later_call_iff`).
-/

namespace Conduit

open Effect HostState

/-! ### Calls with nothing left to do -/

theorem eval_terminate_stopped {sc : Scenario} {s : HostState} (h : s.stopped = true) :
    LocalConduit.terminate.eval sc.handle s = (.ok (), s) := by
  have hget : (perform (.getAttr .stopped)).eval sc.handle s = (.ok true, s) := by
    rw [← h]
    rfl
  exact Prog.eval_bind_ok _ hget

/-- A call after `_terminate` has set its flag returns, and leaves the subprocess alone. -/
theorem eval_stopped {engine : LocalConduit} (hclient : engine.client = LocalConduit.boundClient)
    (call : Stopping) (sc : Scenario) {s : HostState} (h : s.stopped = true) :
    ∃ s', (call.run engine).eval sc.handle s = (.ok (), s') ∧ s'.engine = s.engine := by
  have hclose : ∃ s', engine.close.eval sc.handle s = (.ok (), s') ∧ s'.engine = s.engine := by
    rw [LocalConduit.close, hclient]
    by_cases hclosed : s.closed = true
    -- a second close returns at once, a first one still closes the channel
    · have hget : (perform (.getAttr .closed)).eval sc.handle s = (.ok true, s) := by
        rw [← hclosed]
        rfl
      exact ⟨s, Prog.eval_bind_ok _ hget, rfl⟩
    · have hget : (perform (.getAttr .closed)).eval sc.handle s = (.ok false, s) := by
        rw [← Bool.eq_false_iff.mpr hclosed]
        rfl
      refine ⟨{ (s.setFlag true .closed).log .channelClosed with channelOpen := false }, ?_, rfl⟩
      refine (Prog.eval_bind_ok _ hget).trans ?_
      exact eval_terminate_stopped h
  cases call with
  | close => exact hclose
  | exit => exact hclose
  | clientClose => exact hclose
  | clientExit => exact hclose
  | atexit => exact ⟨s, Prog.eval_tryCatch_ok _ (eval_terminate_stopped h), rfl⟩

/-- Whatever happens next, a subprocess that has exited has exited. -/
theorem exited_of_ends {α : Type} {p : HostM α} {s s' : HostState} {r : Except Exn α}
    (h : s.Exited) (he : Ends hostWorld p s r s') : s'.Exited := by
  obtain ⟨code, hcode⟩ := h
  exact ⟨code, ((settled_triple p).ends (C := settled code s.signals) ⟨hcode, rfl⟩ trivial he).1.1⟩

/-! ### The call after -/

section Constructed

variable {rt : Runtime} {stateDir : String} {version binary : Option String} {timeout : ℚ}
  {n : Nat} {s₀ s₁ : HostState} {engine : LocalConduit}

/-- **The call after.** In every execution of any sequence of calls, before any further call:
when a wait was cut short before, the call leaves the subprocess exited whenever it returns
normally, exactly if the subprocess had exited before the call. A call that returns normally
leaves the subprocess exited anyway as long as no wait was cut short. -/
theorem later_call_iff (h₀ : s₀.Before)
    (hc : Ends hostWorld (LocalConduit.init rt stateDir version binary timeout n) s₀
      (.ok (some engine)) s₁)
    {calls : List Stopping} {s : HostState}
    (hs : Series hostWorld s₁ (calls.map (Stopping.run engine)) s) (next : Stopping) :
    ((s.CutShort → ∀ s', Ends hostWorld (next.run engine) s (.ok ()) s' → s'.Exited) ↔
      (s.CutShort → s.Exited)) ∧
    ∀ s', Ends hostWorld (next.run engine) s (.ok ()) s' → s'.CutShort ∨ s'.Exited := by
  obtain ⟨hclient, hnew⟩ := init_new h₀ hc
  obtain ⟨hdisc, hbetween⟩ := between_of_series hclient hnew.disciplined hnew.between hs
  -- what has exited stays so, which is one direction
  refine ⟨⟨fun h hcut => ?_, fun h hcut s' he => exited_of_ends (h hcut) he⟩, fun s' he => ?_⟩
  · -- the call may find nothing to do, and nothing else happen meanwhile
    have hstopped : s.stopped = true := by
      by_contra hne
      exact hdisc.not_cutShort (Bool.eq_false_iff.mpr hne) hcut
    obtain ⟨s', heval, hengine⟩ := eval_stopped hclient next ⟨.engine, true⟩ hstopped
    have hserves : (⟨.engine, true⟩ : Scenario).server.serves = true := rfl
    have hends := Scenario.ends_host hserves (next.run engine) s
    rw [heval] at hends
    obtain ⟨code, hcode⟩ := h hcut s' hends
    exact ⟨code, hengine ▸ hcode⟩
  · exact ((stopping_triple hclient next).ends hdisc hbetween he).2.2.imp id And.left

end Constructed

/-! ### An interrupted close -/

/-- The subprocess does not exit when it is waited for, and the wait is interrupted. -/
def defiant : Scenario := ⟨.engine, false⟩

/-- The host after an interrupted close. -/
def interruptedHost : HostState :=
  (LocalConduit.boundClient.close.eval defiant.handle defiant.started).2

theorem interruptedHost_eq :
    (LocalConduit.boundClient.close.eval defiant.handle defiant.started).1 =
        .error .keyboardInterrupt ∧
      interruptedHost.engine = .running ∧ interruptedHost.stopped = true ∧
      .interrupted ∈ interruptedHost.history := by
  decide +kernel

/-- A quick start and an interrupted close, as an execution. -/
theorem interrupted_close :
    ∃ engine, Ends hostWorld quickStart idleHost (.ok (some engine)) defiant.started ∧
      engine.client = LocalConduit.boundClient ∧
      Ends hostWorld (Stopping.run engine .close) defiant.started (.error .keyboardInterrupt)
        interruptedHost := by
  have hok : defiant.outcome.isSome := by decide +kernel
  obtain ⟨engine, hengine⟩ := Option.isSome_iff_exists.mp hok
  have hstart := defiant.quickStart_ends rfl hengine
  have hclient := (init_new idleHost_before hstart).1
  refine ⟨engine, hstart, hclient, ?_⟩
  have hends := defiant.ends_host rfl LocalConduit.boundClient.close defiant.started
  rw [interruptedHost_eq.1] at hends
  rw [Stopping.run, LocalConduit.close, hclient]
  exact hends

/-- After it no further call is sure to leave the subprocess exited. -/
theorem later_call_interrupted :
    ∃ engine s, Ends hostWorld (Stopping.run engine .close) defiant.started
        (.error .keyboardInterrupt) s ∧ s.CutShort ∧ s.engine = .running ∧
      ∀ next, ¬ ∀ s', Ends hostWorld (Stopping.run engine next) s (.ok ()) s' → s'.Exited := by
  obtain ⟨engine, hstart, -, hclose⟩ := interrupted_close
  obtain ⟨-, hrunning, -, hinterrupted⟩ := interruptedHost_eq
  have hcut : interruptedHost.CutShort := Or.inl hinterrupted
  have hseries : Series hostWorld defiant.started ([Stopping.close].map (Stopping.run engine))
      interruptedHost := .snoc .nil hclose
  refine ⟨engine, interruptedHost, hclose, hcut, hrunning, fun next hall => ?_⟩
  have hiff := (later_call_iff idleHost_before hstart hseries next).1
  obtain ⟨code, hcode⟩ := hiff.mp (fun _ => hall) hcut
  rw [hrunning] at hcode
  cases hcode

/-- A close that is interrupted in the grace window, then another close and the hook of
`atexit`: both return normally, and the subprocess runs on. -/
theorem retry_leaves_orphan :
    ∃ engine s₁ s₂ s₃ s₄, Ends hostWorld quickStart idleHost (.ok (some engine)) s₁ ∧
      Ends hostWorld (Stopping.run engine .close) s₁ (.error .keyboardInterrupt) s₂ ∧
      Ends hostWorld (Stopping.run engine .close) s₂ (.ok ()) s₃ ∧
      Ends hostWorld (Stopping.run engine .atexit) s₃ (.ok ()) s₄ ∧
      ¬ s₃.Exited ∧ ¬ s₄.Exited := by
  obtain ⟨engine, hstart, hclient, hclose⟩ := interrupted_close
  have hrun : Stopping.run engine .close = LocalConduit.boundClient.close := by
    rw [Stopping.run, LocalConduit.close, hclient]
  have hretry := defiant.ends_host rfl LocalConduit.boundClient.close interruptedHost
  have hhook := defiant.ends_host rfl LocalConduit.atexitKill
    (LocalConduit.boundClient.close.eval defiant.handle interruptedHost).2
  have hresult :
      (LocalConduit.boundClient.close.eval defiant.handle interruptedHost).1 = .ok () ∧
      (LocalConduit.boundClient.close.eval defiant.handle interruptedHost).2.engine =
        .running ∧
      (LocalConduit.atexitKill.eval defiant.handle
        (LocalConduit.boundClient.close.eval defiant.handle interruptedHost).2).1 = .ok () ∧
      (LocalConduit.atexitKill.eval defiant.handle
        (LocalConduit.boundClient.close.eval defiant.handle interruptedHost).2).2.engine =
          .running := by
    decide +kernel
  obtain ⟨hok, hrunning, hok', hrunning'⟩ := hresult
  -- both calls return, and neither has touched the subprocess
  rw [hok] at hretry
  rw [hok'] at hhook
  refine ⟨engine, _, _, _, _, hstart, hclose, hrun ▸ hretry, hhook, ?_, ?_⟩
  · rintro ⟨code, hcode⟩
    rw [hrunning] at hcode
    cases hcode
  · rintro ⟨code, hcode⟩
    rw [hrunning'] at hcode
    cases hcode

end Conduit
