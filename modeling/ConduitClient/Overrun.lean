import ConduitClient.Budget
import ConduitClient.Effect.Timed

/-!
# When an operation is over

Both polling loops may outlast the time they are given (`in_time_iff`), but not by much. The host
is any deterministic one whose calls and waits keep their timeouts and in which nothing else takes
long (`Punctual`). There a loop that runs until a deadline is over one turn later at most, it does
end, and the time of every other operation adds up from its calls and its waits.
-/

namespace Conduit

open Effect

variable {σ : Type} {h : σ → (o : HostOp) → HostAns o × σ} {now : σ → ℚ} {slack : ℚ}

/-- Operations that wait for nothing. -/
def HostOp.Brief : HostOp → Prop
  | .send .. | .recv _ | .sleep _ | .wait _ | .ensureBinary _ => False
  | _ => True

/-- A host in which calls, sleeps and waits are over in time and nothing else takes long, up to
`slack`; and `time.sleep` returns no earlier than it was asked to. -/
structure Punctual (h : σ → (o : HostOp) → HostAns o × σ) (now : σ → ℚ) (slack : ℚ) : Prop
    extends Clocked h now where
  slack_nonneg : 0 ≤ slack
  call : ∀ m r t s, now ((stub m r t).eval h s).2 ≤ now s + (max t 0 + slack)
  sleep : ∀ d s, now (h s (.sleep d)).2 ≤ now s + (max d 0 + slack)
  slept : ∀ d s, (h s (.sleep d)).1 = .ok () → now s + d ≤ now (h s (.sleep d)).2
  wait : ∀ t s, now (h s (.wait t)).2 ≤ now s + (max t 0 + slack)
  brief : ∀ o s, o.Brief → now (h s o).2 ≤ now s + slack

namespace Punctual

variable (rt : Runtime)

/-! ### Calls -/

theorem takes_brief (hp : Punctual h now slack) {o : HostOp} (ho : o.Brief) :
    (perform o).Takes h now slack :=
  .perform fun s => hp.brief o s ho

/-- Raising what an operation answers takes no time of its own. -/
theorem takes_orRaise {α : Type} {p : HostM (Except Exn α)} {t : ℚ} (ht : p.Takes h now t) :
    (performOrRaise p).Takes h now t := by
  have hall : (performOrRaise p).Takes h now (t + 0) :=
    ht.bind (fun r => .done (le_refl 0)) (le_refl 0)
  rwa [add_zero] at hall

/-- `Client._call`: the translation of an `RpcError` takes no time. -/
theorem takes_call (hp : Punctual h now slack) (lib : Codec) (m : Method) (r : Ref)
    (t : ℚ) :
    (Client.call lib m r t).Takes h now (max t 0 + slack) := by
  have hstub : (stub m r t).Takes h now (max t 0 + slack) := hp.call m r t
  have hcall : (Client.call lib m r t).Takes h now (max t 0 + slack + 0) := by
    refine hstub.tryCatch (fun e => ?_) (le_refl 0)
    cases e with
    | rpc e =>
      -- only an `RpcError` is translated, and the translation may itself raise
      have hraise : (Prog.ofExcept (ConduitError.fromRpcError lib e) >>= fun err =>
          (Prog.raise (.conduit err) : HostM (Response m))).Takes h now (0 + 0) :=
        Prog.Takes.bind (.done (le_refl 0)) (fun _ => .done (le_refl 0)) (le_refl 0)
      rwa [add_zero] at hraise
    | _ => exact .done (le_refl 0)
  rwa [add_zero] at hcall

/-- `Run.status`: a message object, and a call. -/
theorem takes_status (hp : Punctual h now slack) (run : Run) (t : ℚ) :
    (run.status rt t).Takes h now (max t 0 + 2 * slack) := by
  have hall : (run.status rt t).Takes h now (slack + (max t 0 + slack + 0)) :=
    (hp.takes_brief (o := .new _) trivial).bind (fun r =>
      (hp.takes_call rt.toCodec .getPipeline r t).bind
      (fun _ => .done (le_refl 0)) (le_refl 0))
        (by have := hp.slack_nonneg; have := le_max_right t 0; linarith)
  exact hall.mono (by linarith)

/-- A probe of `_wait_ready`, whose call has one second. -/
theorem takes_probe (hp : Punctual h now slack) :
    (LocalConduit.probe rt).Takes h now (1 + 2 * slack) := by
  have hslack := hp.slack_nonneg
  have hcall : (Client.getInfo rt.toCodec 1).Takes h now (slack + (max 1 0 + slack)) :=
    (hp.takes_brief (o := .new _) trivial).bind (fun r => hp.takes_call rt.toCodec .getInfo r 1)
      (by have := le_max_right (1 : ℚ) 0; linarith)
  have hall : (LocalConduit.probe rt).Takes h now (slack + (max 1 0 + slack) + 0 + 0) := by
    refine (hcall.bind (fun _ => .done (le_refl 0)) (le_refl 0)).tryCatch (fun e => ?_) (le_refl 0)
    cases e <;> exact .done (le_refl 0)
  exact hall.mono (by rw [max_eq_left zero_le_one]; linarith)

/-! ### The two loops -/

/-- A turn of the loop of `wait_running`: past the deadline it leaves at once, and before it there
is a poll, and a pause unless the poll decides. -/
theorem turn_waitLoop (hp : Punctual h now slack) (run : Run) (timeout deadline pollInterval : ℚ)
    (n : ℕ) (last : Option RunStatus) (s : σ) :
    Turn h now deadline pollInterval (5 + max pollInterval 0 + 4 * slack) slack
      (run.waitLoop rt timeout deadline pollInterval n) (· ≠ .ok .polling)
      (run.waitLoop rt timeout deadline pollInterval (n + 1) last) s := by
  have hslack := hp.slack_nonneg
  have hpause := le_max_right pollInterval 0
  have hlook : now (h s .monotonic).2 ≤ now s + slack := hp.brief .monotonic s trivial
  by_cases hnow : (h s .monotonic).1 < deadline
  · -- the reading is no earlier than the turn, so the turn began before the deadline
    have hbefore : now s < deadline := (hp.reading s).1.trans_lt hnow
    have heval : (run.waitLoop rt timeout deadline pollInterval (n + 1) last).eval h s =
        (run.status rt 5 >>= run.pollStep rt timeout deadline pollInterval n).eval h
          (h s .monotonic).2 := by
      rw [Run.waitLoop, Prog.eval_perform_bind, if_pos hnow]
      rfl
    have hstatus : now ((run.status rt 5).eval h (h s .monotonic).2).2 ≤
        now (h s .monotonic).2 + (max 5 0 + 2 * slack) := hp.takes_status rt run 5 _
    rw [max_eq_left (by norm_num : (0 : ℚ) ≤ 5)] at hstatus
    cases hr : (run.status rt 5).eval h (h s .monotonic).2 with
    | mk r s₁ =>
      have hforward := (hp.forward s .monotonic).trans
        (Prog.le_eval hp.forward (run.status rt 5) (h s .monotonic).2)
      rw [hr] at hstatus hforward
      have hs₁ : now s₁ ≤ now s + (5 + 3 * slack) := by linarith
      cases r with
      | error e =>
        -- the source does not catch what a poll raises
        rw [Prog.eval_bind_error (S := Host) h hr] at heval
        exact .decides hbefore heval (fun hpolling => by cases hpolling) (by linarith)
      | ok status =>
        rw [Prog.eval_bind_ok (S := Host) h hr, Run.pollStep] at heval
        by_cases hrunning : status.isRunning
        · rw [if_pos hrunning] at heval
          exact .decides hbefore heval (fun hpolling => by cases hpolling) (by linarith)
        · rw [if_neg hrunning] at heval
          by_cases hdegraded : status.isDegraded
          · rw [if_pos hdegraded] at heval
            exact .decides hbefore heval (fun hpolling => by cases hpolling) (by linarith)
          · -- nothing is decided: the turn ends with the pause, which alone moves the loop on
            rw [if_neg hdegraded] at heval
            have hsleep := hp.sleep pollInterval s₁
            have hslept := hp.slept pollInterval s₁
            cases ha : h s₁ (.sleep pollInterval) with
            | mk a s₂ =>
              rw [ha] at hsleep hslept
              have hpause : (performOrRaise (perform (.sleep pollInterval))).eval h s₁ =
                  (a, s₂) := by
                rw [performOrRaise, Prog.eval_perform_bind, ha]
                rfl
              cases a with
              | error e =>
                rw [Prog.eval_bind_error (S := Host) h hpause] at heval
                exact .decides hbefore heval (fun hpolling => by cases hpolling) (by linarith)
              | ok _ =>
                rw [Prog.eval_bind_ok (S := Host) h hpause] at heval
                exact .goesOn hbefore heval (by linarith [hslept rfl]) (by linarith)
  · -- the one look at the clock is the whole turn
    have heval : (run.waitLoop rt timeout deadline pollInterval (n + 1) last).eval h s =
        (.error (.conduit (run.timeoutError rt timeout last)), (h s .monotonic).2) := by
      rw [Run.waitLoop, Prog.eval_perform_bind, if_neg hnow]
      rfl
    exact .leaves heval (fun hpolling => by cases hpolling) hlook

/-- `_log_tail` has three operations on the file. -/
theorem takes_logTail (hp : Punctual h now slack) (maxBytes : ℕ) :
    (LocalConduit.logTail rt maxBytes).Takes h now (3 * slack) := by
  have hslack := hp.slack_nonneg
  have hread : (do
      performOrRaise (perform .openLogForReading)
      let size ← performOrRaise (perform .logSize)
      let bytes ← performOrRaise (perform (.readLogFrom (size - maxBytes)))
      return rt.decodeReplace bytes : HostM String).Takes h now
        (slack + (slack + (slack + 0))) := by
    refine (takes_orRaise (hp.takes_brief (o := .openLogForReading) trivial)).bind
      (fun _ => ?_) (by linarith)
    refine (takes_orRaise (hp.takes_brief (o := .logSize) trivial)).bind (fun size => ?_)
      (by linarith)
    exact (takes_orRaise (hp.takes_brief (o := .readLogFrom (size - maxBytes)) trivial)).bind
      (fun _ => .done (le_refl 0)) (le_refl 0)
  -- an `OSError` of any of the three ends the reading with a fixed text
  refine (hread.tryCatch (fun e => ?_) (le_refl 0)).mono (by linarith)
  cases e <;> exact .done (le_refl 0)

/-- What ends the loop of `_wait_ready` with an error. -/
theorem reports (hp : Punctual h now slack) (err : String → Exn) (s : σ) :
    ∃ e s', (perform .closeChannel >>= fun _ => LocalConduit.logTail rt 4096 >>= fun tail =>
        (Prog.raise (err tail) : HostM (Option Client))).eval h s = (.error e, s') ∧
      now s' ≤ now s + 4 * slack := by
  have hslack := hp.slack_nonneg
  have htakes := (hp.takes_brief (o := .closeChannel) trivial).bind (fun _ =>
    (hp.takes_logTail rt 4096).bind (f := fun tail =>
      (Prog.raise (err tail) : HostM (Option Client))) (fun _ => .done (le_refl 0)) (le_refl 0))
        (by linarith)
  obtain ⟨e, he⟩ :=
    LocalConduit.raises_after (h := h) (p := LocalConduit.logTail rt 4096) err s
  exact ⟨e, _, Prod.ext he rfl, (htakes s).trans (by linarith)⟩

/-- The loop of `_wait_ready` after a probe. -/
def afterProbe (addr : String) (timeout deadline : ℚ) (n : ℕ) :
    Option ConduitError → HostM (Option Client)
  | none => return some LocalConduit.boundClient
  | some e => do
    performOrRaise (perform (.sleep (1 / 10)))
    LocalConduit.probeLoop rt addr timeout deadline n (some e)

/-- A turn of the loop of `_wait_ready`. Unlike the one of `wait_running` it has work to do when it
leaves: the channel is closed and the log is read. -/
theorem turn_probeLoop (hp : Punctual h now slack) (addr : String) (timeout deadline : ℚ)
    (n : ℕ) (last : Option ConduitError) (s : σ) :
    Turn h now deadline (1 / 10) (1 + 1 / 10 + 6 * slack) (5 * slack)
      (LocalConduit.probeLoop rt addr timeout deadline n) (· ≠ .ok none)
      (LocalConduit.probeLoop rt addr timeout deadline (n + 1) last) s := by
  have hslack := hp.slack_nonneg
  have hlook : now (h s .monotonic).2 ≤ now s + slack := hp.brief .monotonic s trivial
  by_cases hnow : (h s .monotonic).1 < deadline
  · -- before the deadline: the subprocess first, then its API
    have hbefore : now s < deadline := (hp.reading s).1.trans_lt hnow
    have hpoll : now (h (h s .monotonic).2 .poll).2 ≤ now (h s .monotonic).2 + slack :=
      hp.brief .poll _ trivial
    have hforward := (hp.forward s .monotonic).trans (hp.forward (h s .monotonic).2 .poll)
    cases ha : h (h s .monotonic).2 .poll with
    | mk a s₁ =>
      rw [ha] at hpoll hforward
      cases a with
      | some exitCode =>
        -- it has exited: an error, without a probe
        obtain ⟨e, s₂, he, hs₂⟩ := hp.reports rt
          (fun tail => .conduit (LocalConduit.crashedError exitCode tail)) s₁
        have heval : (LocalConduit.probeLoop rt addr timeout deadline (n + 1) last).eval h s =
            (.error e, s₂) := by
          rw [LocalConduit.probeLoop, Prog.eval_perform_bind, if_pos hnow, Prog.eval_perform_bind]
          simp only [ha]
          exact he
        exact .decides hbefore heval (fun hnone => by cases hnone) (by linarith)
      | none =>
        have hprobe : now ((LocalConduit.probe rt).eval h s₁).2 ≤ now s₁ + (1 + 2 * slack) :=
          hp.takes_probe rt s₁
        have hlater := hforward.trans (Prog.le_eval hp.forward (LocalConduit.probe rt) s₁)
        cases hr : (LocalConduit.probe rt).eval h s₁ with
        | mk r s₂ =>
          rw [hr] at hprobe hlater
          have heval : (LocalConduit.probeLoop rt addr timeout deadline (n + 1) last).eval h s =
              (LocalConduit.probe rt >>= afterProbe rt addr timeout deadline n).eval h s₁ := by
            rw [LocalConduit.probeLoop, Prog.eval_perform_bind, if_pos hnow,
              Prog.eval_perform_bind]
            simp only [ha]
            rfl
          cases r with
          | error e =>
            -- a probe swallows a `ConduitError`; anything else leaves the loop
            rw [Prog.eval_bind_error (S := Host) h hr] at heval
            exact .decides hbefore heval (fun hnone => by cases hnone) (by linarith)
          | ok r =>
            rw [Prog.eval_bind_ok (S := Host) h hr] at heval
            cases r with
            | none => exact .decides hbefore heval (fun hnone => by cases hnone) (by linarith)
            | some e =>
              -- the API is not there yet, so the loop pauses
              have hsleep := hp.sleep (1 / 10) s₂
              have hslept := hp.slept (1 / 10) s₂
              rw [max_eq_left (by norm_num : (0 : ℚ) ≤ 1 / 10)] at hsleep
              cases hd : h s₂ (.sleep (1 / 10)) with
              | mk a s₃ =>
                rw [hd] at hsleep hslept
                have hpause : (performOrRaise (perform (.sleep (1 / 10)))).eval h s₂ =
                    (a, s₃) := by
                  rw [performOrRaise, Prog.eval_perform_bind, hd]
                  rfl
                have hrest : (LocalConduit.probeLoop rt addr timeout deadline (n + 1) last).eval
                    h s = (performOrRaise (perform (.sleep (1 / 10))) >>= fun _ =>
                      LocalConduit.probeLoop rt addr timeout deadline n (some e)).eval h s₂ :=
                  heval
                cases a with
                | error e' =>
                  rw [Prog.eval_bind_error (S := Host) h hpause] at hrest
                  exact .decides hbefore hrest (fun hnone => by cases hnone) (by linarith)
                | ok _ =>
                  rw [Prog.eval_bind_ok (S := Host) h hpause] at hrest
                  exact .goesOn hbefore hrest (by linarith [hslept rfl]) (by linarith)
  · -- the time is over
    obtain ⟨e, s₁, he, hs₁⟩ := hp.reports rt
      (fun tail => .conduit (LocalConduit.unreachableError rt addr timeout last tail))
        (h s .monotonic).2
    have heval : (LocalConduit.probeLoop rt addr timeout deadline (n + 1) last).eval h s =
        (.error e, s₁) := by
      rw [LocalConduit.probeLoop, Prog.eval_perform_bind, if_neg hnow]
      exact he
    exact .leaves heval (fun hnone => by cases hnone) (by linarith)

/-- `wait_running` is over one turn after its time at the latest, however often it polls. -/
theorem over_waitRunning (hp : Punctual h now slack) (run : Run) (timeout pollInterval : ℚ)
    (n : ℕ) (s : σ) :
    now ((run.waitRunning rt timeout pollInterval n).eval h s).2 ≤
      (h s .monotonic).1 + max timeout 0 + (5 + max pollInterval 0) + 5 * slack := by
  have hslack := hp.slack_nonneg
  have htimeout := le_max_left timeout 0
  have hpause := le_max_right pollInterval 0
  have hstart : now (h s .monotonic).2 ≤ (h s .monotonic).1 + slack := by
    linarith [hp.brief .monotonic s trivial, (hp.reading s).1]
  -- the induction over the turns, with the deadline that the first reading sets
  have hloop := Turn.overrun hslack (fun last => .done hslack)
    (hp.turn_waitLoop rt run timeout ((h s .monotonic).1 + timeout) pollInterval) n none
      (h s .monotonic).2
  -- with `timeout ≤ 0` the loop leaves in its first turn, which the maximum takes care of
  have hmax : max (now (h s .monotonic).2)
      ((h s .monotonic).1 + timeout + (5 + max pollInterval 0 + 4 * slack)) ≤
        (h s .monotonic).1 + max timeout 0 + (5 + max pollInterval 0) + 4 * slack :=
    max_le (by linarith [le_max_right timeout 0]) (by linarith)
  rw [Run.waitRunning, Prog.eval_perform_bind]
  exact hloop.trans (by linarith)

/-- The number of pauses before the deadline. -/
theorem le_add_pauses {timeout pause : ℚ} (hpause : 0 < pause) {t t' : ℚ} (ht : t ≤ t') :
    t + timeout ≤ t' + ⌈timeout / pause⌉₊ • pause := by
  have hceil : timeout ≤ ⌈timeout / pause⌉₊ * pause :=
    (div_le_iff₀ hpause).mp (Nat.le_ceil _)
  rw [nsmul_eq_mul]
  linarith

/-- `wait_running` ends after as many polls as there are pauses before the deadline. -/
theorem waitRunning_ends (hp : Punctual h now slack) (run : Run) (timeout : ℚ)
    {pollInterval : ℚ} (hpause : 0 < pollInterval) (s : σ) :
    ((run.waitRunning rt timeout pollInterval (⌈timeout / pollInterval⌉₊ + 1)).eval h s).1 ≠
      .ok .polling := by
  rw [Run.waitRunning, Prog.eval_perform_bind]
  exact Turn.ends (hp.turn_waitLoop rt run timeout ((h s .monotonic).1 + timeout) pollInterval)
    _ none _ (le_add_pauses hpause (hp.reading s).2)

/-- `_wait_ready` is over one turn after its time at the latest. -/
theorem over_waitReady (hp : Punctual h now slack) (addr : String) (timeout : ℚ) (n : ℕ)
    (s : σ) :
    now ((LocalConduit.waitReady rt addr timeout n).eval h s).2 ≤
      (h s .monotonic).1 + max timeout 0 + (1 + 1 / 10) + 11 * slack := by
  have hslack := hp.slack_nonneg
  have htimeout := le_max_left timeout 0
  have hstart : now (h (h s .monotonic).2 (.openChannel addr)).2 ≤
      (h s .monotonic).1 + 2 * slack := by
    linarith [hp.brief .monotonic s trivial, (hp.reading s).1,
      hp.brief (.openChannel addr) (h s .monotonic).2 trivial]
  -- the channel is opened between the first reading and the first turn
  have hloop := Turn.overrun (by linarith) (fun last => .done (by linarith))
    (hp.turn_probeLoop rt addr timeout ((h s .monotonic).1 + timeout)) n none
      (h (h s .monotonic).2 (.openChannel addr)).2
  have hmax : max (now (h (h s .monotonic).2 (.openChannel addr)).2)
      ((h s .monotonic).1 + timeout + (1 + 1 / 10 + 6 * slack)) ≤
        (h s .monotonic).1 + max timeout 0 + (1 + 1 / 10) + 6 * slack :=
    max_le (by linarith [le_max_right timeout 0]) (by linarith)
  rw [LocalConduit.waitReady, Prog.eval_perform_bind, Prog.eval_perform_bind]
  exact hloop.trans (by linarith)

/-- `_wait_ready` ends: its pauses are fixed, so no condition on them is needed. -/
theorem waitReady_ends (hp : Punctual h now slack) (addr : String) (timeout : ℚ) (s : σ) :
    ((LocalConduit.waitReady rt addr timeout (⌈timeout / (1 / 10)⌉₊ + 1)).eval h s).1 ≠
      .ok none := by
  rw [LocalConduit.waitReady, Prog.eval_perform_bind, Prog.eval_perform_bind]
  exact Turn.ends (hp.turn_probeLoop rt addr timeout ((h s .monotonic).1 + timeout))
    _ none _ (le_add_pauses (by norm_num)
      ((hp.reading s).2.trans (hp.forward _ (.openChannel addr))))

/-! ### The teardown -/

/-- A grace window. -/
theorem takes_wait (hp : Punctual h now slack) {timeout : ℚ} (ht : 0 ≤ timeout) :
    (performOrRaise (perform (.wait timeout))).Takes h now (timeout + slack) := by
  refine takes_orRaise (.perform fun s => ?_)
  have hwait := hp.wait timeout s
  rwa [max_eq_left ht] at hwait

/-- Stopping the subprocess takes two grace windows, when the first one does not suffice. -/
theorem takes_stopProcess (hp : Punctual h now slack) :
    LocalConduit.stopProcess.Takes h now (2 * 10 + 5 * slack) := by
  have hslack := hp.slack_nonneg
  have hgrace : (performOrRaise (perform (.wait gracefulStopTimeout))).Takes h now
      (10 + slack) := hp.takes_wait (by norm_num [gracefulStopTimeout])
  have hkill : (perform (.signal .kill) >>= fun _ =>
      performOrRaise (perform (.wait gracefulStopTimeout))).Takes h now
        (slack + (10 + slack)) :=
    (hp.takes_brief (o := .signal .kill) trivial).bind (fun _ => hgrace) (by linarith)
  have hstop : LocalConduit.stopProcess.Takes h now
      (slack + (slack + (10 + slack + (slack + (10 + slack))))) := by
    refine (hp.takes_brief (o := .poll) trivial).bind (fun exitCode => ?_) (by linarith)
    cases exitCode with
    | some exitCode => exact .done (by linarith)
    | none =>
      -- SIGTERM and a window; SIGKILL and another one only after `TimeoutExpired`
      refine (hp.takes_brief (o := .signal .term) trivial).bind (fun _ => ?_) (by linarith)
      refine hgrace.tryCatch (fun e => ?_) (by linarith)
      cases e with
      | timeoutExpired => exact hkill
      | _ => exact .done (by linarith)
  exact hstop.mono (by linarith)

/-- `_terminate`; a second call returns after a look at `_stopped`. -/
theorem takes_terminate (hp : Punctual h now slack) :
    LocalConduit.terminate.Takes h now (2 * 10 + 8 * slack) := by
  have hslack := hp.slack_nonneg
  have hlog : LocalConduit.closeLogFile.Takes h now (slack + 0) := by
    refine (takes_orRaise (hp.takes_brief (o := .closeLog) trivial)).tryCatch (fun e => ?_)
      (le_refl 0)
    cases e <;> exact .done (le_refl 0)
  have hbody := (hp.takes_brief (o := .setAttr .stopped true) trivial).bind (fun _ =>
    hp.takes_stopProcess.bind (fun _ => hlog) (by linarith)) (by linarith)
  have hall : LocalConduit.terminate.Takes h now
      (slack + (slack + (2 * 10 + 5 * slack + (slack + 0)))) := by
    refine (hp.takes_brief (o := .getAttr .stopped) trivial).bind (fun stopped => ?_)
      (by linarith)
    cases stopped with
    | true => exact .done (by linarith)
    | false => exact hbody
  exact hall.mono (by linarith)

/-- `Client.close` of the client that `_wait_ready` returns, whose hook is `_terminate`. -/
theorem takes_close (hp : Punctual h now slack) :
    LocalConduit.boundClient.close.Takes h now (2 * 10 + 11 * slack) := by
  have hslack := hp.slack_nonneg
  have hbody := (hp.takes_brief (o := .setAttr .closed true) trivial).bind (fun _ =>
    (hp.takes_brief (o := .closeChannel) trivial).bind (fun _ => hp.takes_terminate)
      (by linarith)) (by linarith)
  have hall : LocalConduit.boundClient.close.Takes h now
      (slack + (slack + (slack + (2 * 10 + 8 * slack)))) := by
    refine (hp.takes_brief (o := .getAttr .closed) trivial).bind (fun closed => ?_)
      (by linarith)
    cases closed with
    | true => exact .done (by linarith)
    | false => exact hbody
  exact hall.mono (by linarith)

/-- `_atexit_kill` adds nothing to `_terminate` but a handler. -/
theorem takes_atexitKill (hp : Punctual h now slack) :
    LocalConduit.atexitKill.Takes h now (2 * 10 + 8 * slack) := by
  have hall : LocalConduit.atexitKill.Takes h now (2 * 10 + 8 * slack + 0) := by
    refine hp.takes_terminate.tryCatch (fun e => ?_) (le_refl 0)
    -- an `Exception` is suppressed, anything else raised again; neither takes time
    by_cases he : e.isException
    · rw [if_pos he]
      exact .done (le_refl 0)
    · rw [if_neg he]
      exact .done (le_refl 0)
  rwa [add_zero] at hall

/-! ### The construction -/

/-- `_free_port` opens a socket and closes it. -/
theorem takes_freePort (hp : Punctual h now slack) : freePort.Takes h now (2 * slack) := by
  have hslack := hp.slack_nonneg
  have hall : freePort.Takes h now (slack + (slack + 0)) := by
    refine (takes_orRaise (hp.takes_brief (o := .bindFreePort) trivial)).bind (fun port => ?_)
      (by linarith)
    exact (hp.takes_brief (o := .releasePort port) trivial).bind (fun _ => .done (le_refl 0))
      (le_refl 0)
  exact hall.mono (by linarith)

/-- The wait for the engine, counted from its beginning instead of its first reading. -/
theorem takes_waitReady (hp : Punctual h now slack) (addr : String) (timeout : ℚ) (n : ℕ) :
    (LocalConduit.waitReady rt addr timeout n).Takes h now
      (max timeout 0 + (1 + 1 / 10) + 12 * slack) := by
  intro s
  -- the first look at the clock is not over later than this
  have hlook := (hp.reading s).2.trans (hp.brief .monotonic s trivial)
  linarith [hp.over_waitReady rt addr timeout n s]

/-- The construction of a `LocalConduit` where the binary is at hand after `provision`. -/
theorem takes_init (hp : Punctual h now slack) {provision : ℚ} (hprovision : 0 ≤ provision)
    (hensure : ∀ version s, now (h s (.ensureBinary version)).2 ≤ now s + provision)
    (stateDir : String) (version binary : Option String) (timeout : ℚ) (n : ℕ) :
    (LocalConduit.init rt stateDir version binary timeout n).Takes h now
      (provision + max timeout 0 + (1 + 1 / 10) + 2 * 10 + 28 * slack) := by
  have hslack := hp.slack_nonneg
  have htimeout := le_max_right timeout 0
  have hbinary : (LocalConduit.binaryPathOf version binary).Takes h now provision := by
    cases binary with
    | some path => exact .done hprovision
    | none => exact takes_orRaise (.perform (hensure version))
  have hsupervise (addr : String) : (LocalConduit.supervise rt addr timeout n).Takes h now
      (slack + (slack + (max timeout 0 + (1 + 1 / 10) + 12 * slack +
        (2 * 10 + 8 * slack + 0)))) := by
    refine (hp.takes_brief (o := .setAttr .stopped false) trivial).bind (fun _ => ?_)
      (by linarith)
    refine (hp.takes_brief (o := .registerAtexit) trivial).bind (fun _ => ?_) (by linarith)
    -- whatever the wait raises, the subprocess is stopped, so a teardown may follow the whole wait
    exact (hp.takes_waitReady rt addr timeout n).tryCatch (fun e =>
      hp.takes_terminate.bind (fun _ => .done (le_refl 0)) (le_refl 0)) (by linarith)
  have hall : (LocalConduit.init rt stateDir version binary timeout n).Takes h now
      (provision + (2 * slack + (2 * slack + (slack + (slack + (slack + (slack +
        (max timeout 0 + (1 + 1 / 10) + 12 * slack + (2 * 10 + 8 * slack + 0))) + 0)))))) := by
    -- in the order of `__init__`
    refine hbinary.bind (fun binaryPath => ?_) (by linarith)
    refine hp.takes_freePort.bind (fun grpcPort => ?_) (by linarith)
    refine hp.takes_freePort.bind (fun httpPort => ?_) (by linarith)
    refine (takes_orRaise (hp.takes_brief (o := .openLog) trivial)).bind (fun _ => ?_)
      (by linarith)
    refine (takes_orRaise (hp.takes_brief (o := .spawn _) trivial)).bind (fun _ => ?_)
      (by linarith)
    exact (hsupervise (address grpcPort)).bind (fun _ => .done (le_refl 0)) (le_refl 0)
  exact hall.mono (by linarith)

/-! ### A submission -/

/-- A message object that is built, or an exception at once. -/
theorem takes_newMessage (hp : Punctual h now slack) (m : Except Exn Message) :
    (newMessage m).Takes h now slack := by
  have hall : (newMessage m).Takes h now (0 + slack) :=
    Prog.Takes.bind (.done (le_refl 0)) (fun m => hp.takes_brief (o := .new m) trivial)
      hp.slack_nonneg
  rwa [zero_add] at hall

/-- One message object for each of a list. -/
theorem takes_newEach (hp : Punctual h now slack) {α : Type} (f : α → Except Exn Message)
    (xs : List α) : (newEach f xs).Takes h now (xs.length • slack) :=
  .collect (fun x _ => hp.takes_newMessage (f x)) hp.slack_nonneg

end Punctual

/-- The requests that describe the resources of a pipeline. -/
def Pipeline.resources (p : Pipeline) : ℕ :=
  p.connectors.length + p.processors.length + p.dlq.toList.length

/-- The requests of `Client.run`. -/
def Pipeline.requests (p : Pipeline) (start : Bool) : ℕ :=
  1 + p.resources + if start then 1 else 0

/-- A plan has one request object for each resource. -/
structure BuildPlan.Sized (plan : BuildPlan) (p : Pipeline) : Prop where
  connectors : plan.createConnectors.length = p.connectors.length
  processors : plan.createProcessors.length = p.processors.length
  dlq : plan.dlq.toList.length = p.dlq.toList.length

/-- What `build_requests` returns is sized like the pipeline it is for. -/
theorem buildRequests_sized (p : Pipeline) :
    p.buildRequests.Results fun r => ∀ plan, r = .ok plan → plan.Sized p := by
  refine Prog.Results.bind (M := fun _ => True) (.any (fun _ _ _ => trivial) _) fun _ _ => ?_
  -- both lists are collected element by element, so their lengths are kept
  refine (Prog.Results.collect _ _).bind fun connectors hconnectors => ?_
  refine (Prog.Results.collect _ _).bind fun processors hprocessors => ?_
  cases hdlq : p.dlq with
  | none =>
    intro plan hplan
    rw [← Except.ok.inj hplan]
    exact ⟨hconnectors, hprocessors, by rw [hdlq]; rfl⟩
  | some d =>
    refine Prog.Results.bind (M := fun _ => True) (.any (fun _ _ _ => trivial) _) fun _ _ => ?_
    intro plan hplan
    rw [← Except.ok.inj hplan]
    exact ⟨hconnectors, hprocessors, by rw [hdlq]; rfl⟩

namespace Punctual

/-- `build_requests` takes a message object for the pipeline and one for each resource. -/
theorem takes_buildRequests (hp : Punctual h now slack) (p : Pipeline) :
    p.buildRequests.Takes h now ((1 + p.resources : ℕ) * slack) := by
  have hslack := hp.slack_nonneg
  have hmany (n : ℕ) : 0 ≤ n • slack := nsmul_nonneg hslack n
  have hall : p.buildRequests.Takes h now (slack + (p.connectors.length • slack +
      (p.processors.length • slack + p.dlq.toList.length • slack))) := by
    -- in the order of the source: pipeline, connectors, processors, DLQ
    refine (hp.takes_newMessage _).bind (fun _ => ?_)
      (by linarith [hmany p.connectors.length, hmany p.processors.length,
        hmany p.dlq.toList.length])
    refine (hp.takes_newEach _ p.connectors).bind (fun _ => ?_)
      (by linarith [hmany p.processors.length, hmany p.dlq.toList.length])
    refine (hp.takes_newEach _ p.processors).bind (fun _ => ?_) (hmany _)
    cases p.dlq with
    | none => exact .done (hmany _)
    | some d =>
      have hone : slack + 0 ≤ (some d).toList.length • slack := by
        rw [Option.toList_some, List.length_singleton, one_nsmul, add_zero]
      exact ((hp.takes_newMessage _).bind (fun _ => .done (le_refl 0)) (le_refl 0)).mono hone
  refine hall.mono (le_of_eq ?_)
  rw [Pipeline.resources, nsmul_eq_mul, nsmul_eq_mul, nsmul_eq_mul]
  push_cast
  ring

/-- A request of the plan: at most two ids are assigned to it, and it is sent. -/
theorem takes_submit (hp : Punctual h now slack) (lib : Codec) (timeout : ℚ) (m : Method)
    {assignments : List Assignment} (hlen : assignments.length ≤ 2) (r : Ref) :
    (Client.submit lib timeout m assignments r).Takes h now (max timeout 0 + 3 * slack) := by
  have hslack := hp.slack_nonneg
  have htimeout := le_max_right timeout 0
  have hassign : (Prog.forEach (fun a => perform (.assign r a)) assignments).Takes h now
      (2 * slack) := by
    refine (Prog.Takes.forEach (fun a _ => hp.takes_brief (o := .assign r a) trivial)
      hslack).mono ?_
    rw [nsmul_eq_mul]
    exact mul_le_mul_of_nonneg_right (by exact_mod_cast hlen) hslack
  have hall := hassign.bind (fun _ => (hp.takes_call lib m r timeout).bind
    (f := fun _ => (pure () : HostM Unit)) (fun _ => .done (le_refl 0)) (le_refl 0))
      (by linarith)
  exact hall.mono (by linarith)

/-- A submission is over after the time of its requests. -/
theorem takes_run (hp : Punctual h now slack) (lib : Codec) (p : Pipeline) (start : Bool)
    (timeout : ℚ) :
    (Client.run lib p start timeout).Takes h now
      (p.requests start * (max timeout 0 + 4 * slack)) := by
  have hslack := hp.slack_nonneg
  have htimeout := le_max_right timeout 0
  have hone : 0 ≤ max timeout 0 + 3 * slack := by linarith
  have hmany (n : ℕ) : 0 ≤ n • (max timeout 0 + 3 * slack) := nsmul_nonneg hone n
  -- what starting the pipeline adds, if it is started
  let last : ℚ := if start then max timeout 0 + 4 * slack else 0
  have hlast : 0 ≤ last := by
    cases start with
    | true => exact add_nonneg htimeout (by linarith)
    | false => exact le_refl 0
  have hstart (pid : String) : (if start then do
      let request ← perform (.new (.startPipeline pid))
      Client.submit lib timeout .startPipeline [] request
      else pure () : HostM Unit).Takes h now last := by
    cases start with
    | true =>
      refine ((hp.takes_brief (o := .new (.startPipeline pid)) trivial).bind (fun r =>
        hp.takes_submit lib timeout .startPipeline (by simp) r) hone).mono (le_of_eq ?_)
      show slack + (max timeout 0 + 3 * slack) = max timeout 0 + 4 * slack
      ring
    | false => exact .done (le_refl 0)
  have hsubmit (plan : BuildPlan) (hplan : plan.Sized p) (pid : String) :
      (Client.submitAll lib plan pid start timeout).Takes h now
        (p.resources • (max timeout 0 + 3 * slack) + last) := by
    have hall : (Client.submitAll lib plan pid start timeout).Takes h now
        (plan.createConnectors.length • (max timeout 0 + 3 * slack) +
          (plan.createProcessors.length • (max timeout 0 + 3 * slack) +
            (plan.dlq.toList.length • (max timeout 0 + 3 * slack) + last))) := by
      have hconnector (r : Ref) : (Client.submit lib timeout .createConnector
          [.pipelineId pid] r).Takes h now (max timeout 0 + 3 * slack) :=
        hp.takes_submit lib timeout _ (by simp) r
      have hprocessor (r : Ref) : (Client.submit lib timeout .createProcessor
          [.parentType .pipeline, .parentId pid] r).Takes h now (max timeout 0 + 3 * slack) :=
        hp.takes_submit lib timeout _ (by simp) r
      have hdlq (r : Ref) : (Client.submit lib timeout .updateDLQ
          [.dlqId pid] r).Takes h now (max timeout 0 + 3 * slack) :=
        hp.takes_submit lib timeout _ (by simp) r
      refine (Prog.Takes.forEach (fun r _ => hconnector r) hone).bind (fun _ => ?_)
        (by linarith [hmany plan.createProcessors.length, hmany plan.dlq.toList.length])
      refine (Prog.Takes.forEach (fun r _ => hprocessor r) hone).bind (fun _ => ?_)
        (by linarith [hmany plan.dlq.toList.length])
      exact (Prog.Takes.forEach (fun r _ => hdlq r) hone).bind (fun _ => hstart pid) hlast
    -- the plan has as many requests as the pipeline has resources
    refine hall.mono (le_of_eq ?_)
    rw [hplan.connectors, hplan.processors, hplan.dlq, Pipeline.resources, add_nsmul, add_nsmul]
    ring
  have hall : (Client.run lib p start timeout).Takes h now
      ((1 + p.resources : ℕ) * slack + (max timeout 0 + slack +
        (p.resources • (max timeout 0 + 3 * slack) + last + 0 + 0))) := by
    -- the plan that is built is sized, which `submitAll` needs
    refine (hp.takes_buildRequests p).bind_results (buildRequests_sized p)
      (fun plan hplan => ?_) (by linarith [hmany p.resources])
    refine (hp.takes_call lib .createPipeline plan.createPipeline timeout).bind (fun pid => ?_)
      (by linarith [hmany p.resources])
    refine ((hsubmit plan hplan pid).tryCatch (fun e => ?_) (le_refl 0)).bind
      (fun _ => .done (le_refl 0)) (le_refl 0)
    cases e <;> exact .done (le_refl 0)
  refine hall.mono ?_
  rw [nsmul_eq_mul, Pipeline.requests]
  cases start with
  | true =>
    have hvalue : last = max timeout 0 + 4 * slack := rfl
    rw [hvalue, if_pos rfl]
    push_cast
    linarith
  | false =>
    have hvalue : last = 0 := rfl
    rw [hvalue, if_neg Bool.false_ne_true]
    push_cast
    linarith

/-- Each of the five ways to stop. -/
theorem takes_stopping (hp : Punctual h now slack) {engine : LocalConduit}
    (hclient : engine.client = LocalConduit.boundClient) (call : Stopping) :
    (call.run engine).Takes h now (2 * 10 + 11 * slack) := by
  have hclose : engine.client.close.Takes h now (2 * 10 + 11 * slack) := by
    rw [hclient]
    exact hp.takes_close
  -- all of them but the hook close the client
  cases call with
  | atexit => exact hp.takes_atexitKill.mono (by linarith [hp.slack_nonneg])
  | _ => exact hclose

end Punctual

/-- **Over in time.** In a host where calls and waits keep their timeouts and nothing else takes
long: `wait_running`, if it pauses between its polls (`poll_interval > 0`), and `_wait_ready` end,
and both outlast the time they are given by one turn at most, which is a call and a pause; a
teardown takes two grace windows; a submission takes its timeout for each request; and a
construction takes what the binary and the wait for the engine take, and a teardown. -/
theorem over_in_time (rt : Runtime) (hp : Punctual h now slack) :
    (∀ (run : Run) (timeout pollInterval : ℚ) (s : σ),
      (∀ n, now ((run.waitRunning rt timeout pollInterval n).eval h s).2 ≤
        (h s .monotonic).1 + max timeout 0 + (5 + max pollInterval 0) + 5 * slack) ∧
      (0 < pollInterval → ((run.waitRunning rt timeout pollInterval
        (⌈timeout / pollInterval⌉₊ + 1)).eval h s).1 ≠ .ok .polling)) ∧
    (∀ (addr : String) (timeout : ℚ) (s : σ),
      (∀ n, now ((LocalConduit.waitReady rt addr timeout n).eval h s).2 ≤
        (h s .monotonic).1 + max timeout 0 + (1 + 1 / 10) + 11 * slack) ∧
      ((LocalConduit.waitReady rt addr timeout (⌈timeout / (1 / 10)⌉₊ + 1)).eval h s).1 ≠
        .ok none) ∧
    (∀ (engine : LocalConduit) (call : Stopping) (s : σ),
      engine.client = LocalConduit.boundClient →
        now ((call.run engine).eval h s).2 ≤ now s + (2 * 10 + 11 * slack)) ∧
    (∀ (p : Pipeline) (start : Bool) (timeout : ℚ) (s : σ),
      now ((Client.run rt.toCodec p start timeout).eval h s).2 ≤
        now s + p.requests start * (max timeout 0 + 4 * slack)) ∧
    ∀ provision, 0 ≤ provision →
      (∀ version s, now (h s (.ensureBinary version)).2 ≤ now s + provision) →
        ∀ (stateDir : String) (version binary : Option String) (timeout : ℚ) (n : ℕ) (s : σ),
          now ((LocalConduit.init rt stateDir version binary timeout n).eval h s).2 ≤
            now s + (provision + max timeout 0 + (1 + 1 / 10) + 2 * 10 + 28 * slack) :=
  ⟨fun run timeout pollInterval s => ⟨fun n => hp.over_waitRunning rt run timeout pollInterval n s,
      fun hpause => hp.waitRunning_ends rt run timeout hpause s⟩,
    fun addr timeout s => ⟨fun n => hp.over_waitReady rt addr timeout n s,
      hp.waitReady_ends rt addr timeout s⟩,
    fun _ call s hclient => hp.takes_stopping hclient call s,
    fun p start timeout s => hp.takes_run rt.toCodec p start timeout s,
    fun _ hprovision hensure stateDir version binary timeout n s =>
      hp.takes_init rt hprovision hensure stateDir version binary timeout n s⟩

/-- A host in which only sleeping takes time, with a pipeline that is recovering. -/
def dozing (t : ℚ) : (o : HostOp) → HostAns o × ℚ
  | .sleep d => (.ok (), t + max d 0)
  | .monotonic => (t, t)
  | .recv .getPipeline => (.ok ⟨4, "", 0⟩, t)
  | o => ((obliging.handle newSession o).1, t)

/-- Its clock does not go back. -/
theorem dozing_forward (t : ℚ) (o : HostOp) : t ≤ (dozing t o).2 := by
  cases o with
  | sleep d => exact le_add_of_nonneg_right (le_max_right d 0)
  | recv m => cases m <;> exact le_refl t
  | _ => exact le_refl t

theorem dozing_punctual : Punctual dozing id 0 where
  forward := dozing_forward
  reading t := ⟨le_refl t, le_refl t⟩
  slack_nonneg := le_refl 0
  call m r t s := by
    have hover : ((stub m r t).eval dozing s).2 = s := by cases m <;> rfl
    show ((stub m r t).eval dozing s).2 ≤ s + (max t 0 + 0)
    rw [hover, add_zero]
    exact le_add_of_nonneg_right (le_max_right t 0)
  sleep d t := le_of_eq (by rw [add_zero]; rfl)
  slept d t _ := add_le_add_right (le_max_left d 0) t
  wait t s := le_add_of_nonneg_right (by rw [add_zero]; exact le_max_right t 0)
  brief o t ho := by
    rw [add_zero]
    cases o <;> first | exact le_refl t | exact absurd ho id

/-- There `wait_running` ends after at most 151 polls. -/
theorem over_in_time_dozing :
    ((Run.waitRunning plainRuntime ⟨"p"⟩ 30 (1 / 5) 151).eval dozing 0).1 ≠ .ok .polling ∧
      ((Run.waitRunning plainRuntime ⟨"p"⟩ 30 (1 / 5) 151).eval dozing 0).2 ≤ 30 + 5 + 1 / 5 := by
  have hboth := (over_in_time plainRuntime dozing_punctual).1 ⟨"p"⟩ 30 (1 / 5) 0
  have hrounds : ⌈(30 : ℚ) / (1 / 5)⌉₊ + 1 = 151 := by norm_num
  refine ⟨?_, (hboth.1 151).trans ?_⟩
  · rw [← hrounds]
    exact hboth.2 (by norm_num)
  · show (0 : ℚ) + max 30 0 + (5 + max (1 / 5) 0) + 5 * 0 ≤ _
    norm_num

end Conduit
