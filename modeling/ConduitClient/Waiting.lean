import Mathlib.Data.Rat.Floor
import ConduitClient.Effect.Polling
import ConduitClient.Usage

/-!
# The wait for a pipeline

`wait_running` is a polling loop (`Effect.Polls`) whose rounds are the `GetPipeline` calls of
the script: what each of them would make of its answer is its `verdict`, and the loop ends as
the loop of polls does (`eval_waitRunning`).
-/

namespace Conduit

open Effect

variable {rt : Runtime} {script : Script} {s : Session} {run : Run}
  {timeout deadline pollInterval : ℚ}

/-! ### The loop as a loop of polls -/

namespace Run

/-- What the loop makes of the answer to a poll; `none` when it goes on. -/
def verdict (rt : Runtime) (run : Run) (pollInterval : ℚ) :
    Except RpcError PipelineState → Option (Except Exn RunStatus)
  | .error e => some (.error (translated rt.toCodec e))
  | .ok st =>
    match st.toRunStatus with
    | .error x => some (.error x)
    | .ok status =>
      if status.isRunning then some (.ok status)
      else if status.isDegraded then some (.error (.conduit (degradedError rt run status)))
      else if 0 ≤ pollInterval then none
      else some (.error negativeSleep)

/-- The rounds of the loop, for a call in the session `s`. -/
def polls (rt : Runtime) (script : Script) (s : Session) (run : Run) (pollInterval : ℚ) :
    Polls ℚ (Except Exn RunStatus) where
  check k := script.clock (s.ticks + 1 + k)
  verdict k := run.verdict rt pollInterval (script.reply (s.trace.length + k) .getPipeline)

/-- The status that an answer reports. -/
def reported : Except RpcError PipelineState → Option RunStatus
  | .error _ => none
  | .ok st => st.toRunStatus.toOption

/-- The status last seen when the loop gets to round `k`. -/
def seen (script : Script) (s : Session) : ℕ → Option RunStatus
  | 0 => none
  | k + 1 => reported (script.reply (s.trace.length + k) .getPipeline)

/-- The `GetPipeline` call of a poll. -/
def pollRpc (run : Run) : Rpc := ⟨.getPipeline, .getPipeline run.pipelineId⟩

/-- How the call ends with the loop of polls. -/
def outcome (rt : Runtime) (script : Script) (s : Session) (run : Run) (timeout : ℚ) :
    Ending (Except Exn RunStatus) → Except Exn Waited
  | .decided _ r => r.map .running
  | .expired k => .error (.conduit (timeoutError rt run timeout (seen script s k)))
  | .polling => .ok .polling

end Run

/-- The session after a poll. -/
def Session.polled (s : Session) (run : Run) : Session :=
  { s with
    heap := s.heap ++ [.getPipeline run.pipelineId]
    trace := s.trace ++ [run.pollRpc] }

/-- One poll: the loop ends with its verdict, or goes on with the status it saw. -/
theorem eval_poll (rt : Runtime) (script : Script) (run : Run)
    (timeout deadline pollInterval : ℚ) (n : ℕ) (hopen : s.channelOpen = true) :
    ∃ s', s'.channelOpen = true ∧ s'.ticks = s.ticks ∧ s'.trace = s.trace ++ [run.pollRpc] ∧
      (run.status rt 5 >>= run.pollStep rt timeout deadline pollInterval n).eval
        script.handle s =
        match run.verdict rt pollInterval (script.reply s.trace.length .getPipeline) with
        | some r => (r.map .running, s')
        | none => (run.waitLoop rt timeout deadline pollInterval n
            (Run.reported (script.reply s.trace.length .getPipeline))).eval script.handle s' := by
  have hst := eval_status rt script (s := s) run 5 hopen
  cases hrep : script.reply s.trace.length .getPipeline with
  | error e =>
    simp only [hrep] at hst
    -- a stub that raises ends the wait with the translated exception
    exact ⟨s.polled run, hopen, rfl, rfl, Prog.eval_bind_error _ hst⟩
  | ok st =>
    simp only [hrep] at hst
    cases hrs : st.toRunStatus with
    | error x =>
      simp only [hrs] at hst
      -- a number without a name ends it with a `ValueError`
      refine ⟨s.polled run, hopen, rfl, rfl, (Prog.eval_bind_error _ hst).trans ?_⟩
      simp only [Run.verdict, hrs]
      rfl
    | ok status =>
      simp only [hrs] at hst
      rw [Prog.eval_bind_ok _ hst]
      simp only [Run.verdict, Run.reported, hrs]
      cases hr : status.isRunning with
      | true =>
        refine ⟨s.polled run, hopen, rfl, rfl, ?_⟩
        simp only [Run.pollStep, hr, if_true]
        rfl
      | false =>
        cases hd : status.isDegraded with
        | true =>
          refine ⟨s.polled run, hopen, rfl, rfl, ?_⟩
          simp only [Run.pollStep, hr, hd, Bool.false_eq_true, if_false, if_true]
          rfl
        | false =>
          -- undecided: the loop sleeps, unless the runtime refuses to
          rw [eval_pollStep_again _ _ _ _ _ hr hd]
          by_cases hp : 0 ≤ pollInterval
          · refine ⟨s.polled run, hopen, rfl, rfl, ?_⟩
            simp only [hp, Bool.false_eq_true, if_false, if_true]
            rfl
          · refine ⟨{ s.polled run with badSleeps := s.badSleeps + 1 }, hopen, rfl, rfl, ?_⟩
            simp only [hp, Bool.false_eq_true, if_false]
            rfl

/-- The loop from round `k` on, and the calls it makes. -/
theorem eval_waitLoop (rt : Runtime) (script : Script) (s : Session) (run : Run)
    (timeout deadline pollInterval : ℚ) (n : ℕ) (s₁ : Session) {k : ℕ}
    (hopen : s₁.channelOpen = true) (hticks : s₁.ticks = s.ticks + 1 + k)
    (htrace : s₁.trace = s.trace ++ List.replicate k run.pollRpc) :
    ∃ s', (run.waitLoop rt timeout deadline pollInterval n (Run.seen script s k)).eval
        script.handle s₁ =
        (run.outcome rt script s timeout
          ((run.polls rt script s pollInterval).run deadline n k), s') ∧
      s'.trace = s.trace ++ List.replicate
        (((run.polls rt script s pollInterval).run deadline n k).polls (k + n)) run.pollRpc := by
  -- induction on the rounds left; the session is the one after `k` polls
  induction n generalizing k s₁ with
  | zero => exact ⟨s₁, rfl, htrace⟩
  | succ n ih =>
    have hclock : script.clock s₁.ticks = (run.polls rt script s pollInterval).check k := by
      rw [hticks]
      rfl
    have hlen : s₁.trace.length = s.trace.length + k := by simp [htrace]
    unfold Polls.run
    by_cases hcheck : (run.polls rt script s pollInterval).check k < deadline
    · rw [eval_waitLoop_live _ _ _ _ _ _ (by rwa [hclock]), if_pos hcheck]
      obtain ⟨s₂, hopen₂, hticks₂, htrace₂, heval⟩ := eval_poll rt script run timeout deadline
        pollInterval n (s := { s₁ with ticks := s₁.ticks + 1 }) hopen
      rw [heval]
      -- the answer to this poll is the one at its position in the trace
      have hverdict : run.verdict rt pollInterval (script.reply s₁.trace.length .getPipeline) =
          (run.polls rt script s pollInterval).verdict k := by
        rw [hlen]
        rfl
      have htrace₂' : s₂.trace = s.trace ++ List.replicate (k + 1) run.pollRpc := by
        rw [htrace₂, List.replicate_succ', ← List.append_assoc, ← htrace]
      simp only [hverdict]
      cases (run.polls rt script s pollInterval).verdict k with
      | some r => exact ⟨s₂, rfl, htrace₂'⟩
      | none =>
        have hseen : Run.reported (script.reply s₁.trace.length .getPipeline) =
            Run.seen script s (k + 1) := by
          rw [hlen]
          rfl
        simp only [hseen]
        -- the next round starts in a session with one poll more
        have hnext := ih s₂ (k := k + 1) hopen₂ (hticks₂.trans (by simp [hticks]; omega)) htrace₂'
        rwa [show k + 1 + n = k + (n + 1) by omega] at hnext
    · -- the deadline has passed: the error names what the last poll has seen
      obtain ⟨s', heval, htrace'⟩ : ∃ s', (run.waitLoop rt timeout deadline pollInterval (n + 1)
          (Run.seen script s k)).eval script.handle s₁ =
            (.error (.conduit (run.timeoutError rt timeout (Run.seen script s k))), s') ∧
          s'.trace = s₁.trace := by
        refine ⟨{ s₁ with ticks := s₁.ticks + 1 }, ?_, rfl⟩
        unfold Run.waitLoop
        rw [Prog.eval_perform_bind]
        simp only [Script.handle, hclock, hcheck, if_false]
        rfl
      rw [if_neg hcheck]
      exact ⟨s', heval, htrace'.trans htrace⟩

/-- **The wait as a loop of polls.** -/
theorem eval_waitRunning (rt : Runtime) (script : Script) (run : Run) (timeout pollInterval : ℚ)
    (n : ℕ) (hopen : s.channelOpen = true) :
    ∃ s', (run.waitRunning rt timeout pollInterval n).eval script.handle s =
        (run.outcome rt script s timeout ((run.polls rt script s pollInterval).run
          (script.clock s.ticks + timeout) n 0), s') ∧
      s'.trace = s.trace ++ List.replicate (((run.polls rt script s pollInterval).run
        (script.clock s.ticks + timeout) n 0).polls n) run.pollRpc := by
  have htrace : s.trace = s.trace ++ List.replicate 0 run.pollRpc := by simp
  have hloop := eval_waitLoop rt script s run timeout (script.clock s.ticks + timeout)
    pollInterval n { s with ticks := s.ticks + 1 } (k := 0) hopen rfl htrace
  rw [Nat.zero_add] at hloop
  unfold Run.waitRunning
  rw [Prog.eval_perform_bind]
  exact hloop

/-- The call of `wait_running` ends, after some number of rounds. -/
def WaitEnds (rt : Runtime) (script : Script) (s : Session) (run : Run)
    (timeout pollInterval : ℚ) (r : Except Exn Waited) (s' : Session) : Prop :=
  ∃ n, (run.waitRunning rt timeout pollInterval n).eval script.handle s = (r, s') ∧
    r ≠ .ok .polling

/-- A call that ends does so as its loop of polls does. -/
theorem WaitEnds.exists_ending {r : Except Exn Waited} {s' : Session}
    (hopen : s.channelOpen = true)
    (h : WaitEnds rt script s run timeout pollInterval r s') :
    ∃ n e, (run.polls rt script s pollInterval).run (script.clock s.ticks + timeout) n 0 = e ∧
      e ≠ .polling ∧ r = run.outcome rt script s timeout e ∧
      s'.trace = s.trace ++ List.replicate (e.polls n) run.pollRpc := by
  obtain ⟨n, heval, hr⟩ := h
  obtain ⟨s₁, heval₁, htrace⟩ := eval_waitRunning rt script run timeout pollInterval n hopen
  rw [heval] at heval₁
  obtain ⟨rfl, rfl⟩ := Prod.mk.inj heval₁
  refine ⟨n, _, rfl, fun he => ?_, rfl, htrace⟩
  rw [he] at hr
  exact hr rfl

/-- The loop of polls ends the call. -/
theorem waitEnds_of_ending {n : ℕ} {e : Ending (Except Exn RunStatus)}
    (hopen : s.channelOpen = true)
    (he : (run.polls rt script s pollInterval).run (script.clock s.ticks + timeout) n 0 = e)
    (hend : e ≠ .polling) :
    ∃ s', WaitEnds rt script s run timeout pollInterval (run.outcome rt script s timeout e) s' ∧
      s'.trace = s.trace ++ List.replicate (e.polls n) run.pollRpc := by
  obtain ⟨s', heval, htrace⟩ := eval_waitRunning rt script run timeout pollInterval n hopen
  rw [he] at heval htrace
  refine ⟨s', ⟨n, heval, ?_⟩, htrace⟩
  cases e with
  | decided k r => cases r <;> simp [Run.outcome, Except.map]
  | expired k => simp [Run.outcome]
  | polling => exact absurd rfl hend

/-- A poll that decides ends the call, and nothing else does. -/
theorem waitEnds_of_decides (hopen : s.channelOpen = true) {k : ℕ} {d : Except Exn RunStatus}
    (h : (run.polls rt script s pollInterval).Decides (script.clock s.ticks + timeout) k d) :
    (∃ s', WaitEnds rt script s run timeout pollInterval (d.map .running) s') ∧
      ∀ r s', WaitEnds rt script s run timeout pollInterval r s' → r = d.map .running := by
  constructor
  · -- as many rounds as it takes to get to the poll
    have he := Polls.run_eq_decided_iff.mpr ⟨Nat.lt_succ_self k, h⟩
    obtain ⟨s', hs', -⟩ := waitEnds_of_ending hopen he (by simp)
    exact ⟨s', hs'⟩
  · intro r s' hw
    obtain ⟨n, e, he, hend, rfl, -⟩ := hw.exists_ending hopen
    -- any other ending would contradict the poll that decides
    cases e with
    | decided j d' =>
      obtain ⟨-, rfl⟩ := h.unique (Polls.run_eq_decided_iff.mp he).2
      rfl
    | expired j => exact absurd (Polls.run_eq_expired_iff.mp he).2 h.not_expires
    | polling => exact absurd rfl hend

/-! ### Where every poll succeeds -/

/-- Every `GetPipeline` call of the session succeeds from now on, with named numbers;
`status k` is what the `k`-th of them reports. -/
def Script.Reports (script : Script) (s : Session) (status : ℕ → RunStatus) : Prop :=
  ∀ k, ∃ st : PipelineState, script.reply (s.trace.length + k) .getPipeline = .ok st ∧
    st.Named ∧ st.toRunStatus = .ok (status k)

/-- The status ends a wait. -/
def RunStatus.Decisive (status : RunStatus) : Prop :=
  status.isRunning = true ∨ status.isDegraded = true

/-- Poll `k` starts before the deadline, and is the first with a decisive status. -/
structure FirstDecisive (script : Script) (s : Session) (status : ℕ → RunStatus)
    (deadline : ℚ) (k : ℕ) : Prop where
  before : script.clock (s.ticks + 1 + k) < deadline
  decisive : (status k).Decisive
  first : ∀ j < k, ¬ (status j).Decisive

/-- The status of the last of `m` polls. -/
def lastStatus (status : ℕ → RunStatus) : ℕ → Option RunStatus
  | 0 => none
  | m + 1 => some (status m)

/-- What the loop makes of a status. -/
def Run.decision (rt : Runtime) (run : Run) (status : RunStatus) : Except Exn RunStatus :=
  if status.isRunning then .ok status else .error (.conduit (run.degradedError rt status))

section Reports

variable {status : ℕ → RunStatus}

theorem seen_of_reports (h : script.Reports s status) (m : ℕ) :
    Run.seen script s m = lastStatus status m := by
  cases m with
  | zero => rfl
  | succ m =>
    obtain ⟨st, hrep, -, hst⟩ := h m
    simp [Run.seen, Run.reported, hrep, hst, lastStatus, Except.toOption]

/-- A poll decides by its status alone. -/
theorem verdict_of_reports (h : script.Reports s status) (hp : 0 ≤ pollInterval) (k : ℕ) :
    (run.polls rt script s pollInterval).verdict k =
      if (status k).isRunning ∨ (status k).isDegraded then some (run.decision rt (status k))
      else none := by
  obtain ⟨st, hrep, -, hst⟩ := h k
  simp only [Run.polls, Run.verdict, hrep, hst, hp, if_true, Run.decision]
  cases (status k).isRunning <;> cases (status k).isDegraded <;> simp

theorem verdict_eq_none_iff (h : script.Reports s status) (hp : 0 ≤ pollInterval) (k : ℕ) :
    (run.polls rt script s pollInterval).verdict k = none ↔ ¬ (status k).Decisive := by
  rw [verdict_of_reports h hp, RunStatus.Decisive]
  split <;> simp_all

/-- With a clock that does not go back, the first decisive poll decides. -/
theorem decides_iff (rt : Runtime) (run : Run) (hmono : Monotone script.clock)
    (h : script.Reports s status)
    (hp : 0 ≤ pollInterval) (k : ℕ) (r : Except Exn RunStatus) :
    (run.polls rt script s pollInterval).Decides deadline k r ↔
      FirstDecisive script s status deadline k ∧ r = run.decision rt (status k) := by
  have hmono' : Monotone (run.polls rt script s pollInterval).check :=
    fun i j hij => hmono (Nat.add_le_add_left hij _)
  constructor
  · rintro ⟨⟨hpending, hcheck⟩, hverdict⟩
    rw [verdict_of_reports h hp] at hverdict
    split at hverdict
    · next hdec =>
      -- the polls before it left the wait undecided, so they were not decisive
      refine ⟨⟨hcheck, hdec, fun j hj => ?_⟩, (Option.some.inj hverdict).symm⟩
      exact (verdict_eq_none_iff h hp j).mp (hpending j hj).2
    · cases hverdict
  · rintro ⟨⟨hbefore, hdec, hfirst⟩, rfl⟩
    -- with a monotone clock every earlier poll was made in time as well
    refine ⟨Polls.made_of_monotone hmono' hbefore fun j hj => ?_, ?_⟩
    · exact (verdict_eq_none_iff h hp j).mpr (hfirst j hj)
    · rw [verdict_of_reports h hp]
      exact if_pos hdec

/-- A call that ends does so by the first decisive poll, or by the deadline without one. -/
theorem WaitEnds.cases (hmono : Monotone script.clock) (h : script.Reports s status)
    (hp : 0 ≤ pollInterval) (hopen : s.channelOpen = true) {r : Except Exn Waited}
    {s' : Session} (hw : WaitEnds rt script s run timeout pollInterval r s') :
    (∃ k, FirstDecisive script s status (script.clock s.ticks + timeout) k ∧
      r = (run.decision rt (status k)).map .running ∧
      s'.trace = s.trace ++ List.replicate (k + 1) run.pollRpc) ∨
    ((∀ k, ¬ FirstDecisive script s status (script.clock s.ticks + timeout) k) ∧
      ∃ m, r = .error (.conduit (run.timeoutError rt timeout (lastStatus status m))) ∧
        s'.trace = s.trace ++ List.replicate m run.pollRpc) := by
  obtain ⟨n, e, he, hend, rfl, htrace⟩ := hw.exists_ending hopen
  cases e with
  | decided k b =>
    obtain ⟨-, hdecides⟩ := Polls.run_eq_decided_iff.mp he
    obtain ⟨hfirst, rfl⟩ := (decides_iff rt run hmono h hp k b).mp hdecides
    exact Or.inl ⟨k, hfirst, rfl, htrace⟩
  | expired m =>
    obtain ⟨-, hexpires⟩ := Polls.run_eq_expired_iff.mp he
    refine Or.inr ⟨fun k hfirst => ?_, m, ?_, htrace⟩
    · exact ((decides_iff rt run hmono h hp k _).mpr ⟨hfirst, rfl⟩).not_expires hexpires
    · rw [← seen_of_reports h m]
      rfl
  | polling => exact absurd rfl hend

/-- The first decisive poll ends the call. -/
theorem FirstDecisive.waitEnds (rt : Runtime) (run : Run) (hmono : Monotone script.clock)
    (h : script.Reports s status)
    (hp : 0 ≤ pollInterval) (hopen : s.channelOpen = true) {k : ℕ}
    (hk : FirstDecisive script s status (script.clock s.ticks + timeout) k) :
    ∃ s', WaitEnds rt script s run timeout pollInterval
      ((run.decision rt (status k)).map .running) s' := by
  exact (waitEnds_of_decides hopen ((decides_iff rt run hmono h hp k _).mpr ⟨hk, rfl⟩)).1

end Reports

/-! ### When polls start -/

section Only

variable {φ : HostOp → Prop}

/-- Fetching the status asks for a message and for one call. -/
theorem only_status (rt : Runtime) (run : Run) (t : ℚ) (hnew : ∀ msg, φ (.new msg))
    (hsend : ∀ r, φ (.send .getPipeline r t)) (hrecv : φ (.recv .getPipeline)) :
    (run.status rt t).Only φ := by
  refine .bind (.perform (hnew _)) fun r => .bind ?_ fun _ => trivial
  exact only_call rt.toCodec .getPipeline r t (hsend r) hrecv

theorem only_waitLoop (rt : Runtime) (run : Run) (timeout deadline pollInterval : ℚ)
    (hclock : φ .monotonic) (hstatus : (run.status rt 5).Only φ) (hsleep : φ (.sleep pollInterval))
    (n : ℕ) (last : Option RunStatus) :
    (run.waitLoop rt timeout deadline pollInterval n last).Only φ := by
  -- induction on the rounds; each looks at the clock, polls and sleeps
  induction n generalizing last with
  | zero => trivial
  | succ n ih =>
    refine .bind (.perform hclock) fun t => ?_
    split
    · refine .bind hstatus fun status => ?_
      split
      · trivial
      · split
        · trivial
        · exact .bind (only_performOrRaise (.perform hsleep)) fun _ => ih _
    · trivial

theorem only_waitRunning (rt : Runtime) (run : Run) (timeout pollInterval : ℚ)
    (hclock : φ .monotonic) (hstatus : (run.status rt 5).Only φ)
    (hsleep : φ (.sleep pollInterval)) (n : ℕ) :
    (run.waitRunning rt timeout pollInterval n).Only φ :=
  .bind (.perform hclock) fun _ => only_waitLoop rt run _ _ _ hclock hstatus hsleep n none

end Only

/-- The operation starts an RPC. -/
def HostOp.sends : HostOp → Bool
  | .send .. => true
  | _ => false

/-- The operation is no look at the clock. -/
def HostOp.Timeless (o : HostOp) : Prop := o ≠ .monotonic

/-- Only a look at the clock counts as one. -/
theorem Script.handle_ticks (script : Script) (s : Session) {o : HostOp} (ho : o.Timeless) :
    (script.handle s o).2.ticks = s.ticks := by
  cases o with
  | monotonic => exact absurd rfl ho
  | getAttr a => cases a <;> rfl
  | setAttr a b => cases a <;> rfl
  | send m r t =>
    simp only [Script.handle]
    split <;> rfl
  | sleep d =>
    simp only [Script.handle]
    split <;> rfl
  | _ => rfl

/-- A program that does not look at the clock leaves the count of its readings alone. -/
theorem ticks_of_timeless {α : Type} {p : HostM α} (hp : p.Only HostOp.Timeless) (s : Session) :
    (p.eval script.handle s).2.ticks = s.ticks ∧
      ∀ x ∈ p.steps script.handle s, x.1.ticks = s.ticks := by
  -- induction on the program, one operation at a time
  induction p generalizing s with
  | done r => exact ⟨rfl, fun x hx => absurd hx List.not_mem_nil⟩
  | op o k ih =>
    have hkeep := script.handle_ticks s hp.1
    obtain ⟨heval, hsteps⟩ := ih (script.handle s o).1 (hp.2 _) (script.handle s o).2
    refine ⟨heval.trans hkeep, fun x hx => ?_⟩
    rcases List.mem_cons.mp hx with rfl | hx
    · rfl
    · exact (hsteps x hx).trans hkeep

/-- The operations of a round before the deadline. -/
theorem steps_waitLoop_live (rt : Runtime) (run : Run) (timeout pollInterval : ℚ) (n : ℕ)
    (last : Option RunStatus) (h : script.clock s.ticks < deadline) :
    (run.waitLoop rt timeout deadline pollInterval (n + 1) last).steps script.handle s =
      (s, .monotonic) :: (run.status rt 5 >>= run.pollStep rt timeout deadline
        pollInterval n).steps script.handle { s with ticks := s.ticks + 1 } := by
  unfold Run.waitLoop
  rw [Prog.steps_perform_bind]
  simp only [Script.handle, h, if_true]
  rfl

/-- The operations of a round that finds the deadline passed. -/
theorem steps_waitLoop_expired (rt : Runtime) (run : Run) (timeout pollInterval : ℚ) (n : ℕ)
    (last : Option RunStatus) (h : ¬ script.clock s.ticks < deadline) :
    (run.waitLoop rt timeout deadline pollInterval (n + 1) last).steps script.handle s =
      [(s, .monotonic)] := by
  unfold Run.waitLoop
  rw [Prog.steps_perform_bind]
  simp only [Script.handle, h, if_false]
  rfl

/-- The operations behind a poll: none, or a sleep and the next round. -/
theorem steps_pollStep (rt : Runtime) (script : Script) (s : Session) (run : Run)
    (timeout deadline pollInterval : ℚ) (n : ℕ) (status : RunStatus) :
    (run.pollStep rt timeout deadline pollInterval n status).steps script.handle s = [] ∨
      (run.pollStep rt timeout deadline pollInterval n status).steps script.handle s =
        [(s, .sleep pollInterval)] ∨
      (run.pollStep rt timeout deadline pollInterval n status).steps script.handle s =
        (s, .sleep pollInterval) ::
          (run.waitLoop rt timeout deadline pollInterval n (some status)).steps
            script.handle s := by
  unfold Run.pollStep
  split
  · exact Or.inl rfl
  · split
    · exact Or.inl rfl
    · rw [performOrRaise, bind_assoc, Prog.steps_perform_bind]
      -- the sleep is refused if it is negative, and then there is no next round
      by_cases hp : 0 ≤ pollInterval
      · simp only [Script.handle, hp, if_true]
        exact Or.inr (Or.inr rfl)
      · simp only [Script.handle, hp, if_false]
        exact Or.inr (Or.inl rfl)

/-- The loop starts no RPC without having found the deadline ahead. -/
theorem send_before_deadline (rt : Runtime) (script : Script) (run : Run)
    (timeout deadline pollInterval : ℚ) (n : ℕ) (last : Option RunStatus) (s : Session) :
    ∀ x ∈ (run.waitLoop rt timeout deadline pollInterval n last).steps script.handle s,
      x.2.sends = true → script.clock (x.1.ticks - 1) < deadline := by
  -- induction on the rounds; a round is a look at the clock, a poll and the rest
  induction n generalizing last s with
  | zero => exact fun x hx => absurd hx List.not_mem_nil
  | succ n ih =>
    intro x hx hsend
    by_cases hnow : script.clock s.ticks < deadline
    · rw [steps_waitLoop_live rt run timeout pollInterval n last hnow] at hx
      rcases List.mem_cons.mp hx with rfl | hx
      · cases hsend
      have honly : (run.status rt 5).Only HostOp.Timeless :=
        only_status rt run 5 (fun _ => nofun) (fun _ => nofun) nofun
      rcases (Prog.mem_steps_bind_iff _).mp hx with hx | ⟨status, s', -, hx⟩
      · -- the poll itself
        rw [(ticks_of_timeless honly _).2 x hx]
        simpa using hnow
      · -- behind the poll there is nothing, or a sleep and the next round
        rcases steps_pollStep rt script s' run timeout deadline pollInterval n status with
          hnil | hsleep | hnext
        · rw [hnil] at hx
          exact absurd hx List.not_mem_nil
        · rw [hsleep, List.mem_singleton] at hx
          rw [hx] at hsend
          cases hsend
        · rw [hnext] at hx
          rcases List.mem_cons.mp hx with rfl | hx
          · cases hsend
          · exact ih (some status) _ x hx hsend
    · rw [steps_waitLoop_expired rt run timeout pollInterval n last hnow,
        List.mem_singleton] at hx
      rw [hx] at hsend
      cases hsend

/-! ### The first decisive poll -/

section FirstDecisive

variable {status : ℕ → RunStatus}

/-- A wait that returns, returns the status of the first decisive poll. -/
theorem waitEnds_running_iff (hmono : Monotone script.clock) (h : script.Reports s status)
    (hp : 0 ≤ pollInterval) (hopen : s.channelOpen = true) (final : RunStatus) :
    (∃ s', WaitEnds rt script s run timeout pollInterval (.ok (.running final)) s') ↔
      ∃ k, FirstDecisive script s status (script.clock s.ticks + timeout) k ∧
        (status k).isRunning = true ∧ final = status k := by
  constructor
  · rintro ⟨s', hw⟩
    rcases hw.cases hmono h hp hopen with ⟨k, hfirst, hr, -⟩ | ⟨-, m, hr, -⟩
    · refine ⟨k, hfirst, ?_⟩
      -- the first decisive status was running, for a degraded one raises
      unfold Run.decision at hr
      split at hr
      · next hrun => exact ⟨hrun, by simpa [Except.map] using hr⟩
      · cases hr
    · cases hr
  · rintro ⟨k, hfirst, hrun, rfl⟩
    have hw := hfirst.waitEnds rt run hmono h hp hopen
    rw [Run.decision, if_pos hrun] at hw
    exact hw

/-- A wait that reports a degraded pipeline, reports the status of the first decisive poll. -/
theorem waitEnds_degraded_iff (hmono : Monotone script.clock) (h : script.Reports s status)
    (hp : 0 ≤ pollInterval) (hopen : s.channelOpen = true) (err : ConduitError) :
    ((∃ s', WaitEnds rt script s run timeout pollInterval (.error (.conduit err)) s') ∧
        err.code = "client.pipeline_degraded") ↔
      ∃ k, FirstDecisive script s status (script.clock s.ticks + timeout) k ∧
        (status k).isDegraded = true ∧ err = run.degradedError rt (status k) := by
  constructor
  · rintro ⟨⟨s', hw⟩, hcode⟩
    rcases hw.cases hmono h hp hopen with ⟨k, hfirst, hr, -⟩ | ⟨-, m, hr, -⟩
    · refine ⟨k, hfirst, ?_⟩
      unfold Run.decision at hr
      split at hr
      · cases hr
      · next hrun =>
        obtain rfl : err = run.degradedError rt (status k) := by simpa [Except.map] using hr
        exact ⟨hfirst.decisive.resolve_left hrun, rfl⟩
    · -- the error of a wait that ran out of time has another code
      obtain rfl : err = run.timeoutError rt timeout (lastStatus status m) := by simpa using hr
      have hother : (run.timeoutError rt timeout (lastStatus status m)).code =
          "client.wait_timeout" := rfl
      rw [hother] at hcode
      exact absurd hcode (by decide)
  · rintro ⟨k, hfirst, hdeg, rfl⟩
    -- a status is not both
    have hrun : (status k).isRunning = false := by
      simp only [RunStatus.isDegraded, beq_iff_eq] at hdeg
      simp [RunStatus.isRunning, hdeg]
    have hw := hfirst.waitEnds rt run hmono h hp hopen
    rw [Run.decision, if_neg (by simp [hrun])] at hw
    exact ⟨hw, rfl⟩

/-- A wait that ends runs out of time exactly when no poll was decisive. -/
theorem WaitEnds.timeout_iff (hmono : Monotone script.clock) (h : script.Reports s status)
    (hp : 0 ≤ pollInterval) (hopen : s.channelOpen = true) {r : Except Exn Waited}
    {s' : Session} (hw : WaitEnds rt script s run timeout pollInterval r s') :
    (∃ err, r = .error (.conduit err) ∧ err.code = "client.wait_timeout") ↔
      ∀ k, ¬ FirstDecisive script s status (script.clock s.ticks + timeout) k := by
  rcases hw.cases hmono h hp hopen with ⟨k, hfirst, rfl, -⟩ | ⟨hnone, m, rfl, -⟩
  · refine iff_of_false ?_ fun hnone => hnone k hfirst
    rintro ⟨err, hr, hcode⟩
    unfold Run.decision at hr
    split at hr
    · cases hr
    · obtain rfl : run.degradedError rt (status k) = err := by simpa [Except.map] using hr
      exact absurd hcode (by simp [Run.degradedError])
  · exact iff_of_true ⟨_, rfl, rfl⟩ hnone

/-- A wait that ends has polled up to the first decisive poll, and the error of one that ran
out of time names the last status seen. -/
theorem WaitEnds.trace_eq (hmono : Monotone script.clock) (h : script.Reports s status)
    (hp : 0 ≤ pollInterval) (hopen : s.channelOpen = true) {r : Except Exn Waited}
    {s' : Session} (hw : WaitEnds rt script s run timeout pollInterval r s') :
    ∃ m, s'.trace = s.trace ++ List.replicate m run.pollRpc ∧
      (∀ k, FirstDecisive script s status (script.clock s.ticks + timeout) k → m = k + 1) ∧
      ((∀ k, ¬ FirstDecisive script s status (script.clock s.ticks + timeout) k) →
        r = .error (.conduit (run.timeoutError rt timeout (lastStatus status m)))) := by
  rcases hw.cases hmono h hp hopen with ⟨k, hfirst, -, htrace⟩ | ⟨hnone, m, hr, htrace⟩
  · refine ⟨k + 1, htrace, fun j hj => ?_, fun hnone => absurd hfirst (hnone k)⟩
    -- there is only one first decisive poll
    have hj' := (decides_iff rt run hmono h hp j _).mpr ⟨hj, rfl⟩
    have hk' := (decides_iff rt run hmono h hp k _).mpr ⟨hfirst, rfl⟩
    rw [(hk'.unique hj').1]
  · exact ⟨m, htrace, fun k hk => absurd hk (hnone k), fun _ => hr⟩

/-- What the error of a wait that ran out of time says after `m` polls. -/
theorem Run.timeoutError_message (rt : Runtime) (run : Run) (timeout : ℚ)
    (status : ℕ → RunStatus) (m : ℕ) :
    (run.timeoutError rt timeout (lastStatus status m)).message =
      "pipeline " ++ rt.repr run.pipelineId ++ " did not reach running within " ++
        rt.seconds timeout ++ "s (last observed status: " ++
        (if m = 0 then "unknown" else (status (m - 1)).status) ++ ")" := by
  -- the last status seen is that of the last poll
  cases m with
  | zero => rfl
  | succ m => rfl

/-- Rounds that take `pollInterval` each end the wait, and are not many. -/
theorem waitEnds_of_sleeps (hmono : Monotone script.clock) (hp : 0 < pollInterval)
    (hopen : s.channelOpen = true)
    (hsleep : ∀ k, script.clock (s.ticks + 1 + k) + pollInterval ≤
      script.clock (s.ticks + 1 + (k + 1))) :
    (∃ r s', WaitEnds rt script s run timeout pollInterval r s') ∧
      ∀ n, ((run.waitRunning rt timeout pollInterval n).eval script.handle s).2.trace.length ≤
        s.trace.length + ⌈timeout / pollInterval⌉₊ := by
  have hstart : script.clock s.ticks ≤ (run.polls rt script s pollInterval).check 0 :=
    hmono (Nat.le_succ _)
  constructor
  · -- one round more than fit before the deadline finds it passed
    have hends := Polls.run_ne_polling (script.clock s.ticks + timeout) hp hstart hsleep
    obtain ⟨s', hw, -⟩ := waitEnds_of_ending hopen rfl hends
    exact ⟨_, s', hw⟩
  · intro n
    have hle := Polls.polls_le_ceil (script.clock s.ticks + timeout) hp hstart hsleep n
    rw [add_sub_cancel_left] at hle
    obtain ⟨s', heval, htrace⟩ := eval_waitRunning rt script run timeout pollInterval n hopen
    rw [heval, htrace, List.length_append, List.length_replicate]
    exact Nat.add_le_add_left hle _

/-- **The wait is settled by the first decisive poll.** -/
theorem waitRunning_first_decisive (rt : Runtime) (run : Run) (timeout : ℚ)
    (hmono : Monotone script.clock)
    (h : script.Reports s status) (hp : 0 < pollInterval) (hopen : s.channelOpen = true) :
    (∀ final, (∃ s', WaitEnds rt script s run timeout pollInterval (.ok (.running final)) s') ↔
      ∃ k, FirstDecisive script s status (script.clock s.ticks + timeout) k ∧
        (status k).isRunning = true ∧ final = status k) ∧
    (∀ err, ((∃ s', WaitEnds rt script s run timeout pollInterval
          (.error (.conduit err)) s') ∧ err.code = "client.pipeline_degraded") ↔
      ∃ k, FirstDecisive script s status (script.clock s.ticks + timeout) k ∧
        (status k).isDegraded = true ∧ err = run.degradedError rt (status k) ∧
        err.message = "pipeline " ++ rt.repr run.pipelineId ++
          " became degraded while waiting to run: " ++ (status k).error) ∧
    (∀ r s', WaitEnds rt script s run timeout pollInterval r s' →
      ((∃ err, r = .error (.conduit err) ∧ err.code = "client.wait_timeout") ↔
        ∀ k, ¬ FirstDecisive script s status (script.clock s.ticks + timeout) k) ∧
      ∃ m, s'.trace = s.trace ++ List.replicate m run.pollRpc ∧
        (∀ k, FirstDecisive script s status (script.clock s.ticks + timeout) k → m = k + 1) ∧
        ((∀ k, ¬ FirstDecisive script s status (script.clock s.ticks + timeout) k) →
          ∃ err, r = .error (.conduit err) ∧
            err = run.timeoutError rt timeout (lastStatus status m) ∧
            err.message = "pipeline " ++ rt.repr run.pipelineId ++
              " did not reach running within " ++ rt.seconds timeout ++
              "s (last observed status: " ++
              (if m = 0 then "unknown" else (status (m - 1)).status) ++ ")")) ∧
    (∀ n, ∀ x ∈ (run.waitRunning rt timeout pollInterval n).steps script.handle s,
      x.2.sends = true → script.clock (x.1.ticks - 1) < script.clock s.ticks + timeout) ∧
    ((∀ k, script.clock (s.ticks + 1 + k) + pollInterval ≤
        script.clock (s.ticks + 1 + (k + 1))) →
      (∃ r s', WaitEnds rt script s run timeout pollInterval r s') ∧
        ∀ n, ((run.waitRunning rt timeout pollInterval n).eval script.handle s).2.trace.length ≤
          s.trace.length + ⌈timeout / pollInterval⌉₊) := by
  refine ⟨waitEnds_running_iff hmono h hp.le hopen, fun err => ?_, fun r s' hw => ?_,
    fun n x hx hsend => ?_, waitEnds_of_sleeps hmono hp hopen⟩
  · -- the text of the status is the end of the message
    rw [waitEnds_degraded_iff hmono h hp.le hopen]
    constructor
    · rintro ⟨k, hfirst, hdeg, rfl⟩
      exact ⟨k, hfirst, hdeg, rfl, rfl⟩
    · rintro ⟨k, hfirst, hdeg, herr, -⟩
      exact ⟨k, hfirst, hdeg, herr⟩
  · obtain ⟨m, htrace, hfirst, hlate⟩ := hw.trace_eq hmono h hp.le hopen
    refine ⟨hw.timeout_iff hmono h hp.le hopen, m, htrace, hfirst, fun hnone => ?_⟩
    exact ⟨_, hlate hnone, rfl, run.timeoutError_message rt timeout status m⟩
  -- the first operation reads the clock for the deadline
  unfold Run.waitRunning at hx
  rw [Prog.steps_perform_bind] at hx
  rcases List.mem_cons.mp hx with rfl | hx
  · cases hsend
  · exact send_before_deadline rt script run timeout _ pollInterval n none _ x hx hsend

end FirstDecisive

/-- A server whose clock ticks once a second, and whose pipeline goes through these states. -/
def Script.through (states : ℕ → PipelineState) : Script where
  reply k
    | .getPipeline => .ok (states k)
    | m => obliging.reply k m
  clock k := k

theorem Script.through_monotone (states : ℕ → PipelineState) :
    Monotone (through states).clock := fun _ _ h => Nat.cast_le.mpr h

/-- A pipeline that recovers once, and then runs. -/
def recovering : ℕ → PipelineState
  | 0 => ⟨4, "", 0⟩
  | _ => ⟨1, "", 0⟩

/-- What the polls report of it. -/
def recoveringStatus : ℕ → RunStatus
  | 0 => ⟨"recovering", "", "unspecified"⟩
  | _ => ⟨"running", "", "unspecified"⟩

theorem recovering_reports :
    (Script.through recovering).Reports newSession recoveringStatus := by
  intro k
  refine ⟨recovering k, by simp [Script.through, newSession], ?_⟩
  cases k with
  | zero => exact ⟨by decide, by decide⟩
  | succ k =>
    change PipelineState.Named ⟨1, "", 0⟩ ∧
      PipelineState.toRunStatus ⟨1, "", 0⟩ = .ok ⟨"running", "", "unspecified"⟩
    exact ⟨by decide, by decide⟩

/-- The second poll settles this wait. -/
theorem waitRunning_recovering :
    ∃ s', WaitEnds plainRuntime (Script.through recovering) newSession ⟨"p"⟩ 30 1
      (.ok (.running ⟨"running", "", "unspecified"⟩)) s' := by
  have hbefore : (Script.through recovering).clock (newSession.ticks + 1 + 1) <
      (Script.through recovering).clock newSession.ticks + 30 := by
    change ((0 + 1 + 1 : ℕ) : ℚ) < ((0 : ℕ) : ℚ) + 30
    norm_num
  have hfirst : FirstDecisive (Script.through recovering) newSession recoveringStatus
      ((Script.through recovering).clock newSession.ticks + 30) 1 := by
    refine ⟨hbefore, Or.inl rfl, fun j hj => ?_⟩
    obtain rfl : j = 0 := by omega
    simp [RunStatus.Decisive, RunStatus.isRunning, RunStatus.isDegraded, recoveringStatus]
  have hsettled := waitRunning_first_decisive plainRuntime ⟨"p"⟩ 30
    (Script.through_monotone recovering) recovering_reports one_pos rfl
  exact (hsettled.1 _).mpr ⟨1, hfirst, rfl, rfl⟩

end Conduit
