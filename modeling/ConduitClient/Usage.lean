import ConduitClient.ErrorsTotal
import ConduitClient.Submission

/-!
# Sequences of public operations

A client promises one exception type: whatever the server does, an operation returns or
raises a `ConduitError`. This file says when it does. `ClientOp` are the public operations,
`after` is the state after a sequence of them, and `Sound` is the condition on the state
before an operation and on the script under which the operation keeps the promise.

Each operation has its own equivalence (`surfaced_getInfo_iff` and its siblings); they meet
in `surfaces_iff`. An operation breaks the promise in four ways: by a stub call on a closed
channel, by a failure that cannot be translated, by an enum number without a name, and by a
negative poll interval.
-/

namespace Conduit

open Effect

variable {lib : Codec} {script : Script} {s : Session}

/-! ### One call -/

/-- A failed call surfaces exactly when its failure can be translated. -/
theorem surfaced_translated_iff {α : Type} (e : RpcError) :
    Surfaced (.error (translated lib e) : Except Exn α) ↔ Translatable lib e := by
  rw [← fromRpcError_ok_iff]
  cases h : ConduitError.fromRpcError lib e with
  | ok err => simp [translated, h]
  | error x =>
    obtain rfl := fromRpcError_error h
    simp [translated, h, Surfaced]

theorem surfaced_mapError_iff {α : Type} (r : Except RpcError α) :
    Surfaced (r.mapError (translated lib)) ↔ ∀ e, r = .error e → Translatable lib e := by
  cases r with
  | ok a => simp [Except.mapError]
  | error e => simpa [Except.mapError] using surfaced_translated_iff e

@[simp] theorem surfaced_map_iff {α β : Type} (f : α → β) (r : Except Exn α) :
    Surfaced (r.map f) ↔ Surfaced r := by
  cases r <;> rfl

/-- A call surfaces when the channel is open and its failure can be translated. -/
theorem surfaced_call_iff (m : Method) (t : ℚ) {r : Ref} {msg : Message}
    (hr : s.heap[r]? = some msg) :
    Surfaced ((Client.call lib m r t).eval script.handle s).1 ↔
      s.channelOpen = true ∧
        ∀ e, script.reply s.trace.length m = .error e → Translatable lib e := by
  cases hopen : s.channelOpen with
  | false => simp [eval_call_closed m r t hopen, closedChannel]
  | true => simp [eval_call lib script m t hopen hr, surfaced_mapError_iff]

/-! ### The status of a run -/

/-- Both enum numbers of the state have a name. -/
def PipelineState.Named (st : PipelineState) : Prop :=
  st.status ∈ ([0, 1, 2, 3, 4] : List Int32) ∧ st.stoppedReason ∈ ([0, 1, 2] : List Int32)

instance (st : PipelineState) : Decidable st.Named := inferInstanceAs (Decidable (_ ∧ _))

theorem statusName_cases (n : Int32) :
    ((∃ name, statusName n = .ok name) ∧ n ∈ ([0, 1, 2, 3, 4] : List Int32)) ∨
      ((∃ msg, statusName n = .error (.value msg)) ∧ n ∉ ([0, 1, 2, 3, 4] : List Int32)) := by
  unfold statusName
  split_ifs <;> simp_all

theorem stoppedReasonName_cases (n : Int32) :
    ((∃ name, stoppedReasonName n = .ok name) ∧ n ∈ ([0, 1, 2] : List Int32)) ∨
      ((∃ msg, stoppedReasonName n = .error (.value msg)) ∧
        n ∉ ([0, 1, 2] : List Int32)) := by
  unfold stoppedReasonName
  split_ifs <;> simp_all

/-- A state with an unnamed number is a `ValueError`. -/
theorem toRunStatus_cases (st : PipelineState) :
    ((∃ rs, st.toRunStatus = .ok rs) ∧ st.Named) ∨
      ((∃ msg, st.toRunStatus = .error (.value msg)) ∧ ¬ st.Named) := by
  unfold PipelineState.toRunStatus PipelineState.Named
  -- the status is converted first, and its `ValueError` comes first
  rcases statusName_cases st.status with ⟨⟨n, hn⟩, hmem⟩ | ⟨⟨m, hm⟩, hmem⟩
  · rcases stoppedReasonName_cases st.stoppedReason with ⟨⟨n', hn'⟩, hmem'⟩ | ⟨⟨m', hm'⟩, hmem'⟩
    · exact Or.inl ⟨⟨_, by rw [hn, hn']; rfl⟩, hmem, hmem'⟩
    · exact Or.inr ⟨⟨m', by rw [hn, hm']; rfl⟩, fun h => hmem' h.2⟩
  · exact Or.inr ⟨⟨m, by rw [hm]; rfl⟩, fun h => hmem h.1⟩

theorem surfaced_toRunStatus_iff (st : PipelineState) :
    Surfaced st.toRunStatus ↔ st.Named := by
  rcases toRunStatus_cases st with ⟨⟨rs, hrs⟩, hn⟩ | ⟨⟨msg, hmsg⟩, hn⟩
  · simp [hrs, hn]
  · simp [hmsg, hn]

variable {rt : Runtime}

/-- Fetching the status is one RPC, and the conversion of what it answers. -/
theorem eval_status (rt : Runtime) (script : Script) (run : Run) (t : ℚ)
    (hopen : s.channelOpen = true) :
    (run.status rt t).eval script.handle s =
      (match script.reply s.trace.length .getPipeline with
        | .error e => .error (translated rt.toCodec e)
        | .ok st => st.toRunStatus,
        { s with
          heap := s.heap ++ [.getPipeline run.pipelineId]
          trace := s.trace ++ [⟨.getPipeline, .getPipeline run.pipelineId⟩] }) := by
  -- the new message is the last one of the heap
  have hmsg : (s.heap ++ [Message.getPipeline run.pipelineId])[s.heap.length]? =
      some (.getPipeline run.pipelineId) := by simp
  have hc := eval_call rt.toCodec script
    (s := { s with heap := s.heap ++ [.getPipeline run.pipelineId] }) .getPipeline t hopen hmsg
  unfold Run.status
  rw [Prog.eval_bind_ok _ (eval_new _)]
  cases hrep : script.reply s.trace.length .getPipeline with
  | error e =>
    rw [hrep] at hc
    exact Prog.eval_bind_error _ hc
  | ok st =>
    rw [hrep] at hc
    exact Prog.eval_bind_ok _ hc

/-- Fetching the status through a closed channel. -/
theorem eval_status_closed (rt : Runtime) (script : Script) (run : Run) (t : ℚ)
    (hopen : s.channelOpen = false) :
    ∃ s', (run.status rt t).eval script.handle s = (.error closedChannel, s') :=
  ⟨_, (Prog.eval_bind_ok _ (eval_new _)).trans
    (Prog.eval_bind_error _ (eval_call_closed _ _ _ hopen))⟩

/-- The condition under which fetching the status surfaces. -/
def Script.StatusSound (script : Script) (lib : Codec) (s : Session) : Prop :=
  s.channelOpen = true ∧
    (∀ e, script.reply s.trace.length .getPipeline = .error e → Translatable lib e) ∧
      ∀ st, script.reply s.trace.length .getPipeline = .ok st → st.Named

theorem surfaced_status_iff (run : Run) (t : ℚ) :
    Surfaced ((run.status rt t).eval script.handle s).1 ↔
      script.StatusSound rt.toCodec s := by
  unfold Script.StatusSound
  cases hopen : s.channelOpen with
  | false =>
    obtain ⟨s', hs'⟩ := eval_status_closed rt script run t hopen
    simp [hs', closedChannel]
  | true =>
    rw [eval_status rt script run t hopen]
    cases hrep : script.reply s.trace.length .getPipeline with
    | error e => simp [surfaced_translated_iff]
    | ok st => simp [surfaced_toRunStatus_iff]

/-! ### Waiting for a run -/

/-- The condition under which `n` iterations of the polling loop surface, from reading
`tick` of the clock and position `k` of the trace: of the iterations that are reached, none
runs into a closed channel, an untranslatable failure or an unnamed number, or sleeps for a
negative time. -/
def Script.PollsSound (script : Script) (lib : Codec) (deadline pollInterval : ℚ)
    (isOpen : Bool) : Nat → Nat → Nat → Prop
  | 0, _, _ => True
  | n + 1, tick, k => script.clock tick < deadline → isOpen = true ∧
      (∀ e, script.reply k .getPipeline = .error e → Translatable lib e) ∧
      ∀ st, script.reply k .getPipeline = .ok st → st.Named ∧
        ∀ rs, st.toRunStatus = .ok rs → rs.isRunning = false → rs.isDegraded = false →
          0 ≤ pollInterval ∧
            script.PollsSound lib deadline pollInterval isOpen n (tick + 1) (k + 1)

/-- One iteration that found the deadline passed. -/
theorem eval_waitLoop_expired (rt : Runtime) (script : Script) (run : Run)
    (timeout deadline pollInterval : ℚ) (n : Nat) (last : Option RunStatus)
    (h : ¬ script.clock s.ticks < deadline) :
    ∃ s', (Run.waitLoop rt run timeout deadline pollInterval (n + 1) last).eval script.handle s =
      (.error (.conduit (Run.timeoutError rt run timeout last)), s') := by
  refine ⟨{ s with ticks := s.ticks + 1 }, ?_⟩
  unfold Run.waitLoop
  rw [Prog.eval_perform_bind]
  simp only [Script.handle, h, if_false]
  rfl

/-- What an iteration does with the status it has fetched. -/
def Run.pollStep (rt : Runtime) (run : Run) (timeout deadline pollInterval : ℚ) (n : Nat)
    (status : RunStatus) : HostM Waited :=
  if status.isRunning then
    return .running status
  else if status.isDegraded then
    Prog.raise (.conduit (Run.degradedError rt run status))
  else do
    performOrRaise (perform (.sleep pollInterval))
    Run.waitLoop rt run timeout deadline pollInterval n (some status)

/-- One iteration before the deadline. -/
theorem eval_waitLoop_live (run : Run) (timeout deadline pollInterval : ℚ) (n : Nat)
    (last : Option RunStatus) (h : script.clock s.ticks < deadline) :
    (Run.waitLoop rt run timeout deadline pollInterval (n + 1) last).eval script.handle s =
      (run.status rt 5 >>= run.pollStep rt timeout deadline pollInterval n).eval script.handle
        { s with ticks := s.ticks + 1 } := by
  unfold Run.waitLoop
  rw [Prog.eval_perform_bind]
  simp only [Script.handle, h, if_true]
  rfl

/-- An iteration whose status is not decisive sleeps and goes on, unless the runtime refuses
the sleep. -/
theorem eval_pollStep_again (run : Run) (timeout deadline pollInterval : ℚ) (n : Nat)
    {status : RunStatus} (hr : status.isRunning = false) (hd : status.isDegraded = false) :
    (run.pollStep rt timeout deadline pollInterval n status).eval script.handle s =
      if 0 ≤ pollInterval then
        (run.waitLoop rt timeout deadline pollInterval n (some status)).eval script.handle s
      else (.error negativeSleep, { s with badSleeps := s.badSleeps + 1 }) := by
  simp only [Run.pollStep, hr, hd, Bool.false_eq_true, if_false, performOrRaise, bind_assoc]
  rw [Prog.eval_perform_bind]
  by_cases hs : 0 ≤ pollInterval
  · simp only [Script.handle, hs, if_true]
    rfl
  · simp only [Script.handle, hs, if_false]
    rfl

theorem surfaced_waitLoop_iff (run : Run) (timeout deadline pollInterval : ℚ) (n : Nat)
    (last : Option RunStatus) :
    Surfaced ((Run.waitLoop rt run timeout deadline pollInterval n last).eval
        script.handle s).1 ↔
      script.PollsSound rt.toCodec deadline pollInterval s.channelOpen n s.ticks
        s.trace.length := by
  -- induction on the iterations; `PollsSound` follows the same recursion
  induction n generalizing s last with
  | zero => simp [Run.waitLoop, Script.PollsSound]
  | succ n ih =>
    by_cases hnow : script.clock s.ticks < deadline
    · rw [eval_waitLoop_live _ _ _ _ _ _ hnow, Script.PollsSound]
      simp only [hnow, forall_true_left]
      by_cases hopen : s.channelOpen = true
      · have hst := eval_status rt script
          (s := { s with ticks := s.ticks + 1 }) run 5 hopen
        cases hrep : script.reply s.trace.length .getPipeline with
        | error e =>
          simp only [hrep] at hst
          rw [Prog.eval_bind_error _ hst]
          simp [surfaced_translated_iff, hopen]
        | ok st =>
          simp only [hrep] at hst
          rcases toRunStatus_cases st with ⟨⟨rs, hrs⟩, hn⟩ | ⟨⟨msg, hmsg⟩, hn⟩
          · -- decisive statuses end the loop, and any other is followed by a sleep
            rw [hrs] at hst
            rw [Prog.eval_bind_ok _ hst]
            cases hr : rs.isRunning with
            | true => simp [Run.pollStep, hr, hn, hrs, hopen]
            | false =>
              cases hd : rs.isDegraded with
              | true => simp [Run.pollStep, hr, hd, hn, hrs, hopen]
              | false =>
                rw [eval_pollStep_again _ _ _ _ _ hr hd]
                by_cases hs : 0 ≤ pollInterval
                · simp [hs, ih, hopen, hn, hrs, hr, hd]
                · simp [hs, hn, hrs, hr, hd, negativeSleep]
          · -- an enum number without a name
            rw [hmsg] at hst
            rw [Prog.eval_bind_error _ hst]
            simp [hn]
      · -- a closed channel refuses the first poll already
        obtain ⟨s', hs'⟩ := eval_status_closed rt script
          (s := { s with ticks := s.ticks + 1 }) run 5 (by simpa using hopen)
        rw [Prog.eval_bind_error _ hs']
        simp [closedChannel, hopen]
    · -- a timeout is a `ConduitError`
      obtain ⟨s', hs'⟩ := eval_waitLoop_expired rt script run timeout
        deadline pollInterval n last hnow
      simp [hs', Script.PollsSound, hnow]

theorem surfaced_waitRunning_iff (run : Run) (timeout pollInterval : ℚ) (n : Nat) :
    Surfaced ((run.waitRunning rt timeout pollInterval n).eval script.handle s).1 ↔
      script.PollsSound rt.toCodec (script.clock s.ticks + timeout) pollInterval s.channelOpen
        n (s.ticks + 1) s.trace.length := by
  unfold Run.waitRunning
  rw [Prog.eval_perform_bind]
  exact surfaced_waitLoop_iff run timeout _ pollInterval n none

/-! ### Submitting a pipeline -/

/-- The first of the RPCs that fails, if any does, fails with a translatable failure. -/
def Script.SubmitSound (script : Script) (lib : Codec) (k : Nat) (rpcs : List Rpc) : Prop :=
  ∀ before failed after e, rpcs = before ++ failed :: after → script.AllAcked k before →
    script.reply (k + before.length) failed.method = .error e → Translatable lib e

theorem Script.submit_of_failure {k : Nat} {before after : List Rpc} {failed : Rpc}
    {e : RpcError} (hack : script.AllAcked k before)
    (h : script.reply (k + before.length) failed.method = .error e) :
    (script.submit k (before ++ failed :: after)).2 = .error e := by
  -- induction on the RPCs before the one that fails
  induction before generalizing k with
  | nil =>
    have h' : script.reply k failed.method = .error e := h
    simp [submit, h']
  | cons rpc before ih =>
    obtain ⟨resp, hresp⟩ := hack 0 rpc rfl
    have hresp' : script.reply k rpc.method = .ok resp := hresp
    simp only [List.cons_append, submit, hresp']
    refine ih (fun i rpc' hi => ?_) ?_
    · rw [show k + 1 + i = k + (i + 1) by omega]
      exact hack (i + 1) rpc' (by simpa using hi)
    · rwa [show k + 1 + before.length = k + (rpc :: before).length by
        rw [List.length_cons]; omega]

theorem Script.submitSound_iff (k : Nat) (rpcs : List Rpc) :
    script.SubmitSound lib k rpcs ↔
      ∀ e, (script.submit k rpcs).2 = .error e → Translatable lib e := by
  constructor
  · intro h e he
    obtain ⟨before, failed, hsent, hack, hfail⟩ := submit_error he
    obtain ⟨after, hafter⟩ := script.submit_isPrefix k rpcs
    exact h before failed after e (by rw [← hafter, hsent]; simp) hack hfail
  · rintro h before failed after e rfl hack hfail
    exact h e (submit_of_failure hack hfail)

/-- A builder whose payloads can all be built, with its payloads. -/
structure Buildable where
  pipeline : Pipeline
  payloads : Payloads
  built : pipeline.payloads = .ok payloads

/-- The condition under which a submission surfaces. -/
def Script.RunSound (script : Script) (lib : Codec) (s : Session) (b : Buildable)
    (start : Bool) : Prop :=
  s.channelOpen = true ∧
    (∀ e, script.reply s.trace.length .createPipeline = .error e → Translatable lib e) ∧
      ∀ pid, script.reply s.trace.length .createPipeline = .ok pid →
        script.SubmitSound lib (s.trace.length + 1) (b.payloads.followUps pid start)

theorem surfaced_withPipelineId_iff {α : Type} (pid : String) (x : Exn) :
    Surfaced (.error (x.withPipelineId pid) : Except Exn α) ↔
      Surfaced (.error x : Except Exn α) := by
  cases x <;> simp [Exn.withPipelineId, Surfaced]

theorem surfaced_run_iff (b : Buildable) (start : Bool) (t : ℚ) :
    Surfaced ((Client.run lib b.pipeline start t).eval script.handle s).1 ↔
      script.RunSound lib s b start := by
  unfold Script.RunSound
  by_cases hopen : s.channelOpen = true
  · -- the closed form of a submission, failure by failure
    obtain ⟨heap, hh⟩ := eval_run lib script b.built start t hopen
    simp only [hh, hopen, true_and]
    unfold Script.runs
    cases hrep : script.reply s.trace.length .createPipeline with
    | error e => simp [surfaced_translated_iff]
    | ok pid =>
      simp only [surfaced_map_iff, Script.submitSound_iff]
      cases hout : (script.submit (s.trace.length + 1) (b.payloads.followUps pid start)).2 with
      | ok u => simp [Except.mapError, hout]
      | error e =>
        simp [Except.mapError, hout, surfaced_withPipelineId_iff, surfaced_translated_iff]
  · -- the plan is built, and the first call is refused
    have hc : (Client.run lib b.pipeline start t).eval script.handle s =
        (.error closedChannel, { s with
          heap := s.heap ++ .createPipeline b.payloads.createPipeline :: b.payloads.resources
          refused := s.refused + 1 }) :=
      (Prog.eval_bind_ok _ (eval_buildRequests b.built)).trans
        (Prog.eval_bind_error _ (eval_call_closed _ _ _ (by simpa using hopen)))
    simp [hc, hopen, closedChannel]

/-! ### Any sequence of operations -/

/-- The public operations of a client and of the run handles. -/
inductive ClientOp where
  | run (b : Buildable) (start : Bool) (timeout : ℚ)
  | getInfo (timeout : ℚ)
  | status (run : Run) (timeout : ℚ)
  /-- A wait, followed for this many iterations of its loop. -/
  | waitRunning (run : Run) (timeout pollInterval : ℚ) (iterations : Nat)
  | stop (run : Run) (force : Bool) (timeout : ℚ)
  | close

namespace ClientOp

/-- The result of an operation is left out, its exceptions are not. -/
def discard {α : Type} (p : HostM α) : HostM Unit := do
  let _ ← p
  return ()

/-- The operation, on a client that `connect` returned. -/
def prog (rt : Runtime) : ClientOp → HostM Unit
  | run b start timeout => discard (Client.run rt.toCodec b.pipeline start timeout)
  | getInfo timeout => discard (Client.getInfo rt.toCodec timeout)
  | status r timeout => discard (r.status rt timeout)
  | waitRunning r timeout pollInterval n => discard (r.waitRunning rt timeout pollInterval n)
  | stop r force timeout => r.stop rt force timeout
  | close => Client.close ⟨none⟩

/-- The outcome of the operation and the state it leaves. -/
def exec (rt : Runtime) (script : Script) (op : ClientOp) (s : Session) :
    Except Exn Unit × Session :=
  (op.prog rt).eval script.handle s

/-- The state after a sequence of operations. -/
def after (rt : Runtime) (script : Script) (s : Session) (ops : List ClientOp) : Session :=
  ops.foldl (fun s op => (op.exec rt script s).2) s

/-- What is promised of an operation: it returns or raises a `ConduitError`, and once its
`CreatePipeline` has responded, `run` raises nothing without the id. -/
def Surfaces (rt : Runtime) (script : Script) (s : Session) (op : ClientOp) : Prop :=
  Surfaced (op.exec rt script s).1 ∧
    ∀ b start timeout, op = .run b start timeout → s.channelOpen = true →
      ∀ pid, script.reply s.trace.length .createPipeline = .ok pid →
        ∀ x, (op.exec rt script s).1 = .error x →
          ∃ err, x = .conduit err ∧ err.pipelineId = pid

/-- The condition on the state before an operation and on the script. -/
def Sound (rt : Runtime) (script : Script) (s : Session) : ClientOp → Prop
  | run b start _ => script.RunSound rt.toCodec s b start
  | getInfo _ => s.channelOpen = true ∧
      ∀ e, script.reply s.trace.length .getInfo = .error e → Translatable rt.toCodec e
  | status _ _ => script.StatusSound rt.toCodec s
  | waitRunning _ timeout pollInterval n =>
    script.PollsSound rt.toCodec (script.clock s.ticks + timeout) pollInterval s.channelOpen n
      (s.ticks + 1) s.trace.length
  | stop _ _ _ => s.channelOpen = true ∧
      ∀ e, script.reply s.trace.length .stopPipeline = .error e → Translatable rt.toCodec e
  | close => True

theorem eval_discard {α : Type} (p : HostM α) :
    (discard p).eval script.handle s =
      ((p.eval script.handle s).1.map fun _ => (), (p.eval script.handle s).2) := by
  unfold discard
  cases hp : p.eval script.handle s with
  | mk out s' =>
    cases out with
    | ok a => exact Prog.eval_bind_ok _ hp
    | error e => exact Prog.eval_bind_error _ hp

theorem surfaced_discard_iff {α : Type} (p : HostM α) :
    Surfaced ((discard p).eval script.handle s).1 ↔ Surfaced (p.eval script.handle s).1 := by
  rw [eval_discard, surfaced_map_iff]

/-- Closing twice is closing once, and neither raises. -/
theorem surfaced_close : Surfaced ((Client.close ⟨none⟩).eval script.handle s).1 := by
  unfold Client.close
  rw [Prog.eval_perform_bind]
  cases hc : s.closed with
  | true => simp [Script.handle, hc]
  | false =>
    simp only [Script.handle, hc]
    trivial

/-- Each operation surfaces exactly under its condition. -/
theorem surfaced_exec_iff (op : ClientOp) :
    Surfaced (op.exec rt script s).1 ↔ op.Sound rt script s := by
  unfold exec
  -- the equivalence of each operation; its result does not matter
  cases op with
  | run b start t => exact (surfaced_discard_iff _).trans (surfaced_run_iff b start t)
  | getInfo t =>
    refine (surfaced_discard_iff _).trans ?_
    unfold Client.getInfo
    rw [Prog.eval_bind_ok _ (eval_new _)]
    have hmsg : (s.heap ++ [Message.getInfo])[s.heap.length]? = some .getInfo := by simp
    exact surfaced_call_iff .getInfo t hmsg
  | status run t => exact (surfaced_discard_iff _).trans (surfaced_status_iff run t)
  | waitRunning run t i n =>
    exact (surfaced_discard_iff _).trans (surfaced_waitRunning_iff run t i n)
  | stop run force t =>
    unfold prog Run.stop
    rw [Prog.eval_bind_ok _ (eval_new _)]
    have hmsg : (s.heap ++ [Message.stopPipeline run.pipelineId force])[s.heap.length]? =
        some (.stopPipeline run.pipelineId force) := by simp
    exact surfaced_call_iff .stopPipeline t hmsg
  | close => exact ⟨fun _ => trivial, fun _ => surfaced_close⟩

theorem surfaces_iff (op : ClientOp) :
    op.Surfaces rt script s ↔ op.Sound rt script s := by
  refine ⟨fun h => surfaced_exec_iff op |>.mp h.1, fun h => ?_⟩
  have hsurf := (surfaced_exec_iff op).mpr h
  refine ⟨hsurf, ?_⟩
  rintro b start t rfl hopen pid hpid x hx
  obtain ⟨err, rfl⟩ : ∃ err, x = .conduit err := by
    rw [hx] at hsurf
    exact hsurf
  refine ⟨err, rfl, ?_⟩
  obtain ⟨heap, hh⟩ := eval_run rt.toCodec script b.built start t hopen
  -- an exception past `CreatePipeline` carries the id, because the submission does
  have hsub := script.runs_submission rt.toCodec b.payloads start s.trace.length
  refine hsub.carriesId err ?_ pid hpid
  simp only [exec, prog, eval_discard, hh] at hx
  cases hr : (script.runs rt.toCodec b.payloads start s.trace.length).2 with
  | ok run => simp [hr, Except.map] at hx
  | error y => simpa [hr, Except.map] using hx

/-- **What reaches the caller.** In a sequence of operations on a client, all of them keep
the promise exactly when each meets its condition in the state it is called in. -/
theorem surfaces_throughout_iff (rt : Runtime) (script : Script) (ops : List ClientOp) :
    (∀ pre op post, ops = pre ++ op :: post →
        op.Surfaces rt script (after rt script newSession pre)) ↔
      ∀ pre op post, ops = pre ++ op :: post →
        op.Sound rt script (after rt script newSession pre) := by
  constructor
  · exact fun h pre op post hops => surfaces_iff op |>.mp (h pre op post hops)
  · exact fun h pre op post hops => surfaces_iff op |>.mpr (h pre op post hops)

/-- A client that is used after it was closed raises what grpc raises. -/
theorem use_after_close_raises_valueError :
    ((ClientOp.getInfo 5).exec plainRuntime obliging
        (after plainRuntime obliging newSession [.close])).1 = .error closedChannel ∧
      ¬ ∀ pre op post, [ClientOp.close, .getInfo 5] = pre ++ op :: post →
        op.Surfaces plainRuntime obliging (after plainRuntime obliging newSession pre) := by
  have h : ((ClientOp.getInfo 5).exec plainRuntime obliging
      (after plainRuntime obliging newSession [.close])).1 = .error closedChannel := by
    have hc : (after plainRuntime obliging newSession [.close]).channelOpen = false := rfl
    have hg : (Client.getInfo emptyCodec 5).eval obliging.handle
        (after plainRuntime obliging newSession [.close]) = (.error closedChannel, _) :=
      (Prog.eval_bind_ok _ (eval_new _)).trans (eval_call_closed _ _ _ hc)
    exact congrArg Prod.fst (Prog.eval_bind_error _ hg)
  refine ⟨h, fun hall => ?_⟩
  have hs := (hall [.close] (.getInfo 5) [] rfl).1
  rw [h] at hs
  exact not_surfaced_value _ hs

end ClientOp

end Conduit
