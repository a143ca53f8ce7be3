import ConduitClient.Waiting

/-!
# Polls without a status

What `wait_running` makes of a `GetPipeline` that tells it nothing: one that answers with an
enum number this client does not know, and one that fails on the transport. In both cases the
loop should go on polling. It does neither, so a wait is as it should be exactly when every
poll that it makes is answered with a status (`tolerates_iff`, `reconnects_iff`).
-/

namespace Conduit

open Effect

variable {rt : Runtime} {script : Script} {s : Session} {run : Run}
  {timeout pollInterval : ℚ}

/-! ### Unknown numbers -/

/-- `Pipeline.Status.STATUS_RUNNING` -/
def statusRunning : Int32 := 1

/-- `Pipeline.Status.STATUS_DEGRADED` -/
def statusDegraded : Int32 := 3

/-- The string of a named status. -/
def statusString (n : Int32) : Except Exn String :=
  (statusName n).map (stripEnumPrefix · "STATUS_")

/-- The reported status tells what the state is, and cannot be taken for another one. -/
structure RunStatus.Tells (status : RunStatus) (st : PipelineState) : Prop where
  running : status.isRunning = true ↔ st.status = statusRunning
  degraded : status.isDegraded = true ↔ st.status = statusDegraded
  distinct : ∀ n, statusString n = .ok status.status → n = st.status

/-- The strings of the five named numbers. -/
theorem statusString_eq_ok {n : Int32} {name : String} (h : statusString n = .ok name) :
    (n, name) ∈ ([(0, "unspecified"), (1, "running"), (2, "stopped"), (3, "degraded"),
      (4, "recovering")] : List (Int32 × String)) := by
  -- the strings of the five numbers, one by one
  have hname : ∀ m ∈ ([0, 1, 2, 3, 4] : List Int32), statusString m = .ok name →
      (m, name) ∈ ([(0, "unspecified"), (1, "running"), (2, "stopped"), (3, "degraded"),
        (4, "recovering")] : List (Int32 × String)) := by
    intro m hm hs
    simp only [List.mem_cons, List.not_mem_nil, or_false] at hm
    rcases hm with rfl | rfl | rfl | rfl | rfl
    · obtain rfl : "unspecified" = name := Except.ok.inj hs
      decide
    · obtain rfl : "running" = name := Except.ok.inj hs
      decide
    · obtain rfl : "stopped" = name := Except.ok.inj hs
      decide
    · obtain rfl : "degraded" = name := Except.ok.inj hs
      decide
    · obtain rfl : "recovering" = name := Except.ok.inj hs
      decide
  -- any other number has no name, and so no string
  rcases statusName_cases n with ⟨-, hmem⟩ | ⟨⟨msg, hmsg⟩, -⟩
  · exact hname n hmem h
  · simp [statusString, hmsg, Except.map] at h

/-- The status of a named state is the string of its number. -/
theorem statusString_of_toRunStatus {st : PipelineState} {status : RunStatus}
    (h : st.toRunStatus = .ok status) : statusString st.status = .ok status.status := by
  unfold PipelineState.toRunStatus at h
  cases hn : statusName st.status with
  | error e => simp [hn, bind, Except.bind] at h
  | ok name =>
    cases hr : stoppedReasonName st.stoppedReason with
    | error e => simp [hn, hr, bind, Except.bind] at h
    | ok reason =>
      obtain rfl : _ = status := by
        simpa [hn, hr, bind, Except.bind, pure, Except.pure] using h
      simp [statusString, hn, Except.map]

/-- A conversion that succeeds tells what the state is. -/
theorem tells_of_toRunStatus {st : PipelineState} {status : RunStatus}
    (h : st.toRunStatus = .ok status) : status.Tells st := by
  have hst := statusString_eq_ok (statusString_of_toRunStatus h)
  simp only [List.mem_cons, Prod.mk.injEq, List.not_mem_nil, or_false] at hst
  -- the number is one of five, and the string says which
  refine ⟨?_, ?_, fun n hn => ?_⟩
  · unfold RunStatus.isRunning statusRunning
    rcases hst with ⟨hn, hs⟩ | ⟨hn, hs⟩ | ⟨hn, hs⟩ | ⟨hn, hs⟩ | ⟨hn, hs⟩ <;>
      rw [hn, hs] <;> decide
  · unfold RunStatus.isDegraded statusDegraded
    rcases hst with ⟨hn, hs⟩ | ⟨hn, hs⟩ | ⟨hn, hs⟩ | ⟨hn, hs⟩ | ⟨hn, hs⟩ <;>
      rw [hn, hs] <;> decide
  · -- two numbers with the same string are the same line of the table
    have hn' := statusString_eq_ok hn
    simp only [List.mem_cons, Prod.mk.injEq, List.not_mem_nil, or_false] at hn'
    grind

/-- A named state that is neither running nor degraded leaves the wait undecided. -/
theorem not_decisive_of_tells {st : PipelineState} {status : RunStatus}
    (h : status.Tells st) (hr : st.status ≠ statusRunning) (hd : st.status ≠ statusDegraded) :
    ¬ status.Decisive :=
  fun hdec => hdec.elim (fun hrun => hr (h.running.mp hrun)) fun hdeg => hd (h.degraded.mp hdeg)

/-- The states can be served to this client: the status of each is reported, and no poll ends
a wait that should go on. -/
structure Tolerates (rt : Runtime) (run : Run) (states : ℕ → PipelineState) : Prop where
  status : ∀ (script : Script) (s : Session) (t : ℚ) (k : ℕ), s.channelOpen = true →
    script.reply s.trace.length .getPipeline = .ok (states k) →
    ∃ status, ((run.status rt t).eval script.handle s).1 = .ok status ∧
      status.Tells (states k)
  wait : ∀ (script : Script) (s : Session) (timeout pollInterval : ℚ) (n : ℕ),
    s.channelOpen = true → 0 ≤ pollInterval →
    (∀ k, script.reply (s.trace.length + k) .getPipeline = .ok (states k)) →
    (∀ k < n, script.clock (s.ticks + 1 + k) < script.clock s.ticks + timeout) →
    (∀ k < n, (states k).status ≠ statusRunning ∧ (states k).status ≠ statusDegraded) →
    ((run.waitRunning rt timeout pollInterval n).eval script.handle s).1 = .ok .polling

/-- **Unknown numbers.** A sequence of states is tolerated exactly when both numbers of every
state have names. -/
theorem tolerates_iff (rt : Runtime) (run : Run) (states : ℕ → PipelineState) :
    Tolerates rt run states ↔ ∀ k, (states k).Named := by
  constructor
  · intro h k
    -- a session whose next answer is state `k`
    obtain ⟨status, hstatus, -⟩ := h.status (Script.through fun _ => states k) newSession 5 k
      rfl rfl
    rw [eval_status rt _ run 5 rfl] at hstatus
    exact (surfaced_toRunStatus_iff _).mp (by
      change (states k).toRunStatus = .ok status at hstatus
      rw [hstatus]
      trivial)
  · intro hnamed
    have htells (k : ℕ) : ∃ status, (states k).toRunStatus = .ok status ∧
        status.Tells (states k) := by
      rcases toRunStatus_cases (states k) with ⟨⟨status, hst⟩, -⟩ | ⟨-, hn⟩
      · exact ⟨status, hst, tells_of_toRunStatus hst⟩
      · exact absurd (hnamed k) hn
    constructor
    · intro script s t k hopen hrep
      obtain ⟨status, hst, htell⟩ := htells k
      refine ⟨status, ?_, htell⟩
      rw [eval_status rt script run t hopen, hrep]
      exact hst
    · intro script s timeout pollInterval n hopen hp hrep hclock hvalue
      choose status hst htell using htells
      have hreports : script.Reports s status := fun k =>
        ⟨states k, hrep k, hnamed k, hst k⟩
      -- no poll ends the wait, for as many rounds as the clock allows
      have hpending : (run.polls rt script s pollInterval).Pending
          (script.clock s.ticks + timeout) n := by
        intro k hk
        refine ⟨hclock k hk, (verdict_eq_none_iff hreports hp k).mpr ?_⟩
        exact not_decisive_of_tells (htell k) (hvalue k hk).1 (hvalue k hk).2
      obtain ⟨s', heval, -⟩ := eval_waitRunning rt script run timeout pollInterval n hopen
      rw [heval, Polls.run_eq_polling_iff.mpr hpending]
      rfl

/-- A state of an engine that knows one status more. -/
def newerState : PipelineState := ⟨5, "", 0⟩

/-- Its status is not reported, and it ends a wait. -/
theorem newerState_raises :
    ((Run.status plainRuntime ⟨"p"⟩ 5).eval (Script.through fun _ => newerState).handle
        newSession).1 = .error (.value "Enum Status has no name defined for value") ∧
      ((Run.waitRunning plainRuntime ⟨"p"⟩ 30 1 1).eval
        (Script.through fun _ => newerState).handle newSession).1 =
          .error (.value "Enum Status has no name defined for value") := by
  decide +kernel

/-! ### Failures of the transport -/

/-- A failure of the transport: `UNAVAILABLE` or `DEADLINE_EXCEEDED`, and nothing of Conduit
in it. -/
def RpcError.Transport (lib : Codec) (e : RpcError) : Prop :=
  (e.grpcCode = .unavailable ∨ e.grpcCode = .deadlineExceeded) ∧
    ConduitError.fromRpcError lib e = .ok
      { message := e.message, code := codeFromStatus e.grpcCode, grpcStatusCode := e.grpcCode }

/-- Every `GetPipeline` of the session succeeds, or fails on the transport. -/
def Script.Flaky (script : Script) (lib : Codec) (s : Session) : Prop :=
  ∀ k e, script.reply (s.trace.length + k) .getPipeline = .error e → e.Transport lib

/-- The script in which a poll that failed is answered by `fill`. -/
def Script.filled (script : Script) (fill : PipelineState) : Script where
  reply k
    | .getPipeline =>
      match script.reply k .getPipeline with
      | .ok st => .ok st
      | .error _ => .ok fill
    | m => script.reply k m
  clock := script.clock

/-- A state that leaves a wait undecided. -/
def PipelineState.Undecided (st : PipelineState) : Prop :=
  ∃ status, st.toRunStatus = .ok status ∧ ¬ status.Decisive

/-- The endings that `wait_running` documents; a loop that has not ended has none. -/
def Documented : Except Exn Waited → Prop
  | .ok (.running status) => status.isRunning = true
  | .ok .polling => True
  | .error x => ∃ err, x = .conduit err ∧
      (err.code = "client.pipeline_degraded" ∨ err.code = "client.wait_timeout")

/-- The answer is a status, and the loop can go on where it has to. -/
def Usable (pollInterval : ℚ) (r : Except RpcError PipelineState) : Prop :=
  ∃ st status, r = .ok st ∧ st.toRunStatus = .ok status ∧
    (status.Decisive ∨ 0 ≤ pollInterval)

/-- Every poll that the wait makes is answered with a status. -/
def Steady (rt : Runtime) (script : Script) (s : Session) (run : Run)
    (timeout pollInterval : ℚ) : Prop :=
  ∀ k, (run.polls rt script s pollInterval).Made (script.clock s.ticks + timeout) k →
    Usable pollInterval (script.reply (s.trace.length + k) .getPipeline)

/-- The verdict on a status is a documented ending. -/
theorem documented_of_usable {r : Except RpcError PipelineState} {d : Except Exn RunStatus}
    (h : Usable pollInterval r) (hd : run.verdict rt pollInterval r = some d) :
    Documented (d.map .running) := by
  obtain ⟨st, status, rfl, hst, hdec⟩ := h
  simp only [Run.verdict, hst] at hd
  split at hd
  · next hrun =>
    obtain rfl := Option.some.inj hd
    exact hrun
  · next hrun =>
    split at hd
    · obtain rfl := Option.some.inj hd
      exact ⟨_, rfl, Or.inl rfl⟩
    · next hdeg =>
      -- an undecided status comes with a sleep that the runtime accepts
      have hp : 0 ≤ pollInterval := hdec.resolve_left fun h => h.elim hrun hdeg
      simp [hp] at hd

/-- Any other answer ends the wait in a way that is not documented. -/
theorem exists_undocumented (run : Run) {r : Except RpcError PipelineState} {lib : Codec}
    (hlib : rt.toCodec = lib) (hr : ∀ e, r = .error e → e.Transport lib)
    (h : ¬ Usable pollInterval r) :
    ∃ d, run.verdict rt pollInterval r = some d ∧ ¬ Documented (d.map .running) := by
  cases r with
  | error e =>
    -- the failure of a stub is raised at once, with a code of the transport
    obtain ⟨hcode, he⟩ := hr e rfl
    refine ⟨_, rfl, ?_⟩
    rw [hlib, translated, he]
    rintro ⟨err, herr, hdoc⟩
    obtain rfl := Exn.conduit.inj herr
    rcases hcode with hcode | hcode <;> simp [hcode, codeFromStatus] at hdoc
  | ok st =>
    cases hst : st.toRunStatus with
    | error x =>
      -- the conversion raises a `ValueError`
      refine ⟨.error x, by simp [Run.verdict, hst], ?_⟩
      rcases toRunStatus_cases st with ⟨⟨status, hok⟩, -⟩ | ⟨⟨msg, hmsg⟩, -⟩
      · rw [hst] at hok
        cases hok
      · rw [hst] at hmsg
        obtain rfl := Except.error.inj hmsg
        rintro ⟨err, herr, -⟩
        cases herr
    | ok status =>
      -- the status is undecided, and `sleep` raises a `ValueError`
      have hdec : ¬ (status.Decisive ∨ 0 ≤ pollInterval) :=
        fun hdec => h ⟨st, status, rfl, hst, hdec⟩
      rw [not_or, RunStatus.Decisive, not_or] at hdec
      refine ⟨.error negativeSleep, by simp [Run.verdict, hst, hdec], ?_⟩
      rintro ⟨err, herr, -⟩
      cases herr

/-- Where every poll is answered with a status, every ending is documented. -/
theorem documented_of_steady (hopen : s.channelOpen = true)
    (h : Steady rt script s run timeout pollInterval) (n : ℕ) :
    Documented ((run.waitRunning rt timeout pollInterval n).eval script.handle s).1 := by
  obtain ⟨s', heval, -⟩ := eval_waitRunning rt script run timeout pollInterval n hopen
  rw [heval]
  -- a poll decides, or the time is over, or the rounds are used up
  rcases Polls.run_cases (run.polls rt script s pollInterval) (script.clock s.ticks + timeout) n
      Polls.pending_zero with
    ⟨k, d, hrun, -, hmade, hd⟩ | ⟨k, hrun, -, -⟩ | ⟨hrun, -⟩
  · rw [hrun]
    exact documented_of_usable (h k hmade) hd
  · rw [hrun]
    exact ⟨_, rfl, Or.inr rfl⟩
  · rw [hrun]
    trivial

/-- Where every poll is answered with a status, there is nothing to fill in. -/
theorem eval_filled (hopen : s.channelOpen = true)
    (h : Steady rt script s run timeout pollInterval) (fill : PipelineState) (n : ℕ) :
    ((run.waitRunning rt timeout pollInterval n).eval script.handle s).1 =
      ((run.waitRunning rt timeout pollInterval n).eval (script.filled fill).handle s).1 := by
  -- a poll that is made was answered, so its answer is left as it is
  have hreply {k : ℕ} (hmade : (run.polls rt script s pollInterval).Made
      (script.clock s.ticks + timeout) k) :
      (script.filled fill).reply (s.trace.length + k) .getPipeline =
        script.reply (s.trace.length + k) .getPipeline := by
    obtain ⟨st, -, hrep, -⟩ := h k hmade
    simp only [Script.filled, hrep]
  have hrun : (run.polls rt script s pollInterval).run (script.clock s.ticks + timeout) n 0 =
      (run.polls rt (script.filled fill) s pollInterval).run
        (script.clock s.ticks + timeout) n 0 := by
    have hcheck : (run.polls rt script s pollInterval).check =
        (run.polls rt (script.filled fill) s pollInterval).check := rfl
    -- the loop looks at no other polls
    refine Polls.run_congr hcheck (fun j hmade => ?_) Polls.pending_zero n
    simp only [Run.polls, hreply hmade]
  obtain ⟨s₁, heval₁, -⟩ := eval_waitRunning rt script run timeout pollInterval n hopen
  obtain ⟨s₂, heval₂, -⟩ := eval_waitRunning rt (script.filled fill) run timeout pollInterval n
    hopen
  have hclock : (script.filled fill).clock = script.clock := rfl
  rw [heval₁, heval₂, hclock, ← hrun]
  -- the two texts of a timeout name the same status, which a poll has seen
  cases hend : (run.polls rt script s pollInterval).run
      (script.clock s.ticks + timeout) n 0 with
  | decided k d => rfl
  | polling => rfl
  | expired k =>
    have hseen : Run.seen script s k = Run.seen (script.filled fill) s k := by
      cases k with
      | zero => rfl
      | succ k =>
        have hpending := (Polls.run_eq_expired_iff.mp hend).2.1
        simp only [Run.seen, hreply (Polls.pending_succ_iff.mp hpending).1]
    simp only [Run.outcome, hseen]

/-- **Transient failures.** A wait whose polls may fail on the transport ends as if they had
found an undecided state, and in a documented way, exactly when every poll that it makes is
answered with a status. -/
theorem reconnects_iff (hopen : s.channelOpen = true) (hflaky : script.Flaky rt.toCodec s) :
    ((∀ fill : PipelineState, fill.Undecided → ∀ n,
        ((run.waitRunning rt timeout pollInterval n).eval script.handle s).1 =
          ((run.waitRunning rt timeout pollInterval n).eval (script.filled fill).handle s).1) ∧
      ∀ n, Documented ((run.waitRunning rt timeout pollInterval n).eval script.handle s).1) ↔
      Steady rt script s run timeout pollInterval := by
  constructor
  · rintro ⟨-, hdoc⟩ k hmade
    by_contra hbad
    obtain ⟨d, hd, hund⟩ := exists_undocumented run rfl (hflaky k) hbad
    -- poll `k` is the last one
    have hrun := (Polls.run_eq_decided_iff (p := run.polls rt script s pollInterval)
      (n := k + 1)).mpr ⟨Nat.lt_succ_self k, hmade, hd⟩
    obtain ⟨s', heval, -⟩ := eval_waitRunning rt script run timeout pollInterval (k + 1) hopen
    have hdoc' := hdoc (k + 1)
    rw [heval, hrun] at hdoc'
    exact hund hdoc'
  · intro h
    exact ⟨fun fill _ n => eval_filled hopen h fill n, documented_of_steady hopen h⟩

/-- A connection that is lost during the first poll. -/
def dropped : RpcError := ⟨"failed to connect", some ⟨.unavailable, some "connection lost", none⟩⟩

theorem dropped_transport : dropped.Transport emptyCodec := ⟨Or.inl rfl, rfl⟩

/-- A server that is lost while it answers the polls in `lost`; its pipeline runs. -/
def losing (lost : ℕ → Bool) : Script where
  reply k
    | .getPipeline => if lost k then .error dropped else .ok ⟨1, "", 0⟩
    | m => obliging.reply k m
  clock _ := 0

theorem losing_flaky (lost : ℕ → Bool) : (losing lost).Flaky emptyCodec newSession := by
  intro k e he
  simp only [losing] at he
  split at he
  · obtain rfl := Except.error.inj he
    exact dropped_transport
  · cases he

/-- A connection that is lost after the first poll goes unnoticed. -/
theorem losing_later_unnoticed :
    (∀ fill : PipelineState, fill.Undecided → ∀ n,
        ((Run.waitRunning plainRuntime ⟨"p"⟩ 30 1 n).eval (losing (0 < ·)).handle
            newSession).1 =
          ((Run.waitRunning plainRuntime ⟨"p"⟩ 30 1 n).eval
            ((losing (0 < ·)).filled fill).handle newSession).1) ∧
      ∀ n, Documented ((Run.waitRunning plainRuntime ⟨"p"⟩ 30 1 n).eval
        (losing (0 < ·)).handle newSession).1 := by
  refine (reconnects_iff rfl (losing_flaky _)).mpr fun k hmade => ?_
  cases k with
  | zero =>
    have hrun : PipelineState.toRunStatus ⟨1, "", 0⟩ = .ok ⟨"running", "", "unspecified"⟩ := by
      decide
    exact ⟨⟨1, "", 0⟩, _, rfl, hrun, Or.inl (Or.inl rfl)⟩
  | succ k =>
    -- the first poll has decided
    have hfirst := (hmade.1 0 (Nat.succ_pos k)).2
    cases hfirst

/-- The first poll of this wait ends it, though the connection is back for the second. -/
theorem losing_first_raises :
    ((Run.waitRunning plainRuntime ⟨"p"⟩ 30 1 2).eval (losing (· = 0)).handle newSession).1 =
        .error (.conduit
          { message := "connection lost", code := "transport.unavailable",
            grpcStatusCode := .unavailable }) ∧
      ((Run.waitRunning plainRuntime ⟨"p"⟩ 30 1 2).eval ((losing (· = 0)).filled ⟨4, "", 0⟩).handle
        newSession).1 = .ok (.running ⟨"running", "", "unspecified"⟩) := by
  decide +kernel

end Conduit
