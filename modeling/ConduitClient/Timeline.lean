import ConduitClient.Tolerance

/-!
# A wait in time

The states that the polls of `wait_running` see are samples of one timeline, the state of the
pipeline at the server. A poll has a window between its being sent and its being answered,
and sees the state of some instant in it; between two polls the loop sleeps.

A pipeline that reaches running before the deadline and stays running may still be missed, by
every poll that starts before the deadline. A wait is bound to return exactly when some such
poll lies behind the change with its whole window (`Caught`, `returns_iff_caught`).
-/

namespace Conduit

open Effect

/-- When a wait does what: it starts, looks at the clock before each poll, sends the poll, has
its answer, and sleeps. -/
structure Schedule (pollInterval : ℚ) where
  start : ℚ
  check : ℕ → ℚ
  sent : ℕ → ℚ
  answered : ℕ → ℚ
  start_le : start ≤ check 0
  check_le : ∀ k, check k ≤ sent k
  sent_le : ∀ k, sent k ≤ answered k
  slept : ∀ k, answered k + pollInterval ≤ check (k + 1)

namespace Schedule

variable {pollInterval timeout : ℚ}

/-- The instants whose state poll `k` may see. -/
def Window (T : Schedule pollInterval) (k : ℕ) (t : ℚ) : Prop :=
  T.sent k ≤ t ∧ t ≤ T.answered k

/-- The session runs on this schedule, over a pipeline with these states. -/
structure Observed (T : Schedule pollInterval) (state : ℚ → PipelineState) (script : Script)
    (s : Session) : Prop where
  start : script.clock s.ticks = T.start
  check : ∀ k, script.clock (s.ticks + 1 + k) = T.check k
  sees : ∀ k, ∃ t, T.Window k t ∧
    script.reply (s.trace.length + k) .getPipeline = .ok (state t)

/-- The pipeline reaches running before the deadline, and stays running. -/
def Reaches (T : Schedule pollInterval) (timeout : ℚ) (state : ℚ → PipelineState) : Prop :=
  ∃ r < T.start + timeout, ∀ t ≥ r, (state t).status = statusRunning

/-- Some poll that starts before the deadline finds the pipeline running at all instants of
its window, and the polls up to it find nothing that has no name. -/
def Caught (T : Schedule pollInterval) (timeout : ℚ) (state : ℚ → PipelineState) : Prop :=
  ∃ k, T.check k < T.start + timeout ∧
    (∀ t, T.Window k t → (state t).status = statusRunning) ∧
    ∀ j ≤ k, ∀ t, T.Window j t → (state t).Named

/-- The wait ends, and always with a running status. -/
def Returns (rt : Runtime) (script : Script) (s : Session) (run : Run)
    (timeout pollInterval : ℚ) : Prop :=
  (∃ r s', WaitEnds rt script s run timeout pollInterval r s') ∧
    ∀ r s', WaitEnds rt script s run timeout pollInterval r s' →
      ∃ status, r = .ok (.running status) ∧ status.isRunning = true

theorem check_mono (T : Schedule pollInterval) (hp : 0 < pollInterval) : Monotone T.check := by
  refine monotone_nat_of_le_succ fun k => ?_
  calc T.check k ≤ T.answered k := (T.check_le k).trans (T.sent_le k)
    _ ≤ T.answered k + pollInterval := le_add_of_nonneg_right hp.le
    _ ≤ T.check (k + 1) := T.slept k

end Schedule

variable {rt : Runtime} {run : Run} {pollInterval timeout : ℚ}

/-- What a poll makes of a state that is not degraded and has names. -/
theorem verdict_of_named {st : PipelineState} (hp : 0 ≤ pollInterval) (hn : st.Named)
    (hd : st.status ≠ statusDegraded) :
    (st.status = statusRunning ∧ ∃ status, status.isRunning = true ∧
        run.verdict rt pollInterval (.ok st) = some (.ok status)) ∨
      (st.status ≠ statusRunning ∧ run.verdict rt pollInterval (.ok st) = none) := by
  rcases toRunStatus_cases st with ⟨⟨status, hst⟩, -⟩ | ⟨-, hunnamed⟩
  · have htells := tells_of_toRunStatus hst
    have hdeg : ¬ status.isDegraded = true := fun h => hd (htells.degraded.mp h)
    -- the string of the status tells which number it was
    by_cases hrun : status.isRunning = true
    · refine Or.inl ⟨htells.running.mp hrun, status, hrun, ?_⟩
      simp [Run.verdict, hst, hrun]
    · refine Or.inr ⟨fun h => hrun (htells.running.mpr h), ?_⟩
      simp [Run.verdict, hst, hrun, hdeg, hp]
  · -- a number without a name would raise
    exact absurd hn hunnamed

/-- A poll that leaves the wait undecided has seen a state with names. -/
theorem named_of_verdict_none {st : PipelineState}
    (h : run.verdict rt pollInterval (.ok st) = none) : st.Named := by
  rcases toRunStatus_cases st with ⟨-, hn⟩ | ⟨⟨msg, hmsg⟩, -⟩
  · exact hn
  · simp [Run.verdict, hmsg] at h

/-- A poll that ends the wait with a status has seen a running state with names. -/
theorem running_of_verdict {st : PipelineState} {status : RunStatus}
    (h : run.verdict rt pollInterval (.ok st) = some (.ok status)) :
    st.Named ∧ st.status = statusRunning := by
  rcases toRunStatus_cases st with ⟨⟨status', hst⟩, hn⟩ | ⟨⟨msg, hmsg⟩, -⟩
  · refine ⟨hn, (tells_of_toRunStatus hst).running.mp ?_⟩
    simp only [Run.verdict, hst] at h
    -- a degraded status raises, and any other leaves the wait undecided
    by_contra hrun
    rw [if_neg hrun] at h
    split at h
    · cases h
    · split at h
      · cases h
      · cases h
  · simp [Run.verdict, hmsg] at h

namespace Schedule

variable {T : Schedule pollInterval} {state : ℚ → PipelineState} {script : Script} {s : Session}

/-- The verdict on a poll is that on the state of some instant in its window. -/
theorem Observed.verdict (rt : Runtime) (run : Run) (h : T.Observed state script s) (k : ℕ) :
    ∃ t, T.Window k t ∧ (run.polls rt script s pollInterval).verdict k =
      run.verdict rt pollInterval (.ok (state t)) := by
  obtain ⟨t, ht, hrep⟩ := h.sees k
  exact ⟨t, ht, congrArg (run.verdict rt pollInterval) hrep⟩

/-- A pipeline that is caught ends the wait. -/
theorem Caught.returns (hp : 0 < pollInterval)
    (hdeg : ∀ t, (state t).status ≠ statusDegraded) (hc : T.Caught timeout state)
    (hopen : s.channelOpen = true) (h : T.Observed state script s) :
    Returns rt script s run timeout pollInterval := by
  obtain ⟨k, hcheck, hrunning, hnamed⟩ := hc
  -- up to poll `k`, a poll finds the pipeline running or leaves the wait undecided
  have hverdict (j : ℕ) (hj : j ≤ k) :
      (∃ status, status.isRunning = true ∧
          (run.polls rt script s pollInterval).verdict j = some (.ok status)) ∨
        j ≠ k ∧ (run.polls rt script s pollInterval).verdict j = none := by
    obtain ⟨t, ht, hv⟩ := h.verdict rt run j
    rw [hv]
    rcases verdict_of_named hp.le (hnamed j hj t ht) (hdeg t) with ⟨-, hrun⟩ | ⟨hnot, hnone⟩
    · exact Or.inl hrun
    · refine Or.inr ⟨?_, hnone⟩
      rintro rfl
      exact hnot (hrunning t ht)
  -- the first poll that finds the pipeline running
  have hsome : ∃ j, j ≤ k ∧ (run.polls rt script s pollInterval).verdict j ≠ none := by
    refine ⟨k, le_refl k, ?_⟩
    rcases hverdict k (le_refl k) with ⟨status, -, hv⟩ | ⟨hne, -⟩
    · simp [hv]
    · exact absurd rfl hne
  classical
  have hfirst := Nat.find_spec hsome
  set j := Nat.find hsome with hjdef
  obtain ⟨status, hrun, hv⟩ : ∃ status, status.isRunning = true ∧
      (run.polls rt script s pollInterval).verdict j = some (.ok status) :=
    (hverdict j hfirst.1).resolve_right fun hn => hfirst.2 hn.2
  -- that poll is made: nothing before it has ended the wait, and it is early enough
  have hmade : (run.polls rt script s pollInterval).Made (script.clock s.ticks + timeout) j := by
    have hmono : Monotone (run.polls rt script s pollInterval).check := by
      intro a b hab
      change script.clock (s.ticks + 1 + a) ≤ script.clock (s.ticks + 1 + b)
      rw [h.check, h.check]
      exact T.check_mono hp hab
    refine Polls.made_of_monotone hmono ?_ fun i hi => ?_
    · change script.clock (s.ticks + 1 + j) < _
      rw [h.check, h.start]
      exact (T.check_mono hp hfirst.1).trans_lt hcheck
    · by_contra hne
      exact Nat.find_min hsome hi ⟨(hi.le).trans hfirst.1, hne⟩
  -- so it is the one that decides
  obtain ⟨⟨s', hw⟩, honly⟩ := waitEnds_of_decides hopen ⟨hmade, hv⟩
  exact ⟨⟨_, s', hw⟩, fun r s'' hw' => ⟨status, honly r s'' hw', hrun⟩⟩

/-- The script of a session on this schedule, whose poll `k` sees the state at `seenAt k`. -/
def scriptOf (T : Schedule pollInterval) (state : ℚ → PipelineState) (seenAt : ℕ → ℚ) : Script where
  reply k
    | .getPipeline => .ok (state (seenAt k))
    | m => obliging.reply k m
  clock
    | 0 => T.start
    | k + 1 => T.check k

theorem scriptOf_observed {seenAt : ℕ → ℚ} (h : ∀ k, T.Window k (seenAt k)) :
    T.Observed state (T.scriptOf state seenAt) newSession where
  start := rfl
  check k := by
    change (T.scriptOf state seenAt).clock (0 + 1 + k) = T.check k
    rw [Nat.zero_add, Nat.add_comm]
    rfl
  sees k := by
    refine ⟨seenAt k, h k, ?_⟩
    change (T.scriptOf state seenAt).reply (0 + k) .getPipeline = _
    rw [Nat.zero_add]
    rfl

/-- The worst that a poll may see: something without a name, else a pipeline that does not
run. -/
theorem exists_worst (T : Schedule pollInterval) (state : ℚ → PipelineState) (k : ℕ) :
    ∃ t, T.Window k t ∧
      ((state t).Named → ∀ t', T.Window k t' → (state t').Named) ∧
      ((state t).Named → (state t).status = statusRunning →
        ∀ t', T.Window k t' → (state t').status = statusRunning) := by
  by_cases hunnamed : ∃ t, T.Window k t ∧ ¬ (state t).Named
  · obtain ⟨t, ht, hn⟩ := hunnamed
    exact ⟨t, ht, fun h => absurd h hn, fun h => absurd h hn⟩
  have hnamed (t : ℚ) (ht : T.Window k t) : (state t).Named := by
    by_contra hn
    exact hunnamed ⟨t, ht, hn⟩
  -- with names throughout the window, the worst is a state that does not run
  by_cases hidle : ∃ t, T.Window k t ∧ (state t).status ≠ statusRunning
  · obtain ⟨t, ht, hr⟩ := hidle
    exact ⟨t, ht, fun _ => hnamed, fun _ h => absurd h hr⟩
  · refine ⟨T.sent k, ⟨le_refl _, T.sent_le k⟩, fun _ => hnamed, fun _ _ t ht => ?_⟩
    by_contra hr
    exact hidle ⟨t, ht, hr⟩

/-- A pipeline on which every session returns is caught: the session that sees the worst
returns by a poll that could not have seen anything but running. -/
theorem caught_of_returns (h : ∀ script s, s.channelOpen = true → T.Observed state script s →
    Returns rt script s run timeout pollInterval) : T.Caught timeout state := by
  -- each poll of this session sees the worst of its window
  choose worst hwindow hunnamed hidle using T.exists_worst state
  set script := T.scriptOf state worst
  have hobserved : T.Observed state script newSession := scriptOf_observed hwindow
  obtain ⟨⟨r, s', hw⟩, hall⟩ := h script newSession rfl hobserved
  obtain ⟨status, rfl, -⟩ := hall r s' hw
  obtain ⟨n, e, he, hend, hout, -⟩ := hw.exists_ending rfl
  have hverdict (j : ℕ) : (run.polls rt script newSession pollInterval).verdict j =
      run.verdict rt pollInterval (.ok (state (worst j))) := by
    change run.verdict rt pollInterval (script.reply (0 + j) .getPipeline) = _
    rw [Nat.zero_add]
    rfl
  -- the wait has returned a status, so a poll has decided it
  cases e with
  | expired k => cases hout
  | polling => exact absurd rfl hend
  | decided k d =>
    obtain ⟨-, ⟨hpending, hcheck⟩, hdecided⟩ := Polls.run_eq_decided_iff.mp he
    obtain rfl : d = .ok status := by
      cases d with
      | error x => cases hout
      | ok status' =>
        obtain rfl : status = status' := by simpa [Run.outcome, Except.map] using hout
        rfl
    rw [hverdict] at hdecided
    -- what that poll saw was running, and nothing in its window was worse
    obtain ⟨hnamed, hrunning⟩ := running_of_verdict hdecided
    refine ⟨k, ?_, hidle k hnamed hrunning, fun j hj => hunnamed j ?_⟩
    · have hclock : (run.polls rt script newSession pollInterval).check k = T.check k :=
        hobserved.check k
      rwa [hclock, hobserved.start] at hcheck
    · rcases Nat.lt_or_eq_of_le hj with hlt | rfl
      · have hnone := (hpending j hlt).2
        rw [hverdict] at hnone
        exact named_of_verdict_none hnone
      · exact hnamed

end Schedule

/-- **A wait in time.** Over a pipeline that never degrades, such as one that reaches running
before the deadline to stay, every session's wait returns the running status exactly when the
pipeline is caught by the polls. -/
theorem returns_iff_caught (rt : Runtime) (run : Run) {T : Schedule pollInterval}
    {state : ℚ → PipelineState} (hp : 0 < pollInterval)
    (hdeg : ∀ t, (state t).status ≠ statusDegraded) :
    (∀ script s, s.channelOpen = true → T.Observed state script s →
      Schedule.Returns rt script s run timeout pollInterval) ↔ T.Caught timeout state :=
  ⟨Schedule.caught_of_returns, fun hc _ _ => hc.returns hp hdeg⟩

/-- A schedule on which no call takes any time, and the rounds take two seconds each. -/
def everyTwoSeconds : Schedule 2 where
  start := 0
  check k := 2 * k
  sent k := 2 * k
  answered k := 2 * k
  start_le := by simp
  check_le _ := le_refl _
  sent_le _ := le_refl _
  slept k := by
    push_cast
    linarith

/-- A pipeline that recovers until `r`, and then runs. -/
def runningFrom (r t : ℚ) : PipelineState := if t < r then ⟨4, "", 0⟩ else ⟨1, "", 0⟩

theorem runningFrom_named (r t : ℚ) : (runningFrom r t).Named := by
  unfold runningFrom
  split <;> decide

theorem runningFrom_status {r t : ℚ} (h : r ≤ t) : (runningFrom r t).status = statusRunning := by
  rw [runningFrom, if_neg (not_lt.mpr h)]
  rfl

theorem runningFrom_not_degraded (r t : ℚ) : (runningFrom r t).status ≠ statusDegraded := by
  unfold runningFrom
  split <;> decide

/-- A pipeline that runs from the start is caught by the first poll. -/
theorem returns_runningFrom_zero :
    Schedule.Returns plainRuntime (everyTwoSeconds.scriptOf (runningFrom 0) everyTwoSeconds.sent)
      newSession ⟨"p"⟩ 1 2 := by
  have hcaught : everyTwoSeconds.Caught 1 (runningFrom 0) := by
    refine ⟨0, by norm_num [everyTwoSeconds], fun t ht => runningFrom_status ?_,
      fun _ _ t _ => runningFrom_named 0 t⟩
    simpa [everyTwoSeconds] using ht.1
  have hwindow (k : ℕ) : everyTwoSeconds.Window k (everyTwoSeconds.sent k) :=
    ⟨le_refl _, le_refl _⟩
  exact (returns_iff_caught plainRuntime ⟨"p"⟩ (by norm_num) (runningFrom_not_degraded 0)).mpr
    hcaught _ newSession rfl (Schedule.scriptOf_observed hwindow)

/-- A pipeline that runs half a second after the start, in a wait of one second with a poll
every two: the only poll comes before, and the wait runs out of time. -/
theorem runningFrom_half_missed :
    everyTwoSeconds.Reaches 1 (runningFrom (1 / 2)) ∧
      everyTwoSeconds.Observed (runningFrom (1 / 2))
        (everyTwoSeconds.scriptOf (runningFrom (1 / 2)) everyTwoSeconds.sent) newSession ∧
      ((Run.waitRunning plainRuntime ⟨"p"⟩ 1 2 2).eval
        (everyTwoSeconds.scriptOf (runningFrom (1 / 2)) everyTwoSeconds.sent).handle
        newSession).1 = .error (.conduit (Run.timeoutError plainRuntime ⟨"p"⟩ 1
          (some ⟨"recovering", "", "unspecified"⟩))) := by
  -- the poll at 0 finds a pipeline that recovers; the next one would come at 2
  have hreach : everyTwoSeconds.Reaches 1 (runningFrom (1 / 2)) :=
    ⟨1 / 2, by norm_num [everyTwoSeconds], fun t ht => runningFrom_status ht⟩
  have hwindow (k : ℕ) : everyTwoSeconds.Window k (everyTwoSeconds.sent k) :=
    ⟨le_refl _, le_refl _⟩
  exact ⟨hreach, Schedule.scriptOf_observed hwindow, by decide +kernel⟩

end Conduit
