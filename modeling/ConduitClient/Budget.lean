import ConduitClient.Probing
import ConduitClient.Waiting

/-!
# The time that a wait asks for

Both polling loops get a number of seconds from their caller, and ask the host to wait in two
ways: by the timeout of an RPC and by the length of a sleep. These lengths are constants of
the code and do not shrink towards the deadline, so a loop may ask to wait beyond it. A number of
seconds is finite here: `nan` and `inf` are none.

How a loop goes on a host, as long as its checks let it go on, is its `Timetable`: what the clock
reads at each check, when the RPC behind the check is issued and when the pause behind that
begins. It comes from the host alone and knows of no deadline. With a deadline, the loop makes the
rounds whose checks read less, and stays within its budget exactly when the RPCs and the
pauses of these rounds leave enough time (`in_time_iff`).

The host is any deterministic one. Where time matters, its clock reports its own time
(`Clocked`).
-/

namespace Conduit

open Effect

variable {σ : Type} {h : σ → (o : HostOp) → HostAns o × σ} {now : σ → ℚ}

/-- Time does not go back, and a reading of the clock is the time at some moment of it. -/
structure Clocked (h : σ → (o : HostOp) → HostAns o × σ) (now : σ → ℚ) : Prop where
  forward : ∀ s o, now s ≤ now (h s o).2
  reading : ∀ s, now s ≤ (h s .monotonic).1 ∧ (h s .monotonic).1 ≤ now (h s .monotonic).2

/-- How long the operation asks the host to wait at most. -/
def HostOp.asks : HostOp → Option ℚ
  | .send _ _ timeout => some timeout
  | .sleep seconds => some seconds
  | _ => none

/-- What the operations of a run ask for is over at the deadline. -/
def InTime (now : σ → ℚ) (deadline : ℚ) (xs : List (σ × HostOp)) : Prop :=
  ∀ x ∈ xs, ∀ d ∈ x.2.asks, d ≤ deadline - now x.1

/-- The rounds of a polling loop on a host, as it meets them if it polls on: what the clock
reads at the check of each, when its RPC is issued, if it makes one, and when its pause begins,
if its poll settles nothing. The verdict is `none` where the loop gets to the next round. -/
structure Timetable extends Polls ℚ Unit where
  call : ℕ → Option ℚ
  pause : ℕ → Option ℚ

/-- In the first `n` rounds: where every check up to that of the round reads less than the
deadline, and no poll before it has ended the loop, the time that is left when the RPC is issued
is enough for `rpc`, and what is left when the pause begins is enough for `pause`. -/
def Timetable.Fits (T : Timetable) (deadline rpc pause : ℚ) (n : ℕ) : Prop :=
  ∀ k < n, T.Made deadline k →
    (∀ t ∈ T.call k, rpc ≤ deadline - t) ∧ ∀ t ∈ T.pause k, pause ≤ deadline - t

/-! ### Rounds one after the other -/

/-- A property of the rest of a loop that every round before the deadline hands on, and that
holds at the deadline, is about the rounds that are made. -/
theorem Timetable.forall_made_iff (T : Timetable) (deadline : ℚ) (Φ : ℕ → Prop)
    (I : ℕ → ℕ → Prop) (hzero : ∀ k, I 0 k)
    (hlate : ∀ n k, ¬ T.check k < deadline → I (n + 1) k)
    (hround : ∀ n k, T.check k < deadline →
      (I (n + 1) k ↔ Φ k ∧ (T.verdict k = none → I n (k + 1))))
    (n : ℕ) {k : ℕ} (hk : T.Pending deadline k) :
    I n k ↔ ∀ j, k ≤ j → j < k + n → T.Made deadline j → Φ j := by
  -- induction on the rounds that are left, at any round the loop gets to
  induction n generalizing k with
  | zero => exact iff_of_true (hzero k) fun j hkj hj _ => absurd hj (by omega)
  | succ n ih =>
    by_cases hcheck : T.check k < deadline
    · rw [hround n k hcheck]
      constructor
      · rintro ⟨hΦ, hrest⟩ j hkj hj hmade
        rcases Nat.eq_or_lt_of_le hkj with rfl | hlt
        · exact hΦ
        · -- the loop has got past round `k`
          have hnone : T.verdict k = none := (hmade.1 k hlt).2
          have hnext : T.Pending deadline (k + 1) := hmade.1.mono hlt
          exact (ih hnext).mp (hrest hnone) j hlt (by omega) hmade
      · intro hall
        refine ⟨hall k (le_refl k) (by omega) ⟨hk, hcheck⟩, fun hnone => ?_⟩
        have hnext : T.Pending deadline (k + 1) := Polls.pending_succ_iff.mpr ⟨⟨hk, hcheck⟩, hnone⟩
        exact (ih hnext).mpr fun j hkj hj => hall j (by omega) (by omega)
    · refine iff_of_true (hlate n k hcheck) fun j hkj _ hmade => ?_
      -- no round from here on is made
      rcases Nat.eq_or_lt_of_le hkj with rfl | hlt
      · exact absurd hmade.2 hcheck
      · exact absurd (hmade.1 k hlt).1 hcheck

/-- An RPC is not issued before the check that lets the loop poll, so such a check may not read
a time at which the RPC does not fit any more. -/
theorem Timetable.Fits.check_le {T : Timetable} {deadline rpc pause t : ℚ} {n k : ℕ}
    (hfits : T.Fits deadline rpc pause n) (hk : k < n) (hmade : T.Made deadline k)
    (ht : t ∈ T.call k) (hle : T.check k ≤ t) : T.check k ≤ deadline - rpc := by
  have hleft := (hfits k hk hmade).1 t ht
  linarith

/-- A loop whose first check finds the deadline passed makes no round. -/
theorem Timetable.fits_of_late {T : Timetable} {deadline : ℚ} (hlate : ¬ T.check 0 < deadline)
    (rpc pause : ℚ) (n : ℕ) : T.Fits deadline rpc pause n := by
  intro k _ hmade
  rcases Nat.eq_zero_or_pos k with rfl | hpos
  · exact absurd hmade.2 hlate
  · exact absurd (hmade.1 0 hpos).1 hlate

/-! ### What a part of a run asks for -/

variable {deadline : ℚ}

@[simp] theorem inTime_nil : InTime now deadline [] := fun _ hx => absurd hx List.not_mem_nil

@[simp] theorem inTime_cons {x : σ × HostOp} {xs : List (σ × HostOp)} :
    InTime now deadline (x :: xs) ↔
      (∀ d ∈ x.2.asks, d ≤ deadline - now x.1) ∧ InTime now deadline xs := by
  simp only [InTime, List.forall_mem_cons]

theorem inTime_append {xs ys : List (σ × HostOp)} :
    InTime now deadline (xs ++ ys) ↔ InTime now deadline xs ∧ InTime now deadline ys :=
  List.forall_mem_append

/-- An operation that asks for no time. -/
def HostOp.Free (o : HostOp) : Prop := o.asks = none

/-- What asks for no time is in time. -/
theorem inTime_of_only {α : Type} {p : HostM α} (hp : p.Only HostOp.Free) (s : σ) :
    InTime now deadline (p.steps h s) := by
  intro x hx d hd
  rw [hp.steps h hx] at hd
  cases hd

/-- What follows without asking for time changes nothing. -/
theorem inTime_handle {α β : Type} (p : HostM α) {f : Except Exn α → HostM β}
    (hf : ∀ r, (f r).Only HostOp.Free) (s : σ) :
    InTime now deadline ((p.handle f).steps h s) ↔ InTime now deadline (p.steps h s) := by
  rw [Prog.steps_handle, inTime_append, and_iff_left (inTime_of_only (hf _) _)]

/-- A call asks for its timeout, at the time it is issued. -/
theorem inTime_call (lib : Codec) (m : Method) (r : Ref) (t : ℚ) (s : σ) :
    InTime now deadline ((Client.call lib m r t).steps h s) ↔ t ≤ deadline - now s := by
  have hrecv : (performOrRaise (perform (.recv m))).Only HostOp.Free :=
    only_performOrRaise (.perform rfl)
  have hsend : InTime now deadline ((performOrRaise (perform (.send m r t))).steps h s) ↔
      t ≤ deadline - now s := by
    show InTime now deadline [(s, .send m r t)] ↔ _
    simp [HostOp.asks]
  have hstub : InTime now deadline ((stub m r t).steps h s) ↔ t ≤ deadline - now s := by
    refine (inTime_handle _ (fun a => ?_) s).trans hsend
    cases a with
    | ok _ => exact hrecv
    | error e => trivial
  -- the translation of an error asks for nothing
  refine (inTime_handle _ (fun a => ?_) s).trans hstub
  cases a with
  | ok _ => trivial
  | error e =>
    cases e with
    | rpc e =>
      have htranslated : (Prog.ofExcept (ConduitError.fromRpcError lib e) :
          HostM ConduitError).Only HostOp.Free := trivial
      exact htranslated.bind fun _ => trivial
    | _ => trivial

/-! ### The rounds of `wait_running` -/

namespace Run

section Rounds

variable (rt : Runtime) (h : σ → (o : HostOp) → HostAns o × σ) (run : Run) (pollInterval : ℚ)

/-- After the clock, and the new request: the state in which the call of a round is issued. -/
def issuedIn (s : σ) : σ := (h (h s .monotonic).2 (.new (.getPipeline run.pipelineId))).2

/-- The poll of a round, and the state after it. -/
def polledIn (s : σ) : Except Exn RunStatus × σ := (run.status rt 5).eval h (h s .monotonic).2

/-- The poll has fetched a status that settles nothing. -/
def unsettled (s : σ) : Bool :=
  match (polledIn rt h run s).1 with
  | .ok status => !status.isRunning && !status.isDegraded
  | .error _ => false

/-- The pause that follows such a poll. -/
def pausedIn (s : σ) : Except Exn Unit × σ := h (polledIn rt h run s).2 (.sleep pollInterval)

/-- The state in which a loop that started in `s` gets to round `k`. -/
def roundIn (s : σ) : ℕ → σ
  | 0 => s
  | k + 1 => (pausedIn rt h run pollInterval (roundIn s k)).2

/-- The timetable of the loop, from the state `s` on. -/
def timetable (now : σ → ℚ) (s : σ) : Timetable where
  check k := (h (roundIn rt h run pollInterval s k) .monotonic).1
  verdict k :=
    if unsettled rt h run (roundIn rt h run pollInterval s k) &&
        (pausedIn rt h run pollInterval (roundIn rt h run pollInterval s k)).1.isOk then none
    else some ()
  call k := some (now (issuedIn h run (roundIn rt h run pollInterval s k)))
  pause k :=
    if unsettled rt h run (roundIn rt h run pollInterval s k) then
      some (now (polledIn rt h run (roundIn rt h run pollInterval s k)).2)
    else none

end Rounds

variable {rt : Runtime} {run : Run} {timeout pollInterval : ℚ}

/-- The status that was last seen is not asked of the host. -/
theorem steps_waitLoop_last (n : ℕ) (last last' : Option RunStatus) (s : σ) :
    (run.waitLoop rt timeout deadline pollInterval n last).steps h s =
      (run.waitLoop rt timeout deadline pollInterval n last').steps h s := by
  cases n with
  | zero => rfl
  | succ n =>
    unfold Run.waitLoop
    rw [Prog.steps_perform_bind, Prog.steps_perform_bind]
    split <;> rfl

/-- What a poll asks for. -/
theorem inTime_status (s : σ) :
    InTime now deadline ((run.status rt 5).steps h (h s .monotonic).2) ↔
      5 ≤ deadline - now (issuedIn h run s) := by
  unfold Run.status
  rw [Prog.steps_perform_bind, inTime_cons, and_iff_right (by simp [HostOp.asks])]
  exact (inTime_handle _ (fun a => by cases a <;> trivial) _).trans (inTime_call _ _ _ _ _)

/-- What is asked for behind a poll: nothing when it has settled the wait, and otherwise a
pause and what the next rounds ask for. -/
theorem inTime_pollStep (n : ℕ) (status : RunStatus) (s : σ) :
    InTime now deadline
        ((run.pollStep rt timeout deadline pollInterval n status).steps h s) ↔
      ((!status.isRunning && !status.isDegraded) = true → pollInterval ≤ deadline - now s ∧
        ((h s (.sleep pollInterval)).1.isOk = true → InTime now deadline
          ((run.waitLoop rt timeout deadline pollInterval n none).steps h
            (h s (.sleep pollInterval)).2))) := by
  cases hrun : status.isRunning with
  | true => simp [Run.pollStep, hrun]
  | false =>
    cases hdeg : status.isDegraded with
    | true => simp [Run.pollStep, hrun, hdeg]
    | false =>
      have hsleep : InTime now deadline
          ((performOrRaise (perform (.sleep pollInterval))).steps h s) ↔
            pollInterval ≤ deadline - now s := by
        show InTime now deadline [(s, .sleep pollInterval)] ↔ _
        simp [HostOp.asks]
      have hpause : (performOrRaise (perform (.sleep pollInterval))).eval h s =
          ((h s (.sleep pollInterval)).1, (h s (.sleep pollInterval)).2) := rfl
      simp only [Run.pollStep, hrun, hdeg, Bool.false_eq_true, if_false, Bool.not_false,
        Bool.and_self, true_imp_iff]
      cases hslept : (h s (.sleep pollInterval)).1 with
      | error e =>
        -- a negative pause is refused, and the loop left
        rw [hslept] at hpause
        rw [Prog.steps_bind_error (S := Host) h hpause, hsleep]
        simp [Except.isOk, Except.toBool]
      | ok _ =>
        rw [hslept] at hpause
        rw [Prog.steps_bind_ok (S := Host) h hpause, inTime_append, hsleep,
          steps_waitLoop_last n (some status) none]
        simp [Except.isOk, Except.toBool]

/-- What a round asks for whose check lets the loop poll. -/
theorem inTime_waitLoop_live (n : ℕ) {s : σ} (hcheck : (h s .monotonic).1 < deadline) :
    InTime now deadline
        ((run.waitLoop rt timeout deadline pollInterval (n + 1) none).steps h s) ↔
      5 ≤ deadline - now (issuedIn h run s) ∧
        (unsettled rt h run s = true → pollInterval ≤ deadline - now (polledIn rt h run s).2 ∧
          ((pausedIn rt h run pollInterval s).1.isOk = true → InTime now deadline
            ((run.waitLoop rt timeout deadline pollInterval n none).steps h
              (pausedIn rt h run pollInterval s).2))) := by
  have hpolled : (run.status rt 5).eval h (h s .monotonic).2 =
      ((polledIn rt h run s).1, (polledIn rt h run s).2) := rfl
  have hloop : (run.waitLoop rt timeout deadline pollInterval (n + 1) none).steps h s =
      (s, .monotonic) :: (run.status rt 5 >>= run.pollStep rt timeout deadline pollInterval
        n).steps h (h s .monotonic).2 := by
    rw [Run.waitLoop, Prog.steps_perform_bind, if_pos hcheck]
    rfl
  rw [hloop, inTime_cons, and_iff_right (by simp [HostOp.asks]), unsettled]
  cases hpoll : (polledIn rt h run s).1 with
  | error e =>
    -- the poll has raised: nothing comes after it
    rw [hpoll] at hpolled
    rw [Prog.steps_bind_error (S := Host) h hpolled, inTime_status]
    simp
  | ok status =>
    rw [hpoll] at hpolled
    rw [Prog.steps_bind_ok (S := Host) h hpolled, inTime_append, inTime_status, inTime_pollStep]
    rfl

/-- **The budget of `wait_running`**, for the first `n` rounds. -/
theorem inTime_waitRunning_iff (rt : Runtime) (run : Run) (timeout pollInterval : ℚ)
    (now : σ → ℚ) (s : σ) (n : ℕ) :
    InTime now ((h s .monotonic).1 + timeout)
        ((run.waitRunning rt timeout pollInterval n).steps h s) ↔
      (timetable rt h run pollInterval now (h s .monotonic).2).Fits
        ((h s .monotonic).1 + timeout) 5 pollInterval n := by
  unfold Run.waitRunning
  rw [Prog.steps_perform_bind, inTime_cons, and_iff_right (by simp [HostOp.asks])]
  set T := timetable rt h run pollInterval now (h s .monotonic).2
  set deadline := (h s .monotonic).1 + timeout
  have hrounds := T.forall_made_iff deadline
    (fun k => (∀ t ∈ T.call k, 5 ≤ deadline - t) ∧ ∀ t ∈ T.pause k, pollInterval ≤ deadline - t)
    (fun n k => InTime now deadline
      ((run.waitLoop rt timeout deadline pollInterval n none).steps h
        (roundIn rt h run pollInterval (h s .monotonic).2 k)))
    (fun k => inTime_nil) (fun n k hlate => ?_) (fun n k hcheck => ?_) n Polls.pending_zero
  · rw [Nat.zero_add] at hrounds
    exact hrounds.trans ⟨fun hall k hk => hall k (Nat.zero_le k) hk, fun hall k _ hk => hall k hk⟩
  · -- the check finds the deadline passed, and the error is raised
    have hnot : ¬ (h (roundIn rt h run pollInterval (h s .monotonic).2 k) .monotonic).1 <
        deadline := hlate
    rw [Run.waitLoop, Prog.steps_perform_bind, if_neg hnot]
    simp [HostOp.asks]
  · -- the timetable has the call and the pause of this round
    rw [inTime_waitLoop_live n hcheck]
    simp only [T, timetable, Option.mem_some_iff, forall_eq', and_assoc]
    refine and_congr_right fun _ => ?_
    cases hun : unsettled rt h run (roundIn rt h run pollInterval (h s .monotonic).2 k) with
    | false => simp
    | true =>
      simp only [true_imp_iff, Bool.true_and, if_true, Option.mem_some_iff, forall_eq']
      refine and_congr_right fun _ => ?_
      cases (pausedIn rt h run pollInterval
        (roundIn rt h run pollInterval (h s .monotonic).2 k)).1.isOk with
      | false => simp
      | true => simp [roundIn]

end Run

/-! ### The rounds of `_wait_ready` -/

namespace LocalConduit

section Rounds

variable (rt : Runtime) (h : σ → (o : HostOp) → HostAns o × σ)

/-- The state in which the call of a round is issued. -/
def issuedIn (s : σ) : σ := (h (polled h s).2 (.new .getInfo)).2

/-- The probe of a subprocess that runs has failed. -/
def refused (s : σ) : Bool :=
  match (polled h s).1, (probed rt h s).1 with
  | none, .ok (some _) => true
  | _, _ => false

/-- The timetable of the loop, from the state `s` on. A round that finds the subprocess exited
makes no call. -/
def timetable (now : σ → ℚ) (s : σ) : Timetable where
  check k := (h (round rt h s k) .monotonic).1
  verdict k := (finding rt h (round rt h s k)).map fun _ => ()
  call k :=
    if (polled h (round rt h s k)).1 = none then some (now (issuedIn h (round rt h s k)))
    else none
  pause k :=
    if refused rt h (round rt h s k) then some (now (probed rt h (round rt h s k)).2) else none

end Rounds

variable {rt : Runtime} {addr : String} {timeout : ℚ}

/-- What a probe asks for. -/
theorem inTime_probe (s : σ) :
    InTime now deadline ((probe rt).steps h s) ↔ 1 ≤ deadline - now (h s (.new .getInfo)).2 := by
  have hinfo : InTime now deadline ((Client.getInfo rt.toCodec 1).steps h s) ↔
      1 ≤ deadline - now (h s (.new .getInfo)).2 := by
    unfold Client.getInfo
    rw [Prog.steps_perform_bind, inTime_cons, and_iff_right (by simp [HostOp.asks])]
    exact inTime_call _ _ _ _ _
  -- what becomes of the answer asks for nothing
  refine (inTime_handle _ (fun a => ?_) s).trans ((inTime_handle _ (fun a => ?_) s).trans hinfo)
  · cases a with
    | ok _ => trivial
    | error e => cases e <;> trivial
  · cases a <;> trivial

/-- Reading the log asks for no time. -/
theorem free_logTail : (logTail rt 4096).Only HostOp.Free :=
  only_logTail rt 4096 rfl rfl fun _ => rfl

/-- What a round asks for whose check lets the loop go on. -/
theorem inTime_probeLoop_live (n : ℕ) (last : Option ConduitError) {s : σ}
    (hcheck : (h s .monotonic).1 < deadline) :
    InTime now deadline ((probeLoop rt addr timeout deadline (n + 1) last).steps h s) ↔
      ((polled h s).1 = none → 1 ≤ deadline - now (issuedIn h s) ∧
        ∀ e, (probed rt h s).1 = .ok (some e) → 1 / 10 ≤ deadline - now (probed rt h s).2 ∧
          ((paused rt h s).1.isOk = true → InTime now deadline
            ((probeLoop rt addr timeout deadline n (some e)).steps h (paused rt h s).2))) := by
  rw [probeLoop, Prog.steps_perform_bind, inTime_cons, and_iff_right (by simp [HostOp.asks]),
    if_pos hcheck, Prog.steps_perform_bind, inTime_cons, and_iff_right (by simp [HostOp.asks])]
  cases hpoll : (polled h s).1 with
  | some exitCode =>
    -- the subprocess has exited, and nothing is waited for any more
    have hpoll' : (h (h s .monotonic).2 .poll).1 = some exitCode := hpoll
    have hcrash : (crash rt exitCode).Only HostOp.Free :=
      .bind (.perform rfl) fun _ => .bind free_logTail fun _ => trivial
    simp only [hpoll']
    exact iff_of_true (inTime_of_only hcrash _) fun hnone => by cases hnone
  | none =>
    have hpoll' : (h (h s .monotonic).2 .poll).1 = none := hpoll
    simp only [hpoll', true_imp_iff]
    show InTime now deadline ((probe rt >>= _).steps h (polled h s).2) ↔ _
    have hprobe : (probe rt).eval h (polled h s).2 = ((probed rt h s).1, (probed rt h s).2) := rfl
    cases hprobed : (probed rt h s).1 with
    | error e =>
      rw [hprobed] at hprobe
      rw [Prog.steps_bind_error (S := Host) h hprobe, inTime_probe]
      simp [issuedIn]
    | ok outcome =>
      rw [hprobed] at hprobe
      rw [Prog.steps_bind_ok (S := Host) h hprobe, inTime_append, inTime_probe]
      refine and_congr_right fun _ => ?_
      cases outcome with
      | none => simp
      | some e =>
        have hsleep : InTime now deadline
            ((performOrRaise (perform (.sleep (1 / 10)))).steps h (probed rt h s).2) ↔
              1 / 10 ≤ deadline - now (probed rt h s).2 := by
          show InTime now deadline [((probed rt h s).2, .sleep (1 / 10))] ↔ _
          simp [HostOp.asks]
        have hpause : (performOrRaise (perform (.sleep (1 / 10)))).eval h (probed rt h s).2 =
            ((paused rt h s).1, (paused rt h s).2) := rfl
        simp only [Except.ok.injEq, Option.some.injEq, forall_eq']
        cases hslept : (paused rt h s).1 with
        | error e' =>
          rw [hslept] at hpause
          rw [Prog.steps_bind_error (S := Host) h hpause, hsleep]
          simp [Except.isOk, Except.toBool]
        | ok _ =>
          rw [hslept] at hpause
          rw [Prog.steps_bind_ok (S := Host) h hpause, inTime_append, hsleep]
          simp [Except.isOk, Except.toBool]

/-- **The budget of `_wait_ready`**, for the first `n` rounds. -/
theorem inTime_waitReady_iff (rt : Runtime) (addr : String) (timeout : ℚ) (now : σ → ℚ) (s : σ)
    (n : ℕ) :
    InTime now ((h s .monotonic).1 + timeout) ((waitReady rt addr timeout n).steps h s) ↔
      (timetable rt h now (opened h addr s)).Fits ((h s .monotonic).1 + timeout) 1 (1 / 10) n := by
  unfold waitReady
  rw [Prog.steps_perform_bind, inTime_cons, and_iff_right (by simp [HostOp.asks]),
    Prog.steps_perform_bind, inTime_cons, and_iff_right (by simp [HostOp.asks])]
  set T := timetable rt h now (opened h addr s)
  set deadline := (h s .monotonic).1 + timeout
  have hrounds := T.forall_made_iff deadline
    (fun k => (∀ t ∈ T.call k, 1 ≤ deadline - t) ∧ ∀ t ∈ T.pause k, 1 / 10 ≤ deadline - t)
    (fun n k => InTime now deadline ((probeLoop rt addr timeout deadline n
      (lastError rt h (opened h addr s) k)).steps h (round rt h (opened h addr s) k)))
    (fun k => inTime_nil) (fun n k hlate => ?_) (fun n k hcheck => ?_) n Polls.pending_zero
  · rw [Nat.zero_add] at hrounds
    exact hrounds.trans ⟨fun hall k hk => hall k (Nat.zero_le k) hk, fun hall k _ hk => hall k hk⟩
  · -- the check finds the deadline passed, and the loop gives up
    have hnot : ¬ (h (round rt h (opened h addr s) k) .monotonic).1 < deadline := hlate
    have hgiveUp : (giveUp rt addr timeout (lastError rt h (opened h addr s) k)).Only
        HostOp.Free :=
      .bind (.perform rfl) fun _ => .bind free_logTail fun _ => trivial
    rw [probeLoop, Prog.steps_perform_bind, if_neg hnot, inTime_cons]
    exact ⟨by simp [HostOp.asks], inTime_of_only hgiveUp _⟩
  · -- what the round finds decides which of its call and its pause there are
    rw [inTime_probeLoop_live n _ hcheck]
    simp only [T, timetable]
    cases hpoll : (polled h (round rt h (opened h addr s) k)).1 with
    | some exitCode => simp [refused, finding, hpoll]
    | none =>
      simp only [true_imp_iff, if_true, Option.mem_some_iff, forall_eq', and_assoc]
      refine and_congr_right fun _ => ?_
      cases hprobed : (probed rt h (round rt h (opened h addr s) k)).1 with
      | error e => simp [refused, finding, hpoll, hprobed]
      | ok outcome =>
        cases outcome with
        | none => simp [refused, finding, hpoll, hprobed]
        | some e =>
          have hlast : lastError rt h (opened h addr s) (k + 1) = some e := by
            rw [lastError, hprobed]
          rw [hlast]
          cases hslept : (paused rt h (round rt h (opened h addr s) k)).1 with
          | error e' =>
            simp [refused, finding, hpoll, hprobed, hslept, Except.isOk, Except.toBool]
          | ok _ =>
            simp [refused, finding, hpoll, hprobed, hslept, Except.isOk, Except.toBool, round]

end LocalConduit

/-! ### The budget -/

/-- A second look at the clock finds no time left of a budget of none. -/
theorem not_lt_of_no_budget (hc : Clocked h now) {timeout : ℚ} (ht : timeout ≤ 0) {s s' : σ}
    (hs' : now (h s .monotonic).2 ≤ now s') :
    ¬ (h s' .monotonic).1 < (h s .monotonic).1 + timeout := by
  have hfirst := (hc.reading s).2
  have hsecond := (hc.reading s').1
  linarith

/-- No check that lets `wait_running` poll reads a time in the last five seconds. -/
theorem waitRunning_check_le (hc : Clocked h now) {rt : Runtime} {run : Run}
    {timeout pollInterval : ℚ} {s : σ} {n k : ℕ}
    (hin : InTime now ((h s .monotonic).1 + timeout)
      ((run.waitRunning rt timeout pollInterval n).steps h s)) (hk : k < n)
    (hmade : (run.timetable rt h pollInterval now (h s .monotonic).2).Made
      ((h s .monotonic).1 + timeout) k) :
    (run.timetable rt h pollInterval now (h s .monotonic).2).check k ≤
      (h s .monotonic).1 + timeout - 5 := by
  have hfits := (Run.inTime_waitRunning_iff rt run timeout pollInterval now s n).mp hin
  -- between the check and the call the loop only builds the request
  refine hfits.check_le hk hmade rfl ?_
  exact (hc.reading _).2.trans (hc.forward _ _)

/-- No check that lets `_wait_ready` probe a subprocess that runs reads a time in the last
second. -/
theorem waitReady_check_le (hc : Clocked h now) {rt : Runtime} {addr : String} {timeout : ℚ}
    {s : σ} {n k : ℕ}
    (hin : InTime now ((h s .monotonic).1 + timeout)
      ((LocalConduit.waitReady rt addr timeout n).steps h s)) (hk : k < n)
    (hmade : (LocalConduit.timetable rt h now (LocalConduit.opened h addr s)).Made
      ((h s .monotonic).1 + timeout) k)
    (hruns : (LocalConduit.polled h
      (LocalConduit.round rt h (LocalConduit.opened h addr s) k)).1 = none) :
    (LocalConduit.timetable rt h now (LocalConduit.opened h addr s)).check k ≤
      (h s .monotonic).1 + timeout - 1 := by
  have hfits := (LocalConduit.inTime_waitReady_iff rt addr timeout now s n).mp hin
  refine hfits.check_le hk hmade (if_pos hruns) ?_
  -- the look at the subprocess comes between, and the new request
  exact (hc.reading _).2.trans ((hc.forward _ _).trans (hc.forward _ _))

/-- Shortly before the end of a budget. -/
def almost (timeout : ℚ) : ℚ := timeout - min timeout 1 / 2

theorem almost_nonneg {timeout : ℚ} (ht : 0 < timeout) : 0 ≤ almost timeout := by
  have hle := min_le_left timeout 1
  unfold almost
  linarith

theorem almost_lt {timeout : ℚ} (ht : 0 < timeout) : almost timeout < timeout := by
  have hpos : 0 < min timeout 1 := lt_min ht one_pos
  unfold almost
  linarith

/-- The time in a session that is held up behind its first look at the clock. -/
def heldUpNow (timeout : ℚ) (s : Session) : ℚ := if s.ticks = 0 then 0 else almost timeout

/-- A host that holds a program up behind its first look at the clock. -/
def heldUp (timeout : ℚ) : Script where
  reply := obliging.reply
  clock k := if k = 0 then 0 else almost timeout

theorem heldUp_clocked {timeout : ℚ} (ht : 0 < timeout) :
    Clocked (heldUp timeout).handle (heldUpNow timeout) where
  forward s o := by
    -- only a look at the clock moves the time, and only the first one
    by_cases ho : o = .monotonic
    · subst ho
      change heldUpNow timeout s ≤ if s.ticks + 1 = 0 then 0 else almost timeout
      unfold heldUpNow
      rw [if_neg (Nat.succ_ne_zero _)]
      split
      · exact almost_nonneg ht
      · exact le_refl _
    · rw [heldUpNow, heldUpNow, Script.handle_ticks _ s ho]
  reading s := by
    change heldUpNow timeout s ≤ (if s.ticks = 0 then 0 else almost timeout) ∧
      (if s.ticks = 0 then 0 else almost timeout) ≤
        if s.ticks + 1 = 0 then 0 else almost timeout
    unfold heldUpNow
    rw [if_neg (Nat.succ_ne_zero _)]
    refine ⟨le_refl _, ?_⟩
    split
    · exact almost_nonneg ht
    · exact le_refl _

/-- Then less than a second is left. -/
theorem sub_lt_almost {timeout t : ℚ} (ht : 1 ≤ t) : 0 + timeout - t < almost timeout := by
  have hmin := min_le_right timeout 1
  unfold almost
  linarith

/-- Held up like this, `wait_running` polls, and its first check reads that time. -/
theorem heldUp_made_running (rt : Runtime) (run : Run) {timeout : ℚ} (ht : 0 < timeout)
    (pollInterval : ℚ) :
    (run.timetable rt (heldUp timeout).handle pollInterval (heldUpNow timeout)
      ((heldUp timeout).handle newSession .monotonic).2).Made (0 + timeout) 0 := by
  refine ⟨Polls.pending_zero, ?_⟩
  change almost timeout < 0 + timeout
  rw [zero_add]
  exact almost_lt ht

/-- So does `_wait_ready`. -/
theorem heldUp_made_ready (rt : Runtime) (addr : String) {timeout : ℚ} (ht : 0 < timeout) :
    (LocalConduit.timetable rt (heldUp timeout).handle (heldUpNow timeout)
      (LocalConduit.opened (heldUp timeout).handle addr newSession)).Made (0 + timeout) 0 := by
  refine ⟨Polls.pending_zero, ?_⟩
  change almost timeout < 0 + timeout
  rw [zero_add]
  exact almost_lt ht

/-- `wait_running` with time to wait is held up like this, and then asks for too much. -/
theorem waitRunning_not_inTime (rt : Runtime) (run : Run) {timeout : ℚ} (ht : 0 < timeout)
    (pollInterval : ℚ) :
    ¬ InTime (heldUpNow timeout) (((heldUp timeout).handle newSession .monotonic).1 + timeout)
      ((run.waitRunning rt timeout pollInterval 1).steps (heldUp timeout).handle newSession) := by
  intro hin
  have hle := waitRunning_check_le (heldUp_clocked ht) hin one_pos
    (heldUp_made_running rt run ht pollInterval)
  have hlate : 0 + timeout - 5 < almost timeout := sub_lt_almost (by norm_num)
  exact absurd hle (not_le.mpr hlate)

/-- So is `_wait_ready`. -/
theorem waitReady_not_inTime (rt : Runtime) (addr : String) {timeout : ℚ} (ht : 0 < timeout) :
    ¬ InTime (heldUpNow timeout) (((heldUp timeout).handle newSession .monotonic).1 + timeout)
      ((LocalConduit.waitReady rt addr timeout 1).steps (heldUp timeout).handle newSession) := by
  intro hin
  have hle := waitReady_check_le (heldUp_clocked ht) hin one_pos (heldUp_made_ready rt addr ht) rfl
  have hlate : 0 + timeout - 1 < almost timeout := sub_lt_almost (le_refl _)
  exact absurd hle (not_le.mpr hlate)

/-- **Within the budget.** A run of either loop on a host, for any number of rounds, asks for
nothing beyond its deadline exactly when, in the rounds of the host's timetable whose checks let
the loop poll, the RPC is issued early enough for its fixed timeout of 5 s or 1 s, and the pause
begins early enough for its fixed length. For every host and clock it does so exactly when the
budget is none, and the loop does not poll at all. -/
theorem in_time_iff (rt : Runtime) (run : Run) (addr : String) (timeout pollInterval : ℚ) :
    ((∀ (σ : Type) (h : σ → (o : HostOp) → HostAns o × σ) (now : σ → ℚ) (s : σ) (n : ℕ),
        InTime now ((h s .monotonic).1 + timeout)
            ((run.waitRunning rt timeout pollInterval n).steps h s) ↔
          (run.timetable rt h pollInterval now (h s .monotonic).2).Fits
            ((h s .monotonic).1 + timeout) 5 pollInterval n) ∧
      ((∀ (σ : Type) (h : σ → (o : HostOp) → HostAns o × σ) (now : σ → ℚ), Clocked h now →
        ∀ s n, InTime now ((h s .monotonic).1 + timeout)
          ((run.waitRunning rt timeout pollInterval n).steps h s)) ↔ timeout ≤ 0)) ∧
    (∀ (σ : Type) (h : σ → (o : HostOp) → HostAns o × σ) (now : σ → ℚ) (s : σ) (n : ℕ),
        InTime now ((h s .monotonic).1 + timeout)
            ((LocalConduit.waitReady rt addr timeout n).steps h s) ↔
          (LocalConduit.timetable rt h now (LocalConduit.opened h addr s)).Fits
            ((h s .monotonic).1 + timeout) 1 (1 / 10) n) ∧
      ((∀ (σ : Type) (h : σ → (o : HostOp) → HostAns o × σ) (now : σ → ℚ), Clocked h now →
        ∀ s n, InTime now ((h s .monotonic).1 + timeout)
          ((LocalConduit.waitReady rt addr timeout n).steps h s)) ↔ timeout ≤ 0) := by
  refine ⟨⟨fun σ h now s n => ?_, fun hall => ?_, fun ht σ h now hc s n => ?_⟩,
    fun σ h now s n => ?_, fun hall => ?_, fun ht σ h now hc s n => ?_⟩
  · exact Run.inTime_waitRunning_iff rt run timeout pollInterval now s n
  · -- a host that is held up for almost all of the budget makes the loop ask for too much
    by_contra hpos
    have ht : 0 < timeout := not_le.mp hpos
    exact waitRunning_not_inTime rt run ht pollInterval
      (hall Session (heldUp timeout).handle _ (heldUp_clocked ht) newSession 1)
  · rw [Run.inTime_waitRunning_iff]
    exact Timetable.fits_of_late (not_lt_of_no_budget hc ht (le_refl _)) _ _ _
  · exact LocalConduit.inTime_waitReady_iff rt addr timeout now s n
  · by_contra hpos
    have ht : 0 < timeout := not_le.mp hpos
    exact waitReady_not_inTime rt addr ht
      (hall Session (heldUp timeout).handle _ (heldUp_clocked ht) newSession 1)
  · rw [LocalConduit.inTime_waitReady_iff]
    -- the channel is opened between the two looks at the clock
    exact Timetable.fits_of_late (not_lt_of_no_budget hc ht (hc.forward _ _)) _ _ _

/-- A wait of one second polls half a second before its end, with a timeout of five seconds. -/
theorem waitRunning_over_budget :
    Clocked (heldUp 1).handle (heldUpNow 1) ∧
      ¬ InTime (heldUpNow 1) (((heldUp 1).handle newSession .monotonic).1 + 1)
        ((Run.waitRunning plainRuntime ⟨"p"⟩ 1 (1 / 5) 1).steps (heldUp 1).handle newSession) :=
  ⟨heldUp_clocked one_pos, waitRunning_not_inTime plainRuntime ⟨"p"⟩ one_pos (1 / 5)⟩

end Conduit
