import ConduitClient.Waiting
import ConduitClient.Local

/-!
# The wait for the engine

`_wait_ready` is a polling loop like `wait_running` (`Effect.Polls`): in each round it looks at
the clock, at the subprocess and, where that runs, at its API. The environment may be any
deterministic one, so a round is told by the state in which the loop gets to it
(`LocalConduit.round`), and what it finds is its `finding`.

`eval_probeLoop` says that the loop ends as the loop of polls does. The first round that finds
something, or that finds the deadline passed, decides the outcome (`waitReady_first_decisive`).
-/

namespace Conduit

open Effect

namespace LocalConduit

/-- What a round finds that ends the wait, and the state in which it does. -/
inductive Finding (σ : Type) where
  /-- The subprocess had exited. -/
  | exited (exitCode : Int) (s : σ)
  /-- The API answered. -/
  | answered (s : σ)
  /-- The probe or the pause raised something that the loop does not catch. -/
  | raised (e : Exn) (s : σ)

/-- What the loop does when the subprocess has exited. -/
def crash (rt : Runtime) (exitCode : Int) : HostM (Option Client) := do
  perform .closeChannel
  let tail ← logTail rt 4096
  Prog.raise (.conduit (crashedError exitCode tail))

/-- What it does when the time is over. -/
def giveUp (rt : Runtime) (addr : String) (timeout : ℚ) (last : Option ConduitError) :
    HostM (Option Client) := do
  perform .closeChannel
  let tail ← logTail rt 4096
  Prog.raise (.conduit (unreachableError rt addr timeout last tail))

section Rounds

variable {σ : Type} (rt : Runtime) (h : σ → (o : HostOp) → HostAns o × σ)

/-- After the clock, and `process.poll()`. -/
def polled (s : σ) : Option Int × σ := h (h s .monotonic).2 .poll

/-- After the probe of a subprocess that runs. -/
def probed (s : σ) : Except Exn (Option ConduitError) × σ := (probe rt).eval h (polled h s).2

/-- After the pause that follows a failed probe. -/
def paused (s : σ) : Except Exn Unit × σ := h (probed rt h s).2 (.sleep (1 / 10))

/-- What a round finds; `none` when the loop goes on. -/
def finding (s : σ) : Option (Finding σ) :=
  match (polled h s).1 with
  | some exitCode => some (.exited exitCode (polled h s).2)
  | none =>
    match (probed rt h s).1 with
    | .error e => some (.raised e (probed rt h s).2)
    | .ok none => some (.answered (probed rt h s).2)
    | .ok (some _) =>
      match (paused rt h s).1 with
      | .error e => some (.raised e (paused rt h s).2)
      | .ok _ => none

/-- The state in which a loop that started in `s` gets to round `k`. -/
def round (s : σ) : ℕ → σ
  | 0 => s
  | k + 1 => (paused rt h (round s k)).2

/-- The rounds of the loop. -/
def rounds (s : σ) : Polls ℚ (Finding σ) where
  check k := (h (round rt h s k) .monotonic).1
  verdict k := finding rt h (round rt h s k)

/-- The error of the last probe when the loop gets to round `k`. -/
def lastError (s : σ) : ℕ → Option ConduitError
  | 0 => none
  | k + 1 =>
    match (probed rt h (round rt h s k)).1 with
    | .ok last => last
    | .error _ => none

/-- How the loop ends with the loop of polls. -/
def conclude (addr : String) (timeout : ℚ) (s : σ) (n : ℕ) :
    Ending (Finding σ) → Except Exn (Option Client) × σ
  | .decided _ (.exited exitCode s') => (crash rt exitCode).eval h s'
  | .decided _ (.answered s') => (.ok (some boundClient), s')
  | .decided _ (.raised e s') => (.error e, s')
  | .expired k =>
    (giveUp rt addr timeout (lastError rt h s k)).eval h (h (round rt h s k) .monotonic).2
  | .polling => (.ok none, round rt h s n)

variable {rt h}

/-! ### The calls of the loop -/

/-- The number of calls that are sent. -/
def sent (xs : List (σ × HostOp)) : ℕ := (xs.filter fun x => x.2.sends).length

theorem sent_append (xs ys : List (σ × HostOp)) : sent (xs ++ ys) = sent xs + sent ys := by
  rw [sent, List.filter_append, List.length_append]
  rfl

/-- An operation that sends nothing. -/
def Silent (o : HostOp) : Prop := o.sends = false

theorem sent_of_only {α : Type} {p : HostM α} (hp : p.Only Silent) (s : σ) :
    sent (p.steps h s) = 0 := by
  rw [sent, List.length_eq_zero_iff, List.filter_eq_nil_iff]
  intro x hx
  rw [hp.steps h hx]
  exact Bool.false_ne_true

/-- What follows without a call adds none. -/
theorem sent_handle {α β : Type} (p : HostM α) {f : Except Exn α → HostM β}
    (hf : ∀ r, (f r).Only Silent) (s : σ) :
    sent ((p.handle f).steps h s) = sent (p.steps h s) := by
  rw [Prog.steps_handle, sent_append, sent_of_only (hf _), Nat.add_zero]

theorem sent_stub (m : Method) (r : Ref) (t : ℚ) (s : σ) :
    sent ((stub m r t).steps h s) = 1 := by
  have hrecv : (performOrRaise (perform (.recv m))).Only Silent :=
    only_performOrRaise (.perform rfl)
  refine (sent_handle _ (fun a => ?_) s).trans rfl
  cases a with
  | ok _ => exact hrecv
  | error e => trivial

theorem sent_call (lib : Codec) (m : Method) (r : Ref) (t : ℚ) (s : σ) :
    sent ((Client.call lib m r t).steps h s) = 1 := by
  refine (sent_handle _ (fun a => ?_) s).trans (sent_stub m r t s)
  cases a with
  | ok _ => trivial
  | error e =>
    cases e with
    | rpc e =>
      have htranslated : (Prog.ofExcept (ConduitError.fromRpcError lib e) :
          HostM ConduitError).Only Silent := trivial
      exact htranslated.bind fun _ => trivial
    | _ => trivial

/-- A probe is one call. -/
theorem sent_probe (s : σ) : sent ((probe rt).steps h s) = 1 := by
  -- neither the message object nor what becomes of the answer is a call
  have hinfo : sent ((Client.getInfo rt.toCodec 1).steps h s) = 1 :=
    sent_call rt.toCodec .getInfo _ 1 _
  refine (sent_handle _ (fun a => ?_) s).trans ((sent_handle _ (fun a => ?_) s).trans hinfo)
  · cases a with
    | ok _ => trivial
    | error e => cases e <;> trivial
  · cases a <;> trivial

/-- The number of calls, by how the loop ends: a round that sees the exit makes none. -/
def calls (n : ℕ) : Ending (Finding σ) → ℕ
  | .decided k (.exited ..) => k
  | .decided k _ => k + 1
  | .expired k => k
  | .polling => n

/-- **The loop is a loop of polls**, from any round that it gets to: in how it ends, and in the
number of calls it has made. -/
theorem probeLoop_rounds (rt : Runtime) (h : σ → (o : HostOp) → HostAns o × σ)
    (addr : String) (timeout deadline : ℚ) (s : σ) (n k : ℕ) :
    (probeLoop rt addr timeout deadline n (lastError rt h s k)).eval h (round rt h s k) =
        conclude rt h addr timeout s (k + n) ((rounds rt h s).run deadline n k) ∧
      k + sent ((probeLoop rt addr timeout deadline n (lastError rt h s k)).steps h
        (round rt h s k)) = calls (k + n) ((rounds rt h s).run deadline n k) := by
  have htail : (logTail rt 4096).Only Silent := only_logTail rt 4096 rfl rfl fun _ => rfl
  have hcrash (exitCode : Int) : (crash rt exitCode).Only Silent :=
    .bind (.perform rfl) fun _ => .bind htail fun _ => trivial
  have hgiveUp (last : Option ConduitError) : (giveUp rt addr timeout last).Only Silent :=
    .bind (.perform rfl) fun _ => .bind htail fun _ => trivial
  -- induction on the iterations that are left
  induction n generalizing k with
  | zero => exact ⟨rfl, rfl⟩
  | succ n ih =>
    rw [probeLoop, Prog.eval_perform_bind, Prog.steps_perform_bind, Polls.run]
    by_cases hnow : (h (round rt h s k) .monotonic).1 < deadline
    · have hcheck : (rounds rt h s).check k < deadline := hnow
      have hverdict : (rounds rt h s).verdict k = finding rt h (round rt h s k) := rfl
      rw [if_pos hnow, if_pos hcheck, Prog.eval_perform_bind, Prog.steps_perform_bind, hverdict,
        finding]
      cases hpoll : (polled h (round rt h s k)).1 with
      | some exitCode =>
        have hpoll' : (h (h (round rt h s k) .monotonic).2 .poll).1 = some exitCode := hpoll
        simp only [hpoll']
        exact ⟨rfl, congrArg (k + ·) (sent_of_only (hcrash exitCode) _)⟩
      | none =>
        have hpoll' : (h (h (round rt h s k) .monotonic).2 .poll).1 = none := hpoll
        have hlook (xs : List (σ × HostOp)) : sent ((round rt h s k, .monotonic) ::
            ((h (round rt h s k) .monotonic).2, .poll) :: xs) = sent xs := rfl
        have hprobe : (probe rt).eval h (h (h (round rt h s k) .monotonic).2 .poll).2 =
            ((probed rt h (round rt h s k)).1, (probed rt h (round rt h s k)).2) := rfl
        have hone : sent ((probe rt).steps h (h (h (round rt h s k) .monotonic).2 .poll).2) = 1 :=
          sent_probe _
        simp only [hpoll']
        rw [hlook]
        cases hprobed : (probed rt h (round rt h s k)).1 with
        | error e =>
          rw [hprobed] at hprobe
          rw [Prog.eval_bind_error (S := Host) h hprobe, Prog.steps_bind_error (S := Host) h hprobe]
          exact ⟨rfl, congrArg (k + ·) hone⟩
        | ok last =>
          rw [hprobed] at hprobe
          rw [Prog.eval_bind_ok (S := Host) h hprobe, Prog.steps_bind_ok (S := Host) h hprobe,
            sent_append, hone]
          cases last with
          | none => exact ⟨rfl, rfl⟩
          | some e =>
            have hlast : lastError rt h s (k + 1) = some e := by rw [lastError, hprobed]
            have hpause : (performOrRaise (perform (.sleep (1 / 10)))).eval h
                (probed rt h (round rt h s k)).2 =
                ((paused rt h (round rt h s k)).1, (paused rt h (round rt h s k)).2) := rfl
            have hsilent : sent ((performOrRaise (perform (.sleep (1 / 10)))).steps h
                (probed rt h (round rt h s k)).2) = 0 := rfl
            show (performOrRaise (perform (.sleep (1 / 10))) >>= fun _ =>
                probeLoop rt addr timeout deadline n (some e)).eval h _ = _ ∧
              k + (1 + sent ((performOrRaise (perform (.sleep (1 / 10))) >>= fun _ =>
                probeLoop rt addr timeout deadline n (some e)).steps h _)) = _
            cases hslept : (paused rt h (round rt h s k)).1 with
            | error e' =>
              rw [hslept] at hpause
              rw [Prog.eval_bind_error (S := Host) h hpause,
                Prog.steps_bind_error (S := Host) h hpause, hsilent]
              exact ⟨rfl, rfl⟩
            | ok _ =>
              rw [hslept] at hpause
              have hrest := ih (k + 1)
              rw [hlast, Nat.add_right_comm k 1 n, Nat.add_assoc k 1] at hrest
              rw [Prog.eval_bind_ok (S := Host) h hpause, Prog.steps_bind_ok (S := Host) h hpause,
                sent_append, hsilent, Nat.zero_add]
              exact hrest
    · have hcheck : ¬ (rounds rt h s).check k < deadline := hnow
      rw [if_neg hnow, if_neg hcheck]
      exact ⟨rfl, congrArg (k + ·) (sent_of_only (hgiveUp _) _)⟩

/-! ### The whole wait -/

/-- The state in which the loop begins. -/
def opened (h : σ → (o : HostOp) → HostAns o × σ) (addr : String) (s : σ) : σ :=
  (h (h s .monotonic).2 (.openChannel addr)).2

theorem eval_waitReady (rt : Runtime) (h : σ → (o : HostOp) → HostAns o × σ) (addr : String)
    (timeout : ℚ) (s : σ) (n : ℕ) :
    (waitReady rt addr timeout n).eval h s = conclude rt h addr timeout (opened h addr s) n
        ((rounds rt h (opened h addr s)).run ((h s .monotonic).1 + timeout) n 0) ∧
      sent ((waitReady rt addr timeout n).steps h s) =
        calls n ((rounds rt h (opened h addr s)).run ((h s .monotonic).1 + timeout) n 0) := by
  have hloop := probeLoop_rounds rt h addr timeout ((h s .monotonic).1 + timeout)
    (opened h addr s) n 0
  rw [Nat.zero_add, Nat.zero_add] at hloop
  exact hloop

/-- What ends with an exception returns nothing. -/
theorem raises_after {p : HostM String} (f : String → Exn) (s : σ) :
    ∃ e, ((perform .closeChannel >>= fun _ => p >>= fun tail =>
      (Prog.raise (f tail) : HostM (Option Client))).eval h s).1 = .error e := by
  rw [Prog.eval_perform_bind]
  cases hp : p.eval h (h s .closeChannel).2 with
  | mk r s' =>
    cases r with
    | ok tail => exact ⟨f tail, by rw [Prog.eval_bind_ok (S := Host) h hp]; rfl⟩
    | error e => exact ⟨e, by rw [Prog.eval_bind_error (S := Host) h hp]⟩

/-- Where the log can be read, the exception shows what was read. -/
theorem giveUp_shows (f : String → Exn) {s s' : σ} {text : String}
    (htail : (logTail rt 4096).eval h (h s .closeChannel).2 = (.ok text, s')) :
    ((perform .closeChannel >>= fun _ => logTail rt 4096 >>= fun tail =>
      (Prog.raise (f tail) : HostM (Option Client))).eval h s) = (.error (f text), s') := by
  rw [Prog.eval_perform_bind, Prog.eval_bind_ok (S := Host) h htail]
  rfl

theorem calls_le_polls (n : ℕ) (e : Ending (Finding σ)) : calls n e ≤ e.polls n := by
  cases e with
  | decided k f =>
    cases f with
    | exited exitCode s => exact Nat.le_succ k
    | answered s => exact le_refl _
    | raised e s => exact le_refl _
  | expired k => exact le_refl _
  | polling => exact le_refl _

/-- Nothing but an answer makes the loop return a client. -/
theorem conclude_ok {addr : String} {timeout : ℚ} {s s' : σ} {n : ℕ} {e : Ending (Finding σ)}
    {client : Option Client} (hend : e ≠ .polling)
    (he : conclude rt h addr timeout s n e = (.ok client, s')) :
    client = some boundClient ∧ ∃ k, e = .decided k (.answered s') := by
  cases e with
  | polling => exact absurd rfl hend
  | expired k =>
    -- whether the log can be read or not, an exception comes out
    obtain ⟨x, hx⟩ := raises_after (h := h) (p := logTail rt 4096)
      (fun tail => .conduit (unreachableError rt addr timeout (lastError rt h s k) tail))
      (h (round rt h s k) .monotonic).2
    have hok := hx.symm.trans (congrArg Prod.fst he)
    cases hok
  | decided k f =>
    cases f with
    | exited exitCode s₁ =>
      obtain ⟨x, hx⟩ := raises_after (h := h) (p := logTail rt 4096)
        (fun tail => .conduit (crashedError exitCode tail)) s₁
      have hok := hx.symm.trans (congrArg Prod.fst he)
      cases hok
    | answered s₁ =>
      obtain ⟨hclient, rfl⟩ := Prod.mk.inj he
      exact ⟨(Except.ok.inj hclient).symm, k, rfl⟩
    | raised x s₁ => cases he

/-- **The first round that decides.** In any deterministic environment: the wait returns a client
if and only if some round before the deadline finds the subprocess running and the API answering,
and no round before it has ended the wait. It raises `client.engine_crashed`, with that exit code
and the log as it is then, when the first decisive round finds the subprocess exited; and
`client.engine_unreachable`, with the error of the last probe, when there is none before the
deadline. One `GetInfo` is sent in every round that finds the subprocess running, and none
afterwards. If every round takes at least as long as its pause, the wait ends, after at most
ten probes for each second of `startup_timeout`. -/
theorem waitReady_first_decisive (rt : Runtime) (h : σ → (o : HostOp) → HostAns o × σ)
    (addr : String) (timeout : ℚ) (s : σ) :
    (∀ n s', (waitReady rt addr timeout n).eval h s = (.ok (some boundClient), s') ↔
      ∃ k < n, (rounds rt h (opened h addr s)).Decides ((h s .monotonic).1 + timeout) k
        (.answered s')) ∧
    (∀ n, ∀ k < n, ∀ exitCode s', (rounds rt h (opened h addr s)).Decides
        ((h s .monotonic).1 + timeout) k (.exited exitCode s') →
      (waitReady rt addr timeout n).eval h s = (crash rt exitCode).eval h s' ∧
        (∀ text s'', (logTail rt 4096).eval h (h s' .closeChannel).2 = (.ok text, s'') →
          (waitReady rt addr timeout n).eval h s = (.error (.conduit
            { code := "client.engine_crashed"
              message := "conduit subprocess exited (code " ++ toString exitCode ++
                ") before its API became ready. Log tail:\n" ++ text }), s'')) ∧
        sent ((waitReady rt addr timeout n).steps h s) = k) ∧
    (∀ n, ∀ k < n, (rounds rt h (opened h addr s)).Expires ((h s .monotonic).1 + timeout) k →
      (waitReady rt addr timeout n).eval h s =
          (giveUp rt addr timeout (lastError rt h (opened h addr s) k)).eval h
            (h (round rt h (opened h addr s) k) .monotonic).2 ∧
        (∀ text s'', (logTail rt 4096).eval h
            (h (h (round rt h (opened h addr s) k) .monotonic).2 .closeChannel).2 =
              (.ok text, s'') →
          (waitReady rt addr timeout n).eval h s = (.error (.conduit
            { code := "client.engine_unreachable"
              message := "conduit subprocess did not become reachable at " ++ addr ++
                " within " ++ rt.seconds timeout ++ "s (last error: " ++
                (lastError rt h (opened h addr s) k).elim "None" ConduitError.toStr ++
                "). Log tail:\n" ++ text }), s'')) ∧
        sent ((waitReady rt addr timeout n).steps h s) = k) ∧
    (∀ n, ∀ k < n, ∀ s', (rounds rt h (opened h addr s)).Decides
        ((h s .monotonic).1 + timeout) k (.answered s') →
      sent ((waitReady rt addr timeout n).steps h s) = k + 1) ∧
    ((h s .monotonic).1 ≤ (rounds rt h (opened h addr s)).check 0 →
      (∀ k, (rounds rt h (opened h addr s)).check k + 1 / 10 ≤
        (rounds rt h (opened h addr s)).check (k + 1)) →
      ((waitReady rt addr timeout (⌈timeout / (1 / 10)⌉₊ + 1)).eval h s).1 ≠ .ok none ∧
        ∀ n, sent ((waitReady rt addr timeout n).steps h s) ≤ ⌈timeout / (1 / 10)⌉₊) := by
  have heval (n : ℕ) := eval_waitReady rt h addr timeout s n
  refine ⟨fun n s' => ?_, fun n k hk exitCode s' hd => ?_, fun n k hk he => ?_,
    fun n k hk s' hd => ?_, fun hstart hstep => ?_⟩
  · rw [(heval n).1]
    constructor
    · -- a client comes out of an answer only, and the round that gave it is the first decisive one
      intro he
      have hend : (rounds rt h (opened h addr s)).run ((h s .monotonic).1 + timeout) n 0 ≠
          .polling := by
        intro hp
        rw [hp] at he
        cases he
      obtain ⟨-, k, hrun⟩ := conclude_ok hend he
      obtain ⟨hk, hd⟩ := Polls.run_eq_decided_iff.mp hrun
      exact ⟨k, hk, hd⟩
    · rintro ⟨k, hk, hd⟩
      rw [Polls.run_eq_decided_iff.mpr ⟨hk, hd⟩]
      rfl
  · -- the subprocess has exited, and the log is read as it is then
    rw [(heval n).1, (heval n).2, Polls.run_eq_decided_iff.mpr ⟨hk, hd⟩]
    exact ⟨rfl, fun text s'' htail => giveUp_shows _ htail, rfl⟩
  · -- the time is over, and the last probe is the one of the round before
    rw [(heval n).1, (heval n).2, Polls.run_eq_expired_iff.mpr ⟨hk, he⟩]
    exact ⟨rfl, fun text s'' htail => giveUp_shows _ htail, rfl⟩
  · rw [(heval n).2, Polls.run_eq_decided_iff.mpr ⟨hk, hd⟩]
    rfl
  · -- the time for the rounds is the timeout, wherever the clock stands
    have hspan : (h s .monotonic).1 + timeout - (h s .monotonic).1 = timeout := by ring
    have hten : (0 : ℚ) < 1 / 10 := by norm_num
    have hends := Polls.run_ne_polling ((h s .monotonic).1 + timeout) hten hstart hstep
    have hpolls := Polls.polls_le_ceil ((h s .monotonic).1 + timeout) hten hstart hstep
    rw [hspan] at hends hpolls
    refine ⟨fun hnone => ?_, fun n => ?_⟩
    · rw [(heval _).1] at hnone
      obtain ⟨hclient, -⟩ := conclude_ok hends (Prod.ext hnone rfl)
      cases hclient
    · rw [(heval n).2]
      exact (calls_le_polls n _).trans (hpolls n)

end Rounds

/-- An engine that refuses the first probe and answers the second. -/
def startingUp : Script where
  reply
    | 0, .getInfo => .error ⟨"failed to connect to all addresses", none⟩
    | _, m => obliging.reply 0 m
  clock k := k / 10

theorem waitReady_startingUp :
    ∃ s', (waitReady plainRuntime (address 50051) 10 2).eval startingUp.handle newSession =
        (.ok (some boundClient), s') ∧
      sent ((waitReady plainRuntime (address 50051) 10 2).steps startingUp.handle newSession) =
        2 := by
  obtain ⟨hok, -, -, hsent, -⟩ := waitReady_first_decisive plainRuntime startingUp.handle
    (address 50051) 10 newSession
  have hfirst : (rounds plainRuntime startingUp.handle
      (opened startingUp.handle (address 50051) newSession)).check 0 <
        (startingUp.handle newSession .monotonic).1 + 10 := by decide +kernel
  have hsecond : (rounds plainRuntime startingUp.handle
      (opened startingUp.handle (address 50051) newSession)).check 1 <
        (startingUp.handle newSession .monotonic).1 + 10 := by decide +kernel
  have hpending : (rounds plainRuntime startingUp.handle
      (opened startingUp.handle (address 50051) newSession)).verdict 0 = none :=
    Option.isNone_iff_eq_none.mp (by decide +kernel)
  -- the pause changes nothing in this world
  have hround : round plainRuntime startingUp.handle
      (opened startingUp.handle (address 50051) newSession) 1 =
        (probed plainRuntime startingUp.handle
          (opened startingUp.handle (address 50051) newSession)).2 :=
    congrArg Prod.snd (if_pos (by norm_num))
  have hanswered : (rounds plainRuntime startingUp.handle
      (opened startingUp.handle (address 50051) newSession)).verdict 1 =
        some (.answered (probed plainRuntime startingUp.handle (probed plainRuntime
          startingUp.handle (opened startingUp.handle (address 50051) newSession)).2).2) :=
    (congrArg (finding plainRuntime startingUp.handle) hround).trans rfl
  have hmade : (rounds plainRuntime startingUp.handle
      (opened startingUp.handle (address 50051) newSession)).Made
        ((startingUp.handle newSession .monotonic).1 + 10) 1 := by
    refine ⟨fun j hj => ?_, hsecond⟩
    obtain rfl : j = 0 := Nat.lt_one_iff.mp hj
    exact ⟨hfirst, hpending⟩
  exact ⟨_, (hok 2 _).mpr ⟨1, Nat.one_lt_two, hmade, hanswered⟩,
    hsent 2 1 Nat.one_lt_two _ ⟨hmade, hanswered⟩⟩

end LocalConduit

end Conduit
