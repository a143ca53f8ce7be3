import ConduitClient.Effect.Relate
import ConduitClient.Usage

/-!
# A client without a memory

"Every method here re-issues a fresh RPC rather than caching state client-side." The session of
a client grows: message objects, RPCs, readings of the clock. `Shift past` relates a session
to one of a client that has only just been connected, when `past` is all that the first one
has behind it. Each operation of the library is simulated across this relation, so that it
neither reads nor changes anything of the past (`ClientOp.stateless`).
-/

namespace Conduit

open Effect

/-- The script as a client finds it that has not taken part in `past`. -/
def Script.later (script : Script) (past : Session) : Script where
  reply k := script.reply (past.trace.length + k)
  clock j := script.clock (past.ticks + j)

/-- `s` is `t` with `past` in front of it. -/
structure Shift (past s t : Session) : Prop where
  heap : s.heap = past.heap ++ t.heap
  trace : s.trace = past.trace ++ t.trace
  channelOpen : s.channelOpen = t.channelOpen
  closed : s.closed = t.closed
  refused : s.refused = past.refused + t.refused
  ticks : s.ticks = past.ticks + t.ticks
  badSleeps : s.badSleeps = past.badSleeps + t.badSleeps

/-- A client whose flags are those of `past`, and that has nothing behind it. -/
def Session.fresh (past : Session) : Session :=
  { channelOpen := past.channelOpen, closed := past.closed }

theorem Shift.fresh (past : Session) : Shift past past past.fresh where
  heap := (List.append_nil _).symm
  trace := (List.append_nil _).symm
  channelOpen := rfl
  closed := rfl
  refused := rfl
  ticks := rfl
  badSleeps := rfl

variable (script : Script) (past : Session) {α β : Type}

/-- A program, and the same program of a client without the past. -/
abbrev Sim (p : HostM α) (q : HostM β) (V : α → β → Prop) : Prop :=
  Prog.Sim script.handle (script.later past).handle (Shift past) p q V

/-- References to the same object. -/
def SameRef (r r' : Ref) : Prop := r = past.heap.length + r'

variable {script past}

/-! ### The operations -/

theorem sim_new (m : Message) :
    Sim script past (perform (.new m)) (perform (.new m)) (SameRef past) := by
  refine .perform fun s t hs => ⟨?_, { hs with heap := ?_ }⟩
  · show s.heap.length = past.heap.length + t.heap.length
    rw [hs.heap, List.length_append]
  · show s.heap ++ [m] = past.heap ++ (t.heap ++ [m])
    rw [hs.heap, List.append_assoc]

/-- A change behind the first part of a list. -/
theorem modify_append_right {γ : Type} (f : γ → γ) (xs ys : List γ) (i : ℕ) :
    (xs ++ ys).modify (xs.length + i) f = xs ++ ys.modify i f := by
  induction xs with
  | nil => rw [List.nil_append, List.nil_append, List.length_nil, Nat.zero_add]
  | cons x xs ih =>
    rw [List.length_cons, Nat.add_right_comm, List.cons_append, List.modify_succ_cons, ih,
      List.cons_append]

/-- An assignment does not reach the objects of the past. -/
theorem sim_assign {r r' : Ref} (hr : SameRef past r r') (a : Assignment) :
    Sim script past (perform (.assign r a)) (perform (.assign r' a)) Eq := by
  refine .perform fun s t hs => ⟨rfl, { hs with heap := ?_ }⟩
  show s.heap.modify r (·.assign a) = past.heap ++ t.heap.modify r' (·.assign a)
  rw [hs.heap, hr]
  exact modify_append_right _ _ _ _

theorem sim_monotonic : Sim script past (perform .monotonic) (perform .monotonic) Eq := by
  refine .perform fun s t hs => ⟨?_, { hs with ticks := ?_ }⟩
  · show script.clock s.ticks = script.clock (past.ticks + t.ticks)
    rw [hs.ticks]
  · show s.ticks + 1 = past.ticks + (t.ticks + 1)
    rw [hs.ticks, Nat.add_assoc]

theorem sim_sleep (d : ℚ) :
    Sim script past (performOrRaise (perform (.sleep d))) (performOrRaise (perform (.sleep d)))
      Eq := by
  refine Prog.Sim.bind (V := Eq) (.perform fun s t hs => ?_) fun a b hab => ?_
  · by_cases hd : 0 ≤ d
    · rw [Script.handle, Script.handle, if_pos hd, if_pos hd]
      exact ⟨rfl, hs⟩
    · rw [Script.handle, Script.handle, if_neg hd, if_neg hd]
      refine ⟨rfl, { hs with badSleeps := ?_ }⟩
      show s.badSleeps + 1 = past.badSleeps + (t.badSleeps + 1)
      rw [hs.badSleeps, Nat.add_assoc]
  · exact .ofExcept (outcome_eq_iff.mpr hab)

/-- A stub call on an open channel. -/
theorem eval_stub_open (script : Script) {s : Session} (h : s.channelOpen = true) (m : Method)
    (r : Ref) (timeout : ℚ) :
    (stub m r timeout).eval script.handle s =
      ((script.reply s.trace.length m).mapError Exn.rpc,
        { s with trace := s.trace ++ [⟨m, s.heap.getD r .getInfo⟩] }) := by
  have hsend : (performOrRaise (perform (.send m r timeout))).eval script.handle s =
      (.ok (), { s with trace := s.trace ++ [⟨m, s.heap.getD r .getInfo⟩] }) := by
    rw [performOrRaise, Prog.eval_perform_bind, Script.handle, if_pos h]
    rfl
  have hlast : (s.trace ++ [(⟨m, s.heap.getD r .getInfo⟩ : Rpc)]).length - 1 = s.trace.length := by
    rw [List.length_append, List.length_singleton, Nat.add_sub_cancel]
  rw [stub, Prog.eval_bind_ok _ hsend, performOrRaise, Prog.eval_perform_bind, Script.handle,
    hlast]
  rfl

theorem eval_stub_closed (script : Script) {s : Session} (h : s.channelOpen = false) (m : Method)
    (r : Ref) (timeout : ℚ) :
    (stub m r timeout).eval script.handle s =
      (.error closedChannel, { s with refused := s.refused + 1 }) := by
  have hclosed : ¬ s.channelOpen = true := by rw [h]; exact Bool.false_ne_true
  refine Prog.eval_bind_error _ ?_
  rw [performOrRaise, Prog.eval_perform_bind, Script.handle, if_neg hclosed]
  rfl

theorem sim_stub (m : Method) {r r' : Ref} (hr : SameRef past r r') (timeout : ℚ) :
    Sim script past (stub m r timeout) (stub m r' timeout) Eq := by
  refine .of_eval fun s t hs => ?_
  -- both channels are open or both are closed
  have hopen := hs.channelOpen
  cases ht : t.channelOpen with
  | false =>
    rw [ht] at hopen
    refine ⟨_, _, _, _, eval_stub_closed script hopen m r timeout,
      eval_stub_closed _ ht m r' timeout, rfl, { hs with refused := ?_ }⟩
    show s.refused + 1 = past.refused + (t.refused + 1)
    rw [hs.refused, Nat.add_assoc]
  | true =>
    rw [ht] at hopen
    refine ⟨_, _, _, _, eval_stub_open script hopen m r timeout, eval_stub_open _ ht m r' timeout,
      ?_, { hs with trace := ?_ }⟩
    · -- the server's script goes on where the past has left it
      rw [outcome_eq_iff]
      show (script.reply s.trace.length m).mapError _ =
        (script.reply (past.trace.length + t.trace.length) m).mapError _
      rw [hs.trace, List.length_append]
    · -- the message is the same object
      have hget : s.heap.getD r .getInfo = t.heap.getD r' .getInfo := by
        rw [hs.heap, hr, List.getD_eq_getElem?_getD, List.getD_eq_getElem?_getD,
          List.getElem?_append_right (Nat.le_add_right _ _), Nat.add_sub_cancel_left]
      show s.trace ++ [⟨m, s.heap.getD r .getInfo⟩] =
        past.trace ++ (t.trace ++ [⟨m, t.heap.getD r' .getInfo⟩])
      rw [hget, hs.trace, List.append_assoc]

/-! ### The parts of the client -/

section Client

variable (rt : Runtime)

theorem sim_call (m : Method) {r r' : Ref} (hr : SameRef past r r') (timeout : ℚ) :
    Sim script past (Client.call rt.toCodec m r timeout) (Client.call rt.toCodec m r' timeout)
      Eq := by
  refine (sim_stub m hr timeout).tryCatch fun e => ?_
  cases e with
  | rpc e =>
    refine Prog.Sim.bind (V := Eq) (.ofExcept (outcome_eq_iff.mpr rfl)) fun err err' he => ?_
    rw [he]
    exact .raise _
  | _ => exact .raise _

theorem sim_getInfo (timeout : ℚ) :
    Sim script past (Client.getInfo rt.toCodec timeout) (Client.getInfo rt.toCodec timeout) Eq :=
  (sim_new .getInfo).bind fun _ _ hr => sim_call rt .getInfo hr timeout

theorem sim_stop (run : Run) (force : Bool) (timeout : ℚ) :
    Sim script past (run.stop rt force timeout) (run.stop rt force timeout) Eq :=
  (sim_new _).bind fun _ _ hr => sim_call rt .stopPipeline hr timeout

theorem sim_status (run : Run) (timeout : ℚ) :
    Sim script past (run.status rt timeout) (run.status rt timeout) Eq := by
  refine (sim_new _).bind fun _ _ hr => (sim_call rt .getPipeline hr timeout).bind ?_
  rintro st _ rfl
  exact .ofExcept (outcome_eq_iff.mpr rfl)

theorem sim_waitLoop (run : Run) (timeout deadline pollInterval : ℚ) (n : ℕ)
    (last : Option RunStatus) :
    Sim script past (run.waitLoop rt timeout deadline pollInterval n last)
      (run.waitLoop rt timeout deadline pollInterval n last) Eq := by
  -- induction on the rounds, which both clients go through together
  induction n generalizing last with
  | zero => exact .pure rfl
  | succ n ih =>
    unfold Run.waitLoop
    refine sim_monotonic.bind ?_
    rintro now _ rfl
    by_cases hnow : now < deadline
    · rw [if_pos hnow]
      refine (sim_status rt run 5).bind ?_
      rintro status _ rfl
      cases status.isRunning with
      | true => exact .pure rfl
      | false =>
        cases status.isDegraded with
        | true => exact .raise _
        | false => exact (sim_sleep pollInterval).bind fun _ _ _ => ih _
    · rw [if_neg hnow]
      exact .raise _

theorem sim_waitRunning (run : Run) (timeout pollInterval : ℚ) (n : ℕ) :
    Sim script past (run.waitRunning rt timeout pollInterval n)
      (run.waitRunning rt timeout pollInterval n) Eq := by
  refine sim_monotonic.bind ?_
  rintro now _ rfl
  exact sim_waitLoop rt run _ _ _ n none

/-- References to the same objects. -/
structure SamePlan (past : Session) (plan plan' : BuildPlan) : Prop where
  createPipeline : SameRef past plan.createPipeline plan'.createPipeline
  createConnectors : List.Forall₂ (SameRef past) plan.createConnectors plan'.createConnectors
  createProcessors : List.Forall₂ (SameRef past) plan.createProcessors plan'.createProcessors
  dlq : List.Forall₂ (SameRef past) plan.dlq.toList plan'.dlq.toList

theorem sim_newMessage (m : Except Exn Message) :
    Sim script past (newMessage m) (newMessage m) (SameRef past) := by
  refine Prog.Sim.bind (V := Eq) (.ofExcept (outcome_eq_iff.mpr rfl)) ?_
  rintro m _ rfl
  exact sim_new m

theorem sim_newEach {γ : Type} (f : γ → Except Exn Message) (as : List γ) :
    Sim script past (newEach f as) (newEach f as) (List.Forall₂ (SameRef past)) :=
  .collect (fun a => sim_newMessage (f a)) as

theorem sim_buildRequests (p : Pipeline) :
    Sim script past p.buildRequests p.buildRequests (SamePlan past) := by
  refine (sim_newMessage _).bind fun r r' hr => ?_
  refine (sim_newEach _ _).bind fun cs cs' hcs => ?_
  refine (sim_newEach _ _).bind fun ps ps' hps => ?_
  cases p.dlq with
  | none => exact .pure ⟨hr, hcs, hps, .nil⟩
  | some d =>
    exact (sim_newMessage _).bind fun q q' hq => .pure ⟨hr, hcs, hps, .cons hq .nil⟩

theorem sim_submit (timeout : ℚ) (m : Method) (assignments : List Assignment) {r r' : Ref}
    (hr : SameRef past r r') :
    Sim script past (Client.submit rt.toCodec timeout m assignments r)
      (Client.submit rt.toCodec timeout m assignments r') Eq := by
  have hsame : List.Forall₂ Eq assignments assignments := List.forall₂_eq_eq_eq ▸ rfl
  refine Prog.Sim.bind (V := Eq) (.forEach (R := Eq) ?_ hsame) fun _ _ _ =>
    (sim_call rt m hr timeout).bind fun _ _ _ => .pure rfl
  rintro a _ rfl
  exact sim_assign hr a

theorem sim_submitAll {plan plan' : BuildPlan} (hplan : SamePlan past plan plan') (pid : String)
    (start : Bool) (timeout : ℚ) :
    Sim script past (Client.submitAll rt.toCodec plan pid start timeout)
      (Client.submitAll rt.toCodec plan' pid start timeout) Eq := by
  refine Prog.Sim.bind (V := Eq) (.forEach (fun _ _ hr => sim_submit rt timeout _ _ hr)
    hplan.createConnectors) fun _ _ _ => ?_
  refine Prog.Sim.bind (V := Eq) (.forEach (fun _ _ hr => sim_submit rt timeout _ _ hr)
    hplan.createProcessors) fun _ _ _ => ?_
  refine Prog.Sim.bind (V := Eq) (.forEach (fun _ _ hr => sim_submit rt timeout _ _ hr)
    hplan.dlq) fun _ _ _ => ?_
  cases start with
  | false => exact .pure rfl
  | true => exact (sim_new _).bind fun _ _ hr => sim_submit rt timeout _ _ hr

theorem sim_run (p : Pipeline) (start : Bool) (timeout : ℚ) :
    Sim script past (Client.run rt.toCodec p start timeout)
      (Client.run rt.toCodec p start timeout) Eq := by
  -- the two plans refer to messages at different places of two heaps
  refine (sim_buildRequests p).bind fun plan plan' hplan => ?_
  refine (sim_call rt .createPipeline hplan.createPipeline timeout).bind ?_
  rintro pid _ rfl
  refine Prog.Sim.bind (V := Eq) ((sim_submitAll rt hplan pid start timeout).tryCatch fun e => ?_)
    fun _ _ _ => .pure rfl
  cases e <;> exact .raise _

end Client

theorem sim_close : Sim script past (Client.close ⟨none⟩) (Client.close ⟨none⟩) Eq := by
  refine Prog.Sim.bind (V := Eq) (.perform fun s t hs => ⟨hs.closed, hs⟩) ?_
  rintro b _ rfl
  cases b with
  | true => exact .pure rfl
  | false =>
    refine Prog.Sim.bind (V := Eq) (.perform fun s t hs => ⟨rfl, { hs with closed := rfl }⟩)
      fun _ _ _ => ?_
    exact Prog.Sim.bind (V := Eq)
      (.perform fun s t hs => ⟨rfl, { hs with channelOpen := rfl }⟩) fun _ _ _ => .pure rfl

/-! ### The operations of a client -/

namespace ClientOp

/-- What an operation returns. -/
def Value : ClientOp → Type
  | run .. => Run
  | getInfo _ => Info
  | status .. => RunStatus
  | waitRunning .. => Waited
  | stop .. | close => Unit

/-- An operation, with the value it returns. -/
def act (rt : Runtime) : (op : ClientOp) → HostM op.Value
  | run b start timeout => Client.run rt.toCodec b.pipeline start timeout
  | getInfo timeout => Client.getInfo rt.toCodec timeout
  | status r timeout => r.status rt timeout
  | waitRunning r timeout pollInterval n => r.waitRunning rt timeout pollInterval n
  | stop r force timeout => r.stop rt force timeout
  | close => Client.close ⟨none⟩

theorem sim_act (rt : Runtime) (op : ClientOp) : Sim script past (op.act rt) (op.act rt) Eq := by
  cases op with
  | run b start timeout => exact sim_run rt b.pipeline start timeout
  | getInfo timeout => exact sim_getInfo rt timeout
  | status r timeout => exact sim_status rt r timeout
  | waitRunning r timeout pollInterval n => exact sim_waitRunning rt r timeout pollInterval n
  | stop r force timeout => exact sim_stop rt r force timeout
  | close => exact sim_close

variable (rt : Runtime) (script : Script)

/-- The operation, performed by a client with nothing behind it, from where `s` is. -/
def alone (op : ClientOp) (s : Session) : Except Exn op.Value × Session :=
  (op.act rt).eval (script.later s).handle s.fresh

/-- What the operations of a session issue when each is performed alone. -/
def issuedAlone : Session → List ClientOp → List Rpc
  | _, [] => []
  | s, op :: ops => (op.alone rt script s).2.trace ++ issuedAlone (op.exec rt script s).2 ops

/-- The value of an operation does not matter to the session. -/
theorem exec_act (op : ClientOp) (s : Session) :
    (op.exec rt script s).2 = ((op.act rt).eval script.handle s).2 := by
  cases op with
  | stop r force timeout => rfl
  | close => rfl
  | _ => exact congrArg Prod.snd (eval_discard _)

/-- **No operation has a memory.** In every state of a session, however many operations it has
behind it, an operation has the outcome that it has for a client with nothing behind it: the
past counts only by whether the channel is still open. It issues the same RPCs, and leaves the
message objects and the RPCs of the past as they are. So the trace of any session is what its
operations issue alone, one after the other. -/
theorem stateless (ops : List ClientOp) (s : Session) :
    (∀ op : ClientOp, ((op.act rt).eval script.handle s).1 = (op.alone rt script s).1 ∧
      Shift s ((op.act rt).eval script.handle s).2 (op.alone rt script s).2) ∧
    (after rt script s ops).trace = s.trace ++ issuedAlone rt script s ops := by
  have hsim (op : ClientOp) (s : Session) : Sim script s (op.act rt) (op.act rt) Eq := sim_act rt op
  have hop (op : ClientOp) (s : Session) := hsim op s s s.fresh (.fresh s)
  refine ⟨fun op => ⟨outcome_eq_iff.mp (hop op s).1, (hop op s).2⟩, ?_⟩
  -- induction on the operations, from the session that the first one leaves
  induction ops generalizing s with
  | nil => exact (List.append_nil _).symm
  | cons op ops ih =>
    show (after rt script (op.exec rt script s).2 ops).trace =
      s.trace ++ ((op.alone rt script s).2.trace ++
        issuedAlone rt script (op.exec rt script s).2 ops)
    rw [ih, exec_act, (hop op s).2.trace, List.append_assoc]
    rfl

end ClientOp

end Conduit
