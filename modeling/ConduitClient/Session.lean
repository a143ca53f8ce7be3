import ConduitClient.Plan
import ConduitClient.Run

/-!
# A client against a scripted server

The deterministic world of one client: the message objects it has built, the RPCs it has
issued, and a `Script` that fixes the outcome of every RPC and every reading of the clock by
its position. Quantifying over scripts is quantifying over every assignment of outcomes. Clock
readings are exact rationals, and only a negative sleep is refused, not an overlong one.

The lemmas of this file say what each part of the client does in that world. The plan is
constructed before anything is sent (`eval_buildRequests`), a call appends one RPC to the
trace and has the scripted outcome (`eval_call`), and the submission of a plan goes as far
along its list of RPCs as `Script.submit` (`eval_submitAll`, `eval_run`).
-/

namespace Conduit

open Effect

/-- The outcomes of the RPCs of a client, and the readings of its clock, by position. -/
structure Script where
  reply : Nat → (m : Method) → Except RpcError (Response m)
  clock : Nat → ℚ

/-- The state of a client's world. -/
structure Session where
  /-- The message objects, by reference. -/
  heap : List Message := []
  /-- The RPCs issued. -/
  trace : List Rpc := []
  channelOpen : Bool := true
  /-- `Client._closed` -/
  closed : Bool := false
  /-- Stub calls on a closed channel; grpc refuses them. -/
  refused : Nat := 0
  /-- Readings of the clock. -/
  ticks : Nat := 0
  /-- Calls of `time.sleep` with a negative number; the runtime refuses them. -/
  badSleeps : Nat := 0

/-- A client that has just been connected. -/
def newSession : Session := {}

/-- What grpc raises for a stub call on a closed channel. -/
def closedChannel : Exn := .value "Cannot invoke RPC on closed channel!"

/-- What the runtime raises for a negative `time.sleep`. -/
def negativeSleep : Exn := .value "sleep length must be non-negative"

/-- There is no local engine behind a scripted client. -/
def noEngine : Exn := .os "no local engine"

/-- How the scripted world answers. -/
def Script.handle (script : Script) (s : Session) : (o : HostOp) → HostAns o × Session
  | .new m => (s.heap.length, { s with heap := s.heap ++ [m] })
  | .assign r a => ((), { s with heap := s.heap.modify r (·.assign a) })
  | .send m r _ =>
    if s.channelOpen then
      (.ok (), { s with trace := s.trace ++ [⟨m, s.heap.getD r .getInfo⟩] })
    else (.error closedChannel, { s with refused := s.refused + 1 })
  | .recv m => ((script.reply (s.trace.length - 1) m).mapError Exn.rpc, s)
  | .getAttr .closed => (s.closed, s)
  | .getAttr .stopped => (false, s)
  | .setAttr .closed b => ((), { s with closed := b })
  | .setAttr .stopped _ => ((), s)
  | .openChannel _ => ((), { s with channelOpen := true })
  | .closeChannel => ((), { s with channelOpen := false })
  | .monotonic => (script.clock s.ticks, { s with ticks := s.ticks + 1 })
  | .sleep d =>
    if 0 ≤ d then (.ok (), s)
    else (.error negativeSleep, { s with badSleeps := s.badSleeps + 1 })
  | .ensureBinary _ => (.error noEngine, s)
  | .bindFreePort => (.error noEngine, s)
  | .releasePort _ => ((), s)
  | .openLog => (.error noEngine, s)
  | .closeLog => (.ok (), s)
  | .openLogForReading => (.error noEngine, s)
  | .logSize => (.error noEngine, s)
  | .readLogFrom _ => (.error noEngine, s)
  | .spawn _ => (.error noEngine, s)
  | .registerAtexit => ((), s)
  | .poll => (none, s)
  | .signal _ => ((), s)
  | .wait _ => (.error noEngine, s)

/-! ### One call -/

variable {lib : Codec} {script : Script} {s : Session}

/-- A call on an open channel issues one RPC and has its scripted outcome. -/
theorem eval_call (lib : Codec) (script : Script) (m : Method) (t : ℚ) {r : Ref} {msg : Message}
    (hopen : s.channelOpen = true) (hr : s.heap[r]? = some msg) :
    (Client.call lib m r t).eval script.handle s =
      ((script.reply s.trace.length m).mapError (translated lib),
        { s with trace := s.trace ++ [⟨m, msg⟩] }) := by
  simp only [Client.call, stub, performOrRaise, Prog.tryCatch, perform, Prog.perform,
    Prog.bind_def, Prog.handle_op, Prog.handle_done, Prog.eval_op, Prog.onOk_ok, Script.handle,
    hopen, if_true, Prog.ofExcept, List.getD_eq_getElem?_getD, hr, Option.getD_some,
    List.length_append, List.length_cons, List.length_nil, Nat.zero_add, Nat.add_sub_cancel]
  cases script.reply s.trace.length m with
  | ok resp => rfl
  | error e =>
    cases ht : ConduitError.fromRpcError lib e <;>
      simp [Except.mapError, Prog.raise, translated, ht]

/-- A call on a closed channel raises what grpc raises, and issues nothing. -/
theorem eval_call_closed (m : Method) (r : Ref) (t : ℚ) (hopen : s.channelOpen = false) :
    (Client.call lib m r t).eval script.handle s =
      (.error closedChannel, { s with refused := s.refused + 1 }) := by
  simp only [Client.call, stub, performOrRaise, Prog.tryCatch, perform, Prog.perform,
    Prog.bind_def, Prog.handle_op, Prog.handle_done, Prog.eval_op, Prog.onOk_ok, Script.handle,
    hopen, Bool.false_eq_true, if_false, Prog.ofExcept]
  rfl

/-! ### Building the plan -/

theorem eval_new (m : Message) :
    (perform (.new m)).eval script.handle s =
      (.ok s.heap.length, { s with heap := s.heap ++ [m] }) := rfl

theorem eval_newMessage (m : Message) :
    (newMessage (.ok m)).eval script.handle s =
      (.ok s.heap.length, { s with heap := s.heap ++ [m] }) := rfl

theorem eval_newMessage_error (e : Exn) :
    (newMessage (.error e)).eval script.handle s = (.error e, s) := rfl

/-- Constructing a list of messages puts them at the end of the heap, in order. -/
theorem eval_newEach {α : Type} (f : α → Except Exn Message) (as : List α) (ms : List Message)
    (h : as.mapM f = .ok ms) :
    (newEach f as).eval script.handle s =
      (.ok (List.range' s.heap.length ms.length), { s with heap := s.heap ++ ms }) := by
  -- induction on the list; the next reference is the length of the heap
  induction as generalizing s ms with
  | nil => simp [newEach, mapM_nil_ok h]
  | cons a as ih =>
    obtain ⟨m, ms', ha, has, rfl⟩ := mapM_cons_ok h
    unfold newEach at ih ⊢
    rw [Prog.collect_cons, ha, Prog.eval_bind_ok _ (eval_newMessage m),
      Prog.eval_bind_ok _ (ih ms' has)]
    simp [List.range'_succ]

/-- A constructor that raises leaves the trace as it is. -/
theorem eval_newEach_error {α : Type} (script : Script) (f : α → Except Exn Message)
    (as : List α) {e : Exn} (h : as.mapM f = .error e) :
    ∃ heap, (newEach f as).eval script.handle s = (.error e, { s with heap := heap }) := by
  induction as generalizing s with
  | nil => simp [pure, Except.pure] at h
  | cons a as ih =>
    unfold newEach at ih ⊢
    rw [Prog.collect_cons]
    rcases mapM_cons_error h with ha | ⟨m, ha, has⟩
    · rw [ha]
      exact ⟨s.heap, Prog.eval_bind_error _ (eval_newMessage_error e)⟩
    · -- the messages before it have been constructed
      obtain ⟨heap, hh⟩ := ih (s := { s with heap := s.heap ++ [m] }) has
      refine ⟨heap, ?_⟩
      rw [ha, Prog.eval_bind_ok _ (eval_newMessage m), Prog.eval_bind_error _ hh]

namespace Payloads

variable (pl : Payloads) (pid : String)

/-- The requests after the first as they are constructed, in send order. -/
def resources : List Message :=
  pl.connectors.map .createConnector ++ pl.processors.map .createProcessor ++
    pl.dlq.toList.map .updateDLQ

/-- The plan whose messages stand in the heap from `b` on. -/
def plan (b : Ref) : BuildPlan where
  createPipeline := b
  createConnectors := List.range' (b + 1) pl.connectors.length
  createProcessors := List.range' (b + 1 + pl.connectors.length) pl.processors.length
  dlq := pl.dlq.map fun _ => b + 1 + pl.connectors.length + pl.processors.length

end Payloads

theorem mapM_map_of_ok {α β γ : Type} {f : α → Except Exn β} {as : List α} {bs : List β}
    (g : β → γ) (h : as.mapM f = .ok bs) :
    as.mapM (fun a => (f a).map g) = .ok (bs.map g) := by
  induction as generalizing bs with
  | nil => exact mapM_nil_ok h ▸ rfl
  | cons a as ih =>
    obtain ⟨b, bs', ha, has, rfl⟩ := mapM_cons_ok h
    rw [List.mapM_cons, ha, ih has]
    rfl

theorem mapM_map_of_error {α β γ : Type} {f : α → Except Exn β} {as : List α} {e : Exn}
    (g : β → γ) (h : as.mapM f = .error e) :
    as.mapM (fun a => (f a).map g) = .error e := by
  induction as with
  | nil => simp [pure, Except.pure] at h
  | cons a as ih =>
    rw [List.mapM_cons]
    rcases mapM_cons_error h with ha | ⟨b, ha, has⟩
    · rw [ha]
      rfl
    · rw [ha, ih has]
      rfl

/-- A builder whose payloads can all be built yields their plan, and sends nothing. -/
theorem eval_buildRequests {p : Pipeline} {pl : Payloads} (h : p.payloads = .ok pl) :
    p.buildRequests.eval script.handle s =
      (.ok (pl.plan s.heap.length),
        { s with heap := s.heap ++ .createPipeline pl.createPipeline :: pl.resources }) := by
  obtain ⟨hcreate, hc, hp, hdlq⟩ := Pipeline.payloads_ok h
  unfold Pipeline.buildRequests
  rw [← hcreate, Prog.eval_bind_ok _ (eval_newMessage _),
    Prog.eval_bind_ok _ (eval_newEach _ _ _ (mapM_map_of_ok Message.createConnector hc)),
    Prog.eval_bind_ok _ (eval_newEach _ _ _ (mapM_map_of_ok Message.createProcessor hp))]
  cases hd : p.dlq with
  | none =>
    -- without a dead-letter queue the plan ends with the processors
    have hq : pl.dlq = none := by
      rw [hd, Option.toList_none, List.forall₂_nil_left_iff] at hdlq
      exact Option.toList_eq_nil_iff.mp hdlq
    simp [Payloads.plan, Payloads.resources, hq, Nat.add_comm, Nat.add_left_comm]
  | some d =>
    obtain ⟨q, hdq, hq⟩ : ∃ q, d.toRequest = .ok q ∧ pl.dlq = some q := by
      cases hq : pl.dlq with
      | none => simp [hd, hq] at hdlq
      | some q => exact ⟨q, by simpa [hd, hq] using hdlq, rfl⟩
    simp only [hdq, Except.map, Prog.eval_bind_ok _ (eval_newMessage _)]
    simp [Payloads.plan, Payloads.resources, hq, Nat.add_assoc, Nat.add_comm,
      Nat.add_left_comm]

/-- A builder with a payload that cannot be built raises, and sends nothing. -/
theorem eval_buildRequests_error (script : Script) {p : Pipeline} {e : Exn}
    (h : p.payloads = .error e) :
    ∃ heap, p.buildRequests.eval script.handle s = (.error e, { s with heap := heap }) := by
  unfold Pipeline.buildRequests
  rw [Prog.eval_bind_ok _ (eval_newMessage _)]
  rcases Pipeline.payloads_error h with hc | ⟨cs, hc, hp | ⟨ps, d, hp, hd, hq⟩⟩
  · obtain ⟨heap, hh⟩ := eval_newEach_error script
      (s := { s with heap := s.heap ++ [.createPipeline ⟨p.name, p.description⟩] })
      _ _ (mapM_map_of_error Message.createConnector hc)
    exact ⟨heap, Prog.eval_bind_error _ hh⟩
  · rw [Prog.eval_bind_ok _ (eval_newEach _ _ _ (mapM_map_of_ok Message.createConnector hc))]
    obtain ⟨heap, hh⟩ := eval_newEach_error script _ _
      (mapM_map_of_error Message.createProcessor hp)
    exact ⟨heap, Prog.eval_bind_error _ hh⟩
  · rw [Prog.eval_bind_ok _ (eval_newEach _ _ _ (mapM_map_of_ok Message.createConnector hc)),
      Prog.eval_bind_ok _ (eval_newEach _ _ _ (mapM_map_of_ok Message.createProcessor hp))]
    simp only [hd, hq, Except.map]
    exact ⟨_, Prog.eval_bind_error _ (eval_newMessage_error _)⟩

/-! ### Sending the plan -/

/-- How far the RPCs `rpcs` are submitted from position `k` of the trace, one after the
other up to the first that fails: those issued, and the outcome. -/
def Script.submit (script : Script) : Nat → List Rpc → List Rpc × Except RpcError Unit
  | _, [] => ([], .ok ())
  | k, rpc :: rpcs =>
    match script.reply k rpc.method with
    | .error e => ([rpc], .error e)
    | .ok _ => (rpc :: (script.submit (k + 1) rpcs).1, (script.submit (k + 1) rpcs).2)

theorem Script.submit_append (k : Nat) (xs ys : List Rpc) :
    script.submit k (xs ++ ys) =
      match script.submit k xs with
      | (sent, .error e) => (sent, .error e)
      | (sent, .ok _) =>
        (sent ++ (script.submit (k + xs.length) ys).1, (script.submit (k + xs.length) ys).2) := by
  induction xs generalizing k with
  | nil => simp [submit]
  | cons x xs ih =>
    rw [List.cons_append, submit, submit]
    cases script.reply k x.method with
    | error e => rfl
    | ok r =>
      simp only [ih, List.length_cons]
      rw [show k + (xs.length + 1) = k + 1 + xs.length by omega]
      cases hr : script.submit (k + 1) xs with
      | mk sent out => cases out <;> rfl

/-- The heap holds the messages from which the jobs make the RPCs. -/
def Loaded (heap : List Message) (jobs : List Job) (rpcs : List Rpc) : Prop :=
  List.Forall₂ (fun job rpc => ∃ m, heap[job.request]? = some m ∧ job.rpc m = rpc) jobs rpcs

theorem eval_assignments (r : Ref) (as : List Assignment) :
    ((Prog.forEach (fun a => perform (.assign r a)) as : HostM Unit)).eval script.handle s =
      (.ok (), { s with heap := s.heap.modify r (as.foldl Message.assign) }) := by
  -- one assignment after the other, all to the same message
  induction as generalizing s with
  | nil =>
    have hid : (fun m : Message => m) = id := rfl
    simp [hid]
  | cons a as ih =>
    rw [Prog.forEach_cons]
    have h₁ : (perform (.assign r a)).eval script.handle s =
        (.ok (), { s with heap := s.heap.modify r (·.assign a) }) := rfl
    rw [Prog.eval_bind_ok _ h₁, ih, List.modify_modify_eq]
    rfl

/-- One job issues its RPC with the scripted outcome, and touches its own message only. -/
theorem eval_submit (lib : Codec) (script : Script) (t : ℚ) (job : Job) {m : Message}
    (hopen : s.channelOpen = true) (hr : s.heap[job.request]? = some m) :
    (Client.runJob lib t job).eval script.handle s =
      (((script.reply s.trace.length job.method).mapError (translated lib)).map fun _ => (),
        { s with
          heap := s.heap.modify job.request (job.assignments.foldl Message.assign)
          trace := s.trace ++ [job.rpc m] }) := by
  unfold Client.runJob Client.submit
  rw [Prog.eval_bind_ok _ (eval_assignments _ _)]
  -- the message that is sent is the completed one
  have hr' : (s.heap.modify job.request (job.assignments.foldl Message.assign))[job.request]? =
      some (job.assignments.foldl Message.assign m) := by
    rw [List.getElem?_modify_eq, hr]
    rfl
  have hc := eval_call lib script (s := { s with
    heap := s.heap.modify job.request (job.assignments.foldl Message.assign) })
    job.method t hopen hr'
  cases hrep : script.reply s.trace.length job.method with
  | ok resp =>
    rw [hrep] at hc
    rw [Prog.eval_bind_ok _ hc]
    rfl
  | error e =>
    rw [hrep] at hc
    rw [Prog.eval_bind_error _ hc]
    rfl

/-- A job does not touch the messages of the others. -/
theorem Loaded.modify {heap : List Message} {jobs : List Job} {rpcs : List Rpc} {r : Ref}
    {f : Message → Message} (h : Loaded heap jobs rpcs) (hr : r ∉ jobs.map Job.request) :
    Loaded (heap.modify r f) jobs rpcs := by
  induction h with
  | nil => exact .nil
  | cons hj _ ih =>
    rw [List.map_cons, List.mem_cons, not_or] at hr
    refine .cons ?_ (ih hr.2)
    rwa [List.getElem?_modify_ne _ _ hr.1]

/-- The loop over the jobs goes as far as the script lets the RPCs go. -/
theorem eval_jobs (lib : Codec) (script : Script) (t : ℚ) (jobs : List Job) (rpcs : List Rpc)
    (hopen : s.channelOpen = true) (hl : Loaded s.heap jobs rpcs)
    (hn : (jobs.map Job.request).Nodup) :
    ∃ heap, (Prog.forEach (Client.runJob lib t) jobs).eval script.handle s =
      ((script.submit s.trace.length rpcs).2.mapError (translated lib),
        { s with
          heap := heap, trace := s.trace ++ (script.submit s.trace.length rpcs).1 }) := by
  -- induction on the jobs; those that are left are not touched
  induction jobs generalizing s rpcs with
  | nil =>
    cases hl
    exact ⟨s.heap, by simp [Script.submit, Except.mapError]⟩
  | cons job jobs ih =>
    cases hl with
    | @cons _ rpc _ rpcs hj hl =>
      obtain ⟨m, hm, rfl⟩ := hj
      rw [List.map_cons, List.nodup_cons] at hn
      have h₁ := eval_submit lib script t job hopen hm
      rw [Prog.forEach_cons]
      -- the position is that of the next RPC in the trace
      cases hrep : script.reply s.trace.length (job.rpc m).method with
      | error e =>
        have hrep' : script.reply s.trace.length job.method = .error e := hrep
        rw [hrep'] at h₁
        refine ⟨s.heap.modify job.request (job.assignments.foldl Message.assign),
          (Prog.eval_bind_error _ h₁).trans ?_⟩
        simp only [Script.submit, hrep]
        rfl
      | ok resp =>
        have hrep' : script.reply s.trace.length job.method = .ok resp := hrep
        rw [hrep'] at h₁
        obtain ⟨heap, hh⟩ := ih (s := { s with
          heap := s.heap.modify job.request (job.assignments.foldl Message.assign)
          trace := s.trace ++ [job.rpc m] }) rpcs hopen (Loaded.modify hl hn.1) hn.2
        refine ⟨heap, (Prog.eval_bind_ok _ h₁).trans (hh.trans ?_)⟩
        simp only [Script.submit, hrep]
        simp [List.length_append]

/-- References in a row stand for the messages that were put there. -/
theorem forall₂_range' {α : Type} (f : α → Message) (as : List α) {heap : List Message}
    (pre post : List Message) {b : Ref} (hheap : heap = pre ++ as.map f ++ post)
    (hb : b = pre.length) :
    List.Forall₂ (fun r a => heap[r]? = some (f a)) (List.range' b as.length) as := by
  -- induction on the messages; what was passed joins `pre`
  induction as generalizing pre b with
  | nil => exact .nil
  | cons a as ih =>
    rw [List.length_cons, List.range'_succ]
    refine .cons ?_ (ih (pre ++ [f a]) (by simp [hheap]) (by simp [hb]))
    rw [hheap, hb]
    simp

/-- They are loaded for the RPCs which the jobs make of these messages. -/
theorem loaded_range' {α : Type} (f : α → Message) (as : List α) (heap pre post : List Message)
    (b : Ref) (g : Ref → Job) (rpc : α → Rpc) (hheap : heap = pre ++ as.map f ++ post)
    (hb : b = pre.length) (hreq : ∀ r, (g r).request = r)
    (hrpc : ∀ a, ∀ r, (g r).rpc (f a) = rpc a) :
    Loaded heap ((List.range' b as.length).map g) (as.map rpc) := by
  unfold Loaded
  rw [List.forall₂_map_left_iff, List.forall₂_map_right_iff]
  refine (forall₂_range' f as pre post hheap hb).imp fun r a hat => ⟨f a, ?_, hrpc a r⟩
  rw [hreq]
  exact hat

/-- The messages of a fresh plan are loaded for the RPCs of its payloads. -/
theorem Payloads.loaded (pl : Payloads) (pid : String) (heap : List Message) :
    Loaded (heap ++ .createPipeline pl.createPipeline :: pl.resources)
      ((pl.plan heap.length).jobs pid) (pl.resourceRpcs pid) := by
  unfold Payloads.plan BuildPlan.jobs Payloads.resourceRpcs Payloads.resources
  -- three blocks of messages, one behind the other on the heap
  refine List.rel_append (List.rel_append ?_ ?_) ?_
  · exact loaded_range' Message.createConnector pl.connectors _
      (heap ++ [.createPipeline pl.createPipeline])
      (pl.processors.map .createProcessor ++ pl.dlq.toList.map .updateDLQ) _ _
      (connectorRpc pid) (by simp) (by simp) (fun _ => rfl) (fun _ _ => rfl)
  · exact loaded_range' Message.createProcessor pl.processors _
      (heap ++ .createPipeline pl.createPipeline :: pl.connectors.map .createConnector)
      (pl.dlq.toList.map .updateDLQ) _ _
      (processorRpc pid) (by simp) (by simp [Nat.add_comm, Nat.add_left_comm])
      (fun _ => rfl) (fun _ _ => rfl)
  · cases hd : pl.dlq with
    | none => exact .nil
    | some d =>
      refine .cons ⟨.updateDLQ d, ?_, rfl⟩ .nil
      simp only [Option.toList_some, List.map_cons, List.map_nil]
      rw [List.getElem?_append_right (by omega)]
      rw [show heap.length + 1 + pl.connectors.length + pl.processors.length - heap.length =
        pl.connectors.length + pl.processors.length + 1 by omega, List.getElem?_cons_succ]
      simp

/-- The requests of a plan are distinct objects. -/
theorem Payloads.jobs_request (pl : Payloads) (pid : String) (b : Ref) :
    ((pl.plan b).jobs pid).map Job.request = List.range' (b + 1) pl.resources.length := by
  have hd : (pl.dlq.map fun _ => b + 1 + pl.connectors.length + pl.processors.length).toList =
      List.range' (b + 1 + pl.connectors.length + pl.processors.length)
        pl.dlq.toList.length := by
    cases pl.dlq <;> rfl
  simp only [Payloads.plan, BuildPlan.jobs, hd, List.map_append, List.map_map,
    Function.comp_def, List.map_id', Payloads.resources, List.length_append, List.length_map]
  rw [← List.range'_append_1, ← List.range'_append_1]
  simp [Nat.add_assoc]

end Conduit
