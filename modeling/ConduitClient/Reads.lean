import ConduitClient.Effect.History
import ConduitClient.Effect.Interpret
import ConduitClient.Effect.Solo
import ConduitClient.Usage

/-!
# What a handle reports

"Every method here re-issues a fresh RPC rather than caching state client-side, so a transient
reconnect is invisible to the caller and a real pipeline state change is always reflected."
Any number of threads use handles at the same time, of the same pipelines or of others. The
server changes the pipelines at any moment (`Chronicle.Drift`), requests and responses are
lost, and calls fail.

`RunOp.Shows` says what an operation on a handle reports of one moment: a status is that of
the pipeline at that moment, and an exception of `wait_running` is about a status it had, or
the translation of an RPC failure. `series_reflects` is the result: the reports of a series of
operations are in order, and as of moments between its beginning and its end.
-/

namespace Conduit

open Effect

/-- The state of each pipeline that the server has. -/
abbrev Catalog := String → Option PipelineState

/-- The state of the clients and the server. -/
structure Chronicle (ι : Type) where
  /-- The pipelines, and what they were. -/
  server : History Catalog
  /-- The message objects, each with the thread that built it. -/
  heap : List (ι × Message) := []
  /-- The pipeline that the `GetPipeline` call of a thread is about, until the server answers. -/
  wire : ι → Option String := fun _ => none
  /-- The response to each thread that has not been received. -/
  reply : ι → Option PipelineState := fun _ => none

namespace Chronicle

variable {ι : Type} [DecidableEq ι]

/-- The pipeline was in this state at moment `k`. -/
def Had (s : Chronicle ι) (k : ℕ) (pid : String) (state : PipelineState) : Prop :=
  ∃ catalog : Catalog, s.server.At k catalog ∧ catalog pid = some state

/-- The moment that it is. -/
def now (s : Chronicle ι) : ℕ := s.server.now

/-- A thread builds a message object. -/
def alloc (s : Chronicle ι) (i : ι) (m : Message) : Chronicle ι :=
  { s with heap := s.heap ++ [(i, m)] }

/-- A thread assigns to a field of an object of its own. -/
def assign (s : Chronicle ι) (i : ι) (r : Ref) (a : Assignment) : Chronicle ι :=
  { s with heap := s.heap.modify r fun x => if x.1 = i then (x.1, x.2.assign a) else x }

/-- Put a request on the wire. The response to the call before is not taken for its own. -/
def send (s : Chronicle ι) (i : ι) (pid : String) : Chronicle ι :=
  { s with
    wire := Function.update s.wire i (some pid)
    reply := Function.update s.reply i none }

/-- The call of thread `i` is over for the server, or for the client. -/
def settle (s : Chronicle ι) (i : ι) (reply : Option PipelineState) : Chronicle ι :=
  { s with
    wire := Function.update s.wire i none
    reply := Function.update s.reply i reply }

section Self

variable (s : Chronicle ι) (i : ι) (pid : String) (reply : Option PipelineState)

theorem send_wire : (s.send i pid).wire i = some pid := Function.update_self _ _ _

theorem send_reply : (s.send i pid).reply i = none := Function.update_self _ _ _

theorem settle_wire : (s.settle i reply).wire i = none := Function.update_self _ _ _

theorem settle_reply : (s.settle i reply).reply i = reply := Function.update_self _ _ _

end Self

/-- How an operation of thread `i` may be answered. gRPC and the operating system do not raise a
`ConduitError`. -/
def answer (i : ι) (s : Chronicle ι) : (o : HostOp) → HostAns o → Chronicle ι → Prop
  | .new m, r, s' => r = s.heap.length ∧ s' = s.alloc i m
  | .assign r a, _, s' => s' = s.assign i r a
  | .send .getPipeline r _, .ok _, s' =>
    ∃ j pid, s.heap[r]? = some (j, .getPipeline pid) ∧ s' = s.send i pid
  | .send _ _ _, .error x, s' => x.Foreign ∧ s' = s
  | .recv .getPipeline, .ok state, s' => s.reply i = some state ∧ s' = s.settle i none
  | .recv _, .error x, s' => x.Foreign ∧ s' = s.settle i none
  | .sleep _, .error x, s' => x.Foreign ∧ s' = s
  | _, _, s' => s' = s

/-- What the server and the network do. -/
inductive Drift (s : Chronicle ι) : Chronicle ι → Prop
  | changes (catalog : Catalog) : Drift s { s with server := s.server.turn catalog }
  /-- The server answers with the state that the pipeline is in. -/
  | answers {i : ι} {pid : String} {state : PipelineState} (hw : s.wire i = some pid)
      (hs : s.server.current pid = some state) : Drift s (s.settle i (some state))
  /-- The request of thread `i` is lost or refused, or the response to it is lost. -/
  | loses (i : ι) : Drift s (s.settle i none)

end Chronicle

/-- The world of handles. -/
def chronicleWorld (ι : Type) [DecidableEq ι] : World Host ι (Chronicle ι) where
  answer := Chronicle.answer
  drift := Chronicle.Drift

/-! ### The operations on a handle -/

/-- A call of a method of a handle. The loop of `wait_running` runs for `n` rounds at most. -/
inductive RunOp where
  | status (run : Run) (timeout : ℚ)
  | waitRunning (run : Run) (timeout pollInterval : ℚ) (n : ℕ)
  | stop (run : Run) (force : Bool) (timeout : ℚ)

namespace RunOp

/-- The status that was returned, if one was, or the exception. -/
abbrev Report := Except Exn (Option RunStatus)

/-- The handle that it is called on. -/
def run : RunOp → Run
  | status run _ | waitRunning run .. | stop run .. => run

/-- The status that a wait has ended with. -/
def returned : Waited → Option RunStatus
  | .running found => some found
  | .polling => none

/-- The method, with the status it returns, if it returns one. -/
def prog (rt : Runtime) : RunOp → HostM (Option RunStatus)
  | status run timeout => do
    let found ← run.status rt timeout
    return some found
  | waitRunning run timeout pollInterval n => do
    let waited ← run.waitRunning rt timeout pollInterval n
    return returned waited
  | stop run force timeout => do
    run.stop rt force timeout
    return none

/-- A series of operations, each in a `try` statement of its own. -/
def series (rt : Runtime) (ops : List RunOp) : HostM (List Report) :=
  Prog.collect (fun op => (op.prog rt).attempt) ops

variable {ι : Type} [DecidableEq ι]

/-- The pipeline of a handle had this status at moment `k`. -/
def Saw (s : Chronicle ι) (k : ℕ) (run : Run) (found : RunStatus) : Prop :=
  ∃ state, s.Had k run.pipelineId state ∧ state.toRunStatus = .ok found

/-- What a `ConduitError` is about. -/
inductive Told (rt : Runtime) (s : Chronicle ι) (k : ℕ) : RunOp → ConduitError → Prop
  /-- An RPC has failed. -/
  | failed {op : RunOp} {e : ConduitError} (x : RpcError)
      (hx : translated rt.toCodec x = .conduit e) : Told rt s k op e
  | degraded {run : Run} {timeout pollInterval : ℚ} {n : ℕ} {found : RunStatus}
      (hs : Saw s k run found) (hd : found.isDegraded = true) :
      Told rt s k (waitRunning run timeout pollInterval n) (run.degradedError rt found)
  | expired {run : Run} {timeout pollInterval : ℚ} {n : ℕ} {last : Option RunStatus}
      (hs : ∀ found, last = some found → Saw s k run found ∧ found.isRunning = false ∧
        found.isDegraded = false) :
      Told rt s k (waitRunning run timeout pollInterval n) (run.timeoutError rt timeout last)

/-- What an operation reports is so at moment `k`. -/
def Shows (rt : Runtime) (s : Chronicle ι) (op : RunOp) (k : ℕ) : Report → Prop
  | .ok (some found) => Saw s k op.run found ∧
    ∀ run timeout pollInterval n, op = waitRunning run timeout pollInterval n →
      found.isRunning = true
  | .ok none => ∀ run timeout, op ≠ status run timeout
  | .error x => ∀ e, x = .conduit e → Told rt s k op e

end RunOp

/-! ### The contract -/

namespace Chronicle

variable {ι : Type} [DecidableEq ι] {s s' : Chronicle ι} {i j : ι} {k n : ℕ} {pid : String}

omit [DecidableEq ι] in
theorem Had.extends {state : PipelineState} (h : s.Had k pid state)
    (hs : s.server.Extends s'.server) : s'.Had k pid state := by
  obtain ⟨catalog, hat, hstate⟩ := h
  exact ⟨catalog, hs.at hat, hstate⟩

omit [DecidableEq ι] in
theorem Had.le_now {state : PipelineState} (h : s.Had k pid state) : k ≤ s.now := by
  obtain ⟨catalog, hat, -⟩ := h
  exact hat.le_now

/-- The object of a thread. -/
def Own (i : ι) (r : Ref) (m : Message) (s : Chronicle ι) : Prop := s.heap[r]? = some (i, m)

/-- Thread `i` waits for the state of this pipeline, and the answer is not older than `n`. -/
structure Awaits (i : ι) (n : ℕ) (pid : String) (s : Chronicle ι) : Prop where
  since : n ≤ s.now
  wire : ∀ pid', s.wire i = some pid' → pid' = pid
  reply : ∀ state, s.reply i = some state → ∃ k, n ≤ k ∧ s.Had k pid state

/-- What a thread relies on: the past stays as it was, and nobody else touches its objects or
its call. -/
structure Rely (i : ι) (s s' : Chronicle ι) : Prop where
  server : s.server.Extends s'.server
  own : ∀ r m, Own i r m s → Own i r m s'
  awaits : ∀ n pid, Awaits i n pid s → Awaits i n pid s'

/-- What every operation of a thread respects. -/
structure Guar (i : ι) (s s' : Chronicle ι) : Prop where
  server : s'.server = s.server
  own : ∀ j, j ≠ i → ∀ r m, Own j r m s → Own j r m s'
  wire : ∀ j, j ≠ i → s'.wire j = s.wire j
  reply : ∀ j, j ≠ i → s'.reply j = s.reply j

omit [DecidableEq ι] in
theorem guar_refl (s : Chronicle ι) : Guar i s s where
  server := rfl
  own _ _ _ _ h := h
  wire _ _ := rfl
  reply _ _ := rfl

omit [DecidableEq ι] in
/-- A new object moves none of the old ones. -/
theorem guar_alloc (s : Chronicle ι) (m : Message) : Guar i s (s.alloc i m) where
  server := rfl
  own _ _ r _ h := by
    have hlt : r < s.heap.length := (List.getElem?_eq_some_iff.mp h).1
    rw [Own, alloc, List.getElem?_append_left hlt]
    exact h
  wire _ _ := rfl
  reply _ _ := rfl

/-- An object is not changed from another thread. -/
theorem guar_assign (s : Chronicle ι) (r : Ref) (a : Assignment) :
    Guar i s (s.assign i r a) where
  server := rfl
  own j hj r' m h := by
    have hh : s.heap[r']? = some (j, m) := h
    -- the object may be the one assigned to, but then it is not one of thread `i`
    rw [Own, assign, List.getElem?_modify, hh]
    show some (if r = r' then (if j = i then (j, m.assign a) else (j, m)) else (j, m)) = some (j, m)
    rw [if_neg hj, ite_self]
  wire _ _ := rfl
  reply _ _ := rfl

theorem guar_send (s : Chronicle ι) (pid : String) : Guar i s (s.send i pid) where
  server := rfl
  own _ _ _ _ h := h
  wire _ hj := Function.update_of_ne hj _ _
  reply _ hj := Function.update_of_ne hj _ _

theorem guar_settle (s : Chronicle ι) (reply : Option PipelineState) :
    Guar i s (s.settle i reply) where
  server := rfl
  own _ _ _ _ h := h
  wire _ hj := Function.update_of_ne hj _ _
  reply _ hj := Function.update_of_ne hj _ _

/-- Every operation respects it, whatever the program. -/
theorem guar_answer {o : HostOp} {a : HostAns o} (ha : answer i s o a s') : Guar i s s' := by
  -- only objects, and the calls for a pipeline, change the state
  cases o with
  | new m =>
    obtain ⟨-, rfl⟩ := ha
    exact guar_alloc s m
  | assign r b =>
    obtain rfl : s' = _ := ha
    exact guar_assign s r b
  | send m r t =>
    cases a with
    | ok =>
      cases m with
      | getPipeline =>
        obtain ⟨j, pid, -, rfl⟩ := ha
        exact guar_send s pid
      | _ =>
        obtain rfl : s' = s := ha
        exact guar_refl s'
    | error x =>
      obtain rfl : s' = s := by cases m <;> exact ha.2
      exact guar_refl s'
  | recv m =>
    cases a with
    | ok resp =>
      cases m with
      | getPipeline =>
        obtain ⟨-, rfl⟩ := ha
        exact guar_settle s none
      | _ =>
        obtain rfl : s' = s := ha
        exact guar_refl s'
    | error x =>
      -- whatever was called for, a failure ends it
      obtain rfl : s' = s.settle i none := by cases m <;> exact ha.2
      exact guar_settle s none
  | sleep d =>
    cases a with
    | ok =>
      obtain rfl : s' = s := ha
      exact guar_refl s'
    | error x =>
      obtain ⟨-, rfl⟩ := ha
      exact guar_refl s'
  | _ =>
    obtain rfl : s' = s := ha
    exact guar_refl s'

omit [DecidableEq ι] in
/-- An operation of another thread is not noticed. -/
theorem Guar.rely (hij : i ≠ j) (h : Guar i s s') : Rely j s s' where
  server := by
    rw [h.server]
    exact History.extends_refl _
  own := h.own j hij.symm
  awaits n pid ha := by
    -- the wire and the response of thread `j` are as they were, and so is the history
    constructor
    · rw [now, h.server]
      exact ha.since
    · rw [h.wire j hij.symm]
      exact ha.wire
    · rw [h.reply j hij.symm]
      intro state hstate
      obtain ⟨k, hk, hhad⟩ := ha.reply state hstate
      exact ⟨k, hk, hhad.extends (by rw [h.server]; exact History.extends_refl _)⟩

/-- The end of a call, where a response is the state that the pipeline is in. -/
theorem rely_settle {reply : Option PipelineState}
    (h : ∀ state, reply = some state → ∃ pid, s.wire j = some pid ∧ s.Had s.now pid state) :
    Rely i s (s.settle j reply) := by
  by_cases hj : j = i
  · -- the thread's own call: nothing is on the wire any more, and a response is of this moment
    subst hj
    refine ⟨History.extends_refl _, fun _ _ h => h, fun n pid ha => ⟨ha.since, ?_, ?_⟩⟩
    · intro pid' hpid
      rw [s.settle_wire] at hpid
      cases hpid
    · intro state hstate
      rw [s.settle_reply] at hstate
      obtain ⟨pid', hwire, hhad⟩ := h state hstate
      obtain rfl := ha.wire pid' hwire
      exact ⟨s.now, ha.since, hhad⟩
  · exact (guar_settle s reply).rely hj

/-- What the server does is in accordance with it. -/
theorem Drift.rely (h : Drift s s') : Rely i s s' := by
  cases h with
  | changes catalog =>
    -- a response that is under way is older, but still of a moment since `n`
    have hE := s.server.extends_turn catalog
    refine ⟨hE, fun _ _ h => h, fun n pid ha => ⟨ha.since.trans hE.now_le, ha.wire, ?_⟩⟩
    intro state hstate
    obtain ⟨k, hk, hhad⟩ := ha.reply state hstate
    exact ⟨k, hk, hhad.extends hE⟩
  | @answers i pid state hw hs =>
    refine rely_settle fun st hst => ⟨pid, hw, s.server.current, s.server.at_now, ?_⟩
    rw [← Option.some.inj hst]
    exact hs
  | loses i => exact rely_settle fun _ h => by cases h

/-- What each thread may count on, and what it guarantees to the others. -/
def contract (ι : Type) [DecidableEq ι] : Contract (chronicleWorld ι) where
  inv _ := True
  rely := Rely
  guar := Guar
  rely_refl _ _ := ⟨History.extends_refl _, fun _ _ h => h, fun _ _ h => h⟩
  rely_trans h h' := ⟨h.server.trans h'.server, fun r m ho => h'.own r m (h.own r m ho),
    fun n pid ha => h'.awaits n pid (h.awaits n pid ha)⟩
  compat hij _ _ hg := hg.rely hij
  drift_inv _ _ := trivial
  drift_rely _ hd := Drift.rely hd

/-! ### What stays known -/

theorem stable_since (n : ℕ) : (contract ι).Stable i fun s => n ≤ s.now :=
  fun _ _ _ _ hr hn => hn.trans hr.server.now_le

theorem stable_own (r : Ref) (m : Message) : (contract ι).Stable i (Own i r m) :=
  fun _ _ _ _ hr h => hr.own r m h

theorem stable_awaits (n : ℕ) (pid : String) : (contract ι).Stable i (Awaits i n pid) :=
  fun _ _ _ _ hr h => hr.awaits n pid h

end Chronicle

namespace RunOp

variable {ι : Type} [DecidableEq ι] {rt : Runtime} {s s' : Chronicle ι} {i : ι} {k n : ℕ}

omit [DecidableEq ι] in
theorem Saw.extends {run : Run} {found : RunStatus} (h : Saw s k run found)
    (hs : s.server.Extends s'.server) : Saw s' k run found := by
  obtain ⟨state, hhad, hfound⟩ := h
  exact ⟨state, hhad.extends hs, hfound⟩

omit [DecidableEq ι] in
/-- No report is of the future. -/
theorem Saw.le_now {run : Run} {found : RunStatus} (h : Saw s k run found) : k ≤ s.now := by
  obtain ⟨state, hhad, -⟩ := h
  exact hhad.le_now

omit [DecidableEq ι] in
/-- Nor does what an error is about change. -/
theorem Told.extends {op : RunOp} {e : ConduitError} (h : Told rt s k op e)
    (hs : s.server.Extends s'.server) : Told rt s' k op e := by
  cases h with
  | failed x hx => exact .failed x hx
  | degraded hsaw hd => exact .degraded (hsaw.extends hs) hd
  | expired hlast =>
    refine .expired fun found hfound => ?_
    obtain ⟨hsaw, hnot⟩ := hlast found hfound
    exact ⟨hsaw.extends hs, hnot⟩

omit [DecidableEq ι] in
/-- A report that was so at some moment remains so of that moment. -/
theorem Shows.extends {op : RunOp} {report : Report} (h : Shows rt s op k report)
    (hs : s.server.Extends s'.server) : Shows rt s' op k report := by
  cases report with
  | ok found =>
    cases found with
    | none => exact h
    | some found => exact ⟨h.1.extends hs, h.2⟩
  | error x => exact fun e he => (h e he).extends hs

/-- A report of a moment from `n` on. -/
def Since (rt : Runtime) (op : RunOp) (n : ℕ) (report : Report) (s : Chronicle ι) : Prop :=
  ∃ k, n ≤ k ∧ k ≤ s.now ∧ Shows rt s op k report

/-- What an exception of an RPC is. -/
def Failure (lib : Codec) (x : Exn) : Prop :=
  ∀ e, x = .conduit e → ∃ err : RpcError, translated lib err = .conduit e

open Chronicle

theorem stable_shows (op : RunOp) (k : ℕ) (report : Report) :
    (contract ι).Stable i fun s => Shows rt s op k report :=
  fun _ _ _ _ hr h => h.extends hr.server

theorem stable_reported (op : RunOp) (n : ℕ) (report : Report) :
    (contract ι).Stable i (Since rt op n report) := by
  rintro s s' - - hr ⟨k, hn, hk, h⟩
  exact ⟨k, hn, hk.trans hr.server.now_le, h.extends hr.server⟩

theorem stable_had (n : ℕ) (pid : String) (state : PipelineState) :
    (contract ι).Stable i fun s => ∃ k, n ≤ k ∧ s.Had k pid state := by
  rintro s s' - - hr ⟨k, hn, h⟩
  exact ⟨k, hn, h.extends hr.server⟩

theorem stable_saw (n : ℕ) (run : Run) (found : RunStatus) :
    (contract ι).Stable i fun s => ∃ k, n ≤ k ∧ Saw s k run found := by
  rintro s s' - - hr ⟨k, hn, h⟩
  exact ⟨k, hn, h.extends hr.server⟩

theorem stable_error (φ : Exn → Prop) (n : ℕ) (x : Exn) :
    (contract ι).Stable i fun s => n ≤ s.now ∧ φ x :=
  (stable_since n).and (.const _)

/-! ### One call -/

/-- The request goes out: whatever comes back for it is not older. -/
theorem triple_request (r : Ref) (pid : String) (timeout : ℚ) (n : ℕ) :
    (contract ι).Triple i (fun s => n ≤ s.now ∧ Own i r (.getPipeline pid) s)
      (performOrRaise (perform (.send .getPipeline r timeout)))
      (Contract.Post (fun _ => Awaits i n pid) fun x s => n ≤ s.now ∧ x.Foreign) := by
  have hstable := Contract.Stable.post (fun _ : Unit => stable_awaits (i := i) n pid)
    (stable_error Exn.Foreign n)
  refine .orRaise hstable (.perform ((stable_since n).and (stable_own r _)) hstable ?_)
  rintro s a s' - ⟨hn, hown⟩ ha
  refine ⟨trivial, guar_answer ha, ?_⟩
  cases a with
  | ok =>
    obtain ⟨j, pid', hheap, rfl⟩ := ha
    -- the object sent is the one that the thread has built for this call
    obtain rfl : pid' = pid := by
      have hsame := Option.some.inj (hheap.symm.trans hown)
      exact Message.getPipeline.inj (congrArg Prod.snd hsame)
    refine ⟨hn, fun p hp => ?_, fun state hstate => ?_⟩
    · rw [s.send_wire] at hp
      exact (Option.some.inj hp).symm
    · rw [s.send_reply] at hstate
      cases hstate
  | error x =>
    obtain ⟨hx, rfl⟩ := ha
    exact ⟨hn, hx⟩

/-- The response is taken: it is of a moment since the request went out. -/
theorem triple_response (pid : String) (n : ℕ) :
    (contract ι).Triple i (Awaits i n pid) (performOrRaise (perform (.recv .getPipeline)))
      (Contract.Post (fun state s => ∃ k, n ≤ k ∧ s.Had k pid state)
        fun x s => n ≤ s.now ∧ x.Foreign) := by
  have hstable := Contract.Stable.post (stable_had (ι := ι) (i := i) n pid)
    (stable_error Exn.Foreign n)
  refine .orRaise hstable (.perform (stable_awaits n pid) hstable ?_)
  intro s a s' _ hs ha
  refine ⟨trivial, guar_answer ha, ?_⟩
  cases a with
  | ok state =>
    obtain ⟨hreply, rfl⟩ := ha
    exact hs.reply state hreply
  | error x =>
    obtain ⟨hx, rfl⟩ := ha
    exact ⟨hs.since, hx⟩

/-- The exception of a stub is translated. -/
theorem triple_translate {m : Method} {r : Ref} {timeout : ℚ} {P : Chronicle ι → Prop}
    {M : Response m → Chronicle ι → Prop} (hM : ∀ a, (contract ι).Stable i (M a))
    (h : (contract ι).Triple i P (stub m r timeout)
      (Contract.Post M fun x s => n ≤ s.now ∧ x.Foreign)) (lib : Codec) :
    (contract ι).Triple i P (Client.call lib m r timeout)
      (Contract.Post M fun x s => n ≤ s.now ∧ Failure lib x) := by
  refine h.tryCatch (fun a => .done (hM a) fun _ _ hs => hs) fun x => ?_
  have hstable : (contract ι).Stable i fun s => n ≤ s.now ∧ x.Foreign :=
    stable_error Exn.Foreign n x
  -- only an `RpcError` is caught; the stub raises no `ConduitError` of its own
  cases x with
  | rpc err =>
    have hraise : (do
        let e ← Prog.ofExcept (ConduitError.fromRpcError lib err)
        Prog.raise (.conduit e) : HostM (Response m)) = Prog.raise (translated lib err) := by
      unfold translated
      cases ConduitError.fromRpcError lib err <;> rfl
    show (contract ι).Triple i _ (do
        let e ← Prog.ofExcept (ConduitError.fromRpcError lib err)
        Prog.raise (.conduit e)) _
    rw [hraise]
    exact .done hstable fun s _ hs => ⟨hs.1, fun e he => ⟨err, he⟩⟩
  | conduit e => exact .done hstable fun s _ hs => absurd rfl (hs.2 e)
  | _ => exact .done hstable fun s _ hs => ⟨hs.1, fun e he => by cases he⟩

/-! ### The methods of a handle -/

/-- The state that a pipeline is reported in is one that it had during the call. -/
theorem triple_status (run : Run) (timeout : ℚ) (n : ℕ) :
    (contract ι).Triple i (fun s => n ≤ s.now) (run.status rt timeout)
      (Contract.Post (fun found s => ∃ k, n ≤ k ∧ Saw s k run found)
        fun x s => n ≤ s.now ∧ Failure rt.toCodec x) := by
  have hfailed := stable_error (ι := ι) (i := i) (Failure rt.toCodec) n
  -- request and response, one after the other, with anything in between
  have hstub (r : Ref) := (triple_request (i := i) r run.pipelineId timeout n).bind_post
    (stable_error Exn.Foreign n) fun _ => triple_response run.pipelineId n
  refine .perform_bind (stable_since n) (M := fun (r : Ref) s =>
    n ≤ s.now ∧ Own i r (.getPipeline run.pipelineId) s) ?_ fun r => ?_
  · rintro s r s' - hn ⟨rfl, rfl⟩
    exact ⟨trivial, guar_alloc s _, hn, List.getElem?_concat_length⟩
  have hcall := triple_translate (stable_had n run.pipelineId) (hstub r) rt.toCodec
  refine hcall.bind_post hfailed fun state => ?_
  -- the enum names of the response
  refine .done (stable_had n run.pipelineId state) fun s _ ⟨k, hk, hhad⟩ => ?_
  rcases toRunStatus_cases state with ⟨⟨found, hfound⟩, -⟩ | ⟨⟨msg, hmsg⟩, -⟩
  · rw [hfound]
    exact ⟨k, hk, state, hhad, hfound⟩
  · rw [hmsg]
    exact ⟨hk.trans hhad.le_now, fun e he => by cases he⟩

/-- What the loop of `wait_running` has found before a round: the last status, if there was a poll,
was true of a moment since `n`, and decided nothing. This is the invariant of the loop. -/
def Last (n : ℕ) (run : Run) (last : Option RunStatus) (s : Chronicle ι) : Prop :=
  ∃ k, n ≤ k ∧ k ≤ s.now ∧ ∀ found, last = some found →
    Saw s k run found ∧ found.isRunning = false ∧ found.isDegraded = false

theorem stable_last (n : ℕ) (run : Run) (last : Option RunStatus) :
    (contract ι).Stable i (Last n run last) := by
  rintro s s' - - hr ⟨k, hn, hk, h⟩
  refine ⟨k, hn, hk.trans hr.server.now_le, fun found hfound => ?_⟩
  obtain ⟨hsaw, hnot⟩ := h found hfound
  exact ⟨hsaw.extends hr.server, hnot⟩

omit [DecidableEq ι] in
/-- An exception of an RPC is a report of every moment. -/
theorem since_failure {op : RunOp} {x : Exn} (hn : n ≤ s.now) (hx : Failure rt.toCodec x) :
    Since rt op n (.error x) s := by
  refine ⟨n, le_rfl, hn, fun e he => ?_⟩
  obtain ⟨err, herr⟩ := hx e he
  exact .failed err herr

/-- A pause. -/
theorem triple_pause (lib : Codec) (run : Run) (last : Option RunStatus) (pollInterval : ℚ)
    (n : ℕ) :
    (contract ι).Triple i (Last n run last)
      (performOrRaise (perform (.sleep pollInterval)))
      (Contract.Post (fun _ => Last n run last) fun x s => n ≤ s.now ∧ Failure lib x) := by
  have hstable := Contract.Stable.post (fun _ : Unit => stable_last (ι := ι) (i := i) n run last)
    (stable_error (Failure lib) n)
  refine .orRaise hstable (.perform (stable_last n run last) hstable ?_)
  intro s a s' _ hs ha
  refine ⟨trivial, guar_answer ha, ?_⟩
  cases a with
  | ok =>
    obtain rfl : s' = s := ha
    exact hs
  | error x =>
    obtain ⟨hx, rfl⟩ := ha
    obtain ⟨k, hn, hk, -⟩ := hs
    exact ⟨hn.trans hk, fun e he => absurd he (hx e)⟩

/-- The loop ends with a status that the pipeline had while it was running, or with an exception
that is about one. -/
theorem triple_waitLoop (run : Run) (timeout deadline pollInterval : ℚ) (N n m : ℕ)
    (last : Option RunStatus) :
    (contract ι).Triple i (Last n run last)
      (run.waitLoop rt timeout deadline pollInterval m last)
      fun r => Since rt (waitRunning run timeout pollInterval N) n (r.map returned) := by
  -- induction on the rounds left
  induction m generalizing last with
  | zero =>
    refine .done (stable_last n run last) fun s _ ⟨k, hn, hk, _⟩ => ⟨k, hn, hk, ?_⟩
    exact fun run timeout h => by cases h
  | succ m ih =>
    refine .perform_bind (stable_last n run last) (M := fun _ => Last n run last) ?_ fun now => ?_
    · intro s now s' _ hs ha
      obtain rfl : s' = s := ha
      exact ⟨trivial, guar_refl s', hs⟩
    by_cases hnow : now < deadline
    · -- a poll; what it raises leaves the loop, and is the translation of an RPC failure
      rw [if_pos hnow]
      have hstatus : (contract ι).Triple i (Last n run last) (run.status rt 5) _ :=
        (triple_status run 5 n).pre fun s ⟨k, hn, hk, _⟩ => hn.trans hk
      refine hstatus.bind (fun found => ?_) fun x =>
        .done (stable_error (Failure rt.toCodec) n x) fun s _ hs => since_failure hs.1 hs.2
      have hfound : (contract ι).Stable i fun s => ∃ k, n ≤ k ∧ Saw s k run found :=
        stable_saw n run found
      -- the loop asks for `running` before it asks for `degraded`
      by_cases hrunning : found.isRunning = true
      · rw [if_pos hrunning]
        exact .done hfound fun s _ ⟨k, hn, hs⟩ =>
          ⟨k, hn, hs.le_now, hs, fun _ _ _ _ _ => hrunning⟩
      rw [if_neg hrunning]
      by_cases hdegraded : found.isDegraded = true
      · rw [if_pos hdegraded]
        refine .done hfound fun s _ ⟨k, hn, hs⟩ => ⟨k, hn, hs.le_now, fun e he => ?_⟩
        obtain rfl := Exn.conduit.inj he
        exact .degraded hs hdegraded
      · rw [if_neg hdegraded]
        -- neither: this is what was found last in the next round
        have hpause : (contract ι).Triple i (fun s => ∃ k, n ≤ k ∧ Saw s k run found)
            (performOrRaise (perform (.sleep pollInterval))) _ :=
          (triple_pause rt.toCodec run (some found) pollInterval n).pre fun s ⟨k, hn, hs⟩ =>
            ⟨k, hn, hs.le_now, fun found' h => by
              obtain rfl := Option.some.inj h
              exact ⟨hs, eq_false_of_ne_true hrunning, eq_false_of_ne_true hdegraded⟩⟩
        exact hpause.bind (fun _ => ih (some found)) fun x =>
          .done (stable_error (Failure rt.toCodec) n x) fun s _ hs => since_failure hs.1 hs.2
    · -- the time is over, and the error names the last status
      rw [if_neg hnow]
      refine .done (stable_last n run last) fun s _ ⟨k, hn, hk, hlast⟩ => ⟨k, hn, hk, ?_⟩
      intro e he
      obtain rfl := Exn.conduit.inj he
      exact .expired hlast

/-- `wait_running`: before the first round nothing has been found. -/
theorem triple_waitRunning (run : Run) (timeout pollInterval : ℚ) (N n : ℕ) :
    (contract ι).Triple i (fun s => n ≤ s.now) (run.waitRunning rt timeout pollInterval N)
      fun r => Since rt (waitRunning run timeout pollInterval N) n (r.map returned) := by
  refine .perform_bind (stable_since n) (M := fun _ => Last n run none) ?_ fun now =>
    triple_waitLoop run timeout (now + timeout) pollInterval N n N none
  intro s now s' _ hn ha
  obtain rfl : s' = s := ha
  exact ⟨trivial, guar_refl s', n, le_rfl, hn, fun _ h => by cases h⟩

/-- An operation of which only the exceptions matter. -/
theorem triple_quiet {o : HostOp} {g : HostAns o → Except Exn Unit}
    (hg : ∀ s a s', answer i s o a s' → ∀ x, g a = .error x → x.Foreign) (n : ℕ) :
    (contract ι).Triple i (fun s => n ≤ s.now) (.op o fun a => .done (g a))
      (Contract.Post (fun _ s => n ≤ s.now) fun x s => n ≤ s.now ∧ x.Foreign) := by
  have hstable := Contract.Stable.post (fun _ : Unit => stable_since (ι := ι) (i := i) n)
    (stable_error Exn.Foreign n)
  refine .op (stable_since n) (M := fun a => Contract.Post (fun _ s => n ≤ s.now)
    (fun x s => n ≤ s.now ∧ x.Foreign) (g a)) (fun s a s' _ hn ha => ?_)
    fun a => .done (hstable (g a)) fun _ _ hs => hs
  have hguar := guar_answer ha
  -- no operation turns the history; only the server does
  have hnow : n ≤ s'.now := by
    rw [now, hguar.server]
    exact hn
  refine ⟨trivial, hguar, ?_⟩
  cases hr : g a with
  | ok => exact hnow
  | error x => exact ⟨hnow, hg s a s' ha x hr⟩

/-- A stop has nothing to report but an exception. -/
theorem triple_stop (run : Run) (force : Bool) (timeout : ℚ) (n : ℕ) :
    (contract ι).Triple i (fun s => n ≤ s.now) (run.stop rt force timeout)
      (Contract.Post (fun _ s => n ≤ s.now) fun x s => n ≤ s.now ∧ Failure rt.toCodec x) := by
  have hsince := stable_since (ι := ι) (i := i) n
  have hsend (r : Ref) := triple_quiet (ι := ι) (i := i) (o := .send .stopPipeline r timeout)
    (g := id) (fun s a s' ha x hx => by
      obtain rfl : a = .error x := hx
      exact ha.1) n
  have hrecv := triple_quiet (ι := ι) (i := i) (o := .recv .stopPipeline) (g := id)
    (fun s a s' ha x hx => by
      obtain rfl : a = .error x := hx
      exact ha.1) n
  refine .perform_bind hsince (M := fun _ s => n ≤ s.now) ?_ fun r => ?_
  · rintro s r s' - hn ⟨-, rfl⟩
    exact ⟨trivial, guar_alloc s _, hn⟩
  · have hstub : (contract ι).Triple i (fun s => n ≤ s.now) (stub .stopPipeline r timeout) _ :=
      (hsend r).bind_post (stable_error Exn.Foreign n) fun _ => hrecv
    exact triple_translate (fun _ => hsince) hstub rt.toCodec

/-- Every operation reports what was so after it began. -/
theorem triple_prog (op : RunOp) (n : ℕ) :
    (contract ι).Triple i (fun s => n ≤ s.now) (op.prog rt) (Since rt op n) := by
  have hfailed (x : Exn) : (contract ι).Triple i (fun s => n ≤ s.now ∧ Failure rt.toCodec x)
      (.done (.error x) : HostM (Option RunStatus)) (Since rt op n) :=
    .done (stable_error (Failure rt.toCodec) n x) fun _ _ hs => since_failure hs.1 hs.2
  cases op with
  | status run timeout =>
    refine (triple_status run timeout n).bind (fun found => ?_) hfailed
    refine .done (stable_saw n run found) fun s _ ⟨k, hn, hs⟩ => ⟨k, hn, hs.le_now, hs, ?_⟩
    exact fun _ _ _ _ h => by cases h
  | waitRunning run timeout pollInterval N =>
    have hstable (r : Except Exn Waited) : (contract ι).Stable i
        (Since rt (waitRunning run timeout pollInterval N) n (r.map returned)) :=
      stable_reported _ n _
    refine (triple_waitRunning run timeout pollInterval N n).bind (fun waited => ?_) fun x => ?_
    · exact .done (hstable (.ok waited)) fun _ _ hs => hs
    · exact .done (hstable (.error x)) fun _ _ hs => hs
  | stop run force timeout =>
    refine (triple_stop run force timeout n).bind (fun _ => ?_) hfailed
    refine .done (stable_since n) fun s _ hn => ⟨n, le_rfl, hn, ?_⟩
    exact fun _ _ h => by cases h

/-- A series: each report is of a moment after the one before it. -/
theorem triple_series (rt : Runtime) (ops : List RunOp) (n : ℕ) :
    (contract ι).Triple i (fun s => n ≤ s.now) (series rt ops)
      (Contract.Returns fun reports s => InOrder (Shows rt s) s.now n ops reports) := by
  -- on the operations; the moment at which one ends is the `n` of the next
  refine .collect stable_since stable_shows (fun s s' op k report _ _ hg h => ?_) (fun op n => ?_)
    ops n
  · refine h.extends ?_
    rw [hg.server]
    exact History.extends_refl _
  · exact (triple_prog op n).attempt fun report => stable_reported op n report

/-- **A handle is never out of date.** Any number of threads do anything at all to one server
whose pipelines change at any moment, and where requests and responses are lost and calls fail.
When a thread carries out a series of operations on handles, each report is true of a moment:
a status that is returned is the status of the pipeline then, and a wait that returns ends with
`running`; a `ConduitError` is the translation of an RPC failure, or it is about a status that
the pipeline had then. The moments are in the order of the operations, not before the series was
begun and not after its end. -/
theorem series_reflects {rt : Runtime} {c c' : Config Host ι Exn (List Report) (Chronicle ι)}
    {i : ι} {ops : List RunOp} (hi : c.thread i = some (series rt ops))
    (hr : Reach (chronicleWorld ι) c c') {r : Except Exn (List Report)} (hend : c'.Ended i r) :
    ∃ reports, r = .ok reports ∧
      InOrder (Shows rt c'.state) c'.state.now c.state.now ops reports := by
  have hholds : (contract ι).Holds (fun j r s => j = i → Contract.Returns
      (fun reports s => InOrder (Shows rt s) s.now c.state.now ops reports) r s) c := by
    refine ⟨trivial, fun j p hp => ?_⟩
    by_cases hj : j = i
    · subst hj
      obtain rfl := Option.some.inj (hp.symm.trans hi)
      exact (triple_series rt ops c.state.now c.state trivial le_rfl).mono fun r s _ h _ => h
    · -- nothing is asked of the others
      have hany := Contract.Triple.any (C := contract ι) (i := j)
        (fun s o a s' _ ha => ⟨trivial, guar_answer ha⟩) p
      exact (hany c.state trivial trivial).mono fun r s _ _ h => absurd h hj
  have hdone := (hholds.reach hr).ended hend rfl
  -- a series raises nothing, as each of its operations is in a `try` statement
  cases r with
  | ok reports => exact ⟨reports, rfl, hdone⟩
  | error x => exact hdone.elim

/-! ### A server that answers everything -/

/-- All pipelines are in this state. -/
def everywhere (status : Int32) : Catalog := fun _ => some ⟨status, "", 0⟩

/-- How thread `i` is answered. The pipelines run when it has slept. -/
def prompt (i : ι) (s : Chronicle ι) : (o : HostOp) → HostAns o × Chronicle ι
  | .new m => (s.heap.length, s.alloc i m)
  | .assign r a => ((), s.assign i r a)
  | .send .getPipeline r _ =>
    match s.heap[r]? with
    | some (_, .getPipeline pid) => (.ok (), s.send i pid)
    | _ => (.error closedChannel, s)
  | .recv .getPipeline =>
    match (s.wire i).bind s.server.current with
    | some state => (.ok state, (s.settle i (some state)).settle i none)
    | none => (.error closedChannel, s.settle i none)
  | .sleep _ => (.ok (), { s with server := s.server.turn (everywhere 1) })
  | o => ((obliging.handle newSession o).1, s)

theorem foreign_closedChannel : closedChannel.Foreign := fun e he => by cases he

/-- This is something the world does. -/
theorem prompt_answer (i : ι) (s : Chronicle ι) (o : HostOp) :
    ∃ s₁, Relation.ReflTransGen (chronicleWorld ι).drift s s₁ ∧
      (chronicleWorld ι).answer i s₁ o (prompt i s o).1 (prompt i s o).2 := by
  cases o with
  | new m => exact ⟨s, .refl, rfl, rfl⟩
  | assign r a => exact ⟨s, .refl, rfl⟩
  | send m r t =>
    cases m with
    | getPipeline =>
      simp only [prompt]
      split
      · next j pid h => exact ⟨s, .refl, j, pid, h, rfl⟩
      · exact ⟨s, .refl, And.intro foreign_closedChannel rfl⟩
    | _ => exact ⟨s, .refl, rfl⟩
  | recv m =>
    cases m with
    | getPipeline =>
      -- the server answers first, and the thread receives that
      simp only [prompt]
      split
      · next state h =>
        obtain ⟨pid, hw, hs⟩ := Option.bind_eq_some_iff.mp h
        exact ⟨_, .single (.answers hw hs), settle_reply _ _ _, rfl⟩
      · exact ⟨s, .refl, And.intro foreign_closedChannel rfl⟩
    | _ => exact ⟨s, .refl, rfl⟩
  | sleep d => exact ⟨_, .single (.changes (everywhere 1)), rfl⟩
  | _ => exact ⟨s, .refl, rfl⟩

/-- A wait for a pipeline that recovers, and a look at it afterwards. -/
def waitThenLook : List RunOp := [.waitRunning ⟨"p"⟩ 30 (1 / 5) 2, .status ⟨"p"⟩ 5]

/-- Both threads at the beginning of it; all pipelines are recovering. -/
def waitThenLookStart : Config Host Bool Exn (List Report) (Chronicle Bool) :=
  ⟨fun _ => some (series plainRuntime waitThenLook), { server := ⟨[], everywhere 4⟩ }⟩

theorem waitThenLook_reports :
    ((series plainRuntime waitThenLook).eval (prompt true) waitThenLookStart.state).1 =
      .ok [.ok (some ⟨"running", "", "unspecified"⟩),
        .ok (some ⟨"running", "", "unspecified"⟩)] := by
  decide +kernel

theorem series_reflects_recovering :
    ∃ c, Reach (chronicleWorld Bool) waitThenLookStart c ∧
      InOrder (Shows plainRuntime c.state) c.state.now 0 waitThenLook
        [.ok (some ⟨"running", "", "unspecified"⟩), .ok (some ⟨"running", "", "unspecified"⟩)] := by
  have hlawful := Lawful.of_invariant (W := chronicleWorld Bool) (i := true) (T := fun _ => True)
    (fun s o _ => ⟨prompt_answer true s o, trivial⟩) (series plainRuntime waitThenLook)
    (s := waitThenLookStart.state) trivial
  obtain ⟨c, hreach, hend, -, -⟩ := hlawful.exists_reach (t := waitThenLookStart.thread) rfl
  obtain ⟨reports, hreports, horder⟩ := series_reflects (i := true) rfl hreach hend
  rw [waitThenLook_reports] at hreports
  obtain rfl := Except.ok.inj hreports
  exact ⟨c, hreach, horder⟩

end RunOp

end Conduit
