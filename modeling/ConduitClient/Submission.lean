import ConduitClient.Session

/-!
# Submitting a pipeline

What `Client.run` does against a scripted server, for every builder, every script and from
every state of an open client.

`eval_run` gives the outcome and the trace of a submission in closed form, in terms of
`Script.submit`. The lemmas about `Script.submit` (a prefix, all of it when it succeeds, up to
the one failure when it does not) then give the properties of the trace (`Submission`).
-/

namespace Conduit

open Effect

variable {lib : Codec} {script : Script} {s : Session}

/-! ### How far a list of RPCs goes -/

/-- Every RPC of the list has a response, counting positions from `k`. -/
def Script.AllAcked (script : Script) (k : Nat) (rpcs : List Rpc) : Prop :=
  ∀ i rpc, rpcs[i]? = some rpc → ∃ resp, script.reply (k + i) rpc.method = .ok resp

theorem Script.allAcked_nil (k : Nat) : script.AllAcked k [] := by
  intro i rpc h
  simp at h

theorem Script.AllAcked.cons {k : Nat} {rpc : Rpc} {rpcs : List Rpc} {resp : Response rpc.method}
    (h : script.reply k rpc.method = .ok resp) (hs : script.AllAcked (k + 1) rpcs) :
    script.AllAcked k (rpc :: rpcs) := by
  intro i rpc' hi
  cases i with
  | zero =>
    obtain rfl : rpc = rpc' := by simpa using hi
    exact ⟨resp, h⟩
  | succ i =>
    rw [show k + (i + 1) = k + 1 + i by omega]
    exact hs i rpc' (by simpa using hi)

/-- What is issued is a prefix. -/
theorem Script.submit_isPrefix (k : Nat) (rpcs : List Rpc) :
    (script.submit k rpcs).1 <+: rpcs := by
  induction rpcs generalizing k with
  | nil => exact List.prefix_rfl
  | cons rpc rpcs ih =>
    rw [submit]
    cases script.reply k rpc.method with
    | error e => exact ⟨rpcs, rfl⟩
    | ok resp => exact List.prefix_cons_inj rpc |>.mpr (ih (k + 1))

/-- A submission that succeeds issued everything, and everything was acknowledged. -/
theorem Script.submit_ok {k : Nat} {rpcs : List Rpc} {u : Unit}
    (h : (script.submit k rpcs).2 = .ok u) :
    (script.submit k rpcs).1 = rpcs ∧ script.AllAcked k rpcs := by
  induction rpcs generalizing k with
  | nil => exact ⟨rfl, allAcked_nil k⟩
  | cons rpc rpcs ih =>
    rw [submit] at h ⊢
    cases hr : script.reply k rpc.method with
    | error e => simp [hr] at h
    | ok resp =>
      simp only [hr] at h
      obtain ⟨hall, hack⟩ := ih h
      exact ⟨congrArg (rpc :: ·) hall, hack.cons hr⟩

/-- A submission that fails issued the RPC that failed last, and everything before it was
acknowledged. -/
theorem Script.submit_error {k : Nat} {rpcs : List Rpc} {e : RpcError}
    (h : (script.submit k rpcs).2 = .error e) :
    ∃ before failed, (script.submit k rpcs).1 = before ++ [failed] ∧
      script.AllAcked k before ∧
      script.reply (k + before.length) failed.method = .error e := by
  induction rpcs generalizing k with
  | nil => simp [submit] at h
  | cons rpc rpcs ih =>
    rw [submit] at h ⊢
    cases hr : script.reply k rpc.method with
    | error e' =>
      obtain rfl : e' = e := by simpa [hr] using h
      exact ⟨[], rpc, rfl, allAcked_nil k, hr⟩
    | ok resp =>
      simp only [hr] at h
      obtain ⟨before, failed, hsent, hack, hfail⟩ := ih h
      refine ⟨rpc :: before, failed, by simp [hsent], hack.cons hr, ?_⟩
      rwa [List.length_cons, show k + (before.length + 1) = k + 1 + before.length by omega]

theorem Script.AllAcked.mono {k : Nat} {xs ys : List Rpc} (h : script.AllAcked k ys)
    (hp : xs <+: ys) : script.AllAcked k xs := by
  intro i rpc hi
  obtain ⟨zs, rfl⟩ := hp
  refine h i rpc ?_
  rwa [List.getElem?_append_left (List.getElem?_eq_some_iff.mp hi).1]

/-- Whatever was issued before the last RPC was acknowledged. -/
theorem Script.submit_before_last {k : Nat} {rpcs before : List Rpc} {last : Rpc}
    (h : (script.submit k rpcs).1 = before ++ [last]) : script.AllAcked k before := by
  cases hout : (script.submit k rpcs).2 with
  | ok u =>
    obtain ⟨hall, hack⟩ := submit_ok hout
    exact hack.mono ⟨[last], by rw [← h, hall]⟩
  | error e =>
    obtain ⟨before', failed, hsent, hack, -⟩ := submit_error hout
    obtain ⟨rfl, -⟩ := List.append_inj' (h.symm.trans hsent) rfl
    exact hack

/-! ### One submission -/

/-- What `run` does to an exception of its `try` block. -/
def Exn.withPipelineId (pid : String) : Exn → Exn
  | .conduit e => .conduit { e with pipelineId := pid }
  | e => e

/-- The RPCs a submission issues from position `k` of the trace, and its outcome. -/
def Script.runs (script : Script) (lib : Codec) (pl : Payloads) (start : Bool) (k : Nat) :
    List Rpc × Except Exn Run :=
  match script.reply k .createPipeline with
  | .error e => ([pl.createRpc], .error (translated lib e))
  | .ok pid =>
    let r := script.submit (k + 1) (pl.followUps pid start)
    (pl.createRpc :: r.1,
      (r.2.mapError fun e => (translated lib e).withPipelineId pid).map fun _ => ⟨pid⟩)

theorem eval_startIf (lib : Codec) (script : Script) (start : Bool) (pid : String) (t : ℚ)
    (hopen : s.channelOpen = true) :
    ∃ heap, (Client.startIf lib start pid t).eval script.handle s =
      ((script.submit s.trace.length (if start then [startRpc pid] else [])).2.mapError
          (translated lib),
        { s with
          heap := heap
          trace := s.trace ++
            (script.submit s.trace.length (if start then [startRpc pid] else [])).1 }) := by
  cases start with
  | false => exact ⟨s.heap, by simp [Client.startIf, Script.submit, Except.mapError]⟩
  | true =>
    -- a list of one job, in a message of its own
    have hj := eval_jobs lib script
      (s := { s with heap := s.heap ++ [.startPipeline pid] }) t
      [⟨.startPipeline, [], s.heap.length⟩] [startRpc pid] hopen
      (.cons ⟨.startPipeline pid, by simp, rfl⟩ .nil) (by simp)
    obtain ⟨heap, hh⟩ := hj
    refine ⟨heap, ?_⟩
    rw [Prog.forEach_cons, Prog.forEach_nil] at hh
    refine Eq.trans ?_ hh
    simp only [Client.startIf, if_true, bind_pure_unit]
    rfl

/-- The `try` block of `run` goes as far as the script lets the RPCs go. -/
theorem eval_submitAll (lib : Codec) (script : Script) (pl : Payloads) (pid : String)
    (start : Bool) (t : ℚ) (b : List Message) (hopen : s.channelOpen = true)
    (hheap : s.heap = b ++ .createPipeline pl.createPipeline :: pl.resources) :
    ∃ heap, (Client.submitAll lib (pl.plan b.length) pid start t).eval script.handle s =
      ((script.submit s.trace.length (pl.followUps pid start)).2.mapError (translated lib),
        { s with
          heap := heap
          trace := s.trace ++ (script.submit s.trace.length (pl.followUps pid start)).1 }) := by
  obtain ⟨heap, hjobs⟩ := eval_jobs lib script t
    ((pl.plan b.length).jobs pid) (pl.resourceRpcs pid) hopen
    (by rw [hheap]; exact pl.loaded pid b)
    (by rw [pl.jobs_request]; exact List.nodup_range')
  rw [Client.submitAll_eq, Payloads.followUps, Script.submit_append]
  cases hr : script.submit s.trace.length (pl.resourceRpcs pid) with
  | mk sent out =>
    rw [hr] at hjobs
    cases out with
    | error e => exact ⟨heap, Prog.eval_bind_error _ hjobs⟩
    | ok u =>
      obtain ⟨heap', hstart⟩ := eval_startIf lib script
        (s := { s with heap := heap, trace := s.trace ++ sent }) start pid t hopen
      -- everything before the start was sent
      have hsent : sent = pl.resourceRpcs pid := by
        have := (Script.submit_ok (k := s.trace.length) (by rw [hr])).1
        rwa [hr] at this
      subst hsent
      refine ⟨heap', (Prog.eval_bind_ok _ hjobs).trans (hstart.trans ?_)⟩
      simp only [List.length_append, List.append_assoc]

/-- **A submission in closed form.** From every state with an open channel. -/
theorem eval_run (lib : Codec) (script : Script) {p : Pipeline} {pl : Payloads}
    (h : p.payloads = .ok pl) (start : Bool) (t : ℚ) (hopen : s.channelOpen = true) :
    ∃ heap, (Client.run lib p start t).eval script.handle s =
      ((script.runs lib pl start s.trace.length).2,
        { s with
          heap := heap
          trace := s.trace ++ (script.runs lib pl start s.trace.length).1 }) := by
  unfold Client.run
  rw [Prog.eval_bind_ok _ (eval_buildRequests h)]
  -- the first RPC is outside the `try` block: its failure carries no id
  have hmsg : (s.heap ++ .createPipeline pl.createPipeline :: pl.resources)[s.heap.length]? =
      some (.createPipeline pl.createPipeline) := by simp
  have hcall := eval_call lib script (s := { s with
    heap := s.heap ++ .createPipeline pl.createPipeline :: pl.resources }) .createPipeline t
    hopen hmsg
  unfold Script.runs
  cases hrep : script.reply s.trace.length .createPipeline with
  | error e =>
    rw [hrep] at hcall
    exact ⟨_, Prog.eval_bind_error _ hcall⟩
  | ok pid =>
    rw [hrep] at hcall
    -- the others are inside, from the state that the first one has left
    obtain ⟨heap, hall⟩ := eval_submitAll lib script (s := { s with
      heap := s.heap ++ .createPipeline pl.createPipeline :: pl.resources
      trace := s.trace ++ [pl.createRpc] }) pl pid start t s.heap hopen rfl
    refine ⟨heap, (Prog.eval_bind_ok _ hcall).trans ?_⟩
    simp only [List.length_append, List.length_cons, List.length_nil, Nat.zero_add,
      List.append_assoc, List.cons_append, List.nil_append] at hall ⊢
    cases hout : (script.submit (s.trace.length + 1) (pl.followUps pid start)).2 with
    | ok u =>
      rw [hout] at hall
      exact Prog.eval_bind_ok _ (Prog.eval_tryCatch_ok _ hall)
    | error e =>
      rw [hout] at hall
      refine Prog.eval_bind_error _ ((Prog.eval_tryCatch_error _ hall).trans ?_)
      change _ = (Except.error ((translated lib e).withPipelineId pid), _)
      generalize translated lib e = x
      cases x <;> rfl

/-- A builder with a payload that cannot be built submits nothing. -/
theorem eval_run_unbuildable (lib : Codec) (script : Script) {p : Pipeline} {e : Exn}
    (h : p.payloads = .error e) (start : Bool) (t : ℚ) :
    ∃ heap, (Client.run lib p start t).eval script.handle s =
      (.error e, { s with heap := heap }) := by
  obtain ⟨heap, hh⟩ := eval_buildRequests_error script (s := s) h
  exact ⟨heap, Prog.eval_bind_error _ hh⟩

/-! ### The trace of a submission -/

/-- What a submission of `pl` issues from position `k` of the trace, and how it ends. -/
structure Submission (script : Script) (lib : Codec) (pl : Payloads) (start : Bool) (k : Nat)
    (issued : List Rpc) (out : Except Exn Run) : Prop where
  /-- The RPCs are a prefix of the canonical sequence, for the id in the response to the
  first. -/
  isPrefix : ∃ pid, issued <+: pl.canonical pid start ∧
    (1 < issued.length → script.reply k .createPipeline = .ok pid)
  /-- A submission that returned is complete, acknowledged throughout, and holds the id. -/
  returned : ∀ run, out = .ok run →
    script.reply k .createPipeline = .ok run.pipelineId ∧
      issued = pl.canonical run.pipelineId start ∧ script.AllAcked k issued
  /-- A submission that raised ends with the one RPC that failed. -/
  raised : ∀ e, out = .error e → ∃ before failed err, issued = before ++ [failed] ∧
    script.AllAcked k before ∧ script.reply (k + before.length) failed.method = .error err
  /-- Every RPC after the first is about the pipeline that the server created. -/
  target : ∀ i rpc, issued[i + 1]? = some rpc → ∃ pid,
    script.reply k .createPipeline = .ok pid ∧ rpc.request.target = some pid
  /-- The pipeline is started last, when everything declared has been acknowledged. -/
  startLast : ∀ i rpc, issued[i]? = some rpc → rpc.method = .startPipeline → start = true ∧
    ∃ pid, issued = pl.createRpc :: pl.resourceRpcs pid ++ [startRpc pid] ∧
      i = (pl.resourceRpcs pid).length + 1 ∧
      script.AllAcked k (pl.createRpc :: pl.resourceRpcs pid)
  /-- A `ConduitError` raised after the pipeline was created carries its id. -/
  carriesId : ∀ e, out = .error (.conduit e) → ∀ pid,
    script.reply k .createPipeline = .ok pid → e.pipelineId = pid

theorem withPipelineId_conduit {pid : String} {x : Exn} {e : ConduitError}
    (h : x.withPipelineId pid = .conduit e) : e.pipelineId = pid := by
  cases x <;> simp [Exn.withPipelineId] at h
  simp [← h]

/-- Nothing but the last RPC of the canonical sequence starts a pipeline. -/
theorem method_of_mem_resourceRpcs {pl : Payloads} {pid : String} {rpc : Rpc}
    (h : rpc ∈ pl.createRpc :: pl.resourceRpcs pid) : rpc.method ≠ .startPipeline := by
  rcases List.mem_cons.mp h with rfl | h
  · exact nofun
  · exact Payloads.forall_resourceRpcs (P := fun rpc => rpc.method ≠ .startPipeline)
      (fun _ => nofun) (fun _ => nofun) (fun _ => nofun) rpc h

/-- The start comes behind everything else of the canonical sequence. -/
theorem canonical_startPipeline {pl : Payloads} {pid : String} {start : Bool} {i : Nat}
    {rpc : Rpc} (hi : (pl.canonical pid start)[i]? = some rpc)
    (hm : rpc.method = .startPipeline) :
    start = true ∧ i = (pl.resourceRpcs pid).length + 1 := by
  unfold Payloads.canonical Payloads.followUps at hi
  rw [← List.cons_append] at hi
  by_cases hlt : i < (pl.createRpc :: pl.resourceRpcs pid).length
  · rw [List.getElem?_append_left hlt] at hi
    exact absurd hm (method_of_mem_resourceRpcs (List.mem_of_getElem? hi))
  · rw [List.getElem?_append_right (by omega)] at hi
    cases start with
    | false => simp at hi
    | true =>
      simp only [if_true, List.getElem?_singleton, List.length_cons] at hi hlt ⊢
      split at hi
      · exact ⟨trivial, by omega⟩
      · cases hi

/-- A server that refuses the pipeline ends the submission at its first RPC. -/
theorem Script.submission_refused (lib : Codec) (pl : Payloads) (start : Bool) {k : Nat}
    {e : RpcError} (hc : script.reply k .createPipeline = .error e) :
    Submission script lib pl start k [pl.createRpc] (.error (translated lib e)) where
  isPrefix := ⟨"", ⟨pl.followUps "" start, rfl⟩, by simp⟩
  returned := by simp
  raised _ _ := ⟨[], pl.createRpc, e, rfl, script.allAcked_nil k, hc⟩
  target := by simp
  startLast i rpc hi hm := by
    obtain rfl : pl.createRpc = rpc := by cases i <;> simp_all
    cases hm
  carriesId _ _ pid h := by
    rw [hc] at h
    cases h

section Created

variable {lib : Codec} {pl : Payloads} {start : Bool} {k : Nat} {pid : String}

/-- Where the start was sent, so was everything before it, and all of that was acknowledged. -/
theorem Script.submit_startLast (hc : script.reply k .createPipeline = .ok pid) {i : Nat}
    {rpc : Rpc}
    (hi : (pl.createRpc :: (script.submit (k + 1) (pl.followUps pid start)).1)[i]? = some rpc)
    (hm : rpc.method = .startPipeline) :
    start = true ∧ (script.submit (k + 1) (pl.followUps pid start)).1 =
        pl.resourceRpcs pid ++ [startRpc pid] ∧
      i = (pl.resourceRpcs pid).length + 1 ∧
      script.AllAcked k (pl.createRpc :: pl.resourceRpcs pid) := by
  have hpre := script.submit_isPrefix (k + 1) (pl.followUps pid start)
  set sent := (script.submit (k + 1) (pl.followUps pid start)).1 with hsent
  -- the position is one of the canonical sequence, so it is the last one
  have hcan : pl.createRpc :: sent <+: pl.canonical pid start :=
    (List.prefix_cons_inj pl.createRpc).mpr hpre
  have hlt : i < (pl.createRpc :: sent).length := (List.getElem?_eq_some_iff.mp hi).1
  have hgi : (pl.canonical pid start)[i]? = some rpc := by
    obtain ⟨rest, hrest⟩ := hcan
    rw [← hrest, List.getElem?_append_left hlt, hi]
  obtain ⟨rfl, rfl⟩ := canonical_startPipeline hgi hm
  -- hence the trace is as long as the whole sequence
  have hwhole : sent = pl.resourceRpcs pid ++ [startRpc pid] := by
    refine hpre.eq_of_length_le ?_
    rw [Payloads.followUps, if_pos rfl, List.length_append, List.length_singleton]
    rw [List.length_cons] at hlt
    omega
  have hacked : script.AllAcked (k + 1) (pl.resourceRpcs pid) :=
    Script.submit_before_last (hsent ▸ hwhole)
  exact ⟨rfl, hwhole, rfl, Script.AllAcked.cons hc hacked⟩

/-- A submission to a server that creates the pipeline, under the id of the response. -/
theorem Script.submission_created (hc : script.reply k .createPipeline = .ok pid) :
    Submission script lib pl start k
      (pl.createRpc :: (script.submit (k + 1) (pl.followUps pid start)).1)
      (((script.submit (k + 1) (pl.followUps pid start)).2.mapError fun e =>
        (translated lib e).withPipelineId pid).map fun _ => ⟨pid⟩) where
  isPrefix := by
    refine ⟨pid, ?_, fun _ => hc⟩
    rw [Payloads.canonical, List.prefix_cons_inj]
    exact script.submit_isPrefix (k + 1) (pl.followUps pid start)
  returned run hrun := by
    cases hout : (script.submit (k + 1) (pl.followUps pid start)).2 with
    | error e => simp [hout, Except.mapError, Except.map] at hrun
    | ok u =>
      obtain rfl : ⟨pid⟩ = run := by simpa [hout, Except.mapError, Except.map] using hrun
      obtain ⟨hall, hack⟩ := Script.submit_ok hout
      exact ⟨hc, congrArg (pl.createRpc :: ·) hall, Script.AllAcked.cons hc (by rwa [hall])⟩
  raised e he := by
    cases hout : (script.submit (k + 1) (pl.followUps pid start)).2 with
    | ok u => simp [hout, Except.mapError, Except.map] at he
    | error err =>
      obtain ⟨before, failed, hsent, hack, hfail⟩ := Script.submit_error hout
      refine ⟨pl.createRpc :: before, failed, err, ?_, hack.cons hc, ?_⟩
      · rw [hsent, List.cons_append]
      · rwa [List.length_cons, show k + (before.length + 1) = k + 1 + before.length by omega]
  target i rpc hi := by
    have hpre := script.submit_isPrefix (k + 1) (pl.followUps pid start)
    rw [List.getElem?_cons_succ] at hi
    have hmem := hpre.subset (List.mem_of_getElem? hi)
    exact ⟨pid, hc, Payloads.target_of_mem_followUps hmem⟩
  startLast i rpc hi hm := by
    obtain ⟨hs, hwhole, hlast, hacked⟩ := Script.submit_startLast hc hi hm
    exact ⟨hs, pid, congrArg (pl.createRpc :: ·) hwhole, hlast, hacked⟩
  carriesId e he pid' hpid' := by
    obtain rfl : pid = pid' := by simpa [hc] using hpid'
    -- every failure here has gone through the `except` clause
    cases hout : (script.submit (k + 1) (pl.followUps pid start)).2 with
    | ok u => simp [hout, Except.mapError, Except.map] at he
    | error err =>
      refine withPipelineId_conduit (x := translated lib err) ?_
      simpa [hout, Except.mapError, Except.map] using he

end Created

/-- The closed form of a submission has these properties. -/
theorem Script.runs_submission (lib : Codec) (pl : Payloads) (start : Bool) (k : Nat) :
    Submission script lib pl start k (script.runs lib pl start k).1
      (script.runs lib pl start k).2 := by
  unfold Script.runs
  cases hc : script.reply k .createPipeline with
  | error e => exact submission_refused lib pl start hc
  | ok pid => exact submission_created hc

/-! ### Every builder -/

/-- The payloads are those of what the calls on the builder declared, one for one and in
order. -/
structure Declares (id : String) (name : Option String) (description : String)
    (cs : List BuilderCall) (pl : Payloads) : Prop where
  createPipeline : pl.createPipeline = ⟨name.getD id, description⟩
  connectors : List.Forall₂ (fun c m => ConnectorSpec.toRequest c = .ok m)
    (cs.filterMap BuilderCall.connector?) pl.connectors
  processors : List.Forall₂ (fun c m => ProcessorSpec.toRequest c = .ok m)
    (cs.filterMap BuilderCall.processor?) pl.processors
  dlq : List.Forall₂ (fun c m => DLQSpec.toRequest c = .ok m)
    (cs.filterMap BuilderCall.dlq?).getLast?.toList pl.dlq.toList

/-- What the builder renders is what was declared on it. -/
theorem declares_of_payloads {id : String} {name : Option String} {description : String}
    {cs : List BuilderCall} {pl : Payloads}
    (h : ((Pipeline.init id name description).calls cs).payloads = .ok pl) :
    Declares id name description cs pl := by
  obtain ⟨hcreate, hc, hp, hd⟩ := Pipeline.payloads_ok h
  rw [Pipeline.calls_name, Pipeline.calls_description] at hcreate
  rw [Pipeline.calls_connectors] at hc
  rw [Pipeline.calls_processors] at hp
  rw [Pipeline.calls_dlq] at hd
  simp only [Pipeline.init, List.nil_append, Option.or_none] at hc hp hd
  exact ⟨hcreate, forall₂_of_mapM hc, forall₂_of_mapM hp, hd⟩

/-- **The trace of a submission.** For every chain of calls on a builder, every script and
every open client: either all payloads can be built, and the RPCs issued are a submission of
what was declared; or one cannot be built, and nothing is issued. -/
theorem run_trace (lib : Codec) (script : Script) (id : String) (name : Option String)
    (description : String) (cs : List BuilderCall) (start : Bool) (timeout : ℚ) (s : Session)
    (hopen : s.channelOpen = true) :
    let out := (Client.run lib ((Pipeline.init id name description).calls cs) start
      timeout).eval script.handle s
    ∃ issued, out.2.trace = s.trace ++ issued ∧
      ((∃ pl, Declares id name description cs pl ∧
          Submission script lib pl start s.trace.length issued out.1) ∨
        ∃ e, ((Pipeline.init id name description).calls cs).payloads = .error e ∧
          out.1 = .error e ∧ issued = []) := by
  intro out
  cases hpl : ((Pipeline.init id name description).calls cs).payloads with
  | error e =>
    obtain ⟨heap, hh⟩ := eval_run_unbuildable lib script (s := s) hpl start
      timeout
    exact ⟨[], by simp [out, hh], Or.inr ⟨e, rfl, by simp [out, hh], rfl⟩⟩
  | ok pl =>
    obtain ⟨heap, hh⟩ := eval_run lib script hpl start timeout hopen
    refine ⟨(script.runs lib pl start s.trace.length).1, by simp [out, hh],
      Or.inl ⟨pl, declares_of_payloads hpl, ?_⟩⟩
    simpa only [out, hh] using script.runs_submission lib pl start s.trace.length

/-- A server that answers every call, and a clock that stands still. -/
def obliging : Script where
  reply _
    | .createPipeline => .ok "p1"
    | .getPipeline => .ok ⟨1, "", 0⟩
    | .getInfo => .ok ⟨"0.18.0", "linux", "amd64"⟩
    | .createConnector | .createProcessor | .updateDLQ | .startPipeline | .stopPipeline => .ok ()
  clock _ := 0

/-- A source, a destination and a dead-letter queue. -/
def ordersCalls : List BuilderCall :=
  [.source "postgres" "" none .empty, .destination "file" "" none .empty,
    .dlq "log" none none none .empty]

/-- A submission to an obliging server is a whole one. -/
theorem run_trace_orders :
    ∃ issued pl, Declares "orders" none "" ordersCalls pl ∧
      Submission obliging emptyCodec pl true 0 issued
        ((Client.run emptyCodec ((Pipeline.init "orders" none "").calls ordersCalls) true
          10).eval obliging.handle newSession).1 := by
  obtain ⟨issued, -, ⟨pl, hdecl, hsub⟩ | ⟨e, he, -⟩⟩ :=
    run_trace emptyCodec obliging "orders" none "" ordersCalls true 10 newSession rfl
  · exact ⟨issued, pl, hdecl, hsub⟩
  · have hok : ((Pipeline.init "orders" none "").calls ordersCalls).payloads.isOk = true := by
      decide
    rw [he] at hok
    cases hok

/-- A processor with more workers than an `int32` holds. -/
def tooManyWorkers : List BuilderCall := [.process "base64.encode" "" (some (2 ^ 31)) none .empty]

/-- A payload that cannot be built makes `run` raise before it issues anything, so that no
RPC is the one that failed. -/
theorem run_unbuildable_issues_nothing :
    let out := (Client.run emptyCodec ((Pipeline.init "orders" none "").calls tooManyWorkers)
      true 10).eval obliging.handle newSession
    out.1 = .error (.value "Value out of range") ∧
      ¬ ∃ before failed, out.2.trace = before ++ [failed] := by
  have hp : ((Pipeline.init "orders" none "").calls tooManyWorkers).payloads =
      .error (.value "Value out of range") := by decide
  obtain ⟨heap, hh⟩ := eval_run_unbuildable emptyCodec obliging
    (s := newSession) hp true 10
  rw [hh]
  exact ⟨rfl, by simp [newSession]⟩

end Conduit
