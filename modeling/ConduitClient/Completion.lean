import ConduitClient.Builder

/-!
# Payloads before requests

`run` never rolls back, so what cannot be sent has to be found before the first request goes
out. Every payload is constructed by `build_requests`, and the constructors check what they are
given (`Pipeline.Fits`). What is left to do after `CreatePipeline` is to put the id of the new
pipeline into messages that exist, which cannot fail.

`run_fails_first` says so for every builder and every server, whatever the id. `Accepted` is what
protobuf demands of an operation on a message object; where it is met, the total
`Message.assign` of the host is the assignment that protobuf makes.
-/

namespace Conduit

open Effect

variable {lib : Codec} {script : Script} {s : Session}

/-! ### What fits the wire -/

/-- Every request of the builder fits its fields. -/
structure Pipeline.Fits (p : Pipeline) : Prop where
  connectors : ∀ c ∈ p.connectors, c.Fits
  processors : ∀ c ∈ p.processors, c.Fits
  dlq : ∀ d ∈ p.dlq, d.Fits

/-- A list of constructors raises exactly when one of them does. -/
theorem mapM_ok_iff {α β : Type} (f : α → Except Exn β) (as : List α) :
    (∃ bs, as.mapM f = .ok bs) ↔ ∀ a ∈ as, ∃ b, f a = .ok b := by
  constructor
  · rintro ⟨bs, hbs⟩ a ha
    obtain ⟨b, -, hb⟩ := exists_of_forall₂ (forall₂_of_mapM hbs) ha
    exact ⟨b, hb⟩
  · intro hall
    cases hbs : as.mapM f with
    | ok bs => exact ⟨bs, rfl⟩
    | error e =>
      obtain ⟨a, ha, he⟩ := mapM_error hbs
      obtain ⟨b, hb⟩ := hall a ha
      cases hb.symm.trans he

/-- The payloads can be built when all of them fit, wherever they stand. -/
theorem Pipeline.payloads_ok_iff {p : Pipeline} : (∃ pl, p.payloads = .ok pl) ↔ p.Fits := by
  have hconnectors := mapM_ok_iff ConnectorSpec.toRequest p.connectors
  have hprocessors := mapM_ok_iff ProcessorSpec.toRequest p.processors
  simp only [ConnectorSpec.fits_iff] at hconnectors
  simp only [ProcessorSpec.fits_iff] at hprocessors
  constructor
  · rintro ⟨pl, hpl⟩
    obtain ⟨-, hc, hp, hd⟩ := payloads_ok hpl
    refine ⟨hconnectors.mp ⟨_, hc⟩, hprocessors.mp ⟨_, hp⟩, fun d hmem => ?_⟩
    obtain ⟨m, -, hm⟩ := exists_of_forall₂ hd (Option.mem_toList.mpr hmem)
    exact DLQSpec.fits_iff.mp ⟨m, hm⟩
  · intro hfits
    cases hpl : p.payloads with
    | ok pl => exact ⟨pl, rfl⟩
    | error e =>
      exfalso
      -- whichever constructor raised was given something that fits
      rcases payloads_error hpl with hc | ⟨-, -, hp | ⟨-, d, -, hsome, hd⟩⟩
      · obtain ⟨bs, hbs⟩ := hconnectors.mpr hfits.connectors
        cases hbs.symm.trans hc
      · obtain ⟨bs, hbs⟩ := hprocessors.mpr hfits.processors
        cases hbs.symm.trans hp
      · obtain ⟨m, hm⟩ := DLQSpec.fits_iff.mpr (hfits.dlq d hsome)
        cases hm.symm.trans hd

/-! ### What protobuf accepts -/

/-- An assignment as protobuf makes it: it raises where the message has no such field. A string
field takes every string and an enum field the numbers of the enum. -/
def Message.assign? : Message → Assignment → Option Message
  | .createConnector m, .pipelineId id => some (.createConnector { m with pipelineId := id })
  | .createProcessor m, .parentType t => some (.createProcessor { m with parentType := t })
  | .createProcessor m, .parentId id => some (.createProcessor { m with parentId := id })
  | .updateDLQ m, .dlqId id => some (.updateDLQ { m with id := id })
  | _, _ => none

/-- A message takes an assignment: it has the field. -/
def Message.Takes (m : Message) (a : Assignment) : Prop := m.assign? a = some (m.assign a)

/-- The message object at `r` takes an assignment. -/
def Session.Takes (s : Session) (r : Ref) (a : Assignment) : Prop :=
  ∃ m, s.heap[r]? = some m ∧ m.Takes a

/-- Protobuf accepts the operation: an assignment is one that the message object takes. -/
def Accepted (s : Session) : HostOp → Prop
  | .assign r a => s.Takes r a
  | _ => True

/-- The fields of a message stay. -/
theorem Message.Takes.assign {m : Message} {a : Assignment} (h : m.Takes a) (b : Assignment) :
    (m.assign b).Takes a := by
  -- an assignment does not change what kind of message it is
  cases m <;> cases a <;> first | (cases b <;> rfl) | cases h

/-- What an operation does to the message objects: one is added, one is changed, or none. -/
theorem Script.handle_heap (script : Script) (s : Session) (o : HostOp) :
    (∃ m, (script.handle s o).2.heap = s.heap ++ [m]) ∨
      (∃ r a, (script.handle s o).2.heap = s.heap.modify r (·.assign a)) ∨
      (script.handle s o).2.heap = s.heap := by
  cases o with
  | new m => exact Or.inl ⟨m, rfl⟩
  | assign r a => exact Or.inr (Or.inl ⟨r, a, rfl⟩)
  | send m r t =>
    refine Or.inr (Or.inr ?_)
    simp only [handle]
    split <;> rfl
  | sleep d =>
    refine Or.inr (Or.inr ?_)
    simp only [handle]
    split <;> rfl
  | getAttr attr | setAttr attr b => cases attr <;> exact Or.inr (Or.inr rfl)
  | _ => exact Or.inr (Or.inr rfl)

/-- What a message object takes it takes after every operation. -/
theorem Session.Takes.handle {r : Ref} {a : Assignment} (h : s.Takes r a) (o : HostOp) :
    (script.handle s o).2.Takes r a := by
  obtain ⟨m, hm, htakes⟩ := h
  unfold Session.Takes
  rcases script.handle_heap s o with ⟨m', heap⟩ | ⟨r', b, heap⟩ | heap
  · rw [heap, List.getElem?_append_left (List.getElem?_eq_some_iff.mp hm).1]
    exact ⟨m, hm, htakes⟩
  · rw [heap, List.getElem?_modify, hm]
    by_cases hr : r' = r
    · exact ⟨m.assign b, by simp [hr], htakes.assign b⟩
    · exact ⟨m, by simp [hr], htakes⟩
  · rw [heap]
    exact ⟨m, hm, htakes⟩

/-! ### The operations of a submission -/

/-- The plan is built without any other operation. -/
theorem only_buildRequests (p : Pipeline) :
    p.buildRequests.Only fun o : HostOp => ∃ m, o = .new m := by
  have hnew (m : Except Exn Message) : (newMessage m).Only fun o : HostOp => ∃ m, o = .new m :=
    .bind (by trivial) fun m => .perform ⟨m, rfl⟩
  refine (hnew _).bind fun _ => ?_
  refine (Prog.Only.collect (fun _ => hnew _) _).bind fun _ => ?_
  refine (Prog.Only.collect (fun _ => hnew _) _).bind fun _ => ?_
  cases p.dlq with
  | none => trivial
  | some d => exact (hnew _).bind fun _ => trivial

/-- An assignment is one of the plan, for some id of the pipeline. -/
def OfPlan (plan : BuildPlan) (o : HostOp) : Prop :=
  ∀ r a, o = .assign r a → ∃ pid, ∃ job ∈ plan.jobs pid, job.request = r ∧ a ∈ job.assignments

/-- From the plan on, `run` assigns what the jobs of the plan say. -/
theorem only_submitPlan (lib : Codec) (plan : BuildPlan) (start : Bool) (timeout : ℚ) :
    (Client.call lib .createPipeline plan.createPipeline timeout >>= fun pid =>
      (Client.submitAll lib plan pid start timeout).tryCatch (fun
        | .conduit e => Prog.raise (.conduit { e with pipelineId := pid })
        | e => Prog.raise e) >>= fun _ => (pure ⟨pid⟩ : HostM Run)).Only (OfPlan plan) := by
  have hcall (m : Method) (r : Ref) : (Client.call lib m r timeout).Only (OfPlan plan) :=
    only_call lib m r timeout (by simp [OfPlan]) (by simp [OfPlan])
  refine (hcall _ _).bind fun pid => ?_
  refine Prog.Only.bind (.tryCatch ?_ fun e => by cases e <;> trivial) fun _ => trivial
  rw [Client.submitAll_eq]
  refine .bind (.forEach fun job hjob => ?_) fun _ => ?_
  · refine .bind (.forEach fun a ha => .perform ?_) fun _ => (hcall _ _).bind fun _ => trivial
    rintro r b hb
    cases hb
    exact ⟨pid, job, hjob, rfl, ha⟩
  · unfold Client.startIf
    split
    · exact .bind (.perform (by simp [OfPlan])) fun _ => (hcall _ _).bind fun _ => trivial
    · trivial

/-- `run` builds and changes message objects, and calls stubs. -/
theorem only_run {φ : HostOp → Prop} (lib : Codec) (p : Pipeline) (start : Bool) (timeout : ℚ)
    (hnew : ∀ m, φ (.new m)) (hassign : ∀ r a, φ (.assign r a))
    (hsend : ∀ m r, φ (.send m r timeout)) (hrecv : ∀ m, φ (.recv m)) :
    (Client.run lib p start timeout).Only φ := by
  have hcall (m : Method) (r : Ref) : (Client.call lib m r timeout).Only φ :=
    only_call lib m r timeout (hsend m r) (hrecv m)
  have hbuild : p.buildRequests.Only φ := (only_buildRequests p).mono fun o ⟨m, ho⟩ => ho ▸ hnew m
  refine hbuild.bind fun plan => (hcall _ _).bind fun pid => ?_
  refine Prog.Only.bind (.tryCatch ?_ fun e => by cases e <;> trivial) fun _ => trivial
  rw [Client.submitAll_eq]
  refine .bind (.forEach fun job _ => ?_) fun _ => ?_
  · exact .bind (.forEach fun a _ => .perform (hassign _ _)) fun _ =>
      (hcall _ _).bind fun _ => trivial
  · unfold Client.startIf
    split
    · exact .bind (.perform (hnew _)) fun _ => (hcall _ _).bind fun _ => trivial
    · trivial

/-- The message objects of a fresh plan take what is assigned to them. -/
theorem Payloads.plan_takes (pl : Payloads) (heap : List Message) (pid : String)
    (hs : s.heap = heap ++ .createPipeline pl.createPipeline :: pl.resources) :
    ∀ job ∈ (pl.plan heap.length).jobs pid, ∀ a ∈ job.assignments, s.Takes job.request a := by
  have hholds := hs ▸ pl.plan_holds heap
  intro job hjob a ha
  simp only [BuildPlan.jobs, List.mem_append, List.mem_map] at hjob
  -- the three kinds of requests
  rcases hjob with (⟨r, hr, rfl⟩ | ⟨r, hr, rfl⟩) | ⟨r, hr, rfl⟩
  · obtain ⟨m, -, hm⟩ := exists_of_forall₂ hholds.createConnectors hr
    obtain rfl := List.mem_singleton.mp ha
    exact ⟨_, hm, rfl⟩
  · obtain ⟨m, -, hm⟩ := exists_of_forall₂ hholds.createProcessors hr
    refine ⟨_, hm, ?_⟩
    rcases List.mem_cons.mp ha with rfl | ha
    · rfl
    · obtain rfl := List.mem_singleton.mp ha
      rfl
  · obtain rfl := List.mem_singleton.mp ha
    have hdlq := hholds.dlq
    rw [Option.mem_toList.mp hr] at hdlq
    generalize pl.dlq = dlq at hdlq
    cases hdlq with
    | some hm => exact ⟨_, hm, rfl⟩

/-! ### Failures -/

/-- The exception is what one of the RPCs from position `k` up to position `n` has failed with. -/
def Script.FailedWith (script : Script) (lib : Codec) (k n : ℕ) (e : Exn) : Prop :=
  ∃ i m err, k ≤ i ∧ i < n ∧ script.reply i m = .error err ∧
    (e = translated lib err ∨ ∃ pid, e = (translated lib err).withPipelineId pid)

/-- A submission whose payloads could be built raises for a failed RPC only. -/
theorem Script.runs_failedWith {pl : Payloads} {start : Bool} {k : ℕ} {e : Exn}
    (h : (script.runs lib pl start k).2 = .error e) :
    script.FailedWith lib k (k + (script.runs lib pl start k).1.length) e := by
  unfold Script.runs at h ⊢
  cases hcreate : script.reply k .createPipeline with
  | error err =>
    rw [hcreate] at h
    obtain rfl : translated lib err = e := Except.error.inj h
    exact ⟨k, .createPipeline, err, le_refl k, Nat.lt_succ_self k, hcreate, Or.inl rfl⟩
  | ok pid =>
    simp only [hcreate] at h
    cases hout : (script.submit (k + 1) (pl.followUps pid start)).2 with
    | ok u => simp [hout, Except.mapError, Except.map] at h
    | error err =>
      obtain rfl : (translated lib err).withPipelineId pid = e := by
        simpa [hout, Except.mapError, Except.map] using h
      -- the last RPC that was issued is the one that failed
      obtain ⟨before, failed, hissued, -, hfailed⟩ := Script.submit_error hout
      refine ⟨_, failed.method, err, ?_, ?_, hfailed, Or.inr ⟨pid, rfl⟩⟩
      · omega
      · simp only [hissued, List.length_cons, List.length_append, List.length_nil]
        omega

/-- On a closed channel the first request is refused, and nothing is issued. -/
theorem eval_run_closed (lib : Codec) (script : Script) {p : Pipeline} {pl : Payloads}
    (h : p.payloads = .ok pl) (start : Bool) (t : ℚ) (hclosed : s.channelOpen = false) :
    ((Client.run lib p start t).eval script.handle s).1 = .error closedChannel := by
  have hcall : (Client.call lib .createPipeline s.heap.length t).eval script.handle
      { s with heap := s.heap ++ .createPipeline pl.createPipeline :: pl.resources } = _ :=
    eval_call_closed .createPipeline s.heap.length t hclosed
  unfold Client.run
  rw [Prog.eval_bind_ok _ (eval_buildRequests h)]
  exact congrArg Prod.fst (Prog.eval_bind_error _ hcall)

/-! ### The three parts -/

/-- What cannot be built is found before anything else is done. -/
theorem run_unbuildable (lib : Codec) (script : Script) {p : Pipeline} {e : Exn}
    (h : p.payloads = .error e) (start : Bool) (timeout : ℚ) (s : Session) :
    ((Client.run lib p start timeout).eval script.handle s).1 = .error e ∧
      ((Client.run lib p start timeout).eval script.handle s).2.trace = s.trace ∧
      ∀ x ∈ (Client.run lib p start timeout).steps script.handle s, ∃ m, x.2 = .new m := by
  obtain ⟨heap, hrun⟩ := eval_run_unbuildable lib script (s := s) h start timeout
  obtain ⟨heap', hbuild⟩ := eval_buildRequests_error script (s := s) h
  refine ⟨by rw [hrun], by rw [hrun], ?_⟩
  have hsteps : (Client.run lib p start timeout).steps script.handle s =
      p.buildRequests.steps script.handle s := Prog.steps_bind_error _ hbuild
  rw [hsteps]
  exact fun x hx => (only_buildRequests p).steps _ hx

/-- With its payloads built, `run` performs nothing that protobuf would not accept. -/
theorem run_accepted (lib : Codec) (script : Script) {p : Pipeline} {pl : Payloads}
    (h : p.payloads = .ok pl) (start : Bool) (timeout : ℚ) (s : Session) :
    ∀ x ∈ (Client.run lib p start timeout).steps script.handle s, Accepted x.1 x.2 := by
  intro x hx
  have hbuild : p.buildRequests.eval script.handle s = _ := eval_buildRequests h
  have hsteps : (Client.run lib p start timeout).steps script.handle s = _ :=
    Prog.steps_bind_ok _ hbuild
  rw [hsteps, List.mem_append] at hx
  rcases hx with hx | hx
  · -- a message is constructed
    obtain ⟨m, hm⟩ := (only_buildRequests p).steps _ hx
    rw [hm]
    trivial
  · -- the objects of the plan take its assignments throughout
    have hplan := (only_submitPlan lib (pl.plan s.heap.length) start timeout).steps _ hx
    have htakes := Prog.steps_invariant script.handle
      (I := fun s' => ∀ pid, ∀ job ∈ (pl.plan s.heap.length).jobs pid,
        ∀ a ∈ job.assignments, s'.Takes job.request a)
      (fun s' o h pid job hjob a ha => (h pid job hjob a ha).handle o) _
      (fun pid => pl.plan_takes s.heap pid rfl) x hx
    cases ho : x.2 with
    | assign r a =>
      obtain ⟨pid, job, hjob, rfl, ha⟩ := hplan r a ho
      exact htakes pid job hjob a ha
    | _ => trivial

/-- With its payloads built, `run` fails as the channel or an RPC does. -/
theorem run_failed (lib : Codec) (script : Script) {p : Pipeline} {pl : Payloads}
    (h : p.payloads = .ok pl) (start : Bool) (timeout : ℚ) (s : Session) {e : Exn}
    (he : ((Client.run lib p start timeout).eval script.handle s).1 = .error e) :
    s.channelOpen = false ∧ e = closedChannel ∨
      script.FailedWith lib s.trace.length
        ((Client.run lib p start timeout).eval script.handle s).2.trace.length e := by
  cases hopen : s.channelOpen with
  | false =>
    have hclosed := eval_run_closed lib script h start timeout hopen
    exact Or.inl ⟨rfl, Except.error.inj (he.symm.trans hclosed)⟩
  | true =>
    obtain ⟨heap, hrun⟩ := eval_run lib script h start timeout hopen
    have hfailed : (script.runs lib pl start s.trace.length).2 = .error e := by
      rw [← he]
      exact (congrArg Prod.fst hrun).symm
    -- the trace has grown by what was issued up to the failure
    have hlength : ((Client.run lib p start timeout).eval script.handle s).2.trace.length =
        s.trace.length + (script.runs lib pl start s.trace.length).1.length := by
      simp [hrun]
    rw [hlength]
    exact Or.inr (Script.runs_failedWith hfailed)

/-- **Failures come first.** Where a request of the builder does not fit the wire, whichever it
is, `run` raises after it has constructed messages and done nothing else, so that nothing was
issued. Where `CreatePipeline` was sent, all payloads exist, protobuf accepts every operation of
the run on them, whatever the id in the response, and what `run` raises is that the channel was
closed or that an RPC has failed. -/
theorem run_fails_first (lib : Codec) (script : Script) (p : Pipeline) (start : Bool)
    (timeout : ℚ) (s : Session) :
    let run := Client.run lib p start timeout
    let out := run.eval script.handle s
    (¬ p.Fits → (∃ e, out.1 = .error e) ∧ out.2.trace = s.trace ∧
        ∀ x ∈ run.steps script.handle s, ∃ m, x.2 = .new m) ∧
      ((∃ x ∈ run.steps script.handle s, ∃ r t, x.2 = .send .createPipeline r t) →
        p.Fits ∧ (∀ x ∈ run.steps script.handle s, Accepted x.1 x.2) ∧
          ∀ e, out.1 = .error e → s.channelOpen = false ∧ e = closedChannel ∨
            script.FailedWith lib s.trace.length out.2.trace.length e) := by
  intro run out
  cases hpl : p.payloads with
  | error e =>
    obtain ⟨hraised, htrace, hnew⟩ := run_unbuildable lib script hpl start timeout s
    refine ⟨fun _ => ⟨⟨e, hraised⟩, htrace, hnew⟩, ?_⟩
    rintro ⟨x, hx, r, t, hsend⟩
    -- no request was sent
    obtain ⟨m, hm⟩ := hnew x hx
    cases hm.symm.trans hsend
  | ok pl =>
    have hfits := Pipeline.payloads_ok_iff.mp ⟨pl, hpl⟩
    exact ⟨fun hnot => absurd hfits hnot, fun _ => ⟨hfits,
      run_accepted lib script hpl start timeout s,
      fun e he => run_failed lib script hpl start timeout s he⟩⟩

-- the payloads of this builder fit, and its first request is sent
example : HostOp.send .createPipeline 0 10 ∈
    ((Client.run emptyCodec ((Pipeline.init "orders" none "").calls ordersCalls) true
      10).steps obliging.handle newSession).map Prod.snd := by
  decide +kernel

end Conduit
