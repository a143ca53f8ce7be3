import ConduitClient.Client

/-!
# What a builder declares

The builder's state in terms of the calls made on it, the payloads of its plan as a pure
function of that state, and the sequence of RPCs which submitting it means.

`Pipeline.payloads` is what `Pipeline.buildRequests` constructs, without the message
objects. `Payloads.canonical` is the sequence `Client.run` is documented to drive. Neither
mentions a heap or a server: they are what the client's runs are compared with.
-/

namespace Conduit

open Effect

/-- A remote call: the method, and the request as it was sent. -/
structure Rpc where
  method : Method
  request : Message
  deriving DecidableEq

/-! ### Declarations -/

namespace BuilderCall

/-- The connector a call declares. -/
def connector? : BuilderCall → Option ConnectorSpec
  | .source plugin name settings kwargs =>
    some ⟨.source, plugin, strOr name plugin, mergeSettings settings kwargs⟩
  | .destination plugin name settings kwargs =>
    some ⟨.destination, plugin, strOr name plugin, mergeSettings settings kwargs⟩
  | _ => none

/-- The processor a call declares. -/
def processor? : BuilderCall → Option ProcessorSpec
  | .process plugin condition workers settings kwargs =>
    some ⟨plugin, condition, workers, mergeSettings settings kwargs⟩
  | _ => none

/-- The dead-letter queue a call configures. -/
def dlq? : BuilderCall → Option DLQSpec
  | .dlq plugin windowSize windowNackThreshold settings kwargs =>
    some ⟨plugin, mergeSettings settings kwargs, some (windowSize.getD 1),
      some (windowNackThreshold.getD 0)⟩
  | _ => none

end BuilderCall

namespace Pipeline

variable (p : Pipeline) (c : BuilderCall) (cs : List BuilderCall)

theorem call_connectors : (p.call c).connectors = p.connectors ++ c.connector?.toList := by
  cases c <;> simp [call, source, destination, process, setDLQ, BuilderCall.connector?]

theorem call_processors : (p.call c).processors = p.processors ++ c.processor?.toList := by
  cases c <;> simp [call, source, destination, process, setDLQ, BuilderCall.processor?]

theorem call_dlq : (p.call c).dlq = c.dlq?.or p.dlq := by
  cases c <;> simp [call, source, destination, process, setDLQ, BuilderCall.dlq?]

theorem call_name : (p.call c).name = p.name := by
  cases c <;> rfl

theorem call_description : (p.call c).description = p.description := by
  cases c <;> rfl

/-- The connectors of a builder are the `source` and `destination` calls, in order. -/
theorem calls_connectors :
    (p.calls cs).connectors = p.connectors ++ cs.filterMap BuilderCall.connector? := by
  induction cs generalizing p with
  | nil => simp [calls]
  | cons c cs ih =>
    change ((p.call c).calls cs).connectors = _
    rw [ih, call_connectors]
    cases h : c.connector? <;> simp [h]

/-- The processors of a builder are the `process` calls, in order. -/
theorem calls_processors :
    (p.calls cs).processors = p.processors ++ cs.filterMap BuilderCall.processor? := by
  induction cs generalizing p with
  | nil => simp [calls]
  | cons c cs ih =>
    change ((p.call c).calls cs).processors = _
    rw [ih, call_processors]
    cases h : c.processor? <;> simp [h]

/-- The dead-letter queue of a builder is the last `dlq` call. -/
theorem calls_dlq :
    (p.calls cs).dlq = ((cs.filterMap BuilderCall.dlq?).getLast?).or p.dlq := by
  induction cs generalizing p with
  | nil => simp [calls]
  | cons c cs ih =>
    change ((p.call c).calls cs).dlq = _
    rw [ih, call_dlq]
    cases h : c.dlq? with
    | none => simp [h]
    | some d =>
      rw [List.filterMap_cons_some h]
      cases hr : cs.filterMap BuilderCall.dlq? <;> simp [List.getLast?_cons]

theorem calls_name : (p.calls cs).name = p.name := by
  induction cs generalizing p with
  | nil => rfl
  | cons c cs ih => exact (ih (p.call c)).trans (call_name p c)

theorem calls_description : (p.calls cs).description = p.description := by
  induction cs generalizing p with
  | nil => rfl
  | cons c cs ih => exact (ih (p.call c)).trans (call_description p c)

end Pipeline

/-! ### Payloads -/

/-- The payloads of a plan. -/
structure Payloads where
  createPipeline : CreatePipelineRequest
  connectors : List CreateConnectorRequest
  processors : List CreateProcessorRequest
  dlq : Option UpdateDLQRequest
  deriving DecidableEq

/-- The payloads of what was declared, or the first exception of a constructor. -/
def declaredPayloads (name description : String) (connectors : List ConnectorSpec)
    (processors : List ProcessorSpec) (dlq : Option DLQSpec) : Except Exn Payloads := do
  let connectors ← connectors.mapM ConnectorSpec.toRequest
  let processors ← processors.mapM ProcessorSpec.toRequest
  match dlq with
  | none => return ⟨⟨name, description⟩, connectors, processors, none⟩
  | some d =>
    let dlqRequest ← d.toRequest
    return ⟨⟨name, description⟩, connectors, processors, some dlqRequest⟩

/-- The payloads of a builder. -/
def Pipeline.payloads (p : Pipeline) : Except Exn Payloads :=
  declaredPayloads p.name p.description p.connectors p.processors p.dlq

theorem bind_ok_iff {α β : Type} {x : Except Exn α} {f : α → Except Exn β} {b : β} :
    x >>= f = .ok b ↔ ∃ a, x = .ok a ∧ f a = .ok b := by
  cases x with
  | ok a => simp [bind, Except.bind]
  | error e => simp [bind, Except.bind]

/-! A list comprehension over constructors that may raise, one element at a time. -/

section MapM

variable {α β γ : Type} {f : α → Except Exn β} {a : α} {as : List α} {bs : List β} {e : Exn}

theorem mapM_nil_ok (h : ([] : List α).mapM f = .ok bs) : bs = [] := by
  simpa [pure, Except.pure] using h.symm

theorem mapM_cons_ok (h : (a :: as).mapM f = .ok bs) :
    ∃ b bs', f a = .ok b ∧ as.mapM f = .ok bs' ∧ bs = b :: bs' := by
  rw [List.mapM_cons] at h
  cases ha : f a with
  | error e => simp [ha, bind, Except.bind] at h
  | ok b =>
    cases has : as.mapM f with
    | error e => simp [ha, has, bind, Except.bind] at h
    | ok bs' =>
      refine ⟨b, bs', rfl, rfl, ?_⟩
      simpa [ha, has, bind, Except.bind, pure, Except.pure] using h.symm

theorem mapM_cons_error (h : (a :: as).mapM f = .error e) :
    f a = .error e ∨ ∃ b, f a = .ok b ∧ as.mapM f = .error e := by
  rw [List.mapM_cons] at h
  cases ha : f a with
  | error e' => exact Or.inl (by simpa [ha, bind, Except.bind] using h)
  | ok b =>
    cases has : as.mapM f with
    | ok bs => simp [ha, has, bind, Except.bind, pure, Except.pure] at h
    | error e' =>
      refine Or.inr ⟨b, rfl, ?_⟩
      simpa [ha, has, bind, Except.bind] using h

/-- The comprehension succeeds element by element. -/
theorem forall₂_of_mapM (h : as.mapM f = .ok bs) :
    List.Forall₂ (fun a b => f a = .ok b) as bs := by
  induction as generalizing bs with
  | nil => exact mapM_nil_ok h ▸ .nil
  | cons a as ih =>
    obtain ⟨b, bs', ha, has, rfl⟩ := mapM_cons_ok h
    exact .cons ha (ih has)

/-- The comprehension raises at an element whose constructor raises, if there is one. -/
theorem mapM_error (h : as.mapM f = .error e) : ∃ a ∈ as, f a = .error e := by
  induction as with
  | nil => simp [pure, Except.pure] at h
  | cons a as ih =>
    rcases mapM_cons_error h with ha | ⟨b, -, has⟩
    · exact ⟨a, List.mem_cons_self, ha⟩
    · obtain ⟨a', hmem, ha'⟩ := ih has
      exact ⟨a', List.mem_cons_of_mem _ hmem, ha'⟩

end MapM

/-- The payloads of a builder that can be built, part by part. -/
theorem Pipeline.payloads_ok {p : Pipeline} {pl : Payloads} (h : p.payloads = .ok pl) :
    pl.createPipeline = ⟨p.name, p.description⟩ ∧
      p.connectors.mapM ConnectorSpec.toRequest = .ok pl.connectors ∧
      p.processors.mapM ProcessorSpec.toRequest = .ok pl.processors ∧
      List.Forall₂ (fun d q => DLQSpec.toRequest d = .ok q) p.dlq.toList pl.dlq.toList := by
  unfold payloads declaredPayloads at h
  -- the constructors run one after the other, and each must have succeeded
  cases hc : p.connectors.mapM ConnectorSpec.toRequest with
  | error e => simp [hc, bind, Except.bind] at h
  | ok cs =>
    cases hp : p.processors.mapM ProcessorSpec.toRequest with
    | error e => simp [hc, hp, bind, Except.bind] at h
    | ok ps =>
      cases hd : p.dlq with
      | none =>
        obtain rfl : ⟨⟨p.name, p.description⟩, cs, ps, none⟩ = pl := by
          simpa [hc, hp, hd, bind, Except.bind, pure, Except.pure] using h
        exact ⟨rfl, rfl, rfl, .nil⟩
      | some d =>
        cases hq : d.toRequest with
        | error e => simp [hc, hp, hd, hq, bind, Except.bind] at h
        | ok q =>
          obtain rfl : ⟨⟨p.name, p.description⟩, cs, ps, some q⟩ = pl := by
            simpa [hc, hp, hd, hq, bind, Except.bind, pure, Except.pure] using h
          exact ⟨rfl, rfl, rfl, .cons hq .nil⟩

/-- The payloads of a builder that cannot be built: which constructor raises. -/
theorem Pipeline.payloads_error {p : Pipeline} {e : Exn} (h : p.payloads = .error e) :
    p.connectors.mapM ConnectorSpec.toRequest = .error e ∨
      ∃ cs, p.connectors.mapM ConnectorSpec.toRequest = .ok cs ∧
        (p.processors.mapM ProcessorSpec.toRequest = .error e ∨
          ∃ ps d, p.processors.mapM ProcessorSpec.toRequest = .ok ps ∧ p.dlq = some d ∧
            d.toRequest = .error e) := by
  unfold payloads declaredPayloads at h
  cases hc : p.connectors.mapM ConnectorSpec.toRequest with
  | error e' => exact Or.inl (by simpa [hc, bind, Except.bind] using h)
  | ok cs =>
    refine Or.inr ⟨cs, rfl, ?_⟩
    cases hp : p.processors.mapM ProcessorSpec.toRequest with
    | error e' => exact Or.inl (by simpa [hc, hp, bind, Except.bind] using h)
    | ok ps =>
      cases hd : p.dlq with
      | none => simp [hc, hp, hd, bind, Except.bind, pure, Except.pure] at h
      | some d =>
        refine Or.inr ⟨ps, d, rfl, rfl, ?_⟩
        cases hq : d.toRequest with
        | ok q => simp [hc, hp, hd, hq, bind, Except.bind, pure, Except.pure] at h
        | error e' => simpa [hc, hp, hd, hq, bind, Except.bind] using h

/-! ### The canonical sequence -/

/-- A connector request, completed for the pipeline `pid`. -/
def connectorRpc (pid : String) (m : CreateConnectorRequest) : Rpc :=
  ⟨.createConnector, .createConnector { m with pipelineId := pid }⟩

/-- A processor request, completed for the pipeline `pid`. -/
def processorRpc (pid : String) (m : CreateProcessorRequest) : Rpc :=
  ⟨.createProcessor, .createProcessor { m with parentType := .pipeline, parentId := pid }⟩

/-- A dead-letter queue request, completed for the pipeline `pid`. -/
def dlqRpc (pid : String) (m : UpdateDLQRequest) : Rpc :=
  ⟨.updateDLQ, .updateDLQ { m with id := pid }⟩

/-- The start of the pipeline `pid`. -/
def startRpc (pid : String) : Rpc := ⟨.startPipeline, .startPipeline pid⟩

namespace Payloads

variable (pl : Payloads) (pid : String) (start : Bool)

/-- The creation of the pipeline. -/
def createRpc : Rpc := ⟨.createPipeline, .createPipeline pl.createPipeline⟩

/-- The RPCs that put resources under the pipeline `pid`, in order. -/
def resourceRpcs : List Rpc :=
  pl.connectors.map (connectorRpc pid) ++ pl.processors.map (processorRpc pid) ++
    pl.dlq.toList.map (dlqRpc pid)

/-- The RPCs after the creation of the pipeline, in order. -/
def followUps : List Rpc :=
  pl.resourceRpcs pid ++ if start then [startRpc pid] else []

/-- The whole sequence of a submission. -/
def canonical : List Rpc := pl.createRpc :: pl.followUps pid start

end Payloads

/-- The pipeline a request is about: the id it carries where the API expects one. A
processor carries it as its parent, which has to be of type `PIPELINE`. -/
def Message.target : Message → Option String
  | .createConnector m => some m.pipelineId
  | .createProcessor m => if m.parentType = .pipeline then some m.parentId else none
  | .updateDLQ m => some m.id
  | .startPipeline id => some id
  | .stopPipeline id _ => some id
  | .getPipeline id => some id
  | .createPipeline _ => none
  | .getInfo => none

/-- A property of the RPCs that put resources under the pipeline, kind by kind. -/
theorem Payloads.forall_resourceRpcs {pl : Payloads} {pid : String} {P : Rpc → Prop}
    (hc : ∀ m, P (connectorRpc pid m)) (hp : ∀ m, P (processorRpc pid m))
    (hd : ∀ m, P (dlqRpc pid m)) : ∀ rpc ∈ pl.resourceRpcs pid, P rpc := by
  intro rpc h
  simp only [resourceRpcs, List.mem_append, List.mem_map] at h
  rcases h with (⟨m, -, rfl⟩ | ⟨m, -, rfl⟩) | ⟨m, -, rfl⟩
  · exact hc m
  · exact hp m
  · exact hd m

/-- A property of the RPCs after the creation of the pipeline, kind by kind. -/
theorem Payloads.forall_followUps {pl : Payloads} {pid : String} {start : Bool}
    {P : Rpc → Prop} (hc : ∀ m, P (connectorRpc pid m)) (hp : ∀ m, P (processorRpc pid m))
    (hd : ∀ m, P (dlqRpc pid m)) (hs : P (startRpc pid)) :
    ∀ rpc ∈ pl.followUps pid start, P rpc := by
  intro rpc h
  rcases List.mem_append.mp h with h | h
  · exact forall_resourceRpcs hc hp hd rpc h
  · cases start with
    | false => simp at h
    | true =>
      obtain rfl : rpc = startRpc pid := by simpa using h
      exact hs

/-- Everything after the creation of the pipeline is about that pipeline. -/
theorem Payloads.target_of_mem_followUps {pl : Payloads} {pid : String} {start : Bool}
    {rpc : Rpc} (h : rpc ∈ pl.followUps pid start) : rpc.request.target = some pid :=
  forall_followUps (P := fun rpc => rpc.request.target = some pid) (fun _ => rfl) (fun _ => rfl)
    (fun _ => rfl) rfl rpc h

/-! ### The plan as a list of jobs -/

/-- One request of a plan that is still to be completed and sent. -/
structure Job where
  method : Method
  assignments : List Assignment
  request : Ref
  deriving DecidableEq

/-- The requests of a plan after the creation of the pipeline `pid`, in send order. -/
def BuildPlan.jobs (plan : BuildPlan) (pid : String) : List Job :=
  plan.createConnectors.map (⟨.createConnector, [.pipelineId pid], ·⟩) ++
  plan.createProcessors.map
    (⟨.createProcessor, [.parentType .pipeline, .parentId pid], ·⟩) ++
  plan.dlq.toList.map (⟨.updateDLQ, [.dlqId pid], ·⟩)

namespace Client

variable (lib : Codec)

/-- Complete and send one request. -/
def runJob (timeout : ℚ) (job : Job) : HostM Unit :=
  submit lib timeout job.method job.assignments job.request

/-- The last statement of the `try` block of `run`. -/
def startIf (start : Bool) (pid : String) (timeout : ℚ) : HostM Unit := do
  if start then
    let request ← perform (.new (.startPipeline pid))
    submit lib timeout .startPipeline [] request

/-- The three loops of `run` are one loop over the plan's requests. -/
theorem submitAll_eq (plan : BuildPlan) (pid : String) (start : Bool) (timeout : ℚ) :
    submitAll lib plan pid start timeout =
      (Prog.forEach (runJob lib timeout) (plan.jobs pid) >>= fun _ =>
        startIf lib start pid timeout) := by
  unfold submitAll BuildPlan.jobs startIf
  simp only [Prog.forEach_append, Prog.forEach_map, bind_assoc]
  rfl

end Client

/-- The request a job sends, given the message object it starts from. -/
def Job.rpc (job : Job) (m : Message) : Rpc :=
  ⟨job.method, job.assignments.foldl Message.assign m⟩

end Conduit
