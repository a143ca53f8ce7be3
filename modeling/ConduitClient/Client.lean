import ConduitClient.Pipeline

/-!
# The client

`client.py`: the one point through which every RPC goes (`Client.call`), the submission of a
pipeline (`Client.run`), and the closing of a client.
-/

namespace Conduit

open Effect

/-- `Client`: the channel and the stubs are behind `Host`, the flag `_closed` is an
attribute there. -/
structure Client where
  /-- `_on_close` -/
  onClose : Option (HostM Unit)

/-- `Run`, as `Client.run` returns it: the id of the pipeline that was created. -/
structure Run where
  pipelineId : String
  deriving DecidableEq, Repr

/-- `stub_method(request, timeout=timeout)`. -/
def stub (m : Method) (request : Ref) (timeout : ℚ) : HostM (Response m) := do
  performOrRaise (perform (.send m request timeout))
  performOrRaise (perform (.recv m))

/-- What a caller gets for a failed RPC: the translation, or what the translation raises. -/
def translated (lib : Codec) (e : RpcError) : Exn :=
  match ConduitError.fromRpcError lib e with
  | .ok err => .conduit err
  | .error x => x

/-- What a caller gets when a stub raises. -/
def raised (lib : Codec) : Exn → Exn
  | .rpc e => translated lib e
  | e => e

namespace Client

variable (lib : Codec)

/-- `Client._call`: a `grpc.RpcError` is translated, anything else goes through. -/
def call (m : Method) (request : Ref) (timeout : ℚ) : HostM (Response m) :=
  (stub m request timeout).tryCatch fun
    | .rpc e => do
      let err ← Prog.ofExcept (ConduitError.fromRpcError lib e)
      Prog.raise (.conduit err)
    | e => Prog.raise e

/-- `Client.close`. -/
def close (client : Client) : HostM Unit := do
  if ← perform (.getAttr .closed) then
    return ()
  perform (.setAttr .closed true)
  perform .closeChannel
  match client.onClose with
  | none => return ()
  | some onClose => onClose

/-- `Client.get_info`. -/
def getInfo (timeout : ℚ) : HostM Info := do
  let request ← perform (.new .getInfo)
  call lib .getInfo request timeout

/-- The body of one step of `run` after the pipeline exists: complete a request in place
and send it. -/
def submit (timeout : ℚ) (m : Method) (assignments : List Assignment) (request : Ref) :
    HostM Unit := do
  Prog.forEach (fun a => perform (.assign request a)) assignments
  let _ ← call lib m request timeout
  return ()

/-- The statements of `run` inside its `try` block. -/
def submitAll (plan : BuildPlan) (pipelineId : String) (start : Bool) (timeout : ℚ) :
    HostM Unit := do
  Prog.forEach (submit lib timeout .createConnector [.pipelineId pipelineId])
    plan.createConnectors
  Prog.forEach
    (submit lib timeout .createProcessor [.parentType .pipeline, .parentId pipelineId])
    plan.createProcessors
  Prog.forEach (submit lib timeout .updateDLQ [.dlqId pipelineId]) plan.dlq.toList
  if start then
    let request ← perform (.new (.startPipeline pipelineId))
    submit lib timeout .startPipeline [] request

/-- `Client.run`. -/
def run (pipeline : Pipeline) (start : Bool) (timeout : ℚ) : HostM Run := do
  let plan ← pipeline.buildRequests
  let pipelineId ← call lib .createPipeline plan.createPipeline timeout
  (submitAll lib plan pipelineId start timeout).tryCatch fun
    | .conduit e => Prog.raise (.conduit { e with pipelineId := pipelineId })
    | e => Prog.raise e
  return ⟨pipelineId⟩

end Client

/-- A call asks for its two halves. -/
theorem only_call {φ : HostOp → Prop} (lib : Codec) (m : Method) (r : Ref) (t : ℚ)
    (hsend : φ (.send m r t)) (hrecv : φ (.recv m)) : (Client.call lib m r t).Only φ := by
  refine .tryCatch (.bind ?_ fun _ => ?_) fun e => ?_
  · exact only_performOrRaise (.perform hsend)
  · exact only_performOrRaise (.perform hrecv)
  · cases e with
    | rpc e =>
      change (Prog.handle (S := Host) (.done (ConduitError.fromRpcError lib e)) _).Only _
      cases ConduitError.fromRpcError lib e <;> trivial
    | _ => trivial

/-- `connect`: open a channel and, if asked to, probe the engine once. -/
def connect (lib : Codec) (addr : String) (checkVersion : Bool) (timeout : ℚ) :
    HostM Client := do
  perform (.openChannel addr)
  if checkVersion then
    let _ ← Client.getInfo lib timeout
    return ⟨none⟩
  else
    return ⟨none⟩

end Conduit
