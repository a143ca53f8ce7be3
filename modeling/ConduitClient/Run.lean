import ConduitClient.Client

/-!
# The run handle

`run.py`: the status of a submitted pipeline, the wait for it to run, and its stop.

The polling loop of `wait_running` has no bound of its own; it ends by the clock or by a
decisive status. `waitLoop` follows it for a given number of iterations and answers
`Waited.polling` when that many did not end it, so that a statement about every number of
iterations is a statement about the loop.
-/

namespace Conduit

open Effect

/-- `Pipeline.Status.Name`: a number the generated enum does not name is a `ValueError`. -/
def statusName (n : Int32) : Except Exn String :=
  if n = 0 then .ok "STATUS_UNSPECIFIED"
  else if n = 1 then .ok "STATUS_RUNNING"
  else if n = 2 then .ok "STATUS_STOPPED"
  else if n = 3 then .ok "STATUS_DEGRADED"
  else if n = 4 then .ok "STATUS_RECOVERING"
  else .error (.value "Enum Status has no name defined for value")

/-- `Pipeline.State.StoppedReason.Name`. -/
def stoppedReasonName (n : Int32) : Except Exn String :=
  if n = 0 then .ok "STOPPED_REASON_UNSPECIFIED"
  else if n = 1 then .ok "STOPPED_REASON_USER"
  else if n = 2 then .ok "STOPPED_REASON_SYSTEM"
  else .error (.value "Enum StoppedReason has no name defined for value")

/-- `_strip_enum_prefix`. -/
def stripEnumPrefix (name pre : String) : String :=
  let stripped :=
    if pre.toList.isPrefixOf name.toList then name.toList.drop pre.toList.length
    else name.toList
  String.ofList (stripped.map Char.toLower)

/-- `RunStatus`. -/
structure RunStatus where
  status : String
  error : String
  stoppedReason : String
  deriving DecidableEq, Repr

/-- `RunStatus.is_running`. -/
def RunStatus.isRunning (s : RunStatus) : Bool := s.status == "running"

/-- `RunStatus.is_degraded`. -/
def RunStatus.isDegraded (s : RunStatus) : Bool := s.status == "degraded"

/-- The conversion at the end of `Run.status`. -/
def PipelineState.toRunStatus (state : PipelineState) : Except Exn RunStatus := do
  let status ← statusName state.status
  let stoppedReason ← stoppedReasonName state.stoppedReason
  return { status := stripEnumPrefix status "STATUS_"
           error := state.error
           stoppedReason := stripEnumPrefix stoppedReason "STOPPED_REASON_" }

/-- How a bounded number of iterations of the polling loop leaves it. -/
inductive Waited where
  /-- The loop ended with this status. -/
  | running (status : RunStatus)
  /-- The loop has not ended yet. -/
  | polling
  deriving DecidableEq, Repr

namespace Run

variable (rt : Runtime)

/-- `Run.status`. -/
def status (run : Run) (timeout : ℚ) : HostM RunStatus := do
  let request ← perform (.new (.getPipeline run.pipelineId))
  let state ← Client.call rt.toCodec .getPipeline request timeout
  Prog.ofExcept state.toRunStatus

/-- The error of a pipeline that degraded while it was waited for. -/
def degradedError (run : Run) (last : RunStatus) : ConduitError where
  message := "pipeline " ++ rt.repr run.pipelineId ++
    " became degraded while waiting to run: " ++ last.error
  code := "client.pipeline_degraded"

/-- The error of a wait that ran out of time. -/
def timeoutError (run : Run) (timeout : ℚ) (last : Option RunStatus) : ConduitError where
  message := "pipeline " ++ rt.repr run.pipelineId ++ " did not reach running within " ++
    rt.seconds timeout ++ "s (last observed status: " ++
    last.elim "unknown" RunStatus.status ++ ")"
  code := "client.wait_timeout"

/-- The `while` loop of `wait_running`, for at most `n` iterations. -/
def waitLoop (run : Run) (timeout deadline pollInterval : ℚ) :
    Nat → Option RunStatus → HostM Waited
  | 0, _ => return .polling
  | n + 1, last => do
    let now ← perform .monotonic
    if now < deadline then
      let status ← run.status rt 5
      if status.isRunning then
        return .running status
      else if status.isDegraded then
        Prog.raise (.conduit (degradedError rt run status))
      else
        performOrRaise (perform (.sleep pollInterval))
        waitLoop run timeout deadline pollInterval n (some status)
    else
      Prog.raise (.conduit (timeoutError rt run timeout last))

/-- `Run.wait_running`, followed for at most `n` iterations of its loop. -/
def waitRunning (run : Run) (timeout pollInterval : ℚ) (n : Nat) : HostM Waited := do
  let now ← perform .monotonic
  waitLoop rt run timeout (now + timeout) pollInterval n none

/-- `Run.stop`. -/
def stop (run : Run) (force : Bool) (timeout : ℚ) : HostM Unit := do
  let request ← perform (.new (.stopPipeline run.pipelineId force))
  Client.call rt.toCodec .stopPipeline request timeout

end Run

end Conduit
