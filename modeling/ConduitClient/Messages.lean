import Mathlib.Algebra.Group.Int.Defs
import Mathlib.Data.Rat.Defs
import ConduitClient.Errors
import ConduitClient.Py.Dict

/-!
# Control-plane messages

The request and response messages of the control-plane API that the client builds, sends
and reads (`api_pb2`), with the fields it sets or reads. A field that the client leaves to
the server (states, time stamps, plugin catalogues) is not modelled.

The message constructors of the protobuf runtime check types and ranges at once. The two
checks the builder can run into, a number outside its field and a map key that is not a
string, are `toInt32`, `toUInt64` and `toSettings`.
-/

namespace Conduit

/-- A mapping key, as far as the runtime tells keys apart: a string, or something else. -/
inductive Key where
  | str (s : String)
  | other (tag : Nat)
  deriving DecidableEq, Repr

/-- A `map<string, string>` field. -/
abbrev Settings := Py.Dict String String

/-- An `int32` field takes a Python `int` within its range and nothing else. -/
def toInt32 (n : Int) : Except Exn Int32 :=
  if -2 ^ 31 ≤ n ∧ n < 2 ^ 31 then .ok (Int32.ofInt n)
  else .error (.value "Value out of range")

/-- A `uint64` field takes a Python `int` within its range and nothing else. -/
def toUInt64 (n : Int) : Except Exn UInt64 :=
  if 0 ≤ n ∧ n < 2 ^ 64 then .ok (UInt64.ofNat n.toNat)
  else .error (.value "Value out of range")

/-- A map field copies the entries of the `dict` it is given, one by one; a key that is not
a string is a `TypeError`. -/
def toSettings (d : Py.Dict Key String) : Except Exn Settings :=
  d.entries.foldlM (fun settings entry =>
    match entry.1 with
    | .str k => .ok (settings.insert k entry.2)
    | .other _ => .error (.type "bad argument type for built-in operation")) Py.Dict.empty

/-! ### Requests -/

/-- `Connector.Type`. -/
inductive ConnectorType where
  | unspecified | source | destination
  deriving DecidableEq, Repr

/-- `Processor.Parent.Type`. -/
inductive ParentType where
  | unspecified | connector | pipeline
  deriving DecidableEq, Repr

/-- `CreatePipelineRequest`, with its `Pipeline.Config`. -/
structure CreatePipelineRequest where
  name : String
  description : String
  deriving DecidableEq

/-- `CreateConnectorRequest`, with its `Connector.Config` as `name` and `settings`. -/
structure CreateConnectorRequest where
  type : ConnectorType
  plugin : String
  name : String
  settings : Settings
  pipelineId : String := ""
  deriving DecidableEq

/-- `CreateProcessorRequest`, with its `Processor.Config` as `settings` and `workers`, and
its `Processor.Parent` as `parentType` and `parentId`. -/
structure CreateProcessorRequest where
  plugin : String
  condition : String
  settings : Settings
  workers : Int32 := 0
  parentType : ParentType := .unspecified
  parentId : String := ""
  deriving DecidableEq

/-- `UpdateDLQRequest`, with its `Pipeline.DLQ`. -/
structure UpdateDLQRequest where
  plugin : String
  settings : Settings
  windowSize : UInt64 := 0
  windowNackThreshold : UInt64 := 0
  id : String := ""
  deriving DecidableEq

/-- The request messages the client sends. -/
inductive Message where
  | createPipeline (m : CreatePipelineRequest)
  | createConnector (m : CreateConnectorRequest)
  | createProcessor (m : CreateProcessorRequest)
  | updateDLQ (m : UpdateDLQRequest)
  | startPipeline (id : String)
  | stopPipeline (id : String) (force : Bool)
  | getPipeline (id : String)
  | getInfo
  deriving DecidableEq

/-- The field assignments the client makes on a message it has already built. -/
inductive Assignment where
  /-- `connector_req.pipeline_id = id` -/
  | pipelineId (id : String)
  /-- `processor_req.parent.type = t` -/
  | parentType (t : ParentType)
  /-- `processor_req.parent.id = id` -/
  | parentId (id : String)
  /-- `plan.dlq.id = id` -/
  | dlqId (id : String)
  deriving DecidableEq

/-- The effect of an assignment. The client makes each on a message of the right type. -/
def Message.assign : Message → Assignment → Message
  | .createConnector m, .pipelineId id => .createConnector { m with pipelineId := id }
  | .createProcessor m, .parentType t => .createProcessor { m with parentType := t }
  | .createProcessor m, .parentId id => .createProcessor { m with parentId := id }
  | .updateDLQ m, .dlqId id => .updateDLQ { m with id := id }
  | m, _ => m

/-! ### Methods and responses -/

/-- The remote methods the client calls. -/
inductive Method where
  | createPipeline | createConnector | createProcessor | updateDLQ | startPipeline
  | stopPipeline | getPipeline | getInfo
  deriving DecidableEq, Repr

/-- `Pipeline.State`. Both enums are open: any `int32` may arrive. -/
structure PipelineState where
  status : Int32
  error : String
  stoppedReason : Int32
  deriving DecidableEq

/-- `Info`, the answer of `GetInfo`. -/
structure Info where
  version : String
  os : String
  arch : String
  deriving DecidableEq, Repr

/-- What the client reads of a response: the id of a created pipeline, the state of a
fetched one, the engine's version. Of the other responses it reads nothing. -/
@[reducible] def Response : Method → Type
  | .createPipeline => String
  | .getPipeline => PipelineState
  | .getInfo => Info
  | _ => Unit

end Conduit
