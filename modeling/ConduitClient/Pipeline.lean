import ConduitClient.Host

/-!
# The pipeline builder

`pipeline.py`: the fluent builder and the request payloads it renders. A builder is the list
of the calls made on it; each call appends to one of two lists or replaces the dead-letter
queue. `Pipeline.buildRequests` constructs every request of the plan, all of them before the
client sends the first.

The payload of one request is a pure function of its specification that may raise
(`ConnectorSpec.toRequest` and its siblings). The plan holds references to the message
objects constructed from them: the client completes the objects in place later.
-/

namespace Conduit

open Effect

/-- A setting's value, as far as `_settings` observes it: `True`, `False`, or what `str`
makes of it. -/
inductive Value where
  | bool (b : Bool)
  | other (str : String)
  deriving DecidableEq, Repr

/-- `"true" if v is True else "false" if v is False else str(v)`. -/
def Value.render : Value → String
  | .bool true => "true"
  | .bool false => "false"
  | .other s => s

/-- `_settings`: `kwargs` merged over `settings`, with the values rendered. The keys of
`kwargs` are strings. -/
def mergeSettings (settings : Option (Py.Dict Key Value)) (kwargs : Py.Dict String Value) :
    Py.Dict Key String :=
  let merged := (settings.getD Py.Dict.empty).update
    (kwargs.entries.map fun e => (Key.str e.1, e.2))
  merged.mapValues Value.render

/-- `_ConnectorSpec`. -/
structure ConnectorSpec where
  type : ConnectorType
  plugin : String
  name : String
  settings : Py.Dict Key String
  deriving DecidableEq

/-- `_ProcessorSpec`. -/
structure ProcessorSpec where
  plugin : String
  condition : String
  workers : Option Int
  settings : Py.Dict Key String
  deriving DecidableEq

/-- `_DLQSpec`. -/
structure DLQSpec where
  plugin : String
  settings : Py.Dict Key String
  windowSize : Option Int
  windowNackThreshold : Option Int
  deriving DecidableEq

/-- `Pipeline`: a builder and what was declared on it. -/
structure Pipeline where
  id : String
  name : String
  description : String
  connectors : List ConnectorSpec
  processors : List ProcessorSpec
  dlq : Option DLQSpec
  deriving DecidableEq

/-- One call on a builder, with its arguments. -/
inductive BuilderCall where
  | source (plugin : String) (name : String) (settings : Option (Py.Dict Key Value))
      (kwargs : Py.Dict String Value)
  | destination (plugin : String) (name : String) (settings : Option (Py.Dict Key Value))
      (kwargs : Py.Dict String Value)
  | process (plugin : String) (condition : String) (workers : Option Int)
      (settings : Option (Py.Dict Key Value)) (kwargs : Py.Dict String Value)
  | dlq (plugin : String) (windowSize : Option Int) (windowNackThreshold : Option Int)
      (settings : Option (Py.Dict Key Value)) (kwargs : Py.Dict String Value)
  deriving DecidableEq

namespace Pipeline

/-- `Pipeline.__init__`. -/
def init (id : String) (name : Option String) (description : String) : Pipeline where
  id := id
  name := name.getD id
  description := description
  connectors := []
  processors := []
  dlq := none

/-- `Pipeline.source`. -/
def source (p : Pipeline) (plugin name : String) (settings : Option (Py.Dict Key Value))
    (kwargs : Py.Dict String Value) : Pipeline :=
  { p with
    connectors := p.connectors ++
      [⟨.source, plugin, strOr name plugin, mergeSettings settings kwargs⟩] }

/-- `Pipeline.destination`. -/
def destination (p : Pipeline) (plugin name : String)
    (settings : Option (Py.Dict Key Value)) (kwargs : Py.Dict String Value) : Pipeline :=
  { p with
    connectors := p.connectors ++
      [⟨.destination, plugin, strOr name plugin, mergeSettings settings kwargs⟩] }

/-- `Pipeline.process`. -/
def process (p : Pipeline) (plugin condition : String) (workers : Option Int)
    (settings : Option (Py.Dict Key Value)) (kwargs : Py.Dict String Value) : Pipeline :=
  { p with
    processors := p.processors ++
      [⟨plugin, condition, workers, mergeSettings settings kwargs⟩] }

/-- `Pipeline.dlq`: omitted window arguments default to the engine's `DefaultDLQ`. -/
def setDLQ (p : Pipeline) (plugin : String) (windowSize windowNackThreshold : Option Int)
    (settings : Option (Py.Dict Key Value)) (kwargs : Py.Dict String Value) : Pipeline :=
  { p with
    dlq := some ⟨plugin, mergeSettings settings kwargs, some (windowSize.getD 1),
      some (windowNackThreshold.getD 0)⟩ }

/-- One call on the builder. -/
def call (p : Pipeline) : BuilderCall → Pipeline
  | .source plugin name settings kwargs => p.source plugin name settings kwargs
  | .destination plugin name settings kwargs => p.destination plugin name settings kwargs
  | .process plugin condition workers settings kwargs =>
    p.process plugin condition workers settings kwargs
  | .dlq plugin windowSize windowNackThreshold settings kwargs =>
    p.setDLQ plugin windowSize windowNackThreshold settings kwargs

/-- A chain of calls on the builder. -/
def calls (p : Pipeline) (cs : List BuilderCall) : Pipeline := cs.foldl call p

end Pipeline

/-! ### The payloads -/

/-- `api_pb2.CreateConnectorRequest(...)` for one connector. -/
def ConnectorSpec.toRequest (c : ConnectorSpec) : Except Exn CreateConnectorRequest := do
  let settings ← toSettings c.settings
  return { type := c.type, plugin := c.plugin, name := c.name, settings := settings }

/-- `api_pb2.CreateProcessorRequest(...)` for one processor. The `workers` field is only
set when it was given. -/
def ProcessorSpec.toRequest (p : ProcessorSpec) : Except Exn CreateProcessorRequest := do
  let settings ← toSettings p.settings
  let workers ← p.workers.elim (.ok 0) toInt32
  return { plugin := p.plugin, condition := p.condition, settings := settings
           workers := workers }

/-- `api_pb2.UpdateDLQRequest(...)`. -/
def DLQSpec.toRequest (d : DLQSpec) : Except Exn UpdateDLQRequest := do
  let settings ← toSettings d.settings
  let windowSize ← d.windowSize.elim (.ok 0) toUInt64
  let windowNackThreshold ← d.windowNackThreshold.elim (.ok 0) toUInt64
  return { plugin := d.plugin, settings := settings, windowSize := windowSize
           windowNackThreshold := windowNackThreshold }

/-- `BuildPlan`: references to the request objects, in send order. -/
structure BuildPlan where
  createPipeline : Ref
  createConnectors : List Ref
  createProcessors : List Ref
  dlq : Option Ref
  deriving DecidableEq

/-- Construct one message object. -/
def newMessage (m : Except Exn Message) : HostM Ref := do
  let m ← Prog.ofExcept m
  perform (.new m)

/-- Construct one message object per element, in order: `tuple(f(a) for a in as)`. -/
def newEach {α : Type} (f : α → Except Exn Message) (as : List α) : HostM (List Ref) :=
  Prog.collect (fun a => newMessage (f a)) as

/-- `Pipeline.build_requests`. -/
def Pipeline.buildRequests (p : Pipeline) : HostM BuildPlan := do
  let createPipeline ← newMessage (.ok (.createPipeline ⟨p.name, p.description⟩))
  let createConnectors ← newEach (fun c => c.toRequest.map Message.createConnector) p.connectors
  let createProcessors ← newEach (fun c => c.toRequest.map Message.createProcessor) p.processors
  match p.dlq with
  | none => return ⟨createPipeline, createConnectors, createProcessors, none⟩
  | some d =>
    let dlqRequest ← newMessage (d.toRequest.map Message.updateDLQ)
    return ⟨createPipeline, createConnectors, createProcessors, some dlqRequest⟩

end Conduit
