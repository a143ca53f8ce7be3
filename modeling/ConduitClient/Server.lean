import ConduitClient.Effect.World
import ConduitClient.Plan

/-!
# One server, many submissions

The world that any number of `Client.run` calls share: the message objects of the client
processes, the requests and responses in flight, and the pipelines on the server. A request
carries what the message object holds when it is sent; the objects live in one heap, which
every run may write to.

The server acts by itself (`Plane.Drift`). It creates a pipeline under an id that no pipeline
has, puts an accepted connector, processor or dead-letter queue under the pipeline the
request names, and may also refuse a request or never see it. A call may fail at the client
at any moment, whatever becomes of its request (`Plane.answer`).

The server may already have pipelines. The world remembers which run built each message
object, what each run has sent, and which run each resource came from; no program reads that.
-/

namespace Conduit

open Effect

/-- Whether an accepted request becomes a resource of a pipeline. -/
def Rpc.isResource (rpc : Rpc) : Bool :=
  match rpc.method with
  | .createConnector | .createProcessor | .updateDLQ => true
  | _ => false

/-- A pipeline on the server. -/
structure Entry (ι : Type) where
  id : String
  /-- The run whose request created it; `none` for a pipeline that was there before. -/
  creator : Option ι
  /-- The requests accepted for it, each with the run it came from. -/
  resources : List (Option ι × Rpc) := []

/-- What the server answers. -/
inductive Reply where
  /-- The request was accepted, for the pipeline with this id. -/
  | accepted (pid : String)
  | rejected
  deriving DecidableEq

/-- The state of the clients and the server. -/
structure Plane (ι : Type) where
  /-- The message objects, each with the run that built it. -/
  heap : List (ι × Message) := []
  /-- What each run has sent. -/
  issued : ι → List Rpc := fun _ => []
  /-- The request of each run that the server has not dealt with. -/
  wire : ι → Option Rpc := fun _ => none
  /-- The response to each run that has not been received. -/
  reply : ι → Option Reply := fun _ => none
  pipelines : List (Entry ι) := []

/-- Put a request under a pipeline. -/
def Entry.attach {ι : Type} (e : Entry ι) (i : ι) (rpc : Rpc) : Entry ι :=
  { e with resources := e.resources ++ [(some i, rpc)] }

namespace Plane

variable {ι : Type} [DecidableEq ι]

/-- Construct a message object. -/
def alloc (s : Plane ι) (i : ι) (m : Message) : Plane ι := { s with heap := s.heap ++ [(i, m)] }

/-- Assign a field of a message object. -/
def assign (s : Plane ι) (r : Ref) (a : Assignment) : Plane ι :=
  { s with heap := s.heap.modify r fun x => (x.1, x.2.assign a) }

/-- Put a request on the wire. -/
def send (s : Plane ι) (i : ι) (rpc : Rpc) : Plane ι :=
  { s with
    issued := Function.update s.issued i (s.issued i ++ [rpc])
    wire := Function.update s.wire i (some rpc)
    reply := Function.update s.reply i none }

/-- The call of run `i` is over. -/
def hangUp (s : Plane ι) (i : ι) : Plane ι := { s with reply := Function.update s.reply i none }

/-- The server deals with the request of run `i`. -/
def respond (s : Plane ι) (i : ι) (reply : Option Reply) (pipelines : List (Entry ι)) :
    Plane ι :=
  { s with
    wire := Function.update s.wire i none
    reply := Function.update s.reply i reply
    pipelines := pipelines }

section Self

variable (s : Plane ι) (i : ι) (rpc : Rpc) (reply : Option Reply) (pipelines : List (Entry ι))

theorem send_issued : (s.send i rpc).issued i = s.issued i ++ [rpc] := Function.update_self _ _ _

theorem send_wire : (s.send i rpc).wire i = some rpc := Function.update_self _ _ _

theorem send_reply : (s.send i rpc).reply i = none := Function.update_self _ _ _

theorem hangUp_reply : (s.hangUp i).reply i = none := Function.update_self _ _ _

theorem respond_wire : (s.respond i reply pipelines).wire i = none := Function.update_self _ _ _

theorem respond_reply : (s.respond i reply pipelines).reply i = reply := Function.update_self _ _ _

end Self

/-- The pipelines, after a request of run `i` was put under the one with the id `pid`. -/
def attached (s : Plane ι) (i : ι) (rpc : Rpc) (pid : String) : List (Entry ι) :=
  s.pipelines.map fun e => if e.id = pid then e.attach i rpc else e

/-- A response says what the server answered. -/
def Says : (m : Method) → Response m → String → Prop
  | .createPipeline, id, pid => id = pid
  | _, _, _ => True

/-- How an operation of run `i` may be answered. -/
def answer (i : ι) (s : Plane ι) : (o : HostOp) → HostAns o → Plane ι → Prop
  | .new m, r, s' => r = s.heap.length ∧ s' = s.alloc i m
  | .assign r a, _, s' => s' = s.assign r a
  | .send m r _, .ok _, s' => ∃ j msg, s.heap[r]? = some (j, msg) ∧ s' = s.send i ⟨m, msg⟩
  | .recv m, .ok resp, s' =>
    ∃ pid, s.reply i = some (.accepted pid) ∧ Says m resp pid ∧ s' = s.hangUp i
  -- the request may still be on the wire then
  | .recv _, .error _, s' => s' = s.hangUp i
  | _, _, s' => s' = s

/-- What the server and the network do. -/
inductive Drift (s : Plane ι) : Plane ι → Prop
  | creates {i : ι} {rpc : Rpc} {pid : String} (hw : s.wire i = some rpc)
      (hm : rpc.method = .createPipeline) (hfresh : ∀ e ∈ s.pipelines, e.id ≠ pid) :
      Drift s (s.respond i (some (.accepted pid)) (s.pipelines ++ [⟨pid, some i, []⟩]))
  | attaches {i : ι} {rpc : Rpc} {pid : String} (hw : s.wire i = some rpc)
      (hm : rpc.isResource = true) (ht : rpc.request.target = some pid)
      (he : pid ∈ s.pipelines.map Entry.id) :
      Drift s (s.respond i (some (.accepted pid)) (s.attached i rpc pid))
  /-- Any other request. -/
  | accepts {i : ι} {rpc : Rpc} {pid : String} (hw : s.wire i = some rpc)
      (hm : rpc.method ≠ .createPipeline) (hr : rpc.isResource = false) :
      Drift s (s.respond i (some (.accepted pid)) s.pipelines)
  | rejects {i : ι} {rpc : Rpc} (hw : s.wire i = some rpc) :
      Drift s (s.respond i (some .rejected) s.pipelines)
  /-- The request of run `i` is lost, or the response to it. -/
  | loses (i : ι) : Drift s (s.respond i none s.pipelines)

end Plane

/-- The world of submissions. -/
def planeWorld (ι : Type) [DecidableEq ι] : World Host ι (Plane ι) where
  answer := Plane.answer
  drift := Plane.Drift

/-- A number of `Client.run` calls on one server. Several may submit the same builder. -/
structure Submissions (ι : Type) where
  lib : Codec
  builder : ι → Pipeline
  start : ι → Bool
  timeout : ι → ℚ
  /-- The pipelines on the server before the calls. -/
  earlier : List (Entry ι)

/-- The program of run `i`. -/
def Submissions.program {ι : Type} (F : Submissions ι) (i : ι) : HostM Run :=
  Client.run F.lib (F.builder i) (F.start i) (F.timeout i)

end Conduit
