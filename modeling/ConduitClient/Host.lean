import ConduitClient.Effect.Prog
import ConduitClient.Messages

/-!
# What the client asks of its host

The side effects of the client library, as an interface: building and changing message
objects, calling a gRPC stub, reading and writing the flags of its own objects, the clock,
and for the local engine also ports, the log file and the subprocess.

A stub call is two operations, because a request and its response are two events between
which the rest of the world goes on: `send` serialises the message as it is at that moment
and puts it on the wire, `recv` blocks until the outcome is there.

Times are exact rationals, and a sleep may be of any length that is not negative. In the source
they are floats: sums are rounded, and `time.sleep` raises `OverflowError` from about `9.2e9`
seconds on.
-/

namespace Conduit

open Effect

/-- A reference to a message object. -/
abbrev Ref := Nat

/-- The once-flags of the client's objects. -/
inductive Attr where
  /-- `Client._closed` -/
  | closed
  /-- `LocalConduit._stopped` -/
  | stopped
  deriving DecidableEq, Repr

/-- The signals `Popen.terminate` and `Popen.kill` send on POSIX. -/
inductive Signal where
  | term | kill
  deriving DecidableEq, Repr

/-- The operations the client performs. -/
inductive HostOp where
  /-- Construct a message object. -/
  | new (m : Message)
  /-- Assign a field of a message object. -/
  | assign (r : Ref) (a : Assignment)
  /-- Call a stub method: check the channel, serialise the request, send it. -/
  | send (m : Method) (r : Ref) (timeout : ℚ)
  /-- Wait for the outcome of the call. -/
  | recv (m : Method)
  | getAttr (a : Attr)
  | setAttr (a : Attr) (b : Bool)
  /-- `grpc.insecure_channel` -/
  | openChannel (addr : String)
  /-- `channel.close()` -/
  | closeChannel
  /-- `time.monotonic()` -/
  | monotonic
  /-- `time.sleep(seconds)` -/
  | sleep (seconds : ℚ)
  /-- `ensure_binary(version)`, see `ConduitClient/Provision.lean`. -/
  | ensureBinary (version : Option String)
  /-- `s.bind(("127.0.0.1", 0))` and `s.getsockname()[1]` -/
  | bindFreePort
  /-- The end of the `with socket.socket(...)` block. -/
  | releasePort (port : Nat)
  /-- `log_path.open("ab")` -/
  | openLog
  /-- `log_file.close()` -/
  | closeLog
  /-- `log_path.open("rb")` -/
  | openLogForReading
  /-- `f.seek(0, 2)` and `f.tell()` -/
  | logSize
  /-- `f.seek(offset)` and `f.read()` -/
  | readLogFrom (offset : Nat)
  /-- `subprocess.Popen(args, ...)` -/
  | spawn (args : List String)
  /-- `atexit.register(self._atexit_kill)` -/
  | registerAtexit
  /-- `process.poll()` -/
  | poll
  /-- `process.terminate()` and `process.kill()`: nothing is sent to a process that is seen to
  have exited. -/
  | signal (s : Signal)
  /-- `process.wait(timeout)` -/
  | wait (timeout : ℚ)
  deriving DecidableEq

/-- The answers to each operation. -/
@[reducible] def HostAns : HostOp → Type
  | .new _ => Ref
  | .send .. => Except Exn Unit
  | .recv m => Except Exn (Response m)
  | .getAttr _ => Bool
  | .monotonic => ℚ
  | .sleep _ => Except Exn Unit
  | .ensureBinary _ => Except Exn String
  | .bindFreePort => Except Exn Nat
  | .openLog | .closeLog | .openLogForReading => Except Exn Unit
  | .logSize => Except Exn Nat
  | .readLogFrom _ => Except Exn Bytes
  | .spawn _ => Except Exn Unit
  | .poll => Option Int
  | .wait _ => Except Exn Unit
  | _ => Unit

/-- The interface of the client to its host. -/
@[reducible] def Host : Interface := ⟨HostOp, HostAns⟩

/-- Client code: a program over `Host` that may raise. -/
abbrev HostM (α : Type) := Prog Host Exn α

/-- Perform an operation. -/
abbrev perform (o : HostOp) : HostM (HostAns o) := Prog.perform (S := Host) o

/-- Perform an operation that may raise. -/
def performOrRaise {α : Type} (p : HostM (Except Exn α)) : HostM α := do
  let r ← p
  Prog.ofExcept r

theorem only_performOrRaise {φ : HostOp → Prop} {α : Type} {p : HostM (Except Exn α)}
    (hp : p.Only φ) : (performOrRaise p).Only φ :=
  .bind hp fun _ => trivial

/-- What the library takes from the runtime underneath: the decoders of protobuf, and the
rendering of values in its messages. -/
structure Runtime extends Codec where
  /-- `repr` of a string. -/
  repr : String → String
  /-- A number of seconds in an f-string. -/
  seconds : ℚ → String
  /-- `bytes.decode("utf-8", errors="replace")` -/
  decodeReplace : Bytes → String

/-- A runtime with the decoders `emptyCodec`. -/
def plainRuntime : Runtime where
  toCodec := emptyCodec
  repr s := "'" ++ s ++ "'"
  seconds t := toString t
  decodeReplace bytes := String.ofList (bytes.map fun b => Char.ofNat b.toNat)

end Conduit
