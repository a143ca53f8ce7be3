import ConduitClient.Client

/-!
# The local engine

`_local.py`: the construction of a `LocalConduit` (two free ports, the subprocess, the wait
for its API), the teardown of the subprocess, and the entry points that lead to it.

The loop of `_wait_ready` has no bound of its own; it ends by the clock, by the exit of the
subprocess or by an answer. `probeLoop` follows it for a given number of iterations and
answers `none` when that many did not end it.
-/

namespace Conduit

open Effect

/-- `_GRACEFUL_STOP_TIMEOUT` -/
def gracefulStopTimeout : ℚ := 10

/-- A loopback address. -/
def address (port : Nat) : String := "127.0.0.1:" ++ toString port

/-- `str(dir / name)`, for the text of a directory and a plain name. -/
def childPath (dir name : String) : String :=
  if dir = "." then name
  else if dir.toList.getLast? = some '/' then dir ++ name
  else dir ++ "/" ++ name

/-- `_free_port`: the port is free again when it is returned. -/
def freePort : HostM Nat := do
  let port ← performOrRaise (perform .bindFreePort)
  perform (.releasePort port)
  return port

/-- A constructed `LocalConduit`. Its process and its log file are behind `Host`, and so is
the flag `_stopped`. -/
structure LocalConduit where
  stateDir : String
  binaryPath : String
  grpcPort : Nat
  httpPort : Nat
  client : Client

namespace LocalConduit

/-- The block of `_terminate` for a subprocess that is seen to run: SIGTERM, and SIGKILL when
the grace window is over. -/
def stopProcess : HostM Unit := do
  if (← perform .poll).isNone then
    perform (.signal .term)
    (performOrRaise (perform (.wait gracefulStopTimeout))).tryCatch fun
      | .timeoutExpired => do
        perform (.signal .kill)
        performOrRaise (perform (.wait gracefulStopTimeout))
      | e => Prog.raise e

/-- The end of `_terminate`: an `OSError` of the log file is suppressed. -/
def closeLogFile : HostM Unit :=
  (performOrRaise (perform .closeLog)).tryCatch fun
    | .os _ => return ()
    | e => Prog.raise e

/-- `LocalConduit._terminate`. -/
def terminate : HostM Unit := do
  if ← perform (.getAttr .stopped) then
    return ()
  perform (.setAttr .stopped true)
  stopProcess
  closeLogFile

/-- `LocalConduit._atexit_kill`: an `Exception` is suppressed, a `KeyboardInterrupt` is not
one. -/
def atexitKill : HostM Unit :=
  terminate.tryCatch fun e => if e.isException then return () else Prog.raise e

/-- `LocalConduit.close`. -/
def close (engine : LocalConduit) : HostM Unit := engine.client.close

variable (rt : Runtime)

/-- `LocalConduit._log_tail`. -/
def logTail (maxBytes : Nat) : HostM String :=
  (do
    performOrRaise (perform .openLogForReading)
    let size ← performOrRaise (perform .logSize)
    let bytes ← performOrRaise (perform (.readLogFrom (size - maxBytes)))
    return rt.decodeReplace bytes : HostM String).tryCatch fun
      | .os _ => return "<log unavailable>"
      | e => Prog.raise e

/-- The error of an engine that exited while it was waited for. -/
def crashedError (exitCode : Int) (tail : String) : ConduitError where
  message := "conduit subprocess exited (code " ++ toString exitCode ++
    ") before its API became ready. Log tail:\n" ++ tail
  code := "client.engine_crashed"

/-- The error of an engine that was not reached in time. -/
def unreachableError (addr : String) (timeout : ℚ) (last : Option ConduitError)
    (tail : String) : ConduitError where
  message := "conduit subprocess did not become reachable at " ++ addr ++ " within " ++
    rt.seconds timeout ++ "s (last error: " ++ last.elim "None" ConduitError.toStr ++
    "). Log tail:\n" ++ tail
  code := "client.engine_unreachable"

/-- The client that `_wait_ready` returns: `Client(channel, on_close=self._terminate)`. -/
def boundClient : Client := ⟨some terminate⟩

/-- `client.get_info(timeout=1.0)` inside its `try` block: the `ConduitError` it raised, if
it raised one. -/
def probe : HostM (Option ConduitError) :=
  (do
    let _ ← Client.getInfo rt.toCodec 1
    return none : HostM (Option ConduitError)).tryCatch fun
      | .conduit e => return some e
      | e => Prog.raise e

/-- The `while` loop of `_wait_ready`, for at most `n` iterations, and what comes after it. -/
def probeLoop (addr : String) (timeout deadline : ℚ) :
    Nat → Option ConduitError → HostM (Option Client)
  | 0, _ => return none
  | n + 1, last => do
    let now ← perform .monotonic
    if now < deadline then
      match ← perform .poll with
      | some exitCode => do
        perform .closeChannel
        let tail ← logTail rt 4096
        Prog.raise (.conduit (crashedError exitCode tail))
      | none => do
        match ← probe rt with
        | none => return some boundClient
        | some e => do
          performOrRaise (perform (.sleep (1 / 10)))
          probeLoop addr timeout deadline n (some e)
    else do
      perform .closeChannel
      let tail ← logTail rt 4096
      Prog.raise (.conduit (unreachableError rt addr timeout last tail))

/-- `LocalConduit._wait_ready`, followed for at most `n` iterations of its loop. -/
def waitReady (addr : String) (timeout : ℚ) (n : Nat) : HostM (Option Client) := do
  let now ← perform .monotonic
  perform (.openChannel addr)
  probeLoop rt addr timeout (now + timeout) n none

/-- The arguments of the subprocess. -/
def engineArgs (binaryPath stateDir : String) (grpcPort httpPort : Nat) : List String :=
  [binaryPath, "run", "--api.enabled", "--api.grpc.address=" ++ address grpcPort,
    "--api.http.address=" ++ address httpPort, "--db.type=badger",
    "--db.badger.path=" ++ childPath stateDir "conduit.db"]

/-- `self.binary_path`: the given binary, or a provisioned one. -/
def binaryPathOf (version : Option String) : Option String → HostM String
  | some binary => return binary
  | none => performOrRaise (perform (.ensureBinary version))

/-- The end of `LocalConduit.__init__`, once the subprocess runs: whatever goes wrong while
it is waited for, it is stopped. -/
def supervise (addr : String) (startupTimeout : ℚ) (n : Nat) : HostM (Option Client) := do
  perform (.setAttr .stopped false)
  perform .registerAtexit
  (waitReady rt addr startupTimeout n).tryCatch fun e => do
    terminate
    Prog.raise e

/-- `LocalConduit.__init__`, followed for at most `n` iterations of the wait. -/
def init (stateDir : String) (version binary : Option String) (startupTimeout : ℚ) (n : Nat) :
    HostM (Option LocalConduit) := do
  let binaryPath ← binaryPathOf version binary
  let grpcPort ← freePort
  let httpPort ← freePort
  performOrRaise (perform .openLog)
  performOrRaise (perform (.spawn (engineArgs binaryPath stateDir grpcPort httpPort)))
  let client ← supervise rt (address grpcPort) startupTimeout n
  return client.map fun client => ⟨stateDir, binaryPath, grpcPort, httpPort, client⟩

end LocalConduit

/-! ### What the wait may ask for -/

section Only

variable {φ : HostOp → Prop} (rt : Runtime)

theorem only_logTail (maxBytes : ℕ) (hopen : φ .openLogForReading) (hsize : φ .logSize)
    (hread : ∀ offset, φ (.readLogFrom offset)) :
    (LocalConduit.logTail rt maxBytes).Only φ := by
  refine .tryCatch ?_ fun e => ?_
  · refine .bind (only_performOrRaise (.perform hopen)) fun _ => ?_
    refine .bind (only_performOrRaise (.perform hsize)) fun size => ?_
    exact .bind (only_performOrRaise (.perform (hread _))) fun _ => trivial
  · cases e <;> trivial

theorem only_probe (hnew : φ (.new .getInfo)) (hsend : ∀ r, φ (.send .getInfo r 1))
    (hrecv : φ (.recv .getInfo)) : (LocalConduit.probe rt).Only φ := by
  refine .tryCatch ?_ fun e => ?_
  · refine .bind (.bind (.perform hnew) fun r => ?_) fun _ => trivial
    exact only_call rt.toCodec .getInfo r 1 (hsend r) hrecv
  · cases e <;> trivial

theorem only_probeLoop (addr : String) (timeout deadline : ℚ) (hclock : φ .monotonic)
    (hpoll : φ .poll) (hclose : φ .closeChannel) (htail : (LocalConduit.logTail rt 4096).Only φ)
    (hprobe : (LocalConduit.probe rt).Only φ) (hsleep : φ (.sleep (1 / 10))) (n : ℕ)
    (last : Option ConduitError) :
    (LocalConduit.probeLoop rt addr timeout deadline n last).Only φ := by
  -- induction on the rounds; each looks at the clock and at the subprocess, and then probes
  induction n generalizing last with
  | zero => trivial
  | succ n ih =>
    refine .bind (.perform hclock) fun t => ?_
    split
    · refine .bind (.perform hpoll) fun exitCode => ?_
      cases exitCode with
      | some code =>
        -- the subprocess has exited: nothing is waited for any more
        refine .bind (.perform hclose) fun _ => ?_
        exact .bind htail fun _ => trivial
      | none =>
        refine .bind hprobe fun failed => ?_
        cases failed with
        | none => trivial
        | some e =>
          -- the only sleep of the loop
          exact .bind (only_performOrRaise (.perform hsleep)) fun _ => ih _
    · refine .bind (.perform hclose) fun _ => ?_
      exact .bind htail fun _ => trivial

end Only

/-- The ways in which a local engine is stopped. -/
inductive Stopping where
  /-- `LocalConduit.close()` -/
  | close
  /-- `LocalConduit.__exit__` -/
  | exit
  /-- `client.close()` -/
  | clientClose
  /-- `client.__exit__` -/
  | clientExit
  /-- The hook that `atexit` calls. -/
  | atexit
  deriving DecidableEq, Repr

/-- What each of them runs. -/
def Stopping.run (engine : LocalConduit) : Stopping → HostM Unit
  | .close => engine.close
  -- `__exit__` calls `close`
  | .exit => engine.close
  | .clientClose => engine.client.close
  | .clientExit => engine.client.close
  | .atexit => LocalConduit.atexitKill

end Conduit
