import ConduitClient.Disk
import ConduitClient.Effect.Interpret
import ConduitClient.Local

/-!
# `conduit.local()`

The entry point of `_local.py`, with everything it leads to. A `LocalConduit` asks its host
for `ensure_binary` as for one operation; here it is the program of `_provision.py`, step by
step (`expand`). `local` adds what the function itself does in front of the constructor: the
state directory and its default, the warning, and the line on stderr.

Many calls run in one world (`desktopWorld`). They share the disk, and what each of them asks
of the host in a way that can be seen from outside is recorded (`Act`). The ports, processes,
channels and clocks of the host may answer anything at all.
-/

namespace Conduit

open Effect Py

/-- What `local()` does itself. -/
inductive ShellOp where
  /-- `Path.cwd()` -/
  | cwd
  /-- `warnings.warn(message)` -/
  | warn (message : String)
  /-- `path.mkdir(parents=True, exist_ok=True)` -/
  | mkdir (path : String)
  /-- `print(line, file=sys.stderr)` -/
  | print (line : String)
  deriving DecidableEq

/-- The answers to each operation. -/
@[reducible] def ShellAns : ShellOp → Type
  | .cwd => Except Exn String
  | _ => Except Exn Unit

/-- The interface of `local()` to what is around the library. -/
@[reducible] def Shell : Interface := ⟨ShellOp, ShellAns⟩

/-- Everything the library asks for. -/
@[reducible] def Desktop : Interface := (Host.sum Provisioning).sum Shell

/-- Code over the whole interface. -/
abbrev DesktopM (α : Type) := Prog Desktop Exn α

/-- Perform an operation of the shell, which may raise. -/
def shell {α : Type} (p : DesktopM (Except Exn α)) : DesktopM α := do
  let r ← p
  Prog.ofExcept r

/-- Perform an operation. -/
abbrev Desktop.ask (o : ShellOp) : DesktopM (ShellAns o) := Prog.perform (S := Desktop) (.inr o)

/-- A step of provisioning. -/
def provisionStep : Implementation Provisioning Desktop :=
  fun o => .op (.inl (.inr o)) fun a => .done (.ok a)

/-- The operations of the host, with `ensure_binary` as the program that it is. -/
def expand (tools : Toolbox) (host : Machine) : Implementation Host Desktop
  | .ensureBinary version =>
    ((ensureBinary tools host version).interpret provisionStep).handle fun r =>
      .done (.ok (r.map (PurePath.text host.flavour)))
  | o => .op (.inl (.inl o)) fun a => .done (.ok a)

/-! ### `local` -/

/-- `Path.cwd() / ".conduit" / "state"`. -/
def defaultStateDir (cwd : String) : String := childPath (childPath cwd ".conduit") "state"

/-- `resolved_state_dir`. -/
def resolvedStateDir : Option String → DesktopM String
  | some dir => return pathText dir
  | none => do
    let cwd ← shell (Desktop.ask .cwd)
    return defaultStateDir cwd

/-- The text of the warning when no state directory is given. -/
def stateDirWarning (dir : String) : String :=
  "conduit.local(): no state_dir given, defaulting to " ++ dir ++
    " (stable across runs in this working directory -- never an ephemeral temp dir, which " ++
    "would silently lose pipeline positions on exit; see the design doc's Mode-1 caveat). " ++
    "Pass state_dir= explicitly for anything beyond a quick local experiment."

/-- The line on stderr. -/
def banner (version dir : String) : String :=
  "conduit.local(): using engine v" ++ version ++ ", state_dir=" ++ dir

/-- `local`, followed for at most `n` iterations of the wait for the engine. -/
def «local» (tools : Toolbox) (host : Machine) (stateDir version binary : Option String)
    (startupTimeout : ℚ) (n : Nat) : DesktopM (Option LocalConduit) := do
  let dir ← resolvedStateDir stateDir
  if stateDir.isNone then
    shell (Desktop.ask (.warn (stateDirWarning dir)))
  shell (Desktop.ask (.mkdir dir))
  shell (Desktop.ask (.print (banner (resolveVersion host version) dir)))
  (LocalConduit.init tools.toRuntime dir version (binary.map pathText) startupTimeout n).interpret
    (expand tools host)

/-! ### The world of many calls -/

/-- What a call asks of the host that can be seen from outside. -/
inductive Act where
  | warned (message : String)
  | madeDir (path : String)
  | printed (line : String)
  /-- A subprocess is started with these arguments, and this is what lies at the path of the
  program then. -/
  | spawned (args : List String) (program : Option Node)
  /-- A channel is opened to this address. -/
  | dialled (addr : String)
  deriving DecidableEq

/-- What lies at an absolute path text, on a POSIX host. -/
def programAt (N : Names) (fs : Loc → Option Node) (path : String) : Option Node :=
  if path.toList.head? = some '/' then lookup N fs (PurePath.parse .posix path) else none

/-- The state of the world: the disk, and what each call has asked for. -/
structure Desk (ι : Type) where
  disk : Disk ι
  acts : List (ι × Act) := []

namespace Desk

variable {ι : Type}

/-- Call `i` has asked for something. -/
def log (s : Desk ι) (i : ι) (act : Act) : Desk ι := { s with acts := s.acts ++ [(i, act)] }

/-- What an operation of a host with the names `N` shows. -/
def shown (N : Names) (s : Desk ι) : HostOp → Option Act
  | .spawn args => some (.spawned args (programAt N s.disk.fs (args.headD "")))
  | .openChannel addr => some (.dialled addr)
  | _ => none

/-- Record what an operation of the host shows. -/
def host (N : Names) (s : Desk ι) (i : ι) (o : HostOp) : Desk ι :=
  (s.shown N o).elim s (s.log i)

/-- How an operation of call `i` may be answered, when its host has the names `N` and the
library's own directory is `bin`. A state directory is not below that, and making it is one of the
things that may happen outside. -/
def answer (N : Names) (bin : Loc) (i : ι) (s : Desk ι) :
    (o : Desktop.Op) → Desktop.Ans o → Desk ι → Prop
  | .inl (.inl o), _, s' => s' = s.host N i o
  | .inl (.inr o), a, s' => Disk.answer N i s.disk o a s'.disk ∧ s'.acts = s.acts
  | .inr .cwd, _, s' => s' = s
  | .inr (.warn message), _, s' => s' = s.log i (.warned message)
  | .inr (.mkdir path), _, s' =>
    (s'.disk = s.disk ∨ Disk.Drift bin s.disk s'.disk) ∧
      s'.acts = s.acts ++ [(i, .madeDir path)]
  | .inr (.print line), _, s' => s' = s.log i (.printed line)

/-- What call `i` has asked for, in order. -/
def own [DecidableEq ι] (s : Desk ι) (i : ι) : List Act :=
  (s.acts.filter (·.1 = i)).map Prod.snd

end Desk

/-- The world of many calls, on hosts with the given names. -/
def desktopWorld {ι : Type} (names : ι → Names) (bin : Loc) : World Desktop ι (Desk ι) where
  answer i := Desk.answer (names i) bin i
  drift s s' := Disk.Drift bin s.disk s'.disk ∧ s'.acts = s.acts

end Conduit
