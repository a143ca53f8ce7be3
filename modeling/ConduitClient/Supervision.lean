import Mathlib.Algebra.Order.Ring.Rat
import ConduitClient.Effect.Solo
import ConduitClient.Local

/-!
# The host of a local engine

The world in which a `LocalConduit` is constructed and torn down: the loopback ports of the
host and the processes bound to them, the subprocess, the client's channel, and the flags and
files of the two objects. `HostState.answer` says how an operation may be answered,
`HostState.Drift` what happens beside: time passes, other processes bind ports and leave them,
the subprocess binds its port late or never and exits whenever it likes, the channel connects
to whoever is at its address, and that process answers.

`history` is read by no program: it records the closing of the channel, the runs of the body
of `_terminate`, what was seen of the subprocess, the signals it was sent and how the waits
for it went. Nor is `exitedAt`, which tells at what point of it the subprocess exited.
-/

namespace Conduit

open Effect

/-- The processes of the host. -/
inductive Proc where
  /-- The process the library runs in. -/
  | library
  /-- The subprocess. -/
  | engine
  /-- Any other process. Some of them serve a gRPC API that answers `GetInfo`. -/
  | other (pid : Nat) (serves : Bool)
  deriving DecidableEq

/-- Whether a process answers `GetInfo`. -/
def Proc.serves : Proc → Bool
  | .library => false
  | .engine => true
  | .other _ serves => serves

/-- The subprocess. -/
inductive Engine where
  | notSpawned
  | running
  | exited (code : Int)
  deriving DecidableEq

/-- The exit code, if the subprocess has exited. -/
def Engine.exitCode : Engine → Option Int
  | .exited code => some code
  | _ => none

/-- What is recorded of a teardown. -/
inductive Event where
  /-- The channel was closed. -/
  | channelClosed
  /-- The body of `_terminate` began. -/
  | stopping
  /-- `poll` was asked, and answered this. -/
  | seen (exitCode : Option Int)
  /-- The subprocess was sent a signal. -/
  | sent (signal : Signal)
  /-- A wait for the subprocess ended with its exit. -/
  | waited
  /-- A wait for the subprocess ran out of its time, which was this. -/
  | expired (timeout : ℚ)
  /-- A wait for the subprocess was interrupted from the keyboard. -/
  | interrupted
  deriving DecidableEq

/-- The operations that stop nothing. -/
def HostOp.Harmless : HostOp → Prop
  | .closeChannel | .closeLog | .signal _ | .wait _ | .setAttr _ true => False
  | _ => True

/-- The state of the host. -/
structure HostState where
  /-- Who is bound to each loopback port. -/
  bound : Nat → Option Proc
  engine : Engine := .notSpawned
  clock : ℚ := 0
  /-- The address of the channel. -/
  target : Option String := none
  channelOpen : Bool := false
  /-- Who is at the other end of the channel. -/
  connected : Option Proc := none
  /-- A request is on its way. -/
  pending : Bool := false
  /-- Who has answered it. -/
  reply : Option Proc := none
  /-- Who gave the last answer that the client received. -/
  answeredBy : Option Proc := none
  /-- `Client._closed` -/
  closed : Bool := false
  /-- `LocalConduit._stopped` -/
  stopped : Bool := false
  logOpen : Bool := false
  history : List Event := []
  /-- How much had been recorded when the subprocess exited. -/
  exitedAt : Option Nat := none

namespace HostState

/-- Record an event. -/
def log (s : HostState) (e : Event) : HostState := { s with history := s.history ++ [e] }

/-- Bind or release a port. -/
def bind (s : HostState) (port : Nat) (p : Option Proc) : HostState :=
  { s with bound := Function.update s.bound port p }

/-- The exit of the subprocess, which leaves its ports. -/
def exit (s : HostState) (code : Int) : HostState :=
  { s with
    engine := .exited code
    exitedAt := some s.history.length
    bound := fun port => if s.bound port = some .engine then none else s.bound port }

/-- A flag of the client's objects. -/
def flag (s : HostState) : Attr → Bool
  | .closed => s.closed
  | .stopped => s.stopped

/-- Set a flag. -/
def setFlag (s : HostState) (b : Bool) : Attr → HostState
  | .closed => { s with closed := b }
  -- the body of `_terminate` begins with this
  | .stopped => if b then { s with stopped := b, history := s.history ++ [.stopping] }
    else { s with stopped := b }

/-- The subprocess has exited. -/
def Exited (s : HostState) : Prop := ∃ code, s.engine = .exited code

/-- No object of a `LocalConduit` exists yet. Other processes may be bound to ports. -/
structure Before (s : HostState) : Prop where
  engine : s.engine = .notSpawned
  channelOpen : s.channelOpen = false
  connected : s.connected = none
  reply : s.reply = none
  answeredBy : s.answeredBy = none
  closed : s.closed = false
  stopped : s.stopped = false
  history : s.history = []

/-- How an operation may be answered. -/
def answer (s : HostState) : (o : HostOp) → HostAns o → HostState → Prop
  | .send .., .ok _, s' =>
    s.channelOpen = true ∧ s' = { s with pending := true, reply := none }
  | .recv _, .ok _, s' =>
    ∃ p, s.reply = some p ∧
      s' = { s with answeredBy := some p, pending := false, reply := none }
  | .recv _, .error _, s' => s' = { s with pending := false, reply := none }
  | .getAttr a, b, s' => b = s.flag a ∧ s' = s
  | .setAttr a b, _, s' => s' = s.setFlag b a
  | .openChannel addr, _, s' =>
    s' = { s with target := some addr, channelOpen := true, connected := none }
  | .closeChannel, _, s' => s' = { s.log .channelClosed with channelOpen := false }
  | .monotonic, t, s' => s.clock ≤ t ∧ s' = { s with clock := t }
  | .bindFreePort, .ok port, s' => s.bound port = none ∧ s' = s.bind port (some .library)
  | .releasePort port, _, s' => s' = s.bind port none
  | .openLog, .ok _, s' => s' = { s with logOpen := true }
  -- a file that is closed is closed, also when its last writes fail
  | .closeLog, r, s' => (∀ e, r = .error e → ∃ msg, e = .os msg) ∧ s' = { s with logOpen := false }
  | .spawn _, .ok _, s' => s.engine = .notSpawned ∧ s' = { s with engine := .running }
  | .poll, code, s' => code = s.engine.exitCode ∧ s' = s.log (.seen code)
  | .signal sig, _, s' => s' = if s.engine = .running then s.log (.sent sig) else s
  | .wait _, .ok _, s' => s.Exited ∧ s' = s.log .waited
  | .wait t, .error e, s' =>
    (e = .timeoutExpired ∧ s.engine = .running ∧ s' = s.log (.expired t)) ∨
      (e = .keyboardInterrupt ∧ s' = s.log .interrupted)
  -- the other operations leave the host as it is
  | _, _, s' => s' = s

/-- What happens beside. -/
inductive Drift (s : HostState) : HostState → Prop
  | time {t : ℚ} (h : s.clock ≤ t) : Drift s { s with clock := t }
  /-- Another process binds a free port. -/
  | otherBinds {port pid : Nat} {serves : Bool} (hfree : s.bound port = none) :
      Drift s (s.bind port (some (.other pid serves)))
  | otherLeaves {port pid : Nat} {serves : Bool} (hb : s.bound port = some (.other pid serves)) :
      Drift s (s.bind port none)
  | engineBinds {port : Nat} (hrun : s.engine = .running) (hfree : s.bound port = none) :
      Drift s (s.bind port (some .engine))
  | engineLeaves {port : Nat} (hb : s.bound port = some .engine) : Drift s (s.bind port none)
  | engineExits {code : Int} (hrun : s.engine = .running) : Drift s (s.exit code)
  /-- The channel connects to who serves at its address. -/
  | connects {port : Nat} {p : Proc} (hopen : s.channelOpen = true)
      (ht : s.target = some (address port)) (hb : s.bound port = some p)
      (hs : p.serves = true) : Drift s { s with connected := some p }
  | disconnects : Drift s { s with connected := none }
  /-- Who is at the other end of the channel answers the request. -/
  | answers {p : Proc} (hpending : s.pending = true) (hc : s.connected = some p)
      (hlive : p = .engine → s.engine = .running) : Drift s { s with reply := some p }

end HostState

/-- The world of a local engine. -/
def hostWorld : World Host Unit HostState where
  answer _ := HostState.answer
  drift := HostState.Drift

namespace HostState

@[simp] theorem bind_bound (s : HostState) (port : Nat) (p : Option Proc) :
    (s.bind port p).bound = Function.update s.bound port p := rfl

theorem mem_log {s : HostState} {e e' : Event} :
    e' ∈ (s.log e).history ↔ e' ∈ s.history ∨ e' = e := by
  rw [log, List.mem_append, List.mem_singleton]

theorem not_mem_log {s : HostState} {e e' : Event} (h : e' ∉ s.history) (hne : e' ≠ e) :
    e' ∉ (s.log e).history :=
  fun hmem => (mem_log.mp hmem).elim h hne

@[simp] theorem log_history (s : HostState) (e : Event) :
    (s.log e).history = s.history ++ [e] := rfl

/-- Which operation an event is recorded by. The two that come with a flag or with the channel
are not among these. -/
def Logged (s : HostState) (o : HostOp) : Event → Prop
  | .seen _ => o = .poll
  | .sent sig => o = .signal sig ∧ s.engine = .running
  | .waited | .interrupted => ∃ t, o = .wait t
  | .expired t => o = .wait t
  | .channelClosed | .stopping => False

/-- What an operation can change. -/
inductive Change (s : HostState) (o : HostOp) : HostState → Prop
  | nothing : Change s o s
  | sends : Change s o { s with pending := true, reply := none }
  | receives {p : Proc} (h : s.reply = some p) :
      Change s o { s with answeredBy := some p, pending := false, reply := none }
  | fails : Change s o { s with pending := false, reply := none }
  | sets {attr : Attr} {b : Bool} (h : o = .setAttr attr b) : Change s o (s.setFlag b attr)
  | opens {addr : String} (h : o = .openChannel addr) :
      Change s o { s with target := some addr, channelOpen := true, connected := none }
  | closes (h : o = .closeChannel) :
      Change s o { s.log .channelClosed with channelOpen := false }
  | ticks (t : ℚ) : Change s o { s with clock := t }
  | binds (port : Nat) (p : Option Proc) : Change s o (s.bind port p)
  | file (b : Bool) : Change s o { s with logOpen := b }
  | spawns (h : s.engine = .notSpawned) : Change s o { s with engine := .running }
  | logs {e : Event} (h : Logged s o e) : Change s o (s.log e)

theorem answer.change {s s' : HostState} {o : HostOp} {a : HostAns o} (h : answer s o a s') :
    Change s o s' := by
  cases o with
  | send m r t =>
    cases a with
    | ok => obtain ⟨-, rfl⟩ := h; exact .sends
    | error e => obtain rfl : s' = s := h; exact .nothing
  | recv m =>
    cases a with
    | ok resp => obtain ⟨p, hp, rfl⟩ := h; exact .receives hp
    | error e => obtain rfl : s' = _ := h; exact .fails
  | getAttr attr => obtain ⟨-, rfl⟩ := h; exact .nothing
  | setAttr attr b => obtain rfl : s' = _ := h; exact .sets rfl
  | openChannel addr => obtain rfl : s' = _ := h; exact .opens rfl
  | closeChannel => obtain rfl : s' = _ := h; exact .closes rfl
  | monotonic => obtain ⟨-, rfl⟩ := h; exact .ticks _
  | bindFreePort =>
    cases a with
    | ok port => obtain ⟨-, rfl⟩ := h; exact .binds _ _
    | error e => obtain rfl : s' = s := h; exact .nothing
  | releasePort port => obtain rfl : s' = _ := h; exact .binds _ _
  | openLog =>
    cases a with
    | ok => obtain rfl : s' = _ := h; exact .file _
    | error e => obtain rfl : s' = s := h; exact .nothing
  | closeLog => obtain ⟨-, rfl⟩ := h; exact .file _
  | spawn args =>
    cases a with
    | ok => obtain ⟨hs, rfl⟩ := h; exact .spawns hs
    | error e => obtain rfl : s' = s := h; exact .nothing
  | poll => obtain ⟨-, rfl⟩ := h; exact .logs rfl
  | signal sig =>
    -- a signal to a process that has exited is not recorded
    obtain rfl : s' = _ := h
    split
    · next hrun => exact .logs ⟨rfl, hrun⟩
    · exact .nothing
  | wait t =>
    -- it ends with the exit, or out of time, or is interrupted
    cases a with
    | ok => obtain ⟨-, rfl⟩ := h; exact .logs ⟨t, rfl⟩
    | error e =>
      rcases h with ⟨-, -, rfl⟩ | ⟨-, rfl⟩
      · exact .logs rfl
      · exact .logs ⟨t, rfl⟩
  | _ => obtain rfl : s' = s := h; exact .nothing

theorem exited_of_exitCode {e : Engine} {code : Int} (h : e.exitCode = some code) :
    e = .exited code := by
  cases e <;> simp_all [Engine.exitCode]

namespace Drift

variable {s s' : HostState}

/-- Nothing beside changes the flags, the files or the history. -/
theorem closed (h : Drift s s') : s'.closed = s.closed := by cases h <;> rfl

theorem stopped (h : Drift s s') : s'.stopped = s.stopped := by cases h <;> rfl

theorem logOpen (h : Drift s s') : s'.logOpen = s.logOpen := by cases h <;> rfl

theorem history (h : Drift s s') : s'.history = s.history := by cases h <;> rfl

theorem channelOpen (h : Drift s s') : s'.channelOpen = s.channelOpen := by cases h <;> rfl

theorem target (h : Drift s s') : s'.target = s.target := by cases h <;> rfl

theorem answeredBy (h : Drift s s') : s'.answeredBy = s.answeredBy := by cases h <;> rfl

/-- The subprocess does nothing but exit. -/
theorem engine (h : Drift s s') :
    s'.engine = s.engine ∨ s.engine = .running ∧ s'.Exited := by
  cases h with
  | engineExits hrun => exact Or.inr ⟨hrun, _, rfl⟩
  | _ => exact Or.inl rfl

/-- The moment of the exit is that of the only move that is one. -/
theorem exitedAt (h : Drift s s') :
    s'.exitedAt = s.exitedAt ∧ s'.engine = s.engine ∨
      s.engine = .running ∧ s'.exitedAt = some s.history.length ∧ s'.Exited := by
  cases h with
  | engineExits hrun => exact Or.inr ⟨hrun, rfl, _, rfl⟩
  | _ => exact Or.inl ⟨rfl, rfl⟩

/-- An exit is for good. -/
theorem exited (h : Drift s s') {code : Int} (he : s.engine = .exited code) :
    s'.engine = .exited code := by
  rcases h.engine with hsame | ⟨hrun, -⟩
  · rw [hsame, he]
  · rw [he] at hrun
    cases hrun

end Drift

end HostState

open HostState

/-! ### A host without surprises

The deterministic answers of a host on which everything succeeds. The first probe finds
`server` at the port 40000, and the subprocess exits when it is waited for, or else the wait
is interrupted. -/

/-- What can vary. -/
structure Scenario where
  /-- Who takes the port. -/
  server : Proc
  /-- Whether the subprocess exits when it is waited for. -/
  obeys : Bool

/-- What grpc raises when nobody is there. -/
def unavailable : Exn := .rpc ⟨"failed to connect", none⟩

/-- The first port, and after some time the second. -/
def HostState.nextPort (s : HostState) : Nat := if s.clock = 0 then 40000 else 40001

/-- The server is at the port, and has answered. -/
def HostState.served (s : HostState) (p : Proc) : HostState :=
  { s.bind 40000 (some p) with
    connected := some p, answeredBy := some p, pending := false, reply := none }

/-- How the operations are answered. -/
def Scenario.handle (sc : Scenario) (s : HostState) : (o : HostOp) → HostAns o × HostState
  | .new _ => ((0 : Nat), s)
  | .assign .. => ((), s)
  | .send .. =>
    if s.channelOpen then (.ok (), { s with pending := true, reply := none })
    else (.error unavailable, s)
  | .recv .getInfo =>
    if s.channelOpen ∧ s.pending ∧ s.target = some (address 40000) ∧ s.bound 40000 = none ∧
        s.engine = .running then
      (.ok ⟨"v0.18.0", "linux", "amd64"⟩, s.served sc.server)
    else (.error unavailable, { s with pending := false, reply := none })
  | .recv _ => (.error unavailable, { s with pending := false, reply := none })
  | .getAttr a => (s.flag a, s)
  | .setAttr a b => ((), s.setFlag b a)
  | .openChannel addr =>
    ((), { s with target := some addr, channelOpen := true, connected := none })
  | .closeChannel => ((), { s.log .channelClosed with channelOpen := false })
  | .monotonic => (s.clock, s)
  | .sleep _ => (.ok (), s)
  | .ensureBinary _ => (.error (.os "no network"), s)
  | .bindFreePort =>
    if s.bound s.nextPort = none then (.ok s.nextPort, s.bind s.nextPort (some .library))
    else (.error (.os "address in use"), s)
  | .releasePort port => ((), { s with clock := s.clock + 1 }.bind port none)
  | .openLog => (.ok (), { s with logOpen := true })
  | .closeLog => (.ok (), { s with logOpen := false })
  | .openLogForReading => (.error (.os "no log"), s)
  | .logSize => (.error (.os "no log"), s)
  | .readLogFrom _ => (.error (.os "no log"), s)
  | .spawn _ =>
    if s.engine = .notSpawned then (.ok (), { s with engine := .running })
    else (.error (.os "no process"), s)
  | .registerAtexit => ((), s)
  | .poll => (s.engine.exitCode, s.log (.seen s.engine.exitCode))
  | .signal sig => ((), if s.engine = .running then s.log (.sent sig) else s)
  | .wait _ =>
    if s.engine = .running ∧ sc.obeys then (.ok (), (s.exit 0).log .waited)
    else if s.engine.exitCode.isSome then (.ok (), s.log .waited)
    else (.error .keyboardInterrupt, s.log .interrupted)

/-- A condition on the ports and the subprocess that the host meets throughout. -/
structure Scenario.Closed (sc : Scenario) (T : HostState → Prop) : Prop where
  same : ∀ s s' : HostState, s'.bound = s.bound →
    s'.engine = s.engine ∨ s'.engine = .running → T s → T s'
  bind : ∀ (s : HostState) port p, p = none ∨ p = some .library ∨ p = some sc.server →
    T s → T (s.bind port p)
  exit : ∀ (s : HostState) code, T s → T (s.exit code)

theorem Scenario.closed_true (sc : Scenario) : sc.Closed fun _ => True where
  same _ _ _ _ _ := trivial
  bind _ _ _ _ _ := trivial
  exit _ _ _ := trivial

/-- Between a request and its answer the server takes the port, the channel connects to it,
and it answers. -/
theorem served_path {sc : Scenario} {T : HostState → Prop} (hT : sc.Closed T) {s : HostState}
    (hserves : sc.server.serves = true) (hopen : s.channelOpen = true)
    (hpending : s.pending = true) (ht : s.target = some (address 40000))
    (hfree : s.bound 40000 = none) (hrun : s.engine = .running) (hs : T s) :
    Relation.ReflTransGen (fun s s' => Drift s s' ∧ T s') s
      { s.bind 40000 (some sc.server) with
        connected := some sc.server, reply := some sc.server } := by
  have hbind : T (s.bind 40000 (some sc.server)) := hT.bind _ _ _ (Or.inr (Or.inr rfl)) hs
  have hb : (s.bind 40000 (some sc.server)).bound 40000 = some sc.server := by
    simp [HostState.bind]
  -- who the server is decides which move binds its port
  have h₁ : Drift s (s.bind 40000 (some sc.server)) := by
    cases hp : sc.server with
    | library =>
      rw [hp] at hserves
      cases hserves
    | engine => exact .engineBinds hrun hfree
    | other pid serves => exact .otherBinds hfree
  have h₂ : Drift (s.bind 40000 (some sc.server))
      { s.bind 40000 (some sc.server) with connected := some sc.server } :=
    .connects hopen ht hb hserves
  have h₃ : Drift { s.bind 40000 (some sc.server) with connected := some sc.server }
      { s.bind 40000 (some sc.server) with
        connected := some sc.server, reply := some sc.server } :=
    .answers hpending rfl fun _ => hrun
  exact ((Relation.ReflTransGen.single ⟨h₁, hbind⟩).tail
    ⟨h₂, hT.same (s.bind 40000 (some sc.server)) _ rfl (Or.inl rfl) hbind⟩).tail
    ⟨h₃, hT.same (s.bind 40000 (some sc.server)) _ rfl (Or.inl rfl) hbind⟩

/-- The answers of the host are answers of the world, after some drifting. -/
theorem Scenario.handle_answer {sc : Scenario} (hserves : sc.server.serves = true)
    {T : HostState → Prop} (hT : sc.Closed T) (s : HostState) (o : HostOp) (hs : T s) :
    (∃ s₁, Relation.ReflTransGen (fun s s' => Drift s s' ∧ T s') s s₁ ∧
      HostState.answer s₁ o (sc.handle s o).1 (sc.handle s o).2) ∧ T (sc.handle s o).2 := by
  have hsame (s' : HostState) (h : s'.bound = s.bound) (he : s'.engine = s.engine) : T s' :=
    hT.same _ _ h (Or.inl he) hs
  cases o with
  | send m r t =>
    simp only [handle]
    split
    · next h => exact ⟨⟨s, .refl, h, rfl⟩, hsame _ rfl rfl⟩
    · exact ⟨⟨s, .refl, rfl⟩, hs⟩
  | recv m =>
    cases m with
    | getInfo =>
      simp only [handle]
      split
      · next h =>
        -- the server has come in between and has answered
        obtain ⟨hopen, hpending, ht, hfree, hrun⟩ := h
        refine ⟨⟨_, served_path hT hserves hopen hpending ht hfree hrun hs, _, rfl, rfl⟩, ?_⟩
        exact hT.same (s.bind 40000 (some sc.server)) _ rfl (Or.inl rfl)
          (hT.bind _ _ _ (Or.inr (Or.inr rfl)) hs)
      · exact ⟨⟨s, .refl, rfl⟩, hsame _ rfl rfl⟩
    | _ => exact ⟨⟨s, .refl, rfl⟩, hsame _ rfl rfl⟩
  | getAttr a => exact ⟨⟨s, .refl, rfl, rfl⟩, hs⟩
  | setAttr a b => exact ⟨⟨s, .refl, rfl⟩, hsame _ (by cases a <;> cases b <;> rfl)
      (by cases a <;> cases b <;> rfl)⟩
  | openChannel addr => exact ⟨⟨s, .refl, rfl⟩, hsame _ rfl rfl⟩
  | closeChannel => exact ⟨⟨s, .refl, rfl⟩, hsame _ rfl rfl⟩
  | monotonic => exact ⟨⟨s, .refl, le_refl s.clock, rfl⟩, hs⟩
  | bindFreePort =>
    simp only [handle]
    split
    · next h => exact ⟨⟨s, .refl, h, rfl⟩, hT.bind _ _ _ (Or.inr (Or.inl rfl)) hs⟩
    · exact ⟨⟨s, .refl, rfl⟩, hs⟩
  | releasePort port =>
    -- the clock tells the first port from the second
    have htime : Drift s { s with clock := s.clock + 1 } :=
      .time (le_add_of_nonneg_right zero_le_one)
    refine ⟨⟨_, .single ⟨htime, hsame _ rfl rfl⟩, rfl⟩, ?_⟩
    exact hT.bind _ _ _ (Or.inl rfl) (hsame _ rfl rfl)
  | openLog => exact ⟨⟨s, .refl, rfl⟩, hsame _ rfl rfl⟩
  | closeLog =>
    have ha : HostState.answer s .closeLog (.ok ()) { s with logOpen := false } :=
      ⟨fun _ he => (by cases he), rfl⟩
    exact ⟨⟨s, .refl, ha⟩, hsame _ rfl rfl⟩
  | spawn args =>
    simp only [handle]
    split
    · next h => exact ⟨⟨s, .refl, h, rfl⟩, hT.same s _ rfl (Or.inr rfl) hs⟩
    · exact ⟨⟨s, .refl, rfl⟩, hs⟩
  | poll => exact ⟨⟨s, .refl, rfl, rfl⟩, hsame _ rfl rfl⟩
  | signal sig =>
    refine ⟨⟨s, .refl, rfl⟩, ?_⟩
    simp only [handle]
    split
    · exact hsame _ rfl rfl
    · exact hs
  | wait t =>
    simp only [handle]
    split
    · next h =>
      -- it exits while it is waited for
      refine ⟨⟨s.exit 0, .single ⟨.engineExits h.1, hT.exit _ _ hs⟩, ⟨0, rfl⟩, rfl⟩, ?_⟩
      exact hT.same (s.exit 0) _ rfl (Or.inl rfl) (hT.exit s 0 hs)
    · split
      · next h =>
        obtain ⟨code, hcode⟩ := Option.isSome_iff_exists.mp h
        exact ⟨⟨s, .refl, ⟨code, exited_of_exitCode hcode⟩, rfl⟩, hsame _ rfl rfl⟩
      · exact ⟨⟨s, .refl, Or.inr ⟨rfl, rfl⟩⟩, hsame _ rfl rfl⟩
  | _ => exact ⟨⟨s, .refl, rfl⟩, hs⟩

/-- A run on such a host is a run in the world, also under conditions that it meets. -/
theorem Scenario.ends {sc : Scenario} (hserves : sc.server.serves = true)
    {T : HostState → Prop} (hT : sc.Closed T)
    {A : HostState → (o : HostOp) → HostAns o → HostState → Prop}
    {D : HostState → HostState → Prop}
    (hA : ∀ s₁ s o, T (sc.handle s o).2 → A s₁ o (sc.handle s o).1 (sc.handle s o).2)
    (hD : ∀ s s', T s' → D s s') {α : Type} (p : HostM α) {s : HostState} (hs : T s) :
    Ends (hostWorld.under A D) p s (p.eval sc.handle s).1 (p.eval sc.handle s).2 := by
  refine (Lawful.of_invariant (T := T) (fun s o hs => ?_) p hs).ends
  obtain ⟨⟨s₁, hpath, ha⟩, ht⟩ := sc.handle_answer hserves hT s o hs
  refine ⟨⟨s₁, ?_, ha, hA s₁ s o ht⟩, ht⟩
  refine Relation.ReflTransGen.mono ?_ s s₁ hpath
  exact fun s s' hd => ⟨hd.1, hD s s' hd.2⟩

/-- A run on such a host is a run in the world. -/
theorem Scenario.ends_host {sc : Scenario} (hserves : sc.server.serves = true) {α : Type}
    (p : HostM α) (s : HostState) :
    Ends hostWorld p s (p.eval sc.handle s).1 (p.eval sc.handle s).2 := by
  exact (sc.ends hserves sc.closed_true (A := fun _ _ _ _ => True) (D := fun _ _ => True)
    (fun _ _ _ _ => trivial) (fun _ _ _ => trivial) p trivial).of_under

/-- A host on which nothing runs. -/
def idleHost : HostState := { bound := fun _ => none }

theorem idleHost_before : idleHost.Before := ⟨rfl, rfl, rfl, rfl, rfl, rfl, rfl, rfl⟩

/-- A `LocalConduit` with a given binary, which is probed once. -/
def quickStart : HostM (Option LocalConduit) :=
  LocalConduit.init plainRuntime "state" none (some "conduit") 30 1

/-- What comes out of it. -/
def Scenario.outcome (sc : Scenario) : Option LocalConduit :=
  (quickStart.eval sc.handle idleHost).1.toOption.join

/-- The host after it. -/
def Scenario.started (sc : Scenario) : HostState := (quickStart.eval sc.handle idleHost).2

theorem Scenario.returned {sc : Scenario} {engine : LocalConduit}
    (h : sc.outcome = some engine) :
    (quickStart.eval sc.handle idleHost).1 = .ok (some engine) := by
  unfold outcome at h
  cases hr : (quickStart.eval sc.handle idleHost).1 with
  | ok r =>
    rw [hr] at h
    exact congrArg Except.ok h
  | error e =>
    rw [hr] at h
    cases h

/-- The constructor runs like this in the world. -/
theorem Scenario.quickStart_ends {sc : Scenario} (hserves : sc.server.serves = true)
    {engine : LocalConduit} (h : sc.outcome = some engine) :
    Ends hostWorld quickStart idleHost (.ok (some engine)) sc.started := by
  have hends := sc.ends_host hserves quickStart idleHost
  rw [sc.returned h] at hends
  exact hends

end Conduit
