import ConduitClient.Completion
import ConduitClient.Release
import ConduitClient.Waiting

/-!
# The `with` statement

`with conduit.local(...) as client:` around arbitrary user code. `UserCode` is what the body may
be: any program over what the methods of the client ask for, which may also stop the engine
itself, any number of times, and handle whatever comes out of that. An exception that reaches
the body from outside, such as a `KeyboardInterrupt`, cuts the body short; what is left of it is
user code again.

`Held` is what holds between two steps of the body, and `Held.stopping` is the one lemma about
the teardown. `with_tears_down` is the promise of the README: however the statement is left, the
engine is not left running, and the outcome is the one of the body.
-/

namespace Conduit

open Effect HostState

/-! ### What the body may do -/

/-- What the methods of a client and of a run ask for. -/
def HostOp.Uses : HostOp → Prop
  | .new _ | .assign .. | .send .. | .recv _ | .getAttr _ | .monotonic | .sleep _ => True
  | _ => False

/-- Code that uses `engine`. -/
inductive UserCode (engine : LocalConduit) {α : Type} : HostM α → Prop
  | done (r : Except Exn α) : UserCode engine (.done r)
  | op {o : HostOp} {k : HostAns o → HostM α} (ho : o.Uses) (hk : ∀ a, UserCode engine (k a)) :
      UserCode engine (.op o k)
  /-- The engine is stopped in one of its ways, and the code goes on after that. -/
  | stop (call : Stopping) {k : Except Exn Unit → HostM α} (hk : ∀ r, UserCode engine (k r)) :
      UserCode engine ((call.run engine).handle k)

namespace UserCode

variable {engine : LocalConduit} {α β : Type}

theorem of_only {p : HostM α} (hp : p.Only HostOp.Uses) : UserCode engine p := by
  induction p with
  | done r => exact .done r
  | op o k ih => exact .op hp.1 fun a => ih a (hp.2 a)

theorem handle {p : HostM α} {f : Except Exn α → HostM β} (hp : UserCode engine p)
    (hf : ∀ r, UserCode engine (f r)) : UserCode engine (p.handle f) := by
  induction hp with
  | done r => exact hf r
  | op ho _ ih => exact .op ho ih
  | stop call _ ih =>
    rw [Prog.handle_handle]
    exact .stop call ih

theorem bind {p : HostM α} {f : α → HostM β} (hp : UserCode engine p)
    (hf : ∀ a, UserCode engine (f a)) : UserCode engine (p >>= f) :=
  hp.handle fun
    | .ok a => hf a
    | .error e => .done (.error e)

theorem call (call : Stopping) : UserCode engine (call.run engine) := by
  have h : UserCode engine ((call.run engine).handle Prog.done) := .stop call fun r => .done r
  rwa [Prog.handle_eq_self] at h

end UserCode

namespace LocalConduit

variable (rt : Runtime)

/-- `LocalConduit.run`. -/
def run (_engine : LocalConduit) (pipeline : Pipeline) (start : Bool) (timeout : ℚ) : HostM Run :=
  Client.run rt.toCodec pipeline start timeout

end LocalConduit

section Methods

variable {engine : LocalConduit} (rt : Runtime)

theorem userCode_run (pipeline : Pipeline) (start : Bool) (timeout : ℚ) :
    UserCode engine (engine.run rt pipeline start timeout) :=
  .of_only (only_run rt.toCodec pipeline start timeout (fun _ => trivial) (fun _ _ => trivial)
    (fun _ _ => trivial) fun _ => trivial)

theorem userCode_status (run : Run) (timeout : ℚ) : UserCode engine (run.status rt timeout) :=
  .of_only (only_status rt run timeout (fun _ => trivial) (fun _ => trivial) trivial)

theorem userCode_waitRunning (run : Run) (timeout pollInterval : ℚ) (n : ℕ) :
    UserCode engine (run.waitRunning rt timeout pollInterval n) :=
  .of_only (only_waitRunning rt run timeout pollInterval trivial
    (only_status rt run 5 (fun _ => trivial) (fun _ => trivial) trivial) trivial n)

theorem userCode_stop (run : Run) (force : Bool) (timeout : ℚ) :
    UserCode engine (run.stop rt force timeout) :=
  .of_only (.bind (.perform trivial) fun r =>
    only_call rt.toCodec .stopPipeline r timeout trivial trivial)

end Methods

/-! ### What holds between two steps of the body -/

/-- The engine is being used, or it has been stopped in good order. -/
structure HostState.Held (s : HostState) : Prop where
  disciplined : s.Disciplined
  between : s.Between
  uncut : ¬ s.CutShort
  channel : s.closed = true → s.channelOpen = false

/-- Nothing is left of the engine. -/
structure HostState.Down (s : HostState) : Prop where
  exited : s.Exited
  logOpen : s.logOpen = false

theorem HostState.New.held {s : HostState} (h : s.New) : s.Held where
  disciplined := h.disciplined
  between := h.between
  uncut := h.disciplined.not_cutShort h.stopped
  channel hc := by
    rw [h.closed] at hc
    cases hc

theorem HostState.Held.drift {s s' : HostState} (h : s.Held) (hd : Drift s s') : s'.Held where
  disciplined := h.disciplined.drift hd
  between := stable_between h.disciplined (h.disciplined.drift hd) (.single ⟨h.disciplined, hd⟩)
    h.between
  uncut hcut := h.uncut (by rwa [CutShort, ← hd.history])
  channel := by
    rw [hd.closed, hd.channelOpen]
    exact h.channel

theorem HostState.Held.drifts {s s' : HostState} (h : s.Held)
    (hd : Relation.ReflTransGen obeyedWorld.drift s s') : s'.Held := by
  induction hd with
  | refl => exact h
  | tail _ hd ih => exact ih.drift hd.1

/-- What the body asks for leaves the subprocess, its log and the flags alone. -/
theorem HostState.answer_uses {s s' : HostState} {o : HostOp} {a : HostAns o} (ho : o.Uses)
    (ha : HostState.answer s o a s') :
    s'.closed = s.closed ∧ s'.stopped = s.stopped ∧ s'.engine = s.engine ∧
      s'.logOpen = s.logOpen ∧ s'.channelOpen = s.channelOpen ∧ s'.history = s.history := by
  cases o with
  | send m r t =>
    cases a with
    | ok _ =>
      obtain ⟨-, rfl⟩ := ha
      exact ⟨rfl, rfl, rfl, rfl, rfl, rfl⟩
    | error e =>
      obtain rfl : s' = s := ha
      exact ⟨rfl, rfl, rfl, rfl, rfl, rfl⟩
  | recv m =>
    cases a with
    | ok resp =>
      obtain ⟨p, -, rfl⟩ := ha
      exact ⟨rfl, rfl, rfl, rfl, rfl, rfl⟩
    | error e =>
      obtain rfl : s' = _ := ha
      exact ⟨rfl, rfl, rfl, rfl, rfl, rfl⟩
  | getAttr attr =>
    obtain ⟨-, rfl⟩ := ha
    exact ⟨rfl, rfl, rfl, rfl, rfl, rfl⟩
  | monotonic =>
    obtain ⟨-, rfl⟩ := ha
    exact ⟨rfl, rfl, rfl, rfl, rfl, rfl⟩
  | new m =>
    obtain rfl : s' = s := ha
    exact ⟨rfl, rfl, rfl, rfl, rfl, rfl⟩
  | assign r b =>
    obtain rfl : s' = s := ha
    exact ⟨rfl, rfl, rfl, rfl, rfl, rfl⟩
  | sleep d =>
    obtain rfl : s' = s := ha
    exact ⟨rfl, rfl, rfl, rfl, rfl, rfl⟩
  | _ => exact ho.elim

theorem HostState.Held.answer {s s' : HostState} (h : s.Held) {o : HostOp} {a : HostAns o}
    (ho : o.Uses) (ha : HostState.answer s o a s') : s'.Held := by
  obtain ⟨hclosed, hstopped, hengine, hlog, hopen, hhistory⟩ := answer_uses ho ha
  constructor
  · exact h.disciplined.congr hhistory hclosed hstopped
  · have hbetween := h.between
    rw [Between, Over, CutShort, Exited] at hbetween ⊢
    rwa [hclosed, hstopped, hengine, hlog, hhistory]
  · rw [CutShort, hhistory]
    exact h.uncut
  · rw [hclosed, hopen]
    exact h.channel

/-- No wait for an obedient subprocess is cut short. -/
theorem uncut_of_ends {α : Type} {p : HostM α} {s s' : HostState} {r : Except Exn α}
    (h : ¬ s.CutShort) (he : Ends obeyedWorld p s r s') : ¬ s'.CutShort := by
  refine p.only_true.keeps (P := fun s => ¬ s.CutShort)
    (fun s s' (hd : Drift s s' ∧ True) hs => ?_) (fun s o a s' _ ha hs => ?_) he h
  · rw [CutShort, hd.1.history]
    exact hs
  · exact obeyed_answer hs ha.1 ha.2

/-- Only an assignment changes the flag of the client. -/
theorem HostState.closed_answer {s s' : HostState} {o : HostOp} {a : HostAns o}
    (hset : ∀ b, o ≠ .setAttr .closed b) (ha : HostState.answer s o a s') :
    s'.closed = s.closed := by
  cases ha.change with
  | @sets attr b h =>
    cases attr with
    | closed => exact absurd h (hset b)
    | stopped => cases b <;> rfl
  | _ => rfl

/-- The teardown of the subprocess does not touch the client. -/
theorem client_of_stops {p : HostM Unit} (hp : p.Only HostOp.Stops) {s s' : HostState}
    {r : Except Exn Unit} (he : Ends obeyedWorld p s r s') :
    s'.closed = s.closed ∧ s'.channelOpen = s.channelOpen := by
  refine hp.keeps (P := fun t => t.closed = s.closed ∧ t.channelOpen = s.channelOpen)
    (fun t t' (hd : Drift t t' ∧ True) ht => ?_) (fun t o a t' ho ha ht => ?_) he ⟨rfl, rfl⟩
  · rw [hd.1.closed, hd.1.channelOpen]
    exact ht
  · have hclosed : t'.closed = t.closed := by
      refine closed_answer (fun b hb => ?_) ha.1
      subst hb
      exact ho
    have hopen : t'.channelOpen = t.channelOpen := by
      refine channelOpen_answer (fun addr hb => ?_) (fun hb => ?_) ha.1 <;> subst hb <;> exact ho
    rw [hclosed, hopen]
    exact ht

/-- What the world does by itself leaves the client alone. -/
theorem client_of_drifts {s s' : HostState}
    (hd : Relation.ReflTransGen obeyedWorld.drift s s') :
    s'.closed = s.closed ∧ s'.channelOpen = s.channelOpen := by
  induction hd with
  | refl => exact ⟨rfl, rfl⟩
  | tail _ hd ih =>
    rw [hd.1.closed, hd.1.channelOpen]
    exact ih

/-- `close` closes the channel, or finds it closed. -/
theorem channel_of_close {s s' : HostState} {r : Except Exn Unit}
    (h : s.closed = true → s.channelOpen = false)
    (he : Ends obeyedWorld LocalConduit.boundClient.close s r s') :
    s'.channelOpen = false := by
  obtain ⟨s₁, b, s₂, hd₁, ⟨⟨hb, rfl⟩, -⟩, he⟩ := Ends.perform_bind_iff.mp he
  obtain ⟨hclosed₁, hopen₁⟩ := client_of_drifts hd₁
  rw [← hclosed₁, ← hopen₁] at h
  cases b with
  | true =>
    -- it has been closed before
    obtain ⟨-, hd⟩ := Ends.done_iff.mp he
    rw [(client_of_drifts hd).2]
    exact h hb.symm
  | false =>
    obtain ⟨s₃, _, s₄, -, -, he⟩ := Ends.perform_bind_iff.mp he
    obtain ⟨s₅, _, s₆, -, ⟨ha₆, -⟩, he⟩ := Ends.perform_bind_iff.mp he
    obtain rfl : s₆ = _ := ha₆
    rw [(client_of_stops only_terminate he).2]

theorem only_atexitKill : LocalConduit.atexitKill.Only HostOp.Stops :=
  only_terminate.tryCatch fun e => by
    split <;> trivial

/-- The engine is stopped, in any of its ways. -/
theorem HostState.Held.stopping {engine : LocalConduit}
    (hclient : engine.client = LocalConduit.boundClient) {s s' : HostState} (h : s.Held)
    {call : Stopping} {r : Except Exn Unit} (he : Ends obeyedWorld (call.run engine) s r s') :
    r = .ok () ∧ s'.Held ∧ s'.Down ∧ (call ≠ .atexit → s'.channelOpen = false) := by
  obtain ⟨hdisciplined, hover⟩ :=
    (stopping_triple hclient call).ends h.disciplined h.between he.of_under
  have huncut : ¬ s'.CutShort := uncut_of_ends h.uncut he
  -- nothing was cut short, so that nothing was raised
  have hok : r = .ok () ∧ s'.Over := by
    cases r with
    | ok u => exact ⟨rfl, hover⟩
    | error e => exact absurd hover.2 huncut
  have hdown := hok.2.2.resolve_left huncut
  have hclose (hrun : Ends obeyedWorld engine.client.close s r s') : s'.channelOpen = false := by
    rw [hclient] at hrun
    exact channel_of_close h.channel hrun
  have hchannel : call ≠ .atexit → s'.channelOpen = false := by
    intro hne
    cases call with
    | atexit => exact absurd rfl hne
    | _ => exact hclose he
  refine ⟨hok.1, ⟨hdisciplined, Or.inr hok.2, huncut, fun hc => ?_⟩, ⟨hdown.1, hdown.2⟩, hchannel⟩
  by_cases hcall : call = .atexit
  · -- the hook of `atexit` leaves the client as it is
    subst hcall
    obtain ⟨hclosed, hopen⟩ := client_of_stops only_atexitKill he
    rw [hclosed] at hc
    rw [hopen]
    exact h.channel hc
  · exact hchannel hcall

/-- However the body goes, the engine is held when it is left. -/
theorem HostState.Held.userCode {engine : LocalConduit}
    (hclient : engine.client = LocalConduit.boundClient) {α : Type} {p : HostM α}
    (hp : UserCode engine p) {s s' : HostState} {r : Except Exn α} (h : s.Held)
    (he : Ends obeyedWorld p s r s') : s'.Held := by
  -- induction on the code; a stop in the middle of it is `Held.stopping`
  induction hp generalizing s with
  | done r₀ => exact h.drifts (Ends.done_iff.mp he).2
  | op ho _ ih =>
    obtain ⟨s₁, a, s₂, hd, ha, hrest⟩ := Ends.op_iff.mp he
    exact ih a ((h.drifts hd).answer ho ha.1) hrest
  | stop call _ ih =>
    obtain ⟨r₁, s₁, hstop, hrest⟩ := Ends.handle_iff.mp he
    exact ih r₁ (h.stopping hclient hstop).2.1 hrest

/-! ### The statement -/

/-- `with conduit.local(...) as client:` around `body`, when the constructor is followed for at
most `n` iterations of its wait. -/
def withLocal {α : Type} (rt : Runtime) (stateDir : String) (version binary : Option String)
    (startupTimeout : ℚ) (n : ℕ) (body : LocalConduit → HostM α) : HostM (Option α) := do
  match ← LocalConduit.init rt stateDir version binary startupTimeout n with
  | none => return none
  | some engine => do
    let a ← (body engine).tryFinally (Stopping.exit.run engine)
    return some a

variable {rt : Runtime} {stateDir : String} {version binary : Option String} {timeout : ℚ} {n : ℕ}

/-- A constructor that raises does not leave its subprocess running. -/
theorem init_not_running {s₀ s : HostState} (h₀ : s₀.Before) (hlog : s₀.logOpen = false) {e : Exn}
    (he : Ends obeyedWorld (LocalConduit.init rt stateDir version binary timeout n) s₀
      (.error e) s) : s.engine ≠ .running := by
  obtain ⟨φ, hmarked⟩ := he.exists_marked (Unguarded rt.toCodec) False
  have hacquiring : Acquiring false ⟨s₀, False⟩ :=
    ⟨id, h₀.new, h₀.engine, hlog, h₀.channelOpen⟩
  rcases init_error_iff.mp hmarked with hlaunch | ⟨l, m₁, e₀, m₂, hlaunch, hwait, hterm⟩
  · -- a launch that raises has spawned nothing
    have hleft : Abandoned ⟨s, φ⟩ :=
      ((launch_guarded rt.toCodec).launch.ends trivial hacquiring hlaunch).2
    rw [hleft.engine]
    exact fun h => by cases h
  · -- a wait that raises runs the teardown, whichever way that ends
    have hsupervising : Supervising false m₁ :=
      ((launch_guarded rt.toCodec).launch.ends trivial hacquiring hlaunch).2
    have htriple := (watch_guarded rt (address l.2.1) timeout).waitReady
      (supervising_perform (by trivial) (by simp) fun _ => id)
      (open_guarded rt (address l.2.1)) n
    have hleaving : Leaving m₂ := (htriple.ends trivial hsupervising hwait).2
    obtain ⟨r, hterm⟩ : ∃ r, Ends (guardedWorld rt.toCodec) LocalConduit.terminate m₂ r ⟨s, φ⟩ :=
      hterm.elim (fun h => ⟨_, h⟩) fun h => ⟨_, h.2⟩
    obtain ⟨⟨code, hexited⟩, -⟩ :=
      terminate_obeyed hleaving.due hleaving.disciplined hterm.of_marked
    rw [hexited]
    exact fun h => by cases h

/-! ### The quickstart -/

/-- The pipeline of the quickstart. -/
def quickstartPipeline : Pipeline :=
  (Pipeline.init "orders-sync" none "").calls
    [.source "generator" "" (some (Py.Dict.empty.insert (.str "format.type") (.other "structured")))
      (Py.Dict.empty.insert "operations" (.other "create")),
      .destination "log" "" none (Py.Dict.empty.insert "level" (.other "info"))]

/-- The block of the quickstart, up to the line it prints. -/
def quickstartBlock (rt : Runtime) (n : ℕ) (engine : LocalConduit) :
    HostM (Option RunStatus) := do
  let run ← engine.run rt quickstartPipeline true 10
  match ← run.waitRunning rt 30 (1 / 5) n with
  | .polling => return none
  | .running _ => do
    let status ← run.status rt 5
    run.stop rt false 10
    return some status

theorem userCode_quickstart (rt : Runtime) (n : ℕ) (engine : LocalConduit) :
    UserCode engine (quickstartBlock rt n engine) := by
  refine (userCode_run rt quickstartPipeline true 10).bind fun run => ?_
  refine (userCode_waitRunning rt run 30 (1 / 5) n).bind fun waited => ?_
  cases waited with
  | polling => exact .done _
  | running _ =>
    refine (userCode_status rt run 5).bind fun status => ?_
    exact (userCode_stop rt run false 10).bind fun _ => .done _

/-- What an obedient engine makes of a `with` statement. -/
theorem withLocal_obedient {α : Type} (n : ℕ) (body : LocalConduit → HostM α) :
    Ends obeyedWorld (withLocal plainRuntime "state" none (some "conduit") 30 n body) idleHost
      ((withLocal plainRuntime "state" none (some "conduit") 30 n body).eval obedient.handle
        idleHost).1
      ((withLocal plainRuntime "state" none (some "conduit") 30 n body).eval obedient.handle
        idleHost).2 := by
  have hspawned : Spawned launchedHost := by
    have hrunning : launchedHost.engine = .running := by decide +kernel
    simp [Spawned, hrunning]
  have hok : ((LocalConduit.launch "state" none (some "conduit")).eval obedient.handle
      idleHost).1 = .ok ("conduit", 40000, 40001) := by
    decide +kernel
  have heval : (LocalConduit.launch "state" none (some "conduit")).eval obedient.handle idleHost =
      (.ok ("conduit", 40000, 40001), launchedHost) :=
    Prod.ext hok rfl
  -- the launch waits for nothing, and from then on the subprocess is there to obey
  rw [withLocal, LocalConduit.init_eq, bind_assoc, Prog.eval_bind_ok _ heval]
  exact .bind_ok (launch_obeyed launchedHost_ends.of_under) (obedient_ends_obeyed _ hspawned)

/-- **The promise of the `with` statement.** The body is any user code, and every wait for the
subprocess is obeyed. When the statement has been left, the engine is not running. If the body
was entered, the outcome is the one of the body, neither swallowed nor replaced; the
subprocess has exited, its log and the channel are closed, and it was torn down once, however
often the body itself has stopped it. -/
theorem with_tears_down {α : Type} {body : LocalConduit → HostM α}
    (hbody : ∀ engine, UserCode engine (body engine)) {s₀ s : HostState} (h₀ : s₀.Before)
    (hlog : s₀.logOpen = false) {r : Except Exn (Option α)}
    (he : Ends obeyedWorld (withLocal rt stateDir version binary timeout n body) s₀ r s)
    (hended : r ≠ .ok none) :
    s.engine ≠ .running ∧
      ((∃ e, r = .error e ∧ Ends obeyedWorld
          (LocalConduit.init rt stateDir version binary timeout n) s₀ (.error e) s) ∨
        ∃ engine s₁ r₁ s₂, Ends obeyedWorld
            (LocalConduit.init rt stateDir version binary timeout n) s₀ (.ok (some engine)) s₁ ∧
          Ends obeyedWorld (body engine) s₁ r₁ s₂ ∧ r = r₁.map some ∧
          s.Exited ∧ s.Released ∧ TornDownOnce s.history) := by
  rcases Ends.bind he with ⟨e, rfl, hinit⟩ | ⟨made, s₁, hinit, hrest⟩
  · exact ⟨init_not_running h₀ hlog hinit, Or.inl ⟨e, rfl, hinit⟩⟩
  cases made with
  | none => exact absurd (Ends.done_iff.mp hrest).1 hended
  | some engine =>
    obtain ⟨hclient, hnew⟩ := init_new h₀ hinit.of_under
    -- the block, with what comes after its value
    obtain ⟨r₀, hblock, hr⟩ : ∃ r₀, Ends obeyedWorld
        ((body engine).tryFinally (Stopping.exit.run engine)) s₁ r₀ s ∧ r = r₀.map some := by
      rcases Ends.bind hrest with ⟨e, rfl, hblock⟩ | ⟨a, s₂, hblock, hdone⟩
      · exact ⟨.error e, hblock, rfl⟩
      · obtain ⟨rfl, hd⟩ := Ends.done_iff.mp hdone
        exact ⟨.ok a, hblock.drifts hd, rfl⟩
    obtain ⟨r₁, s₂, r₂, hrun, hexit, hout⟩ := hblock.tryFinally
    have hheld : s₂.Held := hnew.held.userCode hclient (hbody engine) hrun
    obtain ⟨hok, hheld', hdown, hchannel⟩ := hheld.stopping hclient hexit
    obtain ⟨code, hexited⟩ := hdown.exited
    have hnot : s.engine ≠ .running := by
      rw [hexited]
      exact fun h => by cases h
    refine ⟨hnot, Or.inr ⟨engine, s₁, r₁, s₂, hinit, hrun, ?_, hdown.exited, ?_, ?_⟩⟩
    · rw [hr, hout hok]
    · exact ⟨hnot, hdown.logOpen, hchannel fun h => by cases h⟩
    · exact hheld'.disciplined.ordered.tornDownOnce

theorem with_tears_down_quickstart :
    ∃ e s, Ends obeyedWorld (withLocal plainRuntime "state" none (some "conduit") 30 1
        (quickstartBlock plainRuntime 1)) idleHost (.error e) s ∧ s.engine ≠ .running := by
  have hends := withLocal_obedient 1 (quickstartBlock plainRuntime 1)
  -- this engine answers the first probe and no request after it, so that the block raises
  have hraised : ((withLocal plainRuntime "state" none (some "conduit") 30 1
      (quickstartBlock plainRuntime 1)).eval obedient.handle idleHost).1.isOk = false := by
    decide +kernel
  generalize (withLocal plainRuntime "state" none (some "conduit") 30 1
    (quickstartBlock plainRuntime 1)).eval obedient.handle idleHost = out at hends hraised
  obtain ⟨r, s⟩ := out
  cases r with
  | ok a => cases hraised
  | error e =>
    exact ⟨e, s, hends, (with_tears_down (userCode_quickstart plainRuntime 1) idleHost_before rfl
      hends fun h => by cases h).1⟩

end Conduit
