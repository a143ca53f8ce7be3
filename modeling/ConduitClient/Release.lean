import ConduitClient.Diagnosis

/-!
# What a failing constructor leaves behind

A client is built from resources that are acquired one by one: the log file, the subprocess and
the channel. `LocalConduit.__init__` stops the subprocess and closes the log when the wait for
the API raises; `_wait_ready` closes the channel on two of its ways out; `connect` closes
nothing.

`Unguarded` are the exceptions that no handler of the code stands ready for: one of `Popen`,
one of a probe that is not a `ConduitError`, and one of `sleep`. In a world that marks them, a
constructor that raises has released everything exactly when nothing was marked
(`released_iff`).
-/

namespace Conduit

open Effect HostState

/-- The subprocess is not running, and the log and the channel are closed. -/
structure HostState.Released (s : HostState) : Prop where
  engine : s.engine ≠ .running
  logOpen : s.logOpen = false
  channelOpen : s.channelOpen = false

theorem HostState.Released.not_channelOpen {s : HostState} (h : s.Released) :
    s.channelOpen ≠ true := by
  rw [h.channelOpen]
  exact Bool.false_ne_true

theorem HostState.Released.not_logOpen {s : HostState} (h : s.Released) : s.logOpen ≠ true := by
  rw [h.logOpen]
  exact Bool.false_ne_true

/-- The world in which SIGKILL ends the subprocess within its wait. -/
def obeyedWorld : World Host Unit HostState :=
  hostWorld.under (fun s o a _ => Obeyed s o a) fun _ _ => True

/-- The exceptions after which something stays open. -/
def Unguarded (lib : Codec) : (o : HostOp) → HostAns o → Prop
  | .spawn _, .error _ => True
  | .send .., .error e => (raised lib e).Foreign
  | .recv _, .error e => (raised lib e).Foreign
  | .sleep _, .error _ => True
  | _, _ => False

/-- The world that marks them. -/
def guardedWorld (lib : Codec) : World Host Unit (Marked HostState) :=
  obeyedWorld.marked (Unguarded lib)

variable {lib : Codec}

/-- No terms but that. -/
def guarded (lib : Codec) : Contract (guardedWorld lib) :=
  .solo (guardedWorld lib) (fun _ => True) fun _ _ _ _ => trivial

/-! ### One operation -/

theorem stable_guarded {P : Marked HostState → Prop}
    (h : ∀ m m' : Marked HostState, Drift m.state m'.state → (m'.marked ↔ m.marked) → P m → P m') :
    (guarded lib).Stable () P :=
  .solo fun m m' _ (hd : (Drift m.state m'.state ∧ True) ∧ (m'.marked ↔ m.marked)) hs =>
    h m m' hd.1.1 hd.2 hs

theorem guarded_perform {o : HostOp} {P : Marked HostState → Prop}
    {M : HostAns o → Marked HostState → Prop} (hP : (guarded lib).Stable () P)
    (hM : ∀ a, (guarded lib).Stable () (M a))
    (ho : ∀ (m : Marked HostState) (a : HostAns o) (m' : Marked HostState), P m →
      HostState.answer m.state o a m'.state → (m'.marked ↔ m.marked ∨ Unguarded lib o a) →
        M a m') :
    (guarded lib).Triple () P (perform o) (Contract.Returns M) :=
  .perform hP hM fun m a m' _ hs
    (ha : (HostState.answer m.state o a m'.state ∧ Obeyed m.state o a) ∧
      (m'.marked ↔ m.marked ∨ Unguarded lib o a)) =>
    ⟨trivial, trivial, ho m a m' hs ha.1.1 ha.2⟩

/-- Only two operations open and close the channel. -/
theorem HostState.channelOpen_answer {s s' : HostState} {o : HostOp} {a : HostAns o}
    (hopen : ∀ addr, o ≠ .openChannel addr) (hclose : o ≠ .closeChannel)
    (ha : HostState.answer s o a s') : s'.channelOpen = s.channelOpen := by
  -- every change of a state is one of a few, and two of them touch the channel
  cases ha.change with
  | @sets attr b => cases attr <;> cases b <;> rfl
  | opens he => exact absurd he (hopen _)
  | closes he => exact absurd he hclose
  | _ => rfl

/-! ### The launch -/

/-- Nothing is held yet but the log, if it is open. -/
structure Acquiring (log : Bool) (m : Marked HostState) : Prop where
  unmarked : ¬ m.marked
  new : m.state.New
  engine : m.state.engine = .notSpawned
  logOpen : m.state.logOpen = log
  channelOpen : m.state.channelOpen = false

/-- The subprocess was spawned, and the channel is open or not. -/
structure Supervising (channel : Bool) (m : Marked HostState) : Prop where
  unmarked : ¬ m.marked
  new : m.state.New
  channelOpen : m.state.channelOpen = channel

/-- The launch has raised: only the log may still be open. -/
structure Abandoned (m : Marked HostState) : Prop where
  engine : m.state.engine = .notSpawned
  logOpen : m.state.logOpen = true ↔ m.marked
  channelOpen : m.state.channelOpen = false

theorem HostState.New.drift {s s' : HostState} (h : s.New) (hd : Drift s s') : s'.New :=
  ⟨hd.closed ▸ h.closed, hd.stopped ▸ h.stopped, hd.history ▸ h.history⟩

theorem HostState.Drift.notSpawned {s s' : HostState} (hd : Drift s s')
    (h : s.engine = .notSpawned) : s'.engine = .notSpawned := by
  rcases hd.engine with he | ⟨hrun, -⟩
  · rw [he, h]
  · rw [h] at hrun
    cases hrun

theorem stable_acquiring (log : Bool) : (guarded lib).Stable () (Acquiring log) :=
  stable_guarded fun _ _ hd hm hs =>
    ⟨hm.not.mpr hs.unmarked, hs.new.drift hd, hd.notSpawned hs.engine,
      hd.logOpen.trans hs.logOpen, hd.channelOpen.trans hs.channelOpen⟩

theorem stable_supervising (channel : Bool) :
    (guarded lib).Stable () (Supervising channel) :=
  stable_guarded fun _ _ hd hm hs =>
    ⟨hm.not.mpr hs.unmarked, hs.new.drift hd, hd.channelOpen.trans hs.channelOpen⟩

theorem stable_abandoned : (guarded lib).Stable () Abandoned :=
  stable_guarded fun _ _ hd hm hs =>
    ⟨hd.notSpawned hs.engine, by rw [hd.logOpen, hm]; exact hs.logOpen,
      hd.channelOpen.trans hs.channelOpen⟩

/-- Before the log is opened there is nothing to release. -/
theorem Acquiring.abandoned {m : Marked HostState} (h : Acquiring false m) : Abandoned m where
  engine := h.engine
  logOpen := by
    rw [h.logOpen]
    exact iff_of_false Bool.false_ne_true h.unmarked
  channelOpen := h.channelOpen

/-- An operation that concerns neither the teardown nor the channel. -/
theorem supervising_perform {o : HostOp} {channel : Bool} (ho : o.Harmless)
    (hopen : ∀ addr, o ≠ .openChannel addr) (hno : ∀ a, ¬ Unguarded lib o a) :
    (guarded lib).Triple () (Supervising channel) (perform o)
      (Contract.Returns fun _ => Supervising channel) := by
  refine guarded_perform (stable_supervising channel) (fun _ => stable_supervising channel)
    fun m a m' hs ha hm => ⟨fun h => (hm.mp h).elim hs.unmarked (hno a), hs.new.answer ho ha, ?_⟩
  have hclose : o ≠ .closeChannel := by
    rintro rfl
    exact ho
  rw [channelOpen_answer hopen hclose ha, hs.channelOpen]

/-- An operation that leaves the subprocess and the log alone. -/
theorem acquiring_perform {o : HostOp} {log : Bool} (ho : o.Harmless)
    (hopen : ∀ addr, o ≠ .openChannel addr) (hno : ∀ a, ¬ Unguarded lib o a)
    (hframe : ∀ s a s', HostState.answer s o a s' →
      s'.engine = s.engine ∧ s'.logOpen = s.logOpen) :
    (guarded lib).Triple () (Acquiring log) (perform o)
      (Contract.Returns fun _ => Acquiring log) := by
  refine guarded_perform (stable_acquiring log) (fun _ => stable_acquiring log)
    fun m a m' hs ha hm => ?_
  obtain ⟨hengine, hlog⟩ := hframe _ _ _ ha
  have hclose : o ≠ .closeChannel := by
    rintro rfl
    exact ho
  exact ⟨fun h => (hm.mp h).elim hs.unmarked (hno a), hs.new.answer ho ha,
    hengine.trans hs.engine, hlog.trans hs.logOpen,
    (channelOpen_answer hopen hclose ha).trans hs.channelOpen⟩

/-- What a launch that raises leaves open is the log, after `Popen` has raised. -/
theorem launch_guarded (lib : Codec) :
    Launch (guarded lib) (Acquiring false) (Acquiring true) (Supervising false) Abandoned where
  stableA := stable_acquiring false
  stableL := stable_acquiring true
  stableS := stable_supervising false
  stableE := stable_abandoned
  ensureBinary version := by
    -- it may raise, with nothing acquired yet
    have hkeep : (guarded lib).Triple () (Acquiring false) (perform (.ensureBinary version))
        (Contract.Returns fun _ => Acquiring false) :=
      acquiring_perform trivial (by simp) (fun _ => id) fun s a s' ha => by
        obtain rfl : s' = s := ha
        exact ⟨rfl, rfl⟩
    exact hkeep.outcome fun _ => Acquiring.abandoned
  bindFreePort := by
    have hkeep : (guarded lib).Triple () (Acquiring false) (perform .bindFreePort)
        (Contract.Returns fun _ => Acquiring false) :=
      acquiring_perform trivial (by simp) (fun _ => id) fun s a s' ha => by
        cases a with
        | ok port =>
          obtain ⟨-, rfl⟩ := ha
          exact ⟨rfl, rfl⟩
        | error e =>
          obtain rfl : s' = s := ha
          exact ⟨rfl, rfl⟩
    exact hkeep.outcome fun _ => Acquiring.abandoned
  releasePort port := acquiring_perform trivial (by simp) (fun _ => id) fun s a s' ha => by
    obtain rfl : s' = s.bind port none := ha
    exact ⟨rfl, rfl⟩
  openLog := by
    refine guarded_perform (stable_acquiring false)
      (.post (fun _ => stable_acquiring true) fun _ => stable_abandoned) fun m a m' hs ha hm => ?_
    have hmark : ¬ m'.marked := fun h => (hm.mp h).elim hs.unmarked id
    have hnew : m'.state.New := hs.new.answer (o := .openLog) trivial ha
    cases a with
    | ok =>
      -- from here on the log is open
      have hopen : m'.state = { m.state with logOpen := true } := ha
      exact ⟨hmark, hnew, by rw [hopen]; exact hs.engine, by rw [hopen],
        by rw [hopen]; exact hs.channelOpen⟩
    | error e =>
      -- the log could not be opened, so there is nothing to release
      have hsame : m'.state = m.state := ha
      exact Acquiring.abandoned ⟨hmark, hnew, hsame ▸ hs.engine, hsame ▸ hs.logOpen,
        hsame ▸ hs.channelOpen⟩
  spawn args := by
    refine guarded_perform (stable_acquiring true)
      (.post (fun _ => stable_supervising false) fun _ => stable_abandoned)
      fun m a m' hs ha hm => ?_
    cases a with
    | ok =>
      have hnew : m'.state.New := hs.new.answer (o := .spawn args) trivial ha
      have hspawn : m'.state = { m.state with engine := .running } := ha.2
      exact ⟨fun h => (hm.mp h).elim hs.unmarked id, hnew, by rw [hspawn]; exact hs.channelOpen⟩
    | error e =>
      -- the log is open, and nothing will close it
      have hsame : m'.state = m.state := ha
      exact ⟨hsame ▸ hs.engine, iff_of_true (hsame ▸ hs.logOpen) (hm.mpr (Or.inr trivial)),
        hsame ▸ hs.channelOpen⟩
  setAttr := supervising_perform (by trivial) (by simp) fun _ => id
  registerAtexit := supervising_perform (by trivial) (by simp) fun _ => id

/-! ### The wait -/

/-- `_wait_ready` closes its channel past the flag of the client. With the flag set, a state
after that is one that a teardown may start from. -/
def HostState.asClosed (s : HostState) : HostState := { s with closed := true }

/-- The wait has raised: the channel is still open if something was marked. -/
structure Leaving (m : Marked HostState) : Prop where
  due : m.state.stopped = false
  disciplined : m.state.asClosed.Disciplined
  channelOpen : m.state.channelOpen = true ↔ m.marked

/-- A stub has raised `e` in a probe. -/
structure ProbeFailed (lib : Codec) (e : Exn) (m : Marked HostState) : Prop where
  new : m.state.New
  channelOpen : m.state.channelOpen = true
  marked : m.marked ↔ (raised lib e).Foreign

theorem stable_leaving : (guarded lib).Stable () Leaving :=
  stable_guarded fun _ _ hd hm hs =>
    ⟨hd.stopped.trans hs.due, hs.disciplined.congr hd.history rfl hd.stopped,
      by rw [hd.channelOpen, hm]; exact hs.channelOpen⟩

theorem stable_probeFailed (e : Exn) : (guarded lib).Stable () (ProbeFailed lib e) :=
  stable_guarded fun _ _ hd hm hs =>
    ⟨hs.new.drift hd, hd.channelOpen.trans hs.channelOpen, hm.trans hs.marked⟩

theorem HostState.New.asClosed {s : HostState} (h : s.New) : s.asClosed.Disciplined where
  ordered := h.disciplined.ordered
  channel hopen := by cases hopen
  body := h.disciplined.body

/-- An exception that leaves the loop with the channel open. -/
theorem leaving_of_open {m : Marked HostState} (hnew : m.state.New)
    (hopen : m.state.channelOpen = true) (hm : m.marked) : Leaving m :=
  ⟨hnew.stopped, hnew.asClosed, iff_of_true hopen hm⟩

/-- Past the close of the channel nothing is marked any more, because the rest only reads the
log. -/
def Shut (m : Marked HostState) : Prop := Leaving m ∧ ¬ m.marked

theorem stable_shut : (guarded lib).Stable () Shut :=
  stable_leaving.and (stable_guarded fun _ _ _ hm hs => hm.not.mpr hs)

theorem closeChannel_guarded :
    (guarded lib).Triple () (Supervising true) (perform .closeChannel)
      (Contract.Returns fun _ => Shut) := by
  refine guarded_perform (stable_supervising true) (fun _ => stable_shut) fun m _ m' hs ha hm => ?_
  have hshut : m'.state = { m.state.log .channelClosed with channelOpen := false } := ha
  have hmark : ¬ m'.marked := fun h => (hm.mp h).elim hs.unmarked id
  -- the history of a client that is still being built has polls only
  have hfirst : .channelClosed ∉ m.state.asClosed.history := by
    intro hmem
    obtain ⟨exitCode, he⟩ := hs.new.history _ hmem
    cases he
  have hlog := hs.new.asClosed.log (e := .channelClosed) hfirst (fun _ => rfl) fun _ => Or.inl rfl
  refine ⟨⟨?_, ?_, ?_⟩, hmark⟩
  · rw [hshut]
    exact hs.new.stopped
  · rw [hshut]
    exact hlog.congr rfl rfl rfl
  · rw [hshut]
    exact iff_of_false Bool.false_ne_true hmark

/-- An operation on the log file leaves the state as it is. -/
theorem shut_perform (o : HostOp) (hsame : ∀ s a s', HostState.answer s o a s' → s' = s)
    (hno : ∀ a, ¬ Unguarded lib o a) :
    (guarded lib).Triple () Shut (perform o) (Contract.Returns fun _ => Shut) := by
  refine guarded_perform stable_shut (fun _ => stable_shut) fun m a m' hs ha hm => ?_
  have hstate := hsame _ _ _ ha
  have hmark : ¬ m'.marked := fun h => (hm.mp h).elim hs.2 (hno a)
  refine ⟨⟨by rw [hstate]; exact hs.1.due, by rw [hstate]; exact hs.1.disciplined, ?_⟩, hmark⟩
  rw [hstate]
  exact iff_of_false (fun h => hs.2 (hs.1.channelOpen.mp h)) hmark

/-- The two ways out of the loop that close the channel. -/
theorem giveUp_guarded (rt : Runtime) (exn : String → Exn) :
    (guarded lib).Triple () (Supervising true) (perform .closeChannel >>= fun _ =>
      LocalConduit.logTail rt 4096 >>= fun tail => (Prog.raise (exn tail) : HostM (Option Client)))
      (Contract.Post (fun _ _ => True) fun _ => Leaving) := by
  have hE (_ : Exn) : (guarded lib).Stable () fun m => True ∧ Shut m :=
    (Contract.Stable.const _).and stable_shut
  have htail : (guarded lib).Triple () Shut (LocalConduit.logTail rt 4096)
      (Contract.Post (fun _ => Shut) fun _ m => True ∧ Shut m) := by
    refine logTail_triple stable_shut ?_ ?_ (fun k => ?_) 4096
    · exact (shut_perform .openLogForReading (fun _ _ _ ha => ha) fun _ => id).outcome fun _ hs =>
        ⟨trivial, hs⟩
    · exact (shut_perform .logSize (fun _ _ _ ha => ha) fun _ => id).outcome fun _ hs =>
        ⟨trivial, hs⟩
    · exact (shut_perform (.readLogFrom k) (fun _ _ _ ha => ha) fun _ => id).outcome fun _ hs =>
        ⟨trivial, hs⟩
  exact giveUp_rule (fun _ => stable_shut) hE closeChannel_guarded htail (fun _ _ hs => hs.1)
    fun _ _ hs => hs.2.1

/-- The wait closes the channel, unless an exception leaves the loop that its handler does not
catch. -/
theorem watch_guarded (rt : Runtime) (addr : String) (timeout : ℚ) :
    Watch (guarded rt.toCodec) rt addr timeout (Supervising true) (Supervising true)
      (fun _ => True) (ProbeFailed rt.toCodec)
      (Contract.Post (fun _ _ => True) fun _ => Leaving) where
  stableB := stable_supervising true
  stableR := .const True
  stableK := stable_probeFailed
  stableQ := .post (fun _ => .const True) fun _ => stable_leaving
  monotonic := supervising_perform (by trivial) (by simp) fun _ => id
  poll := by
    have hpoll : (guarded rt.toCodec).Triple () (Supervising true) (perform .poll)
        (Contract.Returns fun _ => Supervising true) :=
      supervising_perform (by trivial) (by simp) fun _ => id
    refine hpoll.weaken (fun exitCode m hs => ?_) fun _ _ hf => hf
    -- the two cases of the loop: the process runs, or has exited
    cases exitCode <;> exact hs
  new := supervising_perform (by trivial) (by simp) fun _ => id
  send r := by
    refine guarded_perform (stable_supervising true)
      (.post (fun _ => stable_supervising true) stable_probeFailed) fun m a m' hs ha hm => ?_
    have hnew : m'.state.New := hs.new.answer (o := .send .getInfo r 1) trivial ha
    have hopen := (channelOpen_answer (by simp) (by simp) ha).trans hs.channelOpen
    cases a with
    | ok => exact ⟨fun h => (hm.mp h).elim hs.unmarked id, hnew, hopen⟩
    -- the stub raised: it is marked if `_call` does not make a `ConduitError` of it
    | error e => exact ⟨hnew, hopen, hm.trans (or_iff_right hs.unmarked)⟩
  recv := by
    refine guarded_perform (stable_supervising true)
      (.post (fun _ => .const True) stable_probeFailed) fun m a m' hs ha hm => ?_
    have hnew : m'.state.New := hs.new.answer (o := .recv .getInfo) trivial ha
    have hopen := (channelOpen_answer (by simp) (by simp) ha).trans hs.channelOpen
    cases a with
    | ok => trivial
    | error e => exact ⟨hnew, hopen, hm.trans (or_iff_right hs.unmarked)⟩
  sleep := by
    refine guarded_perform (stable_supervising true)
      (.post (fun _ => stable_supervising true) fun _ => stable_leaving) fun m a m' hs ha hm => ?_
    have hnew : m'.state.New := hs.new.answer (o := .sleep (1 / 10)) trivial ha
    have hopen := (channelOpen_answer (by simp) (by simp) ha).trans hs.channelOpen
    cases a with
    | ok => exact ⟨fun h => (hm.mp h).elim hs.unmarked id, hnew, hopen⟩
    -- no handler: the channel stays open
    | error e => exact leaving_of_open hnew hopen (hm.mpr (Or.inr trivial))
  crashed _ := giveUp_guarded rt _
  late _ := giveUp_guarded rt _
  answered _ _ := trivial
  -- a `ConduitError` is caught, and the loop goes on; nothing was marked
  again e err m he hs :=
    ⟨fun h => hs.marked.mp h err he, hs.new, hs.channelOpen⟩
  -- any other exception leaves the loop with the channel open
  lost e m hforeign hs := leaving_of_open hs.new hs.channelOpen (hs.marked.mpr hforeign)
  unfinished _ _ := trivial

/-! ### The teardown -/

/-- The operations of `_terminate`. -/
def HostOp.Stops : HostOp → Prop
  | .getAttr .stopped | .setAttr .stopped _ | .poll | .signal _ | .wait _ | .closeLog => True
  | _ => False

theorem only_terminate : LocalConduit.terminate.Only HostOp.Stops := by
  have hwait (t : ℚ) : (performOrRaise (perform (.wait t))).Only HostOp.Stops :=
    only_performOrRaise (.perform (by trivial))
  have hprocess : LocalConduit.stopProcess.Only HostOp.Stops := by
    -- `stopProcess` polls first, and does nothing to a process that has exited
    refine .bind (.perform (by trivial)) fun exitCode => ?_
    split
    · refine .bind (.perform (by trivial)) fun _ => .tryCatch (hwait _) fun e => ?_
      -- only `TimeoutExpired` is followed by SIGKILL
      cases e with
      | timeoutExpired => exact .bind (.perform (by trivial)) fun _ => hwait _
      | _ => trivial
    · trivial
  have hlog : LocalConduit.closeLogFile.Only HostOp.Stops := by
    refine .tryCatch (only_performOrRaise (.perform (by trivial))) fun e => ?_
    cases e <;> trivial
  -- nothing at all where the teardown has already been done
  refine .bind (.perform (by trivial)) fun b => ?_
  split
  · trivial
  · exact .bind (.perform (by trivial)) fun _ => .bind hprocess fun _ => hlog

/-- `_terminate` does not look at the flag of the client. -/
theorem HostState.answer_asClosed {s s' : HostState} {o : HostOp} {a : HostAns o} (ho : o.Stops)
    (h : HostState.answer s o a s') : HostState.answer s.asClosed o a s'.asClosed := by
  cases o with
  | getAttr attr =>
    cases attr with
    | closed => exact ho.elim
    | stopped =>
      obtain ⟨rfl, rfl⟩ := h
      exact ⟨rfl, rfl⟩
  | setAttr attr b =>
    cases attr with
    | closed => exact ho.elim
    | stopped =>
      obtain rfl : s' = _ := h
      cases b <;> rfl
  | poll =>
    obtain ⟨rfl, rfl⟩ := h
    exact ⟨rfl, rfl⟩
  | signal sig =>
    have hs : s' = if s.engine = .running then s.log (.sent sig) else s := h
    -- a signal reaches a process that runs; either way the flag is not looked at
    change s'.asClosed = if s.engine = .running then s.asClosed.log (.sent sig) else s.asClosed
    rw [hs]
    exact apply_ite asClosed _ _ _
  | wait t =>
    cases a with
    | ok =>
      obtain ⟨hexited, rfl⟩ := h
      exact ⟨hexited, rfl⟩
    | error e =>
      rcases h with ⟨he, hrun, rfl⟩ | ⟨he, rfl⟩
      · exact Or.inl ⟨he, hrun, rfl⟩
      · exact Or.inr ⟨he, rfl⟩
  | closeLog =>
    obtain ⟨hos, rfl⟩ := h
    exact ⟨hos, rfl⟩
  | _ => exact ho.elim

theorem HostState.Drift.asClosed {s s' : HostState} (h : Drift s s') :
    Drift s.asClosed s'.asClosed := by
  cases h with
  | time ht => exact .time (s := s.asClosed) ht
  | otherBinds hfree => exact .otherBinds (s := s.asClosed) hfree
  | otherLeaves hb => exact .otherLeaves (s := s.asClosed) hb
  | engineBinds hrun hfree => exact .engineBinds (s := s.asClosed) hrun hfree
  | engineLeaves hb => exact .engineLeaves (s := s.asClosed) hb
  | engineExits hrun => exact .engineExits (s := s.asClosed) hrun
  | connects hopen ht hb hs => exact .connects (s := s.asClosed) hopen ht hb hs
  | disconnects => exact .disconnects (s := s.asClosed)
  | answers hpending hc hlive => exact .answers (s := s.asClosed) hpending hc hlive

/-- A teardown that is obeyed leaves the subprocess exited and the log closed. -/
theorem terminate_obeyed {s s' : HostState} {r : Except Exn Unit} (hdue : s.stopped = false)
    (h : s.asClosed.Disciplined) (he : Ends obeyedWorld LocalConduit.terminate s r s') :
    s'.Exited ∧ s'.logOpen = false := by
  -- no wait is cut short: an obedient process is gone after SIGKILL
  have huncut : ¬ s'.CutShort := by
    refine LocalConduit.terminate.only_true.keeps (P := fun s => ¬ s.CutShort)
      (fun s s' (hd : Drift s s' ∧ True) hs => ?_) (fun s o a s' _ ha hs => ?_) he ?_
    · rw [CutShort, hd.1.history]
      exact hs
    · exact obeyed_answer hs ha.1 ha.2
    · exact h.not_cutShort hdue
  -- the same run, from a state in which the flag of the client is set
  have hends : Ends hostWorld LocalConduit.terminate s.asClosed r s'.asClosed :=
    Ends.map (f := asClosed) (fun _ _ hd => Drift.asClosed hd)
      (fun _ _ _ _ ho ha => answer_asClosed ho ha) only_terminate he.of_under
  -- so that the result about a teardown by `close` applies
  have hover := (terminate_triple.ends h (Or.inl hdue) hends).2
  cases r with
  | ok => exact hover.2.resolve_left huncut
  | error e => exact absurd hover.2 huncut

/-! ### Building a client -/

variable {rt : Runtime} {stateDir addr : String} {version binary : Option String}
  {timeout : ℚ} {n : ℕ}

theorem open_guarded (rt : Runtime) (addr : String) :
    (guarded rt.toCodec).Triple () (Supervising false) (perform (.openChannel addr))
      (Contract.Returns fun _ => Supervising true) := by
  refine guarded_perform (stable_supervising false) (fun _ => stable_supervising true)
    fun m a m' hs ha hm => ⟨fun h => (hm.mp h).elim hs.unmarked id, ?_, ?_⟩
  · exact hs.new.answer (o := .openChannel addr) (a := a) trivial ha
  · have hopen : m'.state = { m.state with
        target := some addr, channelOpen := true, connected := none } := ha
    rw [hopen]

/-- The teardown leaves the marks and the channel as they are. -/
theorem terminate_channel {m m' : Marked HostState} {r : Except Exn Unit}
    (h : m.state.channelOpen = true ↔ m.marked)
    (he : Ends (guardedWorld lib) LocalConduit.terminate m r m') :
    m'.state.channelOpen = true ↔ m'.marked := by
  refine only_terminate.keeps
    (P := fun m : Marked HostState => m.state.channelOpen = true ↔ m.marked) ?_ ?_ he h
  · -- what the host does by itself
    intro m m' (hd : (Drift m.state m'.state ∧ True) ∧ (m'.marked ↔ m.marked)) hs
    rw [hd.1.1.channelOpen, hd.2]
    exact hs
  · intro m o a m' ho (ha : (HostState.answer m.state o a m'.state ∧ Obeyed m.state o a) ∧
      (m'.marked ↔ m.marked ∨ Unguarded lib o a)) hs
    -- none of the operations of a teardown is one that marks
    have hno : ¬ Unguarded lib o a := by
      cases o <;> first | exact id | exact ho.elim
    have hopen : ∀ addr, o ≠ .openChannel addr := by
      rintro addr rfl
      exact ho
    have hclose : o ≠ .closeChannel := by
      rintro rfl
      exact ho
    rw [channelOpen_answer hopen hclose ha.1.1, ha.2, or_iff_left hno]
    exact hs

/-- A constructor that raises has released everything exactly when nothing was marked. -/
theorem init_released_iff {s₀ : HostState} (h₀ : s₀.Before) (hlog : s₀.logOpen = false) {e : Exn}
    {m : Marked HostState}
    (he : Ends (guardedWorld rt.toCodec)
      (LocalConduit.init rt stateDir version binary timeout n) ⟨s₀, False⟩ (.error e) m) :
    m.state.Released ↔ ¬ m.marked := by
  have hacquiring : Acquiring false ⟨s₀, False⟩ :=
    ⟨id, h₀.new, h₀.engine, hlog, h₀.channelOpen⟩
  rcases init_error_iff.mp he with hlaunch | ⟨l, m₁, e₀, m₂, hlaunch, hwait, hterm⟩
  · -- the launch has raised: nothing but the log can be open
    have hleft : Abandoned m :=
      ((launch_guarded rt.toCodec).launch.ends trivial hacquiring hlaunch).2
    constructor
    · intro hreleased hmark
      exact hreleased.not_logOpen (hleft.logOpen.mpr hmark)
    · intro hmark
      refine ⟨by simp [hleft.engine], Bool.eq_false_iff.mpr fun hopen => ?_, hleft.channelOpen⟩
      exact hmark (hleft.logOpen.mp hopen)
  · -- the wait has raised: the handler of `__init__` runs the teardown
    have hsupervising : Supervising false m₁ :=
      ((launch_guarded rt.toCodec).launch.ends trivial hacquiring hlaunch).2
    have htriple := (watch_guarded rt (address l.2.1) timeout).waitReady
      (supervising_perform (by trivial) (by simp) fun _ => id)
      (open_guarded rt (address l.2.1)) n
    have hleaving : Leaving m₂ := (htriple.ends trivial hsupervising hwait).2
    -- the teardown runs, whether it raises or returns
    obtain ⟨r, hterm⟩ : ∃ r, Ends (guardedWorld rt.toCodec) LocalConduit.terminate m₂ r m :=
      hterm.elim (fun h => ⟨_, h⟩) fun h => ⟨_, h.2⟩
    obtain ⟨⟨code, hexited⟩, hclosed⟩ :=
      terminate_obeyed hleaving.due hleaving.disciplined hterm.of_marked
    -- the teardown releases the rest; the channel is as the wait has left it
    have hchannel := terminate_channel hleaving.channelOpen hterm
    constructor
    · intro hreleased hmark
      exact hreleased.not_channelOpen (hchannel.mpr hmark)
    · intro hmark
      refine ⟨by simp [hexited], hclosed, Bool.eq_false_iff.mpr fun hopen => ?_⟩
      exact hmark (hchannel.mp hopen)

/-- A `connect` that raises has its channel open. -/
theorem connect_leaks {checkVersion : Bool} {s₀ s : HostState} {e : Exn}
    (he : Ends hostWorld (connect lib addr checkVersion timeout) s₀ (.error e) s) :
    s.channelOpen = true := by
  obtain ⟨s₁, _, s₂, -, hopen, hrest⟩ := Ends.perform_bind_iff.mp he
  obtain rfl : s₂ = _ := hopen
  -- past the opening of the channel there is nothing that closes it
  have honly : (if checkVersion = true then
      Client.getInfo lib timeout >>= fun _ => (pure ⟨none⟩ : HostM Client)
      else pure ⟨none⟩).Only
        fun o : HostOp => ∀ addr, o ≠ .openChannel addr ∧ o ≠ .closeChannel := by
    split
    · refine .bind (.bind (.perform (by simp)) fun r => ?_) fun _ => trivial
      exact only_call lib .getInfo r timeout (by simp) (by simp)
    · trivial
  refine honly.keeps (P := fun s : HostState => s.channelOpen = true) ?_ ?_ hrest rfl
  · intro s s' hd hs
    rw [HostState.Drift.channelOpen hd]
    exact hs
  · intro s o a s' ho ha hs
    rw [channelOpen_answer (fun addr => (ho addr).1) (ho "").2 ha]
    exact hs

/-- Nobody answers the check of a `connect`. -/
theorem eval_connect_obedient (lib : Codec) (addr : String) (timeout : ℚ) {s : HostState}
    (h : s.engine = .notSpawned) :
    ((connect lib addr true timeout).eval obedient.handle s).1 =
      .error (translated lib ⟨"failed to connect", none⟩) := by
  obtain ⟨t, ht, hengine⟩ : ∃ t : HostState,
      t = { s with target := some addr, channelOpen := true, connected := none } ∧
        t.engine = .notSpawned := ⟨_, rfl, h⟩
  -- the call is sent, and refused
  have hsend : (performOrRaise (perform (.send .getInfo 0 timeout))).eval obedient.handle t =
      (.ok (), { t with pending := true, reply := none }) := by
    subst ht
    rfl
  have hrecv : (performOrRaise (perform (.recv .getInfo))).eval obedient.handle
      { t with pending := true, reply := none } =
        (.error unavailable, { t with pending := false, reply := none }) := by
    have hanswer : obedient.handle { t with pending := true, reply := none } (.recv .getInfo) =
        (.error unavailable, { t with pending := false, reply := none }) := by
      simp [Scenario.handle, hengine]
    unfold performOrRaise
    rw [Prog.eval_perform_bind, hanswer]
    rfl
  have hstub : (stub .getInfo 0 timeout).eval obedient.handle t =
      (.error unavailable, { t with pending := false, reply := none }) :=
    (Prog.eval_bind_ok _ hsend).trans hrecv
  -- which `_call` translates
  have hcall : (Client.call lib .getInfo 0 timeout).eval obedient.handle t =
      (.error (translated lib ⟨"failed to connect", none⟩),
        { t with pending := false, reply := none }) := by
    refine (Prog.eval_tryCatch_error _ hstub).trans ?_
    unfold translated
    rfl
  have hget : (Client.getInfo lib timeout).eval obedient.handle t =
      (.error (translated lib ⟨"failed to connect", none⟩),
        { t with pending := false, reply := none }) := hcall
  have hconnect := Prog.eval_bind_error (f := fun _ => (pure ⟨none⟩ : HostM Client))
    obedient.handle hget
  subst ht
  exact congrArg Prod.fst hconnect

/-- **What is released.** When the constructor of a `LocalConduit` raises, the subprocess is not
running and the log and the channel are closed exactly if no exception was met that its
handlers do not stand ready for. When `connect` raises, its channel is always open; so it keeps
the promise only if it makes no check. -/
theorem released_iff (rt : Runtime) (stateDir : String) (version binary : Option String)
    (timeout : ℚ) (n : ℕ) (addr : String) (checkVersion : Bool) {s₀ : HostState}
    (h₀ : s₀.Before) (hlog : s₀.logOpen = false) :
    (∀ e m, Ends (guardedWorld rt.toCodec)
        (LocalConduit.init rt stateDir version binary timeout n) ⟨s₀, False⟩ (.error e) m →
      (m.state.Released ↔ ¬ m.marked)) ∧
    (∀ e s, Ends hostWorld (connect rt.toCodec addr checkVersion timeout) s₀ (.error e) s →
      s.channelOpen = true) ∧
    ((∀ e s, Ends hostWorld (connect rt.toCodec addr checkVersion timeout) s₀ (.error e) s →
        s.channelOpen = false) ↔ checkVersion = false) := by
  refine ⟨fun e m he => init_released_iff h₀ hlog he, fun e s he => connect_leaks he,
    fun hall => ?_, ?_⟩
  · -- with the check there is a run that raises: nobody answers
    by_contra hcheck
    rw [Bool.not_eq_false] at hcheck
    subst hcheck
    have hends := obedient.ends_host rfl (connect rt.toCodec addr true timeout) s₀
    rw [eval_connect_obedient rt.toCodec addr timeout h₀.engine] at hends
    have hopen := connect_leaks hends
    rw [hall _ _ hends] at hopen
    cases hopen
  · -- without it nothing is left that could raise
    rintro rfl e s he
    obtain ⟨s₁, _, s₂, -, -, hrest⟩ := Ends.perform_bind_iff.mp he
    cases (Ends.done_iff.mp hrest).1

/-! ### Constructors and a `connect` that raise -/

/-- A run without a wait for the subprocess is obeyed. -/
theorem ends_obeyed {α : Type} {p : HostM α} (hp : p.Only fun o : HostOp => ∀ t, o ≠ .wait t)
    {s s' : HostState} {r : Except Exn α} (h : Ends hostWorld p s r s') :
    Ends obeyedWorld p s r s' := by
  have hobeyed (s : HostState) (o : HostOp) (a : HostAns o) (ho : ∀ t, o ≠ .wait t) :
      Obeyed s o a := by
    cases o with
    | wait t => exact absurd rfl (ho t)
    | _ => trivial
  refine Ends.map (W := hostWorld) (f := id) ?_ ?_ hp h
  · exact fun _ _ hd => ⟨hd, trivial⟩
  · exact fun s o a _ ho ha => ⟨ha, hobeyed s o a ho⟩

/-- The launch waits for nothing. -/
theorem launch_obeyed {stateDir : String} {version binary : Option String} {s s' : HostState}
    {r : Except Exn (String × ℕ × ℕ)}
    (h : Ends hostWorld (LocalConduit.launch stateDir version binary) s r s') :
    Ends obeyedWorld (LocalConduit.launch stateDir version binary) s r s' := by
  refine ends_obeyed ((only_launch stateDir version binary).mono fun o ho t hwait => ?_) h
  subst hwait
  exact ho

/-- Once the subprocess has been spawned, an obedient one obeys. -/
theorem obedient_ends_obeyed {α : Type} (p : HostM α) {s : HostState} (hs : Spawned s) :
    Ends obeyedWorld p s (p.eval obedient.handle s).1 (p.eval obedient.handle s).2 :=
  obedient.ends rfl obedient_closed (A := fun s o a _ => Obeyed s o a) (D := fun _ _ => True)
    (fun s₁ s o h => (obedient_orderly s₁ s o h).obeyed) (fun _ _ _ => trivial) p hs

/-- A constructor that was given no time releases everything. -/
theorem released_zero :
    ∃ e m, Ends (guardedWorld plainRuntime.toCodec)
        (LocalConduit.init plainRuntime "state" none (some "conduit") 0 1) ⟨idleHost, False⟩
        (.error e) m ∧
      m.state.Released ∧ ¬ m.marked := by
  have hspawned : Spawned launchedHost := by
    have hrunning : launchedHost.engine = .running := by decide +kernel
    simp [Spawned, hrunning]
  -- the wait gives up at once, after which the subprocess is stopped
  have hwait := obedient_ends_obeyed
    (LocalConduit.waitReady plainRuntime (address 40000) 0 1) hspawned
  rw [eval_waitReady_zero] at hwait
  have hterm := obedient_ends_obeyed LocalConduit.terminate
    (s := launchedHost.gaveUp (address 40000)) hspawned
  have hstopped : (LocalConduit.terminate.eval obedient.handle
        (launchedHost.gaveUp (address 40000))).1 = .ok () ∧
      (LocalConduit.terminate.eval obedient.handle
        (launchedHost.gaveUp (address 40000))).2.engine = .exited 0 ∧
      (LocalConduit.terminate.eval obedient.handle
        (launchedHost.gaveUp (address 40000))).2.logOpen = false ∧
      (LocalConduit.terminate.eval obedient.handle
        (launchedHost.gaveUp (address 40000))).2.channelOpen = false := by
    decide +kernel
  obtain ⟨hok, hexited, hlog, hchannel⟩ := hstopped
  rw [hok] at hterm
  -- launch, wait and teardown together are a run of the constructor
  have hlaunch := launch_obeyed launchedHost_ends.of_under
  have hinit := init_error_iff.mpr
    (Or.inr ⟨_, _, _, _, hlaunch, hwait, Or.inr ⟨rfl, hterm⟩⟩)
  obtain ⟨marked, hends⟩ := hinit.exists_marked (Unguarded plainRuntime.toCodec) False
  have hreleased : HostState.Released (LocalConduit.terminate.eval obedient.handle
      (launchedHost.gaveUp (address 40000))).2 :=
    ⟨by simp [hexited], hlog, hchannel⟩
  have hiff := (released_iff plainRuntime "state" none (some "conduit") 0 1 "" false
    idleHost_before rfl).1 _ _ hends
  exact ⟨_, _, hends, hreleased, hiff.mp hreleased⟩

/-- A host without the program to spawn. -/
def noProgram (s : HostState) : (o : HostOp) → HostAns o × HostState
  | .spawn _ => (.error (.os "no such file or directory"), s)
  | o => obedient.handle s o

theorem noProgram_ends {α : Type} (p : HostM α) (s : HostState) :
    Ends hostWorld p s (p.eval noProgram s).1 (p.eval noProgram s).2 := by
  refine (Lawful.of_invariant (T := fun _ => True) (fun s o _ => ⟨?_, trivial⟩) p trivial).ends
  have hanswer : ∃ s₁, Relation.ReflTransGen (fun s s' => Drift s s' ∧ True) s s₁ ∧
      HostState.answer s₁ o (noProgram s o).1 (noProgram s o).2 := by
    cases o with
    | spawn args => exact ⟨s, .refl, rfl⟩
    | _ => exact (obedient.handle_answer rfl obedient.closed_true s _ trivial).1
  obtain ⟨s₁, hd, ha⟩ := hanswer
  exact ⟨s₁, Relation.ReflTransGen.mono (fun _ _ h => h.1) _ _ hd, ha⟩

/-- A `connect` to where nobody is leaves its channel open, and a constructor with a binary that
does not exist its log. -/
theorem connect_and_init_leak :
    (∃ e s, Ends obeyedWorld (connect plainRuntime.toCodec "127.0.0.1:1" true 5) idleHost
        (.error e) s ∧ ¬ s.Released) ∧
      ∃ e s, Ends obeyedWorld
        (LocalConduit.init plainRuntime "state" none (some "missing") 30 1) idleHost
        (.error e) s ∧ ¬ s.Released := by
  constructor
  · -- `connect` to an address where nobody listens
    have hends := obedient.ends_host rfl (connect plainRuntime.toCodec "127.0.0.1:1" true 5)
      idleHost
    rw [eval_connect_obedient _ _ _ rfl] at hends
    have honly : (connect plainRuntime.toCodec "127.0.0.1:1" true 5).Only
        fun o : HostOp => ∀ t, o ≠ .wait t := by
      refine .bind (.perform (by simp)) fun _ => ?_
      refine .bind (.bind (.perform (by simp)) fun r => ?_) fun _ => trivial
      exact only_call _ .getInfo r 5 (by simp) (by simp)
    refine ⟨_, _, ends_obeyed honly hends, fun hreleased => ?_⟩
    exact hreleased.not_channelOpen (connect_leaks hends)
  · -- `Popen` raises, with the log open
    have hends := noProgram_ends (LocalConduit.launch "state" none (some "missing")) idleHost
    have hraised : ((LocalConduit.launch "state" none (some "missing")).eval noProgram
          idleHost).1 = .error (.os "no such file or directory") ∧
        ((LocalConduit.launch "state" none (some "missing")).eval noProgram
          idleHost).2.logOpen = true := by
      decide +kernel
    rw [hraised.1] at hends
    refine ⟨_, _, init_error_iff.mpr (Or.inl (launch_obeyed hends)),
      fun hreleased => ?_⟩
    exact hreleased.not_logOpen hraised.2

end Conduit
