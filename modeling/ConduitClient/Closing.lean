import ConduitClient.Effect.Shared
import ConduitClient.Release

/-!
# Several threads stop one engine

`close`, `__exit__` and the `atexit` hook may run at the same time: the hook runs in the main
thread while other threads are still going. The flags `_closed` and `_stopped` are read and set in
two steps, so two threads may both find a flag unset, and a thread that finds one set does not
wait for the one that has set it.

The contract says of each flag that some thread has set it (`Closing.Claimed`), and of each thread
what its own deeds have led to (`Closing.Ready`). When all threads are done, the one that has set
a flag has done what goes with it (`torn_down`).
-/

namespace Conduit

open Effect HostState

/-- What a deed is in a teardown. -/
def markOf : Deed Host → Option Event
  | ⟨.signal sig, _⟩ => some (.sent sig)
  | ⟨.wait _, .ok _⟩ => some .waited
  | ⟨.wait t, .error .timeoutExpired⟩ => some (.expired t)
  | _ => none

/-- The signals and the waits of a thread. -/
def marks (own : List (Deed Host)) : List Event := own.filterMap markOf

/-- The wait of a thread ends with the exit of the subprocess or runs out of its time, and it
does not run out once the thread has sent SIGKILL. -/
def Heeded (own : List (Deed Host)) : (o : HostOp) → HostAns o → Prop
  | .wait _, .error e => e = .timeoutExpired ∧ .sent .kill ∉ marks own
  | _, _ => True

/-- The threads of a process whose subprocess obeys. -/
abbrev closingWorld (ι : Type) [DecidableEq ι] : World Host ι (Recorded ι Host HostState) :=
  hostWorld.shared ι Heeded

/-- The thread has set the flag. -/
def Sets (own : List (Deed Host)) (a : Attr) : Prop := ⟨.setAttr a true, ()⟩ ∈ own

/-- One thread stops the subprocess the way `_terminate` does. -/
def Escalates (xs : List Event) : Prop :=
  xs <+: [.sent .term, .waited] ∨
    xs <+: [.sent .term, .expired gracefulStopTimeout, .sent .kill, .waited]

namespace HostState

/-- The subprocess is gone and its log closed. -/
def AtRest (s : HostState) : Prop := s.Exited ∧ s.logOpen = false

/-- What a teardown never undoes. -/
structure Later (s s' : HostState) : Prop where
  closed : s.closed = true → s'.closed = true
  stopped : s.stopped = true → s'.stopped = true
  exited : s.Exited → s'.Exited
  logClosed : s.logOpen = false → s'.logOpen = false
  channelClosed : s.channelOpen = false → s'.channelOpen = false

theorem Later.refl (s : HostState) : s.Later s := ⟨id, id, id, id, id⟩

theorem Later.trans {s s' s'' : HostState} (h : s.Later s') (h' : s'.Later s'') : s.Later s'' where
  closed hs := h'.closed (h.closed hs)
  stopped hs := h'.stopped (h.stopped hs)
  exited hs := h'.exited (h.exited hs)
  logClosed hs := h'.logClosed (h.logClosed hs)
  channelClosed hs := h'.channelClosed (h.channelClosed hs)

theorem Later.of_drift {s s' : HostState} (h : Drift s s') : s.Later s' where
  closed hs := h.closed.trans hs
  stopped hs := h.stopped.trans hs
  exited hs := h.exited' hs
  logClosed hs := h.logOpen.trans hs
  channelClosed hs := h.channelOpen.trans hs

end HostState

/-- The operations of a teardown. -/
def HostOp.TearsDown : HostOp → Prop
  | .getAttr _ | .setAttr _ true | .closeChannel | .closeLog | .poll | .signal _ | .wait _ => True
  | _ => False

/-- What an operation of a teardown does to the state: it undoes nothing, and it sets the flag
that it is to set. -/
structure HostState.Proceeds (s t : HostState) (d : Deed Host) : Prop where
  later : s.Later t
  engine : t.engine = s.engine
  flags : ∀ b, t.flag b = true ↔ s.flag b = true ∨ d = ⟨.setAttr b true, ()⟩

/-- An operation that leaves the flags and the subprocess alone. -/
theorem HostState.Proceeds.of_same {s t : HostState} {d : Deed Host}
    (hd : ∀ b, d ≠ ⟨.setAttr b true, ()⟩) (hclosed : t.closed = s.closed)
    (hstopped : t.stopped = s.stopped) (hengine : t.engine = s.engine)
    (hlog : s.logOpen = false → t.logOpen = false)
    (hchannel : s.channelOpen = false → t.channelOpen = false) : s.Proceeds t d where
  later :=
    { closed := fun h => hclosed.trans h
      stopped := fun h => hstopped.trans h
      exited := fun ⟨code, h⟩ => ⟨code, hengine.trans h⟩
      logClosed := hlog
      channelClosed := hchannel }
  engine := hengine
  flags b := by
    have hflag : t.flag b = s.flag b := by
      cases b with
      | closed => exact hclosed
      | stopped => exact hstopped
    rw [hflag]
    exact ⟨Or.inl, fun h => h.resolve_right (hd b)⟩

theorem HostState.proceeds_of_answer {s t : HostState} {o : HostOp} {a : HostAns o}
    (ho : o.TearsDown) (ha : HostState.answer s o a t) : s.Proceeds t ⟨o, a⟩ := by
  cases o with
  | getAttr x =>
    obtain ⟨-, rfl⟩ := ha
    exact .of_same (fun b hb => by cases hb) rfl rfl rfl id id
  | setAttr x v =>
    cases v with
    | false => exact ho.elim
    | true =>
      obtain rfl : t = s.setFlag true x := ha
      cases x with
      | closed =>
        -- one flag is set, and the other stays as it is
        refine ⟨⟨fun _ => rfl, id, id, id, id⟩, rfl, fun b => ?_⟩
        cases b with
        | closed => exact ⟨fun _ => Or.inr rfl, fun _ => rfl⟩
        | stopped => exact ⟨Or.inl, fun h => h.resolve_right fun hd => by cases hd⟩
      | stopped =>
        refine ⟨⟨id, fun _ => rfl, id, id, id⟩, rfl, fun b => ?_⟩
        cases b with
        | closed => exact ⟨Or.inl, fun h => h.resolve_right fun hd => by cases hd⟩
        | stopped => exact ⟨fun _ => Or.inr rfl, fun _ => rfl⟩
  | closeChannel =>
    obtain rfl : t = _ := ha
    exact .of_same (fun b hb => by cases hb) rfl rfl rfl id fun _ => rfl
  | closeLog =>
    obtain ⟨-, rfl⟩ := ha
    exact .of_same (fun b hb => by cases hb) rfl rfl rfl (fun _ => rfl) id
  | poll =>
    obtain ⟨-, rfl⟩ := ha
    exact .of_same (fun b hb => by cases hb) rfl rfl rfl id id
  | signal sig =>
    -- recorded if there is still somebody to receive it
    obtain rfl : t = if s.engine = .running then s.log (.sent sig) else s := ha
    split
    · exact .of_same (fun b hb => by cases hb) rfl rfl rfl id id
    · exact .of_same (fun b hb => by cases hb) rfl rfl rfl id id
  | wait timeout =>
    have hlog (e : Event) : s.Proceeds (s.log e) ⟨.wait timeout, a⟩ :=
      .of_same (fun b hb => by cases hb) rfl rfl rfl id id
    cases a with
    | ok _ =>
      obtain ⟨-, rfl⟩ := ha
      exact hlog .waited
    | error e =>
      rcases ha with ⟨-, -, rfl⟩ | ⟨-, rfl⟩
      · exact hlog (.expired timeout)
      · exact hlog .interrupted
  | _ => exact ho.elim

theorem marks_append (own : List (Deed Host)) (d : Deed Host) :
    marks (own ++ [d]) = marks own ++ (markOf d).toList := by
  rw [marks, List.filterMap_append]
  cases h : markOf d with
  | none => rw [List.filterMap_cons_none h]; rfl
  | some e => rw [List.filterMap_cons_some h]; rfl

namespace Closing

variable {ι : Type} [DecidableEq ι]

/-- Between two operations: a flag that is set has been set by a thread, a thread has signalled
only in the teardown that it has begun, and the way `_terminate` does. -/
structure Claimed (s : Recorded ι Host HostState) : Prop where
  flags : ∀ a, s.state.flag a = true ↔ ∃ i, Sets (s.own i) a
  begun : ∀ i, ¬ Sets (s.own i) .stopped → marks (s.own i) = []
  escalates : ∀ i, Escalates (marks (s.own i))

omit [DecidableEq ι] in
theorem Claimed.drift {s : Recorded ι Host HostState} {t : HostState} (h : Claimed s)
    (hd : Drift s.state t) : Claimed (⟨t, s.own⟩ : Recorded ι Host HostState) where
  flags a := by
    refine Iff.trans (Eq.to_iff ?_) (h.flags a)
    cases a with
    | closed => exact congrArg (· = true) hd.closed
    | stopped => exact congrArg (· = true) hd.stopped
  begun := h.begun
  escalates := h.escalates

/-- The contract of the threads. -/
def contract : Contract (closingWorld ι) :=
  .shared hostWorld Heeded Claimed Later Later.refl Later.trans Later.of_drift Claimed.drift

variable {i : ι}

theorem Claimed.after {s : Recorded ι Host HostState} (h : Claimed s) {o : HostOp}
    {a : HostAns o} {t : HostState} (ho : o.TearsDown) (ha : HostState.answer s.state o a t)
    (hbegun : markOf ⟨o, a⟩ ≠ none → Sets (s.own i) .stopped)
    (hescalates : Escalates (marks (s.own i ++ [⟨o, a⟩]))) : Claimed (s.after i ⟨o, a⟩ t) := by
  have hflags := (proceeds_of_answer ho ha).flags
  -- the deed is one of thread `i`
  have hsets (j : ι) (b : Attr) (hj : Sets (s.own j) b) : Sets ((s.after i ⟨o, a⟩ t).own j) b := by
    by_cases hij : j = i
    · subst hij
      rw [s.after_own]
      exact List.mem_append_left _ hj
    · rw [s.after_own_of_ne hij]
      exact hj
  refine ⟨fun b => ?_, fun j hj => ?_, fun j => ?_⟩
  · rw [show (s.after i ⟨o, a⟩ t).state.flag b = t.flag b from rfl, hflags b, h.flags b]
    constructor
    · rintro (⟨j, hj⟩ | hd)
      · exact ⟨j, hsets j b hj⟩
      · refine ⟨i, ?_⟩
        rw [s.after_own]
        exact List.mem_append_right _ (List.mem_singleton.mpr hd.symm)
    · rintro ⟨j, hj⟩
      by_cases hij : j = i
      · subst hij
        rw [s.after_own] at hj
        rcases List.mem_append.mp hj with hj | hj
        · exact Or.inl ⟨j, hj⟩
        · exact Or.inr (List.mem_singleton.mp hj).symm
      · rw [s.after_own_of_ne hij] at hj
        exact Or.inl ⟨j, hj⟩
  · have hold : ¬ Sets (s.own j) .stopped := fun hs => hj (hsets j .stopped hs)
    by_cases hij : j = i
    · subst hij
      have hquiet : markOf ⟨o, a⟩ = none := by_contra fun hmark => hold (hbegun hmark)
      rw [s.after_own, marks_append, h.begun j hold, hquiet]
      rfl
    · rw [s.after_own_of_ne hij]
      exact h.begun j hold
  · by_cases hij : j = i
    · subst hij
      rw [s.after_own]
      exact hescalates
    · rw [s.after_own_of_ne hij]
      exact h.escalates j

/-- One operation of a teardown. -/
theorem op_triple {o : HostOp} (ho : o.TearsDown) {P : Recorded ι Host HostState → Prop}
    {M : HostAns o → Recorded ι Host HostState → Prop} (hP : contract.Stable i P)
    (hM : ∀ a, contract.Stable i (M a))
    (hstep : ∀ s a t, Claimed s → P s → Heeded (s.own i) o a → HostState.answer s.state o a t →
      (markOf ⟨o, a⟩ ≠ none → Sets (s.own i) .stopped) ∧
        Escalates (marks (s.own i ++ [⟨o, a⟩])) ∧ M a (s.after i ⟨o, a⟩ t)) :
    contract.Triple i P (perform o) (Contract.Returns M) := by
  refine .perform_shared hP hM fun s a t hs hp hheed ha => ?_
  obtain ⟨hbegun, hescalates, hm⟩ := hstep s a t hs hp hheed ha
  exact ⟨(proceeds_of_answer ho ha).later, hs.after ho ha hbegun hescalates, hm⟩

/-! ### One thread -/

/-- The thread has begun the teardown, and has got as far as `xs` in it. -/
def At (i : ι) (xs : List Event) (s : Recorded ι Host HostState) : Prop :=
  Sets (s.own i) .stopped ∧ marks (s.own i) = xs

/-- The thread is at `xs`, and the subprocess is gone. -/
def Gone (i : ι) (xs : List Event) (s : Recorded ι Host HostState) : Prop :=
  At i xs s ∧ s.state.Exited

/-- What the teardown that a thread has begun has led to. -/
def Ready (i : ι) (s : Recorded ι Host HostState) : Prop :=
  Sets (s.own i) .stopped → s.state.AtRest

theorem stable_at (xs : List Event) : contract.Stable i (At i xs) :=
  Contract.stable_own fun own => Sets own .stopped ∧ marks own = xs

theorem stable_exited : contract.Stable i fun s : Recorded ι Host HostState => s.state.Exited :=
  Contract.stable_later (P := Exited) fun _ _ h => h.exited

theorem stable_gone (xs : List Event) : contract.Stable i (Gone i xs) :=
  (stable_at xs).and stable_exited

theorem Later.atRest {s s' : HostState} (h : s.Later s') (hs : s.AtRest) : s'.AtRest :=
  ⟨h.exited hs.1, h.logClosed hs.2⟩

theorem stable_atRest : contract.Stable i fun s : Recorded ι Host HostState => s.state.AtRest :=
  Contract.stable_later (P := AtRest) fun _ _ h => Later.atRest h

theorem stable_ready : contract.Stable i (Ready i) := by
  intro s s' hI hI' hr hs hsets
  exact stable_atRest hI hI' hr (hs (hr.2 ▸ hsets))

theorem at_after {s : Recorded ι Host HostState} {xs : List Event} (h : At i xs s) (d : Deed Host)
    (t : HostState) : At i (xs ++ (markOf d).toList) (s.after i d t) := by
  obtain ⟨hsets, rfl⟩ := h
  refine ⟨?_, ?_⟩
  · rw [s.after_own]
    exact List.mem_append_left _ hsets
  · rw [s.after_own, marks_append]

omit [DecidableEq ι] in
theorem escalates_after {s : Recorded ι Host HostState} {xs : List Event} (h : At i xs s)
    {d : Deed Host} (hxs : Escalates (xs ++ (markOf d).toList)) :
    Escalates (marks (s.own i ++ [d])) := by
  rw [marks_append, h.2]
  exact hxs

theorem escalates_nil : Escalates [] := Or.inl ⟨[.sent .term, .waited], rfl⟩

theorem escalates_term : Escalates [.sent .term] := Or.inl ⟨[.waited], rfl⟩

theorem escalates_expired : Escalates [.sent .term, .expired gracefulStopTimeout] :=
  Or.inr ⟨[.sent .kill, .waited], rfl⟩

theorem escalates_kill :
    Escalates [.sent .term, .expired gracefulStopTimeout, .sent .kill] :=
  Or.inr ⟨[.waited], rfl⟩

/-- The subprocess is looked at. -/
theorem poll_triple : contract.Triple i (At i []) (perform .poll)
    (Contract.Returns fun exitCode s => if exitCode.isNone then At i [] s else Gone i [] s) := by
  refine op_triple (by trivial) (stable_at []) (fun exitCode => ?_)
    fun s exitCode t hI hs _ ha => ?_
  · cases exitCode with
    | none => exact stable_at []
    | some code => exact stable_gone []
  · obtain ⟨hcode, rfl⟩ := ha
    refine ⟨fun hmark => absurd rfl hmark, escalates_after hs escalates_nil, ?_⟩
    cases exitCode with
    | none => exact at_after hs _ _
    | some code => exact ⟨at_after hs _ _, code, exited_of_exitCode hcode.symm⟩

theorem signal_triple (sig : Signal) {xs : List Event} (hxs : Escalates (xs ++ [.sent sig])) :
    contract.Triple i (At i xs) (perform (.signal sig))
      (Contract.Returns fun _ => At i (xs ++ [.sent sig])) := by
  refine op_triple (by trivial) (stable_at xs) (fun _ => stable_at _) fun s _ t hI hs _ _ => ?_
  exact ⟨fun _ => hs.1, escalates_after hs hxs, at_after hs _ _⟩

/-- What a wait leads to. -/
def WaitedFor (i : ι) (xs : List Event) : Except Exn Unit → Recorded ι Host HostState → Prop
  | .ok _ => Gone i (xs ++ [.waited])
  | .error .timeoutExpired => fun s =>
    .sent .kill ∉ xs ∧ At i (xs ++ [.expired gracefulStopTimeout]) s
  | .error _ => fun _ => False

theorem stable_waitedFor (xs : List Event) (r : Except Exn Unit) :
    contract.Stable i (WaitedFor i xs r) := by
  cases r with
  | ok _ => exact stable_gone _
  | error e =>
    cases e with
    | timeoutExpired => exact (Contract.Stable.const _).and (stable_at _)
    | _ => exact Contract.Stable.const False

theorem wait_triple {xs : List Event} (hwaited : Escalates (xs ++ [.waited]))
    (hexpired : .sent .kill ∉ xs → Escalates (xs ++ [.expired gracefulStopTimeout])) :
    contract.Triple i (At i xs) (perform (.wait gracefulStopTimeout))
      (Contract.Returns (WaitedFor i xs)) := by
  refine op_triple (by trivial) (stable_at xs) (stable_waitedFor xs)
    fun s a t hI hs hheed ha => ?_
  cases a with
  | ok _ =>
    obtain ⟨hexited, rfl⟩ := ha
    exact ⟨fun _ => hs.1, escalates_after hs hwaited, at_after hs _ _, hexited⟩
  | error e =>
    -- the subprocess obeys
    obtain ⟨rfl, hkill⟩ := hheed
    rw [hs.2] at hkill
    exact ⟨fun _ => hs.1, escalates_after hs (hexpired hkill), hkill, at_after hs _ _⟩

/-- The subprocess is stopped. -/
theorem stopProcess_triple : contract.Triple i (At i []) LocalConduit.stopProcess
    (Contract.Returns fun _ s => ∃ xs, Gone i xs s) := by
  have hgone : contract.Stable i fun s => ∃ xs, Gone i xs s :=
    .exists fun xs => stable_gone xs
  have hend (r : Except Exn Unit) :
      contract.Stable i (Contract.Returns (fun _ s => ∃ xs, Gone i xs s) r) :=
    .post (fun _ => hgone) (fun _ => Contract.Stable.const False) r
  have hgrace := Contract.Triple.orRaise (stable_waitedFor [.sent .term])
    (wait_triple (i := i) (Or.inl (List.prefix_refl _)) fun _ => escalates_expired)
  have hreap := Contract.Triple.orRaise
    (stable_waitedFor [.sent .term, .expired gracefulStopTimeout, .sent .kill])
    (wait_triple (i := i) (Or.inr (List.prefix_refl _)) fun hkill => absurd (by simp) hkill)
  refine poll_triple.bind_returns fun exitCode => ?_
  cases exitCode with
  | some code => exact .done (stable_gone []) fun _ _ hs => ⟨[], hs⟩
  | none =>
    refine (signal_triple .term escalates_term).bind_returns fun _ => ?_
    refine Contract.Triple.tryCatch hgrace (fun _ => .done (stable_gone _) fun _ _ hs => ⟨_, hs⟩)
      fun e => ?_
    cases e with
    | timeoutExpired =>
      refine .lift fun _ => ?_
      refine (signal_triple .kill escalates_kill).bind_returns fun _ => ?_
      refine hreap.conseq (fun _ _ hs => hs) fun r s _ hs => ?_
      cases r with
      | ok _ => exact ⟨_, hs⟩
      | error e =>
        -- a process that has been sent SIGKILL is gone in time
        cases e with
        | timeoutExpired => exact absurd (by simp) hs.1
        | _ => exact hs
    | _ => exact .done (Contract.Stable.const False) fun _ _ hs => hs.elim

omit [DecidableEq ι] in
theorem escalates_quiet {s : Recorded ι Host HostState} (h : Claimed s) {d : Deed Host}
    (hd : markOf d = none) : Escalates (marks (s.own i ++ [d])) := by
  rw [marks_append, hd, Option.toList_none, List.append_nil]
  exact h.escalates i

/-- The end of the log file. -/
theorem closeLogFile_triple : contract.Triple i (fun s => ∃ xs, Gone i xs s)
    LocalConduit.closeLogFile (Contract.Returns fun _ s => s.state.AtRest) := by
  have hpost (r : Except Exn Unit) : contract.Stable i
      (Contract.Post (fun _ s => s.state.AtRest)
        (fun e s => (∃ msg, e = .os msg) ∧ s.state.AtRest) r) :=
    .post (fun _ => stable_atRest) (fun _ => (Contract.Stable.const _).and stable_atRest) r
  -- only an `OSError` can come out of it, which is suppressed
  have hperform := Contract.Triple.orRaise hpost (op_triple (i := i) (o := .closeLog) (by trivial)
    (.exists fun xs => stable_gone xs) hpost fun s a t hI hs _ ha => by
      obtain ⟨-, -, hexited⟩ := hs
      obtain ⟨hos, rfl⟩ := ha
      refine ⟨fun hmark => absurd rfl hmark, escalates_quiet hI rfl, ?_⟩
      cases a with
      | ok _ => exact ⟨hexited, rfl⟩
      | error e => exact ⟨hos e rfl, hexited, rfl⟩)
  refine Contract.Triple.tryCatch hperform (fun _ => .done stable_atRest fun _ _ hs => hs)
    fun e => ?_
  refine .lift fun he => ?_
  obtain ⟨msg, rfl⟩ := he
  exact .done stable_atRest fun _ _ hs => hs

theorem sets_append {own : List (Deed Host)} {a : Attr} {d : Deed Host} :
    Sets (own ++ [d]) a ↔ Sets own a ∨ d = ⟨.setAttr a true, ()⟩ := by
  rw [Sets, List.mem_append, List.mem_singleton, eq_comm]
  rfl

/-- An operation that sets no flag leaves what a thread has to answer for as it is. -/
theorem Ready.after {s : Recorded ι Host HostState} (h : Ready i s) {d : Deed Host}
    (hd : d ≠ ⟨.setAttr .stopped true, ()⟩) {t : HostState} (ht : s.state.Later t) :
    Ready i (s.after i d t) := by
  intro hsets
  rw [s.after_own, sets_append] at hsets
  exact Later.atRest ht (h (hsets.resolve_right hd))

theorem stable_stopped :
    contract.Stable i fun s : Recorded ι Host HostState => s.state.stopped = true :=
  Contract.stable_later (P := fun s : HostState => s.stopped = true) fun _ _ h => h.stopped

/-- `_terminate`, beside other threads: afterwards the flag is set, and if this thread has set it
the subprocess is gone. -/
theorem terminate_triple : contract.Triple i (Ready i) LocalConduit.terminate
    (Contract.Returns fun _ s => Ready i s ∧ s.state.stopped = true) := by
  have hunset : contract.Stable i fun s : Recorded ι Host HostState => ¬ Sets (s.own i) .stopped :=
    Contract.stable_own fun own => ¬ Sets own .stopped
  have hget : contract.Triple i (Ready i) (perform (.getAttr .stopped))
      (Contract.Returns fun b s =>
        if b = true then Ready i s ∧ s.state.stopped = true else ¬ Sets (s.own i) .stopped) := by
    refine op_triple (by trivial) stable_ready (fun b => ?_) fun s b t hI hs _ ha => ?_
    · cases b with
      | true => exact stable_ready.and stable_stopped
      | false => exact hunset
    · obtain ⟨hb, rfl⟩ := ha
      refine ⟨fun hmark => absurd rfl hmark, escalates_quiet hI rfl, ?_⟩
      cases b with
      | true => exact ⟨hs.after (fun hd => by cases hd) (.refl _), hb.symm⟩
      | false =>
        -- flags are never taken back, so who sees it unset has not set it
        intro hsets
        rw [s.after_own, sets_append] at hsets
        have hflag := (hI.flags .stopped).mpr ⟨i, hsets.resolve_right fun hd => by cases hd⟩
        rw [← hb] at hflag
        cases hflag
  have hset : contract.Triple i (fun s => ¬ Sets (s.own i) .stopped)
      (perform (.setAttr .stopped true))
      (Contract.Returns fun _ s => At i [] s ∧ s.state.stopped = true) := by
    refine op_triple (by trivial) hunset (fun _ => (stable_at []).and stable_stopped)
      fun s _ t hI hs _ ha => ?_
    obtain rfl : t = _ := ha
    refine ⟨fun hmark => absurd rfl hmark, escalates_quiet hI rfl, ⟨?_, ?_⟩, rfl⟩
    -- the escalation of this thread begins here
    · rw [s.after_own]
      exact List.mem_append_right _ (List.mem_singleton.mpr rfl)
    · rw [s.after_own, marks_append, hI.begun i hs]
      rfl
  have hbody := (stopProcess_triple.bind_returns fun _ => closeLogFile_triple (i := i)).and_later
    (R := fun s => s.stopped = true) fun _ _ h => h.stopped
  refine hget.bind_returns fun b => ?_
  cases b with
  | true =>
    -- another call has begun the teardown, and this one leaves it to that
    exact .done (stable_ready.and stable_stopped) fun _ _ hs => hs
  | false =>
    refine hset.bind_returns fun _ => hbody.conseq (fun _ _ hs => hs) fun r s _ hs => ?_
    cases r with
    | ok _ => exact ⟨fun _ => hs.1, hs.2⟩
    | error e => exact hs.1.elim

/-- What a thread has to answer for between two calls: of the flags that it has set, `_stopped`
means that the subprocess is gone, and `_closed` that the channel is closed and the teardown
begun. -/
structure Settled (i : ι) (s : Recorded ι Host HostState) : Prop where
  stopped : Ready i s
  closed : Sets (s.own i) .closed → s.state.channelOpen = false ∧ s.state.stopped = true

theorem stable_settled : contract.Stable i (Settled i) := by
  intro s s' hI hI' hr hs
  refine ⟨stable_ready hI hI' hr hs.stopped, fun hsets => ?_⟩
  obtain ⟨hchannel, hstopped⟩ := hs.closed (hr.2 ▸ hsets)
  exact ⟨hr.1.channelClosed hchannel, hr.1.stopped hstopped⟩

theorem Later.flag {s s' : HostState} (h : s.Later s') {a : Attr} (hs : s.flag a = true) :
    s'.flag a = true := by
  cases a with
  | closed => exact h.closed hs
  | stopped => exact h.stopped hs

theorem stable_flag (a : Attr) :
    contract.Stable i fun s : Recorded ι Host HostState => s.state.flag a = true :=
  Contract.stable_later (P := fun s : HostState => s.flag a = true) fun _ _ h => Later.flag h

theorem channelClosed_of_answer {s t : HostState} {o : HostOp} {a : HostAns o} (ho : o.Stops)
    (ha : HostState.answer s o a t) (hs : s.channelOpen = false) : t.channelOpen = false := by
  by_cases htears : o.TearsDown
  · exact (proceeds_of_answer htears ha).later.channelClosed hs
  · cases o with
    | setAttr x b =>
      cases b with
      | true => exact absurd trivial htears
      | false =>
        obtain rfl : t = s.setFlag false x := ha
        cases x <;> exact hs
    | _ => first | exact ho.elim | exact absurd trivial htears

/-- A teardown by the thread leaves its channel alone. -/
theorem terminate_settled : contract.Triple i (Settled i) LocalConduit.terminate
    (Contract.Returns fun _ s => Settled i s ∧ s.state.flag .stopped = true) := by
  have hR : contract.Stable i fun s : Recorded ι Host HostState =>
      Sets (s.own i) .closed → s.state.channelOpen = false :=
    fun s s' _ _ hr hs hsets => hr.1.channelClosed (hs (hr.2 ▸ hsets))
  have hframe := terminate_triple.frame only_terminate hR fun s o a s' ho _ ha hs hsets => by
    obtain ⟨-, t, ha, rfl⟩ := ha
    rw [s.after_own, sets_append] at hsets
    exact channelClosed_of_answer ho ha (hs (hsets.resolve_right fun hd => by cases hd; exact ho))
  refine hframe.conseq (fun _ _ hs => ⟨hs.stopped, fun hsets => (hs.closed hsets).1⟩)
    fun r s _ hs => ?_
  cases r with
  | ok _ => exact ⟨⟨hs.1.1, fun hsets => ⟨hs.2 hsets, hs.1.2⟩⟩, hs.1.2⟩
  | error e => exact hs.1.elim

/-- `Client.close`, beside other threads. -/
theorem close_settled : contract.Triple i (Settled i) LocalConduit.boundClient.close
    (Contract.Returns fun _ s => Settled i s ∧ s.state.flag .closed = true) := by
  have hclosing : contract.Stable i fun s : Recorded ι Host HostState =>
      Ready i s ∧ s.state.closed = true :=
    stable_ready.and (stable_flag .closed)
  have hget : contract.Triple i (Settled i) (perform (.getAttr .closed))
      (Contract.Returns fun b s =>
        if b = true then Settled i s ∧ s.state.flag .closed = true else Ready i s) := by
    refine op_triple (by trivial) stable_settled (fun b => ?_) fun s b t hI hs _ ha => ?_
    · cases b with
      | true => exact stable_settled.and (stable_flag .closed)
      | false => exact stable_ready
    · obtain ⟨hb, rfl⟩ := ha
      have hready := hs.stopped.after (d := ⟨.getAttr .closed, b⟩) (fun hd => by cases hd)
        (.refl s.state)
      refine ⟨fun hmark => absurd rfl hmark, escalates_quiet hI rfl, ?_⟩
      cases b with
      | true =>
        refine ⟨⟨hready, fun hsets => ?_⟩, hb.symm⟩
        rw [s.after_own, sets_append] at hsets
        exact hs.closed (hsets.resolve_right fun hd => by cases hd)
      | false => exact hready
  have hset : contract.Triple i (Ready i) (perform (.setAttr .closed true))
      (Contract.Returns fun _ s => Ready i s ∧ s.state.closed = true) := by
    refine op_triple (by trivial) stable_ready (fun _ => hclosing) fun s _ t hI hs _ ha => ?_
    have hlater := (proceeds_of_answer (by trivial) ha).later
    obtain rfl : t = _ := ha
    exact ⟨fun hmark => absurd rfl hmark, escalates_quiet hI rfl,
      hs.after (fun hd => by cases hd) hlater, rfl⟩
  have hchannel : contract.Triple i (fun s => Ready i s ∧ s.state.closed = true)
      (perform .closeChannel) (Contract.Returns fun _ s =>
        Ready i s ∧ s.state.closed = true ∧ s.state.channelOpen = false) := by
    refine op_triple (by trivial) hclosing (fun _ => stable_ready.and ?_)
      fun s _ t hI hs _ ha => ?_
    · -- nobody opens the channel again
      exact Contract.stable_later
        (P := fun s : HostState => s.closed = true ∧ s.channelOpen = false)
        fun _ _ h hs => ⟨h.closed hs.1, h.channelClosed hs.2⟩
    · have hlater := (proceeds_of_answer (by trivial) ha).later
      obtain rfl : t = _ := ha
      exact ⟨fun hmark => absurd rfl hmark, escalates_quiet hI rfl,
        hs.1.after (fun hd => by cases hd) hlater, hs.2, rfl⟩
  have hrest := terminate_triple (i := i).and_later
    (R := fun s => s.closed = true ∧ s.channelOpen = false)
      fun _ _ h hs => ⟨h.closed hs.1, h.channelClosed hs.2⟩
  refine hget.bind_returns fun b => ?_
  cases b with
  | true => exact .done (stable_settled.and (stable_flag .closed)) fun _ _ hs => hs
  | false =>
    refine hset.bind_returns fun _ => hchannel.bind_returns fun _ => ?_
    refine hrest.conseq (fun _ _ hs => hs) fun r s _ hs => ?_
    cases r with
    | ok _ => exact ⟨⟨hs.1.1, fun _ => ⟨hs.2.2, hs.1.2⟩⟩, hs.2.1⟩
    | error e => exact hs.1.elim

/-- The flag that a call sees to. -/
def flagOf : Stopping → Attr
  | .atexit => .stopped
  | _ => .closed

theorem call_triple {engine : LocalConduit} (h : engine.client = LocalConduit.boundClient)
    (call : Stopping) : contract.Triple i (Settled i) (call.run engine)
      (Contract.Returns fun _ s => Settled i s ∧ s.state.flag (flagOf call) = true) := by
  have hclose : contract.Triple i (Settled i) engine.client.close
      (Contract.Returns fun _ s => Settled i s ∧ s.state.flag .closed = true) := by
    rw [h]
    exact close_settled
  cases call with
  | atexit =>
    refine terminate_settled.tryCatch
      (fun _ => .done (stable_settled.and (stable_flag .stopped)) fun _ _ hs => hs) fun e => ?_
    intro s _ hs
    exact hs.elim
  | _ => exact hclose

/-- A series of calls by one thread. -/
theorem calls_triple {engine : LocalConduit} (h : engine.client = LocalConduit.boundClient)
    (calls : List Stopping) : contract.Triple i (Settled i)
      (Prog.forEach (fun call => call.run engine) calls)
      (Contract.Returns fun _ s =>
        Settled i s ∧ ∀ call ∈ calls, s.state.flag (flagOf call) = true) := by
  have hcalled (xs : List Stopping) : contract.Stable i fun s : Recorded ι Host HostState =>
      Settled i s ∧ ∀ call ∈ xs, s.state.flag (flagOf call) = true :=
    stable_settled.and (Contract.stable_later
      (P := fun s : HostState => ∀ call ∈ xs, s.flag (flagOf call) = true)
        fun _ _ hlater hs call hcall => Later.flag hlater (hs call hcall))
  have hall := Contract.Triple.forEach (C := contract (ι := ι)) (i := i)
    (f := fun call : Stopping => call.run engine)
    (P := fun xs s => Settled i s ∧ ∀ call ∈ xs, s.state.flag (flagOf call) = true)
    (E := fun _ _ => False) (hcalled calls) (fun _ => Contract.Stable.const False)
    (fun pre call _ _ => ?_) [] calls rfl
  · exact hall.conseq (fun _ _ hs => ⟨hs, fun _ hcall => absurd hcall List.not_mem_nil⟩)
      fun _ _ _ hs => hs
  · -- what earlier calls have seen to stays so
    have hcall := (call_triple (i := i) h call).and_later
      (R := fun s => ∀ call ∈ pre, s.flag (flagOf call) = true)
        fun _ _ hlater hs call hcall => Later.flag hlater (hs call hcall)
    refine hcall.conseq (fun _ _ hs => hs) fun r s _ hs => ?_
    cases r with
    | ok _ =>
      refine ⟨hs.1.1, fun x hx => ?_⟩
      rcases List.mem_append.mp hx with hx | hx
      · exact hs.2 x hx
      · rw [List.mem_singleton.mp hx]
        exact hs.1.2
    | error e => exact hs.1.elim

/-! ### All threads -/

/-- Threads that stop one engine, each by a series of calls. -/
abbrev Threads (ι : Type) := Config Host ι Exn Unit (Recorded ι Host HostState)

/-- The threads before their first operation. -/
def start (engine : LocalConduit) (calls : ι → List Stopping) (s : HostState) : Threads ι :=
  ⟨fun i => some (Prog.forEach (fun call => call.run engine) (calls i)), ⟨s, fun _ => []⟩⟩

variable {rt : Runtime} {stateDir : String} {version binary : Option String} {timeout : ℚ} {n : ℕ}
  {s₀ s₁ : HostState} {engine : LocalConduit}

theorem start_holds (h₀ : s₀.Before)
    (hc : Ends hostWorld (LocalConduit.init rt stateDir version binary timeout n) s₀
      (.ok (some engine)) s₁) (calls : ι → List Stopping) :
    (contract (ι := ι)).Holds (fun i => Contract.Returns fun _ s =>
      Settled i s ∧ ∀ call ∈ calls i, s.state.flag (flagOf call) = true)
        (start engine calls s₁) := by
  obtain ⟨hclient, hnew⟩ := init_new h₀ hc
  have hclaimed : Claimed (start engine calls s₁).state := by
    refine ⟨fun a => ⟨fun hflag => ?_, fun ⟨i, hsets⟩ => absurd hsets List.not_mem_nil⟩,
      fun _ _ => rfl, fun _ => escalates_nil⟩
    cases a with
    | closed => exact absurd (hnew.closed.symm.trans hflag) Bool.false_ne_true
    | stopped => exact absurd (hnew.stopped.symm.trans hflag) Bool.false_ne_true
  refine ⟨hclaimed, fun i p hp => ?_⟩
  obtain rfl := Option.some.inj hp
  exact calls_triple hclient (calls i) _ hclaimed
    ⟨fun hsets => absurd hsets List.not_mem_nil, fun hsets => absurd hsets List.not_mem_nil⟩

/-- **Torn down by any number of threads.** An engine has been constructed, and threads stop it
by any series of calls, in any interleaving. At every moment each thread has signalled the way
`_terminate` does: SIGKILL only after SIGTERM and a whole grace window of its own. No call
raises, and a thread that has set `_stopped` is done only when the subprocess is gone and the log
closed. When all threads are done and there was a call, the subprocess is gone and the log
closed, and the channel is if there was a call other than that of the hook. -/
theorem torn_down (h₀ : s₀.Before)
    (hc : Ends hostWorld (LocalConduit.init rt stateDir version binary timeout n) s₀
      (.ok (some engine)) s₁) (calls : ι → List Stopping) {c : Threads ι}
    (hr : Reach (closingWorld ι) (start engine calls s₁) c) :
    (∀ i, Escalates (marks (c.state.own i))) ∧
    (∀ i r, c.Ended i r →
      r = .ok () ∧ (Sets (c.state.own i) .stopped → c.state.state.AtRest)) ∧
    ((∀ i, ∃ r, c.Ended i r) → (∃ i, calls i ≠ []) →
      c.state.state.AtRest ∧
        ((∃ i, ∃ call ∈ calls i, call ≠ .atexit) → c.state.state.channelOpen = false)) := by
  have h := (start_holds h₀ hc calls).reach hr
  have hended (i : ι) (r : Except Exn Unit) (hi : c.Ended i r) : r = .ok () ∧
      Settled i c.state ∧ ∀ call ∈ calls i, c.state.state.flag (flagOf call) = true := by
    have hpost := h.ended hi
    cases r with
    | ok _ => exact ⟨rfl, hpost⟩
    | error e => exact hpost.elim
  refine ⟨h.inv.escalates, fun i r hi => ?_, fun hall hcalled => ?_⟩
  · obtain ⟨hok, hsettled, -⟩ := hended i r hi
    exact ⟨hok, hsettled.stopped⟩
  -- who has set a flag has ended
  have hset (a : Attr) (ha : c.state.state.flag a = true) :
      ∃ i, Sets (c.state.own i) a ∧ Settled i c.state := by
    obtain ⟨i, hi⟩ := (h.inv.flags a).mp ha
    obtain ⟨r, hr⟩ := hall i
    exact ⟨i, hi, (hended i r hr).2.1⟩
  have hclosed (ha : c.state.state.flag .closed = true) :
      c.state.state.channelOpen = false ∧ c.state.state.flag .stopped = true := by
    obtain ⟨i, hsets, hsettled⟩ := hset .closed ha
    exact hsettled.closed hsets
  have hstopped (ha : c.state.state.flag .stopped = true) : c.state.state.AtRest := by
    obtain ⟨i, hsets, hsettled⟩ := hset .stopped ha
    exact hsettled.stopped hsets
  refine ⟨?_, fun ⟨i, call, hcall, hne⟩ => ?_⟩
  · obtain ⟨i, hi⟩ := hcalled
    obtain ⟨call, hcall⟩ := List.exists_mem_of_ne_nil (calls i) hi
    obtain ⟨r, hr⟩ := hall i
    have hflag := (hended i r hr).2.2 call hcall
    cases hof : flagOf call with
    | closed => exact hstopped (hclosed (hof ▸ hflag)).2
    | stopped => exact hstopped (hof ▸ hflag)
  · obtain ⟨r, hr⟩ := hall i
    have hflag := (hended i r hr).2.2 call hcall
    cases call with
    | atexit => exact absurd rfl hne
    | _ => exact (hclosed hflag).1

/-- One thread closes the engine, and the hook runs in another. -/
def closeAndHook : Bool → List Stopping
  | true => [.close]
  | false => [.atexit]

/-- No wait for an obedient subprocess fails. -/
theorem obedient_heeded (own : List (Deed Host)) (s : HostState) (o : HostOp)
    (h : Spawned (obedient.handle s o).2) : Heeded own o (obedient.handle s o).1 := by
  -- not even in a state in which no wait may
  have horderly := obedient_orderly (s.log (.sent .kill)) s o h
  cases o with
  | wait t =>
    generalize (obedient.handle s (.wait t)).1 = a at horderly
    cases a with
    | ok _ => trivial
    | error e => exact absurd (List.mem_append_right _ (List.mem_singleton.mpr rfl)) horderly.2
  | _ => trivial

theorem torn_down_obedient :
    ∃ (engine : LocalConduit) (c : Threads Bool),
      Reach (closingWorld Bool) (start engine closeAndHook obedient.started) c ∧
        c.Ended true (.ok ()) ∧ c.Ended false (.ok ()) ∧ c.state.state.AtRest ∧
        c.state.state.channelOpen = false := by
  have hok : obedient.outcome.isSome := by decide +kernel
  obtain ⟨engine, hengine⟩ := Option.isSome_iff_exists.mp hok
  have hstart := obedient.quickStart_ends rfl hengine
  have hspawned : Spawned obedient.started := by
    have hrunning : obedient.started.engine = .running := by decide +kernel
    simp [Spawned, hrunning]
  have hT (s : HostState) (own : List (Deed Host)) (o : HostOp) (hs : Spawned s) :
      (∃ s₁, Relation.ReflTransGen Drift s s₁ ∧
        HostState.answer s₁ o (obedient.handle s o).1 (obedient.handle s o).2) ∧
        Heeded own o (obedient.handle s o).1 ∧ Spawned (obedient.handle s o).2 := by
    obtain ⟨⟨s₁, hdrift, ha⟩, hs'⟩ := Scenario.handle_answer rfl obedient_closed s o hs
    exact ⟨⟨s₁, hdrift.lift id fun _ _ h => h.1, ha⟩,
      obedient_heeded own s o hs', hs'⟩
  have hlawful (i : Bool) (s : Recorded Bool Host HostState) (hs : Spawned s.state) :=
    Lawful.shared (W := hostWorld) (A := Heeded) hT i
      (Prog.forEach (fun call => call.run engine) (closeAndHook i)) hs
  -- first the one thread, then the other
  obtain ⟨c₁, hr₁, hended₁, hs₁, hothers₁⟩ := (hlawful true (start engine closeAndHook
    obedient.started).state hspawned).exists_reach
    (t := (start engine closeAndHook obedient.started).thread) rfl
  have hspawned₁ : Spawned c₁.state.state := by
    have hkept : Spawned obedient.started ≤ Spawned ((Prog.forEach
        (fun call => call.run engine) (closeAndHook true)).eval obedient.handle
          obedient.started).2 :=
      Prog.le_eval (fun s o hs => (hT s [] o hs).2.2) _ _
    rw [hs₁, (Recorded.eval_state _ _ _ _).2]
    exact hkept hspawned
  obtain ⟨c, hr₂, hended, -, hothers⟩ := (hlawful false _ hspawned₁).exists_reach
    (t := c₁.thread) (hothers₁ false Bool.false_ne_true)
  have hr := hr₁.trans hr₂
  have hended' : c.Ended true _ := (hothers true Bool.false_ne_true.symm).trans hended₁
  obtain ⟨-, hokay, hall⟩ := torn_down idleHost_before hstart closeAndHook hr
  obtain ⟨hrest, hchannel⟩ := hall
    (fun i => by
      cases i with
      | true => exact ⟨_, hended'⟩
      | false => exact ⟨_, hended⟩)
    ⟨true, List.cons_ne_nil _ _⟩
  have htrue := (hokay true _ hended').1
  have hfalse := (hokay false _ hended).1
  rw [htrue] at hended'
  rw [hfalse] at hended
  exact ⟨engine, c, hr, hended', hended, hrest,
    hchannel ⟨true, .close, List.mem_singleton.mpr rfl, fun hne => by cases hne⟩⟩

end Closing

end Conduit
