import Mathlib.Data.List.Induction
import ConduitClient.Construction

/-!
# The teardown of a local engine

A `LocalConduit` is torn down through five entry points, in any order and any number of
times, while the subprocess may exit at any moment. Two once-flags guard the work:
`Client._closed` the closing of the channel, `LocalConduit._stopped` the signals.

`Disciplined` is the invariant that ties the flags to the history, at every moment;
`Between` is what holds between two calls. A call begun there ends in `Over`: the subprocess
has exited and the log is closed, unless a wait for the subprocess was cut short
(`stopping_triple`). Once the subprocess has exited under the flag, nothing more happens to it
(`settled_passes`). `teardown_once` puts this together for waits that are not cut short.
-/

namespace Conduit

open Effect

/-! ### Histories -/

/-- When an event may follow a history: the channel is closed once, `_terminate` runs once,
SIGTERM goes once and to a process seen alive, SIGKILL goes after SIGTERM and a whole grace
window. -/
def Event.Permitted (past : List Event) : Event → Prop
  | .channelClosed => .channelClosed ∉ past
  | .stopping => .stopping ∉ past
  | .sent .term => .sent .term ∉ past ∧ past.getLast? = some (.seen none)
  | .sent .kill => [.sent .term, .expired gracefulStopTimeout] <:+ past
  | _ => True

/-- Every event was permitted by what had come before. -/
def WellOrdered (history : List Event) : Prop :=
  ∀ past e rest, history = past ++ e :: rest → e.Permitted past

/-- An event from before the teardown of the subprocess. -/
def Event.Quiet (e : Event) : Prop := e = .channelClosed ∨ ∃ exitCode, e = .seen exitCode

theorem WellOrdered.append {history : List Event} {e : Event} (h : WellOrdered history)
    (he : e.Permitted history) : WellOrdered (history ++ [e]) := by
  intro past e' rest heq
  -- the event is the new one, or one of the history
  rcases List.eq_nil_or_concat rest with rfl | ⟨rest, last, rfl⟩
  · obtain ⟨rfl, hlast⟩ := List.append_inj' heq rfl
    obtain rfl : e = e' := by simpa using hlast
    exact he
  · have heq' : history ++ [e] = (past ++ e' :: rest) ++ [last] := by simpa using heq
    exact h past e' rest (List.append_inj' heq' rfl).1

namespace HostState

/-- A wait for the subprocess ended with an exception that nobody catches: `KeyboardInterrupt`,
or `TimeoutExpired` after SIGKILL. -/
def CutShort (s : HostState) : Prop :=
  .interrupted ∈ s.history ∨ ∃ t, [.sent .kill, .expired t].Sublist s.history

/-- The signals that were sent. -/
def signals (s : HostState) : List Event :=
  s.history.filter fun
    | .sent _ => true
    | _ => false

/-- The invariant of a teardown. -/
structure Disciplined (s : HostState) : Prop where
  ordered : WellOrdered s.history
  channel : s.closed = false → .channelClosed ∉ s.history
  body : s.stopped = false → ∀ e ∈ s.history, e.Quiet

/-- The teardown has been done, as far as it was not cut short. -/
def Over (s : HostState) : Prop :=
  s.stopped = true ∧ (s.CutShort ∨ s.Exited ∧ s.logOpen = false)

/-- What holds between two calls. -/
def Between (s : HostState) : Prop := s.closed = false ∧ s.stopped = false ∨ s.Over

theorem CutShort.mono {s s' : HostState} (h : s.CutShort) (hp : s.history <+: s'.history) :
    s'.CutShort :=
  h.imp (fun hi => hp.subset hi) fun ⟨t, ht⟩ => ⟨t, ht.trans hp.sublist⟩

theorem Disciplined.congr {s s' : HostState} (h : s.Disciplined)
    (hh : s'.history = s.history) (hc : s'.closed = s.closed) (hs : s'.stopped = s.stopped) :
    s'.Disciplined := by
  refine ⟨?_, ?_, ?_⟩
  · rw [hh]
    exact h.ordered
  · rw [hh, hc]
    exact h.channel
  · rw [hh, hs]
    exact h.body

/-- An event that is permitted, of the kind that the flags allow. -/
theorem Disciplined.log {s : HostState} (h : s.Disciplined) {e : Event}
    (he : e.Permitted s.history) (hc : e = .channelClosed → s.closed = true)
    (hb : s.stopped = false → e.Quiet) : (s.log e).Disciplined := by
  refine ⟨h.ordered.append he, fun hclosed hmem => ?_, fun hstopped e' hmem => ?_⟩
  · have hclosed' : s.closed = false := hclosed
    rcases mem_log.mp hmem with hold | hnew
    · exact h.channel hclosed' hold
    · have hopen := hc hnew.symm
      rw [hclosed'] at hopen
      cases hopen
  · rcases mem_log.mp hmem with hold | rfl
    · exact h.body hstopped e' hold
    · exact hb hstopped

/-- Before the subprocess is stopped no wait was cut short. -/
theorem Disciplined.not_cutShort {s : HostState} (h : s.Disciplined)
    (hs : s.stopped = false) : ¬ s.CutShort := by
  -- signals and waits are not quiet
  rintro (hi | ⟨t, ht⟩)
  · rcases h.body hs _ hi with he | ⟨_, he⟩ <;> cases he
  · rcases h.body hs _ (ht.subset List.mem_cons_self) with he | ⟨_, he⟩ <;> cases he

theorem Disciplined.not_sent {s : HostState} (h : s.Disciplined) (hs : s.stopped = false)
    (sig : Signal) : .sent sig ∉ s.history := by
  intro hmem
  rcases h.body hs _ hmem with he | ⟨_, he⟩ <;> cases he

theorem Disciplined.drift {s s' : HostState} (h : s.Disciplined) (hd : Drift s s') :
    s'.Disciplined :=
  h.congr hd.history hd.closed hd.stopped

theorem Drift.exited' {s s' : HostState} (hd : Drift s s') (h : s.Exited) : s'.Exited := by
  obtain ⟨code, hcode⟩ := h
  exact ⟨code, hd.exited hcode⟩

end HostState

open HostState

/-- The discipline of a single teardown. -/
def discipline : Contract hostWorld :=
  .solo hostWorld Disciplined fun _ _ h hd => h.drift hd

section Stability

variable {P : HostState → Prop}

/-- What depends on flags, files and history is not affected by anything beside. -/
theorem stable_record (h : ∀ s s', s'.closed = s.closed → s'.stopped = s.stopped →
    s'.logOpen = s.logOpen → s'.history = s.history → P s → P s') :
    discipline.Stable () P :=
  .solo fun s s' _ hd hs => h s s' hd.closed hd.stopped hd.logOpen hd.history hs

theorem stable_exited : discipline.Stable () Exited :=
  .solo fun _ _ _ hd hs => hd.exited' hs

theorem stable_stopped : discipline.Stable () fun s => s.stopped = true :=
  stable_record fun _ _ _ hs _ _ h => hs ▸ h

theorem stable_cutShort : discipline.Stable () CutShort :=
  stable_record fun _ _ _ _ _ hh h => h.mono (hh ▸ List.prefix_rfl)

theorem stable_logClosed : discipline.Stable () fun s => s.logOpen = false :=
  stable_record fun _ _ _ _ hl _ h => hl ▸ h

theorem stable_over : discipline.Stable () Over :=
  stable_stopped.and (stable_cutShort.or (stable_exited.and stable_logClosed))

theorem stable_between : discipline.Stable () Between :=
  (stable_record fun _ _ hc hs _ _ h => ⟨hc ▸ h.1, hs ▸ h.2⟩).or stable_over

end Stability

/-! ### The stages of `_terminate` -/

/-- The body has begun, and has sent nothing. -/
def Begun (s : HostState) : Prop := s.stopped = true ∧ ∀ sig, .sent sig ∉ s.history

/-- It has just seen the subprocess alive. -/
def SeenAlive (s : HostState) : Prop := Begun s ∧ s.history.getLast? = some (.seen none)

/-- It has just sent SIGTERM, if there was still somebody to send it to. -/
def Warned (s : HostState) : Prop :=
  s.stopped = true ∧ .sent .kill ∉ s.history ∧
    (s.engine ≠ .running ∨ s.history.getLast? = some (.sent .term))

/-- The grace window is over. -/
def Overdue (s : HostState) : Prop :=
  s.stopped = true ∧ [.sent .term, .expired gracefulStopTimeout] <:+ s.history

/-- It has sent SIGKILL, if there was still somebody to send it to. -/
def Killed (s : HostState) : Prop :=
  s.stopped = true ∧ (s.engine ≠ .running ∨ .sent .kill ∈ s.history)

/-- The subprocess has exited. -/
def Gone (s : HostState) : Prop := s.stopped = true ∧ s.Exited

/-- A wait was cut short. -/
def Cut (s : HostState) : Prop := s.stopped = true ∧ s.CutShort

theorem stable_notRunning : discipline.Stable () fun s => s.engine ≠ .running :=
  .solo fun s s' _ (hd : Drift s s') hs => by
    rcases hd.engine with he | ⟨hrun, -⟩
    · rw [he]
      exact hs
    · exact absurd hrun hs

theorem stable_history (φ : List Event → Prop) : discipline.Stable () fun s => φ s.history :=
  stable_record fun _ _ _ _ _ hh h => hh ▸ h

theorem stable_begun : discipline.Stable () Begun :=
  stable_stopped.and (stable_history fun h => ∀ sig, .sent sig ∉ h)

theorem stable_seenAlive : discipline.Stable () SeenAlive :=
  stable_begun.and (stable_history fun h => h.getLast? = some (.seen none))

theorem stable_warned : discipline.Stable () Warned :=
  stable_stopped.and ((stable_history fun h => .sent .kill ∉ h).and
    (stable_notRunning.or (stable_history fun h => h.getLast? = some (.sent .term))))

theorem stable_overdue : discipline.Stable () Overdue :=
  stable_stopped.and (stable_history fun h => [.sent .term, .expired gracefulStopTimeout] <:+ h)

theorem stable_killed : discipline.Stable () Killed :=
  stable_stopped.and (stable_notRunning.or (stable_history fun h => .sent .kill ∈ h))

theorem stable_gone : discipline.Stable () Gone := stable_stopped.and stable_exited

theorem stable_cut : discipline.Stable () Cut := stable_stopped.and stable_cutShort

/-- One operation. -/
theorem triple_host {o : HostOp} {P : HostState → Prop} {M : HostAns o → HostState → Prop}
    (hP : discipline.Stable () P) (hM : ∀ a, discipline.Stable () (M a))
    (ho : ∀ s a s', s.Disciplined → P s → HostState.answer s o a s' →
      s'.Disciplined ∧ M a s') :
    discipline.Triple () P (perform o) (Contract.Returns M) :=
  Contract.Triple.perform hP hM fun s a s' hI hs ha =>
    ⟨(ho s a s' hI hs ha).1, trivial, (ho s a s' hI hs ha).2⟩

/-- An event of the body of `_terminate`. -/
theorem HostState.Disciplined.logBody {s : HostState} (h : s.Disciplined)
    (hs : s.stopped = true) {e : Event} (he : e.Permitted s.history) (hne : e ≠ .channelClosed) :
    (s.log e).Disciplined :=
  h.log he (fun hc => absurd hc hne) fun hf => by
    rw [hs] at hf
    cases hf

/-- `process.poll()` -/
theorem poll_triple :
    discipline.Triple () Begun (perform .poll)
      (Contract.Returns fun a => if a.isNone then SeenAlive else Gone) := by
  refine triple_host stable_begun (fun a => ?_) fun s a s' hI hs ha => ?_
  · split
    · exact stable_seenAlive
    · exact stable_gone
  · obtain ⟨rfl, rfl⟩ := ha
    refine ⟨hI.logBody hs.1 trivial (by simp), ?_⟩
    -- the finding is recorded, and is the last event for a moment
    cases hcode : s.engine.exitCode with
    | none =>
      exact ⟨⟨hs.1, fun sig => not_mem_log (hs.2 sig) (by simp)⟩, by simp⟩
    | some code => exact ⟨hs.1, code, exited_of_exitCode hcode⟩

/-- `process.terminate()` -/
theorem term_triple :
    discipline.Triple () SeenAlive (perform (.signal .term))
      (Contract.Returns fun _ => Warned) := by
  refine triple_host stable_seenAlive (fun _ => stable_warned) fun s _ s' hI hs ha => ?_
  obtain ⟨⟨hstopped, hnone⟩, hlast⟩ := hs
  obtain rfl : s' = _ := ha
  split
  · exact ⟨hI.logBody hstopped ⟨hnone .term, hlast⟩ (by simp), hstopped,
      not_mem_log (hnone .kill) (by simp), Or.inr (by simp)⟩
  · -- it exited in between, so that nothing was sent
    next hrun => exact ⟨hI, hstopped, hnone .kill, Or.inl hrun⟩

/-- What the first wait ends in. -/
def Waited₁ : Except Exn Unit → HostState → Prop
  | .ok _ => Gone
  | .error .timeoutExpired => Overdue
  | .error _ => Cut

theorem stable_waited₁ (r : Except Exn Unit) : discipline.Stable () (Waited₁ r) := by
  unfold Waited₁
  split
  · exact stable_gone
  · exact stable_overdue
  · exact stable_cut

/-- `process.wait(timeout=_GRACEFUL_STOP_TIMEOUT)`, after SIGTERM -/
theorem grace_triple :
    discipline.Triple () Warned (perform (.wait gracefulStopTimeout))
      (Contract.Returns Waited₁) := by
  refine triple_host stable_warned stable_waited₁ fun s a s' hI hs ha => ?_
  obtain ⟨hstopped, -, hsent⟩ := hs
  cases a with
  | ok =>
    obtain ⟨hexited, rfl⟩ := ha
    exact ⟨hI.logBody hstopped trivial (by simp), hstopped, hexited⟩
  | error e =>
    rcases ha with ⟨rfl, hrun, rfl⟩ | ⟨rfl, rfl⟩
    · -- it was running all along, so SIGTERM was sent
      refine ⟨hI.logBody hstopped trivial (by simp), hstopped, ?_⟩
      have hlast := hsent.resolve_left (not_not_intro hrun)
      obtain ⟨past, hpast⟩ := List.getLast?_eq_some_iff.mp hlast
      exact ⟨past, by simp [hpast]⟩
    · exact ⟨hI.logBody hstopped trivial (by simp), hstopped, Or.inl (by simp)⟩

/-- `process.kill()` -/
theorem kill_triple :
    discipline.Triple () Overdue (perform (.signal .kill))
      (Contract.Returns fun _ => Killed) := by
  refine triple_host stable_overdue (fun _ => stable_killed) fun s _ s' hI hs ha => ?_
  obtain rfl : s' = _ := ha
  split
  · exact ⟨hI.logBody hs.1 hs.2 (by simp), hs.1, Or.inr (by simp)⟩
  · next hrun => exact ⟨hI, hs.1, Or.inl hrun⟩

/-- `process.wait(timeout=_GRACEFUL_STOP_TIMEOUT)`, after SIGKILL -/
theorem reap_triple :
    discipline.Triple () Killed (perform (.wait gracefulStopTimeout))
      (Contract.Returns (Contract.Post (fun _ => Gone) fun _ => Cut)) := by
  refine triple_host stable_killed (.post (fun _ => stable_gone) fun _ => stable_cut)
    fun s a s' hI hs ha => ?_
  obtain ⟨hstopped, hsent⟩ := hs
  cases a with
  | ok =>
    obtain ⟨hexited, rfl⟩ := ha
    exact ⟨hI.logBody hstopped trivial (by simp), hstopped, hexited⟩
  | error e =>
    rcases ha with ⟨rfl, hrun, rfl⟩ | ⟨rfl, rfl⟩
    · refine ⟨hI.logBody hstopped trivial (by simp), hstopped,
        Or.inr ⟨gracefulStopTimeout, ?_⟩⟩
      -- it was running when the wait was over, so SIGKILL had been sent
      have hmem := hsent.resolve_left (not_not_intro hrun)
      exact (List.singleton_sublist.mpr hmem).append (List.Sublist.refl _)
    · exact ⟨hI.logBody hstopped trivial (by simp), hstopped, Or.inl (by simp)⟩

/-- The subprocess is stopped, unless a wait is cut short. -/
theorem stopProcess_triple :
    discipline.Triple () Begun LocalConduit.stopProcess
      (Contract.Post (fun _ => Gone) fun _ => Cut) := by
  have hend (r : Except Exn Unit) :
      discipline.Stable () (Contract.Post (fun _ => Gone) (fun _ => Cut) r) :=
    .post (fun _ => stable_gone) (fun _ => stable_cut) r
  refine poll_triple.bind_returns fun exitCode => ?_
  split
  · refine term_triple.bind_returns fun _ => ?_
    refine Contract.Triple.tryCatch (.orRaise stable_waited₁ grace_triple) (fun r => ?_) fun e => ?_
    · exact .done stable_gone fun _ _ hs => hs
    · cases e with
      | timeoutExpired =>
        -- the grace window is over
        refine kill_triple.bind_returns fun _ => ?_
        exact .orRaise hend reap_triple
      -- nobody catches anything else
      | _ => exact .done stable_cut fun _ _ hs => hs
  · exact .done stable_gone fun _ _ hs => hs

/-- The end of the log file. -/
theorem closeLogFile_triple :
    discipline.Triple () Gone LocalConduit.closeLogFile
      (Contract.Returns fun _ s => Gone s ∧ s.logOpen = false) := by
  have hstable : discipline.Stable () fun s => Gone s ∧ s.logOpen = false :=
    stable_gone.and stable_logClosed
  -- only an `OSError` can come out of it, which is suppressed
  have hperform : discipline.Triple () Gone (performOrRaise (perform .closeLog))
      (Contract.Post (fun _ s => Gone s ∧ s.logOpen = false)
        fun e s => (∃ msg, e = .os msg) ∧ Gone s ∧ s.logOpen = false) := by
    have hpost (r : Except Exn Unit) : discipline.Stable ()
        (Contract.Post (fun _ s => Gone s ∧ s.logOpen = false)
          (fun e s => (∃ msg, e = .os msg) ∧ Gone s ∧ s.logOpen = false) r) :=
      .post (fun _ => hstable) (fun _ => (Contract.Stable.const _).and hstable) r
    refine .orRaise hpost (triple_host stable_gone hpost fun s a s' hI hs ha => ?_)
    obtain ⟨hos, rfl⟩ : (∀ e, a = .error e → ∃ msg, e = .os msg) ∧ s' = _ := ha
    refine ⟨hI.congr rfl rfl rfl, ?_⟩
    cases a with
    | ok => exact ⟨hs, rfl⟩
    | error e => exact ⟨hos e rfl, hs, rfl⟩
  refine hperform.tryCatch (fun _ => .done hstable fun _ _ hs => hs) fun e => ?_
  refine .lift fun he => ?_
  obtain ⟨msg, rfl⟩ := he
  exact .done hstable fun _ _ hs => hs

/-! ### The entry points -/

/-- What every entry point ends in. -/
def EndsOver : Except Exn Unit → HostState → Prop :=
  Contract.Post (fun _ => Over) fun _ s => Over s ∧ s.CutShort

/-- Before `_terminate`: its flag is not set, or it has done its work. -/
def Due (s : HostState) : Prop := s.stopped = false ∨ s.Over

theorem stable_due : discipline.Stable () Due :=
  (stable_record fun _ _ _ hs _ _ h => hs ▸ h).or stable_over

theorem HostState.Between.due {s : HostState} (h : s.Between) : Due s := h.imp And.right id

theorem terminate_triple : discipline.Triple () Due LocalConduit.terminate EndsOver := by
  have hrunning : discipline.Stable () fun s => s.stopped = false :=
    stable_record fun _ _ _ hs _ _ h => hs ▸ h
  -- whoever finds the flag set relies on the work of another call
  have hget : discipline.Triple () Due (perform (.getAttr .stopped))
      (Contract.Returns fun b s => if b = true then s.Over else s.stopped = false) := by
    refine triple_host stable_due (fun b => ?_) fun s b s' hI hs ha => ?_
    · cases b
      · exact hrunning
      · exact stable_over
    · obtain ⟨rfl, rfl⟩ := ha
      refine ⟨hI, ?_⟩
      rcases hs with hf | hover
      · simp [flag, hf]
      · simp [flag, hover.1, hover]
  have hset : discipline.Triple () (fun s => s.stopped = false)
      (perform (.setAttr .stopped true))
      (Contract.Returns fun _ => Begun) := by
    refine triple_host hrunning (fun _ => stable_begun) fun s _ s' hI hs ha => ?_
    obtain rfl : s' = _ := ha
    -- nothing but the setting of the flag adds this event
    have hstopping : .stopping ∉ s.history := by
      intro hmem
      rcases hI.body hs _ hmem with he | ⟨_, he⟩ <;> cases he
    refine ⟨⟨hI.ordered.append hstopping, fun hc => ?_, fun hf => by cases hf⟩, rfl, fun sig => ?_⟩
    · exact not_mem_log (e := .stopping) (hI.channel hc) (by simp)
    · exact not_mem_log (e := .stopping) (hI.not_sent hs sig) (by simp)
  refine hget.bind_returns fun b => ?_
  cases b with
  | true => exact .done stable_over fun _ _ hs => hs
  | false =>
    refine hset.bind_returns fun _ => ?_
    refine stopProcess_triple.bind (fun _ => ?_) fun e => ?_
    · exact closeLogFile_triple.weaken (fun _ _ hs => ⟨hs.1.1, Or.inr ⟨hs.1.2, hs.2⟩⟩)
        fun _ _ hs => hs.elim
    · -- the log stays open, and the exception is that of a wait
      exact .done stable_cut fun _ _ hs => ⟨⟨hs.1, Or.inl hs.2⟩, hs.2⟩

theorem atexitKill_triple : discipline.Triple () Due LocalConduit.atexitKill EndsOver := by
  refine terminate_triple.tryCatch (fun _ => .done stable_over fun _ _ hs => hs) fun e => ?_
  -- the hook suppresses most exceptions
  have hstable := stable_over.and stable_cutShort
  split
  · exact .done hstable fun _ _ hs => hs.1
  · exact .done hstable fun _ _ hs => hs

/-- `Client.close`, when the channel is closed and the subprocess is torn down. -/
theorem close_triple :
    discipline.Triple () Between LocalConduit.boundClient.close EndsOver := by
  have hopen : discipline.Stable () fun s => s.closed = false ∧ Due s :=
    (stable_record fun _ _ hc _ _ _ h => hc ▸ h).and stable_due
  have hfirst : discipline.Stable ()
      fun s => .channelClosed ∉ s.history ∧ Due s ∧ s.closed = true :=
    (stable_history fun h => .channelClosed ∉ h).and (stable_due.and
      (stable_record fun _ _ hc _ _ _ h => hc ▸ h))
  -- the flag of the client, which is set before anything is done
  have hget : discipline.Triple () Between (perform (.getAttr .closed))
      (Contract.Returns fun b s => if b = true then s.Over else s.closed = false ∧ Due s) := by
    refine triple_host stable_between (fun b => ?_) fun s b s' hI hs ha => ?_
    · cases b
      · exact hopen
      · exact stable_over
    · obtain ⟨rfl, rfl⟩ := ha
      refine ⟨hI, ?_⟩
      change if s'.closed = true then s'.Over else s'.closed = false ∧ Due s'
      split
      · next hc =>
        refine hs.resolve_left fun hno => ?_
        rw [hno.1] at hc
        cases hc
      · next hc => exact ⟨Bool.eq_false_iff.mpr hc, hs.due⟩
  have hset : discipline.Triple () (fun s => s.closed = false ∧ Due s)
      (perform (.setAttr .closed true))
      (Contract.Returns fun _ s => .channelClosed ∉ s.history ∧ Due s ∧ s.closed = true) := by
    refine triple_host hopen (fun _ => hfirst) fun s _ s' hI hs ha => ?_
    obtain rfl : s' = _ := ha
    refine ⟨⟨hI.ordered, fun hf => ?_, hI.body⟩, hI.channel hs.1, hs.2, rfl⟩
    cases hf
  -- the channel is closed before the subprocess is stopped
  have hchannel : discipline.Triple ()
      (fun s => .channelClosed ∉ s.history ∧ Due s ∧ s.closed = true)
      (perform .closeChannel) (Contract.Returns fun _ => Due) := by
    refine triple_host hfirst (fun _ => stable_due) fun s _ s' hI hs ha => ?_
    obtain rfl : s' = _ := ha
    obtain ⟨hnone, hdue, hclosed⟩ := hs
    refine ⟨?_, hdue.imp id fun hover => ⟨hover.1, hover.2.imp (fun hcut => ?_) id⟩⟩
    · exact (hI.log (e := .channelClosed) hnone (fun _ => hclosed) fun _ => Or.inl rfl).congr
        rfl rfl rfl
    · exact hcut.mono (List.prefix_append _ _)
  refine hget.bind_returns fun b => ?_
  cases b with
  | true => exact .done stable_over fun _ _ hs => hs
  | false =>
    refine hset.bind_returns fun _ => ?_
    refine hchannel.bind_returns fun _ => ?_
    exact terminate_triple

/-- **One call.** From what holds between two calls every entry point gets to what holds
after the teardown. -/
theorem stopping_triple {engine : LocalConduit} (h : engine.client = LocalConduit.boundClient)
    (call : Stopping) :
    discipline.Triple () Between (call.run engine) EndsOver := by
  have hclose : discipline.Triple () Between engine.close EndsOver := by
    rw [LocalConduit.close, h]
    exact close_triple
  cases call with
  | close => exact hclose
  | exit => exact hclose
  | clientClose => exact hclose
  | clientExit => exact hclose
  | atexit => exact atexitKill_triple.pre fun _ hs => hs.due

/-! ### After the construction -/

/-- A `LocalConduit` that nobody has begun to tear down. -/
structure HostState.New (s : HostState) : Prop where
  closed : s.closed = false
  stopped : s.stopped = false
  history : ∀ e ∈ s.history, ∃ exitCode, e = .seen exitCode

theorem HostState.Before.new {s : HostState} (h : s.Before) : s.New where
  closed := h.closed
  stopped := h.stopped
  history := by simp [h.history]

theorem HostState.New.disciplined {s : HostState} (h : s.New) : s.Disciplined where
  ordered past e rest he := by
    obtain ⟨exitCode, rfl⟩ := h.history e (by simp [he])
    trivial
  channel _ hmem := by
    obtain ⟨exitCode, he⟩ := h.history _ hmem
    cases he
  body _ e he := Or.inr (h.history e he)

theorem HostState.New.between {s : HostState} (h : s.New) : s.Between :=
  Or.inl ⟨h.closed, h.stopped⟩

/-- No terms at all. -/
def anything : Contract hostWorld := .solo hostWorld (fun _ => True) fun _ _ _ _ => trivial

/-- An operation that stops nothing leaves a `LocalConduit` new. -/
theorem HostState.New.answer {s s' : HostState} (h : s.New) {o : HostOp} {a : HostAns o}
    (ho : o.Harmless) (ha : HostState.answer s o a s') : s'.New := by
  -- flags are only cleared, and the channel is only opened
  cases ha.change with
  | @sets attr b he =>
    subst he
    cases b with
    | true => exact ho.elim
    | false =>
      cases attr with
      | closed => exact ⟨rfl, h.stopped, h.history⟩
      | stopped => exact ⟨h.closed, rfl, h.history⟩
  | closes he =>
    subst he
    exact ho.elim
  | @logs e hlog =>
    refine ⟨h.closed, h.stopped, fun e' hmem => ?_⟩
    rcases mem_log.mp hmem with hold | rfl
    · exact h.history e' hold
    · -- of the events that operations report, a harmless one reports findings only
      cases e' with
      | seen exitCode => exact ⟨exitCode, rfl⟩
      | sent sig =>
        obtain ⟨rfl, -⟩ := hlog
        exact ho.elim
      | waited | interrupted =>
        obtain ⟨t, rfl⟩ := hlog
        exact ho.elim
      | expired t =>
        obtain rfl : o = .wait t := hlog
        exact ho.elim
      | channelClosed | stopping => exact hlog.elim
  | _ => exact ⟨h.closed, h.stopped, h.history⟩

theorem stable_new : anything.Stable () HostState.New :=
  .solo fun s s' _ (hd : Drift s s') h =>
    ⟨hd.closed ▸ h.closed, hd.stopped ▸ h.stopped, hd.history ▸ h.history⟩

/-- A `LocalConduit` is new all along its constructor. -/
theorem anything_startup (addr : String) :
    Startup anything addr HostState.New HostState.New HostState.New where
  any _ _ _ _ _ _ := ⟨trivial, trivial⟩
  stableA := stable_new
  stableB := stable_new
  stableR := stable_new
  keepsA _ _ _ _ _ ho h ha := h.answer ho ha
  opens _ a _ _ h ha := h.answer (o := .openChannel addr) (a := a) trivial ha
  keepsB _ _ _ _ _ ho _ h ha := h.answer ho ha
  ready _ resp _ _ h ha := h.answer (o := .recv .getInfo) (a := .ok resp) trivial ha

section Constructed

variable {rt : Runtime} {stateDir : String} {version binary : Option String} {timeout : ℚ}
  {n : Nat} {s₀ s₁ : HostState} {engine : LocalConduit}

/-- What the constructor returns. -/
theorem init_new (h₀ : s₀.Before)
    (hc : Ends hostWorld (LocalConduit.init rt stateDir version binary timeout n) s₀
      (.ok (some engine)) s₁) :
    engine.client = LocalConduit.boundClient ∧ s₁.New :=
  ((Startup.init anything_startup).ends trivial h₀.new hc).2 engine rfl

/-! ### Whole sequences -/

variable {calls : List Stopping} {s s₂ : HostState}

/-- What holds after any sequence of calls, however they went. -/
theorem between_of_series (hclient : engine.client = LocalConduit.boundClient)
    (h : s₁.Disciplined) (hb : s₁.Between)
    (hr : Series hostWorld s₁ (calls.map (Stopping.run engine)) s₂) :
    s₂.Disciplined ∧ s₂.Between := by
  -- every call starts where the one before has ended
  refine Contract.Triple.series (C := discipline) (P := Between) (fun p hp => ?_) h hb hr
  obtain ⟨call, -, rfl⟩ := List.mem_map.mp hp
  refine (stopping_triple hclient call).conseq (fun _ _ hs => hs) fun r s' _ hq => ?_
  cases r with
  | ok => exact Or.inr hq
  | error e => exact Or.inr hq.1

/-- At every moment of a further call. -/
theorem disciplined_of_passes (hclient : engine.client = LocalConduit.boundClient)
    (h : s₁.Disciplined) (hb : s₁.Between)
    (hr : Series hostWorld s₁ (calls.map (Stopping.run engine)) s₂) {next : Stopping}
    (hp : Passes hostWorld (next.run engine) s₂ s) : s.Disciplined := by
  obtain ⟨h₂, hb₂⟩ := between_of_series hclient h hb hr
  exact (stopping_triple hclient next).passes h₂ hb₂ hp

end Constructed

/-! ### An exit is for good -/

/-- The subprocess has exited, and these are the signals it was sent. -/
def settled (code : Int) (sigs : List Event) : Contract hostWorld :=
  .solo hostWorld (fun s => s.engine = .exited code ∧ s.signals = sigs)
    fun s s' h (hd : Drift s s') => ⟨hd.exited h.1, by rw [signals, hd.history]; exact h.2⟩

/-- No operation changes that. -/
theorem settled_answer {code : Int} {sigs : List Event} {s s' : HostState} {o : HostOp}
    {a : HostAns o} (h : s.engine = .exited code ∧ s.signals = sigs)
    (ha : HostState.answer s o a s') : s'.engine = .exited code ∧ s'.signals = sigs := by
  obtain ⟨he, rfl⟩ := h
  cases ha.change with
  | @sets attr b => cases attr <;> cases b <;> exact ⟨he, by simp [signals, setFlag]⟩
  | spawns hno =>
    rw [he] at hno
    cases hno
  | @logs e hlog =>
    refine ⟨he, ?_⟩
    cases e with
    | sent sig =>
      -- nothing is sent to a process that has exited
      rw [hlog.2] at he
      cases he
    | _ => simp [signals]
  | _ => exact ⟨he, by simp [signals, HostState.bind]⟩

/-- Whatever runs from there. -/
theorem settled_triple {code : Int} {sigs : List Event} {α : Type} (p : HostM α) :
    (settled code sigs).Triple () (fun _ => True) p fun _ _ => True :=
  .any (fun _ _ _ _ h ha => ⟨settled_answer h ha, trivial⟩) p

theorem settled_passes {ps : List (HostM Unit)} {p : HostM Unit} {s s₂ s₃ : HostState}
    (he : s.Exited) (hr : Series hostWorld s ps s₂) (hp : Passes hostWorld p s₂ s₃) :
    s₃.signals = s.signals ∧ s₃.engine = s.engine := by
  obtain ⟨code, hcode⟩ := he
  -- the signals and the exit code are an invariant of everything that follows
  obtain ⟨h₂, -⟩ := Contract.Triple.series (C := settled code s.signals) (P := fun _ => True)
    (fun p _ => settled_triple p) ⟨hcode, rfl⟩ trivial hr
  obtain ⟨hengine, hsignals⟩ := (settled_triple p).passes h₂ trivial hp
  exact ⟨hsignals, hengine.trans hcode.symm⟩

/-! ### Waits that are not cut short -/

/-- SIGKILL ends the subprocess within its wait, and the wait is not interrupted. -/
def Obeyed (s : HostState) : (o : HostOp) → HostAns o → Prop
  | .wait _, .error e => e = .timeoutExpired ∧ .sent .kill ∉ s.history
  | _, _ => True

/-- SIGKILL ends the subprocess within its wait, and no other exception is injected. -/
def Orderly (s : HostState) : (o : HostOp) → HostAns o → Prop
  | .wait _, .error e => e = .timeoutExpired ∧ .sent .kill ∉ s.history
  | .closeLog, .error _ => False
  | _, _ => True

/-- The world, as long as it is orderly. -/
def orderlyWorld : World Host Unit HostState :=
  hostWorld.under (fun s o a _ => Orderly s o a) fun _ _ => True

theorem not_cutShort_append {s : HostState} {e : Event} (h : ¬ s.CutShort)
    (hi : e ≠ .interrupted) (hx : ∀ t, e = .expired t → .sent .kill ∉ s.history) :
    ¬ (s.log e).CutShort := by
  rintro (hmem | ⟨t, ht⟩)
  · exact not_mem_log (fun hold => h (Or.inl hold)) hi.symm hmem
  · -- a pair that was not there before ends with the new event
    rw [log_history, List.sublist_append_iff] at ht
    obtain ⟨l₁, l₂, hl, h₁, h₂⟩ := ht
    rcases List.sublist_singleton.mp h₂ with rfl | rfl
    · rw [List.append_nil] at hl
      exact h (Or.inr ⟨t, hl ▸ h₁⟩)
    · have hl' : [Event.sent .kill] ++ [.expired t] = l₁ ++ [e] := hl
      obtain ⟨hkill, hexp⟩ := List.append_inj' hl' rfl
      subst hkill
      exact hx t (List.singleton_inj.mp hexp).symm (h₁.subset List.mem_cons_self)

theorem Orderly.obeyed {s : HostState} {o : HostOp} {a : HostAns o} (h : Orderly s o a) :
    Obeyed s o a := by
  cases o with
  | wait t =>
    cases a with
    | ok => trivial
    | error e => exact h
  | _ => trivial

/-- A wait that is obeyed is not cut short. -/
theorem obeyed_answer {s s' : HostState} {o : HostOp} {a : HostAns o} (h : ¬ s.CutShort)
    (ha : HostState.answer s o a s') (hobey : Obeyed s o a) : ¬ s'.CutShort := by
  -- only a wait can be cut short
  by_cases hwait : ∃ t, o = .wait t
  · obtain ⟨t, rfl⟩ := hwait
    cases a with
    | ok =>
      obtain ⟨-, rfl⟩ := ha
      exact not_cutShort_append h (by simp) (by simp)
    | error e =>
      obtain ⟨rfl, hkill⟩ := hobey
      rcases ha with ⟨-, -, rfl⟩ | ⟨he, -⟩
      · exact not_cutShort_append h (by simp) fun _ _ => hkill
      · cases he
  · cases ha.change with
    | @sets attr b =>
      cases attr with
      | closed => exact h
      | stopped =>
        cases b with
        | false => exact h
        | true => exact not_cutShort_append (e := .stopping) h (by simp) (by simp)
    | closes => exact not_cutShort_append (e := .channelClosed) h (by simp) (by simp)
    | @logs e hlog =>
      -- the events that count come from waits
      refine not_cutShort_append h ?_ ?_
      · rintro rfl
        exact hwait hlog
      · rintro t rfl
        exact absurd ⟨t, hlog⟩ hwait
    | _ => exact h

/-- No wait is cut short in an orderly world. -/
def orderliness : Contract orderlyWorld :=
  .solo orderlyWorld (fun s => ¬ s.CutShort) fun s s' h (hd : Drift s s' ∧ True) => by
    rw [CutShort, hd.1.history]
    exact h

theorem orderly_triple {α : Type} (p : HostM α) :
    orderliness.Triple () (fun _ => True) p fun _ _ => True :=
  .any (fun s o a s' h (ha : HostState.answer s o a s' ∧ Orderly s o a) =>
    ⟨obeyed_answer h ha.1 ha.2.obeyed, trivial⟩) p

/-! ### Teardown -/

theorem count_le_one {α : Type} [DecidableEq α] {a : α} {l : List α}
    (h : ∀ past rest, l = past ++ a :: rest → a ∉ past) : l.count a ≤ 1 := by
  -- induction from the end: the last one is the only one
  induction l using List.reverseRecOn with
  | nil => simp
  | append_singleton l b ih =>
    have hl : l.count a ≤ 1 := ih fun past rest he => h past (rest ++ [b]) (by simp [he])
    rw [List.count_append, List.count_singleton]
    split
    · next hb =>
      obtain rfl : b = a := by simpa using hb
      rw [List.count_eq_zero_of_not_mem (h l [] rfl)]
    · exact hl

/-- What a teardown that is done once looks like. -/
structure TornDownOnce (history : List Event) : Prop where
  channel : history.count .channelClosed ≤ 1
  /-- The body of `_terminate`. -/
  body : history.count .stopping ≤ 1
  term : history.count (.sent .term) ≤ 1
  /-- SIGTERM goes to a process just seen alive. -/
  alive : ∀ past rest, history = past ++ .sent .term :: rest → past.getLast? = some (.seen none)
  /-- SIGKILL goes after SIGTERM and a whole grace window. -/
  grace : ∀ past rest, history = past ++ .sent .kill :: rest →
    [.sent .term, .expired gracefulStopTimeout] <:+ past

theorem WellOrdered.tornDownOnce {history : List Event} (h : WellOrdered history) :
    TornDownOnce history where
  channel := count_le_one fun past rest he => h past _ rest he
  body := count_le_one fun past rest he => h past _ rest he
  term := count_le_one fun past rest he => (h past _ rest he).1
  alive past rest he := (h past _ rest he).2
  grace past rest he := h past _ rest he

section Constructed

variable {rt : Runtime} {stateDir : String} {version binary : Option String} {timeout : ℚ}
  {n : Nat} {s₀ s₁ : HostState} {engine : LocalConduit}

/-- **Teardown.** After the construction of a `LocalConduit`, in every orderly execution of any
sequence of calls: the teardown is done once at every moment; and when the first call has
returned, it has returned normally, the subprocess has exited and the log is closed, and the
calls that follow send no signal and change nothing about the subprocess. -/
theorem teardown_once (h₀ : s₀.Before)
    (hc : Ends hostWorld (LocalConduit.init rt stateDir version binary timeout n) s₀
      (.ok (some engine)) s₁) :
    (∀ (calls : List Stopping) (next : Stopping) s₂ s,
      Series orderlyWorld s₁ (calls.map (Stopping.run engine)) s₂ →
        Passes orderlyWorld (next.run engine) s₂ s → TornDownOnce s.history) ∧
    ∀ first r s₂, Ends orderlyWorld (Stopping.run engine first) s₁ r s₂ →
      r = .ok () ∧ s₂.Exited ∧ s₂.logOpen = false ∧
        ∀ (calls : List Stopping) (next : Stopping) s₃ s,
          Series orderlyWorld s₂ (calls.map (Stopping.run engine)) s₃ →
            Passes orderlyWorld (next.run engine) s₃ s →
              s.signals = s₂.signals ∧ s.engine = s₂.engine := by
  obtain ⟨hclient, hnew⟩ := init_new h₀ hc
  constructor
  · intro calls next s₂ s hseries hpasses
    exact (disciplined_of_passes hclient hnew.disciplined hnew.between hseries.of_under
      hpasses.of_under).ordered.tornDownOnce
  · intro first r s₂ hends
    -- an orderly world cuts no wait short, so that the call has done its work
    have huncut : ¬ s₂.CutShort :=
      ((orderly_triple _).ends (hnew.disciplined.not_cutShort hnew.stopped) trivial hends).1
    have hover := ((stopping_triple hclient first).ends hnew.disciplined hnew.between
      hends.of_under).2
    cases r with
    | error e => exact absurd hover.2 huncut
    | ok =>
      obtain ⟨hexited, hlog⟩ := hover.2.resolve_left huncut
      refine ⟨rfl, hexited, hlog, fun calls next s₃ s hseries hpasses => ?_⟩
      exact settled_passes hexited hseries.of_under hpasses.of_under

end Constructed

/-! ### A close -/

/-- The subprocess has been spawned. -/
def Spawned (s : HostState) : Prop := s.engine ≠ .notSpawned

/-- The subprocess exits when it is waited for. -/
def obedient : Scenario := ⟨.engine, true⟩

theorem obedient_closed : obedient.Closed Spawned where
  same s s' _ he hs := by
    unfold Spawned
    rcases he with he | he
    · rw [he]
      exact hs
    · simp [he]
  bind _ _ _ _ hs := hs
  exit s code _ := by simp [Spawned, HostState.exit]

/-- Where the subprocess has been spawned, an obedient one is orderly. -/
theorem obedient_orderly (s₁ s : HostState) (o : HostOp) (h : Spawned (obedient.handle s o).2) :
    Orderly s₁ o (obedient.handle s o).1 := by
  cases o with
  | wait t =>
    -- a wait is answered by the exit of a process that runs, and cut short only for one that was
    -- never spawned
    revert h
    simp only [Scenario.handle]
    split
    · exact fun _ => trivial
    · split
      · exact fun _ => trivial
      · next hrun hcode =>
        intro hspawned
        cases he : s.engine with
        | notSpawned => exact absurd he hspawned
        | running => exact absurd ⟨he, rfl⟩ hrun
        | exited code => exact absurd (by simp [he, Engine.exitCode]) hcode
  | closeLog => trivial
  | _ => trivial

/-- The subprocess of a quick start is closed. -/
theorem teardown_once_close :
    ∃ engine s₁ s₂, Ends hostWorld quickStart idleHost (.ok (some engine)) s₁ ∧
      Ends orderlyWorld (Stopping.run engine .close) s₁ (.ok ()) s₂ ∧
      s₂.Exited ∧ s₂.logOpen = false ∧ s₂.signals = [.sent .term] := by
  have hok : obedient.outcome.isSome := by decide +kernel
  obtain ⟨engine, hengine⟩ := Option.isSome_iff_exists.mp hok
  have hstart := obedient.quickStart_ends rfl hengine
  have hclient := (init_new idleHost_before hstart).1
  -- the constructor has returned with a subprocess that runs
  have hspawned : Spawned obedient.started := by
    have hrunning : obedient.started.engine = .running := by decide +kernel
    simp [Spawned, hrunning]
  have hclose := obedient.ends rfl obedient_closed (A := fun s o a _ => Orderly s o a)
    (D := fun _ _ => True) obedient_orderly (fun _ _ _ => trivial)
    (Stopping.run engine .close) (s := obedient.started) hspawned
  have hrun : Stopping.run engine .close = LocalConduit.boundClient.close := by
    rw [Stopping.run, LocalConduit.close, hclient]
  obtain ⟨-, hfirst⟩ := teardown_once idleHost_before hstart
  obtain ⟨hr, hexited, hlog, -⟩ := hfirst _ _ _ hclose
  refine ⟨engine, _, _, hstart, hr ▸ hclose, hexited, hlog, ?_⟩
  rw [hrun]
  decide +kernel

end Conduit
