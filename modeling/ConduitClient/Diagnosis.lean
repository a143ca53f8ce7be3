import ConduitClient.Teardown

/-!
# Why the wait was given up

`_wait_ready` is to tell a subprocess that died from one that is not ready yet. It looks at the
subprocess at the beginning of every iteration, and not once more before it gives up. So the
error it raises is right exactly when an exit of the subprocess, if there was one, came before
the last look at it (`diagnosis_iff`); an exit after that, or before a wait without an
iteration, is reported as an engine that was not reached (`exit_unnoticed`).
-/

namespace Conduit

open Effect HostState

/-! ### Exceptions of other code -/

/-- The exception in an answer. -/
def HostOp.exception : (o : HostOp) → HostAns o → Option Exn
  | .send .., .error e => some e
  | .recv _, .error e => some e
  | .sleep _, .error e => some e
  | .ensureBinary _, .error e => some e
  | .bindFreePort, .error e => some e
  | .openLog, .error e => some e
  | .closeLog, .error e => some e
  | .openLogForReading, .error e => some e
  | .logSize, .error e => some e
  | .readLogFrom _, .error e => some e
  | .spawn _, .error e => some e
  | .wait _, .error e => some e
  | _, _ => none

/-- A `ConduitError` comes from the library: among the operations, only from
`ensure_binary`. -/
def Genuine (o : HostOp) (a : HostAns o) : Prop :=
  ∀ e, o.exception a = some e → (∃ version, o = .ensureBinary version) ∨ e.Foreign

/-- The world, where every `ConduitError` comes from the library. -/
def genuineWorld : World Host Unit HostState :=
  hostWorld.under (fun _ o a _ => Genuine o a) fun _ _ => True

/-- No terms but that. -/
def genuine : Contract genuineWorld := .solo genuineWorld (fun _ => True) fun _ _ _ _ => trivial

theorem genuine_perform {o : HostOp} {P : HostState → Prop} {M : HostAns o → HostState → Prop}
    (hP : genuine.Stable () P) (hM : ∀ a, genuine.Stable () (M a))
    (ho : ∀ s a s', P s → HostState.answer s o a s' → Genuine o a → M a s') :
    genuine.Triple () P (perform o) (Contract.Returns M) :=
  .perform hP hM fun s a s' _ hs (ha : HostState.answer s o a s' ∧ Genuine o a) =>
    ⟨trivial, trivial, ho s a s' hs ha.1 ha.2⟩

/-- The teardown raises no `ConduitError`. -/
theorem terminate_foreign :
    genuine.Triple () (fun _ => True) LocalConduit.terminate
      (Contract.Post (fun _ _ => True) fun e _ => e.Foreign) := by
  have hE (e : Exn) : genuine.Stable () fun _ => e.Foreign := .const _
  have hpost (r : Except Exn Unit) :
      genuine.Stable () (Contract.Post (fun _ _ => True) (fun e _ => e.Foreign) r) :=
    .post (fun _ => .const True) hE r
  have hok (o : HostOp) : genuine.Triple () (fun _ => True) (perform o)
      (Contract.Returns fun _ _ => True) :=
    genuine_perform (.const True) (fun _ => .const True) fun _ _ _ _ _ _ => trivial
  -- the two operations that may raise: a wait, and the closing of the log
  have hwait (t : ℚ) : genuine.Triple () (fun _ => True) (performOrRaise (perform (.wait t)))
      (Contract.Post (fun _ _ => True) fun e _ => e.Foreign) := by
    refine .orRaise hpost (genuine_perform (.const True) hpost fun _ a _ _ _ ha => ?_)
    cases a with
    | ok => trivial
    | error e => exact (ha e rfl).resolve_left (by simp)
  have hclose : genuine.Triple () (fun _ => True) (performOrRaise (perform .closeLog))
      (Contract.Post (fun _ _ => True) fun e _ => e.Foreign) := by
    refine .orRaise hpost (genuine_perform (.const True) hpost fun _ a _ _ _ ha => ?_)
    cases a with
    | ok => trivial
    | error e => exact (ha e rfl).resolve_left (by simp)
  have hdone : genuine.Triple () (fun _ => True) (.done (.ok ()) : HostM Unit)
      (Contract.Post (fun _ _ => True) fun e _ => e.Foreign) :=
    .done (.const True) fun _ _ _ => trivial
  refine (hok (.getAttr .stopped)).bind_returns fun b => ?_
  split
  · exact hdone
  refine (hok (.setAttr .stopped true)).bind_returns fun _ => ?_
  refine Contract.Triple.bind_post hE (M := fun _ _ => True) ?_ fun _ => ?_
  · refine (hok .poll).bind_returns fun exitCode => ?_
    split
    · refine (hok (.signal .term)).bind_returns fun _ => ?_
      refine (hwait _).tryCatch (fun _ => hdone) fun e => ?_
      -- `TimeoutExpired` is followed by SIGKILL, every other exception leaves the teardown
      cases e with
      | timeoutExpired =>
        exact ((hok (.signal .kill)).bind_returns fun _ => hwait _).pre fun _ _ => trivial
      | _ => exact .done (hE _) fun _ _ hs => hs
    · exact hdone
  · -- an `OSError` of the log is swallowed
    refine hclose.tryCatch (fun _ => hdone) fun e => ?_
    cases e with
    | os msg => exact hdone.pre fun _ _ => trivial
    | _ => exact .done (hE _) fun _ _ hs => hs

/-! ### The looks at the subprocess -/

/-- No look has found the subprocess exited. -/
def Unseen (s : HostState) : Prop := ∀ code, .seen (some code) ∉ s.history

/-- The subprocess was spawned, and no look has found it exited. -/
def Watched (s : HostState) : Prop := Spawned s ∧ Unseen s

/-- A look has found the subprocess exited. -/
def Noticed (s : HostState) : Prop := s.Exited ∧ ∃ code, .seen (some code) ∈ s.history

theorem stable_unseen : genuine.Stable () Unseen :=
  .solo fun _ _ _ (hd : Drift _ _ ∧ True) hs => by
    unfold Unseen
    rw [hd.1.history]
    exact hs

theorem stable_watched : genuine.Stable () Watched := by
  refine Contract.Stable.and ?_ stable_unseen
  refine .solo fun s s' _ (hd : Drift s s' ∧ True) hs => ?_
  -- the host may end the subprocess, but not undo its start
  rcases hd.1.engine with he | ⟨-, code, he⟩
  · unfold Spawned
    rw [he]
    exact hs
  · simp [Spawned, he]

theorem stable_noticed : genuine.Stable () Noticed :=
  .solo fun s s' _ (hd : Drift s s' ∧ True) hs =>
    ⟨hd.1.exited' hs.1, by rw [hd.1.history]; exact hs.2⟩

/-- Only a look adds a finding. -/
theorem HostState.unseen_answer {s s' : HostState} {o : HostOp} {a : HostAns o}
    (ho : o ≠ .poll) (h : Unseen s) (ha : HostState.answer s o a s') : Unseen s' := by
  have hadd {e : Event} (he : ∀ code, e ≠ .seen (some code)) : Unseen (s.log e) := by
    intro code hmem
    exact not_mem_log (h code) (he code).symm hmem
  -- what is added to the history is the finding of a look, or something else
  cases ha.change with
  | @sets attr b =>
    cases attr with
    | closed => exact h
    | stopped =>
      cases b with
      | false => exact h
      | true => exact hadd (e := .stopping) fun _ he => by cases he
  | closes => exact hadd (e := .channelClosed) fun _ he => by cases he
  | @logs e hlog =>
    -- an event that an operation reports is a finding only if it is a look
    refine hadd fun code he => ?_
    subst he
    exact ho hlog
  | _ => exact h

/-- No operation brings the subprocess back to where it was not spawned. -/
theorem HostState.spawned_answer {s s' : HostState} {o : HostOp} {a : HostAns o}
    (h : Spawned s) (ha : HostState.answer s o a s') : Spawned s' := by
  cases ha.change with
  | @sets attr b => cases attr <;> cases b <;> exact h
  | spawns => simp [Spawned]
  | _ => exact h

theorem HostState.watched_answer {s s' : HostState} {o : HostOp} {a : HostAns o}
    (ho : o ≠ .poll) (h : Watched s) (ha : HostState.answer s o a s') : Watched s' :=
  ⟨spawned_answer h.1 ha, unseen_answer ho h.2 ha⟩

theorem HostState.noticed_answer {s s' : HostState} {o : HostOp} {a : HostAns o}
    (h : Noticed s) (ha : HostState.answer s o a s') : Noticed s' := by
  obtain ⟨⟨exitCode, he⟩, code, hmem⟩ := h
  have hadd (e : Event) : ∃ code, .seen (some code) ∈ (s.log e).history :=
    ⟨code, List.mem_append_left _ hmem⟩
  -- the history only grows, and a subprocess that has exited is not spawned again
  cases ha.change with
  | @sets attr b =>
    cases attr with
    | closed => exact ⟨⟨exitCode, he⟩, code, hmem⟩
    | stopped =>
      cases b with
      | false => exact ⟨⟨exitCode, he⟩, code, hmem⟩
      | true => exact ⟨⟨exitCode, he⟩, hadd .stopping⟩
  | closes => exact ⟨⟨exitCode, he⟩, hadd .channelClosed⟩
  | spawns hno =>
    rw [he] at hno
    cases hno
  | @logs e => exact ⟨⟨exitCode, he⟩, hadd e⟩
  | _ => exact ⟨⟨exitCode, he⟩, code, hmem⟩

theorem unseen_perform {o : HostOp} (ho : o ≠ .poll) :
    genuine.Triple () Unseen (perform o) (Contract.Returns fun _ => Unseen) :=
  genuine_perform stable_unseen (fun _ => stable_unseen) fun _ _ _ hs ha _ =>
    unseen_answer ho hs ha

theorem watched_perform {o : HostOp} (ho : o ≠ .poll) :
    genuine.Triple () Watched (perform o) (Contract.Returns fun _ => Watched) :=
  genuine_perform stable_watched (fun _ => stable_watched) fun _ _ _ hs ha _ =>
    watched_answer ho hs ha

/-! ### The moment of the exit -/

/-- The exit is dated: looks before it have found the subprocess running, and looks after it
have found it exited. -/
structure Dated (s : HostState) : Prop where
  running : ¬ s.Exited → Unseen s
  exited : s.Exited → ∃ i, s.exitedAt = some i ∧ i ≤ s.history.length ∧
    ∀ j answer, s.history[j]? = some (.seen answer) → (answer.isSome = true ↔ i ≤ j)

theorem Dated.congr {s s' : HostState} (h : Dated s) (he : s'.engine = s.engine)
    (hat : s'.exitedAt = s.exitedAt) (hh : s'.history = s.history) : Dated s' where
  running hno := by
    unfold Unseen
    rw [hh]
    exact h.running fun ⟨code, hcode⟩ => hno ⟨code, he.trans hcode⟩
  exited := by
    rintro ⟨code, hcode⟩
    rw [hat, hh]
    exact h.exited ⟨code, he.symm.trans hcode⟩

/-- A look finds the subprocess as it is then. -/
theorem Dated.log {s : HostState} (h : Dated s) {e : Event}
    (hseen : ∀ answer, e = .seen answer → answer = s.engine.exitCode) : Dated (s.log e) where
  running hno := by
    intro code hmem
    rcases mem_log.mp hmem with hold | rfl
    · exact h.running hno code hold
    · exact hno ⟨code, exited_of_exitCode (hseen _ rfl).symm⟩
  exited := by
    intro hexited
    obtain ⟨i, hat, hle, hlooks⟩ := h.exited hexited
    refine ⟨i, hat, ?_, fun j answer hj => ?_⟩
    · rw [log_history, List.length_append]
      exact hle.trans (Nat.le_add_right _ _)
    · rw [log_history] at hj
      rcases Nat.lt_or_ge j s.history.length with hlt | hge
      · rw [List.getElem?_append_left hlt] at hj
        exact hlooks j answer hj
      · -- the new event comes after the exit
        obtain ⟨code, hcode⟩ := hexited
        rw [List.getElem?_append_right hge, List.getElem?_singleton] at hj
        split at hj
        · obtain rfl : answer = some code := by
            have hanswer := hseen answer (Option.some.inj hj)
            rw [hanswer, show s.engine = .exited code from hcode]
            rfl
          exact iff_of_true rfl (hle.trans hge)
        · cases hj

theorem Dated.answer {s s' : HostState} {o : HostOp} {a : HostAns o} (h : Dated s)
    (ha : HostState.answer s o a s') : Dated s' := by
  by_cases ho : o = .poll
  · subst ho
    obtain ⟨rfl, rfl⟩ := ha
    exact h.log fun answer he => (Event.seen.inj he).symm
  -- no other operation looks at the subprocess
  have hadd {e : Event} (he : ∀ answer, e ≠ .seen answer) : Dated (s.log e) :=
    h.log fun answer heq => absurd heq (he answer)
  cases ha.change with
  | @sets attr b =>
    cases attr with
    | closed => exact h.congr rfl rfl rfl
    | stopped =>
      cases b with
      | false => exact h.congr rfl rfl rfl
      | true => exact (hadd (e := .stopping) fun _ he => by cases he).congr rfl rfl rfl
  | closes => exact (hadd (e := .channelClosed) fun _ he => by cases he).congr rfl rfl rfl
  | spawns hno =>
    -- a subprocess that is spawned had not exited
    refine ⟨fun _ => h.running ?_, fun ⟨code, hcode⟩ => by cases hcode⟩
    rintro ⟨code, hcode⟩
    rw [hno] at hcode
    cases hcode
  | @logs e hlog =>
    refine hadd fun answer he => ?_
    subst he
    exact ho hlog
  | _ => exact h.congr rfl rfl rfl

theorem Dated.drift {s s' : HostState} (h : Dated s) (hd : Drift s s') : Dated s' := by
  rcases hd.exitedAt with ⟨hat, he⟩ | ⟨hrun, hat, hexited⟩
  · exact h.congr he hat hd.history
  · refine ⟨fun hno => absurd hexited hno, fun _ => ⟨_, hat, by rw [hd.history], ?_⟩⟩
    -- every look so far has found it running
    intro j answer hj
    rw [hd.history] at hj
    have hunseen : Unseen s := h.running fun ⟨code, hcode⟩ => by
      rw [hrun] at hcode
      cases hcode
    have hlt : j < s.history.length := (List.getElem?_eq_some_iff.mp hj).1
    refine iff_of_false (fun hsome => ?_) (not_le.mpr hlt)
    obtain ⟨code, rfl⟩ := Option.isSome_iff_exists.mp hsome
    exact hunseen code (List.mem_of_getElem? hj)

/-- A look was made after the exit exactly when a look has found it. -/
theorem Dated.lookAfter_iff {s : HostState} (h : Dated s) (hexited : s.Exited) :
    (∃ i j answer, s.exitedAt = some i ∧ i ≤ j ∧ s.history[j]? = some (.seen answer)) ↔
      ∃ code, .seen (some code) ∈ s.history := by
  obtain ⟨i, hat, -, hlooks⟩ := h.exited hexited
  constructor
  · rintro ⟨i', j, answer, hat', hle, hj⟩
    obtain rfl : i = i' := Option.some.inj (hat.symm.trans hat')
    obtain ⟨code, rfl⟩ := Option.isSome_iff_exists.mp ((hlooks j answer hj).mpr hle)
    exact ⟨code, List.mem_of_getElem? hj⟩
  · rintro ⟨code, hmem⟩
    obtain ⟨j, hj⟩ := List.mem_iff_getElem?.mp hmem
    exact ⟨i, j, some code, hat, (hlooks j _ hj).mp rfl, hj⟩

/-! ### The verdict -/

/-- What an error of the wait says, and what the looks at the subprocess have found. -/
def Verdict (err : ConduitError) (s : HostState) : Prop :=
  err.code = "client.engine_crashed" ∧ Noticed s ∨
    err.code = "client.engine_unreachable" ∧ Watched s

theorem stable_verdict (err : ConduitError) : genuine.Stable () (Verdict err) :=
  ((Contract.Stable.const _).and stable_noticed).or ((Contract.Stable.const _).and stable_watched)

/-- What the wait ends in. -/
def Judged : Except Exn (Option Client) → HostState → Prop :=
  Contract.Post (fun _ _ => True) fun e s => ∀ err, e = .conduit err → Verdict err s

theorem stable_judged (r : Except Exn (Option Client)) : genuine.Stable () (Judged r) := by
  refine .post (fun _ => .const True) (fun e => ?_) r
  exact fun s s' hI hI' hr hs err he => stable_verdict err hI hI' hr (hs err he)

variable {rt : Runtime} {stateDir addr : String} {version binary : Option String}
  {timeout : ℚ} {n : ℕ}

/-- The two ways out of the loop: the channel is closed, the log is read, and the error is
raised, and nothing of it is a look at the subprocess. -/
theorem giveUp_triple {P : HostState → Prop} (hP : genuine.Stable () P)
    (hkeep : ∀ s o a s', o ≠ .poll → P s → HostState.answer s o a s' → P s')
    {err : String → ConduitError} (hverdict : ∀ tail s, P s → Verdict (err tail) s) :
    genuine.Triple () P (perform .closeChannel >>= fun _ => LocalConduit.logTail rt 4096 >>=
      fun tail => Prog.raise (.conduit (err tail))) Judged := by
  have hE (e : Exn) : genuine.Stable () fun s => e.Foreign ∧ P s := (Contract.Stable.const _).and hP
  have hclose : genuine.Triple () P (perform .closeChannel) (Contract.Returns fun _ => P) :=
    genuine_perform hP (fun _ => hP) fun s a s' hs ha _ => hkeep s _ a s' (by simp) hs ha
  have htail : genuine.Triple () P (LocalConduit.logTail rt 4096)
      (Contract.Post (fun _ => P) fun e s => e.Foreign ∧ P s) := by
    refine logTail_triple hP ?_ ?_ (fun k => ?_) 4096
    -- each of the three operations on the log may raise, and none is a look
    all_goals
      refine genuine_perform hP (.post (fun _ => hP) hE) fun s a s' hs ha hgen => ?_
      have hs' := hkeep s _ a s' (by simp) hs ha
      cases a with
      | ok => exact hs'
      | error e => exact ⟨(hgen e rfl).resolve_left (by simp), hs'⟩
  refine giveUp_rule (fun _ => hP) hE hclose htail (fun tail s hs err' he => ?_) ?_
  · cases he
    exact hverdict tail s hs
  · -- the log raised: what leaves the constructor is no `ConduitError`
    exact fun e s hs err' he => absurd he (hs.1 err')

/-- The loop of `_wait_ready`. -/
theorem watch_genuine (rt : Runtime) (addr : String) (timeout : ℚ) :
    Watch genuine rt addr timeout Watched Noticed (fun _ => True) (fun _ => Watched) Judged where
  stableB := stable_watched
  stableR := .const True
  stableK _ := stable_watched
  stableQ := stable_judged
  monotonic := watched_perform (by simp)
  poll := by
    refine genuine_perform stable_watched (fun exitCode => ?_) fun s exitCode s' hs ha _ => ?_
    · cases exitCode with
      | none => exact stable_watched
      | some code => exact stable_noticed
    · obtain ⟨rfl, rfl⟩ := ha
      -- the look finds what the subprocess is at that moment
      cases hcode : s.engine.exitCode with
      | none =>
        refine ⟨hs.1, fun code hmem => ?_⟩
        exact not_mem_log (hs.2 code) (by simp) hmem
      | some code => exact ⟨⟨code, exited_of_exitCode hcode⟩, code, by simp⟩
  new := watched_perform (by simp)
  send _ := (watched_perform (by simp)).outcome fun _ hs => hs
  recv := by
    refine genuine_perform stable_watched
      (.post (fun _ => .const True) fun _ => stable_watched) fun s a s' hs ha _ => ?_
    cases a with
    | ok => trivial
    | error e => exact watched_answer (by simp) hs ha
  sleep := by
    refine genuine_perform stable_watched
      (.post (fun _ => stable_watched) fun e => stable_judged (.error e))
      fun s a s' hs ha hgen => ?_
    cases a with
    | ok => exact watched_answer (by simp) hs ha
    | error e =>
      -- `sleep` raised, which is no verdict
      intro err he
      exact absurd he ((hgen e rfl).resolve_left (by simp) err)
  crashed exitCode := giveUp_triple stable_noticed (fun _ _ _ _ _ => noticed_answer)
    fun tail s hs => Or.inl ⟨rfl, hs⟩
  late last := giveUp_triple stable_watched (fun _ _ _ _ => watched_answer)
    fun tail s hs => Or.inr ⟨rfl, hs⟩
  answered _ _ := trivial
  again _ _ _ _ hs := hs
  lost _ _ hforeign _ err he := absurd he (hforeign err)
  unfinished _ _ := trivial

/-- The launch does not look at the subprocess. -/
theorem launch_genuine : Launch genuine Unseen Unseen Watched fun _ => True where
  stableA := stable_unseen
  stableL := stable_unseen
  stableS := stable_watched
  stableE := .const True
  ensureBinary _ := (unseen_perform (by simp)).outcome fun _ _ => trivial
  bindFreePort := (unseen_perform (by simp)).outcome fun _ _ => trivial
  releasePort _ := unseen_perform (by simp)
  openLog := (unseen_perform (by simp)).outcome fun _ _ => trivial
  spawn args := by
    refine genuine_perform stable_unseen
      (.post (fun _ => stable_watched) fun _ => .const True) fun s a s' hs ha _ => ?_
    cases a with
    | ok =>
      obtain ⟨-, rfl⟩ := ha
      exact ⟨by simp [Spawned], hs⟩
    | error e => trivial
  setAttr := watched_perform (by simp)
  registerAtexit := watched_perform (by simp)

/-! ### Right and wrong errors -/

/-- The constructor has launched the subprocess, and its wait has raised `err` in `s`. -/
def GivesUp (rt : Runtime) (stateDir : String) (version binary : Option String) (timeout : ℚ)
    (n : ℕ) (s₀ : HostState) (err : ConduitError) (s : HostState) : Prop :=
  ∃ l s₁, Ends genuineWorld (LocalConduit.launch stateDir version binary) s₀ (.ok l) s₁ ∧
    Ends genuineWorld (LocalConduit.waitReady rt (address l.2.1) timeout n) s₁
      (.error (.conduit err)) s

/-- The error says what has become of the subprocess. -/
structure Classified (err : ConduitError) (s : HostState) : Prop where
  crashed : s.Exited → err.code = "client.engine_crashed"
  unreachable : err.code = "client.engine_unreachable" → s.engine = .running

/-- If the subprocess has exited, a look at it was made after that. -/
def LookAfterExit (s : HostState) : Prop :=
  s.Exited → ∃ i j answer, s.exitedAt = some i ∧ i ≤ j ∧ s.history[j]? = some (.seen answer)

theorem Watched.running {s : HostState} (h : Watched s) (he : ¬ s.Exited) :
    s.engine = .running := by
  cases hengine : s.engine with
  | notSpawned => exact absurd hengine h.1
  | running => rfl
  | exited code => exact absurd ⟨code, hengine⟩ he

/-- An error is right exactly when the last look came after the exit. -/
theorem Verdict.classified_iff {err : ConduitError} {s : HostState} (h : Verdict err s)
    (hdated : Dated s) : Classified err s ↔ LookAfterExit s := by
  rcases h with ⟨hcode, -, hseen⟩ | ⟨hcode, hwatched⟩
  · -- reported as crashed: the exit was found by a look, and the other code is not this one
    refine ⟨fun _ hexited => (hdated.lookAfter_iff hexited).mpr hseen, fun _ => ⟨fun _ => hcode,
      fun hother => ?_⟩⟩
    rw [hcode] at hother
    exact absurd hother (by decide)
  · constructor
    · -- reported as unreachable: the subprocess has not exited
      intro hclass hexited
      have hother := hclass.crashed hexited
      rw [hcode] at hother
      exact absurd hother (by decide)
    · intro hlook
      have hno : ¬ s.Exited := fun hexited => by
        -- a look after the exit would have found it
        obtain ⟨code, hmem⟩ := (hdated.lookAfter_iff hexited).mp (hlook hexited)
        exact hwatched.2 code hmem
      exact ⟨fun hexited => absurd hexited hno, fun _ => hwatched.running hno⟩

theorem GivesUp.verdict {s₀ s : HostState} {err : ConduitError} (h₀ : s₀.Before)
    (h : GivesUp rt stateDir version binary timeout n s₀ err s) : Verdict err s := by
  obtain ⟨l, s₁, hlaunch, hwait⟩ := h
  have hunseen : Unseen s₀ := fun code => by simp [h₀.history]
  have hwatched : Watched s₁ := (launch_genuine.launch.ends trivial hunseen hlaunch).2
  have hjudged := (watch_genuine rt (address l.2.1) timeout).waitReady
    (watched_perform (by simp)) (watched_perform (by simp)) n
  exact (hjudged.ends trivial hwatched hwait).2 err rfl

theorem GivesUp.dated {s₀ s : HostState} {err : ConduitError} (h₀ : s₀.Before)
    (h : GivesUp rt stateDir version binary timeout n s₀ err s) : Dated s := by
  obtain ⟨l, s₁, hlaunch, hwait⟩ := h
  have hdated : Dated s₀ := by
    refine ⟨fun _ code => by simp [h₀.history], fun ⟨code, hcode⟩ => ?_⟩
    rw [h₀.engine] at hcode
    cases hcode
  have hkeep {α : Type} {p : HostM α} {r : Except Exn α} {s s' : HostState} (hs : Dated s)
      (hends : Ends genuineWorld p s r s') : Dated s' :=
    hends.invariant (fun _ _ _ _ hd ha => hd.answer ha.1) (fun _ _ hd hdrift => hd.drift hdrift.1)
      hs
  exact hkeep (hkeep hdated hlaunch) hwait

/-- **The diagnosis.** In every execution of a constructor that raises a `ConduitError`, either
the launch has raised it, or the wait has and the teardown has returned after it. An error of
the wait has one of two codes, and it says what has become of the subprocess exactly when the
subprocess still runs or had exited before the last look of the loop. The loop looks once in each
round whose check reads less than the deadline, so a wait without such a round never looks. -/
theorem diagnosis_iff {s₀ : HostState} (h₀ : s₀.Before) :
    (∀ err s', Ends genuineWorld (LocalConduit.init rt stateDir version binary timeout n) s₀
        (.error (.conduit err)) s' →
      Ends genuineWorld (LocalConduit.launch stateDir version binary) s₀
          (.error (.conduit err)) s' ∨
        ∃ s, GivesUp rt stateDir version binary timeout n s₀ err s ∧
          Ends genuineWorld LocalConduit.terminate s (.ok ()) s') ∧
    ∀ err s, GivesUp rt stateDir version binary timeout n s₀ err s →
      (err.code = "client.engine_crashed" ∨ err.code = "client.engine_unreachable") ∧
        (Classified err s ↔ LookAfterExit s) := by
  constructor
  · intro err s' h
    refine (init_conduit_error (fun s e s' hterm => ?_) h).imp_right ?_
    · exact (terminate_foreign.ends trivial trivial hterm).2
    · rintro ⟨l, s₁, s, hlaunch, hwait, hterm⟩
      exact ⟨s, ⟨l, s₁, hlaunch, hwait⟩, hterm⟩
  · intro err s h
    have hverdict := h.verdict h₀
    exact ⟨hverdict.imp And.left And.left, hverdict.classified_iff (h.dated h₀)⟩

/-! ### A wait without an iteration -/

/-- The deterministic hosts raise no `ConduitError`. -/
theorem Scenario.handle_genuine (sc : Scenario) (s : HostState) (o : HostOp) :
    Genuine o (sc.handle s o).1 := by
  have hno (err : ConduitError) : o.exception (sc.handle s o).1 ≠ some (.conduit err) := by
    -- what a deterministic host raises is an `OSError`, an `RpcError` or `TimeoutExpired`
    cases o with
    | send m r t | bindFreePort | spawn args =>
      simp only [Scenario.handle]
      split <;> simp [HostOp.exception, unavailable]
    | recv m =>
      cases m with
      | getInfo =>
        simp only [Scenario.handle]
        split <;> simp [HostOp.exception, unavailable]
      | _ => simp [Scenario.handle, HostOp.exception, unavailable]
    | wait t =>
      simp only [Scenario.handle]
      split
      · simp [HostOp.exception]
      · split <;> simp [HostOp.exception]
    | _ => simp [Scenario.handle, HostOp.exception]
  refine fun e he => Or.inr fun err heq => ?_
  rw [he, heq] at hno
  exact hno err rfl

/-- A run on such a host is a run in the world where `ConduitError`s come from the library. -/
theorem Scenario.ends_genuine {sc : Scenario} (hserves : sc.server.serves = true) {α : Type}
    (p : HostM α) (s : HostState) :
    Ends genuineWorld p s (p.eval sc.handle s).1 (p.eval sc.handle s).2 := by
  exact sc.ends hserves sc.closed_true (A := fun _ o a _ => Genuine o a) (D := fun _ _ => True)
    (fun _ s o _ => sc.handle_genuine s o) (fun _ _ _ => trivial) p trivial

/-- The error of a wait that had no time. -/
def noTimeError (rt : Runtime) (addr : String) : ConduitError :=
  LocalConduit.unreachableError rt addr 0 none "<log unavailable>"

/-- The host after it. -/
def HostState.gaveUp (s : HostState) (addr : String) : HostState :=
  { s.log .channelClosed with target := some addr, channelOpen := false, connected := none }

/-- A wait without time closes its channel and raises, without a look at the subprocess. -/
theorem eval_waitReady_zero (rt : Runtime) (sc : Scenario) (addr : String) (s : HostState) :
    (LocalConduit.waitReady rt addr 0 1).eval sc.handle s =
      (.error (.conduit (noTimeError rt addr)), s.gaveUp addr) := by
  -- the clock has not moved, so the deadline has passed at the first check
  have hlate : ¬ (sc.handle (sc.handle (sc.handle s .monotonic).2 (.openChannel addr)).2
      .monotonic).1 < (sc.handle s .monotonic).1 + 0 := by
    change ¬ s.clock < s.clock + 0
    simp
  unfold LocalConduit.waitReady LocalConduit.probeLoop
  rw [Prog.eval_perform_bind, Prog.eval_perform_bind, Prog.eval_perform_bind, if_neg hlate]
  rfl

/-- The host after the launch of a quick start. -/
def launchedHost : HostState :=
  ((LocalConduit.launch "state" none (some "conduit")).eval obedient.handle idleHost).2

theorem launchedHost_ends :
    Ends genuineWorld (LocalConduit.launch "state" none (some "conduit")) idleHost
      (.ok ("conduit", 40000, 40001)) launchedHost := by
  have hends := obedient.ends_genuine rfl (LocalConduit.launch "state" none (some "conduit"))
    idleHost
  have hok : ((LocalConduit.launch "state" none (some "conduit")).eval obedient.handle
      idleHost).1 = .ok ("conduit", 40000, 40001) := by
    decide +kernel
  rwa [hok] at hends

/-- From a host that the launch may leave, a wait without time gives up. -/
theorem givesUp_zero {s₁ : HostState} (hd : Relation.ReflTransGen Drift launchedHost s₁) :
    GivesUp plainRuntime "state" none (some "conduit") 0 1 idleHost
      (noTimeError plainRuntime (address 40000)) (s₁.gaveUp (address 40000)) := by
  -- the launch, followed by whatever the host does by itself
  have hd' : Relation.ReflTransGen genuineWorld.drift launchedHost s₁ :=
    Relation.ReflTransGen.mono (fun _ _ h => ⟨h, trivial⟩) _ _ hd
  have hwait := obedient.ends_genuine rfl
    (LocalConduit.waitReady plainRuntime (address 40000) 0 1) s₁
  rw [eval_waitReady_zero] at hwait
  exact ⟨_, s₁, launchedHost_ends.drifts hd', hwait⟩

/-- A subprocess that runs all along is rightly not reached. -/
theorem diagnosis_zero :
    ∃ err s, GivesUp plainRuntime "state" none (some "conduit") 0 1 idleHost err s ∧
      Classified err s ∧ s.engine = .running := by
  have hgives := givesUp_zero .refl
  have hrunning : launchedHost.engine = .running := by decide +kernel
  refine ⟨_, _, hgives, ?_, hrunning⟩
  refine ((diagnosis_iff idleHost_before).2 _ _ hgives).2.mpr fun hexited => ?_
  obtain ⟨code, hcode⟩ := hexited
  have hengine : launchedHost.engine = .exited code := hcode
  rw [hrunning] at hengine
  cases hengine

/-- A subprocess that exits as soon as it was spawned: with no time to wait, the constructor
raises that it was not reached. -/
theorem exit_unnoticed :
    ∃ err s s', GivesUp plainRuntime "state" none (some "conduit") 0 1 idleHost err s ∧
      Ends genuineWorld (LocalConduit.init plainRuntime "state" none (some "conduit") 0 1)
        idleHost (.error (.conduit err)) s' ∧
      s.Exited ∧ err.code = "client.engine_unreachable" ∧ ¬ Classified err s := by
  have hrunning : launchedHost.engine = .running := by decide +kernel
  -- the subprocess exits between the launch and the wait
  have hexits : Drift launchedHost (launchedHost.exit 1) := .engineExits hrunning
  have hgives := givesUp_zero (.single hexits)
  have hexited : ((launchedHost.exit 1).gaveUp (address 40000)).Exited := ⟨1, rfl⟩
  obtain ⟨l, s₁, hlaunch, hwait⟩ := hgives
  -- the teardown finds nothing to stop, and returns
  have hterm := obedient.ends_genuine rfl LocalConduit.terminate
    ((launchedHost.exit 1).gaveUp (address 40000))
  have hok : (LocalConduit.terminate.eval obedient.handle
      ((launchedHost.exit 1).gaveUp (address 40000))).1 = .ok () := by
    decide +kernel
  rw [hok] at hterm
  refine ⟨_, _, _, ⟨l, s₁, hlaunch, hwait⟩,
    init_error_iff.mpr (Or.inr ⟨l, s₁, _, _, hlaunch, hwait, Or.inr ⟨rfl, hterm⟩⟩), hexited, rfl,
    fun hclass => ?_⟩
  exact absurd (hclass.crashed hexited) (by decide)

end Conduit
