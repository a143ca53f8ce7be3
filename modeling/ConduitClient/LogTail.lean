import Mathlib.Data.List.DropRight
import ConduitClient.Diagnosis

/-!
# The log of a failed start

A `LocalConduit` opens `conduit.log` for appending, lets the subprocess write there, and shows
the end of the file when it gives the subprocess up. A directory that was used before has a log
already, so what is shown is the end of both outputs, one after the other: the last bytes of the
subprocess alone exactly when the log was empty, or when the subprocess has written as much as
is shown (`logTail_iff`). A subprocess that dies without a word is reported with the last words
of the one before it (`earlier_output_reported`).
-/

namespace Conduit

open Effect

/-! ### The end of a file -/

section Rtake

variable {α : Type}

/-- The end of two lists, one after the other. -/
theorem rtake_append (l m : List α) (k : ℕ) :
    (l ++ m).rtake k = l.rtake (k - m.length) ++ m.rtake k := by
  have hleft : l.drop (l.length + m.length - k) = l.rtake (k - m.length) := by
    rcases le_total k m.length with hk | hk
    · -- nothing of the first list is in the end
      rw [List.drop_eq_nil_of_le (by omega), Nat.sub_eq_zero_of_le hk, List.rtake_zero]
    · rw [List.rtake, show l.length - (k - m.length) = l.length + m.length - k by omega]
  have hright : l.length + m.length - k - l.length = m.length - k := by omega
  calc (l ++ m).rtake k
      = l.drop (l.length + m.length - k) ++ m.drop (l.length + m.length - k - l.length) := by
        rw [List.rtake, List.drop_append, List.length_append]
    _ = l.rtake (k - m.length) ++ m.rtake k := by
        rw [hleft, hright, ← List.rtake]

theorem rtake_eq_nil_iff {l : List α} {k : ℕ} : l.rtake k = [] ↔ l = [] ∨ k = 0 := by
  rw [List.rtake, List.drop_eq_nil_iff, ← List.length_eq_zero_iff]
  omega

/-- The end is that of the second list alone, when the first is empty or the second is long
enough. -/
theorem rtake_append_eq_iff {l m : List α} {k : ℕ} :
    (l ++ m).rtake k = m.rtake k ↔ l = [] ∨ k ≤ m.length := by
  rw [rtake_append, List.append_left_eq_self, rtake_eq_nil_iff, Nat.sub_eq_zero_iff_le]

end Rtake

/-! ### A host with a log -/

/-- The host and its `conduit.log`. The last three fields are read by no program. -/
structure LogState where
  host : HostState
  /-- What is in the file; an absent file has nothing in it. -/
  file : Bytes
  /-- What the subprocess has written there. -/
  own : Bytes := []
  /-- The tail of the file is being read. -/
  reading : Bool := false
  /-- What was read. -/
  tail : Option Bytes := none

namespace LogState

/-- The operations on the log answer what is in the file, or fail. -/
def Reads (s : LogState) : (o : HostOp) → HostAns o → Prop
  | .logSize, .ok size => size = s.file.length
  | .readLogFrom offset, .ok bytes => bytes = s.file.drop offset
  | _, _ => True

/-- What an operation means for the log. The file opened with `"ab"` keeps its content. -/
def after (s : LogState) : (o : HostOp) → HostAns o → LogState
  | .openLogForReading, .ok _ => { s with reading := true }
  | .logSize, .ok _ => s
  | .readLogFrom _, .ok bytes => { s with tail := some bytes }
  | _, _ => { s with reading := false }

/-- How an operation may be answered. -/
def answer (s : LogState) (o : HostOp) (a : HostAns o) (s' : LogState) : Prop :=
  ∃ h, HostState.answer s.host o a h ∧ s.Reads o a ∧ s' = { s.after o a with host := h }

/-- What happens beside. -/
inductive Drift (s : LogState) : LogState → Prop
  | host {h : HostState} (hd : HostState.Drift s.host h) : Drift s { s with host := h }
  /-- The subprocess writes at the end of the file, though not while the tail is read. -/
  | writes {bytes : Bytes} (hrun : s.host.engine = .running) (hstill : s.reading = false) :
      Drift s { s with file := s.file ++ bytes, own := s.own ++ bytes }

/-- No object of a `LocalConduit` exists yet. The file may hold the output of earlier runs. -/
structure Before (s : LogState) : Prop where
  host : s.host.Before
  own : s.own = []
  reading : s.reading = false
  tail : s.tail = none

variable (s : LogState) (o : HostOp) (a : HostAns o)

/-- The library writes nothing to the file. -/
theorem after_file : (s.after o a).file = s.file := by
  unfold after
  split <;> rfl

theorem after_own : (s.after o a).own = s.own := by
  unfold after
  split <;> rfl

theorem after_tail (ho : ∀ k, o ≠ .readLogFrom k) : (s.after o a).tail = s.tail := by
  unfold after
  split
  · rfl
  · rfl
  · exact absurd rfl (ho _)
  · rfl

end LogState

/-- The world of a local engine and its log. -/
def logWorld : World Host Unit LogState where
  answer _ := LogState.answer
  drift := LogState.Drift

/-- The world, where every `ConduitError` comes from the library. -/
def genuineLog : World Host Unit LogState :=
  logWorld.under (fun _ o a _ => Genuine o a) fun _ _ => True

variable {rt : Runtime} {stateDir addr : String} {version binary : Option String}
  {timeout : ℚ} {n : ℕ}

/-- Without its log, the world is the one of the host. -/
theorem ends_host {α : Type} {p : HostM α} {r : Except Exn α} {s s' : LogState}
    (h : Ends genuineLog p s r s') : Ends genuineWorld p s.host r s'.host := by
  refine Ends.map (f := LogState.host) ?_ ?_ p.only_true h
  · rintro s s' ⟨hd, -⟩
    cases hd with
    | host hd => exact ⟨hd, trivial⟩
    -- an output is not seen there: the clock stands still
    | writes => exact ⟨.time (le_refl s.host.clock), trivial⟩
  · rintro s o a s' - ⟨⟨h, ha, -, rfl⟩, hgen⟩
    exact ⟨ha, hgen⟩

/-! ### The file grows at its end -/

/-- The file holds what was there, and then what the subprocess has written. -/
def appended (old : Bytes) : Contract genuineLog :=
  .solo genuineLog (fun s => s.file = old ++ s.own) fun s s' hs hd => by
    obtain ⟨hd, -⟩ := hd
    cases hd with
    | host => exact hs
    | writes => exact (congrArg (· ++ _) hs).trans (List.append_assoc _ _ _)

variable {old : Bytes}

theorem appended_perform {o : HostOp} {P : LogState → Prop} {M : HostAns o → LogState → Prop}
    (hP : (appended old).Stable () P) (hM : ∀ a, (appended old).Stable () (M a))
    (ho : ∀ s a h, P s → s.Reads o a → Genuine o a → M a { s.after o a with host := h }) :
    (appended old).Triple () P (perform o) (Contract.Returns M) := by
  refine .perform hP hM fun s a s' hI hs ha => ?_
  obtain ⟨⟨h, -, hreads, rfl⟩, hgen⟩ := ha
  have hfile : (s.after o a).file = old ++ (s.after o a).own := by
    rw [s.after_file, s.after_own]
    exact hI
  exact ⟨hfile, trivial, ho s a h hs hreads hgen⟩

/-- Nothing was read of the file. -/
def Unread (s : LogState) : Prop := s.tail = none

/-- The tail of the file is being read, so that the file stays as it is. -/
def Reading (φ : Bytes → Option Bytes → Prop) (s : LogState) : Prop :=
  s.reading = true ∧ φ s.file s.tail

theorem stable_unread : (appended old).Stable () Unread :=
  .solo fun s s' _ (hd : LogState.Drift s s' ∧ True) hs => by
    obtain ⟨hd, -⟩ := hd
    cases hd <;> exact hs

theorem stable_reading (φ : Bytes → Option Bytes → Prop) :
    (appended old).Stable () (Reading φ) :=
  .solo fun s s' _ (hd : LogState.Drift s s' ∧ True) hs => by
    obtain ⟨hd, -⟩ := hd
    cases hd with
    | host => exact hs
    | writes hrun hstill =>
      rw [hs.1] at hstill
      cases hstill

theorem unread_perform {o : HostOp} (ho : ∀ k, o ≠ .readLogFrom k) :
    (appended old).Triple () Unread (perform o) (Contract.Returns fun _ => Unread) :=
  appended_perform stable_unread (fun _ => stable_unread) fun s a _ hs _ _ =>
    (s.after_tail o a ho).trans hs

/-! ### The tail -/

/-- A text that stands for the log in an error: the end of the file, or a replacement. -/
def Tailed (rt : Runtime) (text : String) (s : LogState) : Prop :=
  Unread s ∧ text = "<log unavailable>" ∨
    Reading (fun file tail => tail = some (file.rtake 4096) ∧
      text = rt.decodeReplace (file.rtake 4096)) s

theorem stable_tailed (rt : Runtime) (text : String) :
    (appended old).Stable () (Tailed rt text) :=
  (stable_unread.and (.const _)).or (stable_reading _)

/-- What a failure to read leaves. -/
def Unavailable (e : Exn) (s : LogState) : Prop := e.Foreign ∧ Unread s

theorem stable_unavailable (e : Exn) : (appended old).Stable () (Unavailable e) :=
  (Contract.Stable.const _).and stable_unread

/-- The size stays the size, while the tail is being read. -/
theorem logSize_reading :
    (appended old).Triple () (Reading fun _ tail => tail = none) (perform .logSize)
      (Contract.Returns (Contract.Post
        (fun size => Reading fun file tail => tail = none ∧ size = file.length) Unavailable)) := by
  refine appended_perform (stable_reading _) (.post (fun _ => stable_reading _)
    stable_unavailable) fun s a h hs hsize hgen => ?_
  cases a with
  | ok size => exact ⟨hs.1, hs.2, hsize⟩
  | error e => exact ⟨(hgen e rfl).resolve_left (by simp), hs.2⟩

/-- What is read from the offset on is the end of the file. -/
theorem readLog_reading (rt : Runtime) (size : ℕ) :
    (appended old).Triple () (Reading fun file tail => tail = none ∧ size = file.length)
      (perform (.readLogFrom (size - 4096)))
      (Contract.Returns (Contract.Post (fun bytes => Tailed rt (rt.decodeReplace bytes))
        Unavailable)) := by
  refine appended_perform (stable_reading _) (.post (fun _ => stable_tailed rt _)
    stable_unavailable) fun s a h hs hbytes hgen => ?_
  obtain ⟨hreading, htail, hlen⟩ := hs
  cases a with
  | ok bytes =>
    -- the offset was computed from the length that the file still has
    have hend : bytes = s.file.rtake 4096 := by
      rw [hbytes, hlen, List.rtake]
    exact Or.inr ⟨hreading, congrArg some hend, congrArg rt.decodeReplace hend⟩
  | error e => exact ⟨(hgen e rfl).resolve_left (by simp), htail⟩

/-- `_log_tail` finds the end of the file, and reads it unless that fails. -/
theorem logTail_tailed :
    (appended old).Triple () Unread (LocalConduit.logTail rt 4096)
      (Contract.Post (Tailed rt) Unavailable) := by
  have hopen : (appended old).Triple () Unread (perform .openLogForReading)
      (Contract.Returns (Contract.Post (fun _ => Reading fun _ tail => tail = none)
        Unavailable)) := by
    refine appended_perform stable_unread (.post (fun _ => stable_reading _)
      stable_unavailable) fun s a h hs _ hgen => ?_
    cases a with
    | ok => exact ⟨rfl, hs⟩
    | error e => exact ⟨(hgen e rfl).resolve_left (by simp), hs⟩
  exact logTail_rule (stable_reading _) (fun _ => stable_reading _) (stable_tailed rt)
    stable_unavailable hopen logSize_reading (readLog_reading rt) fun _ _ hs => Or.inl ⟨hs.2, rfl⟩

/-! ### The error of the wait -/

/-- An error of the wait whose message ends with this text: the subprocess has exited, or its API
was not reached in time. -/
def Shows (rt : Runtime) (addr : String) (timeout : ℚ) (text : String) (err : ConduitError) :
    Prop :=
  (∃ exitCode : ℤ, err =
    { code := "client.engine_crashed"
      message := "conduit subprocess exited (code " ++ toString exitCode ++
        ") before its API became ready. Log tail:\n" ++ text }) ∨
    ∃ last : Option ConduitError, err =
      { code := "client.engine_unreachable"
        message := "conduit subprocess did not become reachable at " ++ addr ++ " within " ++
          rt.seconds timeout ++ "s (last error: " ++ last.elim "None" ConduitError.toStr ++
          "). Log tail:\n" ++ text }

/-- A `ConduitError` of the wait shows the end of the file. -/
def Reported (rt : Runtime) (addr : String) (timeout : ℚ) :
    Except Exn (Option Client) → LogState → Prop :=
  Contract.Post (fun _ _ => True) fun e s =>
    ∀ err, e = .conduit err → ∃ text, Shows rt addr timeout text err ∧ Tailed rt text s

theorem stable_reported (rt : Runtime) (addr : String) (timeout : ℚ)
    (r : Except Exn (Option Client)) :
    (appended old).Stable () (Reported rt addr timeout r) := by
  refine .post (fun _ => .const True) (fun e => ?_) r
  intro s s' hI hI' hr hs err he
  obtain ⟨text, hshows, htailed⟩ := hs err he
  exact ⟨text, hshows, stable_tailed rt text hI hI' hr htailed⟩

/-- Both ways out of the loop end like this. -/
theorem giveUp_reported {err : String → ConduitError}
    (hshows : ∀ text, Shows rt addr timeout text (err text)) :
    (appended old).Triple () Unread (perform .closeChannel >>= fun _ =>
      LocalConduit.logTail rt 4096 >>= fun tail => Prog.raise (.conduit (err tail)))
      (Reported rt addr timeout) := by
  refine giveUp_rule (stable_tailed rt) stable_unavailable (unread_perform (by simp))
    logTail_tailed (fun text s hs err' he => ?_) ?_
  · cases he
    exact ⟨text, hshows text, hs⟩
  · -- what the log raises beside an `OSError` is no `ConduitError`
    exact fun e s hs err' he => absurd he (hs.1 err')

/-- The loop of `_wait_ready`. -/
theorem watch_reported (old : Bytes) (rt : Runtime) (addr : String) (timeout : ℚ) :
    Watch (appended old) rt addr timeout Unread Unread (fun _ => True) (fun _ => Unread)
      (Reported rt addr timeout) where
  stableB := stable_unread
  stableR := .const True
  stableK _ := stable_unread
  stableQ := stable_reported rt addr timeout
  monotonic := unread_perform (by simp)
  poll := by
    refine (unread_perform (by simp)).weaken (fun exitCode s hs => ?_) fun _ _ hf => hf
    cases exitCode <;> exact hs
  new := unread_perform (by simp)
  send _ := (unread_perform (by simp)).outcome fun _ hs => hs
  recv := by
    refine (unread_perform (by simp)).weaken (fun r s hs => ?_) fun _ _ hf => hf
    cases r with
    | ok => trivial
    | error e => exact hs
  sleep := by
    -- an exception of `sleep` is no `ConduitError`
    refine appended_perform stable_unread
      (.post (fun _ => stable_unread) fun e => stable_reported rt addr timeout (.error e))
      fun s a h hs _ hgen => ?_
    cases a with
    | ok => exact hs
    | error e =>
      intro err he
      exact absurd he ((hgen e rfl).resolve_left (by simp) err)
  crashed exitCode := giveUp_reported fun _ => Or.inl ⟨exitCode, rfl⟩
  late last := giveUp_reported fun _ => Or.inr ⟨last, rfl⟩
  answered _ _ := trivial
  again _ _ _ _ hs := hs
  lost _ _ hforeign _ err he := absurd he (hforeign err)
  unfinished _ _ := trivial

/-- The launch opens the log for writing, and reads nothing. -/
theorem launch_unread : Launch (appended old) Unread Unread Unread fun _ => True where
  stableA := stable_unread
  stableL := stable_unread
  stableS := stable_unread
  stableE := .const True
  ensureBinary _ := (unread_perform (by simp)).outcome fun _ _ => trivial
  bindFreePort := (unread_perform (by simp)).outcome fun _ _ => trivial
  releasePort _ := unread_perform (by simp)
  openLog := (unread_perform (by simp)).outcome fun _ _ => trivial
  spawn _ := (unread_perform (by simp)).outcome fun _ _ => trivial
  setAttr := unread_perform (by simp)
  registerAtexit := unread_perform (by simp)

/-- The constructor has launched the subprocess, and its wait has raised `err` in `s`. -/
def LogGivesUp (rt : Runtime) (stateDir : String) (version binary : Option String) (timeout : ℚ)
    (n : ℕ) (s₀ : LogState) (err : ConduitError) (s : LogState) : Prop :=
  ∃ l s₁, Ends genuineLog (LocalConduit.launch stateDir version binary) s₀ (.ok l) s₁ ∧
    Ends genuineLog (LocalConduit.waitReady rt (address l.2.1) timeout n) s₁
      (.error (.conduit err)) s

namespace LogGivesUp

variable {s₀ s : LogState} {err : ConduitError}

/-- The file has grown by the output of the subprocess, and the error shows its end. -/
theorem reported (h₀ : s₀.Before) (h : LogGivesUp rt stateDir version binary timeout n s₀ err s) :
    s.file = s₀.file ++ s.own ∧
      ∃ text port, Shows rt (address port) timeout text err ∧ Tailed rt text s := by
  obtain ⟨l, s₁, hlaunch, hwait⟩ := h
  have hfile : (appended s₀.file).inv s₀ := by
    change s₀.file = s₀.file ++ s₀.own
    rw [h₀.own, List.append_nil]
  obtain ⟨hfile₁, hunread⟩ := launch_unread.launch.ends hfile h₀.tail hlaunch
  have hreported := (watch_reported s₀.file rt (address l.2.1) timeout).waitReady
    (unread_perform (by simp)) (unread_perform (by simp)) n
  obtain ⟨hfile', hshown⟩ := hreported.ends hfile₁ hunread hwait
  obtain ⟨text, hshows, htailed⟩ := hshown err rfl
  exact ⟨hfile', text, l.2.1, hshows, htailed⟩

end LogGivesUp

/-- What was read of a file with these two parts. -/
theorem Tailed.split {text : String} {s : LogState} (h : Tailed rt text s)
    (hfile : s.file = old ++ s.own) :
    (s.tail = none → text = "<log unavailable>") ∧
      ∀ bytes, s.tail = some bytes →
        text = rt.decodeReplace bytes ∧
        bytes = old.rtake (4096 - s.own.length) ++ s.own.rtake 4096 ∧
        (bytes = s.own.rtake 4096 ↔ old = [] ∨ 4096 ≤ s.own.length) := by
  rcases h with ⟨hnone, htext⟩ | ⟨-, hsome, htext⟩
  · refine ⟨fun _ => htext, fun bytes hbytes => ?_⟩
    rw [hnone] at hbytes
    cases hbytes
  · refine ⟨fun hnone => ?_, fun bytes hbytes => ?_⟩
    · rw [hnone] at hsome
      cases hsome
    · rw [hsome] at hbytes
      obtain rfl := Option.some.inj hbytes
      refine ⟨htext, ?_, ?_⟩
      · rw [hfile, rtake_append]
      · rw [hfile, rtake_append_eq_iff]

/-- **The tail of the log.** In every execution of a constructor that raises a `ConduitError`,
either the launch has raised it, or the wait has and the teardown has returned after it. The
file is then the earlier content and the output of the subprocess after it; the error of the
wait shows the end of both, which is the end of the subprocess's own output exactly when the
file was empty before or that output is not shorter than what is shown. -/
theorem logTail_iff {s₀ : LogState} (h₀ : s₀.Before) :
    (∀ err s', Ends genuineLog (LocalConduit.init rt stateDir version binary timeout n) s₀
        (.error (.conduit err)) s' →
      Ends genuineLog (LocalConduit.launch stateDir version binary) s₀
          (.error (.conduit err)) s' ∨
        ∃ s, LogGivesUp rt stateDir version binary timeout n s₀ err s ∧
          Ends genuineLog LocalConduit.terminate s (.ok ()) s') ∧
    ∀ err s, LogGivesUp rt stateDir version binary timeout n s₀ err s →
      s.file = s₀.file ++ s.own ∧
        ∃ text port, Shows rt (address port) timeout text err ∧
          (s.tail = none → text = "<log unavailable>") ∧
          ∀ bytes, s.tail = some bytes →
            text = rt.decodeReplace bytes ∧
            bytes = s₀.file.rtake (4096 - s.own.length) ++ s.own.rtake 4096 ∧
            (bytes = s.own.rtake 4096 ↔ s₀.file = [] ∨ 4096 ≤ s.own.length) := by
  constructor
  · intro err s' h
    refine (init_conduit_error (fun s e s' hterm => ?_) h).imp_right ?_
    · -- nothing of the teardown concerns the log
      exact (terminate_foreign.ends trivial trivial (ends_host hterm)).2
    · rintro ⟨l, s₁, s, hlaunch, hwait, hterm⟩
      exact ⟨s, ⟨l, s₁, hlaunch, hwait⟩, hterm⟩
  · intro err s h
    obtain ⟨hfile, text, port, hshows, htailed⟩ := h.reported h₀
    exact ⟨hfile, text, port, hshows, htailed.split hfile⟩

/-! ### A subprocess that exits at once -/

/-- The answers of a host without surprises, whose log can be read. -/
def LogState.handle (s : LogState) : (o : HostOp) → HostAns o × LogState
  | .openLogForReading => (.ok (), { s with reading := true })
  | .logSize => (.ok s.file.length, s)
  | .readLogFrom offset =>
    (.ok (s.file.drop offset), { s with tail := some (s.file.drop offset) })
  | o =>
    ((obedient.handle s.host o).1,
      { s with host := (obedient.handle s.host o).2, reading := false })

/-- What the host does beside is done on a host with a log. -/
theorem LogState.drifts (s : LogState) {h : HostState}
    (hd : Relation.ReflTransGen HostState.Drift s.host h) :
    Relation.ReflTransGen genuineLog.drift s { s with host := h } := by
  refine hd.lift (fun h => { s with host := h }) fun h h' hstep => ?_
  exact ⟨.host (s := { s with host := h }) hstep, trivial⟩

/-- These are answers of the world, after some drifting. -/
theorem LogState.handle_answer (s : LogState) (o : HostOp) :
    ∃ s₁, Relation.ReflTransGen genuineLog.drift s s₁ ∧
      genuineLog.answer () s₁ o (s.handle o).1 (s.handle o).2 := by
  obtain ⟨⟨h, hpath, ha⟩, -⟩ := obedient.handle_answer rfl obedient.closed_true s.host o trivial
  have hd := s.drifts (Relation.ReflTransGen.mono (fun _ _ hd => hd.1) _ _ hpath)
  have hgen := obedient.handle_genuine s.host o
  cases o with
  | openLogForReading =>
    exact ⟨s, .refl, ⟨s.host, rfl, trivial, rfl⟩, fun _ he => by cases he⟩
  | logSize => exact ⟨s, .refl, ⟨s.host, rfl, rfl, rfl⟩, fun _ he => by cases he⟩
  | readLogFrom offset => exact ⟨s, .refl, ⟨s.host, rfl, rfl, rfl⟩, fun _ he => by cases he⟩
  | _ => exact ⟨_, hd, ⟨_, ha, trivial, rfl⟩, hgen⟩

/-- A run on such a host is a run in the world. -/
theorem LogState.ends {α : Type} (p : HostM α) (s : LogState) :
    Ends genuineLog p s (p.eval LogState.handle s).1 (p.eval LogState.handle s).2 :=
  (Lawful.of_invariant (T := fun _ => True) (fun s o _ => ⟨s.handle_answer o, trivial⟩) p
    trivial).ends

/-- The launch does the same on a host with a log. -/
theorem launch_ends_log {s : LogState} (hstill : s.reading = false) {h : HostState}
    {r : Except Exn (String × ℕ × ℕ)}
    (hl : Ends genuineWorld (LocalConduit.launch stateDir version binary) s.host r h) :
    Ends genuineLog (LocalConduit.launch stateDir version binary) s r { s with host := h } := by
  refine Ends.map (W := genuineWorld) (f := fun h => { s with host := h }) ?_ ?_
    (only_launch stateDir version binary) hl
  · rintro h h' ⟨hd, -⟩
    exact ⟨.host hd, trivial⟩
  · rintro h o a h' ho ⟨ha, hgen⟩
    -- none of its operations reads the log
    have hafter : LogState.after { s with host := h } o a = { s with host := h } ∧
        LogState.Reads { s with host := h } o a := by
      cases o with
      | openLogForReading | logSize | readLogFrom => exact ho.elim
      | _ => exact ⟨by simp only [LogState.after, hstill], trivial⟩
    exact ⟨⟨h', ha, hafter.2, by rw [hafter.1]⟩, hgen⟩

/-- A host that has read its log after the exit of the subprocess. -/
def LogState.gaveUp (s : LogState) (addr : String) : LogState :=
  { s with
    host := { (s.host.log (.seen s.host.engine.exitCode)).log .channelClosed with
      target := some addr, channelOpen := false, connected := none }
    reading := true
    tail := some (s.file.rtake 4096) }

/-- The wait for a subprocess that has exited reads the log and raises. -/
theorem eval_waitReady_exited (rt : Runtime) (addr : String) (ht : 0 < timeout) (n : ℕ)
    {s : LogState} {code : Int} (hexited : s.host.engine = .exited code) :
    (LocalConduit.waitReady rt addr timeout (n + 1)).eval LogState.handle s =
      (.error (.conduit (LocalConduit.crashedError code (rt.decodeReplace (s.file.rtake 4096)))),
        s.gaveUp addr) := by
  -- the clock stands still, so the deadline has not passed
  have hbefore : (LogState.handle (LogState.handle (LogState.handle s .monotonic).2
      (.openChannel addr)).2 .monotonic).1 < (LogState.handle s .monotonic).1 + timeout :=
    lt_add_of_pos_right s.host.clock ht
  have hseen : (LogState.handle (LogState.handle (LogState.handle (LogState.handle s
      .monotonic).2 (.openChannel addr)).2 .monotonic).2 .poll).1 = some code :=
    congrArg Engine.exitCode hexited
  unfold LocalConduit.waitReady LocalConduit.probeLoop
  rw [Prog.eval_perform_bind, Prog.eval_perform_bind, Prog.eval_perform_bind, if_pos hbefore,
    Prog.eval_perform_bind, hseen]
  rfl

/-- A host on which nothing runs, with a log of earlier runs. -/
def usedHost (old : Bytes) : LogState := { host := idleHost, file := old }

theorem usedHost_before (old : Bytes) : (usedHost old).Before := ⟨idleHost_before, rfl, rfl, rfl⟩

/-- The subprocess has written `own`, and exited. -/
def crashedHost (old own : Bytes) : LogState :=
  { host := launchedHost.exit 1, file := old ++ own, own := own }

/-- Whatever was there, and whatever the subprocess writes before it exits: the constructor
gives it up. -/
theorem givesUp_crashed (old own : Bytes) :
    LogGivesUp plainRuntime "state" none (some "conduit") 30 1 (usedHost old)
      (LocalConduit.crashedError 1 (plainRuntime.decodeReplace ((old ++ own).rtake 4096)))
      ((crashedHost old own).gaveUp (address 40000)) := by
  have hrunning : launchedHost.engine = .running := by decide +kernel
  have hlaunch := launch_ends_log (s := usedHost old) rfl launchedHost_ends
  -- after the launch the subprocess writes, and exits
  have hwrites : genuineLog.drift { usedHost old with host := launchedHost }
      { host := launchedHost, file := old ++ own, own := own } :=
    ⟨.writes hrunning rfl, trivial⟩
  have hexits : genuineLog.drift { host := launchedHost, file := old ++ own, own := own }
      (crashedHost old own) := ⟨.host (.engineExits hrunning), trivial⟩
  have hwait := LogState.ends (LocalConduit.waitReady plainRuntime (address 40000) 30 1)
    (crashedHost old own)
  rw [eval_waitReady_exited plainRuntime (address 40000) (by decide) 0 rfl] at hwait
  exact ⟨_, _, hlaunch.drifts (.tail (.single hwrites) hexits), hwait⟩

/-- What a subprocess writes that panics. -/
def panicOutput : Bytes := [112, 97, 110, 105, 99]

/-- In a new directory, the error shows what the subprocess has written. -/
theorem logTail_new :
    ∃ s, LogGivesUp plainRuntime "state" none (some "conduit") 30 1 (usedHost [])
        (LocalConduit.crashedError 1 "panic") s ∧
      s.own = panicOutput ∧ s.tail = some (s.own.rtake 4096) := by
  have hgives := givesUp_crashed [] panicOutput
  obtain ⟨-, text, port, -, -, hread⟩ := (logTail_iff (usedHost_before [])).2 _ _ hgives
  obtain ⟨-, -, hiff⟩ := hread _ rfl
  exact ⟨_, hgives, rfl, congrArg some (hiff.mpr (Or.inl rfl))⟩

/-- In a directory with a log, a subprocess that exits without a word: the constructor shows
what another one has written. -/
theorem earlier_output_reported :
    ∃ s s', LogGivesUp plainRuntime "state" none (some "conduit") 30 1 (usedHost panicOutput)
        (LocalConduit.crashedError 1 "panic") s ∧
      Ends genuineLog (LocalConduit.init plainRuntime "state" none (some "conduit") 30 1)
        (usedHost panicOutput) (.error (.conduit (LocalConduit.crashedError 1 "panic"))) s' ∧
      s.own = [] ∧ s.tail = some panicOutput ∧
      plainRuntime.decodeReplace (s.own.rtake 4096) ≠ "panic" := by
  obtain ⟨l, s₁, hlaunch, hwait⟩ := givesUp_crashed panicOutput []
  -- the teardown finds the subprocess exited, and returns
  have hterm := LogState.ends LocalConduit.terminate
    ((crashedHost panicOutput []).gaveUp (address 40000))
  have hok : (LocalConduit.terminate.eval LogState.handle
      ((crashedHost panicOutput []).gaveUp (address 40000))).1 = .ok () := by
    decide +kernel
  rw [hok] at hterm
  exact ⟨_, _, ⟨l, s₁, hlaunch, hwait⟩,
    init_error_iff.mpr (Or.inr ⟨l, s₁, _, _, hlaunch, hwait, Or.inr ⟨rfl, hterm⟩⟩), rfl, rfl,
    by decide⟩

end Conduit
