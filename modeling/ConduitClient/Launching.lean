import ConduitClient.CacheSafety
import ConduitClient.Desktop
import ConduitClient.Release
import ConduitClient.Submission

/-!
# Many calls of `local()`

Any number of `local()` calls share a user cache directory, each with its own arguments on
its own POSIX host. `Locals.Inv` relates what the calls have asked of their hosts to the disk: each
call follows its script, a call that was given a binary downloads nothing, and where no binary
was given the subprocess is started from a file that was verified.

The provisioning inside a call is verified in the world of provisioning
(`Fleet.ensureBinary_keeps`). `Contract.View` carries that proof into this world; it sees the
disk, and `Keeps.frame` keeps what the call has asked for.
-/

namespace Conduit

open Effect Py

/-- Any number of `local()` calls that share a user cache directory. Their hosts are POSIX ones, and
it is an absolute path there. -/
structure Locals (ι : Type) extends Fleet ι where
  posix : ∀ i, (host i).flavour = .posix
  absolute : ∀ i, ∃ parts, (host i).userCacheDir = PurePath.rooted parts ∧
    ∀ c ∈ parts, Plain .posix c
  stateDir : ι → Option String
  binary : ι → Option String
  startupTimeout : ι → ℚ
  /-- How far each wait for an engine is followed. -/
  iterations : ι → ℕ

/-- An operation of the host that shows nothing and is no program itself. -/
def HostOp.Quiet : HostOp → Prop
  | .ensureBinary _ | .spawn _ | .openChannel _ => False
  | _ => True

namespace Locals

variable {ι : Type} (L : Locals ι)

/-- The program of call `i`. -/
def program (i : ι) : DesktopM (Option LocalConduit) :=
  «local» L.tools (L.host i) (L.stateDir i) (L.version i) (L.binary i) (L.startupTimeout i)
    (L.iterations i)

/-- The path that call `i` starts its subprocess from. -/
def path (i : ι) : String :=
  (L.binary i).elim ((L.target i).text (L.host i).flavour) pathText

/-- The state directory of call `i`. -/
def StateDir (i : ι) (dir : String) : Prop :=
  match L.stateDir i with
  | some d => dir = pathText d
  | none => ∃ cwd, dir = defaultStateDir cwd

/-- A call that was given no state directory says which one it takes. -/
def warning (i : ι) (dir : String) : List Act :=
  if (L.stateDir i).isNone then [.warned (stateDirWarning dir)] else []

/-- What call `i` asks for in front of the constructor. -/
def opening (i : ι) (dir : String) : List Act :=
  L.warning i dir ++ [.madeDir dir, .printed (banner (L.resolved i) dir)]

/-- All that call `i` asks for, in order. The client is connected to the address that the
engine was told to serve. -/
def script (i : ι) (dir : String) (grpcPort httpPort : ℕ) (program : Option Node) : List Act :=
  L.opening i dir ++
    [.spawned (LocalConduit.engineArgs (L.path i) dir grpcPort httpPort) program,
      .dialled (address grpcPort)]

/-- What call `i` has asked for so far is a part of its script. -/
def OnScript (i : ι) (acts : List Act) : Prop :=
  ∃ dir grpcPort httpPort program, L.StateDir i dir ∧
    acts <+: L.script i dir grpcPort httpPort program

/-- What is started is an executable file, whose bytes were verified by a call that provisions
to the same place. -/
def Genuine (downloads : List (Download ι)) (i : ι) (program : Option Node) : Prop :=
  ∃ bytes mode k, program = some (.file bytes mode) ∧ mode.testBit 6 = true ∧
    L.targetLoc k = L.targetLoc i ∧ L.Verified downloads k bytes

variable [DecidableEq ι]

/-- What holds between two operations of the calls. -/
structure Inv (L : Locals ι) (s : Desk ι) : Prop where
  disk : L.toFleet.Inv s.disk
  script : ∀ i, L.OnScript i (s.own i)
  genuine : ∀ i args program, (i, .spawned args program) ∈ s.acts → L.binary i = none →
    L.Genuine s.disk.downloads i program
  offline : ∀ x ∈ s.disk.downloads, L.binary x.run = none

/-- What call `i` may count on while it is not running. -/
structure Rely (i : ι) (s s' : Desk ι) : Prop where
  disk : L.toFleet.Rely i s.disk s'.disk
  acts : Fleet.OthersAdd Prod.fst i s.acts s'.acts

/-- What every operation of call `i` respects. -/
structure Guar (i : ι) (s s' : Desk ι) : Prop where
  disk : L.Move i s.disk s'.disk ∨ Disk.Drift L.bin s.disk s'.disk
  acts : s'.acts = s.acts ∨ ∃ act, s'.acts = s.acts ++ [(i, act)]

variable {L} {i : ι}

/-! ### The record of a call -/

theorem own_log (s : Desk ι) (i j : ι) (act : Act) :
    (s.log i act).own j = s.own j ++ if i = j then [act] else [] := by
  by_cases h : i = j <;> simp [Desk.own, Desk.log, List.filter_append, h]

theorem own_congr {s s' : Desk ι} (h : s'.acts = s.acts) (i : ι) : s'.own i = s.own i := by
  rw [Desk.own, Desk.own, h]

/-- What the others ask for is not in the record of call `i`. -/
theorem own_of_othersAdd {s s' : Desk ι} (h : Fleet.OthersAdd Prod.fst i s.acts s'.acts) :
    s'.own i = s.own i := by
  obtain ⟨rest, hrest, hothers⟩ := h
  -- nothing of what was added survives the filter
  have hnone : rest.filter (fun x => decide (x.1 = i)) = [] := by
    rw [List.filter_eq_nil_iff]
    intro x hx
    simpa using hothers x hx
  rw [Desk.own, Desk.own, hrest, List.filter_append, hnone, List.append_nil]

/-! ### The contract -/

omit [DecidableEq ι] in
/-- A run of provisioning only adds to the downloads, and only its own. -/
theorem move_downloads {s s' : Disk ι} (h : L.Move i s s') :
    s'.downloads = s.downloads ∨ ∃ url body, s'.downloads = s.downloads ++ [⟨i, url, body⟩] := by
  cases h with
  | download url body => exact Or.inr ⟨url, body, rfl⟩
  | _ => exact Or.inl rfl

omit [DecidableEq ι] in
/-- What was verified stays so. -/
theorem Genuine.mono {downloads downloads' : List (Download ι)} {program : Option Node}
    (h : L.Genuine downloads i program) (hp : downloads <+: downloads') :
    L.Genuine downloads' i program := by
  obtain ⟨bytes, mode, k, hprogram, hmode, hk, hver⟩ := h
  exact ⟨bytes, mode, k, hprogram, hmode, hk, Evidence.mono hver hp⟩

/-- The invariant, when only the disk has changed. -/
theorem Inv.of_disk {s s' : Desk ι} (h : L.Inv s) (hdisk : L.toFleet.Inv s'.disk)
    (hacts : s'.acts = s.acts) (hdown : s.disk.downloads <+: s'.disk.downloads)
    (hoffline : ∀ x ∈ s'.disk.downloads, L.binary x.run = none) : L.Inv s' where
  disk := hdisk
  script j := by
    rw [own_congr hacts]
    exact h.script j
  genuine j args program hmem hb := by
    rw [hacts] at hmem
    exact (h.genuine j args program hmem hb).mono hdown
  offline := hoffline

/-- The rest of the system keeps the invariant: it asks for nothing and downloads nothing. -/
theorem Inv.drift (hF : L.Confined) {s s' : Desk ι} (h : L.Inv s)
    (hd : Disk.Drift L.bin s.disk s'.disk) (hacts : s'.acts = s.acts) : L.Inv s' := by
  refine h.of_disk (Fleet.inv_of_drift hF hd h.disk) hacts ?_ ?_
  · rw [hd.downloads]
  · rw [hd.downloads]
    exact h.offline

/-- The terms on which the calls run together. -/
def contract (hF : L.Confined) : Contract (desktopWorld L.names L.bin) where
  inv := L.Inv
  rely := L.Rely
  guar := L.Guar
  rely_refl i s := ⟨.refl i s.disk, .refl⟩
  rely_trans h h' := ⟨h.disk.trans h'.disk, h.acts.trans h'.acts⟩
  compat {i j s s'} hij h _ hg := by
    refine ⟨?_, ?_⟩
    -- on the disk, what one call does is what the others of a fleet may rely on
    · rcases hg.disk with hm | hd
      · exact hm.rely hij h.disk
      · exact Fleet.rely_of_drift hF j hd h.disk
    -- and whatever it asks for stands under its own name
    · rcases hg.acts with hacts | ⟨act, hacts⟩
      · rw [hacts]
        exact .refl
      · rw [hacts]
        exact .append hij
  drift_inv h hd := h.drift hF hd.1 hd.2
  drift_rely {i s s'} h hd := by
    refine ⟨Fleet.rely_of_drift hF i hd.1 h.disk, ?_⟩
    rw [hd.2]
    exact .refl

variable (hF : L.Confined)

/-- Call `i` has asked for `acts` so far, and the disk is as `P` says. -/
def At (i : ι) (acts : List Act) (P : Disk ι → Prop) (s : Desk ι) : Prop :=
  s.own i = acts ∧ P s.disk

variable {acts : List Act} {P : Disk ι → Prop}

theorem stable_own : (contract hF).Stable i fun s => s.own i = acts := by
  intro s s' _ _ hr h
  rw [own_of_othersAdd hr.acts, h]

theorem stable_disk (hP : (Fleet.contract hF).Stable i P) :
    (contract hF).Stable i fun s => P s.disk :=
  fun _ _ hI hI' hr h => hP hI.disk hI'.disk hr.disk h

theorem stable_at (hP : (Fleet.contract hF).Stable i P) :
    (contract hF).Stable i (At i acts P) :=
  (stable_own hF).and (stable_disk hF hP)

/-! ### What a call asks for itself -/

/-- The invariant, when call `i` has asked for something and the disk is as before, or some of
the rest of the system has changed it. -/
theorem Inv.log (hF : L.Confined) {s s' : Desk ι} (h : L.Inv s) {act : Act}
    (hdisk : s'.disk = s.disk ∨ Disk.Drift L.bin s.disk s'.disk)
    (hacts : s'.acts = s.acts ++ [(i, act)]) (hscript : L.OnScript i (s.own i ++ [act]))
    (hgenuine : ∀ args program, act = .spawned args program → L.binary i = none →
      L.Genuine s.disk.downloads i program) : L.Inv s' := by
  have hdown : s'.disk.downloads = s.disk.downloads := by
    rcases hdisk with he | hd
    · rw [he]
    · exact hd.downloads
  have hown (j : ι) : s'.own j = s.own j ++ if i = j then [act] else [] := by
    rw [← own_log]
    exact own_congr hacts j
  constructor
  · rcases hdisk with he | hd
    · rw [he]
      exact h.disk
    · exact Fleet.inv_of_drift hF hd h.disk
  · -- only the record of call `i` has grown
    intro j
    rw [hown]
    by_cases hj : i = j
    · subst hj
      rw [if_pos rfl]
      exact hscript
    · rw [if_neg hj, List.append_nil]
      exact h.script j
  · intro j args program hmem hb
    rw [hdown]
    rw [hacts, List.mem_append, List.mem_singleton] at hmem
    -- an earlier start was genuine then, and still is; the new one is by assumption
    rcases hmem with hmem | hmem
    · exact h.genuine j args program hmem hb
    · obtain ⟨rfl, rfl⟩ := Prod.mk.inj hmem
      exact hgenuine args program rfl hb
  · rw [hdown]
    exact h.offline

/-- An operation that shows `act`. -/
theorem act_triple {o : Desktop.Op} {act : Act} (hP : (Fleet.contract hF).Stable i P)
    (hscript : L.OnScript i (acts ++ [act]))
    (ho : ∀ s a s', Desk.answer (L.names i) L.bin i s o a s' →
      (s'.disk = s.disk ∨ Disk.Drift L.bin s.disk s'.disk) ∧ s'.acts = s.acts ++ [(i, act)])
    (hact : ∀ args program, act ≠ .spawned args program) :
    (contract hF).Triple i (At i acts P) (Prog.perform (S := Desktop) o : DesktopM _)
      (Contract.Returns fun _ => At i (acts ++ [act]) P) := by
  refine .perform (stable_at hF hP) (fun _ => stable_at hF hP) fun s a s' hI hs ha => ?_
  obtain ⟨hdisk, hacts⟩ := ho s a s' ha
  have hlog : L.OnScript i (s.own i ++ [act]) := by
    rw [hs.1]
    exact hscript
  have hI' : L.Inv s' := hI.log hF hdisk hacts hlog fun args program he => absurd he (hact _ _)
  refine ⟨hI', ⟨?_, Or.inr ⟨act, hacts⟩⟩, ?_, ?_⟩
  -- a state directory is made outside of the cache, which is a drift to the fleet
  · rcases hdisk with he | hd
    · rw [he]
      exact Or.inl .nothing
    · exact Or.inr hd
  · have hown : s'.own i = (s.log i act).own i := own_congr hacts i
    rw [hown, own_log, if_pos rfl, hs.1]
  · rcases hdisk with he | hd
    · rw [he]
      exact hs.2
    · exact hP hI.disk hI'.disk (Fleet.rely_of_drift hF i hd hI.disk) hs.2

/-- An operation that leaves everything as it is. -/
theorem silent_triple {o : Desktop.Op} (hP : (Fleet.contract hF).Stable i P)
    (ho : ∀ s a s', Desk.answer (L.names i) L.bin i s o a s' → s' = s) :
    (contract hF).Triple i (At i acts P) (Prog.perform (S := Desktop) o : DesktopM _)
      (Contract.Returns fun _ => At i acts P) := by
  refine .perform (stable_at hF hP) (fun _ => stable_at hF hP) fun s a s' hI hs ha => ?_
  obtain rfl := ho s a s' ha
  exact ⟨hI, ⟨Or.inl .nothing, Or.inl rfl⟩, hs⟩

/-- An operation of the shell, as a statement that may raise. -/
theorem shell_triple {α : Type} {p : DesktopM (Except Exn α)} {P' Q' : Desk ι → Prop}
    (hQ : (contract hF).Stable i Q')
    (hp : (contract hF).Triple i P' p (Contract.Returns fun _ => Q')) :
    (contract hF).Triple i P' (shell p) (Contract.Yields fun _ => Q') :=
  .orRaise (.yields fun _ => hQ)
    (hp.conseq (fun _ _ hs => hs) fun r s _ hq => by
      cases r with
      | ok r =>
        cases r with
        | ok a => exact hq
        | error e => trivial
      | error e => exact hq.elim)

/-! ### What the constructor asks for -/

/-- A program that shows nothing. -/
theorem quiet_triple {α : Type} {p : HostM α} (hp : p.Only HostOp.Quiet)
    (hP : (Fleet.contract hF).Stable i P) :
    (contract hF).Triple i (At i acts P) (p.interpret (expand L.tools (L.host i)))
      fun _ => At i acts P := by
  -- on the program: each of its operations is one of the desktop, and shows nothing
  induction p with
  | done r => exact .done (stable_at hF hP) fun _ _ hs => hs
  | op o k ih =>
    obtain ⟨ho, hk⟩ := hp
    -- only `ensure_binary` is expanded, and it is not quiet
    have hstep : (Prog.op o k : HostM α).interpret (expand L.tools (L.host i)) =
        .op (.inl (.inl o)) fun a => (k a).interpret (expand L.tools (L.host i)) := by
      cases o <;> first | exact ho.elim | rfl
    have hshown (s : Desk ι) : s.shown (L.names i) o = none := by
      cases o <;> first | exact ho.elim | rfl
    rw [hstep]
    refine .op (stable_at hF hP) (fun s a s' hI hs ha => ?_) fun a => ih a (hk a)
    have hs' : s' = s := by
      have he : s' = s.host (L.names i) i o := ha
      rw [he, Desk.host, hshown]
      rfl
    subst hs'
    exact ⟨hI, ⟨Or.inl .nothing, Or.inl rfl⟩, hs⟩

/-- The world of provisioning is the disk. -/
def diskView (i : ι) : Contract.View (Fleet.contract hF) (contract hF) i where
  view := Desk.disk
  inv h := h.disk
  rely _ _ h := h.disk

/-- A step of provisioning is the same step on the disk of the desktop, if the call was given no
binary. -/
theorem provisionStep_implements (hb : L.binary i = none) (o : ProvisionOp) :
    Contract.Implements (diskView hF i) o (provisionStep o) := by
  refine .one (diskView hF i) (fun a : Desktop.Ans (.inl (.inr o)) => a)
    fun s a s' hI ha => ?_
  obtain ⟨hdisk, hacts⟩ : Disk.answer (L.names i) i s.disk o a s'.disk ∧ s'.acts = s.acts := ha
  refine ⟨hdisk, fun hI' (hm : L.Move i s.disk s'.disk) => ⟨?_, Or.inl hm, Or.inl hacts⟩⟩
  rcases move_downloads hm with he | ⟨url, body, he⟩
  · refine hI.of_disk hI' hacts (by rw [he]) ?_
    rw [he]
    exact hI.offline
  · -- a download of this call, which was given no binary
    refine hI.of_disk hI' hacts (by rw [he]; exact List.prefix_append _ _) fun x hx => ?_
    rw [he, List.mem_append, List.mem_singleton] at hx
    rcases hx with hx | rfl
    · exact hI.offline x hx
    · exact hb

omit [DecidableEq ι] in
/-- Provisioning consists of such steps. -/
theorem only_provisionStep {α : Type} (p : ProvisionM α) :
    (p.interpret provisionStep : DesktopM α).Only fun o : Desktop.Op =>
      ∃ step, o = .inl (.inr step) :=
  (Prog.only_true p).interpret provisionStep fun o _ => ⟨⟨o, rfl⟩, fun _ => trivial⟩

/-- The cached binary is there, when the call was given none. -/
def Installed (L : Locals ι) (i : ι) (d : Disk ι) : Prop := L.binary i = none → L.Present i d

omit [DecidableEq ι] in
/-- No other call takes an installed binary away. -/
theorem stable_installed : (Fleet.contract hF).Stable i (L.Installed i) :=
  fun _ _ hI hI' hr h hb => Fleet.stable_present hF i hI hI' hr (h hb)

/-- `ensure_binary` inside a call: what is proved of it in the world of provisioning holds here. -/
theorem ensureBinary_triple (hb : L.binary i = none) :
    (contract hF).Triple i (At i acts (Fleet.Untouched i))
      ((perform (.ensureBinary (L.version i))).interpret (expand L.tools (L.host i)))
      (Contract.Returns fun r s => ∀ path, r = .ok path →
        path = L.path i ∧ At i acts (L.Installed i) s) := by
  have hrun := Contract.Triple.interpret (diskView hF i) (provisionStep_implements hF hb)
    (Fleet.ensureBinary_keeps hF i)
  have hown : (contract hF).Stable i fun s => s.own i = acts := stable_own hF
  -- the proof from there says nothing of the record, which no step of provisioning adds to
  have hframe := hrun.frame (only_provisionStep _) hown
    fun s o a s' ho _ ha hs => by
      obtain ⟨step, rfl⟩ := ho
      rw [own_congr ha.2, hs]
  have hpost (r : Except Exn PurePath) : (contract hF).Stable i fun s =>
      (Fleet.Done L.toFleet i r s.disk) ∧ s.own i = acts := by
    refine .and (stable_disk hF ?_) (stable_own hF)
    cases r with
    | ok p => exact (Contract.Stable.const _).and (Fleet.stable_present hF i)
    | error e => exact (Fleet.stable_untouched hF i).or (Fleet.stable_clobbered hF i)
  show (contract hF).Triple i _ (((_ : DesktopM PurePath).handle _).handle _) _
  -- the outcome becomes an answer, and the path its text
  rw [Prog.handle_handle]
  refine (hframe.pre fun s hs => ⟨hs.2, hs.1⟩).handle fun r => ?_
  refine .done (hpost r) fun s _ hs path hpath => ?_
  cases r with
  | error e => cases hpath
  | ok p =>
    obtain ⟨⟨rfl, hpresent⟩, hown⟩ := hs
    refine ⟨?_, hown, fun _ => hpresent⟩
    rw [Locals.path, hb]
    exact (Except.ok.inj hpath).symm

/-- `self.binary_path`, whichever way it is found. -/
theorem binaryPathOf_triple :
    (contract hF).Triple i (At i acts (Fleet.Untouched i))
      ((LocalConduit.binaryPathOf (L.version i) ((L.binary i).map pathText)).interpret
        (expand L.tools (L.host i)))
      (Contract.Yields fun path s => path = L.path i ∧ At i acts (L.Installed i) s) := by
  have hstable (path : String) : (contract hF).Stable i fun s =>
      path = L.path i ∧ At i acts (L.Installed i) s :=
    (Contract.Stable.const _).and (stable_at hF (stable_installed hF))
  cases hb : L.binary i with
  | some binary =>
    -- a given binary is taken as it is, and `Installed` asks for nothing
    refine .yield (stable_at hF (Fleet.stable_untouched hF i)) fun s hs => ?_
    refine ⟨?_, hs.1, fun hnone => ?_⟩
    · rw [Locals.path, hb]
      rfl
    · rw [hb] at hnone
      cases hnone
  | none =>
    show (contract hF).Triple i _ ((performOrRaise _).interpret _) _
    rw [performOrRaise, Prog.interpret_bind]
    refine Contract.Triple.bind_returns (ensureBinary_triple hF hb) fun r => ?_
    have hdone : (contract hF).Stable i fun s =>
        ∀ path, r = .ok path → path = L.path i ∧ At i acts (L.Installed i) s :=
      fun _ _ hI hI' hr h path hpath => hstable path hI hI' hr (h path hpath)
    exact .ofExcept hdone fun path s hr hs => hs path hr

omit [DecidableEq ι] in
/-- The text of the cached path leads where the path does. -/
theorem programAt_target (hs : L.Simple) (fs : Loc → Option Node) :
    programAt (L.names i) fs ((L.target i).text (L.host i).flavour) =
      lookup (L.names i) fs (L.target i) := by
  obtain ⟨parts, hcache, hparts⟩ := L.absolute i
  have hbin : Plain (L.host i).flavour "bin" := by
    rw [L.posix i]
    decide
  have htarget : L.target i =
      PurePath.rooted (parts ++ ["bin"] ++ [L.resolved i] ++ [binaryName (L.host i)]) := by
    rw [Fleet.target_eq, Fleet.dir_eq hs, binPath, hcache, PurePath.join_plain hbin,
      PurePath.rooted_child, PurePath.rooted_child, PurePath.rooted_child]
  -- all of its parts are plain names
  have hplain : ∀ c ∈ parts ++ ["bin"] ++ [L.resolved i] ++ [binaryName (L.host i)],
      Plain .posix c := by
    have hversion : Plain .posix (L.resolved i) := L.posix i ▸ hs.plain i
    intro c hc
    simp only [List.mem_append, List.mem_singleton] at hc
    rcases hc with ((hc | rfl) | rfl) | rfl
    · exact hparts c hc
    · decide
    · exact hversion
    · exact Fleet.binaryName_plain _ _
  rw [L.posix i, htarget, programAt, if_pos (PurePath.head_text _), PurePath.parse_text hplain]

/-- The subprocess is started, from the file that lies at its path. -/
theorem spawn_triple (hs : L.Simple) {dir : String} (hdir : L.StateDir i dir)
    (grpcPort httpPort : ℕ) :
    (contract hF).Triple i (At i (L.opening i dir) (L.Installed i))
      ((performOrRaise (perform (.spawn
        (LocalConduit.engineArgs (L.path i) dir grpcPort httpPort)))).interpret
          (expand L.tools (L.host i)))
      (Contract.Yields fun _ s => ∃ program, At i (L.opening i dir ++
        [.spawned (LocalConduit.engineArgs (L.path i) dir grpcPort httpPort) program])
          (L.Installed i) s) := by
  have hpost : (contract hF).Stable i fun s => ∃ program, At i (L.opening i dir ++
      [.spawned (LocalConduit.engineArgs (L.path i) dir grpcPort httpPort) program])
        (L.Installed i) s :=
    .exists fun _ => stable_at hF (stable_installed hF)
  rw [performOrRaise, Prog.interpret_bind]
  refine Contract.Triple.bind_returns (M := fun _ s => ∃ program, At i (L.opening i dir ++
    [.spawned (LocalConduit.engineArgs (L.path i) dir grpcPort httpPort) program])
      (L.Installed i) s) ?_ fun r => .ofExcept hpost fun _ _ _ h => h
  refine .op (stable_at hF (stable_installed hF)) (fun s a s' hI hat ha => ?_)
    fun a => .done hpost fun _ _ h => h
  -- the host looks the program up in the state in which it starts it
  have hs' : s' = s.log i (.spawned (LocalConduit.engineArgs (L.path i) dir grpcPort httpPort)
      (programAt (L.names i) s.disk.fs (L.path i))) := ha
  subst hs'
  refine ⟨?_, ⟨Or.inl .nothing, Or.inr ⟨_, rfl⟩⟩, programAt (L.names i) s.disk.fs (L.path i), ?_,
    hat.2⟩
  · refine hI.log hF (Or.inl rfl) rfl ?_ fun args program he hb => ?_
    · -- all of the script but its end
      rw [hat.1]
      refine ⟨dir, grpcPort, httpPort, programAt (L.names i) s.disk.fs (L.path i), hdir, ?_⟩
      rw [script]
      exact ⟨[.dialled (address grpcPort)], by rw [List.append_assoc]; rfl⟩
    · -- what the call has installed is still there, and it was verified
      obtain ⟨-, rfl⟩ := Act.spawned.inj he
      have hthere := (Fleet.Inv.present_iff hI.disk i).mp (hat.2 hb)
      obtain ⟨bytes, mode, k, hfile, hmode, hk, hver⟩ := Fleet.Inv.verified hI.disk i hthere
      refine ⟨bytes, mode, k, ?_, hmode, hk, hver⟩
      have hpath : L.path i = (L.target i).text (L.host i).flavour := by
        rw [Locals.path, hb]
        rfl
      rw [hpath, programAt_target hs]
      exact (Fleet.lookup_target hs hI.disk i).trans hfile
  · rw [own_log, if_pos rfl, hat.1]

/-- The client is connected to the engine's address. -/
theorem dial_triple {dir : String} (hdir : L.StateDir i dir) (grpcPort httpPort : ℕ)
    (program : Option Node) :
    (contract hF).Triple i (At i (L.opening i dir ++
        [.spawned (LocalConduit.engineArgs (L.path i) dir grpcPort httpPort) program])
          (L.Installed i))
      ((perform (.openChannel (address grpcPort))).interpret (expand L.tools (L.host i)))
      (Contract.Returns fun _ =>
        At i (L.script i dir grpcPort httpPort program) (L.Installed i)) := by
  have hscript : L.script i dir grpcPort httpPort program = (L.opening i dir ++
      [.spawned (LocalConduit.engineArgs (L.path i) dir grpcPort httpPort) program]) ++
        [.dialled (address grpcPort)] := by
    rw [script, List.append_assoc]
    rfl
  rw [hscript]
  refine act_triple hF (o := .inl (.inl (.openChannel (address grpcPort))))
    (stable_installed hF) ?_ (fun s a s' ha => ?_) fun _ _ he => by cases he
  · exact ⟨dir, grpcPort, httpPort, program, hdir, by rw [hscript]⟩
  · have hs' : s' = s.log i (.dialled (address grpcPort)) := ha
    subst hs'
    exact ⟨Or.inl rfl, rfl⟩

/-! ### The whole call -/

/-- A program of the host that shows nothing, as a statement that may raise. -/
theorem quiet_yields {α : Type} {p : HostM α} (hp : p.Only HostOp.Quiet)
    (hP : (Fleet.contract hF).Stable i P) :
    (contract hF).Triple i (At i acts P) (p.interpret (expand L.tools (L.host i)))
      (Contract.Yields fun _ => At i acts P) :=
  (quiet_triple hF hp hP).conseq (fun _ _ hs => hs) fun r _ _ hs => by
    cases r with
    | ok a => exact hs
    | error e => trivial

/-- Whatever has happened so far, it keeps the contract. -/
theorem quiet_keeps {α : Type} {p : HostM α} (hp : p.Only HostOp.Quiet) :
    (contract hF).Triple i (fun _ => True) (p.interpret (expand L.tools (L.host i)))
      fun _ _ => True := by
  intro s hI _
  -- its record is the one it has in this state
  have hrun : (contract hF).Triple i (At i (s.own i) fun _ => True)
      (p.interpret (expand L.tools (L.host i))) fun _ => At i (s.own i) fun _ => True :=
    quiet_triple hF hp (Contract.Stable.const True)
  exact (hrun s hI ⟨rfl, trivial⟩).mono fun _ _ _ _ => trivial

/-- The loop of `_wait_ready` shows nothing: it neither starts a program nor dials again. -/
theorem quiet_probeLoop (rt : Runtime) (addr : String) (timeout deadline : ℚ) (n : ℕ)
    (last : Option ConduitError) :
    (LocalConduit.probeLoop rt addr timeout deadline n last).Only HostOp.Quiet := by
  have htail : (LocalConduit.logTail rt 4096).Only HostOp.Quiet :=
    only_logTail rt 4096 trivial trivial fun _ => trivial
  have hprobe : (LocalConduit.probe rt).Only HostOp.Quiet :=
    only_probe rt trivial (fun _ => trivial) trivial
  exact only_probeLoop rt addr timeout deadline trivial trivial trivial htail hprobe trivial n last

/-- Nor does the teardown. -/
theorem quiet_terminate : LocalConduit.terminate.Only HostOp.Quiet :=
  only_terminate.mono fun o ho => by
    cases o <;> trivial

/-- Nor does the choice of a port. -/
theorem quiet_freePort : freePort.Only HostOp.Quiet :=
  .bind (only_performOrRaise (.perform trivial)) fun _ => .bind (.perform trivial) fun _ => trivial

/-- The subprocess is waited for, and stopped where that fails. -/
theorem supervise_triple {dir : String} (hdir : L.StateDir i dir) (grpcPort httpPort : ℕ)
    (program : Option Node) (timeout : ℚ) (n : ℕ) :
    (contract hF).Triple i (At i (L.opening i dir ++
        [.spawned (LocalConduit.engineArgs (L.path i) dir grpcPort httpPort) program])
          (L.Installed i))
      ((LocalConduit.supervise L.tools.toRuntime (address grpcPort) timeout n).interpret
        (expand L.tools (L.host i)))
      (Contract.Yields fun _ =>
        At i (L.script i dir grpcPort httpPort program) (L.Installed i)) := by
  have hstable : (contract hF).Stable i
      (At i (L.script i dir grpcPort httpPort program) (L.Installed i)) :=
    stable_at hF (stable_installed hF)
  rw [LocalConduit.supervise, Prog.interpret_bind]
  refine .bind_yields (quiet_yields hF (.perform trivial) (stable_installed hF)) fun _ => ?_
  rw [Prog.interpret_bind]
  refine .bind_yields (quiet_yields hF (.perform trivial) (stable_installed hF)) fun _ => ?_
  rw [Prog.interpret_tryCatch]
  refine .tryCatch (Q := Contract.Yields fun _ =>
    At i (L.script i dir grpcPort httpPort program) (L.Installed i)) ?_
    (fun _ => .done hstable fun _ _ hs => hs) fun e => ?_
  · -- the wait dials first, and shows nothing from then on
    rw [LocalConduit.waitReady, Prog.interpret_bind]
    refine .bind_yields (quiet_yields hF (.perform trivial) (stable_installed hF)) fun now => ?_
    rw [Prog.interpret_bind]
    refine .bind_returns (dial_triple hF hdir grpcPort httpPort program) fun _ => ?_
    exact quiet_yields hF (quiet_probeLoop _ _ _ _ n none) (stable_installed hF)
  · -- the teardown shows nothing either, and the exception is raised again
    rw [Prog.interpret_bind]
    refine .bind_yields (M := fun _ _ => True) ?_ fun _ => .raise e
    exact (quiet_keeps hF quiet_terminate).conseq (fun _ _ _ => trivial) fun r _ _ _ => by
      cases r <;> trivial

/-- What is known when a call has returned: the engine is the one that was started. -/
def Made (L : Locals ι) (i : ι) (r : Option LocalConduit) (s : Desk ι) : Prop :=
  ∀ engine ∈ r, L.StateDir i engine.stateDir ∧ engine.binaryPath = L.path i ∧
    ∃ program, At i (L.script i engine.stateDir engine.grpcPort engine.httpPort program)
      (L.Installed i) s

/-- The constructor. -/
theorem init_triple (hs : L.Simple) {dir : String} (hdir : L.StateDir i dir) (timeout : ℚ)
    (n : ℕ) :
    (contract hF).Triple i (At i (L.opening i dir) (Fleet.Untouched i))
      ((LocalConduit.init L.tools.toRuntime dir (L.version i) ((L.binary i).map pathText)
        timeout n).interpret (expand L.tools (L.host i)))
      (Contract.Yields (L.Made i)) := by
  have hinstalled := stable_installed hF (i := i)
  -- the binary, the two ports, the log, the subprocess, the wait, in the order of `__init__`
  rw [LocalConduit.init, Prog.interpret_bind]
  refine .bind_yields (binaryPathOf_triple hF) fun path => .lift fun hpath => ?_
  rw [hpath, Prog.interpret_bind]
  refine .bind_yields (quiet_yields hF quiet_freePort hinstalled) fun grpcPort => ?_
  rw [Prog.interpret_bind]
  refine .bind_yields (quiet_yields hF quiet_freePort hinstalled) fun httpPort => ?_
  rw [Prog.interpret_bind]
  refine .bind_yields (quiet_yields hF (only_performOrRaise (.perform trivial)) hinstalled)
    fun _ => ?_
  rw [Prog.interpret_bind]
  refine .bind_yields (spawn_triple hF hs hdir grpcPort httpPort) fun _ => ?_
  refine .exists_elim fun program => ?_
  rw [Prog.interpret_bind]
  refine .bind_yields (supervise_triple hF hdir grpcPort httpPort program timeout n)
    fun client => ?_
  -- there is an engine only where the wait has returned a client
  refine .yield (stable_at hF hinstalled) fun s hat engine hengine => ?_
  cases client with
  | none => cases hengine
  | some client =>
    obtain rfl := Option.some.inj hengine
    exact ⟨hdir, rfl, program, hat⟩

/-- Finding the state directory asks for nothing that shows. -/
theorem resolvedStateDir_triple :
    (contract hF).Triple i (At i [] (Fleet.Untouched i)) (resolvedStateDir (L.stateDir i))
      (Contract.Yields fun dir s => L.StateDir i dir ∧ At i [] (Fleet.Untouched i) s) := by
  have huntouched : (contract hF).Stable i (At i [] (Fleet.Untouched i)) :=
    stable_at hF (Fleet.stable_untouched hF i)
  cases hd : L.stateDir i with
  | some dir =>
    refine .yield huntouched fun s hat => ⟨?_, hat⟩
    rw [StateDir, hd]
  | none =>
    refine .bind_yields (M := fun _ => At i [] (Fleet.Untouched i)) ?_ fun cwd => ?_
    · exact shell_triple hF huntouched
        (silent_triple hF (Fleet.stable_untouched hF i) fun _ _ _ h => h)
    · refine .yield huntouched fun s hat => ⟨?_, hat⟩
      rw [StateDir, hd]
      exact ⟨cwd, rfl⟩

/-- From the state directory on. -/
theorem engine_triple (hs : L.Simple) {dir : String} (hdir : L.StateDir i dir) (timeout : ℚ)
    (n : ℕ) :
    (contract hF).Triple i (At i (L.warning i dir) (Fleet.Untouched i))
      (do
        shell (Desktop.ask (.mkdir dir))
        shell (Desktop.ask (.print (banner (L.resolved i) dir)))
        (LocalConduit.init L.tools.toRuntime dir (L.version i) ((L.binary i).map pathText)
          timeout n).interpret (expand L.tools (L.host i)))
      (Contract.Yields (L.Made i)) := by
  have huntouched := Fleet.stable_untouched hF i
  -- the ports are not known yet, so any will do for a part of the opening
  have hscript (acts rest : List Act) (h : L.opening i dir = acts ++ rest) :
      L.OnScript i acts := by
    refine ⟨dir, 0, 0, none, hdir, ?_⟩
    rw [script, h, List.append_assoc]
    exact List.prefix_append _ _
  refine .bind_yields (M := fun _ => At i (L.warning i dir ++ [.madeDir dir])
    (Fleet.Untouched i)) ?_ fun _ => ?_
  · refine shell_triple hF (stable_at hF huntouched) (act_triple hF huntouched ?_ ?_ ?_)
    · exact hscript _ [.printed (banner (L.resolved i) dir)]
        (by rw [opening, List.append_assoc]; rfl)
    · exact fun s a s' ha => ha
    · exact fun _ _ he => by cases he
  refine .bind_yields (M := fun _ => At i (L.opening i dir) (Fleet.Untouched i)) ?_ fun _ => ?_
  · have hopening : L.opening i dir =
        (L.warning i dir ++ [.madeDir dir]) ++ [.printed (banner (L.resolved i) dir)] := by
      rw [opening, List.append_assoc]
      rfl
    rw [hopening]
    refine shell_triple hF (stable_at hF huntouched) (act_triple hF huntouched ?_ ?_ ?_)
    · exact hscript _ [] (by rw [← hopening, List.append_nil])
    · rintro s a s' rfl
      exact ⟨Or.inl rfl, rfl⟩
    · exact fun _ _ he => by cases he
  · exact init_triple hF hs hdir timeout n

/-- A whole call of `local()`. -/
theorem program_triple (hs : L.Simple) :
    (contract hF).Triple i (At i [] (Fleet.Untouched i)) (L.program i)
      (Contract.Yields (L.Made i)) := by
  have huntouched := Fleet.stable_untouched hF i
  rw [program, «local»]
  refine .bind_yields (resolvedStateDir_triple hF) fun dir => .lift fun hdir => ?_
  have hrest := engine_triple hF hs hdir (L.startupTimeout i) (L.iterations i)
  rw [warning] at hrest
  cases hd : L.stateDir i with
  | some given =>
    rw [hd] at hrest
    exact hrest
  | none =>
    rw [hd] at hrest
    -- the warning comes first
    refine .bind_yields (shell_triple hF (stable_at hF huntouched)
      (act_triple hF huntouched ?_ ?_ ?_)) fun _ => hrest
    · refine ⟨dir, 0, 0, none, hdir, ?_⟩
      rw [script, opening, warning, hd, List.append_assoc]
      exact List.prefix_append _ _
    · rintro s a s' rfl
      exact ⟨Or.inl rfl, rfl⟩
    · exact fun _ _ he => by cases he

/-! ### Whole runs -/

/-- The configurations of the calls. -/
abbrev Calls (ι : Type) := Config Desktop ι Exn (Option LocalConduit) (Desk ι)

/-- The calls are at their beginning, on a disk on which nothing is installed yet. -/
structure Begins (L : Locals ι) (c : Calls ι) : Prop where
  threads : ∀ i p, c.thread i = some p → p = L.program i
  disk : L.toFleet.Began ⟨fun _ => none, c.state.disk⟩
  acts : c.state.acts = []

/-- At the beginning the invariant holds: no call has asked for anything. -/
theorem Begins.inv {c : Calls ι} (h : L.Begins c) : L.Inv c.state where
  disk := Fleet.Began.inv h.disk
  script i := by
    obtain ⟨dir, hdir⟩ : ∃ dir, L.StateDir i dir := by
      cases hd : L.stateDir i with
      | some dir => exact ⟨pathText dir, by rw [StateDir, hd]⟩
      | none => exact ⟨defaultStateDir "", by rw [StateDir, hd]; exact ⟨"", rfl⟩⟩
    refine ⟨dir, 0, 0, none, hdir, ?_⟩
    rw [Desk.own, h.acts]
    exact List.nil_prefix
  genuine i args program hmem := by
    rw [h.acts] at hmem
    exact absurd hmem List.not_mem_nil
  offline x hx := by
    rw [h.disk.downloads] at hx
    exact absurd hx List.not_mem_nil

/-- From its beginning every call keeps the contract. -/
theorem Begins.holds (hs : L.Simple) {c : Calls ι} (h : L.Begins c) :
    (contract hs.confined).Holds (fun i => Contract.Yields (L.Made i)) c where
  inv := h.inv
  keeps i p hp := by
    rw [h.threads i p hp]
    -- its own record is empty, and it has installed nothing
    refine program_triple hs.confined hs c.state h.inv ⟨?_, fun x hx => ?_⟩
    · rw [Desk.own, h.acts]
      rfl
    · rw [h.disk.installs] at hx
      exact absurd hx List.not_mem_nil

omit [DecidableEq ι] in
/-- Where two calls install to the same place, they install the same version, as far as the file
system tells. -/
theorem fold_of_targetLoc (hs : L.Simple) {i k : ι} (h : L.targetLoc k = L.targetLoc i) :
    L.fold (L.resolved k) = L.fold (L.resolved i) := by
  -- two paths of the same length; the version is the last but one part of each
  rw [Fleet.targetLoc, Fleet.targetLoc, Fleet.dirLoc_eq hs, Fleet.dirLoc_eq hs] at h
  obtain ⟨hdir, -⟩ := List.append_inj' h rfl
  exact List.singleton_inj.mp (List.append_cancel_left hdir)

/-- The record of a call. -/
theorem mem_own {s : Desk ι} {act : Act} : act ∈ s.own i ↔ (i, act) ∈ s.acts := by
  rw [Desk.own, List.mem_map]
  constructor
  · rintro ⟨⟨j, act'⟩, hmem, rfl⟩
    obtain ⟨hmem, hj⟩ := List.mem_filter.mp hmem
    rw [← of_decide_eq_true hj]
    exact hmem
  · exact fun hmem => ⟨(i, act), List.mem_filter.mpr ⟨hmem, decide_eq_true rfl⟩, rfl⟩

omit [DecidableEq ι] in
/-- The only thing that a call starts is what lies at its path. -/
theorem args_of_mem_script {dir : String} {grpcPort httpPort : ℕ} {started program : Option Node}
    {args : List String}
    (h : .spawned args program ∈ L.script i dir grpcPort httpPort started) :
    args = LocalConduit.engineArgs (L.path i) dir grpcPort httpPort := by
  have hwarning : ∀ act ∈ L.warning i dir, ∃ message, act = .warned message := by
    intro act hact
    rw [warning] at hact
    cases hd : (L.stateDir i).isNone with
    | true =>
      rw [hd, if_pos rfl] at hact
      exact ⟨_, List.mem_singleton.mp hact⟩
    | false =>
      rw [hd, if_neg Bool.false_ne_true] at hact
      exact absurd hact List.not_mem_nil
  rw [script, opening, List.append_assoc, List.mem_append] at h
  -- of the acts of the script only one is a start
  rcases h with h | h
  · obtain ⟨message, he⟩ := hwarning _ h
    cases he
  · simp only [List.cons_append, List.nil_append, List.mem_cons, List.not_mem_nil, or_false,
      reduceCtorEq, Act.spawned.injEq, false_or] at h
    exact h.1

/-! ### A call on a host without failures -/

/-- A host without failures. -/
def calm : (o : HostOp) → HostAns o
  | .bindFreePort => .ok 40000
  | .openLog => .ok ()
  | .spawn _ => .ok ()
  | o => (obliging.handle newSession o).1

/-- A single call on such a host. -/
def Desk.calm (net : String → Except Exn Bytes) (s : Desk Unit) :
    (o : Desktop.Op) → Desktop.Ans o × Desk Unit
  | .inl (.inl o) => (Locals.calm o, s.host .posix () o)
  | .inl (.inr o) =>
    ((s.disk.handle .posix net () o).1, { s with disk := (s.disk.handle .posix net () o).2 })
  | .inr .cwd => (.ok "/work", s)
  | .inr (.warn message) => (.ok (), s.log () (.warned message))
  | .inr (.mkdir path) => (.ok (), s.log () (.madeDir path))
  | .inr (.print line) => (.ok (), s.log () (.printed line))

/-- A single call without arguments. -/
def oneCall : Locals Unit where
  toFleet := Fleet.oneRun
  posix _ := rfl
  absolute _ := ⟨["home", "u", ".cache", "conduit-client-python"], rfl, by decide⟩
  stateDir _ := none
  binary _ := none
  startupTimeout _ := 30
  iterations _ := 1

/-- The call at its beginning. -/
def oneCallStart : Calls Unit := ⟨fun _ => some (oneCall.program ()), ⟨Fleet.emptyDisk Unit, []⟩⟩

theorem oneCall_begins : oneCall.Begins oneCallStart where
  threads _ _ hp := (Option.some.inj hp).symm
  disk :=
    ⟨fun _ _ hp => (by cases hp), Fleet.emptyDisk_tree Unit, fun | () => by decide, rfl, rfl, rfl⟩
  acts := rfl

/-- The call on a host without failures. -/
def oneCallResult : Except Exn (Option LocalConduit) × Desk Unit :=
  (oneCall.program ()).eval (Desk.calm Fleet.releaseNet) oneCallStart.state

/-- The arguments of its subprocess. -/
def oneCallArgs : List String :=
  LocalConduit.engineArgs (Fleet.releasePath.text .posix) "/work/.conduit/state" 40000 40000

theorem oneCallResult_eq :
    oneCallResult.1.toOption.join.isSome = true ∧
      ((), .spawned oneCallArgs (some (.file [0x7f] 0o711))) ∈ oneCallResult.2.acts := by
  decide +kernel

theorem oneCall_lawful {α : Type} (p : DesktopM α) (s : Desk Unit) :
    Lawful (desktopWorld oneCall.names oneCall.bin) () (Desk.calm Fleet.releaseNet) p s := by
  refine Lawful.of_answer (fun s o => ?_) p s
  cases o with
  | inl o =>
    cases o with
    | inl o => exact rfl
    | inr o => exact ⟨Disk.handle_answer .posix Fleet.releaseNet () s.disk o, rfl⟩
  | inr o =>
    cases o with
    | mkdir path => exact ⟨Or.inl rfl, rfl⟩
    | _ => exact rfl

/-- The call returns an engine that runs what it has installed. -/
theorem oneCall_returns :
    ∃ (c : Calls Unit) (engine : LocalConduit),
      Reach (desktopWorld oneCall.names oneCall.bin) oneCallStart c ∧
        c.Ended () (.ok (some engine)) ∧
        ((), .spawned oneCallArgs (some (.file [0x7f] 0o711))) ∈ c.state.acts := by
  obtain ⟨c, hreach, hend, hstate, -⟩ := (oneCall_lawful (oneCall.program ())
    oneCallStart.state).exists_reach (t := oneCallStart.thread) rfl
  obtain ⟨hsome, hstarted⟩ := oneCallResult_eq
  obtain ⟨engine, hengine⟩ := Option.isSome_iff_exists.mp hsome
  have hok : oneCallResult.1 = .ok (some engine) := by
    cases hr : oneCallResult.1 with
    | error e =>
      rw [hr] at hengine
      cases hengine
    | ok r =>
      rw [hr] at hengine
      exact congrArg _ hengine
  refine ⟨c, engine, hreach, ?_, ?_⟩
  · rw [← hok]
    exact hend
  · rw [hstate]
    exact hstarted

/-! ### What the calls ask for -/

/-- **Only verified binaries are started.** Any number of calls, each for a version that is a single
path component, begin (`Begins`) with none of their binaries in the cache, and provision and start
engines at the same time; any of them may be killed, and the disk outside may change. Whatever a
call that was given no binary asks the host to run is its own cached path, and what lies there at
that moment is an executable file with bytes that a call for the same version has verified (the
same as far as the file system of the cache tells). -/
theorem started_is_verified (hs : L.Simple) {c₀ c : Calls ι} (h₀ : L.Begins c₀)
    (hr : Reach (desktopWorld L.names L.bin) c₀ c) {args : List String} {program : Option Node}
    (hstarted : (i, .spawned args program) ∈ c.state.acts) (hb : L.binary i = none) :
    args.head? = some ((L.target i).text (L.host i).flavour) ∧
      ∃ bytes mode k, program = some (.file bytes mode) ∧ mode.testBit 6 = true ∧
        L.fold (L.resolved k) = L.fold (L.resolved i) ∧
        L.Verified c.state.disk.downloads k bytes := by
  -- the contract holds at the beginning, so the invariant does in every state reached
  have hI : L.Inv c.state := ((h₀.holds hs).reach hr).inv
  obtain ⟨bytes, mode, k, hprogram, hmode, hk, hver⟩ := hI.genuine i args program hstarted hb
  refine ⟨?_, bytes, mode, k, hprogram, hmode, fold_of_targetLoc hs hk, hver⟩
  -- the arguments are the ones of its script
  obtain ⟨dir, grpcPort, httpPort, started, -, hpart⟩ := hI.script i
  rw [args_of_mem_script (hpart.subset (mem_own.mpr hstarted)), Locals.path, hb]
  rfl

theorem started_is_verified_release :
    ∃ (c : Calls Unit) (bytes : Bytes) (k : Unit),
      ((), .spawned oneCallArgs (some (.file bytes 0o711))) ∈ c.state.acts ∧
        oneCallArgs.head? = some (Fleet.releasePath.text .posix) ∧
        oneCall.Verified c.state.disk.downloads k bytes := by
  obtain ⟨c, -, hreach, -, hstarted⟩ := oneCall_returns
  obtain ⟨hhead, bytes, mode, k, hprogram, -, -, hver⟩ :=
    started_is_verified Fleet.oneRun_simple oneCall_begins hreach hstarted rfl
  obtain ⟨rfl, rfl⟩ := Node.file.inj (Option.some.inj hprogram)
  have htarget : oneCall.target () = Fleet.releasePath := by decide
  rw [htarget] at hhead
  exact ⟨c, _, k, hstarted, hhead, hver⟩

/-- **A call follows its script.** Any number of calls, each for a version that is a single path
component, begin (`Begins`) with none of their binaries in the cache. What a call has asked for is,
in order and without anything else, a part of its own script: the directory, the version and the
address it mentions belong together whatever the other calls do. Where it has returned an engine, it
has gone through all of the script of that engine. A call with a binary of its own has asked for no
download. -/
theorem follows_script (hs : L.Simple) {c₀ c : Calls ι} (h₀ : L.Begins c₀)
    (hr : Reach (desktopWorld L.names L.bin) c₀ c) (i : ι) :
    L.OnScript i (c.state.own i) ∧
      (∀ x ∈ c.state.disk.downloads, x.run = i → L.binary i = none) ∧
      ∀ engine, c.Ended i (.ok (some engine)) →
        L.StateDir i engine.stateDir ∧ engine.binaryPath = L.path i ∧
          ∃ program, c.state.own i =
            L.script i engine.stateDir engine.grpcPort engine.httpPort program := by
  have hholds := (h₀.holds hs).reach hr
  refine ⟨hholds.inv.script i, fun x hx hi => ?_, fun engine hended => ?_⟩
  · rw [← hi]
    exact hholds.inv.offline x hx
  · -- a call that has ended keeps what it has promised
    have hmade : L.Made i (some engine) c.state :=
      hholds.keeps i _ hended c.state hholds.inv ((contract hs.confined).rely_refl i _)
    obtain ⟨hdir, hpath, program, hown, -⟩ := hmade engine rfl
    exact ⟨hdir, hpath, program, hown⟩

theorem follows_script_release :
    ∃ (c : Calls Unit) (engine : LocalConduit) (program : Option Node),
      c.Ended () (.ok (some engine)) ∧ c.state.own () =
        oneCall.script () engine.stateDir engine.grpcPort engine.httpPort program := by
  obtain ⟨c, engine, hreach, hend, -⟩ := oneCall_returns
  obtain ⟨-, -, hmade⟩ := follows_script Fleet.oneRun_simple oneCall_begins hreach ()
  obtain ⟨-, -, program, hown⟩ := hmade engine hend
  exact ⟨c, engine, program, hend, hown⟩

end Locals

end Conduit
