import ConduitClient.Installation

/-!
# The cache over whole runs

From a disk on which nothing is installed yet, over every interleaving of any number of runs,
every kill and everything the rest of the system does outside the library's directory:
`Fleet.Began` is the start, and `Fleet.Began.holds` says that every run keeps its contract from
there on.

For versions that are a single path component, in a cache directory given without `..`
(`Fleet.Simple`), the runs are confined, so that the contract applies without a further
condition, and the results of this file hold.
-/

namespace Conduit

open Effect Py

namespace Fleet

variable {ι : Type} [DecidableEq ι] {F : Fleet ι}

/-- The configurations of a fleet. -/
abbrev Runs (ι : Type) := Config Provisioning ι Exn PurePath (Disk ι)

/-- The program of run `i`. -/
def program (F : Fleet ι) (i : ι) : ProvisionM PurePath :=
  ensureBinary F.tools (F.host i) (F.version i)

/-- The runs are at their beginning and have left no trace, and none of the binaries they are
about is there. -/
structure Began (F : Fleet ι) (c : Runs ι) : Prop where
  threads : ∀ i p, c.thread i = some p → p = F.program i
  tree : Tree c.state.fs
  vacant : ∀ i, c.state.fs (F.targetLoc i) = none
  temps : c.state.temps = []
  downloads : c.state.downloads = []
  installs : c.state.installs = []

omit [DecidableEq ι] in
theorem Began.inv {c : Runs ι} (h : F.Began c) : F.Inv c.state where
  tree := h.tree
  temps x hx := by simp [h.temps] at hx
  nodup := by simp [h.temps]
  installs x hx := by simp [h.installs] at hx
  content i := by
    simp only [Held, Disk.lastInstall, h.installs, List.filter_nil, List.getLast?_nil]
    exact h.vacant i

omit [DecidableEq ι] in
/-- From its beginning every run keeps the contract of the fleet. -/
theorem Began.holds (hF : F.Confined) {c : Runs ι} (h : F.Began c) :
    (contract hF).Holds F.Done c where
  inv := h.inv
  keeps i p hp := by
    rw [h.threads i p hp]
    refine ensureBinary_keeps hF i c.state h.inv fun x hx => ?_
    simp [h.installs] at hx

/-! ### Versions of a single component -/

/-- Every version is a single path component. The user cache directory is given without `..`, so
that the way to the library's directory leads to it from above. -/
structure Simple (F : Fleet ι) : Prop where
  plain : ∀ i, Plain (F.host i).flavour (F.resolved i)
  straight : ∀ i, ∀ loc ∈ (F.names i).through (binPath (F.host i)), loc <+: F.bin
  above : ∀ i, ∀ loc ∈ (F.names i).way (binPath (F.host i)), F.bin <+: loc → loc = F.bin

section Simple

omit [DecidableEq ι]

theorem dir_eq (hs : F.Simple) (i : ι) :
    F.dir i = (binPath (F.host i)).child (F.resolved i) :=
  PurePath.join_plain (hs.plain i)

theorem dirLoc_eq (hs : F.Simple) (i : ι) : F.dirLoc i = F.bin ++ [F.fold (F.resolved i)] := by
  have hbin : F.bin <+: (F.names i).place (binPath (F.host i)) := by
    rw [F.shares i]
  rw [dirLoc, dir_eq hs, (F.linkless i).place hbin (hs.plain i), F.shares i]

/-- What lies in the directory of one run is not on the way to the directory of another. -/
theorem notMem_way (hs : F.Simple) (i j : ι) (name : String) :
    F.dirLoc i ++ [name] ∉ F.way j := by
  rw [way, dir_eq hs, Names.way_child, ← dir_eq hs, List.mem_append, List.mem_singleton, not_or,
    ← dirLoc, dirLoc_eq hs, dirLoc_eq hs]
  constructor
  · -- the way to the library's directory does not lead through it
    intro hway
    have he := hs.above j _ hway ⟨[F.fold (F.resolved i), name], by simp⟩
    simpa using congrArg List.length he
  · intro he
    simpa using congrArg List.length he

theorem Simple.confined (hs : F.Simple) : F.Confined where
  below i := by
    rw [dirLoc_eq hs]
    exact List.prefix_append _ _
  clear i j := notMem_way hs i j _

/-- No run ever finds a directory where its temporary file was. -/
theorem not_clobbered (hs : F.Simple) {s : Disk ι} (h : F.Inv s) (i : ι) :
    ¬ F.Clobbered i s := by
  rintro ⟨loc, j, hl, hv⟩
  obtain ⟨name, -, hloc⟩ := h.temps _ hl
  obtain rfl : loc = F.dirLoc i ++ [F.fold name] := hloc
  exact notMem_way hs i j _ hv

/-- The way to the directory of a run leads down to it. -/
theorem through_dir (hs : F.Simple) {i : ι} {loc : Loc}
    (h : loc ∈ (F.names i).through (F.dir i)) : loc <+: F.bin := by
  have hbin : F.bin <+: (F.names i).place (binPath (F.host i)) := by
    rw [F.shares i]
  rw [dir_eq hs] at h
  rcases (F.linkless i).through hbin (hs.plain i) loc h with hup | rfl
  · exact hs.straight i loc hup
  · rw [F.shares i]

/-- A path in the directory of a run finds what is there. -/
theorem lookup_child (hs : F.Simple) {fs : Loc → Option Node} (ht : Tree fs) (i : ι)
    {name : String} (hname : Plain (F.host i).flavour name) :
    lookup (F.names i) fs ((F.dir i).child name) = fs (F.dirLoc i ++ [F.fold name]) := by
  have hplace : (F.names i).place ((F.dir i).child name) = F.dirLoc i ++ [F.fold name] :=
    (F.linkless i).place (hs.confined.below i) hname
  rw [← hplace]
  refine lookup_of_straight ht fun loc hloc => ?_
  rw [hplace]
  -- the way ends at the directory
  have hdown : loc <+: F.dirLoc i := by
    rcases (F.linkless i).through (hs.confined.below i) hname loc hloc with hup | rfl
    · exact (through_dir hs hup).trans (hs.confined.below i)
    · exact List.prefix_rfl
  refine ⟨hdown.trans (List.prefix_append _ _), fun he => ?_⟩
  have hlen := hdown.length_le
  rw [he, List.length_append, List.length_singleton] at hlen
  omega

/-- The path of a binary finds what is there. -/
theorem lookup_target (hs : F.Simple) {s : Disk ι} (h : F.Inv s) (i : ι) :
    lookup (F.names i) s.fs (F.target i) = s.fs (F.targetLoc i) := by
  rw [target_eq, lookup_child hs h.tree i (binaryName_plain _ _), targetLoc]

end Simple

/-! ### The final path -/

omit [DecidableEq ι] in
/-- A target that is there holds a verified binary. -/
theorem Inv.verified {s : Disk ι} (h : F.Inv s) (i : ι)
    (hthere : s.fs (F.targetLoc i) ≠ none) :
    ∃ bytes mode k, s.fs (F.targetLoc i) = some (.file bytes mode) ∧
      mode.testBit 6 = true ∧ (F.targetLoc k) = F.targetLoc i ∧
      F.Verified s.downloads k bytes := by
  have hc := h.content i
  unfold Held at hc
  cases hl : s.lastInstall (F.targetLoc i) with
  | none =>
    rw [hl] at hc
    exact absurd hc hthere
  | some x =>
    rw [hl] at hc
    obtain ⟨mode, hmode, hf⟩ := hc
    obtain ⟨hmem, hloc⟩ := Disk.lastInstall_mem hl
    obtain ⟨htarget, hver⟩ := h.installs x hmem
    rw [htarget] at hloc
    exact ⟨x.bytes, mode, x.run, hf, hmode, hloc, hver⟩

omit [DecidableEq ι] in
theorem Inv.present_iff {s : Disk ι} (h : F.Inv s) (i : ι) :
    F.Present i s ↔ s.fs (F.targetLoc i) ≠ none := by
  have hc := h.content i
  unfold Held at hc
  unfold Present
  cases hl : s.lastInstall (F.targetLoc i) with
  | none => simpa [hl] using hc
  | some x =>
    rw [hl] at hc
    obtain ⟨mode, -, hf⟩ := hc
    simp [hf]

/-- Nothing is ever taken out of the history of installations. -/
theorem installs_mono (hF : F.Confined) {c c' : Runs ι} (h : (contract hF).Holds F.Done c)
    (hr : Reach F.world c c') : c.state.installs <+: c'.state.installs := by
  refine h.preserved (P := fun s => c.state.installs <+: s.installs) ?_ ?_ hr List.prefix_rfl
  · intro i s s' _ _ hm hp
    cases hm with
    | install _ _ _ _ _ => exact hp.trans (List.prefix_append _ _)
    | _ => exact hp
  · intro s s' _ hd hp
    rw [hd.installs]
    exact hp

/-- A binary that is there stays there. -/
theorem present_mono (hF : F.Confined) {c c' : Runs ι} (h : (contract hF).Holds F.Done c)
    (hr : Reach F.world c c') {i : ι} (hp : F.Present i c.state) :
    F.Present i c'.state :=
  Disk.lastInstall_isSome_mono (installs_mono hF h hr) hp

omit [DecidableEq ι] in
/-- A run that ended with an exception has installed nothing. -/
theorem no_install_of_raised (hs : F.Simple) {c : Runs ι}
    (h : (contract hs.confined).Holds F.Done c) {k : ι} {e : Exn}
    (he : c.Ended k (.error e)) : Untouched k c.state :=
  (h.ended he).resolve_right (not_clobbered hs h.inv k)

/-- A step of a run that ends with an exception leaves every final path alone. -/
theorem target_of_raised (hs : F.Simple) {c c₁ c' : Runs ι}
    (h : (contract hs.confined).Holds F.Done c) {k : ι}
    (hk : StepBy F.world k c c₁) (hr : Reach F.world c₁ c') {e : Exn}
    (he : c'.Ended k (.error e)) (i : ι) :
    c₁.state.fs (F.targetLoc i) = c.state.fs (F.targetLoc i) := by
  have h₁ := h.step hk.step
  rcases (h.stepBy hk).target hs.confined h.inv i with ⟨hf, -⟩ | ⟨bytes, mode, hi, -⟩
  · exact hf
  · -- the installation would still be in the history
    have hmem : ⟨k, F.targetLoc i, bytes⟩ ∈ c₁.state.installs := by simp [hi]
    exact absurd rfl (no_install_of_raised hs (h₁.reach hr) he _
      ((installs_mono hs.confined h₁ hr).subset hmem))

/-- A run that begins when its binary is there downloads nothing and returns it. -/
theorem hit (hs : F.Simple) {c c' : Runs ι} (h : (contract hs.confined).Holds F.Done c) {i : ι}
    (hi : c.thread i = some (F.program i)) (hp : F.Present i c.state)
    (hr : Reach F.world c c') :
    OthersAdd Download.run i c.state.downloads c'.state.downloads ∧
      (c'.thread i = some (F.program i) ∨ c'.thread i = some (.done (.ok (F.target i))) ∨
        c'.thread i = none) := by
  -- until it takes its first step the run is at its beginning
  induction hr with
  | refl => exact ⟨.refl, Or.inl hi⟩
  | @tail c₁ c₂ hr hstep ih =>
    have h₁ := h.reach hr
    obtain ⟨hadd, hthread⟩ := ih
    rcases h₁.step_view hstep i with ⟨hrely, ht⟩ | ⟨o, k, a, hop, ha, ht⟩
    · refine ⟨hadd.trans hrely.downloads, ?_⟩
      rcases ht with ht | ht
      · rwa [ht]
      · exact Or.inr (Or.inr ht)
    · -- the only step it takes itself is the check, which finds the binary
      rcases hthread with hprog | hdone | hkilled
      · rw [hprog] at hop
        obtain ⟨rfl, hk⟩ := Prog.op.inj (Option.some.inj hop)
        obtain rfl := eq_of_heq hk
        obtain ⟨hs', hiff⟩ := ha
        have hthere : lookup (F.names i) c₁.state.fs (F.target i) ≠ none := by
          rw [lookup_target hs h₁.inv]
          exact (h₁.inv.present_iff i).mp (present_mono hs.confined h hr hp)
        obtain rfl : a = true := hiff.mpr hthere
        exact ⟨hs' ▸ hadd, Or.inr (Or.inl ht)⟩
      · rw [hdone] at hop
        cases hop
      · rw [hkilled] at hop
        cases hop

/-! ### One release -/

/-- All runs are on the platform of `host` and for the version `v`, and `N` is how each finds the
one user cache directory. -/
structure OneRelease (F : Fleet ι) (N : Names) (host : Machine) (v : String) : Prop where
  system : ∀ i, (F.host i).system = host.system
  machine : ∀ i, (F.host i).machine = host.machine
  cache : ∀ i, (F.host i).userCacheDir = host.userCacheDir
  names : ∀ i, F.names i = N
  version : ∀ i, F.resolved i = v

omit [DecidableEq ι] in
theorem OneRelease.flavour {N : Names} {host : Machine} {v : String}
    (h : F.OneRelease N host v) (i : ι) : (F.host i).flavour = host.flavour := by
  rw [Machine.flavour, Machine.flavour, h.system i]

omit [DecidableEq ι] in
theorem OneRelease.target {N : Names} {host : Machine} {v : String} (h : F.OneRelease N host v)
    (i : ι) : F.target i = cachedBinaryPath host v := by
  simp only [Fleet.target, cachedBinaryPath, cacheDir, binaryName, h.cache i, h.flavour i,
    h.system i, h.version i]

/-- **The cached binary.** For a version that is a single path component, in a cache directory
given without `..`, and over every execution from a cache without it: the path is vacant, or
holds an executable file that some run verified; what is there stays there; no run that raises
changes it; and a run that begins when it is there downloads nothing and returns it. -/
theorem cached_binary_safe [Nonempty ι] {N : Names} {host : Machine} {v : String}
    (hs : F.Simple) (hone : F.OneRelease N host v) {c₀ c : Runs ι} (h₀ : F.Began c₀)
    (hr : Reach F.world c₀ c) :
    (lookup N c.state.fs (cachedBinaryPath host v) = none ∨
      ∃ bytes mode k, lookup N c.state.fs (cachedBinaryPath host v) = some (.file bytes mode) ∧
        mode.testBit 6 = true ∧ Evidence F.tools host v c.state.downloads k bytes) ∧
    ∀ c', Reach F.world c c' →
      (lookup N c.state.fs (cachedBinaryPath host v) ≠ none →
        lookup N c'.state.fs (cachedBinaryPath host v) ≠ none) ∧
      (∀ k c₁ e, StepBy F.world k c c₁ → Reach F.world c₁ c' →
        c'.Ended k (.error e) →
          lookup N c₁.state.fs (cachedBinaryPath host v) =
            lookup N c.state.fs (cachedBinaryPath host v)) ∧
      ∀ i, c.thread i = some (F.program i) →
        lookup N c.state.fs (cachedBinaryPath host v) ≠ none →
          OthersAdd Download.run i c.state.downloads c'.state.downloads ∧
            ∀ r, c'.Ended i r → r = .ok (cachedBinaryPath host v) := by
  have h := (h₀.holds hs.confined).reach hr
  obtain ⟨j⟩ := ‹Nonempty ι›
  rw [← hone.target j]
  -- the path finds what is there, in every reachable state
  have hlook {c₁ : Runs ι} (h₁ : (contract hs.confined).Holds F.Done c₁) :
      lookup N c₁.state.fs (F.target j) = c₁.state.fs (F.targetLoc j) := by
    rw [← hone.names j]
    exact lookup_target hs h₁.inv j
  refine ⟨?_, fun c' hr' => ⟨?_, ?_, ?_⟩⟩
  · rw [hlook h]
    by_cases hn : c.state.fs (F.targetLoc j) = none
    · exact Or.inl hn
    · -- the run that installed it may be another one, of the same release
      obtain ⟨bytes, mode, k, hf, hx, -, hver⟩ := h.inv.verified j hn
      refine Or.inr ⟨bytes, mode, k, hf, hx, ?_⟩
      have ht : platformTriplet F.tools.toRuntime (F.host k) =
          platformTriplet F.tools.toRuntime host := by
        simp only [platformTriplet, hone.system k, hone.machine k]
      have hver' := hver.congr (hone.system k) ht
      rwa [hone.version k] at hver'
  · rw [hlook h, hlook (h.reach hr'), ← h.inv.present_iff j, ← (h.reach hr').inv.present_iff j]
    exact present_mono hs.confined h hr'
  · intro k c₁ e hk hr₁ he
    rw [hlook h, hlook (h.step hk.step)]
    exact target_of_raised hs h hk hr₁ he j
  · intro i hi hthere
    have hsame : F.targetLoc i = F.targetLoc j := by
      rw [← hs.confined.place_target i, ← hs.confined.place_target j, hone.names i, hone.names j,
        hone.target i, hone.target j]
    have hp : F.Present i c.state := by
      rw [h.inv.present_iff i, hsame, ← hlook h]
      exact hthere
    obtain ⟨hadd, hthread⟩ := hit hs h hi hp hr'
    refine ⟨hadd, fun r he => ?_⟩
    have he' : c'.thread i = some (.done r) := he
    rcases hthread with hprog | hdone | hkilled
    · rw [he'] at hprog
      cases hprog
    · rw [he', hone.target i, ← hone.target j] at hdone
      exact Prog.done.inj (Option.some.inj hdone)
    · rw [he'] at hkilled
      cases hkilled

/-! ### A release, and a run that installs it -/

/-- A Linux host on amd64. -/
def linuxHost : Machine where
  system := "Linux"
  machine := "x86_64"
  engineVersion := none
  userCacheDir := PurePath.rooted ["home", "u", ".cache", "conduit-client-python"]

/-- A gzipped tar archive with one member, `conduit`, of the single byte `0x7f`. -/
def releaseArchive : Bytes :=
  [31, 139, 8, 0, 0, 0, 0, 0, 2, 255, 237, 205, 49, 10, 194, 64, 20, 4, 208, 127, 148, 28, 97,
    141, 75, 114, 30, 209, 198, 198, 64, 178, 91, 123, 117, 191, 86, 98, 175, 32, 121, 175, 153,
    97, 154, 57, 47, 183, 75, 191, 182, 248, 166, 146, 166, 90, 95, 153, 62, 51, 29, 222, 250,
    115, 159, 143, 99, 141, 161, 196, 15, 244, 173, 157, 214, 188, 140, 125, 186, 7, 0, 0, 0, 0,
    0, 0, 0, 0, 0, 255, 232, 1, 197, 197, 239, 56, 0, 40, 0, 0]

/-- The SHA-256 of the archive. -/
def releaseDigest : String := "1bb2d763b67784413e04ba52b51336254c35d769e28228a178276319d1ac1c5f"

/-- The `checksums.txt` of the release. -/
def releaseChecksums : Bytes :=
  (releaseDigest ++ "  conduit_0.18.0_Linux_x86_64.tar.gz\n").toUTF8.toList

/-- The standard library, as far as it is asked about this release. -/
def releaseTools : Toolbox where
  parseStatus _ := none
  parseErrorInfo _ := none
  repr s := "'" ++ s ++ "'"
  seconds t := toString t
  decodeReplace _ := ""
  sha256 bytes := if bytes = releaseArchive then releaseDigest else ""
  zipNames _ := .error (.archive "File is not a zip file")
  zipRead _ _ := .error (.archive "File is not a zip file")
  tarMembers bytes :=
    if bytes = releaseArchive then .ok [⟨"conduit", true, .ok (some [0x7f])⟩]
    else .error (.archive "not a gzip file")

/-- The download server of the release. -/
def releaseNet (url : String) : Except Exn Bytes :=
  if url = Provision.baseUrl "0.18.0" ++ "/conduit_0.18.0_Linux_x86_64.tar.gz" then
    .ok releaseArchive
  else if url = Provision.baseUrl "0.18.0" ++ "/checksums.txt" then .ok releaseChecksums
  else .error (.os "HTTP Error 404: Not Found")

/-- A disk with a home directory and nothing in the cache. -/
def emptyDisk (ι : Type) : Disk ι where
  fs loc := if loc <+: ["home", "u", ".cache"] then some .dir else none

theorem emptyDisk_tree (ι : Type) : Tree (emptyDisk ι).fs := by
  refine ⟨rfl, fun loc name h => ?_⟩
  simp only [emptyDisk, ne_eq, ite_eq_right_iff, reduceCtorEq, imp_false, not_not] at h ⊢
  exact if_pos ((List.prefix_append _ _).trans h)

/-- The path of the binary of the release. -/
def releasePath : PurePath :=
  PurePath.rooted ["home", "u", ".cache", "conduit-client-python", "bin", "0.18.0", "conduit"]

/-- A fleet of hosts that find the cache of `linuxHost` where it does, on a file system that tells
all names apart. -/
def atHome {ι : Type} (tools : Toolbox) (host : ι → Machine) (version : ι → Option String)
    (hpath : ∀ i, binPath (host i) = binPath linuxHost) : Fleet ι where
  tools := tools
  host := host
  version := version
  names _ := .posix
  bin := ["home", "u", ".cache", "conduit-client-python", "bin"]
  fold := id
  shares i := by
    rw [hpath i]
    decide
  linkless i := Names.posix_linkless _ _
  apart _ h hname := tempName_ne_binaryName hname h

/-- The way to that cache leads down to it. -/
theorem atHome_simple {ι : Type} {tools : Toolbox} {host : ι → Machine}
    {version : ι → Option String} (hpath : ∀ i, binPath (host i) = binPath linuxHost)
    (hplain : ∀ i, Plain (host i).flavour (resolveVersion (host i) (version i))) :
    (atHome tools host version hpath).Simple where
  plain := hplain
  straight i := by
    simp only [atHome, hpath i]
    decide
  above i := by
    simp only [atHome, hpath i]
    decide

/-- A fleet of runs on Linux hosts for the versions that they are given. -/
def onLinux {ι : Type} (version : ι → Option String) : Fleet ι :=
  atHome releaseTools (fun _ => linuxHost) version fun _ => rfl

/-- A fleet of a single run for the release. -/
def oneRun : Fleet Unit := onLinux fun _ => none

/-- The run at its beginning. -/
def oneRunStart : Runs Unit := ⟨fun _ => some (oneRun.program ()), emptyDisk Unit⟩

theorem oneRun_began : oneRun.Began oneRunStart :=
  ⟨fun _ _ hp => (Option.some.inj hp).symm, emptyDisk_tree Unit, fun | () => by decide, rfl,
    rfl, rfl⟩

theorem oneRun_simple : oneRun.Simple :=
  atHome_simple (fun _ => rfl) fun | () => by decide

/-- The run on a disk without failures. -/
def oneRunResult : Except Exn PurePath × Disk Unit :=
  (oneRun.program ()).eval (Disk.handle .posix releaseNet ()) (emptyDisk Unit)

theorem oneRunResult_eq :
    oneRunResult.1 = .ok releasePath ∧
      lookup .posix oneRunResult.2.fs releasePath = some (.file [0x7f] 0o711) := by
  decide +kernel

/-- The run installs the release. -/
theorem oneRun_installs :
    ∃ c : Runs Unit, Reach (oneRun.world) oneRunStart c ∧
      c.Ended () (.ok releasePath) ∧
      lookup .posix c.state.fs releasePath = some (.file [0x7f] 0o711) := by
  obtain ⟨c, hreach, hend, hstate, -⟩ := (Disk.handle_lawful oneRun.names releaseNet oneRun.bin ()
    (oneRun.program ()) (emptyDisk Unit)).exists_reach (t := oneRunStart.thread) rfl
  obtain ⟨hok, hfile⟩ := oneRunResult_eq
  refine ⟨c, hreach, ?_, ?_⟩
  · rw [← hok]
    exact hend
  · rw [hstate]
    exact hfile

theorem cached_binary_safe_release :
    ∃ c : Runs Unit, c.Ended () (.ok releasePath) ∧
      ∃ bytes mode k, lookup .posix c.state.fs releasePath = some (.file bytes mode) ∧
        mode.testBit 6 = true ∧
        Evidence releaseTools linuxHost "0.18.0" c.state.downloads k bytes := by
  have hpath : cachedBinaryPath linuxHost "0.18.0" = releasePath := by decide
  have hone : oneRun.OneRelease .posix linuxHost "0.18.0" :=
    ⟨fun _ => rfl, fun _ => rfl, fun _ => rfl, fun _ => rfl, fun | () => by decide⟩
  obtain ⟨c, hreach, hend, hfile⟩ := oneRun_installs
  have hsafe := (cached_binary_safe oneRun_simple hone oneRun_began hreach).1
  rw [hpath] at hsafe
  exact ⟨c, hend, hsafe.resolve_left (by simp [hfile])⟩

end Fleet

end Conduit
