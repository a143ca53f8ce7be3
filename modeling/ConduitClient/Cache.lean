import ConduitClient.Disk

/-!
# The cache directory under concurrent runs

A `Fleet` is any number of `ensure_binary` runs that share one user cache directory, each on
its own host, with its own way of finding that directory, and for its own version. `Fleet.Move`
is what one step of a run can do to the disk, whatever the run does and however the step is
answered; everything that is proved about the cache is proved from the moves.

`Fleet.Inv` relates the tree to the history: the file at the final path of a run is the one
that was moved there last, and whatever was moved there had been verified by the run that
moved it. `Fleet.Rely` is what a run may count on while the others are moving.
-/

namespace Conduit

open Effect Py

/-- The evidence behind a binary: run `i` extracted it from an archive that it downloaded,
and the digest of the archive is the one that a `checksums.txt`, which the run downloaded as
well, lists for the name of the archive. -/
def Evidence {ι : Type} (tools : Toolbox) (host : Machine) (version : String)
    (downloads : List (Download ι)) (i : ι) (bytes : Bytes) : Prop :=
  ∃ name archive checksums os arch ext,
    archiveName tools.toRuntime host version = .ok name ∧
    ⟨i, Provision.baseUrl version ++ "/" ++ name, some archive⟩ ∈ downloads ∧
    ⟨i, Provision.baseUrl version ++ "/checksums.txt", some checksums⟩ ∈ downloads ∧
    listedDigest checksums name = .ok (some (tools.sha256 archive)) ∧
    platformTriplet tools.toRuntime host = .ok (os, arch, ext) ∧
    extractBinary tools host archive ext (binaryName host) = .ok bytes

theorem Evidence.mono {ι : Type} {tools : Toolbox} {host : Machine} {version : String}
    {downloads downloads' : List (Download ι)} {i : ι} {bytes : Bytes}
    (h : Evidence tools host version downloads i bytes) (hp : downloads <+: downloads') :
    Evidence tools host version downloads' i bytes := by
  obtain ⟨name, archive, checksums, os, arch, ext, hn, ha, hc, hl, ht, hx⟩ := h
  exact ⟨name, archive, checksums, os, arch, ext, hn, hp.subset ha, hp.subset hc, hl, ht, hx⟩

theorem entryName_congr {host host' : Machine} (hs : host.system = host'.system) :
    entryName host = entryName host' := by
  funext entry
  rw [entryName, entryName, hs]

theorem extractTar_congr {rt : Runtime} {host host' : Machine} (hs : host.system = host'.system)
    (name : String) (members : List TarMember) :
    extractTar rt host name members = extractTar rt host' name members := by
  induction members with
  | nil => rfl
  | cons member members ih => rw [extractTar, extractTar, entryName_congr hs, ih]

/-- Of the host, the evidence depends on the platform only. -/
theorem Evidence.congr {ι : Type} {tools : Toolbox} {host host' : Machine} {version : String}
    {downloads : List (Download ι)} {i : ι} {bytes : Bytes}
    (h : Evidence tools host version downloads i bytes) (hs : host.system = host'.system)
    (ht : platformTriplet tools.toRuntime host = platformTriplet tools.toRuntime host') :
    Evidence tools host' version downloads i bytes := by
  have hn : archiveName tools.toRuntime host version =
      archiveName tools.toRuntime host' version := by
    simp only [archiveName, ht]
  have hb : binaryName host = binaryName host' := by
    simp only [binaryName, hs]
  have hx (archive : Bytes) (ext name : String) :
      extractBinary tools host archive ext name =
        extractBinary tools host' archive ext name := by
    have htar : extractTar tools.toRuntime host name = extractTar tools.toRuntime host' name :=
      funext fun members => extractTar_congr hs name members
    rw [extractBinary, extractBinary, entryName_congr hs, htar]
  rw [Evidence, hn, ht, hb] at h
  simp only [hx] at h
  exact h

/-- The directory of the library in the user's cache directory. -/
def binPath (host : Machine) : PurePath := host.userCacheDir.join host.flavour "bin"

namespace Fleet

/-! ### The names in a cache directory -/

theorem binaryName_plain (f : Flavour) (host : Machine) : Plain f (binaryName host) := by
  unfold binaryName
  cases f <;> split <;> decide

/-- The name `mkstemp` is asked to start with. -/
def tempFront : String := ".conduit-download-"

theorem tempName_length {name : String} (h : TempName tempFront name) :
    18 ≤ name.toList.length := by
  obtain ⟨rest, rfl, -⟩ := h
  rw [String.toList_append, List.length_append]
  exact Nat.le_add_right_of_le (by decide)

/-- A temporary file is not called by a shorter name. -/
theorem tempName_ne {name : String} (h : TempName tempFront name) {short : String}
    (hs : short.toList.length < 18) : name ≠ short := by
  rintro rfl
  exact absurd (tempName_length h) (by omega)

theorem tempName_plain {name : String} (h : TempName tempFront name) (f : Flavour) :
    Plain f name := by
  refine ⟨tempName_ne h (by decide), tempName_ne h (by decide), tempName_ne h (by decide), ?_⟩
  obtain ⟨rest, rfl, hslash, hback⟩ := h
  have hlist : (tempFront ++ rest).toList = tempFront.toList ++ rest.toList :=
    String.toList_append
  rw [hlist]
  refine ⟨?_, fun _ => ⟨?_, ?_⟩⟩
  · rw [List.mem_append, not_or]
    exact ⟨by decide, hslash⟩
  · rw [List.mem_append, not_or]
    exact ⟨by decide, hback⟩
  · rw [List.getElem?_append_left (by decide)]
    decide

/-- A temporary file is not called like a binary. -/
theorem tempName_ne_binaryName {name : String} (h : TempName tempFront name) (host : Machine) :
    name ≠ binaryName host := by
  refine tempName_ne h ?_
  unfold binaryName
  split <;> decide

end Fleet

/-- Any number of provisioning runs that share a user cache directory. -/
structure Fleet (ι : Type) where
  tools : Toolbox
  host : ι → Machine
  /-- The argument of `ensure_binary`. -/
  version : ι → Option String
  /-- How each host finds its way. -/
  names : ι → Names
  /-- The library's own directory. -/
  bin : Loc
  /-- Which names its file system takes for one and the same: they have one folding. -/
  fold : String → String
  shares : ∀ i, (names i).place (binPath (host i)) = bin
  /-- There are no links in the library's directory, as only the library writes there. -/
  linkless : ∀ i, (names i).Linkless (host i).flavour fold bin
  /-- Temporary files do not pass for binaries. -/
  apart : ∀ name h, TempName Fleet.tempFront name → fold name ≠ fold (binaryName h)

namespace Fleet

variable {ι : Type} (F : Fleet ι)

/-- The world of the fleet. -/
abbrev world : World Provisioning ι (Disk ι) := Disk.world F.names F.bin

/-- `resolved_version` in run `i`. -/
def resolved (i : ι) : String := resolveVersion (F.host i) (F.version i)

/-- `target.parent` in run `i`. -/
def dir (i : ι) : PurePath := cacheDir (F.host i) (F.resolved i)

/-- `target` in run `i`. -/
def target (i : ι) : PurePath := cachedBinaryPath (F.host i) (F.resolved i)

/-- Where run `i` installs. -/
def dirLoc (i : ι) : Loc := (F.names i).place (F.dir i)

/-- Where the binary of run `i` is, if the run installs in the library's directory
(`Confined.place_target`). -/
def targetLoc (i : ι) : Loc := F.dirLoc i ++ [F.fold (binaryName (F.host i))]

/-- Where run `i` may create directories. -/
def way (i : ι) : List Loc := (F.names i).way (F.dir i)

/-- The binary in `bytes` was verified by run `i`. -/
def Verified (downloads : List (Download ι)) (i : ι) (bytes : Bytes) : Prop :=
  Evidence F.tools (F.host i) (F.resolved i) downloads i bytes

/-- The runs stay in the library's directory: each installs below it, and where one run
installs, no other creates a directory. -/
structure Confined : Prop where
  below : ∀ i, F.bin <+: F.dirLoc i
  clear : ∀ i j, F.targetLoc i ∉ F.way j

variable {F}

/-! ### Where a run installs -/

theorem target_eq (i : ι) : F.target i = (F.dir i).child (binaryName (F.host i)) :=
  PurePath.join_plain (binaryName_plain _ _)

theorem target_parent (i : ι) : (F.target i).parent = F.dir i := by
  rw [target_eq, PurePath.parent_child]

theorem Confined.place_target (hF : F.Confined) (i : ι) :
    (F.names i).place (F.target i) = F.targetLoc i := by
  rw [target_eq, (F.linkless i).place (hF.below i) (binaryName_plain _ _), targetLoc, dirLoc]

theorem Confined.place_temp (hF : F.Confined) (i : ι) {name : String}
    (h : TempName tempFront name) :
    (F.names i).place ((F.dir i).child name) = F.dirLoc i ++ [F.fold name] :=
  (F.linkless i).place (hF.below i) (tempName_plain h _)

/-- A temporary file of one run is where no run installs. -/
theorem tempName_ne_target {i k : ι} {name : String} (h : TempName tempFront name) :
    F.dirLoc i ++ [F.fold name] ≠ F.targetLoc k := by
  intro he
  -- whatever the directories are, the last components differ
  obtain ⟨-, hlast⟩ := List.append_inj' he rfl
  exact F.apart name (F.host k) h (List.singleton_inj.mp hlast)

/-! ### The invariant -/

/-- A place is vacant until a file is moved there; from then on it holds the last one, and
the owner may execute it. -/
def Held (s : Disk ι) (loc : Loc) : Prop :=
  match s.lastInstall loc with
  | none => s.fs loc = none
  | some x => ∃ mode, mode.testBit 6 = true ∧ s.fs loc = some (.file x.bytes mode)

/-- What holds of the disk between any two steps. -/
structure Inv (F : Fleet ι) (s : Disk ι) : Prop where
  tree : Tree s.fs
  /-- Temporary files are created in the directory of their run. -/
  temps : ∀ x ∈ s.temps, ∃ name, TempName tempFront name ∧ x.2 = F.dirLoc x.1 ++ [F.fold name]
  /-- Every temporary file has one owner. -/
  nodup : (s.temps.map Prod.snd).Nodup
  /-- Every file that was moved had been verified by the run that moved it. -/
  installs : ∀ x ∈ s.installs,
    x.loc = F.targetLoc x.run ∧ F.Verified s.downloads x.run x.bytes
  content : ∀ i, Held s (F.targetLoc i)

theorem Held.ne_dir {s : Disk ι} {loc : Loc} (h : Held s loc) : s.fs loc ≠ some .dir := by
  unfold Held at h
  split at h
  · simp [h]
  · obtain ⟨mode, -, hf⟩ := h
    simp [hf]

/-- A step that moves no file there and changes nothing there keeps a place held. -/
theorem Held.congr {s s' : Disk ι} {loc : Loc} (h : Held s loc)
    (hi : s'.lastInstall loc = s.lastInstall loc) (hf : s'.fs loc = s.fs loc) : Held s' loc := by
  unfold Held
  rw [hi, hf]
  exact h

/-- A temporary file is where no run installs. -/
theorem Inv.temp_ne_target {s : Disk ι} (h : F.Inv s) {i : ι} {loc : Loc}
    (ht : (i, loc) ∈ s.temps) (k : ι) : loc ≠ F.targetLoc k := by
  obtain ⟨name, hname, hloc⟩ := h.temps _ ht
  have hloc' : loc = F.dirLoc i ++ [F.fold name] := hloc
  rw [hloc']
  exact tempName_ne_target hname

theorem Inv.owner_unique {s : Disk ι} (h : F.Inv s) {i j : ι} {loc : Loc}
    (hi : (i, loc) ∈ s.temps) (hj : (j, loc) ∈ s.temps) : i = j :=
  congrArg Prod.fst (List.inj_on_of_nodup_map h.nodup hi hj rfl)

/-! ### What one step can do -/

/-- What one step of run `i` can do to the disk. -/
inductive Move (F : Fleet ι) (i : ι) (s : Disk ι) : Disk ι → Prop
  | nothing : Move F i s s
  | download (url : String) (body : Option Bytes) :
      Move F i s (s.logDownload i url body)
  /-- Directories on the way to the one it installs in. -/
  | mkdir {locs : List Loc} (hlocs : locs ⊆ F.way i) (hfree : Passable s.fs locs) :
      Move F i s (s.mkdirs locs)
  /-- A new temporary file of its own. -/
  | create {name : String} (hname : TempName tempFront name)
      (hdir : s.fs (F.dirLoc i) = some .dir)
      (hfree : s.fs (F.dirLoc i ++ [F.fold name]) = none)
      (hnew : F.dirLoc i ++ [F.fold name] ∉ s.temps.map Prod.snd) (mode : Nat) :
      Move F i s (s.createTemp i (F.dirLoc i ++ [F.fold name]) mode)
  /-- A change of its own temporary file, or its removal. -/
  | touch {loc : Loc} {node : Option Node} (hown : (i, loc) ∈ s.temps)
      (hfile : s.fs loc ≠ some .dir) (hthere : s.fs loc ≠ none) (hnode : node ≠ some .dir) :
      Move F i s (s.put loc node)
  /-- Its own temporary file becomes the binary, and was verified. -/
  | install {loc : Loc} {bytes : Bytes} {mode : Nat} (hown : (i, loc) ∈ s.temps)
      (hfile : s.fs loc = some (.file bytes mode)) (hexec : mode.testBit 6 = true)
      (hdir : s.fs (F.dirLoc i) = some .dir)
      (hver : F.Verified s.downloads i bytes) :
      Move F i s (s.moveFile i loc (F.targetLoc i) bytes mode)

/-! The two ways in which a tree changes. -/

theorem tree_update {fs : Loc → Option Node} (ht : Tree fs) {loc : Loc} {node : Option Node}
    (hold : fs loc ≠ some .dir) (hne : loc ≠ [])
    (hparent : node ≠ none → fs loc.dropLast = some .dir) :
    Tree (Function.update fs loc node) := by
  constructor
  · rw [Function.update_of_ne (Ne.symm hne)]
    exact ht.root
  · intro loc' name h
    -- what is above an entry was a directory before, and only a non-directory is replaced
    have hstay : fs loc' = some .dir := by
      by_cases he : loc' ++ [name] = loc
      · subst he
        rw [Function.update_self] at h
        simpa using hparent h
      · rw [Function.update_of_ne he] at h
        exact ht.parent loc' name h
    have hne' : loc' ≠ loc := fun he => hold (he ▸ hstay)
    rwa [Function.update_of_ne hne']

theorem tree_makeDirs {fs : Loc → Option Node} (ht : Tree fs) {locs : List Loc}
    (hfree : Passable fs locs) : Tree (makeDirs fs locs) := by
  have hkeep : ∀ loc, fs loc = some .dir → makeDirs fs locs loc = some .dir := by
    intro loc h
    rw [makeDirs, if_neg (by simp [h]), h]
  refine ⟨hkeep _ ht.root, fun loc name h => ?_⟩
  by_cases hv : loc ++ [name] ∈ locs ∧ fs (loc ++ [name]) = none
  · -- a created directory has its parent on the way, or it was there
    obtain ⟨-, hparent⟩ := hfree _ hv.1
    rw [List.dropLast_concat] at hparent
    rcases hparent with hloc | hd
    · rcases (hfree loc hloc).1 with hn | hd
      · exact if_pos ⟨hloc, hn⟩
      · exact hkeep loc hd
    · exact hkeep loc hd
  · rw [makeDirs, if_neg hv] at h
    exact hkeep loc (ht.parent loc name h)

theorem makeDirs_of_notMem {fs : Loc → Option Node} {locs : List Loc} {loc : Loc}
    (h : loc ∉ locs) : makeDirs fs locs loc = fs loc :=
  if_neg fun hv => h hv.1

/-! ### The invariant is kept -/

/-- A step leaves the target of every run alone, unless it installs a verified binary there
that the owner may execute. -/
theorem Move.target (hF : F.Confined) {i : ι} {s s' : Disk ι} (hm : F.Move i s s')
    (h : F.Inv s) (k : ι) :
    (s'.fs (F.targetLoc k) = s.fs (F.targetLoc k) ∧
        s'.lastInstall (F.targetLoc k) = s.lastInstall (F.targetLoc k)) ∨
      ∃ bytes mode, s'.installs = s.installs ++ [⟨i, F.targetLoc k, bytes⟩] ∧
        s'.lastInstall (F.targetLoc k) = some ⟨i, F.targetLoc k, bytes⟩ ∧
        mode.testBit 6 = true ∧ s'.fs (F.targetLoc k) = some (.file bytes mode) := by
  cases hm with
  | nothing => exact Or.inl ⟨rfl, rfl⟩
  | download url body => exact Or.inl ⟨rfl, rfl⟩
  | mkdir hlocs hfree =>
    exact Or.inl ⟨makeDirs_of_notMem fun hv => hF.clear k i (hlocs hv), rfl⟩
  | @create name hname hdir hfree hnew mode =>
    have hne : F.targetLoc k ≠ F.dirLoc i ++ [F.fold name] :=
      (tempName_ne_target hname).symm
    exact Or.inl ⟨by rw [Disk.createTemp_fs, Function.update_of_ne hne], rfl⟩
  | @touch loc node hown hfile hthere hnode =>
    have hne := Ne.symm (h.temp_ne_target hown k)
    exact Or.inl ⟨by rw [Disk.put_fs, Function.update_of_ne hne], rfl⟩
  | @install loc bytes mode hown hfile hexec hdir hver =>
    -- two runs may install to the same place
    by_cases he : F.targetLoc i = F.targetLoc k
    · refine Or.inr ⟨bytes, mode, ?_, ?_, hexec, ?_⟩
      · rw [Disk.moveFile, he]
      · rw [Disk.lastInstall_moveFile, if_pos he, he]
      · rw [Disk.moveFile_fs, he, Function.update_self]
    · refine Or.inl ⟨?_, ?_⟩
      · rw [Disk.moveFile_fs, Function.update_of_ne (Ne.symm he),
          Function.update_of_ne (Ne.symm (h.temp_ne_target hown k))]
      · rw [Disk.lastInstall_moveFile, if_neg he]

/-- **One step.** -/
theorem Move.inv (hF : F.Confined) {i : ι} {s s' : Disk ι} (hm : F.Move i s s')
    (h : F.Inv s) : F.Inv s' := by
  -- the content of the targets follows from what the step does to them
  have hcontent (k : ι) : Held s' (F.targetLoc k) := by
    rcases hm.target hF h k with ⟨hf, hi⟩ | ⟨bytes, mode, -, hi, hx, hf⟩
    · exact (h.content k).congr hi hf
    · unfold Held
      rw [hi]
      exact ⟨mode, hx, hf⟩
  cases hm with
  | nothing => exact h
  | download url body =>
    refine ⟨h.tree, h.temps, h.nodup, fun x hx => ?_, hcontent⟩
    exact ⟨(h.installs x hx).1, (h.installs x hx).2.mono (List.prefix_append _ _)⟩
  | mkdir _ hfree =>
    exact ⟨tree_makeDirs h.tree hfree, h.temps, h.nodup, h.installs, hcontent⟩
  | @create name hname hdir hfree hnew mode =>
    have htree : Tree (Function.update s.fs (F.dirLoc i ++ [F.fold name])
        (some (.file [] mode))) := by
      refine tree_update h.tree (by simp [hfree]) (by simp) fun _ => ?_
      simpa using hdir
    refine ⟨htree, ?_, ?_, h.installs, hcontent⟩
    · intro x hx
      rcases List.mem_append.mp hx with hx | hx
      · exact h.temps x hx
      · obtain rfl := List.mem_singleton.mp hx
        exact ⟨name, hname, rfl⟩
    · rw [Disk.createTemp, List.map_append]
      exact h.nodup.append (List.nodup_singleton _) (by simpa using hnew)
  | @touch loc node hown hfile hthere hnode =>
    refine ⟨?_, h.temps, h.nodup, h.installs, hcontent⟩
    obtain ⟨name, -, hloc⟩ := h.temps _ hown
    have hloc' : loc = F.dirLoc i ++ [F.fold name] := hloc
    refine tree_update h.tree hfile (by simp [hloc']) fun _ => ?_
    rw [hloc'] at hthere ⊢
    simpa using h.tree.parent _ _ hthere
  | @install loc bytes mode hown hfile hexec hdir hver =>
    obtain ⟨name, -, hloc⟩ := h.temps _ hown
    have hloc' : loc = F.dirLoc i ++ [F.fold name] := hloc
    have hlt : F.targetLoc i ≠ loc := Ne.symm (h.temp_ne_target hown i)
    refine ⟨?_, h.temps, h.nodup, ?_, hcontent⟩
    · -- the file leaves its temporary place, and arrives at the target
      have h₁ : Tree (Function.update s.fs loc none) :=
        tree_update h.tree (by simp [hfile]) (by simp [hloc']) fun hn => absurd rfl hn
      refine tree_update h₁ ?_ (by simp [targetLoc]) fun _ => ?_
      · rw [Function.update_of_ne hlt]
        exact (h.content i).ne_dir
      · have hne : F.dirLoc i ≠ loc := by
          rw [hloc']
          intro he
          simpa using congrArg List.length he
        rw [targetLoc, List.dropLast_concat, Function.update_of_ne hne]
        exact hdir
    · intro x hx
      rcases List.mem_append.mp hx with hx | hx
      · exact h.installs x hx
      · obtain rfl := List.mem_singleton.mp hx
        exact ⟨rfl, hver⟩

/-! ### What a run can rely on -/

/-- `ys` is `xs` with entries behind it that are not in the name of run `i`. -/
def OthersAdd {α : Type} (run : α → ι) (i : ι) (xs ys : List α) : Prop :=
  ∃ rest, ys = xs ++ rest ∧ ∀ x ∈ rest, run x ≠ i

section OthersAdd

variable {α : Type} {run : α → ι} {i : ι} {xs ys zs : List α}

theorem OthersAdd.refl : OthersAdd run i xs xs := ⟨[], by simp, by simp⟩

theorem OthersAdd.trans (h : OthersAdd run i xs ys) (h' : OthersAdd run i ys zs) :
    OthersAdd run i xs zs := by
  obtain ⟨rest, rfl, hr⟩ := h
  obtain ⟨rest', rfl, hr'⟩ := h'
  refine ⟨rest ++ rest', by simp, fun x hx => ?_⟩
  exact (List.mem_append.mp hx).elim (hr x) (hr' x)

theorem OthersAdd.append {x : α} (h : run x ≠ i) : OthersAdd run i xs (xs ++ [x]) :=
  ⟨[x], rfl, by simpa using h⟩

theorem OthersAdd.isPrefix (h : OthersAdd run i xs ys) : xs <+: ys := by
  obtain ⟨rest, rfl, -⟩ := h
  exact List.prefix_append _ _

theorem OthersAdd.old {x : α} (h : OthersAdd run i xs ys) (hx : x ∈ ys) (hrun : run x = i) :
    x ∈ xs := by
  obtain ⟨rest, rfl, hr⟩ := h
  exact (List.mem_append.mp hx).resolve_right fun hx' => hr x hx' hrun

end OthersAdd

/-- What run `i` may count on while the others move. -/
structure Rely (F : Fleet ι) (i : ι) (s s' : Disk ι) : Prop where
  /-- Nobody else downloads or installs in its name. -/
  downloads : OthersAdd Download.run i s.downloads s'.downloads
  installs : OthersAdd Install.run i s.installs s'.installs
  ownTemps : ∀ loc, (i, loc) ∈ s.temps → (i, loc) ∈ s'.temps
  /-- Nobody else changes its temporary files. Where it has removed one, another run may
  create a directory. -/
  kept : ∀ loc, (i, loc) ∈ s.temps → s'.fs loc = s.fs loc ∨
    s.fs loc = none ∧ s'.fs loc = some .dir ∧ ∃ j, loc ∈ F.way j

theorem Rely.refl (i : ι) (s : Disk ι) : F.Rely i s s :=
  ⟨.refl, .refl, fun _ h => h, fun _ _ => Or.inl rfl⟩

theorem Rely.trans {i : ι} {s s' s'' : Disk ι} (h : F.Rely i s s') (h' : F.Rely i s' s'') :
    F.Rely i s s'' where
  downloads := h.downloads.trans h'.downloads
  installs := h.installs.trans h'.installs
  ownTemps loc hl := h'.ownTemps loc (h.ownTemps loc hl)
  kept loc hl := by
    rcases h.kept loc hl with he | ⟨hn, hd, hv⟩
    · rcases h'.kept loc (h.ownTemps loc hl) with he' | ⟨hn', hd', hv'⟩
      · exact Or.inl (he'.trans he)
      · exact Or.inr ⟨he ▸ hn', hd', hv'⟩
    · rcases h'.kept loc (h.ownTemps loc hl) with he' | ⟨hn', -, -⟩
      · exact Or.inr ⟨hn, he'.trans hd, hv⟩
      · rw [hd] at hn'
        cases hn'

/-- A step of one run is what the others can rely on. -/
theorem Move.rely {i j : ι} (hij : i ≠ j) {s s' : Disk ι} (hm : F.Move i s s')
    (h : F.Inv s) : F.Rely j s s' := by
  have hr : F.Rely j s s := .refl j s
  cases hm with
  | nothing => exact hr
  | download url body => exact ⟨.append hij, hr.installs, hr.ownTemps, hr.kept⟩
  | @mkdir locs hlocs hfree =>
    refine ⟨hr.downloads, hr.installs, hr.ownTemps, fun loc _ => ?_⟩
    -- a directory may appear where a temporary file was
    by_cases hv : loc ∈ locs ∧ s.fs loc = none
    · exact Or.inr ⟨hv.2, if_pos hv, i, hlocs hv.1⟩
    · exact Or.inl (if_neg hv)
  | @create name hname hdir hfree hnew mode =>
    refine ⟨hr.downloads, hr.installs, fun loc hl => List.mem_append_left _ hl,
      fun loc hl => Or.inl ?_⟩
    have hne : loc ≠ F.dirLoc i ++ [F.fold name] := by
      intro he
      exact hnew (he ▸ List.mem_map_of_mem hl)
    rw [Disk.createTemp_fs, Function.update_of_ne hne]
  | @touch loc node hown hfile hthere hnode =>
    refine ⟨hr.downloads, hr.installs, hr.ownTemps, fun loc' hl => Or.inl ?_⟩
    -- a temporary file has one owner
    have hne : loc' ≠ loc := by
      rintro rfl
      exact hij (h.owner_unique hown hl)
    rw [Disk.put_fs, Function.update_of_ne hne]
  | @install loc bytes mode hown hfile hexec hdir hver =>
    refine ⟨hr.downloads, .append hij, hr.ownTemps, fun loc' hl => Or.inl ?_⟩
    have hne : loc' ≠ loc := by
      rintro rfl
      exact hij (h.owner_unique hown hl)
    rw [Disk.moveFile_fs, Function.update_of_ne (h.temp_ne_target hl i),
      Function.update_of_ne hne]

/-- What the rest of the system does is what a run can rely on. -/
theorem rely_of_drift (hF : F.Confined) (i : ι) {s s' : Disk ι} (hd : Disk.Drift F.bin s s')
    (h : F.Inv s) : F.Rely i s s' where
  downloads := hd.downloads ▸ .refl
  installs := hd.installs ▸ .refl
  ownTemps loc hl := hd.temps ▸ hl
  kept loc hl := by
    obtain ⟨name, -, hloc⟩ := h.temps _ hl
    have hloc' : loc = F.dirLoc i ++ [F.fold name] := hloc
    exact Or.inl (hd.below loc (hloc' ▸ (hF.below i).trans (List.prefix_append _ _)))

theorem inv_of_drift (hF : F.Confined) {s s' : Disk ι} (hd : Disk.Drift F.bin s s')
    (h : F.Inv s) : F.Inv s' where
  tree := hd.tree
  temps := hd.temps ▸ h.temps
  nodup := hd.temps ▸ h.nodup
  installs := by
    rw [hd.installs, hd.downloads]
    exact h.installs
  content k := by
    refine (h.content k).congr ?_ (hd.below _ ?_)
    · unfold Disk.lastInstall
      rw [hd.installs]
    · rw [targetLoc]
      exact (hF.below k).trans (List.prefix_append _ _)

/-- The terms on which the runs of a fleet share the disk. -/
def contract (hF : F.Confined) : Contract F.world where
  inv := F.Inv
  rely := F.Rely
  guar := F.Move
  rely_refl := Rely.refl
  rely_trans := Rely.trans
  compat hij h _ hm := hm.rely hij h
  drift_inv h hd := inv_of_drift hF hd h
  drift_rely h hd := rely_of_drift hF _ hd h

end Fleet

end Conduit
