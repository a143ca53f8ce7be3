import Mathlib.Data.Set.Finite.Basic
import ConduitClient.Downloads
import ConduitClient.Effect.Alone

/-!
# Recovery from killed runs

A run of `ensure_binary` that is killed leaves a partial temporary file behind, directories, or
both. There is no lock and no clean-up of what others have left, and none is needed: whatever
the runs before it have done or left undone, a run that begins can finish by itself
(`recovers`).

What the runs never do is stand in the way of one another. `Tidy` says so of the directories
that they share, and is kept by every move (`Move.tidy`).
-/

namespace Conduit

open Effect Py

namespace Fleet

variable {ι : Type} {F : Fleet ι}

/-- What lies in the directories that the runs share. -/
structure Tidy (F : Fleet ι) (s : Disk ι) : Prop where
  /-- Nothing but directories stands on the way from `bin` to the directory of a run. -/
  way : ∀ j, ∀ loc ∈ F.way j, F.bin <+: loc →
    s.fs loc = none ∨ s.fs loc = some .dir
  /-- Every temporary file has been created by a run. -/
  known : ∀ j name, TempName tempFront name → s.fs (F.dirLoc j ++ [F.fold name]) ≠ none →
    F.dirLoc j ++ [F.fold name] ∈ s.temps.map Prod.snd

section Tidy

variable (hs : F.Simple)

include hs

/-- A change of an entry of a directory in which runs install changes no directory on the
way to one. -/
theorem ne_way {loc : Loc} {i j : ι} {name : String} (h : loc ∈ F.way j) :
    loc ≠ F.dirLoc i ++ [name] :=
  fun he => notMem_way hs i j name (he ▸ h)

/-- No move stands in the way of a run. -/
theorem Move.way {i : ι} {s s' : Disk ι} (hm : F.Move i s s') (hI : F.Inv s)
    (h : F.Tidy s) {j : ι} {loc : Loc} (hloc : loc ∈ F.way j) (hbin : F.bin <+: loc) :
    s'.fs loc = none ∨ s'.fs loc = some .dir := by
  have hold := h.way j loc hloc hbin
  cases hm with
  | nothing => exact hold
  | download url body => exact hold
  | @mkdir locs hlocs hfree =>
    -- what is made there is a directory
    rw [Disk.mkdirs_fs, makeDirs]
    split
    · exact Or.inr rfl
    · exact hold
  -- the other moves change entries of directories in which runs install
  | create hname hdir hfree hnew mode =>
    rw [Disk.createTemp_fs, Function.update_of_ne (ne_way hs hloc)]
    exact hold
  | @touch tmp node hown hfile hthere hnode =>
    obtain ⟨name, -, hname⟩ := hI.temps _ hown
    simp only at hname
    rw [Disk.put_fs, hname, Function.update_of_ne (ne_way hs hloc)]
    exact hold
  | @install tmp bytes mode hown hfile hexec hdir hver =>
    obtain ⟨name, -, hname⟩ := hI.temps _ hown
    simp only at hname
    rw [Disk.moveFile_fs, targetLoc, hname, Function.update_of_ne (ne_way hs hloc),
      Function.update_of_ne (ne_way hs hloc)]
    exact hold

/-- A temporary file that a move leaves behind is one that was known, or its own. -/
theorem Move.known {i : ι} {s s' : Disk ι} (hm : F.Move i s s')
    (h : F.Tidy s) {j : ι} {name : String} (hname : TempName tempFront name)
    (hthere : s'.fs (F.dirLoc j ++ [F.fold name]) ≠ none) :
    F.dirLoc j ++ [F.fold name] ∈ s'.temps.map Prod.snd := by
  have hold := h.known j name hname
  cases hm with
  | nothing => exact hold hthere
  | download url body => exact hold hthere
  | @mkdir locs hlocs hfree =>
    -- directories are made on the way to a run's own, where no temporary file lies
    rw [Disk.mkdirs_fs, makeDirs_of_notMem fun hv => notMem_way hs j i _ (hlocs hv)] at hthere
    exact hold hthere
  | @create new hnew₁ hdir hfree hnew mode =>
    rw [Disk.createTemp_fs] at hthere
    show _ ∈ (s.temps ++ [(i, F.dirLoc i ++ [F.fold new])]).map Prod.snd
    rw [List.map_append, List.mem_append]
    -- the new file, or another one, which was there before
    by_cases he : (F.dirLoc j) ++ [F.fold name] = F.dirLoc i ++ [F.fold new]
    · exact Or.inr (List.mem_singleton.mpr he)
    · rw [Function.update_of_ne he] at hthere
      exact Or.inl (hold hthere)
  | @touch tmp node hown hfile hthere' hnode =>
    rw [Disk.put_fs] at hthere
    by_cases he : (F.dirLoc j) ++ [F.fold name] = tmp
    · exact List.mem_map.mpr ⟨(i, tmp), hown, he.symm⟩
    · rw [Function.update_of_ne he] at hthere
      exact hold hthere
  | @install tmp bytes mode hown hfile hexec hdir hver =>
    -- the target has not the name of a temporary file
    rw [Disk.moveFile_fs, Function.update_of_ne (tempName_ne_target hname)] at hthere
    by_cases he : (F.dirLoc j) ++ [F.fold name] = tmp
    · exact List.mem_map.mpr ⟨(i, tmp), hown, he.symm⟩
    · rw [Function.update_of_ne he] at hthere
      exact hold hthere

/-- **The runs leave the shared directories tidy.** -/
theorem Move.tidy {i : ι} {s s' : Disk ι} (hm : F.Move i s s') (hI : F.Inv s) (h : F.Tidy s) :
    F.Tidy s' where
  way _ _ hloc hbin := hm.way hs hI h hloc hbin
  known _ _ hname hthere := hm.known hs h hname hthere

/-- The rest of the system stays out of them. -/
theorem Tidy.drift {s s' : Disk ι} (hd : Disk.Drift F.bin s s') (h : F.Tidy s) :
    F.Tidy s' where
  way j loc hloc hbin := by
    rw [hd.below loc hbin]
    exact h.way j loc hloc hbin
  known j name hname hthere := by
    have hbin : F.bin <+: F.dirLoc j ++ [F.fold name] :=
      (hs.confined.below j).trans (List.prefix_append _ _)
    rw [hd.below _ hbin] at hthere
    rw [hd.temps]
    exact h.known j name hname hthere

/-- So they are tidy in every state that can be reached. -/
theorem Tidy.reach [DecidableEq ι] {c c' : Runs ι} (h : (contract hs.confined).Holds F.Done c)
    (ht : F.Tidy c.state) (hr : Reach F.world c c') : F.Tidy c'.state :=
  h.preserved (P := F.Tidy) (fun _ _ _ hI _ hm => hm.tidy hs hI)
    (fun _ _ _ hd => Tidy.drift hs hd) hr ht

end Tidy

/-! ### A run by itself -/

/-- The file system has any number of names for temporary files. -/
def Spare (F : Fleet ι) : Prop := (Set.image F.fold {name | TempName tempFront name}).Infinite

/-- There is always a name that no run has used. -/
theorem exists_fresh (hspare : F.Spare) (i : ι) (s : Disk ι) :
    ∃ name, TempName tempFront name ∧
      F.dirLoc i ++ [F.fold name] ∉ s.temps.map Prod.snd := by
  have hinj : Function.Injective fun name : String => F.dirLoc i ++ [name] := by
    intro name name' h
    simpa using h
  -- only finitely many places have been used
  obtain ⟨loc, ⟨folded, ⟨name, hname, rfl⟩, rfl⟩, hfresh⟩ :=
    (hspare.image hinj.injOn).exists_notMem_finset (s.temps.map Prod.snd).toFinset
  exact ⟨name, hname, fun h => hfresh (List.mem_toFinset.mpr h)⟩

/-- The directory of run `i` is there, and its target is vacant. -/
structure Open (F : Fleet ι) (i : ι) (fs : Loc → Option Node) : Prop where
  tree : Tree fs
  dir : fs (F.dirLoc i) = some .dir
  vacant : fs (F.targetLoc i) = none

/-- A path in the directory of run `i`. -/
def inDir (F : Fleet ι) (i : ι) (name : String) : PurePath := (F.dir i).child name

/-- Where it leads. -/
def inDirLoc (F : Fleet ι) (i : ι) (name : String) : Loc := F.dirLoc i ++ [F.fold name]

/-- The directory is open, and the file at `name` in it holds `bytes`. -/
def Filled (F : Fleet ι) (i : ι) (name : String) (bytes : Bytes) (fs : Loc → Option Node) :
    Prop :=
  F.Open i fs ∧ ∃ mode, fs (F.inDirLoc i name) = some (.file bytes mode)

section Alone

variable {i : ι} {s : Disk ι} {fs : Loc → Option Node} {name : String}

/-- A temporary file has a plain name, so its path leads into the directory, whatever links there
are above it. -/
theorem place_inDir (hs : F.Simple) (hname : TempName tempFront name) :
    (F.names i).place (F.inDir i name) = F.inDirLoc i name :=
  hs.confined.place_temp i hname

/-- What is found at its path is what lies there. -/
theorem Open.lookup_inDir (hs : F.Simple) (h : F.Open i fs) (hname : TempName tempFront name) :
    lookup (F.names i) fs (F.inDir i name) = fs (F.inDirLoc i name) :=
  lookup_child hs h.tree i (tempName_plain hname _)

/-- And the directory is found. -/
theorem Open.lookup_dir (hs : F.Simple) (h : F.Open i fs) :
    lookup (F.names i) fs (F.dir i) = some .dir := by
  refine (lookup_of_straight h.tree fun loc hloc => ?_).trans h.dir
  -- the way there ends at the library's directory
  have hbin := through_dir hs hloc
  refine ⟨hbin.trans (hs.confined.below i), fun he => ?_⟩
  have hlen := hbin.length_le
  rw [he, ← dirLoc, dirLoc_eq hs, List.length_append, List.length_singleton] at hlen
  omega

/-- A temporary file does not close it. -/
theorem Open.update (h : F.Open i fs) (hname : TempName tempFront name) {node : Option Node}
    (hold : fs (F.inDirLoc i name) ≠ some .dir) :
    F.Open i (Function.update fs (F.inDirLoc i name) node) := by
  have hne : F.dirLoc i ≠ F.inDirLoc i name := by
    intro he
    simpa [inDirLoc] using congrArg List.length he
  refine ⟨?_, ?_, ?_⟩
  · -- the new node has the directory of the run as its parent
    refine tree_update h.tree hold (by simp [inDirLoc]) fun _ => ?_
    rw [inDirLoc, List.dropLast_concat]
    exact h.dir
  · rw [Function.update_of_ne hne]
    exact h.dir
  · rw [inDirLoc, Function.update_of_ne (tempName_ne_target hname).symm]
    exact h.vacant

/-- With a file in it the directory is filled. -/
theorem Open.filled (h : F.Open i fs) (hname : TempName tempFront name)
    (hold : fs (F.inDirLoc i name) ≠ some .dir) (bytes : Bytes) (mode : Nat) :
    F.Filled i name bytes (Function.update fs (F.inDirLoc i name) (some (.file bytes mode))) :=
  ⟨h.update hname hold, mode, Function.update_self _ _ _⟩

/-- The directory of a run can be made where nothing is in the way. -/
theorem Open.makeDirs (hs : F.Simple) (ht : Tree fs) (hway : Passable fs (F.way i))
    (hvacant : fs (F.targetLoc i) = none) : F.Open i (makeDirs fs (F.way i)) := by
  refine ⟨tree_makeDirs ht hway, ?_, ?_⟩
  · -- the directory is the last one on the way: it is made, or was there
    have hdir : F.dirLoc i ∈ F.way i := Names.place_mem_way
    rcases (hway _ hdir).1 with hnone | hdir'
    · exact if_pos ⟨hdir, hnone⟩
    · rw [Conduit.makeDirs, if_neg (by simp [hdir']), hdir']
  · -- the target itself is not on the way
    rw [makeDirs_of_notMem (hs.confined.clear i i)]
    exact hvacant

/-- The way to the directory of a run is clear if the way to the library's is. -/
theorem Tidy.passable (hs : F.Simple) (h : F.Tidy s)
    (hway : Passable s.fs ((F.names i).way (binPath (F.host i)))) :
    Passable s.fs (F.way i) := by
  intro loc hloc
  have hsplit : F.way i = (F.names i).way (binPath (F.host i)) ++ [F.dirLoc i] := by
    rw [Fleet.way, dir_eq hs, Names.way_child, ← dir_eq hs, dirLoc]
  have hold := hloc
  rw [hsplit, List.mem_append, List.mem_singleton] at hloc
  rcases hloc with hup | rfl
  · -- up to the library's directory, by assumption
    refine ⟨(hway loc hup).1, (hway loc hup).2.imp_left fun hparent => ?_⟩
    rw [hsplit]
    exact List.mem_append_left _ hparent
  · -- its parent is the library's directory
    refine ⟨h.way i _ hold (hs.confined.below i), Or.inl ?_⟩
    rw [hsplit, dirLoc_eq hs, List.dropLast_concat, ← F.shares i]
    exact List.mem_append_left _ Names.place_mem_way

/-- A step that can succeed. -/
theorem can_step {α : Type} {p : ProvisionM (Except Exn α)} {M : α → Disk ι → Prop} {a : α}
    {s' : Disk ι}
    (h : Can F.world i (Contract.Returns fun r t => r = .ok a ∧ t = s') p s)
    (hM : M a s') : Can F.world i (Contract.Returns M) (Provision.step p) s :=
  Can.orRaise hM h

/-- An operation can have any answer that the world allows. -/
theorem can_ask {o : ProvisionOp} {a : ProvisionAns o} {s' : Disk ι}
    (ha : Disk.answer (F.names i) i s o a s') :
    Can F.world i (Contract.Returns fun r t => r = a ∧ t = s')
      (Provision.ask o) s :=
  ⟨a, s', ha, rfl, rfl⟩

/-- One byte more can be written. -/
theorem can_write (hs : F.Simple) (hname : TempName tempFront name) {bytes : Bytes} (byte : UInt8)
    (h : F.Filled i name bytes s.fs) :
    Can F.world i
      (Contract.Returns fun _ t => F.Filled i name (bytes ++ [byte]) t.fs)
      (Provision.step (Provision.ask (.write (F.inDir i name) byte))) s := by
  obtain ⟨hopen, mode, hfile⟩ := h
  have ha : Disk.answer (F.names i) i s (.write (F.inDir i name) byte) (.ok ())
      (s.put (F.inDirLoc i name) (some (.file (bytes ++ [byte]) mode))) :=
    ⟨bytes, mode, (hopen.lookup_inDir hs hname).trans hfile, by rw [place_inDir hs hname]⟩
  exact can_step (can_ask ha) (hopen.filled hname (by simp [hfile]) _ mode)

/-- The temporary file can be filled and moved into place. -/
theorem can_fill (hs : F.Simple) (hname : TempName tempFront name) (binary : Bytes)
    (h : F.Filled i name [] s.fs) :
    Can F.world i
      (Contract.Returns fun _ t => t.fs (F.inDirLoc i name) = none)
      (Provision.fill (F.inDir i name) (F.target i) binary) s := by
  -- the bytes: after each of them the file holds what has been written so far
  refine Can.bind (Can.forEach (P := fun pre t => F.Filled i name pre t.fs)
    (fun _ byte _ hs' => can_write hs hname byte hs') [] binary h) ?_
  rintro - s₁ ⟨hopen, mode, hfile⟩
  have hlookup := (hopen.lookup_inDir hs hname).trans hfile
  have hstat : Disk.answer (F.names i) i s₁ (.stat (F.inDir i name)) (.ok mode) s₁ :=
    ⟨rfl, _, hlookup⟩
  refine Can.bind (can_step (M := fun m t => m = mode ∧ t = s₁) (can_ask hstat) ⟨rfl, rfl⟩) ?_
  rintro m t ⟨rfl, rfl⟩
  have hchmod : Disk.answer (F.names i) i t
      (.chmod (F.inDir i name) (Provision.executable m)) (.ok ())
      (t.put (F.inDirLoc i name) (some (.file binary (Provision.executable m)))) :=
    ⟨binary, m, hlookup, by rw [place_inDir hs hname]⟩
  refine Can.bind (can_step (M := fun _ t => F.Filled i name binary t.fs) (can_ask hchmod)
    (hopen.filled hname (by simp [hfile]) _ _)) ?_
  rintro - s₂ ⟨hopen₂, mode₂, hfile₂⟩
  -- nothing of this has touched the target
  have hvacant : s₂.fs ((F.names i).place (F.target i)) ≠ some .dir := by
    rw [hs.confined.place_target, hopen₂.vacant]
    exact (Option.some_ne_none _).symm
  have hdir : lookup (F.names i) s₂.fs (F.target i).parent = some .dir := by
    rw [target_parent]
    exact hopen₂.lookup_dir hs
  have hreplace : Disk.answer (F.names i) i s₂ (.replace (F.inDir i name) (F.target i)) (.ok ())
      (s₂.moveFile i (F.inDirLoc i name) (F.targetLoc i) binary mode₂) :=
    ⟨binary, mode₂, (hopen₂.lookup_inDir hs hname).trans hfile₂, hdir, hvacant, by
      rw [place_inDir hs hname, hs.confined.place_target]⟩
  refine can_step (can_ask hreplace) ?_
  rw [Disk.moveFile_fs, inDirLoc, Function.update_of_ne (tempName_ne_target hname),
    Function.update_self]

/-- So it can be made. -/
theorem can_mkdir (hway : Passable s.fs (F.way i)) :
    Can F.world i (Contract.Returns fun _ t => t = s.mkdirs (F.way i))
      (Provision.step (Provision.ask (.mkdir (F.dir i)))) s := by
  have ha : Disk.answer (F.names i) i s (.mkdir (F.dir i)) (.ok ()) (s.mkdirs (F.way i)) :=
    ⟨F.way i, List.Subset.refl _, Names.place_mem_way, hway, rfl⟩
  exact can_step (can_ask ha) rfl

/-- A temporary file can be created in it. -/
theorem can_mkstemp (hs : F.Simple) (hopen : F.Open i s.fs) (hname : TempName tempFront name)
    (hfree : s.fs (F.inDirLoc i name) = none)
    (hfresh : (F.inDirLoc i name) ∉ s.temps.map Prod.snd) :
    Can F.world i
      (Contract.Returns fun tmp t => tmp = F.inDir i name ∧ F.Filled i name [] t.fs)
      (Provision.step (Provision.ask (.mkstemp (F.dir i) tempFront))) s := by
  have ha : Disk.answer (F.names i) i s (.mkstemp (F.dir i) tempFront) (.ok (F.inDir i name))
      (s.createTemp i (F.inDirLoc i name) 0o600) :=
    ⟨name, hname, rfl, hopen.lookup_dir hs, (place_inDir hs hname).symm ▸ hfree,
      (place_inDir hs hname).symm ▸ hfresh, by rw [← place_inDir hs hname]⟩
  exact can_step (can_ask ha) ⟨rfl, hopen.filled hname (by simp [hfree]) [] 0o600⟩

/-- Where the temporary file is gone, nothing is left to remove. -/
theorem can_unlink (hs : F.Simple) (hname : TempName tempFront name)
    (hgone : s.fs (F.inDirLoc i name) = none) :
    Can F.world i (Contract.Returns fun _ _ => True)
      (Provision.step (Provision.ask (.unlink (F.inDir i name)))) s := by
  have hlookup : lookup (F.names i) s.fs (F.inDir i name) = none := by
    by_contra hthere
    exact fs_ne_none_of_lookup hthere (by rw [place_inDir hs hname, hgone])
  have ha : Disk.answer (F.names i) i s (.unlink (F.inDir i name)) (.ok ()) s :=
    Or.inl ⟨hlookup, rfl⟩
  exact can_step (can_ask ha) trivial

/-- The binary can be installed where nothing is in the way. -/
theorem can_install (hs : F.Simple) (hspare : F.Spare) (binary : Bytes) (ht : Tree s.fs)
    (hway : Passable s.fs (F.way i))
    (hvacant : s.fs (F.targetLoc i) = none)
    (hknown : ∀ name, TempName tempFront name → s.fs (F.dirLoc i ++ [F.fold name]) ≠ none →
      F.dirLoc i ++ [F.fold name] ∈ s.temps.map Prod.snd) :
    Can F.world i (Contract.Returns fun _ _ => True)
      (Provision.install (F.target i) binary) s := by
  -- a name that no run has used is free, since every temporary file is known
  obtain ⟨name, hname, hfresh⟩ := exists_fresh hspare i s
  have hfree : (s.mkdirs (F.way i)).fs (F.inDirLoc i name) = none := by
    rw [Disk.mkdirs_fs, inDirLoc, makeDirs_of_notMem (notMem_way hs i i _)]
    by_contra hthere
    exact hfresh (hknown name hname hthere)
  have hopen : F.Open i (s.mkdirs (F.way i)).fs := by
    rw [Disk.mkdirs_fs]
    exact Open.makeDirs hs ht hway hvacant
  have hnew : (F.inDirLoc i name) ∉ (s.mkdirs (F.way i)).temps.map Prod.snd := by
    rw [Disk.mkdirs_temps]
    exact hfresh
  unfold Provision.install
  rw [target_parent]
  refine Can.bind (can_mkdir hway) ?_
  rintro - t rfl
  refine Can.bind (can_mkstemp hs hopen hname hfree hnew) ?_
  rintro tmp t ⟨rfl, hfilled⟩
  -- the last step finds that the file has been moved
  exact Can.tryFinally (can_fill hs hname binary hfilled) fun _ _ hgone =>
    can_unlink hs hname hgone

/-- Two files can be downloaded, whatever is in them. -/
theorem can_download (version name : String) (archive checksums : Bytes) :
    Can F.world i
      (Contract.Returns fun fetched t =>
        fetched = (archive, checksums) ∧ t.fs = s.fs ∧ t.temps = s.temps)
      (Provision.download version name) s := by
  have hget (url : String) (body : Bytes) (t : Disk ι) :
      Disk.answer (F.names i) i t (.httpGet url) (.ok body) (t.logDownload i url (some body)) := rfl
  refine Can.tryCatch (Can.bind (can_step (M := fun b t => b = archive ∧ t.fs = s.fs ∧
    t.temps = s.temps) (can_ask (hget _ archive s)) ⟨rfl, rfl, rfl⟩) ?_)
  rintro a t ⟨rfl, hfs, htemps⟩
  refine Can.bind (can_step (M := fun b t' => b = checksums ∧ t'.fs = s.fs ∧
    t'.temps = s.temps) (can_ask (hget _ checksums t)) ⟨rfl, hfs, htemps⟩) ?_
  rintro b t' ⟨rfl, hfs', htemps'⟩
  exact ⟨rfl, hfs', htemps'⟩

/-- **A run can finish by itself** where nothing is in its way. -/
theorem can_finish (hs : F.Simple) (hspare : F.Spare) (hI : F.Inv s) (ht : F.Tidy s)
    (hway : Passable s.fs ((F.names i).way (binPath (F.host i))))
    {archive checksums binary : Bytes}
    (hname : archiveName F.tools.toRuntime (F.host i) (F.resolved i) = .ok name)
    (hver : Provision.verified F.tools (F.host i) name archive checksums = .ok binary) :
    Can F.world i (Contract.Returns fun p _ => p = F.target i) (F.program i) s := by
  rw [program, ensureBinary_eq hname]
  have hlook := lookup_target hs hI i
  by_cases hvacant : s.fs (F.targetLoc i) = none
  · -- nothing is cached: both files are downloaded and the binary is installed
    have hnone : lookup (F.names i) s.fs (F.target i) = none := hlook.trans hvacant
    refine ⟨false, s, ⟨rfl, fun h => absurd h Bool.false_ne_true, fun h => absurd hnone h⟩, ?_⟩
    show Can _ _ _ (acquire F.tools (F.host i) (F.resolved i) name >>= fun binary =>
      Provision.install (F.target i) binary >>= fun _ => pure (F.target i)) s
    have hacquire : Can F.world i
        (Contract.Returns fun b t => b = binary ∧ t.fs = s.fs ∧ t.temps = s.temps)
        (acquire F.tools (F.host i) (F.resolved i) name) s := by
      refine Can.bind (can_download (F.resolved i) name archive checksums) ?_
      rintro - t ⟨rfl, hfs, htemps⟩
      rw [hver]
      exact ⟨rfl, hfs, htemps⟩
    refine Can.bind hacquire ?_
    rintro - t ⟨rfl, hfs, htemps⟩
    refine Can.bind (can_install hs hspare _ ?_ ?_ ?_ ?_) fun _ _ _ => rfl
    · rw [hfs]
      exact hI.tree
    · rw [hfs]
      exact ht.passable hs hway
    · rw [hfs]
      exact hvacant
    · rw [hfs, htemps]
      exact ht.known i
  · -- the fast path
    have hthere : lookup (F.names i) s.fs (F.target i) ≠ none := by
      rw [hlook]
      exact hvacant
    exact ⟨true, s, ⟨rfl, fun _ => hthere, fun _ => rfl⟩, rfl⟩

end Alone

/-- **Recovery.** Any number of runs, each for a version that is a single path component, have
been started (`Began`) on a cache without other files (`Tidy`), on a file system that takes every
version for the name of a directory and has names to spare, have been interleaved in any way and
killed at any step. A run that has not begun yet can still finish by itself, if the release is to
be had and nothing is in the way of the library's directory: it returns the path of the binary, and
what is there has been verified. -/
theorem recovers [DecidableEq ι] (hs : F.Simple) (hspare : F.Spare) {c₀ c : Runs ι}
    (h₀ : F.Began c₀) (ht : F.Tidy c₀.state) (hr : Reach F.world c₀ c) {i : ι}
    (hi : c.thread i = some (F.program i))
    (hway : Passable c.state.fs ((F.names i).way (binPath (F.host i))))
    {name : String} {archive checksums binary : Bytes}
    (hname : archiveName F.tools.toRuntime (F.host i) (F.resolved i) = .ok name)
    (hver : Provision.verified F.tools (F.host i) name archive checksums = .ok binary) :
    ∃ c', Relation.ReflTransGen (StepBy F.world i) c c' ∧
      c'.Ended i (.ok (F.target i)) ∧
      ∃ bytes mode k, lookup (F.names i) c'.state.fs (F.target i) = some (.file bytes mode) ∧
        mode.testBit 6 = true ∧ (F.targetLoc k) = F.targetLoc i ∧
        F.Verified c'.state.downloads k bytes := by
  have h := (h₀.holds hs.confined).reach hr
  have htidy : F.Tidy c.state := Tidy.reach hs (h₀.holds hs.confined) ht hr
  obtain ⟨c', r, hsteps, hend, hQ, -⟩ :=
    Can.reach hi (can_finish hs hspare h.inv htidy hway hname hver)
  -- its steps are steps of the fleet, so the contract says what it has returned
  have h' := h.reach (Reach.of_stepBy hsteps)
  cases r with
  | error e => exact hQ.elim
  | ok p =>
    obtain rfl : p = F.target i := hQ
    refine ⟨c', hsteps, hend, ?_⟩
    have hpresent : F.Present i c'.state := (h'.ended hend).2
    obtain ⟨bytes, mode, k, hfile, hexec, htarget, hverified⟩ :=
      h'.inv.verified i ((h'.inv.present_iff i).mp hpresent)
    exact ⟨bytes, mode, k, (lookup_target hs h'.inv i).trans hfile, hexec, htarget, hverified⟩

/-! ### Two runs, one of them killed -/

/-- Two runs for the same release. -/
def pair : Fleet Bool := onLinux fun _ => none

/-- Both at their beginning. -/
def pairStart : Runs Bool := ⟨fun i => some (pair.program i), emptyDisk Bool⟩

theorem pair_simple : pair.Simple :=
  atHome_simple (fun _ => rfl) (by rintro (_ | _) <;> decide)

theorem pair_spare : pair.Spare := by
  let name (n : ℕ) : String := tempFront ++ String.ofList (List.replicate n 'x')
  refine Set.infinite_of_injective_forall_mem (f := name) (fun m n h => ?_) fun n => ?_
  · have hlength := congrArg (fun str : String => str.toList.length) h
    simpa [name] using hlength
  · exact ⟨name n, ⟨_, rfl, by simp, by simp⟩, rfl⟩

theorem pair_began : pair.Began pairStart :=
  ⟨fun _ _ hp => (Option.some.inj hp).symm, emptyDisk_tree Bool, by rintro (_ | _) <;> decide,
    rfl, rfl, rfl⟩

/-- There is nothing below a directory that is not there. -/
theorem emptyDisk_below {loc : Loc} (h : pair.bin <+: loc) : (emptyDisk Bool).fs loc = none := by
  refine if_neg fun hle => ?_
  exact absurd (h.trans hle) (by decide)

theorem pair_tidy : pair.Tidy (emptyDisk Bool) where
  way _ _ _ hbin := Or.inl (emptyDisk_below hbin)
  known i _ _ hthere :=
    absurd (emptyDisk_below ((pair_simple.confined.below i).trans (List.prefix_append _ _))) hthere

theorem releaseBinary_verified :
    Provision.verified releaseTools linuxHost releaseAsset releaseArchive releaseChecksums =
      .ok [0x7f] := by
  have hlisted : listedDigest releaseChecksums releaseAsset =
      .ok (some (releaseTools.sha256 releaseArchive)) := releaseAsset_listed
  rw [Provision.verified, verifyChecksum_ok_iff.mpr hlisted]
  rfl

theorem recovers_pair :
    ∃ c c' : Runs Bool, c.thread false = none ∧ Reach pair.world pairStart c ∧
      Relation.ReflTransGen (StepBy pair.world true) c c' ∧
      c'.Ended true (.ok releasePath) := by
  let c : Runs Bool := ⟨Function.update pairStart.thread false none, emptyDisk Bool⟩
  have hreach : Reach pair.world pairStart c := .single (.kill false)
  have hway : Passable c.state.fs (Names.posix.way (binPath linuxHost)) := by decide
  obtain ⟨c', hsteps, hend, -⟩ := recovers pair_simple pair_spare pair_began pair_tidy hreach
    (i := true) rfl hway releaseAsset_name releaseBinary_verified
  exact ⟨c, c', rfl, hreach, hsteps, hend⟩

end Fleet

end Conduit
