import ConduitClient.Leftovers

/-!
# The footprint of `ensure_binary`

What a run touches: of the network, at most two files of its own release (`asks_for_own_release`);
of the cache, nothing that belongs to another version (`versions_apart`).

The first holds for any version string and on any disk, so the contract of the fleet is not
needed: a run counts on nobody else downloading in its name, and every download of a run is the
next one of `Requests`.
-/

namespace Conduit

open Effect Py

namespace Fleet

variable {ι : Type} [DecidableEq ι] {F : Fleet ι}

/-! ### The network -/

/-- The downloads of run `i`. -/
def own (i : ι) (s : Disk ι) : List (Download ι) := s.downloads.filter (·.run = i)

/-- What a run may have downloaded: the checksums only after it has received the archive. -/
inductive Requests (F : Fleet ι) (i : ι) : List (Download ι) → Prop
  | nothing : Requests F i []
  | archive {name : String}
      (hname : archiveName F.tools.toRuntime (F.host i) (F.resolved i) = .ok name)
      (body : Option Bytes) : Requests F i [⟨i, archiveUrl (F.resolved i) name, body⟩]
  | both {name : String}
      (hname : archiveName F.tools.toRuntime (F.host i) (F.resolved i) = .ok name)
      (archive : Bytes) (body : Option Bytes) :
      Requests F i [⟨i, archiveUrl (F.resolved i) name, some archive⟩,
        ⟨i, checksumsUrl (F.resolved i), body⟩]

/-- The run has downloaded `ds`. -/
def Asked (i : ι) (ds : List (Download ι)) (s : Disk ι) : Prop := own i s = ds

/-- The two files of a release, as a run has received them. -/
def releaseOf (F : Fleet ι) (i : ι) (name : String) (fetched : Bytes × Bytes) :
    List (Download ι) :=
  [⟨i, archiveUrl (F.resolved i) name, some fetched.1⟩,
    ⟨i, checksumsUrl (F.resolved i), some fetched.2⟩]

/-- The run has received both files of its release, and asked for nothing else. -/
def Received (F : Fleet ι) (i : ι) (s : Disk ι) : Prop :=
  ∃ name fetched, archiveName F.tools.toRuntime (F.host i) (F.resolved i) = .ok name ∧
    Asked i (F.releaseOf i name fetched) s

variable (F) in
/-- Nobody downloads in the name of another run. -/
def requests (names : ι → Names) (bin : Loc) : Contract (Disk.world names bin) where
  inv s := ∀ i, F.Requests i (own i s)
  rely i s s' := own i s' = own i s
  guar i s s' := ∀ j, j ≠ i → own j s' = own j s
  rely_refl _ _ := rfl
  rely_trans h h' := h'.trans h
  compat hij _ _ hg := hg _ hij.symm
  drift_inv h hd i := by
    rw [own, hd.downloads]
    exact h i
  drift_rely _ hd := by rw [own, own, hd.downloads]

section Network

variable {names : ι → Names} {bin : Loc} {i : ι} {ds : List (Download ι)} {α : Type}

theorem stable_asked : (F.requests names bin).Stable i (Asked i ds) :=
  fun _ _ _ _ hr h => hr.trans h

/-- A program that downloads nothing. -/
theorem quiet_triple {p : ProvisionM α} (hp : p.Only AsksNothing) :
    (F.requests names bin).Triple i (Asked i ds) p fun _ => Asked i ds := by
  intro s hI hs
  -- on the program, from any state: the others may go on between two operations
  induction p generalizing s with
  | done r => exact fun s' _ hr => hr.trans hs
  | op o k ih =>
    intro s' hI' hr a s'' ha
    -- nothing is downloaded, so the downloads of every run are as before
    have hsame (j : ι) : own j s'' = own j s' := by
      rw [own, own, (Disk.answer_frame ha).2 hp.1]
    refine ⟨fun j => ?_, fun j _ => hsame j, ih a (hp.2 a) s'' ?_ ?_⟩
    · rw [hsame]
      exact hI' j
    · intro j
      rw [hsame]
      exact hI' j
    · exact (hsame i).trans (hr.trans hs)

/-- A download is the last one of its run, and none of another one. -/
theorem own_logDownload (j : ι) (s : Disk ι) (url : String) (body : Option Bytes) :
    own j (s.logDownload i url body) = own j s ++ if i = j then [⟨i, url, body⟩] else [] := by
  rw [own, Disk.logDownload, List.filter_append, own]
  by_cases h : i = j <;> simp [h]

/-- A download that may come next. -/
theorem get_triple (url : String) (h : ∀ body, F.Requests i (ds ++ [⟨i, url, body⟩])) :
    (F.requests names bin).Triple i (Asked i ds) (Provision.step (Provision.ask (.httpGet url)))
      (Contract.Post (fun body => Asked i (ds ++ [⟨i, url, some body⟩]))
        fun _ => Asked i (ds ++ [⟨i, url, none⟩])) := by
  have hstable (es : List (Download ι)) : (F.requests names bin).Stable i (Asked i es) :=
    stable_asked
  have hQ := Contract.Stable.post (fun body : Bytes => hstable (ds ++ [⟨i, url, some body⟩]))
    fun _ : Exn => hstable (ds ++ [⟨i, url, none⟩])
  refine Contract.Triple.orRaise hQ (Contract.Triple.perform stable_asked hQ ?_)
  rintro s a s' hI hs rfl
  have hown : own i (s.logDownload i url a.toOption) = ds ++ [⟨i, url, a.toOption⟩] := by
    rw [own_logDownload, if_pos rfl, hs]
  have hothers (j : ι) (hj : j ≠ i) : own j (s.logDownload i url a.toOption) = own j s := by
    rw [own_logDownload, if_neg hj.symm, List.append_nil]
  refine ⟨fun j => ?_, hothers, ?_⟩
  · -- the invariant: this run asks for what is next, and the others have asked for nothing
    by_cases hj : j = i
    · rw [hj, hown]
      exact h a.toOption
    · rw [hothers j hj]
      exact hI j
  · -- a failed download is on record as well, without a body
    cases a with
    | ok body => exact hown
    | error e => exact hown

/-- Some list of downloads, whichever. -/
def AskedSome (i : ι) (s : Disk ι) : Prop := ∃ ds, Asked i ds s

theorem stable_askedSome : (F.requests names bin).Stable i (AskedSome i) :=
  Contract.Stable.exists fun _ => stable_asked

/-- The checksums are asked for when the archive is there. -/
theorem download_asks {name : String}
    (hname : archiveName F.tools.toRuntime (F.host i) (F.resolved i) = .ok name) :
    (F.requests names bin).Triple i (Asked i []) (Provision.download (F.resolved i) name)
      (Contract.Post (fun fetched => Asked i (F.releaseOf i name fetched))
        fun _ => AskedSome i) := by
  refine Contract.Triple.tryCatch (Q := Contract.Post
    (fun fetched => Asked i (F.releaseOf i name fetched)) fun _ => AskedSome i) ?_ ?_ ?_
  · -- the archive; the checksums only if it has come
    refine Contract.Triple.bind_post (fun _ => stable_askedSome) ((get_triple _ fun body =>
      .archive hname body).weaken (fun _ _ h => h) fun _ _ h => ⟨_, h⟩) fun archive => ?_
    refine Contract.Triple.bind_post (fun _ => stable_askedSome) ((get_triple _ fun body =>
      .both hname archive body).weaken (fun _ _ h => h) fun _ _ h => ⟨_, h⟩) fun checksums => ?_
    exact .done stable_asked fun _ _ h => h
  · exact fun fetched => .done stable_asked fun _ _ h => h
  · -- an `OSError` is translated, which asks for nothing
    intro e
    cases e <;> exact .done stable_askedSome fun _ _ h => h

/-- How a run ends: a path is returned for nothing, or for both files. -/
def Settled (F : Fleet ι) (i : ι) : Except Exn PurePath → Disk ι → Prop :=
  Contract.Post (fun _ s => Asked i [] s ∨ F.Received i s) fun _ => AskedSome i

/-- The installation is local. -/
theorem only_install (target : PurePath) (binary : Bytes) :
    (Provision.install target binary).Only AsksNothing := by
  refine Prog.Only.bind (only_step (.perform nofun)) fun _ => ?_
  refine Prog.Only.bind (only_step (.perform nofun)) fun tmp => ?_
  refine Prog.Only.handle ((only_fill tmp target binary).mono fun _ ho => ho.2) fun r => ?_
  exact Prog.Only.bind (only_step (.perform nofun)) fun _ => trivial

/-- Verification and extraction ask for nothing: a binary is there only after both downloads. -/
theorem acquire_asks {name : String}
    (hname : archiveName F.tools.toRuntime (F.host i) (F.resolved i) = .ok name) :
    (F.requests names bin).Triple i (Asked i []) (acquire F.tools (F.host i) (F.resolved i) name)
      (Contract.Post (fun _ => F.Received i) fun _ => AskedSome i) := by
  refine Contract.Triple.bind_post (fun _ => stable_askedSome) (download_asks hname)
    fun fetched => ?_
  cases Provision.verified F.tools (F.host i) name fetched.1 fetched.2 with
  | error e => exact .done stable_asked fun _ _ h => ⟨_, h⟩
  | ok binary => exact .done stable_asked fun _ _ h => ⟨name, fetched, hname, h⟩

/-- Nor does the installation, however it ends. -/
theorem install_asks (binary : Bytes) :
    (F.requests names bin).Triple i (F.Received i) (Provision.install (F.target i) binary)
      fun _ => F.Received i := by
  rintro s hI ⟨name, fetched, hname, hs⟩
  exact (quiet_triple (only_install (F.target i) binary) s hI hs).mono
    fun _ _ _ h => ⟨name, fetched, hname, h⟩

/-- **A single run.** It downloads what `Requests` says, and ends as `Settled` does. -/
theorem program_asks :
    (F.requests names bin).Triple i (Asked i []) (F.program i) (F.Settled i) := by
  have hlooks : AsksNothing (.pathExists (F.target i)) := by
    intro url h
    cases h
  have hcheck : (F.requests names bin).Triple i (Asked i [])
      (Provision.ask (.pathExists (F.target i))) fun _ => Asked i [] :=
    quiet_triple (.perform hlooks)
  have hsome {α : Type} {M : α → Disk ι → Prop} (e : Exn) :
      (F.requests names bin).Triple i (Asked i []) (.done (.error e))
        (Contract.Post M fun _ => AskedSome i) :=
    .done stable_asked fun _ _ h => ⟨_, h⟩
  have hreceived : (F.requests names bin).Stable i (F.Received i) := by
    rintro _ _ _ _ hr ⟨name, fetched, hname, h⟩
    exact ⟨name, fetched, hname, hr.trans h⟩
  cases hname : archiveName F.tools.toRuntime (F.host i) (F.resolved i) with
  | error e =>
    -- the platform has no archive, so only a cached binary can be returned
    rw [program, ensureBinary_unsupported hname]
    refine hcheck.bind (fun there => ?_) hsome
    cases there with
    | true => exact .done stable_asked fun s _ h => Or.inl h
    | false => exact hsome e
  | ok name =>
    rw [program, ensureBinary_eq hname]
    refine hcheck.bind (fun there => ?_) hsome
    cases there with
    -- the fast path asks for nothing
    | true => exact .done stable_asked fun s _ h => Or.inl h
    | false =>
      refine (acquire_asks hname).bind (fun binary => ?_) fun e => ?_
      · refine (install_asks binary).bind (fun _ => ?_) fun e => ?_
        · exact .done hreceived fun _ _ h => Or.inr h
        · exact .done hreceived fun _ _ h => h.elim fun _ h => h.elim fun _ h => ⟨_, h.2⟩
      · exact .done stable_askedSome fun _ _ h => h

/-- **What a run asks of the network.** For any hosts and version strings, on any disk, in every
interleaving: a run asks for the archive of its own platform and version, and when it has
received that, for the checksums of its version; never for anything else, nor for anything
twice. A run that has returned has asked for nothing, or has received both. -/
theorem asks_for_own_release {c₀ c : Runs ι} (names : ι → Names) (bin : Loc)
    (hthreads : ∀ i p, c₀.thread i = some p → p = F.program i)
    (hnone : c₀.state.downloads = []) (hr : Reach (Disk.world names bin) c₀ c) (i : ι) :
    F.Requests i (own i c.state) ∧
      ∀ p, c.Ended i (.ok p) → own i c.state = [] ∨ F.Received i c.state := by
  have hown (j : ι) : own j c₀.state = [] := by
    rw [own, hnone]
    rfl
  -- at the beginning nobody has asked for anything, whatever lies on the disk
  have hstart : (F.requests names bin).Holds F.Settled c₀ := by
    refine ⟨fun j => ?_, fun j p hp => ?_⟩
    · rw [hown j]
      exact .nothing
    · rw [hthreads j p hp]
      refine program_asks c₀.state (fun k => ?_) (hown j)
      rw [hown k]
      exact .nothing
  have h := hstart.reach hr
  exact ⟨h.inv i, fun p he => h.ended he⟩

theorem asks_for_own_release_pair :
    ∃ c : Runs Bool, c.Ended true (.ok releasePath) ∧ pair.Received true c.state := by
  obtain ⟨c, hreach, hend, hstate, -⟩ := (Disk.handle_lawful pair.names releaseNet pair.bin true
    (pair.program true) (emptyDisk Bool)).exists_reach (t := pairStart.thread) rfl
  have hended : c.Ended true (.ok releasePath) := by
    rw [← pairResult_eq.1]
    exact hend
  -- it has downloaded something, so it has received both files
  have hlength : (own true pairResult.2).length = 2 := by
    have hruns := congrArg (fun runs => (runs.filter (· = true)).length) pairResult_eq.2.2
    simpa [List.filter_map, Function.comp_def, own] using hruns
  have hasked :=
    (asks_for_own_release pair.names pair.bin pair_began.threads rfl hreach true).2 _ hended
  refine ⟨c, hended, hasked.resolve_left fun hnil => ?_⟩
  have hstate' : c.state = pairResult.2 := hstate
  rw [← hstate', hnil] at hlength
  cases hlength

end Network

/-! ### The cache -/

section Versions

variable (hs : F.Simple) {i : ι} {v : String} {loc : Loc}

include hs

omit [DecidableEq ι] in
/-- What belongs to a version is in no directory of another one. -/
theorem fold_of_below {name : String} (hbelow : F.bin ++ [F.fold v] <+: loc)
    (hloc : loc <+: F.dirLoc i ++ [name]) : F.fold (F.resolved i) = F.fold v := by
  have hprefix := hbelow.trans hloc
  rw [dirLoc_eq hs, List.append_assoc, List.prefix_append_right_inj] at hprefix
  obtain ⟨rest, hrest⟩ := hprefix
  exact (List.cons.inj hrest).1.symm

omit [DecidableEq ι] in
/-- No move of a run for another version reaches it. -/
theorem Move.apart {s s' : Disk ι} (hm : F.Move i s s') (hI : F.Inv s)
    (hv : F.fold (F.resolved i) ≠ F.fold v) (hbelow : F.bin ++ [F.fold v] <+: loc) :
    s'.fs loc = s.fs loc := by
  -- every file that a move writes lies in the run's own directory
  have hne (name : String) : loc ≠ F.dirLoc i ++ [name] := by
    rintro rfl
    exact hv (fold_of_below hs hbelow List.prefix_rfl)
  cases hm with
  | nothing => rfl
  | download url body => rfl
  | @mkdir locs hlocs hfree =>
    -- a directory that is made lies on the way to the run's own one
    rw [Disk.mkdirs_fs]
    refine makeDirs_of_notMem fun hmem => ?_
    have hway := hlocs hmem
    rw [Fleet.way, dir_eq hs, Names.way_child, ← dir_eq hs, List.mem_append, List.mem_singleton]
      at hway
    rcases hway with hup | rfl
    · -- the way to the library's directory is above all versions
      have hlen := hbelow.length_le
      rw [hs.above i loc hup ((List.prefix_append _ _).trans hbelow), List.length_append,
        List.length_singleton] at hlen
      omega
    · exact hv (fold_of_below hs hbelow (List.prefix_append _ [""]))
  | create hname hdir hfree hnew mode =>
    rw [Disk.createTemp_fs, Function.update_of_ne (hne _)]
  | @touch tmp node hown hfile hthere hnode =>
    -- the temporary file is the run's, so it is in that directory
    obtain ⟨name, -, hname⟩ := hI.temps _ hown
    simp only at hname
    rw [Disk.put_fs, hname, Function.update_of_ne (hne _)]
  | @install tmp bytes mode hown hfile hexec hdir hver =>
    obtain ⟨name, -, hname⟩ := hI.temps _ hown
    simp only at hname
    rw [Disk.moveFile_fs, targetLoc, hname, Function.update_of_ne (hne _),
      Function.update_of_ne (hne _)]

end Versions

/-- **Versions do not interfere.** The versions of all runs are single path components, and the
runs are started (`Began`) on a cache without their binaries. In every state that they can reach, a
step of a run for one version changes nothing below the cache directory of another one, as far as
the file system tells their names apart; and what is below the directory of a version that no run
is for stays as it was. -/
theorem versions_apart (hs : F.Simple) {c₀ c : Runs ι} (h₀ : F.Began c₀)
    (hr : Reach F.world c₀ c) (v : String) :
    (∀ i c', StepBy F.world i c c' → F.fold (F.resolved i) ≠ F.fold v →
      ∀ loc, F.bin ++ [F.fold v] <+: loc → c'.state.fs loc = c.state.fs loc) ∧
    ((∀ i, F.fold (F.resolved i) ≠ F.fold v) →
      ∀ loc, F.bin ++ [F.fold v] <+: loc → c.state.fs loc = c₀.state.fs loc) := by
  have hstart := h₀.holds hs.confined
  refine ⟨fun i c' hstep hv loc hbelow => ?_, fun hv loc hbelow => ?_⟩
  · have h := hstart.reach hr
    exact (h.stepBy hstep).apart hs h.inv hv hbelow
  · -- by induction over the run, where every step is one of a run for another version
    refine hstart.preserved (P := fun s => s.fs loc = c₀.state.fs loc) ?_ ?_ hr rfl
    · intro i s s' hI _ hm h
      rw [← h]
      exact hm.apart hs hI (hv i) hbelow
    · -- or one of the rest of the system, which stays out of the library's directory
      intro s s' _ hd h
      rw [← h]
      exact hd.below loc ((List.prefix_append _ _).trans hbelow)

theorem versions_apart_pair :
    ∃ c : Runs Bool, c.Ended true (.ok releasePath) ∧
      ∀ loc, pair.bin ++ ["0.19.0"] <+: loc → c.state.fs loc = none := by
  obtain ⟨c, hreach, hend, -, -⟩ := (Disk.handle_lawful pair.names releaseNet pair.bin true
    (pair.program true) (emptyDisk Bool)).exists_reach (t := pairStart.thread) rfl
  have hended : c.Ended true (.ok releasePath) := by
    rw [← pairResult_eq.1]
    exact hend
  have hother (i : Bool) : pair.fold (pair.resolved i) ≠ pair.fold "0.19.0" := by
    cases i <;> decide
  refine ⟨c, hended, fun loc hbelow => ?_⟩
  rw [(versions_apart pair_simple pair_began hreach "0.19.0").2 hother loc hbelow]
  exact emptyDisk_below ((List.prefix_append _ _).trans hbelow)

end Fleet

end Conduit
