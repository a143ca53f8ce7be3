import ConduitClient.Cache
import ConduitClient.Checksums

/-!
# `ensure_binary` keeps the cache

One run of `ensure_binary`, alone, against the contract of the fleet: every step it takes is a
`Fleet.Move`, and it ends as `Fleet.Done` says (`ensureBinary_keeps`). The soundness of the
contract extends this to every interleaving of any number of runs, any of which may be killed
(`Fleet.Began.holds`).
-/

namespace Conduit

open Effect Py

namespace Fleet

variable {ι : Type} {F : Fleet ι} (hF : F.Confined) (i : ι)

/-! ### What a run knows -/

/-- The run has moved nothing to its target. -/
def Untouched (i : ι) (s : Disk ι) : Prop := ∀ x ∈ s.installs, x.run ≠ i

/-- There is a binary at the target of the run. -/
def Present (F : Fleet ι) (i : ι) (s : Disk ι) : Prop :=
  (s.lastInstall (F.targetLoc i)).isSome = true

/-- Where the run had a temporary file, another run may create a directory. -/
def Clobbered (F : Fleet ι) (i : ι) (s : Disk ι) : Prop :=
  ∃ loc j, (i, loc) ∈ s.temps ∧ loc ∈ F.way j

/-- `tmp` is a temporary file of the run. -/
def Owns (F : Fleet ι) (i : ι) (tmp : PurePath) (s : Disk ι) : Prop :=
  (∃ name, TempName tempFront name ∧ tmp = (F.dir i).child name) ∧
    (i, (F.names i).place tmp) ∈ s.temps

/-- `tmp` is a temporary file of the run, with this content, and executable if `exec`. -/
def Holding (F : Fleet ι) (i : ι) (tmp : PurePath) (bytes : Bytes) (exec : Bool)
    (s : Disk ι) : Prop :=
  F.Owns i tmp s ∧ ∃ mode, (exec = true → mode.testBit 6 = true) ∧
    s.fs ((F.names i).place tmp) = some (.file bytes mode)

/-- The run has a verified binary, and has moved nothing to its target. -/
def Ready (F : Fleet ι) (i : ι) (binary : Bytes) (s : Disk ι) : Prop :=
  F.Verified s.downloads i binary ∧ Untouched i s

/-- `tmp` was a temporary file of the run, which is gone. -/
def Gone (F : Fleet ι) (i : ι) (tmp : PurePath) (s : Disk ι) : Prop :=
  F.Owns i tmp s ∧ (s.fs ((F.names i).place tmp) = none ∨ F.Clobbered i s)

/-- How a run ends. -/
def Done (F : Fleet ι) (i : ι) : Except Exn PurePath → Disk ι → Prop
  | .ok p => fun s => p = F.target i ∧ F.Present i s
  | .error _ => fun s => Untouched i s ∨ F.Clobbered i s

theorem Ready.mkdirs {i : ι} {binary : Bytes} {s : Disk ι} (h : F.Ready i binary s)
    (locs : List Loc) : F.Ready i binary (s.mkdirs locs) := by
  rw [Ready, Untouched, Disk.mkdirs_downloads, Disk.mkdirs_installs]
  exact h

section Stability

theorem stable_untouched : (contract hF).Stable i (Untouched i) :=
  fun _ _ _ _ hr h x hx hrun => h x (hr.installs.old hx hrun) hrun

theorem stable_present : (contract hF).Stable i (F.Present i) :=
  fun _ _ _ _ hr h => Disk.lastInstall_isSome_mono hr.installs.isPrefix h

theorem stable_fetched (url : String) (body : Bytes) :
    (contract hF).Stable i fun s => ⟨i, url, some body⟩ ∈ s.downloads :=
  fun _ _ _ _ hr h => hr.downloads.isPrefix.subset h

theorem stable_clobbered : (contract hF).Stable i (F.Clobbered i) :=
  fun _ _ _ _ hr ⟨loc, j, hl, hv⟩ => ⟨loc, j, hr.ownTemps loc hl, hv⟩

theorem stable_owns (tmp : PurePath) : (contract hF).Stable i (F.Owns i tmp) :=
  fun _ _ _ _ hr ⟨hn, hl⟩ => ⟨hn, hr.ownTemps _ hl⟩

theorem stable_ready (binary : Bytes) : (contract hF).Stable i (F.Ready i binary) :=
  fun _ _ hI hI' hr ⟨hv, hu⟩ => ⟨hv.mono hr.downloads.isPrefix, stable_untouched hF i hI hI' hr hu⟩

theorem stable_holding (tmp : PurePath) (bytes : Bytes) (exec : Bool) :
    (contract hF).Stable i (F.Holding i tmp bytes exec) := by
  intro s s' hI hI' hr ⟨ho, mode, hx, hf⟩
  refine ⟨stable_owns hF i tmp hI hI' hr ho, mode, hx, ?_⟩
  rcases hr.kept _ ho.2 with he | ⟨hn, -, -⟩
  · rw [he, hf]
  · rw [hf] at hn
    cases hn

theorem stable_gone (tmp : PurePath) : (contract hF).Stable i (F.Gone i tmp) := by
  intro s s' hI hI' hr ⟨ho, hg⟩
  have ho' := stable_owns hF i tmp hI hI' hr ho
  refine ⟨ho', ?_⟩
  rcases hg with hn | hc
  · rcases hr.kept _ ho.2 with he | ⟨-, -, j, hv⟩
    · exact Or.inl (he.trans hn)
    · exact Or.inr ⟨_, j, ho'.2, hv⟩
  · exact Or.inr (stable_clobbered hF i hI hI' hr hc)

end Stability

/-! ### One step -/

/-- A step whose every answer is a move of the run. -/
theorem triple_ask {o : ProvisionOp} {P : Disk ι → Prop} {M : ProvisionAns o → Disk ι → Prop}
    (hP : (contract hF).Stable i P) (hM : ∀ a, (contract hF).Stable i (M a))
    (ho : ∀ s a s', F.Inv s → P s → Disk.answer (F.names i) i s o a s' → F.Move i s s' ∧ M a s') :
    (contract hF).Triple i P (Provision.ask o) (Contract.Returns M) := by
  refine Contract.Triple.perform hP hM fun s a s' hI hs ha => ?_
  obtain ⟨hm, hM'⟩ := ho s a s' hI hs ha
  exact ⟨hm.inv hF hI, hm, hM'⟩

/-- A step that may raise. -/
theorem triple_step {α : Type} {p : ProvisionM (Except Exn α)} {P : Disk ι → Prop}
    {Q : Except Exn α → Disk ι → Prop} (hQ : ∀ r, (contract hF).Stable i (Q r))
    (hp : (contract hF).Triple i P p (Contract.Returns Q)) :
    (contract hF).Triple i P (Provision.step p) Q :=
  Contract.Triple.orRaise hQ hp

/-! ### The steps of an installation -/

theorem mkdir_keeps (binary : Bytes) :
    (contract hF).Triple i (F.Ready i binary) (Provision.step (Provision.ask (.mkdir (F.dir i))))
      (Contract.Post (fun _ => F.Ready i binary) fun _ => Untouched i) := by
  have hQ := Contract.Stable.post (fun _ : Unit => stable_ready hF i binary)
    fun _ : Exn => stable_untouched hF i
  refine triple_step hF i hQ (triple_ask hF i (stable_ready hF i binary) hQ ?_)
  rintro s a s' hI hr ha
  cases a with
  | ok _ =>
    obtain ⟨locs, hlocs, -, hfree, rfl⟩ := ha
    exact ⟨.mkdir hlocs hfree, hr.mkdirs _⟩
  | error e =>
    obtain ⟨locs, hlocs, hfree, rfl⟩ := ha
    exact ⟨.mkdir hlocs hfree, (hr.mkdirs locs).2⟩

theorem mkstemp_keeps (binary : Bytes) :
    (contract hF).Triple i (F.Ready i binary)
      (Provision.step (Provision.ask (.mkstemp (F.dir i) tempFront)))
      (Contract.Post (fun tmp s => F.Ready i binary s ∧ F.Holding i tmp [] false s)
        fun _ => Untouched i) := by
  have hQ := Contract.Stable.post
    (fun tmp => (stable_ready hF i binary).and (stable_holding hF i tmp [] false))
    fun _ : Exn => stable_untouched hF i
  refine triple_step hF i hQ (triple_ask hF i (stable_ready hF i binary) hQ ?_)
  rintro s a s' hI ⟨hv, hu⟩ ha
  cases a with
  | error e =>
    obtain rfl : s' = s := ha
    exact ⟨.nothing, hu⟩
  | ok tmp =>
    obtain ⟨name, hname, rfl, hdir, hfree, hnew, rfl⟩ := ha
    have hres := hF.place_temp i hname
    rw [hres] at hfree hnew
    -- it is empty, and private to the owner
    refine ⟨?_, ⟨hv, hu⟩, ⟨⟨name, hname, rfl⟩, ?_⟩, 0o600, by simp, ?_⟩
    · rw [hres]
      exact .create hname (place_of_lookup hdir) hfree hnew _
    · simp [Disk.createTemp]
    · simp [Disk.createTemp]

/-- What a run still has when the filling of its temporary file fails. -/
def Failed (F : Fleet ι) (i : ι) (tmp : PurePath) (s : Disk ι) : Prop :=
  Untouched i s ∧ F.Owns i tmp s

theorem stable_failed (tmp : PurePath) : (contract hF).Stable i (F.Failed i tmp) :=
  (stable_untouched hF i).and (stable_owns hF i tmp)

/-- A change of the temporary file that keeps it a file. -/
theorem touch_keeps {s : Disk ι} {tmp : PurePath} {bytes : Bytes} {exec : Bool}
    (h : F.Holding i tmp bytes exec s) (bytes' : Bytes) (mode' : Nat) :
    F.Move i s (s.put ((F.names i).place tmp) (some (.file bytes' mode'))) ∧
      F.Owns i tmp (s.put ((F.names i).place tmp) (some (.file bytes' mode'))) := by
  obtain ⟨ho, mode, -, hf⟩ := h
  exact ⟨.touch ho.2 (by simp [hf]) (by simp [hf]) (by simp), ho⟩

theorem write_keeps (tmp : PurePath) (binary bytes : Bytes) (byte : UInt8) :
    (contract hF).Triple i (fun s => F.Ready i binary s ∧ F.Holding i tmp bytes false s)
      (Provision.step (Provision.ask (.write tmp byte)))
      (Contract.Post
        (fun _ s => F.Ready i binary s ∧ F.Holding i tmp (bytes ++ [byte]) false s)
        fun _ => F.Failed i tmp) := by
  have hP := (stable_ready hF i binary).and (stable_holding hF i tmp bytes false)
  have hQ := Contract.Stable.post
    (fun _ : Unit => (stable_ready hF i binary).and
      (stable_holding hF i tmp (bytes ++ [byte]) false))
    fun _ : Exn => stable_failed hF i tmp
  refine triple_step hF i hQ (triple_ask hF i hP hQ ?_)
  rintro s a s' hI ⟨hr, hh⟩ ha
  cases a with
  | error e =>
    obtain rfl : s' = s := ha
    exact ⟨.nothing, hr.2, hh.1⟩
  | ok _ =>
    obtain ⟨bytes', mode', hl, rfl⟩ := ha
    obtain ⟨ho, mode, -, hf⟩ := id hh
    -- the file that is found is the one the run holds
    obtain ⟨rfl, rfl⟩ : bytes' = bytes ∧ mode' = mode := by
      simpa [hf] using (place_of_lookup hl).symm
    obtain ⟨hm, ho'⟩ := touch_keeps i hh (bytes' ++ [byte]) mode'
    exact ⟨hm, hr, ho', mode', by simp, by simp⟩

theorem stat_keeps (tmp : PurePath) (binary bytes : Bytes) :
    (contract hF).Triple i (fun s => F.Ready i binary s ∧ F.Holding i tmp bytes false s)
      (Provision.step (Provision.ask (.stat tmp)))
      (Contract.Post (fun _ s => F.Ready i binary s ∧ F.Holding i tmp bytes false s)
        fun _ => F.Failed i tmp) := by
  have hP := (stable_ready hF i binary).and (stable_holding hF i tmp bytes false)
  have hQ := Contract.Stable.post (fun _ : Nat => hP) fun _ : Exn => stable_failed hF i tmp
  refine triple_step hF i hQ (triple_ask hF i hP hQ ?_)
  rintro s a s' hI ⟨hr, hh⟩ ha
  cases a with
  | error e =>
    obtain rfl : s' = s := ha
    exact ⟨.nothing, hr.2, hh.1⟩
  | ok mode =>
    obtain ⟨rfl, -⟩ := ha
    exact ⟨.nothing, hr, hh⟩

/-- The mode that is set lets the owner execute the file. -/
theorem executable_testBit (mode : Nat) : (Provision.executable mode).testBit 6 = true := by
  have h : (0o100 : Nat).testBit 6 = true := by decide
  simp [Provision.executable, Nat.testBit_or, h]

theorem chmod_keeps (tmp : PurePath) (binary bytes : Bytes) (mode : Nat) :
    (contract hF).Triple i (fun s => F.Ready i binary s ∧ F.Holding i tmp bytes false s)
      (Provision.step (Provision.ask (.chmod tmp (Provision.executable mode))))
      (Contract.Post (fun _ s => F.Ready i binary s ∧ F.Holding i tmp bytes true s)
        fun _ => F.Failed i tmp) := by
  have hP := (stable_ready hF i binary).and (stable_holding hF i tmp bytes false)
  have hQ := Contract.Stable.post
    (fun _ : Unit => (stable_ready hF i binary).and (stable_holding hF i tmp bytes true))
    fun _ : Exn => stable_failed hF i tmp
  refine triple_step hF i hQ (triple_ask hF i hP hQ ?_)
  rintro s a s' hI ⟨hr, hh⟩ ha
  cases a with
  | error e =>
    obtain rfl : s' = s := ha
    exact ⟨.nothing, hr.2, hh.1⟩
  | ok _ =>
    obtain ⟨bytes', mode', hl, rfl⟩ := ha
    obtain ⟨ho, mode₀, -, hf⟩ := id hh
    obtain ⟨rfl, -⟩ : bytes' = bytes ∧ mode' = mode₀ := by
      simpa [hf] using (place_of_lookup hl).symm
    -- the bytes stay, and the bits that are added include the owner's
    obtain ⟨hm, ho'⟩ := touch_keeps i hh bytes' (Provision.executable mode)
    exact ⟨hm, hr, ho', _, fun _ => executable_testBit mode, by simp⟩

theorem replace_keeps (tmp : PurePath) (binary : Bytes) :
    (contract hF).Triple i (fun s => F.Ready i binary s ∧ F.Holding i tmp binary true s)
      (Provision.step (Provision.ask (.replace tmp (F.target i))))
      (Contract.Post (fun _ s => F.Present i s ∧ F.Gone i tmp s) fun _ => F.Failed i tmp) := by
  have hP := (stable_ready hF i binary).and (stable_holding hF i tmp binary true)
  have hQ := Contract.Stable.post
    (fun _ : Unit => (stable_present hF i).and (stable_gone hF i tmp))
    fun _ : Exn => stable_failed hF i tmp
  refine triple_step hF i hQ (triple_ask hF i hP hQ ?_)
  rintro s a s' hI ⟨hr, hh⟩ ha
  cases a with
  | error e =>
    obtain rfl : s' = s := ha
    exact ⟨.nothing, hr.2, hh.1⟩
  | ok _ =>
    obtain ⟨bytes, mode', hl, hdir, -, rfl⟩ := ha
    obtain ⟨ho, mode, hx, hf⟩ := hh
    obtain ⟨rfl, rfl⟩ : bytes = binary ∧ mode' = mode := by
      simpa [hf] using (place_of_lookup hl).symm
    rw [target_parent] at hdir
    rw [hF.place_target i]
    -- the temporary file is gone because the target is another place
    have hne := hI.temp_ne_target ho.2 i
    refine ⟨.install ho.2 hf (hx rfl) (place_of_lookup hdir) hr.1, ?_, ⟨ho.1, ho.2⟩,
      Or.inl ?_⟩
    · simp [Present, Disk.lastInstall_moveFile]
    · simp [Function.update_of_ne hne]

/-! The two ways into the final `unlink`. -/

theorem unlink_failed_keeps (tmp : PurePath) :
    (contract hF).Triple i (F.Failed i tmp) (Provision.step (Provision.ask (.unlink tmp)))
      (Contract.Post (fun _ => Untouched i) fun _ => Untouched i) := by
  have hQ := Contract.Stable.post (fun _ : Unit => stable_untouched hF i)
    fun _ : Exn => stable_untouched hF i
  refine triple_step hF i hQ (triple_ask hF i (stable_failed hF i tmp) hQ ?_)
  rintro s a s' hI ⟨hu, ho⟩ ha
  cases a with
  | error e =>
    obtain ⟨-, rfl⟩ := ha
    exact ⟨.nothing, hu⟩
  | ok _ =>
    rcases ha with ⟨-, rfl⟩ | ⟨bytes, mode, hl, rfl⟩
    · exact ⟨.nothing, hu⟩
    · have hf := place_of_lookup hl
      exact ⟨.touch ho.2 (by simp [hf]) (by simp [hf]) (by simp), hu⟩

theorem unlink_gone_keeps (tmp : PurePath) :
    (contract hF).Triple i (fun s => F.Present i s ∧ F.Gone i tmp s)
      (Provision.step (Provision.ask (.unlink tmp)))
      (Contract.Post (fun _ => F.Present i) fun _ => F.Clobbered i) := by
  have hQ := Contract.Stable.post (fun _ : Unit => stable_present hF i)
    fun _ : Exn => stable_clobbered hF i
  refine triple_step hF i hQ (triple_ask hF i ((stable_present hF i).and (stable_gone hF i tmp))
    hQ ?_)
  rintro s a s' hI ⟨hp, ho, hg⟩ ha
  cases a with
  | error e =>
    -- `missing_ok`: it raises only where something is there to remove
    obtain ⟨hl, rfl⟩ := ha
    exact ⟨.nothing, hg.resolve_left (fs_ne_none_of_lookup hl)⟩
  | ok _ =>
    rcases ha with ⟨-, rfl⟩ | ⟨bytes, mode, hl, rfl⟩
    · exact ⟨.nothing, hp⟩
    · have hf := place_of_lookup hl
      exact ⟨.touch ho.2 (by simp [hf]) (by simp [hf]) (by simp), hp⟩

/-! ### The whole run -/

theorem fill_keeps (tmp : PurePath) (binary : Bytes) :
    (contract hF).Triple i (fun s => F.Ready i binary s ∧ F.Holding i tmp [] false s)
      (Provision.fill tmp (F.target i) binary)
      (Contract.Post (fun _ s => F.Present i s ∧ F.Gone i tmp s) fun _ => F.Failed i tmp) := by
  have hfailed (_ : Exn) := stable_failed hF i tmp
  -- the bytes written so far are what the temporary file holds
  have hwrites := Contract.Triple.forEach (C := contract hF) (i := i)
    (P := fun pre s => F.Ready i binary s ∧ F.Holding i tmp pre false s)
    ((stable_ready hF i binary).and (stable_holding hF i tmp binary false))
    hfailed (fun pre byte _ _ => write_keeps hF i tmp binary pre byte) [] binary rfl
  refine hwrites.bind_post hfailed fun _ => ?_
  refine (stat_keeps hF i tmp binary binary).bind_post hfailed fun mode => ?_
  refine (chmod_keeps hF i tmp binary binary mode).bind_post hfailed fun _ => ?_
  exact replace_keeps hF i tmp binary

theorem install_keeps (binary : Bytes) :
    (contract hF).Triple i (F.Ready i binary) (Provision.install (F.target i) binary)
      (Contract.Post (fun _ => F.Present i) fun _ s => Untouched i s ∨ F.Clobbered i s) := by
  have hfail (e : Exn) : (contract hF).Triple i (Untouched i)
      (.done (.error e) : ProvisionM Unit)
      (Contract.Post (fun _ => F.Present i) fun _ s => Untouched i s ∨ F.Clobbered i s) :=
    .done (stable_untouched hF i) fun _ _ h => Or.inl h
  have hQ := Contract.Stable.post (fun _ : Unit => stable_present hF i)
    fun _ : Exn => (stable_untouched hF i).or (stable_clobbered hF i)
  unfold Provision.install
  rw [target_parent]
  refine (mkdir_keeps hF i binary).bind (fun _ => ?_) hfail
  refine (mkstemp_keeps hF i binary).bind (fun tmp => ?_) hfail
  -- the `finally` clause, after a `replace` or after a failure
  refine (fill_keeps hF i tmp binary).tryFinally (fun r => ?_) hQ
  cases r with
  | ok _ => exact (unlink_gone_keeps hF i tmp).weaken (fun _ _ h => h) fun _ _ h => Or.inr h
  | error e =>
    exact (unlink_failed_keeps hF i tmp).weaken (fun _ _ h => Or.inl h) fun _ _ h => Or.inl h

/-- A download is remembered. -/
theorem httpGet_keeps (url : String) {P : Disk ι → Prop} (hP : (contract hF).Stable i P)
    (hgrow : ∀ s body, P s → P (s.logDownload i url body)) :
    (contract hF).Triple i P (Provision.step (Provision.ask (.httpGet url)))
      (Contract.Post (fun body s => P s ∧ ⟨i, url, some body⟩ ∈ s.downloads) fun _ => P) := by
  have hQ := Contract.Stable.post (fun body : Bytes => hP.and (stable_fetched hF i url body))
    fun _ : Exn => hP
  refine triple_step hF i hQ (triple_ask hF i hP hQ ?_)
  rintro s a s' hI hs rfl
  refine ⟨.download url _, ?_⟩
  cases a with
  | ok body => exact ⟨hgrow s _ hs, by simp [Disk.logDownload, Except.toOption]⟩
  | error e => exact hgrow s _ hs

/-- The two downloads of a run. -/
def Fetched (F : Fleet ι) (i : ι) (name : String) (archive checksums : Bytes)
    (s : Disk ι) : Prop :=
  ⟨i, Provision.baseUrl (F.resolved i) ++ "/" ++ name, some archive⟩ ∈ s.downloads ∧
    ⟨i, Provision.baseUrl (F.resolved i) ++ "/checksums.txt", some checksums⟩ ∈ s.downloads

theorem download_keeps (name : String) :
    (contract hF).Triple i (Untouched i) (Provision.download (F.resolved i) name)
      (Contract.Post
        (fun fetched s => Untouched i s ∧ F.Fetched i name fetched.1 fetched.2 s)
        fun _ => Untouched i) := by
  have hstable (archive checksums : Bytes) :=
    (stable_untouched hF i).and ((stable_fetched hF i
      (Provision.baseUrl (F.resolved i) ++ "/" ++ name) archive).and (stable_fetched hF i
        (Provision.baseUrl (F.resolved i) ++ "/checksums.txt") checksums))
  refine Contract.Triple.tryCatch (Q := Contract.Post
    (fun fetched s => Untouched i s ∧ F.Fetched i name fetched.1 fetched.2 s)
    fun _ => Untouched i) ?_ ?_ ?_
  · refine (httpGet_keeps hF i _ (stable_untouched hF i) fun _ _ h => h).bind_post
      (fun _ => stable_untouched hF i) fun archive => ?_
    have hget := httpGet_keeps hF i (Provision.baseUrl (F.resolved i) ++ "/checksums.txt")
      ((stable_untouched hF i).and (stable_fetched hF i
        (Provision.baseUrl (F.resolved i) ++ "/" ++ name) archive))
      fun s body h => ⟨h.1, List.mem_append_left _ h.2⟩
    refine hget.bind (fun checksums => ?_) fun e => ?_
    -- the second download leaves the first one recorded
    · exact .done (((stable_untouched hF i).and (stable_fetched hF i _ archive)).and
        (stable_fetched hF i _ checksums)) fun s _ h => ⟨h.1.1, h.1.2, h.2⟩
    · exact .done ((stable_untouched hF i).and (stable_fetched hF i _ archive))
        fun _ _ h => h.1
  · exact fun fetched => .done (hstable fetched.1 fetched.2) fun _ _ h => h
  · intro e
    cases e <;> exact .done (stable_untouched hF i) fun _ _ h => h

/-- A binary that comes out of the two downloads of a run is a verified one. -/
theorem verified_of_fetched {s : Disk ι} {name : String} {archive checksums binary : Bytes}
    (hname : archiveName F.tools.toRuntime (F.host i) (F.resolved i) = .ok name)
    (hfetched : F.Fetched i name archive checksums s)
    (h : Provision.verified F.tools (F.host i) name archive checksums = .ok binary) :
    F.Verified s.downloads i binary := by
  cases hv : verifyChecksum F.tools archive checksums name with
  | error e =>
    rw [verified_error _ hv] at h
    cases h
  | ok _ =>
    unfold Provision.verified at h
    cases ht : platformTriplet F.tools.toRuntime (F.host i) with
    | error e => simp [hv, ht, bind, Except.bind] at h
    | ok triplet =>
      obtain ⟨os, arch, ext⟩ := triplet
      refine ⟨name, archive, checksums, os, arch, ext, hname, hfetched.1, hfetched.2,
        verifyChecksum_ok_iff.mp hv, ht, ?_⟩
      simpa [hv, ht, bind, Except.bind] using h

theorem stable_fetchedBoth (name : String) (archive checksums : Bytes) :
    (contract hF).Stable i (F.Fetched i name archive checksums) :=
  (stable_fetched hF i _ archive).and (stable_fetched hF i _ checksums)

/-- **A single run.** It keeps the contract of the fleet and ends as `Done` says. -/
theorem ensureBinary_keeps :
    (contract hF).Triple i (Untouched i) (ensureBinary F.tools (F.host i) (F.version i))
      (F.Done i) := by
  have hfail (e : Exn) : (contract hF).Triple i (Untouched i)
      (.done (.error e) : ProvisionM PurePath) (F.Done i) :=
    .done (stable_untouched hF i) fun _ _ h => Or.inl h
  unfold ensureBinary
  refine Contract.Triple.perform_bind
    (M := fun (there : Bool) s => Untouched i s ∧ (there = true → F.Present i s))
    (stable_untouched hF i) ?_ fun there => ?_
  · -- a target that exists was installed
    rintro s a s' hI hu ⟨rfl, ha⟩
    refine ⟨hI, .nothing, hu, fun h => ?_⟩
    have hthere : s'.fs (F.targetLoc i) ≠ none := by
      rw [← hF.place_target i]
      exact fs_ne_none_of_lookup (ha.mp h)
    have hc := hI.content i
    unfold Held at hc
    unfold Present
    cases hl : s'.lastInstall (F.targetLoc i) with
    | none =>
      rw [hl] at hc
      exact absurd hc hthere
    | some x => rfl
  cases there with
  | true =>
    refine .done ((stable_untouched hF i).and fun _ _ hI hI' hr h _ => ?_) fun s _ h =>
      ⟨rfl, h.2 rfl⟩
    exact stable_present hF i hI hI' hr (h rfl)
  | false =>
    refine Contract.Triple.pre (P := Untouched i) ?_ fun _ h => h.1
    simp only [Bool.false_eq_true, if_false]
    change (contract hF).Triple i (Untouched i)
      (Prog.ofExcept (archiveName F.tools.toRuntime (F.host i) (F.resolved i)) >>= fun name =>
        Provision.download (F.resolved i) name >>= fun fetched =>
          Prog.ofExcept (Provision.verified F.tools (F.host i) name fetched.1 fetched.2) >>=
            fun binary => Provision.install (F.target i) binary >>= fun _ =>
              pure (F.target i)) (F.Done i)
    cases hname : archiveName F.tools.toRuntime (F.host i) (F.resolved i) with
    | error e => exact hfail e
    | ok name =>
      -- nothing is written before the downloads are verified
      refine (download_keeps hF i name).bind (fun fetched => ?_) hfail
      cases hver : Provision.verified F.tools (F.host i) name fetched.1 fetched.2 with
      | error e =>
        exact .done ((stable_untouched hF i).and (stable_fetchedBoth hF i name _ _))
          fun _ _ h => Or.inl h.1
      | ok binary =>
        refine Contract.Triple.pre (P := F.Ready i binary) ?_
          fun s h => ⟨verified_of_fetched i hname h.2 hver, h.1⟩
        refine (install_keeps hF i binary).bind (fun _ => ?_) fun e => ?_
        · exact .done (stable_present hF i) fun _ _ h => ⟨rfl, h⟩
        · exact .done ((stable_untouched hF i).or (stable_clobbered hF i)) fun _ _ h => h

end Fleet

end Conduit
