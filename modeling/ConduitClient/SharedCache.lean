import ConduitClient.CacheSafety

/-!
# One cache, several platforms

The download of a binary is keyed by version, operating system and architecture; the cache is
keyed by the version and the file name of the binary, as far as its file system tells them apart.
`Fleet.KeysAgree` says when the two keys tell the same runs apart (`keysAgree_iff`), and then every
run returns a binary out of the archive for its own platform, whoever installed it
(`shared_cache_iff`).

The keys do not agree for two runs for one version on, say, Linux on amd64 and Linux on arm64:
the second returns the binary of the first (`shared_cache_mixed`). Nor do they for `0.18.0-RC1` and
`0.18.0-rc1` where the case of letters does not count.
-/

namespace Conduit

open Effect Py

/-! ### The names of release archives -/

theorem mem_of_lookup {l : List (String × String)} {a b : String} (h : l.lookup a = some b) :
    (a, b) ∈ l := by
  obtain ⟨l₁, l₂, rfl, -⟩ := List.lookup_eq_some_iff.mp h
  simp

/-- The operating system and the architecture of each release, and the extension that goes with
the former. -/
def platforms : List (String × String × String) :=
  [("Darwin", "x86_64", "tar.gz"), ("Darwin", "arm64", "tar.gz"), ("Linux", "x86_64", "tar.gz"),
    ("Linux", "arm64", "tar.gz"), ("Windows", "x86_64", "zip"), ("Windows", "arm64", "zip")]

/-- How the name of an archive ends. -/
def archiveEnd (platform : String × String × String) : String :=
  "_" ++ platform.1 ++ "_" ++ platform.2.1 ++ "." ++ platform.2.2

theorem platform_of_triplet {rt : Runtime} {host : Machine} {os arch ext : String}
    (h : platformTriplet rt host = .ok (os, arch, ext)) :
    (os, arch, ext) ∈ platforms ∧ host.system = os := by
  unfold platformTriplet at h
  split at h
  · next os' arch' hos harch =>
    obtain ⟨rfl, rfl, rfl⟩ : os' = os ∧ arch' = arch ∧ _ = ext := by simpa using h
    have ho := mem_of_lookup hos
    have ha := mem_of_lookup harch
    simp only [osMap, archMap, List.mem_cons, Prod.mk.injEq, List.not_mem_nil, or_false]
      at ho ha
    constructor
    · rcases ho with ⟨-, rfl⟩ | ⟨-, rfl⟩ | ⟨-, rfl⟩ <;>
        rcases ha with ⟨-, rfl⟩ | ⟨-, rfl⟩ | ⟨-, rfl⟩ | ⟨-, rfl⟩ <;> decide
    · rcases ho with ⟨hs, rfl⟩ | ⟨hs, rfl⟩ | ⟨hs, rfl⟩ <;> exact hs
  · cases h

/-- No end is a part of another. -/
theorem archiveEnd_inj : ∀ p ∈ platforms, ∀ q ∈ platforms,
    (archiveEnd q).toList <:+ (archiveEnd p).toList → q = p := by
  decide +kernel

theorem archiveName_of_triplet {rt : Runtime} {host : Machine}
    {platform : String × String × String} (h : platformTriplet rt host = .ok platform)
    (v : String) : archiveName rt host v = .ok ("conduit_" ++ v ++ archiveEnd platform) := by
  simp only [archiveName, h, bind, Except.bind, pure, Except.pure, archiveEnd,
    String.append_assoc]

/-- The name of an archive tells its version and its platform, whatever the version is. -/
theorem archiveName_inj {rt : Runtime} {host host' : Machine}
    {platform platform' : String × String × String} {v v' : String}
    (h : platformTriplet rt host = .ok platform) (h' : platformTriplet rt host' = .ok platform')
    (he : archiveName rt host v = archiveName rt host' v') : v = v' ∧ platform = platform' := by
  obtain ⟨os, arch, ext⟩ := platform
  obtain ⟨os', arch', ext'⟩ := platform'
  have hp := (platform_of_triplet h).1
  have hp' := (platform_of_triplet h').1
  rw [archiveName_of_triplet h, archiveName_of_triplet h', String.append_assoc,
    String.append_assoc] at he
  have hends : v ++ archiveEnd (os, arch, ext) = v' ++ archiveEnd (os', arch', ext') :=
    String.append_right_inj _ |>.mp (Except.ok.inj he)
  have hlists : v.toList ++ (archiveEnd (os, arch, ext)).toList =
      v'.toList ++ (archiveEnd (os', arch', ext')).toList := by
    rw [← String.toList_append, ← String.toList_append, hends]
  -- one of the two ends is a part of the other
  have hsame : (os, arch, ext) = (os', arch', ext') := by
    rcases List.append_eq_append_iff.mp hlists with ⟨rest, -, hrest⟩ | ⟨rest, -, hrest⟩
    · exact (archiveEnd_inj _ hp _ hp' ⟨rest, hrest.symm⟩).symm
    · exact archiveEnd_inj _ hp' _ hp ⟨rest, hrest.symm⟩
  rw [hsame] at hends
  exact ⟨String.append_left_inj _ |>.mp hends, hsame⟩

namespace Fleet

variable {ι : Type} {F : Fleet ι}

/-- There is a release for every host. -/
def Supported (F : Fleet ι) : Prop :=
  ∀ i, ∃ triplet, platformTriplet F.tools.toRuntime (F.host i) = .ok triplet

/-- Runs whose versions and whose binaries have names that the file system of the cache takes for
the same are for one version, and on one platform. -/
def KeysAgree (F : Fleet ι) : Prop :=
  ∀ i j, F.fold (F.resolved i) = F.fold (F.resolved j) →
    F.fold (binaryName (F.host i)) = F.fold (binaryName (F.host j)) →
      F.resolved i = F.resolved j ∧ platformTriplet F.tools.toRuntime (F.host i) =
        platformTriplet F.tools.toRuntime (F.host j)

/-- The place of a binary is made of the names of its version and of its file. -/
theorem targetLoc_eq_iff (hs : F.Simple) (i j : ι) :
    F.targetLoc i = F.targetLoc j ↔ F.fold (F.resolved i) = F.fold (F.resolved j) ∧
      F.fold (binaryName (F.host i)) = F.fold (binaryName (F.host j)) := by
  rw [targetLoc, targetLoc, dirLoc_eq hs, dirLoc_eq hs]
  simp

/-- The two keys tell the same runs apart exactly when they agree. -/
theorem keysAgree_iff (hs : F.Simple) (hsup : F.Supported) :
    (∀ i j, archiveName F.tools.toRuntime (F.host i) (F.resolved i) ≠
        archiveName F.tools.toRuntime (F.host j) (F.resolved j) →
      F.targetLoc i ≠ F.targetLoc j) ↔ F.KeysAgree := by
  constructor
  · -- one place, so that there would be one archive name
    intro h i j hv hb
    obtain ⟨platform, hi⟩ := hsup i
    obtain ⟨platform', hj⟩ := hsup j
    have hname := not_not.mp fun hne => h i j hne ((targetLoc_eq_iff hs i j).mpr ⟨hv, hb⟩)
    obtain ⟨hversion, rfl⟩ := archiveName_inj hi hj hname
    exact ⟨hversion, hi.trans hj.symm⟩
  · intro h i j hne ht
    obtain ⟨hv, hb⟩ := (targetLoc_eq_iff hs i j).mp ht
    obtain ⟨hversion, htriplet⟩ := h i j hv hb
    exact hne (by simp only [archiveName, htriplet, hversion])

variable [DecidableEq ι]

/-- What a run returns came out of the archive for its own platform. -/
def ReturnsOwn (F : Fleet ι) (c : Runs ι) (i : ι) : Prop :=
  ∀ p, c.Ended i (.ok p) → ∃ bytes mode k,
    lookup (F.names i) c.state.fs p = some (.file bytes mode) ∧
      Evidence F.tools (F.host i) (F.resolved i) c.state.downloads k bytes

omit [DecidableEq ι] in
/-- When the keys agree, the binary at the final path of a run is one for its platform. -/
theorem Inv.own (hs : F.Simple) (hsup : F.Supported) (hk : F.KeysAgree) {s : Disk ι}
    (h : F.Inv s) (i : ι) (hthere : s.fs (F.targetLoc i) ≠ none) :
    ∃ bytes mode k, s.fs (F.targetLoc i) = some (.file bytes mode) ∧
      Evidence F.tools (F.host i) (F.resolved i) s.downloads k bytes := by
  -- it was installed by some run `k` for the same place, which has the same keys
  obtain ⟨bytes, mode, k, hf, -, htarget, hver⟩ := h.verified i hthere
  refine ⟨bytes, mode, k, hf, ?_⟩
  obtain ⟨hv, hb⟩ := (targetLoc_eq_iff hs k i).mp htarget
  obtain ⟨hversion, ht⟩ := hk k i hv hb
  obtain ⟨⟨os, arch, ext⟩, hi⟩ := hsup i
  have hsys : (F.host k).system = (F.host i).system :=
    (platform_of_triplet (ht.trans hi)).2.trans (platform_of_triplet hi).2.symm
  rw [← hversion]
  exact hver.congr hsys ht

/-- **One cache for several platforms.** The place of the cached binary tells the archives
apart exactly when the keys agree; and then, over every execution from an empty cache, every
run that returns returns a binary from the archive for its version and platform. -/
theorem shared_cache_iff (hs : F.Simple) (hsup : F.Supported) :
    ((∀ i j, archiveName F.tools.toRuntime (F.host i) (F.resolved i) ≠
        archiveName F.tools.toRuntime (F.host j) (F.resolved j) →
      F.targetLoc i ≠ F.targetLoc j) ↔ F.KeysAgree) ∧
    (F.KeysAgree → ∀ c₀ c : Runs ι, F.Began c₀ → Reach F.world c₀ c →
      ∀ i, F.ReturnsOwn c i) := by
  refine ⟨keysAgree_iff hs hsup, fun hk c₀ c h₀ hr i p he => ?_⟩
  have h := (h₀.holds hs.confined).reach hr
  obtain ⟨rfl, hp⟩ := h.ended he
  rw [lookup_target hs h.inv]
  exact h.inv.own hs hsup hk i ((h.inv.present_iff i).mp hp)

theorem oneRun_supported : oneRun.Supported :=
  fun | () => ⟨("Linux", "x86_64", "tar.gz"), by decide⟩

/-- A single run returns its own binary. -/
theorem shared_cache_oneRun :
    ∃ c : Runs Unit, c.Ended () (.ok releasePath) ∧ oneRun.ReturnsOwn c () := by
  obtain ⟨c, hreach, hend, -⟩ := oneRun_installs
  have hkeys : oneRun.KeysAgree := fun _ _ _ _ => ⟨rfl, rfl⟩
  exact ⟨c, hend, (shared_cache_iff oneRun_simple oneRun_supported).2 hkeys _ _ oneRun_began
    hreach ()⟩

/-! ### Two platforms -/

/-- A Linux host on arm64. -/
def armHost : Machine := { linuxHost with machine := "aarch64" }

/-- Two runs for the release that share the cache, the second on arm64. -/
def mixed : Fleet Bool :=
  atHome releaseTools (fun arm => bif arm then armHost else linuxHost) (fun _ => none)
    fun arm => by cases arm <;> rfl

/-- Both runs at their beginning. -/
def mixedStart : Runs Bool := ⟨fun arm => some (mixed.program arm), emptyDisk Bool⟩

/-- The first run, on a disk without failures, and the second one after it. -/
def mixedResult : Except Exn PurePath × Disk Bool :=
  (mixed.program true).eval (Disk.handle .posix releaseNet true)
    ((mixed.program false).eval (Disk.handle .posix releaseNet false) (emptyDisk Bool)).2

/-- Only the archive for amd64 was downloaded. -/
theorem mixedResult_eq :
    mixedResult.1 = .ok releasePath ∧
      mixedResult.2.downloads.map Download.url =
        [Provision.baseUrl "0.18.0" ++ "/conduit_0.18.0_Linux_x86_64.tar.gz",
          Provision.baseUrl "0.18.0" ++ "/checksums.txt"] := by
  decide +kernel

/-- The second of two runs returns the binary of the first, which is not for its platform. -/
theorem shared_cache_mixed :
    mixed.Simple ∧ mixed.Supported ∧ mixed.Began mixedStart ∧
      archiveName releaseTools.toRuntime linuxHost "0.18.0" ≠
        archiveName releaseTools.toRuntime armHost "0.18.0" ∧
      mixed.targetLoc false = mixed.targetLoc true ∧
      ∃ c, Reach mixed.world mixedStart c ∧ c.Ended true (.ok releasePath) ∧
        ¬ mixed.ReturnsOwn c true := by
  refine ⟨?_, ?_, ?_, by decide, by decide, ?_⟩
  · exact atHome_simple (by rintro (_ | _) <;> rfl) (by rintro (_ | _) <;> decide)
  · rintro (_ | _)
    · exact ⟨("Linux", "x86_64", "tar.gz"), by decide⟩
    · exact ⟨("Linux", "arm64", "tar.gz"), by decide⟩
  · exact ⟨fun _ _ hp => (Option.some.inj hp).symm, emptyDisk_tree Bool, by decide, rfl, rfl,
      rfl⟩
  · -- the run on amd64 goes first
    obtain ⟨c₁, hreach₁, -, hstate₁, hthread₁⟩ := (Disk.handle_lawful mixed.names releaseNet
      mixed.bin false (mixed.program false) (emptyDisk Bool)).exists_reach
      (t := mixedStart.thread) rfl
    obtain ⟨c₂, hreach₂, hend₂, hstate₂, -⟩ := (Disk.handle_lawful mixed.names releaseNet
      mixed.bin true (mixed.program true) c₁.state).exists_reach (hthread₁ true (by decide))
    rw [hstate₁] at hend₂ hstate₂
    obtain ⟨hok, hurls⟩ := mixedResult_eq
    have hend : c₂.Ended true (.ok releasePath) := by
      rw [← hok]
      exact hend₂
    refine ⟨c₂, hreach₁.trans hreach₂, hend, fun hown => ?_⟩
    obtain ⟨bytes, mode, k, -, name, archive, -, -, -, -, hname, hdownload, -⟩ := hown _ hend
    obtain rfl : "conduit_0.18.0_Linux_arm64.tar.gz" = name := by
      have harm : archiveName releaseTools.toRuntime armHost "0.18.0" =
          .ok "conduit_0.18.0_Linux_arm64.tar.gz" := by decide
      exact Except.ok.inj (harm.symm.trans hname)
    -- the archive for arm64 is none of the two downloads
    have hmem : Provision.baseUrl "0.18.0" ++ "/" ++ "conduit_0.18.0_Linux_arm64.tar.gz" ∈
        mixedResult.2.downloads.map Download.url := by
      rw [hstate₂] at hdownload
      exact List.mem_map_of_mem (f := Download.url) hdownload
    rw [hurls] at hmem
    exact absurd hmem (by decide)

/-! ### Two spellings -/

/-- Two runs on a file system that does not tell the case of letters apart, for two spellings of
one version. -/
def spellings : Fleet Bool where
  tools := releaseTools
  host _ := linuxHost
  version upper := some (bif upper then "0.18.0-RC1" else "0.18.0-rc1")
  names _ := .tree lower []
  bin := ["home", "u", ".cache", "conduit-client-python", "bin"]
  fold := lower
  shares := by decide
  linkless _ := Names.tree_linkless fun _ hlink => absurd hlink List.not_mem_nil
  apart name host hname he := by
    -- a temporary file has the longer name in any spelling
    have hlen : (lower name).toList.length = (lower (binaryName host)).toList.length := by
      rw [he]
    simp only [lower, String.toList_ofList, List.length_map] at hlen
    have hlong := tempName_length hname
    have hshort : (binaryName host).toList.length < 18 := by
      unfold binaryName
      split <;> decide
    omega

/-- Their archives have two names, and their binaries one place. -/
example : spellings.Simple ∧ ¬ spellings.KeysAgree := by
  refine ⟨⟨by decide, by decide, by decide⟩, fun h => ?_⟩
  have hfold : spellings.fold (spellings.resolved true) =
      spellings.fold (spellings.resolved false) := by decide +kernel
  have hne : spellings.resolved true ≠ spellings.resolved false := by decide +kernel
  exact hne (h true false hfold rfl).1

end Fleet

end Conduit
