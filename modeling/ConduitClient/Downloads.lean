import ConduitClient.CacheSafety
import ConduitClient.Effect.Solo
import ConduitClient.ErrorsTotal
import ConduitClient.Extraction

/-!
# A provisioning that fails

`ensure_binary` promises a `ConduitError` for a failed download, a checksum mismatch and a
malformed archive. The two downloads may have any outcome (`Fetch`), while everything on the
local disk succeeds (`smoothWorld`). Then a call that raises has written nothing, and what it
raises is a `ConduitError` exactly when the downloads are `Digestible`: no download ends in an
`HTTPException`, the checksums are UTF-8, and the archive, if its digest is listed, can be read
as far as it is.
-/

namespace Conduit

open Effect Py

/-! ### The archive readers -/

/-- The archive readers raise exceptions of their own, never one of this library. -/
structure Toolbox.Foreign (tools : Toolbox) : Prop where
  zipNames : ∀ {archive e}, tools.zipNames archive = .error e → ∀ err, e ≠ .conduit err
  zipRead : ∀ {archive name e}, tools.zipRead archive name = .error e → ∀ err, e ≠ .conduit err
  tarMembers : ∀ {archive e}, tools.tarMembers archive = .error e → ∀ err, e ≠ .conduit err
  extract : ∀ {archive ts t e}, tools.tarMembers archive = .ok ts → t ∈ ts →
    t.extract = .error e → ∀ err, e ≠ .conduit err

/-- The loop over the members gets to its end, or to a member that yields something, without
an exception. -/
def TarReadable (host : Machine) (name : String) : List TarMember → Prop
  | [] => True
  | member :: members =>
    if entryName host member.name = name ∧ member.isFile = true then
      match member.extract with
      | .error _ => False
      | .ok (some _) => True
      | .ok none => TarReadable host name members
    else TarReadable host name members

/-- The archive can be opened, and the entries in it that have the name of the binary can be
read, as far as they are. -/
def Readable (tools : Toolbox) (host : Machine) (ext name : String) (archive : Bytes) : Prop :=
  if ext = "zip" then
    ∃ names, tools.zipNames archive = .ok names ∧
      ∀ entry, names.find? (entryName host · = name) = some entry →
        ∃ bytes, tools.zipRead archive entry = .ok bytes
  else ∃ members, tools.tarMembers archive = .ok members ∧ TarReadable host name members

variable {tools : Toolbox} {host : Machine}

theorem not_surfaced_of_foreign {α : Type} {e : Exn} (h : ∀ err, e ≠ .conduit err) :
    ¬ Surfaced (.error e : Except Exn α) := fun ⟨err, he⟩ => h err he

theorem surfaced_extractTar_iff (rt : Runtime) (name : String) {ts : List TarMember}
    (h : ∀ t ∈ ts, ∀ e, t.extract = .error e → ∀ err, e ≠ .conduit err) :
    Surfaced (extractTar rt host name ts) ↔ TarReadable host name ts := by
  -- induction on the members; those of other names are passed over
  induction ts with
  | nil => simp [extractTar, TarReadable]
  | cons t ts ih =>
    have ih' := ih fun t' ht' => h t' (List.mem_cons_of_mem _ ht')
    unfold extractTar TarReadable
    split
    · cases hx : t.extract with
      | error e =>
        have hforeign := h t List.mem_cons_self e hx
        exact iff_of_false (not_surfaced_of_foreign hforeign) not_false
      | ok bytes =>
        cases bytes with
        -- the member yields nothing, and the loop goes on
        | none => exact ih'
        | some bytes => exact iff_of_true trivial trivial
    · exact ih'

theorem surfaced_extractBinary_iff (hf : tools.Foreign) (archive : Bytes) (ext name : String) :
    Surfaced (extractBinary tools host archive ext name) ↔
      Readable tools host ext name archive := by
  unfold Readable
  split
  · next hext =>
    subst hext
    -- the zip branch: open it, look for the entry, read it
    cases hn : tools.zipNames archive with
    | error e =>
      have hraise : extractBinary tools host archive "zip" name = .error e := by
        unfold extractBinary
        rw [if_pos rfl, hn]
        rfl
      rw [hraise]
      exact iff_of_false (not_surfaced_of_foreign (hf.zipNames hn)) (by simp)
    | ok names =>
      rw [extractBinary_of_zipNames hn]
      cases hx : names.find? (entryName host · = name) with
      | none => exact iff_of_true ⟨_, rfl⟩ ⟨names, rfl, by simp [hx]⟩
      | some entry =>
        rw [Option.elim_some]
        cases hr : tools.zipRead archive entry with
        | error e =>
          refine iff_of_false (not_surfaced_of_foreign (hf.zipRead hr)) ?_
          rintro ⟨names', hnames', hread⟩
          obtain rfl := Except.ok.inj hnames'
          obtain ⟨bytes, hbytes⟩ := hread entry hx
          rw [hr] at hbytes
          cases hbytes
        | ok bytes =>
          refine iff_of_true trivial ⟨names, rfl, fun entry' hx' => ?_⟩
          obtain rfl : entry = entry' := by simpa [hx] using hx'
          exact ⟨bytes, hr⟩
  · next hext =>
    unfold extractBinary
    rw [if_neg hext]
    -- the tar branch: open it, and walk the members
    cases hm : tools.tarMembers archive with
    | error e =>
      exact iff_of_false (not_surfaced_of_foreign (hf.tarMembers hm)) (by simp)
    | ok members =>
      refine (surfaced_extractTar_iff tools.toRuntime name fun t ht e => hf.extract hm ht).trans
        ?_
      simp

/-- The verification of a download decodes the checksums, and compares. -/
theorem surfaced_verified_iff (hf : tools.Foreign) {os arch ext : String}
    (hplatform : platformTriplet tools.toRuntime host = .ok (os, arch, ext))
    (name : String) (archive checksums : Bytes) :
    Surfaced (Provision.verified tools host name archive checksums) ↔
      (decodeUtf8 checksums).isSome ∧
        (listedDigest checksums name = .ok (some (tools.sha256 archive)) →
          Readable tools host ext (binaryName host) archive) := by
  rcases verifyChecksum_cases tools archive checksums name with
    ⟨hv, hlisted⟩ | ⟨err, listed, hv, -, hlisted, hne⟩ | ⟨hv, htext⟩
  · -- verified, so that the archive is opened
    have hrest : Provision.verified tools host name archive checksums =
        extractBinary tools host archive ext (binaryName host) := by
      simp [Provision.verified, hv, hplatform, bind, Except.bind]
    rw [hrest, surfaced_extractBinary_iff hf]
    exact ⟨fun h => ⟨isSome_of_listed hlisted, fun _ => h⟩, fun h => h.2 hlisted⟩
  · -- rejected with a `ConduitError`, and the archive is not opened
    rw [verified_error host hv]
    refine iff_of_true ⟨err, rfl⟩ ⟨isSome_of_listed hlisted, fun h => ?_⟩
    exact absurd (Except.ok.inj (hlisted.symm.trans h)) hne
  · -- `decode` raises
    rw [verified_error host hv]
    exact iff_of_false (by simp [Surfaced]) (by simp [htext])

/-! ### The network -/

/-- The outcomes of `_http_get`. -/
inductive Fetch where
  | body (bytes : Bytes)
  /-- An `OSError`. -/
  | osError (msg : String)
  /-- An `http.client.HTTPException`. -/
  | httpException (msg : String)

/-- What the caller of `_http_get` sees. -/
def Fetch.result : Fetch → Except Exn Bytes
  | .body bytes => .ok bytes
  | .osError msg => .error (.os msg)
  | .httpException msg => .error (.http msg)

/-- The URL of the archive. -/
def archiveUrl (version name : String) : String := Provision.baseUrl version ++ "/" ++ name

/-- The URL of the checksums. -/
def checksumsUrl (version : String) : String := Provision.baseUrl version ++ "/checksums.txt"

/-- What can be made of the two downloads without an exception of another library. -/
def Digestible (tools : Toolbox) (host : Machine) (ext name : String) :
    (archive checksums : Fetch) → Prop
  | .httpException _, _ => False
  | .osError _, _ => True
  | .body _, .httpException _ => False
  | .body _, .osError _ => True
  | .body archive, .body checksums =>
    (decodeUtf8 checksums).isSome ∧
      (listedDigest checksums name = .ok (some (tools.sha256 archive)) →
        Readable tools host ext (binaryName host) archive)

/-- The outcome of the two downloads. -/
def downloaded (version name : String) : (archive checksums : Fetch) → Except Exn (Bytes × Bytes)
  | .httpException msg, _ => .error (.http msg)
  | .osError msg, _ => .error (.conduit (Provision.downloadFailed version name msg))
  | .body _, .httpException msg => .error (.http msg)
  | .body _, .osError msg => .error (.conduit (Provision.downloadFailed version name msg))
  | .body archive, .body checksums => .ok (archive, checksums)

/-- What comes out of the two downloads and their verification. -/
def fetchedBinary (tools : Toolbox) (host : Machine) (version name : String)
    (archive checksums : Fetch) : Except Exn Bytes := do
  let fetched ← downloaded version name archive checksums
  Provision.verified tools host name fetched.1 fetched.2

theorem fetchedBinary_body (tools : Toolbox) (host : Machine) (version name : String)
    (archive checksums : Bytes) :
    fetchedBinary tools host version name (.body archive) (.body checksums) =
      Provision.verified tools host name archive checksums := rfl

theorem surfaced_fetchedBinary_iff (hf : tools.Foreign) {os arch ext : String}
    (hplatform : platformTriplet tools.toRuntime host = .ok (os, arch, ext))
    (version name : String) (archive checksums : Fetch) :
    Surfaced (fetchedBinary tools host version name archive checksums) ↔
      Digestible tools host ext name archive checksums := by
  cases archive with
  | httpException msg => simp [fetchedBinary, downloaded, Digestible, Surfaced, bind, Except.bind]
  | osError msg => exact iff_of_true ⟨_, rfl⟩ trivial
  | body archive =>
    cases checksums with
    | httpException msg =>
      simp [fetchedBinary, downloaded, Digestible, Surfaced, bind, Except.bind]
    | osError msg => exact iff_of_true ⟨_, rfl⟩ trivial
    | body checksums => exact surfaced_verified_iff hf hplatform name archive checksums

/-! ### A smooth disk -/

/-- The network answers as `net` says, and everything on the local disk succeeds. -/
def Smooth (net : String → Fetch) : (o : ProvisionOp) → ProvisionAns o → Prop
  | .pathExists _, _ => True
  | .httpGet url, a => a = (net url).result
  | .mkstemp .., a => a.isOk
  | .stat _, a => a.isOk
  | .mkdir _, a | .write .., a | .chmod .., a | .replace .., a | .unlink _, a => a.isOk

/-- The world of one call on a smooth disk. The rest of the system leaves the path of the
binary alone. -/
def smoothWorld (N : Names) (net : String → Fetch) (bin : Loc) (target : PurePath) :
    World Provisioning Unit (Disk Unit) :=
  (Disk.world (fun _ => N) bin).under (fun _ o a _ => Smooth net o a)
    fun s s' => lookup N s'.fs target = lookup N s.fs target

/-- There is nothing at the path of the binary. -/
def Absent (N : Names) (target : PurePath) (s : Disk Unit) : Prop := lookup N s.fs target = none

section Run

variable (N : Names) (net : String → Fetch) (bin : Loc) (target : PurePath)

/-- Nothing has to hold in between. -/
def smooth : Contract (smoothWorld N net bin target) :=
  .solo _ (fun _ => True) fun _ _ _ _ => trivial

variable {N net bin target}

theorem stable_absent : (smooth N net bin target).Stable () (Absent N target) :=
  .solo fun _ _ _ hd h => hd.2.trans h

/-! ### The downloads -/

theorem httpGet_triple (url : String) :
    (smooth N net bin target).Triple () (Absent N target)
      (Provision.step (Provision.ask (.httpGet url)))
      fun r s => r = (net url).result ∧ Absent N target s := by
  have hstable (r : Except Exn Bytes) : (smooth N net bin target).Stable ()
      fun s => r = (net url).result ∧ Absent N target s :=
    (Contract.Stable.const _).and stable_absent
  refine .orRaise hstable (Contract.Triple.perform stable_absent hstable ?_)
  rintro s a s' - h ⟨rfl, ha⟩
  exact ⟨trivial, trivial, ha, h⟩

theorem download_triple (version name : String) :
    (smooth N net bin target).Triple () (Absent N target) (Provision.download version name)
      fun r s => r = downloaded version name (net (archiveUrl version name))
        (net (checksumsUrl version)) ∧ Absent N target s := by
  have hdone {α : Type} (r : Except Exn α) : (smooth N net bin target).Triple () (Absent N target)
      (.done r : ProvisionM α) fun r' s => r' = r ∧ Absent N target s :=
    .done stable_absent fun _ _ h => ⟨rfl, h⟩
  -- what the `try` block returns, or raises
  have hblock : (smooth N net bin target).Triple () (Absent N target)
      (do
        let archive ← Provision.step (Provision.ask (.httpGet (archiveUrl version name)))
        let checksums ← Provision.step (Provision.ask (.httpGet (checksumsUrl version)))
        return (archive, checksums))
      fun r s => r = (do
        let archive ← (net (archiveUrl version name)).result
        let checksums ← (net (checksumsUrl version)).result
        return (archive, checksums)) ∧ Absent N target s := by
    refine (httpGet_triple _).bind (fun archive => .lift fun ha => ?_) fun e => .lift fun ha => ?_
    · rw [← ha]
      refine (httpGet_triple _).bind (fun checksums => .lift fun hc => ?_)
        fun e => .lift fun hc => ?_
      · rw [← hc]
        exact hdone _
      · rw [← hc]
        exact hdone _
    · rw [← ha]
      exact hdone _
  refine hblock.tryCatch (fun fetched => .lift fun hr => ?_) fun e => .lift fun hr => ?_
  · -- a pair of bodies is returned only if both downloads have one
    cases ha : net (archiveUrl version name) <;> cases hc : net (checksumsUrl version) <;>
      simp only [ha, hc, Fetch.result, bind, Except.bind, pure, Except.pure, reduceCtorEq,
        Except.ok.injEq] at hr
    subst hr
    exact hdone _
  · -- an `OSError` is wrapped, an `HTTPException` is not
    cases ha : net (archiveUrl version name) with
    | httpException msg =>
      obtain rfl : e = .http msg := by simpa [ha, Fetch.result, bind, Except.bind] using hr
      exact hdone _
    | osError msg =>
      obtain rfl : e = .os msg := by simpa [ha, Fetch.result, bind, Except.bind] using hr
      exact hdone _
    | body archive =>
      cases hc : net (checksumsUrl version) with
      | httpException msg =>
        obtain rfl : e = .http msg := by
          simpa [ha, hc, Fetch.result, bind, Except.bind] using hr
        exact hdone _
      | osError msg =>
        obtain rfl : e = .os msg := by simpa [ha, hc, Fetch.result, bind, Except.bind] using hr
        exact hdone _
      | body checksums =>
        simp [ha, hc, Fetch.result, bind, Except.bind, pure, Except.pure] at hr

/-! ### The installation -/

/-- A step that succeeds does not raise. -/
theorem smooth_step {α : Type} {p : ProvisionM (Except Exn α)}
    (hp : (smooth N net bin target).Triple () (fun _ => True) p
      (Contract.Returns fun a _ => a.isOk = true)) :
    (smooth N net bin target).Triple () (fun _ => True) (Provision.step p)
      (Contract.Returns fun _ _ => True) := by
  refine hp.bind_returns fun a => ?_
  cases a with
  | ok v => exact .done (.const _) fun _ _ _ => trivial
  | error e => exact .done (.const _) fun _ _ h => by cases h

/-- What the answer to a step is known to be. -/
theorem smooth_ask (o : ProvisionOp) :
    (smooth N net bin target).Triple () (fun _ => True) (Provision.ask o)
      (Contract.Returns fun a _ => Smooth net o a) :=
  Contract.Triple.perform (.const _) (fun _ => .const _) fun _ _ _ _ _ ha =>
    ⟨trivial, trivial, ha.2⟩

/-- Moving the binary into place does not raise. -/
theorem fill_triple (tmp : PurePath) (binary : Bytes) :
    (smooth N net bin target).Triple () (fun _ => True) (Provision.fill tmp target binary)
      (Contract.Returns fun _ _ => True) := by
  have hwrite (byte : UInt8) : (smooth N net bin target).Triple () (fun _ => True)
      (Provision.step (Provision.ask (.write tmp byte))) (Contract.Returns fun _ _ => True) :=
    smooth_step (smooth_ask (.write tmp byte))
  -- byte by byte, then the mode, then the move into place
  have hwrites := Contract.Triple.forEach (P := fun _ _ => True) (E := fun _ _ => False)
    (.const True) (fun _ => .const False) (fun _ byte _ _ => hwrite byte) [] binary rfl
  refine hwrites.bind_returns fun _ => ?_
  refine (smooth_step (smooth_ask (.stat tmp))).bind_returns fun mode => ?_
  refine (smooth_step (smooth_ask (.chmod tmp _))).bind_returns fun _ => ?_
  exact smooth_step (smooth_ask (.replace tmp target))

theorem install_triple (binary : Bytes) :
    (smooth N net bin target).Triple () (fun _ => True) (Provision.install target binary)
      (Contract.Returns fun _ _ => True) := by
  refine (smooth_step (smooth_ask (.mkdir target.parent))).bind_returns fun _ => ?_
  refine (smooth_step (smooth_ask (.mkstemp target.parent _))).bind_returns fun tmp => ?_
  have hunlink : (smooth N net bin target).Triple () (fun _ => True)
      (Provision.step (Provision.ask (.unlink tmp))) (Contract.Returns fun _ _ => True) :=
    smooth_step (smooth_ask (.unlink tmp))
  refine (fill_triple tmp binary).tryFinally (fun r => ?_) fun r => ?_
  · -- the temporary file is removed after a success; a failure does not happen
    cases r with
    | ok _ => exact hunlink.weaken (fun _ _ _ => trivial) fun _ _ h => h
    | error e => exact fun _ _ h => h.elim
  · cases r <;> exact .const _

/-! ### The whole call -/

/-- The part of the call before the installation. -/
def acquire (tools : Toolbox) (host : Machine) (version name : String) : ProvisionM Bytes := do
  let fetched ← Provision.download version name
  Prog.ofExcept (Provision.verified tools host name fetched.1 fetched.2)

theorem acquire_triple (tools : Toolbox) (host : Machine) (version name : String) :
    (smooth N net bin target).Triple () (Absent N target) (acquire tools host version name)
      fun r s => r = fetchedBinary tools host version name (net (archiveUrl version name))
        (net (checksumsUrl version)) ∧ Absent N target s := by
  refine (download_triple version name).bind (fun fetched => .lift fun hd => ?_)
    fun e => .lift fun hd => ?_
  · refine .done stable_absent fun s _ h => ⟨?_, h⟩
    -- the downloads came out as `downloaded` says, and the rest is pure
    rw [fetchedBinary, ← hd]
    rfl
  · refine .done stable_absent fun s _ h => ⟨?_, h⟩
    rw [fetchedBinary, ← hd]
    rfl

/-- The step is a download. -/
def ProvisionOp.IsGet (o : ProvisionOp) : Prop := ∃ url, o = .httpGet url

/-- Before the installation the call asks for downloads only. -/
theorem only_acquire (tools : Toolbox) (host : Machine) (version name : String) :
    (acquire tools host version name).Only ProvisionOp.IsGet := by
  have hget (url : String) :
      (Provision.step (Provision.ask (.httpGet url))).Only ProvisionOp.IsGet :=
    have hop : (ProvisionOp.httpGet url).IsGet := ⟨url, rfl⟩
    .bind (.perform hop) fun _ => trivial
  refine .bind (.tryCatch ?_ fun e => ?_) fun _ => trivial
  · exact .bind (hget _) fun _ => .bind (hget _) fun _ => trivial
  · cases e <;> trivial

/-- Downloads never wait. -/
theorem acquire_ends (net : String → Fetch) (bin : Loc) (tools : Toolbox) (host : Machine)
    (version name : String) {s : Disk Unit} (hs : Absent N target s) :
    ∃ s', Ends (smoothWorld N net bin target) (acquire tools host version name) s
      (fetchedBinary tools host version name (net (archiveUrl version name))
        (net (checksumsUrl version))) s' := by
  -- every download has an answer, so the program comes to its end
  have hanswers (s : Disk Unit) (o : ProvisionOp) (ho : o.IsGet) :
      ∃ a s', (smoothWorld N net bin target).answer () s o a s' := by
    obtain ⟨url, rfl⟩ := ho
    exact ⟨(net url).result, _, rfl, rfl⟩
  obtain ⟨r, s', he⟩ := (only_acquire tools host version name).ends hanswers s
  obtain ⟨rfl, -⟩ := ((acquire_triple tools host version name).ends trivial hs he).2
  exact ⟨s', he⟩

variable {tools : Toolbox} {host : Machine} {version : Option String} {name : String}

/-- The call, on a supported platform. -/
theorem ensureBinary_eq
    (hname : archiveName tools.toRuntime host (resolveVersion host version) = .ok name) :
    ensureBinary tools host version =
      Provision.ask (.pathExists (cachedBinaryPath host (resolveVersion host version))) >>=
        fun there => if there then pure (cachedBinaryPath host (resolveVersion host version))
          else acquire tools host (resolveVersion host version) name >>= fun binary =>
            Provision.install (cachedBinaryPath host (resolveVersion host version)) binary >>=
              fun _ => pure (cachedBinaryPath host (resolveVersion host version)) := by
  unfold ensureBinary
  simp only [hname]
  congr 1
  funext there
  cases there with
  | true => rfl
  | false =>
    simp only [Bool.false_eq_true, if_false, acquire, bind_assoc]
    rfl

/-- How the call ends: it returns the path of the binary, or it raises and nothing is there. -/
theorem ensureBinary_triple
    (hname : archiveName tools.toRuntime host (resolveVersion host version) = .ok name)
    (htarget : cachedBinaryPath host (resolveVersion host version) = target) :
    (smooth N net bin target).Triple () (Absent N target) (ensureBinary tools host version)
      (Contract.Post (fun p _ => p = target) fun e s =>
        fetchedBinary tools host (resolveVersion host version) name
          (net (archiveUrl (resolveVersion host version) name))
          (net (checksumsUrl (resolveVersion host version))) = .error e ∧ Absent N target s) := by
  rw [ensureBinary_eq hname, htarget]
  refine Contract.Triple.perform_bind (M := fun there s => there = false ∧ Absent N target s)
    stable_absent ?_ fun there => .lift fun hthere => ?_
  · -- the look at the cache finds nothing
    rintro s there s' - hs ⟨⟨rfl, hthere⟩, -⟩
    refine ⟨trivial, trivial, ?_, hs⟩
    cases there with
    | false => rfl
    | true => exact absurd hs (hthere.mp rfl)
  subst hthere
  -- what raises before the installation leaves the disk as it is; the installation does not
  refine (acquire_triple tools host _ name).bind (fun binary => ?_) fun e => ?_
  · refine Contract.Triple.pre (P := fun _ => True) ?_ fun _ _ => trivial
    refine (install_triple binary).bind_returns fun _ => ?_
    exact .done (.const _) fun _ _ _ => rfl
  · exact .done ((Contract.Stable.const _).and stable_absent) fun _ _ h => ⟨h.1.symm, h.2⟩

/-- What comes out of the downloads is raised. -/
theorem ensureBinary_raises (bin : Loc)
    (hname : archiveName tools.toRuntime host (resolveVersion host version) = .ok name)
    {e : Exn} (he : fetchedBinary tools host (resolveVersion host version) name
      (net (archiveUrl (resolveVersion host version) name))
      (net (checksumsUrl (resolveVersion host version))) = .error e)
    {s : Disk Unit} (hs : Absent N target s)
    (htarget : cachedBinaryPath host (resolveVersion host version) = target) :
    ∃ s', Ends (smoothWorld N net bin target) (ensureBinary tools host version) s (.error e)
      s' := by
  rw [ensureBinary_eq hname, htarget]
  -- the path is looked up, and then the downloads raise
  have hmiss : (smoothWorld N net bin target).answer () s (.pathExists target) false s :=
    ⟨⟨rfl, iff_of_false Bool.false_ne_true (not_not_intro hs)⟩, trivial⟩
  obtain ⟨s', hends⟩ := acquire_ends net bin tools host
    (resolveVersion host version) name hs
  rw [he] at hends
  refine ⟨s', Ends.perform_bind_iff.mpr ⟨s, false, s, .refl, hmiss, ?_⟩⟩
  exact Ends.handle_iff.mpr ⟨.error e, s', hends, Ends.done_iff.mpr ⟨rfl, .refl⟩⟩

/-- **Provisioning fails cleanly.** On a supported platform, without a binary in the cache and
with a disk on which everything succeeds, the call returns the path of the binary, or raises
a `ConduitError` with nothing at that path, exactly when the downloads are digestible. -/
theorem ensureBinary_surfaces_iff (hf : tools.Foreign) {os arch ext : String}
    (hplatform : platformTriplet tools.toRuntime host = .ok (os, arch, ext))
    (hname : archiveName tools.toRuntime host (resolveVersion host version) = .ok name)
    (htarget : cachedBinaryPath host (resolveVersion host version) = target)
    {s : Disk Unit} (hs : Absent N target s) :
    (∀ r s', Ends (smoothWorld N net bin target) (ensureBinary tools host version) s r s' →
      Contract.Post (fun p _ => p = target)
        (fun e s' => (∃ err, e = .conduit err) ∧ Absent N target s') r s') ↔
      Digestible tools host ext name (net (archiveUrl (resolveVersion host version) name))
        (net (checksumsUrl (resolveVersion host version))) := by
  rw [← surfaced_fetchedBinary_iff hf hplatform (resolveVersion host version) name]
  constructor
  · intro h
    -- what comes out of the downloads is what some run raises
    cases hfetched : fetchedBinary tools host (resolveVersion host version) name
        (net (archiveUrl (resolveVersion host version) name))
        (net (checksumsUrl (resolveVersion host version))) with
    | ok binary => trivial
    | error e =>
      obtain ⟨s', he⟩ := ensureBinary_raises bin hname hfetched hs htarget
      exact (h _ s' he).1
  · intro h r s' he
    -- and what any run raises came out of the downloads
    have hpost := ((ensureBinary_triple hname htarget).ends trivial hs he).2
    cases r with
    | ok p => exact hpost
    | error e =>
      rw [hpost.1] at h
      exact ⟨h, hpost.2⟩

end Run

/-! ### Two downloads -/

open Fleet in
theorem releaseTools_foreign : releaseTools.Foreign where
  zipNames h := by cases h; simp
  zipRead h := by cases h; simp
  tarMembers := by
    intro archive e h
    change (if archive = releaseArchive then _ else _) = _ at h
    split at h
    · cases h
    · cases h
      simp
  extract := by
    intro archive ts t e h ht he
    change (if archive = releaseArchive then _ else _) = _ at h
    split at h
    · cases h
      obtain rfl := List.mem_singleton.mp ht
      cases he
    · cases h

/-- The archive of the release. -/
def releaseAsset : String := "conduit_0.18.0_Linux_x86_64.tar.gz"

open Fleet in
theorem releaseAsset_name :
    archiveName releaseTools.toRuntime linuxHost (resolveVersion linuxHost none) =
      .ok releaseAsset := by
  decide +kernel

open Fleet in
theorem releaseAsset_listed :
    listedDigest releaseChecksums releaseAsset = .ok (some releaseDigest) := by
  decide +kernel

open Fleet in
theorem releasePath_cached :
    cachedBinaryPath linuxHost (resolveVersion linuxHost none) = releasePath := by
  decide +kernel

open Fleet in
theorem emptyDisk_absent : Absent .posix releasePath (emptyDisk Unit) := by
  unfold Absent
  decide +kernel

open Fleet in
/-- An archive that is not the one which the checksums list. -/
def tamperedFetch (url : String) : Fetch :=
  if url = checksumsUrl "0.18.0" then .body releaseChecksums else .body [0]

/-- A connection that breaks while a body is read. -/
def brokenFetch (_ : String) : Fetch := .httpException "IncompleteRead(1024 bytes read)"

open Fleet in
/-- The archive that was tampered with is rejected by a `ConduitError`. -/
theorem ensureBinary_tampered :
    ∃ err s', Ends (smoothWorld .posix tamperedFetch oneRun.bin releasePath)
      (ensureBinary releaseTools linuxHost none) (emptyDisk Unit) (.error (.conduit err)) s' ∧
      Absent .posix releasePath s' := by
  have hplatform : platformTriplet releaseTools.toRuntime linuxHost =
      .ok ("Linux", "x86_64", "tar.gz") := by decide +kernel
  have harchive : tamperedFetch (archiveUrl (resolveVersion linuxHost none) releaseAsset) =
      .body [0] := rfl
  have hchecksums : tamperedFetch (checksumsUrl (resolveVersion linuxHost none)) =
      .body releaseChecksums := rfl
  have hother : some releaseDigest ≠ some (releaseTools.sha256 [0]) := by decide
  have hdigestible : Digestible releaseTools linuxHost "tar.gz" releaseAsset
      (tamperedFetch (archiveUrl (resolveVersion linuxHost none) releaseAsset))
      (tamperedFetch (checksumsUrl (resolveVersion linuxHost none))) := by
    rw [harchive, hchecksums]
    refine ⟨isSome_of_listed releaseAsset_listed, fun h => ?_⟩
    exact absurd (Except.ok.inj (releaseAsset_listed.symm.trans h)) hother
  -- the archive is rejected before it is opened
  obtain ⟨err, hrejected, -⟩ := verifyChecksum_rejects releaseAsset_listed hother
  have hfetched : fetchedBinary releaseTools linuxHost (resolveVersion linuxHost none)
      releaseAsset (tamperedFetch (archiveUrl (resolveVersion linuxHost none) releaseAsset))
      (tamperedFetch (checksumsUrl (resolveVersion linuxHost none))) = .error (.conduit err) := by
    rw [harchive, hchecksums, fetchedBinary_body]
    exact verified_error linuxHost hrejected
  obtain ⟨s', hends⟩ := ensureBinary_raises oneRun.bin releaseAsset_name hfetched
    emptyDisk_absent releasePath_cached
  obtain ⟨-, hstill⟩ := (ensureBinary_surfaces_iff releaseTools_foreign hplatform
    releaseAsset_name releasePath_cached emptyDisk_absent).mpr hdigestible _ s' hends
  exact ⟨err, s', hends, hstill⟩

open Fleet in
/-- A connection that breaks is reported as it is. -/
theorem ensureBinary_incomplete_read :
    ∃ s', Ends (smoothWorld .posix brokenFetch oneRun.bin releasePath)
      (ensureBinary releaseTools linuxHost none) (emptyDisk Unit)
      (.error (.http "IncompleteRead(1024 bytes read)")) s' :=
  ensureBinary_raises oneRun.bin releaseAsset_name rfl emptyDisk_absent releasePath_cached

end Conduit
