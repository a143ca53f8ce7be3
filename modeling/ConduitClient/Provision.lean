import ConduitClient.Effect.Prog
import ConduitClient.Host
import ConduitClient.Py.Path
import ConduitClient.Py.Text

/-!
# Provisioning the engine

`_provision.py`: which release of the engine a host uses, and `ensure_binary`, which
downloads it once, verifies it and installs it under the user's cache directory.

The pure parts (versions, platform names, the checksum line, the search through an archive)
are functions; the steps on the network and the file system are the interface
`Provisioning`. The body of the binary is written byte by byte, so that a run may end after
any part of it.
-/

namespace Conduit

open Effect Py

/-- A member of a tar archive. -/
structure TarMember where
  name : String
  isFile : Bool
  /-- `tf.extractfile(member)`, and `read()` of it. -/
  extract : Except Exn (Option Bytes)

/-- What provisioning takes from the standard library: the hash and the archive readers. -/
structure Toolbox extends Runtime where
  /-- `hashlib.sha256(data).hexdigest()` -/
  sha256 : Bytes → String
  /-- `zipfile.ZipFile(...).namelist()` -/
  zipNames : Bytes → Except Exn (List String)
  /-- `zipfile.ZipFile(...).read(name)` -/
  zipRead : Bytes → String → Except Exn Bytes
  /-- `tarfile.open(..., mode="r:gz").getmembers()` -/
  tarMembers : Bytes → Except Exn (List TarMember)

/-- What provisioning reads of the host it runs on. -/
structure Machine where
  /-- `platform.system()` -/
  system : String
  /-- `platform.machine()` -/
  machine : String
  /-- The variable `CONDUIT_CLIENT_ENGINE_VERSION`. -/
  engineVersion : Option String
  /-- `Path(platformdirs.user_cache_dir("conduit-client-python"))` -/
  userCacheDir : PurePath
  deriving DecidableEq

/-- The kind of path that `Path` is on the host. -/
def Machine.flavour (host : Machine) : Flavour :=
  if host.system = "Windows" then .windows else .posix

/-- `DEFAULT_CONDUIT_VERSION`. -/
def defaultConduitVersion : String := "0.18.0"

/-- `_GITHUB_RELEASES`. -/
def githubReleases : String := "https://github.com/ConduitIO/conduit/releases/download"

/-- `a or b` where `a` may be `None`. -/
def orElse (a : Option String) (b : String) : String := strOr (a.getD "") b

/-- `resolve_version`. -/
def resolveVersion (host : Machine) (version : Option String) : String :=
  removeFront (orElse version (orElse host.engineVersion defaultConduitVersion)) "v"

/-- `os_map`. -/
def osMap : List (String × String) :=
  [("Darwin", "Darwin"), ("Linux", "Linux"), ("Windows", "Windows")]

/-- `arch_map`. -/
def archMap : List (String × String) :=
  [("x86_64", "x86_64"), ("amd64", "x86_64"), ("arm64", "arm64"), ("aarch64", "arm64")]

/-- The error for a platform without a release asset. -/
def unsupportedPlatform (rt : Runtime) (system machine : String) : ConduitError where
  message := "no published conduit release asset known for platform system=" ++
    rt.repr system ++ " machine=" ++ rt.repr machine ++
    ". Supported: ['Darwin', 'Linux', 'Windows'] x ['arm64', 'x86_64']."
  code := "client.unsupported_platform"

/-- `_platform_triplet`: the names of the operating system and the architecture in release
assets, and the extension of the archive. -/
def platformTriplet (rt : Runtime) (host : Machine) :
    Except Exn (String × String × String) :=
  match osMap.lookup host.system, archMap.lookup (lower host.machine) with
  | some os, some arch => .ok (os, arch, if os = "Windows" then "zip" else "tar.gz")
  | _, _ => .error (.conduit (unsupportedPlatform rt host.system (lower host.machine)))

/-- `_archive_name`. -/
def archiveName (rt : Runtime) (host : Machine) (version : String) : Except Exn String := do
  let (os, arch, ext) ← platformTriplet rt host
  return "conduit_" ++ version ++ "_" ++ os ++ "_" ++ arch ++ "." ++ ext

/-- `_binary_name`. -/
def binaryName (host : Machine) : String :=
  if host.system = "Windows" then "conduit.exe" else "conduit"

/-- `cache_dir`. -/
def cacheDir (host : Machine) (version : String) : PurePath :=
  (host.userCacheDir.join host.flavour "bin").join host.flavour version

/-- `cached_binary_path`. -/
def cachedBinaryPath (host : Machine) (version : String) : PurePath :=
  (cacheDir host version).join host.flavour (binaryName host)

/-! ### Checksums and archives -/

/-- The digest that `checksums.txt` lists for a file: the first line of two words of which
the second is the file's name. -/
def listedDigest (checksums : Bytes) (name : String) : Except Exn (Option String) :=
  match decodeUtf8 checksums with
  | none => .error .unicode
  | some text =>
    .ok <| (splitLines text).findSome? fun line =>
      match split line with
      | [digest, file] => if file = name then some digest else none
      | _ => none

/-- `_verify_checksum`. -/
def verifyChecksum (tools : Toolbox) (archive checksums : Bytes) (name : String) :
    Except Exn Unit := do
  match ← listedDigest checksums name with
  | none =>
    throw (.conduit
      { message := tools.repr name ++ " not listed in the release's checksums.txt -- " ++
          "refusing to trust an unverifiable download."
        code := "client.checksum_mismatch" })
  | some expected =>
    let actual := tools.sha256 archive
    if actual ≠ expected then
      throw (.conduit
        { message := "checksum mismatch for " ++ tools.repr name ++ ": expected " ++
            expected ++ ", got " ++ actual ++ ". Refusing to use a download that doesn't " ++
            "match the published release checksum."
          code := "client.checksum_mismatch" })

/-- `Path(entry).name`. On Windows a path has either separator, and may have a drive (as Python
3.12 reads it, see `windowsComponents`). -/
def entryName (host : Machine) (entry : String) : String :=
  let parts := if host.system = "Windows" then windowsComponents entry else components entry
  parts.getLast?.getD ""

/-- The error for an archive without the binary. -/
def malformedReleaseAsset (rt : Runtime) (name : String) : ConduitError where
  message := "archive did not contain a " ++ rt.repr name ++
    " entry -- release asset layout may have changed; this client's extraction logic " ++
    "needs updating."
  code := "client.malformed_release_asset"

/-- The loop over the members of a tar archive. -/
def extractTar (rt : Runtime) (host : Machine) (name : String) :
    List TarMember → Except Exn Bytes
  | [] => .error (.conduit (malformedReleaseAsset rt name))
  | member :: members => do
    if entryName host member.name = name ∧ member.isFile = true then
      match ← member.extract with
      | some bytes => return bytes
      | none => extractTar rt host name members
    else extractTar rt host name members

/-- `_extract_binary`. -/
def extractBinary (tools : Toolbox) (host : Machine) (archive : Bytes) (ext name : String) :
    Except Exn Bytes := do
  if ext = "zip" then
    match (← tools.zipNames archive).find? (entryName host · = name) with
    | some entry => tools.zipRead archive entry
    | none => throw (.conduit (malformedReleaseAsset tools.toRuntime name))
  else
    extractTar tools.toRuntime host name (← tools.tarMembers archive)

/-! ### `ensure_binary` -/

/-- The steps of provisioning outside the process. -/
inductive ProvisionOp where
  /-- `path.exists()` -/
  | pathExists (path : PurePath)
  /-- `_http_get(url)` -/
  | httpGet (url : String)
  /-- `path.mkdir(parents=True, exist_ok=True)` -/
  | mkdir (path : PurePath)
  /-- `tempfile.mkstemp(dir=dir, prefix=front)` -/
  | mkstemp (dir : PurePath) (front : String)
  /-- One byte of `f.write(...)` on the descriptor of a temporary file. -/
  | write (tmp : PurePath) (byte : UInt8)
  /-- `path.stat().st_mode` -/
  | stat (path : PurePath)
  /-- `path.chmod(mode)` -/
  | chmod (path : PurePath) (mode : Nat)
  /-- `source.replace(target)` -/
  | replace (source target : PurePath)
  /-- `path.unlink(missing_ok=True)` -/
  | unlink (path : PurePath)
  deriving DecidableEq

/-- The answers to each step. -/
@[reducible] def ProvisionAns : ProvisionOp → Type
  | .pathExists _ => Bool
  | .httpGet _ => Except Exn Bytes
  | .mkstemp .. => Except Exn PurePath
  | .stat _ => Except Exn Nat
  | _ => Except Exn Unit

/-- The interface of provisioning. -/
@[reducible] def Provisioning : Interface := ⟨ProvisionOp, ProvisionAns⟩

/-- Provisioning code. -/
abbrev ProvisionM (α : Type) := Prog Provisioning Exn α

namespace Provision

/-- Perform a step that may raise. -/
def step {α : Type} (p : ProvisionM (Except Exn α)) : ProvisionM α := do
  let r ← p
  Prog.ofExcept r

/-- Perform a step. -/
abbrev ask (o : ProvisionOp) : ProvisionM (ProvisionAns o) := Prog.perform (S := Provisioning) o

/-- `stat.S_IEXEC | stat.S_IXGRP | stat.S_IXOTH`, added to a mode. -/
def executable (mode : Nat) : Nat := mode ||| 0o100 ||| 0o010 ||| 0o001

/-- `base_url`. -/
def baseUrl (version : String) : String := githubReleases ++ "/v" ++ version

/-- The error of a failed download. -/
def downloadFailed (version name msg : String) : ConduitError where
  message := "failed to download conduit v" ++ version ++ " release asset (" ++ name ++
    ") from GitHub Releases: " ++ msg
  code := "client.download_failed"

/-- The two downloads. -/
def download (version name : String) : ProvisionM (Bytes × Bytes) :=
  Prog.tryCatch (do
    let archive ← step (ask (.httpGet (baseUrl version ++ "/" ++ name)))
    let checksums ← step (ask (.httpGet (baseUrl version ++ "/checksums.txt")))
    return (archive, checksums)) fun
  | .os msg => Prog.raise (.conduit (downloadFailed version name msg))
  | e => Prog.raise e

/-- The verified binary out of the two downloads. -/
def verified (tools : Toolbox) (host : Machine) (name : String) (archive checksums : Bytes) :
    Except Exn Bytes := do
  verifyChecksum tools archive checksums name
  let (_, _, ext) ← platformTriplet tools.toRuntime host
  extractBinary tools host archive ext (binaryName host)

/-- The `try` block of the installation: fill the temporary file and move it into place. -/
def fill (tmp target : PurePath) (binary : Bytes) : ProvisionM Unit := do
  Prog.forEach (fun byte => step (ask (.write tmp byte))) binary
  let mode ← step (ask (.stat tmp))
  step (ask (.chmod tmp (executable mode)))
  step (ask (.replace tmp target))

/-- The installation of a binary. -/
def install (target : PurePath) (binary : Bytes) : ProvisionM Unit := do
  step (ask (.mkdir target.parent))
  let tmp ← step (ask (.mkstemp target.parent ".conduit-download-"))
  (fill tmp target binary).tryFinally (step (ask (.unlink tmp)))

end Provision

open Provision in
/-- `ensure_binary`. -/
def ensureBinary (tools : Toolbox) (host : Machine) (version : Option String) :
    ProvisionM PurePath := do
  let resolvedVersion := resolveVersion host version
  let target := cachedBinaryPath host resolvedVersion
  if ← ask (.pathExists target) then
    return target
  let name ← Prog.ofExcept (archiveName tools.toRuntime host resolvedVersion)
  let (archive, checksums) ← download resolvedVersion name
  let binary ← Prog.ofExcept (verified tools host name archive checksums)
  install target binary
  return target

end Conduit
