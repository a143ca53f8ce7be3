import ConduitClient.Provision

/-!
# The binary in an archive

`_extract_binary` walks a zip archive by the names of its entries and a tar archive by its
members. Both should find the first regular file with the name of the binary (`wanted`).

The tar branch does (`extractTar_eq_wanted`). The zip branch takes the first entry of that
name, whatever it is, and reads whichever entry comes last under its full name; it finds what
is wanted exactly when these make no difference (`Unambiguous`, `extractBinary_wanted_iff`).
-/

namespace Conduit

open Py

/-! ### Archives -/

/-- What a member of an archive is. -/
inductive MemberKind where
  | file | directory | link | other
  deriving DecidableEq, Repr

/-- A member of an archive: its path, what it is, and the bytes stored for it. -/
structure Member where
  name : String
  kind : MemberKind
  data : Bytes
  /-- Nothing is stored for a directory. -/
  empty : kind = .directory → data = []

/-- The name under which a zip archive lists a member. -/
def Member.zipName (m : Member) : String :=
  if m.kind = .directory then m.name ++ "/" else m.name

/-- The last member that a zip archive lists under a name. -/
def lastNamed (members : List Member) (name : String) : Option Member :=
  members.reverse.find? (·.zipName = name)

/-- The zip archive `archive` holds these members: `namelist` lists all of them, and `read`
reads the last one of a name. -/
structure ZipHolds (tools : Toolbox) (archive : Bytes) (members : List Member) : Prop where
  names : tools.zipNames archive = .ok (members.map Member.zipName)
  read : ∀ name m, lastNamed members name = some m → tools.zipRead archive name = .ok m.data

/-- How a tar archive shows a member. -/
structure Member.Shows (m : Member) (t : TarMember) : Prop where
  name : t.name = m.name
  isFile : t.isFile = decide (m.kind = .file)
  extract : m.kind = .file → t.extract = .ok (some m.data)

/-- The tar archive `archive` holds these members. -/
def TarHolds (tools : Toolbox) (archive : Bytes) (members : List Member) : Prop :=
  ∃ ts, tools.tarMembers archive = .ok ts ∧ List.Forall₂ Member.Shows members ts

/-! ### What is wanted -/

/-- The last component of the member's path is the name of the binary. -/
def Member.Named (host : Machine) (name : String) (m : Member) : Prop :=
  entryName host m.name = name

instance Member.decidableNamed (host : Machine) (name : String) (m : Member) :
    Decidable (m.Named host name) :=
  inferInstanceAs (Decidable (_ = _))

/-- The first regular file with the name of the binary. -/
def firstFile (host : Machine) (name : String) (members : List Member) : Option Member :=
  members.find? fun m => m.Named host name ∧ m.kind = .file

/-- Its contents, or the error for an archive without the binary. -/
def wanted (rt : Runtime) (host : Machine) (name : String) (members : List Member) :
    Except Exn Bytes :=
  match firstFile host name members with
  | some m => .ok m.data
  | none => .error <| .conduit
    { code := "client.malformed_release_asset"
      message := "archive did not contain a " ++ rt.repr name ++
        " entry -- release asset layout may have changed; this client's extraction logic " ++
        "needs updating." }

theorem wanted_of_none {rt : Runtime} {host : Machine} {name : String} {members : List Member}
    (h : firstFile host name members = none) :
    wanted rt host name members = .error (.conduit (malformedReleaseAsset rt name)) := by
  rw [wanted, h]
  rfl

/-- The separator behind the name of a directory does not change its last component. -/
theorem entryName_append_slash (host : Machine) (name : String) :
    entryName host (name ++ "/") = entryName host name := by
  unfold entryName
  split
  · -- on Windows, where a path is split at both separators
    rw [windowsComponents_append_slash]
  · have h := components_concat_slash name.toList
    rw [String.ofList_append, String.ofList_toList] at h
    exact congrArg (fun parts => parts.getLast?.getD "") h

theorem Member.entryName_zipName (host : Machine) (m : Member) :
    entryName host m.zipName = entryName host m.name := by
  unfold zipName
  split
  · exact entryName_append_slash host m.name
  · rfl

variable {tools : Toolbox} {host : Machine} {members : List Member}

/-! ### The tar branch -/

/-- The loop over the members finds what is wanted. -/
theorem extractTar_eq_wanted (rt : Runtime) (host : Machine) (name : String)
    {ts : List TarMember} (h : List.Forall₂ Member.Shows members ts) :
    extractTar rt host name ts = wanted rt host name members := by
  -- induction on the members, next to what the archive shows of them
  induction h with
  | nil => rfl
  | @cons m t members ts hm _ ih =>
    unfold extractTar wanted firstFile
    rw [hm.name, hm.isFile, List.find?_cons]
    by_cases hw : m.Named host name ∧ m.kind = .file
    · -- this is the member that both look for
      have hname : entryName host m.name = name := hw.1
      rw [if_pos ⟨hname, decide_eq_true hw.2⟩, hm.extract hw.2, decide_eq_true hw]
      rfl
    · -- the member is passed over
      have hpass : ¬ (entryName host m.name = name ∧ decide (m.kind = .file) = true) :=
        fun hc => hw ⟨hc.1, of_decide_eq_true hc.2⟩
      rw [if_neg hpass, decide_eq_false hw]
      exact ih

theorem extractBinary_tar {archive : Bytes} (h : TarHolds tools archive members)
    (name : String) :
    extractBinary tools host archive "tar.gz" name =
      wanted tools.toRuntime host name members := by
  obtain ⟨ts, hts, hshows⟩ := h
  unfold extractBinary
  rw [if_neg (by decide), hts]
  exact extractTar_eq_wanted tools.toRuntime host name hshows

/-! ### The zip branch -/

/-- The zip branch reads the first entry of the name. -/
theorem extractBinary_of_zipNames {archive : Bytes} {names : List String}
    (h : tools.zipNames archive = .ok names) (name : String) :
    extractBinary tools host archive "zip" name =
      (names.find? (entryName host · = name)).elim
        (.error (.conduit (malformedReleaseAsset tools.toRuntime name)))
        (tools.zipRead archive) := by
  unfold extractBinary
  rw [if_pos rfl, h]
  simp only [bind, Except.bind]
  cases names.find? (entryName host · = name) <;> rfl

/-- The first member of any kind with the name of the binary. -/
def firstNamed (host : Machine) (name : String) (members : List Member) : Option Member :=
  members.find? fun m => m.Named host name

theorem lastNamed_isSome {m : Member} (hm : m ∈ members) :
    ∃ last, lastNamed members m.zipName = some last := by
  rw [← Option.isSome_iff_exists, lastNamed, List.find?_isSome]
  exact ⟨m, List.mem_reverse.mpr hm, decide_eq_true rfl⟩

/-- The zip branch reads the last entry under the name of the first one with the name of the
binary. -/
theorem extractBinary_zip {archive : Bytes} (h : ZipHolds tools archive members)
    (name : String) :
    extractBinary tools host archive "zip" name =
      match firstNamed host name members with
      | none => .error (.conduit (malformedReleaseAsset tools.toRuntime name))
      | some m => (lastNamed members m.zipName).elim (tools.zipRead archive m.zipName)
          fun last => .ok last.data := by
  -- the search by entry names finds the first member with the name of the binary
  have hfind : (members.map Member.zipName).find? (entryName host · = name) =
      (firstNamed host name members).map Member.zipName := by
    rw [List.find?_map, firstNamed]
    simp only [Function.comp_def, Member.entryName_zipName]
    rfl
  rw [extractBinary_of_zipNames h.names, hfind]
  cases hfirst : firstNamed host name members with
  | none => rfl
  | some m =>
    -- it is listed under its own name, so some entry is the last one under it
    obtain ⟨last, hlast⟩ := lastNamed_isSome (List.mem_of_find?_eq_some hfirst)
    simp only [Option.map_some, hlast, Option.elim_some]
    exact h.read _ last hlast

/-- If a member has the name of the binary, a regular file has it, and the last entry under
the first such name stores the same bytes as the first such file. -/
def Unambiguous (host : Machine) (name : String) (members : List Member) : Prop :=
  ∀ m ∈ firstNamed host name members, ∃ file ∈ firstFile host name members,
    ∀ last ∈ lastNamed members m.zipName, last.data = file.data

instance (host : Machine) (name : String) (members : List Member) :
    Decidable (Unambiguous host name members) :=
  inferInstanceAs (Decidable (∀ m ∈ firstNamed host name members, _))

/-- Where no member has the name, no regular file has it. -/
theorem firstFile_of_firstNamed {name : String} (h : firstNamed host name members = none) :
    firstFile host name members = none := by
  rw [firstNamed, List.find?_eq_none] at h
  rw [firstFile, List.find?_eq_none]
  intro m hm hfile
  exact h m hm (decide_eq_true (of_decide_eq_true hfile).1)

theorem extractBinary_zip_iff {archive : Bytes} (h : ZipHolds tools archive members)
    (name : String) :
    extractBinary tools host archive "zip" name = wanted tools.toRuntime host name members ↔
      Unambiguous host name members := by
  rw [extractBinary_zip h, Unambiguous]
  cases hfirst : firstNamed host name members with
  | none =>
    -- both raise the error for an archive without the binary
    rw [wanted_of_none (firstFile_of_firstNamed hfirst)]
    simp
  | some m =>
    obtain ⟨last, hlast⟩ := lastNamed_isSome (List.mem_of_find?_eq_some hfirst)
    cases hfile : firstFile host name members with
    | none =>
      -- bytes are yielded where none are wanted
      rw [wanted_of_none hfile]
      simp [hlast]
    | some file =>
      -- both yield bytes, which are the same or not
      rw [wanted, hfile]
      simp [hlast]

/-- **The binary in an archive.** A zip archive and a tar archive that hold the same members
both yield what is wanted exactly when the members are unambiguous. -/
theorem extractBinary_wanted_iff {zip tar : Bytes} (hzip : ZipHolds tools zip members)
    (htar : TarHolds tools tar members) (name : String) :
    (extractBinary tools host zip "zip" name = wanted tools.toRuntime host name members ∧
      extractBinary tools host tar "tar.gz" name = wanted tools.toRuntime host name members) ↔
      Unambiguous host name members := by
  rw [extractBinary_zip_iff hzip, extractBinary_tar htar]
  exact and_iff_left rfl

/-! ### A directory in front of the binary -/

/-- The readers of an archive that holds these members, whatever its bytes. -/
def holding (members : List Member) : Toolbox where
  toRuntime := plainRuntime
  sha256 _ := ""
  zipNames _ := .ok (members.map Member.zipName)
  zipRead _ name := match lastNamed members name with
    | some m => .ok m.data
    | none => .error (.archive "There is no item with this name in the archive")
  tarMembers _ := .ok <| members.map fun m =>
    { name := m.name
      isFile := decide (m.kind = .file)
      extract := .ok (if m.kind = .file then some m.data else none) }

theorem holding_zip (members : List Member) (archive : Bytes) :
    ZipHolds (holding members) archive members where
  names := rfl
  read name m h := by simp [holding, h]

theorem holding_tar (members : List Member) (archive : Bytes) :
    TarHolds (holding members) archive members := by
  refine ⟨_, rfl, ?_⟩
  rw [List.forall₂_map_right_iff, List.forall₂_same]
  intro m _
  exact ⟨rfl, rfl, fun hfile => by simp [hfile]⟩

/-- A Windows host. -/
def windowsHost : Machine where
  system := "Windows"
  machine := "AMD64"
  engineVersion := none
  userCacheDir :=
    { drive := "C:", root := "\\", parts := ["Users", "u", "conduit-client-python", "Cache"] }

/-- A release with the binary and a text beside it. -/
def plainRelease : List Member :=
  [⟨"README.md", .file, [35], nofun⟩, ⟨"conduit.exe", .file, [77, 90], nofun⟩]

/-- A release whose binary is in a directory of the same name. -/
def nestedRelease : List Member :=
  [⟨"conduit.exe", .directory, [], fun _ => rfl⟩,
    ⟨"conduit.exe/conduit.exe", .file, [77, 90], nofun⟩]

/-- From a plain release both branches yield the binary. -/
theorem extractBinary_wanted_plain :
    extractBinary (holding plainRelease) windowsHost [80, 75] "zip" "conduit.exe" =
        .ok [77, 90] ∧
      extractBinary (holding plainRelease) windowsHost [31, 139] "tar.gz" "conduit.exe" =
        .ok [77, 90] := by
  have hplain : Unambiguous windowsHost "conduit.exe" plainRelease := by decide +kernel
  exact (extractBinary_wanted_iff (holding_zip _ _) (holding_tar _ _) "conduit.exe").mpr hplain

/-- From a nested release the zip branch yields the directory, which is empty. -/
theorem extractBinary_nested :
    ZipHolds (holding nestedRelease) [80, 75] nestedRelease ∧
      TarHolds (holding nestedRelease) [31, 139] nestedRelease ∧
      extractBinary (holding nestedRelease) windowsHost [80, 75] "zip" "conduit.exe" = .ok [] ∧
      extractBinary (holding nestedRelease) windowsHost [31, 139] "tar.gz" "conduit.exe" =
        .ok [77, 90] ∧
      wanted plainRuntime windowsHost "conduit.exe" nestedRelease = .ok [77, 90] :=
  ⟨holding_zip _ _, holding_tar _ _, by decide +kernel, by decide +kernel, by decide +kernel⟩

end Conduit
