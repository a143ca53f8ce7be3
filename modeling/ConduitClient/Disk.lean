import ConduitClient.Effect.Contract
import ConduitClient.Provision
import ConduitClient.Py.Names

/-!
# The world of provisioning

The file system that any number of `ensure_binary` runs share, and the network they download
from. Everything may fail: a step of the file system may raise and do nothing, a download may
answer with any bytes or raise. What a step does when it succeeds is `Disk.answer`.

The state carries a history that no program reads: which run created which temporary file,
what each run downloaded, and which file was moved where by whom.

Where the paths of a run lead is up to the names of its host (`Names`). The rest of the system may
do anything outside the directory `bin` (`Disk.drift`).
-/

namespace Conduit

open Effect Py

/-- An entry of the file tree. -/
inductive Node where
  | dir
  | file (bytes : Bytes) (mode : Nat)
  deriving DecidableEq

/-- A download by a run; `none` when it raised. -/
structure Download (ι : Type) where
  run : ι
  url : String
  body : Option Bytes

/-- The move of a file to its final place by a run. -/
structure Install (ι : Type) where
  run : ι
  loc : Loc
  bytes : Bytes

/-- The state of the world of provisioning. -/
structure Disk (ι : Type) where
  fs : Loc → Option Node
  /-- The temporary files that were ever created, with the run that created each. -/
  temps : List (ι × Loc) := []
  downloads : List (Download ι) := []
  installs : List (Install ι) := []

/-- Every entry but the root is an entry of a directory. -/
structure Tree (fs : Loc → Option Node) : Prop where
  root : fs [] = some .dir
  parent : ∀ loc name, fs (loc ++ [name]) ≠ none → fs loc = some .dir

/-- The entry a path leads to. The way there goes through directories only. -/
def lookup (N : Names) (fs : Loc → Option Node) (p : PurePath) : Option Node :=
  if ∀ loc ∈ N.through p, fs loc = some .dir then fs (N.place p) else none

/-- The tree with directories at the places that were missing. -/
def makeDirs (fs : Loc → Option Node) (locs : List Loc) (loc : Loc) : Option Node :=
  if loc ∈ locs ∧ fs loc = none then some .dir else fs loc

/-- Nothing is in the way of directories at these places. -/
def Passable (fs : Loc → Option Node) (locs : List Loc) : Prop :=
  ∀ loc ∈ locs, (fs loc = none ∨ fs loc = some .dir) ∧
    (loc.dropLast ∈ locs ∨ fs loc.dropLast = some .dir)

instance (fs : Loc → Option Node) (locs : List Loc) : Decidable (Passable fs locs) :=
  inferInstanceAs (Decidable (∀ loc ∈ locs, _))

/-- The names that `mkstemp` makes up. -/
def TempName (front name : String) : Prop :=
  ∃ rest : String, name = front ++ rest ∧ '/' ∉ rest.toList ∧ '\\' ∉ rest.toList

namespace Disk

variable {ι : Type}

/-- Change one entry of the tree. -/
def put (s : Disk ι) (loc : Loc) (node : Option Node) : Disk ι :=
  { s with fs := Function.update s.fs loc node }

/-- Run `i` has asked for a download. -/
def logDownload (s : Disk ι) (i : ι) (url : String) (body : Option Bytes) : Disk ι :=
  { s with downloads := s.downloads ++ [⟨i, url, body⟩] }

/-- Create a temporary file of run `i`. -/
def createTemp (s : Disk ι) (i : ι) (loc : Loc) (mode : Nat) : Disk ι :=
  { s with
    fs := Function.update s.fs loc (some (.file [] mode))
    temps := s.temps ++ [(i, loc)] }

/-- Move a file in the name of run `i`. -/
def moveFile (s : Disk ι) (i : ι) (source target : Loc) (bytes : Bytes) (mode : Nat) : Disk ι :=
  { s with
    fs := Function.update (Function.update s.fs source none) target (some (.file bytes mode))
    installs := s.installs ++ [⟨i, target, bytes⟩] }

/-- Create the missing directories at these places. -/
def mkdirs (s : Disk ι) (locs : List Loc) : Disk ι := { s with fs := makeDirs s.fs locs }

/-- How a step of run `i` may be answered, on a host with the names `N`. -/
def answer (N : Names) (i : ι) (s : Disk ι) :
    (o : ProvisionOp) → ProvisionAns o → Disk ι → Prop
  | .pathExists p, a, s' => s' = s ∧ (a = true ↔ lookup N s.fs p ≠ none)
  | .httpGet url, a, s' => s' = s.logDownload i url a.toOption
  | .mkdir p, .ok _, s' =>
    -- `parents=True, exist_ok=True`
    ∃ locs ⊆ N.way p, N.place p ∈ locs ∧ Passable s.fs locs ∧ s' = s.mkdirs locs
  | .mkdir p, .error _, s' =>
    -- a failure may come after some of the directories were created
    ∃ locs ⊆ N.way p, Passable s.fs locs ∧ s' = s.mkdirs locs
  | .mkstemp dir front, .ok tmp, s' =>
    ∃ name, TempName front name ∧ tmp = dir.child name ∧
      lookup N s.fs dir = some .dir ∧ s.fs (N.place tmp) = none ∧
      N.place tmp ∉ s.temps.map Prod.snd ∧ s' = s.createTemp i (N.place tmp) 0o600
  | .write tmp byte, .ok _, s' =>
    ∃ bytes mode, lookup N s.fs tmp = some (.file bytes mode) ∧
      s' = s.put (N.place tmp) (some (.file (bytes ++ [byte]) mode))
  | .stat p, .ok mode, s' => s' = s ∧ ∃ bytes, lookup N s.fs p = some (.file bytes mode)
  | .chmod p mode, .ok _, s' =>
    ∃ bytes mode', lookup N s.fs p = some (.file bytes mode') ∧
      s' = s.put (N.place p) (some (.file bytes mode))
  | .replace source target, .ok _, s' =>
    ∃ bytes mode, lookup N s.fs source = some (.file bytes mode) ∧
      lookup N s.fs target.parent = some .dir ∧ s.fs (N.place target) ≠ some .dir ∧
      s' = s.moveFile i (N.place source) (N.place target) bytes mode
  | .unlink p, .ok _, s' =>
    -- `missing_ok=True`
    (lookup N s.fs p = none ∧ s' = s) ∨
      ∃ bytes mode, lookup N s.fs p = some (.file bytes mode) ∧ s' = s.put (N.place p) none
  | .unlink p, .error _, s' => lookup N s.fs p ≠ none ∧ s' = s
  -- the other steps fail without an effect
  | .mkstemp .., .error _, s' | .write .., .error _, s' | .stat _, .error _, s'
  | .chmod .., .error _, s' | .replace .., .error _, s' => s' = s

/-- Only `mkstemp` creates temporary files, and only `_http_get` downloads. -/
theorem answer_frame {N : Names} {i : ι} {s s' : Disk ι} {o : ProvisionOp} {a : ProvisionAns o}
    (ha : answer N i s o a s') :
    ((∀ dir front, o ≠ .mkstemp dir front) → s'.temps = s.temps) ∧
      ((∀ url, o ≠ .httpGet url) → s'.downloads = s.downloads) := by
  cases o with
  | pathExists p =>
    obtain ⟨rfl, -⟩ := ha
    exact ⟨fun _ => rfl, fun _ => rfl⟩
  | httpGet url =>
    obtain rfl : s' = _ := ha
    exact ⟨fun _ => rfl, fun ho => absurd rfl (ho url)⟩
  | mkstemp dir front =>
    refine ⟨fun ho => absurd rfl (ho dir front), fun _ => ?_⟩
    cases a with
    | ok tmp =>
      obtain ⟨_, -, -, -, -, -, rfl⟩ := ha
      rfl
    | error e =>
      obtain rfl : s' = s := ha
      rfl
  | mkdir p =>
    cases a with
    | ok _ =>
      obtain ⟨_, -, -, -, rfl⟩ := ha
      exact ⟨fun _ => rfl, fun _ => rfl⟩
    | error e =>
      -- some of the directories may have been made
      obtain ⟨_, -, -, rfl⟩ := ha
      exact ⟨fun _ => rfl, fun _ => rfl⟩
  | write tmp byte =>
    cases a with
    | ok _ =>
      obtain ⟨_, _, -, rfl⟩ := ha
      exact ⟨fun _ => rfl, fun _ => rfl⟩
    | error e =>
      obtain rfl : s' = s := ha
      exact ⟨fun _ => rfl, fun _ => rfl⟩
  | stat p =>
    cases a with
    | ok _ =>
      obtain ⟨rfl, -⟩ := ha
      exact ⟨fun _ => rfl, fun _ => rfl⟩
    | error e =>
      obtain rfl : s' = s := ha
      exact ⟨fun _ => rfl, fun _ => rfl⟩
  | chmod p mode =>
    cases a with
    | ok _ =>
      obtain ⟨_, _, -, rfl⟩ := ha
      exact ⟨fun _ => rfl, fun _ => rfl⟩
    | error e =>
      obtain rfl : s' = s := ha
      exact ⟨fun _ => rfl, fun _ => rfl⟩
  | replace source target =>
    cases a with
    | ok _ =>
      obtain ⟨_, _, -, -, -, rfl⟩ := ha
      exact ⟨fun _ => rfl, fun _ => rfl⟩
    | error e =>
      obtain rfl : s' = s := ha
      exact ⟨fun _ => rfl, fun _ => rfl⟩
  | unlink p =>
    cases a with
    | ok _ =>
      rcases ha with ⟨-, rfl⟩ | ⟨_, _, -, rfl⟩
      · exact ⟨fun _ => rfl, fun _ => rfl⟩
      · exact ⟨fun _ => rfl, fun _ => rfl⟩
    | error e =>
      obtain ⟨-, rfl⟩ := ha
      exact ⟨fun _ => rfl, fun _ => rfl⟩

/-- What the rest of the system may do. -/
structure Drift (bin : Loc) (s s' : Disk ι) : Prop where
  below : ∀ loc, bin <+: loc → s'.fs loc = s.fs loc
  tree : Tree s'.fs
  temps : s'.temps = s.temps
  downloads : s'.downloads = s.downloads
  installs : s'.installs = s.installs

/-- The world of provisioning, for hosts with the given names. -/
def world (names : ι → Names) (bin : Loc) : World Provisioning ι (Disk ι) where
  answer i := answer (names i) i
  drift := Drift bin

/-- The last file that was moved to a place. -/
def lastInstall (s : Disk ι) (loc : Loc) : Option (Install ι) :=
  (s.installs.filter (·.loc = loc)).getLast?

@[simp] theorem put_fs (s : Disk ι) (loc : Loc) (node : Option Node) :
    (s.put loc node).fs = Function.update s.fs loc node := rfl

@[simp] theorem createTemp_fs (s : Disk ι) (i : ι) (loc : Loc) (mode : Nat) :
    (s.createTemp i loc mode).fs = Function.update s.fs loc (some (.file [] mode)) := rfl

@[simp] theorem moveFile_fs (s : Disk ι) (i : ι) (source target : Loc) (bytes : Bytes)
    (mode : Nat) :
    (s.moveFile i source target bytes mode).fs =
      Function.update (Function.update s.fs source none) target (some (.file bytes mode)) := rfl

@[simp] theorem mkdirs_fs (s : Disk ι) (locs : List Loc) :
    (s.mkdirs locs).fs = makeDirs s.fs locs := rfl

@[simp] theorem mkdirs_nil (s : Disk ι) : s.mkdirs [] = s := by
  have hfs : makeDirs s.fs [] = s.fs := funext fun loc => if_neg fun h => List.not_mem_nil h.1
  rw [mkdirs, hfs]

@[simp] theorem mkdirs_temps (s : Disk ι) (locs : List Loc) : (s.mkdirs locs).temps = s.temps := rfl

@[simp] theorem mkdirs_downloads (s : Disk ι) (locs : List Loc) :
    (s.mkdirs locs).downloads = s.downloads := rfl

@[simp] theorem mkdirs_installs (s : Disk ι) (locs : List Loc) :
    (s.mkdirs locs).installs = s.installs := rfl

theorem lastInstall_moveFile (s : Disk ι) (i : ι) (source target : Loc) (bytes : Bytes)
    (mode : Nat) (loc : Loc) :
    (s.moveFile i source target bytes mode).lastInstall loc =
      if target = loc then some ⟨i, target, bytes⟩ else s.lastInstall loc := by
  unfold lastInstall moveFile
  by_cases h : target = loc <;> simp [List.filter_append, h]

/-- What was once moved somewhere has a successor there. -/
theorem lastInstall_isSome_mono {s s' : Disk ι} (h : s.installs <+: s'.installs) {loc : Loc}
    (hs : (s.lastInstall loc).isSome) : (s'.lastInstall loc).isSome := by
  obtain ⟨rest, hrest⟩ := h
  unfold lastInstall at hs ⊢
  rw [← hrest, List.filter_append]
  rw [List.getLast?_isSome] at hs ⊢
  simp [hs]

theorem lastInstall_mem {s : Disk ι} {loc : Loc} {x : Install ι}
    (h : s.lastInstall loc = some x) : x ∈ s.installs ∧ x.loc = loc := by
  have hx := List.mem_of_getLast? h
  simpa using List.mem_filter.mp hx

end Disk

/-! ### A disk without failures

The deterministic answers of a disk on which everything that can succeed does. -/

namespace Disk

variable {ι : Type}

/-- What a step that cannot succeed raises. -/
def diskError : Exn := .os "[Errno 2] No such file or directory"

/-- How the steps of run `i` are answered, with `net` for the network. -/
def handle (N : Names) (net : String → Except Exn Bytes) (i : ι) (s : Disk ι) :
    (o : ProvisionOp) → ProvisionAns o × Disk ι
  | .pathExists p => ((lookup N s.fs p).isSome, s)
  | .httpGet url => (net url, s.logDownload i url (net url).toOption)
  | .mkdir p =>
    if Passable s.fs (N.way p) then (.ok (), s.mkdirs (N.way p)) else (.error diskError, s)
  | .mkstemp dir front =>
    let tmp := dir.child (front ++ String.ofList (List.replicate s.temps.length 'x'))
    if lookup N s.fs dir = some .dir ∧ s.fs (N.place tmp) = none ∧
        N.place tmp ∉ s.temps.map Prod.snd then
      (.ok tmp, s.createTemp i (N.place tmp) 0o600)
    else (.error diskError, s)
  | .write tmp byte =>
    match lookup N s.fs tmp with
    | some (.file bytes mode) =>
      (.ok (), s.put (N.place tmp) (some (.file (bytes ++ [byte]) mode)))
    | _ => (.error diskError, s)
  | .stat p =>
    match lookup N s.fs p with
    | some (.file _ mode) => (.ok mode, s)
    | _ => (.error diskError, s)
  | .chmod p mode =>
    match lookup N s.fs p with
    | some (.file bytes _) => (.ok (), s.put (N.place p) (some (.file bytes mode)))
    | _ => (.error diskError, s)
  | .replace source target =>
    match lookup N s.fs source with
    | some (.file bytes mode) =>
      if lookup N s.fs target.parent = some .dir ∧ s.fs (N.place target) ≠ some .dir then
        (.ok (), s.moveFile i (N.place source) (N.place target) bytes mode)
      else (.error diskError, s)
    | _ => (.error diskError, s)
  | .unlink p =>
    match lookup N s.fs p with
    | none => (.ok (), s)
    | some (.file _ _) => (.ok (), s.put (N.place p) none)
    | some .dir => (.error diskError, s)

/-- These are answers the world may give. -/
theorem handle_answer (N : Names) (net : String → Except Exn Bytes) (i : ι) (s : Disk ι)
    (o : ProvisionOp) : answer N i s o (handle N net i s o).1 (handle N net i s o).2 := by
  cases o with
  | pathExists p => exact ⟨rfl, by simp [handle, Option.isSome_iff_ne_none]⟩
  | httpGet url => exact rfl
  | mkdir p =>
    simp only [handle]
    split
    · next h => exact ⟨_, List.Subset.refl _, Names.place_mem_way, h, rfl⟩
    · -- a `mkdir` that fails has made nothing on this disk
      exact ⟨[], List.nil_subset _, fun _ hloc => absurd hloc List.not_mem_nil,
        (mkdirs_nil s).symm⟩
  | mkstemp dir front =>
    simp only [handle]
    split
    · next h => exact ⟨_, ⟨_, rfl, by simp⟩, rfl, h.1, h.2.1, h.2.2, rfl⟩
    · exact rfl
  | write tmp byte =>
    simp only [handle]
    split
    · next h => exact ⟨_, _, h, rfl⟩
    · exact rfl
  | stat p =>
    simp only [handle]
    split
    · next h => exact ⟨rfl, _, h⟩
    · exact rfl
  | chmod p mode =>
    simp only [handle]
    split
    · next h => exact ⟨_, _, h, rfl⟩
    · exact rfl
  | replace source target =>
    simp only [handle]
    split
    · next h =>
      split
      · next h' => exact ⟨_, _, h, h'.1, h'.2, rfl⟩
      · exact rfl
    · exact rfl
  | unlink p =>
    simp only [handle]
    split
    · next h => exact Or.inl ⟨h, rfl⟩
    · next h => exact Or.inr ⟨_, _, h, rfl⟩
    · next h => exact ⟨by simp [h], rfl⟩

/-- A run on such a disk is a run in the world. -/
theorem handle_lawful (names : ι → Names) (net : String → Except Exn Bytes) (bin : Loc) (i : ι)
    {α : Type} (p : ProvisionM α) (s : Disk ι) :
    Lawful (world names bin) i (handle (names i) net i) p s :=
  Lawful.of_answer (fun s o => handle_answer (names i) net i s o) p s

end Disk

/-! ### Lookups -/

variable {N : Names} {fs : Loc → Option Node} {p : PurePath}

theorem place_of_lookup {node : Node} (h : lookup N fs p = some node) :
    fs (N.place p) = some node := by
  unfold lookup at h
  split at h
  · exact h
  · cases h

theorem fs_ne_none_of_lookup (h : lookup N fs p ≠ none) : fs (N.place p) ≠ none := by
  unfold lookup at h
  split at h
  · exact h
  · exact absurd rfl h

theorem Tree.ancestor (ht : Tree fs) {loc loc' : Loc} (h : fs loc ≠ none) (hp : loc' <+: loc)
    (hne : loc' ≠ loc) : fs loc' = some .dir := by
  induction loc using List.reverseRecOn with
  | nil => exact absurd (List.prefix_nil.mp hp) hne
  | append_singleton loc name ih =>
    have hloc : fs loc = some .dir := ht.parent loc name h
    -- `loc'` is the parent, or an ancestor of the parent
    rcases List.prefix_concat_iff.mp hp with rfl | hp
    · exact absurd rfl hne
    · by_cases he : loc' = loc
      · rw [he]
        exact hloc
      · exact ih (by rw [hloc]; simp) hp he

/-- A path whose way only leads down to its place finds what is there. -/
theorem lookup_of_straight (ht : Tree fs)
    (hway : ∀ loc ∈ N.through p, loc <+: N.place p ∧ loc ≠ N.place p) :
    lookup N fs p = fs (N.place p) := by
  by_cases hn : fs (N.place p) = none
  · rw [hn]
    by_contra hne
    exact fs_ne_none_of_lookup hne hn
  · exact if_pos fun loc hloc => ht.ancestor hn (hway loc hloc).1 (hway loc hloc).2

end Conduit
