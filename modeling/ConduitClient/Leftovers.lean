import ConduitClient.Recovery

/-!
# What a run leaves behind

The temporary file of an installation is removed in a `finally` clause. Where that last step
does not fail, no run that has ended has left a file of its own, however it ended and whatever
the other runs did meanwhile (`leaves_no_temp`): a temporary file on the disk belongs to a run
that is still going, or was killed.

The triples of `ConduitClient/Installation.lean` say what a run does to its temporary file. What
they leave open is that it has no other one. A run counts on nobody else creating files in its
name (`removal`), and the triples are carried over to that contract.
-/

namespace Conduit

open Effect Py

namespace Fleet

variable {ι : Type} {F : Fleet ι}

/-- The removal of a file that can be found does not fail. -/
def Removes : (o : ProvisionOp) → ProvisionAns o → Prop
  | .unlink _, a => a.isOk
  | _, _ => True

/-- The world of provisioning, where files can be removed. -/
def removingWorld (F : Fleet ι) : World Provisioning ι (Disk ι) :=
  F.world.under (fun _ o a _ => Removes o a) fun _ _ => True

/-- Every temporary file of the run is in `φ`. -/
def OwnTemps (i : ι) (φ : Loc → Prop) (s : Disk ι) : Prop := ∀ loc, (i, loc) ∈ s.temps → φ loc

/-- No temporary file of the run is left. -/
def Clean (i : ι) (s : Disk ι) : Prop := ∀ loc, (i, loc) ∈ s.temps → s.fs loc = none

theorem Move.temps {i j : ι} (hij : i ≠ j) {s s' : Disk ι} (hm : F.Move i s s') :
    OthersAdd Prod.fst j s.temps s'.temps := by
  cases hm with
  | create hname hdir hfree hnew mode => exact .append hij
  | _ => exact .refl

/-- The contract of the fleet, where a run also counts on its name. -/
def removal (hF : F.Confined) : Contract F.removingWorld where
  inv := F.Inv
  rely i s s' := F.Rely i s s' ∧ OthersAdd Prod.fst i s.temps s'.temps
  guar := F.Move
  rely_refl i s := ⟨.refl i s, .refl⟩
  rely_trans h h' := ⟨h.1.trans h'.1, h.2.trans h'.2⟩
  compat hij h _ hm := ⟨hm.rely hij h, hm.temps hij⟩
  drift_inv h hd := inv_of_drift hF hd.1 h
  drift_rely h hd := ⟨rely_of_drift hF _ hd.1 h, hd.1.temps ▸ .refl⟩

/-- What is proved against the contract of the fleet. -/
theorem triple_removal {hF : F.Confined} {i : ι} {α : Type} {P : Disk ι → Prop}
    {p : ProvisionM α} {Q : Except Exn α → Disk ι → Prop}
    (h : (contract hF).Triple i P p Q) : (removal hF).Triple i P p Q :=
  h.transfer (fun _ => Iff.rfl) (fun _ _ hr => hr.1) (fun _ _ hm => hm) fun _ _ _ _ ha => ha.1

/-- What is stable there is stable here, as less is done by the others. -/
theorem stable_removal {hF : F.Confined} {i : ι} {P : Disk ι → Prop}
    (h : (contract hF).Stable i P) : (removal hF).Stable i P :=
  fun _ _ hI hI' hr => h hI hI' hr.1

/-- Nobody else creates temporary files in the name of a run. -/
theorem stable_ownTemps (hF : F.Confined) (i : ι) (φ : Loc → Prop) :
    (removal hF).Stable i (OwnTemps i φ) :=
  fun _ _ _ _ hr h loc hl => h loc (hr.2.old hl rfl)

/-- Nothing comes back where a temporary file was. -/
theorem stable_clean (hs : F.Simple) (i : ι) : (removal hs.confined).Stable i (Clean i) := by
  intro s s' hI hI' hr h loc hl
  have hold := hr.2.old hl rfl
  -- the others leave the file alone, or it lies on the way that they make
  rcases hr.1.kept loc hold with he | ⟨-, -, j, hv⟩
  · rw [he]
    exact h loc hold
  · obtain ⟨name, -, hname⟩ := hI.temps _ hold
    obtain rfl : loc = F.dirLoc i ++ [F.fold name] := hname
    exact absurd hv (notMem_way hs i j _)

/-- An operation that creates no temporary file. -/
def CreatesNone (o : ProvisionOp) : Prop := ∀ dir front, o ≠ .mkstemp dir front

/-- An operation that downloads nothing. -/
def AsksNothing (o : ProvisionOp) : Prop := ∀ url, o ≠ .httpGet url

/-- A step asks for nothing but its operation. -/
theorem only_step {α : Type} {φ : ProvisionOp → Prop} {p : ProvisionM (Except Exn α)}
    (hp : p.Only φ) : (Provision.step p).Only φ :=
  Prog.Only.bind (f := Prog.ofExcept) hp fun _ => trivial

/-- While it fills its temporary file a run does neither. -/
theorem only_fill (tmp target : PurePath) (binary : Bytes) :
    (Provision.fill tmp target binary).Only fun o => CreatesNone o ∧ AsksNothing o := by
  -- the bytes, one by one, and then `stat`, `chmod` and `replace`
  refine Prog.Only.bind (Prog.Only.forEach fun _ _ => only_step (.perform ⟨nofun, nofun⟩))
    fun _ => ?_
  refine Prog.Only.bind (only_step (.perform ⟨nofun, nofun⟩)) fun _ => ?_
  exact Prog.Only.bind (only_step (.perform ⟨nofun, nofun⟩)) fun _ =>
    only_step (.perform ⟨nofun, nofun⟩)

/-- A program that creates no temporary file. -/
theorem triple_ownTemps {hF : F.Confined} {i : ι} {α : Type} {P : Disk ι → Prop}
    {p : ProvisionM α} {Q : Except Exn α → Disk ι → Prop} (h : (contract hF).Triple i P p Q)
    (hp : p.Only CreatesNone) (φ : Loc → Prop) :
    (removal hF).Triple i (fun s => P s ∧ OwnTemps i φ s) p fun r s => Q r s ∧ OwnTemps i φ s := by
  refine (triple_removal h).frame hp (stable_ownTemps hF i φ) fun s o a s' ho _ ha hs loc hl => ?_
  rw [(Disk.answer_frame ha.1).1 ho] at hl
  exact hs loc hl

/-! ### The steps -/

section Steps

variable (hs : F.Simple) (i : ι)

/-- The only temporary file of a run is the one it has created. -/
def Opened (F : Fleet ι) (i : ι) : Except Exn PurePath → Disk ι → Prop
  | .ok tmp => OwnTemps i (· = (F.names i).place tmp)
  | .error _ => OwnTemps i fun _ => False

/-- `mkstemp` gives a run its one temporary file, or none. -/
theorem mkstemp_opens (binary : Bytes) :
    (removal hs.confined).Triple i
      (fun s => F.Ready i binary s ∧ OwnTemps i (fun _ => False) s)
      (Provision.step (Provision.ask (.mkstemp (F.dir i) tempFront)))
      fun r s => Contract.Post (fun tmp s => F.Ready i binary s ∧ F.Holding i tmp [] false s)
        (fun _ => Untouched i) r s ∧ F.Opened i r s := by
  have hstable (r : Except Exn PurePath) : (removal hs.confined).Stable i (F.Opened i r) := by
    cases r with
    | ok tmp => exact stable_ownTemps hs.confined i _
    | error e => exact stable_ownTemps hs.confined i _
  refine (triple_removal (mkstemp_keeps hs.confined i binary)).op_and
    (stable_ownTemps hs.confined i fun _ => False) hstable fun s a s' _ ha hnone => ?_
  cases a with
  | error e =>
    obtain rfl : s' = s := ha.1
    exact hnone
  | ok tmp =>
    -- the new file is the only one that the run has created
    obtain ⟨name, -, -, -, -, -, rfl⟩ := ha.1
    intro loc hl
    rcases List.mem_append.mp hl with hold | hnew
    · exact absurd hold (hnone loc)
    · exact (Prod.mk.inj (List.mem_singleton.mp hnew)).2

/-- Where a run has one temporary file, the final `unlink` leaves nothing. -/
theorem unlink_cleans (tmp : PurePath) :
    (removal hs.confined).Triple i
      (fun s => F.Owns i tmp s ∧ OwnTemps i (· = (F.names i).place tmp) s)
      (Provision.step (Provision.ask (.unlink tmp)))
      (Contract.Post (fun _ => Clean i) fun _ => Clean i) := by
  have hQ := Contract.Stable.post (fun _ : Unit => stable_clean hs i)
    fun _ : Exn => stable_clean hs i
  have hP := (stable_removal (stable_owns hs.confined i tmp)).and
    (stable_ownTemps hs.confined i (· = (F.names i).place tmp))
  refine Contract.Triple.orRaise hQ (Contract.Triple.perform hP hQ ?_)
  rintro s a s' hI ⟨ho, hone⟩ ⟨ha, hok⟩
  cases a with
  -- in this world a file can be removed
  | error e => cases hok
  | ok _ =>
    rcases ha with ⟨hl, rfl⟩ | ⟨bytes, mode, hl, rfl⟩
    · -- a path in the directory of the run finds what is there
      obtain ⟨name, hname, rfl⟩ := ho.1
      rw [lookup_child hs hI.tree i (tempName_plain hname _), ← hs.confined.place_temp i hname]
        at hl
      exact ⟨hI, .nothing, fun loc hloc => (hone loc hloc) ▸ hl⟩
    · -- the file itself is what is removed
      have hf := place_of_lookup hl
      have hm : F.Move i s (s.put ((F.names i).place tmp) none) :=
        .touch ho.2 (by simp [hf]) (by simp [hf]) (by simp)
      refine ⟨hm.inv hs.confined hI, hm, fun loc hloc => ?_⟩
      rw [hone loc hloc, Disk.put_fs, Function.update_self]

/-- An installation leaves no temporary file, whichever way it ends. -/
theorem install_cleans (binary : Bytes) :
    (removal hs.confined).Triple i
      (fun s => F.Ready i binary s ∧ OwnTemps i (fun _ => False) s)
      (Provision.install (F.target i) binary) fun _ => Clean i := by
  have hnone {E : Disk ι → Prop} (hE : (contract hs.confined).Stable i E) (e : Exn) :
      (removal hs.confined).Triple i (fun s => E s ∧ OwnTemps i (fun _ => False) s)
        (.done (.error e) : ProvisionM Unit) fun _ => Clean i :=
    .done ((stable_removal hE).and (stable_ownTemps hs.confined i _))
      fun _ _ h loc hl => absurd hl (h.2 loc)
  have hmkdir : (Provision.step (Provision.ask (.mkdir (F.dir i)))).Only CreatesNone :=
    only_step (.perform nofun)
  have hfill (tmp : PurePath) : (Provision.fill tmp (F.target i) binary).Only CreatesNone :=
    (only_fill tmp (F.target i) binary).mono fun _ ho => ho.1
  unfold Provision.install
  rw [target_parent]
  -- up to `mkstemp` there is none, so an exception leaves none
  refine (triple_ownTemps (mkdir_keeps hs.confined i binary) hmkdir fun _ => False).bind
    (fun _ => ?_) (hnone (stable_untouched hs.confined i))
  refine (mkstemp_opens hs i binary).bind (fun tmp => ?_) (hnone (stable_untouched hs.confined i))
  refine (triple_ownTemps (fill_keeps hs.confined i tmp binary) (hfill tmp)
    (· = (F.names i).place tmp)).tryFinally (fun r => ?_) fun _ => stable_clean hs i
  -- moved or not, the file is the run's only one
  refine (unlink_cleans hs i tmp).pre fun s hr => ⟨?_, hr.2⟩
  cases r with
  | ok _ => exact hr.1.2.1
  | error e => exact hr.1.2

/-- What a run has when it gets to the installation. -/
theorem acquire_keeps {name : String}
    (hname : archiveName F.tools.toRuntime (F.host i) (F.resolved i) = .ok name) :
    (contract hs.confined).Triple i (Untouched i)
      (acquire F.tools (F.host i) (F.resolved i) name)
      (Contract.Post (fun binary => F.Ready i binary) fun _ => Untouched i) := by
  refine (download_keeps hs.confined i name).bind (fun fetched => ?_) fun e => ?_
  · -- what has been verified was downloaded by this run
    have hP := (stable_untouched hs.confined i).and
      (stable_fetchedBoth hs.confined i name fetched.1 fetched.2)
    cases hver : Provision.verified F.tools (F.host i) name fetched.1 fetched.2 with
    | error e => exact .done hP fun _ _ h => h.1
    | ok binary => exact .done hP fun _ _ h => ⟨verified_of_fetched i hname h.2 hver, h.1⟩
  · exact .done (stable_untouched hs.confined i) fun _ _ h => h

/-- The call, on a platform without a release asset. -/
theorem ensureBinary_unsupported {tools : Toolbox} {host : Machine} {version : Option String}
    {e : Exn} (he : archiveName tools.toRuntime host (resolveVersion host version) = .error e) :
    ensureBinary tools host version =
      Provision.ask (.pathExists (cachedBinaryPath host (resolveVersion host version))) >>=
        fun there => if there then pure (cachedBinaryPath host (resolveVersion host version))
          else Prog.raise e := by
  unfold ensureBinary
  simp only [he]
  rfl

/-- **A single run.** It leaves no temporary file. -/
theorem program_cleans :
    (removal hs.confined).Triple i (fun s => Untouched i s ∧ OwnTemps i (fun _ => False) s)
      (F.program i) fun _ => Clean i := by
  -- a run that has created no temporary file has left none
  have hclean (s : Disk ι) (h : OwnTemps i (fun _ => False) s) : Clean i s :=
    fun loc hl => absurd hl (h loc)
  have hstable := (stable_removal (stable_untouched hs.confined i)).and
    (stable_ownTemps hs.confined i fun _ => False)
  have hcheck : (contract hs.confined).Triple i (Untouched i)
      (Provision.ask (.pathExists (F.target i))) (Contract.Returns fun _ => Untouched i) :=
    triple_ask hs.confined i (stable_untouched hs.confined i)
      (fun _ => stable_untouched hs.confined i) fun s a s' _ hu ha => by
        obtain ⟨rfl, -⟩ := ha
        exact ⟨.nothing, hu⟩
  have hlooks : CreatesNone (.pathExists (F.target i)) := by
    intro dir front h
    cases h
  have hcheck' := triple_ownTemps hcheck (.perform hlooks) fun _ => False
  cases hname : archiveName F.tools.toRuntime (F.host i) (F.resolved i) with
  | error e =>
    -- without an asset the installation is not reached
    rw [program, ensureBinary_unsupported hname]
    refine hcheck'.bind (fun there => ?_) fun _ _ _ h => h.1.elim
    cases there with
    | true => exact .done hstable fun s _ h => hclean s h.2
    | false => exact .done hstable fun s _ h => hclean s h.2
  | ok name =>
    rw [program, ensureBinary_eq hname]
    refine hcheck'.bind (fun there => ?_) fun _ _ _ h => h.1.elim
    cases there with
    | true => exact .done hstable fun s _ h => hclean s h.2
    | false =>
      -- nor is a temporary file created before the binary is at hand
      refine (triple_ownTemps (acquire_keeps hs i hname) ?_ fun _ => False).bind
        (fun binary => ?_) fun e => ?_
      · refine (only_acquire _ _ _ _).mono fun o ho dir front h => ?_
        obtain ⟨url, rfl⟩ := ho
        cases h
      · refine (install_cleans hs i binary).bind (fun _ => ?_) fun e => ?_
        · exact .done (stable_clean hs i) fun _ _ h => h
        · exact .done (stable_clean hs i) fun _ _ h => h
      · exact .done hstable fun s _ h => hclean s h.2

end Steps

/-- **Nothing is left behind.** Any number of runs, each for a version that is a single path
component, are started (`Began`) on a cache without other files (`Tidy`), interleaved in any way
and killed at any step, where files can be removed. A run that has
ended, with a path or an exception, has left none of its temporary files. Every temporary file
on the disk belongs to a run that has been killed or is still going. -/
theorem leaves_no_temp [DecidableEq ι] (hs : F.Simple) {c₀ c : Runs ι} (h₀ : F.Began c₀)
    (ht : F.Tidy c₀.state) (hr : Reach F.removingWorld c₀ c) :
    (∀ i r, c.Ended i r → ∀ loc, (i, loc) ∈ c.state.temps → c.state.fs loc = none) ∧
    ∀ j name, TempName tempFront name → c.state.fs (F.dirLoc j ++ [F.fold name]) ≠ none →
      ∃ i, (i, F.dirLoc j ++ [F.fold name]) ∈ c.state.temps ∧
        (c.thread i = none ∨ ∃ o k, c.thread i = some (.op o k)) := by
  have hstart : (removal hs.confined).Holds (fun i _ => Clean i) c₀ := by
    refine ⟨h₀.inv, fun i p hp => ?_⟩
    rw [h₀.threads i p hp]
    refine program_cleans hs i c₀.state h₀.inv ⟨?_, ?_⟩
    · intro x hx
      rw [h₀.installs] at hx
      exact absurd hx List.not_mem_nil
    · intro loc hl
      rw [h₀.temps] at hl
      exact absurd hl List.not_mem_nil
  have hclean (i : ι) (r : Except Exn PurePath) (he : c.Ended i r) : Clean i c.state :=
    (hstart.reach hr).ended he
  -- where files can be removed, less happens than in the world in which tidiness is kept
  have htidy : F.Tidy c.state :=
    Tidy.reach hs (h₀.holds hs.confined) ht (Reach.of_under hr)
  refine ⟨hclean, fun j name hname hthere => ?_⟩
  obtain ⟨⟨i, loc⟩, hmem, hloc⟩ := List.mem_map.mp (htidy.known j name hname hthere)
  obtain rfl : loc = F.dirLoc j ++ [F.fold name] := hloc
  refine ⟨i, hmem, ?_⟩
  -- the run that has created it cannot have ended
  cases hthread : c.thread i with
  | none => exact Or.inl rfl
  | some p =>
    cases p with
    | op o k => exact Or.inr ⟨o, k, rfl⟩
    | done r => exact absurd (hclean i r hthread _ hmem) hthere

/-- The second run of the pair, on a disk without failures. -/
def pairResult : Except Exn PurePath × Disk Bool :=
  (pair.program true).eval (Disk.handle .posix releaseNet true) (emptyDisk Bool)

/-- Its temporary file. -/
def pairTemp : Loc :=
  ["home", "u", ".cache", "conduit-client-python", "bin", "0.18.0", ".conduit-download-"]

theorem pairResult_eq :
    pairResult.1 = .ok releasePath ∧ (true, pairTemp) ∈ pairResult.2.temps ∧
      pairResult.2.downloads.map Download.run = [true, true] := by
  decide +kernel

/-- It tries to remove no directory. -/
def removable (x : Disk Bool × ProvisionOp) : Bool :=
  match x.2 with
  | .unlink p => lookup .posix x.1.fs p ≠ some .dir
  | _ => true

theorem pair_removable :
    ((pair.program true).steps (Disk.handle .posix releaseNet true) (emptyDisk Bool)).all
      removable := by
  decide +kernel

theorem handle_removes {s : Disk Bool} {o : ProvisionOp} (h : removable (s, o) = true) :
    Removes o (Disk.handle .posix releaseNet true s o).1 := by
  cases o with
  | unlink p =>
    have hdir : lookup .posix s.fs p ≠ some .dir := of_decide_eq_true h
    show (Disk.handle .posix releaseNet true s (.unlink p)).1.isOk = true
    simp only [Disk.handle]
    split
    · rfl
    · rfl
    · next hl => exact absurd hl hdir
  | _ => trivial

theorem leaves_no_temp_pair :
    ∃ c : Runs Bool, c.Ended true (.ok releasePath) ∧ (true, pairTemp) ∈ c.state.temps ∧
      c.state.fs pairTemp = none := by
  have hlawful : Lawful pair.removingWorld true (Disk.handle .posix releaseNet true)
      (pair.program true) (emptyDisk Bool) := by
    refine .of_steps fun x hx => ⟨Disk.handle_answer .posix releaseNet true x.1 x.2, ?_⟩
    exact handle_removes (List.all_eq_true.mp pair_removable x hx)
  obtain ⟨c, hreach, hend, hstate, -⟩ := hlawful.exists_reach (t := pairStart.thread) rfl
  have hended : c.Ended true (.ok releasePath) := by
    rw [← pairResult_eq.1]
    exact hend
  have htemp : (true, pairTemp) ∈ c.state.temps := by
    rw [hstate]
    exact pairResult_eq.2.1
  have hclean := (leaves_no_temp pair_simple pair_began pair_tidy hreach).1 true _ hended
  exact ⟨c, hended, htemp, hclean pairTemp htemp⟩

end Fleet

end Conduit
