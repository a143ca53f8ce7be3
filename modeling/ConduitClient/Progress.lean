import ConduitClient.Session
import ConduitClient.Stages

/-!
# A submission moves on

`Client.run` is verified against the contract of `ConduitClient/Stages.lean`, for a run among
any number of others. Its plan consists of message objects of its own (`triple_buildRequests`),
every call moves it to the next stage (`triple_create`, `triple_runJob`), and a run that
returns has had all of its requests accepted for one pipeline (`triple_run`).
-/

namespace Conduit

open Effect

variable {ι : Type} [DecidableEq ι]

/-! ### What a run knows -/

/-- Message objects of run `i`, no two of them the same, with what they hold. -/
structure Built (i : ι) (xs : List (Ref × Message)) (s : Plane ι) : Prop where
  nodup : (xs.map Prod.fst).Nodup
  holds : ∀ x ∈ xs, s.heap[x.1]? = some (i, x.2)

/-- Run `i` has sent `rpcs`, and the pipeline `pid` is one of its pipelines. -/
structure Sent (i : ι) (pid : String) (rpcs : List Rpc) (s : Plane ι) : Prop where
  issued : s.issued i = rpcs
  named : pid ∈ (s.entries (some i)).map Entry.id

/-- Run `i` has created the pipeline `pid`, has sent `xs` for it, and all of it was accepted. -/
structure Acked (i : ι) (pl : Payloads) (pid : String) (xs : List Rpc) (s : Plane ι) : Prop where
  issued : s.issued i = pl.createRpc :: xs
  wire : s.wire i = none
  entries : s.entries (some i) = [⟨pid, some i, resourcesOf i xs⟩]

theorem Acked.sent {i : ι} {pl : Payloads} {pid : String} {xs : List Rpc} {s : Plane ι}
    (h : Acked i pl pid xs s) : pid ∈ (s.entries (some i)).map Entry.id := by
  rw [h.entries]
  exact List.mem_singleton_self _

omit [DecidableEq ι] in
theorem Built.tail {i : ι} {x : Ref × Message} {xs : List (Ref × Message)} {s : Plane ι}
    (h : Built i (x :: xs) s) : Built i xs s :=
  ⟨(List.nodup_cons.mp h.nodup).2, fun y hy => h.holds y (List.mem_cons_of_mem _ hy)⟩

omit [DecidableEq ι] in
/-- A reference that is in use is not the next one. -/
theorem Built.fresh {i : ι} {xs : List (Ref × Message)} {s : Plane ι} (h : Built i xs s) :
    s.heap.length ∉ xs.map Prod.fst := by
  intro hmem
  obtain ⟨x, hx, hlen⟩ := List.mem_map.mp hmem
  have hholds := h.holds x hx
  rw [hlen] at hholds
  simp at hholds

omit [DecidableEq ι] in
/-- A new message object is one more. -/
theorem Built.alloc {i : ι} {xs : List (Ref × Message)} {s : Plane ι} (h : Built i xs s)
    (m : Message) : Built i (xs ++ [(s.heap.length, m)]) (s.alloc i m) := by
  refine ⟨?_, fun x hx => ?_⟩
  · rw [List.map_append, List.nodup_append]
    refine ⟨h.nodup, by simp, fun a ha b hb => ?_⟩
    obtain rfl : b = s.heap.length := by simpa using hb
    exact fun hab => h.fresh (hab ▸ ha)
  · -- the old objects keep their places, and the new one is the last
    rcases List.mem_append.mp hx with hx | hx
    · have hholds := h.holds x hx
      exact (List.getElem?_append_left (List.getElem?_eq_some_iff.mp hholds).1).trans hholds
    · obtain rfl := List.mem_singleton.mp hx
      exact List.getElem?_concat_length

omit [DecidableEq ι] in
/-- An assignment changes the object it is made on. -/
theorem Built.assign {i : ι} {x : Ref × Message} {xs : List (Ref × Message)} {s : Plane ι}
    (h : Built i (x :: xs) s) (a : Assignment) :
    Built i ((x.1, x.2.assign a) :: xs) (s.assign x.1 a) := by
  refine ⟨h.nodup, fun y hy => ?_⟩
  rcases List.mem_cons.mp hy with rfl | hy
  · change (s.heap.modify x.1 _)[x.1]? = _
    rw [List.getElem?_modify_eq, h.holds x List.mem_cons_self]
    rfl
  · -- no other object of the run has this reference
    have hne : x.1 ≠ y.1 := fun he =>
      (List.nodup_cons.mp h.nodup).1 (he ▸ List.mem_map_of_mem hy)
    exact (List.getElem?_modify_ne _ _ hne).trans (h.holds y (List.mem_cons_of_mem _ hy))

/-- What a settled run knows when its call is over. -/
theorem Settled.acked {i : ι} {s : Plane ι} {pl : Payloads} {start : Bool} {xs : List Rpc}
    {e : Entry ι} (h : Settled pl start s i xs e) : Acked i pl e.id xs (s.hangUp i) := by
  refine ⟨h.issued, h.wire, ?_⟩
  have hc := (Submissions.mem_of_entries h.entries).2
  change s.entries (some i) = _
  rw [h.entries, ← h.resources, ← hc]

namespace Submissions

variable {F : Submissions ι} {i : ι}

theorem stable_built (xs : List (Ref × Message)) : F.contract.Stable i (Built i xs) :=
  fun _ _ _ _ hr h => ⟨h.nodup, fun x hx => hr.heap x.1 x.2 (h.holds x hx)⟩

theorem stable_idle : F.contract.Stable i (Idle · i) := fun _ _ _ _ hr h =>
  ⟨hr.issued.trans h.issued, hr.wire h.wire, (hr.entries h.wire).trans h.entries⟩

theorem stable_issued (rpcs : List Rpc) : F.contract.Stable i (·.issued i = rpcs) :=
  fun _ _ _ _ hr h => hr.issued.trans h

theorem stable_sent (pid : String) (rpcs : List Rpc) : F.contract.Stable i (Sent i pid rpcs) :=
  fun _ _ _ _ hr h => ⟨hr.issued.trans h.issued, hr.ids pid h.named⟩

theorem stable_acked (pl : Payloads) (pid : String) (xs : List Rpc) :
    F.contract.Stable i (Acked i pl pid xs) := fun _ _ _ _ hr h =>
  ⟨hr.issued.trans h.issued, hr.wire h.wire, (hr.entries h.wire).trans h.entries⟩

/-! ### One operation -/

omit [DecidableEq ι] in
theorem guar_alloc (s : Plane ι) (m : Message) : Guar i s (s.alloc i m) where
  heap _ _ _ _ hm := (List.getElem?_append_left (List.getElem?_eq_some_iff.mp hm).1).trans hm
  issued _ _ := rfl
  wire _ _ := rfl
  reply _ _ := rfl
  pipelines := rfl

omit [DecidableEq ι] in
theorem guar_assign {s : Plane ι} {r : Ref} {m : Message} (hr : s.heap[r]? = some (i, m))
    (a : Assignment) : Guar i s (s.assign r a) where
  heap j hj r' m' hm := by
    have hne : r ≠ r' := by
      rintro rfl
      rw [hr] at hm
      exact hj (Prod.mk.inj (Option.some.inj hm)).1.symm
    exact (List.getElem?_modify_ne _ _ hne).trans hm
  issued _ _ := rfl
  wire _ _ := rfl
  reply _ _ := rfl
  pipelines := rfl

theorem guar_send (s : Plane ι) (rpc : Rpc) : Guar i s (s.send i rpc) where
  heap _ _ _ _ hm := hm
  issued _ hj := Function.update_of_ne hj _ _
  wire _ hj := Function.update_of_ne hj _ _
  reply _ hj := Function.update_of_ne hj _ _
  pipelines := rfl

theorem guar_hangUp (s : Plane ι) : Guar i s (s.hangUp i) where
  heap _ _ _ _ hm := hm
  issued _ _ := rfl
  wire _ _ := rfl
  reply _ hj := Function.update_of_ne hj _ _
  pipelines := rfl

omit [DecidableEq ι] in
theorem guar_refl (s : Plane ι) : Guar i s s where
  heap _ _ _ _ hm := hm
  issued _ _ := rfl
  wire _ _ := rfl
  reply _ _ := rfl
  pipelines := rfl

/-- A run that hangs up stays where it is. -/
theorem Inv.hangUp {s : Plane ι} (h : F.Inv s) : F.Inv (s.hangUp i) := by
  refine (guar_hangUp s).inv h ((h.runs i).congr rfl rfl (fun pid hp => ?_) rfl)
  rw [s.hangUp_reply] at hp
  cases hp

/-- Constructing a message object adds it to those of the run. -/
theorem triple_new {P : Plane ι → Prop} (hP : F.contract.Stable i P)
    (halloc : ∀ s m, P s → P (s.alloc i m)) (xs : List (Ref × Message)) (m : Message) :
    F.contract.Triple i (fun s => P s ∧ Built i xs s) (perform (.new m))
      (Contract.Returns fun (r : Ref) s => P s ∧ Built i (xs ++ [(r, m)]) s) := by
  refine Contract.Triple.perform (hP.and (stable_built xs)) (fun r => hP.and (stable_built _)) ?_
  rintro s r s' hI ⟨hp, hb⟩ ⟨rfl, rfl⟩
  have hg : Guar i s (s.alloc i m) := guar_alloc s m
  exact ⟨hg.inv hI ((hI.runs i).congr rfl rfl (fun _ hp => hp) rfl), hg, halloc s m hp,
    hb.alloc m⟩

/-- Completing a request in place changes that object of the run. -/
theorem triple_assignments {P : Plane ι → Prop} (hP : F.contract.Stable i P)
    (hassign : ∀ s r a, P s → P (s.assign r a)) (r : Ref) (xs : List (Ref × Message))
    (as : List Assignment) (m : Message) :
    F.contract.Triple i (fun s => P s ∧ Built i ((r, m) :: xs) s)
      (Prog.forEach (fun a => perform (.assign r a)) as)
      (Contract.Yields fun _ s => P s ∧ Built i ((r, as.foldl Message.assign m) :: xs) s) := by
  -- induction on the assignments; `m` is what the object holds so far
  induction as generalizing m with
  | nil => exact Contract.Triple.done (hP.and (stable_built _)) fun _ _ hs => hs
  | cons a as ih =>
    refine Contract.Triple.perform_bind (hP.and (stable_built _)) ?_ fun _ => ih (m.assign a)
    rintro s _ s' hI ⟨hp, hb⟩ rfl
    have hg : Guar i s (s.assign r a) := guar_assign (hb.holds _ List.mem_cons_self) a
    exact ⟨hg.inv hI ((hI.runs i).congr rfl rfl (fun _ hp => hp) rfl), hg, hassign s r a hp,
      hb.assign a⟩

/-! ### One call -/

/-- An accepted run is settled: all that it has sent has been accepted. -/
theorem Inv.settled {s : Plane ι} (h : F.Inv s) {pl : Payloads}
    (hpl : (F.builder i).payloads = .ok pl) {xs : List Rpc} {pid : String}
    (hi : s.issued i = pl.createRpc :: xs) (hr : s.reply i = some (.accepted pid)) :
    ∃ e, Settled pl (F.start i) s i xs e := by
  rcases h.runs i with h | ⟨pl', hpl', hstage⟩
  · rw [h.issued] at hi
    cases hi
  obtain rfl : pl' = pl := Except.ok.inj (hpl'.symm.trans hpl)
  -- only a settled run has an accepted request to hang up on
  rcases hstage with h | ⟨xs', e, h⟩ | ⟨xs', x, e, h⟩
  · exact absurd hr (h.reply pid)
  · obtain rfl : xs' = xs := (List.cons.inj (h.issued.symm.trans hi)).2
    exact ⟨e, h⟩
  · exact absurd hr (h.reply pid)

/-- A call, from what is known before the request is sent (`P`), while it is out (`S`), and
when a response has arrived (`M`). Nothing is claimed of a call that fails. -/
theorem triple_call {P S : Plane ι → Prop} {m : Method} {M : Response m → Plane ι → Prop}
    (r : Ref) (msg : Message) (hP : F.contract.Stable i P) (hS : F.contract.Stable i S)
    (hM : ∀ a, F.contract.Stable i (M a)) (hr : ∀ s, P s → s.heap[r]? = some (i, msg))
    (hsend : ∀ s, P s → F.OnTrack (s.send i ⟨m, msg⟩) i ∧ S (s.send i ⟨m, msg⟩))
    (hrecv : ∀ s pid resp, F.Inv s → S s → s.reply i = some (.accepted pid) →
      Plane.Says m resp pid → M resp (s.hangUp i)) (timeout : ℚ) :
    F.contract.Triple i P (Client.call F.lib m r timeout) (Contract.Yields M) := by
  -- the request goes out, which moves the run to the next stage
  have hsent : F.contract.Triple i P (performOrRaise (perform (.send m r timeout)))
      (Contract.Yields fun _ => S) := by
    refine Contract.Triple.orRaise (Contract.Stable.yields fun _ => hS) ?_
    refine Contract.Triple.perform hP (Contract.Stable.yields fun _ => hS) ?_
    intro s a s' hI hp ha
    cases a with
    | ok u =>
      obtain ⟨j, msg', hmsg, rfl⟩ := ha
      obtain rfl : msg' = msg := (Prod.mk.inj (Option.some.inj (hmsg.symm.trans (hr s hp)))).2
      obtain ⟨ht, hs⟩ := hsend s hp
      exact ⟨(guar_send s _).inv hI ht, guar_send s _, hs⟩
    | error e =>
      obtain rfl : s' = s := ha
      exact ⟨hI, guar_refl s', trivial⟩
  -- a response comes in, and was an acceptance if it is not raised
  have hreceived : F.contract.Triple i S (performOrRaise (perform (.recv m)))
      (Contract.Yields M) := by
    refine Contract.Triple.orRaise (Contract.Stable.yields hM) ?_
    refine Contract.Triple.perform hS (Contract.Stable.yields hM) ?_
    intro s a s' hI hs ha
    cases a with
    | ok resp =>
      obtain ⟨pid, hreply, hsays, rfl⟩ := ha
      exact ⟨hI.hangUp, guar_hangUp s, hrecv s pid resp hI hs hreply hsays⟩
    | error e =>
      obtain rfl : s' = s.hangUp i := ha
      exact ⟨hI.hangUp, guar_hangUp s, trivial⟩
  refine Contract.Triple.tryCatch (hsent.bind_yields fun _ => hreceived)
    (fun a => Contract.Triple.done (hM a) fun _ _ h => h) fun e => ?_
  cases e with
  | rpc e =>
    -- the translation may raise, too
    exact Contract.Triple.bind_yields (M := fun _ _ => True)
      (Contract.Triple.ofExcept (Contract.Stable.const True) fun _ _ _ _ => trivial)
      fun err => Contract.Triple.raise (Exn.conduit err)
  | _ => exact Contract.Triple.raise _

/-- The call that creates the pipeline. -/
theorem triple_create {pl : Payloads} (hpl : (F.builder i).payloads = .ok pl) (r : Ref)
    (xs : List (Ref × Message)) (timeout : ℚ) :
    F.contract.Triple i
      (fun s => Idle s i ∧ Built i ((r, .createPipeline pl.createPipeline) :: xs) s)
      (Client.call F.lib .createPipeline r timeout)
      (Contract.Yields fun (pid : String) s => Acked i pl pid [] s ∧ Built i xs s) := by
  refine triple_call (m := .createPipeline)
    (S := fun s => s.issued i = [pl.createRpc] ∧ Built i xs s)
    (M := fun (pid : String) s => Acked i pl pid [] s ∧ Built i xs s)
    r (.createPipeline pl.createPipeline) (stable_idle.and (stable_built _))
    ((stable_issued _).and (stable_built _))
    (fun pid => (stable_acked pl pid []).and (stable_built _))
    (fun s hp => hp.2.holds _ List.mem_cons_self) ?_ ?_ timeout
  · -- an idle run becomes one whose pipeline has been asked for
    rintro s ⟨hidle, hb⟩
    have hi : (s.send i pl.createRpc).issued i = [pl.createRpc] := by
      rw [s.send_issued, hidle.issued, List.nil_append]
    refine ⟨Or.inr ⟨pl, hpl, Or.inl ⟨hi, fun rpc h => ?_, fun pid h => ?_, hidle.entries⟩⟩, hi,
      hb.tail.nodup, hb.tail.holds⟩
    · exact (Option.some.inj ((s.send_wire i _).symm.trans h)).symm
    · exact absurd ((s.send_reply i _).symm.trans h) (by simp)
  · rintro s pid resp hI ⟨hi, hb⟩ hreply hsays
    obtain ⟨e, he⟩ := hI.settled hpl hi hreply
    -- the id in the response is the one of the pipeline that was created
    obtain rfl : pid = e.id := he.reply pid rfl hreply
    obtain rfl : resp = e.id := hsays
    exact ⟨he.acked, hb.nodup, hb.holds⟩

/-- The call of one step after that: the request is completed in place and sent. -/
theorem triple_runJob {pl : Payloads} (hpl : (F.builder i).payloads = .ok pl) {pid : String}
    {done : List Rpc} (job : Job) (m : Message) (xs : List (Ref × Message))
    (hup : done ++ [job.rpc m] <+: pl.followUps pid (F.start i)) (timeout : ℚ) :
    F.contract.Triple i
      (fun s => Acked i pl pid done s ∧ Built i ((job.request, m) :: xs) s)
      (Client.runJob F.lib timeout job)
      (Contract.Yields fun _ s => Acked i pl pid (done ++ [job.rpc m]) s ∧ Built i xs s) := by
  have hcall := triple_call (F := F) (i := i) (m := job.method)
    (P := fun s => Acked i pl pid done s ∧
      Built i ((job.request, job.assignments.foldl Message.assign m) :: xs) s)
    (S := fun s => Sent i pid (pl.createRpc :: (done ++ [job.rpc m])) s ∧ Built i xs s)
    (M := fun _ s => Acked i pl pid (done ++ [job.rpc m]) s ∧ Built i xs s)
    job.request (job.assignments.foldl Message.assign m)
    ((stable_acked _ _ _).and (stable_built _)) ((stable_sent _ _).and (stable_built _))
    (fun _ => (stable_acked _ _ _).and (stable_built _))
    (fun s hp => hp.2.holds _ List.mem_cons_self) ?_ ?_ timeout
  · have hassign := triple_assignments (F := F) (stable_acked (i := i) pl pid done)
      (fun s r a h => ⟨h.issued, h.wire, h.entries⟩) job.request xs job.assignments m
    exact hassign.bind_yields fun _ => hcall.bind_yields fun _ =>
      Contract.Triple.yield ((stable_acked _ _ _).and (stable_built _)) fun _ h => h
  · rintro s ⟨ha, hb⟩
    have hi : (s.send i (job.rpc m)).issued i = pl.createRpc :: (done ++ [job.rpc m]) := by
      rw [s.send_issued, ha.issued, List.cons_append]
    refine ⟨Or.inr ⟨pl, hpl, Or.inr (Or.inr ⟨done, job.rpc m, _, hi, hup, fun rpc h => ?_,
      fun pid h => ?_, ha.entries, rfl⟩)⟩, ⟨hi, ha.sent⟩, hb.tail.nodup, hb.tail.holds⟩
    · exact (Option.some.inj ((s.send_wire i _).symm.trans h)).symm
    · exact absurd ((s.send_reply i _).symm.trans h) (by simp)
  · rintro s pid' resp hI ⟨hs, hb⟩ hreply -
    obtain ⟨e, he⟩ := hI.settled hpl hs.issued hreply
    -- the pipeline of the run is still the one that was created
    have hid := hs.named
    rw [he.entries] at hid
    obtain rfl : pid = e.id := by simpa using hid
    exact ⟨he.acked, hb.nodup, hb.holds⟩

/-- The loop over the requests of the plan. -/
theorem triple_jobs {pl : Payloads} (hpl : (F.builder i).payloads = .ok pl) {pid : String}
    (timeout : ℚ) (work : List (Job × Message)) (done : List Rpc)
    (hup : done ++ work.map (fun w => w.1.rpc w.2) <+: pl.followUps pid (F.start i)) :
    F.contract.Triple i
      (fun s => Acked i pl pid done s ∧ Built i (work.map fun w => (w.1.request, w.2)) s)
      (Prog.forEach (Client.runJob F.lib timeout) (work.map Prod.fst))
      (Contract.Yields fun _ => Acked i pl pid (done ++ work.map fun w => w.1.rpc w.2)) := by
  -- induction on the jobs left; `done` are the requests accepted so far
  induction work generalizing done with
  | nil =>
    refine Contract.Triple.yield ((stable_acked _ _ _).and (stable_built _)) fun s h => ?_
    rw [List.map_nil, List.append_nil]
    exact h.1
  | cons w work ih =>
    have hassoc : done ++ (w :: work).map (fun w => w.1.rpc w.2) =
        done ++ [w.1.rpc w.2] ++ work.map fun w => w.1.rpc w.2 := by simp
    rw [hassoc] at hup ⊢
    have hjob := triple_runJob hpl w.1 w.2 (work.map fun w => (w.1.request, w.2))
      ((List.prefix_append _ _).trans hup) timeout
    exact hjob.bind_yields fun _ => ih _ hup

/-- The start of the pipeline, if it is asked for. -/
theorem triple_startIf {pl : Payloads} (hpl : (F.builder i).payloads = .ok pl) (pid : String)
    (timeout : ℚ) :
    F.contract.Triple i (Acked i pl pid (pl.resourceRpcs pid))
      (Client.startIf F.lib (F.start i) pid timeout)
      (Contract.Yields fun _ => Acked i pl pid (pl.followUps pid (F.start i))) := by
  unfold Client.startIf
  cases hstart : F.start i with
  | false =>
    -- the resources are all there is to submit
    refine Contract.Triple.yield (stable_acked _ _ _) fun s h => ?_
    rw [Payloads.followUps, if_neg Bool.false_ne_true, List.append_nil]
    exact h
  | true =>
    have hup : pl.resourceRpcs pid ++ [startRpc pid] <+: pl.followUps pid (F.start i) := by
      rw [hstart]
      exact List.prefix_rfl
    -- the request is a new message object, and then one more job
    have hnew := triple_new (F := F) (stable_acked (i := i) pl pid (pl.resourceRpcs pid))
      (fun s m h => ⟨h.issued, h.wire, h.entries⟩) [] (.startPipeline pid)
    have hjob (r : Ref) := triple_runJob hpl ⟨.startPipeline, [], r⟩ (.startPipeline pid) [] hup
      timeout
    refine Contract.Triple.bind_returns (hnew.pre fun s h => ⟨h, List.nodup_nil, by simp⟩) ?_
    exact fun r => (hjob r).weaken (fun _ _ h => h.1) fun _ _ _ => trivial

/-! ### The plan -/

/-- The plan consists of these objects, which hold the payloads. -/
structure Laid (pl : Payloads) (plan : BuildPlan) (cs ps ds : List (Ref × Message)) : Prop where
  connectors : plan.createConnectors = cs.map Prod.fst
  connectorPayloads : cs.map Prod.snd = pl.connectors.map .createConnector
  processors : plan.createProcessors = ps.map Prod.fst
  processorPayloads : ps.map Prod.snd = pl.processors.map .createProcessor
  dlq : plan.dlq.toList = ds.map Prod.fst
  dlqPayload : ds.map Prod.snd = pl.dlq.toList.map .updateDLQ

/-- The jobs of a plan, each with what its request holds. -/
def work (pid : String) (cs ps ds : List (Ref × Message)) : List (Job × Message) :=
  cs.map (fun x => (⟨.createConnector, [.pipelineId pid], x.1⟩, x.2)) ++
  ps.map (fun x => (⟨.createProcessor, [.parentType .pipeline, .parentId pid], x.1⟩, x.2)) ++
  ds.map (fun x => (⟨.updateDLQ, [.dlqId pid], x.1⟩, x.2))

theorem work_requests (pid : String) (cs ps ds : List (Ref × Message)) :
    (work pid cs ps ds).map (fun w => (w.1.request, w.2)) = cs ++ ps ++ ds := by
  simp [work, Function.comp_def]

namespace Laid

variable {pl : Payloads} {plan : BuildPlan} {cs ps ds : List (Ref × Message)}

theorem jobs (h : Laid pl plan cs ps ds) (pid : String) :
    plan.jobs pid = (work pid cs ps ds).map Prod.fst := by
  unfold BuildPlan.jobs work
  rw [h.connectors, h.processors, h.dlq]
  simp [Function.comp_def]

/-- The jobs make the RPCs of the payloads. -/
theorem rpcs (h : Laid pl plan cs ps ds) (pid : String) :
    (work pid cs ps ds).map (fun w => w.1.rpc w.2) = pl.resourceRpcs pid := by
  have hc : cs.map (fun x => Job.rpc ⟨.createConnector, [.pipelineId pid], x.1⟩ x.2) =
      pl.connectors.map (connectorRpc pid) := by
    -- the RPC of a job does not depend on where its message is
    change cs.map ((fun m => Job.rpc ⟨.createConnector, [.pipelineId pid], 0⟩ m) ∘ Prod.snd) = _
    rw [← List.map_map, h.connectorPayloads, List.map_map]
    rfl
  have hp : ps.map (fun x => Job.rpc
      ⟨.createProcessor, [.parentType .pipeline, .parentId pid], x.1⟩ x.2) =
      pl.processors.map (processorRpc pid) := by
    change ps.map ((fun m => Job.rpc
      ⟨.createProcessor, [.parentType .pipeline, .parentId pid], 0⟩ m) ∘ Prod.snd) = _
    rw [← List.map_map, h.processorPayloads, List.map_map]
    rfl
  have hd : ds.map (fun x => Job.rpc ⟨.updateDLQ, [.dlqId pid], x.1⟩ x.2) =
      pl.dlq.toList.map (dlqRpc pid) := by
    change ds.map ((fun m => Job.rpc ⟨.updateDLQ, [.dlqId pid], 0⟩ m) ∘ Prod.snd) = _
    rw [← List.map_map, h.dlqPayload, List.map_map]
    rfl
  unfold work Payloads.resourceRpcs
  rw [← hc, ← hp, ← hd]
  simp [Function.comp_def]

end Laid

/-- Constructing one message object. -/
theorem triple_newMessage (xs : List (Ref × Message)) (res : Except Exn Message) :
    F.contract.Triple i (fun s => Idle s i ∧ Built i xs s) (newMessage res)
      (Contract.Yields fun (r : Ref) s =>
        ∃ m, res = .ok m ∧ Idle s i ∧ Built i (xs ++ [(r, m)]) s) := by
  refine Contract.Triple.bind_yields
    (M := fun m s => res = .ok m ∧ Idle s i ∧ Built i xs s)
    (Contract.Triple.ofExcept (stable_idle.and (stable_built xs)) fun m s hm hs => ⟨hm, hs⟩)
    fun m => Contract.Triple.lift fun hm => ?_
  have hnew := triple_new (F := F) (stable_idle (i := i))
    (fun s m h => ⟨h.issued, h.wire, h.entries⟩) xs m
  exact hnew.weaken (fun r s h => ⟨m, hm, h⟩) fun _ _ h => h.elim

theorem mapM_cons_of_ok {α β : Type} {f : α → Except Exn β} {a : α} {as : List α} {b : β}
    {bs : List β} (ha : f a = .ok b) (has : as.mapM f = .ok bs) :
    (a :: as).mapM f = .ok (b :: bs) := by
  rw [List.mapM_cons, ha, has]
  rfl

/-- Constructing one message object per element. -/
theorem triple_newEach {α : Type} (f : α → Except Exn Message) (as : List α)
    (xs : List (Ref × Message)) :
    F.contract.Triple i (fun s => Idle s i ∧ Built i xs s) (newEach f as)
      (Contract.Yields fun (rs : List Ref) s => ∃ ys : List (Ref × Message),
        (rs = ys.map Prod.fst ∧ as.mapM f = .ok (ys.map Prod.snd)) ∧
          Idle s i ∧ Built i (xs ++ ys) s) := by
  unfold newEach
  -- induction on the elements; the messages built so far are a prefix
  induction as generalizing xs with
  | nil =>
    refine Contract.Triple.yield (stable_idle.and (stable_built xs)) fun s h => ?_
    exact ⟨[], ⟨rfl, rfl⟩, by rwa [List.append_nil]⟩
  | cons a as ih =>
    rw [Prog.collect_cons]
    refine (triple_newMessage xs (f a)).bind_yields fun r => ?_
    refine Contract.Triple.exists_elim fun m => Contract.Triple.lift fun ha => ?_
    refine (ih (xs ++ [(r, m)])).bind_yields fun rs => ?_
    refine Contract.Triple.exists_elim fun ys => Contract.Triple.lift fun hys => ?_
    refine Contract.Triple.yield (stable_idle.and (stable_built _)) fun s h => ?_
    refine ⟨(r, m) :: ys, ⟨by rw [hys.1]; rfl, mapM_cons_of_ok ha hys.2⟩, h.1, ?_⟩
    rw [List.append_cons]
    exact h.2

/-- A list of payloads that was constructed, before the constructor of the message. -/
theorem mapM_of_mapM_map {α β γ : Type} {f : α → Except Exn β} {as : List α} {cs : List γ}
    (g : β → γ) (h : as.mapM (fun a => (f a).map g) = .ok cs) :
    ∃ bs, as.mapM f = .ok bs ∧ cs = bs.map g := by
  cases hb : as.mapM f with
  | ok bs => exact ⟨bs, rfl, (Except.ok.inj ((mapM_map_of_ok g hb).symm.trans h)).symm⟩
  | error e => exact absurd ((mapM_map_of_error g hb).symm.trans h) (by simp)

/-- The plan of run `i` is laid out, and nothing has been sent. -/
def Planned (F : Submissions ι) (i : ι) (plan : BuildPlan) (s : Plane ι) : Prop :=
  ∃ pl cs ps ds, ((F.builder i).payloads = .ok pl ∧ Laid pl plan cs ps ds) ∧ Idle s i ∧
    Built i ((plan.createPipeline, .createPipeline pl.createPipeline) :: (cs ++ ps ++ ds)) s

/-- Every plan consists of message objects that no other run has. -/
theorem triple_buildRequests :
    F.contract.Triple i (Idle · i) (F.builder i).buildRequests
      (Contract.Yields (F.Planned i)) := by
  unfold Pipeline.buildRequests
  -- the messages are built in the order of the plan, each behind those before it
  refine Contract.Triple.bind_yields
    ((triple_newMessage [] _).pre fun s h => ⟨h, List.nodup_nil, by simp⟩) fun r => ?_
  refine Contract.Triple.exists_elim fun m => Contract.Triple.lift fun hm => ?_
  obtain rfl := Except.ok.inj hm
  refine (triple_newEach _ (F.builder i).connectors _).bind_yields fun rcs => ?_
  refine Contract.Triple.exists_elim fun cs => Contract.Triple.lift fun ⟨hrcs, hcs⟩ => ?_
  obtain ⟨conns, hconns, hcs⟩ := mapM_of_mapM_map Message.createConnector hcs
  refine (triple_newEach _ (F.builder i).processors _).bind_yields fun rps => ?_
  refine Contract.Triple.exists_elim fun ps => Contract.Triple.lift fun ⟨hrps, hps⟩ => ?_
  obtain ⟨procs, hprocs, hps⟩ := mapM_of_mapM_map Message.createProcessor hps
  cases hdlq : (F.builder i).dlq with
  | none =>
    refine Contract.Triple.yield (stable_idle.and (stable_built _)) fun s h => ?_
    refine ⟨⟨⟨(F.builder i).name, (F.builder i).description⟩, conns, procs, none⟩, cs, ps, [],
      ⟨?_, hrcs, hcs, hrps, hps, rfl, rfl⟩, h.1, by simpa using h.2⟩
    simp [Pipeline.payloads, declaredPayloads, hconns, hprocs, hdlq, bind, Except.bind, pure,
      Except.pure]
  | some d =>
    refine (triple_newMessage _ _).bind_yields fun rd => ?_
    refine Contract.Triple.exists_elim fun m => Contract.Triple.lift fun hm => ?_
    cases hq : d.toRequest with
    | error e =>
      rw [hq] at hm
      cases hm
    | ok q =>
      rw [hq] at hm
      obtain rfl : .updateDLQ q = m := Except.ok.inj hm
      refine Contract.Triple.yield (stable_idle.and (stable_built _)) fun s h => ?_
      refine ⟨⟨⟨(F.builder i).name, (F.builder i).description⟩, conns, procs, some q⟩, cs, ps,
        [(rd, .updateDLQ q)], ⟨?_, hrcs, hcs, hrps, hps, rfl, rfl⟩, h.1, by simpa using h.2⟩
      simp [Pipeline.payloads, declaredPayloads, hconns, hprocs, hdlq, hq, bind, Except.bind,
        pure, Except.pure]

/-! ### The whole submission -/

/-- The `try` block of `run`. -/
theorem triple_submitAll {pl : Payloads} (hpl : (F.builder i).payloads = .ok pl)
    {plan : BuildPlan} {cs ps ds : List (Ref × Message)} (hlaid : Laid pl plan cs ps ds)
    (pid : String) (timeout : ℚ) :
    F.contract.Triple i (fun s => Acked i pl pid [] s ∧ Built i (cs ++ ps ++ ds) s)
      (Client.submitAll F.lib plan pid (F.start i) timeout)
      (Contract.Yields fun _ => Acked i pl pid (pl.followUps pid (F.start i))) := by
  have hup : [] ++ (work pid cs ps ds).map (fun w => w.1.rpc w.2) <+:
      pl.followUps pid (F.start i) := by
    rw [hlaid.rpcs, List.nil_append]
    exact List.prefix_append _ _
  have hjobs := triple_jobs hpl timeout (work pid cs ps ds) [] hup
  rw [work_requests, hlaid.rpcs, List.nil_append, ← hlaid.jobs] at hjobs
  rw [Client.submitAll_eq]
  exact hjobs.bind_yields fun _ => triple_startIf hpl pid timeout

/-- What is known of run `i` when it has ended: if it returned, everything it had to send was
accepted for the pipeline it returned. -/
def Done (F : Submissions ι) (i : ι) : Except Exn Run → Plane ι → Prop :=
  Contract.Yields fun run s => ∃ pl, (F.builder i).payloads = .ok pl ∧
    Acked i pl run.pipelineId (pl.followUps run.pipelineId (F.start i)) s

/-- **`Client.run`**, among any number of others. -/
theorem triple_run : F.contract.Triple i (Idle · i) (F.program i) (F.Done i) := by
  unfold program Client.run
  refine triple_buildRequests.bind_yields fun plan => ?_
  refine Contract.Triple.exists_elim fun pl => Contract.Triple.exists_elim fun cs => ?_
  refine Contract.Triple.exists_elim fun ps => Contract.Triple.exists_elim fun ds => ?_
  refine Contract.Triple.lift fun ⟨hpl, hlaid⟩ => ?_
  refine (triple_create hpl plan.createPipeline _ _).bind_yields fun pid => ?_
  have hstable := stable_acked (F := F) (i := i) pl pid (pl.followUps pid (F.start i))
  refine Contract.Triple.bind_yields
    (M := fun _ => Acked i pl pid (pl.followUps pid (F.start i))) ?_ fun _ =>
      Contract.Triple.yield hstable fun s h => ⟨pl, hpl, h⟩
  refine (triple_submitAll hpl hlaid pid _).tryCatch
    (fun _ => Contract.Triple.yield hstable fun s h => h) fun e => ?_
  -- the handler raises, whatever the exception is
  cases e with
  | _ => exact Contract.Triple.raise _

end Submissions

end Conduit
