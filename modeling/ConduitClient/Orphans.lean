import ConduitClient.Completion
import ConduitClient.Effect.Solo
import ConduitClient.Isolation

/-!
# What a failed submission leaves behind

`run` never rolls back. What is left on the server is for the caller to find, by the id that the
error carries. Here any number of clients submit to one server, requests and responses are
lost, and a request whose response has been given up may still be dealt with later.

`triple_known` adds to the contract of a submission what its caller learns: before the response
to `CreatePipeline` nothing else has been sent (`OnlyCreate`), and from then on the error
carries an id that is on the server (`Named`). Both are framed around the triples of
`ConduitClient/Progress.lean`.
-/

namespace Conduit

open Effect

variable {ι : Type} [DecidableEq ι]

namespace Submissions

/-- Run `i` has sent nothing but the request to create its pipeline. -/
def OnlyCreate (i : ι) (s : Plane ι) : Prop := ∀ rpc ∈ s.issued i, rpc.method = .createPipeline

/-- A pipeline that run `i` has created has this id. -/
def Named (i : ι) (pid : String) (s : Plane ι) : Prop := pid ∈ (s.entries (some i)).map Entry.id

/-- An operation that sends nothing but the request to create a pipeline. -/
def Creates (o : HostOp) : Prop := ∀ m r t, o = .send m r t → m = .createPipeline

variable {F : Submissions ι} {i : ι}

theorem stable_onlyCreate : F.contract.Stable i (OnlyCreate i) := by
  intro s s' _ _ hr h
  rw [OnlyCreate, hr.issued]
  exact h

theorem stable_named (pid : String) : F.contract.Stable i (Named i pid) :=
  fun _ _ _ _ hr h => hr.ids pid h

/-- A client changes no pipeline by itself. -/
theorem pipelines_answer {s s' : Plane ι} {o : HostOp} {a : HostAns o}
    (ha : Plane.answer i s o a s') : s'.pipelines = s.pipelines := by
  cases o with
  | new m =>
    obtain ⟨-, rfl⟩ := ha
    rfl
  | assign r b =>
    obtain rfl : s' = _ := ha
    rfl
  | send m r t =>
    cases a with
    | ok =>
      obtain ⟨j, msg, -, rfl⟩ := ha
      rfl
    | error e =>
      obtain rfl : s' = s := ha
      rfl
  | recv m =>
    cases a with
    | ok resp =>
      obtain ⟨pid, -, -, rfl⟩ := ha
      rfl
    | error e =>
      obtain rfl : s' = _ := ha
      rfl
  | _ =>
    obtain rfl : s' = s := ha
    rfl

theorem named_answer {pid : String} {s s' : Plane ι} {o : HostOp} {a : HostAns o}
    (ha : Plane.answer i s o a s') (h : Named i pid s) : Named i pid s' := by
  rw [Named, Plane.entries, pipelines_answer ha]
  exact h

theorem onlyCreate_answer {s s' : Plane ι} {o : HostOp} {a : HostAns o} (ho : Creates o)
    (ha : Plane.answer i s o a s') (h : OnlyCreate i s) : OnlyCreate i s' := by
  cases o with
  | new m =>
    obtain ⟨-, rfl⟩ := ha
    exact h
  | assign r b =>
    obtain rfl : s' = _ := ha
    exact h
  | send m r t =>
    cases a with
    | ok =>
      obtain ⟨j, msg, -, rfl⟩ := ha
      -- what is sent now is a create, as all before
      intro rpc hrpc
      rw [Plane.send_issued, List.mem_append, List.mem_singleton] at hrpc
      rcases hrpc with hrpc | rfl
      · exact h rpc hrpc
      · exact ho m r t rfl
    | error e =>
      obtain rfl : s' = s := ha
      exact h
  | recv m =>
    cases a with
    | ok resp =>
      obtain ⟨pid, -, -, rfl⟩ := ha
      exact h
    | error e =>
      obtain rfl : s' = _ := ha
      exact h
  | _ =>
    obtain rfl : s' = s := ha
    exact h

/-- What the caller of run `i` is told by an exception. -/
def Told (i : ι) (x : Exn) (s : Plane ι) : Prop :=
  ∀ err, x = .conduit err → Named i err.pipelineId s ∨ OnlyCreate i s

/-- What the caller of run `i` knows when it has ended. -/
def Known (i : ι) : Except Exn Run → Plane ι → Prop :=
  Contract.Post (fun run => Named i run.pipelineId) (Told i)

theorem stable_known (r : Except Exn Run) : F.contract.Stable i (Known i r) := by
  cases r with
  | ok run => exact stable_named run.pipelineId
  | error x =>
    intro s s' hI hI' hr h err he
    exact (h err he).imp (stable_named _ hI hI' hr) (stable_onlyCreate hI hI' hr)

/-- An exception before the pipeline is known to exist. -/
theorem triple_early (x : Exn) :
    F.contract.Triple i (fun s => True ∧ OnlyCreate i s) (.done (.error x)) (Known i) :=
  .done ((Contract.Stable.const True).and stable_onlyCreate) fun _ _ hs _ _ => Or.inr hs.2

/-- The `try` block of `run` and its handler: an error leaves with the id. -/
theorem triple_late {pl : Payloads} (hpl : (F.builder i).payloads = .ok pl) {plan : BuildPlan}
    {cs ps ds : List (Ref × Message)} (hlaid : Laid pl plan cs ps ds) (pid : String)
    (timeout : ℚ) :
    F.contract.Triple i (fun s => Acked i pl pid [] s ∧ Built i (cs ++ ps ++ ds) s)
      ((Client.submitAll F.lib plan pid (F.start i) timeout).tryCatch (fun
        | .conduit e => Prog.raise (.conduit { e with pipelineId := pid })
        | e => Prog.raise e) >>= fun _ => (pure ⟨pid⟩ : HostM Run))
      (Known i) := by
  have hnamed := stable_named (F := F) (i := i) pid
  -- the pipeline is there all the time
  have hrun := (triple_submitAll hpl hlaid pid timeout).frame (Prog.only_true _) hnamed
    fun s o a s' _ _ ha hs => named_answer ha hs
  have hreturn : F.contract.Triple i (Named i pid) (pure ⟨pid⟩ : HostM Run) (Known i) :=
    .done hnamed fun _ _ hs => hs
  refine Contract.Triple.bind (Q := Contract.Post (fun _ => Named i pid) (Told i)) ?_
    (fun _ => hreturn) fun x => .done (stable_known (.error x)) fun _ _ hs => hs
  refine Contract.Triple.tryCatch (hrun.pre fun s hs => ⟨hs, hs.1.sent⟩) (fun _ => ?_) fun e => ?_
  · refine Contract.Triple.done ?_ fun s _ hs => hs.2
    exact (stable_acked pl pid _).and hnamed
  · have hstable : F.contract.Stable i fun s => True ∧ Named i pid s :=
      (Contract.Stable.const True).and hnamed
    cases e with
    | conduit e =>
      refine .done hstable fun s _ hs err he => Or.inl ?_
      obtain rfl := Exn.conduit.inj he
      exact hs.2
    | _ => exact .done hstable fun s _ _ err he => by cases he

/-- **What a caller learns**, among any number of others. -/
theorem triple_known : F.contract.Triple i (Idle · i) (F.program i) (Known i) := by
  unfold program Client.run
  -- the plan is built, and nothing is sent
  have hbuild := (triple_buildRequests (F := F) (i := i)).frame (only_buildRequests _)
    stable_onlyCreate fun s o a s' ⟨m, ho⟩ _ (ha : Plane.answer i s o a s') hs => by
      subst ho
      exact onlyCreate_answer (fun _ _ _ h => by cases h) ha hs
  refine (hbuild.pre fun s hs => ⟨hs, ?_⟩).bind (fun plan => ?_) fun x => triple_early x
  · intro rpc hrpc
    rw [hs.issued] at hrpc
    exact absurd hrpc List.not_mem_nil
  intro s hI ⟨⟨pl, cs, ps, ds, ⟨hpl, hlaid⟩, hidle, hbuilt⟩, honly⟩
  -- the pipeline is created, and nothing else is sent
  have hcall : (Client.call F.lib .createPipeline plan.createPipeline (F.timeout i)).Only
      Creates :=
    only_call F.lib .createPipeline plan.createPipeline (F.timeout i)
      (fun m r t h => by cases h; rfl) fun _ _ _ h => by cases h
  have hcreate := (triple_create hpl plan.createPipeline (cs ++ ps ++ ds) (F.timeout i)).frame
    hcall stable_onlyCreate fun s o a s' ho _ ha hs => onlyCreate_answer ho ha hs
  have hrest := hcreate.bind (fun pid => (triple_late hpl hlaid pid (F.timeout i)).pre
    fun s hs => hs.1) fun x => triple_early x
  exact hrest s hI ⟨⟨hidle, hbuilt⟩, honly⟩

/-! ### Whole runs -/

theorem Starts.known {c : Runs ι} (h : F.Starts c) :
    F.contract.Holds (fun i => Known i) c where
  inv := h.holds.inv
  keeps i p hp := by
    rw [h.threads i p hp]
    exact triple_known c.state h.holds.inv ⟨h.issued i, h.wire i, h.entries.2 i⟩

/-- A run has at most one pipeline on the server. It is empty as long as nothing else was
sent. -/
theorem OnTrack.entries {s : Plane ι} (h : F.OnTrack s i) :
    (s.entries (some i)).length ≤ 1 ∧
      (OnlyCreate i s → (s.issued i).length ≤ 1 ∧ ∀ e ∈ s.entries (some i), e.resources = []) := by
  have hfollow {pl : Payloads} {pid : String} {xs : List Rpc} {x : Rpc}
      (hup : xs <+: pl.followUps pid (F.start i)) (hx : x ∈ xs) : x.method ≠ .createPipeline :=
    followUps_method (hup.subset hx)
  rcases h with hidle | ⟨pl, -, hcreating | ⟨xs, e, hsettled⟩ | ⟨xs, x, e, hpending⟩⟩
  · simp [hidle.entries, hidle.issued]
  · simp [hcreating.entries, hcreating.issued]
  · refine ⟨by rw [hsettled.entries]; exact le_refl 1, fun honly => ?_⟩
    rw [OnlyCreate, hsettled.issued] at honly
    cases xs with
    | nil =>
      rw [hsettled.issued, hsettled.entries]
      refine ⟨le_refl 1, fun e' he' => ?_⟩
      rw [List.mem_singleton.mp he', hsettled.resources]
      rfl
    | cons x xs =>
      -- something else was sent
      have hmethod := honly x (List.mem_cons_of_mem _ List.mem_cons_self)
      exact absurd hmethod (hfollow hsettled.upTo List.mem_cons_self)
  · refine ⟨by rw [hpending.entries]; exact le_refl 1, fun honly => ?_⟩
    rw [OnlyCreate, hpending.issued] at honly
    have hx : x ∈ xs ++ [x] := List.mem_append_right _ List.mem_cons_self
    exact absurd (honly x (List.mem_cons_of_mem _ hx)) (hfollow hpending.upTo hx)

/-- The only pipeline of a run is the one that is named. -/
theorem OnTrack.named {s : Plane ι} (h : F.OnTrack s i) {pid : String} (hn : Named i pid s) :
    ∃ e, s.entries (some i) = [e] ∧ e.id = pid := by
  obtain ⟨e, he, hid⟩ := List.mem_map.mp hn
  have hlength : (s.entries (some i)).length = 1 :=
    Nat.le_antisymm h.entries.1 (List.length_pos_of_mem he)
  obtain ⟨e', he'⟩ := List.length_eq_one_iff.mp hlength
  rw [he', List.mem_singleton] at he
  subst he
  exact ⟨e, he', hid⟩

/-! ### A server that does not start pipelines -/

/-- A server that accepts everything, whose answer to `StartPipeline` is an error. -/
def busy (i : ι) (s : Plane ι) : (o : HostOp) → HostAns o × Plane ι
  | .recv .startPipeline => (.error (.rpc ⟨"engine is busy", none⟩), s.hangUp i)
  | o => s.handle i o

theorem busy_answer (i : ι) {s : Plane ι} (o : HostOp) (hs : s.Short) :
    (∃ s₁, Relation.ReflTransGen (planeWorld ι).drift s s₁ ∧
      (planeWorld ι).answer i s₁ o (busy i s o).1 (busy i s o).2) ∧ (busy i s o).2.Short := by
  cases o with
  | recv m =>
    cases m with
    | startPipeline => exact ⟨⟨s, .refl, rfl⟩, hs⟩
    | _ => exact Plane.handle_answer i _ hs
  | _ => exact Plane.handle_answer i _ hs

/-- A run against it. -/
def busyOrder : Except Exn Run × Plane Bool :=
  (twoOrders.program true).eval (busy true) twoOrdersStart.state

/-- What the caller gets. -/
def busyError : ConduitError := { message := "engine is busy", pipelineId := "p" }

theorem busyOrder_raises :
    busyOrder.1 = .error (.conduit busyError) ∧ 1 < (busyOrder.2.issued true).length := by
  decide +kernel

/-- **No pipeline is left without a name.** Any number of clients submit to one server, which
loses requests and responses and deals with some of them late. A run has at most one pipeline
on the server. If it has returned, that is the pipeline of its handle. If it has raised a
`ConduitError`, then either that is the pipeline the error names, or the run has sent its
`CreatePipeline` at most once and nothing else, and what there is on the server is empty. -/
theorem learns_id {c₀ c : Runs ι} (h₀ : F.Starts c₀) (hr : Reach (planeWorld ι) c₀ c) (i : ι) :
    (c.state.entries (some i)).length ≤ 1 ∧
      (∀ run, c.Ended i (.ok run) →
        ∃ e, c.state.entries (some i) = [e] ∧ e.id = run.pipelineId) ∧
      ∀ err, c.Ended i (.error (.conduit err)) →
        (∃ e, c.state.entries (some i) = [e] ∧ e.id = err.pipelineId) ∨
          (∀ rpc ∈ c.state.issued i, rpc.method = .createPipeline) ∧
            (c.state.issued i).length ≤ 1 ∧
            ∀ e ∈ c.state.entries (some i), e.resources = [] := by
  have hholds := h₀.known.reach hr
  have htrack : F.OnTrack c.state i := hholds.inv.runs i
  refine ⟨htrack.entries.1, fun run hended => ?_, fun err hended => ?_⟩
  · exact htrack.named (hholds.ended hended)
  · rcases hholds.ended hended err rfl with hnamed | honly
    · exact Or.inl (htrack.named hnamed)
    · exact Or.inr ⟨honly, htrack.entries.2 honly⟩

theorem learns_id_busy :
    ∃ c : Runs Bool, c.Ended true (.error (.conduit busyError)) ∧
      ∃ e, c.state.entries (some true) = [e] ∧ e.id = "p" := by
  have hlawful := Lawful.of_invariant (W := planeWorld Bool) (T := Plane.Short)
    (fun _ o hs => busy_answer true o hs) (twoOrders.program true)
    (s := twoOrdersStart.state) (by decide)
  obtain ⟨c, hreach, hend, hstate, -⟩ := hlawful.exists_reach (t := twoOrdersStart.thread) rfl
  obtain ⟨hraises, hissued⟩ := busyOrder_raises
  have hended : c.Ended true (.error (.conduit busyError)) := by
    rw [← hraises]
    exact hend
  -- more was sent than the request to create it
  rcases (learns_id twoOrders_starts hreach true).2.2 busyError hended with hnamed | ⟨-, hone, -⟩
  · exact ⟨c, hended, hnamed⟩
  · rw [hstate] at hone
    exact absurd hissued (Nat.not_lt.mpr hone)

end Submissions

end Conduit
