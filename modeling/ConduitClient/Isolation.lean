import ConduitClient.Progress
import ConduitClient.Submission

/-!
# Submissions do not mix

Any number of runs submit pipelines to one server, in any order of their steps and with any of
their calls failing. `isolated` says what every state that is reached looks like: which
resources each pipeline has, and whose id each request carries.
-/

namespace Conduit

open Effect

variable {ι : Type} [DecidableEq ι]

omit [DecidableEq ι] in
/-- The resources among what follows the creation of a pipeline. -/
theorem Payloads.filter_followUps (pl : Payloads) (pid : String) (start : Bool) :
    (pl.followUps pid start).filter Rpc.isResource = pl.resourceRpcs pid := by
  have hall : (pl.resourceRpcs pid).filter Rpc.isResource = pl.resourceRpcs pid := by
    refine List.filter_eq_self.mpr ?_
    exact forall_resourceRpcs (fun _ => rfl) (fun _ => rfl) fun _ => rfl
  rw [followUps, List.filter_append, hall]
  cases start <;> simp [startRpc, Rpc.isResource]

omit [DecidableEq ι] in
theorem resourcesOf_rpcs (i : ι) (xs : List Rpc) :
    (resourcesOf i xs).map Prod.snd = xs.filter Rpc.isResource := by
  unfold resourcesOf
  rw [List.map_map]
  exact List.map_id _

omit [DecidableEq ι] in
theorem resourcesOf_creator {i : ι} {xs : List Rpc} {x : Option ι × Rpc}
    (h : x ∈ resourcesOf i xs) : x.1 = some i := by
  obtain ⟨rpc, -, rfl⟩ := List.mem_map.mp h
  rfl

namespace Submissions

/-- A configuration of submissions. -/
abbrev Runs (ι : Type) := Config Host ι Exn Run (Plane ι)

/-- The calls are made. There may be message objects and pipelines already. -/
structure Starts (F : Submissions ι) (c : Runs ι) : Prop where
  threads : ∀ i p, c.thread i = some p → p = F.program i
  issued : ∀ i, c.state.issued i = []
  wire : ∀ i, c.state.wire i = none
  pipelines : c.state.pipelines = F.earlier
  creators : ∀ e ∈ F.earlier, e.creator = none
  ids : (F.earlier.map Entry.id).Nodup

/-- The submissions are kept apart. -/
structure Isolated (F : Submissions ι) (c : Runs ι) : Prop where
  /-- The resources under a pipeline come from the run that created it, and are a prefix of
  the plan of its builder, in order. -/
  resources : ∀ e ∈ c.state.pipelines, ∀ i, e.creator = some i →
    ∃ pl, (F.builder i).payloads = .ok pl ∧ (∀ x ∈ e.resources, x.1 = some i) ∧
      e.resources.map Prod.snd <+: pl.resourceRpcs e.id
  /-- A run that returned has created one pipeline, which is the one it returned, and all of
  the plan of its builder is under that. -/
  returned : ∀ i run, c.Ended i (.ok run) →
    ∃ pl, (F.builder i).payloads = .ok pl ∧ ∃ e ∈ c.state.pipelines, e.creator = some i ∧
      (∀ e' ∈ c.state.pipelines, e'.creator = some i → e' = e) ∧
      e.id = run.pipelineId ∧ e.resources.map Prod.snd = pl.resourceRpcs run.pipelineId
  /-- Runs that returned have returned different pipelines. -/
  distinct : ∀ i j run run', i ≠ j → c.Ended i (.ok run) → c.Ended j (.ok run') →
    run.pipelineId ≠ run'.pipelineId
  /-- A request that carries the id of a pipeline comes from the run that created it. -/
  own : ∀ i, ∀ rpc ∈ c.state.issued i, ∀ pid, rpc.request.target = some pid →
    ∀ e ∈ c.state.pipelines, e.id = pid → e.creator = some i
  /-- The pipelines that were there before are as they were. -/
  earlier : ∀ e ∈ c.state.pipelines, e.creator = none → e ∈ F.earlier

variable {F : Submissions ι} {i : ι}

theorem Starts.entries {c : Runs ι} (h : F.Starts c) :
    c.state.entries none = F.earlier ∧ ∀ i, c.state.entries (some i) = [] := by
  unfold Plane.entries
  rw [h.pipelines]
  refine ⟨List.filter_eq_self.mpr fun e he => by simp [h.creators e he], fun i => ?_⟩
  exact List.filter_eq_nil_iff.mpr fun e he => by simp [h.creators e he]

theorem Starts.holds {c : Runs ι} (h : F.Starts c) : F.contract.Holds F.Done c := by
  have hidle (i : ι) : Idle c.state i := ⟨h.issued i, h.wire i, h.entries.2 i⟩
  have hI : F.Inv c.state :=
    ⟨h.pipelines ▸ h.ids, h.entries.1, fun i => Or.inl (hidle i)⟩
  refine ⟨hI, fun i p hp => ?_⟩
  rw [h.threads i p hp]
  exact triple_run _ hI (hidle i)

/-! ### What the stages say -/

/-- The pipelines of a run hold a prefix of its plan. -/
theorem OnTrack.resources {s : Plane ι} (h : F.OnTrack s i) {e : Entry ι}
    (he : e ∈ s.entries (some i)) :
    ∃ pl xs, (F.builder i).payloads = .ok pl ∧ xs <+: pl.followUps e.id (F.start i) ∧
      e.resources = resourcesOf i xs := by
  rcases h with h | ⟨pl, hpl, h | ⟨xs, e', h⟩ | ⟨xs, x, e', h⟩⟩
  · simp [h.entries] at he
  · simp [h.entries] at he
  · rw [h.entries] at he
    obtain rfl := List.mem_singleton.mp he
    exact ⟨pl, xs, hpl, h.upTo, h.resources⟩
  · rw [h.entries] at he
    obtain rfl := List.mem_singleton.mp he
    exact ⟨pl, xs, hpl, (List.prefix_append _ _).trans h.upTo, h.resources⟩

/-- The id in a request of a run is that of its pipeline. -/
theorem OnTrack.target {s : Plane ι} (h : F.OnTrack s i) {rpc : Rpc} (hrpc : rpc ∈ s.issued i)
    {pid : String} (ht : rpc.request.target = some pid) :
    ∃ e ∈ s.pipelines, e.creator = some i ∧ e.id = pid := by
  -- the creation of the pipeline carries no id
  have hcreate (pl : Payloads) : pl.createRpc.request.target = none := rfl
  -- everything after the creation is about the pipeline of the run
  have hfollow {pl : Payloads} {xs : List Rpc} {e : Entry ι}
      (hissued : s.issued i = pl.createRpc :: xs) (hup : xs <+: pl.followUps e.id (F.start i)) :
      e.id = pid := by
    rw [hissued] at hrpc
    rcases List.mem_cons.mp hrpc with rfl | hrpc
    · rw [hcreate] at ht
      cases ht
    · exact Option.some.inj ((Payloads.target_of_mem_followUps (hup.subset hrpc)).symm.trans ht)
  rcases h with h | ⟨pl, hpl, h | ⟨xs, e, h⟩ | ⟨xs, x, e, h⟩⟩
  · simp [h.issued] at hrpc
  · rw [h.issued, List.mem_singleton] at hrpc
    rw [hrpc, hcreate] at ht
    cases ht
  · obtain ⟨hmem, hcreator⟩ := mem_of_entries h.entries
    exact ⟨e, hmem, hcreator, hfollow h.issued h.upTo⟩
  · obtain ⟨hmem, hcreator⟩ := mem_of_entries h.entries
    exact ⟨e, hmem, hcreator, hfollow h.issued h.upTo⟩

theorem mem_entries {s : Plane ι} {o : Option ι} {e : Entry ι} :
    e ∈ s.entries o ↔ e ∈ s.pipelines ∧ e.creator = o := by
  simp [Plane.entries]

/-- **Isolation.** In every state that is reached, the submissions are kept apart. -/
theorem isolated (F : Submissions ι) {c₀ c : Runs ι} (h₀ : F.Starts c₀)
    (hr : Reach (planeWorld ι) c₀ c) : F.Isolated c := by
  have h := h₀.holds.reach hr
  -- pipelines are told apart by their ids
  have hunique {e e' : Entry ι} (he : e ∈ c.state.pipelines) (he' : e' ∈ c.state.pipelines)
      (hid : e.id = e'.id) : e = e' := List.inj_on_of_nodup_map h.inv.ids he he' hid
  -- a run that returned has had its whole sequence accepted
  have hreturned (i : ι) (run : Run) (hrun : c.Ended i (.ok run)) :
      ∃ pl, (F.builder i).payloads = .ok pl ∧
        c.state.entries (some i) =
          [⟨run.pipelineId, some i, resourcesOf i (pl.followUps run.pipelineId (F.start i))⟩] := by
    obtain ⟨pl, hpl, hacked⟩ := h.ended hrun
    exact ⟨pl, hpl, hacked.entries⟩
  constructor
  case resources =>
    intro e he i hi
    obtain ⟨pl, xs, hpl, hup, hres⟩ := (h.inv.runs i).resources (mem_entries.mpr ⟨he, hi⟩)
    refine ⟨pl, hpl, fun x hx => resourcesOf_creator (hres ▸ hx), ?_⟩
    rw [hres, resourcesOf_rpcs, ← pl.filter_followUps e.id (F.start i)]
    exact hup.filter _
  case returned =>
    intro i run hrun
    obtain ⟨pl, hpl, hentries⟩ := hreturned i run hrun
    have hmem := (mem_of_entries hentries).1
    refine ⟨pl, hpl, _, hmem, rfl, fun e' he' hcreator => ?_, rfl, ?_⟩
    · have he'' := mem_entries.mpr ⟨he', hcreator⟩
      rw [hentries] at he''
      exact List.mem_singleton.mp he''
    · rw [resourcesOf_rpcs, Payloads.filter_followUps]
  case distinct =>
    intro i j run run' hij hrun hrun' hid
    obtain ⟨pl, -, hi⟩ := hreturned i run hrun
    obtain ⟨pl', -, hj⟩ := hreturned j run' hrun'
    have he := hunique (mem_of_entries hi).1 (mem_of_entries hj).1 hid
    exact hij (Option.some.inj (congrArg Entry.creator he))
  case own =>
    intro i rpc hrpc pid ht e he hid
    obtain ⟨e', he', hcreator, hid'⟩ := (h.inv.runs i).target hrpc ht
    obtain rfl := hunique he he' (hid.trans hid'.symm)
    exact hcreator
  case earlier =>
    intro e he hcreator
    rw [← h.inv.earlier]
    exact mem_entries.mpr ⟨he, hcreator⟩

end Submissions

/-! ### A server that accepts everything -/

namespace Plane

/-- The id of the next pipeline. -/
def nextId (s : Plane ι) : String := String.ofList (List.replicate s.pipelines.length 'p')

/-- The server accepts the request of run `i`: the id of the pipeline, and what becomes of it. -/
def serve (s : Plane ι) (i : ι) : Option (String × Plane ι) := do
  let rpc ← s.wire i
  if rpc.method = .createPipeline then
    return (s.nextId, s.respond i (some (.accepted s.nextId))
      (s.pipelines ++ [⟨s.nextId, some i, []⟩]))
  else if rpc.isResource then
    let pid ← rpc.request.target
    if pid ∈ s.pipelines.map Entry.id then
      return (pid, s.respond i (some (.accepted pid)) (s.attached i rpc pid))
    else none
  else
    return ("", s.respond i (some (.accepted "")) s.pipelines)

/-- The response to an accepted request. -/
def response (pid : String) : (m : Method) → Response m
  | .createPipeline => pid
  | .getPipeline => ⟨1, "", 0⟩
  | .getInfo => ⟨"", "", ""⟩
  | .createConnector | .createProcessor | .updateDLQ | .startPipeline | .stopPipeline => ()

/-- How run `i` is answered on such a server. -/
def handle (i : ι) (s : Plane ι) : (o : HostOp) → HostAns o × Plane ι
  | .new m => (s.heap.length, s.alloc i m)
  | .assign r a => ((), s.assign r a)
  | .send m r _ =>
    match s.heap[r]? with
    | some (_, msg) => (.ok (), s.send i ⟨m, msg⟩)
    | none => (.error closedChannel, s)
  | .recv m =>
    match s.serve i with
    | some (pid, s') => (.ok (response pid m), s'.hangUp i)
    | none => (.error closedChannel, s.hangUp i)
  | o => ((obliging.handle newSession o).1, s)

/-- The ids that are taken are shorter than the next one. -/
def Short (s : Plane ι) : Prop := ∀ e ∈ s.pipelines, e.id.length < s.pipelines.length

instance (s : Plane ι) : Decidable s.Short := inferInstanceAs (Decidable (∀ e ∈ s.pipelines, _))

/-- What such a server does is something a server does. -/
theorem serve_spec {s s' : Plane ι} {i : ι} {pid : String} (hs : s.Short)
    (h : s.serve i = some (pid, s')) :
    Drift s s' ∧ s'.reply i = some (.accepted pid) ∧ s'.Short := by
  obtain ⟨rpc, hw, h⟩ := Option.bind_eq_some_iff.mp h
  split at h
  case isTrue hm =>
    obtain ⟨rfl, rfl⟩ := Prod.mk.inj (Option.some.inj h)
    have hlen : s.nextId.length = s.pipelines.length := by simp [nextId]
    refine ⟨.creates hw hm fun e he hid => ?_, s.respond_reply i _ _, fun e he => ?_⟩
    · have hlt := hs e he
      rw [hid, hlen] at hlt
      exact hlt.false
    · change e.id.length < (s.pipelines ++ [_]).length
      rw [List.length_append, List.length_singleton]
      rcases List.mem_append.mp he with he | he
      · exact (hs e he).trans (Nat.lt_succ_self _)
      · obtain rfl := List.mem_singleton.mp he
        exact hlen ▸ Nat.lt_succ_self _
  case isFalse hm =>
    split at h
    case isTrue hres =>
      obtain ⟨target, ht, h⟩ := Option.bind_eq_some_iff.mp h
      split at h
      case isTrue hmem =>
        obtain ⟨rfl, rfl⟩ := Prod.mk.inj (Option.some.inj h)
        refine ⟨.attaches hw hres ht hmem, s.respond_reply i _ _, fun e he => ?_⟩
        -- the ids are the same
        have hids : e.id ∈ (s.attached i rpc target).map Entry.id := List.mem_map_of_mem he
        rw [Submissions.attached_ids] at hids
        obtain ⟨e', he', hid⟩ := List.mem_map.mp hids
        have hlen : (s.attached i rpc target).length = s.pipelines.length := List.length_map _
        change e.id.length < (s.attached i rpc target).length
        rw [hlen, ← hid]
        exact hs e' he'
      case isFalse => cases h
    case isFalse hres =>
      obtain ⟨rfl, rfl⟩ := Prod.mk.inj (Option.some.inj h)
      exact ⟨.accepts hw hm (by simpa using hres), s.respond_reply i _ _, hs⟩

/-- Its answers are those of the world. -/
theorem handle_answer (i : ι) {s : Plane ι} (o : HostOp) (hs : s.Short) :
    (∃ s₁, Relation.ReflTransGen (planeWorld ι).drift s s₁ ∧
      (planeWorld ι).answer i s₁ o (handle i s o).1 (handle i s o).2) ∧
      (handle i s o).2.Short := by
  cases o with
  | new m => exact ⟨⟨s, .refl, rfl, rfl⟩, hs⟩
  | assign r a => exact ⟨⟨s, .refl, rfl⟩, hs⟩
  | send m r t =>
    simp only [handle]
    split
    · next j msg h => exact ⟨⟨s, .refl, j, msg, h, rfl⟩, hs⟩
    · exact ⟨⟨s, .refl, rfl⟩, hs⟩
  | recv m =>
    simp only [handle]
    split
    · next pid s' h =>
      obtain ⟨hd, hreply, hs'⟩ := serve_spec hs h
      have hsays : Says m (response pid m) pid := by cases m <;> trivial
      exact ⟨⟨s', .single hd, pid, hreply, hsays, rfl⟩, hs'⟩
    · exact ⟨⟨s, .refl, rfl⟩, hs⟩
  | _ => exact ⟨⟨s, .refl, rfl⟩, hs⟩

end Plane

namespace Submissions

/-- Two runs that submit the same builder, on a server that already has a pipeline. -/
def twoOrders : Submissions Bool where
  lib := emptyCodec
  builder _ := (Pipeline.init "orders" none "").calls ordersCalls
  start i := i
  timeout _ := 10
  earlier := [⟨"", none, []⟩]

/-- The two runs at their beginning. -/
def twoOrdersStart : Runs Bool :=
  ⟨fun i => some (twoOrders.program i), { pipelines := twoOrders.earlier }⟩

theorem twoOrders_starts : twoOrders.Starts twoOrdersStart where
  threads _ _ hp := (Option.some.inj hp).symm
  issued _ := rfl
  wire _ := rfl
  pipelines := rfl
  creators := by decide
  ids := by decide

/-- The first run, on a server that accepts everything. -/
def firstOrder : Except Exn Run × Plane Bool :=
  (twoOrders.program false).eval (Plane.handle false) twoOrdersStart.state

/-- The second run after it. -/
def secondOrder : Except Exn Run × Plane Bool :=
  (twoOrders.program true).eval (Plane.handle true) firstOrder.2

theorem orders_ids :
    firstOrder.1 = .ok ⟨"p"⟩ ∧ firstOrder.2.Short ∧ secondOrder.1 = .ok ⟨"pp"⟩ := by
  decide +kernel

/-- Both return. -/
theorem orders_return :
    ∃ c : Runs Bool, Reach (planeWorld Bool) twoOrdersStart c ∧
      c.Ended false (.ok ⟨"p"⟩) ∧ c.Ended true (.ok ⟨"pp"⟩) := by
  obtain ⟨hfirst, hshort, hsecond⟩ := orders_ids
  -- what such a server does is a run of the world, as long as ids are short
  have hlawful (i : Bool) {s : Plane Bool} (hs : s.Short) :=
    Lawful.of_invariant (W := planeWorld Bool) (T := Plane.Short)
      (fun s o hs => Plane.handle_answer i o hs) (twoOrders.program i) hs
  have hstart : twoOrdersStart.state.Short := by decide
  obtain ⟨c, hreach, hend, hstate, hother⟩ :=
    (hlawful false hstart).exists_reach (t := twoOrdersStart.thread) rfl
  have hthread : c.thread true = some (twoOrders.program true) := hother true (by decide)
  have hshort' : c.state.Short := hstate ▸ hshort
  obtain ⟨c', hreach', hend', -, hother'⟩ := (hlawful true hshort').exists_reach hthread
  refine ⟨c', hreach.trans hreach', ?_, ?_⟩
  · change c'.thread false = _
    rw [hother' false (by decide), ← hfirst]
    exact hend
  · rw [← hsecond]
    rw [hstate] at hend'
    exact hend'

/-- Two runs of one builder that have both returned. -/
theorem isolated_twoOrders :
    ∃ c : Runs Bool, c.Ended false (.ok ⟨"p"⟩) ∧ c.Ended true (.ok ⟨"pp"⟩) ∧
      twoOrders.Isolated c := by
  obtain ⟨c, hreach, hfirst, hsecond⟩ := orders_return
  exact ⟨c, hfirst, hsecond, isolated twoOrders twoOrders_starts hreach⟩

end Submissions

end Conduit
