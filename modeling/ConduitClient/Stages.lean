import ConduitClient.Effect.Contract
import ConduitClient.Server

/-!
# How far a submission has got

A run sends one request at a time, and the next one only after the one before was accepted.
`Stage` says how far it has got, in terms of what it has sent, its request on the wire, the
response to it, and the pipeline it has on the server. `Inv` says that every run is at some
stage, and that ids are not given twice.

The stage of a run is changed by the run itself and by the server dealing with the run's own
request; it does not depend on anybody else (`Inv.drift`, `rely_of_drift`).
-/

namespace Conduit

open Effect

variable {ι : Type} [DecidableEq ι]

namespace Plane

/-- The pipelines that run `i` has created, or for `none` those that were there before. -/
def entries (s : Plane ι) (i : Option ι) : List (Entry ι) := s.pipelines.filter (·.creator = i)

end Plane

/-- The resources among the requests `rpcs` of run `i`. -/
def resourcesOf (i : ι) (rpcs : List Rpc) : List (Option ι × Rpc) :=
  (rpcs.filter Rpc.isResource).map (some i, ·)

omit [DecidableEq ι] in
theorem resourcesOf_append (i : ι) (xs : List Rpc) (x : Rpc) :
    resourcesOf i (xs ++ [x]) = resourcesOf i xs ++ if x.isResource then [(some i, x)] else [] := by
  unfold resourcesOf
  cases h : x.isResource <;> simp [List.filter_append, h]

/-- Nothing has been sent yet. -/
structure Idle (s : Plane ι) (i : ι) : Prop where
  issued : s.issued i = []
  wire : s.wire i = none
  entries : s.entries (some i) = []

/-- The pipeline of `pl` has been asked for, and there is none. -/
structure Creating (pl : Payloads) (s : Plane ι) (i : ι) : Prop where
  issued : s.issued i = [pl.createRpc]
  wire : ∀ rpc, s.wire i = some rpc → rpc = pl.createRpc
  reply : ∀ pid, s.reply i ≠ some (.accepted pid)
  entries : s.entries (some i) = []

/-- Everything that was sent has been accepted, for the pipeline `e`: its creation, and `xs`. -/
structure Settled (pl : Payloads) (start : Bool) (s : Plane ι) (i : ι) (xs : List Rpc)
    (e : Entry ι) : Prop where
  issued : s.issued i = pl.createRpc :: xs
  upTo : xs <+: pl.followUps e.id start
  wire : s.wire i = none
  reply : ∀ pid, xs = [] → s.reply i = some (.accepted pid) → pid = e.id
  entries : s.entries (some i) = [e]
  resources : e.resources = resourcesOf i xs

/-- Everything that was sent has been accepted but `x`. -/
structure Pending (pl : Payloads) (start : Bool) (s : Plane ι) (i : ι) (xs : List Rpc)
    (x : Rpc) (e : Entry ι) : Prop where
  issued : s.issued i = pl.createRpc :: (xs ++ [x])
  upTo : xs ++ [x] <+: pl.followUps e.id start
  wire : ∀ rpc, s.wire i = some rpc → rpc = x
  reply : ∀ pid, s.reply i ≠ some (.accepted pid)
  entries : s.entries (some i) = [e]
  resources : e.resources = resourcesOf i xs

/-- How far the submission of `pl` has got. -/
def Stage (pl : Payloads) (start : Bool) (s : Plane ι) (i : ι) : Prop :=
  Creating pl s i ∨ (∃ xs e, Settled pl start s i xs e) ∨ ∃ xs x e, Pending pl start s i xs x e

namespace Submissions

/-- Run `i` is at some stage. -/
def OnTrack (F : Submissions ι) (s : Plane ι) (i : ι) : Prop :=
  Idle s i ∨ ∃ pl, (F.builder i).payloads = .ok pl ∧ Stage pl (F.start i) s i

/-- Every run is at some stage, every pipeline has its own id, and those that were there
before are as they were. -/
structure Inv (F : Submissions ι) (s : Plane ι) : Prop where
  ids : (s.pipelines.map Entry.id).Nodup
  earlier : s.entries none = F.earlier
  runs : ∀ i, F.OnTrack s i

variable {F : Submissions ι}

/-- The stage of a run depends on what it has sent and received and on its pipelines. -/
theorem OnTrack.congr {s s' : Plane ι} {i : ι} (h : F.OnTrack s i)
    (hi : s'.issued i = s.issued i) (hw : s'.wire i = s.wire i)
    (hr : ∀ pid, s'.reply i = some (.accepted pid) → s.reply i = some (.accepted pid))
    (he : s'.entries (some i) = s.entries (some i)) : F.OnTrack s' i := by
  rcases h with h | ⟨pl, hpl, h | ⟨xs, e, h⟩ | ⟨xs, x, e, h⟩⟩
  · exact Or.inl ⟨hi.trans h.issued, hw.trans h.wire, he.trans h.entries⟩
  · refine Or.inr ⟨pl, hpl, Or.inl ⟨hi.trans h.issued, ?_, fun pid hp => h.reply pid (hr pid hp),
      he.trans h.entries⟩⟩
    rw [hw]
    exact h.wire
  · exact Or.inr ⟨pl, hpl, Or.inr (Or.inl ⟨xs, e, hi.trans h.issued, h.upTo, hw.trans h.wire,
      fun pid hxs hp => h.reply pid hxs (hr pid hp), he.trans h.entries, h.resources⟩)⟩
  · refine Or.inr ⟨pl, hpl, Or.inr (Or.inr ⟨xs, x, e, hi.trans h.issued, h.upTo, ?_,
      fun pid hp => h.reply pid (hr pid hp), he.trans h.entries, h.resources⟩)⟩
    rw [hw]
    exact h.wire

/-! ### Pipelines -/

omit [DecidableEq ι] in
theorem followUps_method {pl : Payloads} {pid : String} {start : Bool} {rpc : Rpc}
    (h : rpc ∈ pl.followUps pid start) : rpc.method ≠ .createPipeline :=
  Payloads.forall_followUps (P := fun rpc => rpc.method ≠ .createPipeline) (fun _ => nofun)
    (fun _ => nofun) (fun _ => nofun) nofun rpc h

/-- A pipeline of a run on the server. -/
theorem mem_of_entries {s : Plane ι} {i : Option ι} {e : Entry ι} (h : s.entries i = [e]) :
    e ∈ s.pipelines ∧ e.creator = i := by
  have hmem : e ∈ s.entries i := by simp [h]
  simpa [Plane.entries] using hmem

/-- A new pipeline is one of its creator. -/
theorem entries_create {s : Plane ι} {i : ι} {r : Option Reply} {e : Entry ι} (j : Option ι) :
    (s.respond i r (s.pipelines ++ [e])).entries j =
      s.entries j ++ if e.creator = j then [e] else [] := by
  by_cases h : e.creator = j <;> simp [Plane.entries, Plane.respond, List.filter_append, h]

/-- A resource under the pipeline of run `i` does not touch the pipelines of the others. -/
theorem entries_attached {s : Plane ι} (hids : (s.pipelines.map Entry.id).Nodup) {i : ι}
    {e : Entry ι} (he : s.entries (some i) = [e]) (r : Option Reply) (rpc : Rpc)
    (j : Option ι) :
    (s.respond i r (s.attached i rpc e.id)).entries j =
      if j = some i then [e.attach i rpc] else s.entries j := by
  -- the filter by creators commutes with the attaching
  have hmap : (s.respond i r (s.attached i rpc e.id)).entries j =
      (s.entries j).map fun e' => if e'.id = e.id then e'.attach i rpc else e' := by
    unfold Plane.entries Plane.respond Plane.attached
    rw [List.filter_map]
    congr 1
    refine List.filter_congr fun e' _ => ?_
    simp only [Function.comp]
    split <;> rfl
  obtain ⟨hmem, hcreator⟩ := mem_of_entries he
  rw [hmap]
  split
  · next h => simp [h, he]
  · next h =>
    -- a pipeline with that id is the one of run `i`
    refine (List.map_congr_left fun e' he' => ?_).trans (List.map_id _)
    refine if_neg fun hid => h ?_
    have hmem' : e' ∈ s.pipelines ∧ e'.creator = j := by simpa [Plane.entries] using he'
    obtain rfl := List.inj_on_of_nodup_map hids hmem'.1 hmem hid
    exact hmem'.2.symm.trans hcreator

omit [DecidableEq ι] in
theorem attached_ids (s : Plane ι) (i : ι) (rpc : Rpc) (pid : String) :
    (s.attached i rpc pid).map Entry.id = s.pipelines.map Entry.id := by
  unfold Plane.attached
  rw [List.map_map]
  refine List.map_congr_left fun e _ => ?_
  simp only [Function.comp]
  split <;> rfl

/-! ### The server acts -/

/-- What run `i` may count on while it is not running: its message objects and what it has
sent are left alone, its pipelines stay, and nothing of it is dealt with when nothing is on
the wire. -/
structure Rely (i : ι) (s s' : Plane ι) : Prop where
  heap : ∀ (r : Ref) m, s.heap[r]? = some (i, m) → s'.heap[r]? = some (i, m)
  issued : s'.issued i = s.issued i
  wire : s.wire i = none → s'.wire i = none
  entries : s.wire i = none → s'.entries (some i) = s.entries (some i)
  ids : ∀ pid, pid ∈ (s.entries (some i)).map Entry.id →
    pid ∈ (s'.entries (some i)).map Entry.id

omit [DecidableEq ι] in
theorem Rely.refl [DecidableEq ι] (i : ι) (s : Plane ι) : Rely i s s :=
  ⟨fun _ _ h => h, rfl, fun h => h, fun _ => rfl, fun _ h => h⟩

theorem Rely.trans {i : ι} {s s' s'' : Plane ι} (h : Rely i s s') (h' : Rely i s' s'') :
    Rely i s s'' where
  heap r m hm := h'.heap r m (h.heap r m hm)
  issued := h'.issued.trans h.issued
  wire hw := h'.wire (h.wire hw)
  entries hw := (h'.entries (h.wire hw)).trans (h.entries hw)
  ids pid hp := h'.ids pid (h.ids pid hp)

/-- What a response does to the one run whose request it answers. -/
structure Responds (F : Submissions ι) (i : ι) (s s' : Plane ι) : Prop where
  others : ∀ j, j ≠ i → s'.wire j = s.wire j ∧ s'.reply j = s.reply j
  entries : ∀ j, j ≠ some i → s'.entries j = s.entries j
  issued : s'.issued = s.issued
  heap : s'.heap = s.heap
  nodup : (s'.pipelines.map Entry.id).Nodup
  onTrack : F.OnTrack s' i
  rely : Rely i s s'

/-- A response that changes no pipeline. -/
theorem responds_same {s : Plane ι} (h : F.Inv s) {i : ι} {r : Option Reply}
    (ht : F.OnTrack (s.respond i r s.pipelines) i) :
    Responds F i s (s.respond i r s.pipelines) where
  others _ hj := ⟨Function.update_of_ne hj _ _, Function.update_of_ne hj _ _⟩
  entries _ _ := rfl
  issued := rfl
  heap := rfl
  nodup := h.ids
  onTrack := ht
  rely := ⟨fun _ _ hm => hm, rfl, fun _ => Plane.respond_wire _ _ _ _, fun _ => rfl,
    fun _ hp => hp⟩

/-- What is refused or lost leaves the run where it was. -/
theorem onTrack_refused {s : Plane ι} (h : F.Inv s) (i : ι) {r : Option Reply}
    (hr : ∀ pid, r ≠ some (.accepted pid)) : F.OnTrack (s.respond i r s.pipelines) i := by
  have hw := s.respond_wire i r s.pipelines
  have hreply := s.respond_reply i r s.pipelines
  rcases h.runs i with h | ⟨pl, hpl, h | ⟨xs, e, h⟩ | ⟨xs, x, e, h⟩⟩
  · exact Or.inl ⟨h.issued, hw, h.entries⟩
  · exact Or.inr ⟨pl, hpl, Or.inl ⟨h.issued, by simp [hw], by rw [hreply]; exact hr, h.entries⟩⟩
  · refine Or.inr ⟨pl, hpl, Or.inr (Or.inl ⟨xs, e, h.issued, h.upTo, hw, fun pid _ hp => ?_,
      h.entries, h.resources⟩)⟩
    exact absurd (hreply ▸ hp) (hr pid)
  · exact Or.inr ⟨pl, hpl, Or.inr (Or.inr ⟨xs, x, e, h.issued, h.upTo, by simp [hw],
      by rw [hreply]; exact hr, h.entries, h.resources⟩)⟩

/-- A request on the wire is the creation of the pipeline, or the last one sent. -/
theorem Inv.on_wire {s : Plane ι} (h : F.Inv s) {i : ι} {rpc : Rpc} (hw : s.wire i = some rpc) :
    ∃ pl, (F.builder i).payloads = .ok pl ∧
      (Creating pl s i ∧ rpc = pl.createRpc ∨
        ∃ xs e, Pending pl (F.start i) s i xs rpc e ∧ rpc ∈ pl.followUps e.id (F.start i)) := by
  rcases h.runs i with h | ⟨pl, hpl, h | ⟨xs, e, h⟩ | ⟨xs, x, e, h⟩⟩
  · rw [h.wire] at hw
    cases hw
  · exact ⟨pl, hpl, Or.inl ⟨h, h.wire rpc hw⟩⟩
  · rw [h.wire] at hw
    cases hw
  · obtain rfl := h.wire rpc hw
    exact ⟨pl, hpl, Or.inr ⟨xs, e, h, h.upTo.subset (by simp)⟩⟩

/-- **One move of the server.** -/
theorem responds_of_drift {s s' : Plane ι} (h : F.Inv s) (hd : Plane.Drift s s') :
    ∃ i, Responds F i s s' := by
  cases hd with
  | @creates i rpc pid hw hm hfresh =>
    refine ⟨i, ?_⟩
    -- a `CreatePipeline` on the wire is the first request of its run
    obtain ⟨pl, hpl, ⟨hc, rfl⟩ | ⟨xs, e, hp, hmem⟩⟩ := h.on_wire hw
    · have hentries (j : Option ι) := entries_create (s := s) (i := i) (r := some (.accepted pid))
        (e := ⟨pid, some i, []⟩) j
      -- others, pipelines of others, fresh ids, the stage of the run, what it relies on
      refine ⟨fun j hj => ⟨Function.update_of_ne hj _ _, Function.update_of_ne hj _ _⟩,
        fun j hj => ?_, rfl, rfl, ?_, ?_, ?_⟩
      · rw [hentries, if_neg (Ne.symm hj), List.append_nil]
      · change ((s.pipelines ++ [_]).map Entry.id).Nodup
        rw [List.map_append, List.nodup_append]
        refine ⟨h.ids, by simp, fun a ha b hb => ?_⟩
        obtain ⟨e, he, rfl⟩ := List.mem_map.mp ha
        obtain rfl : b = pid := by simpa using hb
        exact hfresh e he
      · refine Or.inr ⟨pl, hpl, Or.inr (Or.inl ⟨[], ⟨pid, some i, []⟩, hc.issued,
          List.nil_prefix, Plane.respond_wire _ _ _ _, fun pid' _ hp => ?_, ?_, rfl⟩)⟩
        · rw [s.respond_reply] at hp
          simpa using hp.symm
        · rw [hentries, if_pos rfl, hc.entries, List.nil_append]
      · refine ⟨fun _ _ hm => hm, rfl, fun _ => Plane.respond_wire _ _ _ _, fun hn => ?_,
          fun pid' hp => ?_⟩
        · rw [hn] at hw
          cases hw
        · rw [hc.entries] at hp
          cases hp
    · -- nothing that follows creates a pipeline
      exact absurd hm (followUps_method hmem)
  | @attaches i rpc pid hw hm ht he =>
    refine ⟨i, ?_⟩
    obtain ⟨pl, hpl, ⟨hc, rfl⟩ | ⟨xs, e, hp, hmem⟩⟩ := h.on_wire hw
    · cases hm
    · -- the pipeline the request names is the one of the run
      obtain rfl : pid = e.id :=
        Option.some.inj (ht.symm.trans (Payloads.target_of_mem_followUps hmem))
      have hentries (j : Option ι) :=
        entries_attached h.ids hp.entries (some (.accepted e.id)) rpc j
      refine ⟨fun j hj => ⟨Function.update_of_ne hj _ _, Function.update_of_ne hj _ _⟩,
        fun j hj => ?_, rfl, rfl, ?_, ?_, ?_⟩
      · rw [hentries, if_neg hj]
      · change ((s.attached i rpc e.id).map Entry.id).Nodup
        rw [attached_ids]
        exact h.ids
      · refine Or.inr ⟨pl, hpl, Or.inr (Or.inl ⟨xs ++ [rpc], e.attach i rpc, hp.issued, hp.upTo,
          Plane.respond_wire _ _ _ _, fun _ hnil => by simp at hnil, ?_, ?_⟩)⟩
        · rw [hentries, if_pos rfl]
        · rw [resourcesOf_append, hm, if_pos rfl, ← hp.resources]
          rfl
      · refine ⟨fun _ _ hm => hm, rfl, fun _ => Plane.respond_wire _ _ _ _, fun hn => ?_,
          fun pid' hp' => ?_⟩
        · rw [hn] at hw
          cases hw
        · rw [hentries, if_pos rfl]
          rw [hp.entries] at hp'
          exact hp'
  | @accepts i rpc pid hw hm hr =>
    refine ⟨i, responds_same h ?_⟩
    -- the start, which changes no pipeline
    obtain ⟨pl, hpl, ⟨hc, rfl⟩ | ⟨xs, e, hp, hmem⟩⟩ := h.on_wire hw
    · exact absurd rfl hm
    · refine Or.inr ⟨pl, hpl, Or.inr (Or.inl ⟨xs ++ [rpc], e, hp.issued, hp.upTo,
        Plane.respond_wire _ _ _ _, fun _ hnil => by simp at hnil, hp.entries, ?_⟩)⟩
      rw [resourcesOf_append, hr, hp.resources]
      simp
  | @rejects i rpc hw => exact ⟨i, responds_same h (onTrack_refused h i (by simp))⟩
  | loses i => exact ⟨i, responds_same h (onTrack_refused h i (by simp))⟩

theorem Inv.drift {s s' : Plane ι} (h : F.Inv s) (hd : Plane.Drift s s') : F.Inv s' := by
  obtain ⟨i, hr⟩ := responds_of_drift h hd
  refine ⟨hr.nodup, (hr.entries none (by simp)).trans h.earlier, fun j => ?_⟩
  -- the stage of the run that was answered changes, and no other
  by_cases hj : j = i
  · subst hj
    exact hr.onTrack
  · obtain ⟨hw, hreply⟩ := hr.others j hj
    exact (h.runs j).congr (by rw [hr.issued]) hw (fun pid hp => hreply ▸ hp)
      (hr.entries _ (by simpa using hj))

theorem rely_of_drift {s s' : Plane ι} (h : F.Inv s) (hd : Plane.Drift s s') (j : ι) :
    Rely j s s' := by
  obtain ⟨i, hr⟩ := responds_of_drift h hd
  by_cases hj : j = i
  · subst hj
    exact hr.rely
  · have hw := (hr.others j hj).1
    have he := hr.entries (some j) (by simpa using hj)
    exact ⟨fun r m hm => hr.heap ▸ hm, by rw [hr.issued], fun hn => hw.trans hn, fun _ => he,
      fun pid hp => he ▸ hp⟩

/-! ### A run acts -/

/-- What an operation of run `i` respects: it writes to its own message objects only, and it
sends and receives for itself. -/
structure Guar (i : ι) (s s' : Plane ι) : Prop where
  heap : ∀ j, j ≠ i → ∀ (r : Ref) m, s.heap[r]? = some (j, m) → s'.heap[r]? = some (j, m)
  issued : ∀ j, j ≠ i → s'.issued j = s.issued j
  wire : ∀ j, j ≠ i → s'.wire j = s.wire j
  reply : ∀ j, j ≠ i → s'.reply j = s.reply j
  pipelines : s'.pipelines = s.pipelines

theorem Guar.entries {i : ι} {s s' : Plane ι} (h : Guar i s s') (j : Option ι) :
    s'.entries j = s.entries j := by
  unfold Plane.entries
  rw [h.pipelines]

theorem Guar.rely {i j : ι} {s s' : Plane ι} (hij : i ≠ j) (h : Guar i s s') : Rely j s s' where
  heap := h.heap j hij.symm
  issued := h.issued j hij.symm
  wire hn := (h.wire j hij.symm).trans hn
  entries _ := h.entries _
  ids pid hp := by
    rw [h.entries]
    exact hp

/-- A run that stays on track keeps everybody on track. -/
theorem Guar.inv {i : ι} {s s' : Plane ι} (hg : Guar i s s') (h : F.Inv s)
    (ht : F.OnTrack s' i) : F.Inv s' where
  ids := hg.pipelines ▸ h.ids
  earlier := (hg.entries none).trans h.earlier
  runs j := by
    -- what the others have sent, received and created is as it was
    by_cases hj : j = i
    · subst hj
      exact ht
    · refine (h.runs j).congr (hg.issued j hj) (hg.wire j hj) (fun pid hp => ?_) (hg.entries _)
      rw [← hg.reply j hj]
      exact hp

/-- The terms on which submissions run together. -/
def contract (F : Submissions ι) : Contract (planeWorld ι) where
  inv := F.Inv
  rely := Rely
  guar := Guar
  rely_refl := Rely.refl
  rely_trans := Rely.trans
  compat hij _ _ hg := hg.rely hij
  drift_inv h hd := h.drift hd
  drift_rely h hd := rely_of_drift h hd _

end Submissions

end Conduit
