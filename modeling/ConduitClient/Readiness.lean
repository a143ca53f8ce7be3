import ConduitClient.Construction

/-!
# Who answered the readiness probe

The constructor returns when something at the address of its channel has answered `GetInfo`.
As long as the channel is open, no other process that serves the API may hold its port
(`HostState.Undisturbed`); then it was the subprocess that answered (`ready_is_own`).

The port is not held between `_free_port` and the moment the subprocess binds it. A process
that takes it in between and serves the API is the one the client ends up with
(`ready_is_other`).
-/

namespace Conduit

open Effect

namespace HostState

/-- While the channel is open, its port is not held by another process that serves. -/
def Undisturbed (s : HostState) : Prop :=
  s.channelOpen = true → ∀ port pid, s.target = some (address port) →
    s.bound port ≠ some (.other pid true)

/-- The subprocess is all the client has ever had to do with. -/
structure Own (s : HostState) : Prop where
  connected : ∀ p, s.connected = some p → p = .engine
  reply : ∀ p, s.reply = some p → p = .engine
  answeredBy : ∀ p, s.answeredBy = some p → p = .engine
  undisturbed : s.Undisturbed

/-- An operation connects to nobody, and an answer that is received was there. -/
theorem answer_link {s s' : HostState} {o : HostOp} {a : HostAns o} (h : answer s o a s') :
    (s'.connected = s.connected ∨ s'.connected = none) ∧
      (s'.reply = s.reply ∨ s'.reply = none) ∧
      (s'.answeredBy = s.answeredBy ∨ s'.answeredBy = s.reply) := by
  cases h.change with
  | receives hp => simp [hp]
  | @sets attr b => cases attr <;> cases b <;> simp [setFlag]
  | _ => simp [log, bind]

theorem Own.answer {s s' : HostState} {o : HostOp} {a : HostAns o} (h : s.Own)
    (ha : answer s o a s') (hu : s'.Undisturbed) : s'.Own := by
  obtain ⟨hc, hr, hb⟩ := answer_link ha
  refine ⟨fun p hp => ?_, fun p hp => ?_, fun p hp => ?_, hu⟩
  · rcases hc with he | he
    · exact h.connected p (he ▸ hp)
    · rw [he] at hp
      cases hp
  · rcases hr with he | he
    · exact h.reply p (he ▸ hp)
    · rw [he] at hp
      cases hp
  · rcases hb with he | he
    · exact h.answeredBy p (he ▸ hp)
    · exact h.reply p (he ▸ hp)

/-- Who serves at an undisturbed address is the subprocess. -/
theorem Undisturbed.engine {s : HostState} (h : s.Undisturbed) (hopen : s.channelOpen = true)
    {port : Nat} (ht : s.target = some (address port)) {p : Proc} (hb : s.bound port = some p)
    (hs : p.serves = true) : p = .engine := by
  cases p with
  | library => cases hs
  | engine => rfl
  | other pid serves =>
    obtain rfl : serves = true := hs
    exact absurd hb (h hopen port pid ht)

theorem Own.drift {s s' : HostState} (h : s.Own) (hd : Drift s s') (hu : s'.Undisturbed) :
    s'.Own := by
  refine ⟨?_, ?_, ?_, hu⟩
  · cases hd with
    | connects hopen ht hb hs =>
      intro p hp
      obtain rfl := Option.some.inj hp
      exact h.undisturbed.engine hopen ht hb hs
    | disconnects => exact fun p hp => by cases hp
    | _ => exact h.connected
  · cases hd with
    | answers hpending hc hlive =>
      intro p hp
      obtain rfl := Option.some.inj hp
      exact h.connected _ hc
    | _ => exact h.reply
  · rw [hd.answeredBy]
    exact h.answeredBy

end HostState

open HostState

/-- The world, as long as nobody disturbs the port of the channel. -/
def undisturbedWorld : World Host Unit HostState :=
  hostWorld.under (fun _ _ _ s' => s'.Undisturbed) fun _ s' => s'.Undisturbed

/-- The client has to do with the subprocess only. -/
def ownership : Contract undisturbedWorld :=
  .solo undisturbedWorld Own fun _ _ h hd => h.drift hd.1 hd.2

/-- The probe was answered, at this address. -/
def Answered (addr : String) (s : HostState) : Prop :=
  s.target = some addr ∧ s.answeredBy ≠ none

/-- An operation that does not open a channel leaves its address. -/
theorem target_of_answer {s s' : HostState} {o : HostOp} {a : HostAns o}
    (h : HostState.answer s o a s') (ho : ∀ addr, o ≠ .openChannel addr) :
    s'.target = s.target := by
  cases h.change with
  | @opens addr he => exact absurd he (ho addr)
  | @sets attr b => cases attr <;> cases b <;> rfl
  | _ => rfl

/-- Along the constructor: nothing, then the address of the channel, then the answer. -/
theorem ownership_startup (addr : String) :
    Startup ownership addr (fun _ => True) (fun s => s.target = some addr) (Answered addr) where
  any s o a s' (hI : s.Own) ha := ⟨hI.answer ha.1 ha.2, trivial⟩
  stableA := .const True
  stableB := .solo fun _ _ _ hd ht => hd.1.target ▸ ht
  stableR := .solo fun _ _ _ hd h => ⟨hd.1.target ▸ h.1, hd.1.answeredBy ▸ h.2⟩
  keepsA _ _ _ _ _ _ _ _ := trivial
  opens s a s' _ _ ha := by
    obtain rfl : s' = _ := ha.1
    rfl
  keepsB s o a s' _ _ hne ht ha := (target_of_answer ha.1 hne).trans ht
  ready s resp s' _ ht ha := by
    obtain ⟨p, -, rfl⟩ := ha.1
    exact ⟨ht, by simp⟩

variable {rt : Runtime} {stateDir : String} {version binary : Option String} {timeout : ℚ}
  {n : Nat}

/-- **The subprocess answered.** In every execution in which no other process that serves the
API is bound to the port of the channel while that is open, a constructor that returns was
answered by the subprocess it spawned. -/
theorem ready_is_own {s s' : HostState} {engine : LocalConduit} (h : s.Before)
    (he : Ends undisturbedWorld (LocalConduit.init rt stateDir version binary timeout n) s
      (.ok (some engine)) s') :
    s'.target = some (address engine.grpcPort) ∧ s'.answeredBy = some .engine := by
  have hown : s.Own := by
    refine ⟨?_, ?_, ?_, ?_⟩
    · simp [h.connected]
    · simp [h.reply]
    · simp [h.answeredBy]
    · intro hopen
      rw [h.channelOpen] at hopen
      cases hopen
  obtain ⟨hown', hready⟩ := (Startup.init ownership_startup).ends hown trivial he
  obtain ⟨-, ht, hne⟩ := hready engine rfl
  obtain ⟨p, hp⟩ := Option.ne_none_iff_exists'.mp hne
  rw [hown'.answeredBy p hp] at hp
  exact ⟨ht, hp⟩

/-! ### The subprocess is first, and another process is first -/

/-- The subprocess takes its port in time. -/
def engineFirst : Scenario := ⟨.engine, true⟩

/-- No other process is bound to a port. -/
def Alone (s : HostState) : Prop := ∀ port pid serves, s.bound port ≠ some (.other pid serves)

theorem engineFirst_closed : engineFirst.Closed Alone where
  same s s' h _ hs := by
    unfold Alone
    rw [h]
    exact hs
  bind s port p hp hs port' pid serves := by
    by_cases he : port' = port
    · subst he
      rw [bind_bound, Function.update_self]
      rcases hp with rfl | rfl | rfl <;> simp [engineFirst]
    · rw [bind_bound, Function.update_of_ne he]
      exact hs port' pid serves
  exit s code hs port pid serves := by
    simp only [exit]
    split
    · simp
    · exact hs port pid serves

/-- On a quiet host the constructor returns, and the subprocess answered. -/
theorem ready_is_own_quickStart :
    ∃ engine s', Ends undisturbedWorld quickStart idleHost (.ok (some engine)) s' ∧
      s'.target = some (address engine.grpcPort) ∧ s'.answeredBy = some .engine := by
  have hends := engineFirst.ends rfl engineFirst_closed
    (A := fun _ _ _ s' => s'.Undisturbed) (D := fun _ s' => s'.Undisturbed)
    (fun _ _ _ ht _ port pid _ => ht port pid true) (fun _ _ ht _ port pid _ => ht port pid true)
    quickStart (s := idleHost) (fun _ _ _ => by simp [idleHost])
  have hok : engineFirst.outcome.isSome := by decide +kernel
  obtain ⟨engine, hengine⟩ := Option.isSome_iff_exists.mp hok
  rw [Scenario.returned hengine] at hends
  exact ⟨engine, _, hends, ready_is_own idleHost_before hends⟩

/-- Another process takes the port first, and serves the API. -/
def intruder : Scenario := ⟨.other 0 true, true⟩

/-- The constructor returns although another process answered: the subprocess runs, and does
not hold its port. -/
theorem ready_is_other :
    idleHost.Before ∧ ∃ engine s', Ends hostWorld quickStart idleHost (.ok (some engine)) s' ∧
      s'.target = some (address engine.grpcPort) ∧ s'.answeredBy = some (.other 0 true) ∧
      s'.engine = .running := by
  have hrun : intruder.outcome.map LocalConduit.grpcPort = some 40000 ∧
      intruder.started.target = some (address 40000) ∧
      intruder.started.answeredBy = some (.other 0 true) ∧
      intruder.started.engine = .running := by
    decide +kernel
  obtain ⟨hok, htarget, hanswered, hengine⟩ := hrun
  obtain ⟨engine, hsome, hport⟩ := Option.map_eq_some_iff.mp hok
  exact ⟨idleHost_before, engine, _, intruder.quickStart_ends rfl hsome, hport ▸ htarget,
    hanswered, hengine⟩

end Conduit
