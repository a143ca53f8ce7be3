import ConduitClient.Submission

/-!
# What a builder builds

`build_requests` in terms of the calls made on the builder. `Representable` is the condition
under which it returns: the protobuf constructors take every number and every key that is
sent. `Describes` says what the payloads are then, call by call: every connector and processor
call has its request, in call order, and the last `dlq` call has the only one of its kind.

The plan holds references to message objects. `BuildPlan.Holds` reads them off a heap, and
`build_requests_spec` says that a plan holds the payloads which its calls describe, that the
next plan of the same builder holds the same ones in objects of its own, and that the builder
depends on nothing but the calls that count.
-/

namespace Conduit

open Effect

/-! ### Settings -/

/-- The settings a call was given are keyed by strings. -/
def StringKeys (settings : Option (Py.Dict Key Value)) : Prop :=
  ∀ k ∈ (settings.getD .empty).keys, ∃ name, k = .str name

/-- The settings on the wire are those of a call: `kwargs` over `settings`, rendered. -/
structure Carries (settings : Option (Py.Dict Key Value)) (kwargs : Py.Dict String Value)
    (wire : Settings) : Prop where
  keys : ∀ name, name ∈ wire.keys ↔
    .str name ∈ (settings.getD .empty).keys ∨ name ∈ kwargs.keys
  ofKwargs : ∀ name v, kwargs.get? name = some v → wire.get? name = some v.render
  ofSettings : ∀ name v, kwargs.get? name = none →
    (settings.getD .empty).get? (.str name) = some v → wire.get? name = some v.render

theorem stringKeys_none : StringKeys none := fun _ hk => absurd hk List.not_mem_nil

section Settings

variable {settings : Option (Py.Dict Key Value)} {kwargs : Py.Dict String Value}

theorem Key.str_injective : Function.Injective Key.str := fun _ _ h => Key.str.inj h

/-- A key that is not a string is not one of `kwargs`. -/
theorem lookup_other (kwargs : Py.Dict String Value) (tag : ℕ) :
    (kwargs.entries.map fun e => (Key.str e.1, e.2)).lookup (.other tag) = none := by
  refine Py.Dict.lookup_eq_none fun hmem => ?_
  simp at hmem

theorem kwargs_nodup (kwargs : Py.Dict String Value) :
    ((kwargs.entries.map fun e => (Key.str e.1, e.2)).map Prod.fst).Nodup := by
  have hkeys : (kwargs.entries.map fun e => (Key.str e.1, e.2)).map Prod.fst =
      (kwargs.entries.map Prod.fst).map Key.str := by
    simp [List.map_map, Function.comp_def]
  rw [hkeys]
  exact kwargs.nodup.map Key.str_injective

/-- A string key of the merged settings. -/
theorem get?_mergeSettings_str (name : String) :
    (mergeSettings settings kwargs).get? (.str name) =
      ((kwargs.get? name).or ((settings.getD .empty).get? (.str name))).map Value.render := by
  rw [mergeSettings, Py.Dict.get?_mapValues, Py.Dict.get?_update _ (kwargs_nodup kwargs),
    Py.Dict.lookup_map_keys Key.str_injective]
  rfl

/-- Any other key comes from `settings`. -/
theorem get?_mergeSettings_other (tag : ℕ) :
    (mergeSettings settings kwargs).get? (.other tag) =
      ((settings.getD .empty).get? (.other tag)).map Value.render := by
  rw [mergeSettings, Py.Dict.get?_mapValues, Py.Dict.get?_update _ (kwargs_nodup kwargs),
    lookup_other]
  rfl

/-- The merged settings are keyed by strings when `settings` is. -/
theorem stringKeys_mergeSettings :
    (∀ k ∈ (mergeSettings settings kwargs).keys, ∃ name, k = .str name) ↔
      StringKeys settings := by
  -- a key that is not a string survives the merge, and none is added
  have hother (d : Py.Dict Key Value) (d' : Py.Dict Key String)
      (h : ∀ tag, d'.get? (.other tag) = (d.get? (.other tag)).map Value.render) (tag : ℕ) :
      .other tag ∈ d'.keys ↔ .other tag ∈ d.keys := by
    rw [Py.Dict.mem_keys_iff, Py.Dict.mem_keys_iff, h, Option.isSome_map]
  have hsame := hother _ (mergeSettings settings kwargs) fun tag => get?_mergeSettings_other tag
  constructor
  · intro h k hk
    cases k with
    | str name => exact ⟨name, rfl⟩
    | other tag => exact h _ ((hsame tag).mpr hk)
  · intro h k hk
    cases k with
    | str name => exact ⟨name, rfl⟩
    | other tag => exact h _ ((hsame tag).mp hk)

/-- A fold that inserts string keys and raises at any other. -/
theorem foldlM_insert {f : Settings → Key × String → Except Exn Settings}
    (hstr : ∀ acc name v, f acc (.str name, v) = .ok (acc.insert name v))
    (hother : ∀ acc tag v, ∃ e, f acc (.other tag, v) = .error e) {es : List (Key × String)}
    (hnodup : (es.map Prod.fst).Nodup) (acc : Settings) :
    ((∀ k ∈ es.map Prod.fst, ∃ name, k = .str name) →
        ∃ wire, es.foldlM f acc = .ok wire ∧
          ∀ name, wire.get? name = (es.lookup (.str name)).or (acc.get? name)) ∧
      ((∃ tag, .other tag ∈ es.map Prod.fst) → ∃ e, es.foldlM f acc = .error e) := by
  -- induction on the entries; the settings read so far are the accumulator
  induction es generalizing acc with
  | nil => exact ⟨fun _ => ⟨acc, rfl, fun _ => rfl⟩, fun ⟨_, hmem⟩ => absurd hmem List.not_mem_nil⟩
  | cons entry es ih =>
    obtain ⟨k, v⟩ := entry
    rw [List.map_cons, List.nodup_cons] at hnodup
    rw [List.foldlM_cons]
    cases k with
    | str name =>
      obtain ⟨hok, herror⟩ := ih hnodup.2 (acc.insert name v)
      rw [hstr]
      constructor
      · intro hall
        obtain ⟨wire, hfold, hget⟩ := hok fun k hk => hall k (List.mem_cons_of_mem _ hk)
        refine ⟨wire, hfold, fun other => ?_⟩
        rw [hget, Py.Dict.get?_insert]
        -- the key is new below, because the keys of a `dict` are distinct
        by_cases hname : other = name
        · subst hname
          simp [Py.Dict.lookup_eq_none hnodup.1]
        · rw [if_neg hname, Py.Dict.lookup_of_ne (fun h => hname (Key.str_injective h))]
      · rintro ⟨tag, hmem⟩
        exact herror ⟨tag, (List.mem_cons.mp hmem).resolve_left (by simp)⟩
    | other tag =>
      obtain ⟨e, he⟩ := hother acc tag v
      rw [he]
      -- the first such key ends the loop
      refine ⟨fun hall => ?_, fun _ => ⟨e, rfl⟩⟩
      obtain ⟨name, hname⟩ := hall (.other tag) List.mem_cons_self
      cases hname

/-- A map field takes a `dict` with string keys, and has its entries. -/
theorem toSettings_spec (d : Py.Dict Key String) :
    ((∃ wire, toSettings d = .ok wire) ↔ ∀ k ∈ d.keys, ∃ name, k = .str name) ∧
      ∀ wire, toSettings d = .ok wire → ∀ name, wire.get? name = d.get? (.str name) := by
  obtain ⟨f, hf, hstr, hother⟩ : ∃ f : Settings → Key × String → Except Exn Settings,
      toSettings d = d.entries.foldlM f .empty ∧
        (∀ acc name v, f acc (.str name, v) = .ok (acc.insert name v)) ∧
        ∀ acc tag v, ∃ e, f acc (.other tag, v) = .error e :=
    ⟨_, rfl, fun _ _ _ => rfl, fun _ _ _ => ⟨_, rfl⟩⟩
  rw [hf]
  obtain ⟨hok, herror⟩ := foldlM_insert hstr hother d.nodup .empty
  -- where the loop came to its end, no key stopped it
  have hkeys (wire : Settings) (hwire : d.entries.foldlM f .empty = .ok wire) (k : Key)
      (hk : k ∈ d.keys) : ∃ name, k = .str name := by
    cases k with
    | str name => exact ⟨name, rfl⟩
    | other tag =>
      obtain ⟨e, he⟩ := herror ⟨tag, hk⟩
      exact absurd (he.symm.trans hwire) (by simp)
  refine ⟨⟨fun ⟨wire, hwire⟩ => hkeys wire hwire, fun hall => ?_⟩, fun wire hwire name => ?_⟩
  · obtain ⟨wire, hwire, -⟩ := hok hall
    exact ⟨wire, hwire⟩
  · obtain ⟨wire', hwire', hget⟩ := hok (hkeys wire hwire)
    have hsame : wire' = wire := Except.ok.inj (hwire'.symm.trans hwire)
    rw [← hsame, hget, Py.Dict.get?_empty, Option.or_none]
    rfl

/-- What is sent are the settings of the call. -/
theorem carries_of_toSettings {wire : Settings}
    (h : toSettings (mergeSettings settings kwargs) = .ok wire) :
    Carries settings kwargs wire := by
  -- one equation says it all: `kwargs` first, then `settings`, rendered
  have hget (name : String) : wire.get? name =
      ((kwargs.get? name).or ((settings.getD .empty).get? (.str name))).map Value.render := by
    rw [(toSettings_spec _).2 wire h, get?_mergeSettings_str]
  refine ⟨fun name => ?_, fun name v hv => ?_, fun name v hnone hv => ?_⟩
  · rw [Py.Dict.mem_keys_iff, Py.Dict.mem_keys_iff, Py.Dict.mem_keys_iff, hget,
      Option.isSome_map, Option.isSome_or, Bool.or_eq_true, or_comm]
  · rw [hget, hv]
    rfl
  · rw [hget, hnone, hv]
    rfl

end Settings

/-! ### Numbers -/

theorem toInt32_ok_iff {n : ℤ} : (∃ w, toInt32 n = .ok w) ↔ -2 ^ 31 ≤ n ∧ n < 2 ^ 31 := by
  unfold toInt32
  split
  · next h => exact ⟨fun _ => h, fun _ => ⟨_, rfl⟩⟩
  · next h => exact ⟨fun ⟨_, hw⟩ => (by cases hw), fun hn => absurd hn h⟩

theorem toInt_of_toInt32 {n : ℤ} {w : Int32} (h : toInt32 n = .ok w) : w.toInt = n := by
  obtain ⟨hlow, hhigh⟩ := toInt32_ok_iff.mp ⟨w, h⟩
  unfold toInt32 at h
  rw [if_pos ⟨hlow, hhigh⟩] at h
  rw [← Except.ok.inj h]
  exact Int32.toInt_ofInt_of_le hlow hhigh

theorem toUInt64_ok_iff {n : ℤ} : (∃ w, toUInt64 n = .ok w) ↔ 0 ≤ n ∧ n < 2 ^ 64 := by
  unfold toUInt64
  split
  · next h => exact ⟨fun _ => h, fun _ => ⟨_, rfl⟩⟩
  · next h => exact ⟨fun ⟨_, hw⟩ => (by cases hw), fun hn => absurd hn h⟩

theorem toNat_of_toUInt64 {n : ℤ} {w : UInt64} (h : toUInt64 n = .ok w) : (w.toNat : ℤ) = n := by
  obtain ⟨hlow, hhigh⟩ := toUInt64_ok_iff.mp ⟨w, h⟩
  unfold toUInt64 at h
  rw [if_pos ⟨hlow, hhigh⟩] at h
  have hsize : n.toNat < UInt64.size := by
    have hlt : n.toNat < 2 ^ 64 := by omega
    exact hlt
  rw [← Except.ok.inj h, UInt64.toNat_ofNat_of_lt' hsize]
  exact Int.toNat_of_nonneg hlow

/-! ### Requests -/

/-- The keys of a map field are strings. -/
def StringKeyed (d : Py.Dict Key String) : Prop := ∀ k ∈ d.keys, ∃ name, k = .str name

/-- A connector's settings are keyed by strings. -/
def ConnectorSpec.Fits (c : ConnectorSpec) : Prop := StringKeyed c.settings

/-- A processor's settings are keyed by strings, and its workers are an `int32`. -/
def ProcessorSpec.Fits (p : ProcessorSpec) : Prop :=
  StringKeyed p.settings ∧ ∀ n ∈ p.workers, -2 ^ 31 ≤ n ∧ n < 2 ^ 31

/-- A dead-letter queue's settings are keyed by strings, and its window is of two `uint64`. -/
def DLQSpec.Fits (d : DLQSpec) : Prop :=
  StringKeyed d.settings ∧ (∀ n ∈ d.windowSize, 0 ≤ n ∧ n < 2 ^ 64) ∧
    ∀ n ∈ d.windowNackThreshold, 0 ≤ n ∧ n < 2 ^ 64

/-- A connector request made of the arguments of a call. -/
structure ConnectorOf (type : ConnectorType) (plugin name : String)
    (settings : Option (Py.Dict Key Value)) (kwargs : Py.Dict String Value)
    (m : CreateConnectorRequest) : Prop where
  type : m.type = type
  name : m.name = if name = "" then plugin else name
  plugin : m.plugin = plugin
  settings : Carries settings kwargs m.settings
  pipelineId : m.pipelineId = ""

/-- A processor request made of the arguments of a call. -/
structure ProcessorOf (plugin condition : String) (workers : Option ℤ)
    (settings : Option (Py.Dict Key Value)) (kwargs : Py.Dict String Value)
    (m : CreateProcessorRequest) : Prop where
  plugin : m.plugin = plugin
  condition : m.condition = condition
  workers : m.workers.toInt = workers.getD 0
  settings : Carries settings kwargs m.settings
  parentType : m.parentType = .unspecified
  parentId : m.parentId = ""

/-- A dead-letter queue request made of the arguments of a call. -/
structure DLQOf (plugin : String) (windowSize windowNackThreshold : Option ℤ)
    (settings : Option (Py.Dict Key Value)) (kwargs : Py.Dict String Value)
    (m : UpdateDLQRequest) : Prop where
  plugin : m.plugin = plugin
  windowSize : (m.windowSize.toNat : ℤ) = windowSize.getD 1
  windowNackThreshold : (m.windowNackThreshold.toNat : ℤ) = windowNackThreshold.getD 0
  settings : Carries settings kwargs m.settings
  id : m.id = ""

namespace BuilderCall

def isConnector : BuilderCall → Bool
  | .source .. | .destination .. => true
  | _ => false

def isProcessor : BuilderCall → Bool
  | .process .. => true
  | _ => false

def isDLQ : BuilderCall → Bool
  | .dlq .. => true
  | _ => false

/-- The request of a `source` or `destination` call. -/
def Connects : BuilderCall → CreateConnectorRequest → Prop
  | .source plugin name settings kwargs, m => ConnectorOf .source plugin name settings kwargs m
  | .destination plugin name settings kwargs, m =>
    ConnectorOf .destination plugin name settings kwargs m
  | _, _ => False

/-- The request of a `process` call. -/
def Processes : BuilderCall → CreateProcessorRequest → Prop
  | .process plugin condition workers settings kwargs, m =>
    ProcessorOf plugin condition workers settings kwargs m
  | _, _ => False

/-- The request of a `dlq` call. -/
def Configures : BuilderCall → UpdateDLQRequest → Prop
  | .dlq plugin windowSize windowNackThreshold settings kwargs, m =>
    DLQOf plugin windowSize windowNackThreshold settings kwargs m
  | _, _ => False

/-- The numbers of a call are in the range of their fields, and its settings are keyed by
strings. -/
def Representable : BuilderCall → Prop
  | .source _ _ settings _ => StringKeys settings
  | .destination _ _ settings _ => StringKeys settings
  | .process _ _ workers settings _ =>
    StringKeys settings ∧ ∀ n ∈ workers, -2 ^ 31 ≤ n ∧ n < 2 ^ 31
  | .dlq _ windowSize windowNackThreshold settings _ =>
    StringKeys settings ∧ (∀ n ∈ windowSize, 0 ≤ n ∧ n < 2 ^ 64) ∧
      ∀ n ∈ windowNackThreshold, 0 ≤ n ∧ n < 2 ^ 64

end BuilderCall

section Requests

variable {type : ConnectorType} {plugin name condition : String} {workers : Option ℤ}
  {windowSize windowNackThreshold : Option ℤ} {settings : Option (Py.Dict Key Value)}
  {kwargs : Py.Dict String Value}

theorem connectorRequest_ok {c : ConnectorSpec} {m : CreateConnectorRequest} :
    c.toRequest = .ok m ↔
      ∃ wire, toSettings c.settings = .ok wire ∧ m = ⟨c.type, c.plugin, c.name, wire, ""⟩ := by
  unfold ConnectorSpec.toRequest
  rw [bind_ok_iff]
  refine exists_congr fun wire => and_congr_right fun _ => ?_
  exact ⟨fun h => (Except.ok.inj h).symm, fun h => h ▸ rfl⟩

theorem processorRequest_ok {p : ProcessorSpec} {m : CreateProcessorRequest} :
    p.toRequest = .ok m ↔
      ∃ wire, toSettings p.settings = .ok wire ∧ ∃ w, p.workers.elim (.ok 0) toInt32 = .ok w ∧
        m = ⟨p.plugin, p.condition, wire, w, .unspecified, ""⟩ := by
  unfold ProcessorSpec.toRequest
  rw [bind_ok_iff]
  refine exists_congr fun wire => and_congr_right fun _ => ?_
  rw [bind_ok_iff]
  refine exists_congr fun w => and_congr_right fun _ => ?_
  exact ⟨fun h => (Except.ok.inj h).symm, fun h => h ▸ rfl⟩

theorem dlqRequest_ok {d : DLQSpec} {m : UpdateDLQRequest} :
    d.toRequest = .ok m ↔
      ∃ wire, toSettings d.settings = .ok wire ∧
        ∃ w, d.windowSize.elim (.ok 0) toUInt64 = .ok w ∧
          ∃ t, d.windowNackThreshold.elim (.ok 0) toUInt64 = .ok t ∧
            m = ⟨d.plugin, wire, w, t, ""⟩ := by
  unfold DLQSpec.toRequest
  rw [bind_ok_iff]
  refine exists_congr fun wire => and_congr_right fun _ => ?_
  rw [bind_ok_iff]
  refine exists_congr fun w => and_congr_right fun _ => ?_
  rw [bind_ok_iff]
  refine exists_congr fun t => and_congr_right fun _ => ?_
  exact ⟨fun h => (Except.ok.inj h).symm, fun h => h ▸ rfl⟩

/-- A field that is only set when it was given can be set to what is in its range. -/
theorem elim_ok_iff {β : Type} (unset : β) {f : ℤ → Except Exn β} {R : ℤ → Prop}
    (hf : ∀ n, (∃ w, f n = .ok w) ↔ R n) (x : Option ℤ) :
    (∃ w, x.elim (.ok unset) f = .ok w) ↔ ∀ n ∈ x, R n := by
  cases x with
  | none => simp
  | some n => simpa using hf n

/-! A request can be built of what fits its fields. -/

theorem ConnectorSpec.fits_iff {c : ConnectorSpec} : (∃ m, c.toRequest = .ok m) ↔ c.Fits := by
  rw [Fits, StringKeyed, ← (toSettings_spec c.settings).1]
  constructor
  · rintro ⟨m, hm⟩
    obtain ⟨wire, hwire, -⟩ := connectorRequest_ok.mp hm
    exact ⟨wire, hwire⟩
  · rintro ⟨wire, hwire⟩
    exact ⟨_, connectorRequest_ok.mpr ⟨wire, hwire, rfl⟩⟩

theorem ProcessorSpec.fits_iff {p : ProcessorSpec} : (∃ m, p.toRequest = .ok m) ↔ p.Fits := by
  rw [Fits, StringKeyed, ← (toSettings_spec p.settings).1,
    ← elim_ok_iff 0 (fun _ => toInt32_ok_iff)]
  constructor
  · rintro ⟨m, hm⟩
    obtain ⟨wire, hwire, w, hw, -⟩ := processorRequest_ok.mp hm
    exact ⟨⟨wire, hwire⟩, w, hw⟩
  · rintro ⟨⟨wire, hwire⟩, w, hw⟩
    exact ⟨_, processorRequest_ok.mpr ⟨wire, hwire, w, hw, rfl⟩⟩

theorem DLQSpec.fits_iff {d : DLQSpec} : (∃ m, d.toRequest = .ok m) ↔ d.Fits := by
  rw [Fits, StringKeyed, ← (toSettings_spec d.settings).1,
    ← elim_ok_iff 0 (fun _ => toUInt64_ok_iff),
    ← elim_ok_iff 0 (fun _ => toUInt64_ok_iff)]
  constructor
  · rintro ⟨m, hm⟩
    obtain ⟨wire, hwire, w, hw, t, ht, -⟩ := dlqRequest_ok.mp hm
    exact ⟨⟨wire, hwire⟩, ⟨w, hw⟩, t, ht⟩
  · rintro ⟨⟨wire, hwire⟩, ⟨w, hw⟩, t, ht⟩
    exact ⟨_, dlqRequest_ok.mpr ⟨wire, hwire, w, hw, t, ht, rfl⟩⟩

/-- A connector call can be sent when it is representable, and then its request is sent. -/
theorem connector_request {c : BuilderCall} {spec : ConnectorSpec}
    (h : c.connector? = some spec) :
    ((∃ m, spec.toRequest = .ok m) ↔ c.Representable) ∧
      ∀ m, spec.toRequest = .ok m → c.Connects m := by
  -- the two kinds of connectors differ in their type only
  have hboth (type : ConnectorType) (plugin name : String)
      (settings : Option (Py.Dict Key Value)) (kwargs : Py.Dict String Value) :
      ((∃ m, ConnectorSpec.toRequest
          ⟨type, plugin, strOr name plugin, mergeSettings settings kwargs⟩ = .ok m) ↔
        StringKeys settings) ∧
      ∀ m, ConnectorSpec.toRequest
          ⟨type, plugin, strOr name plugin, mergeSettings settings kwargs⟩ = .ok m →
        ConnectorOf type plugin name settings kwargs m := by
    refine ⟨ConnectorSpec.fits_iff.trans stringKeys_mergeSettings, fun m hm => ?_⟩
    obtain ⟨wire, hwire, rfl⟩ := connectorRequest_ok.mp hm
    exact ⟨rfl, rfl, rfl, carries_of_toSettings hwire, rfl⟩
  cases c with
  | source plugin name settings kwargs =>
    cases h
    exact hboth .source plugin name settings kwargs
  | destination plugin name settings kwargs =>
    cases h
    exact hboth .destination plugin name settings kwargs
  | _ => cases h

/-- A processor call can be sent when it is representable, and then its request is sent. -/
theorem processor_request {c : BuilderCall} {spec : ProcessorSpec}
    (h : c.processor? = some spec) :
    ((∃ m, spec.toRequest = .ok m) ↔ c.Representable) ∧
      ∀ m, spec.toRequest = .ok m → c.Processes m := by
  cases c with
  | process plugin condition workers settings kwargs =>
    cases h
    refine ⟨ProcessorSpec.fits_iff.trans (and_congr_left' stringKeys_mergeSettings),
      fun m hm => ?_⟩
    obtain ⟨wire, hwire, w, hw, rfl⟩ := processorRequest_ok.mp hm
    refine ⟨rfl, rfl, ?_, carries_of_toSettings hwire, rfl, rfl⟩
    cases workers with
    | none =>
      -- 0 is what the field reads as when it was not sent
      cases hw
      rfl
    | some n => exact toInt_of_toInt32 hw
  | _ => cases h

/-- A `dlq` call can be sent when it is representable, and then its request is sent. -/
theorem dlq_request {c : BuilderCall} {spec : DLQSpec} (h : c.dlq? = some spec) :
    ((∃ m, spec.toRequest = .ok m) ↔ c.Representable) ∧
      ∀ m, spec.toRequest = .ok m → c.Configures m := by
  cases c with
  | dlq plugin windowSize windowNackThreshold settings kwargs =>
    cases h
    -- the defaults are in range
    have hrange (x : Option ℤ) (default : ℤ) (hd : 0 ≤ default ∧ default < 2 ^ 64) :
        (∀ n ∈ some (x.getD default), 0 ≤ n ∧ n < 2 ^ 64) ↔ ∀ n ∈ x, 0 ≤ n ∧ n < 2 ^ 64 := by
      cases x with
      | none => simpa using hd
      | some n => simp
    refine ⟨DLQSpec.fits_iff.trans (and_congr stringKeys_mergeSettings
      (and_congr (hrange windowSize 1 (by omega)) (hrange windowNackThreshold 0 (by omega)))),
      fun m hm => ?_⟩
    obtain ⟨wire, hwire, w, hw, t, ht, rfl⟩ := dlqRequest_ok.mp hm
    exact ⟨rfl, toNat_of_toUInt64 hw, toNat_of_toUInt64 ht, carries_of_toSettings hwire, rfl⟩
  | _ => cases h

end Requests

/-! ### The calls that count -/

theorem BuilderCall.isConnector_eq (c : BuilderCall) :
    c.isConnector = c.connector?.isSome := by
  cases c <;> rfl

theorem BuilderCall.isProcessor_eq (c : BuilderCall) :
    c.isProcessor = c.processor?.isSome := by
  cases c <;> rfl

theorem BuilderCall.isDLQ_eq (c : BuilderCall) : c.isDLQ = c.dlq?.isSome := by
  cases c <;> rfl

section Filter

variable {α β γ : Type} {f : α → Option β} {p : α → Bool}

theorem exists_of_forall₂ {R : α → β → Prop} {as : List α} {bs : List β}
    (h : List.Forall₂ R as bs) {a : α} (ha : a ∈ as) : ∃ b ∈ bs, R a b := by
  induction h with
  | nil => cases ha
  | cons hab _ ih =>
    rcases List.mem_cons.mp ha with rfl | ha
    · exact ⟨_, List.mem_cons_self, hab⟩
    · obtain ⟨b, hb, hr⟩ := ih ha
      exact ⟨b, List.mem_cons_of_mem _ hb, hr⟩

theorem eq_none_of_rel {R : α → β → Prop} {a : Option α} {b : Option β}
    (h : Option.Rel R a b) : a = none ↔ b = none := by
  cases h with
  | some _ => simp
  | none => simp

/-- What is related to the images of a list is related to the elements that have one. -/
theorem forall₂_filter {R : β → γ → Prop} {Q : α → γ → Prop} (hp : ∀ a, p a = (f a).isSome)
    (hQ : ∀ a b c, f a = some b → R b c → Q a c) {as : List α} {cs : List γ}
    (h : List.Forall₂ R (as.filterMap f) cs) : List.Forall₂ Q (as.filter p) cs := by
  -- induction on the elements; those without an image are dropped on both sides
  induction as generalizing cs with
  | nil =>
    cases h
    exact .nil
  | cons a as ih =>
    cases hf : f a with
    | none =>
      rw [List.filterMap_cons_none hf] at h
      rw [List.filter_cons_of_neg (by simp [hp, hf])]
      exact ih h
    | some b =>
      rw [List.filterMap_cons_some hf] at h
      rw [List.filter_cons_of_pos (by simp [hp, hf])]
      cases h with
      | cons hb hrest => exact .cons (hQ a b _ hf hb) (ih hrest)

theorem filterMap_filter (hp : ∀ a, p a = (f a).isSome) (as : List α) :
    (as.filter p).filterMap f = as.filterMap f := by
  induction as with
  | nil => rfl
  | cons a as ih =>
    cases hf : f a with
    | none =>
      rw [List.filter_cons_of_neg (by simp [hp, hf]), List.filterMap_cons_none hf, ih]
    | some b =>
      rw [List.filter_cons_of_pos (by simp [hp, hf]), List.filterMap_cons_some hf,
        List.filterMap_cons_some hf, ih]

/-- The last image is the image of the last element that has one. -/
theorem getLast?_filterMap (hp : ∀ a, p a = (f a).isSome) (as : List α) :
    (as.filterMap f).getLast? = (as.filter p).getLast?.bind f := by
  -- the last one is the first one from the end
  rw [List.getLast?_filterMap, List.getLast?_filter]
  induction as.reverse with
  | nil => rfl
  | cons a as ih =>
    cases hf : f a with
    | none =>
      rw [List.findSome?_cons, hf, List.find?_cons_of_neg (by simp [hp, hf])]
      exact ih
    | some b =>
      rw [List.findSome?_cons, hf, List.find?_cons_of_pos (by simp [hp, hf])]
      exact hf.symm

end Filter

/-! ### The payloads of a builder -/

/-- All calls that count are representable. -/
def AllRepresentable (cs : List BuilderCall) : Prop :=
  (∀ c ∈ cs, c.isDLQ = false → c.Representable) ∧
    ∀ c ∈ (cs.filter BuilderCall.isDLQ).getLast?, c.Representable

/-- The payloads are the requests of the calls. -/
structure Describes (cs : List BuilderCall) (pl : Payloads) : Prop where
  connectors :
    List.Forall₂ BuilderCall.Connects (cs.filter BuilderCall.isConnector) pl.connectors
  processors :
    List.Forall₂ BuilderCall.Processes (cs.filter BuilderCall.isProcessor) pl.processors
  dlq : Option.Rel BuilderCall.Configures (cs.filter BuilderCall.isDLQ).getLast? pl.dlq
  noDLQ : pl.dlq = none ↔ ∀ c ∈ cs, c.isDLQ = false

section Payloads

variable {id : String} {name : Option String} {description : String} {cs : List BuilderCall}

/-- What is declared last is declared by the last `dlq` call. -/
theorem getLast?_dlq : (cs.filterMap BuilderCall.dlq?).getLast? =
    (cs.filter BuilderCall.isDLQ).getLast?.bind BuilderCall.dlq? :=
  getLast?_filterMap BuilderCall.isDLQ_eq cs

/-- A `dlq` call declares a queue. -/
theorem dlq?_of_getLast? {c : BuilderCall}
    (h : (cs.filter BuilderCall.isDLQ).getLast? = some c) : ∃ spec, c.dlq? = some spec := by
  have hkind : c.isDLQ = true := List.of_mem_filter (List.mem_of_getLast? h)
  rw [BuilderCall.isDLQ_eq] at hkind
  exact Option.isSome_iff_exists.mp hkind

/-- The builder after a chain of calls. -/
def built (id : String) (name : Option String) (description : String) (cs : List BuilderCall) :
    Pipeline :=
  (Pipeline.init id name description).calls cs

theorem built_connectors :
    (built id name description cs).connectors = cs.filterMap BuilderCall.connector? :=
  Pipeline.calls_connectors _ cs

theorem built_processors :
    (built id name description cs).processors = cs.filterMap BuilderCall.processor? :=
  Pipeline.calls_processors _ cs

theorem built_dlq :
    (built id name description cs).dlq =
      (cs.filter BuilderCall.isDLQ).getLast?.bind BuilderCall.dlq? := by
  rw [built, Pipeline.calls_dlq, getLast?_dlq]
  exact Option.or_none

/-- Calls whose payloads were built are representable. -/
theorem Declares.representable {pl : Payloads} (h : Declares id name description cs pl) :
    AllRepresentable cs := by
  refine ⟨fun c hmem hno => ?_, fun c hlast => ?_⟩
  · -- every call but a `dlq` call has its request in the plan
    cases hcon : c.connector? with
    | some spec =>
      have hspec : spec ∈ cs.filterMap BuilderCall.connector? :=
        List.mem_filterMap.mpr ⟨c, hmem, hcon⟩
      obtain ⟨m, -, hm⟩ := exists_of_forall₂ h.connectors hspec
      exact (connector_request hcon).1.mp ⟨m, hm⟩
    | none =>
      cases hproc : c.processor? with
      | some spec =>
        have hspec : spec ∈ cs.filterMap BuilderCall.processor? :=
          List.mem_filterMap.mpr ⟨c, hmem, hproc⟩
        obtain ⟨m, -, hm⟩ := exists_of_forall₂ h.processors hspec
        exact (processor_request hproc).1.mp ⟨m, hm⟩
      | none =>
        -- a call that declares neither is a `dlq` call
        cases c with
        | source => cases hcon
        | destination => cases hcon
        | process => cases hproc
        | dlq => cases hno
  · obtain ⟨spec, hspec⟩ := dlq?_of_getLast? hlast
    have hdlq := h.dlq
    rw [getLast?_dlq, hlast, Option.bind_some, hspec] at hdlq
    obtain ⟨m, -, hm⟩ := exists_of_forall₂ hdlq List.mem_cons_self
    exact (dlq_request hspec).1.mp ⟨m, hm⟩

/-- Representable calls make payloads that can be built. -/
theorem payloads_of_representable (id : String) (name : Option String) (description : String)
    (h : AllRepresentable cs) :
    ∃ pl, (built id name description cs).payloads = .ok pl := by
  cases hpl : (built id name description cs).payloads with
  | ok pl => exact ⟨pl, rfl⟩
  | error e =>
    exfalso
    -- whichever constructor raised was given a representable call
    rcases Pipeline.payloads_error hpl with hraise | ⟨-, -, hraise | ⟨-, spec, -, hsome, hraise⟩⟩
    · rw [built_connectors] at hraise
      obtain ⟨spec, hmem, hspec⟩ := mapM_error hraise
      obtain ⟨c, hc, hcon⟩ := List.mem_filterMap.mp hmem
      have hno : c.isDLQ = false := by cases c <;> first | rfl | cases hcon
      obtain ⟨m, hm⟩ := (connector_request hcon).1.mpr (h.1 c hc hno)
      rw [hspec] at hm
      cases hm
    · rw [built_processors] at hraise
      obtain ⟨spec, hmem, hspec⟩ := mapM_error hraise
      obtain ⟨c, hc, hproc⟩ := List.mem_filterMap.mp hmem
      have hno : c.isDLQ = false := by cases c <;> first | rfl | cases hproc
      obtain ⟨m, hm⟩ := (processor_request hproc).1.mpr (h.1 c hc hno)
      rw [hspec] at hm
      cases hm
    · rw [built_dlq] at hsome
      obtain ⟨c, hlast, hspec⟩ := Option.bind_eq_some_iff.mp hsome
      obtain ⟨m, hm⟩ := (dlq_request hspec).1.mpr (h.2 c hlast)
      rw [hraise] at hm
      cases hm

/-- The payloads of what was declared are the requests of the calls. -/
theorem Declares.describes {pl : Payloads} (h : Declares id name description cs pl) :
    Describes cs pl := by
  -- the last `dlq` call and the request are there or not there together
  have hrel : Option.Rel BuilderCall.Configures (cs.filter BuilderCall.isDLQ).getLast? pl.dlq := by
    have hdlq := h.dlq
    rw [getLast?_dlq] at hdlq
    cases hlast : (cs.filter BuilderCall.isDLQ).getLast? with
    | none =>
      rw [hlast] at hdlq
      have hnone : pl.dlq.toList = [] := List.forall₂_nil_left_iff.mp hdlq
      rw [Option.toList_eq_nil_iff.mp hnone]
      exact .none
    | some c =>
      obtain ⟨spec, hspec⟩ := dlq?_of_getLast? hlast
      rw [hlast, Option.bind_some, hspec] at hdlq
      cases hm : pl.dlq with
      | none =>
        rw [hm] at hdlq
        cases hdlq
      | some m =>
        rw [hm] at hdlq
        cases hdlq with
        | cons hrequest _ => exact .some ((dlq_request hspec).2 m hrequest)
  refine ⟨?_, ?_, hrel, ?_⟩
  · -- connectors and processors, call by call
    exact forall₂_filter BuilderCall.isConnector_eq
      (fun c spec m hspec hm => (connector_request hspec).2 m hm) h.connectors
  · exact forall₂_filter BuilderCall.isProcessor_eq
      (fun c spec m hspec hm => (processor_request hspec).2 m hm) h.processors
  · rw [← eq_none_of_rel hrel, List.getLast?_eq_none_iff, List.filter_eq_nil_iff]
    simp only [Bool.not_eq_true]

end Payloads

/-! ### The plan and its message objects -/

/-- The message objects of a plan, in the order in which they are constructed. -/
def BuildPlan.refs (plan : BuildPlan) : List Ref :=
  plan.createPipeline ::
    (plan.createConnectors ++ plan.createProcessors ++ plan.dlq.toList)

/-- The heap holds the payloads, where the plan refers to them. -/
structure BuildPlan.Holds (plan : BuildPlan) (heap : List Message) (pl : Payloads) : Prop where
  createPipeline : heap[plan.createPipeline]? = some (.createPipeline pl.createPipeline)
  createConnectors : List.Forall₂ (fun r m => heap[r]? = some (.createConnector m))
    plan.createConnectors pl.connectors
  createProcessors : List.Forall₂ (fun r m => heap[r]? = some (.createProcessor m))
    plan.createProcessors pl.processors
  dlq : Option.Rel (fun r m => heap[r]? = some (.updateDLQ m)) plan.dlq pl.dlq

/-- The messages of a fresh plan are its payloads. -/
theorem Payloads.plan_holds (pl : Payloads) (heap : List Message) :
    (pl.plan heap.length).Holds (heap ++ .createPipeline pl.createPipeline :: pl.resources) pl := by
  unfold Payloads.plan Payloads.resources
  -- the requests stand one behind the other: pipeline, connectors, processors, queue
  refine ⟨by simp, ?_, ?_, ?_⟩
  · exact forall₂_range' Message.createConnector pl.connectors
      (heap ++ [.createPipeline pl.createPipeline])
      (pl.processors.map .createProcessor ++ pl.dlq.toList.map .updateDLQ) (by simp) (by simp)
  · exact forall₂_range' Message.createProcessor pl.processors
      (heap ++ .createPipeline pl.createPipeline :: pl.connectors.map .createConnector)
      (pl.dlq.toList.map .updateDLQ) (by simp) (by simp [Nat.add_comm, Nat.add_left_comm])
  · cases hd : pl.dlq with
    | none => exact .none
    | some d =>
      have hdlq := forall₂_range' Message.updateDLQ [d]
        (heap ++ .createPipeline pl.createPipeline ::
          (pl.connectors.map .createConnector ++ pl.processors.map .createProcessor)) []
        rfl rfl
      cases hdlq with
      | cons hat _ =>
        refine .some ?_
        simpa [Nat.add_assoc, Nat.add_comm, Nat.add_left_comm] using hat

/-- The messages of a fresh plan stand behind everything that was there, in a row. -/
theorem Payloads.plan_refs (pl : Payloads) (b : Ref) :
    (pl.plan b).refs = List.range' b (pl.resources.length + 1) := by
  have hjobs : (pl.plan b).refs = b :: ((pl.plan b).jobs "").map Job.request := by
    simp only [BuildPlan.refs, BuildPlan.jobs, Payloads.plan, List.map_append, List.map_map,
      Function.comp_def, List.map_id']
  rw [hjobs, Payloads.jobs_request, List.range'_succ]

/-! ### `build_requests` -/

/-- A plan depends on what was declared, and on nothing else. -/
theorem Pipeline.buildRequests_congr {p q : Pipeline} (hname : p.name = q.name)
    (hdescription : p.description = q.description) (hconnectors : p.connectors = q.connectors)
    (hprocessors : p.processors = q.processors) (hdlq : p.dlq = q.dlq) :
    p.buildRequests = q.buildRequests := by
  unfold buildRequests
  rw [hname, hdescription, hconnectors, hprocessors, hdlq]

/-- `build_requests` on a builder after any calls `cs`.

When something that is to be sent is not representable it raises, with nothing sent. Otherwise
the payloads are those of the calls, the same ones from any state: each build constructs them
anew, in objects that did not exist before, and leaves all others alone. Sequences with the
same connector calls, the same processor calls and the same last `dlq` call build the same. -/
theorem build_requests_spec (script : Script) (id : String) (name : Option String)
    (description : String) (cs : List BuilderCall) :
    (¬ AllRepresentable cs → ∀ s : Session, ∃ e heap,
        (built id name description cs).buildRequests.eval script.handle s =
          (.error e, { s with heap := heap })) ∧
      (AllRepresentable cs → ∃ pl : Payloads,
        pl.createPipeline = ⟨name.getD id, description⟩ ∧ Describes cs pl ∧
          ∀ s : Session, ∃ plan heap,
            (built id name description cs).buildRequests.eval script.handle s =
                (.ok plan, { s with heap := heap }) ∧
              s.heap <+: heap ∧ plan.Holds heap pl ∧ plan.refs.Nodup ∧
              ∀ r ∈ plan.refs, s.heap.length ≤ r) ∧
      ∀ cs' : List BuilderCall,
        cs'.filter BuilderCall.isConnector = cs.filter BuilderCall.isConnector →
        cs'.filter BuilderCall.isProcessor = cs.filter BuilderCall.isProcessor →
        (cs'.filter BuilderCall.isDLQ).getLast? = (cs.filter BuilderCall.isDLQ).getLast? →
        (built id name description cs').buildRequests =
          (built id name description cs).buildRequests := by
  refine ⟨fun hnot s => ?_, fun hall => ?_, fun cs' hconnectors hprocessors hdlq => ?_⟩
  · -- if all payloads were built, all calls would be representable
    cases hpl : (built id name description cs).payloads with
    | ok pl => exact absurd (declares_of_payloads hpl).representable hnot
    | error e => exact ⟨e, eval_buildRequests_error script hpl⟩
  · obtain ⟨pl, hpl⟩ := payloads_of_representable id name description hall
    -- what was built is what was declared, and its objects are new
    have hdeclares : Declares id name description cs pl := declares_of_payloads hpl
    refine ⟨pl, hdeclares.createPipeline, hdeclares.describes, fun s => ?_⟩
    refine ⟨_, _, eval_buildRequests hpl, List.prefix_append _ _, pl.plan_holds s.heap, ?_, ?_⟩
    · rw [Payloads.plan_refs]
      exact List.nodup_range'
    · intro r hr
      rw [Payloads.plan_refs, List.mem_range'_1] at hr
      exact hr.1
  · -- the two builders have come to the same state
    refine Pipeline.buildRequests_congr ?_ ?_ ?_ ?_ ?_
    · rw [built, built, Pipeline.calls_name, Pipeline.calls_name]
    · rw [built, built, Pipeline.calls_description, Pipeline.calls_description]
    · -- the calls that declare nothing of a kind may be left out
      rw [built_connectors, built_connectors,
        ← filterMap_filter BuilderCall.isConnector_eq cs', hconnectors,
        filterMap_filter BuilderCall.isConnector_eq cs]
    · rw [built_processors, built_processors,
        ← filterMap_filter BuilderCall.isProcessor_eq cs', hprocessors,
        filterMap_filter BuilderCall.isProcessor_eq cs]
    · rw [built_dlq, built_dlq, hdlq]

/-- A source, a processor with settings from both sources, and two `dlq` calls. -/
def mixedCalls : List BuilderCall :=
  [.source "postgres" "" none (Py.Dict.empty.insert "tables" (.other "orders")),
    .dlq "log" (some (-1)) none none .empty,
    .process "filter.field" "true" none
      (some (Py.Dict.empty.insert (.str "drop") (.bool true))) .empty,
    .dlq "file" (some 0) none none .empty]

/-- The first `dlq` call could not be sent, and is not. -/
theorem build_requests_mixed : ∃ pl : Payloads, Describes mixedCalls pl ∧
    ∀ s : Session, ∃ plan heap,
      (built "orders" none "" mixedCalls).buildRequests.eval obliging.handle s =
          (.ok plan, { s with heap := heap }) ∧ plan.Holds heap pl := by
  have hall : AllRepresentable mixedCalls := by
    refine ⟨?_, ?_⟩
    · rintro c hmem hno
      simp only [mixedCalls, List.mem_cons, List.not_mem_nil, or_false] at hmem
      rcases hmem with rfl | rfl | rfl | rfl
      · exact stringKeys_none
      · -- a `dlq` call is not asked for unless it is the last one
        cases hno
      · refine ⟨fun k hk => ⟨"drop", ?_⟩, nofun⟩
        exact List.mem_singleton.mp hk
      · cases hno
    · rintro c hlast
      -- 0 is in the range of both fields
      have hc : BuilderCall.dlq "file" (some 0) none none .empty = c := Option.some.inj hlast
      rw [← hc]
      exact ⟨stringKeys_none, by simp, nofun⟩
  obtain ⟨pl, -, hdescribes, hbuild⟩ :=
    (build_requests_spec obliging "orders" none "" mixedCalls).2.1 hall
  refine ⟨pl, hdescribes, fun s => ?_⟩
  obtain ⟨plan, heap, heval, -, hholds, -⟩ := hbuild s
  exact ⟨plan, heap, heval, hholds⟩

/-- A processor with more workers than an `int32` holds: there is no plan. -/
theorem build_requests_too_many_workers :
    ((built "orders" none "" tooManyWorkers).buildRequests.eval obliging.handle newSession).1 =
        .error (.value "Value out of range") ∧
      ¬ ∃ plan s', (built "orders" none "" tooManyWorkers).buildRequests.eval obliging.handle
        newSession = (.ok plan, s') := by
  have hp : (built "orders" none "" tooManyWorkers).payloads =
      .error (.value "Value out of range") := by decide
  obtain ⟨heap, hh⟩ := eval_buildRequests_error obliging (s := newSession) hp
  rw [hh]
  refine ⟨rfl, ?_⟩
  rintro ⟨plan, s', heq⟩
  cases heq

end Conduit
