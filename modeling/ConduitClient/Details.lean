import ConduitClient.ErrorsTotal

/-!
# What an error says

What the translation of a gRPC failure makes of the details of its status. The details are a
list of packed messages of any types. One of them counts: the first `ErrorInfo` of the domain
`conduit` (`Call.conduitInfo`). It stands behind the code and the three metadata fields of the
error; without one they come from the status code of the call (`fromRpcError_details`).
-/

namespace Conduit

variable {lib : Codec}

/-- The `ErrorInfo` in a detail. -/
def Any.info (lib : Codec) (detail : Any) : Option ErrorInfo :=
  if detail.isErrorInfo then lib.parseErrorInfo detail.value else none

/-- The `ErrorInfo` in a detail, if its domain is `conduit`. -/
def Any.conduitInfo (lib : Codec) (detail : Any) : Option ErrorInfo :=
  (detail.info lib).filter (·.domain = "conduit")

/-- The status of a call that counts: the decoded trailer, when it repeats the code and the
message of the call. -/
def Call.usableStatus (lib : Codec) (call : Call) : Option Status :=
  (call.detailsTrailer.bind lib.parseStatus).filter (·.Agrees call)

/-- The first `ErrorInfo` of the domain `conduit` among the details of a call. -/
def Call.conduitInfo (lib : Codec) (call : Call) : Option ErrorInfo :=
  (call.usableStatus lib).bind fun status => status.details.findSome? (Any.conduitInfo lib)

/-- What a call carries can be decoded: a trailer is a status, and the `ErrorInfo` details of a
status that counts all parse. -/
structure Call.Decodes (lib : Codec) (call : Call) : Prop where
  status : ∀ bytes, call.detailsTrailer = some bytes → (lib.parseStatus bytes).isSome
  infos : ∀ status, call.usableStatus lib = some status →
    ∀ detail ∈ status.details, detail.isErrorInfo → (lib.parseErrorInfo detail.value).isSome

/-! ### The details -/

theorem Any.conduitInfo_eq_some_iff {detail : Any} {info : ErrorInfo} :
    detail.conduitInfo lib = some info ↔ detail.info lib = some info ∧ info.domain = "conduit" := by
  rw [conduitInfo, Option.filter_eq_some_iff, decide_eq_true_eq]

theorem Any.conduitInfo_eq_none_iff {detail : Any} :
    detail.conduitInfo lib = none ↔
      ∀ info, detail.info lib = some info → info.domain ≠ "conduit" := by
  rw [Option.eq_none_iff_forall_ne_some]
  refine forall_congr' fun info => ?_
  rw [ne_eq, conduitInfo_eq_some_iff, not_and]

/-- What counts is the first, wherever it stands. -/
theorem Call.conduitInfo_eq_some {call : Call} {status : Status} {before after : List Any}
    {detail : Any} {info : ErrorInfo} (hstatus : call.usableStatus lib = some status)
    (hsplit : status.details = before ++ detail :: after) (hinfo : detail.info lib = some info)
    (hdomain : info.domain = "conduit")
    (hbefore : ∀ d ∈ before, ∀ other, d.info lib = some other → other.domain ≠ "conduit") :
    call.conduitInfo lib = some info := by
  have hnone : ∀ d ∈ before, d.conduitInfo lib = none := fun d hd =>
    Any.conduitInfo_eq_none_iff.mpr (hbefore d hd)
  rw [Call.conduitInfo, hstatus, Option.bind_some, hsplit]
  exact List.findSome?_eq_some_iff.mpr
    ⟨before, detail, after, rfl, Any.conduitInfo_eq_some_iff.mpr ⟨hinfo, hdomain⟩, hnone⟩

theorem Call.conduitInfo_eq_none {call : Call}
    (hforeign : ∀ status, call.usableStatus lib = some status → ∀ d ∈ status.details,
      ∀ other, d.info lib = some other → other.domain ≠ "conduit") :
    call.conduitInfo lib = none := by
  rw [Call.conduitInfo, Option.bind_eq_none_iff]
  intro status hstatus
  refine List.findSome?_eq_none_iff.mpr fun d hd => ?_
  exact Any.conduitInfo_eq_none_iff.mpr (hforeign status hstatus d hd)

/-- Where every `ErrorInfo` parses, the loop over the details finds the first that counts. -/
theorem firstConduitInfo_eq {details : List Any}
    (h : ∀ detail ∈ details, detail.isErrorInfo → (lib.parseErrorInfo detail.value).isSome) :
    firstConduitInfo lib details = .ok (details.findSome? (Any.conduitInfo lib)) := by
  induction details with
  | nil => rfl
  | cons detail details ih =>
    have hrest := ih fun d hd => h d (List.mem_cons_of_mem _ hd)
    unfold firstConduitInfo
    by_cases his : detail.isErrorInfo
    · obtain ⟨info, hinfo⟩ := Option.isSome_iff_exists.mp (h detail List.mem_cons_self his)
      have hcarries : detail.info lib = some info := by rw [Any.info, if_pos his, hinfo]
      rw [if_pos his, hinfo]
      by_cases hdomain : info.domain = "conduit"
      · -- the search ends here
        rw [List.findSome?_cons, Any.conduitInfo_eq_some_iff.mpr ⟨hcarries, hdomain⟩]
        exact if_pos hdomain
      · -- an `ErrorInfo` of another domain
        have hnone : detail.conduitInfo lib = none := by
          refine Any.conduitInfo_eq_none_iff.mpr fun info' hinfo' => ?_
          obtain rfl : info = info' := Option.some.inj (hcarries.symm.trans hinfo')
          exact hdomain
        rw [List.findSome?_cons, hnone, ← hrest]
        exact if_neg hdomain
    · -- a detail of another type
      have hnone : detail.conduitInfo lib = none := by
        refine Any.conduitInfo_eq_none_iff.mpr fun info hinfo => ?_
        rw [Any.info, if_neg his] at hinfo
        cases hinfo
      rw [if_neg his, hrest, List.findSome?_cons, hnone]

/-- Details that carry nothing of the domain `conduit` may be put in or taken out anywhere. -/
theorem findSome?_conduitInfo_insert {before between after : List Any}
    (h : ∀ detail ∈ between, detail.conduitInfo lib = none) :
    (before ++ between ++ after).findSome? (Any.conduitInfo lib) =
      (before ++ after).findSome? (Any.conduitInfo lib) := by
  have hbetween : between.findSome? (Any.conduitInfo lib) = none :=
    List.findSome?_eq_none_iff.mpr h
  rw [List.findSome?_append, List.findSome?_append, hbetween, Option.or_none,
    List.findSome?_append]

/-! ### The translation -/

/-- The guarded decoding gives the status that counts. -/
theorem status_of_decodes {exc : RpcError} {call : Call} (hcall : exc.call = some call)
    (h : call.Decodes lib) : exc.status lib = .ok (call.usableStatus lib) := by
  cases htrailer : call.detailsTrailer with
  | none =>
    rw [status_of_no_trailer hcall htrailer, Call.usableStatus, htrailer]
    rfl
  | some bytes =>
    obtain ⟨status, hstatus⟩ := Option.isSome_iff_exists.mp (h.status bytes htrailer)
    rw [status_of_parsed hcall htrailer hstatus, Call.usableStatus, htrailer, Option.bind_some,
      hstatus, Option.filter_some]
    by_cases hagrees : status.Agrees call <;> simp [hagrees]

/-- What the translation makes of a failure: its message, its status code, and either an
`ErrorInfo` or the status code alone. -/
def ConduitError.ofInfo (exc : RpcError) : Option ErrorInfo → ConduitError
  | none =>
    { message := exc.message
      code := codeFromStatus exc.grpcCode
      grpcStatusCode := exc.grpcCode }
  | some info =>
    { message := exc.message
      code := strOr info.reason "internal.unknown"
      grpcStatusCode := exc.grpcCode
      configPath := info.get "configPath"
      suggestion := info.get "suggestion"
      docsUrl := info.get "docsUrl" }

theorem fromRpcError_of_decodes {exc : RpcError} {call : Call} (hcall : exc.call = some call)
    (h : call.Decodes lib) :
    ConduitError.fromRpcError lib exc = .ok (.ofInfo exc (call.conduitInfo lib)) := by
  unfold ConduitError.fromRpcError Call.conduitInfo
  rw [status_of_decodes hcall h]
  cases husable : call.usableStatus lib with
  | none => rfl
  | some status =>
    have hfirst := firstConduitInfo_eq (h.infos status husable)
    simp only [bind, Except.bind, hfirst, Option.bind]
    cases status.details.findSome? (Any.conduitInfo lib) <;> rfl

/-- What is left of a failure is its text, the code and the message of its call, and the
`ErrorInfo` that counts. -/
theorem fromRpcError_congr {exc exc' : RpcError} {call call' : Call} (hcall : exc.call = some call)
    (hcall' : exc'.call = some call') (hdecodes : call.Decodes lib) (hdecodes' : call'.Decodes lib)
    (hstr : exc'.str = exc.str) (hcode : call'.code = call.code)
    (hdetails : call'.details = call.details)
    (hinfo : call'.conduitInfo lib = call.conduitInfo lib) :
    ConduitError.fromRpcError lib exc' = ConduitError.fromRpcError lib exc := by
  have hgrpc : exc'.grpcCode = exc.grpcCode := by
    rw [RpcError.grpcCode, RpcError.grpcCode, hcall, hcall']
    exact hcode
  have hmessage : exc'.message = exc.message := by
    simp only [RpcError.message, hcall, hcall', hdetails, hstr]
  rw [fromRpcError_of_decodes hcall hdecodes, fromRpcError_of_decodes hcall' hdecodes', hinfo]
  cases call.conduitInfo lib <;> simp only [ConduitError.ofInfo, hgrpc, hmessage]

/-! ### What an error says -/

/-- The error says what the `ErrorInfo` says. -/
structure ConduitError.Tells (e : ConduitError) (info : ErrorInfo) : Prop where
  code : e.code = if info.reason = "" then "internal.unknown" else info.reason
  configPath : e.configPath = (info.metadata.lookup "configPath").getD ""
  suggestion : e.suggestion = (info.metadata.lookup "suggestion").getD ""
  docsUrl : e.docsUrl = (info.metadata.lookup "docsUrl").getD ""

/-- The error says no more than the status code. -/
structure ConduitError.Bare (e : ConduitError) (code : StatusCode) : Prop where
  code : e.code = codeFromStatus code
  configPath : e.configPath = ""
  suggestion : e.suggestion = ""
  docsUrl : e.docsUrl = ""

/-- **What an error says.** A failed call whose details decode is translated to an error with the
status code and, unless it is empty, the message of the call. If there is an `ErrorInfo` of the
domain `conduit` behind details that carry none, the error tells this one, whatever comes after;
if there is none, or no status that counts, the error is bare. A call with the same code and
message and the same such `ErrorInfo` is translated to the same error. -/
theorem fromRpcError_details (lib : Codec) {exc : RpcError} {call : Call}
    (hcall : exc.call = some call) (hdecodes : call.Decodes lib) :
    ∃ e, ConduitError.fromRpcError lib exc = .ok e ∧ e.grpcStatusCode = call.code ∧
      (∀ details, call.details = some details → details ≠ "" → e.message = details) ∧
      (∀ status before detail after info, call.usableStatus lib = some status →
        status.details = before ++ detail :: after → detail.info lib = some info →
        info.domain = "conduit" →
        (∀ d ∈ before, ∀ other, d.info lib = some other → other.domain ≠ "conduit") →
          e.Tells info) ∧
      ((∀ status, call.usableStatus lib = some status → ∀ d ∈ status.details,
        ∀ other, d.info lib = some other → other.domain ≠ "conduit") → e.Bare call.code) ∧
      ∀ exc' call', exc'.call = some call' → call'.Decodes lib → exc'.str = exc.str →
        call'.code = call.code → call'.details = call.details →
        call'.conduitInfo lib = call.conduitInfo lib →
          ConduitError.fromRpcError lib exc' = .ok e := by
  have hcode : exc.grpcCode = call.code := by rw [RpcError.grpcCode, hcall]; rfl
  refine ⟨_, fromRpcError_of_decodes hcall hdecodes, ?_, ?_, ?_, ?_, ?_⟩
  -- status code and message come from the call, whatever its details carry
  · cases call.conduitInfo lib <;> exact hcode
  · intro details hdetails hne
    have hmessage : exc.message = details := by
      rw [RpcError.message, hcall]
      simp only [hdetails, Option.getD_some, strOr, if_neg hne]
    cases call.conduitInfo lib <;> exact hmessage
  · intro status before detail after info hstatus hsplit hinfo hdomain hbefore
    rw [Call.conduitInfo_eq_some hstatus hsplit hinfo hdomain hbefore]
    exact ⟨rfl, rfl, rfl, rfl⟩
  · intro hforeign
    rw [Call.conduitInfo_eq_none hforeign]
    exact ⟨congrArg codeFromStatus hcode, rfl, rfl, rfl⟩
  · -- another call that agrees on all that is looked at
    intro exc' call' hcall' hdecodes' hstr hcode' hdetails hinfo
    rw [fromRpcError_congr hcall hcall' hdecodes hdecodes' hstr hcode' hdetails hinfo]
    exact fromRpcError_of_decodes hcall hdecodes

/-- No field of an error comes from a detail of another type or domain: with such details, or
without them, a call is translated to the same error. -/
theorem fromRpcError_insert {exc : RpcError} {call call' : Call} {status status' : Status}
    {before between after : List Any} (hcall : exc.call = some call) (hdecodes : call.Decodes lib)
    (hdecodes' : call'.Decodes lib) (hcode : call'.code = call.code)
    (hdetails : call'.details = call.details) (hstatus : call.usableStatus lib = some status)
    (hstatus' : call'.usableStatus lib = some status')
    (hwithout : status.details = before ++ after)
    (hwith : status'.details = before ++ between ++ after)
    (hforeign : ∀ d ∈ between, ∀ info, d.info lib = some info → info.domain ≠ "conduit") :
    ConduitError.fromRpcError lib { exc with call := some call' } =
      ConduitError.fromRpcError lib exc := by
  have hinfo : call'.conduitInfo lib = call.conduitInfo lib := by
    rw [Call.conduitInfo, Call.conduitInfo, hstatus, hstatus', Option.bind_some,
      Option.bind_some, hwith, hwithout]
    exact findSome?_conduitInfo_insert fun d hd =>
      Any.conduitInfo_eq_none_iff.mpr (hforeign d hd)
  exact fromRpcError_congr hcall rfl hdecodes hdecodes' rfl hcode hdetails hinfo

/-! ### An error of the engine -/

/-- A field of a message on the wire that is a string, a map entry or a message of less than 128
bytes. -/
def lengthPrefixed (field : UInt8) (bytes : Bytes) : Bytes :=
  (8 * field + 2) :: UInt8.ofNat bytes.length :: bytes

/-- An ASCII text on the wire. -/
def ascii (s : String) : Bytes := s.toList.map fun c => UInt8.ofNat c.toNat

/-- An `ErrorInfo` on the wire. -/
def ErrorInfo.wire (info : ErrorInfo) : Bytes :=
  lengthPrefixed 1 (ascii info.reason) ++ lengthPrefixed 2 (ascii info.domain) ++
    info.metadata.flatMap fun entry => lengthPrefixed 3
      (lengthPrefixed 1 (ascii entry.1) ++ lengthPrefixed 2 (ascii entry.2))

/-- A status on the wire. -/
def Status.wire (status : Status) : Bytes :=
  [8, UInt8.ofNat status.code.toNat] ++ lengthPrefixed 2 (ascii status.message) ++
    status.details.flatMap fun detail => lengthPrefixed 3
      (lengthPrefixed 1 (ascii detail.typeUrl) ++ lengthPrefixed 2 detail.value)

/-- An `ErrorInfo` as a detail. -/
def ErrorInfo.pack (info : ErrorInfo) : Any := ⟨"/google.rpc.ErrorInfo", info.wire⟩

/-- What a proxy on the way has to say. -/
def proxyInfo : ErrorInfo := ⟨"RETRY", "proxy", [("suggestion", "try again")]⟩

/-- What the engine has to say. -/
def engineInfo : ErrorInfo :=
  ⟨"pipeline.invalid_config", "conduit", [("configPath", "/connectors/0")]⟩

/-- The status with both details. -/
def twoInfos : Status := ⟨3, "bad config", [proxyInfo.pack, engineInfo.pack]⟩

/-- Decoders that know this status. -/
def twoInfosCodec : Codec where
  parseStatus bytes := if bytes = twoInfos.wire then some twoInfos else none
  parseErrorInfo bytes :=
    if bytes = proxyInfo.wire then some proxyInfo
    else if bytes = engineInfo.wire then some engineInfo
    else none

/-- The call that failed with it. -/
def invalidCall : Call :=
  ⟨.invalidArgument, some "bad config", some [(detailsKey, twoInfos.wire)]⟩

/-- The error tells what the engine says, and nothing of the proxy. -/
theorem fromRpcError_twoInfos :
    ∃ e, ConduitError.fromRpcError twoInfosCodec ⟨"bad config", some invalidCall⟩ = .ok e ∧
      e.code = "pipeline.invalid_config" ∧ e.configPath = "/connectors/0" ∧
      e.suggestion = "" := by
  have husable : invalidCall.usableStatus twoInfosCodec = some twoInfos := by decide +kernel
  have htrailer : invalidCall.detailsTrailer = some twoInfos.wire := by decide +kernel
  have hstatus : (twoInfosCodec.parseStatus twoInfos.wire).isSome := by decide +kernel
  have hinfos : ∀ detail ∈ twoInfos.details, detail.isErrorInfo →
      (twoInfosCodec.parseErrorInfo detail.value).isSome := by decide +kernel
  have hdecodes : invalidCall.Decodes twoInfosCodec := by
    refine ⟨fun bytes hbytes => ?_, fun status hother => ?_⟩
    · rw [← Option.some.inj (htrailer.symm.trans hbytes)]
      exact hstatus
    · rw [← Option.some.inj (husable.symm.trans hother)]
      exact hinfos
  have hcall : RpcError.call ⟨"bad config", some invalidCall⟩ = some invalidCall := rfl
  obtain ⟨e, he, -, -, htells, -, -⟩ := fromRpcError_details twoInfosCodec hcall hdecodes
  have hinfo := htells twoInfos [proxyInfo.pack] engineInfo.pack [] engineInfo husable rfl
    (by decide +kernel) rfl fun d hd other hother => by
      obtain rfl := List.mem_singleton.mp hd
      have hproxy : proxyInfo.pack.info twoInfosCodec = some proxyInfo := by decide +kernel
      obtain rfl : proxyInfo = other := Option.some.inj (hproxy.symm.trans hother)
      decide
  exact ⟨e, he, hinfo.code, hinfo.configPath, hinfo.suggestion⟩

end Conduit
