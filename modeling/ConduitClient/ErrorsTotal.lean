import ConduitClient.Errors

/-!
# When the translation of a gRPC failure is total

`ConduitError.from_rpc_error` promises never to raise. It decodes untrusted bytes twice and
guards only one exception type of one of the two decoders, so the promise depends on those
bytes. `Translatable` states which failures it is kept for, and `fromRpcError_ok_iff` proves
that it is kept for exactly these.
-/

namespace Conduit

variable {lib : Codec}

/-- The operation returned or raised a `ConduitError`. -/
def Surfaced {α : Type} : Except Exn α → Prop
  | .ok _ => True
  | .error e => ∃ err, e = .conduit err

@[simp] theorem surfaced_ok {α : Type} (a : α) : Surfaced (.ok a : Except Exn α) := trivial

@[simp] theorem surfaced_conduit {α : Type} (err : ConduitError) :
    Surfaced (.error (.conduit err) : Except Exn α) := ⟨err, rfl⟩

@[simp] theorem not_surfaced_value {α : Type} (msg : String) :
    ¬ Surfaced (.error (.value msg) : Except Exn α) := by
  simp [Surfaced]

/-- The loop over `details` decodes an entry only while no `conduit` entry came before it.
Every `ErrorInfo` it decodes has to parse. -/
def DetailsParse (lib : Codec) (details : List Any) : Prop :=
  ∀ before detail after, details = before ++ detail :: after → detail.isErrorInfo →
    (∀ d ∈ before, d.isErrorInfo → ∀ info, lib.parseErrorInfo d.value = some info →
      info.domain ≠ "conduit") →
    (lib.parseErrorInfo detail.value).isSome

/-- The bytes a failure carries are well formed as far as they are decoded: a details
trailer is a `Status`, and when that status agrees with the call, the details reached parse. -/
def Translatable (lib : Codec) (exc : RpcError) : Prop :=
  ∀ call, exc.call = some call → ∀ bytes, call.detailsTrailer = some bytes →
    ∃ status, lib.parseStatus bytes = some status ∧
      (status.Agrees call → DetailsParse lib status.details)

theorem detailsParse_nil : DetailsParse lib [] := by
  intro before detail after h
  simp at h

/-- An entry that is not an `ErrorInfo`, or is one of another domain, is passed over. -/
theorem detailsParse_cons_skip {detail : Any} {details : List Any}
    (hskip : detail.isErrorInfo → ∃ info, lib.parseErrorInfo detail.value = some info ∧
      info.domain ≠ "conduit") :
    DetailsParse lib (detail :: details) ↔ DetailsParse lib details := by
  constructor
  · intro h before d after hd his hpre
    -- `detail` is one more entry that comes before `d`
    refine h (detail :: before) d after (by simp [hd]) his ?_
    intro d' hd' his' info hinfo
    rcases List.mem_cons.mp hd' with rfl | hmem
    · obtain ⟨info', hinfo', hdom⟩ := hskip his'
      obtain rfl : info' = info := Option.some.inj (hinfo'.symm.trans hinfo)
      exact hdom
    · exact hpre d' hmem his' info hinfo
  · intro h before d after hd his hpre
    cases before with
    | nil =>
      obtain ⟨rfl, rfl⟩ := List.cons.inj hd
      obtain ⟨info, hinfo, -⟩ := hskip his
      rw [hinfo]
      rfl
    | cons b before =>
      obtain ⟨rfl, hd'⟩ := List.cons.inj hd
      exact h before d after hd' his fun d' hd' => hpre d' (List.mem_cons_of_mem _ hd')

/-- A `conduit` entry at the head ends the loop, so nothing behind it is decoded. -/
theorem detailsParse_cons_conduit {detail : Any} {details : List Any} {info : ErrorInfo}
    (his : detail.isErrorInfo) (hinfo : lib.parseErrorInfo detail.value = some info)
    (hdom : info.domain = "conduit") : DetailsParse lib (detail :: details) := by
  intro before d after hd _ hpre
  cases before with
  | nil =>
    obtain ⟨rfl, -⟩ := List.cons.inj hd
    rw [hinfo]
    rfl
  | cons b before =>
    obtain ⟨rfl, -⟩ := List.cons.inj hd
    exact absurd hdom (hpre _ List.mem_cons_self his info hinfo)

/-- The loop over the details raises exactly when it meets an `ErrorInfo` that does not
parse. -/
theorem firstConduitInfo_ok_iff (details : List Any) :
    (∃ r, firstConduitInfo lib details = .ok r) ↔ DetailsParse lib details := by
  induction details with
  | nil => simp [firstConduitInfo, detailsParse_nil]
  | cons detail details ih =>
    by_cases his : detail.isErrorInfo
    · cases hinfo : lib.parseErrorInfo detail.value with
      | none =>
        -- `Unpack` raises, and nothing came before that could have ended the loop
        simp only [firstConduitInfo, his, hinfo, if_true, reduceCtorEq, exists_false,
          false_iff]
        intro h
        have hparse := h [] detail details rfl his (by simp)
        simp [hinfo] at hparse
      | some info =>
        by_cases hdom : info.domain = "conduit"
        · simp [firstConduitInfo, his, hinfo, hdom, detailsParse_cons_conduit his hinfo hdom]
        · rw [detailsParse_cons_skip fun _ => ⟨info, hinfo, hdom⟩, ← ih]
          simp [firstConduitInfo, his, hinfo, hdom]
    · rw [detailsParse_cons_skip fun h => absurd h his, ← ih]
      simp [firstConduitInfo, his]

/-! The guarded decoding of the trailer, case by case. -/

theorem status_of_no_call {exc : RpcError} (h : exc.call = none) :
    exc.status lib = .ok none := by
  simp only [RpcError.status, h]

theorem status_of_no_trailer {exc : RpcError} {call : Call} (h : exc.call = some call)
    (ht : call.detailsTrailer = none) : exc.status lib = .ok none := by
  simp only [RpcError.status, h, fromCall, ht]

theorem status_of_malformed {exc : RpcError} {call : Call} {bytes : Bytes}
    (h : exc.call = some call) (ht : call.detailsTrailer = some bytes)
    (hs : lib.parseStatus bytes = none) : exc.status lib = .error .decode := by
  simp [RpcError.status, h, fromCall, ht, hs, Exn.isValueError]

theorem status_of_parsed {exc : RpcError} {call : Call} {bytes : Bytes} {status : Status}
    (h : exc.call = some call) (ht : call.detailsTrailer = some bytes)
    (hs : lib.parseStatus bytes = some status) :
    exc.status lib = .ok (if status.Agrees call then some status else none) := by
  by_cases hag : status.Agrees call <;>
    simp [RpcError.status, h, fromCall, ht, hs, hag, Exn.isValueError]

/-- The translation raises only where one of the two decoding steps raises. -/
theorem fromRpcError_ok_iff_steps (exc : RpcError) :
    (∃ e, ConduitError.fromRpcError lib exc = .ok e) ↔
      ∃ r, exc.status lib = .ok r ∧
        ∀ status, r = some status → ∃ i, firstConduitInfo lib status.details = .ok i := by
  unfold ConduitError.fromRpcError
  cases hs : exc.status lib with
  | error e => simp [bind, Except.bind]
  | ok r =>
    cases r with
    | none => simp [bind, Except.bind, pure, Except.pure]
    | some status =>
      cases hi : firstConduitInfo lib status.details with
      | error e => simp [bind, Except.bind, hi]
      | ok i => cases i <;> simp [bind, Except.bind, pure, Except.pure, hi]

/-- The translatable failures are those the translation has a result for. -/
theorem fromRpcError_ok_iff (lib : Codec) (exc : RpcError) :
    (∃ e, ConduitError.fromRpcError lib exc = .ok e) ↔ Translatable lib exc := by
  rw [fromRpcError_ok_iff_steps]
  cases hc : exc.call with
  | none => simp [status_of_no_call hc, Translatable, hc]
  | some call =>
    cases ht : call.detailsTrailer with
    | none => simp [status_of_no_trailer hc ht, Translatable, hc, ht]
    | some bytes =>
      cases hs : lib.parseStatus bytes with
      -- a `DecodeError` is not a `ValueError`, so it is not caught
      | none => simp [status_of_malformed hc ht hs, Translatable, hc, ht, hs]
      | some status =>
        rw [status_of_parsed hc ht hs]
        -- the details are looked at only when the status agrees with the call
        by_cases hag : status.Agrees call <;>
          simp [Translatable, hc, ht, hs, hag, firstConduitInfo_ok_iff]

/-- The walk over the details raises nothing but what the decoder raises. -/
theorem firstConduitInfo_error {details : List Any} {x : Exn}
    (h : firstConduitInfo lib details = .error x) : x = .decode := by
  induction details with
  | nil => cases h
  | cons d ds ih =>
    unfold firstConduitInfo at h
    split at h
    · split at h
      · cases h
        rfl
      · split at h
        · cases h
        · exact ih h
    · exact ih h

theorem status_error {exc : RpcError} {x : Exn} (h : exc.status lib = .error x) :
    x = .decode := by
  cases hc : exc.call with
  | none => simp [status_of_no_call hc] at h
  | some call =>
    cases ht : call.detailsTrailer with
    | none => simp [status_of_no_trailer hc ht] at h
    | some bytes =>
      cases hs : lib.parseStatus bytes with
      | none => simpa [status_of_malformed hc ht hs] using h.symm
      | some status => simp [status_of_parsed hc ht hs] at h

/-- What the translation raises, when it does. -/
theorem fromRpcError_error {exc : RpcError} {x : Exn}
    (h : ConduitError.fromRpcError lib exc = .error x) : x = .decode := by
  unfold ConduitError.fromRpcError at h
  cases hs : exc.status lib with
  | error y =>
    obtain rfl : y = x := by simpa [hs, bind, Except.bind] using h
    exact status_error hs
  | ok r =>
    cases r with
    | none => simp [hs, bind, Except.bind, pure, Except.pure] at h
    | some status =>
      cases hi : firstConduitInfo lib status.details with
      | error y =>
        obtain rfl : y = x := by simpa [hs, hi, bind, Except.bind] using h
        exact firstConduitInfo_error hi
      | ok i => cases i <;> simp [hs, hi, bind, Except.bind, pure, Except.pure] at h

/-- **Totality of the translation.** `from_rpc_error` returns a `ConduitError` and raises
nothing for exactly the failures whose bytes are well formed as far as it decodes them. -/
theorem fromRpcError_total_iff (lib : Codec) (exc : RpcError) :
    ((∃ e, ConduitError.fromRpcError lib exc = .ok e) ∧
      ∀ e, ConduitError.fromRpcError lib exc ≠ .error e) ↔ Translatable lib exc := by
  rw [← fromRpcError_ok_iff]
  refine ⟨fun h => h.1, fun h => ⟨h, fun e he => ?_⟩⟩
  obtain ⟨r, hr⟩ := h
  rw [hr] at he
  cases he

/-- A failed call whose details trailer is the single byte `0xff`, a truncated tag. -/
def malformedTrailer : RpcError where
  str := "unavailable"
  call := some ⟨.unavailable, some "unavailable", some [(detailsKey, [0xff])]⟩

/-- A trailer that is not a `Status` makes the translation raise the decoder's exception:
`except ValueError` does not catch it. -/
theorem fromRpcError_raises_decodeError :
    ConduitError.fromRpcError emptyCodec malformedTrailer = .error .decode ∧
      ¬ ∃ e, ConduitError.fromRpcError emptyCodec malformedTrailer = .ok e := by
  have h : ConduitError.fromRpcError emptyCodec malformedTrailer = .error .decode := by
    decide
  exact ⟨h, by simp [h]⟩

end Conduit
