import Mathlib.Data.List.Basic

/-!
# Errors

The exceptions that cross the client library, and the translation of a gRPC failure into
the one exception type its callers are meant to see (`errors.py`).

A failure arrives as a `RpcError`. When it also implements `grpc.Call`, its trailing
metadata may carry an encoded `google.rpc.Status`, whose details may in turn carry an
encoded `google.rpc.ErrorInfo`. Both decoders belong to the protobuf runtime and are the two
fields of `Codec`: `none` is a `DecodeError`. The walk over metadata and details, and which
exceptions are caught on the way, is the library's own and is written out.
-/

namespace Conduit

/-- The payload of a `bytes` object. -/
abbrev Bytes := List UInt8

/-! ### Status codes and the wire messages -/

/-- `grpc.StatusCode`. -/
inductive StatusCode where
  | ok | cancelled | unknown | invalidArgument | deadlineExceeded | notFound | alreadyExists
  | permissionDenied | resourceExhausted | failedPrecondition | aborted | outOfRange
  | unimplemented | internal | unavailable | dataLoss | unauthenticated
  deriving DecidableEq, Repr

/-- `StatusCode.value[0]`, the number on the wire. -/
def StatusCode.value : StatusCode → Int
  | ok => 0
  | cancelled => 1
  | unknown => 2
  | invalidArgument => 3
  | deadlineExceeded => 4
  | notFound => 5
  | alreadyExists => 6
  | permissionDenied => 7
  | resourceExhausted => 8
  | failedPrecondition => 9
  | aborted => 10
  | outOfRange => 11
  | unimplemented => 12
  | internal => 13
  | unavailable => 14
  | dataLoss => 15
  | unauthenticated => 16

/-- `google.protobuf.Any`: a type URL and the packed bytes. -/
structure Any where
  typeUrl : String
  value : Bytes
  deriving DecidableEq, Repr

/-- `google.rpc.Status`. -/
structure Status where
  code : Int
  message : String
  details : List Any
  deriving DecidableEq, Repr

/-- `google.rpc.ErrorInfo`. -/
structure ErrorInfo where
  reason : String
  domain : String
  metadata : List (String × String)
  deriving DecidableEq, Repr

/-- The decoders of the protobuf runtime; `none` is a `DecodeError`. -/
structure Codec where
  /-- `Status.FromString`. -/
  parseStatus : Bytes → Option Status
  /-- `ErrorInfo.ParseFromString`, which `Any.Unpack` calls on the packed bytes. -/
  parseErrorInfo : Bytes → Option ErrorInfo

/-- Decoders that know the empty messages only. -/
def emptyCodec : Codec where
  parseStatus bytes := if bytes = [] then some ⟨0, "", []⟩ else none
  parseErrorInfo bytes := if bytes = [] then some ⟨"", "", []⟩ else none

/-! ### Exceptions -/

/-- What `grpc.Call` adds to an exception: the status, and the trailing metadata. -/
structure Call where
  code : StatusCode
  details : Option String
  trailingMetadata : Option (List (String × Bytes))
  deriving DecidableEq, Repr

/-- A caught `grpc.RpcError`: its text, and its `grpc.Call` side when it has one. -/
structure RpcError where
  str : String
  call : Option Call
  deriving DecidableEq, Repr

/-- `ConduitError`. -/
structure ConduitError where
  message : String
  code : String := "internal.unknown"
  grpcStatusCode : StatusCode := .unknown
  configPath : String := ""
  suggestion : String := ""
  docsUrl : String := ""
  pipelineId : String := ""
  deriving DecidableEq, Repr

/-- The exceptions raised in or through the library. -/
inductive Exn where
  | conduit (e : ConduitError)
  | rpc (e : RpcError)
  /-- `ValueError`. -/
  | value (msg : String)
  /-- `UnicodeDecodeError`, a subclass of `ValueError`. -/
  | unicode
  /-- `TypeError`. -/
  | type (msg : String)
  /-- `google.protobuf.message.DecodeError`, not a `ValueError`. -/
  | decode
  /-- `OSError` and its subclasses. -/
  | os (msg : String)
  /-- `http.client.HTTPException`, not an `OSError`. -/
  | http (msg : String)
  /-- What the archive readers raise: `tarfile.ReadError`, `zipfile.BadZipFile`, `zlib.error`
  or `EOFError`. -/
  | archive (msg : String)
  /-- `subprocess.TimeoutExpired`. -/
  | timeoutExpired
  /-- `KeyboardInterrupt`, a `BaseException` but not an `Exception`. -/
  | keyboardInterrupt
  deriving DecidableEq, Repr

/-- `isinstance(e, ValueError)`. -/
def Exn.isValueError : Exn → Bool
  | .value _ | .unicode => true
  | _ => false

/-- `isinstance(e, Exception)`. -/
def Exn.isException : Exn → Bool
  | .keyboardInterrupt => false
  | _ => true

/-- Not a `ConduitError`. -/
def Exn.Foreign (e : Exn) : Prop := ∀ err, e ≠ .conduit err

/-- `a or b` on strings. -/
def strOr (a b : String) : String := if a = "" then b else a

/-- `ConduitError.__str__`: the message and the structured fields present, one per line. -/
def ConduitError.toStr (e : ConduitError) : String :=
  let line (label value : String) : List String :=
    if value = "" then [] else [label ++ value]
  "\n".intercalate <| ["[" ++ e.code ++ "] " ++ e.message] ++
    line "  config path: " e.configPath ++
    line "  suggestion: " e.suggestion ++
    line "  docs: " e.docsUrl ++
    line "  pipeline id (already created): " e.pipelineId

/-! ### `grpc_status.rpc_status` and `Any` -/

/-- The metadata key under which a rich status travels. -/
def detailsKey : String := "grpc-status-details-bin"

/-- The value of the first `grpc-status-details-bin` entry of the trailing metadata. -/
def Call.detailsTrailer (call : Call) : Option Bytes :=
  (call.trailingMetadata.getD []).lookup detailsKey

/-- The status on the wire repeats the code and the message of the call. -/
def Status.Agrees (status : Status) (call : Call) : Prop :=
  call.code.value = status.code ∧ call.details = some status.message

instance (status : Status) (call : Call) : Decidable (status.Agrees call) :=
  inferInstanceAs (Decidable (_ ∧ _))

/-- `rpc_status.from_call`: decode the details trailer, and compare it with the call. -/
def fromCall (lib : Codec) (call : Call) : Except Exn (Option Status) :=
  match call.detailsTrailer with
  | none => .ok none
  | some bytes =>
    match lib.parseStatus bytes with
    | none => .error .decode
    | some status =>
      if status.Agrees call then .ok (some status)
      else .error (.value "code or message in Status proto doesn't match the call")

/-- The full name of `google.rpc.ErrorInfo`. -/
def errorInfoName : String := "google.rpc.ErrorInfo"

/-- `Any.Is(ErrorInfo.DESCRIPTOR)`: the type URL has a slash, and this name after its last. -/
def Any.isErrorInfo (detail : Any) : Bool :=
  let url := detail.typeUrl.toList
  url.contains '/' && (url.reverse.takeWhile (· ≠ '/')).reverse == errorInfoName.toList

/-- `md.get(key, "")`. -/
def ErrorInfo.get (info : ErrorInfo) (key : String) : String :=
  (info.metadata.lookup key).getD ""

/-! ### The translation -/

/-- `_code_from_status`. -/
def codeFromStatus : StatusCode → String
  | .unavailable => "transport.unavailable"
  | .deadlineExceeded => "transport.deadline_exceeded"
  | .cancelled => "transport.cancelled"
  | .notFound => "common.not_found"
  | .invalidArgument => "common.invalid_argument"
  | .alreadyExists => "common.already_exists"
  | .failedPrecondition => "common.failed_precondition"
  | _ => "internal.unknown"

/-- The loop of `from_rpc_error` over the details: the first `ErrorInfo` of the domain
`conduit`. `Unpack` raises on the way when an `ErrorInfo` does not parse. -/
def firstConduitInfo (lib : Codec) : List Any → Except Exn (Option ErrorInfo)
  | [] => .ok none
  | detail :: details =>
    if detail.isErrorInfo then
      match lib.parseErrorInfo detail.value with
      | none => .error .decode
      | some info =>
        if info.domain = "conduit" then .ok (some info) else firstConduitInfo lib details
    else firstConduitInfo lib details

/-- `grpc_code`: the code of the call, or `UNKNOWN`. -/
def RpcError.grpcCode (exc : RpcError) : StatusCode :=
  (exc.call.map Call.code).getD .unknown

/-- `message`: the details of the call when there are any, else `str(exc)`. -/
def RpcError.message (exc : RpcError) : String :=
  match exc.call with
  | some call => strOr (call.details.getD "") exc.str
  | none => strOr exc.str exc.str

/-- The guarded call of `rpc_status.from_call`: a `ValueError` reads as no status. -/
def RpcError.status (lib : Codec) (exc : RpcError) : Except Exn (Option Status) :=
  match exc.call with
  | none => .ok none
  | some call =>
    match fromCall lib call with
    | .ok status => .ok status
    | .error e => if e.isValueError then .ok none else .error e

/-- `ConduitError.from_rpc_error`. -/
def ConduitError.fromRpcError (lib : Codec) (exc : RpcError) : Except Exn ConduitError := do
  let bare : ConduitError :=
    { message := exc.message
      code := codeFromStatus exc.grpcCode
      grpcStatusCode := exc.grpcCode }
  match ← exc.status lib with
  | none => return bare
  | some status =>
    match ← firstConduitInfo lib status.details with
    | none => return bare
    | some info =>
      return { message := exc.message
               code := strOr info.reason "internal.unknown"
               grpcStatusCode := exc.grpcCode
               configPath := info.get "configPath"
               suggestion := info.get "suggestion"
               docsUrl := info.get "docsUrl" }

end Conduit
