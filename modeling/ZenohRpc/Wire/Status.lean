import ZenohRpc.Json.Serde

/-!
# Status values and errors

`zrpc/src/status.rs` and the errors of `zrpc/src/zrpcresult.rs` that the modelled functions build.
A status is a code, a text and a map of metadata; over the wire a code is the name of its variant.

`Runtime` gathers what the model takes from the libraries under the crate: the text of JSON
documents, the order of hash maps and sets, and the texts of `{:?}` and of the UTF-8 check, which
only ever end up inside an error's message.
-/

namespace ZenohRpc

open Json

/-- The libraries under the crate, as far as their choices are visible in it. -/
class Runtime extends TextFormat, HashOrder where
  debugString : String → String
  debugMap : StringMap → String
  explainUtf8 : List UInt8 → String

/-- Rust's `Debug`, the text of `{:?}`. -/
class Debug (α : Type) where
  debug : α → String

export Debug (debug)

instance [Runtime] : Debug String := ⟨Runtime.debugString⟩

instance [Runtime] : Debug StringMap := ⟨Runtime.debugMap⟩

/-! ## Errors of the crate -/

/-- The errors of `zrpcresult.rs` that reading, writing and zenoh calls are turned into. -/
inductive ZRPCError
  | deserializationError (err : String)
  | serializationError (err : String)
  | zenohError (err : String)
  deriving DecidableEq

/-- `ZRPCResult`. -/
abbrev ZRPCResult (α : Type) := Except ZRPCError α

instance [Runtime] : Debug ZRPCError where
  debug
    | .deserializationError err => "DeserializationError(" ++ debug err ++ ")"
    | .serializationError err => "SerializationError(" ++ debug err ++ ")"
    | .zenohError err => "ZenohError(" ++ debug err ++ ")"

/-! ## Codes -/

/-- The status codes. -/
inductive Code
  | ok
  | created
  | accepted
  | badRequest
  | unauthorized
  | forbidden
  | notFound
  | timeout
  | internalError
  | notImplemented
  | unavailable
  deriving DecidableEq

namespace Code

/-- The name of a code's variant. -/
def name : Code → String
  | ok => "Ok"
  | created => "Created"
  | accepted => "Accepted"
  | badRequest => "BadRequest"
  | unauthorized => "Unauthorized"
  | forbidden => "Forbidden"
  | notFound => "NotFound"
  | timeout => "Timeout"
  | internalError => "InternalError"
  | notImplemented => "NotImplemented"
  | unavailable => "Unavailable"

/-- Every code, in the order of the source. -/
def all : List Code :=
  [ok, created, accepted, badRequest, unauthorized, forbidden, notFound, timeout, internalError,
    notImplemented, unavailable]

/-- The code whose variant has a name. -/
def ofName (s : String) : Option Code := all.find? fun c => c.name == s

/-- No two variants share a name. -/
lemma ofName_name (c : Code) : ofName c.name = some c := by
  cases c <;> decide

end Code

/-- A unit variant is its name, or the object that maps its name to `null`. -/
instance : Serde Code where
  toDocument c := .ok (.str c.name)
  ofDocument
    | .str s => Code.ofName s
    | .obj [(s, .null)] => Code.ofName s
    | _ => none

lemma roundTrips_code (c : Code) : RoundTrips 0 c :=
  ⟨.str c.name, rfl, Code.ofName_name c, by simp [Serde.levels]⟩

/-! ## Status -/

/-- `Status`. -/
structure Status where
  code : Code
  message : String
  metadata : StringMap
  deriving DecidableEq

namespace Status

/-- `Status::new`: a status without metadata. -/
def new (code : Code) (message : String) : Status := ⟨code, message, ∅⟩

/-- `Status::ok`. -/
def ok (message : String) : Status := new .ok message

/-- `Status::internal_error`. -/
def internalError (message : String) : Status := new .internalError message

/-- `Status::unavailable`. -/
def unavailable (message : String) : Status := new .unavailable message

end Status

instance [HashOrder] : Serde Status where
  toDocument s := writeRecord₃ "code" "message" "metadata" s.code s.message s.metadata
  ofDocument := readRecord₃ "code" "message" "metadata" Status.mk
  levels := levelsRecord₃ Code String StringMap "code" "message" "metadata"

/-- A status round-trips. -/
lemma roundTrips_status [HashOrder] (s : Status) : RoundTrips 2 s :=
  roundTrips_record₃ (by decide) (by decide) (by decide) ((roundTrips_code s.code).mono (by omega))
    ((roundTrips_string s.message).mono (by omega)) (roundTrips_stringMap s.metadata)

end ZenohRpc
