import ZenohRpc.Wire.Serialize
import ZenohRpc.Zenoh

/-!
# Requests, responses and messages

`zrpc/src/request.rs`, `zrpc/src/response.rs` and `zrpc/src/types.rs`: the typed request and
response of a call, the untyped `Message` a service is called with and answers with, and the two
records that travel in replies, `WireMessage` and `ServerMetadata`.
-/

namespace ZenohRpc

open Json

/-! ## Requests and responses -/

/-- `Request<T>`. -/
structure Request (T : Type) where
  metadata : StringMap
  message : T

/-- `Response<T>`. -/
structure Response (T : Type) where
  metadata : StringMap
  message : T

namespace Request

variable {T : Type}

/-- `Request::new`: a request without metadata. -/
def new (message : T) : Request T := ⟨∅, message⟩

instance [HashOrder] [Serde T] : Serde (Request T) where
  toDocument r := writeRecord₂ "metadata" "message" r.metadata r.message
  ofDocument := readRecord₂ "metadata" "message" Request.mk
  levels := levelsRecord₂ StringMap T "metadata" "message"

instance [Runtime] [Debug T] : Debug (Request T) where
  debug r := "Request \x7b metadata: " ++ debug r.metadata ++ ", message: " ++ debug r.message ++
    " \x7d"

/-- A request whose message round-trips round-trips, one level deeper. -/
lemma roundTrips [HashOrder] [Serde T] {r : Request T} {n : ℕ} (h : RoundTrips n r.message) :
    RoundTrips (max n 1 + 1) r :=
  roundTrips_record₂ (by decide) ((roundTrips_stringMap r.metadata).mono (by omega))
    (h.mono (by omega))

/-- Whatever becomes of the message, writing and reading a request keeps its metadata. -/
lemma metadata_of_reread [HashOrder] [Serde T] {r r' : Request T} (h : reread r = some r') :
    r'.metadata = r.metadata := by
  have hwrite : ∃ d, Serde.toDocument r = Except.ok d := by
    unfold reread at h
    split at h
    · exact ⟨_, by assumption⟩
    · cases h
  obtain ⟨d, hd⟩ := hwrite
  rw [reread_of_toDocument hd] at h
  have hread := readRecord₂_writeRecord₂ (by decide) (Request.mk (T := T)) hd
  rw [(roundTrips_stringMap r.metadata).reread_eq] at hread
  have hboth := h.symm.trans hread
  cases hm : reread r.message with
  | none => rw [hm] at hboth; cases hboth
  | some m => rw [hm] at hboth; rw [Option.some.inj hboth]

end Request

namespace Response

variable {T : Type}

/-- `Response::new`: a response without metadata. -/
def new (message : T) : Response T := ⟨∅, message⟩

instance [HashOrder] [Serde T] : Serde (Response T) where
  toDocument r := writeRecord₂ "metadata" "message" r.metadata r.message
  ofDocument := readRecord₂ "metadata" "message" Response.mk
  levels := levelsRecord₂ StringMap T "metadata" "message"

end Response

/-! ## Messages -/

/-- `Message`. -/
structure Message where
  method : String
  body : Bytes
  metadata : StringMap
  status : Status

/-- `From<Status> for Message`. -/
def Status.toMessage (value : Status) : Message where
  method := ""
  body := []
  metadata := ∅
  status := value

/-- `unwrap_or_default` on written bytes: bytes that could not be written are no bytes. -/
def unwrapOrDefault (r : ZRPCResult Bytes) : Bytes :=
  match r with
  | .ok raw => raw
  | .error _ => []

/-- `From<Response<T>> for Message`.  A message that cannot be written becomes an empty body. -/
def Response.toMessage [Runtime] {T : Type} [Serde T] (value : Response T) : Message where
  method := ""
  body := unwrapOrDefault (serialize value.message)
  metadata := value.metadata
  status := Status.ok ""

/-! ## What travels in replies -/

/-- `WireMessage`. -/
structure WireMessage where
  payload : Option Bytes
  status : Status

instance [HashOrder] : Serde WireMessage where
  toDocument m := writeRecord₂ "payload" "status" m.payload m.status
  ofDocument := readRecord₂ "payload" "status" WireMessage.mk
  levels := levelsRecord₂ (Option Bytes) Status "payload" "status"

/-- A wire message round-trips, whatever its payload and status. -/
lemma roundTrips_wireMessage [HashOrder] (m : WireMessage) : RoundTrips 3 m :=
  roundTrips_record₂ (by decide) ((roundTrips_optionBytes m.payload).mono (by omega))
    (roundTrips_status m.status)

/-- Every wire message is written, and reads back. -/
lemma deserialize_serialize_wireMessage [Runtime] (m : WireMessage) :
    ∃ raw, serialize m = .ok raw ∧ deserialize WireMessage raw = .ok m :=
  deserialize_serialize ((roundTrips_wireMessage m).mono (by decide))

/-- `ServerMetadata`. -/
structure ServerMetadata (ZenohId : Type) where
  labels : Finset String
  id : ZenohId

section ServerMetadata

variable {ZenohId : Type} [Zenoh ZenohId]

/-- A session id is its text. -/
instance (priority := low) : Serde ZenohId where
  toDocument z := .ok (.str (Zenoh.display z))
  ofDocument
    | .str s => (Zenoh.fromStr s).toOption
    | _ => none

lemma roundTrips_zenohId (z : ZenohId) : RoundTrips 0 z :=
  ⟨.str (Zenoh.display z), rfl, by simp [Serde.ofDocument, Zenoh.fromStr_display, Except.toOption],
    by simp [Serde.levels]⟩

instance [HashOrder] : Serde (ServerMetadata ZenohId) where
  toDocument m := writeRecord₂ "labels" "id" m.labels m.id
  ofDocument := readRecord₂ "labels" "id" ServerMetadata.mk
  levels := levelsRecord₂ (Finset String) ZenohId "labels" "id"

/-- Server metadata round-trips, whatever the labels and the id. -/
lemma roundTrips_serverMetadata [HashOrder] (m : ServerMetadata ZenohId) : RoundTrips 2 m :=
  roundTrips_record₂ (by decide) (roundTrips_stringSet m.labels)
    ((roundTrips_zenohId m.id).mono (by omega))

/-- Server metadata is always written, and reads back. -/
lemma deserialize_serialize_serverMetadata [Runtime] (m : ServerMetadata ZenohId) :
    ∃ raw, serialize m = .ok raw ∧ deserialize (ServerMetadata ZenohId) raw = .ok m :=
  deserialize_serialize ((roundTrips_serverMetadata m).mono (by decide))

end ServerMetadata

end ZenohRpc
