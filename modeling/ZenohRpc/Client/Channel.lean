import ZenohRpc.Server.Dispatch

/-!
# The client's channel

`RPCClientChannel` of `zrpc/src/rpcchannel.rs`: how a call is sent, and how the first reply is read.
Zenoh's `get` is a parameter, a function from what is asked to the replies in the order in which
they arrive; it may refuse, and there may be no reply.
-/

namespace ZenohRpc

open Json KeyExpr

/-! ## Asking zenoh -/

/-- `QueryTarget`. -/
inductive QueryTarget
  | bestMatching
  | all
  | allComplete
  deriving DecidableEq

/-- `ConsolidationMode`. -/
inductive ConsolidationMode
  | auto
  | none
  | monotonic
  | latest
  deriving DecidableEq

/-- The arguments of a `get`. -/
structure GetRequest where
  selector : String
  payload : Option Bytes
  target : QueryTarget
  consolidation : ConsolidationMode
  timeout : ℕ
  deriving DecidableEq

/-- The query that a `get` makes, on the handle it is received with. -/
def GetRequest.query (req : GetRequest) (handle : ℕ) : Query :=
  ⟨handle, selectorKeyExpr req.selector, req.payload⟩

/-- A reply to a `get`: the payload of a sample, or an error. -/
abbrev GetReply := Except String Bytes

/-- Zenoh's `get`: an error, or the replies in the order in which they arrive. -/
abbrev Get := GetRequest → Except String (List GetReply)

/-! ## The channel -/

/-- `RPCClientChannel`, without its session. -/
structure RPCClientChannel where
  serviceName : String

namespace RPCClientChannel

variable {ZenohId : Type} [Zenoh ZenohId]

/-- The selector of a call. -/
def selector (ch : RPCClientChannel) (serverId : ZenohId) (method : String) : String :=
  "@rpc" ++ "/" ++ Zenoh.display serverId ++ "/" ++
    ("service" ++ "/" ++ ch.serviceName ++ "/" ++ method)

/-- The `get` of a call, for a request that was written. -/
def getRequest (ch : RPCClientChannel) (serverId : ZenohId) (req : Bytes) (method : String)
    (tout : ℕ) : GetRequest where
  selector := ch.selector serverId method
  payload := some req
  target := .all
  consolidation := .none
  timeout := tout

/-- The chunks of the selector of a call. -/
lemma chunks_selector (ch : RPCClientChannel) (serverId : ZenohId) (method : String) :
    chunks (ch.selector serverId method) =
      "@rpc" :: Zenoh.display serverId :: "service" ::
        (chunks ch.serviceName ++ chunks method) := by
  rw [selector, chunks_rpc, chunks_append, chunks_cons (by decide)]
  rfl

/-- The key expression of the selector of a call. -/
lemma selectorKeyExpr_selector (ch : RPCClientChannel) (serverId : ZenohId) (method : String) :
    selectorKeyExpr (ch.selector serverId method) =
      "@rpc" ++ "/" ++ Zenoh.display serverId ++ "/" ++
        ("service" ++ "/" ++ selectorKeyExpr (ch.serviceName ++ "/" ++ method)) := by
  have hhead : '?' ∉ ("@rpc" ++ "/" ++ Zenoh.display serverId ++ "/" ++
      ("service" ++ "/")).toList := by
    simp [Zenoh.display_noQuestion]
  have hsplit : ch.selector serverId method = "@rpc" ++ "/" ++ Zenoh.display serverId ++ "/" ++
      ("service" ++ "/") ++ (ch.serviceName ++ "/" ++ method) := by
    simp only [selector, String.append_assoc]
  rw [hsplit, selectorKeyExpr_append hhead]
  simp only [String.append_assoc]

/-- What follows a `?` in the method is lost. -/
lemma selectorKeyExpr_selector_of_notMem {ch : RPCClientChannel}
    (hname : '?' ∉ ch.serviceName.toList) (serverId : ZenohId) (method : String) :
    selectorKeyExpr (ch.selector serverId method) =
      ch.selector serverId (selectorKeyExpr method) := by
  have hhead : '?' ∉ (ch.serviceName ++ "/").toList := by
    simp [hname]
  rw [selectorKeyExpr_selector, selectorKeyExpr_append hhead, selector]
  simp only [String.append_assoc]

/-- The key expression of a call. -/
lemma keyExpr_getRequest (ch : RPCClientChannel) (serverId : ZenohId) (req : Bytes)
    (method : String) (tout handle : ℕ) :
    ((ch.getRequest serverId req method tout).query handle).keyExpr =
      "@rpc" ++ "/" ++ Zenoh.display serverId ++ "/" ++
        ("service" ++ "/" ++ selectorKeyExpr (ch.serviceName ++ "/" ++ method)) :=
  ch.selectorKeyExpr_selector serverId method

/-- Every client call calls a service. -/
lemma getToken_getRequest (ch : RPCClientChannel) (serverId : ZenohId) (req : Bytes)
    (method : String) (tout handle : ℕ) :
    getToken ((ch.getRequest serverId req method tout).query handle).keyExpr 2 =
      some "service" := by
  rw [keyExpr_getRequest, getToken, chunks_rpc, chunks_cons (by decide)]
  rfl

variable [Runtime] {T U : Type} [Serde T] [Serde U]

/-- `RPCClientChannel::send`. -/
def send (ch : RPCClientChannel) (get : Get) (serverId : ZenohId) (request : Request T)
    (method : String) (tout : ℕ) : ZRPCResult (List GetReply) :=
  match serialize request with
  | .error e => .error e
  | .ok req => (get (ch.getRequest serverId req method tout)).mapError .zenohError

variable (U) in
/-- What `call_fun` makes of the payload of a reply. -/
def readReply (rawData : Bytes) : Except Status (Response U) :=
  match deserialize WireMessage rawData with
  | .error e => .error (Status.new .internalError ("deserialization error: " ++ debug e))
  | .ok wmsg =>
    match wmsg.payload with
    | some rawData =>
      match deserialize U rawData with
      | .ok r => .ok (Response.new r)
      | .error _ => .error wmsg.status
    | none => .error wmsg.status

variable (U) in
/-- `RPCClientChannel::call_fun`.  It reads the first reply only. -/
def callFun [Debug T] (ch : RPCClientChannel) (get : Get) (serverId : ZenohId)
    (request : Request T) (method : String) (tout : ℕ) : Except Status (Response U) :=
  match ch.send get serverId request method tout with
  | .error e => .error (Status.new .internalError ("communication error: " ++ debug e))
  | .ok dataReceiver =>
    match dataReceiver.head? with
    | some (.ok rawData) => readReply U rawData
    | some (.error e) =>
      .error (Status.new .internalError ("Unable to get sample from " ++ e))
    | none =>
      .error (Status.new .internalError ("No data from call_fun for Request " ++ debug request))

/-- A call whose first reply is `rawData` returns what is read from it. -/
lemma callFun_of_get [Debug T] {ch : RPCClientChannel} {get : Get} {serverId : ZenohId}
    {request : Request T} {method : String} {tout : ℕ} {req rawData : Bytes}
    {rest : List GetReply} (hreq : serialize request = .ok req)
    (hget : get (ch.getRequest serverId req method tout) = .ok (.ok rawData :: rest)) :
    ch.callFun U get serverId request method tout = readReply U rawData := by
  simp only [callFun, send, hreq, hget, Except.mapError, List.head?_cons]

/-- A call that gets no reply fails. -/
lemma callFun_of_get_nil [Debug T] {ch : RPCClientChannel} {get : Get} {serverId : ZenohId}
    {request : Request T} {method : String} {tout : ℕ} {req : Bytes}
    (hreq : serialize request = .ok req)
    (hget : get (ch.getRequest serverId req method tout) = .ok []) :
    ch.callFun U get serverId request method tout =
      .error (Status.new .internalError
        ("No data from call_fun for Request " ++ debug request)) := by
  simp only [callFun, send, hreq, hget, Except.mapError, List.head?_nil]

/-- A response that is answered is read as a response without metadata. -/
lemma readReply_ok {rawData raw : Bytes} {resp : Response U} {r : U}
    (h : deserialize WireMessage rawData = .ok (serviceAnswer (.ok resp.toMessage)))
    (hraw : serialize resp.message = .ok raw) (hread : deserialize U raw = .ok r) :
    readReply U rawData = .ok (Response.new r) := by
  simp only [readReply, h, serviceAnswer, Response.toMessage, hraw, unwrapOrDefault, hread]

/-- An error that is answered is read as the error. -/
lemma readReply_error {rawData : Bytes} {s : Status}
    (h : deserialize WireMessage rawData = .ok (serviceAnswer (.error s))) :
    readReply U rawData = .error s := by
  simp only [readReply, h, serviceAnswer]

/-- What a service returned is read from its reply, a response without its metadata. -/
lemma readReply_serviceReply {res : Except Status (Response U)}
    (h : ∀ resp, res = .ok resp → RoundTrips maxDepth resp.message) :
    readReply U (sample (serviceReply (res.map Response.toMessage))) =
      res.map fun resp => Response.new resp.message := by
  have hdecode := decode_sample_serviceReply (res.map Response.toMessage)
  cases res with
  | ok resp =>
    obtain ⟨body, hbody, hread⟩ := deserialize_serialize (h resp rfl)
    exact readReply_ok hdecode hbody hread
  | error e => exact readReply_error hdecode

/-- A reply is read as a response exactly when it carries a payload that is read as its message. -/
lemma readReply_eq_ok_iff {rawData : Bytes} {r : Response U} :
    readReply U rawData = .ok r ↔ ∃ wmsg pl m, deserialize WireMessage rawData = .ok wmsg ∧
      wmsg.payload = some pl ∧ deserialize U pl = .ok m ∧ Response.new m = r := by
  unfold readReply
  cases deserialize WireMessage rawData with
  | error e => simp
  | ok wmsg =>
    cases hpayload : wmsg.payload with
    | none => simp [hpayload]
    | some pl => cases hread : deserialize U pl <;> simp [hpayload, hread]

end RPCClientChannel

end ZenohRpc
