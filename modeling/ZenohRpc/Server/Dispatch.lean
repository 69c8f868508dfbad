import ZenohRpc.Server.Builder

/-!
# From a query to its reply

The body of the loop in `Server::serve`, and the futures it spawns: `service_call`,
`server_metadata` and `create_error` of `zrpc/src/server.rs`.

`dispatch` is the part that runs inside the loop: it picks a future from the query's key
expression, and its errors are the `?` that leave `serve`.  `ServerTask.run` is the future, and
`sample` the bytes the spawned task replies with.

`ServerTask.answer` says what a reply means, as a wire message, without any bytes: it is the
model's own statement of what the three futures are for.  `run_answer` connects the two: whatever a
task does, the bytes it replies with decode as its answer.
-/

namespace ZenohRpc

open Json KeyExpr

/-! ## The tokens of a key expression -/

/-- `Server::get_token`. -/
def getToken (ke : String) (index : ℕ) : Option String := (chunks ke)[index]?

/-- `Server::get_service_name`. -/
def getServiceName (ke : String) : Except Status String :=
  match getToken ke 3 with
  | some t => .ok t
  | none => .error (Status.internalError "Cannot get service name")

/-- `Server::get_method_name`. -/
def getMethodName (ke : String) : Except Status String :=
  match getToken ke 4 with
  | some t => .ok t
  | none => .error (Status.internalError "Cannot get method name")

lemma getServiceName_eq_ok_iff (ke t : String) :
    getServiceName ke = .ok t ↔ getToken ke 3 = some t := by
  unfold getServiceName
  cases getToken ke 3 <;> simp

lemma getMethodName_eq_ok_iff (ke t : String) :
    getMethodName ke = .ok t ↔ getToken ke 4 = some t := by
  unfold getMethodName
  cases getToken ke 4 <;> simp

/-! ## Queries and tasks -/

/-- A zenoh query: the handle it is answered on, its key expression and its payload. -/
structure Query where
  handle : ℕ
  keyExpr : String
  payload : Option Bytes
  deriving DecidableEq

/-- The future boxed as a `ServerTaskFuture`, with what it captured. -/
inductive ServerTask (ZenohId World : Type)
  | serviceCall (svc : Service World) (ke : String) (payload : Bytes)
  | serverMetadata (labels : Finset String) (id : ZenohId)
  | createError

variable {ZenohId World : Type}

/-- The loop body of `Server::serve`, up to the spawn. -/
def Server.dispatch (srv : Server ZenohId World) (query : Query) :
    Except Status (ServerTask ZenohId World) :=
  match getToken query.keyExpr 2 with
  | some "service" =>
    match getServiceName query.keyExpr with
    | .error e => .error e
    | .ok serviceName =>
      match srv.services.lookup serviceName with
      | none => .error (Status.internalError ("Service not found: " ++ serviceName))
      | some svc =>
        match query.payload with
        | none => .error (Status.internalError "Query has empty value cannot proceed")
        | some payload => .ok (.serviceCall svc query.keyExpr payload)
  | some "metadata" => .ok (.serverMetadata srv.labels srv.instanceUuid)
  | _ => .ok .createError

/-- A query for a registered service, with the service and the payload it is dispatched with. -/
structure CallsService (srv : Server ZenohId World) (query : Query) (svc : Service World)
    (payload : Bytes) : Prop where
  kind : getToken query.keyExpr 2 = some "service"
  service : ∃ name, getToken query.keyExpr 3 = some name ∧ srv.services.lookup name = some svc
  payload : query.payload = some payload

/-- The tasks a query may be handed to. -/
inductive Dispatched (srv : Server ZenohId World) (query : Query) :
    ServerTask ZenohId World → Prop
  | service {svc : Service World} {payload : Bytes} : CallsService srv query svc payload →
      Dispatched srv query (.serviceCall svc query.keyExpr payload)
  | metadata : getToken query.keyExpr 2 = some "metadata" →
      Dispatched srv query (.serverMetadata srv.labels srv.instanceUuid)
  | unknown : getToken query.keyExpr 2 ≠ some "service" →
      getToken query.keyExpr 2 ≠ some "metadata" → Dispatched srv query .createError

/-- What the loop body does with a query: it hands it to a task, or leaves `serve` on a query for a
service whose name is missing or unknown, or that has no payload. -/
lemma Server.dispatch_cases (srv : Server ZenohId World) (query : Query) :
    (∃ task, srv.dispatch query = .ok task ∧ Dispatched srv query task) ∨
    (∃ e, srv.dispatch query = .error e ∧ getToken query.keyExpr 2 = some "service" ∧
      ∀ svc payload, ¬CallsService srv query svc payload) := by
  unfold Server.dispatch
  split
  · rename_i hkind
    unfold getServiceName
    cases hname : getToken query.keyExpr 3 with
    | none =>
      refine Or.inr ⟨_, rfl, hkind, fun svc payload h => ?_⟩
      obtain ⟨_, hname', _⟩ := h.service
      simp [hname] at hname'
    | some name =>
      cases hsvc : srv.services.lookup name with
      | none =>
        simp only [hsvc]
        refine Or.inr ⟨_, rfl, hkind, fun svc payload h => ?_⟩
        obtain ⟨name', hname', hsvc'⟩ := h.service
        rw [hname] at hname'
        rw [← Option.some.inj hname', hsvc] at hsvc'
        cases hsvc'
      | some svc =>
        simp only [hsvc]
        cases hpayload : query.payload with
        | none =>
          refine Or.inr ⟨_, rfl, hkind, fun svc payload h => ?_⟩
          exact absurd h.payload (by simp [hpayload])
        | some payload =>
          exact Or.inl ⟨_, rfl, .service ⟨hkind, ⟨name, hname, hsvc⟩, hpayload⟩⟩
  · rename_i hkind
    exact Or.inl ⟨_, rfl, .metadata hkind⟩
  · rename_i hservice hmetadata
    exact Or.inl ⟨_, rfl, .unknown hservice hmetadata⟩

/-- A query is handed to the task its key expression and its payload call for. -/
lemma Server.dispatch_of_dispatched {srv : Server ZenohId World} {query : Query}
    {task : ServerTask ZenohId World} (h : Dispatched srv query task) :
    srv.dispatch query = .ok task := by
  cases h with
  | service h =>
    obtain ⟨name, hname, hsvc⟩ := h.service
    simp only [Server.dispatch, getServiceName, h.kind, hname, hsvc, h.payload]
  | metadata hkind => simp only [Server.dispatch, hkind]
  | unknown hservice hmetadata =>
    unfold Server.dispatch
    split
    · contradiction
    · contradiction
    · rfl

/-- The tasks the loop body spawns are the ones queries are dispatched to. -/
lemma Server.dispatch_eq_ok_iff {srv : Server ZenohId World} {query : Query}
    {task : ServerTask ZenohId World} :
    srv.dispatch query = .ok task ↔ Dispatched srv query task := by
  refine ⟨fun h => ?_, Server.dispatch_of_dispatched⟩
  rcases srv.dispatch_cases query with ⟨task', hok, hdisp⟩ | ⟨e, herr, _⟩
  · rw [hok] at h
    rwa [← Except.ok.inj h]
  · rw [herr] at h
    cases h

/-- The loop body fails exactly on a query for a service that it cannot call. -/
lemma Server.exists_dispatch_error_iff {srv : Server ZenohId World} {query : Query} :
    (∃ e, srv.dispatch query = .error e) ↔
      getToken query.keyExpr 2 = some "service" ∧
        ∀ svc payload, ¬CallsService srv query svc payload := by
  constructor
  · rintro ⟨e, herr⟩
    rcases srv.dispatch_cases query with ⟨task, hok, _⟩ | ⟨_, _, hkind, hnone⟩
    · rw [hok] at herr
      cases herr
    · exact ⟨hkind, hnone⟩
  · rintro ⟨hkind, hnone⟩
    rcases srv.dispatch_cases query with ⟨task, _, hdisp⟩ | ⟨e, herr, _⟩
    · cases hdisp with
      | service h => exact absurd h (hnone _ _)
      | metadata hmetadata => simp [hkind] at hmetadata
      | unknown hservice _ => exact absurd hkind hservice
    · exact ⟨e, herr⟩

/-- A query for a service calls one service, with one payload. -/
lemma CallsService.unique {srv : Server ZenohId World} {query : Query} {svc svc' : Service World}
    {payload payload' : Bytes} (h : CallsService srv query svc payload)
    (h' : CallsService srv query svc' payload') : svc = svc' ∧ payload = payload' := by
  obtain ⟨name, hname, hsvc⟩ := h.service
  obtain ⟨name', hname', hsvc'⟩ := h'.service
  rw [hname, Option.some.injEq] at hname'
  rw [hname', hsvc', Option.some.injEq] at hsvc
  refine ⟨hsvc.symm, ?_⟩
  rw [← Option.some.injEq, ← h.payload, h'.payload]

/-- A query is dispatched in one way. -/
lemma Dispatched.unique {srv : Server ZenohId World} {query : Query}
    {task task' : ServerTask ZenohId World} (h : Dispatched srv query task)
    (h' : Dispatched srv query task') : task = task' := by
  have hok := Server.dispatch_of_dispatched h
  rw [Server.dispatch_of_dispatched h'] at hok
  exact (Except.ok.inj hok).symm

/-! ## Running a task -/

section Run

variable [Runtime] [Zenoh ZenohId]

/-- `map_err` of a serialization error into a status. -/
def serializationStatus (r : ZRPCResult Bytes) : Except Status Bytes :=
  r.mapError fun e => Status.internalError ("Serialization error: " ++ debug e)

/-- The message `service_call` calls a service with. -/
def callMessage (methodName : String) (payload : Bytes) : Message where
  method := methodName
  body := payload
  metadata := ∅
  status := Status.new .accepted ""

/-- What `service_call` makes of a service's result. -/
def serviceReply : Except Status Message → Except Status Bytes
  | .ok msg => serializationStatus (serialize (T := WireMessage) ⟨some msg.body, Status.ok ""⟩)
  | .error e => serializationStatus (serialize (T := WireMessage) ⟨none, e⟩)

/-- `Server::service_call`. -/
def serviceCall (w : World) (svc : Service World) (ke : String) (payload : Bytes) :
    Exec World (Except Status Bytes) :=
  match getMethodName ke with
  | .error e => .pure (.error e)
  | .ok methodName => (svc.call w (callMessage methodName payload)).map serviceReply

/-- A call of a method of a generated service runs the arm of that method. -/
lemma serviceCall_of_mem (w : World) {svc : GeneratedService World} {me : ServiceMethod World}
    (hme : me ∈ svc.methods) {ke : String} (hke : getToken ke 4 = some me.ident.toString)
    (payload : Bytes) :
    serviceCall w (.generated svc) ke payload = (me.arm w payload).map serviceReply := by
  rw [serviceCall, getMethodName, hke]
  exact congrArg (Exec.map serviceReply) (svc.call_of_mem hme w rfl)

/-- `Server::server_metadata`. -/
def serverMetadata (labels : Finset String) (id : ZenohId) : Except Status Bytes :=
  match serializationStatus (serialize (T := ServerMetadata ZenohId) ⟨labels, id⟩) with
  | .error e => .error e
  | .ok serializedMetadata =>
    serializationStatus (serialize (T := WireMessage) ⟨some serializedMetadata, Status.ok ""⟩)

/-- `Server::create_error`. -/
def createError : Except Status Bytes := .error (Status.unavailable "Unavailable")

/-- Running a future to its end. -/
def ServerTask.run (w : World) : ServerTask ZenohId World → Exec World (Except Status Bytes)
  | .serviceCall svc ke payload => ZenohRpc.serviceCall w svc ke payload
  | .serverMetadata labels id => .pure (ZenohRpc.serverMetadata labels id)
  | .createError => .pure ZenohRpc.createError

/-- The bytes the spawned task replies with. -/
def sample : Except Status Bytes → Bytes
  | .ok data => data
  | .error e => unwrapOrDefault (serialize (T := WireMessage) ⟨none, e⟩)

/-- The user code that a server runs for a query, when the task for it runs in a world. -/
def Server.invokedBy (srv : Server ZenohId World) (w : World) (query : Query) :
    List (Invocation World) :=
  match srv.dispatch query with
  | .ok task => (task.run w).invoked
  | .error _ => []

/-- The bytes that a server replies to a query, if the loop body hands it to a task that does not
panic. -/
def Server.replyTo (srv : Server ZenohId World) (w : World) (query : Query) : Option Bytes :=
  match srv.dispatch query with
  | .ok task =>
    match (task.run w).outcome with
    | .returned res => some (sample res)
    | .panicked => none
  | .error _ => none

/-- A reply is what a task that returned makes of its result. -/
lemma Server.replyTo_eq_some_iff {srv : Server ZenohId World} {w : World} {query : Query}
    {bytes : Bytes} : srv.replyTo w query = some bytes ↔
      ∃ task res, srv.dispatch query = .ok task ∧ (task.run w).outcome = .returned res ∧
        sample res = bytes := by
  unfold Server.replyTo
  cases srv.dispatch query with
  | error e => simp
  | ok task => cases hrun : (task.run w).outcome <;> simp [hrun]

/-- What a server does for a query that calls a method with a request: it runs the method's handler
on the request, and replies with what the handler returned. -/
lemma Server.call_of_mem {srv : Server ZenohId World} {query : Query} {svc : GeneratedService World}
    {payload : Bytes} {me : ServiceMethod World} {req : Request me.Req}
    (hcalls : CallsService srv query (.generated svc) payload) (hme : me ∈ svc.methods)
    (hmethod : getToken query.keyExpr 4 = some me.ident.toString)
    (hreq : deserialize (Request me.Req) payload = .ok req) (w : World) :
    srv.invokedBy w query = [.handler me req] ∧
      ∀ bytes, srv.replyTo w query = some bytes ↔ ∃ res, me.handler w req = .returned res ∧
        sample (serviceReply (res.map Response.toMessage)) = bytes := by
  have hdispatch := Server.dispatch_of_dispatched (.service hcalls)
  have hrun : (ServerTask.serviceCall (.generated svc) query.keyExpr payload :
      ServerTask ZenohId World).run w =
      ⟨[.handler me req], ((me.handler w req).map (Except.map Response.toMessage)).map
        serviceReply⟩ := by
    rw [ServerTask.run, serviceCall_of_mem w hme hmethod, me.arm_of_ok w hreq]
    rfl
  refine ⟨by rw [invokedBy, hdispatch]; simp only [hrun], fun bytes => ?_⟩
  simp only [replyTo, hdispatch, hrun]
  cases me.handler w req with
  | panicked => simp
  | returned res => simp

/-! ## What a reply means -/

/-- The wire message that answers with a service's result. -/
def serviceAnswer : Except Status Message → WireMessage
  | .ok msg => ⟨some msg.body, Status.ok ""⟩
  | .error e => ⟨none, e⟩

/-- The bytes of server metadata. -/
def metadataPayload (labels : Finset String) (id : ZenohId) : Bytes :=
  unwrapOrDefault (serialize (T := ServerMetadata ZenohId) ⟨labels, id⟩)

/-- What a task answers: the result of the service for the method of the key expression, the
server's metadata, or an error. -/
def ServerTask.answer (w : World) : ServerTask ZenohId World → Exec World WireMessage
  | .serviceCall svc ke payload =>
    match getMethodName ke with
    | .error e => .pure ⟨none, e⟩
    | .ok methodName => (svc.call w (callMessage methodName payload)).map serviceAnswer
  | .serverMetadata labels id => .pure ⟨some (metadataPayload labels id), Status.ok ""⟩
  | .createError => .pure ⟨none, Status.unavailable "Unavailable"⟩

/-- An error is replied as a wire message without payload. -/
lemma decode_sample_error (e : Status) :
    deserialize WireMessage (sample (.error e)) = .ok ⟨none, e⟩ := by
  obtain ⟨raw, hraw, hread⟩ := deserialize_serialize_wireMessage ⟨none, e⟩
  rw [sample, hraw]
  exact hread

/-- A wire message that is written is replied as it is. -/
lemma decode_sample_serialize (m : WireMessage) :
    deserialize WireMessage (sample (serializationStatus (serialize m))) = .ok m := by
  obtain ⟨raw, hraw, hread⟩ := deserialize_serialize_wireMessage m
  rw [hraw]
  exact hread

/-- A service's result is replied as the answer it stands for. -/
lemma decode_sample_serviceReply (res : Except Status Message) :
    deserialize WireMessage (sample (serviceReply res)) = .ok (serviceAnswer res) := by
  cases res with
  | ok msg => exact decode_sample_serialize _
  | error e => exact decode_sample_serialize _

/-- Metadata is replied as the answer that carries it. -/
lemma decode_sample_serverMetadata (labels : Finset String) (id : ZenohId) :
    deserialize WireMessage (sample (serverMetadata labels id)) =
      .ok ⟨some (metadataPayload labels id), Status.ok ""⟩ := by
  obtain ⟨raw, hraw, _⟩ := deserialize_serialize_serverMetadata
    (⟨labels, id⟩ : ServerMetadata ZenohId)
  rw [serverMetadata, metadataPayload, hraw]
  exact decode_sample_serialize _

/-- The payload of a metadata answer decodes as the server's metadata. -/
lemma deserialize_metadataPayload (labels : Finset String) (id : ZenohId) :
    deserialize (ServerMetadata ZenohId) (metadataPayload labels id) = .ok ⟨labels, id⟩ := by
  obtain ⟨raw, hraw, hread⟩ := deserialize_serialize_serverMetadata
    (⟨labels, id⟩ : ServerMetadata ZenohId)
  rw [metadataPayload, hraw]
  exact hread

/-- Whatever a task does, it runs the user code its answer calls for, and the bytes it replies with
decode as its answer. -/
theorem ServerTask.run_answer (w : World) (task : ServerTask ZenohId World) :
    (task.run w).map (fun res => deserialize WireMessage (sample res)) =
      (task.answer w).map Except.ok := by
  cases task with
  | serviceCall svc ke payload =>
    rw [run, answer, ZenohRpc.serviceCall]
    cases getMethodName ke with
    | error e => simp only [Exec.map, Exec.pure, Outcome.map_returned, decode_sample_error]
    | ok methodName =>
      simp only [Exec.map]
      cases (svc.call w (callMessage methodName payload)).outcome with
      | panicked => rfl
      | returned res => simp only [Outcome.map_returned, decode_sample_serviceReply]
  | serverMetadata labels id =>
    simp only [run, answer, Exec.map, Exec.pure, Outcome.map_returned,
      decode_sample_serverMetadata]
  | createError =>
    simp only [run, answer, Exec.map, Exec.pure, Outcome.map_returned, ZenohRpc.createError,
      decode_sample_error]

/-- The reply of a task that returned decodes as the task's answer. -/
lemma ServerTask.answer_of_run {w : World} {task : ServerTask ZenohId World}
    {res : Except Status Bytes} (h : (task.run w).outcome = .returned res) :
    ∃ m, (task.answer w).outcome = .returned m ∧ deserialize WireMessage (sample res) = .ok m := by
  have hanswer := congrArg Exec.outcome (task.run_answer w)
  rw [Exec.outcome_map, h, Exec.outcome_map, Outcome.map_returned] at hanswer
  obtain ⟨m, hm, hread⟩ := (Outcome.map_eq_returned_iff _ _ _).mp hanswer.symm
  exact ⟨m, hm, hread.symm⟩

end Run

end ZenohRpc
