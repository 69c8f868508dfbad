import ZenohRpc.Client.Channel
import ZenohRpc.Json.Record
import ZenohRpc.Server.Replies
import ZenohRpc.Wire.RoundTrip

/-!
# Calls end to end

A client's call, `call_fun`, composed with the server it is for.  Of zenoh it is assumed that the
query reaches the server and that the server's reply, if it makes one, comes back first, both
unchanged (`Delivers`).  Then a call is transparent: the client gets what the handler of the method
returned on the client's request, if the request as a whole survives the wire and the handler
returns.

Only the message of a response travels, so the metadata of a response is lost.
-/

namespace ZenohRpc

open Json KeyExpr

variable {ZenohId World : Type}

/-! ## The generated client -/

/-- The channel of the client that `#[service]` generates. -/
def GeneratedService.channel (svc : GeneratedService World) : RPCClientChannel := ⟨svc.name⟩

section Client

variable [Zenoh ZenohId]

/-- The `get` that the generated client makes for a method. -/
def GeneratedService.getRequest (svc : GeneratedService World) (me : ServiceMethod World)
    (serverId : ZenohId) (raw : Bytes) (tout : ℕ) : GetRequest :=
  svc.channel.getRequest serverId raw me.ident.toString tout

variable {srv : Server ZenohId World} {svc : GeneratedService World}

/-- The call of a method of a generated service is for the service, with the method's name. -/
lemma chunks_getRequest (svc : GeneratedService World) (me : ServiceMethod World)
    (serverId : ZenohId) (raw : Bytes) (tout handle : ℕ) :
    chunks ((svc.getRequest me serverId raw tout).query handle).keyExpr =
      ["@rpc", Zenoh.display serverId, "service", svc.name, me.ident.toString] := by
  have hke : ((svc.getRequest me serverId raw tout).query handle).keyExpr =
      svc.channel.selector serverId me.ident.toString := by
    have hname : '?' ∉ svc.channel.serviceName.toList := svc.ident.noQuestion
    exact (RPCClientChannel.selectorKeyExpr_selector_of_notMem hname serverId _).trans
      (by rw [selectorKeyExpr_of_notMem me.ident.noQuestion])
  have hname : '/' ∉ svc.channel.serviceName.toList := svc.ident.noSlash
  rw [hke, RPCClientChannel.chunks_selector, chunks_of_notMem hname,
    chunks_of_notMem me.ident.noSlash]
  rfl

lemma getToken_getRequest (svc : GeneratedService World) (me : ServiceMethod World)
    (serverId : ZenohId) (raw : Bytes) (tout handle : ℕ) :
    getToken ((svc.getRequest me serverId raw tout).query handle).keyExpr 4 =
      some me.ident.toString := by
  rw [getToken, chunks_getRequest]
  rfl

/-- The call of a method of a registered service reaches that service. -/
lemma callsService_getRequest (hsvc : srv.services.lookup svc.name = some (.generated svc))
    (me : ServiceMethod World) (raw : Bytes) (tout handle : ℕ) :
    CallsService srv ((svc.getRequest me srv.instanceUuid raw tout).query handle)
      (.generated svc) raw where
  kind := by rw [getToken, chunks_getRequest]; rfl
  service := ⟨svc.name, by rw [getToken, chunks_getRequest]; rfl, hsvc⟩
  payload := rfl

end Client

section

variable [Runtime] [Zenoh ZenohId]

/-- The call that the generated client makes, once it has found a server. -/
def GeneratedService.clientCall (svc : GeneratedService World) (me : ServiceMethod World)
    (get : Get) (serverId : ZenohId) (request : Request me.Req) (tout : ℕ) :
    Except Status (Response me.Resp) :=
  svc.channel.callFun me.Resp get serverId request me.ident.toString tout

/-- The query of a `get` reaches the server, and the reply that the server makes in a world, if it
makes one, comes back first. -/
def Delivers (get : Get) (srv : Server ZenohId World) (w : World) (req : GetRequest) (handle : ℕ) :
    Prop :=
  ∀ bytes, srv.replyTo w (req.query handle) = some bytes →
    ∃ rest, get req = .ok (.ok bytes :: rest)

variable {srv : Server ZenohId World} {svc : GeneratedService World} {me : ServiceMethod World}
  {get : Get} {w : World} {request : Request me.Req} {tout handle : ℕ}

/-! ## Transparency -/

/-- A call is transparent.  The server runs the handler of the method called, and nothing else, on
the request, and replies unless the handler panics; and with a reply the client gets a response with
the message the handler returned, or the error it returned. -/
theorem clientCall_transparent
    (hsvc : srv.services.lookup svc.name = some (.generated svc)) (hme : me ∈ svc.methods)
    (hrequest : RoundTrips maxDepth request)
    (hreturn : ∀ resp, me.handler w request = .returned (.ok resp) →
      RoundTrips maxDepth resp.message)
    (hdelivers : ∀ raw, serialize request = .ok raw →
      Delivers get srv w (svc.getRequest me srv.instanceUuid raw tout) handle) :
    (∃ raw, serialize request = .ok raw ∧
      srv.invokedBy w ((svc.getRequest me srv.instanceUuid raw tout).query handle) =
        [.handler me request] ∧
      ((∃ bytes, srv.replyTo w ((svc.getRequest me srv.instanceUuid raw tout).query handle) =
        some bytes) ↔ me.handler w request ≠ .panicked)) ∧
    (me.handler w request ≠ .panicked →
      (∀ r, (∃ response, svc.clientCall me get srv.instanceUuid request tout = .ok response ∧
          response.message = r) ↔
        ∃ resp, me.handler w request = .returned (.ok resp) ∧ resp.message = r) ∧
      (∀ s, svc.clientCall me get srv.instanceUuid request tout = .error s ↔
        me.handler w request = .returned (.error s))) := by
  obtain ⟨raw, hraw, hread⟩ := deserialize_serialize hrequest
  obtain ⟨hinvoked, hreply⟩ := Server.call_of_mem
    (callsService_getRequest hsvc me raw tout handle) hme (getToken_getRequest ..) hread w
  cases hresult : me.handler w request with
  | panicked => simp [hraw, hinvoked, hreply, hresult]
  | returned res =>
    have hbytes := (hreply _).mpr ⟨res, hresult, rfl⟩
    obtain ⟨rest, hget⟩ := hdelivers raw hraw _ hbytes
    have hcall : svc.clientCall me get srv.instanceUuid request tout = _ :=
      RPCClientChannel.callFun_of_get hraw hget
    have hdecode := decode_sample_serviceReply (res.map Response.toMessage)
    refine ⟨⟨raw, hraw, hinvoked, by simp [hbytes]⟩, fun _ => ?_⟩
    rw [hcall]
    cases res with
    | ok resp =>
      obtain ⟨body, hbody, hread⟩ := deserialize_serialize (hreturn resp hresult)
      rw [RPCClientChannel.readReply_ok hdecode hbody hread]
      simp [Response.new]
    | error e =>
      rw [RPCClientChannel.readReply_error hdecode]
      simp

/-! ## Metadata -/

/-- A handler that runs for a call runs on what the request was read as. -/
lemma deserialize_of_invokedBy {raw : Bytes} {req' : Request me.Req}
    (hsvc : srv.services.lookup svc.name = some (.generated svc)) (hme : me ∈ svc.methods)
    (hinvoked : .handler me req' ∈ srv.invokedBy w
      ((svc.getRequest me srv.instanceUuid raw tout).query handle)) :
    deserialize (Request me.Req) raw = .ok req' := by
  have hcalls := callsService_getRequest hsvc me raw tout handle
  rw [Server.invokedBy, Server.dispatch_of_dispatched (.service hcalls)] at hinvoked
  simp only [ServerTask.run, serviceCall_of_mem w hme (getToken_getRequest ..),
    Exec.invoked_map] at hinvoked
  rcases me.arm_cases w raw with ⟨_, harm⟩ | ⟨req, hreq, harm⟩
  · rw [harm] at hinvoked
    simp at hinvoked
  · rw [harm, List.mem_singleton] at hinvoked
    cases hinvoked
    exact hreq

/-- A call whose handler returned a response that can be written and read returns what is read of
its message, without metadata. -/
lemma clientCall_of_response {req' : Request me.Req} {resp : Response me.Resp} {raw body : Bytes}
    {r : me.Resp} (hsvc : srv.services.lookup svc.name = some (.generated svc))
    (hme : me ∈ svc.methods) (hraw : serialize request = .ok raw)
    (hread : deserialize (Request me.Req) raw = .ok req')
    (hresp : me.handler w req' = .returned (.ok resp))
    (hbody : serialize resp.message = .ok body) (hr : deserialize me.Resp body = .ok r)
    (hdelivers : Delivers get srv w (svc.getRequest me srv.instanceUuid raw tout) handle) :
    svc.clientCall me get srv.instanceUuid request tout = .ok (Response.new r) := by
  obtain ⟨_, hreply⟩ := Server.call_of_mem
    (callsService_getRequest hsvc me raw tout handle) hme (getToken_getRequest ..) hread w
  obtain ⟨rest, hget⟩ := hdelivers _ ((hreply _).mpr ⟨.ok resp, hresp, rfl⟩)
  have hcall : svc.clientCall me get srv.instanceUuid request tout = _ :=
    RPCClientChannel.callFun_of_get hraw hget
  have hdecode := decode_sample_serviceReply (Except.map Response.toMessage (.ok resp))
  rw [hcall, RPCClientChannel.readReply_ok hdecode hbody hr]

/-- The metadata of a call is carried in both directions exactly when the response has none: the
handler sees the metadata of the request, whatever becomes of the message, and the client gets a
response without metadata. -/
theorem metadata_carried_iff {req' : Request me.Req} {resp : Response me.Resp} {raw : Bytes}
    (hsvc : srv.services.lookup svc.name = some (.generated svc)) (hme : me ∈ svc.methods)
    (hraw : serialize request = .ok raw)
    (hinvoked : .handler me req' ∈ srv.invokedBy w
      ((svc.getRequest me srv.instanceUuid raw tout).query handle))
    (hresp : me.handler w req' = .returned (.ok resp))
    (hmessage : ∃ body, serialize resp.message = .ok body ∧
      ∃ r, deserialize me.Resp body = .ok r)
    (hdelivers : Delivers get srv w (svc.getRequest me srv.instanceUuid raw tout) handle) :
    ∃ r', svc.clientCall me get srv.instanceUuid request tout = .ok r' ∧
      ((req'.metadata = request.metadata ∧ r'.metadata = resp.metadata) ↔ resp.metadata = ∅) := by
  have hread := deserialize_of_invokedBy hsvc hme hinvoked
  have hseen : req'.metadata = request.metadata :=
    Request.metadata_of_reread (reread_of_deserialize hraw hread)
  obtain ⟨body, hbody, r, hr⟩ := hmessage
  refine ⟨_, clientCall_of_response hsvc hme hraw hread hresp hbody hr hdelivers,
    fun h => h.2.symm, fun h => ⟨hseen, ?_⟩⟩
  rw [h]
  rfl

/-- A network with one server, which runs every query in a world. -/
def Server.network (srv : Server ZenohId World) (w : World) : Get := fun req =>
  .ok ((srv.replyTo w (req.query 0)).toList.map .ok)

/-- Such a network delivers every query. -/
lemma delivers_network (req : GetRequest) : Delivers (srv.network w) srv w req 0 := by
  intro bytes h
  exact ⟨[], by rw [Server.network, h]; rfl⟩

/-- A call whose arm panics is not replied to, and fails at the client. -/
lemma clientCall_of_panicked (hsvc : srv.services.lookup svc.name = some (.generated svc))
    (hme : me ∈ svc.methods) {raw : Bytes} (hraw : serialize request = .ok raw)
    (harm : (me.arm w raw).outcome = .panicked) :
    ∃ s, svc.clientCall me (srv.network w) srv.instanceUuid request tout = .error s := by
  have hdispatch := Server.dispatch_of_dispatched
    (.service (callsService_getRequest hsvc me raw tout 0))
  have hrun : ((ServerTask.serviceCall (.generated svc)
      ((svc.getRequest me srv.instanceUuid raw tout).query 0).keyExpr raw :
        ServerTask ZenohId World).run w).outcome = .panicked := by
    rw [ServerTask.run, serviceCall_of_mem w hme (getToken_getRequest ..), Exec.outcome_map, harm]
    rfl
  have hsilent : srv.replyTo w ((svc.getRequest me srv.instanceUuid raw tout).query 0) = none := by
    simp only [Server.replyTo, hdispatch, hrun]
  have hget : srv.network w (svc.getRequest me srv.instanceUuid raw tout) = .ok [] := by
    rw [Server.network, hsilent]
    rfl
  exact ⟨_, RPCClientChannel.callFun_of_get_nil hraw hget⟩

end

/-! ## Calls of the tests' server -/

open Reference

/-- The request of the tests. -/
def helloRequest : Request HelloRequest := Request.new ⟨"client"⟩

/-- A request for `hello` is written, and its handler runs on it. -/
lemma invokedBy_helloRequest {Resp : Type} [Serde Resp]
    (handler : Request HelloRequest → Except Status (Response Resp))
    (request : Request HelloRequest) :
    ∃ raw, serialize request = .ok raw ∧
      deserialize (Request HelloRequest) raw = .ok request ∧
      .handler (helloMethod Resp handler) request ∈
        (helloServer (helloMethod Resp handler)).invokedBy ()
          (((helloService (helloMethod Resp handler)).getRequest (helloMethod Resp handler)
            session.zid raw 0).query 0) := by
  have hround : RoundTrips maxDepth request :=
    (Request.roundTrips (roundTrips_helloRequest _)).mono (by decide)
  obtain ⟨raw, hraw, hread⟩ := deserialize_serialize hround
  obtain ⟨hinvoked, _⟩ := Server.call_of_mem
    (callsService_getRequest (lookup_helloServer (helloMethod Resp handler)) _ raw 0 0)
    (mem_helloService handler) (getToken_getRequest ..) hread ()
  exact ⟨raw, hraw, hread, hinvoked ▸ List.mem_singleton_self _⟩

/-- The tests' client is greeted. -/
theorem clientCall_hello :
    ∃ response, (helloService hello).clientCall hello ((helloServer hello).network ()) session.zid
        helloRequest 0 = .ok response ∧
      response.message = "Hello client!, you are connected to test service" := by
  have hsvc := lookup_helloServer hello
  have hme : hello ∈ (helloService hello).methods := mem_helloService greet
  have hrequest : RoundTrips maxDepth helloRequest :=
    (Request.roundTrips (roundTrips_helloRequest _)).mono (by decide)
  have hreturn : ∀ resp : Response String, hello.handler () helloRequest = .returned (.ok resp) →
      RoundTrips maxDepth resp.message :=
    fun resp _ => (roundTrips_string resp.message).mono (by decide)
  have hpanic : hello.handler () helloRequest ≠ .panicked := by simp [hello, helloMethod]
  exact (((clientCall_transparent hsvc hme hrequest hreturn
    fun raw _ => delivers_network _).2 hpanic).1 _).mpr ⟨_, rfl, rfl⟩

/-- The method `hello` with a handler that panics. -/
def helloPanicking : ServiceMethod Unit := { hello with handler := fun _ _ => .panicked }

/-- An argument that is a nested vector: with the struct around it, it needs all the levels of the
reader. -/
def deepField : Field := ⟨"name", Nested (maxDepth - 1), inferInstance⟩

/-- The request of a method with such an argument. -/
abbrev DeepRequest : Type := Record [deepField]

/-- Such a method, with a handler that greets. -/
def helloDeep : ServiceMethod Unit where
  ident := hello.ident
  Req := DeepRequest
  Resp := String
  serdeReq := inferInstance
  serdeResp := inferInstance
  debugReq := ⟨fun _ => "HelloRequest"⟩
  handler _ _ := .returned (.ok (Response.new "Hello client!"))

/-- The argument of the deepest vector. -/
def deepMessage : DeepRequest := (nest (maxDepth - 1), ())

/-- The deepest argument round-trips on its own. -/
lemma roundTrips_deepMessage : RoundTrips maxDepth deepMessage := by
  have hargument : Record.AllRoundTrip (maxDepth - 1) [deepField] deepMessage :=
    ⟨roundTrips_nested _ _, trivial⟩
  have hnames : ([deepField].map Field.name).Nodup := List.nodup_singleton _
  exact (Record.roundTrips hnames hargument).mono (by decide)

/-- Its document needs all the levels of the reader. -/
lemma toDocument_deepMessage :
    ∃ d, Serde.toDocument deepMessage = .ok d ∧ maxDepth ≤ Serde.levels DeepRequest d := by
  obtain ⟨d, hd, hlevels⟩ := toDocument_nest (maxDepth - 1)
  refine ⟨.obj [("name", d)], ?_, ?_⟩
  · change (do let d ← Serde.toDocument (nest (maxDepth - 1)); return [("name", d)]).map
      Document.obj = _
    rw [hd]
    rfl
  · have hnamed : Document.named [("name", d)] "name" = [d] := by simp [Document.named]
    have hfield := (levelsField_of_named (α := Nested (maxDepth - 1)) hnamed).trans hlevels
    change maxDepth ≤ max (levelsField (Nested (maxDepth - 1)) [("name", d)] "name") 0 + 1
    rw [hfield]
    decide

/-- Two calls that fail at the client with an error that no handler returned, though what they send
and return round-trips: one whose handler panics, and one whose argument is read on its own but not
within the request. -/
theorem not_clientCall_transparent :
    (RoundTrips maxDepth helloRequest.message ∧
      (∀ s, helloPanicking.handler () helloRequest ≠ .returned (.error s)) ∧
      ∃ s, (helloService helloPanicking).clientCall helloPanicking
        ((helloServer helloPanicking).network ()) session.zid helloRequest 0 = .error s) ∧
    RoundTrips maxDepth deepMessage ∧ RoundTrips maxDepth "Hello client!" ∧
      helloDeep.handler () (Request.new deepMessage) =
        .returned (.ok (Response.new "Hello client!")) ∧
      ∃ s, (helloService helloDeep).clientCall helloDeep ((helloServer helloDeep).network ())
        session.zid (Request.new deepMessage) 0 = .error s := by
  refine ⟨⟨(roundTrips_helloRequest _).mono (by decide), fun s => ?_, ?_⟩,
    roundTrips_deepMessage, (roundTrips_string _).mono (by decide), rfl, ?_⟩
  · simp [helloPanicking]
  · have hrequest : RoundTrips maxDepth helloRequest :=
      (Request.roundTrips (roundTrips_helloRequest _)).mono (by decide)
    obtain ⟨raw, hraw, hread⟩ := deserialize_serialize hrequest
    have harm := helloPanicking.arm_of_ok () hread
    exact clientCall_of_panicked (lookup_helloServer helloPanicking) (List.mem_singleton_self _)
      hraw (by rw [harm]; rfl)
  · obtain ⟨d, hd, hdeep⟩ := toDocument_deepMessage
    obtain ⟨raw, e, hraw, herror⟩ :=
      exists_deserialize_request_error (r := Request.new deepMessage) hd hdeep
    have harm : helloDeep.arm () raw = ⟨[], .panicked⟩ := by
      rcases helloDeep.arm_cases () raw with ⟨_, harm⟩ | ⟨req, hreq, _⟩
      · exact harm
      · exact absurd (herror.symm.trans hreq) (by simp)
    exact clientCall_of_panicked (lookup_helloServer helloDeep) (List.mem_singleton_self _)
      hraw (by rw [harm])

/-- A request with metadata. -/
def tracedRequest : Request HelloRequest := ⟨(∅ : StringMap).insert "trace" "1", ⟨"client"⟩⟩

/-- A call of `hello`, whose response has no metadata, carries the metadata of its request. -/
theorem metadata_carried_hello : ∃ raw r', serialize tracedRequest = .ok raw ∧
    (helloService hello).clientCall hello ((helloServer hello).network ()) session.zid
      tracedRequest 0 = .ok r' ∧ r'.metadata = ∅ := by
  obtain ⟨raw, hraw, _, hinvoked⟩ := invokedBy_helloRequest greet tracedRequest
  have hresp : hello.handler () tracedRequest = .returned (greet tracedRequest) := rfl
  obtain ⟨body, hbody, hr⟩ := deserialize_serialize ((roundTrips_string
    "Hello client!, you are connected to test service").mono (by decide : 0 ≤ maxDepth))
  obtain ⟨r', hcall, hiff⟩ := metadata_carried_iff (lookup_helloServer hello)
    (mem_helloService greet) hraw hinvoked hresp ⟨body, hbody, _, hr⟩
    (delivers_network _)
  exact ⟨raw, r', hraw, hcall, (hiff.mpr rfl).2⟩

/-- A handler that answers with metadata. -/
def tag (_ : Request HelloRequest) : Except Status (Response String) :=
  .ok ⟨(∅ : StringMap).insert "trace" "1", "tagged"⟩

/-- The metadata of a response is lost on its way to the client. -/
theorem metadata_lost :
    ∃ r', (helloService (helloMethod String tag)).clientCall (helloMethod String tag)
        ((helloServer (helloMethod String tag)).network ()) session.zid tracedRequest 0 = .ok r' ∧
      ∀ resp, tag tracedRequest = .ok resp → r'.metadata ≠ resp.metadata := by
  obtain ⟨raw, hraw, hread, _⟩ := invokedBy_helloRequest tag tracedRequest
  obtain ⟨body, hbody, hr⟩ := deserialize_serialize
    ((roundTrips_string "tagged").mono (by decide : 0 ≤ maxDepth))
  refine ⟨_, clientCall_of_response (lookup_helloServer (helloMethod String tag))
    (mem_helloService tag) hraw hread rfl hbody hr (delivers_network _), fun resp hresp hsame => ?_⟩
  have hlookup := congrArg (Finmap.lookup "trace") hsame
  rw [← Except.ok.inj hresp] at hlookup
  simp [Response.new] at hlookup

end ZenohRpc
