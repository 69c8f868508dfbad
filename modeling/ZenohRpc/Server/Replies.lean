import ZenohRpc.Server.Robustness

/-!
# The replies of a server

Which query a reply belongs to, and what it says.

Any number of tasks are pending at once, and they end in any order.  Each of them keeps the query
it was spawned for, so the replies of a server never mix: `NoCrossTalk` holds in every state.

What a reply says should agree with its status: a reply is `Consistent` when its status is `Ok`
exactly if it carries a payload of the type the client expects.  This fails for a response that
cannot be written, since `From<Response<T>> for Message` turns it into an empty body.
-/

namespace ZenohRpc

open Json KeyExpr

variable {ZenohId World : Type}

section

variable [Runtime] [Zenoh ZenohId] {srv : Server ZenohId World}

/-! ## Whose reply it is -/

/-- Every query received has its own handle and at most one reply.  A reply is that of a task which
has ended: it is made on the handle and the key expression of the query that the task is for, which
was received; the task is the one that such a query is dispatched to, a call of its service with its
payload, the metadata of the server, or the error for anything else; and the bytes are what the task
came to in the world it ran in. -/
structure LoopState.NoCrossTalk (srv : Server ZenohId World) (s : LoopState ZenohId World) :
    Prop where
  received : (s.received.map Query.handle).Nodup
  replies : (s.replies.map QueryReply.handle).Nodup
  own : ∀ r ∈ s.replies, ∃ q ∈ s.received, r.handle = q.handle ∧ r.keyExpr = q.keyExpr ∧
    ∃ e ∈ s.completed, e.task.query = q ∧ e.reply = some r ∧ Dispatched srv q e.task.fut ∧
      ∃ res, (e.task.fut.run e.world).outcome = .returned res ∧ r.sample = sample res

/-- The queries received have their own handles. -/
lemma LoopState.Inv.nodup_received {s : LoopState ZenohId World} (h : s.Inv srv) :
    (s.received.map Query.handle).Nodup := by
  have harrived : (s.arrived.map Query.handle).Nodup := by
    rw [h.handles]
    exact List.nodup_range
  exact (h.arrivals.sublist.map _).nodup harrived

/-- The tasks spawned belong to queries with different handles. -/
lemma LoopState.Inv.nodup_tasks {s : LoopState ZenohId World} (h : s.Inv srv) :
    (s.tasks.map fun t => t.query.handle).Nodup := by
  obtain ⟨qs, hperm, hsub⟩ := h.tasks
  have hnodup := (hsub.map Query.handle).nodup h.nodup_received
  rw [(hperm.map Query.handle).nodup_iff, List.map_map] at hnodup
  exact hnodup

/-- The tasks that have ended belong to queries with different handles. -/
lemma LoopState.Inv.nodup_completed {s : LoopState ZenohId World} (h : s.Inv srv) :
    (s.completed.map fun c => c.task.query.handle).Nodup := by
  have hsub : (s.completed.map fun c => c.task.query.handle).Sublist
      (s.tasks.map fun t => t.query.handle) := by
    rw [LoopState.tasks, List.map_append, List.map_map]
    exact List.sublist_append_right _ _
  exact hsub.nodup h.nodup_tasks

/-- The replies sent are replies of different tasks. -/
lemma sublist_replies {cs : List (Completion ZenohId World)}
    (h : ∀ c ∈ cs, c = c.task.complete c.world) :
    ((cs.filterMap Completion.reply).map QueryReply.handle).Sublist
      (cs.map fun c => c.task.query.handle) := by
  induction cs with
  | nil => exact .slnil
  | cons c cs ih =>
    have hrest := ih fun c' hc' => h c' (by simp [hc'])
    have hcomplete := h c (by simp)
    rw [List.filterMap_cons, List.map_cons]
    cases hreply : c.reply with
    | none => exact .cons _ hrest
    | some r =>
      have hhandle : r.handle = c.task.query.handle := by
        rw [hcomplete] at hreply
        exact c.task.handle_reply hreply
      rw [List.map_cons, hhandle]
      exact .cons_cons _ hrest

/-- Replies never mix, whatever is received and completed in between, and also when `serve` is gone
while tasks are pending. -/
theorem LoopState.noCrossTalk {s : LoopState ZenohId World} (h : (serveLoop srv).Reachable s) :
    s.NoCrossTalk srv := by
  have hinv := inv_of_reachable h
  refine ⟨hinv.nodup_received, ?_, ?_⟩
  · exact (sublist_replies hinv.completed).nodup hinv.nodup_completed
  · intro r hr
    obtain ⟨e, he, hreply⟩ := List.mem_filterMap.mp hr
    have htask : e.task ∈ s.tasks := List.mem_append_right _ (List.mem_map_of_mem he)
    obtain ⟨hke, hdispatched⟩ := hinv.captured e.task htask
    have hreplied := hreply
    rw [hinv.completed e he, SpawnedTask.complete] at hreplied
    cases houtcome : (e.task.fut.run e.world).outcome with
    | panicked => simp [houtcome, SpawnedTask.reply] at hreplied
    | returned res =>
      simp only [houtcome, SpawnedTask.reply, Option.some.injEq] at hreplied
      subst hreplied
      exact ⟨e.task.query, hinv.tasks.subset (List.mem_map_of_mem htask), rfl, hke, e, he, rfl,
        hreply, hdispatched, res, houtcome, rfl⟩

/-! ## What it says -/

/-- Every service of the server is generated, and no handler returns an error with code `Ok`. -/
structure Server.WellBehaved (srv : Server ZenohId World) : Prop where
  generated : ∀ name svc, srv.services.lookup name = some svc → ∃ g, svc = .generated g
  errors : ∀ name g, srv.services.lookup name = some (.generated g) → ∀ me ∈ g.methods,
    ∀ w req e, me.handler w req = .returned (.error e) → e.code ≠ .ok

/-- The payload is of the type that the query asks for: a response of the method it calls, or
server metadata. -/
inductive DecodesFor (srv : Server ZenohId World) (q : Query) (payload : Bytes) : Prop
  | response {g : GeneratedService World} {body : Bytes} {me : ServiceMethod World}
      {resp : me.Resp} : CallsService srv q (.generated g) body → me ∈ g.methods →
      getToken q.keyExpr 4 = some me.ident.toString →
      deserialize me.Resp payload = .ok resp → DecodesFor srv q payload
  | metadata {m : ServerMetadata ZenohId} : getToken q.keyExpr 2 = some "metadata" →
      deserialize (ServerMetadata ZenohId) payload = .ok m → DecodesFor srv q payload

/-- A reply that decodes as a wire message whose status is `Ok` exactly if it has a payload of the
type that the query asks for. -/
def Consistent (srv : Server ZenohId World) (q : Query) (bytes : Bytes) : Prop :=
  ∃ m, deserialize WireMessage bytes = .ok m ∧
    (m.status.code = .ok ↔ ∃ payload, m.payload = some payload ∧ DecodesFor srv q payload)

/-- If the handler that the query is for returns a response, its message can be written, and what is
written reads as a response of the method. -/
def ResponseReadable (srv : Server ZenohId World) (q : Query) (w : World) : Prop :=
  ∀ (g : GeneratedService World) (body : Bytes) (me : ServiceMethod World) (req : Request me.Req)
    (resp : Response me.Resp), CallsService srv q (.generated g) body → me ∈ g.methods →
    getToken q.keyExpr 4 = some me.ident.toString → deserialize (Request me.Req) body = .ok req →
    me.handler w req = .returned (.ok resp) →
    ∃ raw, serialize resp.message = .ok raw ∧ ∃ r, deserialize me.Resp raw = .ok r

/-- For a query that calls a method, a payload is of the type asked for exactly when it reads as a
response of the method. -/
lemma decodesFor_iff {q : Query} {g : GeneratedService World} {body : Bytes}
    {me : ServiceMethod World} (hcalls : CallsService srv q (.generated g) body)
    (hme : me ∈ g.methods) (hmethod : getToken q.keyExpr 4 = some me.ident.toString)
    (payload : Bytes) :
    DecodesFor srv q payload ↔ ∃ r, deserialize me.Resp payload = .ok r := by
  constructor
  · rintro (⟨hcalls', hme', hmethod', hread⟩ | ⟨hkind, _⟩)
    · obtain ⟨hg, _⟩ := hcalls.unique hcalls'
      cases hg
      rw [hmethod, Option.some.injEq] at hmethod'
      obtain rfl := g.eq_of_name_eq hme hme' hmethod'
      exact ⟨_, hread⟩
    · rw [hcalls.kind] at hkind
      exact absurd hkind (by decide)
  · rintro ⟨r, hread⟩
    exact .response hcalls hme hmethod hread

/-- An error is consistent, for its code is not `Ok` and it has no payload. -/
lemma consistent_error {q : Query} {bytes : Bytes} {e : Status} (he : e.code ≠ .ok)
    (h : deserialize WireMessage bytes = .ok ⟨none, e⟩) : Consistent srv q bytes :=
  ⟨_, h, by simp [he]⟩

omit [Zenoh ZenohId] in
/-- A query that calls no method of a service makes no demand on responses. -/
lemma responseReadable_of_notMem {q : Query} {g : GeneratedService World} {body : Bytes}
    (hcalls : CallsService srv q (.generated g) body) (w : World)
    (h : ∀ me ∈ g.methods, getToken q.keyExpr 4 ≠ some me.ident.toString) :
    ResponseReadable srv q w := by
  intro g' body' me req resp hcalls' hme hmethod
  obtain ⟨hg, _⟩ := hcalls.unique hcalls'
  cases hg
  exact absurd hmethod (h me hme)

omit [Zenoh ZenohId] in
/-- For a query that calls a method, the demand on responses is about the result of that method's
handler on the request in the body. -/
lemma responseReadable_iff {q : Query} {g : GeneratedService World} {body : Bytes}
    {me : ServiceMethod World} {req : Request me.Req}
    (hcalls : CallsService srv q (.generated g) body)
    (hme : me ∈ g.methods) (hmethod : getToken q.keyExpr 4 = some me.ident.toString)
    (hreq : deserialize (Request me.Req) body = .ok req) (w : World) :
    ResponseReadable srv q w ↔ ∀ resp, me.handler w req = .returned (.ok resp) →
      ∃ raw, serialize resp.message = .ok raw ∧ ∃ r, deserialize me.Resp raw = .ok r := by
  constructor
  · exact fun h resp hresp => h g body me req resp hcalls hme hmethod hreq hresp
  · intro h g' body' me' req' resp hcalls' hme' hmethod' hreq' hresp
    obtain ⟨hg, rfl⟩ := hcalls.unique hcalls'
    cases hg
    rw [hmethod, Option.some.injEq] at hmethod'
    obtain rfl := g.eq_of_name_eq hme hme' hmethod'
    rw [hreq] at hreq'
    obtain rfl := Except.ok.inj hreq'
    exact h resp hresp

/-- What a message is turned into reads as a value exactly when the value can be written and what is
written reads as a value. -/
lemma deserialize_unwrapOrDefault_iff {T : Type} [Serde T] (a : T) :
    (∃ r, deserialize T (unwrapOrDefault (serialize a)) = .ok r) ↔
      ∃ raw, serialize a = .ok raw ∧ ∃ r, deserialize T raw = .ok r := by
  cases serialize a with
  | ok raw => simp [unwrapOrDefault]
  | error e => simp [unwrapOrDefault, deserialize_nil]

/-- A response is consistent exactly when it is readable. -/
lemma consistent_response {q : Query} {g : GeneratedService World} {body : Bytes}
    {me : ServiceMethod World} (hcalls : CallsService srv q (.generated g) body)
    (hme : me ∈ g.methods) (hmethod : getToken q.keyExpr 4 = some me.ident.toString)
    {resp : Response me.Resp} {bytes : Bytes}
    (h : deserialize WireMessage bytes = .ok (serviceAnswer (.ok resp.toMessage))) :
    Consistent srv q bytes ↔
      ∃ raw, serialize resp.message = .ok raw ∧ ∃ r, deserialize me.Resp raw = .ok r := by
  rw [← deserialize_unwrapOrDefault_iff, ← decodesFor_iff hcalls hme hmethod, Consistent, h]
  simp [serviceAnswer, Response.toMessage, Status.ok, Status.new]

/-- The reply of a method's arm is consistent exactly when the response of the handler, if it
returned one, is readable. -/
lemma consistent_arm {q : Query} {g : GeneratedService World} {body : Bytes}
    {me : ServiceMethod World} (hcalls : CallsService srv q (.generated g) body)
    (hme : me ∈ g.methods) (hmethod : getToken q.keyExpr 4 = some me.ident.toString) {w : World}
    (herrors : ∀ req e, me.handler w req = .returned (.error e) → e.code ≠ .ok)
    {m : WireMessage} (hanswer : ((me.arm w body).outcome.map serviceAnswer) = .returned m)
    {bytes : Bytes} (hread : deserialize WireMessage bytes = .ok m) :
    Consistent srv q bytes ↔ ResponseReadable srv q w := by
  rcases me.arm_cases w body with ⟨_, harm⟩ | ⟨req, hreq, harm⟩
  · simp [harm] at hanswer
  · rw [responseReadable_iff hcalls hme hmethod hreq]
    cases hresult : me.handler w req with
    | panicked => simp [harm, hresult] at hanswer
    | returned result =>
      simp only [harm, hresult] at hanswer
      obtain rfl := Outcome.returned.inj hanswer
      cases result with
      | error e =>
        have he : e.code ≠ .ok := herrors req e hresult
        exact iff_of_true (consistent_error he hread) fun resp hresp => by simp at hresp
      | ok resp =>
        simp only [Outcome.returned.injEq, Except.ok.injEq, forall_eq']
        exact consistent_response hcalls hme hmethod hread

/-- The reply to a query is consistent exactly when the response of the handler it ran, if it ran
one that returned a response, is readable: a response that cannot be written becomes an empty body
under the status `Ok`. -/
theorem consistent_iff {q : Query} {task : ServerTask ZenohId World} {w : World}
    {res : Except Status Bytes} (hsrv : srv.WellBehaved) (hdispatch : srv.dispatch q = .ok task)
    (hrun : (task.run w).outcome = .returned res) :
    Consistent srv q (sample res) ↔ ResponseReadable srv q w := by
  obtain ⟨m, hanswer, hread⟩ := ServerTask.answer_of_run hrun
  cases Server.dispatch_eq_ok_iff.mp hdispatch with
  | metadata hkind =>
    obtain rfl := Outcome.returned.inj hanswer
    have hdecodes := deserialize_metadataPayload srv.labels srv.instanceUuid
    refine iff_of_true ⟨_, hread, ?_⟩ ?_
    · simpa [Status.ok, Status.new] using .metadata hkind hdecodes
    · intro g body me req resp hcalls
      rw [hcalls.kind] at hkind
      exact absurd hkind (by decide)
  | unknown hservice _ =>
    obtain rfl := Outcome.returned.inj hanswer
    refine iff_of_true (consistent_error (by decide) hread) ?_
    intro g body me req resp hcalls
    exact absurd hcalls.kind hservice
  | @service svc body hcalls =>
    obtain ⟨name, hname, hsvc⟩ := hcalls.service
    obtain ⟨g, rfl⟩ := hsrv.generated name svc hsvc
    rw [ServerTask.answer, getMethodName] at hanswer
    cases hmethod : getToken q.keyExpr 4 with
    | none =>
      rw [hmethod] at hanswer
      obtain rfl := Outcome.returned.inj hanswer
      exact iff_of_true (consistent_error (by decide) hread)
        (responseReadable_of_notMem hcalls w fun me hme => by simp [hmethod])
    | some method =>
      simp only [hmethod, Service.call] at hanswer
      rcases g.call_cases w (callMessage method body) with ⟨me, hme, hname', hcall⟩ | ⟨hnone, hcall⟩
      · have hmethod' : getToken q.keyExpr 4 = some me.ident.toString := by
          rw [hmethod, hname']
          rfl
        rw [Exec.outcome_map, hcall] at hanswer
        exact consistent_arm hcalls hme hmethod' (hsrv.errors name g hsvc me hme w) hanswer hread
      · rw [hcall] at hanswer
        obtain rfl := Outcome.returned.inj hanswer
        refine iff_of_true (consistent_error (by decide) hread)
          (responseReadable_of_notMem hcalls w fun me hme h => ?_)
        rw [hmethod, Option.some.injEq] at h
        exact hnone me hme h.symm

end

/-! ## Replies of the tests' server -/

open Reference

/-- A call of `hello` on the tests' server. -/
def helloCall (body : Bytes) : Query := helloQuery "service/Hello/hello" (some body)

/-- A call of `hello` calls the service. -/
lemma callsService_helloCall (me : ServiceMethod Unit) (body : Bytes) :
    CallsService (helloServer me) (helloCall body) (.generated (helloService me)) body where
  kind := by rw [helloCall, getToken_helloQuery]; decide
  service :=
    ⟨"Hello", by rw [helloCall, getToken_helloQuery]; decide, lookup_helloServer me⟩
  payload := rfl

/-- The tests' request has a body. -/
lemma exists_helloBody : ∃ body, deserialize (Request HelloRequest) body =
    .ok (Request.new ⟨"client"⟩) := by
  have hround : RoundTrips 2 (Request.new (⟨"client"⟩ : HelloRequest)) :=
    Request.roundTrips (roundTrips_helloRequest _)
  obtain ⟨body, _, hread⟩ := deserialize_serialize (hround.mono (by decide))
  exact ⟨body, hread⟩

/-- The tests' server is well behaved when its handler is. -/
lemma wellBehaved_helloServer {Resp : Type} [Serde Resp]
    {handler : Request HelloRequest → Except Status (Response Resp)}
    (h : ∀ req e, handler req = .error e → e.code ≠ .ok) :
    (helloServer (helloMethod Resp handler)).WellBehaved where
  generated name svc hsvc := by
    by_cases hname : name = "Hello"
    · rw [hname, ← name_helloService, lookup_helloServer] at hsvc
      exact ⟨_, (Option.some.inj hsvc).symm⟩
    · rw [lookup_helloServer_of_ne _ hname] at hsvc
      cases hsvc
  errors name g hsvc me hme w req e hresult := by
    by_cases hname : name = "Hello"
    · rw [hname, ← name_helloService, lookup_helloServer] at hsvc
      cases hsvc
      obtain rfl := List.mem_singleton.mp hme
      exact h req e (Outcome.returned.inj hresult)
    · rw [lookup_helloServer_of_ne _ hname] at hsvc
      cases hsvc

section HelloCall

variable {Resp : Type} [Serde Resp]
  (handler : Request HelloRequest → Except Status (Response Resp))

lemma mem_helloService : helloMethod Resp handler ∈
    (helloService (helloMethod Resp handler)).methods := by
  simp [helloService]

/-- A call of `hello` names the method. -/
lemma getToken_helloCall (body : Bytes) :
    getToken (helloCall body).keyExpr 4 = some (helloMethod Resp handler).ident.toString := by
  have hname : (chunks "service/Hello/hello")[2]? = some "hello" := by decide
  rw [helloCall, getToken_helloQuery]
  exact hname

/-- A call of `hello` runs its handler. -/
lemma run_helloCall {body : Bytes}
    (hbody : deserialize (Request HelloRequest) body = .ok (Request.new ⟨"client"⟩)) :
    (ServerTask.serviceCall (.generated (helloService (helloMethod Resp handler)))
      (helloCall body).keyExpr body : ServerTask SessionId Unit).run () =
      ⟨[.handler (helloMethod Resp handler) (Request.new ⟨"client"⟩)],
        .returned (serviceReply
          ((handler (Request.new ⟨"client"⟩)).map Response.toMessage))⟩ := by
  rw [ServerTask.run, serviceCall_of_mem () (mem_helloService handler)
    (getToken_helloCall handler body), ServiceMethod.arm_of_ok _ () hbody]
  rfl

end HelloCall

/-- The task for a query for the metadata of the tests' server. -/
def metadataTask : SpawnedTask SessionId Unit where
  query := helloQuery "metadata" none
  ke := (helloQuery "metadata" none).keyExpr
  fut := .serverMetadata (helloServer hello).labels (helloServer hello).instanceUuid

/-- The task for a call of `hello` that arrived as the second query. -/
def secondTask (body : Bytes) : SpawnedTask SessionId Unit where
  query := { helloCall body with handle := 1 }
  ke := (helloCall body).keyExpr
  fut := .serviceCall (.generated (helloService hello)) (helloCall body).keyExpr body

/-- A query for metadata is dispatched to its task. -/
lemma dispatched_metadataTask :
    Dispatched (helloServer hello) metadataTask.query metadataTask.fut :=
  .metadata (by rw [metadataTask, getToken_helloQuery]; decide)

/-- A call of `hello` is dispatched to its task. -/
lemma dispatched_secondTask (body : Bytes) :
    Dispatched (helloServer hello) (secondTask body).query (secondTask body).fut :=
  let hcalls := callsService_helloCall hello body
  .service ⟨hcalls.kind, hcalls.service, hcalls.payload⟩

/-- The tests' server with two queries under way, one for its metadata and a call of `hello`. -/
def helloBusy (body : Bytes) : LoopState SessionId Unit where
  arrived := [metadataTask.query, (secondTask body).query]
  queue := []
  received := [metadataTask.query, (secondTask body).query]
  pending := [metadataTask, secondTask body]
  completed := []
  status := .receiving

/-- Both queries arrive before the first is received. -/
lemma reachable_helloBusy (body : Bytes) :
    ((serveLoop (helloServer hello)).restrict queriesOnly).Reachable (helloBusy body) := by
  have hfirst : ServeStep (helloServer hello) .start (.arrive metadataTask.ke none)
      (helloArrived metadataTask.query) :=
    .arrive rfl (((helloServer hello).intersects_queryableKe_iff session.zid _).mpr
      ⟨rfl, by decide⟩)
  have hthen : ServeStep (helloServer hello) (helloArrived metadataTask.query)
      (.arrive (helloCall body).keyExpr (some body)) { helloArrived metadataTask.query with
        arrived := [metadataTask.query, (secondTask body).query]
        queue := [metadataTask.query, (secondTask body).query] } :=
    .arrive rfl (((helloServer hello).intersects_queryableKe_iff session.zid _).mpr
      ⟨rfl, by decide⟩)
  have hreceive : ServeStep (helloServer hello) { helloArrived metadataTask.query with
      arrived := [metadataTask.query, (secondTask body).query]
      queue := [metadataTask.query, (secondTask body).query] } .receive _ := .receive rfl rfl
  rw [LoopState.receive, Server.dispatch_of_dispatched dispatched_metadataTask] at hreceive
  have hreceive' : ServeStep (helloServer hello) { helloBusy body with
      queue := [(secondTask body).query]
      received := [metadataTask.query]
      pending := [metadataTask] } .receive _ := .receive rfl rfl
  rw [LoopState.receive, Server.dispatch_of_dispatched (dispatched_secondTask body)] at hreceive'
  exact .step (l := .receive) (.step (l := .receive) (.step (l := .arrive _ _)
    (.step (l := .arrive _ _) (.init rfl) ⟨trivial, hfirst⟩) ⟨trivial, hthen⟩)
      ⟨trivial, hreceive⟩) ⟨trivial, hreceive'⟩

/-- Replies that were sent by tasks that outlived the loop, the one for the later query first, are
the replies to their own queries. -/
theorem noCrossTalk_after_cancel : ∃ s, (serveLoop (helloServer hello)).Reachable s ∧
    s.status = .cancelled ∧ s.replies.map QueryReply.handle = [1, 0] ∧
      (s.completed.flatMap Completion.invoked).length = 1 ∧ s.NoCrossTalk (helloServer hello) := by
  obtain ⟨body, hbody⟩ := exists_helloBody
  have hcancel : (serveLoop (helloServer hello)).Reachable
      { helloBusy body with status := .cancelled } :=
    (reachable_helloBusy body).of_restrict.step (ServeStep.cancel rfl)
  have hsecond : (serveLoop (helloServer hello)).Reachable
      { helloBusy body with
        pending := [metadataTask]
        completed := [(secondTask body).complete ()]
        status := .cancelled } :=
    hcancel.step (ServeStep.complete (i := 1) (w := ()) (t := secondTask body) rfl)
  have hmetadata : (serveLoop (helloServer hello)).Reachable
      { helloBusy body with
        pending := []
        completed := [(secondTask body).complete (), metadataTask.complete ()]
        status := .cancelled } :=
    hsecond.step (ServeStep.complete (i := 0) (w := ()) (t := metadataTask) rfl)
  have hrun : (secondTask body).fut.run () = _ := run_helloCall greet hbody
  obtain ⟨r, hr⟩ := ((secondTask body).exists_reply_iff ()).mpr ⟨_, congrArg Exec.outcome hrun⟩
  obtain ⟨r', hr'⟩ := (metadataTask.exists_reply_iff ()).mpr ⟨_, rfl⟩
  have hinvoked : ((secondTask body).complete ()).invoked = [_] := congrArg Exec.invoked hrun
  have hnone : (metadataTask.complete ()).invoked = [] := rfl
  have hhandle : r.handle = 1 := SpawnedTask.handle_reply hr
  have hhandle' : r'.handle = 0 := SpawnedTask.handle_reply hr'
  refine ⟨_, hmetadata, rfl, ?_, ?_, LoopState.noCrossTalk hmetadata⟩
  · simp [LoopState.replies, hr, hr', hhandle, hhandle']
  · simp [hinvoked, hnone]

/-- The reply to a call of `hello` is consistent. -/
theorem consistent_hello : ∃ body task res,
    (helloServer hello).dispatch (helloCall body) = .ok task ∧
      (task.run ()).outcome = .returned res ∧
      Consistent (helloServer hello) (helloCall body) (sample res) := by
  obtain ⟨body, hbody⟩ := exists_helloBody
  have hcalls := callsService_helloCall hello body
  have hmethod := getToken_helloCall greet body
  have hdispatch := Server.dispatch_of_dispatched (.service hcalls)
  have hrun := congrArg Exec.outcome (run_helloCall greet hbody)
  refine ⟨body, _, _, hdispatch, hrun, ?_⟩
  refine (consistent_iff (wellBehaved_helloServer fun req e h => by cases h) hdispatch hrun).mpr ?_
  refine (responseReadable_iff hcalls (mem_helloService greet) hmethod hbody ()).mpr ?_
  intro resp hresp
  obtain ⟨raw, hraw, hread⟩ := deserialize_serialize
    ((roundTrips_string resp.message).mono (by decide))
  exact ⟨raw, hraw, _, hread⟩

/-- A map from pairs of numbers to texts.  JSON has no keys but strings, so only the empty map can
be written. -/
structure PairMap where
  entries : List ((ℕ × ℕ) × String)

instance : Serde PairMap where
  toDocument m := if m.entries.isEmpty then .ok (.obj []) else .error "key must be a string"
  ofDocument
    | .obj [] => some ⟨[]⟩
    | _ => none

/-- A handler that answers with such a map. -/
def answerPairs (_ : Request HelloRequest) : Except Status (Response PairMap) :=
  .ok (Response.new ⟨[((0, 0), "origin")]⟩)

/-- A response that cannot be written is replied under the status `Ok`, without a payload that the
client can read. -/
theorem not_consistent_unwritable : ∃ body task res,
    (helloServer (helloMethod PairMap answerPairs)).WellBehaved ∧
      (helloServer (helloMethod PairMap answerPairs)).dispatch (helloCall body) = .ok task ∧
      (task.run ()).outcome = .returned res ∧
      ¬Consistent (helloServer (helloMethod PairMap answerPairs)) (helloCall body)
        (sample res) := by
  obtain ⟨body, hbody⟩ := exists_helloBody
  have hcalls := callsService_helloCall (helloMethod PairMap answerPairs) body
  have hsrv : (helloServer (helloMethod PairMap answerPairs)).WellBehaved :=
    wellBehaved_helloServer fun req e h => by cases h
  refine ⟨body, _, _, hsrv, Server.dispatch_of_dispatched (.service hcalls),
    congrArg Exec.outcome (run_helloCall answerPairs hbody), ?_⟩
  have hread := decode_sample_serviceReply
    ((answerPairs (Request.new ⟨"client"⟩)).map Response.toMessage)
  intro hconsistent
  obtain ⟨raw, hraw, _⟩ := (consistent_response hcalls (mem_helloService answerPairs)
    (getToken_helloCall answerPairs body) hread).mp hconsistent
  cases hraw

end ZenohRpc
