import ZenohRpc.Network.Invariant

/-!
# Client methods in a network

What a client method returns, and what it makes servers do, when it runs next to any other servers
and clients.  It returns what the generated client method returns on the answers that it got.  A
response is what the client's service returned to the client's own request, on a server with the id
that the client has found.  And where no two calls of `serve` share a session, discovery runs no
user code, a client method runs user code at most once, and a response comes from a server that
qualifies.
-/

namespace ZenohRpc

open Json KeyExpr

variable {ZenohId World : Type}

/-! ## What a client method returns -/

section

variable [Runtime] [Zenoh ZenohId] [DecidableEq ZenohId]

variable (ZenohId) in
/-- What a client method has returned, if it has: the error that it stopped with, or what `call_fun`
makes of the first reply to its call. -/
def MethodRun.result (run : MethodRun) (U : Type) [Serde U] (calls : List ClientCall) :
    Option (Except Status (Response U)) :=
  match run.call with
  | some (.unsent e) =>
    some (.error (Status.new .internalError ("communication error: " ++ debug e)))
  | some (.sent c) =>
    match (calls[c]?).map ClientCall.status with
    | some (.took (.ok rawData)) => some (RPCClientChannel.readReply U rawData)
    | some (.took (.error e)) =>
      some (.error (Status.new .internalError ("Unable to get sample from " ++ e)))
    | some .noReply =>
      some (.error (Status.new .internalError
        ("No data from call_fun for Request " ++ run.debugRequest)))
    | _ => none
  | none =>
    match run.next ZenohId with
    | .stop e => some (.error e)
    | _ => none

/-- The listing that a client method has got. -/
def MethodRun.listing (run : MethodRun) : Liveliness := fun _ => run.listed.getD (.ok [])

/-- The answers to metadata queries that a client method has got. -/
def MethodRun.metadata (run : MethodRun) (n : ℕ) : Get := fun _ => run.answers.getD n (.ok [])

/-- What zenoh answers to the call of a client method. -/
def MethodRun.answer (run : MethodRun) (calls : List ClientCall) : Get := fun _ =>
  match run.call with
  | some (.unsent (.zenohError e)) => .error e
  | some (.sent c) =>
    match (calls[c]?).map ClientCall.status with
    | some (.took reply) => .ok [reply]
    | _ => .ok []
  | _ => .ok []

omit [DecidableEq ZenohId] [Runtime] in
/-- A client method has got what it has got. -/
lemma MethodRun.replays (run : MethodRun) :
    run.client.Replays ZenohId run.listed run.answers run.listing run.metadata := by
  refine ⟨fun l hl => ?_, fun _ _ _ _ n _ answer _ ha => ?_⟩
  · rw [MethodRun.listing, hl, Option.getD_some]
  · rw [MethodRun.metadata, List.getD_eq_getElem?_getD, ha, Option.getD_some]

/-- A client method that goes on to a call has found the server. -/
lemma MethodRun.findServer_of_call {run : MethodRun} {id : ZenohId}
    (h : run.next ZenohId = .call id) :
    run.client.findServer run.listing run.metadata = .ok id := by
  rw [MethodRun.next] at h
  have hreplays : run.client.Replays ZenohId _ _ _ _ := run.replays
  rcases hreplays.next_cases with
    hlist | ⟨id', hask⟩ | ⟨id', hcall, hfind⟩ | ⟨e, hstop, _⟩
  · rw [hlist] at h
    cases h
  · rw [hask] at h
    cases h
  · rw [hcall] at h
    rwa [← NextStep.call.inj h]
  · rw [hstop] at h
    cases h

/-- A client method that stops has failed to find a server. -/
lemma MethodRun.findServer_of_stop {run : MethodRun} {e : Status}
    (h : run.next ZenohId = .stop e) :
    (run.client.findServer run.listing run.metadata : Except Status ZenohId) = .error e := by
  rw [MethodRun.next] at h
  have hreplays : run.client.Replays ZenohId _ _ _ _ := run.replays
  rcases hreplays.next_cases with
    hlist | ⟨id', hask⟩ | ⟨id', hcall, _⟩ | ⟨e', hstop, hfind⟩
  · rw [hlist] at h
    cases h
  · rw [hask] at h
    cases h
  · rw [hcall] at h
    cases h
  · rw [hstop] at h
    rwa [← NextStep.stop.inj h]

/-- A client method in a network is the generated client method.  Whatever other servers and clients
do in between, what it has returned is what `find_server` and `call_fun` together return, on the
listing, the metadata answers and the reply that it got. -/
theorem NetState.result_eq_callMethod {s : NetState ZenohId World}
    (h : (network ZenohId World).Reachable s) {run : MethodRun} (hrun : run ∈ s.runs)
    {T U : Type} [Serde T] [Debug T] [Serde U] {request : Request T}
    (hrequest : run.request = serialize request) (hdebug : run.debugRequest = debug request)
    {res : Except Status (Response U)} (hres : run.result ZenohId U s.deploy.calls = some res) :
    run.client.callMethod ZenohId U run.listing run.metadata (run.answer s.deploy.calls)
      run.method request = res := by
  have hinv := (NetState.inv_of_reachable h).runs run hrun
  rw [MethodRun.result] at hres
  cases hcall : run.call with
  | none =>
    simp only [hcall] at hres
    split at hres
    · rename_i e hstop
      obtain rfl := Option.some.inj hres
      rw [ServiceClient.callMethod, MethodRun.findServer_of_stop hstop]
    · cases hres
  | some call =>
    cases call with
    | unsent e =>
      obtain ⟨id, hnext, hsent⟩ := hinv.uncalled e hcall
      simp only [hcall, Option.some.injEq] at hres
      rw [ServiceClient.callMethod, MethodRun.findServer_of_call hnext, ← hres]
      rcases hsent with hreq | ⟨req, e', hreq, rfl⟩
      · simp only [RPCClientChannel.callFun, RPCClientChannel.send, ← hrequest, hreq]
      · simp only [RPCClientChannel.callFun, RPCClientChannel.send, ← hrequest, hreq,
          MethodRun.answer, hcall, Except.mapError]
    | sent c =>
      obtain ⟨id, req, call, hnext, hreq, hc, _⟩ := hinv.called c hcall
      simp only [hcall, hc, Option.map_some] at hres
      rw [ServiceClient.callMethod, MethodRun.findServer_of_call hnext]
      cases hstatus : call.status with
      | waiting =>
        rw [hstatus] at hres
        cases hres
      | noReply =>
        simp only [hstatus, Option.some.injEq] at hres
        simp only [RPCClientChannel.callFun, RPCClientChannel.send, ← hrequest, hreq,
          MethodRun.answer, hcall, hc, Option.map_some, hstatus, Except.mapError,
          List.head?_nil, ← hres, hdebug]
      | took reply =>
        cases reply with
        | ok rawData =>
          simp only [hstatus, Option.some.injEq] at hres
          simp only [RPCClientChannel.callFun, RPCClientChannel.send, ← hrequest, hreq,
            MethodRun.answer, hcall, hc, Option.map_some, hstatus, Except.mapError,
            List.head?_cons, ← hres]
        | error e =>
          simp only [hstatus, Option.some.injEq] at hres
          simp only [RPCClientChannel.callFun, RPCClientChannel.send, ← hrequest, hreq,
            MethodRun.answer, hcall, hc, Option.map_some, hstatus, Except.mapError,
            List.head?_cons, ← hres]

/-! ## Where a response comes from -/

/-- A server responds to a client method: in a world, the service registered under the name of the
client's service, called with the method and with what the client wrote of its request, runs user
code once and returns a message whose body is read as the response. -/
def Server.RespondsTo (srv : Server ZenohId World) (run : MethodRun) (w : World)
    (inv : Invocation World) (U : Type) [Serde U] (r : Response U) : Prop :=
  ∃ svc body m, srv.services.lookup run.client.serviceIdent.toString = some svc ∧
    run.request = .ok body ∧
    svc.call w (callMessage run.method.toString body) = ⟨[inv], .returned (.ok m)⟩ ∧
    deserialize U m.body = .ok r.message

omit [Runtime] [DecidableEq ZenohId] in
/-- The call of a client method is for the client's service, with the method's name. -/
lemma ServiceClient.chunks_query (client : ServiceClient) (id : ZenohId) (req : Bytes)
    (method : Ident) (tout handle : ℕ) :
    chunks ((client.channel.getRequest id req method.toString tout).query handle).keyExpr =
      ["@rpc", Zenoh.display id, "service", client.serviceIdent.toString, method.toString] := by
  have hmark : '?' ∉ (client.channel.serviceName ++ "/" ++ method.toString).toList := by
    simp [ServiceClient.channel, Ident.noQuestion]
  rw [RPCClientChannel.keyExpr_getRequest, selectorKeyExpr_of_notMem hmark, chunks_rpc,
    chunks_cons (by decide), ServiceClient.channel, chunks_cons client.serviceIdent.noSlash,
    chunks_of_notMem method.noSlash]

omit [DecidableEq ZenohId] in
/-- A server that the call of a client method is handed to for a service responds to the client
method, if that service does. -/
lemma CallsService.respondsTo {srv : Server ZenohId World} {run : MethodRun} {id : ZenohId}
    {req : Bytes} {svc : Service World} {payload : Bytes}
    (h : CallsService srv ((run.client.channel.getRequest id req run.method.toString
      run.client.tout).query 0) svc payload) (hreq : run.request = .ok req) {method : String}
    (hmethod : getToken ((run.client.channel.getRequest id req run.method.toString
      run.client.tout).query 0).keyExpr 4 = some method) {w : World} {inv : Invocation World}
    {m : Message} (hcall : svc.call w (callMessage method payload) = ⟨[inv], .returned (.ok m)⟩)
    {U : Type} [Serde U] {r : Response U} (hbody : deserialize U m.body = .ok r.message) :
    srv.RespondsTo run w inv U r := by
  rw [getToken, ServiceClient.chunks_query] at hmethod
  obtain rfl : run.method.toString = method := Option.some.inj hmethod
  obtain rfl : req = payload := Option.some.inj h.payload
  obtain ⟨name, hname, hsvc⟩ := h.service
  rw [getToken, ServiceClient.chunks_query] at hname
  obtain rfl : run.client.serviceIdent.toString = name := Option.some.inj hname
  exact ⟨svc, req, m, hsvc, hreq, hcall, hbody⟩

/-- A client method that has returned a response has read it from the reply that its call took. -/
lemma MethodRun.took_of_result {run : MethodRun} {calls : List ClientCall} {U : Type} [Serde U]
    {r : Response U} (h : run.result ZenohId U calls = some (.ok r)) :
    ∃ c call rawData, run.call = some (.sent c) ∧ calls[c]? = some call ∧
      call.status = .took (.ok rawData) ∧ RPCClientChannel.readReply U rawData = .ok r := by
  rw [MethodRun.result] at h
  cases hcall : run.call with
  | none =>
    simp only [hcall] at h
    split at h <;> simp at h
  | some sent =>
    cases sent with
    | unsent e => simp [hcall] at h
    | sent c =>
      simp only [hcall] at h
      cases hc : calls[c]? with
      | none => simp [hc] at h
      | some call =>
        simp only [hc, Option.map_some] at h
        cases hstatus : call.status with
        | waiting => simp [hstatus] at h
        | noReply => simp [hstatus] at h
        | took reply =>
          cases reply with
          | error e => simp [hstatus] at h
          | ok rawData =>
            simp only [hstatus, Option.some.injEq] at h
            exact ⟨c, call, rawData, rfl, hc, hstatus, h⟩

/-- Where the response of a client method comes from.  It is read from the reply that the method's
call has taken: that of the one task which has ended on a handle that the call's query has at a
node.  The task ran user code once, and in the world that it ran in the node's server responds to
the client method, having run just that. -/
structure NetState.RespondedBy (s : NetState ZenohId World) (run : MethodRun) {U : Type} [Serde U]
    (r : Response U) (p : ℕ × ℕ) (n : Node ZenohId World) (e : Completion ZenohId World)
    (inv : Invocation World) : Prop where
  took : ∃ c call rawData, run.call = some (.sent c) ∧ s.deploy.calls[c]? = some call ∧
    call.status = .took (.ok rawData) ∧ RPCClientChannel.readReply U rawData = .ok r ∧
    s.deploy.RepliedBy call rawData p n e
  invoked : e.invoked = [inv]
  responds : n.server.RespondsTo run e.world inv U r

/-- An id was announced to a client method: the method was listed the key of a token, the key is
that of a service of a server with the id, and the id is what the client reads off the key. -/
def NetState.Announced (s : NetState ZenohId World) (run : MethodRun) (id : ZenohId) : Prop :=
  ∃ kes ke, run.listed = some (.ok kes) ∧ .ok ke ∈ kes ∧ Intersects run.client.rpcKe ke ∧
    run.client.extractIdFromKe ke = .ok id ∧
    ∃ a ∈ s.deploy.nodes, a.server.instanceUuid = id ∧
      ∃ k ∈ a.server.services, ke = a.server.tokenKe k

/-- What a client method that has returned a response has done: it has found an id that was
announced to it, and that is the id of a server with the labels that it wants; and its call reached
a server with that id, which responds to it and has run user code for it once. -/
lemma NetState.exists_of_result {s : NetState ZenohId World} (hinv : s.Inv)
    (htraced : s.deploy.Traced) {run : MethodRun} (hrun : run ∈ s.runs) {U : Type} [Serde U]
    {r : Response U} (hres : run.result ZenohId U s.deploy.calls = some (.ok r)) :
    ∃ p n e inv, s.RespondedBy run r p n e inv ∧ s.Announced run n.server.instanceUuid ∧
      ∃ b ∈ s.deploy.nodes, b.server.instanceUuid = n.server.instanceUuid ∧
        run.client.labels ⊆ b.server.labels := by
  obtain ⟨c, call, rawData, hsent, hc, hstatus, hread⟩ := MethodRun.took_of_result hres
  have hmethod := hinv.runs run hrun
  obtain ⟨id, req, call', hnext, hreq, hc', hrequest⟩ := hmethod.called c hsent
  rw [hc, Option.some.injEq] at hc'
  subst hc'
  have hmem := List.mem_of_getElem? hc
  obtain ⟨p, n, e, hreplied⟩ := htraced.exists_repliedBy hmem hstatus
  obtain ⟨svc, payload, method, inv, m, hcalls, hname, hinvoked, hcall, hbody⟩ :=
    hreplied.called ((htraced.calls call hmem).kind 0) hread
  have hreached := hreplied.reached
  rw [hrequest] at hcalls hname hreached
  rw [RPCClientChannel.keyExpr_getRequest, Server.intersects_queryableKe_iff] at hreached
  have hresponds := hcalls.respondsTo hreq hname hcall hbody
  obtain ⟨kes, ids, ke, data, m, hlisted, hke, hextract, hdata, hm, rfl, hlabels⟩ :=
    ServiceClient.exists_of_next_call hnext
  refine ⟨p, n, e, inv, ⟨⟨c, call, rawData, hsent, hc, hstatus, hread, hreplied⟩, hinvoked,
    hresponds⟩, ?_, ?_⟩
  · -- the id was read off the token of a server on that session
    obtain ⟨hintersects, a, ha, k, hk, rfl⟩ := hmethod.listed kes ke hlisted hke
    have hid := hextract
    rw [Server.tokenKe,
      ServiceClient.extractIdFromKe_eq run.client a.server.instanceUuid _ hintersects,
      Except.ok.injEq] at hid
    exact ⟨kes, _, hlisted, hke, hintersects, hreached.1.symm ▸ hextract, a, ha,
      hid.trans hreached.1.symm, k, hk, rfl⟩
  · -- the labels were read from the metadata of a server on that session
    obtain ⟨_, raw, pl, wmsg, hraw', hwmsg, hpl, hread⟩ := mem_readMetadata.mp hm
    obtain ⟨b, hb, rfl⟩ := hmethod.answers data raw hdata hraw'
    rw [decode_sample_serverMetadata] at hwmsg
    rw [← Except.ok.inj hwmsg, Option.some.injEq] at hpl
    rw [← hpl, deserialize_metadataPayload] at hread
    obtain rfl := Except.ok.inj hread
    exact ⟨b, hb, hreached.1.symm, hlabels⟩

/-- A response comes from where the client method looked for it.  In every network, whatever shares
sessions and whatever comes and goes, a client method that has returned a response has called a
server with an id that was announced to it for its service, and that some server with the labels it
wants has; and the response is what the client's service on the server called returned to the
client's own request, in the world in which the one task for the call there ran user code once. -/
theorem NetState.response_provenance {s : NetState ZenohId World}
    (h : (network ZenohId World).Reachable s) {run : MethodRun} (hrun : run ∈ s.runs) {U : Type}
    [Serde U] {r : Response U} (hres : run.result ZenohId U s.deploy.calls = some (.ok r)) :
    ∃ p n e inv, s.RespondedBy run r p n e inv ∧ s.Announced run n.server.instanceUuid ∧
      ∃ b ∈ s.deploy.nodes, b.server.instanceUuid = n.server.instanceUuid ∧
        run.client.labels ⊆ b.server.labels :=
  NetState.exists_of_result (NetState.inv_of_reachable h)
    (DeployState.traced_of_reachable (network_refines.reachable h)) hrun hres

/-! ## What a client method runs -/

omit [DecidableEq ZenohId] in
/-- A metadata query runs no user code. -/
lemma Server.invokedBy_metadataRequest (srv : Server ZenohId World) (id : ZenohId)
    (tout handle : ℕ) (w : World) :
    srv.invokedBy w ((metadataRequest id tout).query handle) = [] := by
  rw [Server.invokedBy, Server.dispatch_of_dispatched (.metadata (getToken_metadataRequest ..))]
  rfl

/-- The metadata queries of a client method run no user code. -/
lemma NetState.ran_asked {s : NetState ZenohId World} (hinv : s.Inv) (htraced : s.deploy.Traced)
    {run : MethodRun} (hrun : run ∈ s.runs) : run.asked.flatMap s.deploy.ran = [] := by
  refine List.flatMap_eq_nil_iff.mpr fun p hp => ?_
  obtain ⟨id, tout, n, hn, harrived⟩ := (hinv.runs run hrun).asked p hp
  have hloop := ZenohRpc.inv_of_reachable (htraced.nodes n (List.mem_of_getElem? hn))
  rw [DeployState.ran, hn]
  rcases hloop.ran_cases harrived with hnil | ⟨w, hinvoked⟩
  · exact hnil
  · exact hinvoked.trans (n.server.invokedBy_metadataRequest id tout p.2 w)

/-- The handles that the call of a client method has, where it has been made. -/
def MethodRun.callHandles (run : MethodRun) (calls : List ClientCall) : List (ℕ × ℕ) :=
  match run.call with
  | some (.sent c) => ((calls[c]?).map ClientCall.delivered).getD []
  | _ => []

/-- The user code that all queries of a client method have run so far, in the whole network. -/
def NetState.invocations (s : NetState ZenohId World) (run : MethodRun) :
    List (Invocation World) :=
  (run.asked ++ run.callHandles s.deploy.calls).flatMap s.deploy.ran

/-- All the user code that a client method has run is that of its call. -/
lemma NetState.invocations_of_sent {s : NetState ZenohId World} (hinv : s.Inv)
    (htraced : s.deploy.Traced) {run : MethodRun} (hrun : run ∈ s.runs) {c : ℕ}
    {call : ClientCall} (hsent : run.call = some (.sent c))
    (hc : s.deploy.calls[c]? = some call) :
    s.invocations run = s.deploy.invocations call := by
  rw [NetState.invocations, List.flatMap_append, NetState.ran_asked hinv htraced hrun,
    List.nil_append, MethodRun.callHandles, hsent]
  simp only [hc, Option.map_some, Option.getD_some, DeployState.invocations]

/-- All the user code that a client method has run is that of the task which the response comes
from, where its call reaches one server at most that runs user code for it. -/
lemma NetState.RespondedBy.invocations_eq {s : NetState ZenohId World} (hinv : s.Inv)
    (hdeploy : s.deploy.Inv) {run : MethodRun} (hrun : run ∈ s.runs) {U : Type} [Serde U]
    {r : Response U} {p : ℕ × ℕ} {n : Node ZenohId World} {e : Completion ZenohId World}
    {inv : Invocation World} (h : s.RespondedBy run r p n e inv) : s.invocations run = [inv] := by
  obtain ⟨c, call, _, hsent, hc, _, _, hreplied⟩ := h.took
  have hran := hreplied.ran_eq
  rw [h.invoked] at hran
  rw [NetState.invocations_of_sent hinv hdeploy.toTraced hrun hsent hc,
    hdeploy.invocations_eq (List.mem_of_getElem? hc) hreplied.delivered (by simp [hran]), hran]

/-- A response comes from a server that qualifies, where each call of `serve` is on a session of its
own. -/
lemma NetState.exists_qualifies {s : NetState ZenohId World}
    (h : ((network ZenohId World).restrict OwnSession).Reachable s) {run : MethodRun}
    (hrun : run ∈ s.runs) {U : Type} [Serde U] {r : Response U}
    (hres : run.result ZenohId U s.deploy.calls = some (.ok r)) :
    ∃ p n e inv, s.RespondedBy run r p n e inv ∧ n.server.Qualifies run.client := by
  obtain ⟨p, n, e, inv, hresponded, _, b, hb, hid, hlabels⟩ :=
    NetState.exists_of_result (NetState.inv_of_reachable h.of_restrict)
      (DeployState.traced_of_reachable (network_refines.reachable h.of_restrict)) hrun hres
  obtain ⟨_, _, _, _, _, _, _, hreplied⟩ := hresponded.took
  -- with sessions of their own, the server that has the labels is the one that was called
  have hsame : b = n := List.inj_on_of_nodup_map (NetState.distinctSessions h) hb
    (List.mem_of_getElem? hreplied.node) hid
  have hservice : run.client.serviceIdent.toString ∈ n.server.services := by
    obtain ⟨svc, _, _, hsvc, _⟩ := hresponded.responds
    rw [← AList.lookup_isSome, hsvc]
    rfl
  exact ⟨p, n, e, inv, hresponded, hservice, hsame ▸ hlabels⟩

/-- A client method runs user code at most once in the whole network, where each call of `serve` is
on a session of its own.  It runs none before it makes its call; and if it returns a response, then
the task which the response comes from has run user code for it once, on a server that qualifies,
and nothing else has: the response is what the client's service returned there, in the world that
the task ran in, to the client's own request. -/
theorem NetState.method_once {s : NetState ZenohId World}
    (h : ((network ZenohId World).restrict OwnSession).Reachable s) {run : MethodRun}
    (hrun : run ∈ s.runs) :
    (s.invocations run).length ≤ 1 ∧ (run.call = none → s.invocations run = []) ∧
    ∀ (U : Type) [Serde U] (r : Response U), run.result ZenohId U s.deploy.calls = some (.ok r) →
      ∃ p n e inv, s.RespondedBy run r p n e inv ∧ n.server.Qualifies run.client ∧
        s.invocations run = [inv] := by
  have hinv := NetState.inv_of_reachable h.of_restrict
  have hdeploy := DeployState.inv_of_reachable (network_refines_singleTarget.reachable h)
  have hasked := NetState.ran_asked hinv hdeploy.toTraced hrun
  have hsplit : s.invocations run =
      (run.callHandles s.deploy.calls).flatMap s.deploy.ran := by
    rw [NetState.invocations, List.flatMap_append, hasked, List.nil_append]
  refine ⟨?_, fun hnone => ?_, fun U _ r hres => ?_⟩
  · cases hsent : run.call with
    | none => simp [hsplit, MethodRun.callHandles, hsent]
    | some sent =>
      cases sent with
      | unsent e => simp [hsplit, MethodRun.callHandles, hsent]
      | sent c =>
        obtain ⟨_, _, call, _, _, hc, _⟩ := (hinv.runs run hrun).called c hsent
        rw [NetState.invocations_of_sent hinv hdeploy.toTraced hrun hsent hc]
        exact hdeploy.length_invocations_le (List.mem_of_getElem? hc)
  · rw [hsplit, MethodRun.callHandles, hnone]
    rfl
  · obtain ⟨p, n, e, inv, hresponded, hqualifies⟩ := NetState.exists_qualifies h hrun hres
    exact ⟨p, n, e, inv, hresponded, hqualifies, hresponded.invocations_eq hinv hdeploy hrun⟩

end

end ZenohRpc
