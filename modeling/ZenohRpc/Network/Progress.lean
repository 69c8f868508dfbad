import ZenohRpc.Client.FindServer
import ZenohRpc.Deployment.KeyExprs
import ZenohRpc.Network.Calls
import ZenohRpc.Server.Progress

/-!
# Completing a client method

Whatever has happened in a network before, and whatever other servers and clients are there: as
long as one server that qualifies for a client is up, a client method that starts now can be brought
to its end, and then it has run its handler there once and returns what the handler returned.

A server is up when it has come to its loop, the loop receives, and every query that has arrived can
be answered.  Then the loop and its tasks go on by themselves until every query has its reply.
-/

namespace ZenohRpc

open Json KeyExpr

variable {ZenohId World : Type}

/-! ## A loop that is up -/

section

variable [Runtime] [Zenoh ZenohId] {srv : Server ZenohId World} {s : LoopState ZenohId World}

/-- A loop that still receives has got queries only. -/
lemma LoopState.queriesOnly_of_receiving (h : (serveLoop srv).Reachable s)
    (hstatus : s.status = .receiving) : ((serveLoop srv).restrict queriesOnly).Reachable s := by
  induction h with
  | init h => exact .init h
  | @step s s' l _ hs ih =>
    have hguard : queriesOnly s l := by
      cases hs with
      | receiveError => cases hstatus
      | cancel => cases hstatus
      | arrive | receive | complete => trivial
    exact (ih (ServeStep.receiving hs hstatus)).step ⟨hguard, hs⟩

/-- A loop that receives and has got answerable queries only may go on by itself until it has
replied to each. -/
lemma LoopState.exists_replied [Inhabited World] (h : (serveLoop srv).Reachable s)
    (hstatus : s.status = .receiving) (hall : ∀ q ∈ s.arrived, Answerable srv q) :
    ∃ k s', (serveLoop srv).Steps LoopEvent.Internal s k s' ∧ s'.arrived = s.arrived ∧
      s'.status = .receiving ∧ ∀ q ∈ s.arrived, ∃ r ∈ s'.replies, r.handle = q.handle := by
  obtain ⟨k, s', hsteps, hquiet⟩ := (LoopState.terminates srv s).exists_quiescent
  have hreach := (hsteps.restrict fun s _ hl => hl.queriesOnly s).reachable
    (LoopState.queriesOnly_of_receiving h hstatus)
  have harrived : s'.arrived = s.arrived :=
    hsteps.eq_of_step fun _ _ _ hl hs => ServeStep.arrived_eq hl hs
  have hhandles := LoopState.handles_of_quiescent hreach (harrived ▸ hall) hquiet
  refine ⟨k, s', hsteps, harrived, LoopState.receiving_of_answerable hreach (harrived ▸ hall),
    fun q hq => ?_⟩
  rw [← harrived] at hq
  exact List.mem_map.mp (hhandles.mem_iff.mpr (List.mem_map_of_mem hq))

/-- A metadata query can be answered. -/
lemma answerable_metadataRequest (srv : Server ZenohId World) (id : ZenohId) (tout handle : ℕ) :
    Answerable srv ((metadataRequest id tout).query handle) := by
  intro hservice
  rw [getToken_metadataRequest] at hservice
  exact absurd hservice (by decide)

/-- A call of a method can be answered, where the request can be read and the handler returns. -/
lemma answerable_getRequest {svc : GeneratedService World}
    (hsvc : srv.services.lookup svc.name = some (.generated svc)) {me : ServiceMethod World}
    (hme : me ∈ svc.methods) {raw : Bytes} {request : Request me.Req}
    (hread : deserialize (Request me.Req) raw = .ok request)
    (hreturns : ∀ w, ∃ res, me.handler w request = .returned res) (tout handle : ℕ) :
    Answerable srv ((svc.getRequest me srv.instanceUuid raw tout).query handle) := by
  refine fun _ => ⟨_, raw, callsService_getRequest hsvc me raw tout handle, fun method hmethod w =>
    ?_⟩
  rw [getToken_getRequest, Option.some.injEq] at hmethod
  intro me' hme' hname
  obtain rfl : me' = me := svc.eq_of_name_eq hme' hme (hname.trans hmethod.symm)
  exact ⟨request, hread, hreturns w⟩

end

/-! ## Finding the server -/

section

variable [Runtime] [Zenoh ZenohId] [DecidableEq ZenohId]

namespace ServiceClient

omit [Runtime] [DecidableEq ZenohId] in
/-- The id of a server is read off the token for the client's service. -/
lemma mapM_extractIdFromKe_tokenKe (client : ServiceClient) (srv : Server ZenohId World) :
    (([.ok (srv.tokenKe client.serviceIdent.toString)] :
      List (Except String String)).filterMap Except.toOption).mapM client.extractIdFromKe =
        .ok [srv.instanceUuid] := by
  have hextract : client.extractIdFromKe (srv.tokenKe client.serviceIdent.toString) =
      .ok srv.instanceUuid :=
    client.extractIdFromKe_eq srv.instanceUuid _ (client.intersects_rpcKe srv)
  simp only [List.filterMap_cons, Except.toOption, List.filterMap_nil, List.mapM_cons, hextract,
    List.mapM_nil]
  rfl

/-- A client that has been listed one server's token asks that server for its metadata. -/
lemma next_listed (client : ServiceClient) (srv : Server ZenohId World) :
    client.next (some (.ok [.ok (srv.tokenKe client.serviceIdent.toString)])) [] =
      .ask srv.instanceUuid := by
  simp only [next, client.mapM_extractIdFromKe_tokenKe srv]
  rfl

/-- A client that has got that server's metadata calls it, where it has the labels. -/
lemma next_answered {client : ServiceClient} {srv : Server ZenohId World}
    (hlabels : client.labels ⊆ srv.labels) :
    client.next (some (.ok [.ok (srv.tokenKe client.serviceIdent.toString)]))
      [.ok [.ok (sample (serverMetadata srv.labels srv.instanceUuid))]] =
        .call srv.instanceUuid := by
  have hread : readMetadata [srv.instanceUuid]
      [.ok (sample (serverMetadata srv.labels srv.instanceUuid))] =
        [(⟨srv.labels, srv.instanceUuid⟩ : ServerMetadata ZenohId)] := by
    simp [readMetadata, Except.toOption, decode_sample_serverMetadata, deserialize_metadataPayload]
  simp only [next, client.mapM_extractIdFromKe_tokenKe srv, nextAsk, hread, select]
  simp [hlabels]

end ServiceClient

/-- A node is up: it has come to its loop, the loop receives, and every query that has arrived can
be answered. -/
structure NetState.Up (s : NetState ZenohId World) (i : ℕ) (n : Node ZenohId World) : Prop where
  node : s.deploy.nodes[i]? = some n
  setup : ∃ ts, s.setups[i]? = some ⟨.serving, ts⟩
  receiving : n.loop.status = .receiving
  answerable : ∀ q ∈ n.loop.arrived, Answerable n.server q

variable {s : NetState ZenohId World} {i : ℕ} {n : Node ZenohId World}

omit [DecidableEq ZenohId] [Runtime] in
/-- A `get` has nodes that its query reaches. -/
lemma DeployState.exists_reaches (s : DeployState ZenohId World) (req : GetRequest) :
    ∃ targets, s.Reaches req targets := by
  classical
  refine ⟨(List.range s.nodes.length).filter fun i => ∃ n : Node ZenohId World,
    s.nodes[i]? = some n ∧ n.Gets (req.query 0).keyExpr, List.nodup_range.filter _,
    fun i n hn => ?_⟩
  obtain ⟨hi, rfl⟩ := List.getElem?_eq_some_iff.mp hn
  simp [hi]

omit [DecidableEq ZenohId] in
/-- A node that is up gets a query for it, and stays up if the query can be answered. -/
lemma NetState.Up.deliver (h : s.Up i n) {req : GetRequest}
    (hke : Intersects n.server.queryableKe (req.query 0).keyExpr)
    (hanswerable : ∀ handle, Answerable n.server (req.query handle)) {targets : List ℕ}
    (htargets : ∀ i n, s.deploy.nodes[i]? = some n →
      (i ∈ targets ↔ n.Gets (req.query 0).keyExpr)) (calls : List ClientCall)
    (runs : List MethodRun) :
    (i, n.loop.arrived.length) ∈ s.deploy.handles targets ∧
      NetState.Up ⟨⟨s.deploy.deliver req targets, calls⟩, s.setups, runs⟩ i (n.deliver req) := by
  have hi : i ∈ targets := (htargets i n h.node).mpr ⟨h.receiving, hke⟩
  refine ⟨DeployState.mem_handles.mpr ⟨hi, n, h.node, rfl⟩, ?_, h.setup, h.receiving,
    fun q hq => ?_⟩
  · have hdeliver : (s.deploy.deliver req targets)[i]? = some _ :=
      DeployState.getElem?_deliver h.node
    rwa [if_pos hi] at hdeliver
  · rcases List.mem_append.mp hq with hold | hnew
    · exact h.answerable q hold
    · rw [List.mem_singleton.mp hnew]
      exact hanswerable n.loop.arrived.length

omit [Runtime] [Zenoh ZenohId] [DecidableEq ZenohId] in
/-- What a loop does by itself is no arrival. -/
lemma LoopEvent.Internal.own {l : LoopEvent World} (h : l.Internal) : l.Own := by
  cases l with
  | arrive => exact h.elim
  | receive | receiveError | cancel | complete => trivial

/-- In a network, the loop of a node that serves may go on by itself. -/
lemma NetState.moves_steps {ts : List String} (hn : s.deploy.nodes[i]? = some n)
    (hst : s.setups[i]? = some ⟨.serving, ts⟩) {k : ℕ} {loop : LoopState ZenohId World}
    (hsteps : (serveLoop n.server).Steps LoopEvent.Internal n.loop k loop) :
    ((network ZenohId World).restrict NoServe).Moves s
      { s with deploy := { s.deploy with nodes := s.deploy.nodes.set i ⟨n.server, loop⟩ } } := by
  obtain ⟨hlt, hget⟩ := List.getElem?_eq_some_iff.mp hn
  induction hsteps with
  | refl =>
    have hsame : s.deploy.nodes.set i ⟨n.server, n.loop⟩ = s.deploy.nodes := by
      rw [← hget, List.set_getElem_self]
    rw [hsame]
    exact .refl
  | @step k loop loop' l _ hl hs ih =>
    have hself : (s.deploy.nodes.set i ⟨n.server, loop⟩)[i]? = some ⟨n.server, loop⟩ :=
      List.getElem?_set_self hlt
    have hdeploy : DeployStep
        { s.deploy with nodes := s.deploy.nodes.set i ⟨n.server, loop⟩ } (.loop i l)
        { s.deploy with
          nodes := (s.deploy.nodes.set i ⟨n.server, loop⟩).set i ⟨n.server, loop'⟩ } :=
      .loop (n := ⟨n.server, loop⟩) hself hs
    rw [List.set_set] at hdeploy
    exact ih.tail (l := .loop i l) ⟨trivial, .loop hst (by simp) hl.own hdeploy⟩

/-- A node that is up may go on until it has replied to each query that has arrived. -/
lemma NetState.Up.exists_replied [Inhabited World] (h : s.Up i n)
    (hreach : (network ZenohId World).Reachable s) :
    ∃ loop : LoopState ZenohId World,
      ((network ZenohId World).restrict NoServe).Moves s
        { s with deploy := { s.deploy with nodes := s.deploy.nodes.set i ⟨n.server, loop⟩ } } ∧
      NetState.Up
        { s with deploy := { s.deploy with nodes := s.deploy.nodes.set i ⟨n.server, loop⟩ } } i
        ⟨n.server, loop⟩ ∧
      loop.arrived = n.loop.arrived ∧
      ∀ q ∈ n.loop.arrived, ∃ r ∈ loop.replies, r.handle = q.handle := by
  have htraced := DeployState.traced_of_reachable (network_refines.reachable hreach)
  obtain ⟨k, loop, hsteps, harrived, hstatus, hreplies⟩ := LoopState.exists_replied
    (htraced.nodes n (List.mem_of_getElem? h.node)) h.receiving h.answerable
  obtain ⟨ts, hst⟩ := h.setup
  obtain ⟨hlt, _⟩ := List.getElem?_eq_some_iff.mp h.node
  refine ⟨loop, NetState.moves_steps h.node hst hsteps, ⟨List.getElem?_set_self hlt, ⟨ts, hst⟩,
    hstatus, fun q hq => ?_⟩, harrived, hreplies⟩
  rw [harrived] at hq
  exact h.answerable q hq

/-- A client method that has found a server, and has not called it yet. -/
structure MethodRun.Found (run : MethodRun) (client : ServiceClient) (method : Ident)
    (request : ZRPCResult Bytes) (debugRequest : String) (id : ZenohId) : Prop where
  client : run.client = client
  method : run.method = method
  request : run.request = request
  debugRequest : run.debugRequest = debugRequest
  next : run.next ZenohId = .call id
  call : run.call = none

/-- A node that got a query, and was up, may go on until it has replied to it: the query has arrived
with a handle, and the node has replied to that handle. -/
lemma NetState.Up.exists_answered [Inhabited World] {req : GetRequest} (h : s.Up i (n.deliver req))
    (hreach : (network ZenohId World).Reachable s) :
    ∃ (d : DeployState ZenohId World) (loop : LoopState ZenohId World),
      ((network ZenohId World).restrict NoServe).Moves s { s with deploy := d } ∧
      d.calls = s.deploy.calls ∧ NetState.Up { s with deploy := d } i ⟨n.server, loop⟩ ∧
      loop.arrived[n.loop.arrived.length]? = some (req.query n.loop.arrived.length) ∧
      ∃ r ∈ loop.replies, r.handle = n.loop.arrived.length := by
  obtain ⟨loop, hmoves, hup, harrived, hreplies⟩ := h.exists_replied hreach
  have hlast : (n.deliver req).loop.arrived =
      n.loop.arrived ++ [req.query n.loop.arrived.length] := rfl
  refine ⟨_, loop, hmoves, rfl, hup, ?_,
    hreplies (req.query n.loop.arrived.length) (by simp [hlast])⟩
  rw [harrived, hlast, List.getElem?_concat_length]

/-- A client method that has been listed the token of one server. -/
def MethodRun.heard (srv : Server ZenohId World) (client : ServiceClient) (method : Ident)
    (request : ZRPCResult Bytes) (debugRequest : String) : MethodRun :=
  { MethodRun.start client method request debugRequest with
    listed := some (.ok [.ok (srv.tokenKe client.serviceIdent.toString)]) }

/-- A client method may start and be listed the token of any server that is up, for a service that
is registered there. -/
lemma NetState.Up.exists_heard (h : s.Up i n) (hreach : (network ZenohId World).Reachable s)
    {client : ServiceClient} (hservice : client.serviceIdent.toString ∈ n.server.services)
    (method : Ident) (request : ZRPCResult Bytes) (debugRequest : String) :
    ∃ s' : NetState ZenohId World, ((network ZenohId World).restrict NoServe).Moves s s' ∧
      s'.Up i n ∧
      s'.runs[s.runs.length]? = some (.heard n.server client method request debugRequest) := by
  -- the token of the client's service is declared as long as the loop receives
  obtain ⟨ts, hst⟩ := h.setup
  obtain ⟨n', hn', hsetup⟩ := (NetState.inv_of_reachable hreach).setups i _ hst
  rw [h.node, Option.some.injEq] at hn'
  subst hn'
  have htoken := hsetup.serving rfl h.receiving _ hservice
  have hstart : ((network ZenohId World).restrict NoServe).Moves s
      { s with runs := s.runs ++ [.start client method request debugRequest] } :=
    .single (l := .start client method request debugRequest) ⟨trivial, .start⟩
  have hlist : NetStep
      { s with runs := s.runs ++ [.start client method request debugRequest] }
      (.list s.runs.length (.ok [.ok (n.server.tokenKe client.serviceIdent.toString)])) _ :=
    .list List.getElem?_concat_length rfl fun kes hkes ke hke => by
      obtain rfl := Except.ok.inj hkes
      obtain rfl := Except.ok.inj (List.mem_singleton.mp hke)
      exact ⟨client.intersects_rpcKe n.server, _, List.mem_of_getElem? hst, htoken⟩
  refine ⟨_, hstart.tail (l := .list _ _) ⟨trivial, hlist⟩,
    ⟨h.node, h.setup, h.receiving, h.answerable⟩, ?_⟩
  exact List.getElem?_set_self (by simp)

/-- A client method that has been listed the token of a server may find it, if the server is up and
has the labels. -/
lemma NetState.Up.exists_found [Inhabited World] (h : s.Up i n)
    (hreach : (network ZenohId World).Reachable s) {client : ServiceClient}
    (hlabels : client.labels ⊆ n.server.labels) {method : Ident} {request : ZRPCResult Bytes}
    {debugRequest : String} {k : ℕ}
    (hk : s.runs[k]? = some (.heard n.server client method request debugRequest)) :
    ∃ (s' : NetState ZenohId World) (loop : LoopState ZenohId World) (run : MethodRun),
      ((network ZenohId World).restrict NoServe).Moves s s' ∧
      s'.Up i ⟨n.server, loop⟩ ∧ s'.runs[k]? = some run ∧
      run.Found client method request debugRequest n.server.instanceUuid := by
  obtain ⟨hlt, _⟩ := List.getElem?_eq_some_iff.mp hk
  -- the client method asks the server for its metadata
  obtain ⟨targets, hreaches⟩ := s.deploy.exists_reaches
    (metadataRequest n.server.instanceUuid client.tout)
  let asked : MethodRun := { MethodRun.heard n.server client method request debugRequest with
    asking := some (s.deploy.handles targets)
    asked := [] ++ s.deploy.handles targets }
  have hask := NetStep.ask hk (client.next_listed n.server) rfl hreaches
  obtain ⟨hhandle, hup⟩ := h.deliver ((intersects_metadataRequest _ _).mpr rfl)
    (answerable_metadataRequest n.server _ _) hreaches.2 s.deploy.calls (s.runs.set k asked)
  have hmoves : ((network ZenohId World).restrict NoServe).Moves s _ :=
    .single (l := .ask k targets) ⟨trivial, hask⟩
  have hreached := hmoves.of_restrict.reachable hreach
  -- the server replies with its metadata
  obtain ⟨d, loop, hgoes, _, hup', harrived, r, hr, hreply⟩ := hup.exists_answered hreached
  have htraced := DeployState.traced_of_reachable
    (network_refines.reachable (hgoes.of_restrict.reachable hreached))
  have hsample := htraced.metadata_eq (p := (i, n.loop.arrived.length)) hup'.node harrived hr hreply
  have hsent : ∀ rawData, Except.ok rawData ∈ ([.ok r.sample] : List GetReply) →
      ∃ target ∈ s.deploy.handles targets, ∃ n, d.nodes[target.1]? = some n ∧
        ∃ r ∈ n.loop.replies, r.handle = target.2 ∧ r.sample = rawData :=
    fun rawData hraw => ⟨(i, n.loop.arrived.length), hhandle, _, hup'.node, r, hr, hreply,
      Except.ok.inj (List.mem_singleton.mp hraw).symm⟩
  have hanswered : NetStep ⟨d, s.setups, s.runs.set k asked⟩ (.answered k [.ok r.sample]) _ :=
    .answered (List.getElem?_set_self hlt) rfl hsent
  refine ⟨_, loop, _, (hmoves.trans hgoes).tail (l := .answered k _) ⟨trivial, hanswered⟩,
    ⟨hup'.node, hup'.setup, hup'.receiving, hup'.answerable⟩, List.getElem?_set_self (by simpa),
    rfl, rfl, rfl, rfl, ?_, rfl⟩
  rw [MethodRun.next, hsample]
  exact ServiceClient.next_answered hlabels

/-! ## Calling the server -/

/-- A client method that has found a server may call it and take its reply, if the server is up and
can answer the call. -/
lemma NetState.Up.exists_called [Inhabited World] (h : s.Up i n)
    (hreach : (network ZenohId World).Reachable s) {k : ℕ} {run : MethodRun}
    (hk : s.runs[k]? = some run) (hnext : run.next ZenohId = .call n.server.instanceUuid)
    (hcall : run.call = none) {raw : Bytes} (hreq : run.request = .ok raw) {req : GetRequest}
    (hrequest : run.client.channel.getRequest n.server.instanceUuid raw run.method.toString
      run.client.tout = req) (hanswerable : ∀ handle, Answerable n.server (req.query handle)) :
    ∃ (s' : NetState ZenohId World) (loop : LoopState ZenohId World) (c : ℕ) (call : ClientCall)
      (handle : ℕ) (rawData : Bytes) (e : Completion ZenohId World),
      ((network ZenohId World).restrict NoServe).Moves s s' ∧
      s'.runs[k]? = some { run with call := some (.sent c) } ∧
      s'.deploy.calls[c]? = some call ∧ call.request = req ∧ call.status = .took (.ok rawData) ∧
      s'.deploy.RepliedBy call rawData (i, handle) ⟨n.server, loop⟩ e := by
  obtain ⟨hlt, _⟩ := List.getElem?_eq_some_iff.mp hk
  have hke : Intersects n.server.queryableKe (req.query 0).keyExpr := by
    rw [← hrequest]
    exact (intersects_getRequest_iff n.server run.client run.method n.server.instanceUuid raw
      run.client.tout 0).mpr rfl
  -- the call is handed to the server
  obtain ⟨targets, hnodup, htargets⟩ := s.deploy.exists_reaches req
  have hsent : DeployStep s.deploy (.call run.client.channel n.server.instanceUuid raw
      run.method.toString run.client.tout targets) _ :=
    .call hnodup (by rwa [hrequest])
  rw [hrequest] at hsent
  obtain ⟨hhandle, hup⟩ := h.deliver hke hanswerable htargets
    (s.deploy.calls ++ [⟨req, s.deploy.handles targets, .waiting⟩])
    (s.runs.set k { run with call := some (.sent s.deploy.calls.length) })
  have hmoves : ((network ZenohId World).restrict NoServe).Moves s _ :=
    .single (l := .call k targets) ⟨trivial, .call hk hnext hcall hreq hsent⟩
  have hreached := hmoves.of_restrict.reachable hreach
  -- the server replies
  obtain ⟨d, loop, hgoes, hcalls, hup', harrived, r, hr, hreply⟩ := hup.exists_answered hreached
  have htraced := DeployState.traced_of_reachable
    (network_refines.reachable (hgoes.of_restrict.reachable hreached))
  obtain ⟨e, hone, hquery, hsent', hinvoked, hraw⟩ := htraced.exists_completion
    (p := (i, n.loop.arrived.length)) hup'.node harrived hr hreply
  -- the client takes the reply
  have hc : d.calls[s.deploy.calls.length]? =
      some ⟨req, s.deploy.handles targets, .waiting⟩ := by
    rw [hcalls, List.getElem?_concat_length]
  have hanswer : DeployStep d (.answer s.deploy.calls.length (i, n.loop.arrived.length)) _ :=
    .answer hc rfl hhandle hup'.node hr hreply
  obtain ⟨hclt, _⟩ := List.getElem?_eq_some_iff.mp hc
  have htook : NetStep
      ⟨d, s.setups, s.runs.set k { run with call := some (.sent s.deploy.calls.length) }⟩
      (.reply (.answer s.deploy.calls.length (i, n.loop.arrived.length))) _ :=
    .reply trivial hanswer
  exact ⟨_, loop, s.deploy.calls.length, _, n.loop.arrived.length, r.sample, e,
    (hmoves.trans hgoes).tail (l := .reply _) ⟨trivial, htook⟩, List.getElem?_set_self hlt,
    List.getElem?_set_self hclt, rfl, rfl, hhandle, hup'.node, hke, hone, hquery,
    ⟨r, hsent', hreply, rfl⟩, hinvoked, hraw⟩

/-- A client method that starts may return what the handler returns, if a server that qualifies is
up. -/
lemma NetState.Up.exists_returned [Inhabited World] (h : s.Up i n)
    (hreach : (network ZenohId World).Reachable s) {client : ServiceClient}
    (hlabels : client.labels ⊆ n.server.labels) {svc : GeneratedService World}
    (hident : client.serviceIdent = svc.ident)
    (hsvc : n.server.services.lookup svc.name = some (.generated svc)) {me : ServiceMethod World}
    (hme : me ∈ svc.methods) {request : Request me.Req}
    (hmessage : RoundTrips (maxDepth - 1) request.message)
    (hreturns : ∀ w, ∃ res, me.handler w request = .returned res ∧
      ∀ resp, res = .ok resp → RoundTrips maxDepth resp.message) :
    ∃ (s' : NetState ZenohId World) (run : MethodRun) (loop : LoopState ZenohId World) (c : ℕ)
      (call : ClientCall) (handle : ℕ) (rawData : Bytes) (e : Completion ZenohId World)
      (res : Except Status (Response me.Resp)),
      ((network ZenohId World).restrict NoServe).Moves s s' ∧
      s'.runs[s.runs.length]? = some run ∧
      (run.client = client ∧ run.method = me.ident ∧ run.request = serialize request ∧
        run.debugRequest = debug request) ∧
      (run.call = some (.sent c) ∧ s'.deploy.calls[c]? = some call ∧
        s'.deploy.RepliedBy call rawData (i, handle) ⟨n.server, loop⟩ e ∧
        e.invoked = [.handler me request]) ∧
      me.handler e.world request = .returned res ∧ run.result ZenohId me.Resp s'.deploy.calls =
        some (res.map fun resp => Response.new resp.message) := by
  obtain ⟨raw, hraw, hread⟩ :=
    deserialize_serialize ((Request.roundTrips hmessage).mono (by decide : _ ≤ maxDepth))
  have hservice : client.serviceIdent.toString ∈ n.server.services := by
    rw [hident, ← AList.lookup_isSome]
    exact hsvc ▸ rfl
  obtain ⟨s₁, hmoves₁, hup₁, hheard⟩ := h.exists_heard hreach hservice me.ident
    (serialize request) (debug request)
  have hreach₁ := hmoves₁.of_restrict.reachable hreach
  obtain ⟨s₂, loop, run, hmoves₂, hup₂, hrun, hfound⟩ := hup₁.exists_found hreach₁ hlabels hheard
  have hreach₂ := hmoves₂.of_restrict.reachable hreach₁
  have hrequest : run.client.channel.getRequest n.server.instanceUuid raw run.method.toString
      run.client.tout = svc.getRequest me n.server.instanceUuid raw client.tout := by
    rw [hfound.client, hfound.method, ServiceClient.channel, hident]
    rfl
  have hanswerable := answerable_getRequest hsvc hme hread
    (fun w => (hreturns w).imp fun _ hres => hres.1) client.tout
  obtain ⟨s', loop', c, call, handle, rawData, e, hmoves₃, hrun', hc, hget, hstatus, hby⟩ :=
    hup₂.exists_called hreach₂ hrun hfound.next hfound.call (hfound.request.trans hraw) hrequest
      hanswerable
  -- the server has run the handler, and the reply is what it returned
  obtain ⟨hinvoked, hreplied⟩ := Server.call_of_mem
    (callsService_getRequest hsvc me raw client.tout 0) hme (getToken_getRequest ..) hread e.world
  have hran := hby.invoked
  have hreply := hby.replied
  rw [hget] at hran hreply
  obtain ⟨res, hres, rfl⟩ := (hreplied rawData).mp hreply
  obtain ⟨res', hres', hround⟩ := hreturns e.world
  obtain rfl := Outcome.returned.inj (hres'.symm.trans hres)
  have hresult := RPCClientChannel.readReply_serviceReply hround
  refine ⟨s', _, loop', c, call, handle, _, e, res', (hmoves₁.trans hmoves₂).trans hmoves₃, hrun',
    ⟨hfound.client, hfound.method, hfound.request, hfound.debugRequest⟩,
    ⟨rfl, hc, hby, hran.trans hinvoked⟩, hres, ?_⟩
  simp only [MethodRun.result, hc, Option.map_some, hstatus, hresult]

/-- A client method is answered, whatever happened before.  In every network where no two calls of
`serve` share a session: as long as a server is up that qualifies for the client, a client method
may start now, as one more among those that have started, and come to its end, if its request can be
written and read, and the handler returns, in every world, what can be written and read.  Then a
task on that server has run the handler once, on that request, and nothing else has run for the
method, and it has returned what the handler returned in the world of that task. -/
theorem NetState.responsive [Inhabited World]
    (h : ((network ZenohId World).restrict OwnSession).Reachable s) (hup : s.Up i n)
    {client : ServiceClient} (hlabels : client.labels ⊆ n.server.labels)
    {svc : GeneratedService World} (hident : client.serviceIdent = svc.ident)
    (hsvc : n.server.services.lookup svc.name = some (.generated svc)) {me : ServiceMethod World}
    (hme : me ∈ svc.methods) {request : Request me.Req}
    (hmessage : RoundTrips (maxDepth - 1) request.message)
    (hreturns : ∀ w, ∃ res, me.handler w request = .returned res ∧
      ∀ resp, res = .ok resp → RoundTrips maxDepth resp.message) :
    ∃ (s' : NetState ZenohId World) (run : MethodRun) (loop : LoopState ZenohId World)
      (e : Completion ZenohId World) (res : Except Status (Response me.Resp)),
      ((network ZenohId World).restrict OwnSession).Moves s s' ∧
      s'.runs[s.runs.length]? = some run ∧
      run.client = client ∧ run.method = me.ident ∧ run.request = serialize request ∧
      s'.deploy.nodes[i]? = some ⟨n.server, loop⟩ ∧ e ∈ loop.completed ∧
      e.invoked = [.handler me request] ∧ s'.invocations run = [.handler me request] ∧
      me.handler e.world request = .returned res ∧
      run.result ZenohId me.Resp s'.deploy.calls =
        some (res.map fun resp => Response.new resp.message) := by
  obtain ⟨s', run, loop, c, call, handle, rawData, e, res, hmoves, hrun,
    ⟨hclient, hmethod, hrequest, _⟩, ⟨hsent, hc, hby, hinvoked⟩, hres, hresult⟩ :=
    hup.exists_returned h.of_restrict hlabels hident hsvc hme hmessage hreturns
  have hmoves := hmoves.mono fun _ _ => NoServe.ownSession
  have hreach := hmoves.reachable h
  have hdeploy := DeployState.inv_of_reachable (network_refines_singleTarget.reachable hreach)
  have hran := hby.ran_eq
  rw [hinvoked] at hran
  refine ⟨s', run, loop, e, res, hmoves, hrun, hclient, hmethod, hrequest, hby.node,
    hby.mem_completed, hinvoked, ?_, hres, hresult⟩
  rw [NetState.invocations_of_sent (NetState.inv_of_reachable hreach.of_restrict)
    hdeploy.toTraced (List.mem_of_getElem? hrun) hsent hc,
    hdeploy.invocations_eq (List.mem_of_getElem? hc) hby.delivered (by simp [hran]), hran]

end

/-! ## The tests' client, answered by the tests' server -/

section

variable [Runtime] [Zenoh ZenohId] [DecidableEq ZenohId]

/-- A call of `serve` may declare the tokens that are left to it. -/
lemma NetState.moves_declaring (n : Node ZenohId World) (ks ts : List String) :
    ∃ ts', ((network ZenohId World).restrict NoServe).Moves
      ⟨⟨[n], []⟩, [⟨.declaring ks, ts⟩], []⟩ ⟨⟨[n], []⟩, [⟨.declaring [], ts'⟩], []⟩ := by
  induction ks generalizing ts with
  | nil => exact ⟨ts, .refl⟩
  | cons k ks ih =>
    have hdeclare : NetStep ⟨⟨[n], []⟩, [⟨.declaring (k :: ks), ts⟩], []⟩ (.declareToken 0)
        ⟨⟨[n], []⟩, [⟨.declaring ks, ts ++ [n.server.tokenKe k]⟩], []⟩ := .declareToken rfl rfl
    have hfirst : ((network ZenohId World).restrict NoServe).Moves _ _ :=
      .single (l := .declareToken 0) ⟨trivial, hdeclare⟩
    obtain ⟨ts', hrest⟩ := ih (ts ++ [n.server.tokenKe k])
    exact ⟨ts', hfirst.trans hrest⟩

/-- A server may be up, alone in a network. -/
lemma NetState.exists_up (srv : Server ZenohId World) : ∃ s : NetState ZenohId World,
    ((network ZenohId World).restrict OwnSession).Reachable s ∧
      s.deploy.nodes = [⟨srv, .start⟩] ∧ s.runs = [] ∧ s.Up 0 ⟨srv, .start⟩ := by
  have hserve : NetStep (⟨⟨[], []⟩, [], []⟩ : NetState ZenohId World)
      (.serve srv srv.services.keys) _ := .serve (.refl _)
  have hinit : ((network ZenohId World).restrict OwnSession).Reachable ⟨⟨[], []⟩, [], []⟩ :=
    .init rfl
  obtain ⟨ts, hmoves⟩ := NetState.moves_declaring ⟨srv, .start⟩ srv.services.keys []
  have hdeclared := (hmoves.mono fun _ _ => NoServe.ownSession).reachable
    (hinit.step ⟨by simp [OwnSession], hserve⟩)
  have hmove : NetStep (⟨⟨[⟨srv, .start⟩], []⟩, [⟨.declaring [], ts⟩], []⟩ : NetState ZenohId World)
      (.moveTokens 0) _ := .moveTokens rfl
  exact ⟨_, hdeclared.step ⟨.of_ne (by simp), hmove⟩, rfl, rfl, rfl, ⟨ts, rfl⟩, rfl,
    by simp [LoopState.start]⟩

end

open Reference

/-- The tests' server may be up. -/
lemma exists_helloUp : ∃ s : NetState SessionId Unit,
    ((network SessionId Unit).restrict OwnSession).Reachable s ∧ s.runs = [] ∧
      s.Up 0 (helloNode .start) := by
  obtain ⟨s, hreach, _, hruns, hup⟩ := NetState.exists_up (helloServer hello)
  exact ⟨s, hreach, hruns, hup⟩

/-- The tests' client requires no labels. -/
lemma helloClient_labels : helloClient.labels ⊆ (helloServer hello).labels := Finset.empty_subset _

/-- The handler of the tests returns a greeting, which can be written and read. -/
lemma returns_hello (request : Request hello.Req) (w : Unit) : ∃ res,
    hello.handler w request = .returned res ∧
      ∀ resp, res = .ok resp → RoundTrips maxDepth resp.message :=
  ⟨_, rfl, fun resp _ => (roundTrips_string resp.message).mono (by decide)⟩

/-- The tests' client may be greeted. -/
lemma exists_helloReturned : ∃ (s : NetState SessionId Unit) (run : MethodRun)
    (r : Response String), ((network SessionId Unit).restrict OwnSession).Reachable s ∧
      run ∈ s.runs ∧ run.request = serialize helloRequest ∧
      run.debugRequest = debug helloRequest ∧
      run.result SessionId String s.deploy.calls = some (.ok r) := by
  obtain ⟨s, hreach, _, hup⟩ := exists_helloUp
  obtain ⟨s', run, _, _, _, _, _, _, res, hmoves, hrun, ⟨_, _, hrequest, hdebug⟩, _, hres,
    hresult⟩ := hup.exists_returned hreach.of_restrict helloClient_labels rfl
      (lookup_helloServer hello) (mem_helloService greet)
      ((roundTrips_helloRequest _).mono (by decide)) (returns_hello helloRequest)
  obtain rfl := Outcome.returned.inj hres
  have hmoves := hmoves.mono fun _ _ => NoServe.ownSession
  exact ⟨s', run, _, hmoves.reachable hreach, List.mem_of_getElem? hrun, hrequest, hdebug, hresult⟩

/-- The tests' client may be greeted, having run the handler once. -/
theorem responsive_hello : ∃ (s : NetState SessionId Unit) (run : MethodRun)
    (r : Response String), s.runs[0]? = some run ∧
      s.invocations run = [.handler hello helloRequest] ∧
      run.result SessionId String s.deploy.calls = some (.ok r) := by
  obtain ⟨s, hreach, hruns, hup⟩ := exists_helloUp
  obtain ⟨s', run, _, _, res, _, hrun, _, _, _, _, _, _, hinvocations, hres, hresult⟩ :=
    NetState.responsive hreach hup helloClient_labels rfl
      (lookup_helloServer hello) (mem_helloService greet)
      ((roundTrips_helloRequest _).mono (by decide)) (returns_hello helloRequest)
  obtain rfl := Outcome.returned.inj hres
  rw [hruns] at hrun
  exact ⟨s', run, _, hrun, hinvocations, hresult⟩

/-- What the tests' client returns in a network is what its method returns on the answers. -/
theorem result_eq_callMethod_hello : ∃ (s : NetState SessionId Unit) (run : MethodRun)
    (r : Response String), run ∈ s.runs ∧
      run.client.callMethod SessionId String run.listing run.metadata (run.answer s.deploy.calls)
        run.method helloRequest = .ok r := by
  obtain ⟨s, run, r, hreach, hrun, hrequest, hdebug, hresult⟩ := exists_helloReturned
  exact ⟨s, run, r, hrun,
    NetState.result_eq_callMethod hreach.of_restrict hrun hrequest hdebug hresult⟩

/-- The tests' client gets what a server that was announced to it responded to it. -/
theorem response_provenance_hello : ∃ (s : NetState SessionId Unit) (run : MethodRun)
    (r : Response String) (p : ℕ × ℕ) (n : Node SessionId Unit) (e : Completion SessionId Unit)
    (inv : Invocation Unit), run ∈ s.runs ∧ s.RespondedBy run r p n e inv ∧
      s.Announced run n.server.instanceUuid := by
  obtain ⟨s, run, r, hreach, hrun, _, _, hresult⟩ := exists_helloReturned
  obtain ⟨p, n, e, inv, hresponded, hannounced, _⟩ :=
    NetState.response_provenance hreach.of_restrict hrun hresult
  exact ⟨s, run, r, p, n, e, inv, hrun, hresponded, hannounced⟩

/-- The tests' client runs user code once for the greeting. -/
theorem method_once_hello : ∃ (s : NetState SessionId Unit) (run : MethodRun)
    (inv : Invocation Unit), run ∈ s.runs ∧ s.invocations run = [inv] := by
  obtain ⟨s, run, r, hreach, hrun, _, _, hresult⟩ := exists_helloReturned
  obtain ⟨_, _, hresponds⟩ := NetState.method_once hreach hrun
  obtain ⟨_, _, _, inv, _, _, hinvocations⟩ := hresponds String r hresult
  exact ⟨s, run, inv, hrun, hinvocations⟩

end ZenohRpc
