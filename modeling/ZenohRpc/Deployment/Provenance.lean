import ZenohRpc.Client.Addressing
import ZenohRpc.Client.Calls
import ZenohRpc.Deployment.System
import ZenohRpc.Server.Invocations
import ZenohRpc.Transition.Refinement

/-!
# Where replies come from

Whatever runs in a deployment, on whatever sessions, a client call never takes a reply that is not
for it: the bytes it takes are the reply of one task on a node that its query reached.  The task was
spawned for that query, it is the only one that has ended on the query's handle there, and in the
world that it ran in it ran and replied what the node's server runs and replies to that query.

`DeployState.Extends` is what any number of steps keep: servers stay, queries that arrived and
replies that were sent stay, and a client call keeps its request and where it was handed to.
-/

namespace ZenohRpc

open Json KeyExpr

variable {ZenohId World : Type}

/-! ## What steps keep -/

/-- A node of an earlier state: it is the same server, what arrived and what was replied is still
there, and a loop that receives has been receiving. -/
structure Node.Extends (n n' : Node ZenohId World) : Prop where
  server : n'.server = n.server
  arrived : n.loop.arrived <+: n'.loop.arrived
  replies : n.loop.replies ⊆ n'.loop.replies
  receiving : n'.loop.status = .receiving → n.loop.status = .receiving

/-- The nodes of an earlier state are still there, and its client calls are the same calls. -/
structure DeployState.Extends (s s' : DeployState ZenohId World) : Prop where
  nodes : ∀ (i : ℕ) (n : Node ZenohId World), s.nodes[i]? = some n →
    ∃ n' : Node ZenohId World, s'.nodes[i]? = some n' ∧ n.Extends n'
  calls : ∀ (c : ℕ) (call : ClientCall), s.calls[c]? = some call →
    ∃ call' : ClientCall, s'.calls[c]? = some call' ∧ call'.request = call.request ∧
      call'.delivered = call.delivered

lemma DeployState.Extends.refl (s : DeployState ZenohId World) : s.Extends s :=
  ⟨fun _ n hn => ⟨n, hn, rfl, List.prefix_rfl, List.Subset.refl _, id⟩,
    fun _ call hcall => ⟨call, hcall, rfl, rfl⟩⟩

lemma DeployState.Extends.trans {s s' s'' : DeployState ZenohId World} (h : s.Extends s')
    (h' : s'.Extends s'') : s.Extends s'' := by
  constructor
  · intro i n hn
    obtain ⟨n', hn', hext⟩ := h.nodes i n hn
    obtain ⟨n'', hn'', hext'⟩ := h'.nodes i n' hn'
    exact ⟨n'', hn'', hext'.server.trans hext.server, hext.arrived.trans hext'.arrived,
      List.Subset.trans hext.replies hext'.replies, hext.receiving ∘ hext'.receiving⟩
  · intro c call hcall
    obtain ⟨call', hcall', hrequest, hdelivered⟩ := h.calls c call hcall
    obtain ⟨call'', hcall'', hrequest', hdelivered'⟩ := h'.calls c call' hcall'
    exact ⟨call'', hcall'', hrequest'.trans hrequest, hdelivered'.trans hdelivered⟩

/-- Changing the status of a call keeps the call. -/
lemma DeployState.extends_set {s : DeployState ZenohId World} {c : ℕ} {call : ClientCall}
    (hcall : s.calls[c]? = some call) (status : CallStatus) :
    s.Extends { s with calls := s.calls.set c { call with status := status } } := by
  refine ⟨(DeployState.Extends.refl s).nodes, fun c' call' hcall' => ?_⟩
  rw [List.getElem?_set]
  split
  · rename_i heq
    subst heq
    obtain ⟨hlt, _⟩ := List.getElem?_eq_some_iff.mp hcall
    rw [hcall, Option.some.injEq] at hcall'
    rw [if_pos hlt, ← hcall']
    exact ⟨_, rfl, rfl, rfl⟩
  · exact ⟨call', hcall', rfl, rfl⟩

section

variable [Runtime] [Zenoh ZenohId]

/-- A loop that receives after a step has been receiving before. -/
lemma ServeStep.receiving {srv : Server ZenohId World} {s s' : LoopState ZenohId World}
    {l : LoopEvent World} (h : ServeStep srv s l s') (hstatus : s'.status = .receiving) :
    s.status = .receiving := by
  cases h with
  | complete => exact hstatus
  | arrive hreceiving | receive hreceiving | receiveError hreceiving | cancel hreceiving =>
    exact hreceiving

/-- A node after a step extends the node before it. -/
lemma Node.Evolves.extends {n n' : Node ZenohId World} (h : n.Evolves n') : n.Extends n' := by
  refine ⟨h.server, h.arrived, h.replies, fun hstatus => ?_⟩
  rcases h.loop with hsame | ⟨l, hs⟩
  · rwa [← hsame]
  · exact hs.receiving hstatus

/-- A step keeps what there is. -/
lemma DeployStep.extends {s s' : DeployState ZenohId World} {e : DeployEvent ZenohId World}
    (h : DeployStep s e s') : s.Extends s' := by
  have hnodes : ∀ (i : ℕ) (n : Node ZenohId World), s.nodes[i]? = some n →
      ∃ n' : Node ZenohId World, s'.nodes[i]? = some n' ∧ n.Extends n' := by
    intro i n hn
    obtain ⟨n', hn', hevolves⟩ := h.evolves i n hn
    exact ⟨n', hn', hevolves.extends⟩
  refine ⟨hnodes, ?_⟩
  cases h with
  | serve => exact (DeployState.Extends.refl s).calls
  | loop => exact (DeployState.Extends.refl s).calls
  | call =>
    intro c call hcall
    obtain ⟨hlt, _⟩ := List.getElem?_eq_some_iff.mp hcall
    exact ⟨call, by rw [List.getElem?_append_left hlt, hcall], rfl, rfl⟩
  | answer hcall => exact (DeployState.extends_set hcall _).calls
  | refuse hcall => exact (DeployState.extends_set hcall _).calls
  | noReply hcall => exact (DeployState.extends_set hcall _).calls

/-- Any number of steps keep what there is. -/
lemma DeployState.extends_of_moves {s s' : DeployState ZenohId World}
    (h : (deployment ZenohId World).Moves s s') : s.Extends s' := by
  induction h with
  | refl => exact .refl s
  | tail _ hstep ih =>
    obtain ⟨e, hs⟩ := hstep
    exact ih.trans (DeployStep.extends hs)

end

/-! ## What has run on a handle -/

/-- The tasks on a handle of a node that have ended. -/
def DeployState.completedAt (s : DeployState ZenohId World) (p : ℕ × ℕ) :
    List (Completion ZenohId World) :=
  match s.nodes[p.1]? with
  | none => []
  | some n => n.loop.completed.filter fun e => e.task.query.handle == p.2

/-- The user code that a node has run so far for a handle. -/
def DeployState.ran (s : DeployState ZenohId World) (p : ℕ × ℕ) : List (Invocation World) :=
  match s.nodes[p.1]? with
  | none => []
  | some n => n.loop.ran p.2

/-- The user code that was run on a handle of a node is that of the tasks there. -/
lemma DeployState.ran_eq_flatMap (s : DeployState ZenohId World) (p : ℕ × ℕ) :
    s.ran p = (s.completedAt p).flatMap Completion.invoked := by
  unfold DeployState.ran DeployState.completedAt
  cases s.nodes[p.1]? <;> rfl

/-! ## What is known of a call -/

/-- What is known of a client call, whoever serves it: it calls a service; its query arrived at each
node it was handed to, under the handle it has there; and a reply that it took was sent by such a
node, on that handle. -/
structure ClientCall.Traced (s : DeployState ZenohId World) (c : ClientCall) : Prop where
  kind : ∀ handle, getToken (c.request.query handle).keyExpr 2 = some "service"
  arrived : ∀ p ∈ c.delivered, ∃ n, s.nodes[p.1]? = some n ∧
    n.loop.arrived[p.2]? = some (c.request.query p.2)
  took : ∀ rawData, c.status = .took (.ok rawData) → ∃ p ∈ c.delivered, ∃ n,
    s.nodes[p.1]? = some n ∧ ∃ r ∈ n.loop.replies, r.handle = p.2 ∧ r.sample = rawData

/-- A query that arrived at a node stands there for good. -/
lemma Node.Extends.getElem?_arrived {n n' : Node ZenohId World} (h : n.Extends n') {handle : ℕ}
    {q : Query} (hq : n.loop.arrived[handle]? = some q) : n'.loop.arrived[handle]? = some q := by
  obtain ⟨hlt, hquery⟩ := List.getElem?_eq_some_iff.mp hq
  exact hquery ▸ List.prefix_iff_getElem?.mp h.arrived handle hlt

/-- What is known of a client call stays known. -/
lemma ClientCall.Traced.extend {s s' : DeployState ZenohId World} {c : ClientCall}
    (h : c.Traced s) (hext : s.Extends s') : c.Traced s' := by
  refine ⟨h.kind, fun p hp => ?_, fun rawData hstatus => ?_⟩
  · obtain ⟨n, hn, harrived⟩ := h.arrived p hp
    obtain ⟨n', hn', hnode⟩ := hext.nodes _ n hn
    exact ⟨n', hn', hnode.getElem?_arrived harrived⟩
  · obtain ⟨p, hp, n, hn, r, hr, hhandle, hsample⟩ := h.took rawData hstatus
    obtain ⟨n', hn', hnode⟩ := hext.nodes _ n hn
    exact ⟨p, hp, n', hn', r, hnode.replies hr, hhandle, hsample⟩

/-- A query that is handed to nodes arrives at each, under the handle it has there. -/
lemma DeployState.arrived_deliver {s : DeployState ZenohId World} {req : GetRequest}
    {targets : List ℕ} {p : ℕ × ℕ} (hp : p ∈ s.handles targets) :
    ∃ n, (s.deliver req targets)[p.1]? = some n ∧ n.loop.arrived[p.2]? = some (req.query p.2) := by
  obtain ⟨htarget, n, hn, hhandle⟩ := DeployState.mem_handles.mp hp
  refine ⟨_, DeployState.getElem?_deliver hn, ?_⟩
  rw [if_pos htarget, hhandle]
  simp [Node.deliver, LoopState.arrive, GetRequest.query]

section

variable [Runtime] [Zenoh ZenohId]

/-- What is known in every state: each node is in a state that its loop can be in, and of each
client call the above is known. -/
structure DeployState.Traced (s : DeployState ZenohId World) : Prop where
  nodes : ∀ n ∈ s.nodes, (serveLoop n.server).Reachable n.loop
  calls : ∀ c ∈ s.calls, c.Traced s

/-- Every step keeps what is known. -/
lemma DeployState.Traced.step {s s' : DeployState ZenohId World} {e : DeployEvent ZenohId World}
    (h : s.Traced) (hs : DeployStep s e s') : s'.Traced := by
  have hcalls : ∀ c ∈ s.calls, c.Traced s' := fun c hc => (h.calls c hc).extend hs.extends
  refine ⟨fun n' hn' => ?_, ?_⟩
  · obtain ⟨i, hi⟩ := List.mem_iff_getElem?.mp hn'
    rcases hs.origin hi with ⟨n, hn, hevolves⟩ | ⟨_, hstart⟩
    · exact hevolves.reachable (h.nodes n (List.mem_of_getElem? hn))
    · exact hstart ▸ .init rfl
  · cases hs with
    | serve => exact hcalls
    | loop => exact hcalls
    | @call ch serverId req method tout targets hnodup _ =>
      intro c hc
      rcases List.mem_append.mp hc with hold | hnew
      · exact hcalls c hold
      · rw [List.mem_singleton.mp hnew]
        exact ⟨ch.getToken_getRequest serverId req method tout,
          fun p hp => DeployState.arrived_deliver hp, by simp⟩
    | @answer i call target n r hcall _ htarget hn hr hhandle =>
      intro c hc
      rcases List.mem_or_eq_of_mem_set hc with hold | rfl
      · exact hcalls c hold
      · obtain ⟨hkind, harrived, _⟩ := hcalls call (List.mem_of_getElem? hcall)
        refine ⟨hkind, harrived, fun rawData htook => ?_⟩
        cases htook
        exact ⟨target, htarget, n, hn, r, hr, hhandle, rfl⟩
    | refuse hcall | noReply hcall =>
      intro c hc
      rcases List.mem_or_eq_of_mem_set hc with hold | rfl
      · exact hcalls c hold
      · obtain ⟨hkind, harrived, _⟩ := hcalls _ (List.mem_of_getElem? hcall)
        exact ⟨hkind, harrived, by simp⟩

/-- What is known is known in every state that a deployment reaches. -/
lemma DeployState.traced_of_reachable {s : DeployState ZenohId World}
    (h : (deployment ZenohId World).Reachable s) : s.Traced := by
  refine h.invariant ?_ ?_
  · rintro s rfl
    exact ⟨by simp, by simp⟩
  · intro s e s' _ hinv hs
    exact hinv.step hs

/-! ## Provenance -/

omit [Runtime] [Zenoh ZenohId] in
/-- What a query is dispatched to does not depend on its handle. -/
lemma Server.dispatch_query (srv : Server ZenohId World) (req : GetRequest) (handle : ℕ) :
    srv.dispatch (req.query handle) = srv.dispatch (req.query 0) := by
  simp only [Server.dispatch, GetRequest.query]

/-- The user code that is run for a query does not depend on its handle. -/
lemma Server.invokedBy_query (srv : Server ZenohId World) (w : World) (req : GetRequest)
    (handle : ℕ) : srv.invokedBy w (req.query handle) = srv.invokedBy w (req.query 0) := by
  rw [Server.invokedBy, Server.invokedBy, srv.dispatch_query]

/-- The reply to a query does not depend on its handle. -/
lemma Server.replyTo_query (srv : Server ZenohId World) (w : World) (req : GetRequest)
    (handle : ℕ) : srv.replyTo w (req.query handle) = srv.replyTo w (req.query 0) := by
  rw [Server.replyTo, Server.replyTo, srv.dispatch_query]

/-- A reply to a call that is read as a response comes from the service that the query is for: it
ran user code once, for the method that the query names, and returned the message whose body is the
response. -/
lemma Server.called_of_readReply {srv : Server ZenohId World} {q : Query}
    (hkind : getToken q.keyExpr 2 = some "service") {w : World} {raw : Bytes}
    (hraw : srv.replyTo w q = some raw) {U : Type} [Serde U] {r : Response U}
    (hread : RPCClientChannel.readReply U raw = .ok r) :
    ∃ svc payload method inv m, CallsService srv q svc payload ∧
      getToken q.keyExpr 4 = some method ∧ srv.invokedBy w q = [inv] ∧
      svc.call w (callMessage method payload) = ⟨[inv], .returned (.ok m)⟩ ∧
      deserialize U m.body = .ok r.message := by
  obtain ⟨wmsg, pl, body, hwmsg, hpl, hbody, rfl⟩ := RPCClientChannel.readReply_eq_ok_iff.mp hread
  rcases srv.service_cases hkind w with
    ⟨svc, payload, method, hcalls, hmethod, hinvoked, hreply⟩ | ⟨_, hreply⟩
  · obtain ⟨res, hres, hanswer⟩ := hreply raw hraw
    rw [hanswer] at hwmsg
    obtain rfl := Except.ok.inj hwmsg
    cases res with
    | error e => cases hpl
    | ok m =>
      obtain rfl := Option.some.inj hpl
      obtain ⟨inv, hinv⟩ := List.length_eq_one_iff.mp (svc.length_invoked_call_of_ok w _ hres)
      refine ⟨svc, payload, method, inv, m, hcalls, hmethod, hinvoked.trans hinv, ?_, hbody⟩
      rw [← hinv, ← hres]
  · obtain ⟨e, hanswer⟩ := hreply raw hraw
    rw [hanswer] at hwmsg
    rw [← Except.ok.inj hwmsg] at hpl
    cases hpl

/-- A query that arrived at a node is one that the node's queryable gets. -/
lemma DeployState.Traced.intersects {s : DeployState ZenohId World} (h : s.Traced)
    {n : Node ZenohId World} (hn : n ∈ s.nodes) {handle : ℕ} {q : Query}
    (hq : n.loop.arrived[handle]? = some q) : Intersects n.server.queryableKe q.keyExpr :=
  (ZenohRpc.inv_of_reachable (h.nodes n hn)).addressed q (List.mem_of_getElem? hq)

/-- A reply on the handle that a query has at a node is that of the one task which has ended on the
handle.  The task was spawned for that query; it ran what the node's server runs for it in the
task's world, and the reply is what the server replies to it there. -/
lemma DeployState.Traced.exists_completion {s : DeployState ZenohId World} (h : s.Traced)
    {p : ℕ × ℕ} {n : Node ZenohId World} (hn : s.nodes[p.1]? = some n) {req : GetRequest}
    (harrived : n.loop.arrived[p.2]? = some (req.query p.2)) {r : QueryReply}
    (hr : r ∈ n.loop.replies) (hhandle : r.handle = p.2) :
    ∃ e, s.completedAt p = [e] ∧ e.task.query = req.query p.2 ∧ e.reply = some r ∧
      e.invoked = n.server.invokedBy e.world (req.query 0) ∧
      n.server.replyTo e.world (req.query 0) = some r.sample := by
  have hloop := ZenohRpc.inv_of_reachable (h.nodes n (List.mem_of_getElem? hn))
  obtain ⟨e, hone, hquery, hreply, hinvoked, hraw⟩ :=
    hloop.exists_completion hr (by rw [hhandle, harrived])
  rw [Server.invokedBy_query] at hinvoked
  rw [Server.replyTo_query] at hraw
  refine ⟨e, ?_, hquery, hreply, hinvoked, hraw⟩
  rw [← hone, hhandle]
  simp only [DeployState.completedAt, hn]

/-- Where the reply comes from that a client call took.  It is that of the one task which has ended
on a handle that the call's query has at a node.  The node's queryable gets the query, and the task
was spawned for it; what the task ran and replied is what the server there runs for the query and
replies to it, in the world that the task ran in. -/
structure DeployState.RepliedBy (s : DeployState ZenohId World) (c : ClientCall) (rawData : Bytes)
    (p : ℕ × ℕ) (n : Node ZenohId World) (e : Completion ZenohId World) : Prop where
  delivered : p ∈ c.delivered
  node : s.nodes[p.1]? = some n
  reached : Intersects n.server.queryableKe (c.request.query 0).keyExpr
  completed : s.completedAt p = [e]
  query : e.task.query = c.request.query p.2
  reply : ∃ r, e.reply = some r ∧ r.handle = p.2 ∧ r.sample = rawData
  invoked : e.invoked = n.server.invokedBy e.world (c.request.query 0)
  replied : n.server.replyTo e.world (c.request.query 0) = some rawData

section RepliedBy

variable {s : DeployState ZenohId World} {c : ClientCall} {rawData : Bytes} {p : ℕ × ℕ}
  {n : Node ZenohId World} {e : Completion ZenohId World}

/-- The handle that the reply came from has run what the task ran, and nothing else. -/
lemma DeployState.RepliedBy.ran_eq (h : s.RepliedBy c rawData p n e) : s.ran p = e.invoked := by
  rw [s.ran_eq_flatMap, h.completed, List.flatMap_singleton]

/-- The task that the reply came from has ended at the node. -/
lemma DeployState.RepliedBy.mem_completed (h : s.RepliedBy c rawData p n e) :
    e ∈ n.loop.completed := by
  have hmem : e ∈ s.completedAt p := by simp [h.completed]
  simp only [DeployState.completedAt, h.node] at hmem
  exact List.mem_of_mem_filter hmem

/-- Where a reply that is read as a response comes from: the task ran user code once, and the
service that the call is for returned, in the task's world, the message that the response is in. -/
lemma DeployState.RepliedBy.called (h : s.RepliedBy c rawData p n e)
    (hkind : getToken (c.request.query 0).keyExpr 2 = some "service") {U : Type} [Serde U]
    {r : Response U} (hread : RPCClientChannel.readReply U rawData = .ok r) :
    ∃ svc payload method inv m, CallsService n.server (c.request.query 0) svc payload ∧
      getToken (c.request.query 0).keyExpr 4 = some method ∧ e.invoked = [inv] ∧
      svc.call e.world (callMessage method payload) = ⟨[inv], .returned (.ok m)⟩ ∧
      deserialize U m.body = .ok r.message := by
  rw [h.invoked]
  exact Server.called_of_readReply hkind h.replied hread

/-- A reply that a client call took comes from somewhere. -/
lemma DeployState.Traced.exists_repliedBy (h : s.Traced) (hc : c ∈ s.calls)
    (hstatus : c.status = .took (.ok rawData)) : ∃ p n e, s.RepliedBy c rawData p n e := by
  have hcall := h.calls c hc
  obtain ⟨p, hp, n, hn, r, hr, hhandle, hsample⟩ := hcall.took rawData hstatus
  obtain ⟨n', hn', harrived⟩ := hcall.arrived p hp
  rw [hn, Option.some.injEq] at hn'
  subst hn'
  have hreached := h.intersects (List.mem_of_getElem? hn) harrived
  obtain ⟨e, hone, hquery, hreply, hinvoked, hraw⟩ := h.exists_completion hn harrived hr hhandle
  exact ⟨p, n, e, hp, hn, hreached, hone, hquery, ⟨r, hreply, hhandle, hsample⟩, hinvoked,
    hsample ▸ hraw⟩

end RepliedBy

/-- A client call takes no reply that is not for it.  In every deployment, on whatever sessions the
servers are and however often they are served, the reply that a client call has taken is that of one
task on a node that its query reached: what the server there replies to the query in the world in
which the task ran the user code that was run for the call on its handle. -/
theorem DeployState.provenance {s : DeployState ZenohId World}
    (h : (deployment ZenohId World).Reachable s) {c : ClientCall} (hc : c ∈ s.calls)
    {rawData : Bytes} (hstatus : c.status = .took (.ok rawData)) :
    ∃ p n e, s.RepliedBy c rawData p n e ∧ s.ran p = e.invoked := by
  obtain ⟨p, n, e, hreplied⟩ := (DeployState.traced_of_reachable h).exists_repliedBy hc hstatus
  exact ⟨p, n, e, hreplied, hreplied.ran_eq⟩

end

/-! ## A reply of the tests' server -/

open Reference

/-- The `get` of a call of `hello`. -/
def helloGet (body : Bytes) : GetRequest :=
  (helloService hello).getRequest hello session.zid body 0

/-- The task for a call of `hello`. -/
def helloTask (body : Bytes) : SpawnedTask SessionId Unit where
  query := (helloGet body).query 0
  ke := ((helloGet body).query 0).keyExpr
  fut := .serviceCall (.generated (helloService hello)) ((helloGet body).query 0).keyExpr body

/-- The tests' server, in a state of its loop. -/
def helloNode (loop : LoopState SessionId Unit) : Node SessionId Unit := ⟨helloServer hello, loop⟩

/-- The tests' server when a call of `hello` has run. -/
def helloDone (body : Bytes) : LoopState SessionId Unit where
  arrived := [(helloGet body).query 0]
  queue := []
  received := [(helloGet body).query 0]
  pending := []
  completed := [(helloTask body).complete ()]
  status := .receiving

/-- A call of `hello` reaches the tests' server. -/
lemma intersects_helloGet (body : Bytes) :
    Intersects (helloServer hello).queryableKe ((helloGet body).query 0).keyExpr := by
  have hnames : Addressable "Hello" "hello" :=
    ⟨by decide, by decide, by decide, by decide, by decide⟩
  have haddressed : (helloServer hello).Addressed
      (callQuery (helloServer hello).instanceUuid "Hello" "hello" body 0 0) _ "Hello" "hello"
        body :=
    hnames.addressed (by decide) (lookup_helloServer hello)
  exact haddressed.delivered

/-- A call of `hello` is handed to its task. -/
lemma dispatch_helloGet (body : Bytes) :
    (helloServer hello).dispatch ((helloGet body).query 0) = .ok (helloTask body).fut :=
  Server.dispatch_of_dispatched
    (.service (callsService_getRequest (lookup_helloServer hello) hello body 0 0))

section Run

variable {guard : DeployState SessionId Unit → DeployEvent SessionId Unit → Prop}
  {s : DeployState SessionId Unit}

variable (guard) in
/-- The tests' server may be served any number of times on its session, and a call of `hello` is
handed to each of them. -/
lemma reachable_helloArrived (k : ℕ) (body : Bytes) (hserve : ∀ s srv, guard s (.serve srv))
    (hcall : guard ⟨List.replicate k (helloNode .start), []⟩
      (.call (helloService hello).channel session.zid body hello.ident.toString 0 (List.range k))) :
    ((deployment SessionId Unit).restrict guard).Reachable
      ⟨List.replicate k (helloNode (helloArrived ((helloGet body).query 0))),
        [⟨helloGet body, (List.range k).map fun i => (i, 0), .waiting⟩]⟩ := by
  have hstart : ((deployment SessionId Unit).restrict guard).Reachable
      ⟨List.replicate k (helloNode .start), []⟩ := by
    clear hcall
    induction k with
    | zero => exact .init rfl
    | succ k ih =>
      rw [List.replicate_succ']
      exact ih.step ⟨hserve _ _, .serve⟩
  have hdeliver : (⟨List.replicate k (helloNode .start), []⟩ :
      DeployState SessionId Unit).deliver (helloGet body) (List.range k) =
      List.replicate k (helloNode (helloArrived ((helloGet body).query 0))) := by
    refine List.ext_getElem? fun i => ?_
    rw [DeployState.deliver, List.getElem?_mapIdx, List.getElem?_replicate, List.getElem?_replicate]
    by_cases hi : i < k
    · rw [if_pos hi, if_pos hi, Option.map_some, if_pos (List.mem_range.mpr hi)]
      rfl
    · rw [if_neg hi, if_neg hi, Option.map_none]
  have hhandles : (⟨List.replicate k (helloNode .start), []⟩ :
      DeployState SessionId Unit).handles (List.range k) =
      (List.range k).map fun i => (i, 0) := by
    rw [DeployState.handles, ← List.filterMap_eq_map]
    refine List.filterMap_congr fun i hi => ?_
    rw [List.getElem?_replicate, if_pos (List.mem_range.mp hi)]
    rfl
  have hstep := hstart.step ⟨hcall, .call List.nodup_range fun i n hn => ?_⟩
  · rw [← hdeliver, ← hhandles]
    exact hstep
  · rw [List.getElem?_replicate] at hn
    split at hn
    · rename_i hi
      rw [← Option.some.inj hn]
      exact iff_of_true (List.mem_range.mpr hi) ⟨rfl, intersects_helloGet body⟩
    · cases hn

/-- The tests' server, once a call of `hello` has arrived, may run it. -/
lemma reachable_helloDone (hloop : ∀ s i l, guard s (.loop i l)) {body : Bytes}
    (h : ((deployment SessionId Unit).restrict guard).Reachable s) {i : ℕ}
    (hi : s.nodes[i]? = some (helloNode (helloArrived ((helloGet body).query 0)))) :
    ((deployment SessionId Unit).restrict guard).Reachable
      { s with nodes := s.nodes.set i (helloNode (helloDone body)) } := by
  obtain ⟨hlt, _⟩ := List.getElem?_eq_some_iff.mp hi
  have hreceive : ServeStep (helloServer hello) (helloArrived ((helloGet body).query 0)) .receive
      { helloDone body with pending := [helloTask body], completed := [] } := by
    have hstep : ServeStep (helloServer hello) (helloArrived ((helloGet body).query 0))
        .receive _ := .receive rfl rfl
    rw [LoopState.receive, dispatch_helloGet] at hstep
    exact hstep
  have hcomplete : ServeStep (helloServer hello)
      { helloDone body with pending := [helloTask body], completed := [] } (.complete 0 ())
      (helloDone body) := .complete (i := 0) (t := helloTask body) rfl
  have hreceived := h.step ⟨hloop s i _, .loop hi hreceive⟩
  have hset : (s.nodes.set i (helloNode { helloDone body with
      pending := [helloTask body], completed := [] }))[i]? = some _ :=
    List.getElem?_set_self hlt
  have hdone := hreceived.step ⟨hloop _ i _, .loop hset hcomplete⟩
  rw [List.set_set] at hdone
  exact hdone

end Run

/-- The tests' server has replied to a call of `hello` that it has run. -/
lemma exists_mem_replies_helloDone {body : Bytes} {req : Request hello.Req}
    (hbody : deserialize (Request hello.Req) body = .ok req) :
    ∃ r ∈ (helloDone body).replies, r.handle = 0 := by
  have hme : hello ∈ (helloService hello).methods := mem_helloService greet
  have hcall := serviceCall_of_mem () hme
    (getToken_getRequest (helloService hello) hello session.zid body 0 0) body
  rw [ServiceMethod.arm_of_ok _ () hbody] at hcall
  have hrun : ((helloTask body).fut.run ()).outcome = .returned _ := congrArg Exec.outcome hcall
  obtain ⟨r, hr⟩ := ((helloTask body).exists_reply_iff ()).mpr ⟨_, hrun⟩
  exact ⟨r, by simp [LoopState.replies, helloDone, hr], (helloTask body).handle_reply hr⟩

/-- A call of `hello` on the tests' server takes the reply of the task that was spawned for it. -/
theorem provenance_hello : ∃ s c rawData p n e, (deployment SessionId Unit).Reachable s ∧
    c ∈ s.calls ∧ c.status = .took (.ok rawData) ∧ s.RepliedBy c rawData p n e := by
  obtain ⟨body, hbody⟩ := exists_helloBody
  have harrived := reachable_helloArrived (fun _ _ => True) 1 body (fun _ _ => trivial) trivial
  have hdone := (reachable_helloDone (i := 0) (fun _ _ _ => trivial) harrived rfl).of_restrict
  obtain ⟨r, hr, hhandle⟩ := exists_mem_replies_helloDone hbody
  obtain ⟨s, hs, hnode, hcalls⟩ : ∃ s, (deployment SessionId Unit).Reachable s ∧
      s.nodes[0]? = some (helloNode (helloDone body)) ∧
      s.calls = [⟨helloGet body, [(0, 0)], .waiting⟩] := ⟨_, hdone, rfl, rfl⟩
  have hanswer : DeployStep s (.answer 0 (0, 0)) _ := .answer (by rw [hcalls]; rfl) rfl
    (List.mem_singleton_self _) hnode hr hhandle
  have hmem := List.mem_set (l := s.calls) (i := 0) (by simp [hcalls])
    ⟨helloGet body, [(0, 0)], .took (.ok r.sample)⟩
  have hreach := hs.step hanswer
  obtain ⟨p, n, e, hreplied, _⟩ := DeployState.provenance hreach hmem rfl
  exact ⟨_, _, r.sample, p, n, e, hreach, hmem, rfl, hreplied⟩

end ZenohRpc
