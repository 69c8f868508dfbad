import ZenohRpc.Deployment.Provenance

/-!
# Calls in a deployment

How often a client call runs user code, on all servers together.  A server's address is the id of
its session.  Where two calls of `serve` share a session, or one server serves twice, one client
call may run user code twice; where each call reaches one server at most that runs user code for it,
it runs user code at most once, and what it returns is the result of that.
-/

namespace ZenohRpc

open Json KeyExpr

variable {ZenohId World : Type}

/-! ## How often a call runs -/

/-- The user code that a client call has run so far, on every node its query was handed to. -/
def DeployState.invocations (s : DeployState ZenohId World) (c : ClientCall) :
    List (Invocation World) :=
  c.delivered.flatMap s.ran

/-- The parts of a list that are empty but for one come to that one. -/
lemma flatMap_eq_of_forall_ne {α β : Type*} {l : List α} (hnodup : l.Nodup) {f : α → List β}
    {a : α} (ha : a ∈ l) (hf : ∀ b ∈ l, b ≠ a → f b = []) : l.flatMap f = f a := by
  induction l with
  | nil => cases ha
  | cons b l ih =>
    rw [List.nodup_cons] at hnodup
    rw [List.flatMap_cons]
    rcases List.mem_cons.mp ha with rfl | hmem
    · have hrest : l.flatMap f = [] := by
        refine List.flatMap_eq_nil_iff.mpr fun c hc => hf c (List.mem_cons_of_mem _ hc) ?_
        rintro rfl
        exact hnodup.1 hc
      rw [hrest, List.append_nil]
    · have hne : b ≠ a := by
        rintro rfl
        exact hnodup.1 hmem
      rw [hf b List.mem_cons_self hne, List.nil_append]
      exact ih hnodup.2 hmem fun c hc => hf c (List.mem_cons_of_mem _ hc)

section

variable [Runtime] [Zenoh ZenohId]

/-- A client call runs user code at most once, and if it returns a response it has run it exactly
once: the task whose reply the call took is the one that ran it, and the service that was called
returned there, in the world that the task ran in, the message whose body is read as that
response. -/
structure DeployState.AtMostOnce (s : DeployState ZenohId World) (c : ClientCall) : Prop where
  once : (s.invocations c).length ≤ 1
  returned : ∀ (U : Type) [Serde U] (rawData : Bytes) (r : Response U),
    c.status = .took (.ok rawData) → RPCClientChannel.readReply U rawData = .ok r →
    ∃ p n e inv, s.RepliedBy c rawData p n e ∧ s.invocations c = [inv] ∧ e.invoked = [inv] ∧
      ∃ svc payload method m, CallsService n.server (c.request.query 0) svc payload ∧
        getToken (c.request.query 0).keyExpr 4 = some method ∧
        svc.call e.world (callMessage method payload) = ⟨[inv], .returned (.ok m)⟩ ∧
        deserialize U m.body = .ok r.message

/-- The step is no client call whose query is handed to two nodes that run user code for it. -/
def SingleTarget (s : DeployState ZenohId World) : DeployEvent ZenohId World → Prop
  | .call ch serverId req method tout targets =>
    ∀ i ∈ targets, ∀ j ∈ targets, ∀ n n', s.nodes[i]? = some n → s.nodes[j]? = some n' →
      n.server.Runs ((ch.getRequest serverId req method tout).query 0) →
      n'.server.Runs ((ch.getRequest serverId req method tout).query 0) → i = j
  | _ => True

/-- Where no two calls of `serve` share a session, a client call reaches one node at most. -/
lemma DeployStep.singleTarget {s s' : DeployState ZenohId World} {e : DeployEvent ZenohId World}
    (h : DeployStep s e s')
    (hsessions : (s.nodes.map fun n => n.server.instanceUuid).Nodup) : SingleTarget s e := by
  cases h with
  | @call ch serverId req method tout targets _ htargets =>
    intro i hi j hj n n' hn hn' _ _
    have hid : n.server.instanceUuid = n'.server.instanceUuid := by
      have hgets := ((htargets i n hn).mp hi).2
      have hgets' := ((htargets j n' hn').mp hj).2
      rw [RPCClientChannel.keyExpr_getRequest, Server.intersects_queryableKe_iff] at hgets hgets'
      exact hgets.1.trans hgets'.1.symm
    obtain ⟨hi', _⟩ := List.getElem?_eq_some_iff.mp hn
    refine (List.getElem?_inj (by simpa using hi') hsessions).mp ?_
    rw [List.getElem?_map, List.getElem?_map, hn, hn', Option.map_some, Option.map_some, hid]
  | serve => trivial
  | loop => trivial
  | answer => trivial
  | refuse => trivial
  | noReply => trivial

/-! ## Where a call is handed to -/

section

variable {srv : Server ZenohId World}

omit [Runtime] [Zenoh ZenohId] in
/-- Which service is called does not depend on the handle of the query. -/
lemma CallsService.of_handle {req : GetRequest} {h : ℕ} {svc : Service World} {payload : Bytes}
    (hcalls : CallsService srv (req.query h) svc payload) (h' : ℕ) :
    CallsService srv (req.query h') svc payload :=
  ⟨hcalls.kind, hcalls.service, hcalls.payload⟩

omit [Zenoh ZenohId] in
/-- Whether a server runs user code for the query of a call does not depend on the handle. -/
lemma Server.Runs.of_handle {req : GetRequest} {h : ℕ} (hruns : srv.Runs (req.query h)) (h' : ℕ) :
    srv.Runs (req.query h') := by
  obtain ⟨svc, payload, method, hcalls, hmethod, hservice⟩ := hruns
  exact ⟨svc, payload, method, hcalls.of_handle h', hmethod, hservice⟩

end

/-- A client call was handed to each node once, and to one node at most that runs user code for
it. -/
structure ClientCall.ReachesOne (s : DeployState ZenohId World) (c : ClientCall) : Prop where
  nodup : (c.delivered.map Prod.fst).Nodup
  single : ∀ p ∈ c.delivered, ∀ p' ∈ c.delivered, ∀ n n', s.nodes[p.1]? = some n →
    s.nodes[p'.1]? = some n' → n.server.Runs (c.request.query 0) →
    n'.server.Runs (c.request.query 0) → p = p'

omit [Zenoh ZenohId] in
/-- Where a client call was handed to stays so. -/
lemma ClientCall.ReachesOne.extend {s s' : DeployState ZenohId World} {c : ClientCall}
    (h : c.ReachesOne s) (hc : ∀ p ∈ c.delivered, ∃ n, s.nodes[p.1]? = some n)
    (hext : s.Extends s') : c.ReachesOne s' := by
  refine ⟨h.nodup, fun p hp p' hp' n₁ n₁' hn₁ hn₁' hruns hruns' => ?_⟩
  obtain ⟨n, hn⟩ := hc p hp
  obtain ⟨n', hn'⟩ := hc p' hp'
  obtain ⟨m, hm, hnode⟩ := hext.nodes _ n hn
  obtain ⟨m', hm', hnode'⟩ := hext.nodes _ n' hn'
  rw [hn₁, Option.some.injEq] at hm
  rw [hn₁', Option.some.injEq] at hm'
  subst hm hm'
  rw [hnode.server] at hruns
  rw [hnode'.server] at hruns'
  exact h.single p hp p' hp' n n' hn hn' hruns hruns'

/-- A client call that is handed to one node at most that runs user code for it. -/
lemma ClientCall.ReachesOne.start {s s' : DeployState ZenohId World} {ch : RPCClientChannel}
    {serverId : ZenohId} {req : Bytes} {method : String} {tout : ℕ} {targets : List ℕ}
    {status : CallStatus} (hnodup : targets.Nodup)
    (hguard : SingleTarget s (.call ch serverId req method tout targets)) (hext : s.Extends s') :
    ClientCall.ReachesOne s'
      ⟨ch.getRequest serverId req method tout, s.handles targets, status⟩ := by
  refine .extend ⟨(s.sublist_handles targets).nodup hnodup, ?_⟩ (fun p hp => ?_) hext
  · intro p hp p' hp' n n' hn hn' hruns hruns'
    obtain ⟨htarget, n₁, hn₁, hhandle⟩ := DeployState.mem_handles.mp hp
    obtain ⟨htarget', n₁', hn₁', hhandle'⟩ := DeployState.mem_handles.mp hp'
    have hsame : p.1 = p'.1 := hguard _ htarget _ htarget' n n' hn hn' hruns hruns'
    rw [← hsame, hn₁, Option.some.injEq] at hn₁'
    subst hn₁'
    exact Prod.ext hsame (hhandle.trans hhandle'.symm)
  · obtain ⟨_, n, hn, _⟩ := DeployState.mem_handles.mp hp
    exact ⟨n, hn⟩

/-- What holds of a deployment in every state that it reaches without a client call to two nodes
that run user code for it. -/
structure DeployState.Inv (s : DeployState ZenohId World) : Prop extends DeployState.Traced s where
  targets : ∀ c ∈ s.calls, c.ReachesOne s

/-- Every step that is no client call to two nodes that run user code keeps the invariant. -/
lemma DeployState.Inv.step {s s' : DeployState ZenohId World} {e : DeployEvent ZenohId World}
    (h : s.Inv) (hguard : SingleTarget s e) (hs : DeployStep s e s') : s'.Inv := by
  have hcalls : ∀ c ∈ s.calls, c.ReachesOne s' := fun c hc =>
    (h.targets c hc).extend (fun p hp => by
      obtain ⟨n, hn, _⟩ := (h.calls c hc).arrived p hp
      exact ⟨n, hn⟩) hs.extends
  refine ⟨h.toTraced.step hs, ?_⟩
  have hext := hs.extends
  cases hs with
  | serve => exact hcalls
  | loop => exact hcalls
  | call hnodup _ =>
    intro c hc
    rcases List.mem_append.mp hc with hold | hnew
    · exact hcalls c hold
    · rw [List.mem_singleton.mp hnew]
      exact .start hnodup hguard hext
  | answer hcall | refuse hcall | noReply hcall =>
    intro c hc
    rcases List.mem_or_eq_of_mem_set hc with hold | rfl
    · exact hcalls c hold
    · obtain ⟨hnodup, hsingle⟩ := hcalls _ (List.mem_of_getElem? hcall)
      exact ⟨hnodup, hsingle⟩

/-- The invariant holds in every state that a deployment reaches without such a client call. -/
lemma DeployState.inv_of_reachable {s : DeployState ZenohId World}
    (h : ((deployment ZenohId World).restrict SingleTarget).Reachable s) : s.Inv := by
  refine h.invariant ?_ ?_
  · rintro s rfl
    exact ⟨⟨by simp, by simp⟩, by simp⟩
  · intro s e s' _ hinv hs
    exact hinv.step hs.1 hs.2

/-! ## At most once -/

section

variable {s : DeployState ZenohId World} {c : ClientCall}

/-- What a call ran on a node that its query was handed to. -/
lemma DeployState.Traced.ran_cases (h : s.Traced) (hc : c ∈ s.calls) {p : ℕ × ℕ}
    (hp : p ∈ c.delivered) : ∃ n, s.nodes[p.1]? = some n ∧ (s.ran p).length ≤ 1 ∧
      (s.ran p ≠ [] → n.server.Runs (c.request.query 0)) := by
  have hcall := h.calls c hc
  obtain ⟨n, hn, harrived⟩ := hcall.arrived p hp
  have hinv := ZenohRpc.inv_of_reachable (h.nodes n (List.mem_of_getElem? hn))
  have hran : s.ran p = n.loop.ran p.2 := by
    rw [DeployState.ran, hn]
  refine ⟨n, hn, ?_⟩
  rw [hran]
  rcases hinv.ran_cases harrived with hnil | ⟨w, hinvoked⟩
  · simp [hnil]
  · rw [hinvoked]
    exact ⟨Server.length_invokedBy_le (hcall.kind p.2) w, fun hne =>
      (Server.runs_of_invokedBy (hcall.kind p.2) hne).of_handle 0⟩

/-- User code was run for a client call on one handle at most. -/
lemma DeployState.Inv.eq_of_ran (h : s.Inv) (hc : c ∈ s.calls) {p p' : ℕ × ℕ}
    (hp : p ∈ c.delivered) (hp' : p' ∈ c.delivered) (hran : s.ran p ≠ []) (hran' : s.ran p' ≠ []) :
    p = p' := by
  obtain ⟨n, hn, _, hruns⟩ := h.ran_cases hc hp
  obtain ⟨n', hn', _, hruns'⟩ := h.ran_cases hc hp'
  exact (h.targets c hc).single p hp p' hp' n n' hn hn' (hruns hran) (hruns' hran')

/-- All that a client call has run is what it has run on one handle. -/
lemma DeployState.Inv.invocations_eq (h : s.Inv) (hc : c ∈ s.calls) {p : ℕ × ℕ}
    (hp : p ∈ c.delivered) (hran : s.ran p ≠ []) : s.invocations c = s.ran p := by
  refine flatMap_eq_of_forall_ne (h.targets c hc).nodup.of_map hp fun p' hp' hne => ?_
  by_contra hran'
  exact hne (h.eq_of_ran hc hp' hp hran' hran)

/-- A client call has run user code at most once. -/
lemma DeployState.Inv.length_invocations_le (h : s.Inv) (hc : c ∈ s.calls) :
    (s.invocations c).length ≤ 1 := by
  by_cases hsome : ∃ p ∈ c.delivered, s.ran p ≠ []
  · obtain ⟨p, hp, hran⟩ := hsome
    obtain ⟨n, _, hle, _⟩ := h.ran_cases hc hp
    rwa [h.invocations_eq hc hp hran]
  · push Not at hsome
    rw [DeployState.invocations, List.flatMap_eq_nil_iff.mpr hsome]
    exact Nat.zero_le 1

end

/-- In every run in which no client call reaches two nodes that run user code for it, every client
call runs user code at most once, and exactly once if it returns a response. -/
theorem DeployState.atMostOnce {s : DeployState ZenohId World}
    (h : ((deployment ZenohId World).restrict SingleTarget).Reachable s) {c : ClientCall}
    (hmem : c ∈ s.calls) : s.AtMostOnce c := by
  have hinv := DeployState.inv_of_reachable h
  refine ⟨hinv.length_invocations_le hmem, fun U _ rawData r hstatus hread => ?_⟩
  obtain ⟨p, n, e, hreplied⟩ := hinv.exists_repliedBy hmem hstatus
  obtain ⟨svc, payload, method, inv, m, hcalls, hmethod, hone, hcall, hbody⟩ :=
    hreplied.called ((hinv.calls c hmem).kind 0) hread
  have hran := hreplied.ran_eq
  rw [hone] at hran
  have hinvocations := hinv.invocations_eq hmem hreplied.delivered (by simp [hran])
  exact ⟨p, n, e, inv, hreplied, hinvocations.trans hran, hone, svc, payload, method, m, hcalls,
    hmethod, hcall, hbody⟩

end

/-! ## The tests' server, served once and served twice -/

open Reference

/-- A call of `hello` has run its handler. -/
lemma ran_helloDone {body : Bytes} {req : Request hello.Req}
    (hbody : deserialize (Request hello.Req) body = .ok req) :
    (helloDone body).ran 0 = [.handler hello req] := by
  have hme : hello ∈ (helloService hello).methods := mem_helloService greet
  have hcalls : CallsService (helloServer hello) ((helloGet body).query 0)
      (.generated (helloService hello)) body :=
    callsService_getRequest (lookup_helloServer hello) hello body 0 0
  have hmethod : getToken ((helloGet body).query 0).keyExpr 4 = some hello.ident.toString :=
    getToken_getRequest (helloService hello) hello session.zid body 0 0
  have hinvoked := (Server.call_of_mem hcalls hme hmethod hbody ()).1
  simp only [Server.invokedBy, dispatch_helloGet] at hinvoked
  have hfilter : ((helloDone body).completed.filter fun e => e.task.query.handle == 0) =
      [(helloTask body).complete ()] := rfl
  simp only [LoopState.ran, hfilter, List.flatMap_singleton, SpawnedTask.complete, hinvoked]

/-- A call of `hello` on the tests' server, served once, runs once, and returns. -/
theorem atMostOnce_hello :
    ∃ s c rawData, ((deployment SessionId Unit).restrict SingleTarget).Reachable s ∧
      c ∈ s.calls ∧ c.status = .took (.ok rawData) ∧ s.AtMostOnce c := by
  obtain ⟨body, hbody⟩ := exists_helloBody
  have harrived := reachable_helloArrived SingleTarget 1 body
    (fun _ _ => trivial) (fun i hi j hj _ _ _ _ _ _ =>
      (List.mem_singleton.mp hi).trans (List.mem_singleton.mp hj).symm)
  have hdone := reachable_helloDone (i := 0) (fun _ _ _ => trivial) harrived rfl
  have hme : hello ∈ (helloService hello).methods := mem_helloService greet
  have hcall := serviceCall_of_mem () hme
    (getToken_getRequest (helloService hello) hello session.zid body 0 0) body
  rw [ServiceMethod.arm_of_ok _ () hbody] at hcall
  have hrun : ((helloTask body).fut.run ()).outcome = .returned _ := congrArg Exec.outcome hcall
  obtain ⟨r, hr⟩ := ((helloTask body).exists_reply_iff ()).mpr ⟨_, hrun⟩
  have hmem : r ∈ (helloDone body).replies := by
    simp [LoopState.replies, helloDone, hr]
  obtain ⟨s, hs, hnode, hcalls⟩ : ∃ s,
      ((deployment SessionId Unit).restrict SingleTarget).Reachable s ∧
        s.nodes[0]? = some (helloNode (helloDone body)) ∧
        s.calls = [⟨helloGet body, [(0, 0)], .waiting⟩] := ⟨_, hdone, rfl, rfl⟩
  have hstep : DeployStep s (.answer 0 (0, 0)) _ := .answer (by rw [hcalls]; rfl) rfl
    (List.mem_singleton_self _) hnode hmem ((helloTask body).handle_reply hr)
  have hguard : SingleTarget s (.answer 0 (0, 0)) := trivial
  have hanswer := hs.step ⟨hguard, hstep⟩
  have hself := List.mem_set (l := s.calls) (i := 0) (by simp [hcalls])
    ⟨helloGet body, [(0, 0)], .took (.ok r.sample)⟩
  exact ⟨_, _, r.sample, hanswer, hself, rfl, DeployState.atMostOnce hanswer hself⟩

/-- Where the tests' server is served twice on its session, a call of `hello` may run twice. -/
theorem not_atMostOnce_served_twice :
    ∃ s c, (deployment SessionId Unit).Reachable s ∧
      s.nodes.map Node.server = [helloServer hello, helloServer hello] ∧ s.calls = [c] ∧
      (s.invocations c).length = 2 ∧ ¬s.AtMostOnce c := by
  obtain ⟨body, hbody⟩ := exists_helloBody
  have harrived := reachable_helloArrived (fun _ _ => True) 2 body
    (fun _ _ => trivial) trivial
  have hfirst := reachable_helloDone (i := 0) (fun _ _ _ => trivial) harrived rfl
  have hboth := reachable_helloDone (i := 1) (fun _ _ _ => trivial) hfirst rfl
  obtain ⟨s, hs, hnodes, hcalls⟩ : ∃ s, (deployment SessionId Unit).Reachable s ∧
      s.nodes = [helloNode (helloDone body), helloNode (helloDone body)] ∧
      s.calls = [⟨helloGet body, [(0, 0), (1, 0)], .waiting⟩] := ⟨_, hboth.of_restrict, rfl, rfl⟩
  have hran : s.ran (0, 0) = [.handler hello (Request.new ⟨"client"⟩)] ∧
      s.ran (1, 0) = [.handler hello (Request.new ⟨"client"⟩)] := by
    simp only [DeployState.ran, hnodes, List.getElem?_cons_zero, List.getElem?_cons_succ]
    exact ⟨ran_helloDone hbody, ran_helloDone hbody⟩
  have hlength : (s.invocations ⟨helloGet body, [(0, 0), (1, 0)], .waiting⟩).length = 2 := by
    simp [DeployState.invocations, hran]
  refine ⟨s, _, hs, by rw [hnodes]; rfl, hcalls, hlength, fun h => ?_⟩
  have honce := h.once
  omega

end ZenohRpc
