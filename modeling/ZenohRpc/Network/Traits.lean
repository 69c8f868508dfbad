import ZenohRpc.Derive.Generate
import ZenohRpc.Network.Linearizability

/-!
# Traits in a network

A trait with `#[service]` in a network whose servers run implementations of it.  A call of a method
goes through the generated client, the discovery of a server, zenoh, the loop of the server and the
generated service, while other servers and clients come, go and take their own steps.

Where handlers run at one moment and each call of `serve` is on a session of its own, a call that
returns a response was one local call: at one moment between its start and its return, the
implementation of one server was called on the arguments of the client, in the world as it then was,
and the response is what it returned.
-/

namespace ZenohRpc

open Json TransitionSystem

variable {ZenohId World Span Ty : Type}

section

variable [Normalization] [Runtime] {types : Ty → ArgType}

/-- Where the service of a trait, called for a method with a request, runs user code once and
returns a message that is read as a response, it has run the user's implementation of the method on
the request, and the response is what that returned. -/
lemma ServiceTrait.call_eq_local {t : ServiceTrait Span Ty} {impl : Implementation types Span World}
    {method : RPCMethod Span Ty} (hmethod : method ∈ t.methods) {body : Bytes}
    {request : Request (method.RequestStruct types)}
    (hbody : deserialize (Request (method.RequestStruct types)) body = .ok request) {w : World}
    {inv : Invocation World} {m : Message}
    (hcall : (t.service impl).call w (callMessage method.ident.toString body) =
      ⟨[inv], .returned (.ok m)⟩)
    {r : method.ResponseStruct types}
    (hread : deserialize (method.ResponseStruct types) m.body = .ok r)
    (hreturn : ∀ resp, impl method w request = .returned (.ok resp) →
      RoundTrips maxDepth resp.message.value) :
    inv = .handler (method.serviceMethod impl) request ∧
      ∃ resp, impl method w request = .returned (.ok resp) ∧ resp.message = r := by
  have hcalled : (t.service impl).call w (callMessage method.ident.toString body) =
      (method.serviceMethod impl).arm w body :=
    (t.service impl).call_of_mem (ServiceTrait.mem_service hmethod) w rfl
  rw [hcalled, (method.serviceMethod impl).arm_of_ok w hbody] at hcall
  obtain ⟨hinv, houtcome⟩ := Exec.mk.inj hcall
  refine ⟨(List.singleton_inj.mp hinv).symm, ?_⟩
  have hlocal : (impl method w request).map (Except.map Response.toMessage) =
      .returned (.ok m) := houtcome
  cases hresult : impl method w request with
  | panicked =>
    rw [hresult] at hlocal
    cases hlocal
  | returned res =>
    rw [hresult] at hlocal
    cases res with
    | error e => cases hlocal
    | ok resp =>
      obtain rfl : resp.toMessage = m := Except.ok.inj (Outcome.returned.inj hlocal)
      obtain ⟨raw, hraw, hback⟩ :=
        deserialize_serialize (RPCMethod.ResponseStruct.roundTrips (hreturn resp hresult))
      rw [Response.toMessage, hraw] at hread
      exact ⟨resp, rfl, Except.ok.inj (hback.symm.trans hread)⟩

/-- Every server that has a service under the name of a trait runs the trait's own, over the
implementation that its session has. -/
def NetState.Implements (s : NetState ZenohId World) (t : ServiceTrait Span Ty)
    (impls : ZenohId → Implementation types Span World) : Prop :=
  ∀ n ∈ s.deploy.nodes, ∀ svc, n.server.services.lookup t.ident.toString = some svc →
    svc = .generated (t.service (impls n.server.instanceUuid))

/-- A client method is a call of a method of a trait on a request. -/
structure MethodRun.CallOf (run : MethodRun) (t : ServiceTrait Span Ty) (method : RPCMethod Span Ty)
    (request : Request (method.RequestStruct types)) : Prop where
  service : run.client.serviceIdent = t.ident
  method : run.method = method.ident
  request : run.request = serialize request

variable [Zenoh ZenohId] [DecidableEq ZenohId] {s : NetState ZenohId World}
  {effect : Invocation World → World → World} {w₀ : World}
  {steps : List (NetState ZenohId World × NetEvent ZenohId World)}

/-- A call of a method of a trait is one local call of the implementation.  In every run of a
network whose servers run implementations of a trait, a call that has returned a response took
effect at its moment: there the implementation of one server that qualifies was called on the
request of the client, in the world that all steps before have left, and it returned the
response. -/
theorem NetState.remote_call_atomic
    (h : ((network ZenohId World).restrict OwnSession).Run steps s)
    (hatomic : Atomic (NetState.act effect) NetEvent.takesPlaceIn w₀ steps)
    {t : ServiceTrait Span Ty} {impls : ZenohId → Implementation types Span World}
    (himpls : s.Implements t impls) {method : RPCMethod Span Ty} (hmethod : method ∈ t.methods)
    (hok : method.FieldsOk) {k : ℕ} {run : MethodRun}
    {r : Response (method.ResponseStruct types)} (hreturned : s.Returned k run r)
    {request : Request (method.RequestStruct types)} (hrun : run.CallOf t method request)
    (hargs : Record.AllRoundTrip (maxDepth - 2) (method.fields types) request.message)
    (hreturn : ∀ id w resp, impls id method w request = .returned (.ok resp) →
      RoundTrips maxDepth resp.message.value) :
    ∃ pre step post n resp, steps = pre ++ step :: post ∧
      run.moment s.deploy.calls steps = pre.length ∧
      MethodTakesEffect effect w₀ s k run r pre step post ∧ n ∈ step.1.deploy.nodes ∧
      n.server.Qualifies run.client ∧
      impls n.server.instanceUuid method (worldAfter (NetState.act effect) w₀ pre) request =
        .returned (.ok resp) ∧ resp.message = r.message ∧
      worldAfter (NetState.act effect) w₀ (pre ++ [step]) =
        effect (.handler (method.serviceMethod (impls n.server.instanceUuid)) request)
          (worldAfter (NetState.act effect) w₀ pre) := by
  obtain ⟨_, _, pre, step, _, post, hsplit, _, _, _, _, hmoment, heffect⟩ :=
    hreturned.exists_moment h hatomic
  obtain ⟨p, _, n, inv, hn, hqualifies, ⟨svc, body, m, hlookup, hbody, hcall, hread⟩, _, hworld⟩ :=
    heffect.performed
  -- the server of the node is there at the end of the run
  have htrace : (network ZenohId World).Trace (fun _ => False) steps s := h.trace.of_restrict
  rw [hsplit] at htrace
  obtain ⟨n', hn', hext⟩ :=
    (DeployState.extends_of_moves (NetState.moves_deploy htrace.of_append.2)).nodes _ n hn
  rw [hrun.service] at hlookup
  obtain rfl := himpls n' (List.mem_of_getElem? hn') svc (hext.server ▸ hlookup)
  rw [hext.server] at hcall
  -- the request arrives as the client passed it
  obtain ⟨raw, hraw, hback⟩ := hok.deserialize_request hargs
  obtain rfl : raw = body := Except.ok.inj (hraw.symm.trans (hrun.request.symm.trans hbody))
  rw [hrun.method] at hcall
  obtain ⟨rfl, resp, hresp, hmessage⟩ :=
    ServiceTrait.call_eq_local hmethod hback hcall hread (hreturn _ _)
  exact ⟨pre, step, post, n, resp, hsplit, hmoment, heffect, List.mem_of_getElem? hn, hqualifies,
    hresp, hmessage, hworld⟩

end

/-! ## The trait of the tests -/

open Reference

/-- A client of the tests' trait may be greeted by the generated service, in a network where only
the tests' implementation runs. -/
lemma exists_greeted : ∃ (s : NetState SessionId Unit) (k : ℕ) (run : MethodRun)
    (r : Response (helloDecl.ResponseStruct stringType)),
    ((network SessionId Unit).restrict OwnSession).Reachable s ∧
      s.Implements helloTrait (fun _ => greeter) ∧ s.Returned k run r ∧
      run.CallOf helloTrait helloDecl greeterRequest := by
  have hlookup : greeterServer.services.lookup helloTrait.ident.toString =
      some (.generated (helloTrait.service greeter)) := AList.lookup_insert ∅
  have hident : helloClient.serviceIdent = (helloTrait.service greeter).ident := rfl
  have hlabels : helloClient.labels ⊆ greeterServer.labels := Finset.empty_subset _
  have hmessage : RoundTrips (maxDepth - 2 + 1) greeterRequest.message :=
    Record.roundTrips (by simp [RPCMethod.map_name_fields, fieldsOk_helloDecl.nodup])
      allRoundTrip_greeterRequest
  have hreturns : ∀ w, ∃ res, greeter helloDecl w greeterRequest = .returned res ∧
      ∀ resp, res = .ok resp → RoundTrips maxDepth resp.message := fun w =>
    ⟨_, rfl, fun resp _ => RPCMethod.ResponseStruct.roundTrips
      ((roundTrips_string resp.message.value).mono (by decide))⟩
  obtain ⟨s₀, hreach, hnodes, _, hup⟩ := NetState.exists_up greeterServer
  obtain ⟨s, run, _, _, _, _, _, _, res, hmoves, hk, ⟨hclient, hmethod, hrequest, _⟩, _, hres,
    hresult⟩ := hup.exists_returned hreach.of_restrict hlabels hident hlookup
      (ServiceTrait.mem_service (List.mem_singleton_self helloDecl))
      (hmessage.mono (by decide : _ ≤ maxDepth - 1)) hreturns
  obtain rfl := Outcome.returned.inj hres
  have hown := hmoves.mono fun _ _ => NoServe.ownSession
  refine ⟨s, s₀.runs.length, run, _, hown.reachable hreach, ?_, ⟨hk, hresult⟩, ?_⟩
  · intro n hn svc hsvc
    have hserver : n.server ∈ s₀.deploy.nodes.map Node.server :=
      NetState.servers_of_noServe hmoves ▸ List.mem_map_of_mem hn
    rw [hnodes, List.map_singleton, List.mem_singleton] at hserver
    rw [hserver, hlookup] at hsvc
    exact (Option.some.inj hsvc).symm
  · exact ⟨by rw [hclient]; rfl, hmethod, hrequest⟩

/-- The greeting is what the tests' implementation has returned at one moment of the run. -/
theorem remote_call_atomic_hello : ∃ steps s k run,
    ∃ r : Response (helloDecl.ResponseStruct stringType),
    ((network SessionId Unit).restrict OwnSession).Run steps s ∧ s.Returned k run r ∧
      ∃ resp, greeter helloDecl () greeterRequest = .returned (.ok resp) ∧
        resp.message = r.message := by
  obtain ⟨s, k, run, r, hreach, himpls, hreturned, hrun⟩ := exists_greeted
  obtain ⟨steps, hsteps⟩ := Run.exists_of_reachable hreach
  have hatomic : Atomic (NetState.act fun _ w => w) NetEvent.takesPlaceIn () steps :=
    fun _ _ _ _ _ _ => rfl
  obtain ⟨_, _, _, _, resp, _, _, _, _, _, hresp, hmessage, _⟩ :=
    NetState.remote_call_atomic hsteps hatomic himpls (List.mem_singleton_self helloDecl)
      fieldsOk_helloDecl hreturned hrun allRoundTrip_greeterRequest
      fun _ _ resp _ => (roundTrips_string resp.message.value).mono (by decide)
  exact ⟨steps, s, k, run, r, hsteps, hreturned, resp, hresp, hmessage⟩

end ZenohRpc
