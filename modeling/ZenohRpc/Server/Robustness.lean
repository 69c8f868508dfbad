import ZenohRpc.Server.ServeLoop
import ZenohRpc.Reference

/-!
# What queries can do to a server

Two things may go wrong with a query.  The loop body may leave `serve`, through a `?` on a query
for a service whose name is missing or unknown, or without payload.  And the task may panic,
through the `unwrap` of the generated `call` on a body that is no request, and reply nothing.

`Answerable` says of a query that neither happens.  A server survives queries exactly when they
are answerable, and a generated service withstands a message exactly when it accepts it.
-/

namespace ZenohRpc

open Json KeyExpr

variable {ZenohId World : Type}

section

variable [Runtime]

/-! ## Panics of a service -/

/-- The message names no method, or its body is a request of the method it names and the handler
returns on it. -/
def GeneratedService.AcceptsIn (svc : GeneratedService World) (w : World) (msg : Message) : Prop :=
  ∀ me ∈ svc.methods, me.ident.toString = msg.method →
    ∃ req, deserialize (Request me.Req) msg.body = .ok req ∧ ∃ res, me.handler w req = .returned res

/-- The service does not panic on the message. -/
def Service.AcceptsIn : Service World → World → Message → Prop
  | generated svc, w, msg => svc.AcceptsIn w msg
  | custom _ call, w, msg => ∃ res, call w msg = .returned res

/-- A service returns on the messages it accepts, and panics on the others. -/
lemma Service.exists_returned_iff (svc : Service World) (w : World) (msg : Message) :
    (∃ res, (svc.call w msg).outcome = .returned res) ↔ svc.AcceptsIn w msg := by
  cases svc with
  | custom name call => rfl
  | generated svc =>
    rw [Service.call, Service.AcceptsIn, GeneratedService.AcceptsIn]
    rcases svc.call_cases w msg with ⟨me, hme, hname, hcall⟩ | ⟨hnone, hcall⟩
    · rw [hcall]
      constructor
      · rintro ⟨res, hres⟩ me' hme' hname'
        have hsame : me.arm w msg.body = me'.arm w msg.body := by
          rw [← hcall, svc.call_of_mem hme' w hname'.symm]
        rcases me'.arm_cases w msg.body with ⟨_, harm⟩ | ⟨req, hreq, harm⟩
        · simp [hsame, harm] at hres
        · rw [hsame, harm, Outcome.map_eq_returned_iff] at hres
          obtain ⟨res', hres', _⟩ := hres
          exact ⟨req, hreq, res', hres'⟩
      · intro haccept
        obtain ⟨req, hreq, res, hres⟩ := haccept me hme hname
        rw [ServiceMethod.arm, hreq]
        exact ⟨_, congrArg (Outcome.map _) hres⟩
    · rw [hcall]
      exact ⟨fun _ me hme hname => absurd hname (hnone me hme), fun _ => ⟨_, rfl⟩⟩

/-- The body of a message is a request of the method it names. -/
def GeneratedService.Decodes (svc : GeneratedService World) (msg : Message) : Prop :=
  ∃ me ∈ svc.methods, me.ident.toString = msg.method ∧
    ∃ req, deserialize (Request me.Req) msg.body = .ok req

/-- A service runs no handler on a body that is no request. -/
lemma GeneratedService.invoked_of_not_decodes (svc : GeneratedService World) (w : World)
    {msg : Message} (h : ¬svc.Decodes msg) : (svc.call w msg).invoked = [] := by
  rcases svc.call_cases w msg with ⟨me, hme, hname, hcall⟩ | ⟨_, hcall⟩
  · rcases me.arm_cases w msg.body with ⟨_, harm⟩ | ⟨req, hreq, _⟩
    · rw [hcall, harm]
    · exact absurd ⟨me, hme, hname, req, hreq⟩ h
  · rw [hcall, Exec.invoked_pure]

section Withstands

variable [Zenoh ZenohId]

/-- No panic in a service, and so a reply: the generated `call` ends with a result; on a body that
is no request of the method named this is an error, and no handler runs; and the task spawned for a
query with that method and body replies. -/
structure GeneratedService.Withstands (ZenohId : Type) [Zenoh ZenohId]
    (svc : GeneratedService World) (w : World) (msg : Message) : Prop where
  returns : ∃ res, (svc.call w msg).outcome = .returned res
  refuses : ¬svc.Decodes msg →
    (svc.call w msg).invoked = [] ∧ ∃ e, (svc.call w msg).outcome = .returned (.error e)
  replies : ∀ t : SpawnedTask ZenohId World, getToken t.ke 4 = some msg.method →
    t.fut = .serviceCall (.generated svc) t.ke msg.body → ∃ r, (t.complete w).reply = some r

/-- A task replies exactly when its future returns. -/
lemma SpawnedTask.exists_reply_iff (t : SpawnedTask ZenohId World) (w : World) :
    (∃ r, (t.complete w).reply = some r) ↔ ∃ res, (t.fut.run w).outcome = .returned res := by
  rw [SpawnedTask.complete]
  cases (t.fut.run w).outcome with
  | panicked => simp [SpawnedTask.reply]
  | returned res => simp [SpawnedTask.reply]

/-- A service call returns exactly when the service accepts the message it is called with. -/
lemma serviceCall_returned_iff (w : World) (svc : Service World) (ke : String) (payload : Bytes) :
    (∃ res, (serviceCall w svc ke payload).outcome = .returned res) ↔
      ∀ method, getToken ke 4 = some method → svc.AcceptsIn w (callMessage method payload) := by
  unfold serviceCall getMethodName
  cases hname : getToken ke 4 with
  | none => simp
  | some method =>
    simp only [Option.some.injEq, forall_eq', Exec.outcome_map, ← Service.exists_returned_iff,
      Outcome.map_eq_returned_iff]
    constructor
    · rintro ⟨_, res, hres, _⟩
      exact ⟨res, hres⟩
    · rintro ⟨res, hres⟩
      exact ⟨_, res, hres, rfl⟩

/-- A generated service withstands a message exactly when the message names no method of it, or
carries a request of the method on which the handler returns: the `unwrap` of the generated `call`
panics on every other body. -/
theorem GeneratedService.withstands_iff (svc : GeneratedService World) (w : World)
    (msg : Message) : svc.Withstands ZenohId w msg ↔ svc.AcceptsIn w msg := by
  have hreturns := Service.exists_returned_iff (.generated svc) w msg
  constructor
  · exact fun h => hreturns.mp h.returns
  · intro haccept
    refine ⟨hreturns.mpr haccept, fun hno => ⟨svc.invoked_of_not_decodes w hno, ?_⟩, ?_⟩
    · rcases svc.call_cases w msg with ⟨me, hme, hname, _⟩ | ⟨_, hcall⟩
      · obtain ⟨req, hreq, _⟩ := haccept me hme hname
        exact absurd ⟨me, hme, hname, req, hreq⟩ hno
      · exact ⟨_, by rw [hcall, Exec.outcome_pure]⟩
    · intro t hmethod hfut
      rw [t.exists_reply_iff, hfut, ServerTask.run, serviceCall_returned_iff]
      intro method hmethod'
      rw [hmethod, Option.some.injEq] at hmethod'
      subst hmethod'
      exact haccept

end Withstands

/-! ## Survival -/

/-- The events of a server whose queryable never fails and that nobody cancels. -/
def queriesOnly (_ : LoopState ZenohId World) : LoopEvent World → Prop
  | .receiveError _ => False
  | .cancel => False
  | _ => True

/-- The query can be handed to a task that replies: a query for a service names a registered one,
has a payload, and if it names a method the service accepts the call, in whatever world it runs. -/
def Answerable (srv : Server ZenohId World) (q : Query) : Prop :=
  getToken q.keyExpr 2 = some "service" → ∃ svc payload, CallsService srv q svc payload ∧
    ∀ method, getToken q.keyExpr 4 = some method →
      ∀ w, svc.AcceptsIn w (callMessage method payload)

section Survives

variable [Zenoh ZenohId] {srv : Server ZenohId World} {s : LoopState ZenohId World}

/-- The loop is still receiving, and every query it received has been handed to a task that replies
on the query's handle. -/
structure LoopState.Survives (s : LoopState ZenohId World) : Prop where
  receiving : s.status = .receiving
  handed : ∀ q ∈ s.received, ∃ t ∈ s.tasks, t.query = q ∧
    ∀ w, ∃ r, (t.complete w).reply = some r ∧ r.handle = q.handle

/-- A task that replies does so on the handle of its query. -/
lemma SpawnedTask.handle_reply {t : SpawnedTask ZenohId World} {w : World} {r : QueryReply}
    (h : (t.complete w).reply = some r) : r.handle = t.query.handle := by
  rw [SpawnedTask.complete] at h
  cases hrun : (t.fut.run w).outcome with
  | panicked => simp [hrun, SpawnedTask.reply] at h
  | returned res =>
    simp only [hrun, SpawnedTask.reply, Option.some.injEq] at h
    rw [← h]

/-- The task a query is dispatched to replies in every world exactly when the query is
answerable. -/
lemma Dispatched.replies_iff {q : Query} {task : ServerTask ZenohId World}
    (h : Dispatched srv q task) :
    (∀ w, ∃ res, (task.run w).outcome = .returned res) ↔ Answerable srv q := by
  cases h with
  | @service svc payload hcalls =>
    simp only [ServerTask.run, serviceCall_returned_iff]
    constructor
    · exact fun h _ => ⟨svc, payload, hcalls, fun method hmethod w => h w method hmethod⟩
    · intro h w method hmethod
      obtain ⟨svc', payload', hcalls', haccept⟩ := h hcalls.kind
      have hsame := (Dispatched.service hcalls).unique (Dispatched.service hcalls')
      cases hsame
      exact haccept method hmethod w
  | metadata hkind => simp [ServerTask.run, Answerable, hkind]
  | unknown hservice _ => simp [ServerTask.run, Answerable, hservice]

omit [Zenoh ZenohId] in
/-- The loop body does not leave `serve` on an answerable query. -/
lemma Answerable.dispatch_ne {q : Query} (h : Answerable srv q) (e : Status) :
    srv.dispatch q ≠ .error e := by
  intro herr
  obtain ⟨hkind, hnone⟩ := Server.exists_dispatch_error_iff.mp ⟨e, herr⟩
  obtain ⟨svc, payload, hcalls, _⟩ := h hkind
  exact hnone svc payload hcalls

/-- A loop that only gets queries is gone only if the loop body failed on one. -/
lemma receiving_or_failed (h : ((serveLoop srv).restrict queriesOnly).Reachable s) :
    s.status = .receiving ∨ ∃ q ∈ s.received, ∃ e, srv.dispatch q = .error e := by
  induction h with
  | init h =>
    rw [show _ = LoopState.start from h]
    exact Or.inl rfl
  | step _ hs ih =>
    obtain ⟨hguard, hs⟩ := hs
    cases hs with
    | arrive hstatus _ => exact Or.inl hstatus
    | @receive query rest hstatus _ =>
      unfold LoopState.receive
      cases hdispatch : srv.dispatch query with
      | ok fut => exact Or.inl hstatus
      | error e => exact Or.inr ⟨query, by simp, e, hdispatch⟩
    | receiveError => exact hguard.elim
    | cancel => exact hguard.elim
    | complete => exact ih

/-- A server survives the queries it received exactly when each of them was answerable: a `?` in
the loop body leaves `serve` on a query for a service that cannot be called, and a panicking task
does not reply. -/
theorem LoopState.survives_iff (h : ((serveLoop srv).restrict queriesOnly).Reachable s) :
    s.Survives ↔ ∀ q ∈ s.received, Answerable srv q := by
  have hinv := inv_of_reachable h.of_restrict
  constructor
  · intro hsurvives q hq
    obtain ⟨t, ht, rfl, hreplies⟩ := hsurvives.handed q hq
    rw [← (hinv.captured t ht).2.replies_iff]
    intro w
    obtain ⟨r, hr, _⟩ := hreplies w
    exact (t.exists_reply_iff w).mp ⟨r, hr⟩
  · intro hall
    have hreceiving : s.status = .receiving := by
      rcases receiving_or_failed h with hok | ⟨q, hq, e, herr⟩
      · exact hok
      · exact absurd herr ((hall q hq).dispatch_ne e)
    refine ⟨hreceiving, fun q hq => ?_⟩
    obtain ⟨t, ht, rfl⟩ := List.mem_map.mp (hinv.handed hreceiving hq)
    refine ⟨t, ht, rfl, fun w => ?_⟩
    have hreturns := (hinv.captured t ht).2.replies_iff.mpr (hall _ hq) w
    obtain ⟨r, hr⟩ := (t.exists_reply_iff w).mpr hreturns
    exact ⟨r, hr, t.handle_reply hr⟩

end Survives

end

/-! ## Queries to the tests' server -/

open Reference

/-- The service of the tests panics on an empty body. -/
theorem not_withstands_empty_body :
    ¬(helloService hello).Withstands SessionId () (callMessage "hello" []) := by
  intro h
  have haccept := (Service.exists_returned_iff (.generated (helloService hello)) ()
    (callMessage "hello" [])).mp h.returns
  obtain ⟨req, hreq, _⟩ := haccept hello (by simp [helloService]) (by decide)
  exact deserialize_nil req hreq

/-- A query to the tests' server. -/
def helloQuery (rest : String) (payload : Option Bytes) : Query :=
  ⟨0, "@rpc" ++ "/" ++ Zenoh.display session.zid ++ "/" ++ rest, payload⟩

/-- The tests' server when one query has arrived. -/
def helloArrived (q : Query) : LoopState SessionId Unit :=
  { LoopState.start with arrived := [q], queue := [q] }

/-- The tests' server after one query. -/
lemma reachable_receive_helloArrived {rest : String} (hrest : ∀ c ∈ chunks rest, ¬Verbatim c)
    (payload : Option Bytes) :
    ((serveLoop (helloServer hello)).restrict queriesOnly).Reachable
      ((helloArrived (helloQuery rest payload)).receive (helloServer hello)
        (helloQuery rest payload) []) := by
  have hke : Intersects (helloServer hello).queryableKe (helloQuery rest payload).keyExpr :=
    ((helloServer hello).intersects_queryableKe_iff session.zid rest).mpr ⟨rfl, hrest⟩
  have harrive : ServeStep (helloServer hello) .start (.arrive _ payload)
      (helloArrived (helloQuery rest payload)) := .arrive rfl hke
  have hreceive : ServeStep (helloServer hello) (helloArrived (helloQuery rest payload)) .receive
      ((helloArrived (helloQuery rest payload)).receive (helloServer hello)
        (helloQuery rest payload) []) := .receive rfl rfl
  exact .step (l := .receive) (.step (l := .arrive _ payload) (.init rfl) ⟨trivial, harrive⟩)
    ⟨trivial, hreceive⟩

/-- The chunks behind the kind of a query to the tests' server. -/
lemma getToken_helloQuery (rest : String) (payload : Option Bytes) (i : ℕ) :
    getToken (helloQuery rest payload).keyExpr (i + 2) = (chunks rest)[i]? := by
  rw [helloQuery, getToken, chunks_rpc]
  rfl

/-- The tests' server survives a query for its metadata. -/
theorem survives_metadata_query :
    ((helloArrived (helloQuery "metadata" none)).receive (helloServer hello)
      (helloQuery "metadata" none) []).Survives := by
  have hkind : getToken (helloQuery "metadata" none).keyExpr 2 = some "metadata" := by
    rw [getToken_helloQuery]
    decide
  refine (LoopState.survives_iff (reachable_receive_helloArrived (by decide) none)).mpr ?_
  intro q hq hservice
  have hqueries : q = helloQuery "metadata" none := by
    unfold LoopState.receive at hq
    split at hq <;> exact List.mem_singleton.mp hq
  rw [hqueries, hkind] at hservice
  exact absurd hservice (by decide)

/-- The tests' server does not survive a query for a service it does not have. -/
theorem not_survives_unknown_service :
    ∃ s, ((serveLoop (helloServer hello)).restrict queriesOnly).Reachable s ∧
      s.received = [helloQuery "service/Bye/hello" (some [])] ∧ ¬s.Survives := by
  have herr : ∃ e, (helloServer hello).dispatch (helloQuery "service/Bye/hello" (some [])) =
      .error e := by
    rw [Server.exists_dispatch_error_iff, getToken_helloQuery]
    refine ⟨by decide, fun svc payload hcalls => ?_⟩
    obtain ⟨name, hname, hsvc⟩ := hcalls.service
    rw [getToken_helloQuery] at hname
    have hbye : name = "Bye" := Option.some.inj (hname.symm.trans (by decide))
    rw [hbye, lookup_helloServer_of_ne hello (by decide)] at hsvc
    cases hsvc
  obtain ⟨e, he⟩ := herr
  have hplain : ∀ c ∈ chunks "service/Bye/hello", ¬Verbatim c := by decide
  have hreach := reachable_receive_helloArrived hplain (some [])
  rw [LoopState.receive, he] at hreach
  exact ⟨_, hreach, rfl, fun h => by cases h.receiving⟩

end ZenohRpc
