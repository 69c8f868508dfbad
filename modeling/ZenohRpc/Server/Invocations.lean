import ZenohRpc.Server.Replies

/-!
# What a server runs

The user code that a server runs for one query, and for the queries on one handle.  A query for a
service runs user code at most once, on servers that have the service registered; and the task for
a query is the only one on its handle, so nothing else is run there.
-/

namespace ZenohRpc

open Json KeyExpr

variable {ZenohId World : Type}

section

variable [Runtime]

/-- Whether a service runs user code for a message: a hand-written one always does, a generated one
when the body is a request of the method named. -/
def Service.Runs : Service World → Message → Prop
  | generated svc, msg => svc.Decodes msg
  | custom _ _, _ => True

/-- Whether a server runs user code for a query: the query calls a registered service with a payload
and a method, and that service runs user code for it. -/
def Server.Runs (srv : Server ZenohId World) (q : Query) : Prop :=
  ∃ svc payload method, CallsService srv q svc payload ∧ getToken q.keyExpr 4 = some method ∧
    svc.Runs (callMessage method payload)

end

/-! ## What one query runs -/

section

variable [Runtime] [Zenoh ZenohId] {srv : Server ZenohId World}

/-- What a server does with a query for a service: it calls the service, and replies with the result
that the service returned; or it runs no user code, and replies with no payload if at all. -/
lemma Server.service_cases {q : Query} (hkind : getToken q.keyExpr 2 = some "service") (w : World) :
    (∃ svc payload method, CallsService srv q svc payload ∧ getToken q.keyExpr 4 = some method ∧
      srv.invokedBy w q = (svc.call w (callMessage method payload)).invoked ∧
      ∀ raw, srv.replyTo w q = some raw → ∃ res,
        (svc.call w (callMessage method payload)).outcome = .returned res ∧
        deserialize WireMessage raw = .ok (serviceAnswer res)) ∨
    (srv.invokedBy w q = [] ∧ ∀ raw, srv.replyTo w q = some raw →
      ∃ e, deserialize WireMessage raw = .ok ⟨none, e⟩) := by
  rcases srv.dispatch_cases q with ⟨task, hdispatch, hdispatched⟩ | ⟨e, herr, _⟩
  · cases hdispatched with
    | metadata hmetadata =>
      rw [hkind] at hmetadata
      exact absurd hmetadata (by decide)
    | unknown hservice _ => exact absurd hkind hservice
    | @service svc payload hcalls =>
      have hanswer : ∀ raw, srv.replyTo w q = some raw → ∃ m,
          ((ServerTask.serviceCall svc q.keyExpr payload : ServerTask ZenohId World).answer
            w).outcome = .returned m ∧ deserialize WireMessage raw = .ok m := by
        intro raw hraw
        obtain ⟨task, res, hdispatch', hrun, rfl⟩ := Server.replyTo_eq_some_iff.mp hraw
        rw [hdispatch] at hdispatch'
        rw [← Except.ok.inj hdispatch'] at hrun
        exact ServerTask.answer_of_run hrun
      have hinvoked : srv.invokedBy w q = (serviceCall w svc q.keyExpr payload).invoked := by
        rw [Server.invokedBy, hdispatch]
        rfl
      cases hmethod : getToken q.keyExpr 4 with
      | none =>
        refine Or.inr ⟨?_, fun raw hraw => ?_⟩
        · rw [hinvoked, serviceCall, getMethodName, hmethod]
          rfl
        · obtain ⟨m, hm, hread⟩ := hanswer raw hraw
          simp only [ServerTask.answer, getMethodName, hmethod, Exec.outcome_pure,
            Outcome.returned.injEq] at hm
          exact ⟨_, hm ▸ hread⟩
      | some method =>
        refine Or.inl ⟨svc, payload, method, hcalls, rfl, ?_, fun raw hraw => ?_⟩
        · rw [hinvoked, serviceCall, getMethodName, hmethod]
          rfl
        · obtain ⟨m, hm, hread⟩ := hanswer raw hraw
          simp only [ServerTask.answer, getMethodName, hmethod, Exec.outcome_map,
            Outcome.map_eq_returned_iff] at hm
          obtain ⟨res, hres, rfl⟩ := hm
          exact ⟨res, hres, hread⟩
  · refine Or.inr ⟨by rw [Server.invokedBy, herr], fun raw hraw => ?_⟩
    rw [Server.replyTo, herr] at hraw
    cases hraw

/-- A query for a service runs user code at most once. -/
lemma Server.length_invokedBy_le {q : Query} (hkind : getToken q.keyExpr 2 = some "service")
    (w : World) : (srv.invokedBy w q).length ≤ 1 := by
  rcases srv.service_cases hkind w with ⟨svc, payload, method, _, _, hinvoked, _⟩ | ⟨hnil, _⟩
  · rw [hinvoked]
    exact svc.length_invoked_call_le w _
  · simp [hnil]

/-- A service has run user code for a message only if it is one that does. -/
lemma Service.runs_of_invoked {svc : Service World} {w : World} {msg : Message}
    (h : (svc.call w msg).invoked ≠ []) : svc.Runs msg := by
  cases svc with
  | custom => trivial
  | generated svc => exact Classical.not_not.mp fun hno => h (svc.invoked_of_not_decodes w hno)

/-- A server has run user code for a query for a service only if it is one that does. -/
lemma Server.runs_of_invokedBy {q : Query} (hkind : getToken q.keyExpr 2 = some "service")
    {w : World} (h : srv.invokedBy w q ≠ []) : srv.Runs q := by
  rcases srv.service_cases hkind w with
    ⟨svc, payload, method, hcalls, hmethod, hinvoked, _⟩ | ⟨hnil, _⟩
  · rw [hinvoked] at h
    exact ⟨svc, payload, method, hcalls, hmethod, Service.runs_of_invoked h⟩
  · exact absurd hnil h

end

/-! ## What one handle runs -/

/-- The user code that the tasks for a handle have run so far. -/
def LoopState.ran (s : LoopState ZenohId World) (handle : ℕ) : List (Invocation World) :=
  (s.completed.filter fun e => e.task.query.handle == handle).flatMap Completion.invoked

section

variable [Runtime] [Zenoh ZenohId] {srv : Server ZenohId World} {s : LoopState ZenohId World}

/-- A query that arrived stands at its handle. -/
lemma LoopState.Inv.getElem?_handle (h : s.Inv srv) {q : Query}
    (hq : q ∈ s.arrived) : s.arrived[q.handle]? = some q := by
  obtain ⟨i, hi, rfl⟩ := List.getElem_of_mem hq
  have hhandle : (s.arrived.map Query.handle)[i]? = (List.range s.arrived.length)[i]? := by
    rw [h.handles]
  rw [List.getElem?_map, List.getElem?_eq_getElem hi, Option.map_some, List.getElem?_range hi,
    Option.some.injEq] at hhandle
  rw [hhandle, List.getElem?_eq_getElem hi]

/-- The task of a completion on a handle is the task for the query that arrived there. -/
lemma LoopState.Inv.query_eq (h : s.Inv srv)
    {e : Completion ZenohId World} (he : e ∈ s.completed) {q : Query}
    (hq : s.arrived[e.task.query.handle]? = some q) : e.task.query = q := by
  have harrived := h.getElem?_handle (h.arrivals.subset (h.completed_eq he).1)
  rw [harrived] at hq
  exact Option.some.inj hq

/-- A handle has one completion at most. -/
lemma LoopState.Inv.length_filter_le (h : s.Inv srv) (handle : ℕ) :
    (s.completed.filter fun e => e.task.query.handle == handle).length ≤ 1 := by
  have hnodup : (s.completed.map fun e => e.task.query.handle).Nodup := h.nodup_completed
  have hcount := List.nodup_iff_count_le_one.mp hnodup handle
  rwa [List.count, List.countP_map, List.countP_eq_length_filter] at hcount

/-- A completion is the only one on its handle. -/
lemma LoopState.Inv.filter_eq (h : s.Inv srv) {e : Completion ZenohId World}
    (he : e ∈ s.completed) :
    (s.completed.filter fun e' => e'.task.query.handle == e.task.query.handle) = [e] := by
  have hmem : e ∈ s.completed.filter fun e' => e'.task.query.handle == e.task.query.handle := by
    simp [he]
  have hle := h.length_filter_le e.task.query.handle
  have hone := List.length_eq_one_iff.mp (le_antisymm hle (List.length_pos_of_mem hmem))
  obtain ⟨e', he'⟩ := hone
  rw [he', List.mem_singleton] at hmem
  rw [he', hmem]

/-- What a completion on a handle has run is all that the handle has run. -/
lemma LoopState.Inv.ran_eq (h : s.Inv srv)
    {e : Completion ZenohId World} (he : e ∈ s.completed) :
    s.ran e.task.query.handle = e.invoked := by
  rw [LoopState.ran, h.filter_eq he, List.flatMap_singleton]

/-- The handle of a query has run nothing, or what the server runs for the query. -/
lemma LoopState.Inv.ran_cases (h : s.Inv srv) {handle : ℕ} {q : Query}
    (hq : s.arrived[handle]? = some q) :
    s.ran handle = [] ∨ ∃ w, s.ran handle = srv.invokedBy w q := by
  by_cases hsome : ∃ e ∈ s.completed, e.task.query.handle = handle
  · obtain ⟨e, he, rfl⟩ := hsome
    obtain ⟨_, hinvoked, _⟩ := h.completed_eq he
    rw [h.query_eq he hq] at hinvoked
    exact Or.inr ⟨e.world, (h.ran_eq he).trans hinvoked⟩
  · refine Or.inl ?_
    have hnone : (s.completed.filter fun e => e.task.query.handle == handle) = [] := by
      refine List.filter_eq_nil_iff.mpr fun e he hhandle => hsome ⟨e, he, ?_⟩
      exact beq_iff_eq.mp hhandle
    rw [LoopState.ran, hnone, List.flatMap_nil]

/-- A reply on the handle of a query is that of the one task which has ended there.  It is the task
for that query, it ran what the server runs for the query in the task's world, and the reply is what
the server replies to the query in that world. -/
lemma LoopState.Inv.exists_completion (h : s.Inv srv) {q : Query}
    {r : QueryReply} (hr : r ∈ s.replies) (hq : s.arrived[r.handle]? = some q) :
    ∃ e, (s.completed.filter fun e => e.task.query.handle == r.handle) = [e] ∧
      e.task.query = q ∧ e.reply = some r ∧ e.invoked = srv.invokedBy e.world q ∧
      srv.replyTo e.world q = some r.sample := by
  obtain ⟨e, he, hreply⟩ := List.mem_filterMap.mp hr
  obtain ⟨_, hinvoked, hreplied⟩ := h.completed_eq he
  rw [hreply, eq_comm, Option.map_eq_some_iff] at hreplied
  obtain ⟨bytes, hbytes, rfl⟩ := hreplied
  have hquery := h.query_eq he hq
  rw [hquery] at hinvoked hbytes
  exact ⟨e, h.filter_eq he, hquery, hreply, hinvoked, hbytes⟩

end

end ZenohRpc
