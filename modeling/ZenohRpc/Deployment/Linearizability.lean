import ZenohRpc.Deployment.Calls
import ZenohRpc.Json.Record
import ZenohRpc.Transition.Atomic

/-!
# Calls take effect at one moment

A handler that holds a lock on its state while it runs, as the `add` of the tests does, reads the
state and changes it at one moment.  What the handlers of a deployment share is then one world, and
`effect` says what a run of user code leaves of it.

For such handlers client calls are linearizable.  A call that returns a response has taken effect at
one step of the run, between its start and its return: the response is what the service returns in
the world that all steps before have left, whatever other calls were going on, and no other step has
run user code for the call.  So the calls have an order in which they might have been made one after
the other, and it is an order of what happened: a call that returned before another started comes
before it.
-/

namespace ZenohRpc

open Json KeyExpr TransitionSystem

variable {ZenohId World : Type}

/-! ## The tasks that steps end -/

/-- The task that a step of the loop ends, and the world that the task runs in. -/
def LoopState.ended (s : LoopState ZenohId World) :
    LoopEvent World → Option (SpawnedTask ZenohId World × World)
  | .complete j w => (s.pending[j]?).map fun t => (t, w)
  | _ => none

/-- The task that a step of a deployment ends, its node, and the world that the task runs in. -/
def DeployState.ended : DeployState ZenohId World × DeployEvent ZenohId World →
    Option (ℕ × SpawnedTask ZenohId World × World)
  | (s, .loop i l) => (s.nodes[i]?).bind fun n => (n.loop.ended l).map fun x => (i, x)
  | _ => none

/-- The world that a step takes place in, if it runs a task. -/
def DeployEvent.takesPlaceIn : DeployEvent ZenohId World → Option World
  | .loop _ (.complete _ w) => some w
  | _ => none

/-- A step that runs no task is silent. -/
def DeployEvent.Silent (e : DeployEvent ZenohId World) : Prop := e.takesPlaceIn = none

section

variable [Runtime] [Zenoh ZenohId]

/-- What a step leaves of the world, when user code leaves `effect` of it. -/
def DeployState.act (effect : Invocation World → World → World)
    (q : DeployState ZenohId World × DeployEvent ZenohId World) (w : World) : World :=
  match DeployState.ended q with
  | some (_, t, _) => (t.fut.run w).invoked.foldl (fun w inv => effect inv w) w
  | none => w

/-- The tasks on a handle of a node that a step ends: one, or none. -/
def DeployState.endedAt (p : ℕ × ℕ)
    (q : DeployState ZenohId World × DeployEvent ZenohId World) :
    List (Completion ZenohId World) :=
  ((DeployState.ended q).toList.filter fun x => (x.1, x.2.1.query.handle) == p).map fun x =>
    x.2.1.complete x.2.2

/-- The user code that a step runs on a handle of a node. -/
def DeployState.performed (p : ℕ × ℕ)
    (q : DeployState ZenohId World × DeployEvent ZenohId World) : List (Invocation World) :=
  (DeployState.endedAt p q).flatMap Completion.invoked

/-- A step of the loop adds the task that it ends to those that have ended. -/
lemma ServeStep.completed_eq {srv : Server ZenohId World} {s s' : LoopState ZenohId World}
    {l : LoopEvent World} (h : ServeStep srv s l s') :
    s'.completed = s.completed ++ (s.ended l).toList.map fun x => x.1.complete x.2 := by
  cases h with
  | arrive | receiveError | cancel => exact (List.append_nil _).symm
  | @receive query rest =>
    rw [LoopState.receive]
    cases srv.dispatch query <;> exact (List.append_nil _).symm
  | complete hpending => simp [LoopState.ended, hpending]

/-- A step adds the tasks that it ends on a handle to those that have ended there. -/
lemma DeployStep.completedAt_eq {s s' : DeployState ZenohId World}
    {e : DeployEvent ZenohId World} (h : DeployStep s e s') (p : ℕ × ℕ) :
    s'.completedAt p = s.completedAt p ++ DeployState.endedAt p (s, e) := by
  cases h with
  | answer | refuse | noReply => exact (List.append_nil _).symm
  | @serve srv =>
    refine Eq.trans ?_ (List.append_nil _).symm
    simp only [DeployState.completedAt]
    rcases lt_trichotomy p.1 s.nodes.length with hlt | heq | hgt
    · rw [List.getElem?_append_left hlt]
    · rw [heq, List.getElem?_concat_length, List.getElem?_eq_none le_rfl]
      rfl
    · rw [List.getElem?_eq_none (by simpa using hgt), List.getElem?_eq_none hgt.le]
  | @call ch serverId req method tout targets =>
    refine Eq.trans ?_ (List.append_nil _).symm
    simp only [DeployState.completedAt]
    cases hn : s.nodes[p.1]? with
    | none => rw [DeployState.deliver, List.getElem?_mapIdx, hn]; rfl
    | some n =>
      rw [DeployState.getElem?_deliver hn]
      dsimp only
      split <;> rfl
  | @loop i n l loop' hn hs =>
    simp only [DeployState.completedAt, DeployState.endedAt, DeployState.ended, hn,
      Option.bind_some, List.getElem?_set]
    by_cases hi : i = p.1
    · subst hi
      obtain ⟨hlt, _⟩ := List.getElem?_eq_some_iff.mp hn
      rw [if_pos rfl, if_pos hlt, hn]
      dsimp only
      rw [hs.completed_eq, List.filter_append]
      congr 1
      cases n.loop.ended l with
      | none => rfl
      | some x =>
        by_cases hx : x.1.query.handle = p.2
        · simp [SpawnedTask.complete, hx]
        · simp [SpawnedTask.complete, hx, Prod.ext_iff]
    · rw [if_neg hi]
      cases n.loop.ended l with
      | none => simp
      | some x => simp [Prod.ext_iff, hi]

/-- A silent step ends no task. -/
lemma DeployState.endedAt_of_silent {e : DeployEvent ZenohId World} (h : e.Silent) (p : ℕ × ℕ)
    (s : DeployState ZenohId World) : DeployState.endedAt p (s, e) = [] := by
  have hended : DeployState.ended (s, e) = none := by
    cases e with
    | loop i l =>
      cases l with
      | complete => cases h
      | arrive | receive | receiveError | cancel => simp [DeployState.ended, LoopState.ended]
    | serve | call | answer | refuse | noReply => rfl
  simp [DeployState.endedAt, hended]

/-- The tasks on a handle of a node that have ended are those that the steps of the trace ended. -/
lemma DeployState.completedAt_eq_flatMap
    {guard : DeployState ZenohId World → DeployEvent ZenohId World → Prop}
    {steps : List (DeployState ZenohId World × DeployEvent ZenohId World)}
    {s : DeployState ZenohId World}
    (h : ((deployment ZenohId World).restrict guard).Trace DeployEvent.Silent steps s)
    (p : ℕ × ℕ) : s.completedAt p = steps.flatMap (DeployState.endedAt p) := by
  have hinit : ∀ s, ((deployment ZenohId World).restrict guard).init s →
      s.completedAt p = [] := by
    rintro s rfl
    rfl
  have hstep : ∀ s e s', ((deployment ZenohId World).restrict guard).step s e s' →
      s'.completedAt p = s.completedAt p ++ DeployState.endedAt p (s, e) :=
    fun _ _ _ hs => DeployStep.completedAt_eq hs.2 p
  exact Trace.accumulates hinit (fun s e he => DeployState.endedAt_of_silent he p s) hstep h

/-- The user code that was run on a handle of a node is what the steps of the trace have run
there. -/
lemma DeployState.ran_eq_performed
    {guard : DeployState ZenohId World → DeployEvent ZenohId World → Prop}
    {steps : List (DeployState ZenohId World × DeployEvent ZenohId World)}
    {s : DeployState ZenohId World}
    (h : ((deployment ZenohId World).restrict guard).Trace DeployEvent.Silent steps s)
    (p : ℕ × ℕ) : s.ran p = steps.flatMap (DeployState.performed p) := by
  rw [s.ran_eq_flatMap, DeployState.completedAt_eq_flatMap h, List.flatMap_assoc]
  rfl

/-- A step that ends a task on a handle of a node runs a task that was pending there. -/
lemma DeployState.exists_of_mem_endedAt {p : ℕ × ℕ} {d : DeployState ZenohId World}
    {e : DeployEvent ZenohId World} {c : Completion ZenohId World}
    (h : c ∈ DeployState.endedAt p (d, e)) : ∃ n t w, d.nodes[p.1]? = some n ∧
      t ∈ n.loop.pending ∧ t.query.handle = p.2 ∧ DeployState.ended (d, e) = some (p.1, t, w) ∧
      e.takesPlaceIn = some w ∧ c = t.complete w := by
  obtain ⟨⟨i, t, w⟩, hx, rfl⟩ := List.mem_map.mp h
  obtain ⟨hended, hp⟩ := List.mem_filter.mp hx
  obtain rfl := eq_of_beq hp
  rw [Option.mem_toList] at hended
  cases e with
  | loop i' l =>
    have hnode := hended
    simp only [DeployState.ended, Option.bind_eq_some_iff, Option.map_eq_some_iff] at hnode
    obtain ⟨n, hn, y, hy, hpair⟩ := hnode
    cases hpair
    cases l with
    | complete j w' =>
      simp only [LoopState.ended, Option.map_eq_some_iff] at hy
      obtain ⟨t', ht', hpair⟩ := hy
      cases hpair
      exact ⟨n, t, w, hn, List.mem_of_getElem? ht', rfl, hended, rfl, rfl⟩
    | arrive | receive | receiveError | cancel => cases hy
  | serve | call | answer | refuse | noReply => cases hended

/-! ## What stays of a call -/

/-- A client call that no longer waits stays as it is. -/
lemma DeployState.getElem?_calls_of_moves {s s' : DeployState ZenohId World}
    (h : (deployment ZenohId World).Moves s s') {c : ℕ} {call : ClientCall}
    (hcall : s.calls[c]? = some call) (hstatus : call.status ≠ .waiting) :
    s'.calls[c]? = some call := by
  induction h with
  | refl => exact hcall
  | tail _ hstep ih =>
    obtain ⟨e, hs⟩ := hstep
    cases hs with
    | serve => exact ih
    | loop => exact ih
    | call =>
      obtain ⟨hlt, _⟩ := List.getElem?_eq_some_iff.mp ih
      rw [List.getElem?_append_left hlt, ih]
    | @answer c' call' _ _ _ hcall' hwaiting | @refuse c' call' _ hcall' hwaiting
    | @noReply c' call' hcall' hwaiting =>
      have hne : c' ≠ c := by
        rintro rfl
        rw [ih, Option.some.injEq] at hcall'
        exact hstatus (hcall' ▸ hwaiting)
      rw [List.getElem?_set_ne hne, ih]

/-- A client call that has started has started from then on. -/
lemma DeployState.started_of_moves {s s' : DeployState ZenohId World}
    (h : (deployment ZenohId World).Moves s s') {c : ℕ} (hc : c < s.calls.length) :
    c < s'.calls.length := by
  obtain ⟨_, hcall, _⟩ :=
    (DeployState.extends_of_moves h).calls c _ (List.getElem?_eq_getElem hc)
  exact (List.getElem?_eq_some_iff.mp hcall).1

/-- A client call after a step was there before it, and is still handed to the same nodes, or it has
just started. -/
lemma DeployStep.call_cases {s s' : DeployState ZenohId World} {e : DeployEvent ZenohId World}
    (h : DeployStep s e s') {c : ℕ} {call' : ClientCall} (hcall : s'.calls[c]? = some call') :
    (∃ call : ClientCall, s.calls[c]? = some call ∧ call'.delivered = call.delivered) ∨
    (s.calls.length = c ∧ ∃ targets, call'.delivered = s.handles targets) := by
  cases hold : s.calls[c]? with
  | some call =>
    obtain ⟨call'', hcall'', _, hdelivered⟩ := h.extends.calls c call hold
    rw [hcall, Option.some.injEq] at hcall''
    exact Or.inl ⟨call, rfl, hcall'' ▸ hdelivered⟩
  | none =>
    have hlen := List.getElem?_eq_none_iff.mp hold
    obtain ⟨hlt, _⟩ := List.getElem?_eq_some_iff.mp hcall
    cases h with
    | serve => exact absurd hlt (not_lt.mpr hlen)
    | loop => exact absurd hlt (not_lt.mpr hlen)
    | answer | refuse | noReply => exact absurd hlt (not_lt.mpr (by simpa using hlen))
    | @call ch serverId req method tout targets =>
      rw [List.length_append, List.length_singleton, Nat.lt_succ_iff] at hlt
      obtain rfl := le_antisymm hlen hlt
      rw [List.getElem?_concat_length, Option.some.injEq] at hcall
      exact Or.inr ⟨rfl, targets, by rw [← hcall]⟩

/-- A client call that has not started is not handed to a node under a handle that the node has
given to a query. -/
lemma DeployState.length_arrived_le_of_moves {s s' : DeployState ZenohId World}
    (h : (deployment ZenohId World).Moves s s') {c : ℕ} (hnew : s.calls.length ≤ c)
    {call : ClientCall} (hcall : s'.calls[c]? = some call) {p : ℕ × ℕ} (hp : p ∈ call.delivered)
    {n : Node ZenohId World} (hn : s.nodes[p.1]? = some n) : n.loop.arrived.length ≤ p.2 := by
  induction h generalizing call with
  | refl => exact absurd hcall (by rw [List.getElem?_eq_none hnew]; simp)
  | @tail s₁ s₂ hmoves hstep ih =>
    obtain ⟨e, hs⟩ := hstep
    rcases DeployStep.call_cases hs hcall with ⟨call₁, hcall₁, hsame⟩ | ⟨_, targets, hhandles⟩
    · exact ih hcall₁ (hsame ▸ hp)
    · rw [hhandles] at hp
      obtain ⟨_, n₁, hn₁, hhandle⟩ := DeployState.mem_handles.mp hp
      obtain ⟨n₂, hn₂, hext⟩ := (DeployState.extends_of_moves hmoves).nodes _ n hn
      rw [hn₁, Option.some.injEq] at hn₂
      subst hn₂
      exact hhandle ▸ hext.arrived.length_le

/-- No two client calls have a handle in common. -/
lemma DeployState.disjoint_delivered {s : DeployState ZenohId World}
    (h : (deployment ZenohId World).Reachable s) {c c' : ℕ} (hlt : c < c') {call call' : ClientCall}
    (hcall : s.calls[c]? = some call) (hcall' : s.calls[c']? = some call') {p : ℕ × ℕ}
    (hp : p ∈ call.delivered) : p ∉ call'.delivered := by
  induction h generalizing call call' with
  | init hinit =>
    rw [hinit] at hcall
    cases hcall
  | @step s s' e hreach hs ih =>
    rcases DeployStep.call_cases hs hcall' with
      ⟨call₁', hcall₁', hsame'⟩ | ⟨hlen, targets, hhandles⟩
    · rcases DeployStep.call_cases hs hcall with ⟨call₁, hcall₁, hsame⟩ | ⟨hlen, _⟩
      · rw [hsame']
        exact ih hcall₁ hcall₁' (hsame ▸ hp)
      · obtain ⟨hlt', _⟩ := List.getElem?_eq_some_iff.mp hcall₁'
        omega
    · rcases DeployStep.call_cases hs hcall with ⟨call₁, hcall₁, hsame⟩ | ⟨hlen', _⟩
      · -- the handles of the earlier call are taken
        have htraced := DeployState.traced_of_reachable hreach
        obtain ⟨n, hn, harrived⟩ :=
          (htraced.calls call₁ (List.mem_of_getElem? hcall₁)).arrived p (hsame ▸ hp)
        obtain ⟨hlt', _⟩ := List.getElem?_eq_some_iff.mp harrived
        rw [hhandles]
        intro hp'
        obtain ⟨_, n', hn', hhandle⟩ := DeployState.mem_handles.mp hp'
        rw [hn, Option.some.injEq] at hn'
        subst hn'
        omega
      · omega

/-! ## The moment of a call -/

/-- A call that took a response has run user code. -/
lemma DeployState.Traced.exists_ran {s : DeployState ZenohId World} {c : ClientCall} (h : s.Traced)
    (hc : c ∈ s.calls) {rawData : Bytes} (hstatus : c.status = .took (.ok rawData)) {U : Type}
    [Serde U] {r : Response U} (hread : RPCClientChannel.readReply U rawData = .ok r) :
    ∃ p ∈ c.delivered, s.ran p ≠ [] := by
  obtain ⟨p, n, e, hreplied⟩ := h.exists_repliedBy hc hstatus
  obtain ⟨_, _, _, inv, _, _, _, hinvoked, _⟩ := hreplied.called ((h.calls c hc).kind 0) hread
  refine ⟨p, hreplied.delivered, ?_⟩
  rw [hreplied.ran_eq, hinvoked]
  exact List.cons_ne_nil _ _

/-- A step of a run at which a client call takes effect, and the steps before it and after it.  The
call has started and waits.  On a node that its query was handed to, the step runs user code once,
in the world that the steps before it have left: the service that the call is for returns there the
message whose body is the response.  No other step runs user code for the call. -/
structure TakesEffect (effect : Invocation World → World → World) (w₀ : World) (c : ℕ)
    (call : ClientCall) {U : Type} [Serde U] (r : Response U)
    (pre : List (DeployState ZenohId World × DeployEvent ZenohId World))
    (step : DeployState ZenohId World × DeployEvent ZenohId World)
    (post : List (DeployState ZenohId World × DeployEvent ZenohId World)) : Prop where
  waiting : ∃ call₀ : ClientCall, step.1.calls[c]? = some call₀ ∧ call₀.status = .waiting
  performed : ∃ p ∈ call.delivered, ∃ n svc payload method inv m,
    step.1.nodes[p.1]? = some n ∧ CallsService n.server (call.request.query 0) svc payload ∧
    getToken (call.request.query 0).keyExpr 4 = some method ∧
    svc.call (worldAfter (DeployState.act effect) w₀ pre) (callMessage method payload) =
      ⟨[inv], .returned (.ok m)⟩ ∧
    deserialize U m.body = .ok r.message ∧ DeployState.performed p step = [inv] ∧
    worldAfter (DeployState.act effect) w₀ (pre ++ [step]) =
      effect inv (worldAfter (DeployState.act effect) w₀ pre)
  once : ∀ q ∈ pre ++ post, ∀ p ∈ call.delivered, DeployState.performed p q = []

/-- A client call has returned a response. -/
structure DeployState.Returned (s : DeployState ZenohId World) (c : ℕ) (call : ClientCall)
    {U : Type} [Serde U] (r : Response U) : Prop where
  started : s.calls[c]? = some call
  response : ∃ rawData, call.status = .took (.ok rawData) ∧
    RPCClientChannel.readReply U rawData = .ok r

/-- A call that has returned a response has it from then on. -/
lemma DeployState.Returned.stays {s s' : DeployState ZenohId World} {c : ℕ} {call : ClientCall}
    {U : Type} [Serde U] {r : Response U} (hmoves : (deployment ZenohId World).Moves s s')
    (h : s.Returned c call r) : s'.Returned c call r := by
  obtain ⟨rawData, hstatus, hread⟩ := h.response
  exact ⟨DeployState.getElem?_calls_of_moves hmoves h.started (by rw [hstatus]; simp), rawData,
    hstatus, hread⟩

omit [Zenoh ZenohId] in
/-- A call that has returned a response does not wait. -/
lemma DeployState.Returned.not_waiting {s : DeployState ZenohId World} {c : ℕ}
    {call call₀ : ClientCall} {U : Type} [Serde U] {r : Response U} (h : s.Returned c call r)
    (hcall : s.calls[c]? = some call₀) : call₀.status ≠ .waiting := by
  obtain ⟨rawData, hstatus, _⟩ := h.response
  obtain rfl := Option.some.inj (h.started.symm.trans hcall)
  simp [hstatus]

/-- A call waits where a task of it is pending, if it has run no user code yet and returns a
response later. -/
lemma DeployState.Returned.exists_waiting {s d : DeployState ZenohId World} {c : ℕ}
    {call : ClientCall} {U : Type} [Serde U] {r : Response U} (hreturned : s.Returned c call r)
    (hinv : d.Inv) (hmoves : (deployment ZenohId World).Moves d s) {p : ℕ × ℕ}
    (hp : p ∈ call.delivered) {n : Node ZenohId World} (hn : d.nodes[p.1]? = some n)
    {t : SpawnedTask ZenohId World} (ht : t ∈ n.loop.pending) (hhandle : t.query.handle = p.2)
    (hnone : ∀ p' ∈ call.delivered, d.ran p' = []) :
    ∃ call₀ : ClientCall, d.calls[c]? = some call₀ ∧ call₀.status = .waiting := by
  obtain ⟨hcall, rawData, hstatus, hread⟩ := hreturned
  cases hd : d.calls[c]? with
  | none =>
    -- the call has started: a later one would have a handle of its own
    have hlater := DeployState.length_arrived_le_of_moves hmoves
      (List.getElem?_eq_none_iff.mp hd) hcall hp hn
    have hloop := ZenohRpc.inv_of_reachable (hinv.nodes n (List.mem_of_getElem? hn))
    have hreceived : t.query ∈ n.loop.received :=
      hloop.tasks.subset (List.mem_map_of_mem (List.mem_append_left _ ht))
    have harrived := hloop.getElem?_handle (hloop.arrivals.subset hreceived)
    obtain ⟨hlt, _⟩ := List.getElem?_eq_some_iff.mp harrived
    omega
  | some call₀ =>
    refine ⟨call₀, rfl, ?_⟩
    by_contra hstarted
    -- the call has not returned: it has run no user code before
    have hsame := DeployState.getElem?_calls_of_moves hmoves hd hstarted
    rw [hcall, Option.some.injEq] at hsame
    subst hsame
    obtain ⟨p', hp', hran⟩ := hinv.exists_ran (List.mem_of_getElem? hd) hstatus hread
    exact hran (hnone p' hp')

/-- A call that has returned a response has taken effect at one step of the trace, after it started
and before it returned. -/
lemma DeployState.Returned.exists_takesEffect {effect : Invocation World → World → World}
    {w₀ : World} {steps : List (DeployState ZenohId World × DeployEvent ZenohId World)}
    {s : DeployState ZenohId World} {c : ℕ} {call : ClientCall} {U : Type} [Serde U]
    {r : Response U} (hreturned : s.Returned c call r)
    (h : ((deployment ZenohId World).restrict SingleTarget).Trace DeployEvent.Silent steps s)
    (hatomic : Atomic (DeployState.act effect) DeployEvent.takesPlaceIn w₀ steps) :
    ∃ pre step post, steps = pre ++ step :: post ∧
      TakesEffect effect w₀ c call r pre step post := by
  obtain ⟨rawData, hstatus, hread⟩ := hreturned.response
  have hinv := DeployState.inv_of_reachable h.reachable
  have hc := List.mem_of_getElem? hreturned.started
  obtain ⟨p, n, e, hreplied⟩ := hinv.exists_repliedBy hc hstatus
  obtain ⟨svc, payload, method, inv, m, hcalls, hmethod, hinvoked, hservice, hbody⟩ :=
    hreplied.called ((hinv.calls call hc).kind 0) hread
  have hran := hreplied.ran_eq
  have hone := hreplied.completed
  have hquery := hreplied.query
  have hp := hreplied.delivered
  -- the step that ended the task is the moment of the call
  rw [DeployState.completedAt_eq_flatMap h] at hone
  obtain ⟨pre, ⟨d, ev⟩, post, rfl, hended, hothers⟩ := exists_of_flatMap_eq_singleton hone
  obtain ⟨n₀, t, w, hn₀, ht, hhandle, hstep, hplace, rfl⟩ :=
    DeployState.exists_of_mem_endedAt (hended ▸ List.mem_singleton_self e)
  obtain rfl := hatomic pre (d, ev) post rfl w hplace
  obtain ⟨hpre, hmoves⟩ := h.of_append
  have hinv₀ := DeployState.inv_of_reachable hpre.reachable
  obtain ⟨n', hn', hext⟩ := (DeployState.extends_of_moves hmoves.of_restrict).nodes _ n₀ hn₀
  rw [hreplied.node, Option.some.injEq] at hn'
  subst hn'
  rw [hinvoked] at hran
  have hperformed : DeployState.performed p (d, ev) = [inv] := by
    rw [DeployState.performed, hended, List.flatMap_singleton, hinvoked]
  have honce : ∀ q ∈ pre ++ post, ∀ p' ∈ call.delivered, DeployState.performed p' q = [] := by
    intro q hq p' hp'
    by_cases heq : p' = p
    · rw [heq, DeployState.performed, hothers q hq, List.flatMap_nil]
    · -- the query was handed to one node at most that runs user code
      have hnone : s.ran p' = [] := by
        by_contra hsome
        exact heq (hinv.eq_of_ran hc hp' hp hsome (by simp [hran]))
      rw [DeployState.ran_eq_performed h, List.flatMap_eq_nil_iff] at hnone
      exact hnone q (((List.sublist_cons_self _ post).append_left pre).subset hq)
  have hnone : ∀ p' ∈ call.delivered, d.ran p' = [] := fun p' hp' => by
    rw [DeployState.ran_eq_performed hpre]
    exact List.flatMap_eq_nil_iff.mpr fun q hq => honce q (List.mem_append_left _ hq) p' hp'
  have hwaiting := hreturned.exists_waiting hinv₀ hmoves.of_restrict hp hn₀ ht hhandle hnone
  refine ⟨pre, (d, ev), post, rfl, hwaiting, ?_, honce⟩
  refine ⟨p, hp, n₀, svc, payload, method, inv, m, hn₀, ?_, hmethod, hservice, hbody,
    hperformed, ?_⟩
  · rw [← hext.server]
    exact hcalls
  · rw [worldAfter_concat, DeployState.act, hstep]
    rw [SpawnedTask.complete] at hinvoked
    dsimp only at hinvoked ⊢
    rw [hinvoked, List.foldl_cons, List.foldl_nil]

/-! ## The order of calls -/

/-- A step runs user code on one handle at most. -/
lemma DeployState.eq_of_performed {p p' : ℕ × ℕ}
    {q : DeployState ZenohId World × DeployEvent ZenohId World}
    (h : DeployState.performed p q ≠ []) (h' : DeployState.performed p' q ≠ []) : p = p' := by
  have hended : ∀ p, DeployState.performed p q ≠ [] → ∃ x, DeployState.ended q = some x ∧
      (x.1, x.2.1.query.handle) = p := by
    intro p hp
    have hsome : DeployState.endedAt p q ≠ [] := fun hnil => hp (by
      rw [DeployState.performed, hnil, List.flatMap_nil])
    obtain ⟨c, hc⟩ := List.exists_mem_of_ne_nil _ hsome
    obtain ⟨x, hx, _⟩ := List.mem_map.mp hc
    obtain ⟨hmem, hown⟩ := List.mem_filter.mp hx
    exact ⟨x, Option.mem_toList.mp hmem, eq_of_beq hown⟩
  obtain ⟨x, hx, rfl⟩ := hended p h
  obtain ⟨x', hx', rfl⟩ := hended p' h'
  rw [hx, Option.some.injEq] at hx'
  rw [hx']

section Order

variable {effect : Invocation World → World → World} {w₀ : World}
  {steps pre post pre' post' : List (DeployState ZenohId World × DeployEvent ZenohId World)}
  {step step' : DeployState ZenohId World × DeployEvent ZenohId World}
  {s : DeployState ZenohId World} {c c' : ℕ} {call call' : ClientCall} {U U' : Type} [Serde U]
  [Serde U'] {r : Response U} {r' : Response U'}

/-- The step at which a call takes effect runs user code for it. -/
lemma TakesEffect.exists_performed (h : TakesEffect effect w₀ c call r pre step post) :
    ∃ p ∈ call.delivered, DeployState.performed p step ≠ [] := by
  obtain ⟨p, hp, _, _, _, _, inv, _, _, _, _, _, _, hperformed, _⟩ := h.performed
  exact ⟨p, hp, by rw [hperformed]; exact List.cons_ne_nil _ _⟩

/-- Two calls take effect at different steps. -/
lemma TakesEffect.length_ne (h : (deployment ZenohId World).Trace DeployEvent.Silent steps s)
    (hsplit : steps = pre ++ step :: post) (hsplit' : steps = pre' ++ step' :: post')
    (heffect : TakesEffect effect w₀ c call r pre step post)
    (heffect' : TakesEffect effect w₀ c' call' r' pre' step' post') (hne : c ≠ c')
    (hcall : s.calls[c]? = some call) (hcall' : s.calls[c']? = some call') :
    pre.length ≠ pre'.length := by
  intro hlen
  obtain ⟨rfl, hrest⟩ := List.append_inj (hsplit.symm.trans hsplit') hlen
  obtain ⟨rfl, rfl⟩ := List.cons.inj hrest
  obtain ⟨p, hp, hperformed⟩ := heffect.exists_performed
  obtain ⟨p', hp', hperformed'⟩ := heffect'.exists_performed
  obtain rfl := DeployState.eq_of_performed hperformed hperformed'
  rcases lt_or_gt_of_ne hne with hlt | hgt
  · exact DeployState.disjoint_delivered h.reachable hlt hcall hcall' hp hp'
  · exact DeployState.disjoint_delivered h.reachable hgt hcall' hcall hp' hp

/-- A call that has returned before another starts takes effect before it. -/
lemma TakesEffect.length_lt (h : (deployment ZenohId World).Trace DeployEvent.Silent steps s)
    (hsplit : steps = pre ++ step :: post) (hsplit' : steps = pre' ++ step' :: post')
    (heffect : TakesEffect effect w₀ c call r pre step post)
    (heffect' : TakesEffect effect w₀ c' call' r' pre' step' post')
    {q : DeployState ZenohId World × DeployEvent ZenohId World} (hq : q ∈ steps)
    (hreturned : q.1.Returned c call r) (hnew : q.1.calls.length ≤ c') :
    pre.length < pre'.length := by
  obtain ⟨before, after, hsteps⟩ := List.append_of_mem hq
  obtain ⟨call₀, hcall₀, hwaiting⟩ := heffect.waiting
  obtain ⟨call₁, hcall₁, _⟩ := heffect'.waiting
  have hfirst : pre.length < before.length :=
    h.length_lt_of_stays (fun _ _ hmoves => DeployState.Returned.stays hmoves) hsplit hsteps
      (fun hback => hback.not_waiting hcall₀ hwaiting) hreturned
  have hsecond : before.length < pre'.length :=
    h.length_lt_of_stays (fun _ _ hmoves => DeployState.started_of_moves hmoves) hsteps hsplit'
      (not_lt.mpr hnew) (List.getElem?_eq_some_iff.mp hcall₁).1
  exact hfirst.trans hsecond

/-- Whether a step runs user code for a client call. -/
def ClientCall.performedBy (call : ClientCall)
    (q : DeployState ZenohId World × DeployEvent ZenohId World) : Bool :=
  call.delivered.any fun p => !(DeployState.performed p q).isEmpty

/-- The place in a run of the first step that runs user code for a client call. -/
def ClientCall.moment (call : ClientCall)
    (steps : List (DeployState ZenohId World × DeployEvent ZenohId World)) : ℕ :=
  steps.findIdx call.performedBy

/-- The step at which a call takes effect stands at its moment. -/
lemma TakesEffect.moment_eq (h : TakesEffect effect w₀ c call r pre step post) :
    call.moment (pre ++ step :: post) = pre.length := by
  have hbefore : ∀ q ∈ pre, call.performedBy q = false := fun q hq =>
    List.any_eq_false.mpr fun p hp => by
      simp [h.once q (List.mem_append_left _ hq) p hp]
  have hstep : call.performedBy step = true := by
    obtain ⟨p, hp, hperformed⟩ := h.exists_performed
    exact List.any_eq_true.mpr ⟨p, hp, by simpa using hperformed⟩
  exact findIdx_append_cons hbefore hstep

/-- The moments at which calls take effect make a sequential history of a run.  Every call that has
returned a response has taken effect at its moment; no two have the same; and a call that has
returned before another starts comes before it. -/
structure Linearizes (effect : Invocation World → World → World) (w₀ : World)
    (steps : List (DeployState ZenohId World × DeployEvent ZenohId World))
    (s : DeployState ZenohId World) : Prop where
  takesEffect : ∀ (c : ℕ) (call : ClientCall) (U : Type) [Serde U] (r : Response U),
    s.Returned c call r → ∃ pre step post, steps = pre ++ step :: post ∧
      call.moment steps = pre.length ∧ TakesEffect effect w₀ c call r pre step post
  distinct : ∀ (c c' : ℕ) (call call' : ClientCall) (U U' : Type) [Serde U] [Serde U']
    (r : Response U) (r' : Response U'), s.Returned c call r → s.Returned c' call' r' → c ≠ c' →
      call.moment steps ≠ call'.moment steps
  realTime : ∀ (c c' : ℕ) (call call' : ClientCall) (U U' : Type) [Serde U] [Serde U']
    (r : Response U) (r' : Response U'), s.Returned c call r → s.Returned c' call' r' →
      ∀ q ∈ steps, q.1.Returned c call r → q.1.calls.length ≤ c' →
        call.moment steps < call'.moment steps

/-- Calls are linearizable where handlers run at one moment and no client call reaches two nodes
that run user code for it: every run of a deployment has a sequential history. -/
theorem DeployState.linearizable
    (h : ((deployment ZenohId World).restrict SingleTarget).Run steps s)
    (hatomic : Atomic (DeployState.act effect) DeployEvent.takesPlaceIn w₀ steps) :
    Linearizes effect w₀ steps s where
  takesEffect c call U _ r hreturned := by
    obtain ⟨pre, step, post, rfl, heffect⟩ := hreturned.exists_takesEffect h.trace hatomic
    exact ⟨pre, step, post, rfl, heffect.moment_eq, heffect⟩
  distinct c c' call call' U U' _ _ r r' hreturned hreturned' hne := by
    obtain ⟨pre, step, post, hsplit, heffect⟩ := hreturned.exists_takesEffect h.trace hatomic
    obtain ⟨pre', step', post', hsplit', heffect'⟩ := hreturned'.exists_takesEffect h.trace hatomic
    have hmoment : call.moment steps = pre.length := by rw [hsplit, heffect.moment_eq]
    have hmoment' : call'.moment steps = pre'.length := by rw [hsplit', heffect'.moment_eq]
    rw [hmoment, hmoment']
    exact heffect.length_ne h.trace.of_restrict hsplit hsplit' heffect' hne hreturned.started
      hreturned'.started
  realTime c c' call call' U U' _ _ r r' hreturned hreturned' q hq hbefore hnew := by
    obtain ⟨pre, step, post, hsplit, heffect⟩ := hreturned.exists_takesEffect h.trace hatomic
    obtain ⟨pre', step', post', hsplit', heffect'⟩ := hreturned'.exists_takesEffect h.trace hatomic
    have hmoment : call.moment steps = pre.length := by rw [hsplit, heffect.moment_eq]
    have hmoment' : call'.moment steps = pre'.length := by rw [hsplit', heffect'.moment_eq]
    rw [hmoment, hmoment']
    exact heffect.length_lt h.trace.of_restrict hsplit hsplit' heffect' hq hbefore hnew

end Order

end

/-! ## The `add` of the tests -/

open Reference

namespace Reference

/-- What `add` leaves of the counter.  The addition is checked, as in the builds of the tests, and
panics before the counter changes. -/
def increment (w : UInt64) : UInt64 := if w.toNat + 1 < 2 ^ 64 then w + 1 else w

/-- The method `add` of the tests. -/
def add : ServiceMethod UInt64 where
  ident := ⟨false, "add", by decide, List.all_eq_true.mp (by decide)⟩
  Req := Record []
  Resp := UInt64
  serdeReq := inferInstance
  serdeResp := inferInstance
  debugReq := ⟨fun _ => "AddRequest"⟩
  handler w _ := if w.toNat + 1 < 2 ^ 64 then .returned (.ok (Response.new (w + 1))) else .panicked

/-- The service `Hello` with the method `add`. -/
def addService : GeneratedService UInt64 :=
  ⟨(helloService hello).ident, [add], by simp⟩

/-- The tests' server, with its counter. -/
def addServer : Server SessionId UInt64 :=
  ((Server.builder session).addService (.generated addService)).build

lemma lookup_addServer :
    addServer.services.lookup addService.name = some (.generated addService) :=
  AList.lookup_insert ∅

/-- The request of `add`, which has no arguments. -/
def addRequest : add.Req := ()

/-- The `get` of a call of `add`. -/
def addGet (body : Bytes) : GetRequest := addService.getRequest add session.zid body 0

/-- Where there is room in the counter, incrementing adds one. -/
lemma toNat_increment {w : UInt64} (h : w.toNat + 1 < 2 ^ 64) :
    (increment w).toNat = w.toNat + 1 := by
  rw [increment, if_pos h, UInt64.toNat_add]
  exact Nat.mod_eq_of_lt h

end Reference

lemma mem_addService : add ∈ addService.methods := List.mem_singleton_self add

/-! ## Two calls of `add` -/

/-- A call of `add` reaches the tests' server. -/
lemma intersects_addGet (body : Bytes) :
    Intersects addServer.queryableKe ((addGet body).query 0).keyExpr := by
  have hnames : Addressable "Hello" "add" :=
    ⟨by decide, by decide, by decide, by decide, by decide⟩
  have haddressed : addServer.Addressed
      (callQuery addServer.instanceUuid "Hello" "add" body 0 0) _ "Hello" "add" body :=
    hnames.addressed (by decide) lookup_addServer
  exact haddressed.delivered

/-- The request of `add` is written, and reads back. -/
lemma exists_addBody : ∃ body, serialize (Request.new addRequest) = .ok body ∧
    deserialize (Request add.Req) body = .ok (Request.new addRequest) := by
  have hmessage : RoundTrips 1 addRequest := ⟨.obj [], rfl, rfl, le_rfl⟩
  have hround : RoundTrips 2 (Request.new addRequest) := Request.roundTrips hmessage
  exact deserialize_serialize (hround.mono (by decide))

/-- A call of `add`, with the handle that its query has at the server. -/
def addCall (body : Bytes) (k : ℕ) (status : CallStatus) : ClientCall :=
  ⟨addGet body, [(0, k)], status⟩

/-- What the loop hands a call of `add` to. -/
def addTask (body : Bytes) (k : ℕ) : ServerTask SessionId UInt64 :=
  .serviceCall (.generated addService) ((addGet body).query k).keyExpr body

/-- The reply of `add` to a call that finds a number in the counter. -/
def addReply (w : UInt64) : Except Status Bytes :=
  serviceReply ((Except.ok (Response.new (increment w))).map Response.toMessage)

/-- The task for a call of `add` runs its handler, which returns the next number. -/
lemma run_addTask {body : Bytes}
    (hbody : deserialize (Request add.Req) body = .ok (Request.new addRequest)) (k : ℕ)
    {w : UInt64} (hroom : w.toNat + 1 < 2 ^ 64) :
    (addTask body k).run w =
      ⟨[.handler add (Request.new addRequest)], .returned (addReply w)⟩ := by
  have hcall := serviceCall_of_mem w mem_addService
    (getToken_getRequest addService add session.zid body 0 k) body
  have harm := add.arm_of_ok w hbody
  have hhandler : add.handler w (Request.new addRequest) =
      .returned (.ok (Response.new (increment w))) := by
    simp only [add, increment, if_pos hroom]
  rw [hhandler] at harm
  rw [harm] at hcall
  exact hcall

/-- A call of `add` is handed to its task. -/
lemma dispatch_addGet (body : Bytes) (k : ℕ) :
    addServer.dispatch ((addGet body).query k) = .ok (addTask body k) :=
  Server.dispatch_of_dispatched
    (.service (callsService_getRequest lookup_addServer add body 0 k))

/-- The task that the tests' server spawns for a query. -/
def spawned (q : Query) (fut : ServerTask SessionId UInt64) : SpawnedTask SessionId UInt64 :=
  ⟨q, q.keyExpr, fut⟩

/-- The tests' server while it waits for queries. -/
def addIdle (arrived : List Query) (completed : List (Completion SessionId UInt64)) :
    Node SessionId UInt64 :=
  ⟨addServer, ⟨arrived, [], arrived, [], completed, .receiving⟩⟩

/-- The tests' server while it runs the task for the last query that has arrived. -/
def addBusy (arrived : List Query) (completed : List (Completion SessionId UInt64)) (q : Query)
    (fut : ServerTask SessionId UInt64) : Node SessionId UInt64 :=
  ⟨addServer, ⟨arrived ++ [q], [], arrived ++ [q], [spawned q fut], completed, .receiving⟩⟩

/-- What the tests' server has done for a call of `add`. -/
def addDone (body : Bytes) (k : ℕ) (w : UInt64) : Completion SessionId UInt64 :=
  (spawned ((addGet body).query k) (addTask body k)).complete w

section

variable {arrived : List Query} {completed : List (Completion SessionId UInt64)}
  {calls : List ClientCall} {body : Bytes} {w : UInt64}

/-- A query for the tests' server reaches it while it waits. -/
lemma gets_addIdle {ke : String} (hke : Intersects addServer.queryableKe ke) (i : ℕ)
    (n : Node SessionId UInt64) (hn : [addIdle arrived completed][i]? = some n) :
    i ∈ [0] ↔ n.Gets ke := by
  cases i with
  | zero =>
    obtain rfl := Option.some.inj hn
    exact iff_of_true (List.mem_singleton_self 0) ⟨rfl, hke⟩
  | succ i => cases hn

/-- While it waits, the tests' server gets a call of `add`. -/
lemma deployStep_call_add : DeployStep ⟨[addIdle arrived completed], calls⟩
    (.call addService.channel session.zid body "add" 0 [0])
    ⟨[(addIdle arrived completed).deliver (addGet body)],
      calls ++ [addCall body arrived.length .waiting]⟩ :=
  .call (List.nodup_singleton 0) (gets_addIdle (intersects_addGet body))

/-- It receives a query that it got, and spawns the task for it. -/
lemma deployStep_receive_addIdle {req : GetRequest} {fut : ServerTask SessionId UInt64}
    (hfut : addServer.dispatch (req.query arrived.length) = .ok fut) :
    DeployStep ⟨[(addIdle arrived completed).deliver req], calls⟩ (.loop 0 .receive)
      ⟨[addBusy arrived completed (req.query arrived.length) fut], calls⟩ := by
  have hqueue : ((addIdle arrived completed).deliver req).loop.queue =
      [req.query arrived.length] := rfl
  have hstep : ServeStep addServer _ .receive _ := .receive rfl hqueue
  rw [LoopState.receive, hfut] at hstep
  exact .loop (n := (addIdle arrived completed).deliver req) rfl hstep

/-- The task ends, and the server waits again. -/
lemma deployStep_complete_addBusy (q : Query) (fut : ServerTask SessionId UInt64) (w : UInt64) :
    DeployStep ⟨[addBusy arrived completed q fut], calls⟩ (.loop 0 (.complete 0 w))
      ⟨[addIdle (arrived ++ [q]) (completed ++ [(spawned q fut).complete w])], calls⟩ :=
  .loop (n := addBusy arrived completed q fut) rfl (.complete rfl)

/-- The client takes the reply to its call of `add`. -/
lemma deployStep_answer_add
    (hbody : deserialize (Request add.Req) body = .ok (Request.new addRequest))
    (hroom : w.toNat + 1 < 2 ^ 64) (q : Query) (k : ℕ) :
    DeployStep ⟨[addIdle (arrived ++ [q]) (completed ++ [addDone body k w])],
      calls ++ [addCall body k .waiting]⟩ (.answer calls.length (0, k))
      ⟨[addIdle (arrived ++ [q]) (completed ++ [addDone body k w])],
        calls ++ [addCall body k (.took (.ok (sample (addReply w))))]⟩ := by
  have hreply : (addDone body k w).reply =
      some ⟨k, ((addGet body).query k).keyExpr, sample (addReply w)⟩ := by
    rw [addDone, SpawnedTask.complete, spawned, run_addTask hbody k hroom]
    rfl
  have hset : (calls ++ [addCall body k .waiting]).set calls.length
      (addCall body k (.took (.ok (sample (addReply w))))) =
        calls ++ [addCall body k (.took (.ok (sample (addReply w))))] := by simp
  have hanswer : DeployStep ⟨[addIdle (arrived ++ [q]) (completed ++ [addDone body k w])],
      calls ++ [addCall body k .waiting]⟩ (.answer calls.length (0, k)) _ :=
    .answer List.getElem?_concat_length rfl (List.mem_singleton_self _) rfl
      (List.mem_filterMap.mpr ⟨_, List.mem_append_right _ (List.mem_singleton_self _), hreply⟩) rfl
  rw [← hset]
  exact hanswer

/-- The task for a call of `add` leaves the next number in the counter. -/
lemma foldl_addTask (hbody : deserialize (Request add.Req) body = .ok (Request.new addRequest))
    (hroom : w.toNat + 1 < 2 ^ 64) (k : ℕ) :
    ((addTask body k).run w).invoked.foldl (fun w _ => increment w) w = increment w := by
  rw [run_addTask hbody k hroom, List.foldl_cons, List.foldl_nil]

end

/-- The reply of `add` is read as the next number. -/
lemma readReply_addReply (w : UInt64) : RPCClientChannel.readReply UInt64 (sample (addReply w)) =
    .ok (Response.new (increment w)) :=
  RPCClientChannel.readReply_serviceReply fun resp _ =>
    (roundTrips_uint64 resp.message).mono (by decide)

/-- A run on the tests' counter, from zero to the number that it has come to. -/
abbrev CounterRun (steps : List (DeployState SessionId UInt64 × DeployEvent SessionId UInt64))
    (s : DeployState SessionId UInt64) (w : UInt64) : Prop :=
  AtomicRun ((deployment SessionId UInt64).restrict SingleTarget)
    (DeployState.act fun _ => increment) DeployEvent.takesPlaceIn 0 steps s w

/-- One more step of such a run. -/
lemma CounterRun.step {steps : List (DeployState SessionId UInt64 × DeployEvent SessionId UInt64)}
    {s s' : DeployState SessionId UInt64} {w : UInt64} {e : DeployEvent SessionId UInt64}
    (h : CounterRun steps s w) (hs : DeployStep s e s') (hguard : SingleTarget s e)
    (hplace : ∀ w', e.takesPlaceIn = some w' → w' = w) :
    CounterRun (steps ++ [(s, e)]) s' (DeployState.act (fun _ => increment) (s, e) w) :=
  AtomicRun.step h ⟨hguard, hs⟩ hplace

/-- A run in which the tests' server has been started. -/
lemma exists_counterRun : ∃ steps, CounterRun steps ⟨[addIdle [] []], []⟩ 0 := by
  have hempty : CounterRun [] ⟨[], []⟩ 0 := ⟨.init rfl, fun pre q post h => by simp at h, rfl⟩
  have hserve : DeployStep ⟨[], []⟩ (.serve addServer) ⟨[addIdle [] []], []⟩ := .serve
  exact ⟨_, hempty.step hserve trivial fun _ hw => by cases hw⟩

/-- While the tests' server waits and its counter has room, a call of `add` may be made, and return
the next number. -/
lemma CounterRun.exists_called
    {steps : List (DeployState SessionId UInt64 × DeployEvent SessionId UInt64)}
    {arrived : List Query} {completed : List (Completion SessionId UInt64)}
    {calls : List ClientCall} {w : UInt64}
    (h : CounterRun steps ⟨[addIdle arrived completed], calls⟩ w) (hroom : w.toNat + 1 < 2 ^ 64) :
    ∃ e rest arrived' completed' body call rawData,
      CounterRun (steps ++ (⟨[addIdle arrived completed], calls⟩, e) :: rest)
        ⟨[addIdle arrived' completed'], calls ++ [call]⟩ (increment w) ∧
      call.request = addGet body ∧ call.status = .took (.ok rawData) ∧
      RPCClientChannel.readReply UInt64 rawData = .ok (Response.new (increment w)) := by
  obtain ⟨body, _, hbody⟩ := exists_addBody
  have hsingle : SingleTarget ⟨[addIdle arrived completed], calls⟩
      (.call addService.channel session.zid body "add" 0 [0]) :=
    fun i hi j hj _ _ _ _ _ _ => (List.mem_singleton.mp hi).trans (List.mem_singleton.mp hj).symm
  have harrived := h.step deployStep_call_add hsingle fun _ hw => by cases hw
  have hreceived := CounterRun.step harrived
    (deployStep_receive_addIdle (dispatch_addGet body arrived.length)) trivial
    fun _ hw => by cases hw
  -- the task ends, in the world that the counter is
  have hended := CounterRun.step hreceived (deployStep_complete_addBusy _ _ w) trivial
    fun _ hw => (Option.some.inj hw).symm
  have hcompleted : CounterRun _ ⟨[addIdle (arrived ++ [(addGet body).query arrived.length])
      (completed ++ [addDone body arrived.length w])],
      calls ++ [addCall body arrived.length .waiting]⟩
      (((addTask body arrived.length).run w).invoked.foldl (fun w _ => increment w) w) := hended
  rw [foldl_addTask hbody hroom] at hcompleted
  have hreturned := CounterRun.step hcompleted (deployStep_answer_add hbody hroom _ _) trivial
    fun _ hw => by cases hw
  rw [List.append_assoc, List.append_assoc, List.append_assoc] at hreturned
  exact ⟨_, _, _, _, body, _, _, hreturned, rfl, rfl, readReply_addReply w⟩

/-- A run in which two calls of `add` have returned, one after the other, has a sequential history:
the first has raised the counter to one, the second to two. -/
theorem linearizable_add : ∃ steps s call call', ∃ r r' : Response UInt64,
    ((deployment SessionId UInt64).restrict SingleTarget).Run steps s ∧
      s.Returned 0 call r ∧ s.Returned 1 call' r' ∧ r.message = 1 ∧ r'.message = 2 ∧
      Linearizes (fun _ => increment) 0 steps s := by
  obtain ⟨_, hstart⟩ := exists_counterRun
  obtain ⟨_, _, _, _, _, call, rawData, hfirst, _, hstatus, hread⟩ :=
    hstart.exists_called (by decide)
  obtain ⟨_, _, _, _, _, call', rawData', hsecond, _, hstatus', hread'⟩ :=
    hfirst.exists_called (by decide)
  exact ⟨_, _, call, call', _, _, hsecond.run, ⟨rfl, rawData, hstatus, hread⟩,
    ⟨rfl, rawData', hstatus', hread'⟩, by decide, by decide,
    DeployState.linearizable hsecond.run hsecond.atomic⟩

end ZenohRpc
