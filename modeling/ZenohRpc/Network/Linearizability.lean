import ZenohRpc.Deployment.Linearizability
import ZenohRpc.Network.Progress

/-!
# Client methods take effect at one moment

A client method lists tokens, asks servers for their metadata and calls the one that it has found,
while servers and other clients come, go and take their own steps.  Where handlers run at one moment
and each call of `serve` is on a session of its own, all this is one atomic step on the world that
the handlers share: client methods that return responses are linearizable.

A network simulates its deployment, with the steps that run tasks shown and all others hidden.  So
the moments of client calls are moments in the network, and the order of client methods is that of
their calls.
-/

namespace ZenohRpc

open Json KeyExpr TransitionSystem

variable {ZenohId World : Type}

/-! ## The calls that client methods have made -/

/-- The call that a client method has made, if it has started and made one. -/
def NetState.madeCall (s : NetState ZenohId World) (k : ℕ) : Option SentCall :=
  (s.runs[k]?).bind MethodRun.call

/-- Where one client method is replaced by another with the same call, no call is made. -/
lemma madeCall_set {runs : List MethodRun} {j : ℕ} {run new : MethodRun}
    (hj : runs[j]? = some run) (hcall : new.call = run.call) (k : ℕ) :
    ((runs.set j new)[k]?).bind MethodRun.call = (runs[k]?).bind MethodRun.call := by
  by_cases hjk : j = k
  · subst hjk
    obtain ⟨hlt, _⟩ := List.getElem?_eq_some_iff.mp hj
    rw [List.getElem?_set_self hlt, hj, Option.bind_some, Option.bind_some, hcall]
  · rw [List.getElem?_set_ne hjk]

/-- Where one client method makes its call, no other does. -/
lemma madeCall_set_cases {runs : List MethodRun} {j : ℕ} {run new : MethodRun}
    (hj : runs[j]? = some run) (hnone : run.call = none) (k : ℕ) :
    ((runs.set j new)[k]?).bind MethodRun.call = (runs[k]?).bind MethodRun.call ∨
    (k = j ∧ (runs[k]?).bind MethodRun.call = none ∧
      ((runs.set j new)[k]?).bind MethodRun.call = new.call) := by
  by_cases hjk : j = k
  · subst hjk
    obtain ⟨hlt, _⟩ := List.getElem?_eq_some_iff.mp hj
    rw [List.getElem?_set_self hlt, hj]
    exact Or.inr ⟨rfl, hnone, rfl⟩
  · exact Or.inl (by rw [List.getElem?_set_ne hjk])

section

variable [Runtime] [Zenoh ZenohId] [DecidableEq ZenohId] {s s' : NetState ZenohId World}

/-- What a step does to the call of a client method: it leaves it, or makes one where there is none,
and one that is sent is the next call of the deployment. -/
lemma NetStep.madeCall_cases {e : NetEvent ZenohId World} (h : NetStep s e s') (k : ℕ) :
    s'.madeCall k = s.madeCall k ∨
    (s.madeCall k = none ∧ ∃ sent, s'.madeCall k = some sent ∧
      ∀ c, sent = .sent c → c = s.deploy.calls.length ∧ ∃ targets, e = .call k targets) := by
  cases h with
  | serve | declareToken | abandon | moveTokens | loop | foreign | dropServer | dropToken | reply =>
    exact Or.inl rfl
  | start =>
    refine Or.inl ?_
    simp only [NetState.madeCall]
    rcases lt_trichotomy k s.runs.length with hlt | rfl | hgt
    · rw [List.getElem?_append_left hlt]
    · rw [List.getElem?_concat_length, List.getElem?_eq_none le_rfl]
      rfl
    · rw [List.getElem?_eq_none (by simpa using hgt), List.getElem?_eq_none hgt.le]
  | list hj | ask hj | refuseAsk hj | answered hj => exact Or.inl (madeCall_set hj (by rfl) k)
  | @call j run id req targets d hj hnext hnone hreq hd =>
    rcases madeCall_set_cases hj hnone k with hsame | ⟨rfl, hbefore, hafter⟩
    · exact Or.inl hsame
    · refine Or.inr ⟨hbefore, _, hafter, fun c hc => ⟨?_, targets, rfl⟩⟩
      exact (SentCall.sent.inj hc).symm
  | notWritten hj _ hnone | refuseCall hj _ hnone =>
    rcases madeCall_set_cases hj hnone k with hsame | ⟨rfl, hbefore, hafter⟩
    · exact Or.inl hsame
    · exact Or.inr ⟨hbefore, _, hafter, fun c hc => by cases hc⟩

/-- The moves of a network are moves of its deployment. -/
lemma NetState.moves_deploy (h : (network ZenohId World).Moves s s') :
    (deployment ZenohId World).Moves s.deploy s'.deploy := by
  induction h with
  | refl => exact .refl
  | tail _ hstep ih =>
    obtain ⟨_, hs⟩ := hstep
    exact ih.trans hs.moves_deploy

/-- A call that is made stays made. -/
lemma NetState.madeCall_of_moves (h : (network ZenohId World).Moves s s') {k : ℕ} {sent : SentCall}
    (hmade : s.madeCall k = some sent) : s'.madeCall k = some sent := by
  induction h with
  | refl => exact hmade
  | tail _ hstep ih =>
    obtain ⟨e, hs⟩ := hstep
    rcases NetStep.madeCall_cases hs k with hsame | ⟨hnone, _⟩
    · rw [hsame, ih]
    · rw [ih] at hnone
      cases hnone

/-- A client method whose call is one that the deployment had before has made it before. -/
lemma NetState.madeCall_of_lt (h : (network ZenohId World).Moves s s') {k c : ℕ}
    (hmade : s'.madeCall k = some (.sent c)) (hc : c < s.deploy.calls.length) :
    s.madeCall k = some (.sent c) := by
  induction h with
  | refl => exact hmade
  | @tail s₁ s₂ hmoves hstep ih =>
    obtain ⟨e, hs⟩ := hstep
    rcases NetStep.madeCall_cases hs k with hsame | ⟨_, sent, hsent, hnew⟩
    · exact ih (hsame ▸ hmade)
    · obtain rfl := Option.some.inj (hsent.symm.trans hmade)
      have hlater := DeployState.started_of_moves (NetState.moves_deploy hmoves) hc
      exact absurd (hnew c rfl).1 hlater.ne

/-- The call of a client method is one of the deployment, with the method's request. -/
lemma NetState.exists_of_madeCall (h : (network ZenohId World).Reachable s) {k c : ℕ}
    (hmade : s.madeCall k = some (.sent c)) : ∃ run call id req, s.runs[k]? = some run ∧
      run.call = some (.sent c) ∧ run.request = .ok req ∧ s.deploy.calls[c]? = some call ∧
      call.request =
        run.client.channel.getRequest (id : ZenohId) req run.method.toString run.client.tout := by
  obtain ⟨run, hrun, hsent⟩ := Option.bind_eq_some_iff.mp hmade
  obtain ⟨id, req, call, _, hreq, hcall, hrequest⟩ :=
    ((NetState.inv_of_reachable h).runs run (List.mem_of_getElem? hrun)).called c hsent
  exact ⟨run, call, id, req, hrun, hsent, hreq, hcall, hrequest⟩

/-- No two client methods have made the same call. -/
lemma NetState.madeCall_injective (h : (network ZenohId World).Reachable s) {k k' c : ℕ}
    (hmade : s.madeCall k = some (.sent c)) (hmade' : s.madeCall k' = some (.sent c)) :
    k = k' := by
  induction h with
  | init hinit =>
    rw [hinit] at hmade
    cases hmade
  | @step s s' e hreach hs ih =>
    have hlt : ∀ {j}, s.madeCall j = some (.sent c) → c < s.deploy.calls.length := fun hj => by
      obtain ⟨_, _, _, _, _, _, _, hcall, _⟩ := NetState.exists_of_madeCall hreach hj
      exact (List.getElem?_eq_some_iff.mp hcall).1
    rcases NetStep.madeCall_cases hs k with hsame | ⟨_, sent, hsent, hnew⟩ <;>
      rcases NetStep.madeCall_cases hs k' with hsame' | ⟨_, sent', hsent', hnew'⟩
    · exact ih (hsame ▸ hmade) (hsame' ▸ hmade')
    · obtain rfl := Option.some.inj (hsent'.symm.trans hmade')
      exact absurd (hnew' c rfl).1 (hlt (hsame ▸ hmade)).ne
    · obtain rfl := Option.some.inj (hsent.symm.trans hmade)
      exact absurd (hnew c rfl).1 (hlt (hsame' ▸ hmade')).ne
    · obtain rfl := Option.some.inj (hsent.symm.trans hmade)
      obtain rfl := Option.some.inj (hsent'.symm.trans hmade')
      obtain ⟨_, targets, rfl⟩ := hnew c rfl
      obtain ⟨_, targets', heq⟩ := hnew' c rfl
      exact (NetEvent.call.inj heq).1

/-! ## The steps that run tasks -/

/-- The world that a step takes place in, if it runs a task. -/
def NetEvent.takesPlaceIn : NetEvent ZenohId World → Option World
  | .loop _ (.complete _ w) => some w
  | _ => none

/-- The steps that a network shows of its deployment: those that run tasks. -/
def NetState.shown : NetState ZenohId World × NetEvent ZenohId World →
    Option (DeployState ZenohId World × DeployEvent ZenohId World)
  | (s, .loop i (.complete j w)) => some (s.deploy, .loop i (.complete j w))
  | _ => none

/-- What a step leaves of the world, when user code leaves `effect` of it. -/
def NetState.act (effect : Invocation World → World → World)
    (q : NetState ZenohId World × NetEvent ZenohId World) (w : World) : World :=
  (NetState.shown q).elim w fun q' => DeployState.act effect q' w

/-- The user code that a step runs on a handle of a node. -/
def NetState.performed (p : ℕ × ℕ) (q : NetState ZenohId World × NetEvent ZenohId World) :
    List (Invocation World) :=
  (NetState.shown q).elim [] (DeployState.performed p)

omit [Runtime] [Zenoh ZenohId] [DecidableEq ZenohId] in
/-- A shown step is one that runs a task, in the state of the deployment. -/
lemma NetState.shown_eq_some {s : NetState ZenohId World} {e : NetEvent ZenohId World}
    {q : DeployState ZenohId World × DeployEvent ZenohId World}
    (h : NetState.shown (s, e) = some q) : ∃ i j w, e = .loop i (.complete j w) ∧
      q = (s.deploy, .loop i (.complete j w)) := by
  unfold NetState.shown at h
  split at h
  · rename_i i j w heq
    obtain ⟨rfl, rfl⟩ := Prod.mk.inj heq
    exact ⟨i, j, w, rfl, (Option.some.inj h).symm⟩
  · cases h

omit [DecidableEq ZenohId] in
/-- The shown steps leave the world that all steps leave. -/
lemma NetState.worldAfter_shown (effect : Invocation World → World → World) (w : World)
    (steps : List (NetState ZenohId World × NetEvent ZenohId World)) :
    worldAfter (DeployState.act effect) w (steps.filterMap NetState.shown) =
      worldAfter (NetState.act effect) w steps :=
  worldAfter_filterMap (fun _ _ => rfl) w steps

omit [Runtime] [Zenoh ZenohId] [DecidableEq ZenohId] in
/-- A step is shown in the state of the deployment. -/
lemma NetState.eq_of_shown {p : NetState ZenohId World × NetEvent ZenohId World}
    {q : DeployState ZenohId World × DeployEvent ZenohId World}
    (h : NetState.shown p = some q) : q.1 = p.1.deploy := by
  obtain ⟨s, e⟩ := p
  obtain ⟨i, j, w, rfl, rfl⟩ := NetState.shown_eq_some h
  rfl

/-- A network simulates its deployment, where each call of `serve` is on a session of its own: the
steps that run tasks are shown, and the others are silent. -/
lemma network_simulates : ((network ZenohId World).restrict OwnSession).Simulates
    ((deployment ZenohId World).restrict SingleTarget) DeployEvent.Silent NetState.deploy
      NetState.shown where
  init s h := by
    rw [show s = _ from h]
    rfl
  hidden s e s' hreach hs hhidden := by
    have hmoves := hs.2.moves (fun d e' => SingleTarget d e' ∧ e'.Silent)
      (fun _ _ _ _ => ⟨trivial, rfl⟩) fun e' d hd htask =>
        ⟨hd.singleTarget (NetState.distinctSessions hreach), by
          unfold DeployEvent.Silent DeployEvent.takesPlaceIn
          split
          · rename_i i j w
            rw [htask i j w rfl] at hhidden
            cases hhidden
          · rfl⟩
    exact hmoves.restrict_restrict
  step s e s' q hreach hs hshown := by
    obtain ⟨i, j, w, rfl, rfl⟩ := NetState.shown_eq_some hshown
    refine ⟨rfl, ?_⟩
    cases hs.2 with
    | loop _ _ _ hd => exact ⟨trivial, hd⟩

omit [DecidableEq ZenohId] in
/-- What the steps of a trace of the deployment do not run, those of the network do not run. -/
lemma NetState.performed_eq_nil {steps : List (NetState ZenohId World × NetEvent ZenohId World)}
    {p : ℕ × ℕ} (h : ∀ q ∈ steps.filterMap NetState.shown, DeployState.performed p q = []) :
    ∀ q ∈ steps, NetState.performed p q = [] := by
  intro q hq
  unfold NetState.performed
  cases hshown : NetState.shown q with
  | none => rfl
  | some q' => exact h q' (List.mem_filterMap.mpr ⟨q, hq, hshown⟩)

/-! ## The moments of client methods -/

/-- The handles of all queries of a client method. -/
def MethodRun.handles (run : MethodRun) (calls : List ClientCall) : List (ℕ × ℕ) :=
  run.asked ++ run.callHandles calls

/-- A client method has returned a response. -/
structure NetState.Returned (s : NetState ZenohId World) (k : ℕ) (run : MethodRun) {U : Type}
    [Serde U] (r : Response U) : Prop where
  started : s.runs[k]? = some run
  result : run.result ZenohId U s.deploy.calls = some (.ok r)

/-- A step of a run at which a client method takes effect, and the steps before it and after it.
The method has started and not returned.  On a server that qualifies, the step runs user code once,
in the world that the steps before it have left: there the client's service returns the response to
the client's own request.  No other step runs user code for the method, its discovery included. -/
structure MethodTakesEffect (effect : Invocation World → World → World) (w₀ : World)
    (s : NetState ZenohId World) (k : ℕ) (run : MethodRun) {U : Type} [Serde U] (r : Response U)
    (pre : List (NetState ZenohId World × NetEvent ZenohId World))
    (step : NetState ZenohId World × NetEvent ZenohId World)
    (post : List (NetState ZenohId World × NetEvent ZenohId World)) : Prop where
  running : ∃ run₀, step.1.runs[k]? = some run₀ ∧
    run₀.result ZenohId U step.1.deploy.calls = none
  performed : ∃ p ∈ run.handles s.deploy.calls, ∃ n inv, step.1.deploy.nodes[p.1]? = some n ∧
    n.server.Qualifies run.client ∧
    n.server.RespondsTo run (worldAfter (NetState.act effect) w₀ pre) inv U r ∧
    NetState.performed p step = [inv] ∧
    worldAfter (NetState.act effect) w₀ (pre ++ [step]) =
      effect inv (worldAfter (NetState.act effect) w₀ pre)
  once : ∀ q ∈ pre ++ post, ∀ p ∈ run.handles s.deploy.calls, NetState.performed p q = []

variable {effect : Invocation World → World → World} {w₀ : World}
  {steps pre post : List (NetState ZenohId World × NetEvent ZenohId World)}
  {step : NetState ZenohId World × NetEvent ZenohId World} {k : ℕ} {run : MethodRun} {U : Type}
  [Serde U] {r : Response U}

/-- A client method that has returned a response has it from its call. -/
lemma NetState.Returned.exists_called (h : s.Returned k run r) :
    ∃ c call, run.call = some (.sent c) ∧ s.madeCall k = some (.sent c) ∧
      s.deploy.Returned c call r := by
  obtain ⟨c, call, rawData, hsent, hcall, hstatus, hread⟩ := MethodRun.took_of_result h.result
  refine ⟨c, call, hsent, ?_, hcall, rawData, hstatus, hread⟩
  rw [NetState.madeCall, h.started, Option.bind_some, hsent]

/-- The call of a client method that has returned a response has taken effect at one step of the
run. -/
lemma NetState.Returned.exists_takesEffect (hreturned : s.Returned k run r)
    (h : ((network ZenohId World).restrict OwnSession).Run steps s)
    (hatomic : Atomic (NetState.act effect) NetEvent.takesPlaceIn w₀ steps) :
    ∃ c call pre step q post, steps = pre ++ step :: post ∧ NetState.shown step = some q ∧
      run.call = some (.sent c) ∧ s.madeCall k = some (.sent c) ∧ s.deploy.Returned c call r ∧
      TakesEffect effect w₀ c call r (pre.filterMap NetState.shown) q
        (post.filterMap NetState.shown) := by
  obtain ⟨c, call, hsent, hmade, hcalled⟩ := hreturned.exists_called
  have hplace : ∀ (p : NetState ZenohId World × NetEvent ZenohId World) q,
      NetState.shown p = some q → q.2.takesPlaceIn = p.2.takesPlaceIn := by
    rintro ⟨d, e⟩ q hq
    obtain ⟨i, j, w, rfl, rfl⟩ := NetState.shown_eq_some hq
    rfl
  obtain ⟨pre', q, post', hsplit, heffect⟩ := hcalled.exists_takesEffect (network_simulates.trace h)
    (hatomic.filterMap (fun _ _ => rfl) hplace)
  obtain ⟨pre, step, post, rfl, rfl, hq, rfl⟩ := exists_of_filterMap_eq hsplit
  exact ⟨c, call, pre, step, q, post, rfl, hq, hsent, hmade, hcalled, heffect⟩

/-- A client method whose call waits has not returned. -/
lemma MethodRun.result_of_waiting {run : MethodRun} {c : ℕ} (hsent : run.call = some (.sent c))
    {calls : List ClientCall} {call : ClientCall} (hcall : calls[c]? = some call)
    (hwaiting : call.status = .waiting) : run.result ZenohId U calls = none := by
  simp only [MethodRun.result, hsent, hcall, Option.map_some, hwaiting]

/-- A client method was running when its call waited. -/
lemma NetState.exists_running {s₀ : NetState ZenohId World}
    (hmoves : (network ZenohId World).Moves s₀ s) {c : ℕ} {call₀ : ClientCall}
    (hmade : s.madeCall k = some (.sent c)) (hcall₀ : s₀.deploy.calls[c]? = some call₀)
    (hwaiting : call₀.status = .waiting) (U : Type) [Serde U] :
    ∃ run₀, s₀.runs[k]? = some run₀ ∧ run₀.result ZenohId U s₀.deploy.calls = none := by
  have hmade₀ := NetState.madeCall_of_lt hmoves hmade (List.getElem?_eq_some_iff.mp hcall₀).1
  obtain ⟨run₀, hrun₀, hsent₀⟩ := Option.bind_eq_some_iff.mp hmade₀
  exact ⟨run₀, hrun₀, MethodRun.result_of_waiting hsent₀ hcall₀ hwaiting⟩

/-- The moment of the call of a client method is a moment of the client method. -/
lemma NetState.Returned.takesEffect (hreturned : s.Returned k run r)
    (h : ((network ZenohId World).restrict OwnSession).Run (pre ++ step :: post) s) {c : ℕ}
    {call : ClientCall} {q : DeployState ZenohId World × DeployEvent ZenohId World}
    (hshown : NetState.shown step = some q) (hsent : run.call = some (.sent c))
    (hmade : s.madeCall k = some (.sent c)) (hcalled : s.deploy.Returned c call r)
    (heffect : TakesEffect effect w₀ c call r (pre.filterMap NetState.shown) q
      (post.filterMap NetState.shown)) :
    MethodTakesEffect effect w₀ s k run r pre step post := by
  have hreach := h.reachable
  have hinv := NetState.inv_of_reachable hreach.of_restrict
  have htraced := DeployState.traced_of_reachable (network_refines.reachable hreach.of_restrict)
  have hdeploy := DeployState.inv_of_reachable (network_refines_singleTarget.reachable hreach)
  have hmem := List.mem_of_getElem? hreturned.started
  have hcall := List.mem_of_getElem? hcalled.started
  have htrace : ((network ZenohId World).restrict OwnSession).Trace (fun _ => False) _ s := h.trace
  have hmoves := htrace.of_append.2.of_restrict
  have hhandles : run.handles s.deploy.calls = run.asked ++ call.delivered := by
    rw [MethodRun.handles, MethodRun.callHandles, hsent]
    simp only [hcalled.started, Option.map_some, Option.getD_some]
  have hsame : ∀ p, NetState.performed p step = DeployState.performed p q := fun p => by
    rw [NetState.performed, hshown, Option.elim_some]
  have hview := NetState.eq_of_shown hshown
  obtain ⟨p, hp, n₀, svc, payload, method, inv, m, hn₀, hcalls, hmethod, hservice, hbody,
    hperformed, hworld⟩ := heffect.performed
  rw [hview] at hn₀
  have hran : s.deploy.ran p ≠ [] := by
    rw [DeployState.ran_eq_performed (network_simulates.trace h), List.filterMap_append,
      List.filterMap_cons_some hshown, List.flatMap_append, List.flatMap_cons, hperformed]
    simp
  refine ⟨?_, ⟨p, ?_, n₀, inv, hn₀, ?_, ?_, ?_, ?_⟩, ?_⟩
  · obtain ⟨call₀, hcall₀, hwaiting⟩ := heffect.waiting
    rw [hview] at hcall₀
    exact NetState.exists_running hmoves hmade hcall₀ hwaiting U
  · rw [hhandles]
    exact List.mem_append_right _ hp
  · -- the server that ran user code for the call is the one that qualifies
    obtain ⟨p', n, e, inv', hresponded, hqualifies⟩ :=
      NetState.exists_qualifies hreach hmem hreturned.result
    obtain ⟨c', call', _, hsent', hcall', _, _, hreplied⟩ := hresponded.took
    have hran' := hreplied.ran_eq
    rw [hresponded.invoked] at hran'
    obtain rfl := SentCall.sent.inj (Option.some.inj (hsent.symm.trans hsent'))
    obtain rfl := Option.some.inj (hcalled.started.symm.trans hcall')
    obtain rfl := hdeploy.eq_of_ran hcall hp hreplied.delivered hran (by simp [hran'])
    obtain ⟨n', hn', hext⟩ :=
      (DeployState.extends_of_moves (NetState.moves_deploy hmoves)).nodes _ n₀ hn₀
    obtain rfl := Option.some.inj (hreplied.node.symm.trans hn')
    rw [← hext.server]
    exact hqualifies
  · obtain ⟨id, req, call', _, hreq, hcall', hrequest⟩ := (hinv.runs run hmem).called c hsent
    obtain rfl := Option.some.inj (hcalled.started.symm.trans hcall')
    rw [hrequest] at hcalls hmethod
    rw [← NetState.worldAfter_shown]
    exact hcalls.respondsTo hreq hmethod hservice hbody
  · rw [hsame, hperformed]
  · rw [← NetState.worldAfter_shown, ← NetState.worldAfter_shown, List.filterMap_append,
      List.filterMap_cons_some hshown]
    exact hworld
  · intro q' hq' p' hp'
    rw [hhandles] at hp'
    rcases List.mem_append.mp hp' with hasked | hdelivered
    · -- discovery runs no user code
      have hnone := List.flatMap_eq_nil_iff.mp (NetState.ran_asked hinv htraced hmem) p' hasked
      rw [DeployState.ran_eq_performed (network_simulates.trace h)] at hnone
      exact NetState.performed_eq_nil (List.flatMap_eq_nil_iff.mp hnone) q'
        (((List.sublist_cons_self step post).append_left pre).subset hq')
    · have honce : ∀ x ∈ (pre ++ post).filterMap NetState.shown, DeployState.performed p' x = [] :=
        fun x hx => heffect.once x (by rwa [← List.filterMap_append]) p' hdelivered
      exact NetState.performed_eq_nil honce q' hq'

/-! ## The order of client methods -/

variable {pre' post' : List (NetState ZenohId World × NetEvent ZenohId World)}
  {step' : NetState ZenohId World × NetEvent ZenohId World} {c c' k' : ℕ} {call call' : ClientCall}
  {q q' : DeployState ZenohId World × DeployEvent ZenohId World} {U' : Type} [Serde U']
  {r' : Response U'}

/-- Two calls take effect at different steps of a network. -/
lemma NetState.length_ne (h : ((network ZenohId World).restrict OwnSession).Run steps s)
    (hsplit : steps = pre ++ step :: post) (hsplit' : steps = pre' ++ step' :: post')
    (hshown : NetState.shown step = some q) (hshown' : NetState.shown step' = some q')
    (hcalled : s.deploy.Returned c call r) (hcalled' : s.deploy.Returned c' call' r')
    (heffect : TakesEffect effect w₀ c call r (pre.filterMap NetState.shown) q
      (post.filterMap NetState.shown))
    (heffect' : TakesEffect effect w₀ c' call' r' (pre'.filterMap NetState.shown) q'
      (post'.filterMap NetState.shown)) (hne : c ≠ c') : pre.length ≠ pre'.length := by
  intro hlen
  obtain ⟨rfl, hrest⟩ := List.append_inj (hsplit.symm.trans hsplit') hlen
  obtain ⟨rfl, rfl⟩ := List.cons.inj hrest
  have hseen : steps.filterMap NetState.shown =
      pre.filterMap NetState.shown ++ q :: post.filterMap NetState.shown := by
    rw [hsplit, List.filterMap_append, List.filterMap_cons_some hshown]
  obtain rfl := Option.some.inj (hshown.symm.trans hshown')
  exact heffect.length_ne (network_simulates.trace h).of_restrict hseen hseen heffect' hne
    hcalled.started hcalled'.started rfl

/-- A client method that has returned a response before another starts takes effect before it. -/
lemma NetState.length_lt (h : ((network ZenohId World).restrict OwnSession).Run steps s)
    (hsplit : steps = pre ++ step :: post) (hsplit' : steps = pre' ++ step' :: post')
    (hshown : NetState.shown step = some q) (hshown' : NetState.shown step' = some q')
    (hmade : s.madeCall k = some (.sent c)) (hmade' : s.madeCall k' = some (.sent c'))
    (heffect : TakesEffect effect w₀ c call r (pre.filterMap NetState.shown) q
      (post.filterMap NetState.shown))
    (heffect' : TakesEffect effect w₀ c' call' r' (pre'.filterMap NetState.shown) q'
      (post'.filterMap NetState.shown))
    {p : NetState ZenohId World × NetEvent ZenohId World} (hp : p ∈ steps) {run₀ : MethodRun}
    (hreturned : p.1.Returned k run₀ r) (hnew : p.1.runs.length ≤ k') :
    pre.length < pre'.length := by
  have htrace : (network ZenohId World).Trace (fun _ => False) steps s := h.trace.of_restrict
  obtain ⟨before, after, hsteps⟩ := List.append_of_mem hp
  obtain ⟨call₀, hcall₀, hwaiting⟩ := heffect.waiting
  obtain ⟨call₁, hcall₁, _⟩ := heffect'.waiting
  rw [NetState.eq_of_shown hshown] at hcall₀
  rw [NetState.eq_of_shown hshown'] at hcall₁
  have hfirst : pre.length < before.length := by
    obtain ⟨c₀, call₂, _, hmade₀, hcalled₀⟩ := hreturned.exists_called
    obtain rfl : c₀ = c := by
      rw [hsteps] at htrace
      have hstill := NetState.madeCall_of_moves htrace.of_append.2 hmade₀
      exact SentCall.sent.inj (Option.some.inj (hstill.symm.trans hmade))
    exact htrace.length_lt_of_stays
      (fun _ _ hmoves => DeployState.Returned.stays (NetState.moves_deploy hmoves)) hsplit hsteps
      (fun hback => hback.not_waiting hcall₀ hwaiting) hcalled₀
  have hsecond : before.length < pre'.length := by
    have hnone : p.1.madeCall k' ≠ some (.sent c') := by
      rw [NetState.madeCall, List.getElem?_eq_none hnew]
      simp
    rw [hsplit'] at htrace
    have hmade₁ := NetState.madeCall_of_lt htrace.of_append.2 hmade'
      (List.getElem?_eq_some_iff.mp hcall₁).1
    rw [← hsplit'] at htrace
    exact htrace.length_lt_of_stays (fun _ _ hmoves => NetState.madeCall_of_moves hmoves) hsteps
      hsplit' hnone hmade₁
  exact hfirst.trans hsecond

/-- Whether a step runs user code for a client method. -/
def MethodRun.performedBy (run : MethodRun) (calls : List ClientCall)
    (q : NetState ZenohId World × NetEvent ZenohId World) : Bool :=
  (run.handles calls).any fun p => !(NetState.performed p q).isEmpty

/-- The place in a run of the first step that runs user code for a client method. -/
def MethodRun.moment (run : MethodRun) (calls : List ClientCall)
    (steps : List (NetState ZenohId World × NetEvent ZenohId World)) : ℕ :=
  steps.findIdx (run.performedBy calls)

/-- The step at which a client method takes effect stands at its moment. -/
lemma MethodTakesEffect.moment_eq (h : MethodTakesEffect effect w₀ s k run r pre step post) :
    run.moment s.deploy.calls (pre ++ step :: post) = pre.length := by
  have hbefore : ∀ q ∈ pre, run.performedBy s.deploy.calls q = false := fun q hq =>
    List.any_eq_false.mpr fun p hp => by
      simp [h.once q (List.mem_append_left _ hq) p hp]
  have hstep : run.performedBy s.deploy.calls step = true := by
    obtain ⟨p, hp, _, _, _, _, _, hperformed, _⟩ := h.performed
    exact List.any_eq_true.mpr ⟨p, hp, by simp [hperformed]⟩
  exact findIdx_append_cons hbefore hstep

/-- The moment of a client method that has returned a response is that of its call. -/
lemma NetState.Returned.exists_moment (hreturned : s.Returned k run r)
    (h : ((network ZenohId World).restrict OwnSession).Run steps s)
    (hatomic : Atomic (NetState.act effect) NetEvent.takesPlaceIn w₀ steps) :
    ∃ c call pre step q post, steps = pre ++ step :: post ∧ NetState.shown step = some q ∧
      s.madeCall k = some (.sent c) ∧ s.deploy.Returned c call r ∧
      TakesEffect effect w₀ c call r (pre.filterMap NetState.shown) q
        (post.filterMap NetState.shown) ∧
      run.moment s.deploy.calls steps = pre.length ∧
      MethodTakesEffect effect w₀ s k run r pre step post := by
  obtain ⟨c, call, pre, step, q, post, rfl, hshown, hsent, hmade, hcalled, heffect⟩ :=
    hreturned.exists_takesEffect h hatomic
  have hmethod := hreturned.takesEffect h hshown hsent hmade hcalled heffect
  exact ⟨c, call, pre, step, q, post, rfl, hshown, hmade, hcalled, heffect, hmethod.moment_eq,
    hmethod⟩

/-- The moments at which client methods take effect make a sequential history of a run.  Every
client method that has returned a response has taken effect at its moment; no two have the same; and
one that has returned a response before another starts comes before it. -/
structure MethodsLinearize (effect : Invocation World → World → World) (w₀ : World)
    (steps : List (NetState ZenohId World × NetEvent ZenohId World))
    (s : NetState ZenohId World) : Prop where
  takesEffect : ∀ (k : ℕ) (run : MethodRun) (U : Type) [Serde U] (r : Response U),
    s.Returned k run r → ∃ pre step post, steps = pre ++ step :: post ∧
      run.moment s.deploy.calls steps = pre.length ∧
        MethodTakesEffect effect w₀ s k run r pre step post
  distinct : ∀ (k k' : ℕ) (run run' : MethodRun) (U U' : Type) [Serde U] [Serde U']
    (r : Response U) (r' : Response U'), s.Returned k run r → s.Returned k' run' r' → k ≠ k' →
      run.moment s.deploy.calls steps ≠ run'.moment s.deploy.calls steps
  realTime : ∀ (k k' : ℕ) (run run' : MethodRun) (U U' : Type) [Serde U] [Serde U']
    (r : Response U) (r' : Response U'), s.Returned k run r → s.Returned k' run' r' →
      ∀ p ∈ steps, ∀ run₀, p.1.Returned k run₀ r → p.1.runs.length ≤ k' →
        run.moment s.deploy.calls steps < run'.moment s.deploy.calls steps

/-- Client methods, with their discovery, are linearizable where handlers run at one moment and each
call of `serve` is on a session of its own: every run of a network has a sequential history. -/
theorem NetState.methods_linearizable
    (h : ((network ZenohId World).restrict OwnSession).Run steps s)
    (hatomic : Atomic (NetState.act effect) NetEvent.takesPlaceIn w₀ steps) :
    MethodsLinearize effect w₀ steps s where
  takesEffect k run U _ r hreturned := by
    obtain ⟨_, _, pre, step, _, post, hsplit, _, _, _, _, hmoment, hmethod⟩ :=
      hreturned.exists_moment h hatomic
    exact ⟨pre, step, post, hsplit, hmoment, hmethod⟩
  distinct k k' run run' U U' _ _ r r' hreturned hreturned' hne := by
    obtain ⟨c, call, pre, step, q, post, hsplit, hshown, hmade, hcalled, heffect, hmoment, _⟩ :=
      hreturned.exists_moment h hatomic
    obtain ⟨c', call', pre', step', q', post', hsplit', hshown', hmade', hcalled', heffect',
      hmoment', _⟩ := hreturned'.exists_moment h hatomic
    rw [hmoment, hmoment']
    refine NetState.length_ne h hsplit hsplit' hshown hshown' hcalled hcalled' heffect heffect' ?_
    rintro rfl
    exact hne (NetState.madeCall_injective h.reachable.of_restrict hmade hmade')
  realTime k k' run run' U U' _ _ r r' hreturned hreturned' p hp run₀ hbefore hnew := by
    obtain ⟨c, call, pre, step, q, post, hsplit, hshown, hmade, _, heffect, hmoment, _⟩ :=
      hreturned.exists_moment h hatomic
    obtain ⟨c', call', pre', step', q', post', hsplit', hshown', hmade', _, heffect', hmoment',
      _⟩ := hreturned'.exists_moment h hatomic
    rw [hmoment, hmoment']
    exact NetState.length_lt h hsplit hsplit' hshown hshown' hmade hmade' heffect heffect' hp
      hbefore hnew

end

/-! ## Two client methods on the tests' counter -/

open Reference

/-- The token that the tests' server declares. -/
def addToken : String := addServer.tokenKe helloClient.serviceIdent.toString

/-- A network of the tests' server with its counter, up and waiting. -/
def addUp (arrived : List Query) (completed : List (Completion SessionId UInt64))
    (calls : List ClientCall) (runs : List MethodRun) : NetState SessionId UInt64 :=
  ⟨⟨[addIdle arrived completed], calls⟩, [⟨.serving, [addToken]⟩], runs⟩

/-- A run of a network on the tests' counter, from zero to the number that it has come to. -/
abbrev CounterNet (steps : List (NetState SessionId UInt64 × NetEvent SessionId UInt64))
    (s : NetState SessionId UInt64) (w : UInt64) : Prop :=
  AtomicRun ((network SessionId UInt64).restrict OwnSession) (NetState.act fun _ => increment)
    NetEvent.takesPlaceIn 0 steps s w

section

variable {steps : List (NetState SessionId UInt64 × NetEvent SessionId UInt64)}
  {arrived : List Query} {completed : List (Completion SessionId UInt64)}
  {calls : List ClientCall} {runs : List MethodRun} {w : UInt64}

/-- One more step of such a run. -/
lemma CounterNet.step {s s' : NetState SessionId UInt64} {e : NetEvent SessionId UInt64}
    (h : CounterNet steps s w) (hs : NetStep s e s') (hguard : OwnSession s e)
    (hplace : ∀ w', e.takesPlaceIn = some w' → w' = w) :
    CounterNet (steps ++ [(s, e)]) s' (NetState.act (fun _ => increment) (s, e) w) :=
  AtomicRun.step h ⟨hguard, hs⟩ hplace

/-- A run in which the tests' server has come up. -/
lemma exists_counterNet : ∃ steps, CounterNet steps (addUp [] [] [] []) 0 := by
  have hempty : CounterNet [] ⟨⟨[], []⟩, [], []⟩ 0 :=
    ⟨.init rfl, fun pre q post h => by simp at h, rfl⟩
  have hserve : NetStep ⟨⟨[], []⟩, [], []⟩ (.serve addServer [helloClient.serviceIdent.toString])
      ⟨⟨[addIdle [] []], []⟩, [⟨.declaring [helloClient.serviceIdent.toString], []⟩], []⟩ :=
    .serve (.refl _)
  have hserved := hempty.step hserve (by simp [OwnSession]) fun _ hw => by cases hw
  have hdeclare : NetStep
      ⟨⟨[addIdle [] []], []⟩, [⟨.declaring [helloClient.serviceIdent.toString], []⟩], []⟩
      (.declareToken 0) _ := .declareToken rfl rfl
  have hdeclared := CounterNet.step hserved hdeclare trivial fun _ hw => by cases hw
  have hmove : NetStep ⟨⟨[addIdle [] []], []⟩, [⟨.declaring [], [addToken]⟩], []⟩
      (.moveTokens 0) (addUp [] [] [] []) := .moveTokens rfl
  exact ⟨_, CounterNet.step hdeclared hmove trivial fun _ hw => by cases hw⟩

/-- A query that the waiting server has got is served, and the counter is what its task leaves. -/
lemma CounterNet.exists_served {req : GetRequest} {fut : ServerTask SessionId UInt64} {w' : UInt64}
    (h : CounterNet steps ⟨⟨[(addIdle arrived completed).deliver req], calls⟩,
      [⟨.serving, [addToken]⟩], runs⟩ w)
    (hfut : addServer.dispatch (req.query arrived.length) = .ok fut)
    (hact : (fut.run w).invoked.foldl (fun w _ => increment w) w = w') :
    ∃ steps', CounterNet steps' (addUp (arrived ++ [req.query arrived.length])
      (completed ++ [(spawned (req.query arrived.length) fut).complete w]) calls runs) w' := by
  have hreceive : NetStep ⟨⟨[(addIdle arrived completed).deliver req], calls⟩,
      [⟨.serving, [addToken]⟩], runs⟩ (.loop 0 .receive)
      ⟨⟨[addBusy arrived completed (req.query arrived.length) fut], calls⟩,
        [⟨.serving, [addToken]⟩], runs⟩ :=
    .loop rfl (by simp) trivial (deployStep_receive_addIdle hfut)
  have hreceived := h.step hreceive trivial fun _ hw => by cases hw
  have hcomplete : NetStep ⟨⟨[addBusy arrived completed (req.query arrived.length) fut], calls⟩,
      [⟨.serving, [addToken]⟩], runs⟩ (.loop 0 (.complete 0 w))
      (addUp (arrived ++ [req.query arrived.length])
        (completed ++ [(spawned (req.query arrived.length) fut).complete w]) calls runs) :=
    .loop rfl (by simp) trivial (deployStep_complete_addBusy _ _ w)
  have hcompleted := CounterNet.step hreceived hcomplete trivial
    fun _ hw => (Option.some.inj hw).symm
  have hworld : NetState.act (fun _ => increment)
      ((⟨⟨[addBusy arrived completed (req.query arrived.length) fut], calls⟩,
        [⟨.serving, [addToken]⟩], runs⟩ : NetState SessionId UInt64),
        .loop 0 (.complete 0 w)) w = w' := hact
  rw [← hworld]
  exact ⟨_, hcompleted⟩

/-- The client method of `add` that starts. -/
def addStarted : MethodRun :=
  .start helloClient add.ident (serialize (Request.new addRequest)) (debug (Request.new addRequest))

/-- The client method of `add` that has been listed the token of the tests' server. -/
def addHeard : MethodRun := { addStarted with listed := some (.ok [.ok addToken]) }

/-- A client method may start, and be listed the waiting server. -/
lemma CounterNet.exists_heard (h : CounterNet steps (addUp arrived completed calls runs) w) :
    ∃ steps', CounterNet steps' (addUp arrived completed calls (runs ++ [addHeard])) w := by
  have hset : (runs ++ [addStarted]).set runs.length addHeard = runs ++ [addHeard] := by simp
  have hstart : NetStep (addUp arrived completed calls runs) (.start helloClient add.ident
      (serialize (Request.new addRequest)) (debug (Request.new addRequest)))
      (addUp arrived completed calls (runs ++ [addStarted])) := .start
  have hstarted := h.step hstart trivial fun _ hw => by cases hw
  have hlist : NetStep (addUp arrived completed calls (runs ++ [addStarted]))
      (.list runs.length (.ok [.ok addToken])) (addUp arrived completed calls
        ((runs ++ [addStarted]).set runs.length addHeard)) :=
    .list List.getElem?_concat_length rfl fun kes hkes ke hke => by
      obtain rfl := Except.ok.inj hkes
      obtain rfl := Except.ok.inj (List.mem_singleton.mp hke)
      exact ⟨helloClient.intersects_rpcKe addServer, _, List.mem_singleton_self _,
        List.mem_singleton_self _⟩
  have hheard := CounterNet.step hstarted hlist trivial fun _ hw => by cases hw
  rw [hset] at hheard
  exact ⟨_, hheard⟩

/-- The client method of `add` that waits for the metadata of the tests' server. -/
def addAsking (k : ℕ) : MethodRun :=
  { addHeard with
    asking := some [(0, k)]
    asked := [(0, k)] }

/-- The client method of `add` that has found the tests' server. -/
def addFound (k : ℕ) : MethodRun :=
  { addHeard with
    answers := [.ok [.ok (metadataReply session.zid)]]
    asked := [(0, k)] }

/-- The client method of `add` that has called the tests' server. -/
def addCalled (k c : ℕ) : MethodRun := { addFound k with call := some (.sent c) }

/-- What the tests' server has done for a metadata query. -/
def metadataDone (k : ℕ) (w : UInt64) : Completion SessionId UInt64 :=
  (spawned ((metadataRequest session.zid 0).query k)
    (.serverMetadata addServer.labels addServer.instanceUuid)).complete w

/-- A client method that has been listed the waiting server may find it. -/
lemma CounterNet.exists_found
    (h : CounterNet steps (addUp arrived completed calls (runs ++ [addHeard])) w) :
    ∃ steps' arrived' completed' k,
      CounterNet steps' (addUp arrived' completed' calls (runs ++ [addFound k])) w := by
  have hset : ∀ run run' : MethodRun, (runs ++ [run]).set runs.length run' = runs ++ [run'] := by
    simp
  -- the client method asks for the server's metadata
  have hnext : addHeard.next SessionId = .ask session.zid := helloClient.next_listed addServer
  have hke : Intersects addServer.queryableKe ((metadataRequest session.zid 0).query 0).keyExpr :=
    (intersects_metadataRequest session.zid 0).mpr rfl
  have hask : NetStep (addUp arrived completed calls (runs ++ [addHeard])) (.ask runs.length [0])
      ⟨⟨[(addIdle arrived completed).deliver (metadataRequest session.zid 0)], calls⟩,
        [⟨.serving, [addToken]⟩],
        (runs ++ [addHeard]).set runs.length (addAsking arrived.length)⟩ :=
    .ask List.getElem?_concat_length hnext rfl ⟨List.nodup_singleton 0, gets_addIdle hke⟩
  have hasked := h.step hask trivial fun _ hw => by cases hw
  rw [hset] at hasked
  -- the server replies with it
  have hfut : addServer.dispatch ((metadataRequest session.zid 0).query arrived.length) = .ok _ :=
    Server.dispatch_of_dispatched (.metadata (getToken_metadataRequest ..))
  obtain ⟨_, hserved⟩ := CounterNet.exists_served hasked hfut rfl
  have hreply : (metadataDone arrived.length w).reply = some ⟨arrived.length,
      ((metadataRequest session.zid 0).query arrived.length).keyExpr,
      metadataReply session.zid⟩ := rfl
  have hsent : ∀ rawData, .ok rawData ∈ ([.ok (metadataReply session.zid)] : List GetReply) →
      ∃ target ∈ [(0, arrived.length)], ∃ n : Node SessionId UInt64,
        [addIdle (arrived ++ [(metadataRequest session.zid 0).query arrived.length])
          (completed ++ [metadataDone arrived.length w])][target.1]? = some n ∧
        ∃ r ∈ n.loop.replies, r.handle = target.2 ∧ r.sample = rawData := fun rawData hraw =>
    ⟨(0, arrived.length), List.mem_singleton_self _, _, rfl, _,
      List.mem_filterMap.mpr ⟨_, List.mem_append_right completed (List.mem_singleton_self _),
        hreply⟩, rfl, (Except.ok.inj (List.mem_singleton.mp hraw)).symm⟩
  have hanswer : NetStep
      (addUp (arrived ++ [(metadataRequest session.zid 0).query arrived.length])
        (completed ++ [metadataDone arrived.length w]) calls (runs ++ [addAsking arrived.length]))
      (.answered runs.length [.ok (metadataReply session.zid)]) _ :=
    .answered List.getElem?_concat_length rfl hsent
  have hfound : CounterNet _
      (addUp (arrived ++ [(metadataRequest session.zid 0).query arrived.length])
        (completed ++ [metadataDone arrived.length w]) calls
        ((runs ++ [addAsking arrived.length]).set runs.length (addFound arrived.length))) w :=
    CounterNet.step hserved hanswer trivial fun _ hw => by cases hw
  rw [hset] at hfound
  exact ⟨_, _, _, _, hfound⟩

/-- A client method that has found the waiting server may call it, and return the next number, if
the counter has room. -/
lemma CounterNet.exists_called {k : ℕ}
    (h : CounterNet steps (addUp arrived completed calls (runs ++ [addFound k])) w)
    (hroom : w.toNat + 1 < 2 ^ 64) :
    ∃ steps' arrived' completed' run call rawData,
      CounterNet steps' (addUp arrived' completed' (calls ++ [call]) (runs ++ [run]))
        (increment w) ∧
      run.call = some (.sent calls.length) ∧ call.status = .took (.ok rawData) ∧
      RPCClientChannel.readReply UInt64 rawData = .ok (Response.new (increment w)) := by
  obtain ⟨body, hwritten, hbody⟩ := exists_addBody
  have hset : ∀ run run' : MethodRun, (runs ++ [run]).set runs.length run' = runs ++ [run'] := by
    simp
  -- the client method calls the server
  have hnext : (addFound k).next SessionId = .call session.zid :=
    ServiceClient.next_answered (Finset.empty_subset addServer.labels)
  have hcall : NetStep (addUp arrived completed calls (runs ++ [addFound k]))
      (.call runs.length [0]) _ :=
    .call List.getElem?_concat_length hnext rfl hwritten deployStep_call_add
  have hcalled : CounterNet _ ⟨⟨[(addIdle arrived completed).deliver (addGet body)],
      calls ++ [addCall body arrived.length .waiting]⟩, [⟨.serving, [addToken]⟩],
      (runs ++ [addFound k]).set runs.length (addCalled k calls.length)⟩ w :=
    h.step hcall trivial fun _ hw => by cases hw
  rw [hset] at hcalled
  -- the server runs the handler, in the world that the counter is
  obtain ⟨_, hserved⟩ := CounterNet.exists_served hcalled (dispatch_addGet body arrived.length)
    (foldl_addTask hbody hroom _)
  -- the client method takes the reply
  have hreplied : NetStep (addUp (arrived ++ [(addGet body).query arrived.length])
      (completed ++ [addDone body arrived.length w])
      (calls ++ [addCall body arrived.length .waiting]) (runs ++ [addCalled k calls.length]))
      (.reply (.answer calls.length (0, arrived.length))) _ :=
    .reply trivial (deployStep_answer_add hbody hroom _ _)
  have hreturned := CounterNet.step hserved hreplied trivial fun _ hw => by cases hw
  exact ⟨_, _, _, _, _, _, hreturned, rfl, rfl, readReply_addReply w⟩

/-- While the tests' server waits and its counter has room, a client method of `add` may start, find
the server, and return the next number. -/
lemma CounterNet.exists_returned (h : CounterNet steps (addUp arrived completed calls runs) w)
    (hroom : w.toNat + 1 < 2 ^ 64) :
    ∃ steps' arrived' completed' run call rawData,
      CounterNet steps' (addUp arrived' completed' (calls ++ [call]) (runs ++ [run]))
        (increment w) ∧
      run.call = some (.sent calls.length) ∧ call.status = .took (.ok rawData) ∧
      RPCClientChannel.readReply UInt64 rawData = .ok (Response.new (increment w)) := by
  obtain ⟨_, hheard⟩ := h.exists_heard
  obtain ⟨_, _, _, _, hfound⟩ := CounterNet.exists_found hheard
  exact CounterNet.exists_called hfound hroom

end

/-- A run in which two client methods of `add` have returned, one after the other, has a sequential
history: the first has raised the counter to one, the second to two. -/
theorem methods_linearizable_add : ∃ steps s run run', ∃ r r' : Response UInt64,
    ((network SessionId UInt64).restrict OwnSession).Run steps s ∧
      s.Returned 0 run r ∧ s.Returned 1 run' r' ∧ r.message = 1 ∧ r'.message = 2 ∧
      MethodsLinearize (fun _ => increment) 0 steps s := by
  obtain ⟨_, hstart⟩ := exists_counterNet
  obtain ⟨_, _, _, run, call, rawData, hfirst, hsent, hstatus, hread⟩ :=
    hstart.exists_returned (by decide)
  obtain ⟨_, _, _, run', call', rawData', hsecond, hsent', hstatus', hread'⟩ :=
    CounterNet.exists_returned hfirst (by decide)
  have hreturned : ∀ deploy setups, NetState.Returned
      (⟨⟨deploy, [call, call']⟩, setups, [run, run']⟩ : NetState SessionId UInt64) 0 run
        (Response.new (increment 0)) := fun _ _ => ⟨rfl, by
    rw [MethodRun.result, hsent]
    simp [hstatus, hread]⟩
  have hreturned' : ∀ deploy setups, NetState.Returned
      (⟨⟨deploy, [call, call']⟩, setups, [run, run']⟩ : NetState SessionId UInt64) 1 run'
        (Response.new (increment (increment 0))) := fun _ _ => ⟨rfl, by
    rw [MethodRun.result, hsent']
    simp [hstatus', hread']⟩
  exact ⟨_, _, run, run', _, _, hsecond.run, hreturned _ _, hreturned' _ _, by decide, by decide,
    NetState.methods_linearizable hsecond.run hsecond.atomic⟩

end ZenohRpc
