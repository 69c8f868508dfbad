import ZenohRpc.Deployment.Linearizability

/-!
# No update is lost

The `add` of the tests in `zrpc-derive/tests/service.rs` counts its calls under a lock and returns
the count; the tests call it three times and are told 1, 2 and 3.  Any number of clients may call
such a method at the same time, on any schedule: no two are told the same number, a call that starts
after another has returned is told a larger one, and no call is told more than the count has come
to.
-/

namespace ZenohRpc

open Json KeyExpr TransitionSystem

variable {ZenohId World : Type}

section

variable [Runtime] [Zenoh ZenohId] {effect : Invocation World → World → World}
  {count : World → ℕ}

/-- A method of a service counts: when it returns a message, its user code has raised the count by
one, and the message says what the count is then. -/
def Counts (effect : Invocation World → World → World) (count : World → ℕ) (svc : Service World)
    (method : String) {U : Type} [Serde U] (value : U → ℕ) : Prop :=
  ∀ w payload inv m, svc.call w (callMessage method payload) = ⟨[inv], .returned (.ok m)⟩ →
    count (effect inv w) = count w + 1 ∧
      ∀ u, deserialize U m.body = .ok u → value u = count w + 1

/-- A method of a generated service counts, if its handler does. -/
lemma GeneratedService.counts {svc : GeneratedService World} {me : ServiceMethod World}
    (hme : me ∈ svc.methods) {value : me.Resp → ℕ}
    (hhandler : ∀ w req resp, me.handler w req = .returned (.ok resp) →
      count (effect (.handler me req) w) = count w + 1 ∧ value resp.message = count w + 1 ∧
        RoundTrips maxDepth resp.message) :
    Counts effect count (.generated svc) me.ident.toString value := by
  intro w payload inv m hcall
  have harm : (Service.generated svc).call w (callMessage me.ident.toString payload) =
      me.arm w payload := svc.call_of_mem hme w rfl
  rw [harm] at hcall
  rcases me.arm_cases w payload with ⟨_, hpanic⟩ | ⟨req, _, hruns⟩
  · rw [hpanic] at hcall
    cases hcall
  · obtain ⟨hinvoked, houtcome⟩ := Exec.mk.inj (hruns.symm.trans hcall)
    obtain rfl := List.singleton_inj.mp hinvoked
    cases hresult : me.handler w req with
    | panicked =>
      rw [hresult] at houtcome
      cases houtcome
    | returned res =>
      rw [hresult] at houtcome
      cases res with
      | error e => cases houtcome
      | ok resp =>
        cases houtcome
        obtain ⟨hcount, hvalue, hround⟩ := hhandler w req resp hresult
        refine ⟨hcount, fun u hu => ?_⟩
        obtain ⟨raw, hraw, hread⟩ := deserialize_serialize hround
        rw [Response.toMessage, hraw] at hu
        obtain rfl := Except.ok.inj (hread.symm.trans hu)
        exact hvalue

/-- The method that a client call is for counts, on every server that may get the call. -/
def DeployState.Counting (s : DeployState ZenohId World)
    (effect : Invocation World → World → World) (count : World → ℕ) (call : ClientCall) {U : Type}
    [Serde U] (value : U → ℕ) : Prop :=
  ∀ n ∈ s.nodes, ∀ svc payload method, CallsService n.server (call.request.query 0) svc payload →
    getToken (call.request.query 0).keyExpr 4 = some method → Counts effect count svc method value

/-- A step does not lower the count, if no user code does. -/
lemma DeployState.le_act (heffect : ∀ inv w, count w ≤ count (effect inv w))
    (q : DeployState ZenohId World × DeployEvent ZenohId World) (w : World) :
    count w ≤ count (DeployState.act effect q w) := by
  unfold DeployState.act
  cases DeployState.ended q with
  | none => exact le_rfl
  | some x => exact le_foldl (fun w inv => heffect inv w) w _

variable {w₀ : World}
  {steps pre post pre' post' : List (DeployState ZenohId World × DeployEvent ZenohId World)}
  {step step' : DeployState ZenohId World × DeployEvent ZenohId World}
  {s : DeployState ZenohId World} {c c' : ℕ} {call call' : ClientCall} {U U' : Type} [Serde U]
  [Serde U'] {r : Response U} {r' : Response U'} {value : U → ℕ} {value' : U' → ℕ}

/-- A call that counts is told the count that its own step has left. -/
lemma TakesEffect.value_eq (h : TakesEffect effect w₀ c call r pre step post)
    (htrace : (deployment ZenohId World).Trace DeployEvent.Silent (pre ++ step :: post) s)
    (hcounts : s.Counting effect count call value) :
    value r.message = count (worldAfter (DeployState.act effect) w₀ pre) + 1 ∧
      count (worldAfter (DeployState.act effect) w₀ (pre ++ [step])) = value r.message := by
  obtain ⟨p, _, n, svc, payload, method, inv, m, hn, hcalls, hmethod, hservice, hbody, _, hworld⟩ :=
    h.performed
  obtain ⟨n', hn', hext⟩ := (DeployState.extends_of_moves htrace.of_append.2).nodes _ n hn
  obtain ⟨hcount, hvalue⟩ := hcounts n' (List.mem_of_getElem? hn') svc payload method
    (hext.server ▸ hcalls) hmethod _ payload inv m hservice
  rw [hworld, hcount]
  exact ⟨hvalue _ hbody, (hvalue _ hbody).symm⟩

/-- A call that counts is told less than one that takes effect later. -/
lemma TakesEffect.value_lt (heffect : ∀ inv w, count w ≤ count (effect inv w))
    (h : TakesEffect effect w₀ c call r pre step post)
    (h' : TakesEffect effect w₀ c' call' r' pre' step' post')
    (htrace : (deployment ZenohId World).Trace DeployEvent.Silent steps s)
    (hsplit : steps = pre ++ step :: post) (hsplit' : steps = pre' ++ step' :: post')
    (hcounts : s.Counting effect count call value)
    (hcounts' : s.Counting effect count call' value') (hlt : pre.length < pre'.length) :
    value r.message < value' r'.message := by
  obtain ⟨_, hleft⟩ := h.value_eq (hsplit ▸ htrace) hcounts
  obtain ⟨htold, _⟩ := h'.value_eq (hsplit' ▸ htrace) hcounts'
  have hprefix : pre ++ [step] <+: steps := ⟨post, by simp [hsplit]⟩
  obtain ⟨mid, rfl⟩ := List.prefix_of_prefix_length_le hprefix
    (hsplit' ▸ List.prefix_append pre' _) (by simpa using hlt)
  have hle := le_foldl (fun w q => DeployState.le_act heffect q w)
    (worldAfter (DeployState.act effect) w₀ (pre ++ [step])) mid
  rw [htold, worldAfter_append, ← hleft]
  exact Nat.lt_succ_of_le hle

/-- No update is lost, where handlers run at one moment, no client call reaches two nodes that run
user code for it, and no user code lowers the count.  A call that counts is told a number between
the count at the start and the count at the end; no two are told the same; and one that starts when
another has returned is told more. -/
theorem DeployState.no_lost_update
    (hrun : ((deployment ZenohId World).restrict SingleTarget).Run steps s)
    (hatomic : Atomic (DeployState.act effect) DeployEvent.takesPlaceIn w₀ steps)
    (heffect : ∀ inv w, count w ≤ count (effect inv w)) (hreturned : s.Returned c call r)
    (hcounts : s.Counting effect count call value) (hreturned' : s.Returned c' call' r')
    (hcounts' : s.Counting effect count call' value') :
    (count w₀ < value r.message ∧
      value r.message ≤ count (worldAfter (DeployState.act effect) w₀ steps)) ∧
    (c ≠ c' → value r.message ≠ value' r'.message) ∧
    ∀ q ∈ steps, q.1.Returned c call r → q.1.calls.length ≤ c' →
      value r.message < value' r'.message := by
  obtain ⟨pre, step, post, hsplit, h⟩ := hreturned.exists_takesEffect hrun.trace hatomic
  obtain ⟨pre', step', post', hsplit', h'⟩ := hreturned'.exists_takesEffect hrun.trace hatomic
  have hplain : (deployment ZenohId World).Trace DeployEvent.Silent steps s :=
    hrun.trace.of_restrict
  refine ⟨⟨?_, ?_⟩, fun hne => ?_, fun q hq hbefore hnew => ?_⟩
  · have hle := le_foldl (fun w q => DeployState.le_act heffect q w) w₀ pre
    rw [(h.value_eq (hsplit ▸ hplain) hcounts).1]
    exact Nat.lt_succ_of_le hle
  · have hsteps : steps = pre ++ [step] ++ post := by rw [hsplit, List.append_cons]
    rw [← (h.value_eq (hsplit ▸ hplain) hcounts).2, hsteps,
      worldAfter_append _ _ (pre ++ [step])]
    exact le_foldl (fun w q => DeployState.le_act heffect q w) _ post
  · have hlength := h.length_ne hplain hsplit hsplit' h' hne hreturned.started hreturned'.started
    rcases lt_or_gt_of_ne hlength with hlt | hgt
    · exact (h.value_lt heffect h' hplain hsplit hsplit' hcounts hcounts' hlt).ne
    · exact (h'.value_lt heffect h hplain hsplit' hsplit hcounts' hcounts hgt).ne'
  · have hlt := h.length_lt hplain hsplit hsplit' h' hq hbefore hnew
    exact h.value_lt heffect h' hplain hsplit hsplit' hcounts hcounts' hlt

end

/-! ## The `add` of the tests -/

open Reference

/-- The method `add` counts. -/
lemma counts_add :
    Counts (fun _ => increment) UInt64.toNat (.generated addService) "add" UInt64.toNat := by
  refine addService.counts mem_addService fun w req resp hresp => ?_
  have hhandler : add.handler w req =
      if w.toNat + 1 < 2 ^ 64 then .returned (.ok (Response.new (w + 1))) else .panicked := rfl
  rw [hhandler] at hresp
  split at hresp
  · rename_i hroom
    cases hresp
    have hnext : (w + 1).toNat = w.toNat + 1 := by
      rw [← toNat_increment hroom, increment, if_pos hroom]
    exact ⟨toNat_increment hroom, hnext, (roundTrips_uint64 (w + 1)).mono (by decide)⟩
  · cases hresp

/-- On the tests' server, the method that a call of `add` is for counts. -/
lemma counting_addGet {arrived : List Query} {completed : List (Completion SessionId UInt64)}
    {calls : List ClientCall} {call : ClientCall} {body : Bytes}
    (hcall : call.request = addGet body) :
    DeployState.Counting ⟨[addIdle arrived completed], calls⟩ (fun _ => increment) UInt64.toNat call
      UInt64.toNat := by
  intro n hn svc payload method hcalls hmethod
  rw [List.mem_singleton.mp hn, hcall] at hcalls
  rw [hcall] at hmethod
  have hadd : getToken ((addGet body).query 0).keyExpr 4 = some "add" :=
    getToken_getRequest addService add session.zid body 0 0
  obtain rfl := Option.some.inj (hadd.symm.trans hmethod)
  -- the query is for the service that it is handed to
  have hdispatch : addServer.dispatch _ = .ok _ := Server.dispatch_of_dispatched (.service hcalls)
  rw [dispatch_addGet] at hdispatch
  cases hdispatch
  exact counts_add

/-- The second of two calls of `add`, one after the other, is told more than the first. -/
theorem no_lost_update_add : ∃ steps s call call', ∃ r r' : Response UInt64,
    ((deployment SessionId UInt64).restrict SingleTarget).Run steps s ∧ s.Returned 0 call r ∧
      s.Returned 1 call' r' ∧ r.message.toNat < r'.message.toNat := by
  obtain ⟨_, hstart⟩ := exists_counterRun
  obtain ⟨_, _, _, completed, body, call, rawData, hfirst, hrequest, hstatus, hread⟩ :=
    hstart.exists_called (by decide)
  obtain ⟨e, rest, _, _, body', call', rawData', hsecond, hrequest', hstatus', hread'⟩ :=
    hfirst.exists_called (by decide)
  have hincrement : ∀ (_ : Invocation UInt64) (w : UInt64), w.toNat ≤ (increment w).toNat := by
    intro _ w
    by_cases hroom : w.toNat + 1 < 2 ^ 64
    · rw [toNat_increment hroom]
      exact Nat.le_succ _
    · rw [increment, if_neg hroom]
  have hreturned : ∀ nodes : List (Node SessionId UInt64),
      DeployState.Returned ⟨nodes, [call, call']⟩ 0 call (Response.new (increment 0)) :=
    fun _ => ⟨rfl, rawData, hstatus, hread⟩
  have hreturned' : ∀ nodes : List (Node SessionId UInt64),
      DeployState.Returned ⟨nodes, [call, call']⟩ 1 call'
        (Response.new (increment (increment 0))) :=
    fun _ => ⟨rfl, rawData', hstatus', hread'⟩
  have htold := DeployState.no_lost_update hsecond.run hsecond.atomic hincrement (hreturned _)
    (counting_addGet hrequest) (hreturned' _) (counting_addGet hrequest')
  exact ⟨_, _, call, call', _, _, hsecond.run, hreturned _, hreturned' _,
    htold.2.2 _ (List.mem_append_right _ List.mem_cons_self) ⟨rfl, rawData, hstatus, hread⟩ le_rfl⟩

end ZenohRpc
