import ZenohRpc.Network.Progress
import Mathlib.Data.Prod.Lex

/-!
# A network comes to rest

What was started in a network comes to an end, in whatever order the steps are taken and whatever
fails: servers declare their tokens and work off the queries that arrive, clients list tokens, ask
for metadata and make their calls.  Unless servers or clients go on being started, or others go on
sending queries, only finitely many steps can follow; and where none is left that is no failure,
every client method has returned, and no server has a query or a task left.

A client method that lists tokens may find any number of them.  Once it has, it has a bounded number
of queries to make, each of which gives every server a bounded number of steps.
-/

namespace ZenohRpc

open Json TransitionSystem

variable {ZenohId World : Type}

/-! ## Sums over lists -/

/-- Where one element is replaced, a sum changes by what the two contribute. -/
lemma sum_map_set {α : Type*} {l : List α} {i : ℕ} {a : α} (h : l[i]? = some a) (b : α)
    (f : α → ℕ) : ((l.set i b).map f).sum + f a = (l.map f).sum + f b := by
  induction l generalizing i with
  | nil => cases h
  | cons c l ih =>
    cases i with
    | zero =>
      obtain rfl := Option.some.inj h
      simp only [List.set_cons_zero, List.map_cons, List.sum_cons]
      omega
    | succ i =>
      have hrest := ih (i := i) h
      simp only [List.set_cons_succ, List.map_cons, List.sum_cons]
      omega

/-- Where each element grows by a bounded amount, a sum does. -/
lemma sum_map_mapIdx_le {α : Type*} {f : ℕ → α → α} {g : α → ℕ} {c : ℕ}
    (h : ∀ i a, g (f i a) ≤ g a + c) (l : List α) :
    ((l.mapIdx f).map g).sum ≤ (l.map g).sum + c * l.length := by
  induction l generalizing f with
  | nil => simp
  | cons a l ih =>
    have hhead := h 0 a
    have hrest := ih (f := fun i => f (i + 1)) fun i b => h (i + 1) b
    simp only [List.mapIdx_cons, List.map_cons, List.sum_cons, List.length_cons, Nat.mul_succ]
    omega

/-! ## What is left to do -/

/-- What is left to a loop: it may go, and each query and each task is work. -/
def LoopState.weight (s : LoopState ZenohId World) : ℕ :=
  s.remaining + match s.status with
    | .receiving => 1
    | _ => 0

/-- What is left to a call of `serve` besides its loop: a token to declare and to drop for each
name, the move of the tokens to the server, and the end of the server. -/
def Setup.weight (st : Setup) : ℕ :=
  st.tokens.length + match st.phase with
    | .declaring ks => 2 * ks.length + 2
    | .serving => 1
    | .ended => 0

/-- What is left to a call: its first reply. -/
def ClientCall.weight (call : ClientCall) : ℕ :=
  match call.status with
  | .waiting => 1
  | _ => 0

/-- How many answers to metadata queries a client method still needs, at most. -/
def MethodRun.asksLeft (run : MethodRun) : ℕ :=
  match run.listed with
  | some (.ok res) => (res.filterMap Except.toOption).length - run.answers.length
  | _ => 0

/-- What is left to a client method that has listed tokens, where there are `n` servers: its queries
for metadata, and its call.  Each is handed to the servers and answered. -/
def MethodRun.weight (n : ℕ) (run : MethodRun) : ℕ :=
  (match run.asking with
    | none => (2 * n + 2) * run.asksLeft
    | some _ => (2 * n + 2) * (run.asksLeft - 1) + 1) +
  match run.call with
  | none => 2 * n + 2
  | some _ => 0

/-- Whether a client method has not listed tokens yet, as a number. -/
def MethodRun.unlisted (run : MethodRun) : ℕ := if run.listed.isNone then 1 else 0

/-- How many client methods have not listed tokens yet. -/
def NetState.unlisted (s : NetState ZenohId World) : ℕ := (s.runs.map MethodRun.unlisted).sum

/-- What is left to do in a network, besides what client methods do that have not listed tokens. -/
def NetState.weight (s : NetState ZenohId World) : ℕ :=
  (s.deploy.nodes.map fun n => n.loop.weight).sum + (s.setups.map Setup.weight).sum +
    (s.deploy.calls.map ClientCall.weight).sum +
      (s.runs.map (MethodRun.weight s.deploy.nodes.length)).sum

/-- The rank of a network: listing tokens weighs more than any work. -/
def NetState.rank (s : NetState ZenohId World) : ℕ ×ₗ ℕ := toLex (s.unlisted, s.weight)

/-- What happens in a network when nothing is started from outside. -/
def NetEvent.Internal : NetEvent ZenohId World → Prop
  | .serve _ _ => False
  | .start _ _ _ _ => False
  | .foreign _ _ _ => False
  | _ => True

/-! ## The work of a loop -/

section

variable [Runtime] [Zenoh ZenohId]

/-- A step that a loop takes lowers its weight. -/
lemma ServeStep.weight_lt {srv : Server ZenohId World} {s s' : LoopState ZenohId World}
    {l : LoopEvent World} (hl : l.Own) (h : ServeStep srv s l s') : s'.weight < s.weight := by
  have hremaining : l.Internal → s'.remaining < s.remaining := fun hi => h.remaining_lt hi
  cases h with
  | arrive => exact hl.elim
  | receive hstatus =>
    have hlt := hremaining trivial
    simp only [LoopState.weight, hstatus]
    split <;> omega
  | receiveError hstatus | cancel hstatus =>
    simp only [LoopState.weight, LoopState.remaining, hstatus, List.length_nil]
    omega
  | complete =>
    have hlt := hremaining trivial
    simp only [LoopState.weight]
    omega

omit [Runtime] [Zenoh ZenohId] in
/-- A query that arrives is work for two steps. -/
lemma Node.weight_deliver (req : GetRequest) (n : Node ZenohId World) :
    (n.deliver req).loop.weight = n.loop.weight + 2 := by
  simp only [Node.deliver, LoopState.arrive, LoopState.weight, LoopState.remaining,
    List.length_append, List.length_singleton]
  omega

omit [Runtime] [Zenoh ZenohId] in
/-- A query is work for two steps on each server, at most. -/
lemma DeployState.weight_deliver_le (d : DeployState ZenohId World) (req : GetRequest)
    (targets : List ℕ) : ((d.deliver req targets).map fun n => n.loop.weight).sum ≤
      (d.nodes.map fun n => n.loop.weight).sum + 2 * d.nodes.length := by
  refine sum_map_mapIdx_le (fun i n => ?_) d.nodes
  split
  · exact (Node.weight_deliver req n).le
  · exact Nat.le_add_right _ _

end

/-! ## The work of a client method -/

/-- Reading a list keeps its length. -/
lemma length_of_mapM_ok {α β ε : Type} {f : α → Except ε β} {as : List α} {bs : List β}
    (h : as.mapM f = .ok bs) : bs.length = as.length := by
  induction as generalizing bs with
  | nil =>
    rw [List.mapM_nil] at h
    rw [← Except.ok.inj h]
    rfl
  | cons a as ih =>
    rw [List.mapM_cons] at h
    cases ha : f a with
    | error e => rw [ha] at h; cases h
    | ok b =>
      cases has : as.mapM f with
      | error e => rw [ha, has] at h; cases h
      | ok bs' =>
        rw [ha, has] at h
        rw [← Except.ok.inj h, List.length_cons, List.length_cons, ih has]

section

variable {run : MethodRun} {n : ℕ}

/-- A client method that goes on and keeps its listing changes nothing about who has listed. -/
lemma sum_unlisted_set {runs : List MethodRun} {k : ℕ} {new : MethodRun}
    (hk : runs[k]? = some run) (hsame : new.listed = run.listed) :
    ((runs.set k new).map MethodRun.unlisted).sum = (runs.map MethodRun.unlisted).sum := by
  have hsum := sum_map_set hk new MethodRun.unlisted
  have heq : new.unlisted = run.unlisted := by rw [MethodRun.unlisted, hsame, MethodRun.unlisted]
  omega

/-- An answer that a client method gets is one less for it to need. -/
lemma MethodRun.asksLeft_answers (run : MethodRun) (answer : Except String (List GetReply))
    (asking : Option (List (ℕ × ℕ))) :
    { run with answers := run.answers ++ [answer], asking := asking }.asksLeft =
      run.asksLeft - 1 := by
  cases hlisted : run.listed with
  | none => simp only [MethodRun.asksLeft, hlisted, Nat.zero_sub]
  | some l =>
    cases l with
    | error e => simp only [MethodRun.asksLeft, hlisted, Nat.zero_sub]
    | ok res =>
      simp only [MethodRun.asksLeft, hlisted, List.length_append, List.length_singleton,
        Nat.sub_add_eq]

/-- A query for metadata costs more than what it makes the servers do. -/
lemma MethodRun.weight_ask (hasking : run.asking = none) (hleft : 0 < run.asksLeft)
    (handles asked : List (ℕ × ℕ)) :
    { run with asking := some handles, asked := asked }.weight n + 2 * n < run.weight n := by
  obtain ⟨a, ha⟩ := Nat.exists_eq_succ_of_ne_zero hleft.ne'
  have hsame : { run with asking := some handles, asked := asked }.asksLeft = run.asksLeft := rfl
  simp only [MethodRun.weight, hasking, hsame, ha, Nat.succ_sub_one, Nat.mul_succ]
  omega

/-- An answer that was asked for ends a query. -/
lemma MethodRun.weight_answered {handles : List (ℕ × ℕ)} (hasking : run.asking = some handles)
    (answer : Except String (List GetReply)) :
    { run with answers := run.answers ++ [answer], asking := none }.weight n < run.weight n := by
  simp only [MethodRun.weight, hasking, run.asksLeft_answers answer none]
  omega

/-- A query that is refused is one query less. -/
lemma MethodRun.weight_refuseAsk (hasking : run.asking = none) (hleft : 0 < run.asksLeft)
    (answer : Except String (List GetReply)) :
    { run with answers := run.answers ++ [answer] }.weight n < run.weight n := by
  obtain ⟨a, ha⟩ := Nat.exists_eq_succ_of_ne_zero hleft.ne'
  simp only [MethodRun.weight, hasking, run.asksLeft_answers answer none, ha, Nat.succ_sub_one,
    Nat.mul_succ]
  omega

/-- A call costs more than what it makes the servers do. -/
lemma MethodRun.weight_call (hcall : run.call = none) (sent : SentCall) :
    { run with call := some sent }.weight n + (2 * n + 2) = run.weight n := by
  have hsame : { run with call := some sent }.asksLeft = run.asksLeft := rfl
  simp only [MethodRun.weight, hcall, hsame]
  omega

end

section

variable [Runtime] [Zenoh ZenohId] [DecidableEq ZenohId]

/-- A client method that asks on has an id left, and one that has ids left does not list. -/
lemma ServiceClient.nextAsk_spec {client : ServiceClient} {ids rest : List ZenohId}
    {answers : List (Except String (List GetReply))} {totMetadata : List (ServerMetadata ZenohId)} :
    client.nextAsk ids rest answers totMetadata ≠ .list ∧
      ∀ id, client.nextAsk ids rest answers totMetadata = .ask id →
        answers.length < rest.length := by
  induction rest generalizing answers totMetadata with
  | nil =>
    rw [ServiceClient.nextAsk, ServiceClient.select]
    split <;> simp
  | cons id rest ih =>
    cases answers with
    | nil => simp [ServiceClient.nextAsk]
    | cons answer answers =>
      cases answer with
      | error e => simp [ServiceClient.nextAsk]
      | ok data =>
        rw [ServiceClient.nextAsk]
        exact ⟨ih.1, fun id' hask => Nat.succ_lt_succ (ih.2 id' hask)⟩

/-- A client method that lists tokens has not done so. -/
lemma MethodRun.listed_of_next {run : MethodRun} (h : run.next ZenohId = .list) :
    run.listed = none := by
  rw [MethodRun.next] at h
  cases hlisted : run.listed with
  | none => rfl
  | some l =>
    rw [hlisted] at h
    cases l with
    | error e => cases h
    | ok res =>
      simp only [ServiceClient.next] at h
      split at h
      · cases h
      · exact absurd h ServiceClient.nextAsk_spec.1

/-- A client method that asks for metadata needs the answer. -/
lemma MethodRun.asksLeft_of_next {run : MethodRun} {id : ZenohId} (h : run.next ZenohId = .ask id) :
    0 < run.asksLeft := by
  rw [MethodRun.next] at h
  cases hlisted : run.listed with
  | none =>
    rw [hlisted] at h
    cases h
  | some l =>
    rw [hlisted] at h
    cases l with
    | error e => cases h
    | ok res =>
      simp only [ServiceClient.next] at h
      split at h
      · cases h
      · rename_i ids hids
        have hlt := ServiceClient.nextAsk_spec.2 id h
        rw [length_of_mapM_ok hids] at hlt
        simp only [MethodRun.asksLeft, hlisted]
        omega

/-! ## Every step is work -/

omit [DecidableEq ZenohId] in
/-- A step that the loop of a node takes lowers what is left to the nodes. -/
lemma DeployStep.weight_loop_lt {d d' : DeployState ZenohId World} {i : ℕ} {l : LoopEvent World}
    (hl : l.Own) (h : DeployStep d (.loop i l) d') : d'.calls = d.calls ∧
      d'.nodes.length = d.nodes.length ∧ (d'.nodes.map fun n => n.loop.weight).sum <
        (d.nodes.map fun n => n.loop.weight).sum := by
  cases h with
  | @loop _ n _ loop' hn hs =>
    have hlt := hs.weight_lt hl
    have hsum := sum_map_set hn { n with loop := loop' } fun n => n.loop.weight
    refine ⟨rfl, List.length_set, ?_⟩
    dsimp only at hsum ⊢
    omega

omit [DecidableEq ZenohId] in
/-- A step that ends a call lowers what is left to the calls. -/
lemma DeployStep.weight_calls_lt {d d' : DeployState ZenohId World}
    {e : DeployEvent ZenohId World} (he : e.EndsCall) (h : DeployStep d e d') :
    d'.nodes = d.nodes ∧
      (d'.calls.map ClientCall.weight).sum < (d.calls.map ClientCall.weight).sum := by
  have hended : ∀ {c : ℕ} {call : ClientCall} (status : CallStatus), d.calls[c]? = some call →
      call.status = .waiting → ClientCall.weight { call with status := status } = 0 →
      ((d.calls.set c { call with status := status }).map ClientCall.weight).sum <
        (d.calls.map ClientCall.weight).sum := by
    intro c call status hcall hwaiting hzero
    have hsum := sum_map_set hcall { call with status := status } ClientCall.weight
    have hone : call.weight = 1 := by rw [ClientCall.weight, hwaiting]
    omega
  cases h with
  | answer hcall hwaiting => exact ⟨rfl, hended _ hcall hwaiting rfl⟩
  | refuse hcall hwaiting => exact ⟨rfl, hended _ hcall hwaiting rfl⟩
  | noReply hcall hwaiting => exact ⟨rfl, hended _ hcall hwaiting rfl⟩
  | serve | loop | call => exact he.elim

variable {s s' : NetState ZenohId World} {e : NetEvent ZenohId World}

/-- Every step that is not started from outside lowers the rank of a network. -/
lemma NetStep.rank_lt (he : e.Internal) (h : NetStep s e s') : s'.rank < s.rank := by
  rw [NetState.rank, NetState.rank, Prod.Lex.toLex_lt_toLex]
  cases h with
  | serve | start | foreign => exact he.elim
  | @declareToken i n k ks ts hn hst =>
    have hsum := sum_map_set hst ⟨.declaring ks, ts ++ [n.server.tokenKe k]⟩ Setup.weight
    refine Or.inr ⟨rfl, ?_⟩
    simp only [NetState.weight, Setup.weight, List.length_cons, List.length_append,
      List.length_nil] at hsum ⊢
    omega
  | @moveTokens i ts hst =>
    have hsum := sum_map_set hst ⟨.serving, ts⟩ Setup.weight
    refine Or.inr ⟨rfl, ?_⟩
    simp only [NetState.weight, Setup.weight, List.length_nil] at hsum ⊢
    omega
  | @abandon i ks ts d hst hd =>
    have hsum := sum_map_set hst ⟨.ended, ts⟩ Setup.weight
    obtain ⟨hcalls, hlength, hlt⟩ := hd.weight_loop_lt (l := .cancel) trivial
    refine Or.inr ⟨rfl, ?_⟩
    simp only [NetState.weight, Setup.weight, hcalls, hlength] at hsum ⊢
    omega
  | @dropServer i n ts hst =>
    have hsum := sum_map_set hst ⟨.ended, ts⟩ Setup.weight
    refine Or.inr ⟨rfl, ?_⟩
    simp only [NetState.weight, Setup.weight] at hsum ⊢
    omega
  | @dropToken i t ts hst =>
    have hsum := sum_map_set hst ⟨.ended, ts⟩ Setup.weight
    refine Or.inr ⟨rfl, ?_⟩
    simp only [NetState.weight, Setup.weight, List.length_cons] at hsum ⊢
    omega
  | @loop i l st d hst _ hown hd =>
    obtain ⟨hcalls, hlength, hlt⟩ := hd.weight_loop_lt hown
    refine Or.inr ⟨rfl, ?_⟩
    simp only [NetState.weight, hcalls, hlength]
    omega
  | @list k run res hk hnext =>
    have hsum := sum_map_set hk { run with listed := some res } MethodRun.unlisted
    have hone : run.unlisted = 1 := by
      rw [MethodRun.unlisted, MethodRun.listed_of_next hnext]
      rfl
    have hzero : { run with listed := some res }.unlisted = 0 := rfl
    refine Or.inl ?_
    simp only [NetState.unlisted]
    omega
  | @ask k run id targets hk hnext hasking =>
    have hsum := sum_map_set hk { run with
      asking := some (s.deploy.handles targets)
      asked := run.asked ++ s.deploy.handles targets } (MethodRun.weight s.deploy.nodes.length)
    have hcosts := MethodRun.weight_ask (n := s.deploy.nodes.length) hasking
      (MethodRun.asksLeft_of_next hnext) (s.deploy.handles targets)
      (run.asked ++ s.deploy.handles targets)
    have hnodes := s.deploy.weight_deliver_le (metadataRequest id run.client.tout) targets
    have hlength : (s.deploy.deliver (metadataRequest id run.client.tout) targets).length =
        s.deploy.nodes.length := List.length_mapIdx
    refine Or.inr ⟨sum_unlisted_set hk rfl, ?_⟩
    simp only [NetState.weight, hlength]
    omega
  | @refuseAsk k run id e hk hnext hasking =>
    have hsum := sum_map_set hk { run with answers := run.answers ++ [.error e] }
      (MethodRun.weight s.deploy.nodes.length)
    have hcosts := MethodRun.weight_refuseAsk (n := s.deploy.nodes.length) hasking
      (MethodRun.asksLeft_of_next hnext) (.error e)
    refine Or.inr ⟨sum_unlisted_set hk rfl, ?_⟩
    simp only [NetState.weight]
    omega
  | @answered k run handles data hk hasking =>
    have hsum := sum_map_set hk { run with answers := run.answers ++ [.ok data], asking := none }
      (MethodRun.weight s.deploy.nodes.length)
    have hcosts := MethodRun.weight_answered (n := s.deploy.nodes.length) hasking (.ok data)
    refine Or.inr ⟨sum_unlisted_set hk rfl, ?_⟩
    simp only [NetState.weight]
    omega
  | @call k run id req targets d hk hnext hcall hreq hd =>
    have hsum := sum_map_set hk { run with call := some (.sent s.deploy.calls.length) }
      (MethodRun.weight s.deploy.nodes.length)
    have hcosts := MethodRun.weight_call (n := s.deploy.nodes.length) hcall
      (.sent s.deploy.calls.length)
    refine Or.inr ⟨sum_unlisted_set hk rfl, ?_⟩
    cases hd
    have hnodes := s.deploy.weight_deliver_le (run.client.channel.getRequest id req
      run.method.toString run.client.tout) targets
    have hlength : (s.deploy.deliver (run.client.channel.getRequest id req run.method.toString
      run.client.tout) targets).length = s.deploy.nodes.length := List.length_mapIdx
    simp only [NetState.weight, hlength, List.map_append, List.sum_append, List.map_singleton,
      List.sum_singleton, ClientCall.weight]
    omega
  | @notWritten k run id e hk hnext hcall =>
    have hsum := sum_map_set hk { run with call := some (.unsent e) }
      (MethodRun.weight s.deploy.nodes.length)
    have hcosts := MethodRun.weight_call (n := s.deploy.nodes.length) hcall (.unsent e)
    refine Or.inr ⟨sum_unlisted_set hk rfl, ?_⟩
    simp only [NetState.weight]
    omega
  | @refuseCall k run id req e hk hnext hcall =>
    have hsum := sum_map_set hk { run with call := some (.unsent (.zenohError e)) }
      (MethodRun.weight s.deploy.nodes.length)
    have hcosts := MethodRun.weight_call (n := s.deploy.nodes.length) hcall
      (.unsent (.zenohError e))
    refine Or.inr ⟨sum_unlisted_set hk rfl, ?_⟩
    simp only [NetState.weight]
    omega
  | reply hends hd =>
    obtain ⟨hnodes, hlt⟩ := hd.weight_calls_lt hends
    refine Or.inr ⟨rfl, ?_⟩
    simp only [NetState.weight, hnodes]
    omega

/-! ## At rest -/

/-- What happens in a network when nothing is started from outside and nothing fails: no setup is
abandoned, no loop is left, no server is dropped, and zenoh refuses no query. -/
def NetEvent.Regular : NetEvent ZenohId World → Prop
  | .declareToken _ => True
  | .moveTokens _ => True
  | .dropToken _ => True
  | .loop _ l => l.Internal
  | .list _ (.ok _) => True
  | .ask _ _ => True
  | .answered _ _ => True
  | .call _ _ => True
  | .notWritten _ => True
  | .reply _ => True
  | _ => False

omit [Runtime] [Zenoh ZenohId] [DecidableEq ZenohId] in
/-- A regular step is not started from outside. -/
lemma NetEvent.Regular.internal (h : e.Regular) : e.Internal := by
  cases e with
  | serve | start | foreign => exact h.elim
  | declareToken | abandon | moveTokens | loop | dropServer | dropToken | list | ask | refuseAsk
  | answered | call | notWritten | refuseCall | reply => trivial

/-- A network is at rest: every client method has returned, every call of `serve` has come to its
loop or ended before, what was to be dropped is dropped, and no loop has a query or a task left. -/
structure NetState.AtRest (s : NetState ZenohId World) : Prop where
  returned : ∀ run ∈ s.runs, ∀ (U : Type) [Serde U], ∃ res : Except Status (Response U),
    run.result ZenohId U s.deploy.calls = some res
  declared : ∀ st ∈ s.setups, ∀ ks, st.phase ≠ .declaring ks
  dropped : ∀ st ∈ s.setups, st.phase = .ended → st.tokens = []
  drained : ∀ n ∈ s.deploy.nodes,
    (n.loop.status = .receiving → n.loop.queue = []) ∧ n.loop.pending = []

/-- A client method that has not returned can go on, or its call can end. -/
lemma NetState.Inv.exists_step (hinv : s.Inv) {k : ℕ} {run : MethodRun}
    (hk : s.runs[k]? = some run) {U : Type} [Serde U]
    (hnone : run.result ZenohId U s.deploy.calls = none) : ∃ e s', e.Regular ∧ NetStep s e s' := by
  have hrun := hinv.runs run (List.mem_of_getElem? hk)
  rw [MethodRun.result] at hnone
  cases hcall : run.call with
  | some sent =>
    cases sent with
    | unsent e => simp [hcall] at hnone
    | sent c =>
      -- the get of the call ends, at its timeout at the latest
      obtain ⟨id, req, call, _, _, hc, _⟩ := hrun.called c hcall
      simp only [hcall, hc, Option.map_some] at hnone
      cases hstatus : call.status with
      | waiting => exact ⟨.reply (.noReply c), _, trivial, .reply trivial (.noReply hc hstatus)⟩
      | noReply => simp [hstatus] at hnone
      | took reply => cases reply <;> simp [hstatus] at hnone
  | none =>
    simp only [hcall] at hnone
    cases hnext : run.next ZenohId with
    | list => exact ⟨.list k (.ok []), _, trivial, .list hk hnext (by simp)⟩
    | ask id =>
      cases hasking : run.asking with
      | none =>
        obtain ⟨targets, hreaches⟩ := s.deploy.exists_reaches (metadataRequest id run.client.tout)
        exact ⟨.ask k targets, _, trivial, .ask hk hnext hasking hreaches⟩
      | some handles => exact ⟨.answered k [], _, trivial, .answered hk hasking (by simp)⟩
    | call id =>
      cases hreq : run.request with
      | error e => exact ⟨.notWritten k, _, trivial, .notWritten hk hnext hcall hreq⟩
      | ok req =>
        obtain ⟨targets, hnodup, htargets⟩ := s.deploy.exists_reaches
          (run.client.channel.getRequest id req run.method.toString run.client.tout)
        exact ⟨.call k targets, _, trivial, .call hk hnext hcall hreq (.call hnodup htargets)⟩
    | stop e => simp [hnext] at hnone

/-- Where no regular step can be taken, every call of `serve` has come to its loop or ended
before. -/
lemma NetState.Inv.declared_of_quiescent (hinv : s.Inv)
    (hquiet : (network ZenohId World).Quiescent NetEvent.Regular s) {i : ℕ} {st : Setup}
    (hi : s.setups[i]? = some st) {ks : List String} : st.phase ≠ .declaring ks := by
  intro hphase
  obtain ⟨phase, ts⟩ := st
  obtain rfl : phase = .declaring ks := hphase
  cases ks with
  | nil => exact hquiet (.moveTokens i) _ trivial (.moveTokens hi)
  | cons k ks =>
    obtain ⟨n, hn, _⟩ := hinv.setups i _ hi
    exact hquiet (.declareToken i) _ trivial (.declareToken hn hi)

/-- A network in which no regular step can be taken is at rest. -/
lemma NetState.Inv.atRest [Inhabited World] (hinv : s.Inv)
    (hquiet : (network ZenohId World).Quiescent NetEvent.Regular s) : s.AtRest where
  returned run hrun U _ := by
    obtain ⟨k, hk⟩ := List.mem_iff_getElem?.mp hrun
    cases hres : run.result ZenohId U s.deploy.calls with
    | some res => exact ⟨res, rfl⟩
    | none =>
      obtain ⟨e, s', he, hs⟩ := hinv.exists_step hk hres
      exact absurd hs (hquiet e s' he)
  declared st hst ks := hinv.declared_of_quiescent hquiet (List.mem_iff_getElem?.mp hst).choose_spec
  dropped st hst hphase := by
    obtain ⟨i, hi⟩ := List.mem_iff_getElem?.mp hst
    obtain ⟨phase, ts⟩ := st
    obtain rfl : phase = .ended := hphase
    cases ts with
    | nil => rfl
    | cons t ts => exact absurd (.dropToken hi) (hquiet (.dropToken i) _ trivial)
  drained n hn := by
    obtain ⟨i, hi⟩ := List.mem_iff_getElem?.mp hn
    obtain ⟨hlt, _⟩ := List.getElem?_eq_some_iff.mp hi
    have hst := List.getElem?_eq_getElem (hinv.length.symm ▸ hlt)
    have hloop : (serveLoop n.server).Quiescent LoopEvent.Internal n.loop := fun l _ hl hs =>
      hquiet (.loop i l) _ hl
        (.loop hst (fun _ => hinv.declared_of_quiescent hquiet hst) hl.own (.loop hi hs))
    exact quiescent_iff.mp hloop

/-- Whatever was started comes to an end.  In every network, from every state on, only finitely many
steps can follow in which nothing is started from outside, whatever fails or is dropped among them;
steps in which nothing fails lead to where no such step is left; and where none is left, every
client method has returned, and no server has a query or a task left.  User code ends, it returns or
panics. -/
theorem NetState.comes_to_rest [Inhabited World] (h : (network ZenohId World).Reachable s) :
    (network ZenohId World).Terminates NetEvent.Internal s ∧
    (∃ n s', (network ZenohId World).Steps NetEvent.Regular s n s' ∧
      (network ZenohId World).Quiescent NetEvent.Regular s') ∧
    ∀ n s', (network ZenohId World).Steps NetEvent.Internal s n s' →
      (network ZenohId World).Quiescent NetEvent.Regular s' → s'.AtRest := by
  have hterminates : (network ZenohId World).Terminates NetEvent.Internal s :=
    terminates_of_lower (fun _ _ _ hl hs => NetStep.rank_lt hl hs) s
  refine ⟨hterminates, (hterminates.mono fun _ hl => hl.internal).exists_quiescent,
    fun n s' hsteps hquiet => ?_⟩
  exact (NetState.inv_of_reachable (hsteps.reachable h)).atRest hquiet

end

open Reference

/-- The tests' client, once it has started next to the tests' server, comes to its end. -/
theorem comes_to_rest_hello : ∃ s : NetState SessionId Unit,
    (network SessionId Unit).Reachable s ∧
      (∃ run ∈ s.runs, run.result SessionId String s.deploy.calls = none) ∧
      (network SessionId Unit).Terminates NetEvent.Internal s ∧
      ∃ n s', (network SessionId Unit).Steps NetEvent.Regular s n s' ∧ s'.AtRest := by
  obtain ⟨s, hreach, _, _⟩ := exists_helloUp
  have hstart : NetStep s (.start helloClient hello.ident (serialize helloRequest)
      (debug helloRequest)) _ := .start
  have hstarted := hreach.of_restrict.step hstart
  obtain ⟨hterminates, ⟨n, s', hsteps, hquiet⟩, hrest⟩ := NetState.comes_to_rest hstarted
  have hinternal := hsteps.mono fun _ hl => hl.internal
  exact ⟨_, hstarted, ⟨_, List.mem_append_right _ (List.mem_singleton_self _), rfl⟩, hterminates,
    n, s', hsteps, hrest n s' hinternal hquiet⟩

end ZenohRpc
