import ZenohRpc.Client.Methods
import ZenohRpc.Deployment.Calls

/-!
# The network

Servers and clients as they run: calls of `serve` with the setup before their loop
(`zrpc/src/server.rs`), and calls of client methods with the discovery before the call
(`impl_client` of `zrpc-derive/src/lib.rs`, `zrpc/src/rpcchannel.rs`), any number of both, with
their steps in any order.  Servers may come and go while a client looks for one.

A network is a deployment with what the deployment leaves out: which tokens are declared, and how
far each client method has come.  It refines the deployment: each of its steps is a number of steps
of the deployment, or none.
-/

namespace ZenohRpc

open Json KeyExpr

variable {ZenohId World : Type}

/-! ## Servers and clients -/

/-- How far a call of `serve` has come, once its queryable is declared: it declares the tokens for
the names that are left, or it came to its loop, or its tokens are dropped: those of a call that
ended before, once its queryable is gone, or those of a server that is dropped after its loop. -/
inductive SetupPhase
  | declaring (rest : List String)
  | serving
  | ended

/-- A call of `serve` with the keys of the tokens that it declared, as long as they are declared.
Once it comes to its loop the server holds them. -/
structure Setup where
  phase : SetupPhase
  tokens : List String

/-- How a client method has made its call: as one of the calls of the deployment, or not at all,
because the request cannot be written or zenoh refuses it. -/
inductive SentCall
  | sent (c : ℕ)
  | unsent (e : ZRPCError)

/-- A running client method: the client and the method, what `serialize` makes of the request, and
what it has got so far.  `asking` holds the handles of the metadata query it waits for, and `asked`
those of every metadata query it made. -/
structure MethodRun where
  client : ServiceClient
  method : Ident
  request : ZRPCResult Bytes
  debugRequest : String
  listed : Option Listing
  answers : List (Except String (List GetReply))
  asking : Option (List (ℕ × ℕ))
  asked : List (ℕ × ℕ)
  call : Option SentCall

/-- A client method that starts. -/
def MethodRun.start (client : ServiceClient) (method : Ident) (request : ZRPCResult Bytes)
    (debugRequest : String) : MethodRun :=
  ⟨client, method, request, debugRequest, none, [], none, [], none⟩

/-- A deployment, with the setups of its nodes and with the client methods that were started. -/
structure NetState (ZenohId World : Type) where
  deploy : DeployState ZenohId World
  setups : List Setup
  runs : List MethodRun

/-- What can happen in a network. -/
inductive NetEvent (ZenohId World : Type)
  | serve (srv : Server ZenohId World) (ks : List String)
  | declareToken (i : ℕ)
  | abandon (i : ℕ)
  | moveTokens (i : ℕ)
  | loop (i : ℕ) (l : LoopEvent World)
  | foreign (i : ℕ) (keyExpr : String) (payload : Option Bytes)
  | dropServer (i : ℕ)
  | dropToken (i : ℕ)
  | start (client : ServiceClient) (method : Ident) (request : ZRPCResult Bytes)
      (debugRequest : String)
  | list (k : ℕ) (res : Listing)
  | ask (k : ℕ) (targets : List ℕ)
  | refuseAsk (k : ℕ) (e : String)
  | answered (k : ℕ) (data : List GetReply)
  | call (k : ℕ) (targets : List ℕ)
  | notWritten (k : ℕ)
  | refuseCall (k : ℕ) (e : String)
  | reply (e : DeployEvent ZenohId World)

/-- An event of a loop that is no arrival. -/
def LoopEvent.Own : LoopEvent World → Prop
  | .arrive _ _ => False
  | _ => True

/-- What becomes of a client call that was sent: it gets a first reply, or none. -/
def DeployEvent.EndsCall : DeployEvent ZenohId World → Prop
  | .answer _ _ => True
  | .refuse _ _ => True
  | .noReply _ => True
  | _ => False

/-! ## Steps -/

section

variable [Runtime] [Zenoh ZenohId] [DecidableEq ZenohId]

variable (ZenohId) in
/-- What a client method does next. -/
def MethodRun.next (run : MethodRun) : NextStep ZenohId := run.client.next run.listed run.answers

/-- The targets are the nodes whose queryable gets the query of a `get`. -/
def DeployState.Reaches (s : DeployState ZenohId World) (req : GetRequest) (targets : List ℕ) :
    Prop :=
  targets.Nodup ∧ ∀ i n, s.nodes[i]? = some n → (i ∈ targets ↔ n.Gets (req.query 0).keyExpr)

/-- The steps of a network.  A call of `serve` may be abandoned in its setup, by an error or because
its future is dropped: its queryable goes first, and its tokens one after the other.  Tasks go on
when the loop is gone, and also when the server is dropped.  Replies to a liveliness query are keys
of tokens that are declared at that moment, and replies to a metadata query are replies that some
node made to that query; any of them may be lost, and errors may come among them. -/
inductive NetStep :
    NetState ZenohId World → NetEvent ZenohId World → NetState ZenohId World → Prop
  | serve {s : NetState ZenohId World} {srv : Server ZenohId World} {ks : List String} :
      ks.Perm srv.services.keys →
      NetStep s (.serve srv ks)
        { s with
          deploy := { s.deploy with nodes := s.deploy.nodes ++ [⟨srv, .start⟩] }
          setups := s.setups ++ [⟨.declaring ks, []⟩] }
  | declareToken {s : NetState ZenohId World} {i : ℕ} {n : Node ZenohId World} {k : String}
      {ks ts : List String} : s.deploy.nodes[i]? = some n →
      s.setups[i]? = some ⟨.declaring (k :: ks), ts⟩ →
      NetStep s (.declareToken i)
        { s with setups := s.setups.set i ⟨.declaring ks, ts ++ [n.server.tokenKe k]⟩ }
  | abandon {s : NetState ZenohId World} {i : ℕ} {ks ts : List String}
      {d : DeployState ZenohId World} : s.setups[i]? = some ⟨.declaring ks, ts⟩ →
      DeployStep s.deploy (.loop i .cancel) d →
      NetStep s (.abandon i) { s with deploy := d, setups := s.setups.set i ⟨.ended, ts⟩ }
  | moveTokens {s : NetState ZenohId World} {i : ℕ} {ts : List String} :
      s.setups[i]? = some ⟨.declaring [], ts⟩ →
      NetStep s (.moveTokens i) { s with setups := s.setups.set i ⟨.serving, ts⟩ }
  | loop {s : NetState ZenohId World} {i : ℕ} {l : LoopEvent World} {st : Setup}
      {d : DeployState ZenohId World} : s.setups[i]? = some st →
      (∀ ks, st.phase ≠ .declaring ks) → l.Own → DeployStep s.deploy (.loop i l) d →
      NetStep s (.loop i l) { s with deploy := d }
  | foreign {s : NetState ZenohId World} {i : ℕ} {keyExpr : String} {payload : Option Bytes}
      {d : DeployState ZenohId World} :
      DeployStep s.deploy (.loop i (.arrive keyExpr payload)) d →
      NetStep s (.foreign i keyExpr payload) { s with deploy := d }
  | dropServer {s : NetState ZenohId World} {i : ℕ} {n : Node ZenohId World} {ts : List String} :
      s.setups[i]? = some ⟨.serving, ts⟩ → s.deploy.nodes[i]? = some n →
      n.loop.status ≠ .receiving →
      NetStep s (.dropServer i) { s with setups := s.setups.set i ⟨.ended, ts⟩ }
  | dropToken {s : NetState ZenohId World} {i : ℕ} {t : String} {ts : List String} :
      s.setups[i]? = some ⟨.ended, t :: ts⟩ →
      NetStep s (.dropToken i) { s with setups := s.setups.set i ⟨.ended, ts⟩ }
  | start {s : NetState ZenohId World} {client : ServiceClient} {method : Ident}
      {request : ZRPCResult Bytes} {debugRequest : String} :
      NetStep s (.start client method request debugRequest)
        { s with runs := s.runs ++ [.start client method request debugRequest] }
  | list {s : NetState ZenohId World} {k : ℕ} {run : MethodRun} {res : Listing} :
      s.runs[k]? = some run → run.next ZenohId = .list →
      (∀ kes, res = .ok kes → ∀ ke, .ok ke ∈ kes →
        Intersects run.client.rpcKe ke ∧ ∃ st ∈ s.setups, ke ∈ st.tokens) →
      NetStep s (.list k res) { s with runs := s.runs.set k { run with listed := some res } }
  | ask {s : NetState ZenohId World} {k : ℕ} {run : MethodRun} {id : ZenohId}
      {targets : List ℕ} : s.runs[k]? = some run → run.next ZenohId = .ask id →
      run.asking = none → s.deploy.Reaches (metadataRequest id run.client.tout) targets →
      NetStep s (.ask k targets)
        { s with
          deploy := { s.deploy with
            nodes := s.deploy.deliver (metadataRequest id run.client.tout) targets }
          runs := s.runs.set k { run with
            asking := some (s.deploy.handles targets)
            asked := run.asked ++ s.deploy.handles targets } }
  | refuseAsk {s : NetState ZenohId World} {k : ℕ} {run : MethodRun} {id : ZenohId} {e : String} :
      s.runs[k]? = some run → run.next ZenohId = .ask id → run.asking = none →
      NetStep s (.refuseAsk k e)
        { s with runs := s.runs.set k { run with answers := run.answers ++ [.error e] } }
  | answered {s : NetState ZenohId World} {k : ℕ} {run : MethodRun} {handles : List (ℕ × ℕ)}
      {data : List GetReply} : s.runs[k]? = some run → run.asking = some handles →
      (∀ rawData, .ok rawData ∈ data → ∃ target ∈ handles, ∃ n,
        s.deploy.nodes[target.1]? = some n ∧
        ∃ r ∈ n.loop.replies, r.handle = target.2 ∧ r.sample = rawData) →
      NetStep s (.answered k data)
        { s with
          runs := s.runs.set k { run with answers := run.answers ++ [.ok data], asking := none } }
  | call {s : NetState ZenohId World} {k : ℕ} {run : MethodRun} {id : ZenohId} {req : Bytes}
      {targets : List ℕ} {d : DeployState ZenohId World} : s.runs[k]? = some run →
      run.next ZenohId = .call id → run.call = none → run.request = .ok req →
      DeployStep s.deploy
        (.call run.client.channel id req run.method.toString run.client.tout targets) d →
      NetStep s (.call k targets)
        { s with
          deploy := d
          runs := s.runs.set k { run with call := some (.sent s.deploy.calls.length) } }
  | notWritten {s : NetState ZenohId World} {k : ℕ} {run : MethodRun} {id : ZenohId}
      {e : ZRPCError} : s.runs[k]? = some run → run.next ZenohId = .call id → run.call = none →
      run.request = .error e →
      NetStep s (.notWritten k)
        { s with runs := s.runs.set k { run with call := some (.unsent e) } }
  | refuseCall {s : NetState ZenohId World} {k : ℕ} {run : MethodRun} {id : ZenohId}
      {req : Bytes} {e : String} : s.runs[k]? = some run → run.next ZenohId = .call id →
      run.call = none → run.request = .ok req →
      NetStep s (.refuseCall k e)
        { s with runs := s.runs.set k { run with call := some (.unsent (.zenohError e)) } }
  | reply {s : NetState ZenohId World} {e : DeployEvent ZenohId World}
      {d : DeployState ZenohId World} : e.EndsCall → DeployStep s.deploy e d →
      NetStep s (.reply e) { s with deploy := d }

variable (ZenohId World) in
/-- A network, from the moment nothing runs. -/
def network : TransitionSystem (NetState ZenohId World) (NetEvent ZenohId World) where
  init s := s = ⟨⟨[], []⟩, [], []⟩
  step := NetStep

/-! ## A network is a deployment -/

omit [DecidableEq ZenohId] in
/-- A query that is handed to some nodes arrives at one after the other. -/
lemma DeployState.moves_deliver
    {guard : DeployState ZenohId World → DeployEvent ZenohId World → Prop}
    (harrive : ∀ d i keyExpr payload, guard d (.loop i (.arrive keyExpr payload)))
    {s : DeployState ZenohId World} {req : GetRequest} {targets : List ℕ} (hnodup : targets.Nodup)
    (hgets : ∀ i n, s.nodes[i]? = some n → i ∈ targets → n.Gets (req.query 0).keyExpr) :
    ((deployment ZenohId World).restrict guard).Moves s
      { s with nodes := s.deliver req targets } := by
  induction targets with
  | nil =>
    have hsame : s.deliver req [] = s.nodes := by
      refine List.ext_getElem? fun i => ?_
      rw [DeployState.deliver, List.getElem?_mapIdx]
      simp
    rw [hsame]
    exact .refl
  | cons i targets ih =>
    rw [List.nodup_cons] at hnodup
    have hrest := ih hnodup.2 fun j n hn hj => hgets j n hn (List.mem_cons_of_mem _ hj)
    cases hi : s.nodes[i]? with
    | none =>
      have hsame : s.deliver req (i :: targets) = s.deliver req targets := by
        refine List.ext_getElem? fun j => ?_
        rw [DeployState.deliver, DeployState.deliver, List.getElem?_mapIdx, List.getElem?_mapIdx]
        cases hj : s.nodes[j]? with
        | none => rfl
        | some n =>
          have hne : j ≠ i := by
            rintro rfl
            rw [hi] at hj
            cases hj
          simp [hne]
      rw [hsame]
      exact hrest
    | some n =>
      obtain ⟨hstatus, hke⟩ := hgets i n hi List.mem_cons_self
      have hn : (s.deliver req targets)[i]? = some n := by
        rw [DeployState.getElem?_deliver hi, if_neg hnodup.1]
      have hstep : DeployStep { s with nodes := s.deliver req targets }
          (.loop i (.arrive (req.query 0).keyExpr (req.query 0).payload))
          { s with nodes := (s.deliver req targets).set i (n.deliver req) } :=
        .loop hn (.arrive hstatus hke)
      have hsame : s.deliver req (i :: targets) =
          (s.deliver req targets).set i (n.deliver req) := by
        refine List.ext_getElem? fun j => ?_
        rw [List.getElem?_set]
        by_cases hij : i = j
        · subst hij
          obtain ⟨hlt, _⟩ := List.getElem?_eq_some_iff.mp hn
          rw [if_pos rfl, if_pos hlt, DeployState.getElem?_deliver hi,
            if_pos List.mem_cons_self]
        · rw [if_neg hij, DeployState.deliver, DeployState.deliver, List.getElem?_mapIdx,
            List.getElem?_mapIdx]
          have hne : j ≠ i := fun h => hij h.symm
          simp [hne]
      rw [hsame]
      exact hrest.tail ⟨harrive _ _ _ _, hstep⟩

/-- A step of a network is a number of steps of its deployment, or none.  None of them ends a task,
unless the step itself does. -/
lemma NetStep.moves (guard : DeployState ZenohId World → DeployEvent ZenohId World → Prop)
    (harrive : ∀ d i keyExpr payload, guard d (.loop i (.arrive keyExpr payload)))
    {s s' : NetState ZenohId World} {e : NetEvent ZenohId World}
    (hstep : ∀ e' d, DeployStep s.deploy e' d →
      (∀ i j w, e' = .loop i (.complete j w) → e = .loop i (.complete j w)) → guard s.deploy e')
    (h : NetStep s e s') :
    ((deployment ZenohId World).restrict guard).Moves s.deploy s'.deploy := by
  have hsingle : ∀ {e' d}, DeployStep s.deploy e' d →
      (∀ i j w, e' = .loop i (.complete j w) → e = .loop i (.complete j w)) →
        ((deployment ZenohId World).restrict guard).Moves s.deploy d :=
    fun hs htask => .single ⟨hstep _ _ hs htask, hs⟩
  cases h with
  | @serve srv ks _ =>
    have hserve : DeployStep s.deploy (.serve srv) _ := .serve
    exact hsingle hserve (by simp)
  | abandon _ hs => exact hsingle hs (by simp)
  | loop _ _ _ hs => exact hsingle hs (by simp)
  | foreign hs => exact hsingle hs (by simp)
  | ask _ _ _ hreaches =>
    exact DeployState.moves_deliver harrive hreaches.1 fun i n hn hi =>
      (hreaches.2 i n hn).mp hi
  | call _ _ _ _ hs => exact hsingle hs (by simp)
  | reply hends hs =>
    refine hsingle hs ?_
    rintro i j w rfl
    exact hends.elim
  | declareToken | moveTokens | dropServer | dropToken | start | list | refuseAsk | answered
  | notWritten | refuseCall => exact .refl

/-- A step of a network is a number of steps of its deployment, or none, under no guard. -/
lemma NetStep.moves_deploy {s s' : NetState ZenohId World} {e : NetEvent ZenohId World}
    (h : NetStep s e s') : (deployment ZenohId World).Moves s.deploy s'.deploy :=
  (h.moves (fun _ _ => True) (fun _ _ _ _ => trivial) fun _ _ _ _ => trivial).of_restrict

/-- A network refines its deployment. -/
theorem network_refines :
    (network ZenohId World).Refines (deployment ZenohId World) NetState.deploy where
  init s h := by
    rw [show s = _ from h]
    rfl
  step _ _ _ _ hs := NetStep.moves_deploy hs

/-! ## Servers on sessions of their own -/

/-- A step starts a node only if it serves. -/
lemma NetStep.length_eq {s s' : NetState ZenohId World} {e : NetEvent ZenohId World}
    (h : NetStep s e s') (hserve : ∀ srv ks, e ≠ .serve srv ks) :
    s'.deploy.nodes.length = s.deploy.nodes.length := by
  cases h with
  | @serve srv ks => exact absurd rfl (hserve srv ks)
  | abandon _ hs | loop _ _ _ hs | foreign hs =>
    cases hs
    simp
  | ask => simp [DeployState.deliver]
  | call _ _ _ _ hs =>
    cases hs
    simp [DeployState.deliver]
  | reply hends hs =>
    cases hs with
    | answer | refuse | noReply => rfl
    | serve | loop | call => exact hends.elim
  | declareToken | moveTokens | dropServer | dropToken | start | list | refuseAsk | answered
  | notWritten | refuseCall => rfl

/-- A step that starts no node leaves the servers as they are. -/
lemma NetStep.servers_eq {s s' : NetState ZenohId World} {e : NetEvent ZenohId World}
    (h : NetStep s e s') (hserve : ∀ srv ks, e ≠ .serve srv ks) :
    s'.deploy.nodes.map Node.server = s.deploy.nodes.map Node.server := by
  have hextends : s.deploy.Extends s'.deploy := DeployState.extends_of_moves h.moves_deploy
  refine List.ext_getElem? fun i => ?_
  rw [List.getElem?_map, List.getElem?_map]
  cases hi : s.deploy.nodes[i]? with
  | some n =>
    obtain ⟨n', hn', hnode⟩ := hextends.nodes i n hi
    rw [hn', Option.map_some, Option.map_some, hnode.server]
  | none =>
    rw [List.getElem?_eq_none_iff, ← h.length_eq hserve] at hi
    rw [List.getElem?_eq_none hi]

/-- Each call of `serve` is on a session that no other call of `serve` is on. -/
def OwnSession (s : NetState ZenohId World) : NetEvent ZenohId World → Prop
  | .serve srv _ => ∀ n ∈ s.deploy.nodes, n.server.instanceUuid ≠ srv.instanceUuid
  | _ => True

omit [Runtime] [Zenoh ZenohId] [DecidableEq ZenohId] in
/-- Only calls of `serve` have sessions. -/
lemma OwnSession.of_ne {s : NetState ZenohId World} {e : NetEvent ZenohId World}
    (h : ∀ srv ks, e ≠ .serve srv ks) : OwnSession s e := by
  unfold OwnSession
  split
  · rename_i srv ks
    exact absurd rfl (h srv ks)
  · trivial

/-- No call of `serve` starts. -/
def NoServe (_ : NetState ZenohId World) : NetEvent ZenohId World → Prop
  | .serve _ _ => False
  | _ => True

omit [Runtime] [Zenoh ZenohId] [DecidableEq ZenohId] in
/-- What is no call of `serve` is none that shares a session. -/
lemma NoServe.ownSession {s : NetState ZenohId World} {e : NetEvent ZenohId World}
    (h : NoServe s e) : OwnSession s e :=
  .of_ne fun _ _ heq => by
    subst heq
    exact h

/-- Where no call of `serve` starts, the servers stay as they are. -/
lemma NetState.servers_of_noServe {s s' : NetState ZenohId World}
    (h : ((network ZenohId World).restrict NoServe).Moves s s') :
    s'.deploy.nodes.map Node.server = s.deploy.nodes.map Node.server := by
  induction h with
  | refl => rfl
  | tail _ hstep ih =>
    obtain ⟨e, hnone, hs⟩ := hstep
    rw [← ih]
    refine hs.servers_eq fun _ _ heq => ?_
    subst heq
    exact hnone

/-- No two calls of `serve` share a session. -/
def NetState.DistinctSessions (s : NetState ZenohId World) : Prop :=
  (s.deploy.nodes.map fun n => n.server.instanceUuid).Nodup

/-- The sessions stay different. -/
lemma NetState.distinctSessions {s : NetState ZenohId World}
    (h : ((network ZenohId World).restrict OwnSession).Reachable s) : s.DistinctSessions := by
  refine h.invariant ?_ ?_
  · rintro s rfl
    exact List.nodup_nil
  · intro s e s' _ hnodup hs
    obtain ⟨hown, hs⟩ := hs
    by_cases hserve : ∃ srv ks, e = .serve srv ks
    · obtain ⟨srv, ks, rfl⟩ := hserve
      cases hs
      rw [NetState.DistinctSessions, List.map_append, List.nodup_append]
      refine ⟨hnodup, List.nodup_singleton _, fun z hz z' hz' => ?_⟩
      obtain ⟨n, hn, rfl⟩ := List.mem_map.mp hz
      rw [List.map_singleton, List.mem_singleton] at hz'
      rw [hz']
      exact hown n hn
    · have hservers := congrArg (List.map Server.instanceUuid)
        (hs.servers_eq fun srv ks heq => hserve ⟨srv, ks, heq⟩)
      rw [List.map_map, List.map_map] at hservers
      have hsame : s'.deploy.nodes.map (fun n => n.server.instanceUuid) =
          s.deploy.nodes.map (fun n => n.server.instanceUuid) := hservers
      rw [NetState.DistinctSessions, hsame]
      exact hnodup

/-- Where each call of `serve` is on a session of its own, a network refines its deployment without
client calls that reach two nodes that run user code for them. -/
theorem network_refines_singleTarget : ((network ZenohId World).restrict OwnSession).Refines
    ((deployment ZenohId World).restrict SingleTarget) NetState.deploy where
  init s h := by
    rw [show s = _ from h]
    rfl
  step _ _ _ hreach hs := NetStep.moves SingleTarget (fun _ _ _ _ => trivial)
    (fun _ _ hd _ => hd.singleTarget (NetState.distinctSessions hreach)) hs.2

end

end ZenohRpc
