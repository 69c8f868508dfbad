import ZenohRpc.Server.ServeLoop
import ZenohRpc.Client.Channel

/-!
# Deployments

Any number of calls of `serve`, on servers with any registries and labels and on any sessions, and
any number of client calls, in any order.  A client asks for all targets, so zenoh hands the query
to every queryable whose key expression intersects the selector; `call_fun` then takes the reply
that comes first.

A call that is not sent, because its request cannot be written or zenoh refuses it, changes nothing
and is no step.
-/

namespace ZenohRpc

open Json KeyExpr

variable {ZenohId World : Type}

/-! ## Servers and calls -/

/-- A call of `serve` from the moment its queryable is declared: a query that arrives before the
loop starts waits in the queue. -/
structure Node (ZenohId World : Type) where
  server : Server ZenohId World
  loop : LoopState ZenohId World

/-- What a client call has come to: it waits for its first reply, or has it, or knows that there is
none. -/
inductive CallStatus
  | waiting
  | took (reply : GetReply)
  | noReply

/-- A client call: its `get`, the nodes the query was handed to with the handles it has there, and
what the call has come to. -/
structure ClientCall where
  request : GetRequest
  delivered : List (ℕ × ℕ)
  status : CallStatus

/-- The nodes and the client calls, in the order in which they started. -/
structure DeployState (ZenohId World : Type) where
  nodes : List (Node ZenohId World)
  calls : List ClientCall

/-- What can happen in a deployment. -/
inductive DeployEvent (ZenohId World : Type)
  | serve (srv : Server ZenohId World)
  | loop (i : ℕ) (l : LoopEvent World)
  | call (ch : RPCClientChannel) (serverId : ZenohId) (req : Bytes) (method : String) (tout : ℕ)
      (targets : List ℕ)
  | answer (c : ℕ) (target : ℕ × ℕ)
  | refuse (c : ℕ) (e : String)
  | noReply (c : ℕ)

/-- The query of a `get` arrives at a node. -/
def Node.deliver (req : GetRequest) (n : Node ZenohId World) : Node ZenohId World :=
  { n with loop := n.loop.arrive (req.query 0).keyExpr (req.query 0).payload }

/-- The nodes once a query was handed to some of them. -/
def DeployState.deliver (s : DeployState ZenohId World) (req : GetRequest) (targets : List ℕ) :
    List (Node ZenohId World) :=
  s.nodes.mapIdx fun i n => if i ∈ targets then n.deliver req else n

/-- A node that a query was handed to is the same server, and the query has arrived. -/
lemma DeployState.getElem?_deliver {s : DeployState ZenohId World} {req : GetRequest}
    {targets : List ℕ} {i : ℕ} {n : Node ZenohId World} (hn : s.nodes[i]? = some n) :
    (s.deliver req targets)[i]? = some (if i ∈ targets then n.deliver req else n) := by
  rw [DeployState.deliver, List.getElem?_mapIdx, hn, Option.map_some]

/-- The handles that a query gets at the nodes it is handed to. -/
def DeployState.handles (s : DeployState ZenohId World) (targets : List ℕ) : List (ℕ × ℕ) :=
  targets.filterMap fun i => (s.nodes[i]?).map fun n => (i, n.loop.arrived.length)

/-- A handle of a query that is handed to nodes is the number of queries that arrived before. -/
lemma DeployState.mem_handles {s : DeployState ZenohId World} {targets : List ℕ} {p : ℕ × ℕ} :
    p ∈ s.handles targets ↔
      p.1 ∈ targets ∧ ∃ n, s.nodes[p.1]? = some n ∧ p.2 = n.loop.arrived.length := by
  simp only [DeployState.handles, List.mem_filterMap, Option.map_eq_some_iff]
  constructor
  · rintro ⟨i, hi, n, hn, rfl⟩
    exact ⟨hi, n, hn, rfl⟩
  · rintro ⟨hi, n, hn, hhandle⟩
    exact ⟨p.1, hi, n, hn, by rw [← hhandle]⟩

/-- The nodes that have a handle are nodes the query is handed to. -/
lemma DeployState.sublist_handles (s : DeployState ZenohId World) (targets : List ℕ) :
    ((s.handles targets).map Prod.fst).Sublist targets := by
  induction targets with
  | nil => exact .slnil
  | cons i targets ih =>
    rw [DeployState.handles, List.filterMap_cons]
    cases s.nodes[i]? with
    | none => exact .cons _ ih
    | some n => exact .cons_cons _ ih

/-! ## Steps -/

section

variable [Runtime] [Zenoh ZenohId]

/-- The queryable of a node gets the queries on a key expression. -/
def Node.Gets (n : Node ZenohId World) (ke : String) : Prop :=
  n.loop.status = .receiving ∧ Intersects n.server.queryableKe ke

/-- The steps of a deployment. -/
inductive DeployStep :
    DeployState ZenohId World → DeployEvent ZenohId World → DeployState ZenohId World → Prop
  | serve {s : DeployState ZenohId World} {srv : Server ZenohId World} :
      DeployStep s (.serve srv) { s with nodes := s.nodes ++ [⟨srv, .start⟩] }
  | loop {s : DeployState ZenohId World} {i : ℕ} {n : Node ZenohId World} {l : LoopEvent World}
      {loop' : LoopState ZenohId World} : s.nodes[i]? = some n →
      ServeStep n.server n.loop l loop' →
      DeployStep s (.loop i l) { s with nodes := s.nodes.set i { n with loop := loop' } }
  | call {s : DeployState ZenohId World} {ch : RPCClientChannel} {serverId : ZenohId} {req : Bytes}
      {method : String} {tout : ℕ} {targets : List ℕ} : targets.Nodup →
      (∀ i n, s.nodes[i]? = some n → (i ∈ targets ↔
        n.Gets ((ch.getRequest serverId req method tout).query 0).keyExpr)) →
      DeployStep s (.call ch serverId req method tout targets)
        { nodes := s.deliver (ch.getRequest serverId req method tout) targets
          calls := s.calls ++
            [⟨ch.getRequest serverId req method tout, s.handles targets, .waiting⟩] }
  | answer {s : DeployState ZenohId World} {c : ℕ} {call : ClientCall} {target : ℕ × ℕ}
      {n : Node ZenohId World} {r : QueryReply} : s.calls[c]? = some call →
      call.status = .waiting → target ∈ call.delivered → s.nodes[target.1]? = some n →
      r ∈ n.loop.replies → r.handle = target.2 →
      DeployStep s (.answer c target)
        { s with calls := s.calls.set c { call with status := .took (.ok r.sample) } }
  | refuse {s : DeployState ZenohId World} {c : ℕ} {call : ClientCall} {e : String} :
      s.calls[c]? = some call → call.status = .waiting →
      DeployStep s (.refuse c e)
        { s with calls := s.calls.set c { call with status := .took (.error e) } }
  | noReply {s : DeployState ZenohId World} {c : ℕ} {call : ClientCall} :
      s.calls[c]? = some call → call.status = .waiting →
      DeployStep s (.noReply c)
        { s with calls := s.calls.set c { call with status := .noReply } }

variable (ZenohId World) in
/-- A deployment, from the moment nothing runs. -/
def deployment : TransitionSystem (DeployState ZenohId World) (DeployEvent ZenohId World) where
  init s := s = ⟨[], []⟩
  step := DeployStep

/-! ## What a step does to the nodes -/

/-- A node after a step: it is the same server, and its loop took a step, if anything. -/
structure Node.Evolves (n n' : Node ZenohId World) : Prop where
  server : n'.server = n.server
  loop : n'.loop = n.loop ∨ ∃ l, ServeStep n.server n.loop l n'.loop

lemma Node.Evolves.refl (n : Node ZenohId World) : n.Evolves n := ⟨rfl, Or.inl rfl⟩

lemma Node.Evolves.arrived {n n' : Node ZenohId World} (h : n.Evolves n') :
    n.loop.arrived <+: n'.loop.arrived := by
  rcases h.loop with hsame | ⟨l, hs⟩
  · rw [hsame]
  · exact LoopState.arrived_prefix hs

lemma Node.Evolves.replies {n n' : Node ZenohId World} (h : n.Evolves n') :
    n.loop.replies ⊆ n'.loop.replies := by
  rcases h.loop with hsame | ⟨l, hs⟩
  · rw [hsame]
    exact List.Subset.refl _
  · exact LoopState.replies_subset hs

lemma Node.Evolves.reachable {n n' : Node ZenohId World} (h : n.Evolves n')
    (hn : (serveLoop n.server).Reachable n.loop) :
    (serveLoop n'.server).Reachable n'.loop := by
  rw [h.server]
  rcases h.loop with hsame | ⟨l, hs⟩
  · rwa [hsame]
  · exact hn.step hs

/-- A node after a step is a node before it that evolved, or it has just come to its loop. -/
lemma DeployStep.origin {s s' : DeployState ZenohId World} {e : DeployEvent ZenohId World}
    (h : DeployStep s e s') {i : ℕ} {n' : Node ZenohId World} (hn' : s'.nodes[i]? = some n') :
    (∃ n : Node ZenohId World, s.nodes[i]? = some n ∧ n.Evolves n') ∨
      (s.nodes.length ≤ i ∧ n'.loop = .start) := by
  cases h with
  | serve =>
    rw [List.getElem?_append] at hn'
    split at hn'
    · exact Or.inl ⟨n', hn', .refl n'⟩
    · rename_i hlen
      have hnew := List.mem_singleton.mp (List.mem_of_getElem? hn')
      exact Or.inr ⟨not_lt.mp hlen, by rw [hnew]⟩
  | @loop j n l loop' hn hs =>
    rw [List.getElem?_set] at hn'
    split at hn'
    · rename_i hij
      subst hij
      split at hn'
      · rw [← Option.some.inj hn']
        exact Or.inl ⟨n, hn, rfl, Or.inr ⟨l, hs⟩⟩
      · cases hn'
    · exact Or.inl ⟨n', hn', .refl n'⟩
  | call _ htargets =>
    rw [DeployState.deliver, List.getElem?_mapIdx, Option.map_eq_some_iff] at hn'
    obtain ⟨n, hn, rfl⟩ := hn'
    refine Or.inl ⟨n, hn, ?_⟩
    split
    · rename_i hi
      obtain ⟨hstatus, hke⟩ := (htargets i n hn).mp hi
      exact ⟨rfl, Or.inr ⟨_, .arrive hstatus hke⟩⟩
    · exact .refl n
  | answer => exact Or.inl ⟨n', hn', .refl n'⟩
  | refuse => exact Or.inl ⟨n', hn', .refl n'⟩
  | noReply => exact Or.inl ⟨n', hn', .refl n'⟩

/-- No node goes away. -/
lemma DeployStep.length_le {s s' : DeployState ZenohId World} {e : DeployEvent ZenohId World}
    (h : DeployStep s e s') : s.nodes.length ≤ s'.nodes.length := by
  cases h <;> simp [DeployState.deliver]

/-- Every node evolves in a step. -/
lemma DeployStep.evolves {s s' : DeployState ZenohId World} {e : DeployEvent ZenohId World}
    (h : DeployStep s e s') (i : ℕ) (n : Node ZenohId World) (hn : s.nodes[i]? = some n) :
    ∃ n' : Node ZenohId World, s'.nodes[i]? = some n' ∧ n.Evolves n' := by
  obtain ⟨hi, _⟩ := List.getElem?_eq_some_iff.mp hn
  have hn' := List.getElem?_eq_getElem (hi.trans_le h.length_le)
  rcases h.origin hn' with ⟨m, hm, hevolves⟩ | ⟨hlen, _⟩
  · rw [hn, Option.some.injEq] at hm
    exact ⟨_, hn', hm ▸ hevolves⟩
  · exact absurd hi (not_lt.mpr hlen)

end

end ZenohRpc
