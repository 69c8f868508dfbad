import ZenohRpc.Client.Discovery
import ZenohRpc.Reference

/-!
# Selecting a server by its labels

Running servers, on any sessions, and a client that looks for one.  A client hears of servers twice:
zenoh lists the liveliness tokens of servers, and servers reply with their metadata.  Replies may be
lost, and may come in any order and any number of times (`Observes`).

The two are joined by the session id alone.  Where servers share a session, the token and the labels
that a client finds under one id may be those of two servers.
-/

namespace ZenohRpc

open Json KeyExpr

variable {ZenohId World : Type}

section

variable [Runtime] [Zenoh ZenohId]

/-- What a client may observe of running servers: tokens that servers declared and whose keys
intersect the key expression asked for, and replies that servers made to the query, when it reaches
their queryable. -/
structure Observes (running : List (Server ZenohId World)) (liveliness : Liveliness)
    (get : ℕ → Get) : Prop where
  tokens : ∀ pattern res, liveliness pattern = .ok res → ∀ ke, .ok ke ∈ res →
    ∃ a ∈ running, ∃ k ∈ a.services, ke = a.tokenKe k ∧ Intersects pattern ke
  replies : ∀ n req data, get n req = .ok data → ∀ rawData, .ok rawData ∈ data →
    ∃ b ∈ running, ∃ w handle, Intersects b.queryableKe (selectorKeyExpr req.selector) ∧
      b.replyTo w (req.query handle) = some rawData

/-- A server that qualifies for a client: it has the client's service registered, and every label
that the client requires. -/
structure Server.Qualifies (c : Server ZenohId World) (client : ServiceClient) : Prop where
  service : client.serviceIdent.toString ∈ c.services
  labels : client.labels ⊆ c.labels

/-- Whatever a client observes, the id it finds is the id of a running server that qualifies. -/
def SelectsQualified [DecidableEq ZenohId] (running : List (Server ZenohId World))
    (client : ServiceClient) : Prop :=
  ∀ liveliness get, Observes running liveliness get → ∀ id : ZenohId,
    client.findServer liveliness get = .ok id →
    ∃ c ∈ running, c.instanceUuid = id ∧ c.Qualifies client

/-- A session qualifies as a whole only if one of its servers does: where one running server
announces itself to the client, and one on the same session has the labels required, some running
server on that session qualifies. -/
def SessionsQualify (running : List (Server ZenohId World)) (client : ServiceClient) : Prop :=
  ∀ a ∈ running, ∀ b ∈ running, a.instanceUuid = b.instanceUuid →
    (∃ k ∈ a.services, Intersects client.rpcKe (a.tokenKe k)) → client.labels ⊆ b.labels →
    ∃ c ∈ running, c.instanceUuid = a.instanceUuid ∧ c.Qualifies client

/-! ## The metadata query -/

variable {srv : Server ZenohId World}

omit [Runtime] in
/-- A metadata query reaches the servers with the id asked for. -/
lemma intersects_metadataRequest (id : ZenohId) (tout : ℕ) :
    Intersects srv.queryableKe (selectorKeyExpr (metadataRequest id tout).selector) ↔
      srv.instanceUuid = id := by
  rw [keyExpr_metadataRequest, srv.intersects_queryableKe_iff]
  exact and_iff_left (by decide)

/-- A server replies to a metadata query with its metadata. -/
lemma replyTo_metadataRequest (id : ZenohId) (tout handle : ℕ) (w : World) :
    srv.replyTo w ((metadataRequest id tout).query handle) =
      some (sample (serverMetadata srv.labels srv.instanceUuid)) := by
  rw [Server.replyTo, Server.dispatch_of_dispatched (.metadata (getToken_metadataRequest ..))]
  rfl

variable [DecidableEq ZenohId] {running : List (Server ZenohId World)} {liveliness : Liveliness}
  {get : ℕ → Get} {client : ServiceClient}

/-- The metadata that a client reads is that of a running server with the id asked for. -/
lemma Observes.exists_server (h : Observes running liveliness get) {n : ℕ} {id : ZenohId}
    {ids : List ZenohId} {tout : ℕ} {data : List GetReply}
    (hget : get n (metadataRequest id tout) = .ok data) {m : ServerMetadata ZenohId}
    (hm : m ∈ readMetadata ids data) :
    ∃ b ∈ running, b.instanceUuid = id ∧ m = ⟨b.labels, b.instanceUuid⟩ := by
  obtain ⟨_, rawData, pl, wmsg, hmem, hwmsg, hpl, hread⟩ := mem_readMetadata.mp hm
  obtain ⟨b, hb, w, handle, hreach, hreply⟩ := h.replies n _ data hget rawData hmem
  rw [replyTo_metadataRequest, Option.some.injEq] at hreply
  rw [← hreply, decode_sample_serverMetadata] at hwmsg
  rw [← Except.ok.inj hwmsg, Option.some.injEq] at hpl
  rw [← hpl, deserialize_metadataPayload] at hread
  exact ⟨b, hb, (intersects_metadataRequest id tout).mp hreach, (Except.ok.inj hread).symm⟩

omit [DecidableEq ZenohId] in
/-- The id that a client reads off the key of a token is that of the server that declared it. -/
lemma Observes.exists_announcer (h : Observes running liveliness get)
    {res : List (Except String String)} (hres : liveliness client.rpcKe = .ok res) {ke : String}
    (hke : .ok ke ∈ res) {id : ZenohId} (hid : client.extractIdFromKe ke = .ok id) :
    ∃ a ∈ running, a.instanceUuid = id ∧
      ∃ k ∈ a.services, Intersects client.rpcKe (a.tokenKe k) := by
  obtain ⟨a, ha, k, hk, rfl, hintersects⟩ := h.tokens _ res hres ke hke
  rw [Server.tokenKe, client.extractIdFromKe_eq a.instanceUuid _ hintersects] at hid
  exact ⟨a, ha, Except.ok.inj hid, k, hk, hintersects⟩

/-- Where one server announces itself to a client and another on its session has the labels
required, the client may find their id. -/
lemma exists_observes_findServer [Inhabited World] {a b : Server ZenohId World} (ha : a ∈ running)
    (hb : b ∈ running) (hid : a.instanceUuid = b.instanceUuid) {k : String} (hk : k ∈ a.services)
    (hintersects : Intersects client.rpcKe (a.tokenKe k)) (hlabels : client.labels ⊆ b.labels) :
    ∃ liveliness get, Observes running liveliness get ∧
      client.findServer liveliness get = .ok b.instanceUuid := by
  refine ⟨fun pattern => if pattern = client.rpcKe then .ok [.ok (a.tokenKe k)] else .ok [],
    fun _ req => if req = metadataRequest b.instanceUuid client.tout then
      .ok [.ok (sample (serverMetadata b.labels b.instanceUuid))] else .ok [], ⟨?_, ?_⟩, ?_⟩
  · intro pattern res hres ke hke
    split at hres
    · rename_i hpattern
      rw [← Except.ok.inj hres, List.mem_singleton] at hke
      refine ⟨a, ha, k, hk, Except.ok.inj hke, ?_⟩
      rw [hpattern, Except.ok.inj hke]
      exact hintersects
    · rw [← Except.ok.inj hres] at hke
      cases hke
  · intro n req data hdata rawData hraw
    split at hdata
    · rename_i hreq
      rw [← Except.ok.inj hdata, List.mem_singleton] at hraw
      refine ⟨b, hb, default, 0, ?_, ?_⟩
      · rw [hreq, intersects_metadataRequest]
      · rw [hreq, replyTo_metadataRequest, Except.ok.inj hraw]
    · rw [← Except.ok.inj hdata] at hraw
      cases hraw
  · have hke : client.extractIdFromKe (a.tokenKe k) = .ok b.instanceUuid := by
      rw [← hid]
      exact client.extractIdFromKe_eq a.instanceUuid _ hintersects
    exact ServiceClient.findServer_of_reply (if_pos rfl) hke (if_pos rfl)
      (decode_sample_serverMetadata _ _) (deserialize_metadataPayload _ _) hlabels

/-- A client only finds servers that qualify exactly when sessions only qualify through one of
their servers. -/
theorem selectsQualified_iff [Inhabited World] (running : List (Server ZenohId World))
    (client : ServiceClient) :
    SelectsQualified running client ↔ SessionsQualify running client := by
  constructor
  · rintro hselects a ha b hb hid ⟨k, hk, hintersects⟩ hlabels
    obtain ⟨liveliness, get, hobserves, hfind⟩ :=
      exists_observes_findServer ha hb hid hk hintersects hlabels
    obtain ⟨c, hc, hcid, hqualifies⟩ := hselects liveliness get hobserves _ hfind
    exact ⟨c, hc, hcid.trans hid.symm, hqualifies⟩
  · intro hsessions liveliness get hobserves id hfind
    obtain ⟨res, ids, ke, id', n, data, m, hres, hke, hextract, hget, hm, hlabels, rfl⟩ :=
      ServiceClient.exists_of_findServer hfind
    obtain ⟨a, ha, haid, hannounces⟩ := hobserves.exists_announcer hres hke hextract
    obtain ⟨b, hb, hbid, rfl⟩ := hobserves.exists_server hget hm
    obtain ⟨c, hc, hcid, hqualifies⟩ :=
      hsessions a ha b hb (haid.trans hbid.symm) hannounces hlabels
    exact ⟨c, hc, hcid.trans (haid.trans hbid.symm), hqualifies⟩

end

/-! ## Two servers on the tests' session -/

open Reference

/-- A server without services, with a label. -/
def gpuServer : Server SessionId Unit := ((Server.builder session).addLabel "gpu").build

/-- The tests' client, which requires that label. -/
def gpuClient : ServiceClient := ⟨(helloService hello).ident, {"gpu"}, 0⟩

/-- Next to a server with labels and no service, the tests' server is found under labels it does
not have. -/
theorem not_selectsQualified_shared_session :
    ¬SelectsQualified [helloServer hello, gpuServer] gpuClient := by
  intro hselects
  have hservice : "Hello" ∈ (helloServer hello).services := by
    rw [← AList.lookup_isSome, ← name_helloService hello, lookup_helloServer]
    rfl
  have hlabels : gpuClient.labels ⊆ gpuServer.labels := by
    simp [gpuClient, gpuServer, Server.builder, ServerBuilder.addLabel, ServerBuilder.build]
  have hfinds : ∃ liveliness get, Observes [helloServer hello, gpuServer] liveliness get ∧
      gpuClient.findServer liveliness get = .ok gpuServer.instanceUuid :=
    exists_observes_findServer (a := helloServer hello) (by simp) (by simp) rfl hservice
      (gpuClient.intersects_rpcKe _) hlabels
  obtain ⟨liveliness, get, hobserves, hfind⟩ := hfinds
  obtain ⟨c, hc, _, hqualifies⟩ := hselects liveliness get hobserves _ hfind
  simp only [List.mem_cons, List.not_mem_nil, or_false] at hc
  rcases hc with rfl | rfl
  · have hgpu : "gpu" ∈ (helloServer hello).labels := hqualifies.labels (by simp [gpuClient])
    simp [helloServer, Server.builder, ServerBuilder.addService, ServerBuilder.build] at hgpu
  · exact AList.notMem_empty _ hqualifies.service

end ZenohRpc
