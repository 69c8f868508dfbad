import ZenohRpc.Client.Builder
import ZenohRpc.Client.FindServer
import ZenohRpc.Deployment.KeyExprs
import ZenohRpc.Server.Registry

/-!
# Discovery in a settled network

A network is settled for a client when zenoh lists the tokens of the running servers that the client
asks for, and nothing else, and answers each metadata query with the replies of the servers that it
reaches.  There, a client finds a server exactly when one qualifies, and one that it finds does:
provided that the servers have sessions of their own, and that services have identifiers for names,
as the generated ones do.

Whether a server qualifies can be read off the calls of the two builders.
-/

namespace ZenohRpc

open Json KeyExpr

variable {ZenohId World : Type}

/-! ## Mapping a list without failures -/

/-- A list is mapped as a whole where each of its elements is. -/
lemma exists_mapM_ok {α β ε : Type} {f : α → Except ε β} {as : List α}
    (h : ∀ a ∈ as, ∃ b, f a = .ok b) :
    ∃ bs, as.mapM f = .ok bs ∧ ∀ a ∈ as, ∀ b, f a = .ok b → b ∈ bs := by
  induction as with
  | nil => exact ⟨[], rfl, by simp⟩
  | cons a as ih =>
    obtain ⟨b, hb⟩ := h a List.mem_cons_self
    obtain ⟨bs, hbs, hmem⟩ := ih fun a' ha' => h a' (List.mem_cons_of_mem _ ha')
    refine ⟨b :: bs, by rw [List.mapM_cons, hb, hbs]; rfl, fun a' ha' b' hb' => ?_⟩
    rcases List.mem_cons.mp ha' with rfl | htail
    · rw [hb, Except.ok.injEq] at hb'
      exact hb' ▸ List.mem_cons_self
    · exact List.mem_cons_of_mem _ (hmem a' htail b' hb')

section

variable [Runtime] [Zenoh ZenohId]

/-- Where no metadata query fails, the metadata in the replies to each is collected. -/
lemma exists_collectMetadata [DecidableEq ZenohId] {get : ℕ → Get} {tout : ℕ}
    (hget : ∀ n (id : ZenohId), ∃ data, get n (metadataRequest id tout) = .ok data)
    (ids rest : List ZenohId) (n : ℕ) :
    ∃ ms, collectMetadata get ids tout n rest = .ok ms ∧ ∀ id ∈ rest, ∃ k data,
      get k (metadataRequest id tout) = .ok data ∧ readMetadata ids data ⊆ ms := by
  induction rest generalizing n with
  | nil => exact ⟨[], rfl, by simp⟩
  | cons id rest ih =>
    obtain ⟨data, hdata⟩ := hget n id
    obtain ⟨tot, htot, hread⟩ := ih (n + 1)
    refine ⟨readMetadata ids data ++ tot, by rw [collectMetadata, hdata, htot]; rfl, ?_⟩
    intro id' hid'
    rcases List.mem_cons.mp hid' with rfl | htail
    · exact ⟨n, data, hdata, List.subset_append_left _ _⟩
    · obtain ⟨k, data', hdata', hsub⟩ := hread id' htail
      exact ⟨k, data', hdata', List.Subset.trans hsub (List.subset_append_right _ _)⟩

/-! ## Settled networks -/

/-- Zenoh shows a client the running servers: the tokens that it asks for, in any order, next to any
errors, and in reply to a metadata query what the servers that it reaches reply. -/
structure Settled (running : List (Server ZenohId World)) (client : ServiceClient)
    (liveliness : Liveliness) (get : ℕ → Get) : Prop where
  listed : ∃ res, liveliness client.rpcKe = .ok res ∧ ∀ ke, .ok ke ∈ res ↔
    Intersects client.rpcKe ke ∧ ∃ a ∈ running, ∃ k ∈ a.services, ke = a.tokenKe k
  answered : ∀ n (id : ZenohId), ∃ data, get n (metadataRequest id client.tout) = .ok data ∧
    ∀ rawData, .ok rawData ∈ data ↔ ∃ b ∈ running, ∃ w handle,
      Intersects b.queryableKe (selectorKeyExpr (metadataRequest id client.tout).selector) ∧
        b.replyTo w ((metadataRequest id client.tout).query handle) = some rawData

variable {running : List (Server ZenohId World)} {client : ServiceClient}
  {liveliness : Liveliness} {get : ℕ → Get}

/-- The replies to a metadata query are the metadata of the servers with the id asked for. -/
lemma mem_replies_iff [Inhabited World] {id : ZenohId} {rawData : Bytes} :
    (∃ b ∈ running, ∃ w handle,
      Intersects b.queryableKe (selectorKeyExpr (metadataRequest id client.tout).selector) ∧
        b.replyTo w ((metadataRequest id client.tout).query handle) = some rawData) ↔
      ∃ b ∈ running, b.instanceUuid = id ∧
        rawData = sample (serverMetadata b.labels b.instanceUuid) := by
  constructor
  · rintro ⟨b, hb, w, handle, hreach, hreply⟩
    rw [replyTo_metadataRequest, Option.some.injEq] at hreply
    exact ⟨b, hb, (intersects_metadataRequest _ _).mp hreach, hreply.symm⟩
  · rintro ⟨b, hb, hid, rfl⟩
    exact ⟨b, hb, default, 0, (intersects_metadataRequest _ _).mpr hid,
      replyTo_metadataRequest _ _ _ _⟩

variable [DecidableEq ZenohId]

/-- The server that a client finds qualifies. -/
lemma Settled.qualifies [Inhabited World] (h : Settled running client liveliness get)
    (hsessions : (running.map Server.instanceUuid).Nodup)
    (hnames : ∀ a ∈ running, ∀ k ∈ a.services, ∃ s : Ident, k = s.toString) {id : ZenohId}
    (hfind : client.findServer liveliness get = .ok id) :
    ∃ b ∈ running, b.instanceUuid = id ∧ b.Qualifies client := by
  obtain ⟨res, ids, ke, id', n, data, m, hres, hke, hextract, hget, hm, hlabels, rfl⟩ :=
    ServiceClient.exists_of_findServer hfind
  obtain ⟨res', hres', hlisted⟩ := h.listed
  rw [hres, Except.ok.injEq] at hres'
  subst hres'
  obtain ⟨hintersects, a, ha, k, hk, rfl⟩ := (hlisted ke).mp hke
  obtain ⟨data', hdata', hanswered⟩ := h.answered n id'
  rw [hget, Except.ok.injEq] at hdata'
  subst hdata'
  obtain ⟨_, rawData, pl, wmsg, hraw, hwmsg, hpl, hread⟩ := mem_readMetadata.mp hm
  obtain ⟨b, hb, hid, rfl⟩ := mem_replies_iff.mp ((hanswered rawData).mp hraw)
  rw [decode_sample_serverMetadata] at hwmsg
  rw [← Except.ok.inj hwmsg, Option.some.injEq] at hpl
  rw [← hpl, deserialize_metadataPayload] at hread
  obtain rfl := Except.ok.inj hread
  -- the server that announced the id is the one that sent the metadata
  rw [Server.tokenKe, client.extractIdFromKe_eq a.instanceUuid _ hintersects,
    Except.ok.injEq] at hextract
  obtain rfl : a = b := List.inj_on_of_nodup_map hsessions ha hb (hextract.trans hid.symm)
  obtain ⟨s, rfl⟩ := hnames a ha k hk
  obtain rfl := (intersects_tokenKe_iff client a s).mp hintersects
  exact ⟨a, ha, rfl, hk, hlabels⟩

/-- A client finds a server if one qualifies. -/
lemma Settled.exists_findServer [Inhabited World] (h : Settled running client liveliness get)
    {b : Server ZenohId World} (hb : b ∈ running) (hqualifies : b.Qualifies client) :
    ∃ id : ZenohId, client.findServer liveliness get = .ok id := by
  obtain ⟨res, hres, hlisted⟩ := h.listed
  have hextract : ∀ ke ∈ res.filterMap Except.toOption,
      ∃ id : ZenohId, client.extractIdFromKe ke = .ok id := by
    intro ke hke
    obtain ⟨r, hr, htoOption⟩ := List.mem_filterMap.mp hke
    cases r with
    | error e => cases htoOption
    | ok ke' =>
      obtain rfl := Option.some.inj htoOption
      obtain ⟨hintersects, a, _, k, _, rfl⟩ := (hlisted ke').mp hr
      exact ⟨a.instanceUuid, client.extractIdFromKe_eq a.instanceUuid _ hintersects⟩
  obtain ⟨ids, hids, hmem⟩ := exists_mapM_ok hextract
  have htoken : .ok (b.tokenKe client.serviceIdent.toString) ∈ res :=
    (hlisted _).mpr ⟨client.intersects_rpcKe b, b, hb, _, hqualifies.service, rfl⟩
  have hid : b.instanceUuid ∈ ids := hmem _ (List.mem_filterMap.mpr ⟨_, htoken, rfl⟩) _
    (client.extractIdFromKe_eq b.instanceUuid _ (client.intersects_rpcKe b))
  have hget : ∀ n (id : ZenohId), ∃ data, get n (metadataRequest id client.tout) = .ok data :=
    fun n id => (h.answered n id).imp fun _ hdata => hdata.1
  obtain ⟨ms, hms, hread⟩ := exists_collectMetadata hget ids ids 0
  obtain ⟨n, data, hdata, hsub⟩ := hread _ hid
  obtain ⟨data', hdata', hanswered⟩ := h.answered n b.instanceUuid
  rw [hdata, Except.ok.injEq] at hdata'
  subst hdata'
  have hraw := (hanswered _).mpr (mem_replies_iff.mpr ⟨b, hb, rfl, rfl⟩)
  have hm : (⟨b.labels, b.instanceUuid⟩ : ServerMetadata ZenohId) ∈ ms :=
    hsub (mem_readMetadata.mpr ⟨hid, _, _, _, hraw, decode_sample_serverMetadata _ _, rfl,
      deserialize_metadataPayload _ _⟩)
  rcases ServiceClient.findServer_cases hres hids hms with ⟨m, _, _, hfind⟩ | ⟨hnone, _⟩
  · exact ⟨m.id, hfind⟩
  · exact absurd hqualifies.labels (hnone _ hm)

end

/-! ## What the builders were told -/

/-- The calls of a server builder and those of a client builder fit: a service was passed last under
the name of the client's service, and every label that was passed to the client builder was passed
to the server builder. -/
structure BuildersFit (serverCalls : List (BuilderCall ZenohId World)) (serviceIdent : Ident)
    (clientCalls : List ClientBuilderCall) : Prop where
  service : ∃ svc, PassedLast serverCalls serviceIdent.toString svc
  labels : ∀ c ∈ clientCalls, ∀ label ∈ c.passedLabels,
    ∃ c' ∈ serverCalls, label ∈ c'.passedLabels

/-- A registry has the keys for which a service was passed last. -/
lemma mem_services_ofCalls {session : Session ZenohId}
    {calls : List (BuilderCall ZenohId World)} {k : String} :
    k ∈ (Server.ofCalls session calls).services ↔ ∃ svc, PassedLast calls k svc := by
  rw [← AList.lookup_isSome, Option.isSome_iff_exists]
  exact exists_congr fun svc => lookup_ofCalls session calls k svc

/-- The labels of a server are those that were passed to its builder. -/
lemma mem_labels_ofCalls {session : Session ZenohId} {calls : List (BuilderCall ZenohId World)}
    {label : String} :
    label ∈ (Server.ofCalls session calls).labels ↔ ∃ c ∈ calls, label ∈ c.passedLabels := by
  have hlabels := (Server.builder session).mem_labels_runCalls calls label
  simpa [Server.ofCalls, ServerBuilder.build, Server.builder] using hlabels

/-- A server qualifies for a client exactly when the calls of their builders fit. -/
lemma qualifies_ofCalls_iff {session : Session ZenohId}
    {serverCalls : List (BuilderCall ZenohId World)} {serviceIdent : Ident} {timeoutS : UInt16}
    {clientCalls : List ClientBuilderCall} :
    (Server.ofCalls session serverCalls).Qualifies
        (ServiceClient.ofCalls serviceIdent timeoutS clientCalls) ↔
      BuildersFit serverCalls serviceIdent clientCalls := by
  have hservice : serviceIdent.toString ∈ (Server.ofCalls session serverCalls).services ↔
      ∃ svc, PassedLast serverCalls serviceIdent.toString svc := mem_services_ofCalls
  constructor
  · rintro ⟨hmem, hlabels⟩
    rw [ServiceClient.serviceIdent_ofCalls] at hmem
    refine ⟨hservice.mp hmem, fun c hc label hlabel => ?_⟩
    exact mem_labels_ofCalls.mp (hlabels ((ServiceClient.mem_labels_ofCalls _ _ _ _).mpr
      ⟨c, hc, hlabel⟩))
  · rintro ⟨hpassed, hlabels⟩
    refine ⟨?_, fun label hlabel => ?_⟩
    · rw [ServiceClient.serviceIdent_ofCalls]
      exact hservice.mpr hpassed
    · obtain ⟨c, hc, hpasses⟩ := (ServiceClient.mem_labels_ofCalls _ _ _ _).mp hlabel
      exact mem_labels_ofCalls.mpr (hlabels c hc label hpasses)

/-- Discovery does what the builders were told, whatever was called on them and in whatever order.
In a settled network whose servers have sessions of their own and services with identifiers for
names, a client finds a server exactly when the calls of some server's builder fit its own, and the
server that it finds is such a one. -/
theorem findServer_ofCalls_iff [Runtime] [Zenoh ZenohId] [DecidableEq ZenohId] [Inhabited World]
    {built : List (Session ZenohId × List (BuilderCall ZenohId World))} {serviceIdent : Ident}
    {timeoutS : UInt16} {clientCalls : List ClientBuilderCall} {liveliness : Liveliness}
    {get : ℕ → Get} (hsettled : Settled (built.map fun b => Server.ofCalls b.1 b.2)
      (ServiceClient.ofCalls serviceIdent timeoutS clientCalls) liveliness get)
    (hsessions : (built.map fun b => (Server.ofCalls b.1 b.2).instanceUuid).Nodup)
    (hnames : ∀ b ∈ built, ∀ k svc, PassedLast b.2 k svc → ∃ s : Ident, k = s.toString) :
    (∀ id, (ServiceClient.ofCalls serviceIdent timeoutS clientCalls).findServer liveliness get =
      .ok id → ∃ b ∈ built, (Server.ofCalls b.1 b.2).instanceUuid = id ∧
        BuildersFit b.2 serviceIdent clientCalls) ∧
    ((∃ id : ZenohId, (ServiceClient.ofCalls serviceIdent timeoutS clientCalls).findServer
      liveliness get = .ok id) ↔ ∃ b ∈ built, BuildersFit b.2 serviceIdent clientCalls) := by
  have hdistinct : ((built.map fun b => Server.ofCalls b.1 b.2).map
      Server.instanceUuid).Nodup := by
    rwa [List.map_map]
  have hidents : ∀ a ∈ built.map fun b => Server.ofCalls b.1 b.2, ∀ k ∈ a.services,
      ∃ s : Ident, k = s.toString := by
    intro a ha k hk
    obtain ⟨b, hb, rfl⟩ := List.mem_map.mp ha
    obtain ⟨svc, hsvc⟩ := mem_services_ofCalls.mp hk
    exact hnames b hb k svc hsvc
  have hsound : ∀ id, (ServiceClient.ofCalls serviceIdent timeoutS clientCalls).findServer
      liveliness get = .ok id → ∃ b ∈ built, (Server.ofCalls b.1 b.2).instanceUuid = id ∧
        BuildersFit b.2 serviceIdent clientCalls := by
    intro id hfind
    obtain ⟨a, ha, hid, hqualifies⟩ := hsettled.qualifies hdistinct hidents hfind
    obtain ⟨b, hb, rfl⟩ := List.mem_map.mp ha
    exact ⟨b, hb, hid, qualifies_ofCalls_iff.mp hqualifies⟩
  refine ⟨hsound, ?_, ?_⟩
  · rintro ⟨id, hfind⟩
    obtain ⟨b, hb, _, hfit⟩ := hsound id hfind
    exact ⟨b, hb, hfit⟩
  · rintro ⟨b, hb, hfit⟩
    exact hsettled.exists_findServer (List.mem_map_of_mem hb) (qualifies_ofCalls_iff.mpr hfit)

/-! ## The matching server of the tests -/

open Reference

/-- The calls of the tests that build a server with two labels. -/
def matchingCalls : List (BuilderCall SessionId Unit) :=
  [.addLabel "test-1", .addLabel "test-2", .addService (.generated (helloService hello))]

/-- The server that they build. -/
def matchingServer : Server SessionId Unit := Server.ofCalls session matchingCalls

/-- The client of the tests that requires one of the labels. -/
def matchingClient : ServiceClient :=
  ServiceClient.ofCalls (helloService hello).ident 60 [.addLabel "test-2"]

/-- That server has the service `Hello`. -/
lemma mem_services_matchingServer (k : String) : k ∈ matchingServer.services ↔ k = "Hello" :=
  (AList.mem_insert ∅).trans (or_iff_left (AList.notMem_empty k))

/-- What zenoh answers a client next to that server. -/
lemma settled_matchingServer : Settled [matchingServer] matchingClient
    (fun _ => .ok [.ok (matchingServer.tokenKe "Hello")])
    (fun _ req => if req = metadataRequest session.zid matchingClient.tout then
      .ok [.ok (sample (serverMetadata matchingServer.labels session.zid))] else .ok []) := by
  have htoken := matchingClient.intersects_rpcKe matchingServer
  refine ⟨⟨_, rfl, fun ke => ?_⟩, fun n id => ?_⟩
  · rw [List.mem_singleton, Except.ok.injEq]
    constructor
    · rintro rfl
      exact ⟨htoken, matchingServer, by simp, _, (mem_services_matchingServer _).mpr rfl, rfl⟩
    · rintro ⟨_, a, ha, k, hk, rfl⟩
      rw [List.mem_singleton.mp ha] at hk ⊢
      rw [(mem_services_matchingServer k).mp hk]
  · by_cases hid : id = session.zid
    · subst hid
      refine ⟨_, if_pos rfl, fun rawData => ?_⟩
      rw [mem_replies_iff, List.mem_singleton, Except.ok.injEq]
      constructor
      · rintro rfl
        exact ⟨matchingServer, by simp, rfl, rfl⟩
      · rintro ⟨b, hb, _, rfl⟩
        rw [List.mem_singleton.mp hb]
        rfl
    · have hother : metadataRequest id matchingClient.tout ≠
          metadataRequest session.zid matchingClient.tout := by
        intro heq
        have hreach : Intersects matchingServer.queryableKe
            (selectorKeyExpr (metadataRequest session.zid matchingClient.tout).selector) :=
          (intersects_metadataRequest _ _).mpr rfl
        rw [← heq, intersects_metadataRequest] at hreach
        exact hid hreach.symm
      refine ⟨_, if_neg hother, fun rawData => ?_⟩
      rw [mem_replies_iff]
      refine iff_of_false (List.not_mem_nil) ?_
      rintro ⟨b, hb, hsame, _⟩
      rw [List.mem_singleton.mp hb] at hsame
      exact hid hsame.symm

/-- The client of the tests finds a server that was built with the label that it requires. -/
theorem findServer_matching : ∃ id : SessionId, matchingClient.findServer
    (fun _ => .ok [.ok (matchingServer.tokenKe "Hello")])
    (fun _ req => if req = metadataRequest session.zid matchingClient.tout then
      .ok [.ok (sample (serverMetadata matchingServer.labels session.zid))] else .ok []) =
        .ok id := by
  have hservice := (mem_services_matchingServer "Hello").mpr rfl
  have hfit : BuildersFit matchingCalls (helloService hello).ident [.addLabel "test-2"] :=
    ⟨mem_services_ofCalls.mp hservice, by
      simp [matchingCalls, ClientBuilderCall.passedLabels, BuilderCall.passedLabels]⟩
  have hnames : ∀ b ∈ [(session, matchingCalls)], ∀ k svc, PassedLast b.2 k svc →
      ∃ s : Ident, k = s.toString := by
    intro b hb k svc hpassed
    rw [List.mem_singleton.mp hb] at hpassed
    have hmem : k ∈ matchingServer.services := mem_services_ofCalls.mpr ⟨svc, hpassed⟩
    exact ⟨(helloService hello).ident, (mem_services_matchingServer k).mp hmem⟩
  have hsettled : Settled ([(session, matchingCalls)].map fun b => Server.ofCalls b.1 b.2)
      (ServiceClient.ofCalls (helloService hello).ident 60 [.addLabel "test-2"]) _ _ :=
    settled_matchingServer
  exact (findServer_ofCalls_iff hsettled (List.nodup_singleton _) hnames).2.mpr
    ⟨_, List.mem_singleton_self _, hfit⟩

end ZenohRpc
