import ZenohRpc.Client.Channel

/-!
# Finding a server

`get_servers_metadata` of `zrpc/src/rpcchannel.rs`, and `find_server` and `extract_id_from_ke` of
the client that `#[service]` generates (`zrpc-derive/src/lib.rs`).  A client asks zenoh which
liveliness tokens of its service exist, reads the server ids off their keys, asks every id for its
metadata, and takes the id of the last server that carries the labels it wants.

The answers of zenoh are parameters: the tokens it lists for a key expression, and the replies to
the `n`-th `get`.
-/

namespace ZenohRpc

open Json KeyExpr

variable {ZenohId : Type} [Zenoh ZenohId]

/-- What a list is mapped to comes from its elements. -/
lemma exists_of_mapM_ok {α β ε : Type} {f : α → Except ε β} {as : List α} {bs : List β}
    (h : as.mapM f = .ok bs) {b : β} (hb : b ∈ bs) : ∃ a ∈ as, f a = .ok b := by
  induction as generalizing bs with
  | nil =>
    rw [List.mapM_nil] at h
    rw [← Except.ok.inj h] at hb
    cases hb
  | cons a as ih =>
    rw [List.mapM_cons] at h
    cases ha : f a with
    | error e => rw [ha] at h; cases h
    | ok b' =>
      cases has : as.mapM f with
      | error e => rw [ha, has] at h; cases h
      | ok bs' =>
        rw [ha, has] at h
        rw [← Except.ok.inj h] at hb
        rcases List.mem_cons.mp hb with rfl | htail
        · exact ⟨a, by simp, ha⟩
        · obtain ⟨a', ha', hfa'⟩ := ih has htail
          exact ⟨a', by simp [ha'], hfa'⟩

/-! ## The metadata of servers -/

/-- The `get` for the metadata of a server. -/
def metadataRequest (id : ZenohId) (tout : ℕ) : GetRequest where
  selector := "@rpc" ++ "/" ++ Zenoh.display id ++ "/" ++ "metadata"
  payload := none
  target := .all
  consolidation := .none
  timeout := tout

/-- The key expression of a metadata query. -/
lemma keyExpr_metadataRequest (id : ZenohId) (tout : ℕ) :
    selectorKeyExpr (metadataRequest id tout).selector =
      "@rpc" ++ "/" ++ Zenoh.display id ++ "/" ++ "metadata" := by
  refine selectorKeyExpr_of_notMem ?_
  simp [metadataRequest, Zenoh.display_noQuestion]

/-- The query of a metadata request asks for metadata. -/
lemma getToken_metadataRequest (id : ZenohId) (tout handle : ℕ) :
    getToken ((metadataRequest id tout).query handle).keyExpr 2 = some "metadata" := by
  rw [GetRequest.query, keyExpr_metadataRequest, getToken, chunks_rpc,
    chunks_of_notMem (s := "metadata") (by decide)]
  rfl

section

variable [Runtime] [DecidableEq ZenohId]

/-- The metadata in the replies to one `get`: of the samples that decode as a wire message whose
payload decodes as metadata of one of the ids. -/
def readMetadata (ids : List ZenohId) (data : List GetReply) : List (ServerMetadata ZenohId) :=
  (((data.filterMap Except.toOption).filterMap
    fun rawData => (deserialize WireMessage rawData).toOption).filterMap
      WireMessage.payload).filterMap
        (fun pl => (deserialize (ServerMetadata ZenohId) pl).toOption) |>.filter
          fun m => decide (m.id ∈ ids)

/-- The loop of `get_servers_metadata` from its `n`-th id on. -/
def collectMetadata (get : ℕ → Get) (ids : List ZenohId) (tout : ℕ) :
    ℕ → List ZenohId → Except Status (List (ServerMetadata ZenohId))
  | _, [] => .ok []
  | n, id :: rest =>
    match get n (metadataRequest id tout) with
    | .error e => .error (Status.new .internalError ("communication error: " ++ e))
    | .ok data =>
      (collectMetadata get ids tout (n + 1) rest).map fun totMetadata =>
        readMetadata ids data ++ totMetadata

/-- `RPCClientChannel::get_servers_metadata`. -/
def getServersMetadata (get : ℕ → Get) (ids : List ZenohId) (tout : ℕ) :
    Except Status (List (ServerMetadata ZenohId)) :=
  collectMetadata get ids tout 0 ids

/-- Metadata that is read comes from a reply. -/
lemma mem_readMetadata {ids : List ZenohId} {data : List GetReply} {m : ServerMetadata ZenohId} :
    m ∈ readMetadata ids data ↔ m.id ∈ ids ∧ ∃ rawData pl wmsg, .ok rawData ∈ data ∧
      deserialize WireMessage rawData = .ok wmsg ∧ wmsg.payload = some pl ∧
      deserialize (ServerMetadata ZenohId) pl = .ok m := by
  have htoOption : ∀ {ε α : Type} (x : Except ε α) (a : α), x.toOption = some a ↔ x = .ok a := by
    intro ε α x a
    cases x <;> simp [Except.toOption]
  simp only [readMetadata, List.mem_filter, List.mem_filterMap, htoOption, decide_eq_true_eq]
  constructor
  · rintro ⟨⟨pl, ⟨wmsg, ⟨rawData, ⟨_, hdata, rfl⟩, hwmsg⟩, hpl⟩, hm⟩, hid⟩
    exact ⟨hid, rawData, pl, wmsg, hdata, hwmsg, hpl, hm⟩
  · rintro ⟨hid, rawData, pl, wmsg, hdata, hwmsg, hpl, hm⟩
    exact ⟨⟨pl, ⟨wmsg, ⟨rawData, ⟨_, hdata, rfl⟩, hwmsg⟩, hpl⟩, hm⟩, hid⟩

/-- Metadata that is collected comes from a reply to a `get` for one of the ids. -/
lemma mem_collectMetadata {get : ℕ → Get} {ids rest : List ZenohId} {tout n : ℕ}
    {ms : List (ServerMetadata ZenohId)} (h : collectMetadata get ids tout n rest = .ok ms)
    {m : ServerMetadata ZenohId} (hm : m ∈ ms) :
    ∃ k, ∃ id ∈ rest, ∃ data, get k (metadataRequest id tout) = .ok data ∧
      m ∈ readMetadata ids data := by
  induction rest generalizing n ms with
  | nil =>
    rw [collectMetadata] at h
    rw [← Except.ok.inj h] at hm
    cases hm
  | cons id rest ih =>
    rw [collectMetadata] at h
    cases hget : get n (metadataRequest id tout) with
    | error e => rw [hget] at h; cases h
    | ok data =>
      rw [hget] at h
      cases hrest : collectMetadata get ids tout (n + 1) rest with
      | error e => rw [hrest] at h; cases h
      | ok tot =>
        rw [hrest] at h
        rw [← Except.ok.inj h, List.mem_append] at hm
        rcases hm with hhead | htail
        · exact ⟨n, id, by simp, data, hget, hhead⟩
        · obtain ⟨k, id', hid', data', hdata', hm'⟩ := ih hrest htail
          exact ⟨k, id', by simp [hid'], data', hdata', hm'⟩

end

/-! ## The generated client -/

/-- The client that `#[service]` generates, with what it uses to find a server. -/
structure ServiceClient where
  serviceIdent : Ident
  labels : Finset String
  tout : ℕ

/-- What zenoh lists for a liveliness query: an error, or replies with the keys of tokens. -/
abbrev Liveliness := String → Except String (List (Except String String))

namespace ServiceClient

/-- The channel of the client. -/
def channel (client : ServiceClient) : RPCClientChannel := ⟨client.serviceIdent.toString⟩

/-- The key expression of the liveliness query. -/
def rpcKe (client : ServiceClient) : String := "@rpc/*/service/" ++ client.serviceIdent.toString

/-- The format of the keys of tokens. -/
def keFormat (client : ServiceClient) : String :=
  "@rpc/$\x7bzid:*\x7d/service/" ++ client.serviceIdent.toString

/-- `extract_id_from_ke`. -/
def extractIdFromKe (client : ServiceClient) (ke : String) : Except Status ZenohId :=
  match Zenoh.keFormatParse ZenohId client.keFormat ke with
  | .error e => .error (Status.internalError ("Unable to parse key expression: " ++ e))
  | .ok parsed =>
    match parsed "zid" with
    | .error e =>
      .error (Status.internalError ("Unable to get server id from key expression: " ++ e))
    | .ok idStr =>
      (Zenoh.fromStr idStr).mapError fun e =>
        Status.internalError ("Unable to convert str to ZenohId: " ++ e)

variable [Runtime] [DecidableEq ZenohId]

/-- `find_server`. -/
def findServer (client : ServiceClient) (liveliness : Liveliness) (get : ℕ → Get) :
    Except Status ZenohId :=
  match liveliness client.rpcKe with
  | .error e => .error (Status.unavailable ("Unable to perform liveliness query: " ++ e))
  | .ok res =>
    match (res.filterMap Except.toOption).mapM client.extractIdFromKe with
    | .error e => .error e
    | .ok ids =>
      match getServersMetadata get ids client.tout with
      | .error e => .error e
      | .ok metadatas =>
        match ((metadatas.filter fun m => decide (client.labels ⊆ m.labels)).map
            ServerMetadata.id).getLast? with
        | some id => .ok id
        | none => .error (Status.unavailable "No servers found")

omit [Runtime] in
/-- The chunks of the key expression of the liveliness query. -/
lemma chunks_rpcKe (client : ServiceClient) :
    chunks client.rpcKe = "@rpc" :: "*" :: chunks ("service" ++ "/" ++
      client.serviceIdent.toString) := by
  have hlit : "@rpc/*/service/" = "@rpc" ++ "/" ++ "*" ++ "/" ++ ("service" ++ "/") := by decide
  unfold rpcKe
  rw [hlit, String.append_assoc, chunks_append]
  rfl

omit [Runtime] [DecidableEq ZenohId] in
/-- A client asks for the tokens of its service. -/
lemma intersects_rpcKe {World : Type} (client : ServiceClient) (srv : Server ZenohId World) :
    Intersects client.rpcKe (srv.tokenKe client.serviceIdent.toString) := by
  rw [Intersects, client.chunks_rpcKe, Server.tokenKe, chunks_rpc, overlap_cons_iff (by decide),
    overlap_star_cons_iff (Zenoh.display_plain _) (Zenoh.display_notVerbatim _)]
  exact overlap_self _

omit [Runtime] [DecidableEq ZenohId] in
/-- The id of a server is read off the key of its token. -/
lemma extractIdFromKe_eq (client : ServiceClient) (z : ZenohId) (tail : String)
    (h : Intersects client.rpcKe
      ("@rpc" ++ "/" ++ Zenoh.display z ++ "/" ++ ("service" ++ "/" ++ tail))) :
    client.extractIdFromKe ("@rpc" ++ "/" ++ Zenoh.display z ++ "/" ++
      ("service" ++ "/" ++ tail)) = .ok z := by
  obtain ⟨get, hparse, hzid⟩ := Zenoh.keFormatParse_zid z client.serviceIdent.toString tail
    client.serviceIdent.plain_toString client.serviceIdent.noSlash h
  unfold extractIdFromKe keFormat
  rw [hparse]
  simp only [hzid, Zenoh.fromStr_display, Except.mapError]

/-- A server that is found has sent metadata with the labels wanted, in reply to a `get` for the id
of a token that zenoh listed. -/
lemma exists_of_findServer {client : ServiceClient} {liveliness : Liveliness} {get : ℕ → Get}
    {id : ZenohId} (h : client.findServer liveliness get = .ok id) :
    ∃ res ids ke, ∃ id' : ZenohId, ∃ k data m, liveliness client.rpcKe = .ok res ∧ .ok ke ∈ res ∧
      client.extractIdFromKe ke = .ok id' ∧ get k (metadataRequest id' client.tout) = .ok data ∧
      m ∈ readMetadata ids data ∧ client.labels ⊆ m.labels ∧ m.id = id := by
  unfold findServer at h
  cases hres : liveliness client.rpcKe with
  | error e => rw [hres] at h; cases h
  | ok res =>
    simp only [hres] at h
    cases hids : (res.filterMap Except.toOption).mapM
        (client.extractIdFromKe : String → Except Status ZenohId) with
    | error e => rw [hids] at h; cases h
    | ok ids =>
      simp only [hids] at h
      cases hmetadatas : getServersMetadata get ids client.tout with
      | error e => rw [hmetadatas] at h; cases h
      | ok metadatas =>
        simp only [hmetadatas] at h
        split at h
        · rename_i id' hlast
          obtain rfl := Except.ok.inj h
          have hid := List.mem_of_mem_getLast? hlast
          obtain ⟨m, hm, rfl⟩ := List.mem_map.mp hid
          rw [List.mem_filter, decide_eq_true_eq] at hm
          obtain ⟨k, id', hid', data, hdata, hread⟩ := mem_collectMetadata hmetadatas hm.1
          obtain ⟨ke, hke, hextract⟩ := exists_of_mapM_ok hids hid'
          obtain ⟨r, hr, htoOption⟩ := List.mem_filterMap.mp hke
          cases r with
          | error e => cases htoOption
          | ok ke' =>
            obtain rfl := Option.some.inj htoOption
            exact ⟨res, ids, ke', id', k, data, m, rfl, hr, hextract, hdata, hread, hm.2, rfl⟩
        · cases h

/-- A client that hears of one token, and gets one reply with metadata of the token's server that
has the labels wanted, finds that server. -/
lemma findServer_of_reply {client : ServiceClient} {liveliness : Liveliness} {get : ℕ → Get}
    {ke : String} {m : ServerMetadata ZenohId} {rawData pl : Bytes} {status : Status}
    (hlive : liveliness client.rpcKe = .ok [.ok ke]) (hke : client.extractIdFromKe ke = .ok m.id)
    (hget : get 0 (metadataRequest m.id client.tout) = .ok [.ok rawData])
    (hwmsg : deserialize WireMessage rawData = .ok ⟨some pl, status⟩)
    (hm : deserialize (ServerMetadata ZenohId) pl = .ok m) (hlabels : client.labels ⊆ m.labels) :
    client.findServer liveliness get = .ok m.id := by
  have hids : (([.ok ke] : List (Except String String)).filterMap Except.toOption).mapM
      (client.extractIdFromKe : String → Except Status ZenohId) = .ok [m.id] := by
    simp only [List.filterMap_cons, Except.toOption, List.filterMap_nil, List.mapM_cons, hke,
      List.mapM_nil]
    rfl
  have hread : readMetadata [m.id] [.ok rawData] = [m] := by
    simp [readMetadata, Except.toOption, hwmsg, hm]
  have hmetadatas : getServersMetadata get [m.id] client.tout = .ok [m] := by
    simp only [getServersMetadata, collectMetadata, hget, hread]
    rfl
  simp [findServer, hlive, hids, hmetadatas, hlabels]

end ServiceClient

end ZenohRpc
