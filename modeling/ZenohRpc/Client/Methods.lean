import ZenohRpc.Client.Discovery

/-!
# Client methods

The client method that `#[service]` generates for each method of a trait (`impl_client` of
`zrpc-derive/src/lib.rs`): it finds a server, and calls it.

The method waits at each query it makes.  `next` says what it does next, from the answers that it
has got so far, and `next_cases` that a client that goes on like this does what `find_server` does.
-/

namespace ZenohRpc

open Json KeyExpr

variable {ZenohId : Type}

/-! ## The generated method -/

section

variable [Zenoh ZenohId] [Runtime] [DecidableEq ZenohId]

variable (ZenohId) in
/-- The generated client method, with what zenoh answers to the liveliness query, to the metadata
queries in their order, and to the call. -/
def ServiceClient.callMethod (client : ServiceClient) {T : Type} [Serde T] [Debug T] (U : Type)
    [Serde U] (liveliness : Liveliness) (get : ℕ → Get) (getCall : Get) (method : Ident)
    (request : Request T) : Except Status (Response U) :=
  match (client.findServer liveliness get : Except Status ZenohId) with
  | .error e => .error e
  | .ok id => client.channel.callFun U getCall id request method.toString client.tout

end

/-! ## The method step by step -/

/-- What a client method does next: it lists the tokens, asks a server for its metadata, calls a
server, or returns an error. -/
inductive NextStep (ZenohId : Type)
  | list
  | ask (id : ZenohId)
  | call (id : ZenohId)
  | stop (e : Status)

/-- What zenoh answered to a liveliness query. -/
abbrev Listing := Except String (List (Except String String))

namespace ServiceClient

/-- The server that is called, from the metadata that was collected. -/
def select (client : ServiceClient) (metadatas : List (ServerMetadata ZenohId)) :
    NextStep ZenohId :=
  match ((metadatas.filter fun m => decide (client.labels ⊆ m.labels)).map
      ServerMetadata.id).getLast? with
  | some id => .call id
  | none => .stop (Status.unavailable "No servers found")

/-- Going on once the metadata is collected, or could not be. -/
def finish (client : ServiceClient) :
    Except Status (List (ServerMetadata ZenohId)) → NextStep ZenohId
  | .error e => .stop e
  | .ok metadatas => client.select metadatas

variable [Zenoh ZenohId] [Runtime] [DecidableEq ZenohId]

/-- Going on with the ids that are left, from the answers to the queries for them. -/
def nextAsk (client : ServiceClient) (ids : List ZenohId) :
    List ZenohId → List (Except String (List GetReply)) → List (ServerMetadata ZenohId) →
    NextStep ZenohId
  | [], _, totMetadata => client.select totMetadata
  | id :: _, [], _ => .ask id
  | _ :: _, .error e :: _, _ => .stop (Status.new .internalError ("communication error: " ++ e))
  | _ :: rest, .ok data :: answers, totMetadata =>
    client.nextAsk ids rest answers (totMetadata ++ readMetadata ids data)

/-- What a client method does next, from what the liveliness query listed and from the answers to
the metadata queries it has made. -/
def next (client : ServiceClient) (listed : Option Listing)
    (answers : List (Except String (List GetReply))) : NextStep ZenohId :=
  match listed with
  | none => .list
  | some (.error e) => .stop (Status.unavailable ("Unable to perform liveliness query: " ++ e))
  | some (.ok res) =>
    match (res.filterMap Except.toOption).mapM client.extractIdFromKe with
    | .error e => .stop e
    | .ok ids => client.nextAsk ids ids answers []

/-! ## Step by step it is the same method -/

variable (ZenohId) in
/-- What zenoh answers is what a client method has got so far. -/
structure Replays (client : ServiceClient) (listed : Option Listing)
    (answers : List (Except String (List GetReply))) (liveliness : Liveliness) (get : ℕ → Get) :
    Prop where
  lists : ∀ l, listed = some l → liveliness client.rpcKe = l
  answered : ∀ res (ids : List ZenohId), listed = some (.ok res) →
    (res.filterMap Except.toOption).mapM client.extractIdFromKe = .ok ids →
    ∀ (n : ℕ) id answer, ids[n]? = some id → answers[n]? = some answer →
    get n (metadataRequest id client.tout) = answer

/-- A client asks for the metadata of another id, or has collected what `get_servers_metadata`
collects. -/
lemma nextAsk_cases {client : ServiceClient} {get : ℕ → Get} (ids : List ZenohId)
    {rest : List ZenohId} {answers : List (Except String (List GetReply))}
    (totMetadata : List (ServerMetadata ZenohId)) (n : ℕ)
    (hget : ∀ (i : ℕ) id answer, rest[i]? = some id → answers[i]? = some answer →
      get (n + i) (metadataRequest id client.tout) = answer) :
    (∃ id, client.nextAsk ids rest answers totMetadata = .ask id) ∨
    client.nextAsk ids rest answers totMetadata =
      client.finish ((collectMetadata get ids client.tout n rest).map (totMetadata ++ ·)) := by
  induction rest generalizing answers totMetadata n with
  | nil =>
    refine Or.inr ?_
    simp only [nextAsk, collectMetadata, Except.map, finish, List.append_nil]
  | cons id rest ih =>
    cases answers with
    | nil => exact Or.inl ⟨id, rfl⟩
    | cons answer answers =>
      have hhead := hget 0 id answer rfl rfl
      rw [Nat.add_zero] at hhead
      cases answer with
      | error e =>
        refine Or.inr ?_
        simp only [nextAsk, collectMetadata, hhead, Except.map, finish]
      | ok data =>
        have hrest := ih (totMetadata ++ readMetadata ids data) (n + 1) fun i id' a hi ha => by
          have hnext := hget (i + 1) id' a hi ha
          rwa [show n + (i + 1) = n + 1 + i by omega] at hnext
        rw [nextAsk]
        refine hrest.imp_right fun heq => ?_
        rw [heq, collectMetadata, hhead]
        cases collectMetadata get ids client.tout (n + 1) rest with
        | error e => rfl
        | ok tot => simp only [Except.map, List.append_assoc]

/-- What `find_server` makes of the metadata it collects. -/
lemma findServer_eq_finish {client : ServiceClient} {liveliness : Liveliness} {get : ℕ → Get}
    {res : List (Except String String)} {ids : List ZenohId}
    (hres : liveliness client.rpcKe = .ok res)
    (hids : (res.filterMap Except.toOption).mapM client.extractIdFromKe = .ok ids) :
    (∃ id, client.finish (getServersMetadata get ids client.tout) = .call id ∧
      client.findServer liveliness get = .ok id) ∨
    (∃ e, client.finish (getServersMetadata get ids client.tout) = .stop e ∧
      (client.findServer liveliness get : Except Status ZenohId) = .error e) := by
  simp only [findServer, hres, hids]
  cases getServersMetadata get ids client.tout with
  | error e => exact Or.inr ⟨e, rfl, rfl⟩
  | ok metadatas =>
    simp only [finish, select]
    cases ((metadatas.filter fun m => decide (client.labels ⊆ m.labels)).map
        ServerMetadata.id).getLast? with
    | some id => exact Or.inl ⟨id, rfl, rfl⟩
    | none => exact Or.inr ⟨_, rfl, rfl⟩

/-- A client method that goes on from the answers it has got makes a further query, or calls the
server that `find_server` finds, or returns the error of `find_server`. -/
lemma Replays.next_cases {client : ServiceClient} {listed : Option Listing}
    {answers : List (Except String (List GetReply))} {liveliness : Liveliness} {get : ℕ → Get}
    (h : client.Replays ZenohId listed answers liveliness get) :
    client.next listed answers = (.list : NextStep ZenohId) ∨
    (∃ id : ZenohId, client.next listed answers = .ask id) ∨
    (∃ id : ZenohId, client.next listed answers = .call id ∧
      client.findServer liveliness get = .ok id) ∨
    (∃ e, client.next listed answers = (.stop e : NextStep ZenohId) ∧
      (client.findServer liveliness get : Except Status ZenohId) = .error e) := by
  cases listed with
  | none => exact Or.inl rfl
  | some l =>
    refine Or.inr ?_
    have hl := h.lists l rfl
    cases l with
    | error e =>
      exact Or.inr (Or.inr ⟨_, rfl, by simp only [findServer, hl]⟩)
    | ok res =>
      simp only [next]
      cases hids : (res.filterMap Except.toOption).mapM
          (client.extractIdFromKe : String → Except Status ZenohId) with
      | error e => exact Or.inr (Or.inr ⟨e, rfl, by simp only [findServer, hl, hids]⟩)
      | ok ids =>
        rcases nextAsk_cases ids [] 0 fun i id answer hi ha => by
            rw [Nat.zero_add]
            exact h.answered res ids rfl hids i id answer hi ha with hask | hfinish
        · exact Or.inl hask
        · refine Or.inr ?_
          have hmap : (collectMetadata get ids client.tout 0 ids).map ([] ++ ·) =
              getServersMetadata get ids client.tout := by
            rw [getServersMetadata]
            cases collectMetadata get ids client.tout 0 ids <;> rfl
          rw [hmap] at hfinish
          simp only [hfinish]
          exact findServer_eq_finish hl hids

/-! ## What a call rests on -/

/-- A client that goes on to call a server has read metadata with the labels it wants. -/
lemma exists_of_nextAsk_call {client : ServiceClient} {ids rest : List ZenohId}
    {answers : List (Except String (List GetReply))} {totMetadata : List (ServerMetadata ZenohId)}
    {id : ZenohId} (h : client.nextAsk ids rest answers totMetadata = .call id) :
    ∃ m : ServerMetadata ZenohId, client.labels ⊆ m.labels ∧ m.id = id ∧
      (m ∈ totMetadata ∨ ∃ data, .ok data ∈ answers ∧ m ∈ readMetadata ids data) := by
  induction rest generalizing answers totMetadata with
  | nil =>
    rw [nextAsk, select] at h
    split at h
    · rename_i id' hlast
      obtain rfl := NextStep.call.inj h
      obtain ⟨m, hm, rfl⟩ := List.mem_map.mp (List.mem_of_mem_getLast? hlast)
      rw [List.mem_filter, decide_eq_true_eq] at hm
      exact ⟨m, hm.2, rfl, Or.inl hm.1⟩
    · cases h
  | cons id' rest ih =>
    cases answers with
    | nil => cases h
    | cons answer answers =>
      cases answer with
      | error e => cases h
      | ok data =>
        rw [nextAsk] at h
        obtain ⟨m, hlabels, hid, hm⟩ := ih h
        refine ⟨m, hlabels, hid, ?_⟩
        rcases hm with hold | ⟨data', hdata', hread⟩
        · rcases List.mem_append.mp hold with htot | hread
          · exact Or.inl htot
          · exact Or.inr ⟨data, List.mem_cons_self, hread⟩
        · exact Or.inr ⟨data', List.mem_cons_of_mem _ hdata', hread⟩

/-- A client that calls a server has heard a token with the server's id, and has read metadata with
that id and the labels it wants. -/
lemma exists_of_next_call {client : ServiceClient} {listed : Option Listing}
    {answers : List (Except String (List GetReply))} {id : ZenohId}
    (h : client.next listed answers = .call id) :
    ∃ res ids ke data m, listed = some (.ok res) ∧ .ok ke ∈ res ∧
      client.extractIdFromKe ke = .ok id ∧ .ok data ∈ answers ∧ m ∈ readMetadata ids data ∧
      m.id = id ∧ client.labels ⊆ m.labels := by
  cases listed with
  | none => cases h
  | some l =>
    cases l with
    | error e => cases h
    | ok res =>
      simp only [next] at h
      cases hids : (res.filterMap Except.toOption).mapM
          (client.extractIdFromKe : String → Except Status ZenohId) with
      | error e => rw [hids] at h; cases h
      | ok ids =>
        rw [hids] at h
        obtain ⟨m, hlabels, hid, htot | ⟨data, hdata, hread⟩⟩ := exists_of_nextAsk_call h
        · cases htot
        · obtain ⟨hmem, _⟩ := mem_readMetadata.mp hread
          obtain ⟨ke, hke, hextract⟩ := exists_of_mapM_ok hids hmem
          obtain ⟨r, hr, htoOption⟩ := List.mem_filterMap.mp hke
          cases r with
          | error e => cases htoOption
          | ok ke' =>
            obtain rfl := Option.some.inj htoOption
            exact ⟨res, ids, ke', data, m, rfl, hr, hid ▸ hextract, hdata, hread, hid, hlabels⟩

end ServiceClient

end ZenohRpc
