import ZenohRpc.Client.Discovery
import ZenohRpc.Reference

/-!
# What a client finds

`find_server` over whatever zenoh answers: tokens and errors in reply to the liveliness query, and
samples, errors and bytes of any kind in reply to the metadata queries that follow.

As long as an id can be read off every token, a client finds a server exactly when some announced
id is named by metadata with the labels wanted, and the order of the replies does not decide whether
it finds one.  A token that no id can be read off makes it fail, whatever else was announced.
-/

namespace ZenohRpc

open Json KeyExpr

variable {ZenohId : Type} [Zenoh ZenohId]

namespace ServiceClient

/-! ## From ids to metadata -/

/-- Reading an id off every token. -/
lemma mapM_extractIdFromKe {client : ServiceClient} {kes : List String} {ids : List ZenohId}
    (h : List.Forall₂ (fun ke id => client.extractIdFromKe ke = .ok id) kes ids) :
    kes.mapM (client.extractIdFromKe : String → Except Status ZenohId) = .ok ids := by
  induction h with
  | nil => rfl
  | cons hke _ ih =>
    rw [List.mapM_cons, hke, ih]
    rfl

/-- A token that no id can be read off spoils the whole list. -/
lemma mapM_extractIdFromKe_error {client : ServiceClient} {kes : List String} {ke : String}
    {e : Status} (hke : ke ∈ kes)
    (herr : (client.extractIdFromKe ke : Except Status ZenohId) = .error e) :
    ∃ e', kes.mapM (client.extractIdFromKe : String → Except Status ZenohId) = .error e' := by
  induction kes with
  | nil => cases hke
  | cons ke' kes ih =>
    rw [List.mapM_cons]
    rcases List.mem_cons.mp hke with rfl | hmem
    · exact ⟨e, by rw [herr]; rfl⟩
    · obtain ⟨e', hrest⟩ := ih hmem
      cases hke' : (client.extractIdFromKe ke' : Except Status ZenohId) with
      | error e'' => exact ⟨e'', rfl⟩
      | ok id => exact ⟨e', by rw [hrest]; rfl⟩

variable [Runtime] [DecidableEq ZenohId]

/-- When no `get` fails, what is collected is the metadata in the replies to each. -/
lemma collectMetadata_eq {get : ℕ → Get} (ids : List ZenohId) {tout : ℕ}
    (heard : List (ZenohId × List GetReply)) (n : ℕ)
    (hget : ∀ i id data, heard[i]? = some (id, data) →
      get (n + i) (metadataRequest id tout) = .ok data) :
    collectMetadata get ids tout n (heard.map Prod.fst) =
      .ok (heard.flatMap fun h => readMetadata ids h.2) := by
  induction heard generalizing n with
  | nil => rfl
  | cons h heard ih =>
    obtain ⟨id, data⟩ := h
    have hhead := hget 0 id data rfl
    have hrest := ih (n + 1) fun i id' data' hi => by
      have hnext := hget (i + 1) id' data' hi
      rwa [show n + (i + 1) = n + 1 + i by omega] at hnext
    rw [Nat.add_zero] at hhead
    rw [List.map_cons, collectMetadata, hhead]
    simp only [hrest, Except.map, List.flatMap_cons]

/-- What `find_server` makes of the metadata it collects: the id of one with the labels wanted, or
the error that there is none. -/
lemma findServer_cases {client : ServiceClient} {liveliness : Liveliness} {get : ℕ → Get}
    {res : List (Except String String)} {ids : List ZenohId}
    {metadatas : List (ServerMetadata ZenohId)} (hres : liveliness client.rpcKe = .ok res)
    (hids : (res.filterMap Except.toOption).mapM
      (client.extractIdFromKe : String → Except Status ZenohId) = .ok ids)
    (hmetadatas : getServersMetadata get ids client.tout = .ok metadatas) :
    (∃ m ∈ metadatas, client.labels ⊆ m.labels ∧ client.findServer liveliness get = .ok m.id) ∨
    ((∀ m ∈ metadatas, ¬client.labels ⊆ m.labels) ∧ (client.findServer liveliness get :
      Except Status ZenohId) = .error (Status.unavailable "No servers found")) := by
  simp only [findServer, hres, hids, hmetadatas]
  cases hlast : ((metadatas.filter fun m => decide (client.labels ⊆ m.labels)).map
      ServerMetadata.id).getLast? with
  | some id =>
    obtain ⟨m, hm, rfl⟩ := List.mem_map.mp (List.mem_of_mem_getLast? hlast)
    rw [List.mem_filter, decide_eq_true_eq] at hm
    exact Or.inl ⟨m, hm.1, hm.2, rfl⟩
  | none =>
    rw [List.getLast?_eq_none_iff, List.map_eq_nil_iff, List.filter_eq_nil_iff] at hlast
    exact Or.inr ⟨fun m hm => by simpa using hlast m hm, rfl⟩

/-- A client fails where zenoh lists a token that no id can be read off. -/
lemma findServer_error {client : ServiceClient} {liveliness : Liveliness} {get : ℕ → Get}
    {res : List (Except String String)} {ke : String} {e : Status}
    (hres : liveliness client.rpcKe = .ok res) (hke : .ok ke ∈ res)
    (herr : (client.extractIdFromKe ke : Except Status ZenohId) = .error e) :
    ∃ e', (client.findServer liveliness get : Except Status ZenohId) = .error e' := by
  have hmem : ke ∈ res.filterMap Except.toOption :=
    List.mem_filterMap.mpr ⟨.ok ke, hke, rfl⟩
  obtain ⟨e', hids⟩ := mapM_extractIdFromKe_error hmem herr
  exact ⟨e', by simp only [findServer, hres, hids]⟩

/-! ## Announcements and their replies -/

/-- A reply to the liveliness query: an error, or a token with the replies to the metadata query
that a client makes for it. -/
abbrev Announcement := Except String (String × List GetReply)

/-- The ids that a client reads off announcements, each with the replies for it. -/
inductive Hears (client : ServiceClient) :
    List Announcement → List (ZenohId × List GetReply) → Prop
  | nil : Hears client [] []
  | error {e : String} {anns : List Announcement} {heard : List (ZenohId × List GetReply)} :
      Hears client anns heard → Hears client (.error e :: anns) heard
  | token {ke : String} {id : ZenohId} {data : List GetReply} {anns : List Announcement}
      {heard : List (ZenohId × List GetReply)} :
      client.extractIdFromKe ke = .ok id → Hears client anns heard →
      Hears client (.ok (ke, data) :: anns) ((id, data) :: heard)

/-- Zenoh answers a client with announcements that it can read: it lists their tokens, and no
metadata query fails. -/
structure Discovers (client : ServiceClient) (anns : List Announcement)
    (heard : List (ZenohId × List GetReply)) (liveliness : Liveliness) (get : ℕ → Get) : Prop where
  listed : liveliness client.rpcKe = .ok (anns.map (Except.map Prod.fst))
  hears : Hears client anns heard
  answered : ∀ n id data, heard[n]? = some (id, data) →
    get n (metadataRequest id client.tout) = .ok data

/-- An announced id that decodable metadata in some reply names, with the labels wanted. -/
structure Offers (client : ServiceClient) (heard : List (ZenohId × List GetReply)) (id : ZenohId) :
    Prop where
  announced : id ∈ heard.map Prod.fst
  replied : ∃ id' data rawData pl s m, (id', data) ∈ heard ∧ .ok rawData ∈ data ∧
    deserialize WireMessage rawData = .ok ⟨some pl, s⟩ ∧
    deserialize (ServerMetadata ZenohId) pl = .ok m ∧ m.id = id ∧ client.labels ⊆ m.labels

/-- The same announcement, with its replies in another order. -/
inductive Announcement.Permutes : Announcement → Announcement → Prop
  | error {e : String} : Permutes (.error e) (.error e)
  | token {ke : String} {data data' : List GetReply} : data.Perm data' →
      Permutes (.ok (ke, data)) (.ok (ke, data'))

/-- The same announcements in another order, each with its replies in another order. -/
def Reorders (anns anns' : List Announcement) : Prop :=
  ∃ bs, anns.Perm bs ∧ List.Forall₂ Announcement.Permutes bs anns'

section

omit [Runtime] [DecidableEq ZenohId]

variable {client : ServiceClient} {anns anns' : List Announcement}
  {heard heard' : List (ZenohId × List GetReply)}

/-- What a client hears are the tokens announced. -/
lemma Hears.mem_iff (h : Hears client anns heard) {id : ZenohId} {data : List GetReply} :
    (id, data) ∈ heard ↔ ∃ ke, .ok (ke, data) ∈ anns ∧ client.extractIdFromKe ke = .ok id := by
  induction h with
  | nil => simp
  | error _ ih => simp [ih]
  | token hke _ ih =>
    rw [List.mem_cons, ih]
    constructor
    · rintro (heq | ⟨ke', hke', hid⟩)
      · cases heq
        exact ⟨_, List.mem_cons_self, hke⟩
      · exact ⟨ke', List.mem_cons_of_mem _ hke', hid⟩
    · rintro ⟨ke', hke', hid⟩
      rcases List.mem_cons.mp hke' with heq | hmem
      · cases heq
        rw [hke] at hid
        rw [Except.ok.inj hid]
        exact Or.inl rfl
      · exact Or.inr ⟨ke', hmem, hid⟩

/-- The tokens a client hears, in the order in which it reads their ids. -/
lemma Hears.forall₂ (h : Hears client anns heard) :
    List.Forall₂ (fun ke id => client.extractIdFromKe ke = .ok id)
      ((anns.map (Except.map Prod.fst)).filterMap Except.toOption) (heard.map Prod.fst) := by
  induction h with
  | nil => exact .nil
  | error _ ih => exact ih
  | token hke _ ih => exact .cons hke ih

/-- Announcements in another order announce the same tokens, with the same replies. -/
lemma Reorders.exists_mem (h : Reorders anns anns') {ke : String} {data : List GetReply}
    (hmem : .ok (ke, data) ∈ anns) : ∃ data', .ok (ke, data') ∈ anns' ∧ data.Perm data' := by
  obtain ⟨bs, hperm, hforall⟩ := h
  have hbs := hperm.mem_iff.mp hmem
  clear hperm hmem
  induction hforall with
  | nil => cases hbs
  | cons hpermutes _ ih =>
    rcases List.mem_cons.mp hbs with heq | htail
    · cases hpermutes with
      | error => cases heq
      | token hdata =>
        cases heq
        exact ⟨_, List.mem_cons_self, hdata⟩
    · obtain ⟨data', hmem', hdata⟩ := ih htail
      exact ⟨data', List.mem_cons_of_mem _ hmem', hdata⟩

/-- The first announcements are the second ones in another order, too. -/
lemma Reorders.symm (h : Reorders anns anns') : Reorders anns' anns := by
  have hsymm : ∀ a b : Announcement, a.Permutes b → b.Permutes a := by
    intro a b hab
    cases hab with
    | error => exact .error
    | token hdata => exact .token hdata.symm
  obtain ⟨bs, hperm, hforall⟩ := h
  obtain ⟨cs, hcs, hperm'⟩ := List.perm_comp_forall₂ hperm hforall
  exact ⟨cs, hperm'.symm, hcs.flip.imp fun a b hab => hsymm b a hab⟩

variable [Runtime]

/-- What is offered is still offered where more is heard. -/
lemma Offers.mono {id : ZenohId} (h : Offers client heard id)
    (hmem : ∀ id data, (id, data) ∈ heard → ∃ data', (id, data') ∈ heard' ∧ data ⊆ data') :
    Offers client heard' id := by
  obtain ⟨hannounced, id', data, rawData, pl, s, m, hid', hraw, hwmsg, hm, hname, hlabels⟩ := h
  obtain ⟨⟨_, data₀⟩, hannounced', rfl⟩ := List.mem_map.mp hannounced
  obtain ⟨data₀', hannounced'', _⟩ := hmem _ _ hannounced'
  obtain ⟨data', hid'', hdata⟩ := hmem _ _ hid'
  exact ⟨List.mem_map.mpr ⟨_, hannounced'', rfl⟩, id', data', rawData, pl, s, m, hid'',
    hdata hraw, hwmsg, hm, hname, hlabels⟩

/-- What is offered is offered whatever the order of the announcements and of their replies. -/
lemma Offers.of_reorders {id : ZenohId} (h : Offers client heard id)
    (hreorders : Reorders anns anns') (hears : Hears client anns heard)
    (hears' : Hears client anns' heard') : Offers client heard' id := by
  refine h.mono fun id data hid => ?_
  obtain ⟨ke, hke, hextract⟩ := hears.mem_iff.mp hid
  obtain ⟨data', hke', hdata⟩ := hreorders.exists_mem hke
  exact ⟨data', hears'.mem_iff.mpr ⟨ke, hke', hextract⟩, hdata.subset⟩

variable [DecidableEq ZenohId] {liveliness liveliness' : Liveliness} {get get' : ℕ → Get}

/-- A client that can read what it hears finds an offered id, or fails because there is none. -/
lemma Discovers.findServer_cases (h : Discovers client anns heard liveliness get) :
    (∃ id, Offers client heard id ∧ client.findServer liveliness get = .ok id) ∨
    ((∀ id, ¬Offers client heard id) ∧ (client.findServer liveliness get :
      Except Status ZenohId) = .error (Status.unavailable "No servers found")) := by
  have hmetadatas : getServersMetadata get (heard.map Prod.fst) client.tout =
      .ok (heard.flatMap fun p => readMetadata (heard.map Prod.fst) p.2) :=
    collectMetadata_eq _ heard 0 fun i id data hi => by
      rw [Nat.zero_add]
      exact h.answered i id data hi
  rcases ServiceClient.findServer_cases h.listed (mapM_extractIdFromKe h.hears.forall₂)
    hmetadatas with ⟨m, hm, hlabels, hfind⟩ | ⟨hnone, hfind⟩
  · obtain ⟨⟨id', data⟩, hheard, hread⟩ := List.mem_flatMap.mp hm
    obtain ⟨hannounced, rawData, pl, ⟨_, s⟩, hraw, hwmsg, rfl, hread⟩ := mem_readMetadata.mp hread
    exact Or.inl ⟨m.id, ⟨hannounced, id', data, rawData, pl, s, m, hheard, hraw, hwmsg, hread, rfl,
      hlabels⟩, hfind⟩
  · refine Or.inr ⟨fun id hoffers => ?_, hfind⟩
    obtain ⟨hannounced, id', data, rawData, pl, s, m, hheard, hraw, hwmsg, hread, rfl,
      hlabels⟩ := hoffers
    exact hnone m (List.mem_flatMap.mpr ⟨_, hheard, mem_readMetadata.mpr
      ⟨hannounced, rawData, pl, _, hraw, hwmsg, rfl, hread⟩⟩) hlabels

/-- A client finds a server exactly when one is offered. -/
lemma Discovers.exists_findServer_iff (h : Discovers client anns heard liveliness get) :
    (∃ id : ZenohId, client.findServer liveliness get = .ok id) ↔ ∃ id, Offers client heard id := by
  rcases h.findServer_cases with ⟨id, hoffers, hfind⟩ | ⟨hnone, hfind⟩
  · exact iff_of_true ⟨id, hfind⟩ ⟨id, hoffers⟩
  · exact iff_of_false (by simp [hfind]) (by simpa using hnone)

/-- Discovery is sound and complete.  What is found is offered, the failure to find a server has the
code `Unavailable` and means that none is offered, and the order in which tokens and metadata arrive
does not decide whether a server is found. -/
theorem Discovers.findServer_sound_complete (h : Discovers client anns heard liveliness get) :
    (∀ id, client.findServer liveliness get = .ok id → Offers client heard id) ∧
    ((∃ s, (client.findServer liveliness get : Except Status ZenohId) = .error s ∧
      s.code = .unavailable) ↔ ∀ id, ¬Offers client heard id) ∧
    (∀ anns' (heard' : List (ZenohId × List GetReply)) liveliness' get', Reorders anns anns' →
      Discovers client anns' heard' liveliness' get' →
      ((∃ id : ZenohId, client.findServer liveliness get = .ok id) ↔
        ∃ id : ZenohId, client.findServer liveliness' get' = .ok id)) := by
  refine ⟨fun id hid => ?_, ?_, fun anns' heard' liveliness' get' hreorders h' => ?_⟩
  · rcases h.findServer_cases with ⟨id', hoffers, hfind⟩ | ⟨_, hfind⟩
    · rw [hfind] at hid
      rwa [← Except.ok.inj hid]
    · rw [hfind] at hid
      cases hid
  · rcases h.findServer_cases with ⟨id, hoffers, hfind⟩ | ⟨hnone, hfind⟩
    · exact iff_of_false (by simp [hfind]) fun hnone => hnone id hoffers
    · exact iff_of_true ⟨_, hfind, rfl⟩ hnone
  · rw [h.exists_findServer_iff, h'.exists_findServer_iff]
    constructor
    · rintro ⟨id, hoffers⟩
      exact ⟨id, hoffers.of_reorders hreorders h.hears h'.hears⟩
    · rintro ⟨id, hoffers⟩
      exact ⟨id, hoffers.of_reorders hreorders.symm h'.hears h.hears⟩

/-! ## More announcements -/

omit [DecidableEq ZenohId] in
variable (client) in
/-- Zenoh lists some tokens and errors, and answers a metadata query by its id alone. -/
structure Answers (res : List (Except String String)) (replies : ZenohId → List GetReply)
    (liveliness : Liveliness) (get : ℕ → Get) : Prop where
  listed : liveliness client.rpcKe = .ok res
  answered : ∀ n id, get n (metadataRequest id client.tout) = .ok (replies id)

variable {res res' : List (Except String String)} {replies : ZenohId → List GetReply}

omit [Runtime] [DecidableEq ZenohId] in
/-- Where an id can be read off every token, a client hears every id, with the replies for it. -/
lemma exists_hears
    (hextract : ∀ ke, .ok ke ∈ res → ∃ id : ZenohId, client.extractIdFromKe ke = .ok id)
    (replies : ZenohId → List GetReply) :
    ∃ anns heard, anns.map (Except.map Prod.fst) = res ∧ Hears client anns heard ∧
      ∀ id data, (id, data) ∈ heard ↔ data = replies id ∧
        ∃ ke, .ok ke ∈ res ∧ client.extractIdFromKe ke = .ok id := by
  induction res with
  | nil => exact ⟨[], [], rfl, .nil, by simp⟩
  | cons r res ih =>
    obtain ⟨anns, heard, hanns, hears, hheard⟩ := ih fun ke hke => hextract ke (by simp [hke])
    cases r with
    | error e =>
      exact ⟨.error e :: anns, heard, by simp [hanns, Except.map], .error hears, by simp [hheard]⟩
    | ok ke =>
      obtain ⟨id, hid⟩ := hextract ke (by simp)
      refine ⟨.ok (ke, replies id) :: anns, (id, replies id) :: heard,
        by simp [hanns, Except.map], .token hid hears, fun id' data => ?_⟩
      rw [List.mem_cons, hheard]
      constructor
      · rintro (heq | ⟨hdata, ke', hke', hid'⟩)
        · cases heq
          exact ⟨rfl, ke, by simp, hid⟩
        · exact ⟨hdata, ke', by simp [hke'], hid'⟩
      · rintro ⟨rfl, ke', hke', hid'⟩
        rcases List.mem_cons.mp hke' with heq | htail
        · cases heq
          rw [hid] at hid'
          rw [Except.ok.inj hid']
          exact Or.inl rfl
        · exact Or.inr ⟨rfl, ke', htail, hid'⟩

omit [Runtime] [DecidableEq ZenohId] in
/-- Where an id can be read off every token, a client discovers all of them. -/
lemma Answers.exists_discovers (h : Answers client res replies liveliness get)
    (hextract : ∀ ke, .ok ke ∈ res → ∃ id : ZenohId, client.extractIdFromKe ke = .ok id) :
    ∃ anns heard, Discovers client anns heard liveliness get ∧
      ∀ id data, (id, data) ∈ heard ↔ data = replies id ∧
        ∃ ke, .ok ke ∈ res ∧ client.extractIdFromKe ke = .ok id := by
  obtain ⟨anns, heard, rfl, hears, hheard⟩ := exists_hears hextract replies
  refine ⟨anns, heard, ⟨h.listed, hears, fun n id data hn => ?_⟩, hheard⟩
  rw [h.answered, ((hheard id data).mp (List.mem_of_getElem? hn)).1]

/-- A client finds a server exactly when an id can be read off every token, and one is offered by
what it then hears. -/
lemma Answers.exists_findServer_iff (h : Answers client res replies liveliness get) :
    (∃ id : ZenohId, client.findServer liveliness get = .ok id) ↔
      (∀ ke, .ok ke ∈ res → ∃ id : ZenohId, client.extractIdFromKe ke = .ok id) ∧
      ∃ heard : List (ZenohId × List GetReply), (∃ id, Offers client heard id) ∧
        ∀ id data, (id, data) ∈ heard ↔ data = replies id ∧
          ∃ ke, .ok ke ∈ res ∧ client.extractIdFromKe ke = .ok id := by
  constructor
  · rintro hfind
    have hextract : ∀ ke, .ok ke ∈ res → ∃ id : ZenohId, client.extractIdFromKe ke = .ok id := by
      intro ke hke
      cases hid : (client.extractIdFromKe ke : Except Status ZenohId) with
      | ok id => exact ⟨id, rfl⟩
      | error e =>
        obtain ⟨id, hid'⟩ := hfind
        obtain ⟨e', herr⟩ : ∃ e', client.findServer liveliness get = .error e' :=
          findServer_error h.listed hke hid
        rw [hid'] at herr
        cases herr
    obtain ⟨anns, heard, hdiscovers, hheard⟩ := h.exists_discovers hextract
    exact ⟨hextract, heard, hdiscovers.exists_findServer_iff.mp hfind, hheard⟩
  · rintro ⟨hextract, heard, ⟨id, hoffers⟩, hheard⟩
    obtain ⟨anns, heard', hdiscovers, hheard'⟩ := h.exists_discovers hextract
    refine hdiscovers.exists_findServer_iff.mpr ⟨id, hoffers.mono fun id data hid => ?_⟩
    exact ⟨data, (hheard' id data).mpr ((hheard id data).mp hid), fun _ hr => hr⟩

/-- A client that finds a server still finds one where zenoh lists more, exactly when an id can be
read off every token that it lists. -/
theorem Answers.findServer_mono_iff (h : Answers client res replies liveliness get)
    (h' : Answers client res' replies liveliness' get) (hsub : res ⊆ res')
    (hfind : ∃ id : ZenohId, client.findServer liveliness get = .ok id) :
    (∃ id : ZenohId, client.findServer liveliness' get = .ok id) ↔
      ∀ ke, .ok ke ∈ res' → ∃ id : ZenohId, client.extractIdFromKe ke = .ok id := by
  refine ⟨fun hfind' => (h'.exists_findServer_iff.mp hfind').1, fun hextract' => ?_⟩
  obtain ⟨_, heard, ⟨id, hoffers⟩, hheard⟩ := h.exists_findServer_iff.mp hfind
  obtain ⟨anns', heard', _, hheard'⟩ := h'.exists_discovers hextract'
  refine h'.exists_findServer_iff.mpr ⟨hextract', heard', ⟨id, hoffers.mono fun id data hid => ?_⟩,
    hheard'⟩
  obtain ⟨hdata, ke, hke, hextract⟩ := (hheard id data).mp hid
  exact ⟨data, (hheard' id data).mpr ⟨hdata, ke, hsub hke, hextract⟩, fun _ hr => hr⟩

end

end ServiceClient

/-! ## Discovery of the tests' server -/

open Reference

/-- The tests' client, which requires no labels. -/
def helloClient : ServiceClient := ⟨(helloService hello).ident, ∅, 0⟩

/-- The token of the tests' server. -/
def helloToken : String := (helloServer hello).tokenKe helloClient.serviceIdent.toString

/-- Another server of the same service. -/
def otherServer : Server SessionId Unit :=
  ((Server.builder ⟨⟨0xb0, by decide, by decide⟩⟩).addService
    (.generated (helloService hello))).build

/-- The metadata that a server without labels replies with. -/
def metadataReply (id : SessionId) : Bytes := sample (serverMetadata ∅ id)

/-- Every metadata query is answered by the server that it is for. -/
def metadataGet (_ : ℕ) : Get := fun req =>
  .ok (((getToken (selectorKeyExpr req.selector) 1).bind fun t =>
    (SessionId.fromStr t).toOption).toList.map fun id => .ok (metadataReply id))

lemma metadataGet_metadataRequest (n : ℕ) (id : SessionId) (tout : ℕ) :
    metadataGet n (metadataRequest id tout) = .ok [.ok (metadataReply id)] := by
  have hid : getToken (selectorKeyExpr (metadataRequest id tout).selector) 1 =
      some id.display := by
    rw [keyExpr_metadataRequest, getToken, chunks_rpc]
    rfl
  rw [metadataGet, hid, Option.bind_some, SessionId.fromStr_display]
  rfl

lemma extractIdFromKe_helloToken : helloClient.extractIdFromKe helloToken = .ok session.zid :=
  helloClient.extractIdFromKe_eq session.zid _ (helloClient.intersects_rpcKe (helloServer hello))

lemma answers_hello (res : List (Except String String)) :
    helloClient.Answers res (fun id => [.ok (metadataReply id)]) (fun _ => .ok res) metadataGet :=
  ⟨rfl, fun n id => metadataGet_metadataRequest n id _⟩

/-- With the one token of the tests' server, the client finds it. -/
lemma findServer_hello :
    helloClient.findServer (fun _ => .ok [.ok helloToken]) metadataGet = .ok session.zid :=
  ServiceClient.findServer_of_reply (m := ⟨∅, session.zid⟩) rfl
    extractIdFromKe_helloToken (metadataGet_metadataRequest _ _ _)
    (decode_sample_serverMetadata _ _) (deserialize_metadataPayload _ _) (Finset.empty_subset _)

open ServiceClient in
/-- The tests' client finds the tests' server, which is offered. -/
theorem findServer_sound_complete_hello :
    ∃ heard, Discovers helloClient
        [.error "timeout", .ok (helloToken, [.ok (metadataReply session.zid)])] heard
        (fun _ => .ok [.error "timeout", .ok helloToken]) metadataGet ∧
      Offers helloClient heard session.zid := by
  have hdiscovers : Discovers helloClient
      [.error "timeout", .ok (helloToken, [.ok (metadataReply session.zid)])]
      [(session.zid, [.ok (metadataReply session.zid)])]
      (fun _ => .ok [.error "timeout", .ok helloToken]) metadataGet := by
    refine ⟨rfl, .error (.token extractIdFromKe_helloToken .nil), fun n id data hn => ?_⟩
    have hmem := List.mem_of_getElem? hn
    rw [List.mem_singleton] at hmem
    cases hmem
    exact metadataGet_metadataRequest _ _ _
  exact ⟨_, hdiscovers, hdiscovers.findServer_sound_complete.1 _ findServer_hello⟩

/-- The tests' client still finds a server where the token of another server is listed too. -/
theorem findServer_mono_hello : ∃ id : SessionId,
    helloClient.findServer (fun _ => .ok [.ok helloToken,
      .ok (otherServer.tokenKe helloClient.serviceIdent.toString)]) metadataGet = .ok id := by
  have hsub : ([.ok helloToken] : List (Except String String)) ⊆
      [.ok helloToken, .ok (otherServer.tokenKe helloClient.serviceIdent.toString)] := by simp
  refine ((answers_hello _).findServer_mono_iff (answers_hello _) hsub
    ⟨_, findServer_hello⟩).mpr fun ke hke => ?_
  simp only [List.mem_cons, Except.ok.injEq, List.not_mem_nil, or_false] at hke
  rcases hke with rfl | rfl
  · exact ⟨_, extractIdFromKe_helloToken⟩
  · exact ⟨_, helloClient.extractIdFromKe_eq otherServer.instanceUuid _
      (helloClient.intersects_rpcKe otherServer)⟩

/-- One token with another chunk in the place of the id, which the client's query returns too, and
the client does not find the tests' server any more. -/
theorem not_findServer_mono_foreign :
    Intersects helloClient.rpcKe "@rpc/zz/service/Hello" ∧
    helloClient.findServer (fun _ => .ok [.ok helloToken]) metadataGet = .ok session.zid ∧
    ∃ s, (helloClient.findServer
      (fun _ => .ok [.ok helloToken, .ok "@rpc/zz/service/Hello"]) metadataGet :
        Except Status SessionId) = .error s := by
  refine ⟨?_, findServer_hello, ?_⟩
  · have hchunks : chunks "@rpc/zz/service/Hello" = ["@rpc", "zz", "service", "Hello"] := by decide
    have hservice : chunks ("service" ++ "/" ++ helloClient.serviceIdent.toString) =
        ["service", "Hello"] := by decide
    rw [Intersects, helloClient.chunks_rpcKe, hchunks, hservice, overlap_cons_iff (by decide),
      overlap_star_cons_iff (by decide) (by decide)]
    exact overlap_self _
  · have herr : (helloClient.extractIdFromKe "@rpc/zz/service/Hello" : Except Status SessionId) =
        .error (Status.internalError
          "Unable to convert str to ZenohId: invalid hexadecimal digit") := by
      rfl
    exact ServiceClient.findServer_error rfl (by simp) herr

end ZenohRpc
