import ZenohRpc.Client.Channel
import ZenohRpc.Reference

/-!
# Addresses of methods

A client writes the name of a service and the name of a method into a selector; a server splits the
key expression of the query at its slashes, and takes the chunks in fixed places.  The two agree
exactly when the names are single chunks that zenoh passes on as they are.
-/

namespace ZenohRpc

open KeyExpr

variable {ZenohId World : Type} [Zenoh ZenohId]

/-- The query that a client makes for a service, a method and a request that was written. -/
def callQuery (serverId : ZenohId) (s m : String) (raw : Bytes) (tout handle : ℕ) : Query :=
  (RPCClientChannel.getRequest ⟨s⟩ serverId raw m tout).query handle

/-- A query that reaches the server and calls the service registered as `s`, with method `m`. -/
structure Server.Addressed (srv : Server ZenohId World) (query : Query) (svc : Service World)
    (s m : String) (payload : Bytes) : Prop where
  delivered : Intersects srv.queryableKe query.keyExpr
  dispatched : srv.dispatch query = .ok (.serviceCall svc query.keyExpr payload)
  service : getServiceName query.keyExpr = .ok s
  method : getMethodName query.keyExpr = .ok m

/-- Names that a selector carries as they are: each is a single chunk that is not verbatim, and the
method has no `?`, which would start the parameters of the selector. -/
structure Addressable (s m : String) : Prop where
  service : '/' ∉ s.toList
  service_notVerbatim : ¬Verbatim s
  method : '/' ∉ m.toList
  method_noQuestion : '?' ∉ m.toList
  method_notVerbatim : ¬Verbatim m

variable {srv : Server ZenohId World} {s m : String} {raw : Bytes} {tout handle : ℕ}

/-- A service that is announced has no `?` in its name. -/
lemma noQuestion_of_tokenKe (hs : Zenoh.isKeyExpr ZenohId (srv.tokenKe s) = true) :
    '?' ∉ s.toList := by
  have htoken := Zenoh.isKeyExpr_noQuestion _ hs
  simp only [Server.tokenKe, String.toList_append, List.mem_append, not_or] at htoken
  exact htoken.2.2

/-- The key expression of a call. -/
lemma keyExpr_callQuery (hs : '?' ∉ s.toList) (serverId : ZenohId) :
    (callQuery serverId s m raw tout handle).keyExpr =
      "@rpc" ++ "/" ++ Zenoh.display serverId ++ "/" ++
        ("service" ++ "/" ++ s ++ "/" ++ selectorKeyExpr m) :=
  by
  have hname : '?' ∉ (⟨s⟩ : RPCClientChannel).serviceName.toList := hs
  exact RPCClientChannel.selectorKeyExpr_selector_of_notMem hname serverId m

/-- What stands behind the session id in the key expression of a call. -/
lemma chunks_call (s m : String) :
    chunks ("service" ++ "/" ++ s ++ "/" ++ selectorKeyExpr m) =
      "service" :: (chunks s ++ chunks (selectorKeyExpr m)) := by
  rw [chunks_append, chunks_cons (by decide)]
  rfl

/-- The places of a call's key expression that a server looks at. -/
lemma getToken_callQuery (hs : '?' ∉ s.toList) (serverId : ZenohId) (i : ℕ) :
    getToken (callQuery serverId s m raw tout handle).keyExpr (i + 2) =
      ("service" :: (chunks s ++ chunks (selectorKeyExpr m)))[i]? := by
  rw [keyExpr_callQuery hs, getToken, chunks_rpc, chunks_call]
  rfl

/-- A method that the key expression of a call has a chunk for is without `?`. -/
lemma noQuestion_of_mem_chunks (h : m ∈ chunks (selectorKeyExpr m)) : '?' ∉ m.toList := by
  have hslash : '/' ∉ (selectorKeyExpr m).toList := fun hc =>
    notMem_of_mem_chunks h (mem_selectorKeyExpr hc).2
  rw [chunks_of_notMem hslash, List.mem_singleton] at h
  rw [h]
  exact fun hc => (mem_selectorKeyExpr hc).1 rfl

/-- A call on addressable names arrives at the service and the method named. -/
lemma Addressable.addressed (h : Addressable s m) (hs : '?' ∉ s.toList) {svc : Service World}
    (hsvc : srv.services.lookup s = some svc) :
    srv.Addressed (callQuery srv.instanceUuid s m raw tout handle) svc s m raw := by
  have hsel : selectorKeyExpr m = m := selectorKeyExpr_of_notMem h.method_noQuestion
  have htokens : ∀ i, getToken (callQuery srv.instanceUuid s m raw tout handle).keyExpr (i + 2) =
      ["service", s, m][i]? := by
    intro i
    rw [getToken_callQuery hs, hsel, chunks_of_notMem h.service, chunks_of_notMem h.method]
    rfl
  have hkind := htokens 0
  have hservice := htokens 1
  have hmethod := htokens 2
  simp only [List.getElem?_cons_zero, List.getElem?_cons_succ] at hkind hservice hmethod
  refine ⟨?_, Server.dispatch_of_dispatched (.service ⟨hkind, ⟨s, hservice, hsvc⟩, rfl⟩), ?_, ?_⟩
  · rw [keyExpr_callQuery hs, srv.intersects_queryableKe_iff, chunks_call, hsel,
      chunks_of_notMem h.service, chunks_of_notMem h.method]
    refine ⟨rfl, fun c hc => ?_⟩
    simp only [List.cons_append, List.nil_append, List.mem_cons, List.not_mem_nil, or_false] at hc
    rcases hc with rfl | rfl | rfl
    · decide
    · exact h.service_notVerbatim
    · exact h.method_notVerbatim
  · exact (getServiceName_eq_ok_iff _ _).mpr hservice
  · exact (getMethodName_eq_ok_iff _ _).mpr hmethod

/-- Names that a call arrives at are addressable. -/
lemma Server.Addressed.addressable (hs : '?' ∉ s.toList) {svc : Service World}
    (h : srv.Addressed (callQuery srv.instanceUuid s m raw tout handle) svc s m raw) :
    Addressable s m := by
  have hservice : (chunks s ++ chunks (selectorKeyExpr m))[0]? = some s := by
    have hname := (getServiceName_eq_ok_iff _ _).mp h.service
    rwa [getToken_callQuery hs _ 1, List.getElem?_cons_succ] at hname
  have hslash : '/' ∉ s.toList := by
    rw [← chunks_head_eq_iff, List.head?_eq_getElem?, ← hservice,
      List.getElem?_append_left (List.length_pos_of_ne_nil (chunks_ne_nil s))]
  have hchunk : m ∈ chunks (selectorKeyExpr m) := by
    have hname := (getMethodName_eq_ok_iff _ _).mp h.method
    rw [getToken_callQuery hs _ 2, chunks_of_notMem hslash, List.getElem?_cons_succ,
      List.singleton_append, List.getElem?_cons_succ] at hname
    exact List.mem_of_getElem? hname
  have hverbatim : ∀ c ∈ "service" :: (chunks s ++ chunks (selectorKeyExpr m)), ¬Verbatim c := by
    have hdelivered := h.delivered
    rw [keyExpr_callQuery hs, srv.intersects_queryableKe_iff, chunks_call] at hdelivered
    exact hdelivered.2
  exact ⟨hslash, hverbatim s (by simp [chunks_of_notMem hslash]), notMem_of_mem_chunks hchunk,
    noQuestion_of_mem_chunks hchunk, hverbatim m (by simp [hchunk])⟩

/-- The selector that a client formats for a service and a method addresses the two exactly when
zenoh refuses it, or the names are addressable. -/
theorem addressed_iff {svc : Service World} (hsvc : srv.services.lookup s = some svc)
    (hs : Zenoh.isKeyExpr ZenohId (srv.tokenKe s) = true) :
    (Zenoh.isKeyExpr ZenohId (callQuery srv.instanceUuid s m raw tout handle).keyExpr = true →
      srv.Addressed (callQuery srv.instanceUuid s m raw tout handle) svc s m raw) ↔
    (Zenoh.isKeyExpr ZenohId (callQuery srv.instanceUuid s m raw tout handle).keyExpr = false ∨
      Addressable s m) := by
  have hquestion := noQuestion_of_tokenKe hs
  constructor
  · intro h
    cases haccept : Zenoh.isKeyExpr ZenohId
        (callQuery srv.instanceUuid s m raw tout handle).keyExpr with
    | false => exact Or.inl rfl
    | true => exact Or.inr ((h haccept).addressable hquestion)
  · rintro (hrefuse | h) haccept
    · rw [hrefuse] at haccept
      cases haccept
    · exact h.addressed hquestion hsvc

/-! ## Addresses of the tests' server, and of a nested name -/

open Reference

/-- The tests' client addresses `hello`. -/
theorem addressed_hello : ∃ svc, (helloServer hello).Addressed
    (callQuery (helloServer hello).instanceUuid "Hello" "hello" [] 0 0) svc "Hello" "hello" [] := by
  have haccept : Zenoh.isKeyExpr SessionId ((helloServer hello).tokenKe "Hello") = true := by
    rw [Server.tokenKe, show (helloServer hello).instanceUuid = session.zid from rfl,
      display_session]
    decide
  have hcall : Zenoh.isKeyExpr SessionId
      (callQuery (helloServer hello).instanceUuid "Hello" "hello" [] 0 0).keyExpr = true := by
    rw [keyExpr_callQuery (by decide), show (helloServer hello).instanceUuid = session.zid from rfl,
      display_session]
    decide
  have hnames : Addressable "Hello" "hello" :=
    ⟨by decide, by decide, by decide, by decide, by decide⟩
  exact ⟨_, (addressed_iff (lookup_helloServer hello) haccept).mpr (Or.inr hnames) hcall⟩

/-- A service written by hand that answers with the message it is called with. -/
def echo (name : String) : Service Unit := .custom name fun _ msg => .returned (.ok msg)

/-- A server whose services have the names `a` and `a/b`. -/
def nestedServer : Server SessionId Unit :=
  (((Server.builder session).addService (echo "a")).addService (echo "a/b")).build

/-- Zenoh accepts the name `a/b` where it is announced and where it is called, and the call of `m`
on it arrives at the method `b` of the service `a`. -/
theorem not_addressed_nested :
    nestedServer.services.lookup "a/b" = some (echo "a/b") ∧
    Zenoh.isKeyExpr SessionId (nestedServer.tokenKe "a/b") = true ∧
    Zenoh.isKeyExpr SessionId
      (callQuery nestedServer.instanceUuid "a/b" "m" [] 0 0).keyExpr = true ∧
    nestedServer.Addressed (callQuery nestedServer.instanceUuid "a/b" "m" [] 0 0)
      (echo "a") "a" "b" [] ∧
    ¬nestedServer.Addressed (callQuery nestedServer.instanceUuid "a/b" "m" [] 0 0)
      (echo "a/b") "a/b" "m" [] := by
  have hkeyExpr : (callQuery nestedServer.instanceUuid "a/b" "m" [] 0 0).keyExpr =
      "@rpc" ++ "/" ++ Zenoh.display nestedServer.instanceUuid ++ "/" ++ "service/a/b/m" := by
    rw [keyExpr_callQuery (by decide)]
    exact congrArg _ (by decide)
  have htokens : ∀ i, getToken (callQuery nestedServer.instanceUuid "a/b" "m" [] 0 0).keyExpr
      (i + 2) = ["service", "a", "b", "m"][i]? := by
    intro i
    have hchunks : chunks "service/a/b/m" = ["service", "a", "b", "m"] := by decide
    rw [hkeyExpr, getToken, chunks_rpc, hchunks]
    rfl
  have hnested : nestedServer.services.lookup "a" = some (echo "a") :=
    (AList.lookup_insert_ne (by decide)).trans (AList.lookup_insert _)
  have hcalls : CallsService nestedServer (callQuery nestedServer.instanceUuid "a/b" "m" [] 0 0)
      (echo "a") [] := ⟨htokens 0, ⟨"a", htokens 1, hnested⟩, rfl⟩
  refine ⟨AList.lookup_insert _, ?_, ?_, ⟨?_, Server.dispatch_of_dispatched (.service hcalls),
    (getServiceName_eq_ok_iff _ _).mpr (htokens 1), (getMethodName_eq_ok_iff _ _).mpr (htokens 2)⟩,
    fun h => ?_⟩
  · rw [Server.tokenKe, show nestedServer.instanceUuid = session.zid from rfl, display_session]
    decide
  · rw [hkeyExpr, show nestedServer.instanceUuid = session.zid from rfl, display_session]
    decide
  · rw [hkeyExpr, nestedServer.intersects_queryableKe_iff]
    exact ⟨rfl, by decide⟩
  · exact absurd (h.addressable (by decide)).service (by decide)

end ZenohRpc
