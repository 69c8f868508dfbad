import ZenohRpc.Client.Addressing

/-!
# The status of a call

A reply carries a status and, apart from it, a payload.  `call_fun` looks at the payload first: a
payload that can be read makes a success, whatever the status says, and a payload that cannot be
read makes an error of the status, whatever it says.  So a client is told the truth exactly when
payload and status agree.

On the other side `service_call` answers every message of a service with the status `Ok`, and drops
the status that the message carries.
-/

namespace ZenohRpc

open Json KeyExpr

/-- Whether a code is one of success. -/
def Code.isSuccess : Code → Bool
  | ok | created | accepted => true
  | _ => false

/-! ## What a client makes of a reply -/

namespace RPCClientChannel

variable {ZenohId : Type} [Zenoh ZenohId] [Runtime] {T U : Type} [Serde T] [Serde U]

/-- The reply that `call_fun` looks at, when the query was sent and there is one. -/
def firstReply (ch : RPCClientChannel) (get : Get) (serverId : ZenohId) (request : Request T)
    (method : String) (tout : ℕ) : Option GetReply :=
  match ch.send get serverId request method tout with
  | .error _ => none
  | .ok dataReceiver => dataReceiver.head?

/-- What `call_fun` does: it reads the sample of the first reply, or makes an internal error where
there is none. -/
lemma callFun_cases [Debug T] (ch : RPCClientChannel) (get : Get) (serverId : ZenohId)
    (request : Request T) (method : String) (tout : ℕ) :
    (∃ rawData, ch.firstReply get serverId request method tout = some (.ok rawData) ∧
      ch.callFun U get serverId request method tout = readReply U rawData) ∨
    ((∀ rawData, ch.firstReply get serverId request method tout ≠ some (.ok rawData)) ∧
      ∃ text, ch.callFun U get serverId request method tout =
        .error (Status.new .internalError text)) := by
  unfold callFun firstReply
  cases ch.send get serverId request method tout with
  | error e => exact Or.inr ⟨by simp, _, rfl⟩
  | ok dataReceiver =>
    dsimp only
    cases dataReceiver.head? with
    | none => exact Or.inr ⟨by simp, _, rfl⟩
    | some reply =>
      cases reply with
      | error e => exact Or.inr ⟨by simp, _, rfl⟩
      | ok rawData => exact Or.inl ⟨rawData, rfl, rfl⟩

variable (U) in
/-- What a sample is read as: an internal error when it is no wire message, the status of the wire
message when there is no payload or one that cannot be read, and a response otherwise. -/
lemma readReply_cases (rawData : Bytes) :
    ((∀ wmsg, deserialize WireMessage rawData ≠ .ok wmsg) ∧
      ∃ text, readReply U rawData = .error (Status.new .internalError text)) ∨
    (∃ s, deserialize WireMessage rawData = .ok ⟨none, s⟩ ∧ readReply U rawData = .error s) ∨
    (∃ pl s, deserialize WireMessage rawData = .ok ⟨some pl, s⟩ ∧
      ((∃ m, deserialize U pl = .ok m ∧ readReply U rawData = .ok (Response.new m)) ∨
        ((∀ m, deserialize U pl ≠ .ok m) ∧ readReply U rawData = .error s))) := by
  unfold readReply
  cases deserialize WireMessage rawData with
  | error e => exact Or.inl ⟨by simp, _, rfl⟩
  | ok wmsg =>
    obtain ⟨payload, s⟩ := wmsg
    cases payload with
    | none => exact Or.inr (Or.inl ⟨s, rfl, rfl⟩)
    | some pl =>
      refine Or.inr (Or.inr ⟨pl, s, rfl, ?_⟩)
      cases hread : deserialize U pl with
      | ok m => exact Or.inl ⟨m, rfl, by simp only [hread]⟩
      | error e => exact Or.inr ⟨by simp, by simp only [hread]⟩

/-- An empty payload is read as an error with the status it came with. -/
lemma readReply_of_empty {rawData : Bytes} {s : Status}
    (h : deserialize WireMessage rawData = .ok ⟨some [], s⟩) : readReply U rawData = .error s := by
  unfold readReply
  rw [h]
  cases hread : deserialize U [] with
  | ok m => exact absurd hread (deserialize_nil m)
  | error e => simp only [hread]

/-! ## Telling the truth -/

/-- A result that neither reports a failure as a success nor a success as an error: a response was
read from a reply with a code of success, and an error has another code, unless the service sent
that very status without a payload. -/
structure Truthful (reply : Option GetReply) (res : Except Status (Response U)) : Prop where
  ok : ∀ r, res = .ok r → ∃ rawData pl s, reply = some (.ok rawData) ∧
    deserialize WireMessage rawData = .ok ⟨some pl, s⟩ ∧ s.code.isSuccess = true ∧
    deserialize U pl = .ok r.message
  error : ∀ s, res = .error s → s.code.isSuccess = true →
    ∃ rawData, reply = some (.ok rawData) ∧ deserialize WireMessage rawData = .ok ⟨none, s⟩

variable (U) in
/-- The payload of a reply, if it has one, can be read exactly when the status of the reply is one
of success. -/
def PayloadAgrees (reply : Option GetReply) : Prop :=
  ∀ rawData pl s, reply = some (.ok rawData) →
    deserialize WireMessage rawData = .ok ⟨some pl, s⟩ →
    ((∃ m, deserialize U pl = .ok m) ↔ s.code.isSuccess = true)

/-- A reply is read truthfully exactly when its payload and its status agree. -/
lemma readReply_truthful_iff (rawData : Bytes) :
    Truthful (some (.ok rawData)) (readReply U rawData) ↔ PayloadAgrees U (some (.ok rawData)) := by
  have hreply : ∀ rawData', some (Except.ok rawData) = some (Except.ok (ε := String) rawData') ↔
      rawData' = rawData := by
    intro rawData'
    rw [Option.some.injEq, Except.ok.injEq, eq_comm]
  rcases readReply_cases U rawData with
    ⟨hnone, text, hread⟩ | ⟨s, hwmsg, hread⟩ | ⟨pl, s, hwmsg, ⟨m, hm, hread⟩ | ⟨hm, hread⟩⟩
  · rw [hread]
    refine iff_of_true ⟨by simp, fun s hs hsuccess => ?_⟩ ?_
    · rw [← Except.error.inj hs] at hsuccess
      cases hsuccess
    · intro rawData' pl s hraw hwmsg
      rw [(hreply _).mp hraw] at hwmsg
      exact absurd hwmsg (hnone _)
  · rw [hread]
    refine iff_of_true ⟨by simp, fun s' hs _ => ?_⟩ ?_
    · rw [← Except.error.inj hs]
      exact ⟨rawData, rfl, hwmsg⟩
    · intro rawData' pl s' hraw hwmsg'
      rw [(hreply _).mp hraw, hwmsg] at hwmsg'
      cases hwmsg'
  · rw [hread]
    constructor
    · intro h rawData' pl' s' hraw hwmsg'
      obtain ⟨rawData'', pl'', s'', hraw'', hwmsg'', hsuccess, hread''⟩ := h.ok _ rfl
      rw [(hreply _).mp hraw, hwmsg] at hwmsg'
      rw [(hreply _).mp hraw'', hwmsg] at hwmsg''
      cases hwmsg'
      cases hwmsg''
      exact iff_of_true ⟨_, hread''⟩ hsuccess
    · intro h
      refine ⟨fun r hr => ?_, by simp⟩
      rw [← Except.ok.inj hr]
      exact ⟨rawData, pl, s, rfl, hwmsg, (h rawData pl s rfl hwmsg).mp ⟨m, hm⟩, hm⟩
  · rw [hread]
    constructor
    · intro h rawData' pl' s' hraw hwmsg'
      rw [(hreply _).mp hraw, hwmsg] at hwmsg'
      cases hwmsg'
      refine iff_of_false (by simpa using hm) fun hsuccess => ?_
      obtain ⟨rawData'', hraw'', hwmsg''⟩ := h.error s rfl hsuccess
      rw [(hreply _).mp hraw'', hwmsg] at hwmsg''
      cases hwmsg''
    · intro h
      refine ⟨by simp, fun s' hs hsuccess => ?_⟩
      rw [← Except.error.inj hs] at hsuccess
      obtain ⟨m, hread'⟩ := (h rawData pl s rfl hwmsg).mpr hsuccess
      exact absurd hread' (hm m)

/-- A call is truthful exactly when the payload and the status of the reply it looks at agree. -/
theorem callFun_truthful_iff [Debug T] (ch : RPCClientChannel) (get : Get) (serverId : ZenohId)
    (request : Request T) (method : String) (tout : ℕ) :
    Truthful (ch.firstReply get serverId request method tout)
        (ch.callFun U get serverId request method tout) ↔
      PayloadAgrees U (ch.firstReply get serverId request method tout) := by
  rcases ch.callFun_cases (U := U) get serverId request method tout with
    ⟨rawData, hreply, hcall⟩ | ⟨hnone, text, hcall⟩
  · rw [hreply, hcall]
    exact readReply_truthful_iff rawData
  · rw [hcall]
    refine iff_of_true ⟨by simp, fun s hs hsuccess => ?_⟩ ?_
    · rw [← Except.error.inj hs] at hsuccess
      cases hsuccess
    · intro rawData _ _ hraw
      exact absurd hraw (hnone rawData)

end RPCClientChannel

/-! ## Two replies that are not read truthfully -/

open Reference RPCClientChannel

/-- A reply with the status `Ok` whose payload cannot be read is an error with that status, and a
reply with the status `NotFound` whose payload can be read is a success. -/
theorem not_truthful :
    (∃ get : Get,
      (⟨"Hello"⟩ : RPCClientChannel).callFun String get session.zid (Request.new "") "hello" 0 =
        .error (Status.ok "") ∧
      ¬Truthful ((⟨"Hello"⟩ : RPCClientChannel).firstReply get session.zid (Request.new "")
          "hello" 0)
        ((⟨"Hello"⟩ : RPCClientChannel).callFun String get session.zid (Request.new "")
          "hello" 0)) ∧
    (∃ get : Get,
      (⟨"Hello"⟩ : RPCClientChannel).callFun String get session.zid (Request.new "") "hello" 0 =
        .ok (Response.new "found") ∧
      ¬Truthful ((⟨"Hello"⟩ : RPCClientChannel).firstReply get session.zid (Request.new "")
          "hello" 0)
        ((⟨"Hello"⟩ : RPCClientChannel).callFun String get session.zid (Request.new "")
          "hello" 0)) := by
  have hround : RoundTrips maxDepth (Request.new "") :=
    (Request.roundTrips (roundTrips_string "")).mono (by decide)
  obtain ⟨req, hreq, _⟩ := deserialize_serialize hround
  have hfirst : ∀ rawData : Bytes, (⟨"Hello"⟩ : RPCClientChannel).firstReply
      (fun _ => .ok [.ok rawData]) session.zid (Request.new "") "hello" 0 =
        some (.ok rawData) := by
    intro rawData
    simp only [firstReply, send, hreq, Except.mapError, List.head?_cons]
  constructor
  · obtain ⟨rawData, _, hwmsg⟩ := deserialize_serialize_wireMessage ⟨some [], Status.ok ""⟩
    refine ⟨fun _ => .ok [.ok rawData], (callFun_of_get hreq rfl).trans
      (readReply_of_empty hwmsg), ?_⟩
    rw [callFun_of_get hreq rfl, hfirst, readReply_truthful_iff]
    intro hagrees
    obtain ⟨m, hm⟩ := (hagrees rawData [] _ rfl hwmsg).mpr rfl
    exact deserialize_nil m hm
  · obtain ⟨pl, _, hm⟩ := deserialize_serialize
      ((roundTrips_string "found").mono (by decide : 0 ≤ maxDepth))
    obtain ⟨rawData, _, hwmsg⟩ :=
      deserialize_serialize_wireMessage ⟨some pl, Status.new .notFound ""⟩
    refine ⟨fun _ => .ok [.ok rawData], (callFun_of_get hreq rfl).trans
      (readReply_eq_ok_iff.mpr ⟨_, pl, "found", hwmsg, rfl, hm, rfl⟩), ?_⟩
    rw [callFun_of_get hreq rfl, hfirst, readReply_truthful_iff]
    intro hagrees
    exact absurd ((hagrees rawData pl _ rfl hwmsg).mp ⟨_, hm⟩) (by decide)

/-! ## What becomes of the status of a message -/

section Server

variable (ZenohId : Type) {World : Type} [Zenoh ZenohId] [Runtime]

/-- A reply that brings the status of a service's message to the caller: the wire message has that
status, and a client that expects a `U` and looks at the reply returns the code and the text of a
status that is none of success. -/
structure BringsStatus (U : Type) [Serde U] (bytes : Bytes) (status : Status) : Prop where
  wire : ∃ payload, deserialize WireMessage bytes = .ok ⟨payload, status⟩
  client : status.code.isSuccess = false →
    ∀ (T : Type) [Serde T] [Debug T] (ch : RPCClientChannel) (get : Get) (serverId : ZenohId)
      (request : Request T) (method : String) (tout : ℕ),
      ch.firstReply get serverId request method tout = some (.ok bytes) →
      ∃ s, ch.callFun U get serverId request method tout = .error s ∧
        s.code = status.code ∧ s.message = status.message

variable {ZenohId}

variable {srv : Server ZenohId World} {query : Query} {svc : Service World} {payload : Bytes}
  {methodName : String} {w : World} {msg : Message}

/-- A message that a service returns is replied with its body and the status `Ok`. -/
lemma Server.replyTo_of_call (hcalls : CallsService srv query svc payload)
    (hmethod : getMethodName query.keyExpr = .ok methodName)
    (hcall : (svc.call w (callMessage methodName payload)).outcome = .returned (.ok msg)) :
    ∃ bytes, srv.replyTo w query = some bytes ∧
      deserialize WireMessage bytes = .ok ⟨some msg.body, Status.ok ""⟩ := by
  have hrun : ((ServerTask.serviceCall svc query.keyExpr payload : ServerTask ZenohId World).run
      w).outcome = .returned (serviceReply (.ok msg)) := by
    simp only [ServerTask.run, serviceCall, hmethod, Exec.outcome_map, hcall, Outcome.map_returned]
  exact ⟨_, Server.replyTo_eq_some_iff.mpr
    ⟨_, _, Server.dispatch_of_dispatched (.service hcalls), hrun, rfl⟩,
    decode_sample_serviceReply (.ok msg)⟩

/-- A reply with the status `Ok` brings no other status. -/
lemma BringsStatus.eq_of_wire {U : Type} [Serde U] {bytes body : Bytes} {status : Status}
    (h : BringsStatus ZenohId U bytes status)
    (hwmsg : deserialize WireMessage bytes = .ok ⟨some body, Status.ok ""⟩) :
    status = Status.ok "" := by
  obtain ⟨body', hwire⟩ := h.wire
  rw [hwmsg] at hwire
  exact (WireMessage.mk.inj (Except.ok.inj hwire)).2.symm

/-- The status of a message that a service returns is brought to the caller exactly when it is the
one that `service_call` puts in its place. -/
theorem bringsStatus_iff (hcalls : CallsService srv query svc payload)
    (hmethod : getMethodName query.keyExpr = .ok methodName)
    (hcall : (svc.call w (callMessage methodName payload)).outcome = .returned (.ok msg))
    (U : Type) [Serde U] :
    ∃ bytes, srv.replyTo w query = some bytes ∧
      (BringsStatus ZenohId U bytes msg.status ↔ msg.status = Status.ok "") := by
  obtain ⟨bytes, hreply, hwmsg⟩ := Server.replyTo_of_call hcalls hmethod hcall
  refine ⟨bytes, hreply, fun h => h.eq_of_wire hwmsg, fun hstatus => ?_⟩
  rw [hstatus]
  exact ⟨⟨_, hwmsg⟩, fun hcode => absurd hcode (by decide)⟩

/-- A message that a generated service returns has the status that `service_call` answers with. -/
lemma GeneratedService.status_of_call (svc : GeneratedService World) {req : Message}
    (h : (svc.call w req).outcome = .returned (.ok msg)) : msg.status = Status.ok "" := by
  rcases svc.call_cases w req with ⟨me, _, _, hcall⟩ | ⟨_, hcall⟩
  · rcases me.arm_cases w req.body with ⟨_, harm⟩ | ⟨r, _, harm⟩
    · rw [hcall, harm] at h
      cases h
    · rw [hcall, harm] at h
      obtain ⟨res, _, hres⟩ := (Outcome.map_eq_returned_iff _ _ _).mp h
      cases res with
      | error e => cases hres
      | ok resp =>
        rw [← Except.ok.inj hres]
        rfl
  · rw [hcall] at h
    cases h

end Server

/-! ## A service that answers with a status -/

/-- A service written by hand that answers every call with a message made of a status. -/
def statusService (status : Status) : Service Unit :=
  .custom "Hello" fun _ _ => .returned (.ok status.toMessage)

/-- A server with that service. -/
def statusServer (status : Status) : Server SessionId Unit :=
  ((Server.builder session).addService (statusService status)).build

/-- A call of the service. -/
def statusQuery : Query := callQuery session.zid "Hello" "hello" [] 0 0

lemma callsService_statusQuery (status : Status) :
    CallsService (statusServer status) statusQuery (statusService status) [] := by
  have hnames : Addressable "Hello" "hello" :=
    ⟨by decide, by decide, by decide, by decide, by decide⟩
  have hsvc : (statusServer status).services.lookup "Hello" = some (statusService status) :=
    AList.lookup_insert ∅
  have haddressed : (statusServer status).Addressed statusQuery (statusService status) "Hello"
      "hello" [] := hnames.addressed (by decide) hsvc
  have hdispatched := Server.dispatch_eq_ok_iff.mp haddressed.dispatched
  cases hdispatched with
  | service h => exact h

lemma getMethodName_statusQuery : getMethodName statusQuery.keyExpr = .ok "hello" := by
  rw [getMethodName_eq_ok_iff]
  exact getToken_callQuery (by decide) session.zid 2

/-- The status `Ok` reaches the caller. -/
theorem bringsStatus_ok :
    ∃ bytes, (statusServer (Status.ok "")).replyTo () statusQuery = some bytes ∧
      BringsStatus SessionId String bytes (Status.ok "") := by
  obtain ⟨bytes, hreply, hiff⟩ := bringsStatus_iff (w := ())
    (callsService_statusQuery (Status.ok "")) getMethodName_statusQuery rfl String
  exact ⟨bytes, hreply, hiff.mpr rfl⟩

/-- A service answers with a message made of the status `NotFound`, and its caller gets an error
with the status `Ok`. -/
theorem not_bringsStatus_notFound :
    ∃ bytes, (statusServer (Status.new .notFound "gone")).replyTo () statusQuery = some bytes ∧
      readReply String bytes = .error (Status.ok "") ∧
      ¬BringsStatus SessionId String bytes (Status.new .notFound "gone") := by
  obtain ⟨bytes, hreply, hwmsg⟩ := Server.replyTo_of_call (w := ())
    (callsService_statusQuery (Status.new .notFound "gone")) getMethodName_statusQuery rfl
  refine ⟨bytes, hreply, readReply_of_empty hwmsg, fun h => ?_⟩
  exact absurd (h.eq_of_wire hwmsg) (by decide)

end ZenohRpc
