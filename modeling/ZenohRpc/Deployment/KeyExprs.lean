import ZenohRpc.Client.Calls
import ZenohRpc.Deployment.Selection

/-!
# Key expressions on both sides

A server formats the key expressions of its tokens and of its queryable; a client formats its
liveliness query, the format it reads ids with, its metadata queries and its calls.  They are six
separate texts, which have to fit each other: a client hears exactly of the servers of its service,
reads their ids, and its queries reach exactly the server they are for.
-/

namespace ZenohRpc

open KeyExpr

/-! ## Identifiers as chunks -/

namespace Ident

/-- The text of an identifier is not a verbatim chunk. -/
lemma notVerbatim_toString (i : Ident) : ¬Verbatim i.toString := fun h =>
  i.notMem_toString (by decide) (by decide) (List.mem_of_head? h)

/-- Identifiers with the same text are the same, since only raw ones have a `#`. -/
lemma toString_injective : Function.Injective Ident.toString := by
  have hhash : ∀ i : Ident, '#' ∉ i.name.toList := by
    intro i hmem
    exact absurd (i.name_chars '#' hmem) (by decide)
  rintro ⟨raw, name, _, hchars⟩ ⟨raw', name', _, hchars'⟩ h
  have hname := hhash ⟨raw, name, by assumption, hchars⟩
  have hname' := hhash ⟨raw', name', by assumption, hchars'⟩
  cases raw <;> cases raw' <;> simp only [toString, if_true, Bool.false_eq_true, if_false] at h
  · rw [Ident.mk.injEq]
    exact ⟨rfl, h⟩
  · exact absurd (by simp [h]) hname
  · exact absurd (by simp [← h]) hname'
  · rw [Ident.mk.injEq]
    exact ⟨rfl, by simpa using h⟩

end Ident

variable {ZenohId World : Type} [Zenoh ZenohId]

/-! ## Announcements -/

/-- The chunks behind the session id in the key of a token. -/
lemma chunks_service (s : Ident) : chunks ("service" ++ "/" ++ s.toString) =
    ["service", s.toString] := by
  rw [chunks_cons (by decide), chunks_of_notMem s.noSlash]

/-- A client hears exactly of the tokens of its service. -/
lemma intersects_tokenKe_iff (client : ServiceClient) (srv : Server ZenohId World) (s : Ident) :
    Intersects client.rpcKe (srv.tokenKe s.toString) ↔ s = client.serviceIdent := by
  rw [Intersects, client.chunks_rpcKe, Server.tokenKe, chunks_rpc, overlap_cons_iff (by decide),
    overlap_star_cons_iff (Zenoh.display_plain _) (Zenoh.display_notVerbatim _), chunks_service,
    chunks_service, overlap_cons_iff (by decide)]
  constructor
  · intro h
    exact (Ident.toString_injective
      (h.head_eq client.serviceIdent.plain_toString s.plain_toString)).symm
  · rintro rfl
    exact overlap_self _

/-! ## Calls -/

/-- A call of a method reaches exactly the servers with the id it is for. -/
lemma intersects_getRequest_iff (srv : Server ZenohId World) (client : ServiceClient) (m : Ident)
    (z : ZenohId) (raw : Bytes) (tout handle : ℕ) :
    Intersects srv.queryableKe
        ((client.channel.getRequest z raw m.toString tout).query handle).keyExpr ↔
      z = srv.instanceUuid := by
  have hname : '?' ∉ client.channel.serviceName.toList := client.serviceIdent.noQuestion
  have hke : ((client.channel.getRequest z raw m.toString tout).query handle).keyExpr =
      "@rpc" ++ "/" ++ Zenoh.display z ++ "/" ++
        ("service" ++ "/" ++ client.serviceIdent.toString ++ "/" ++ m.toString) := by
    have hsel := RPCClientChannel.selectorKeyExpr_selector_of_notMem hname z m.toString
    rw [selectorKeyExpr_of_notMem m.noQuestion] at hsel
    exact hsel
  rw [hke, srv.intersects_queryableKe_iff, eq_comm, chunks_append, chunks_service,
    chunks_of_notMem m.noSlash]
  refine and_iff_left fun c hc => ?_
  simp only [List.cons_append, List.nil_append, List.mem_cons, List.not_mem_nil, or_false] at hc
  rcases hc with rfl | rfl | rfl
  · decide
  · exact client.serviceIdent.notVerbatim_toString
  · exact m.notVerbatim_toString

/-! ## Agreement -/

/-- The key expressions of servers and clients agree, for all ids, services and methods.  A client
hears of a token exactly when it is of its service, and reads the id of the server off it; its
metadata query and its call for an id reach a server exactly when that is the server's id. -/
theorem keyExprs_agree (srv : Server ZenohId World) (client : ServiceClient) (s m : Ident)
    (z : ZenohId) (raw : Bytes) (tout handle : ℕ) :
    (Intersects client.rpcKe (srv.tokenKe s.toString) ↔ s = client.serviceIdent) ∧
    client.extractIdFromKe (srv.tokenKe client.serviceIdent.toString) = .ok srv.instanceUuid ∧
    (Intersects srv.queryableKe ((metadataRequest z tout).query handle).keyExpr ↔
      z = srv.instanceUuid) ∧
    (Intersects srv.queryableKe
        ((client.channel.getRequest z raw m.toString tout).query handle).keyExpr ↔
      z = srv.instanceUuid) := by
  refine ⟨intersects_tokenKe_iff client srv s, ?_, ?_,
    intersects_getRequest_iff srv client m z raw tout handle⟩
  · exact client.extractIdFromKe_eq srv.instanceUuid _ (client.intersects_rpcKe srv)
  · exact (intersects_metadataRequest z tout).trans eq_comm

end ZenohRpc
