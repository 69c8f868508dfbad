import ZenohRpc.Service.Generated
import Mathlib.Data.List.AList

/-!
# Building a server

`ServerBuilder` and `Server` of `zrpc/src/server.rs`.  The registry maps names to services; a
server's identity is the id of the session it was built on, so servers built on one session share
it.
-/

namespace ZenohRpc

open KeyExpr

/-- `HashMap<String, Arc<dyn Service + Send + Sync>>`. -/
abbrev Registry (World : Type) := AList fun _ : String => Service World

/-- What the crate uses of a zenoh session as a value: its id. -/
structure Session (ZenohId : Type) where
  zid : ZenohId

variable {ZenohId World : Type}

/-- `ServerBuilder`. -/
structure ServerBuilder (ZenohId World : Type) where
  session : Session ZenohId
  services : Registry World
  labels : Finset String

/-- `Server`, without the tokens it keeps once it serves. -/
structure Server (ZenohId World : Type) where
  session : Session ZenohId
  services : Registry World
  labels : Finset String

namespace ServerBuilder

/-- `ServerBuilder::session`. -/
def setSession (b : ServerBuilder ZenohId World) (session : Session ZenohId) :
    ServerBuilder ZenohId World :=
  { b with session := session }

/-- `ServerBuilder::add_service`. -/
def addService (b : ServerBuilder ZenohId World) (svc : Service World) :
    ServerBuilder ZenohId World :=
  { b with services := b.services.insert svc.name svc }

/-- `ServerBuilder::services`: the map given takes the place of the one built so far. -/
def setServices (b : ServerBuilder ZenohId World) (services : Registry World) :
    ServerBuilder ZenohId World :=
  { b with services := services }

/-- `ServerBuilder::add_label`. -/
def addLabel (b : ServerBuilder ZenohId World) (label : String) : ServerBuilder ZenohId World :=
  { b with labels := insert label b.labels }

/-- `ServerBuilder::labels`: the labels given are added to the ones built so far. -/
def extendLabels (b : ServerBuilder ZenohId World) (labels : List String) :
    ServerBuilder ZenohId World :=
  { b with labels := b.labels ∪ labels.toFinset }

/-- `ServerBuilder::build`. -/
def build (b : ServerBuilder ZenohId World) : Server ZenohId World :=
  ⟨b.session, b.services, b.labels⟩

end ServerBuilder

namespace Server

/-- `Server::builder`. -/
def builder (session : Session ZenohId) : ServerBuilder ZenohId World := ⟨session, ∅, ∅⟩

/-- `Server::instance_uuid`: the id of the session. -/
def instanceUuid (srv : Server ZenohId World) : ZenohId := srv.session.zid

/-- The builder builds every server. -/
lemma build_eq (session : Session ZenohId) (srv : Server ZenohId World) :
    ((((builder session).setSession srv.session).setServices srv.services).extendLabels
      srv.labels.toList).build = srv := by
  simp [ServerBuilder.build, ServerBuilder.extendLabels, ServerBuilder.setServices,
    ServerBuilder.setSession, builder]

variable [Zenoh ZenohId]

/-- The key expression of the queryable a server declares. -/
def queryableKe (srv : Server ZenohId World) : String :=
  "@rpc" ++ "/" ++ Zenoh.display srv.instanceUuid ++ "/" ++ "**"

/-- The key expression of the liveliness token a server declares for a name of its registry. -/
def tokenKe (srv : Server ZenohId World) (k : String) : String :=
  "@rpc" ++ "/" ++ Zenoh.display srv.instanceUuid ++ "/" ++ ("service" ++ "/" ++ k)

/-- A server's queryable is asked exactly by the keys with the server's id that have no verbatim
chunk behind it. -/
lemma intersects_queryableKe_iff (srv : Server ZenohId World) (z : ZenohId) (rest : String) :
    Intersects srv.queryableKe ("@rpc" ++ "/" ++ Zenoh.display z ++ "/" ++ rest) ↔
      srv.instanceUuid = z ∧ ∀ c ∈ chunks rest, ¬Verbatim c := by
  have hrpc : Plain "@rpc" := by decide
  rw [Intersects, queryableKe, chunks_rpc, chunks_rpc, overlap_cons_iff hrpc,
    chunks_of_notMem (s := "**") (by decide)]
  constructor
  · intro h
    have hz : srv.instanceUuid = z :=
      display_injective (h.head_eq (Zenoh.display_plain _) (Zenoh.display_plain _))
    refine ⟨hz, ?_⟩
    rwa [hz, overlap_cons_iff (Zenoh.display_plain z), overlap_doubleStar_iff] at h
  · rintro ⟨hz, hrest⟩
    rwa [hz, overlap_cons_iff (Zenoh.display_plain z), overlap_doubleStar_iff]

end Server

end ZenohRpc
