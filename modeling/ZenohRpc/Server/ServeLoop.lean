import ZenohRpc.Server.Dispatch
import ZenohRpc.Transition.System

/-!
# The serve loop

The loop of `Server::serve` in `zrpc/src/server.rs` as a transition system.  Queries arrive at the
queryable at any time; the loop receives them in order, hands each to a spawned task and goes on,
or leaves `serve` when the loop body fails.  The tasks are detached: each may end at any later
time, in any order, also when the loop is gone.

The world a task runs in is chosen when it ends, so the user code of two tasks may do anything.
-/

namespace ZenohRpc

open Json KeyExpr

variable {ZenohId World : Type}

/-! ## Spawned tasks -/

/-- What the loop moves into a spawned task: the query, the clone of its key expression, and the
future. -/
structure SpawnedTask (ZenohId World : Type) where
  query : Query
  ke : String
  fut : ServerTask ZenohId World

/-- A call of `Query::reply`: the handle it is made on, and its arguments. -/
structure QueryReply where
  handle : ℕ
  keyExpr : String
  sample : Bytes
  deriving DecidableEq

/-- A task that has ended: the world it ran in, the user code it ran there, and its reply, unless it
panicked before. -/
structure Completion (ZenohId World : Type) where
  task : SpawnedTask ZenohId World
  world : World
  invoked : List (Invocation World)
  reply : Option QueryReply

section Complete

variable [Runtime] [Zenoh ZenohId]

/-- The reply of a task, from what became of its future. -/
def SpawnedTask.reply (t : SpawnedTask ZenohId World) :
    Outcome (Except Status Bytes) → Option QueryReply
  | .returned res => some ⟨t.query.handle, t.ke, ZenohRpc.sample res⟩
  | .panicked => none

/-- Running a spawned task to its end. -/
def SpawnedTask.complete (t : SpawnedTask ZenohId World) (w : World) :
    Completion ZenohId World :=
  ⟨t, w, (t.fut.run w).invoked, t.reply (t.fut.run w).outcome⟩

end Complete

/-! ## The loop -/

/-- Where the loop is: receiving, or gone with the error `serve` returned, or gone with the future
of `serve`. -/
inductive LoopStatus
  | receiving
  | returned (e : Status)
  | cancelled

/-- A call of `serve` that has come to its loop.  `arrived` keeps all queries that ever arrived at
the queryable, `queue` those the loop has yet to receive. -/
structure LoopState (ZenohId World : Type) where
  arrived : List Query
  queue : List Query
  received : List Query
  pending : List (SpawnedTask ZenohId World)
  completed : List (Completion ZenohId World)
  status : LoopStatus

namespace LoopState

/-- The loop at its start. -/
def start : LoopState ZenohId World := ⟨[], [], [], [], [], .receiving⟩

/-- Every task the loop spawned, whether it has ended or not. -/
def tasks (s : LoopState ZenohId World) : List (SpawnedTask ZenohId World) :=
  s.pending ++ s.completed.map Completion.task

/-- The replies sent so far. -/
def replies (s : LoopState ZenohId World) : List QueryReply :=
  s.completed.filterMap Completion.reply

/-- The arrival of a query at the queryable. -/
def arrive (s : LoopState ZenohId World) (keyExpr : String) (payload : Option Bytes) :
    LoopState ZenohId World :=
  { s with
    arrived := s.arrived ++ [⟨s.arrived.length, keyExpr, payload⟩]
    queue := s.queue ++ [⟨s.arrived.length, keyExpr, payload⟩] }

/-- The loop body for a query that was received: a spawn, or an early exit that drops the queryable
and the queries still waiting there. -/
def receive (srv : Server ZenohId World) (s : LoopState ZenohId World) (query : Query)
    (rest : List Query) : LoopState ZenohId World :=
  match srv.dispatch query with
  | .ok fut =>
    { s with
      queue := rest
      received := s.received ++ [query]
      pending := s.pending ++ [⟨query, query.keyExpr, fut⟩] }
  | .error e =>
    { s with queue := [], received := s.received ++ [query], status := .returned e }

end LoopState

/-- What can happen to a call of `serve`. -/
inductive LoopEvent (World : Type)
  | arrive (keyExpr : String) (payload : Option Bytes)
  | receive
  | receiveError (e : String)
  | cancel
  | complete (i : ℕ) (w : World)

section ServeStep

variable [Runtime] [Zenoh ZenohId]

/-- The steps of a call of `serve`. -/
inductive ServeStep (srv : Server ZenohId World) :
    LoopState ZenohId World → LoopEvent World → LoopState ZenohId World → Prop
  | arrive {s : LoopState ZenohId World} {keyExpr : String} {payload : Option Bytes} :
      s.status = .receiving → Intersects srv.queryableKe keyExpr →
      ServeStep srv s (.arrive keyExpr payload) (s.arrive keyExpr payload)
  | receive {s : LoopState ZenohId World} {query : Query} {rest : List Query} :
      s.status = .receiving → s.queue = query :: rest →
      ServeStep srv s .receive (s.receive srv query rest)
  | receiveError {s : LoopState ZenohId World} {e : String} : s.status = .receiving →
      ServeStep srv s (.receiveError e)
        { s with
          queue := []
          status := .returned (Status.internalError ("Cannot receive query: " ++ e)) }
  | cancel {s : LoopState ZenohId World} : s.status = .receiving →
      ServeStep srv s .cancel { s with queue := [], status := .cancelled }
  | complete {s : LoopState ZenohId World} {i : ℕ} {w : World}
      {t : SpawnedTask ZenohId World} : s.pending[i]? = some t →
      ServeStep srv s (.complete i w)
        { s with pending := s.pending.eraseIdx i, completed := s.completed ++ [t.complete w] }

/-- A call of `serve` from the moment it comes to its loop. -/
def serveLoop (srv : Server ZenohId World) :
    TransitionSystem (LoopState ZenohId World) (LoopEvent World) where
  init s := s = .start
  step := ServeStep srv

/-! ## The invariant of the loop -/

namespace LoopState

/-- What holds of a loop in every state.  A query's handle is its place among the arrivals; the
first arrivals are received, and while the loop receives the others are waiting; each task belongs
to a query that was received, and no two to the same one; and a task that has ended is the task
that was spawned, run in the world that it has recorded. -/
structure Inv (srv : Server ZenohId World) (s : LoopState ZenohId World) : Prop where
  handles : s.arrived.map Query.handle = List.range s.arrived.length
  addressed : ∀ q ∈ s.arrived, Intersects srv.queryableKe q.keyExpr
  arrivals : s.received <+: s.arrived
  waiting : s.status = .receiving → s.received ++ s.queue = s.arrived
  tasks : (s.tasks.map SpawnedTask.query).Subperm s.received
  handed : s.status = .receiving → s.received ⊆ s.tasks.map SpawnedTask.query
  captured : ∀ t ∈ s.tasks, t.ke = t.query.keyExpr ∧ Dispatched srv t.query t.fut
  completed : ∀ c ∈ s.completed, c = c.task.complete c.world

variable {srv : Server ZenohId World} {s : LoopState ZenohId World}

lemma Inv.start : Inv srv (start : LoopState ZenohId World) where
  handles := rfl
  addressed := by simp [LoopState.start]
  arrivals := List.prefix_rfl
  waiting := by simp [LoopState.start]
  tasks := List.Subperm.refl _
  handed := by simp [LoopState.start]
  captured := by simp [LoopState.start, LoopState.tasks]
  completed := by simp [LoopState.start]

/-- Ending a task only moves it among the tasks spawned. -/
lemma tasks_complete {i : ℕ} {t : SpawnedTask ZenohId World} (h : s.pending[i]? = some t)
    (w : World) :
    ({ s with
       pending := s.pending.eraseIdx i
       completed := s.completed ++ [t.complete w] } : LoopState ZenohId World).tasks.Perm
      s.tasks := by
  obtain ⟨hi, rfl⟩ := List.getElem?_eq_some_iff.mp h
  have hmove : (s.pending[i] :: s.pending.eraseIdx i).Perm s.pending :=
    List.getElem_cons_eraseIdx_perm hi
  simp only [LoopState.tasks, List.map_append, List.map_cons, List.map_nil, SpawnedTask.complete]
  have hlast : (s.pending.eraseIdx i ++ s.completed.map Completion.task ++ [s.pending[i]]).Perm
      (s.pending[i] :: s.pending.eraseIdx i ++ s.completed.map Completion.task) :=
    List.perm_append_singleton _ _
  rw [← List.append_assoc]
  exact hlast.trans (hmove.append_right _)

/-- The loop body keeps the invariant. -/
lemma Inv.receive (h : Inv srv s) {query : Query} {rest : List Query}
    (hqueue : s.queue = query :: rest) (hstatus : s.status = .receiving) :
    Inv srv (s.receive srv query rest) := by
  have hwaiting : (s.received ++ [query]) ++ rest = s.arrived := by
    have := h.waiting hstatus
    rwa [hqueue, List.append_cons] at this
  have harrivals : s.received ++ [query] <+: s.arrived := ⟨rest, hwaiting⟩
  unfold LoopState.receive
  cases hdispatch : srv.dispatch query with
  | error e =>
    exact ⟨h.handles, h.addressed, harrivals, by simp,
      h.tasks.trans (List.sublist_append_left _ _).subperm, by simp, h.captured, h.completed⟩
  | ok fut =>
    have htasks : ({ s with
        queue := rest
        received := s.received ++ [query]
        pending := s.pending ++ [⟨query, query.keyExpr, fut⟩] } :
        LoopState ZenohId World).tasks.Perm (s.tasks ++ [⟨query, query.keyExpr, fut⟩]) := by
      simp only [LoopState.tasks, List.append_assoc]
      exact List.Perm.append_left _ List.perm_append_comm
    have hqueries := htasks.map SpawnedTask.query
    rw [List.map_append, List.map_singleton] at hqueries
    refine ⟨h.handles, h.addressed, harrivals, fun _ => hwaiting, ?_, fun _ q hq => ?_,
      fun t ht => ?_, h.completed⟩
    · exact hqueries.subperm.trans ((List.subperm_append_right _).mpr h.tasks)
    · rw [hqueries.mem_iff]
      rcases List.mem_append.mp hq with hold | hnew
      · exact List.mem_append_left _ (h.handed hstatus hold)
      · exact List.mem_append_right _ hnew
    · rw [htasks.mem_iff, List.mem_append, List.mem_singleton] at ht
      rcases ht with hold | rfl
      · exact h.captured t hold
      · exact ⟨rfl, Server.dispatch_eq_ok_iff.mp hdispatch⟩

/-- Every step of a call of `serve` keeps the invariant. -/
lemma Inv.step (h : Inv srv s) {l : LoopEvent World} {s' : LoopState ZenohId World}
    (hs : ServeStep srv s l s') : Inv srv s' := by
  cases hs with
  | @arrive keyExpr payload hstatus hke =>
    refine ⟨?_, ?_, ?_, ?_, h.tasks, h.handed, h.captured, h.completed⟩
    · simp [arrive, h.handles, List.range_succ]
    · intro q hq
      rcases List.mem_append.mp hq with hold | hnew
      · exact h.addressed q hold
      · rw [List.mem_singleton.mp hnew]
        exact hke
    · exact h.arrivals.trans (List.prefix_append _ _)
    · intro _
      rw [arrive, ← h.waiting hstatus, List.append_assoc]
  | receive hstatus hqueue => exact h.receive hqueue hstatus
  | receiveError hstatus =>
    exact ⟨h.handles, h.addressed, h.arrivals, by simp, h.tasks, by simp, h.captured, h.completed⟩
  | cancel hstatus =>
    exact ⟨h.handles, h.addressed, h.arrivals, by simp, h.tasks, by simp, h.captured, h.completed⟩
  | @complete i w t hi =>
    have htasks := tasks_complete hi w
    have hqueries := htasks.map SpawnedTask.query
    refine ⟨h.handles, h.addressed, h.arrivals, h.waiting, hqueries.subperm.trans h.tasks,
      ?_, ?_, ?_⟩
    · exact fun hstatus q hq => hqueries.symm.subset (h.handed hstatus hq)
    · exact fun t' ht' => h.captured t' (htasks.mem_iff.mp ht')
    · intro c hc
      rcases List.mem_append.mp hc with hold | hnew
      · exact h.completed c hold
      · rw [List.mem_singleton.mp hnew]
        rfl

/-- What a task that was spawned runs and replies in a world is what the server does there with the
query. -/
lemma Inv.complete_eq (h : Inv srv s) {t : SpawnedTask ZenohId World} (ht : t ∈ s.tasks)
    (w : World) : (t.complete w).invoked = srv.invokedBy w t.query ∧
      (t.complete w).reply = (srv.replyTo w t.query).map fun bytes =>
        ⟨t.query.handle, t.query.keyExpr, bytes⟩ := by
  obtain ⟨hke, hdispatched⟩ := h.captured t ht
  have hdispatch := Server.dispatch_of_dispatched hdispatched
  constructor
  · rw [Server.invokedBy, hdispatch, SpawnedTask.complete]
  · rw [Server.replyTo, hdispatch, SpawnedTask.complete]
    dsimp only
    cases (t.fut.run w).outcome with
    | panicked => rfl
    | returned res => simp [SpawnedTask.reply, hke]

/-- The task of a completion, and what it ran and replied in its world, are those of its query. -/
lemma Inv.completed_eq (h : Inv srv s) {c : Completion ZenohId World} (hc : c ∈ s.completed) :
    c.task.query ∈ s.received ∧ c.invoked = srv.invokedBy c.world c.task.query ∧
      c.reply = (srv.replyTo c.world c.task.query).map fun bytes =>
        ⟨c.task.query.handle, c.task.query.keyExpr, bytes⟩ := by
  have htask : c.task ∈ s.tasks := List.mem_append_right _ (List.mem_map_of_mem hc)
  have heq := h.complete_eq htask c.world
  rw [← h.completed c hc] at heq
  exact ⟨h.tasks.subset (List.mem_map_of_mem htask), heq⟩

/-- Queries that arrived stay. -/
lemma arrived_prefix {l : LoopEvent World} {s' : LoopState ZenohId World}
    (h : ServeStep srv s l s') : s.arrived <+: s'.arrived := by
  cases h with
  | arrive => exact List.prefix_append _ _
  | @receive query rest =>
    unfold LoopState.receive
    split <;> exact List.prefix_rfl
  | receiveError => exact List.prefix_rfl
  | cancel => exact List.prefix_rfl
  | complete => exact List.prefix_rfl

/-- Replies that were sent stay. -/
lemma replies_subset {l : LoopEvent World} {s' : LoopState ZenohId World}
    (h : ServeStep srv s l s') : s.replies ⊆ s'.replies := by
  cases h with
  | arrive => exact List.Subset.refl _
  | @receive query rest =>
    unfold LoopState.receive
    split <;> exact List.Subset.refl _
  | receiveError => exact List.Subset.refl _
  | cancel => exact List.Subset.refl _
  | complete =>
    unfold LoopState.replies
    rw [List.filterMap_append]
    exact List.subset_append_left _ _

end LoopState

/-- The invariant of the loop holds in every state a call of `serve` can be in. -/
lemma inv_of_reachable {srv : Server ZenohId World} {s : LoopState ZenohId World}
    (h : (serveLoop srv).Reachable s) : s.Inv srv := by
  refine h.invariant ?_ ?_
  · rintro s rfl
    exact .start
  · intro s l s' _ hinv hs
    exact hinv.step hs

end ServeStep

end ZenohRpc
