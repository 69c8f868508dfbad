import ZenohRpc.Server.Invocations
import ZenohRpc.Transition.Progress

/-!
# Draining a server

What becomes of the queries that have arrived, when the loop of `serve` and its tasks go on by
themselves: the loop receives what waits in its queue, and the tasks end.  They come to an end after
a bounded number of steps, in whatever order they are taken, and then the server has done for each
query what it would have done for that query alone: no query is lost, and none is handled twice.
-/

namespace ZenohRpc

open Json KeyExpr

variable {ZenohId World : Type}

/-- What each element of a list has is a function of its key, where keys are different. -/
lemma exists_forall_key {α κ β : Type*} [Inhabited β] {l : List α} {key : α → κ}
    (hnodup : (l.map key).Nodup) (val : α → β) : ∃ f : κ → β, ∀ a ∈ l, f (key a) = val a := by
  have hkey : ∀ k, ∃ b, ∀ a ∈ l, key a = k → b = val a := by
    intro k
    by_cases hsome : ∃ a ∈ l, key a = k
    · obtain ⟨a, ha, rfl⟩ := hsome
      refine ⟨val a, fun a' ha' hsame => ?_⟩
      rw [List.inj_on_of_nodup_map hnodup ha' ha hsame]
    · exact ⟨default, fun a ha hk => absurd ⟨a, ha, hk⟩ hsome⟩
  choose f hf using hkey
  exact ⟨f, fun a ha => hf (key a) a ha rfl⟩

/-! ## The steps of the loop itself -/

/-- The steps a call of `serve` takes by itself: it receives a query, or a task ends. -/
def LoopEvent.Internal : LoopEvent World → Prop
  | .receive => True
  | .complete _ _ => True
  | _ => False

/-- The loop and its tasks do not fail the queryable, and do not cancel `serve`. -/
lemma LoopEvent.Internal.queriesOnly {l : LoopEvent World} (h : l.Internal)
    (s : LoopState ZenohId World) : ZenohRpc.queriesOnly s l := by
  cases l with
  | receive => trivial
  | complete => trivial
  | arrive => exact h.elim
  | receiveError => exact h.elim
  | cancel => exact h.elim

/-- How many steps a call of `serve` can still take by itself, at most: each waiting query is
received and its task ends, and each pending task ends. -/
def LoopState.remaining (s : LoopState ZenohId World) : ℕ := 2 * s.queue.length + s.pending.length

section

variable [Runtime] [Zenoh ZenohId] {srv : Server ZenohId World} {s s' : LoopState ZenohId World}

/-- A step that the loop takes by itself leaves fewer to take. -/
lemma ServeStep.remaining_lt {l : LoopEvent World} (hl : l.Internal) (h : ServeStep srv s l s') :
    s'.remaining < s.remaining := by
  cases h with
  | @receive query rest _ hqueue =>
    have hlength : s.queue.length = rest.length + 1 := by rw [hqueue, List.length_cons]
    unfold LoopState.remaining LoopState.receive
    cases srv.dispatch query with
    | ok fut =>
      simp only [List.length_append, List.length_singleton]
      omega
    | error e =>
      simp only [List.length_nil]
      omega
  | @complete i w t hi =>
    obtain ⟨hlt, _⟩ := List.getElem?_eq_some_iff.mp hi
    have hlength : (s.pending.eraseIdx i).length = s.pending.length - 1 :=
      List.length_eraseIdx_of_lt hlt
    unfold LoopState.remaining
    simp only [hlength]
    omega
  | arrive => exact hl.elim
  | receiveError => exact hl.elim
  | cancel => exact hl.elim

/-- The loop and its tasks come to an end. -/
lemma LoopState.terminates (srv : Server ZenohId World) (s : LoopState ZenohId World) :
    (serveLoop srv).Terminates LoopEvent.Internal s :=
  TransitionSystem.terminates_of_lower (fun _ _ _ hl hs => ServeStep.remaining_lt hl hs) s

/-- The loop and its tasks do not make queries arrive. -/
lemma ServeStep.arrived_eq {l : LoopEvent World} (hl : l.Internal) (h : ServeStep srv s l s') :
    s'.arrived = s.arrived := by
  cases h with
  | @receive query rest =>
    unfold LoopState.receive
    split <;> rfl
  | complete => rfl
  | arrive => exact hl.elim
  | receiveError => exact hl.elim
  | cancel => exact hl.elim

/-- Nothing is left to do exactly when no query waits for a loop that receives, and no task is
pending. -/
lemma quiescent_iff [Inhabited World] : (serveLoop srv).Quiescent LoopEvent.Internal s ↔
    (s.status = .receiving → s.queue = []) ∧ s.pending = [] := by
  constructor
  · intro hquiet
    constructor
    · intro hstatus
      cases hqueue : s.queue with
      | nil => rfl
      | cons query rest => exact absurd (.receive hstatus hqueue) (hquiet .receive _ trivial)
    · cases hpending : s.pending with
      | nil => rfl
      | cons t ts =>
        have hfirst : s.pending[0]? = some t := by rw [hpending, List.getElem?_cons_zero]
        exact absurd (.complete hfirst) (hquiet (.complete 0 default) _ trivial)
  · rintro ⟨hqueue, hpending⟩ l s' hl hs
    cases hs with
    | receive hstatus hnext =>
      rw [hqueue hstatus] at hnext
      cases hnext
    | complete hi =>
      rw [hpending, List.getElem?_nil] at hi
      cases hi
    | arrive => exact hl
    | receiveError => exact hl
    | cancel => exact hl

/-! ## One query after the other -/

/-- The replies of a server that handles queries one by one, each in a world of its own. -/
def Server.repliesTo (srv : Server ZenohId World) (ws : ℕ → World) (queries : List Query) :
    List QueryReply :=
  queries.filterMap fun q =>
    (srv.replyTo (ws q.handle) q).map fun bytes => ⟨q.handle, q.keyExpr, bytes⟩

/-- The user code that a server runs when it handles queries one by one. -/
def Server.runsFor (srv : Server ZenohId World) (ws : ℕ → World) (queries : List Query) :
    List (Invocation World) :=
  queries.flatMap fun q => srv.invokedBy (ws q.handle) q

/-- When nothing is left to do, every query that arrived has had its task, and it has ended. -/
lemma LoopState.Inv.queries_perm [Inhabited World] (h : s.Inv srv) (hstatus : s.status = .receiving)
    (hquiet : (serveLoop srv).Quiescent LoopEvent.Internal s) :
    (s.completed.map fun c => c.task.query).Perm s.arrived := by
  obtain ⟨hqueue, hpending⟩ := quiescent_iff.mp hquiet
  have hreceived : s.received = s.arrived := by
    have hwaiting := h.waiting hstatus
    rwa [hqueue hstatus, List.append_nil] at hwaiting
  have htasks : s.tasks.map SpawnedTask.query = s.completed.map fun c => c.task.query := by
    rw [LoopState.tasks, hpending, List.nil_append, List.map_map]
    rfl
  have hnodup : s.received.Nodup := h.nodup_received.of_map
  have hsub := List.subperm_of_subset hnodup (h.handed hstatus)
  have hperm := h.tasks.antisymm hsub
  rwa [htasks, hreceived] at hperm

/-- In every state the server has done what handling the queries of the tasks that have ended one by
one does, each in the world that its task ran in. -/
lemma LoopState.Inv.exists_worlds [Inhabited World] (h : s.Inv srv) : ∃ ws,
    (∀ c ∈ s.completed, ws c.task.query.handle = c.world) ∧
    s.replies = srv.repliesTo ws (s.completed.map fun c => c.task.query) ∧
    s.completed.flatMap Completion.invoked =
      srv.runsFor ws (s.completed.map fun c => c.task.query) := by
  obtain ⟨ws, hws⟩ := exists_forall_key h.nodup_completed Completion.world
  refine ⟨ws, hws, ?_, ?_⟩
  · rw [Server.repliesTo, List.filterMap_map]
    refine List.filterMap_congr fun c hc => ?_
    rw [Function.comp_apply, hws c hc]
    exact (h.completed_eq hc).2.2
  · rw [Server.runsFor, List.flatMap_map]
    refine List.flatMap_congr fun c hc => ?_
    rw [hws c hc]
    exact (h.completed_eq hc).2.1

/-- A server that has drained has done what handling the queries one by one does: up to their order,
its replies are those to each query alone, and it has run the user code that each query alone runs,
in the world in which the task for the query ran, whatever was received and completed in between. -/
theorem LoopState.drained [Inhabited World] (h : (serveLoop srv).Reachable s)
    (hstatus : s.status = .receiving)
    (hquiet : (serveLoop srv).Quiescent LoopEvent.Internal s) :
    ∃ ws, (∀ c ∈ s.completed, ws c.task.query.handle = c.world) ∧
      s.replies.Perm (srv.repliesTo ws s.arrived) ∧
      (s.completed.flatMap Completion.invoked).Perm (srv.runsFor ws s.arrived) := by
  have hinv := inv_of_reachable h
  have hperm := hinv.queries_perm hstatus hquiet
  obtain ⟨ws, hworlds, hreplies, hruns⟩ := hinv.exists_worlds
  refine ⟨ws, hworlds, ?_, ?_⟩
  · rw [hreplies]
    exact hperm.filterMap _
  · rw [hruns]
    exact hperm.flatMap_right _

/-! ## Servers that get answerable queries only -/

/-- A server replies to an answerable query, in every world. -/
lemma Answerable.exists_replyTo {q : Query} (h : Answerable srv q) (w : World) :
    ∃ bytes, srv.replyTo w q = some bytes := by
  rcases srv.dispatch_cases q with ⟨task, hdispatch, hdispatched⟩ | ⟨e, herr, _⟩
  · obtain ⟨res, hres⟩ := hdispatched.replies_iff.mpr h w
    exact ⟨_, Server.replyTo_eq_some_iff.mpr ⟨task, res, hdispatch, hres, rfl⟩⟩
  · exact absurd herr (h.dispatch_ne e)

/-- Handled one by one, answerable queries get one reply each. -/
lemma Server.handles_repliesTo {queries : List Query} (h : ∀ q ∈ queries, Answerable srv q)
    (ws : ℕ → World) :
    (srv.repliesTo ws queries).map QueryReply.handle = queries.map Query.handle := by
  rw [Server.repliesTo, List.map_filterMap, ← List.filterMap_eq_map]
  refine List.filterMap_congr fun q hq => ?_
  obtain ⟨bytes, hbytes⟩ := (h q hq).exists_replyTo (ws q.handle)
  rw [hbytes]
  rfl

/-- As long as only answerable queries have arrived, the loop goes on receiving. -/
lemma LoopState.receiving_of_answerable (h : ((serveLoop srv).restrict queriesOnly).Reachable s)
    (hall : ∀ q ∈ s.arrived, Answerable srv q) : s.status = .receiving := by
  rcases receiving_or_failed h with hreceiving | ⟨q, hq, e, herr⟩
  · exact hreceiving
  · have harrived := (inv_of_reachable h.of_restrict).arrivals.subset hq
    exact absurd herr ((hall q harrived).dispatch_ne e)

/-- When nothing is left to do, every query has been replied to, and none twice. -/
lemma LoopState.handles_of_quiescent [Inhabited World]
    (h : ((serveLoop srv).restrict queriesOnly).Reachable s)
    (hall : ∀ q ∈ s.arrived, Answerable srv q)
    (hquiet : (serveLoop srv).Quiescent LoopEvent.Internal s) :
    (s.replies.map QueryReply.handle).Perm (s.arrived.map Query.handle) := by
  have hinv := inv_of_reachable h.of_restrict
  have hperm := hinv.queries_perm (LoopState.receiving_of_answerable h hall) hquiet
  obtain ⟨ws, _, hreplies, _⟩ := hinv.exists_worlds
  rw [hreplies, Server.handles_repliesTo fun q hq => hall q (hperm.mem_iff.mp hq)]
  exact hperm.map _

/-- Every query is answered exactly once, whatever the schedule.  Once only answerable queries have
arrived, the loop and its tasks can go on by themselves for a bounded number of steps only; they can
always be brought to an end; and wherever they end, the loop is still receiving, and has made one
reply for each query that arrived. -/
theorem LoopState.drains [Inhabited World]
    (h : ((serveLoop srv).restrict queriesOnly).Reachable s)
    (hall : ∀ q ∈ s.arrived, Answerable srv q) :
    (∀ n s', (serveLoop srv).Steps LoopEvent.Internal s n s' → n ≤ s.remaining) ∧
    (∃ n s', (serveLoop srv).Steps LoopEvent.Internal s n s' ∧
      (serveLoop srv).Quiescent LoopEvent.Internal s') ∧
    (∀ n s', (serveLoop srv).Steps LoopEvent.Internal s n s' →
      (serveLoop srv).Quiescent LoopEvent.Internal s' →
      s'.status = .receiving ∧
        (s'.replies.map QueryReply.handle).Perm (s.arrived.map Query.handle)) := by
  have hlower : ∀ (s : LoopState ZenohId World) l s', l.Internal → (serveLoop srv).step s l s' →
      s'.remaining < s.remaining := fun _ _ _ hl hs => ServeStep.remaining_lt hl hs
  refine ⟨fun n s' hsteps => ?_, (LoopState.terminates srv s).exists_quiescent,
    fun n s' hsteps hquiet => ?_⟩
  · have hle := hsteps.add_le hlower
    omega
  · have hinternal : ∀ (s : LoopState ZenohId World) (l : LoopEvent World), l.Internal →
        queriesOnly s l := by
      rintro _ (_ | _ | _ | _ | _) hl
      all_goals first | exact hl | trivial
    have hreach := (hsteps.restrict hinternal).reachable h
    have harrived : s'.arrived = s.arrived :=
      hsteps.eq_of_step fun _ _ _ hl hs => ServeStep.arrived_eq hl hs
    have hall' : ∀ q ∈ s'.arrived, Answerable srv q := by rwa [harrived]
    refine ⟨LoopState.receiving_of_answerable hreach hall', ?_⟩
    rw [← harrived]
    exact LoopState.handles_of_quiescent hreach hall' hquiet

end

/-! ## Draining the tests' server -/

open Reference

/-- The queries of `helloBusy` can be answered. -/
lemma answerable_helloBusy {body : Bytes}
    (hbody : deserialize (Request hello.Req) body = .ok (Request.new ⟨"client"⟩)) :
    ∀ q ∈ (helloBusy body).arrived, Answerable (helloServer hello) q := by
  intro q hq
  rcases List.mem_cons.mp hq with rfl | hsecond
  · intro hservice
    rw [metadataTask, getToken_helloQuery] at hservice
    exact absurd hservice (by decide)
  · obtain rfl := List.mem_singleton.mp hsecond
    exact (dispatched_secondTask body).replies_iff.mp fun _ =>
      ⟨_, congrArg Exec.outcome (run_helloCall greet hbody)⟩

/-- The tests' server drains, and has replied to both queries. -/
theorem drains_helloBusy : ∃ body n s',
    (serveLoop (helloServer hello)).Steps LoopEvent.Internal (helloBusy body) n s' ∧
      (s'.replies.map QueryReply.handle).Perm [0, 1] := by
  obtain ⟨body, hbody⟩ := exists_helloBody
  obtain ⟨_, ⟨n, s', hsteps, hquiet⟩, hends⟩ :=
    LoopState.drains (reachable_helloBusy body) (answerable_helloBusy hbody)
  obtain ⟨_, hperm⟩ := hends n s' hsteps hquiet
  exact ⟨body, n, s', hsteps, hperm⟩

/-- The tests' server has drained.  Its replies are those to the two queries, and it has run user
code for the call of `hello`. -/
theorem drained_helloBusy : ∃ body s ws, (serveLoop (helloServer hello)).Reachable s ∧
    s.replies.Perm ((helloServer hello).repliesTo ws (helloBusy body).arrived) ∧
    s.completed.flatMap Completion.invoked = [.handler hello (Request.new ⟨"client"⟩)] := by
  obtain ⟨body, hbody⟩ := exists_helloBody
  obtain ⟨n, s, hsteps, hquiet⟩ :=
    (LoopState.terminates (helloServer hello) (helloBusy body)).exists_quiescent
  have hreach := (hsteps.restrict fun s _ hl => hl.queriesOnly s).reachable
    (reachable_helloBusy body)
  have harrived : s.arrived = (helloBusy body).arrived :=
    hsteps.eq_of_step fun _ _ _ hl hs => ServeStep.arrived_eq hl hs
  have hstatus := LoopState.receiving_of_answerable hreach (harrived ▸ answerable_helloBusy hbody)
  obtain ⟨ws, _, hreplies, hruns⟩ := LoopState.drained hreach.of_restrict hstatus hquiet
  rw [harrived] at hreplies hruns
  have hmetadata : (helloServer hello).invokedBy () metadataTask.query = [] := by
    rw [Server.invokedBy, Server.dispatch_of_dispatched dispatched_metadataTask]
    rfl
  have hsecond : (helloServer hello).invokedBy () (secondTask body).query =
      [.handler hello (Request.new ⟨"client"⟩)] := by
    rw [Server.invokedBy, Server.dispatch_of_dispatched (dispatched_secondTask body)]
    exact congrArg Exec.invoked (run_helloCall greet hbody)
  have hone : (helloServer hello).runsFor ws (helloBusy body).arrived =
      [.handler hello (Request.new ⟨"client"⟩)] := by
    simp [Server.runsFor, helloBusy, hmetadata, hsecond]
  rw [hone] at hruns
  exact ⟨body, s, ws, hreach.of_restrict, hreplies, List.perm_singleton.mp hruns⟩

end ZenohRpc
