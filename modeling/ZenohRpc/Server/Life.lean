import ZenohRpc.Server.ServeLoop
import ZenohRpc.Reference

/-!
# The life of a server

The calls of `Server::serve` on one server, one after the other, with what they declare.  A call
first declares the queryable, then a liveliness token for each service, then moves the tokens to the
server, and comes to its loop.  When it ends, for whatever reason, it drops what it holds itself,
and in this order: the queryable, then one by one the tokens it has not moved.  The tokens that it
moved stay with the server.

So a server that has served keeps announcing its services without serving them, and a call that ends
between its first token and its loop announces some of them a little longer than it serves them.
-/

namespace ZenohRpc

open KeyExpr

variable {ZenohId World : Type}

/-- How far a call of `serve` has come, if there is one, or how the last one ended.  A call that is
about to end drops its local variables, with the error that it returns then, or none if it was
cancelled. -/
inductive Phase (ZenohId World : Type)
  | idle
  | declaringQueryable
  | declaringTokens (rest : List String)
  | serving (loop : LoopState ZenohId World)
  | dropping (result : Option Status)
  | failed (e : Status)

/-- A server with what is declared: the queryable and the tokens that the call in progress holds,
and the tokens that the server holds.  `before` are the tokens that were declared when the last call
began. -/
structure LifeState (ZenohId World : Type) where
  phase : Phase ZenohId World
  queryable : Option String
  tokens : List String
  serverTokens : List String
  before : List String

namespace LifeState

/-- A server that was built. -/
def built : LifeState ZenohId World := ⟨.idle, none, [], [], []⟩

/-- The keys of the tokens that are declared. -/
def announced (s : LifeState ZenohId World) : List String := s.serverTokens ++ s.tokens

/-- The end of a call.  Local variables are dropped in the reverse order of their declarations, so
the queryable is the first to go, and the tokens come after it. -/
def release (s : LifeState ZenohId World) (result : Option Status) : LifeState ZenohId World :=
  { s with phase := .dropping result, queryable := none }

end LifeState

namespace Phase

/-- A call has ended with an error, or was cancelled. -/
def ofResult : Option Status → Phase ZenohId World
  | none => idle
  | some e => failed e

/-- A phase without a call in progress. -/
def Ended : Phase ZenohId World → Prop
  | idle => True
  | failed _ => True
  | _ => False

/-- A phase in which the code of a call runs, so that it may be cancelled. -/
def Running : Phase ZenohId World → Prop
  | declaringQueryable => True
  | declaringTokens _ => True
  | serving _ => True
  | _ => False

/-- A phase in which a call holds its queryable. -/
def Answers : Phase ZenohId World → Prop
  | declaringTokens _ => True
  | serving _ => True
  | _ => False

end Phase

/-- What can happen to a server. -/
inductive LifeEvent (World : Type)
  | serve
  | queryableDeclared
  | queryableFailed (e : String)
  | tokenDeclared
  | tokenFailed (e : String)
  | tokensMoved
  | handled (l : LoopEvent World)
  | returned (l : LoopEvent World)
  | cancelled
  | tokenDropped
  | ended

section

variable [Runtime] [Zenoh ZenohId]

/-- The steps of a server's life.  The services are announced in the order in which the registry
lists them, which may be any. -/
inductive LifeStep (srv : Server ZenohId World) :
    LifeState ZenohId World → LifeEvent World → LifeState ZenohId World → Prop
  | serve {s : LifeState ZenohId World} : s.phase.Ended →
      LifeStep srv s .serve { s with phase := .declaringQueryable, before := s.announced }
  | queryableDeclared {s : LifeState ZenohId World} {ks : List String} :
      s.phase = .declaringQueryable → ks.Perm srv.services.keys →
      LifeStep srv s .queryableDeclared
        { s with phase := .declaringTokens ks, queryable := some srv.queryableKe }
  | queryableFailed {s : LifeState ZenohId World} {e : String} : s.phase = .declaringQueryable →
      LifeStep srv s (.queryableFailed e)
        (s.release (some (Status.new .internalError ("Cannot declare queryable: " ++ e))))
  | tokenDeclared {s : LifeState ZenohId World} {k : String} {ks : List String} :
      s.phase = .declaringTokens (k :: ks) →
      LifeStep srv s .tokenDeclared
        { s with phase := .declaringTokens ks, tokens := s.tokens ++ [srv.tokenKe k] }
  | tokenFailed {s : LifeState ZenohId World} {k : String} {ks : List String} {e : String} :
      s.phase = .declaringTokens (k :: ks) →
      LifeStep srv s (.tokenFailed e)
        (s.release (some (Status.new .internalError ("Cannot declare liveliness token: " ++ e))))
  | tokensMoved {s : LifeState ZenohId World} : s.phase = .declaringTokens [] →
      LifeStep srv s .tokensMoved
        { s with
          phase := .serving .start
          serverTokens := s.serverTokens ++ s.tokens
          tokens := [] }
  | handled {s : LifeState ZenohId World} {loop loop' : LoopState ZenohId World}
      {l : LoopEvent World} : s.phase = .serving loop → ServeStep srv loop l loop' →
      loop'.status = .receiving →
      LifeStep srv s (.handled l) { s with phase := .serving loop' }
  | returned {s : LifeState ZenohId World} {loop loop' : LoopState ZenohId World}
      {l : LoopEvent World} {e : Status} : s.phase = .serving loop → ServeStep srv loop l loop' →
      loop'.status = .returned e →
      LifeStep srv s (.returned l) (s.release (some e))
  | cancelled {s : LifeState ZenohId World} : s.phase.Running →
      LifeStep srv s .cancelled (s.release none)
  | tokenDropped {s : LifeState ZenohId World} {result : Option Status} {t : String}
      {ts : List String} : s.phase = .dropping result → s.tokens = t :: ts →
      LifeStep srv s .tokenDropped { s with tokens := ts }
  | ended {s : LifeState ZenohId World} {result : Option Status} :
      s.phase = .dropping result → s.tokens = [] →
      LifeStep srv s .ended { s with phase := .ofResult result }

/-- The life of a server. -/
def life (srv : Server ZenohId World) :
    TransitionSystem (LifeState ZenohId World) (LifeEvent World) where
  init s := s = .built
  step := LifeStep srv

end

/-! ## Announced and served -/

section

variable [Zenoh ZenohId]

/-- Where a token of the server is declared, so is its queryable, and a call that returned an error
left the tokens as they were. -/
structure LifeState.AnnouncedIsServed (srv : Server ZenohId World) (s : LifeState ZenohId World) :
    Prop where
  served : ∀ ke ∈ s.announced, s.queryable = some srv.queryableKe
  unchanged : ∀ e, s.phase = .failed e → s.announced = s.before

/-- The step does not end a call while a token of the server is declared. -/
def StaysUp (s : LifeState ZenohId World) : LifeEvent World → Prop
  | .queryableFailed _ => s.announced = []
  | .tokenFailed _ => s.announced = []
  | .returned _ => s.announced = []
  | .cancelled => s.announced = []
  | _ => True

/-- What holds of a server as long as no call ends while a token is declared.  Tokens are declared
only where a call holds its queryable, and so none were when a call began. -/
structure LifeState.Inv (srv : Server ZenohId World) (s : LifeState ZenohId World) : Prop where
  before : s.before = []
  answers : s.phase.Answers → s.queryable = some srv.queryableKe
  silent : ¬s.phase.Answers → s.announced = []

variable {srv : Server ZenohId World} {s : LifeState ZenohId World}

/-- What is announced is served, as long as the invariant holds. -/
lemma LifeState.Inv.announcedIsServed (h : s.Inv srv) : s.AnnouncedIsServed srv := by
  refine ⟨fun ke hke => ?_, fun e hphase => ?_⟩
  · by_cases hanswers : s.phase.Answers
    · exact h.answers hanswers
    · rw [h.silent hanswers] at hke
      cases hke
  · have hsilent : ¬s.phase.Answers := by
      rw [hphase]
      exact id
    rw [h.before, h.silent hsilent]

/-- A call that ends while nothing is declared leaves nothing declared. -/
lemma LifeState.Inv.release (h : s.Inv srv) (hnone : s.announced = []) (result : Option Status) :
    (s.release result).Inv srv :=
  ⟨h.before, False.elim, fun _ => hnone⟩

/-- A call that ends first drops its queryable, so a token that is declared then is not served. -/
lemma LifeState.announced_eq_nil_of_release {result : Option Status}
    (h : (s.release result).AnnouncedIsServed srv) : s.announced = [] := by
  refine List.eq_nil_iff_forall_not_mem.mpr fun ke hke => ?_
  cases h.served ke hke

end

section

variable [Runtime] [Zenoh ZenohId] {srv : Server ZenohId World} {s : LifeState ZenohId World}

/-- Steps that end no call while a token is declared keep the invariant. -/
lemma LifeState.Inv.step (h : s.Inv srv) {l : LifeEvent World} {s' : LifeState ZenohId World}
    (hup : StaysUp s l) (hs : LifeStep srv s l s') : s'.Inv srv := by
  cases hs with
  | serve hended =>
    have hnone : s.announced = [] := h.silent fun hanswers => by
      cases hphase : s.phase <;> simp [hphase, Phase.Ended, Phase.Answers] at hended hanswers
    exact ⟨hnone, False.elim, fun _ => hnone⟩
  | queryableDeclared hphase _ =>
    exact ⟨h.before, fun _ => rfl, fun hquiet => absurd trivial hquiet⟩
  | tokenDeclared hphase =>
    have hqueryable := h.answers (by rw [hphase]; trivial)
    exact ⟨h.before, fun _ => hqueryable, fun hquiet => absurd trivial hquiet⟩
  | tokensMoved hphase =>
    have hqueryable := h.answers (by rw [hphase]; trivial)
    exact ⟨h.before, fun _ => hqueryable, fun hquiet => absurd trivial hquiet⟩
  | handled hphase _ _ =>
    have hqueryable := h.answers (by rw [hphase]; trivial)
    exact ⟨h.before, fun _ => hqueryable, fun hquiet => absurd trivial hquiet⟩
  | queryableFailed _ => exact h.release hup _
  | tokenFailed _ => exact h.release hup _
  | returned _ _ _ => exact h.release hup _
  | cancelled _ => exact h.release hup _
  | tokenDropped hphase htokens =>
    -- nothing is declared where a call drops its variables, so there is no token to drop
    have hnone := h.silent (by rw [hphase]; exact id)
    simp [LifeState.announced, htokens] at hnone
  | @ended result hphase _ =>
    have hnone := h.silent (by rw [hphase]; exact id)
    cases result with
    | none => exact ⟨h.before, False.elim, fun _ => hnone⟩
    | some e => exact ⟨h.before, False.elim, fun _ => hnone⟩

/-- The invariant holds as long as no call ends while a token is declared. -/
lemma lifeInv_of_reachable (h : ((life srv).restrict StaysUp).Reachable s) : s.Inv srv := by
  refine h.invariant ?_ ?_
  · rintro s rfl
    exact ⟨rfl, False.elim, fun _ => rfl⟩
  · intro s l s' _ hinv hs
    exact hinv.step hs.1 hs.2

/-- In every state of a life what is announced is served, exactly when no call of `serve` ended
while a token of the server was declared. -/
theorem announcedIsServed_iff {steps : List (LifeState ZenohId World × LifeEvent World)}
    (h : (life srv).Run steps s) :
    (∀ x ∈ TransitionSystem.Run.states steps s, x.AnnouncedIsServed srv) ↔
      ∀ p ∈ steps, StaysUp p.1 p.2 := by
  refine h.forall_states_iff (fun s hs => (lifeInv_of_reachable hs).announcedIsServed) ?_
  intro s l s' _ hs hserved
  cases hs with
  | queryableFailed _ => exact LifeState.announced_eq_nil_of_release hserved
  | tokenFailed _ => exact LifeState.announced_eq_nil_of_release hserved
  | returned _ _ _ => exact LifeState.announced_eq_nil_of_release hserved
  | cancelled _ => exact LifeState.announced_eq_nil_of_release hserved
  | serve | queryableDeclared | tokenDeclared | tokensMoved | handled | tokenDropped | ended =>
    trivial

end

/-! ## A life of the tests' server -/

open Reference

/-- The states of the tests' server while it sets up. -/
def helloDeclaring (ks ts : List String) : LifeState SessionId Unit :=
  ⟨.declaringTokens ks, some (helloServer hello).queryableKe, ts, [], []⟩

/-- The tests' server in its loop. -/
def helloServing : LifeState SessionId Unit :=
  ⟨.serving .start, some (helloServer hello).queryableKe, [], [(helloServer hello).tokenKe "Hello"],
    []⟩

/-- The tests' server after a call that failed before it declared anything. -/
def helloFailed (e : Status) : LifeState SessionId Unit := ⟨.ofResult (some e), none, [], [], []⟩

/-- The tests' server after a call that was cancelled in its loop. -/
def helloCancelled : LifeState SessionId Unit :=
  { helloServing.release none with phase := .ofResult none }

/-- The tests' server declares its token. -/
lemma reachable_helloDeclared : ∃ steps, (life (helloServer hello)).Run steps
    (helloDeclaring [] [(helloServer hello).tokenKe "Hello"]) := by
  have hserve : LifeStep (helloServer hello) .built .serve
      ⟨.declaringQueryable, none, [], [], []⟩ := .serve trivial
  have hqueryable : LifeStep (helloServer hello) ⟨.declaringQueryable, none, [], [], []⟩
      .queryableDeclared (helloDeclaring ["Hello"] []) := .queryableDeclared rfl (.refl _)
  have htoken : LifeStep (helloServer hello) (helloDeclaring ["Hello"] []) .tokenDeclared
      (helloDeclaring [] [(helloServer hello).tokenKe "Hello"]) := .tokenDeclared rfl
  exact ⟨_, .step (.step (.step (.init rfl) hserve) hqueryable) htoken⟩

/-- The tests' server comes to its loop, and its call is cancelled there. -/
lemma reachable_helloCancelled : ∃ steps, (life (helloServer hello)).Run steps helloCancelled := by
  obtain ⟨steps, hrun⟩ := reachable_helloDeclared
  have hmoved : LifeStep (helloServer hello)
      (helloDeclaring [] [(helloServer hello).tokenKe "Hello"]) .tokensMoved helloServing :=
    .tokensMoved rfl
  have hcancelled : LifeStep (helloServer hello) helloServing .cancelled
      (helloServing.release none) := .cancelled trivial
  have hended : LifeStep (helloServer hello) (helloServing.release none) .ended helloCancelled :=
    .ended rfl rfl
  exact ⟨_, .step (.step (.step hrun hmoved) hcancelled) hended⟩

/-- The tests' server fails at its queryable, is served again and comes to its loop, and at every
moment what it announces is served. -/
theorem announcedIsServed_helloServing : ∃ steps,
    (life (helloServer hello)).Run steps helloServing ∧ helloServing.announced ≠ [] ∧
      ∀ x ∈ TransitionSystem.Run.states steps helloServing,
        x.AnnouncedIsServed (helloServer hello) := by
  let e := Status.new .internalError ("Cannot declare queryable: " ++ "session closed")
  have hserve : LifeStep (helloServer hello) .built .serve
      ⟨.declaringQueryable, none, [], [], []⟩ := .serve trivial
  have hfailed : LifeStep (helloServer hello) ⟨.declaringQueryable, none, [], [], []⟩
      (.queryableFailed "session closed") ⟨.dropping (some e), none, [], [], []⟩ :=
    .queryableFailed rfl
  have hended : LifeStep (helloServer hello) ⟨.dropping (some e), none, [], [], []⟩ .ended
      (helloFailed e) := .ended rfl rfl
  have hagain : LifeStep (helloServer hello) (helloFailed e) .serve
      ⟨.declaringQueryable, none, [], [], []⟩ := .serve trivial
  have hqueryable : LifeStep (helloServer hello) ⟨.declaringQueryable, none, [], [], []⟩
      .queryableDeclared (helloDeclaring ["Hello"] []) := .queryableDeclared rfl (.refl _)
  have htoken : LifeStep (helloServer hello) (helloDeclaring ["Hello"] []) .tokenDeclared
      (helloDeclaring [] [(helloServer hello).tokenKe "Hello"]) := .tokenDeclared rfl
  have hmoved : LifeStep (helloServer hello)
      (helloDeclaring [] [(helloServer hello).tokenKe "Hello"]) .tokensMoved helloServing :=
    .tokensMoved rfl
  have hrun : (life (helloServer hello)).Run _ _ :=
    .step (.step (.step (.step (.step (.step (.step (.init rfl) hserve) hfailed) hended) hagain)
      hqueryable) htoken) hmoved
  refine ⟨_, hrun, by simp [helloServing, LifeState.announced], (announcedIsServed_iff hrun).mpr ?_⟩
  intro p hp
  simp only [List.nil_append, List.cons_append, List.mem_cons, List.not_mem_nil, or_false] at hp
  rcases hp with rfl | rfl | rfl | rfl | rfl | rfl | rfl <;> trivial

/-- A call that is cancelled in its loop leaves the service announced, and nobody serves it. -/
theorem not_announcedIsServed_cancelled :
    ∃ steps, (life (helloServer hello)).Run steps helloCancelled ∧ helloCancelled.phase.Ended ∧
      ¬helloCancelled.AnnouncedIsServed (helloServer hello) := by
  obtain ⟨steps, hrun⟩ := reachable_helloCancelled
  refine ⟨_, hrun, trivial, fun h => ?_⟩
  have hserved := h.served ((helloServer hello).tokenKe "Hello")
    (by simp [LifeState.announced, LifeState.release, helloCancelled, helloServing])
  cases hserved

/-- A call that is cancelled between its tokens and its loop drops its queryable first, so that for
a moment it announces a service that nobody serves. -/
theorem not_announcedIsServed_declared : ∃ steps s, (life (helloServer hello)).Run steps s ∧
    s.serverTokens = [] ∧ ¬s.AnnouncedIsServed (helloServer hello) := by
  obtain ⟨steps, hrun⟩ := reachable_helloDeclared
  have hcancelled : LifeStep (helloServer hello)
      (helloDeclaring [] [(helloServer hello).tokenKe "Hello"]) .cancelled
      ((helloDeclaring [] [(helloServer hello).tokenKe "Hello"]).release none) := .cancelled trivial
  refine ⟨_, _, .step hrun hcancelled, rfl, fun h => ?_⟩
  have hnone := LifeState.announced_eq_nil_of_release h
  simp [LifeState.announced, helloDeclaring] at hnone

end ZenohRpc
