import ZenohRpc.Server.Life
import ZenohRpc.Transition.Atomic

/-!
# The tokens that a server keeps

Every call of `serve` that comes to its loop moves a token for each service to the server, where
nothing takes it away.  So the tokens that a server holds count the calls: each service is announced
once for every call that came to its loop, also when no call is in progress, and a server that has
been served twice announces everything twice.

Next to these there are the tokens that a call in progress has declared and not moved.  A call that
ends early drops them one after the other, after its queryable.
-/

namespace ZenohRpc

open KeyExpr TransitionSystem

variable {ZenohId World : Type}

/-- The event of a call that comes to its loop. -/
def LifeEvent.movesTokens : LifeEvent World → Bool
  | tokensMoved => true
  | _ => false

/-- The number of calls of `serve` that came to their loop. -/
def callsServed (steps : List (LifeState ZenohId World × LifeEvent World)) : ℕ :=
  steps.countP fun p => p.2.movesTokens

/-- The tokens of all services, `n` times. -/
def Server.allTokens [Zenoh ZenohId] (srv : Server ZenohId World) (n : ℕ) : List String :=
  (List.replicate n (srv.services.keys.map srv.tokenKe)).flatten

section

variable [Runtime] [Zenoh ZenohId] {srv : Server ZenohId World}
  {s s' : LifeState ZenohId World} {l : LifeEvent World}

/-! ## The call in progress -/

/-- What a call in progress holds.  While it declares tokens, those declared and those to come are
the tokens of all services; while it drops its variables, it holds some of these; otherwise it holds
none.  It holds the queryable while it declares tokens and in its loop, and only then. -/
structure LifeState.Holds (srv : Server ZenohId World) (s : LifeState ZenohId World) : Prop where
  declaring : ∀ ks, s.phase = .declaringTokens ks →
    (s.tokens ++ ks.map srv.tokenKe).Perm (srv.services.keys.map srv.tokenKe)
  dropping : ∀ result, s.phase = .dropping result →
    s.tokens.Subperm (srv.services.keys.map srv.tokenKe)
  others : (∀ ks, s.phase ≠ .declaringTokens ks) → (∀ result, s.phase ≠ .dropping result) →
    s.tokens = []
  queryable : s.queryable = some srv.queryableKe ↔ s.phase.Answers

omit [Runtime] in
/-- However far a call has come, the tokens that it holds are some of those of all services. -/
lemma LifeState.Holds.subperm (h : s.Holds srv) :
    s.tokens.Subperm (srv.services.keys.map srv.tokenKe) := by
  by_cases hdeclaring : ∃ ks, s.phase = .declaringTokens ks
  · obtain ⟨ks, hks⟩ := hdeclaring
    exact (List.sublist_append_left _ _).subperm.trans (h.declaring ks hks).subperm
  by_cases hdropping : ∃ result, s.phase = .dropping result
  · obtain ⟨result, hresult⟩ := hdropping
    exact h.dropping result hresult
  · rw [h.others (not_exists.mp hdeclaring) (not_exists.mp hdropping)]
    exact List.nil_subperm

omit [Runtime] in
/-- A call that ends lets go of its queryable, and keeps its tokens for the moment. -/
lemma LifeState.Holds.release (h : s.Holds srv) (result : Option Status) :
    (s.release result).Holds srv := by
  have hphase : (s.release result).phase = .dropping result := rfl
  refine ⟨by simp [hphase], fun _ _ => h.subperm, fun _ hother => absurd hphase (hother result), ?_⟩
  exact iff_of_false (by simp [LifeState.release]) id

/-- Every step keeps to what a call holds. -/
lemma LifeState.Holds.step (h : s.Holds srv) (hs : LifeStep srv s l s') : s'.Holds srv := by
  cases hs with
  | serve hended =>
    have hnone : s.tokens = [] := by
      refine h.others (fun ks hks => ?_) fun result hresult => ?_
      · simp [hks, Phase.Ended] at hended
      · simp [hresult, Phase.Ended] at hended
    have hqueryable : s.queryable ≠ some srv.queryableKe := by
      rw [ne_eq, h.queryable]
      cases hphase : s.phase <;> simp [hphase, Phase.Ended, Phase.Answers] at hended ⊢
    exact ⟨by simp, by simp, fun _ _ => hnone, iff_of_false hqueryable id⟩
  | @queryableDeclared ks hphase hperm =>
    have hnone : s.tokens = [] := h.others (by simp [hphase]) (by simp [hphase])
    refine ⟨fun ks' hks' => ?_, by simp, fun hother => absurd rfl (hother ks),
      iff_of_true rfl trivial⟩
    obtain rfl := Phase.declaringTokens.inj hks'
    rw [hnone, List.nil_append]
    exact hperm.map _
  | @tokenDeclared k ks hphase =>
    refine ⟨fun ks' hks' => ?_, by simp, fun hother => absurd rfl (hother ks), ?_⟩
    · obtain rfl := Phase.declaringTokens.inj hks'
      rw [List.append_assoc]
      exact h.declaring _ hphase
    · simp [h.queryable, hphase, Phase.Answers]
  | tokensMoved hphase =>
    exact ⟨by simp, by simp, fun _ _ => rfl, by simp [h.queryable, hphase, Phase.Answers]⟩
  | handled hphase _ _ =>
    have hnone : s.tokens = [] := h.others (by simp [hphase]) (by simp [hphase])
    exact ⟨by simp, by simp, fun _ _ => hnone, by simp [h.queryable, hphase, Phase.Answers]⟩
  | queryableFailed _ => exact h.release _
  | tokenFailed _ => exact h.release _
  | returned _ _ _ => exact h.release _
  | cancelled _ => exact h.release _
  | @tokenDropped result t ts hphase htokens =>
    have hsub := h.dropping result hphase
    rw [htokens] at hsub
    refine ⟨by simp [hphase], fun _ _ => (List.sublist_cons_self t ts).subperm.trans hsub,
      fun _ hother => absurd hphase (hother result), ?_⟩
    simp [h.queryable, hphase]
  | @ended result hphase htokens =>
    have hqueryable : s.queryable ≠ some srv.queryableKe := by
      simp [h.queryable, hphase, Phase.Answers]
    cases result with
    | none => exact ⟨by simp [Phase.ofResult], by simp [Phase.ofResult], fun _ _ => htokens,
      iff_of_false hqueryable id⟩
    | some e => exact ⟨by simp [Phase.ofResult], by simp [Phase.ofResult], fun _ _ => htokens,
      iff_of_false hqueryable id⟩

/-- What a call holds, in every state of a server's life. -/
lemma LifeState.holds_of_reachable (h : (life srv).Reachable s) : s.Holds srv := by
  refine h.invariant ?_ ?_
  · rintro s rfl
    exact ⟨by simp [LifeState.built], by simp [LifeState.built], fun _ _ => rfl,
      iff_of_false (by simp [LifeState.built]) id⟩
  · intro s l s' _ hinv hs
    exact hinv.step hs

/-! ## The tokens of the server -/

/-- A step moves all the tokens of the call to the server, once all are declared, or leaves the
server's tokens as they are. -/
lemma LifeStep.serverTokens_cases (h : LifeStep srv s l s') :
    (l.movesTokens = true ∧ s.phase = .declaringTokens [] ∧
      s'.serverTokens = s.serverTokens ++ s.tokens) ∨
    (l.movesTokens = false ∧ s'.serverTokens = s.serverTokens) := by
  cases h with
  | tokensMoved hphase => exact Or.inl ⟨rfl, hphase, rfl⟩
  | serve | queryableDeclared | queryableFailed | tokenDeclared | tokenFailed | handled | returned
  | cancelled | tokenDropped | ended => exact Or.inr ⟨rfl, rfl⟩

/-- The tokens that a server holds are those of all services, once for each call of `serve` that
came to its loop. -/
lemma serverTokens_perm {steps : List (LifeState ZenohId World × LifeEvent World)}
    (h : (life srv).Run steps s) : s.serverTokens.Perm (srv.allTokens (callsServed steps)) := by
  induction h with
  | init hinit =>
    rw [hinit]
    exact .refl _
  | @step steps s s' l hrun hs ih =>
    rw [callsServed, List.countP_append, List.countP_singleton]
    rcases LifeStep.serverTokens_cases hs with ⟨hmoves, hphase, htokens⟩ | ⟨hmoves, htokens⟩
    · have hall := (LifeState.holds_of_reachable hrun.reachable).declaring _ hphase
      rw [List.map_nil, List.append_nil] at hall
      rw [htokens, if_pos hmoves, Server.allTokens, List.replicate_succ', List.flatten_concat]
      exact ih.append hall
    · rw [htokens, if_neg (by simp [hmoves])]
      exact ih

/-- What a server announces, at any moment of its life.  It holds the tokens of all services once
for each call of `serve` that came to its loop, however the calls ended.  A call in progress that is
still declaring announces some more of them, and so does one that is about to end and has not yet
dropped them; otherwise there are no others.  And the queryable is declared exactly while a call
declares tokens or is in its loop. -/
theorem announced_of_run {steps : List (LifeState ZenohId World × LifeEvent World)}
    (h : (life srv).Run steps s) :
    s.serverTokens.Perm (srv.allTokens (callsServed steps)) ∧
    (∀ ks, s.phase = .declaringTokens ks → (s.announced ++ ks.map srv.tokenKe).Perm
      (srv.allTokens (callsServed steps + 1))) ∧
    (∀ result, s.phase = .dropping result →
      s.tokens.Subperm (srv.services.keys.map srv.tokenKe) ∧
        s.announced.Perm (srv.allTokens (callsServed steps) ++ s.tokens)) ∧
    ((∀ ks, s.phase ≠ .declaringTokens ks) → (∀ result, s.phase ≠ .dropping result) →
      s.announced.Perm (srv.allTokens (callsServed steps))) ∧
    (s.queryable = some srv.queryableKe ↔
      (∃ ks, s.phase = .declaringTokens ks) ∨ ∃ loop, s.phase = .serving loop) := by
  have hserver := serverTokens_perm h
  have hholds := LifeState.holds_of_reachable h.reachable
  refine ⟨hserver, fun ks hphase => ?_, fun result hphase => ?_, fun hdeclaring hdropping => ?_, ?_⟩
  · rw [LifeState.announced, List.append_assoc, Server.allTokens, List.replicate_succ',
      List.flatten_concat]
    exact hserver.append (hholds.declaring ks hphase)
  · exact ⟨hholds.dropping result hphase, hserver.append_right _⟩
  · rw [LifeState.announced, hholds.others hdeclaring hdropping, List.append_nil]
    exact hserver
  · rw [hholds.queryable]
    cases s.phase <;> simp [Phase.Answers]

end

/-! ## A server that was cancelled -/

open Reference

/-- The tests' server, served and cancelled, announces its service, and nobody serves it. -/
theorem announced_of_run_cancelled : ∃ steps,
    (life (helloServer hello)).Run steps helloCancelled ∧
      helloCancelled.announced.Perm ((helloServer hello).allTokens (callsServed steps)) := by
  obtain ⟨steps, hrun⟩ := reachable_helloCancelled
  exact ⟨_, hrun, (announced_of_run hrun).2.2.2.1 nofun nofun⟩

end ZenohRpc
