import ZenohRpc.Transition.Refinement

/-!
# Traces

A trace is a run of which some steps are left out, all of them silent.  What holds of a run because
its states follow each other holds of a trace as well, and so does what the kept steps do, where the
silent ones do nothing.

A system simulates another, as far as some steps of it are shown: a step that is shown is one step
of the other, and a step that is hidden is some silent steps of the other, or none.  Then every run
is seen as a trace of the other.
-/

namespace TransitionSystem

variable {State Label State' Label' α : Type*} {T : TransitionSystem State Label}
  {A : TransitionSystem State' Label'}

/-- A run of which silent steps may be left out. -/
inductive Trace (T : TransitionSystem State Label) (silent : Label → Prop) :
    List (State × Label) → State → Prop
  | init {s : State} : T.init s → Trace T silent [] s
  | silent {steps : List (State × Label)} {s s' : State} {l : Label} :
      Trace T silent steps s → silent l → T.step s l s' → Trace T silent steps s'
  | step {steps : List (State × Label)} {s s' : State} {l : Label} :
      Trace T silent steps s → T.step s l s' → Trace T silent (steps ++ [(s, l)]) s'

namespace Trace

variable {silent : Label → Prop} {steps pre post : List (State × Label)} {p : State × Label}
  {s s' : State}

/-- A trace comes to the state in which a step of it was taken, and from there to its end. -/
lemma of_append (h : T.Trace silent (pre ++ p :: post) s) :
    T.Trace silent pre p.1 ∧ T.Moves p.1 s := by
  generalize hsteps : pre ++ p :: post = steps at h
  induction h generalizing post with
  | init => simp at hsteps
  | silent _ _ hs ih =>
    obtain ⟨hpre, hmoves⟩ := ih hsteps
    exact ⟨hpre, hmoves.tail hs⟩
  | @step steps s s' l htrace hs ih =>
    rcases List.eq_nil_or_concat post with rfl | ⟨post, q, rfl⟩
    · obtain ⟨rfl, hp⟩ := List.append_inj' hsteps rfl
      obtain rfl := List.singleton_inj.mp hp
      exact ⟨htrace, .single hs⟩
    · rw [List.concat_eq_append, ← List.cons_append, ← List.append_assoc] at hsteps
      obtain ⟨hsteps, _⟩ := List.append_inj' hsteps rfl
      obtain ⟨hpre, hmoves⟩ := ih hsteps
      exact ⟨hpre, hmoves.tail hs⟩

/-- Where one step of a trace does not come behind another, its state leads to that of the other. -/
lemma moves_of_le {pre' post' : List (State × Label)} {p' : State × Label}
    (h : T.Trace silent (pre ++ p :: post) s) (hsplit : pre ++ p :: post = pre' ++ p' :: post')
    (hle : pre.length ≤ pre'.length) : T.Moves p.1 p'.1 := by
  obtain ⟨mid, rfl⟩ := List.prefix_of_prefix_length_le (List.prefix_append pre (p :: post))
    (hsplit ▸ List.prefix_append pre' (p' :: post')) hle
  rw [List.append_assoc, List.append_cancel_left_eq] at hsplit
  cases mid with
  | nil =>
    rw [List.nil_append, List.cons.injEq] at hsplit
    rw [hsplit.1]
    exact .refl
  | cons q mid =>
    rw [List.cons_append, List.cons.injEq] at hsplit
    obtain ⟨rfl, rfl⟩ := hsplit
    rw [← List.cons_append, ← List.append_assoc] at h
    exact h.of_append.1.of_append.2

/-- What stays true has not come true at a step that stands before one where it is true. -/
lemma length_lt_of_stays {P : State → Prop} (hstays : ∀ s s', T.Moves s s' → P s → P s')
    (h : T.Trace silent steps s) {pre' post' : List (State × Label)} {p' : State × Label}
    (hsplit : steps = pre ++ p :: post) (hsplit' : steps = pre' ++ p' :: post') (hp : ¬P p.1)
    (hp' : P p'.1) : pre.length < pre'.length := by
  by_contra hle
  rw [hsplit'] at h hsplit
  exact hp (hstays _ _ (h.moves_of_le hsplit (Nat.le_of_not_lt hle)) hp')

/-- A trace under a guard is a trace. -/
lemma of_restrict {guard : State → Label → Prop} (h : (T.restrict guard).Trace silent steps s) :
    T.Trace silent steps s := by
  induction h with
  | init hinit => exact .init hinit
  | silent _ hsilent hs ih => exact ih.silent hsilent hs.2
  | step _ hs ih => exact ih.step hs.2

/-- The end of a trace is reachable. -/
lemma reachable (h : T.Trace silent steps s) : T.Reachable s := by
  induction h with
  | init hinit => exact .init hinit
  | silent _ _ hs ih => exact ih.step hs
  | step _ hs ih => exact ih.step hs

/-- Silent steps go on with a trace. -/
lemma moves (h : T.Trace silent steps s) (hmoves : (T.restrict fun _ l => silent l).Moves s s') :
    T.Trace silent steps s' := by
  induction hmoves with
  | refl => exact h
  | tail _ hstep ih =>
    obtain ⟨l, hsilent, hs⟩ := hstep
    exact ih.silent hsilent hs

/-- A list that steps only add to, and silent steps add nothing to, is at the end of a trace what
its steps have added. -/
lemma accumulates {kept : State → List α} {added : State × Label → List α}
    (hinit : ∀ s, T.init s → kept s = [])
    (hsilent : ∀ s l, silent l → added (s, l) = [])
    (hstep : ∀ s l s', T.step s l s' → kept s' = kept s ++ added (s, l))
    (h : T.Trace silent steps s) : kept s = steps.flatMap added := by
  induction h with
  | init hs => rw [hinit _ hs, List.flatMap_nil]
  | silent _ hl hs ih => rw [hstep _ _ _ hs, hsilent _ _ hl, List.append_nil, ih]
  | step _ hs ih =>
    rw [hstep _ _ _ hs, ih, List.flatMap_append, List.flatMap_singleton]

end Trace

namespace Run

variable {steps : List (State × Label)} {s : State}

/-- A run is a trace that leaves nothing out. -/
lemma trace {silent : Label → Prop} (h : T.Run steps s) : T.Trace silent steps s := by
  induction h with
  | init hinit => exact .init hinit
  | step _ hs ih => exact ih.step hs

/-- The end of a run is reachable. -/
lemma reachable (h : T.Run steps s) : T.Reachable s := by
  induction h with
  | init hinit => exact .init hinit
  | step _ hs ih => exact ih.step hs

/-- What is reachable is the end of a run. -/
lemma exists_of_reachable (h : T.Reachable s) : ∃ steps, T.Run steps s := by
  induction h with
  | init hinit => exact ⟨[], .init hinit⟩
  | step _ hs ih =>
    obtain ⟨steps, hrun⟩ := ih
    exact ⟨_, hrun.step hs⟩

end Run

/-- The steps that a system takes from reachable states, as they are shown: each is one step of
another system, taken in the state that is seen, or it is hidden and is silent steps of the
other. -/
structure Simulates (T : TransitionSystem State Label) (A : TransitionSystem State' Label')
    (silent : Label' → Prop) (view : State → State')
    (shown : State × Label → Option (State' × Label')) : Prop where
  init : ∀ s, T.init s → A.init (view s)
  hidden : ∀ s l s', T.Reachable s → T.step s l s' → shown (s, l) = none →
    (A.restrict fun _ l => silent l).Moves (view s) (view s')
  step : ∀ s l s' p, T.Reachable s → T.step s l s' → shown (s, l) = some p →
    p.1 = view s ∧ A.step (view s) p.2 (view s')

/-- A run is seen as a trace of what the system simulates. -/
theorem Simulates.trace {silent : Label' → Prop} {view : State → State'}
    {shown : State × Label → Option (State' × Label')} (h : T.Simulates A silent view shown)
    {steps : List (State × Label)} {s : State} (hrun : T.Run steps s) :
    A.Trace silent (steps.filterMap shown) (view s) := by
  induction hrun with
  | init hinit => exact .init (h.init _ hinit)
  | @step steps s s' l hrun hs ih =>
    rw [List.filterMap_append]
    cases hshown : shown (s, l) with
    | none =>
      rw [List.filterMap_cons_none hshown, List.filterMap_nil, List.append_nil]
      exact ih.moves (h.hidden s l s' hrun.reachable hs hshown)
    | some p =>
      obtain ⟨hview, hstep⟩ := h.step s l s' p hrun.reachable hs hshown
      rw [List.filterMap_cons_some hshown, List.filterMap_nil]
      obtain ⟨_, l'⟩ := p
      obtain rfl := hview
      exact ih.step hstep

end TransitionSystem
