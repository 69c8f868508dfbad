import Mathlib.Data.List.Basic
import Mathlib.Tactic.Common

/-!
# Transition systems and their runs

A transition system has initial states and labelled steps.  A run is recorded as the list of its
steps, each with the state it was taken in, and the state it ends in.

There are two rules here.  An invariant holds in every reachable state when it holds initially and
every step keeps it.  A guard describes the good runs of a system exactly when runs that keep to
the guard are good, and a step against the guard leads to a bad state at once.
-/

/-- Initial states and labelled steps. -/
structure TransitionSystem (State Label : Type*) where
  init : State → Prop
  step : State → Label → State → Prop

namespace TransitionSystem

variable {State Label : Type*} {T : TransitionSystem State Label}

/-- The states a system can be in. -/
inductive Reachable (T : TransitionSystem State Label) : State → Prop
  | init {s : State} : T.init s → Reachable T s
  | step {s s' : State} {l : Label} : Reachable T s → T.step s l s' → Reachable T s'

/-- An invariant that may use that the state a step starts in is reachable. -/
theorem Reachable.invariant {Inv : State → Prop} (hinit : ∀ s, T.init s → Inv s)
    (hstep : ∀ s l s', T.Reachable s → Inv s → T.step s l s' → Inv s') {s : State}
    (h : T.Reachable s) : Inv s := by
  induction h with
  | init h => exact hinit _ h
  | step hreach hs ih => exact hstep _ _ _ hreach ih hs

/-- The system that takes only the steps a guard allows. -/
def restrict (T : TransitionSystem State Label) (guard : State → Label → Prop) :
    TransitionSystem State Label where
  init := T.init
  step s l s' := guard s l ∧ T.step s l s'

/-- What is reachable under a guard is reachable. -/
lemma Reachable.of_restrict {guard : State → Label → Prop} {s : State}
    (h : (T.restrict guard).Reachable s) : T.Reachable s := by
  induction h with
  | init h => exact .init h
  | step _ hs ih => exact .step ih hs.2

/-- A run: its steps in order, and the state it ends in. -/
inductive Run (T : TransitionSystem State Label) : List (State × Label) → State → Prop
  | init {s : State} : T.init s → Run T [] s
  | step {steps : List (State × Label)} {s s' : State} {l : Label} :
      Run T steps s → T.step s l s' → Run T (steps ++ [(s, l)]) s'

namespace Run

variable {steps : List (State × Label)} {s : State}

/-- The states a run goes through. -/
def states (steps : List (State × Label)) (s : State) : List State := steps.map Prod.fst ++ [s]

lemma mem_states {x : State} :
    x ∈ states steps s ↔ (∃ p ∈ steps, p.1 = x) ∨ x = s := by
  simp [states]

/-- A run under a guard ends in a state that is reachable under the guard. -/
lemma reachable_restrict {guard : State → Label → Prop} (h : T.Run steps s)
    (hguard : ∀ p ∈ steps, guard p.1 p.2) : (T.restrict guard).Reachable s := by
  induction h with
  | init h => exact .init h
  | @step steps s s' l _ hs ih =>
    have hsteps := ih fun p hp => hguard p (by simp [hp])
    exact .step hsteps ⟨hguard (s, l) (by simp), hs⟩

/-- A guard describes the good runs of a system, when runs under the guard are good and a step
against the guard leads to a bad state. -/
theorem forall_states_iff {guard : State → Label → Prop} {Good : State → Prop}
    (hgood : ∀ s, (T.restrict guard).Reachable s → Good s)
    (hbad : ∀ s l s', (T.restrict guard).Reachable s → T.step s l s' → Good s' → guard s l)
    (h : T.Run steps s) :
    (∀ x ∈ states steps s, Good x) ↔ ∀ p ∈ steps, guard p.1 p.2 := by
  induction h with
  | @init s h =>
    refine ⟨fun _ p hp => absurd hp (by simp), fun _ x hx => ?_⟩
    rw [mem_states] at hx
    obtain ⟨p, hp, _⟩ | rfl := hx
    · simp at hp
    · exact hgood _ (.init h)
  | @step steps s s' l hrun hs ih =>
    constructor
    · intro hall
      have hbefore : ∀ p ∈ steps, guard p.1 p.2 := ih.mp fun x hx => hall x (by
        rw [mem_states] at hx ⊢
        obtain ⟨p, hp, rfl⟩ | rfl := hx
        · exact Or.inl ⟨p, by simp [hp], rfl⟩
        · exact Or.inl ⟨(x, l), by simp, rfl⟩)
      have hlast : guard s l :=
        hbad s l s' (hrun.reachable_restrict hbefore) hs (hall s' (by simp [states]))
      intro p hp
      rw [List.mem_append, List.mem_singleton] at hp
      obtain hp | rfl := hp
      · exact hbefore p hp
      · exact hlast
    · intro hguard x hx
      have hbefore : ∀ p ∈ steps, guard p.1 p.2 := fun p hp => hguard p (by simp [hp])
      have hreach := hrun.reachable_restrict hbefore
      rw [mem_states] at hx
      obtain ⟨p, hp, rfl⟩ | rfl := hx
      · rw [List.mem_append, List.mem_singleton] at hp
        obtain hp | rfl := hp
        · exact ih.mpr hbefore _ (mem_states.mpr (Or.inl ⟨p, hp, rfl⟩))
        · exact hgood _ hreach
      · exact hgood _ (.step hreach ⟨hguard (s, l) (by simp), hs⟩)

end Run

end TransitionSystem
