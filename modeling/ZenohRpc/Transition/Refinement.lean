import ZenohRpc.Transition.System
import Mathlib.Logic.Relation

/-!
# Refinement

A transition system refines another along a view of its states, when every step that it takes looks
like some steps of the other, or like none.  Then what it reaches looks like what the other reaches,
so invariants of the other are invariants of what is seen.

The step of the refining system may be looked at with an invariant of that system in hand.
-/

namespace TransitionSystem

variable {State State' Label Label' : Type*} {T : TransitionSystem State Label}
  {A : TransitionSystem State' Label'}

/-- Any number of steps. -/
def Moves (T : TransitionSystem State Label) : State → State → Prop :=
  Relation.ReflTransGen fun s s' => ∃ l, T.step s l s'

namespace Moves

lemma refl {s : State} : T.Moves s s := Relation.ReflTransGen.refl

/-- One more step. -/
lemma tail {s s' s'' : State} {l : Label} (h : T.Moves s s') (hs : T.step s' l s'') :
    T.Moves s s'' := Relation.ReflTransGen.tail h ⟨l, hs⟩

/-- Steps after steps. -/
lemma trans {s s' s'' : State} (h : T.Moves s s') (h' : T.Moves s' s'') : T.Moves s s'' :=
  Relation.ReflTransGen.trans h h'

/-- One step. -/
lemma single {s s' : State} {l : Label} (hs : T.step s l s') : T.Moves s s' := refl.tail hs

/-- Steps under a guard are steps. -/
lemma of_restrict {guard : State → Label → Prop} {s s' : State}
    (h : (T.restrict guard).Moves s s') : T.Moves s s' := by
  induction h with
  | refl => exact .refl
  | tail _ hstep ih =>
    obtain ⟨l, _, hl⟩ := hstep
    exact ih.tail hl

/-- Steps under a guard are steps under a weaker one. -/
lemma mono {guard guard' : State → Label → Prop} (hguard : ∀ s l, guard s l → guard' s l)
    {s s' : State} (h : (T.restrict guard).Moves s s') : (T.restrict guard').Moves s s' := by
  induction h with
  | refl => exact .refl
  | tail _ hstep ih =>
    obtain ⟨l, hl, hs⟩ := hstep
    exact ih.tail ⟨hguard _ l hl, hs⟩

/-- Steps under two guards are steps under the one and the other. -/
lemma restrict_restrict {guard guard' : State → Label → Prop} {s s' : State}
    (h : (T.restrict fun s l => guard s l ∧ guard' s l).Moves s s') :
    ((T.restrict guard).restrict guard').Moves s s' := by
  induction h with
  | refl => exact .refl
  | tail _ hstep ih =>
    obtain ⟨l, ⟨hguard, hguard'⟩, hl⟩ := hstep
    exact ih.tail ⟨hguard', hguard, hl⟩

/-- What is reachable stays reachable. -/
lemma reachable {s s' : State} (h : T.Moves s s') (hs : T.Reachable s) : T.Reachable s' := by
  induction h with
  | refl => exact hs
  | tail _ hstep ih =>
    obtain ⟨l, hl⟩ := hstep
    exact ih.step hl

end Moves

/-- The steps that a system takes from reachable states are steps of another, seen through a view of
its states. -/
structure Refines (T : TransitionSystem State Label) (A : TransitionSystem State' Label')
    (view : State → State') : Prop where
  init : ∀ s, T.init s → A.init (view s)
  step : ∀ s l s', T.Reachable s → T.step s l s' → A.Moves (view s) (view s')

/-- What a refining system reaches, the other reaches. -/
theorem Refines.reachable {view : State → State'} (h : T.Refines A view) {s : State}
    (hs : T.Reachable s) : A.Reachable (view s) := by
  induction hs with
  | init hinit => exact .init (h.init _ hinit)
  | step hreach hstep ih => exact (h.step _ _ _ hreach hstep).reachable ih

end TransitionSystem
