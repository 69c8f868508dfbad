import ZenohRpc.Transition.System
import Mathlib.Order.WellFounded

/-!
# Internal steps

Some labels of a transition system are its own: no one from outside has a part in them.  A state is
quiescent when no internal step can be taken.

Where every internal step lowers a measure, internal steps terminate, and lead to a quiescent state;
a measure that is a number bounds how many of them can follow each other.
-/

namespace TransitionSystem

variable {State Label : Type*} {T : TransitionSystem State Label} {internal : Label → Prop}

/-- A number of internal steps, one after the other. -/
inductive Steps (T : TransitionSystem State Label) (internal : Label → Prop) (s : State) :
    ℕ → State → Prop
  | refl : Steps T internal s 0 s
  | step {n : ℕ} {s' s'' : State} {l : Label} : Steps T internal s n s' → internal l →
      T.step s' l s'' → Steps T internal s (n + 1) s''

/-- No internal step can be taken. -/
def Quiescent (T : TransitionSystem State Label) (internal : Label → Prop) (s : State) : Prop :=
  ∀ l s', internal l → ¬T.step s l s'

namespace Steps

variable {n m : ℕ} {s s' s'' : State}

/-- Internal steps after internal steps. -/
lemma trans (h : T.Steps internal s n s') (h' : T.Steps internal s' m s'') :
    T.Steps internal s (n + m) s'' := by
  induction h' with
  | refl => exact h
  | step _ hl hs ih => exact .step ih hl hs

/-- Internal steps that are taken from fewer are internal steps. -/
lemma mono {internal' : Label → Prop} (hfewer : ∀ l, internal l → internal' l)
    (h : T.Steps internal s n s') : T.Steps internal' s n s' := by
  induction h with
  | refl => exact .refl
  | step _ hl hstep ih => exact .step ih (hfewer _ hl) hstep

/-- Internal steps that a guard allows are internal steps under the guard. -/
lemma restrict {guard : State → Label → Prop} (hguard : ∀ s l, internal l → guard s l)
    (h : T.Steps internal s n s') : (T.restrict guard).Steps internal s n s' := by
  induction h with
  | refl => exact .refl
  | step _ hl hstep ih => exact .step ih hl ⟨hguard _ _ hl, hstep⟩

/-- Internal steps lead to what is reachable. -/
lemma reachable (h : T.Steps internal s n s') (hs : T.Reachable s) : T.Reachable s' := by
  induction h with
  | refl => exact hs
  | step _ _ hstep ih => exact .step ih hstep

/-- What internal steps do not change. -/
lemma eq_of_step {α : Type*} {f : State → α}
    (hf : ∀ s l s', internal l → T.step s l s' → f s' = f s) (h : T.Steps internal s n s') :
    f s' = f s := by
  induction h with
  | refl => rfl
  | step _ hl hs ih => exact (hf _ _ _ hl hs).trans ih

variable {measure : State → ℕ}

/-- A measure that every internal step lowers bounds their number. -/
lemma add_le (hlower : ∀ s l s', internal l → T.step s l s' → measure s' < measure s)
    (h : T.Steps internal s n s') : n + measure s' ≤ measure s := by
  induction h with
  | refl => simp
  | step _ hl hs ih =>
    have := hlower _ _ _ hl hs
    omega

end Steps

/-- Internal steps cannot go on for ever. -/
def Terminates (T : TransitionSystem State Label) (internal : Label → Prop) (s : State) : Prop :=
  Acc (fun s' s => ∃ l, internal l ∧ T.step s l s') s

/-- Where every internal step lowers a measure, internal steps terminate. -/
lemma terminates_of_lower {α : Type*} [LT α] [WellFoundedLT α] {measure : State → α}
    (hlower : ∀ s l s', internal l → T.step s l s' → measure s' < measure s) (s : State) :
    T.Terminates internal s := by
  have hwf : WellFounded fun s' s => ∃ l, internal l ∧ T.step s l s' :=
    Subrelation.wf (fun ⟨l, hl, hs⟩ => hlower _ l _ hl hs) (InvImage.wf measure wellFounded_lt)
  exact hwf.apply s

namespace Terminates

variable {s : State}

/-- If internal steps terminate, so do those that are taken from fewer. -/
lemma mono {internal' : Label → Prop} (hfewer : ∀ l, internal' l → internal l)
    (h : T.Terminates internal s) : T.Terminates internal' s :=
  Subrelation.accessible (fun ⟨l, hl, hs⟩ => ⟨l, hfewer l hl, hs⟩) h

/-- Internal steps that terminate lead to a quiescent state. -/
theorem exists_quiescent (h : T.Terminates internal s) :
    ∃ n s', T.Steps internal s n s' ∧ T.Quiescent internal s' := by
  induction h with
  | intro s _ ih =>
    by_cases hquiet : T.Quiescent internal s
    · exact ⟨0, s, .refl, hquiet⟩
    · unfold Quiescent at hquiet
      push Not at hquiet
      obtain ⟨l, s₁, hl, hs⟩ := hquiet
      obtain ⟨n, s', hsteps, hquiet'⟩ := ih s₁ ⟨l, hl, hs⟩
      exact ⟨1 + n, s', (Steps.step .refl hl hs).trans hsteps, hquiet'⟩

end Terminates

end TransitionSystem
