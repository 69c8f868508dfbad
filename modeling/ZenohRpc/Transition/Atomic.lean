import ZenohRpc.Transition.Trace

/-!
# Atomic steps on a shared world

The steps of a run may act on a world that they share, one after the other.  Of some steps it is
said in which world they take place; a run is atomic when each of them takes place in the world that
the steps before it have left.  Then what the steps do is what a sequential program does that makes
them in the order of the run.

What a run has done so far is often kept in its state, as a list that steps only add to.  Where that
list has one element, one step of the run has added it.

Where only some steps of a run are shown, what the shown steps do is what the run does, if the
others leave the world alone.
-/

namespace TransitionSystem

variable {State Label State' Label' World α : Type*} {T : TransitionSystem State Label}

/-- Where steps add one element in all, one step adds it, and no other adds any. -/
lemma exists_of_flatMap_eq_singleton {β : Type*} {l : List β} {added : β → List α} {a : α}
    (h : l.flatMap added = [a]) : ∃ pre b post, l = pre ++ b :: post ∧ added b = [a] ∧
      ∀ c ∈ pre ++ post, added c = [] := by
  induction l with
  | nil => simp at h
  | cons b l ih =>
    rw [List.flatMap_cons, List.append_eq_singleton_iff] at h
    rcases h with ⟨hnil, hrest⟩ | ⟨hone, hrest⟩
    · obtain ⟨pre, c, post, rfl, hc, hothers⟩ := ih hrest
      refine ⟨b :: pre, c, post, rfl, hc, fun d hd => ?_⟩
      rcases List.mem_cons.mp hd with rfl | hd
      · exact hnil
      · exact hothers d hd
    · exact ⟨[], b, l, rfl, hone, List.flatMap_eq_nil_iff.mp hrest⟩

/-- The place of the only element that has a property is the number of elements before it. -/
lemma findIdx_append_cons {β : Type*} {f : β → Bool} {pre post : List β} {b : β}
    (hpre : ∀ c ∈ pre, f c = false) (hb : f b = true) :
    (pre ++ b :: post).findIdx f = pre.length := by
  rw [List.findIdx_append, List.findIdx_eq_length_of_false hpre, if_neg (Nat.lt_irrefl _),
    List.findIdx_cons, hb]
  simp

/-- The world that steps leave. -/
def worldAfter (act : State × Label → World → World) (w : World)
    (steps : List (State × Label)) : World :=
  steps.foldl (fun w p => act p w) w

/-- One more step acts on the world that the steps before it leave. -/
lemma worldAfter_concat (act : State × Label → World → World) (w : World)
    (steps : List (State × Label)) (p : State × Label) :
    worldAfter act w (steps ++ [p]) = act p (worldAfter act w steps) :=
  List.foldl_concat ..

/-- More steps act on the world that the first ones leave. -/
lemma worldAfter_append (act : State × Label → World → World) (w : World)
    (steps steps' : List (State × Label)) :
    worldAfter act w (steps ++ steps') = worldAfter act (worldAfter act w steps) steps' :=
  List.foldl_append

/-- What no element lowers, a fold does not lower. -/
lemma le_foldl {β : Type*} {f : World → β → World} {count : World → ℕ}
    (hf : ∀ w b, count w ≤ count (f w b)) (w : World) (l : List β) :
    count w ≤ count (l.foldl f w) := by
  induction l generalizing w with
  | nil => exact Nat.le_refl _
  | cons b l ih => exact Nat.le_trans (hf w b) (ih (f w b))

/-- The steps take place one after the other, from a world on: a step of which it is said in which
world it takes place does so in the one that the steps before it have left. -/
def Atomic (act : State × Label → World → World) (takesPlaceIn : Label → Option World) (w : World)
    (steps : List (State × Label)) : Prop :=
  ∀ pre p post, steps = pre ++ p :: post → ∀ w', takesPlaceIn p.2 = some w' →
    w' = worldAfter act w pre

/-- One more step takes place after the others, if it does so in the world that they have left. -/
lemma Atomic.concat {act : State × Label → World → World} {takesPlaceIn : Label → Option World}
    {w : World} {steps : List (State × Label)} (h : Atomic act takesPlaceIn w steps)
    {p : State × Label} (hp : ∀ w', takesPlaceIn p.2 = some w' → w' = worldAfter act w steps) :
    Atomic act takesPlaceIn w (steps ++ [p]) := by
  intro pre q post hsplit w' hw'
  rcases List.eq_nil_or_concat post with rfl | ⟨post, r, rfl⟩
  · obtain ⟨rfl, hlast⟩ := List.append_inj' hsplit rfl
    obtain rfl := List.singleton_inj.mp hlast
    exact hp w' hw'
  · rw [List.concat_eq_append, ← List.cons_append, ← List.append_assoc] at hsplit
    obtain ⟨rfl, _⟩ := List.append_inj' hsplit rfl
    exact h pre q post rfl w' hw'

/-- A run whose steps take place one after the other, from one world to another. -/
structure AtomicRun (T : TransitionSystem State Label) (act : State × Label → World → World)
    (takesPlaceIn : Label → Option World) (w₀ : World) (steps : List (State × Label)) (s : State)
    (w : World) : Prop where
  run : T.Run steps s
  atomic : Atomic act takesPlaceIn w₀ steps
  world : worldAfter act w₀ steps = w

/-- One more step of such a run, in the world that it has come to. -/
lemma AtomicRun.step {act : State × Label → World → World} {takesPlaceIn : Label → Option World}
    {w₀ w : World} {steps : List (State × Label)} {s s' : State} {l : Label}
    (h : AtomicRun T act takesPlaceIn w₀ steps s w) (hs : T.step s l s')
    (hplace : ∀ w', takesPlaceIn l = some w' → w' = w) :
    AtomicRun T act takesPlaceIn w₀ (steps ++ [(s, l)]) s' (act (s, l) w) where
  run := h.run.step hs
  atomic := h.atomic.concat fun v hv => (hplace v hv).trans h.world.symm
  world := by rw [worldAfter_concat, h.world]

/-! ## Shown steps -/

/-- A place in the list of the shown steps is a place in the list of all steps. -/
lemma exists_of_filterMap_eq {β γ : Type*} {shown : β → Option γ} {l : List β} {pre post : List γ}
    {c : γ} (h : l.filterMap shown = pre ++ c :: post) : ∃ pre' b post', l = pre' ++ b :: post' ∧
      pre'.filterMap shown = pre ∧ shown b = some c ∧ post'.filterMap shown = post := by
  obtain ⟨l₁, l₂, rfl, hpre, hrest⟩ := List.filterMap_eq_append_iff.mp h
  obtain ⟨mid, b, post', rfl, hnone, hb, hpost⟩ := List.filterMap_eq_cons_iff.mp hrest
  refine ⟨l₁ ++ mid, b, post', by rw [List.append_assoc], ?_, hb, hpost⟩
  rw [List.filterMap_append, hpre, List.filterMap_eq_nil_iff.mpr hnone, List.append_nil]

section Shown

variable {act : State × Label → World → World} {act' : State' × Label' → World → World}
  {shown : State × Label → Option (State' × Label')}

/-- The shown steps leave the world that all steps leave, if the others leave it alone. -/
lemma worldAfter_filterMap (hact : ∀ p w, act p w = (shown p).elim w fun q => act' q w) (w : World)
    (steps : List (State × Label)) :
    worldAfter act' w (steps.filterMap shown) = worldAfter act w steps := by
  induction steps generalizing w with
  | nil => rfl
  | cons p steps ih =>
    have hp := hact p w
    cases hshown : shown p with
    | none =>
      rw [hshown, Option.elim_none] at hp
      rw [List.filterMap_cons_none hshown, ih, worldAfter, worldAfter, List.foldl_cons, hp]
    | some q =>
      rw [hshown, Option.elim_some] at hp
      rw [List.filterMap_cons_some hshown, worldAfter, List.foldl_cons, ← worldAfter, ih,
        worldAfter, worldAfter, List.foldl_cons, hp]

/-- The shown steps of steps that take place one after the other do so themselves. -/
lemma Atomic.filterMap {takesPlaceIn : Label → Option World}
    {takesPlaceIn' : Label' → Option World} {w : World} {steps : List (State × Label)}
    (hact : ∀ p w, act p w = (shown p).elim w fun q => act' q w)
    (hplace : ∀ p q, shown p = some q → takesPlaceIn' q.2 = takesPlaceIn p.2)
    (h : Atomic act takesPlaceIn w steps) :
    Atomic act' takesPlaceIn' w (steps.filterMap shown) := by
  intro pre q post hsplit w' hw'
  obtain ⟨pre', p, post', rfl, rfl, hp, _⟩ := exists_of_filterMap_eq hsplit
  rw [worldAfter_filterMap hact]
  rw [hplace p q hp] at hw'
  exact h pre' p post' rfl w' hw'

end Shown

end TransitionSystem
