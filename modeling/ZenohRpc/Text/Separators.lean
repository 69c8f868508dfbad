import Mathlib.Data.List.DropRight
import Mathlib.Data.List.Chain
import Mathlib.Tactic.Common

/-!
# Separators

A list in which one symbol separates.  `trim` takes the separators off both ends, and `dropBefore`
takes away a separator that stands directly before a symbol of some kind; with the separator itself
as that kind it squeezes every run of separators into one.  Done one after the other they make a
list `Canonical`: no separator stands at an end, next to another one, or before a symbol of the
kind.
-/

namespace Text

variable {α : Type} [DecidableEq α] (sep : α)

/-! ## Operations -/

/-- The list without the separators at its ends. -/
def trim (l : List α) : List α := (l.dropWhile (· == sep)).rdropWhile (· == sep)

/-- The list without the separators that stand before a symbol of a kind. -/
def dropBefore (p : α → Bool) : List α → List α
  | [] => []
  | c :: cs => if c = sep ∧ cs.head?.any p then dropBefore p cs else c :: dropBefore p cs

/-- The list with every run of separators made one. -/
def squeeze (l : List α) : List α := dropBefore sep (· == sep) l

/-- A list where no separator stands at an end, next to another, or before a symbol of a kind. -/
structure Canonical (p : α → Bool) (l : List α) : Prop where
  head : l.head? ≠ some sep
  last : l.getLast? ≠ some sep
  chain : l.IsChain fun c d => c = sep → d ≠ sep ∧ p d = false

/-- The canonical list that is left of a list. -/
def canonicalize (p : α → Bool) (l : List α) : List α := dropBefore sep p (squeeze sep (trim sep l))

/-! ## What they leave -/

variable {sep} {p : α → Bool} {l : List α}

lemma dropBefore_sublist : (dropBefore sep p l).Sublist l := by
  induction l with
  | nil => exact .slnil
  | cons c cs ih =>
    rw [dropBefore]
    split
    · exact ih.cons c
    · exact ih.cons_cons c

lemma trim_sublist : (trim sep l).Sublist l :=
  (List.rdropWhile_prefix _ _).sublist.trans (List.dropWhile_sublist _)

lemma canonicalize_sublist : (canonicalize sep p l).Sublist l :=
  dropBefore_sublist.trans (dropBefore_sublist.trans trim_sublist)

/-- A symbol in front that is no separator stays there. -/
lemma head?_dropBefore (h : l.head? ≠ some sep) : (dropBefore sep p l).head? = l.head? := by
  cases l with
  | nil => rfl
  | cons c cs =>
    have hc : c ≠ sep := by simpa using h
    rw [dropBefore, if_neg fun hdrop => hc hdrop.1]
    rfl

/-- The last symbol stays. -/
lemma getLast?_dropBefore : (dropBefore sep p l).getLast? = l.getLast? := by
  induction l with
  | nil => rfl
  | cons c cs ih =>
    rw [dropBefore]
    split
    · rename_i hdrop
      cases cs with
      | nil => simp at hdrop
      | cons d ds => rw [ih, List.getLast?_cons_cons]
    · rw [List.getLast?_cons, ih, List.getLast?_cons]

/-- No separator is left before a symbol of the kind, when a separator that stands before another
is one of those that are taken away. -/
lemma isChain_dropBefore (h : l.IsChain fun c d => c = sep → d = sep → p sep = true) :
    (dropBefore sep p l).IsChain fun c d => c = sep → d ≠ sep ∧ p d = false := by
  induction l with
  | nil => exact .nil
  | cons c cs ih =>
    obtain ⟨hnext, hcs⟩ := List.isChain_cons.mp h
    rw [dropBefore]
    split
    · exact ih hcs
    · rename_i hkeep
      refine List.isChain_cons.mpr ⟨fun d hd hc => ?_, ih hcs⟩
      -- the separator was kept, so what follows it is of the other kind, and stays in its place
      cases cs with
      | nil => simp [dropBefore] at hd
      | cons e es =>
        have hp : p e = false := by simpa [hc] using hkeep
        have he : e ≠ sep := by
          rintro rfl
          rw [hnext e (by simp) hc rfl] at hp
          cases hp
        rw [head?_dropBefore (by simpa using he)] at hd
        simp only [List.head?_cons, Option.mem_some_iff] at hd
        rw [← hd]
        exact ⟨he, hp⟩

lemma head?_trim : (trim sep l).head? ≠ some sep := by
  intro h
  have hprefix := List.rdropWhile_prefix (· == sep) (l.dropWhile (· == sep))
  have hhead := List.head?_dropWhile_not (· == sep) l
  rw [trim] at h
  obtain ⟨t, ht⟩ := hprefix
  rw [← ht, List.head?_append, h] at hhead
  simp at hhead

lemma getLast?_trim : (trim sep l).getLast? ≠ some sep := by
  intro h
  obtain ⟨hne, hlast⟩ := List.mem_getLast?_eq_getLast (Option.mem_def.mpr h)
  have hnot := List.rdropWhile_last_not (· == sep) (l.dropWhile (· == sep)) hne
  exact hnot (by simpa [trim] using hlast.symm)

/-- What is left of a list is canonical. -/
lemma canonical_canonicalize : Canonical sep p (canonicalize sep p l) := by
  have hsqueezed : (squeeze sep (trim sep l)).IsChain fun c d => c = sep → d ≠ sep :=
    (isChain_dropBefore (p := (· == sep)) (List.pairwise_of_forall (by simp)).isChain).imp
      fun _ _ h hc => (h hc).1
  have hhead : (squeeze sep (trim sep l)).head? ≠ some sep := by
    rw [squeeze, head?_dropBefore head?_trim]
    exact head?_trim
  refine ⟨?_, ?_, isChain_dropBefore (hsqueezed.imp fun _ _ h hc hd => absurd hd (h hc))⟩
  · rw [canonicalize, head?_dropBefore hhead]
    exact hhead
  · rw [canonicalize, getLast?_dropBefore, squeeze, getLast?_dropBefore]
    exact getLast?_trim

end Text
