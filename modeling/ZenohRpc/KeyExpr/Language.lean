import Mathlib.Data.List.Basic
import Mathlib.Tactic.Common

/-!
# Key expressions

A key expression is a path of chunks between slashes.  It denotes a set of keys: `*` stands for
any one chunk, `**` for any number of chunks, and `$*` inside a chunk for any characters.  A chunk
that starts with `@` is verbatim, and no wildcard stands for it.  Two key expressions intersect
when some key belongs to both.

The statements below are about paths that start with plain chunks, which have no wildcard and so
stand for themselves alone: two paths that share a plain head intersect exactly when what is
behind it does, and two paths with different plain heads never do.
-/

namespace KeyExpr

/-! ## Chunks -/

/-- The chunks between the slashes of a path. -/
def chunks (s : String) : List String := (s.toList.splitOn '/').map String.ofList

/-- A path without slashes is one chunk. -/
lemma chunks_of_notMem {s : String} (h : '/' ∉ s.toList) : chunks s = [s] := by
  rw [chunks, List.splitOn_eq_singleton h, List.map_singleton, String.ofList_toList]

/-- The chunks of two paths joined by a slash. -/
lemma chunks_append (s t : String) : chunks (s ++ "/" ++ t) = chunks s ++ chunks t := by
  have hlist : (s ++ "/" ++ t).toList = s.toList ++ '/' :: t.toList := by simp
  rw [chunks, hlist, List.splitOn_append_cons_self, List.map_append, ← chunks, ← chunks]

/-- A head without slashes is the first chunk. -/
lemma chunks_cons {s : String} (h : '/' ∉ s.toList) (t : String) :
    chunks (s ++ "/" ++ t) = s :: chunks t := by
  rw [chunks_append, chunks_of_notMem h, List.singleton_append]

/-- A path has at least one chunk. -/
lemma chunks_ne_nil (s : String) : chunks s ≠ [] := by
  simp [chunks, List.splitOn_ne_nil]

/-- No chunk contains a slash. -/
lemma notMem_of_mem_chunks {s c : String} (h : c ∈ chunks s) : '/' ∉ c.toList := by
  obtain ⟨l, hl, rfl⟩ := List.mem_map.mp h
  have hsplit : ∀ (cs : List Char), ∀ l ∈ cs.splitOn '/', '/' ∉ l := by
    intro cs
    induction cs with
    | nil => simp
    | cons c cs ih =>
      rw [List.splitOn_cons_eq_if_modifyHead]
      split
      · simpa using ih
      · rename_i hc
        cases hcs : cs.splitOn '/' with
        | nil => exact absurd hcs (List.splitOn_ne_nil _ _)
        | cons head tail =>
          rw [hcs] at ih
          have hne : '/' ≠ c := fun h => hc (by simp [← h])
          simpa [hne] using ih
  simpa using hsplit s.toList l hl

/-- The first chunk is the whole path exactly when the path has no slash. -/
lemma chunks_head_eq_iff (s : String) : (chunks s).head? = some s ↔ '/' ∉ s.toList := by
  constructor
  · intro h
    exact notMem_of_mem_chunks (List.mem_of_head? h)
  · intro h
    rw [chunks_of_notMem h, List.head?_cons]

/-! ## The keys an expression denotes -/

/-- A chunk that no wildcard stands for. -/
def Verbatim (c : String) : Prop := c.toList.head? = some '@'

instance (c : String) : Decidable (Verbatim c) := inferInstanceAs (Decidable (_ = _))

/-- The characters a chunk pattern stands for, `$*` standing for any. -/
inductive Glob : List Char → List Char → Prop
  | nil : Glob [] []
  | char (c : Char) {ps cs : List Char} : Glob ps cs → Glob (c :: ps) (c :: cs)
  | skip {ps cs : List Char} : Glob ps cs → Glob ('$' :: '*' :: ps) cs
  | take (c : Char) {ps cs : List Char} : Glob ('$' :: '*' :: ps) cs →
      Glob ('$' :: '*' :: ps) (c :: cs)

/-- The chunks a pattern stands for: itself, and through its wildcards chunks that are not
verbatim. -/
def ChunkMatches (p c : String) : Prop :=
  p = c ∨ (¬Verbatim c ∧ (p = "*" ∨ Glob p.toList c.toList))

/-- The keys a path of patterns stands for. -/
inductive Matches : List String → List String → Prop
  | nil : Matches [] []
  | chunk {p c : String} {ps cs : List String} :
      p ≠ "**" → ChunkMatches p c → Matches ps cs → Matches (p :: ps) (c :: cs)
  | skip {ps cs : List String} : Matches ps cs → Matches ("**" :: ps) cs
  | take {c : String} {ps cs : List String} :
      ¬Verbatim c → Matches ("**" :: ps) cs → Matches ("**" :: ps) (c :: cs)

/-- Two paths of patterns have a key in common. -/
def Overlap (ps qs : List String) : Prop := ∃ key, Matches ps key ∧ Matches qs key

/-- Two key expressions have a key in common. -/
def Intersects (a b : String) : Prop := Overlap (chunks a) (chunks b)

lemma Overlap.symm {ps qs : List String} (h : Overlap ps qs) : Overlap qs ps := by
  obtain ⟨key, hp, hq⟩ := h
  exact ⟨key, hq, hp⟩

/-- A chunk without wildcards. -/
def Plain (p : String) : Prop := '*' ∉ p.toList ∧ '$' ∉ p.toList

instance (p : String) : Decidable (Plain p) := inferInstanceAs (Decidable (_ ∧ _))

/-- Without a dollar sign a pattern stands for itself alone. -/
lemma Glob.eq_of_notMem {ps cs : List Char} (h : Glob ps cs) (hp : '$' ∉ ps) : ps = cs := by
  induction h with
  | nil => rfl
  | char c _ ih =>
    simp only [List.mem_cons, not_or] at hp
    rw [ih hp.2]
  | skip => simp at hp
  | take => simp at hp

/-- A plain chunk stands for itself alone. -/
lemma ChunkMatches.eq_of_plain {p c : String} (h : ChunkMatches p c) (hp : Plain p) : p = c := by
  rcases h with rfl | ⟨_, rfl | hglob⟩
  · rfl
  · exact absurd hp.1 (by simp)
  · exact String.toList_injective (hglob.eq_of_notMem hp.2)

lemma Plain.ne_doubleStar {p : String} (hp : Plain p) : p ≠ "**" := by
  rintro rfl
  exact hp.1 (by simp)

/-- A path whose head is not the double star stands for keys with a chunk for the head. -/
lemma matches_cons_of_ne {p : String} (hp : p ≠ "**") (ps key : List String) :
    Matches (p :: ps) key ↔ ∃ c cs, key = c :: cs ∧ ChunkMatches p c ∧ Matches ps cs := by
  constructor
  · intro h
    cases h with
    | chunk _ hchunk hrest => exact ⟨_, _, rfl, hchunk, hrest⟩
    | skip => exact absurd rfl hp
    | take => exact absurd rfl hp
  · rintro ⟨c, cs, rfl, hchunk, hrest⟩
    exact .chunk hp hchunk hrest

/-- A path with a plain head stands for the keys with that head. -/
lemma matches_cons_iff {p : String} (hp : Plain p) (ps key : List String) :
    Matches (p :: ps) key ↔ ∃ cs, key = p :: cs ∧ Matches ps cs := by
  rw [matches_cons_of_ne hp.ne_doubleStar]
  constructor
  · rintro ⟨c, cs, rfl, hchunk, hrest⟩
    exact ⟨cs, by rw [hchunk.eq_of_plain hp], hrest⟩
  · rintro ⟨cs, rfl, hrest⟩
    exact ⟨p, cs, rfl, Or.inl rfl, hrest⟩

/-- A double star stands for every path without verbatim chunks. -/
lemma matches_doubleStar_iff (key : List String) :
    Matches ["**"] key ↔ ∀ c ∈ key, ¬Verbatim c := by
  constructor
  · intro h
    induction key with
    | nil => simp
    | cons c cs ih =>
      cases h with
      | chunk hne _ _ => exact absurd rfl hne
      | skip hrest => cases hrest
      | take hc hrest =>
        rintro d (_ | ⟨_, hd⟩)
        · exact hc
        · exact ih hrest d hd
  · intro h
    induction key with
    | nil => exact .skip .nil
    | cons c cs ih => exact .take (h c (by simp)) (ih fun d hd => h d (by simp [hd]))

/-- Paths with a common plain head overlap exactly when their tails do. -/
lemma overlap_cons_iff {p : String} (hp : Plain p) (ps qs : List String) :
    Overlap (p :: ps) (p :: qs) ↔ Overlap ps qs := by
  constructor
  · rintro ⟨key, hps, hqs⟩
    obtain ⟨cs, rfl, hcs⟩ := (matches_cons_iff hp ps key).mp hps
    obtain ⟨cs', heq, hcs'⟩ := (matches_cons_iff hp qs _).mp hqs
    rw [← (List.cons.inj heq).2] at hcs'
    exact ⟨cs, hcs, hcs'⟩
  · rintro ⟨key, hps, hqs⟩
    exact ⟨p :: key, (matches_cons_iff hp ps _).mpr ⟨key, rfl, hps⟩,
      (matches_cons_iff hp qs _).mpr ⟨key, rfl, hqs⟩⟩

/-- Paths with different plain heads have no key in common. -/
lemma Overlap.head_eq {p q : String} (hp : Plain p) (hq : Plain q) {ps qs : List String}
    (h : Overlap (p :: ps) (q :: qs)) : p = q := by
  obtain ⟨key, hps, hqs⟩ := h
  obtain ⟨cs, rfl, _⟩ := (matches_cons_iff hp ps key).mp hps
  obtain ⟨cs', heq, _⟩ := (matches_cons_iff hq qs _).mp hqs
  exact (List.cons.inj heq).1

/-- A star and a plain chunk that is not verbatim have that chunk in common. -/
lemma overlap_star_cons_iff {p : String} (hp : Plain p) (hv : ¬Verbatim p)
    (ps qs : List String) : Overlap ("*" :: ps) (p :: qs) ↔ Overlap ps qs := by
  constructor
  · rintro ⟨key, hps, hqs⟩
    obtain ⟨cs, rfl, hcs⟩ := (matches_cons_iff hp qs key).mp hqs
    obtain ⟨_, cs', heq, _, hcs'⟩ := (matches_cons_of_ne (by decide) ps _).mp hps
    rw [← (List.cons.inj heq).2] at hcs'
    exact ⟨cs, hcs', hcs⟩
  · rintro ⟨key, hps, hqs⟩
    exact ⟨p :: key, .chunk (by decide) (Or.inr ⟨hv, Or.inl rfl⟩) hps,
      (matches_cons_iff hp qs _).mpr ⟨key, rfl, hqs⟩⟩

/-- Every path of patterns stands for some key. -/
lemma overlap_self (ps : List String) : Overlap ps ps := by
  have hkey : ∃ key, Matches ps key := by
    induction ps with
    | nil => exact ⟨[], .nil⟩
    | cons p ps ih =>
      obtain ⟨key, hps⟩ := ih
      by_cases hp : p = "**"
      · exact ⟨key, hp ▸ .skip hps⟩
      · exact ⟨p :: key, .chunk hp (Or.inl rfl) hps⟩
  obtain ⟨key, hkey⟩ := hkey
  exact ⟨key, hkey, hkey⟩

/-! ## What a double star overlaps with -/

/-- A pattern with a verbatim chunk stands for keys with a verbatim chunk only. -/
lemma Glob.head_eq {d : Char} (hd : d ≠ '$') {ps cs : List Char} (h : Glob (d :: ps) cs) :
    cs.head? = some d := by
  cases h with
  | char => rfl
  | skip => exact absurd rfl hd
  | take => exact absurd rfl hd

/-- A verbatim pattern stands for verbatim chunks only. -/
lemma ChunkMatches.verbatim {p c : String} (h : ChunkMatches p c) (hp : Verbatim p) :
    Verbatim c := by
  rcases h with rfl | ⟨_, rfl | hglob⟩
  · exact hp
  · exact absurd hp (by simp [Verbatim])
  · unfold Verbatim at hp ⊢
    cases hl : p.toList with
    | nil => rw [hl] at hp; simp at hp
    | cons d ds =>
      rw [hl, List.head?_cons, Option.some.injEq] at hp
      rw [hl, hp] at hglob
      exact hglob.head_eq (by decide)

/-- A path of patterns stands for a key without verbatim chunks exactly when none of its patterns
is verbatim. -/
lemma overlap_doubleStar_iff (ps : List String) :
    Overlap ["**"] ps ↔ ∀ p ∈ ps, ¬Verbatim p := by
  simp only [Overlap, matches_doubleStar_iff]
  constructor
  · rintro ⟨key, hkey, hps⟩
    induction hps with
    | nil => simp
    | chunk _ hchunk _ ih =>
      rintro p (_ | ⟨_, hp⟩)
      · exact fun hv => hkey _ (by simp) (hchunk.verbatim hv)
      · exact ih (fun c hc => hkey c (by simp [hc])) p hp
    | skip _ ih =>
      rintro p (_ | ⟨_, hp⟩)
      · simp [Verbatim]
      · exact ih hkey p hp
    | take _ _ ih => exact ih fun c hc => hkey c (by simp [hc])
  · intro h
    induction ps with
    | nil => exact ⟨[], by simp, .nil⟩
    | cons p ps ih =>
      obtain ⟨key, hkey, hps⟩ := ih fun q hq => h q (by simp [hq])
      by_cases hp : p = "**"
      · subst hp
        exact ⟨key, hkey, .skip hps⟩
      · refine ⟨p :: key, ?_, .chunk hp (Or.inl rfl) hps⟩
        rintro c (_ | ⟨_, hc⟩)
        · exact h p (by simp)
        · exact hkey c hc

end KeyExpr
