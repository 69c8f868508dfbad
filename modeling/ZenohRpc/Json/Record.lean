import ZenohRpc.Json.Serde

/-!
# Records of any number of fields

A record of a list of fields is carried by JSON as an object with one member for each field, written
in order.  It is read from an object where each field stands once, in any order, and other members
are passed over; a field whose type has a value for it may be left out.  It is also read from an
array of its fields in order.

What is read depends only on what the object gives to the names of the fields (`Carries`).  So the
order of the members does not count, nor do other members, and an object that was written for more
fields is read as the record of the fewer.
-/

namespace Json

open Document

/-- A field: its name, and the type of its values. -/
structure Field where
  name : String
  type : Type
  serde : Serde type

attribute [instance] Field.serde

/-- A record: a value for each field. -/
def Record : List Field → Type
  | [] => Unit
  | f :: fs => f.type × Record fs

namespace Record

/-! ## Writing and reading -/

/-- The members of the object of a record. -/
def write : (fs : List Field) → Record fs → Except String (List (String × Document))
  | [], _ => .ok []
  | f :: fs, (a, r) => do
    let d ← Serde.toDocument a
    let ms ← write fs r
    return (f.name, d) :: ms

/-- The record that the members of an object stand for. -/
def readMembers (ms : List (String × Document)) : (fs : List Field) → Option (Record fs)
  | [] => some ()
  | f :: fs => do
    let a ← field ms f.name
    let r ← readMembers ms fs
    return (a, r)

/-- The record that the elements of an array stand for. -/
def readElems : (fs : List Field) → List Document → Option (Record fs)
  | [], [] => some ()
  | f :: fs, d :: ds => do
    let a ← Serde.ofDocument (α := f.type) d
    let r ← readElems fs ds
    return (a, r)
  | _, _ => none

/-- The levels that are entered in the members of an object. -/
def levelsMembers (ms : List (String × Document)) : List Field → ℕ
  | [] => 0
  | f :: fs => max (levelsField f.type ms f.name) (levelsMembers ms fs)

/-- The levels that are entered in the elements of an array. -/
def levelsElems : List Field → List Document → ℕ
  | f :: fs, d :: ds => max (Serde.levels f.type d) (levelsElems fs ds)
  | _, _ => 0

instance (fs : List Field) : Serde (Record fs) where
  toDocument r := (write fs r).map .obj
  ofDocument
    | .obj ms => readMembers ms fs
    | .arr ds => readElems fs ds
    | _ => none
  levels
    | .obj ms => levelsMembers ms fs + 1
    | .arr ds => levelsElems fs ds + 1
    | _ => 0

/-- Each field round-trips, within a depth. -/
def AllRoundTrip (n : ℕ) : (fs : List Field) → Record fs → Prop
  | [], _ => True
  | _ :: fs, (a, r) => RoundTrips n a ∧ AllRoundTrip n fs r

/-- The object carries the fields of a record: each stands there once, as it is written, or not at
all, where its value is the one that a field left out has. -/
def Carries (ms : List (String × Document)) : (fs : List Field) → Record fs → Prop
  | [], _ => True
  | f :: fs, (a, r) =>
    ((∃ d, Serde.toDocument a = .ok d ∧ named ms f.name = [d]) ∨
      named ms f.name = [] ∧ Serde.missing = some a) ∧ Carries ms fs r

variable {fs : List Field} {ms ms' : List (String × Document)}

/-! ## What an object gives to a name -/

/-- Nothing is given to a name that no member has. -/
lemma named_eq_nil {name : String} (h : name ∉ ms.map Prod.fst) : named ms name = [] := by
  have hnone : ms.filter (fun m => m.1 == name) = [] := by
    rw [List.filter_eq_nil_iff]
    intro m hm hname
    exact h (List.mem_map.mpr ⟨m, hm, eq_of_beq hname⟩)
  rw [named, hnone, List.map_nil]

/-- A name that only the first member has. -/
lemma named_cons_self {name : String} {d : Document} (h : name ∉ ms.map Prod.fst) :
    named ((name, d) :: ms) name = [d] := by
  rw [named, List.filter_cons_of_pos (by simp), List.map_cons, ← named, named_eq_nil h]

/-- A name that the first member does not have. -/
lemma named_cons_of_ne {name other : String} {d : Document} (h : other ≠ name) :
    named ((other, d) :: ms) name = named ms name := by
  rw [named, List.filter_cons_of_neg (by simpa using h), ← named]

/-! ## Reading what is carried -/

/-- A record is read from every object that carries its fields. -/
theorem readMembers_of_carries {n : ℕ} {r : Record fs} (h : AllRoundTrip n fs r)
    (hcarries : Carries ms fs r) : readMembers ms fs = some r := by
  induction fs with
  | nil => rfl
  | cons f fs ih =>
    obtain ⟨a, r⟩ := r
    obtain ⟨ha, hr⟩ := h
    obtain ⟨hfield, hrest⟩ := hcarries
    have hread : (field ms f.name : Option f.type) = some a := by
      rcases hfield with ⟨d, hd, hnamed⟩ | ⟨hnone, hmissing⟩
      · rw [field, hnamed]
        exact (reread_of_toDocument hd).symm.trans ha.reread_eq
      · rw [field, hnone]
        exact hmissing
    rw [readMembers, hread, ih hr hrest]
    rfl

/-- What an object gives to the names of the fields, in whatever order, is all that counts. -/
lemma Carries.congr {r : Record fs} (h : Carries ms fs r)
    (hnamed : ∀ f ∈ fs, (named ms' f.name).Perm (named ms f.name)) : Carries ms' fs r := by
  induction fs with
  | nil => trivial
  | cons f fs ih =>
    obtain ⟨a, r⟩ := r
    refine ⟨?_, ih h.2 fun g hg => hnamed g (List.mem_cons_of_mem _ hg)⟩
    have hperm := hnamed f List.mem_cons_self
    rcases h.1 with ⟨d, hd, hone⟩ | ⟨hnone, hmissing⟩
    · rw [hone, List.perm_singleton] at hperm
      exact Or.inl ⟨d, hd, hperm⟩
    · rw [hnone, List.perm_nil] at hperm
      exact Or.inr ⟨hperm, hmissing⟩

/-- No more levels are entered in an object than in the fields it carries, whatever other members it
has. -/
lemma levelsMembers_le_of_carries {n : ℕ} {r : Record fs} (h : AllRoundTrip n fs r)
    (hcarries : Carries ms fs r) : levelsMembers ms fs ≤ n := by
  induction fs with
  | nil => exact Nat.zero_le n
  | cons f fs ih =>
    obtain ⟨a, r⟩ := r
    obtain ⟨⟨d, hd, _, hlevels⟩, hr⟩ := h
    obtain ⟨hfield, hrest⟩ := hcarries
    have hle : levelsField f.type ms f.name ≤ n := by
      rcases hfield with ⟨d', hd', hnamed⟩ | ⟨hnone, _⟩
      · rw [hd] at hd'
        obtain rfl := Except.ok.inj hd'
        rw [levelsField_of_named hnamed]
        exact hlevels
      · rw [levelsField, hnone]
        exact Nat.zero_le n
    exact Nat.max_le.mpr ⟨hle, ih hr hrest⟩

/-! ## Reading what was written -/

/-- A record whose fields round-trip is written with the names of its fields, and what is written
carries it. -/
lemma AllRoundTrip.exists_write (hnames : (fs.map Field.name).Nodup) {n : ℕ} {r : Record fs}
    (h : AllRoundTrip n fs r) : ∃ ms, write fs r = .ok ms ∧ ms.map Prod.fst = fs.map Field.name ∧
      Carries ms fs r := by
  induction fs with
  | nil => exact ⟨[], rfl, rfl, trivial⟩
  | cons f fs ih =>
    obtain ⟨a, r⟩ := r
    obtain ⟨⟨d, hd, _, _⟩, hr⟩ := h
    rw [List.map_cons, List.nodup_cons] at hnames
    obtain ⟨ms, hms, hfst, hcarries⟩ := ih hnames.2 hr
    refine ⟨(f.name, d) :: ms, ?_, ?_, Or.inl ⟨d, hd, ?_⟩, ?_⟩
    · rw [write, hd, hms]
      rfl
    · rw [List.map_cons, List.map_cons, hfst]
    · exact named_cons_self (hfst ▸ hnames.1)
    · refine hcarries.congr fun g hg => ?_
      have hne : f.name ≠ g.name := fun heq => hnames.1 (List.mem_map.mpr ⟨g, hg, heq.symm⟩)
      rw [named_cons_of_ne hne]

/-- A record with distinct names round-trips, one level deeper, if its fields do. -/
theorem roundTrips (hnames : (fs.map Field.name).Nodup) {n : ℕ} {r : Record fs}
    (h : AllRoundTrip n fs r) : RoundTrips (n + 1) r := by
  obtain ⟨ms, hms, _, hcarries⟩ := h.exists_write hnames
  refine ⟨.obj ms, ?_, readMembers_of_carries h hcarries, ?_⟩
  · simp only [Serde.toDocument, hms]
    rfl
  · exact Nat.add_le_add_right (levelsMembers_le_of_carries h hcarries) 1

end Record

end Json
