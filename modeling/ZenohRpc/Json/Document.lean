import Mathlib.Data.List.Basic
import Mathlib.Data.Int.Basic
import Mathlib.Tactic.Common

/-!
# JSON documents

The tree a JSON text denotes, kept as the text has it: an object is the list of its members in
the order they are written, repeated names included, and a number is kept exact (an integer
literal, or a mantissa with a power of ten), so that rounding is the business of whoever reads a
number and not of the tree.

`depth` counts how far arrays and objects are nested.
-/

namespace Json

/-- A JSON document. -/
inductive Document
  | null
  | bool (b : Bool)
  | int (n : ℤ)
  | decimal (mantissa exponent : ℤ)
  | str (s : String)
  | arr (elems : List Document)
  | obj (members : List (String × Document))

namespace Document

mutual
/-- How deep arrays and objects are nested in a document; a scalar has depth zero. -/
def depth : Document → ℕ
  | .arr elems => depthElems elems + 1
  | .obj members => depthMembers members + 1
  | _ => 0

/-- The largest depth among the elements of an array. -/
def depthElems : List Document → ℕ
  | [] => 0
  | d :: ds => max d.depth (depthElems ds)

/-- The largest depth among the members of an object. -/
def depthMembers : List (String × Document) → ℕ
  | [] => 0
  | (_, d) :: ms => max d.depth (depthMembers ms)
end

@[simp] lemma depth_null : Document.null.depth = 0 := by simp [depth]

@[simp] lemma depth_bool (b : Bool) : (Document.bool b).depth = 0 := by simp [depth]

@[simp] lemma depth_int (n : ℤ) : (Document.int n).depth = 0 := by simp [depth]

@[simp] lemma depth_str (s : String) : (Document.str s).depth = 0 := by simp [depth]

@[simp] lemma depth_arr (elems : List Document) :
    (Document.arr elems).depth = depthElems elems + 1 := by
  rw [depth]

@[simp] lemma depth_obj (members : List (String × Document)) :
    (Document.obj members).depth = depthMembers members + 1 := by
  rw [depth]

@[simp] lemma depthElems_nil : depthElems [] = 0 := by rw [depthElems]

@[simp] lemma depthElems_cons (d : Document) (ds : List Document) :
    depthElems (d :: ds) = max d.depth (depthElems ds) := by
  rw [depthElems]

@[simp] lemma depthMembers_nil : depthMembers [] = 0 := by rw [depthMembers]

@[simp] lemma depthMembers_cons (name : String) (d : Document)
    (ms : List (String × Document)) :
    depthMembers ((name, d) :: ms) = max d.depth (depthMembers ms) := by
  rw [depthMembers]

/-- An array whose elements all stay within a depth stays within it too. -/
lemma depthElems_le {ds : List Document} {n : ℕ} (h : ∀ d ∈ ds, d.depth ≤ n) :
    depthElems ds ≤ n := by
  induction ds with
  | nil => simp
  | cons d ds ih =>
    rw [depthElems_cons]
    exact Nat.max_le.mpr ⟨h d (by simp), ih fun e he => h e (by simp [he])⟩

/-- An object whose members all stay within a depth stays within it too. -/
lemma depthMembers_le {ms : List (String × Document)} {n : ℕ}
    (h : ∀ m ∈ ms, m.2.depth ≤ n) : depthMembers ms ≤ n := by
  induction ms with
  | nil => simp
  | cons m ms ih =>
    obtain ⟨name, d⟩ := m
    rw [depthMembers_cons]
    exact Nat.max_le.mpr ⟨h (name, d) (by simp), ih fun e he => h e (by simp [he])⟩

/-! ## Members by name -/

/-- The values an object gives to a name, in the order they are written. -/
def named (members : List (String × Document)) (name : String) : List Document :=
  (members.filter fun m => m.1 == name).map Prod.snd

end Document

end Json
