import ZenohRpc.Json.Compact
import Mathlib.Data.Finmap

/-!
# Values as JSON

A type is carried by JSON through two functions (`Serde`): writing a value may fail, as for a map
whose keys are no strings, and reading a document may refuse it.  A reader bounds the nesting of
what it reads, and of that only: a member that a record does not know is passed over, however deep
it is.  So each type says how deep its reader goes into a document (`Serde.levels`), and
`RoundTrips n a` says of one value that its document reads back as the value within `n` levels.

Two things are left open, as interfaces with their laws.  `TextFormat` is the textual layer: a
document is read back from its text.  `HashOrder` is the order in which a hash map or a hash set
lists what it holds, of which nothing is known but that every entry is listed once.
-/

namespace Json

open Document

/-! ## The textual layer -/

/-- The text of documents.  `explain` is the message with which a text is refused as a value of a
type. -/
class TextFormat where
  print : Document → String
  parse : String → Option Document
  explain : Type → String → String
  parse_print : ∀ d : Document, parse (print d) = some d
  parse_empty : parse "" = none

/-- Compact text. -/
@[reducible] def Compact.textFormat : TextFormat where
  print := Compact.print
  parse := Compact.parse
  explain _ s := "cannot read " ++ s
  parse_print := Compact.parse_print
  parse_empty := Compact.parse_empty

/-! ## Hash maps and hash sets -/

/-- A map from strings to strings. -/
abbrev StringMap := Finmap fun _ : String => String

/-- The order in which hash maps and hash sets list what they hold. -/
class HashOrder where
  entries : StringMap → List (String × String)
  elems : Finset String → List String
  mem_entries : ∀ (m : StringMap) (k v : String), (k, v) ∈ entries m ↔ m.lookup k = some v
  nodup_entries : ∀ m : StringMap, ((entries m).map Prod.fst).Nodup
  mem_elems : ∀ (s : Finset String) (x : String), x ∈ elems s ↔ x ∈ s
  nodup_elems : ∀ s : Finset String, (elems s).Nodup

/-- The map built by inserting entries one after the other. -/
def insertEntries (m : StringMap) (es : List (String × String)) : StringMap :=
  es.foldl (fun m e => m.insert e.1 e.2) m

@[simp] lemma insertEntries_nil (m : StringMap) : insertEntries m [] = m := rfl

@[simp] lemma insertEntries_cons (m : StringMap) (e : String × String)
    (es : List (String × String)) :
    insertEntries m (e :: es) = insertEntries (m.insert e.1 e.2) es := rfl

/-- A key that is not among the entries keeps its value. -/
lemma lookup_insertEntries_of_notMem {es : List (String × String)} {k : String}
    (hk : k ∉ es.map Prod.fst) (m : StringMap) :
    (insertEntries m es).lookup k = m.lookup k := by
  induction es generalizing m with
  | nil => rfl
  | cons e es ih =>
    simp only [List.map_cons, List.mem_cons, not_or] at hk
    rw [insertEntries_cons, ih hk.2, Finmap.lookup_insert_of_ne _ hk.1]

/-- With distinct keys, every entry is found in the map it was inserted in. -/
lemma lookup_insertEntries_of_mem {es : List (String × String)} {k v : String}
    (hes : (es.map Prod.fst).Nodup) (hkv : (k, v) ∈ es) (m : StringMap) :
    (insertEntries m es).lookup k = some v := by
  induction es generalizing m with
  | nil => simp at hkv
  | cons e es ih =>
    rw [List.map_cons, List.nodup_cons] at hes
    rw [insertEntries_cons]
    rcases List.mem_cons.mp hkv with rfl | hmem
    · rw [lookup_insertEntries_of_notMem hes.1, Finmap.lookup_insert]
    · exact ih hes.2 hmem _

/-- Inserting the entries of a map, in whatever order they are listed, rebuilds the map. -/
lemma insertEntries_entries [HashOrder] (m : StringMap) :
    insertEntries ∅ (HashOrder.entries m) = m := by
  refine Finmap.ext_lookup fun k => ?_
  cases hk : m.lookup k with
  | some v =>
    have hmem : (k, v) ∈ HashOrder.entries m := (HashOrder.mem_entries m k v).mpr hk
    exact lookup_insertEntries_of_mem (HashOrder.nodup_entries m) hmem ∅
  | none =>
    have hnot : k ∉ (HashOrder.entries m).map Prod.fst := by
      intro hmem
      obtain ⟨⟨k', v⟩, he, rfl⟩ := List.mem_map.mp hmem
      rw [(HashOrder.mem_entries m k' v).mp he] at hk
      simp at hk
    rw [lookup_insertEntries_of_notMem hnot, Finmap.lookup_empty]

/-- The elements of a set, in whatever order they are listed, rebuild the set. -/
lemma toFinset_elems [HashOrder] (s : Finset String) : (HashOrder.elems s).toFinset = s := by
  ext x
  rw [List.mem_toFinset, HashOrder.mem_elems]

/-! ## Values -/

/-- How the values of a type are written as documents and read from them.  `missing` is the value
of a field that an object leaves out, for the types that have one.  `levels` is how many levels of
arrays and objects the reader of the type enters in a document; for most types it reads them all. -/
class Serde (α : Type) where
  toDocument : α → Except String Document
  ofDocument : Document → Option α
  missing : Option α := none
  levels : Document → ℕ := Document.depth

/-- The levels a reader may enter: it starts with 128 and refuses to use the last. -/
def maxDepth : ℕ := 127

section RoundTrips

variable {α : Type} [Serde α]

variable (α) in
/-- The value a document stands for, to a reader that enters at most `n` levels. -/
def readWithin (n : ℕ) (d : Document) : Option α :=
  if Serde.levels α d ≤ n then Serde.ofDocument d else none

/-- The value has a document that reads back as the value, within `n` levels. -/
def RoundTrips (n : ℕ) (a : α) : Prop :=
  ∃ d, Serde.toDocument a = .ok d ∧ Serde.ofDocument d = some a ∧ Serde.levels α d ≤ n

lemma RoundTrips.mono {n m : ℕ} {a : α} (h : RoundTrips n a) (hnm : n ≤ m) : RoundTrips m a := by
  obtain ⟨d, hto, hof, hd⟩ := h
  exact ⟨d, hto, hof, hd.trans hnm⟩

/-- What a value becomes when it is written and read, if it can be. -/
def reread (a : α) : Option α :=
  match Serde.toDocument a with
  | .ok d => Serde.ofDocument d
  | .error _ => none

lemma reread_of_toDocument {a : α} {d : Document} (h : Serde.toDocument a = .ok d) :
    reread a = Serde.ofDocument d := by
  rw [reread, h]

lemma RoundTrips.reread_eq {n : ℕ} {a : α} (h : RoundTrips n a) : reread a = some a := by
  obtain ⟨d, hto, hof, _⟩ := h
  rw [reread_of_toDocument hto, hof]

variable (α) in
/-- The levels that are entered in the elements of an array. -/
def levelsElems : List Document → ℕ
  | [] => 0
  | d :: ds => max (Serde.levels α d) (levelsElems ds)

/-- No more levels are entered in an array than in any of its elements. -/
lemma levelsElems_le {ds : List Document} {n : ℕ} (h : ∀ d ∈ ds, Serde.levels α d ≤ n) :
    levelsElems α ds ≤ n := by
  induction ds with
  | nil => exact Nat.zero_le n
  | cons d ds ih =>
    rw [levelsElems]
    exact Nat.max_le.mpr ⟨h d (by simp), ih fun e he => h e (by simp [he])⟩

end RoundTrips

instance : Serde String where
  toDocument s := .ok (.str s)
  ofDocument
    | .str s => some s
    | _ => none

instance : Serde UInt8 where
  toDocument b := .ok (.int b.toNat)
  ofDocument
    | .int n => if 0 ≤ n ∧ n < 256 then some (UInt8.ofNat n.toNat) else none
    | _ => none

instance : Serde UInt64 where
  toDocument n := .ok (.int n.toNat)
  ofDocument
    | .int n => if 0 ≤ n ∧ n < 2 ^ 64 then some (UInt64.ofNat n.toNat) else none
    | _ => none

instance {α : Type} [Serde α] : Serde (List α) where
  toDocument as := do
    let ds ← as.mapM Serde.toDocument
    return .arr ds
  ofDocument
    | .arr ds => ds.mapM Serde.ofDocument
    | _ => none
  levels
    | .arr ds => levelsElems α ds + 1
    | _ => 0

instance {α : Type} [Serde α] : Serde (Option α) where
  toDocument
    | none => .ok .null
    | some a => Serde.toDocument a
  ofDocument
    | .null => some none
    | d => (Serde.ofDocument d).map some
  missing := some none
  levels
    | .null => 0
    | d => Serde.levels α d

instance [HashOrder] : Serde StringMap where
  toDocument m := .ok (.obj ((HashOrder.entries m).map fun e => (e.1, .str e.2)))
  ofDocument
    | .obj ms => do
      let es ← ms.mapM fun m => (Serde.ofDocument m.2).map fun v => (m.1, v)
      return insertEntries ∅ es
    | _ => none

instance [HashOrder] : Serde (Finset String) where
  toDocument s := .ok (.arr ((HashOrder.elems s).map .str))
  ofDocument
    | .arr ds => do
      let xs ← ds.mapM Serde.ofDocument
      return xs.toFinset
    | _ => none

lemma roundTrips_string (s : String) : RoundTrips 0 s :=
  ⟨.str s, rfl, rfl, by simp [Serde.levels]⟩

lemma roundTrips_uint8 (b : UInt8) : RoundTrips 0 b := by
  refine ⟨.int b.toNat, rfl, ?_, by simp [Serde.levels]⟩
  have hb : (0 : ℤ) ≤ b.toNat ∧ (b.toNat : ℤ) < 256 := by
    have := b.toNat_lt
    omega
  simp only [Serde.ofDocument, hb]
  simp

lemma roundTrips_uint64 (n : UInt64) : RoundTrips 0 n := by
  refine ⟨.int n.toNat, rfl, ?_, by simp [Serde.levels]⟩
  have hn : (0 : ℤ) ≤ n.toNat ∧ (n.toNat : ℤ) < 2 ^ 64 := by
    have := n.toNat_lt
    omega
  simp only [Serde.ofDocument, hn]
  simp

/-- A list of values that round-trip round-trips, one level deeper. -/
lemma roundTrips_list {α : Type} [Serde α] {as : List α} {n : ℕ}
    (h : ∀ a ∈ as, RoundTrips n a) : RoundTrips (n + 1) as := by
  have hdocs : ∃ ds, as.mapM Serde.toDocument = Except.ok ds ∧
      ds.mapM Serde.ofDocument = some as ∧ ∀ d ∈ ds, Serde.levels α d ≤ n := by
    induction as with
    | nil => exact ⟨[], rfl, rfl, by simp⟩
    | cons a as ih =>
      obtain ⟨d, hto, hof, hd⟩ := h a (by simp)
      obtain ⟨ds, htos, hofs, hds⟩ := ih fun b hb => h b (by simp [hb])
      refine ⟨d :: ds, ?_, ?_, ?_⟩
      · rw [List.mapM_cons, hto, htos]; rfl
      · rw [List.mapM_cons, hof, hofs]; rfl
      · simpa [hd] using hds
  obtain ⟨ds, hto, hof, hds⟩ := hdocs
  refine ⟨.arr ds, ?_, hof, ?_⟩
  · simp only [Serde.toDocument, hto]; rfl
  · exact Nat.add_le_add_right (levelsElems_le hds) 1

/-- A vector of bytes round-trips. -/
lemma roundTrips_bytes (bs : List UInt8) : RoundTrips 1 bs :=
  roundTrips_list fun b _ => roundTrips_uint8 b

/-- The bytes of an optional vector round-trip, and an absent vector is not an empty one. -/
lemma roundTrips_optionBytes (bs : Option (List UInt8)) : RoundTrips 1 bs := by
  cases bs with
  | none => exact ⟨.null, rfl, rfl, Nat.zero_le _⟩
  | some bs =>
    obtain ⟨d, hto, hof, hd⟩ := roundTrips_bytes bs
    -- the document of a vector is an array, so it is not taken for the absent one
    cases d with
    | arr ds => exact ⟨.arr ds, hto, congrArg (Option.map some) hof, hd⟩
    | _ => simp [Serde.ofDocument] at hof

/-- A map from strings to strings round-trips. -/
lemma roundTrips_stringMap [HashOrder] (m : StringMap) : RoundTrips 1 m := by
  have hread : ∀ es : List (String × String),
      (es.map fun e => (e.1, Document.str e.2)).mapM
        (fun m => (Serde.ofDocument m.2).map fun v : String => (m.1, v)) = some es := by
    intro es
    induction es with
    | nil => rfl
    | cons e es ih => rw [List.map_cons, List.mapM_cons, ih]; rfl
  refine ⟨_, rfl, ?_, ?_⟩
  · simp only [Serde.ofDocument] at hread ⊢
    rw [hread]
    exact congrArg some (insertEntries_entries m)
  · change (Document.obj _).depth ≤ 1
    rw [depth_obj]
    have hdepth : depthMembers ((HashOrder.entries m).map fun e => (e.1, Document.str e.2)) ≤ 0 :=
      depthMembers_le fun m' hm' => by
        obtain ⟨e, _, rfl⟩ := List.mem_map.mp hm'
        simp
    omega

/-- A document that is read as a map from strings to strings has one level. -/
lemma levels_stringMap_le [HashOrder] {d : Document} {m : StringMap}
    (h : Serde.ofDocument d = some m) : Serde.levels StringMap d ≤ 1 := by
  have hmembers : ∀ (ms : List (String × Document)) (es : List (String × String)),
      ms.mapM (fun m => (Serde.ofDocument m.2).map fun v : String => (m.1, v)) = some es →
        depthMembers ms = 0 := by
    intro ms
    induction ms with
    | nil => exact fun _ _ => depthMembers_nil
    | cons e ms ih =>
      obtain ⟨name, d⟩ := e
      intro es hes
      rw [List.mapM_cons] at hes
      obtain ⟨kv, hkv, hes⟩ := Option.bind_eq_some_iff.mp hes
      obtain ⟨rest, hrest, _⟩ := Option.bind_eq_some_iff.mp hes
      obtain ⟨v, hv, _⟩ := Option.map_eq_some_iff.mp hkv
      have hd : d.depth = 0 := by
        cases d with
        | str s => exact depth_str s
        | _ => cases hv
      rw [depthMembers_cons, hd, ih rest hrest, Nat.max_zero]
  cases d with
  | obj ms =>
    obtain ⟨es, hes, _⟩ := Option.bind_eq_some_iff.mp h
    change (Document.obj ms).depth ≤ 1
    rw [depth_obj, hmembers ms es hes]
  | _ => cases h

/-- A set of strings round-trips. -/
lemma roundTrips_stringSet [HashOrder] (s : Finset String) : RoundTrips 1 s := by
  have hread : ∀ xs : List String,
      (xs.map Document.str).mapM (Serde.ofDocument (α := String)) = some xs := by
    intro xs
    induction xs with
    | nil => rfl
    | cons x xs ih => rw [List.map_cons, List.mapM_cons, ih]; rfl
  refine ⟨_, rfl, ?_, ?_⟩
  · simp only [Serde.ofDocument] at hread ⊢
    rw [hread]
    exact congrArg some (toFinset_elems s)
  · change (Document.arr _).depth ≤ 1
    rw [depth_arr]
    have hdepth : depthElems ((HashOrder.elems s).map Document.str) ≤ 0 :=
      depthElems_le fun d hd => by
        obtain ⟨x, _, rfl⟩ := List.mem_map.mp hd
        simp
    omega

/-! ## Records

A record is an object of its fields.  A field may stand anywhere in the object, once; other
members are passed over.  A record is also read from an array of its fields in order. -/

section Records

variable {α β γ δ : Type} [Serde α] [Serde β] [Serde γ]

/-- The field of an object with a name. -/
def field (ms : List (String × Document)) (name : String) : Option α :=
  match named ms name with
  | [] => Serde.missing
  | [d] => Serde.ofDocument d
  | _ => none

variable (α) in
/-- The levels that are entered in a field: none if it is left out. -/
def levelsField (ms : List (String × Document)) (name : String) : ℕ :=
  levelsElems α (named ms name)

/-- The document of a record with two fields. -/
def writeRecord₂ (m n : String) (a : α) (b : β) : Except String Document := do
  let da ← Serde.toDocument a
  let db ← Serde.toDocument b
  return .obj [(m, da), (n, db)]

/-- The record with two fields that a document stands for. -/
def readRecord₂ (m n : String) (make : α → β → δ) : Document → Option δ
  | .obj ms => do
    let a ← field ms m
    let b ← field ms n
    return make a b
  | .arr [da, db] => do
    let a ← Serde.ofDocument da
    let b ← Serde.ofDocument db
    return make a b
  | _ => none

variable (α β) in
/-- The levels that are entered in the document of a record with two fields. -/
def levelsRecord₂ (m n : String) : Document → ℕ
  | .obj ms => max (levelsField α ms m) (levelsField β ms n) + 1
  | .arr [da, db] => max (Serde.levels α da) (Serde.levels β db) + 1
  | _ => 0

/-- The document of a record with three fields. -/
def writeRecord₃ (m n o : String) (a : α) (b : β) (c : γ) : Except String Document := do
  let da ← Serde.toDocument a
  let db ← Serde.toDocument b
  let dc ← Serde.toDocument c
  return .obj [(m, da), (n, db), (o, dc)]

/-- The record with three fields that a document stands for. -/
def readRecord₃ (m n o : String) (make : α → β → γ → δ) : Document → Option δ
  | .obj ms => do
    let a ← field ms m
    let b ← field ms n
    let c ← field ms o
    return make a b c
  | .arr [da, db, dc] => do
    let a ← Serde.ofDocument da
    let b ← Serde.ofDocument db
    let c ← Serde.ofDocument dc
    return make a b c
  | _ => none

variable (α β γ) in
/-- The levels that are entered in the document of a record with three fields. -/
def levelsRecord₃ (m n o : String) : Document → ℕ
  | .obj ms => max (levelsField α ms m) (max (levelsField β ms n) (levelsField γ ms o)) + 1
  | .arr [da, db, dc] =>
    max (Serde.levels α da) (max (Serde.levels β db) (Serde.levels γ dc)) + 1
  | _ => 0

/-- The levels of a field that stands in the object once. -/
lemma levelsField_of_named {ms : List (String × Document)} {name : String} {d : Document}
    (h : named ms name = [d]) : levelsField α ms name = Serde.levels α d := by
  rw [levelsField, h, levelsElems, levelsElems, Nat.max_zero]

/-- The second field of a record is read one level below the record. -/
lemma exists_of_writeRecord₂ {m n : String} (hmn : m ≠ n) {a : α} {b : β} {d : Document}
    (hd : writeRecord₂ m n a b = .ok d) :
    ∃ db, Serde.toDocument b = .ok db ∧ Serde.levels β db < levelsRecord₂ α β m n d := by
  unfold writeRecord₂ at hd
  cases ha : Serde.toDocument a with
  | error e => rw [ha] at hd; cases hd
  | ok da =>
    cases hb : Serde.toDocument b with
    | error e => rw [ha, hb] at hd; cases hd
    | ok db =>
      rw [ha, hb] at hd
      cases hd
      have hn : named [(m, da), (n, db)] n = [db] := by simp [named, hmn]
      refine ⟨db, rfl, ?_⟩
      rw [levelsRecord₂, levelsField_of_named hn]
      omega

/-- A record reads back as the record of its fields read back. -/
lemma readRecord₂_writeRecord₂ {m n : String} (hmn : m ≠ n) (make : α → β → δ) {a : α} {b : β}
    {d : Document} (hd : writeRecord₂ m n a b = .ok d) :
    readRecord₂ m n make d = do
      let a ← reread a
      let b ← reread b
      return make a b := by
  unfold writeRecord₂ at hd
  cases ha : Serde.toDocument a with
  | error e => rw [ha] at hd; cases hd
  | ok da =>
    cases hb : Serde.toDocument b with
    | error e => rw [ha, hb] at hd; cases hd
    | ok db =>
      rw [ha, hb] at hd
      cases hd
      have hm : named [(m, da), (n, db)] m = [da] := by simp [named, hmn.symm]
      have hn : named [(m, da), (n, db)] n = [db] := by simp [named, hmn]
      simp only [readRecord₂, field, hm, hn, reread_of_toDocument ha, reread_of_toDocument hb]

/-- A record whose fields round-trip round-trips, one level deeper. -/
lemma roundTrips_record₂ {m n : String} (hmn : m ≠ n) {make : α → β → δ} {a : α} {b : β} {k : ℕ}
    (ha : RoundTrips k a) (hb : RoundTrips k b) :
    ∃ d, writeRecord₂ m n a b = .ok d ∧ readRecord₂ m n make d = some (make a b) ∧
      levelsRecord₂ α β m n d ≤ k + 1 := by
  obtain ⟨da, hda, _, hka⟩ := id ha
  obtain ⟨db, hdb, _, hkb⟩ := id hb
  have hwrite : writeRecord₂ m n a b = .ok (.obj [(m, da), (n, db)]) := by
    rw [writeRecord₂, hda, hdb]; rfl
  refine ⟨_, hwrite, ?_, ?_⟩
  · rw [readRecord₂_writeRecord₂ hmn _ hwrite, ha.reread_eq, hb.reread_eq]
    rfl
  · have hm : named [(m, da), (n, db)] m = [da] := by simp [named, hmn.symm]
    have hn : named [(m, da), (n, db)] n = [db] := by simp [named, hmn]
    rw [levelsRecord₂, levelsField_of_named hm, levelsField_of_named hn]
    omega

/-- A record of three fields that round-trip round-trips, one level deeper. -/
lemma roundTrips_record₃ {m n o : String} (hmn : m ≠ n) (hmo : m ≠ o) (hno : n ≠ o)
    {make : α → β → γ → δ} {a : α} {b : β} {c : γ} {k : ℕ}
    (ha : RoundTrips k a) (hb : RoundTrips k b) (hc : RoundTrips k c) :
    ∃ d, writeRecord₃ m n o a b c = .ok d ∧ readRecord₃ m n o make d = some (make a b c) ∧
      levelsRecord₃ α β γ m n o d ≤ k + 1 := by
  obtain ⟨da, hda, hda', hka⟩ := ha
  obtain ⟨db, hdb, hdb', hkb⟩ := hb
  obtain ⟨dc, hdc, hdc', hkc⟩ := hc
  have hm : named [(m, da), (n, db), (o, dc)] m = [da] := by
    simp [named, hmn.symm, hmo.symm]
  have hn : named [(m, da), (n, db), (o, dc)] n = [db] := by
    simp [named, hmn, hno.symm]
  have ho : named [(m, da), (n, db), (o, dc)] o = [dc] := by
    simp [named, hmo, hno]
  refine ⟨.obj [(m, da), (n, db), (o, dc)], ?_, ?_, ?_⟩
  · rw [writeRecord₃, hda, hdb, hdc]; rfl
  · simp only [readRecord₃, field, hm, hn, ho, hda', hdb', hdc']
    rfl
  · rw [levelsRecord₃, levelsField_of_named hm, levelsField_of_named hn,
      levelsField_of_named ho]
    omega

end Records

end Json
