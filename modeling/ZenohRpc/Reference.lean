import ZenohRpc.Server.Builder
import Mathlib.Data.Finset.Sort
import Mathlib.Data.Nat.Digits.Lemmas
import Mathlib.Data.String.Basic

/-!
# Reference instances

The interfaces `Runtime` and `Zenoh` can be met.  `Reference` has compact JSON text, hash maps that
list their keys in order, and texts for errors; `SessionId` is the session id of zenoh, a nonzero
number of 128 bits written in lower-case hexadecimal, with the rules for key expressions.

Examples run on these instances, with the service `Hello` of the crate's tests; the results about
the crate hold for every other instance as well.
-/

namespace ZenohRpc

open Json KeyExpr

/-! ## The libraries -/

namespace Reference

/-- Hash maps and sets that list what they hold in order. -/
@[reducible] def hashOrder : HashOrder where
  entries m := (m.keys.sort (· ≤ ·)).filterMap fun k => (m.lookup k).map fun v => (k, v)
  elems s := s.sort (· ≤ ·)
  mem_entries m k v := by
    simp only [List.mem_filterMap, Finset.mem_sort, Finmap.mem_keys, Option.map_eq_some_iff,
      Prod.mk.injEq]
    constructor
    · rintro ⟨_, _, _, hv, rfl, rfl⟩
      exact hv
    · intro hv
      exact ⟨k, Finmap.mem_of_lookup_eq_some hv, v, hv, rfl, rfl⟩
  nodup_entries m := by
    rw [List.map_filterMap]
    have hsub : ((m.keys.sort (· ≤ ·)).filterMap fun k =>
        ((m.lookup k).map fun v => (k, v)).map Prod.fst).Sublist (m.keys.sort (· ≤ ·)) := by
      induction m.keys.sort (· ≤ ·) with
      | nil => exact .slnil
      | cons k ks ih =>
        rw [List.filterMap_cons]
        cases m.lookup k with
        | none => exact .cons _ ih
        | some v => exact .cons_cons _ ih
    exact hsub.nodup (Finset.sort_nodup _ _)
  mem_elems s x := Finset.mem_sort _
  nodup_elems s := Finset.sort_nodup _ _

/-- A string between quotes. -/
def quoted (s : String) : String := "\"" ++ s ++ "\""

/-- The libraries, with compact JSON text and ordered maps. -/
scoped instance runtime : Runtime where
  toTextFormat := Compact.textFormat
  toHashOrder := hashOrder
  debugString := quoted
  debugMap m := "\x7b" ++ ", ".intercalate
    ((hashOrder.entries m).map fun e => quoted e.1 ++ ": " ++ quoted e.2) ++ "\x7d"
  explainUtf8 _ := "invalid utf-8 sequence"

end Reference

/-! ## Session ids -/

/-- A session id. -/
structure SessionId where
  value : ℕ
  value_pos : 0 < value
  value_lt : value < 2 ^ 128
  deriving DecidableEq

namespace SessionId

/-- The digits of session ids. -/
def digits : List Char := "0123456789abcdef".toList

/-- The character of a digit. -/
def digitChar (d : ℕ) : Char := digits.getD d '0'

/-- The digit of a character. -/
def digitValue (c : Char) : Option ℕ := digits.idxOf? c

/-- A session id in hexadecimal. -/
def display (z : SessionId) : String :=
  String.ofList ((Nat.digits 16 z.value).reverse.map digitChar)

/-- The session id written in a text, without leading zeros. -/
def fromStr (s : String) : Except String SessionId :=
  if s.toList.head? = some '0' then .error "leading zeros are not allowed" else
    match s.toList.mapM digitValue with
    | none => .error "invalid hexadecimal digit"
    | some ds =>
      if h : 0 < Nat.ofDigits 16 ds.reverse ∧ Nat.ofDigits 16 ds.reverse < 2 ^ 128 then
        .ok ⟨Nat.ofDigits 16 ds.reverse, h.1, h.2⟩
      else .error "invalid size"

lemma digitValue_digitChar {d : ℕ} (h : d < 16) : digitValue (digitChar d) = some d := by
  have hall : ∀ d < 16, digitValue (digitChar d) = some d := by decide
  exact hall d h

lemma digitChar_mem {d : ℕ} (h : d < 16) : digitChar d ∈ digits := by
  have hall : ∀ d < 16, digitChar d ∈ digits := by decide
  exact hall d h

lemma digit_lt {z : SessionId} {d : ℕ} (h : d ∈ Nat.digits 16 z.value) : d < 16 :=
  Nat.digits_lt_base (by decide) h

/-- A session id is written with digits only. -/
lemma mem_display {z : SessionId} {c : Char} (h : c ∈ z.display.toList) : c ∈ digits := by
  simp only [display, String.toList_ofList, List.mem_map, List.mem_reverse] at h
  obtain ⟨d, hd, rfl⟩ := h
  exact digitChar_mem (digit_lt hd)

lemma notMem_display (z : SessionId) {c : Char} (h : c ∉ digits) : c ∉ z.display.toList :=
  fun hc => h (mem_display hc)

/-- The digits of a session id are read back. -/
lemma mapM_digitValue {ds : List ℕ} (h : ∀ d ∈ ds, d < 16) :
    (ds.map digitChar).mapM digitValue = some ds := by
  induction ds with
  | nil => rfl
  | cons d ds ih =>
    have hd : digitValue (digitChar d) = some d := digitValue_digitChar (h d (by simp))
    simp [List.mapM_cons, hd, ih fun e he => h e (by simp [he])]

/-- A session id does not start with a zero. -/
lemma head_display (z : SessionId) : z.display.toList.head? ≠ some '0' := by
  have hne : Nat.digits 16 z.value ≠ [] := Nat.digits_ne_nil_iff_ne_zero.mpr z.value_pos.ne'
  have hlast := Nat.getLast_digit_ne_zero 16 z.value_pos.ne'
  have hzero : ∀ d < 16, digitChar d = '0' → d = 0 := by decide
  simp only [display, String.toList_ofList, List.head?_map, List.head?_reverse,
    List.getLast?_eq_some_getLast hne, Option.map_some, ne_eq, Option.some.injEq]
  exact fun h => hlast (hzero _ (digit_lt (List.getLast_mem hne)) h)

/-- A session id is read back from its text. -/
lemma fromStr_display (z : SessionId) : fromStr z.display = .ok z := by
  have hread : z.display.toList.mapM digitValue = some (Nat.digits 16 z.value).reverse := by
    rw [display, String.toList_ofList]
    exact mapM_digitValue fun d hd => digit_lt (List.mem_reverse.mp hd)
  rw [fromStr, if_neg z.head_display, hread]
  simp only [List.reverse_reverse, Nat.ofDigits_digits, z.value_pos, z.value_lt, and_self,
    dite_true]

end SessionId

/-! ## Key expressions -/

namespace Reference

/-- A chunk where `*` stands only behind `$`, and `$` only before `*`, once in a row. -/
def wellFormed : List Char → Bool
  | [] => true
  | '$' :: '*' :: '$' :: _ => false
  | '$' :: '*' :: cs => wellFormed cs
  | '$' :: _ => false
  | '*' :: _ => false
  | _ :: cs => wellFormed cs

/-- A chunk of a key expression. -/
def isChunk (c : String) : Bool :=
  c == "*" || c == "**" || (c != "" && c != "$*" && wellFormed c.toList)

/-- A path where no `*` and no `**` stands behind `**`. -/
def canonical : List String → Bool
  | "**" :: "*" :: _ => false
  | "**" :: "**" :: _ => false
  | _ :: cs => canonical cs
  | [] => true

/-- A text that is a key expression in canonical form. -/
def isKeyExpr (k : String) : Bool :=
  !k.toList.contains '?' && !k.toList.contains '#' && (chunks k).all isChunk &&
    canonical (chunks k)

/-- The field of a format, read off the key expression at the place where the format has it. -/
def keFormatParse (format ke : String) : Except String (String → Except String String) :=
  match (chunks ke)[(chunks format).idxOf "$\x7bzid:*\x7d"]? with
  | none => .error "the key expression does not intersect the format"
  | some c => .ok fun id => if id = "zid" then .ok c else .error "no such field"

lemma keFormatParse_zid {c : String} (hc : '/' ∉ c.toList) (name rest : String) :
    ∃ get, keFormatParse ("@rpc/$\x7bzid:*\x7d/service/" ++ name)
      ("@rpc" ++ "/" ++ c ++ "/" ++ rest) = .ok get ∧ get "zid" = .ok c := by
  have hformat : chunks ("@rpc/$\x7bzid:*\x7d/service/" ++ name) =
      "@rpc" :: "$\x7bzid:*\x7d" :: chunks ("service/" ++ name) := by
    have hsplit : "@rpc/$\x7bzid:*\x7d/service/" ++ name =
        "@rpc" ++ "/" ++ ("$\x7bzid:*\x7d" ++ "/" ++ ("service/" ++ name)) := by
      have hlit : "@rpc/$\x7bzid:*\x7d/service/" =
          "@rpc" ++ "/" ++ ("$\x7bzid:*\x7d" ++ "/" ++ "service/") := by decide
      simp only [hlit, String.append_assoc]
    rw [hsplit, chunks_cons (by decide), chunks_cons (by decide)]
  have hke : chunks ("@rpc" ++ "/" ++ c ++ "/" ++ rest) = "@rpc" :: c :: chunks rest := by
    have hsplit : "@rpc" ++ "/" ++ c ++ "/" ++ rest = "@rpc" ++ "/" ++ (c ++ "/" ++ rest) := by
      simp [String.append_assoc]
    rw [hsplit, chunks_cons (by decide), chunks_cons hc]
  have hne : "@rpc" ≠ "$\x7bzid:*\x7d" := by decide
  refine ⟨fun id => if id = "zid" then .ok c else .error "no such field", ?_, by simp⟩
  rw [keFormatParse, hformat, hke, List.idxOf_cons_ne _ hne, List.idxOf_cons_self]
  rfl

end Reference

instance : Zenoh SessionId where
  display := SessionId.display
  fromStr := SessionId.fromStr
  isKeyExpr := Reference.isKeyExpr
  keFormatParse := Reference.keFormatParse
  fromStr_display := SessionId.fromStr_display
  display_noSlash z := z.notMem_display (by decide)
  display_noQuestion z := z.notMem_display (by decide)
  display_plain z := ⟨z.notMem_display (by decide), z.notMem_display (by decide)⟩
  display_notVerbatim z := fun h => z.notMem_display (by decide) (List.mem_of_head? h)
  isKeyExpr_noQuestion k hk := by
    simp only [Reference.isKeyExpr, Bool.and_eq_true, Bool.not_eq_true'] at hk
    intro h
    rw [List.contains_iff_mem.mpr h] at hk
    exact absurd hk.1.1.1 (by decide)
  keFormatParse_zid z name tail _ _ _ :=
    Reference.keFormatParse_zid (z.notMem_display (by decide)) name ("service" ++ "/" ++ tail)

/-! ## The service of the tests -/

/-- The request that `#[service]` derives for `hello`. -/
structure HelloRequest where
  name : String

namespace Reference

instance : Serde HelloRequest where
  toDocument r := .ok (.obj [("name", .str r.name)])
  ofDocument
    | .obj ms => (field ms "name").map HelloRequest.mk
    | .arr [d] => (Serde.ofDocument d).map HelloRequest.mk
    | _ => none
  levels
    | .obj ms => levelsField String ms "name" + 1
    | .arr [d] => Serde.levels String d + 1
    | _ => 0

instance : Debug HelloRequest where
  debug r := "HelloRequest \x7b name: " ++ debug r.name ++ " \x7d"

lemma roundTrips_helloRequest (r : HelloRequest) : RoundTrips 1 r := by
  have hlevels : levelsField String [("name", .str r.name)] "name" = 0 :=
    (levelsField_of_named (d := .str r.name) rfl).trans (Document.depth_str r.name)
  exact ⟨.obj [("name", .str r.name)], rfl, rfl, Nat.add_le_add_right hlevels.le 1⟩

/-- The method `hello`, over a handler that does not look at the world. -/
def helloMethod (Resp : Type) [Serde Resp]
    (handler : Request HelloRequest → Except Status (Response Resp)) : ServiceMethod Unit where
  ident := ⟨false, "hello", by decide, List.all_eq_true.mp (by decide)⟩
  Req := HelloRequest
  Resp := Resp
  serdeReq := inferInstance
  serdeResp := inferInstance
  debugReq := inferInstance
  handler _ req := .returned (handler req)

/-- What the tests implement `hello` with. -/
def greet (req : Request HelloRequest) : Except Status (Response String) :=
  .ok (Response.new ("Hello " ++ req.message.name ++ "!, you are connected to test service"))

/-- The method `hello` of the tests. -/
def hello : ServiceMethod Unit := helloMethod String greet

/-- The service `Hello` with one method. -/
def helloService (me : ServiceMethod Unit) : GeneratedService Unit :=
  ⟨⟨false, "Hello", by decide, List.all_eq_true.mp (by decide)⟩, [me], by simp⟩

lemma name_helloService (me : ServiceMethod Unit) : (helloService me).name = "Hello" := rfl

/-- The session of the tests' server. -/
def session : Session SessionId := ⟨⟨0xa0, by decide, by decide⟩⟩

lemma display_session : Zenoh.display session.zid = "a0" := by
  have hdigits : Nat.digits 16 0xa0 = [0, 10] := by
    rw [Nat.digits_def' (by decide) (by decide), Nat.digits_of_lt 16 _ (by decide) (by decide)]
  have hdisplay : SessionId.display session.zid =
      String.ofList ([0, 10].reverse.map SessionId.digitChar) := by
    rw [SessionId.display, ← hdigits]
    rfl
  exact hdisplay.trans (by decide)

/-- The tests' server. -/
def helloServer (me : ServiceMethod Unit) : Server SessionId Unit :=
  ((Server.builder session).addService (.generated (helloService me))).build

lemma lookup_helloServer (me : ServiceMethod Unit) :
    (helloServer me).services.lookup (helloService me).name = some (.generated (helloService me)) :=
  AList.lookup_insert ∅

lemma lookup_helloServer_of_ne (me : ServiceMethod Unit) {s : String} (hs : s ≠ "Hello") :
    (helloServer me).services.lookup s = none :=
  (AList.lookup_insert_ne hs).trans (AList.lookup_empty s)

end Reference

end ZenohRpc
