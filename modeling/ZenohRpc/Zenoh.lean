import ZenohRpc.KeyExpr.Language
import Mathlib.Data.List.TakeWhile

/-!
# What the crate relies on in zenoh

Session ids with their text, the texts zenoh accepts as key expressions, the key expression of a
selector, and the key-expression formats a client extracts server ids with.  The delivery of
queries and replies is not here: it is part of the systems that run servers and clients.
-/

namespace ZenohRpc

open KeyExpr

/-- The part of zenoh the crate calls, with the laws the crate relies on.  A session id is written
as a single chunk without wildcards, and is read back from its text.  A key expression holds no
`?`.  A key of a service, when it intersects a format with the field `zid` in the place of the
session id, parses to that session id. -/
class Zenoh (ZenohId : Type) where
  /-- `Display` of a session id. -/
  display : ZenohId → String
  /-- `FromStr` of a session id. -/
  fromStr : String → Except String ZenohId
  /-- Whether `KeyExpr::try_from` accepts a text. -/
  isKeyExpr : String → Bool
  /-- `KeFormat::parse`, with the lookup of a field in what it returns. -/
  keFormatParse : String → String → Except String (String → Except String String)
  fromStr_display : ∀ z, fromStr (display z) = .ok z
  display_noSlash : ∀ z, '/' ∉ (display z).toList
  display_noQuestion : ∀ z, '?' ∉ (display z).toList
  display_plain : ∀ z, Plain (display z)
  display_notVerbatim : ∀ z, ¬Verbatim (display z)
  isKeyExpr_noQuestion : ∀ k, isKeyExpr k = true → '?' ∉ k.toList
  keFormatParse_zid : ∀ (z : ZenohId) (name tail : String), Plain name → '/' ∉ name.toList →
    Intersects ("@rpc/*/service/" ++ name)
      ("@rpc" ++ "/" ++ display z ++ "/" ++ ("service" ++ "/" ++ tail)) →
    ∃ get, keFormatParse ("@rpc/$\x7bzid:*\x7d/service/" ++ name)
      ("@rpc" ++ "/" ++ display z ++ "/" ++ ("service" ++ "/" ++ tail)) = .ok get ∧
        get "zid" = .ok (display z)

/-- Session ids with the same text are the same. -/
lemma display_injective {ZenohId : Type} [Zenoh ZenohId] :
    Function.Injective (Zenoh.display : ZenohId → String) := by
  intro z z' h
  have hz := Zenoh.fromStr_display z
  rw [h, Zenoh.fromStr_display] at hz
  exact (Except.ok.inj hz).symm

/-- The chunks of a key under a session id. -/
lemma chunks_rpc {ZenohId : Type} [Zenoh ZenohId] (z : ZenohId) (rest : String) :
    chunks ("@rpc" ++ "/" ++ Zenoh.display z ++ "/" ++ rest) =
      "@rpc" :: Zenoh.display z :: chunks rest := by
  rw [chunks_append, chunks_cons (by decide), chunks_of_notMem (Zenoh.display_noSlash z)]
  rfl

/-- The key expression of a selector: what stands before its parameters. -/
def selectorKeyExpr (selector : String) : String :=
  String.ofList (selector.toList.takeWhile fun c => c != '?')

/-- The key expression of a selector whose head holds no parameters. -/
lemma selectorKeyExpr_append {s : String} (h : '?' ∉ s.toList) (t : String) :
    selectorKeyExpr (s ++ t) = s ++ selectorKeyExpr t := by
  have hall : ∀ c ∈ s.toList, (c != '?') = true := by
    intro c hc
    simp only [bne_iff_ne, ne_eq]
    rintro rfl
    exact h hc
  rw [selectorKeyExpr, String.toList_append, List.takeWhile_append_of_pos hall,
    String.ofList_append, String.ofList_toList, ← selectorKeyExpr]

/-- The key expression of a selector has no `?`, and no characters but the selector's. -/
lemma mem_selectorKeyExpr {s : String} {c : Char} (h : c ∈ (selectorKeyExpr s).toList) :
    c ≠ '?' ∧ c ∈ s.toList := by
  rw [selectorKeyExpr, String.toList_ofList] at h
  exact ⟨by simpa using List.mem_takeWhile_imp h, (List.takeWhile_sublist _).subset h⟩

/-- A selector without parameters is its key expression. -/
lemma selectorKeyExpr_of_notMem {s : String} (h : '?' ∉ s.toList) : selectorKeyExpr s = s := by
  simpa [selectorKeyExpr] using selectorKeyExpr_append h ""

end ZenohRpc
