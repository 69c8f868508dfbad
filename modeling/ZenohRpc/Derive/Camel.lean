import ZenohRpc.Text.Separators
import Mathlib.Data.String.Basic
import Mathlib.Data.Set.Function

/-!
# The case of names

`snake_to_camel` of `zrpc-derive/src/lib.rs`, which makes the names of types out of the names of
methods.  It runs over the characters with a flag: whether the last one was an underscore.

The conversion forgets where underscores stood, except that they made the next letter a capital.
For names of ASCII letters, digits and underscores this is `norm`: two names are converted to the
same name exactly when their norms are the same.  The norm of a name is converted to the same name
(`snakeToCamel_norm`), and is read back from it (`uncamel_camelLoop`).
-/

namespace ZenohRpc

open Text

/-! ## Unicode -/

/-- The tables of Unicode behind Rust's `char` and its identifiers: upper and lower case, which may
be several characters, and the characters that identifiers start and go on with. -/
class Unicode where
  toUppercase : Char → List Char
  toLowercase : Char → List Char
  isXidStart : Char → Bool
  isXidContinue : Char → Bool
  toUppercase_ascii : ∀ c : Char, c.toNat < 128 → toUppercase c = [c.toUpper]
  toLowercase_ascii : ∀ c : Char, c.toNat < 128 → toLowercase c = [c.toLower]
  isXidStart_ascii : ∀ c : Char, c.toNat < 128 → isXidStart c = c.isAlpha
  isXidContinue_ascii : ∀ c : Char, c.toNat < 128 → isXidContinue c = (c.isAlphanum || c == '_')
  isXidContinue_of_isXidStart : ∀ c, isXidStart c = true → isXidContinue c = true
  isXidContinue_toUppercase : ∀ c, isXidContinue c = true →
    ∀ d ∈ toUppercase c, isXidContinue d = true
  isXidContinue_toLowercase : ∀ c, isXidContinue c = true →
    ∀ d ∈ toLowercase c, isXidContinue d = true

/-- What holds of the first 128 characters holds of ASCII. -/
lemma forall_ascii {P : Char → Prop} (h : ∀ n < 128, P (Char.ofNat n)) {c : Char}
    (hc : c.toNat < 128) : P c := by
  have hP := h c.toNat hc
  rwa [Char.ofNat_toNat] at hP

/-! ## The norm -/

/-- An ASCII letter or digit, or an underscore. -/
def isWordChar (c : Char) : Bool := c.isAlphanum || c == '_'

/-- The norm of a name: in lower case, without leading and trailing underscores, with every run of
underscores made one, and without underscores directly before a digit. -/
def norm (s : String) : String :=
  String.ofList (canonicalize '_' Char.isDigit (s.toList.map Char.toLower))

/-- The kinds of word characters. -/
lemma isWordChar_iff {c : Char} : isWordChar c = true ↔
    c.isUpper = true ∨ c.isLower = true ∨ c.isDigit = true ∨ c = '_' := by
  have hkinds : isWordChar c = (c.isUpper || c.isLower || c.isDigit || c == '_') := rfl
  rw [hkinds, Bool.or_eq_true, Bool.or_eq_true, Bool.or_eq_true, beq_iff_eq, or_assoc, or_assoc]

/-- Word characters are in ASCII. -/
lemma toNat_lt_of_isWordChar {c : Char} (h : isWordChar c = true) : c.toNat < 128 := by
  have hbound : ∀ d : Char, c.val ≤ d.val → d.toNat < 128 → c.toNat < 128 :=
    fun d hle hd => lt_of_le_of_lt (UInt32.le_iff_toNat_le.mp hle) hd
  rcases isWordChar_iff.mp h with h | h | h | rfl
  · exact hbound 'Z' (of_decide_eq_true h).2 (by decide)
  · exact hbound 'z' (of_decide_eq_true (Bool.and_eq_true_iff.mp h).2) (by decide)
  · exact hbound '9' (of_decide_eq_true (Bool.and_eq_true_iff.mp h).2) (by decide)
  · decide

/-! ## The conversion -/

section

variable [Unicode]

/-- The loop of `snake_to_camel`, with its flag `last_char_was_underscore`. -/
def camelLoop : Bool → List Char → List Char
  | _, [] => []
  | lastCharWasUnderscore, c :: cs =>
    if c = '_' then camelLoop true cs
    else if lastCharWasUnderscore then Unicode.toUppercase c ++ camelLoop false cs
    else Unicode.toLowercase c ++ camelLoop lastCharWasUnderscore cs

/-- `snake_to_camel`. -/
def snakeToCamel (identStr : String) : String := String.ofList (camelLoop true identStr.toList)

lemma camelLoop_underscore (last : Bool) (cs : List Char) :
    camelLoop last ('_' :: cs) = camelLoop true cs := by
  rw [camelLoop, if_pos rfl]

/-- What the loop makes of a character that is no underscore. -/
def camelChar (last : Bool) (c : Char) : List Char :=
  if last then Unicode.toUppercase c else Unicode.toLowercase c

/-- The flag decides the case of the next character, and is used up by it. -/
lemma camelLoop_cons {c : Char} (hc : c ≠ '_') (last : Bool) (cs : List Char) :
    camelLoop last (c :: cs) = camelChar last c ++ camelLoop false cs := by
  rw [camelLoop, if_neg hc]
  cases last <;> rfl

/-- What both cases keep of every character holds of the characters of a converted name. -/
lemma forall_mem_camelLoop {P : Char → Prop}
    (hupper : ∀ c, P c → ∀ d ∈ Unicode.toUppercase c, P d)
    (hlower : ∀ c, P c → ∀ d ∈ Unicode.toLowercase c, P d) {cs : List Char} (h : ∀ c ∈ cs, P c)
    (last : Bool) : ∀ d ∈ camelLoop last cs, P d := by
  induction cs generalizing last with
  | nil => intro d hd; cases hd
  | cons c cs ih =>
    have hcs := ih fun c hc => h c (by simp [hc])
    by_cases hc : c = '_'
    · rw [hc, camelLoop_underscore]
      exact hcs true
    · intro d hd
      rw [camelLoop_cons hc] at hd
      rcases List.mem_append.mp hd with hd | hd
      · cases last with
        | true => exact hupper c (h c (by simp)) d hd
        | false => exact hlower c (h c (by simp)) d hd
      · exact hcs false d hd

/-! ## What the conversion passes over -/

/-- Lower case keeps what a character is converted to. -/
lemma camelLoop_map_toLower {cs : List Char} (h : ∀ c ∈ cs, c.toNat < 128) (last : Bool) :
    camelLoop last (cs.map Char.toLower) = camelLoop last cs := by
  have hcase : ∀ c : Char, c.toNat < 128 → c.toLower.toNat < 128 ∧
      c.toLower.toUpper = c.toUpper ∧ c.toLower.toLower = c.toLower ∧
      (c.toLower = '_' ↔ c = '_') := by
    intro c hc
    exact forall_ascii (P := fun c => c.toLower.toNat < 128 ∧ c.toLower.toUpper = c.toUpper ∧
      c.toLower.toLower = c.toLower ∧ (c.toLower = '_' ↔ c = '_')) (by decide) hc
  induction cs generalizing last with
  | nil => rfl
  | cons c cs ih =>
    obtain ⟨hascii, hupper, hlower, hunderscore⟩ := hcase c (h c (by simp))
    have hcs := ih fun d hd => h d (by simp [hd])
    rw [List.map_cons]
    by_cases hc : c = '_'
    · rw [hunderscore.mpr hc, hc, camelLoop_underscore, camelLoop_underscore, hcs]
    · have hc' : c.toLower ≠ '_' := fun heq => hc (hunderscore.mp heq)
      have hchar : camelChar last c.toLower = camelChar last c := by
        rw [camelChar, camelChar, Unicode.toUppercase_ascii _ hascii,
          Unicode.toLowercase_ascii _ hascii, Unicode.toUppercase_ascii _ (h c (by simp)),
          Unicode.toLowercase_ascii _ (h c (by simp)), hupper, hlower]
      rw [camelLoop_cons hc, camelLoop_cons hc', hcs, hchar]

/-- Underscores at the end are passed over. -/
lemma camelLoop_append_underscores {us : List Char} (h : ∀ c ∈ us, c = '_') (cs : List Char)
    (last : Bool) : camelLoop last (cs ++ us) = camelLoop last cs := by
  induction cs generalizing last with
  | nil =>
    induction us generalizing last with
    | nil => rfl
    | cons c us ih =>
      rw [h c (by simp), List.nil_append, camelLoop_underscore]
      exact ih (fun d hd => h d (by simp [hd])) true
  | cons c cs ih =>
    rw [List.cons_append]
    by_cases hc : c = '_'
    · rw [hc, camelLoop_underscore, camelLoop_underscore, ih]
    · rw [camelLoop_cons hc, camelLoop_cons hc, ih]

/-- Underscores at the ends are passed over. -/
lemma camelLoop_trim (cs : List Char) : camelLoop true (trim '_' cs) = camelLoop true cs := by
  have hfront : camelLoop true (cs.dropWhile (· == '_')) = camelLoop true cs := by
    induction cs with
    | nil => rfl
    | cons c cs ih =>
      rw [List.dropWhile_cons]
      split
      · rename_i hc
        rw [ih, beq_iff_eq.mp hc, camelLoop_underscore]
      · rfl
  rw [trim, ← hfront]
  conv_rhs =>
    rw [← List.rdropWhile_append_rtakeWhile (p := (· == '_')) (l := cs.dropWhile (· == '_'))]
  refine (camelLoop_append_underscores (fun c hc => ?_) _ _).symm
  have hunderscore : (c == '_') = true := List.mem_rtakeWhile_imp (p := (· == '_')) hc
  exact beq_iff_eq.mp hunderscore

/-- An underscore is passed over before a character that is converted in the same way without
it. -/
lemma camelLoop_dropBefore {p : Char → Bool}
    (hp : ∀ d, p d = true → ∀ last cs, camelLoop true (d :: cs) = camelLoop last (d :: cs))
    (cs : List Char) (last : Bool) : camelLoop last (dropBefore '_' p cs) = camelLoop last cs := by
  induction cs generalizing last with
  | nil => rfl
  | cons c cs ih =>
    rw [dropBefore]
    split
    · rename_i hdrop
      obtain ⟨rfl, hhead⟩ := hdrop
      cases cs with
      | nil => simp at hhead
      | cons d ds => rw [ih, camelLoop_underscore, hp d (by simpa using hhead) last]
    · by_cases hc : c = '_'
      · rw [hc, camelLoop_underscore, camelLoop_underscore, ih]
      · rw [camelLoop_cons hc, camelLoop_cons hc, ih]

/-- A name is converted as its norm is. -/
lemma camelLoop_canonicalize {cs : List Char} (h : ∀ c ∈ cs, isWordChar c = true) :
    camelLoop true (canonicalize '_' Char.isDigit (cs.map Char.toLower)) = camelLoop true cs := by
  have hunderscore : ∀ d, (d == '_') = true → ∀ last cs,
      camelLoop true (d :: cs) = camelLoop last (d :: cs) := by
    intro d hd last cs
    rw [beq_iff_eq.mp hd, camelLoop_underscore, camelLoop_underscore]
  have hdigit : ∀ d, Char.isDigit d = true → ∀ last cs,
      camelLoop true (d :: cs) = camelLoop last (d :: cs) := by
    intro d hd last cs
    have hword : isWordChar d = true := isWordChar_iff.mpr (Or.inr (Or.inr (Or.inl hd)))
    have hascii := toNat_lt_of_isWordChar hword
    have hsame : d.toUpper = d.toLower ∧ d ≠ '_' :=
      forall_ascii (P := fun d => d.isDigit = true → d.toUpper = d.toLower ∧ d ≠ '_')
        (by decide) hascii hd
    rw [camelLoop_cons hsame.2, camelLoop_cons hsame.2, camelChar, camelChar,
      Unicode.toUppercase_ascii _ hascii, Unicode.toLowercase_ascii _ hascii, hsame.1, ite_self,
      ite_self]
  rw [canonicalize, camelLoop_dropBefore hdigit, squeeze, camelLoop_dropBefore hunderscore,
    camelLoop_trim, camelLoop_map_toLower fun c hc => toNat_lt_of_isWordChar (h c hc)]

/-- A name and its norm are converted to the same name. -/
lemma snakeToCamel_norm {s : String} (h : ∀ c ∈ s.toList, isWordChar c = true) :
    snakeToCamel (norm s) = snakeToCamel s := by
  rw [snakeToCamel, norm, String.toList_ofList, camelLoop_canonicalize h, snakeToCamel]

/-! ## Reading a norm back -/

/-- The characters behind the first one of a converted name, with an underscore before each
capital. -/
def uncamelTail (cs : List Char) : List Char :=
  cs.flatMap fun c => if c.isUpper then ['_', c.toLower] else [c]

/-- The norm of the names that are converted to a name. -/
def uncamel : List Char → List Char
  | [] => []
  | c :: cs => c.toLower :: uncamelTail cs

/-- A character that is an underscore, a lower-case letter or a digit. -/
def isNormChar (c : Char) : Bool := c == '_' || c.isLower || c.isDigit

omit [Unicode] in
/-- How the characters of norms are converted. -/
lemma case_of_isNormChar {c : Char} (hc : isNormChar c = true) (hunderscore : c ≠ '_') :
    c.toNat < 128 ∧ c.isUpper = false ∧ c.toLower = c ∧ c.toUpper.toLower = c ∧
      (c.isDigit = false → c.toUpper.isUpper = true) := by
  have hascii : c.toNat < 128 := by
    refine toNat_lt_of_isWordChar ?_
    simp only [isNormChar, Bool.or_eq_true, beq_iff_eq, hunderscore, false_or] at hc
    exact isWordChar_iff.mpr (Or.inr (hc.imp id Or.inl))
  exact ⟨hascii, forall_ascii (P := fun c => isNormChar c = true → c ≠ '_' →
    c.isUpper = false ∧ c.toLower = c ∧ c.toUpper.toLower = c ∧
      (c.isDigit = false → c.toUpper.isUpper = true)) (by decide) hascii hc hunderscore⟩

/-- The tail of a canonical name is read back, with an underscore first if one was passed over. -/
lemma uncamelTail_camelLoop {cs : List Char} (hchars : ∀ c ∈ cs, isNormChar c = true)
    (hlast : cs.getLast? ≠ some '_')
    (hchain : cs.IsChain fun c d => c = '_' → d ≠ '_' ∧ d.isDigit = false) {last : Bool}
    (hhead : last = true → ∃ d, cs.head? = some d ∧ d ≠ '_' ∧ d.isDigit = false) :
    uncamelTail (camelLoop last cs) = if last then '_' :: cs else cs := by
  induction cs generalizing last with
  | nil =>
    cases last with
    | true =>
      obtain ⟨d, hd, _⟩ := hhead rfl
      cases hd
    | false => rfl
  | cons c cs ih =>
    obtain ⟨hnext, hrest⟩ := List.isChain_cons.mp hchain
    have hchars' : ∀ d ∈ cs, isNormChar d = true := fun d hd => hchars d (by simp [hd])
    have hlast' : cs.getLast? ≠ some '_' := by
      intro h
      rw [List.getLast?_cons, h] at hlast
      exact hlast rfl
    by_cases hc : c = '_'
    · subst hc
      cases last with
      | true =>
        obtain ⟨d, hd, hne, _⟩ := hhead rfl
        exact absurd (Option.some.inj hd).symm hne
      | false =>
        -- the underscore is not the last character, so a letter follows
        cases cs with
        | nil => exact absurd rfl hlast
        | cons d ds =>
          rw [camelLoop_underscore, ih hchars' hlast' hrest fun _ => ⟨d, rfl, hnext d rfl rfl⟩]
          rfl
    · have hcs : uncamelTail (camelLoop false cs) = cs := ih hchars' hlast' hrest (by simp)
      obtain ⟨hascii, hupper, hlower, hback, hletter⟩ :=
        case_of_isNormChar (hchars c (by simp)) hc
      cases last with
      | true =>
        obtain ⟨d, hd, _, hdigit⟩ := hhead rfl
        obtain rfl := Option.some.inj hd
        rw [camelLoop_cons hc, camelChar, if_pos rfl, Unicode.toUppercase_ascii _ hascii,
          List.singleton_append, uncamelTail, List.flatMap_cons, if_pos (hletter hdigit), hback,
          ← uncamelTail, hcs]
        rfl
      | false =>
        rw [camelLoop_cons hc, camelChar, if_neg (by decide), Unicode.toLowercase_ascii _ hascii,
          List.singleton_append, uncamelTail, List.flatMap_cons, hlower, hupper, ← uncamelTail, hcs]
        rfl

/-- A canonical name is read back from what it is converted to. -/
lemma uncamel_camelLoop {cs : List Char} (hchars : ∀ c ∈ cs, isNormChar c = true)
    (h : Canonical '_' Char.isDigit cs) : uncamel (camelLoop true cs) = cs := by
  cases cs with
  | nil => rfl
  | cons c cs =>
    have hc : c ≠ '_' := by
      rintro rfl
      exact h.head rfl
    obtain ⟨hascii, _, _, hback, _⟩ := case_of_isNormChar (hchars c (by simp)) hc
    have hlast : cs.getLast? ≠ some '_' := by
      intro hcs
      refine h.last ?_
      rw [List.getLast?_cons, hcs]
      rfl
    have htail : uncamelTail (camelLoop false cs) = cs :=
      uncamelTail_camelLoop (fun d hd => hchars d (by simp [hd])) hlast
        (List.isChain_cons.mp h.chain).2 (by simp)
    rw [camelLoop_cons hc, camelChar, if_pos rfl, Unicode.toUppercase_ascii _ hascii,
      List.singleton_append, uncamel, hback, htail]

end

/-- The norm of a name is canonical. -/
lemma canonical_norm {s : String} (h : ∀ c ∈ s.toList, isWordChar c = true) :
    (∀ c ∈ (norm s).toList, isNormChar c = true) ∧
      Canonical '_' Char.isDigit (norm s).toList := by
  rw [norm, String.toList_ofList]
  refine ⟨fun c hc => ?_, canonical_canonicalize⟩
  obtain ⟨d, hd, rfl⟩ := List.mem_map.mp (canonicalize_sublist.subset hc)
  exact forall_ascii (P := fun d => isWordChar d = true → isNormChar d.toLower = true)
    (by decide) (toNat_lt_of_isWordChar (h d hd)) (h d hd)

/-! ## Names in snake case -/

/-- A segment of a name in snake case: a lower-case letter, and lower-case letters and digits
behind it. -/
def IsSegment (w : List Char) : Prop :=
  ∃ c cs, w = c :: cs ∧ c.isLower = true ∧ ∀ d ∈ cs, d.isLower = true ∨ d.isDigit = true

/-- A name in snake case: segments joined by single underscores. -/
def IsSnakeName (s : String) : Prop :=
  ∃ ws : List (List Char), ws ≠ [] ∧ (∀ w ∈ ws, IsSegment w) ∧ s.toList = ['_'].intercalate ws

/-- No character of a segment is an underscore. -/
lemma IsSegment.char {w : List Char} (h : IsSegment w) {c : Char} (hc : c ∈ w) :
    c.isLower = true ∨ c.isDigit = true := by
  obtain ⟨d, ds, rfl, hd, hds⟩ := h
  rcases List.mem_cons.mp hc with rfl | hmem
  · exact Or.inl hd
  · exact hds c hmem

lemma ne_underscore {c : Char} (h : c.isLower = true ∨ c.isDigit = true) : c ≠ '_' := by
  rintro rfl
  exact absurd h (by decide)

/-- A name that starts with a lower-case letter, and is canonical. -/
structure StartsSnake (cs : List Char) : Prop where
  chars : ∀ c ∈ cs, isNormChar c = true
  head : ∃ c, cs.head? = some c ∧ c.isLower = true
  canonical : Canonical '_' Char.isDigit cs

/-- A segment is canonical. -/
lemma IsSegment.startsSnake {w : List Char} (h : IsSegment w) : StartsSnake w := by
  have hunderscore : ∀ c ∈ w, c ≠ '_' := fun c hc => ne_underscore (h.char hc)
  refine ⟨fun c hc => ?_, ?_, fun hhead => ?_, fun hlast => ?_, ?_⟩
  · rcases h.char hc with hc | hc <;> simp [isNormChar, hc]
  · obtain ⟨c, cs, rfl, hc, _⟩ := h
    exact ⟨c, rfl, hc⟩
  · exact hunderscore _ (List.mem_of_head? hhead) rfl
  · exact hunderscore _ (List.mem_of_getLast? hlast) rfl
  · exact (List.pairwise_of_forall_mem_list fun c hc d _ heq =>
      absurd heq (hunderscore c hc)).isChain

/-- A segment and an underscore in front keep a name canonical. -/
lemma IsSegment.startsSnake_append {w cs : List Char} (h : IsSegment w) (hcs : StartsSnake cs) :
    StartsSnake (w ++ ['_'] ++ cs) := by
  obtain ⟨hchars, ⟨c, hc, hlower⟩, hw⟩ := h.startsSnake
  obtain ⟨hchars', ⟨d, hd, hlower'⟩, hcanonical⟩ := hcs
  have hne : cs ≠ [] := by
    rintro rfl
    cases hd
  have hhead : (w ++ ['_'] ++ cs).head? = some c := by
    rw [List.append_assoc, List.head?_append, hc]
    rfl
  refine ⟨fun e he => ?_, ⟨c, hhead, hlower⟩, ?_, ?_, ?_⟩
  · simp only [List.mem_append, List.mem_singleton] at he
    rcases he with (he | rfl) | he
    · exact hchars e he
    · rfl
    · exact hchars' e he
  · rw [hhead, ← hc]
    exact hw.head
  · rw [List.getLast?_append_of_ne_nil _ hne]
    exact hcanonical.last
  · rw [List.append_assoc, List.isChain_append]
    refine ⟨hw.chain, List.isChain_cons.mpr ⟨fun e he _ => ?_, hcanonical.chain⟩,
      fun e he _ _ heq => ?_⟩
    · -- a segment follows the underscore, and starts with a letter
      have hfirst : e ∈ cs.head? := he
      rw [hd, Option.mem_some_iff] at hfirst
      rw [← hfirst]
      exact ⟨ne_underscore (Or.inl hlower'), forall_ascii
        (P := fun c => c.isLower = true → c.isDigit = false) (by decide)
        (toNat_lt_of_isWordChar (isWordChar_iff.mpr (Or.inr (Or.inl hlower')))) hlower'⟩
    · exact absurd heq (ne_underscore (h.char (List.mem_of_getLast? he)))

/-- A name in snake case is canonical. -/
lemma IsSnakeName.startsSnake {s : String} (h : IsSnakeName s) : StartsSnake s.toList := by
  obtain ⟨ws, hne, hws, heq⟩ := h
  rw [heq]
  clear heq
  induction ws with
  | nil => exact absurd rfl hne
  | cons w ws ih =>
    cases ws with
    | nil =>
      rw [List.intercalate_singleton]
      exact (hws w (by simp)).startsSnake
    | cons w' ws =>
      rw [List.intercalate_cons_cons]
      exact (hws w (by simp)).startsSnake_append (ih (by simp) fun v hv => hws v (by simp [hv]))

/-! ## Collisions -/

section

variable [Unicode]

/-- Two names of ASCII letters, digits and underscores with the same conversion have the same norm,
and the other way round. -/
lemma snakeToCamel_eq_iff_norm_eq {a b : String} (ha : ∀ c ∈ a.toList, isWordChar c = true)
    (hb : ∀ c ∈ b.toList, isWordChar c = true) :
    snakeToCamel a = snakeToCamel b ↔ norm a = norm b := by
  constructor
  · intro h
    rw [← snakeToCamel_norm ha, ← snakeToCamel_norm hb] at h
    have hnorm := congrArg uncamel (String.ofList_injective h)
    rw [uncamel_camelLoop (canonical_norm ha).1 (canonical_norm ha).2,
      uncamel_camelLoop (canonical_norm hb).1 (canonical_norm hb).2] at hnorm
    exact String.toList_injective hnorm
  · intro h
    rw [← snakeToCamel_norm ha, h, snakeToCamel_norm hb]

/-- Two names in snake case with the same conversion are the same. -/
lemma injOn_snakeToCamel : Set.InjOn snakeToCamel {s | IsSnakeName s} := by
  intro a ha b hb h
  have hname := congrArg uncamel (String.ofList_injective h)
  rw [uncamel_camelLoop ha.startsSnake.chars ha.startsSnake.canonical,
    uncamel_camelLoop hb.startsSnake.chars hb.startsSnake.canonical] at hname
  exact String.toList_injective hname

end

/-- Two names of ASCII letters, digits and underscores are converted to the same name exactly when
their norms are the same, and two names in snake case only when they are the same. -/
theorem snakeToCamel_eq_iff [Unicode] :
    (∀ a b : String, (∀ c ∈ a.toList, isWordChar c = true) →
      (∀ c ∈ b.toList, isWordChar c = true) →
      (snakeToCamel a = snakeToCamel b ↔ norm a = norm b)) ∧
    Set.InjOn snakeToCamel {s | IsSnakeName s} :=
  ⟨fun _ _ ha hb => snakeToCamel_eq_iff_norm_eq ha hb, injOn_snakeToCamel⟩

/-- The tables of Unicode cut down to ASCII: no other character has a case, or is in an
identifier. -/
scoped instance Reference.unicode : Unicode where
  toUppercase c := [c.toUpper]
  toLowercase c := [c.toLower]
  isXidStart c := c.isAlpha
  isXidContinue := isWordChar
  toUppercase_ascii _ _ := rfl
  toLowercase_ascii _ _ := rfl
  isXidStart_ascii _ _ := rfl
  isXidContinue_ascii _ _ := rfl
  isXidContinue_of_isXidStart c hc := by
    rw [isWordChar, Char.isAlphanum, hc]
    rfl
  isXidContinue_toUppercase c hc d hd := by
    rw [List.mem_singleton.mp hd]
    exact forall_ascii (P := fun c => isWordChar c = true → isWordChar c.toUpper = true)
      (by decide) (toNat_lt_of_isWordChar hc) hc
  isXidContinue_toLowercase c hc d hd := by
    rw [List.mem_singleton.mp hd]
    exact forall_ascii (P := fun c => isWordChar c = true → isWordChar c.toLower = true)
      (by decide) (toNat_lt_of_isWordChar hc) hc

open Reference in
/-- A name with capitals, and with underscores at its ends and before a digit, is converted as the
name in snake case is. -/
theorem snakeToCamel_get_v2 : snakeToCamel "_Get__v_2_" = snakeToCamel "get_v2" := by
  have ha : ∀ c ∈ "_Get__v_2_".toList, isWordChar c = true := List.all_eq_true.mp (by decide)
  have hb : ∀ c ∈ "get_v2".toList, isWordChar c = true := List.all_eq_true.mp (by decide)
  exact (snakeToCamel_eq_iff.1 _ _ ha hb).mpr (by decide)

end ZenohRpc
