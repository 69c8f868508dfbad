import ZenohRpc.Derive.Camel
import ZenohRpc.Derive.Parser

/-!
# The names that `#[service]` generates

The names of the types in `ServiceGenerator`, of `zrpc-derive/src/lib.rs`: `<Method>Request` and
`<Method>Response`, where the method is converted by `snake_to_camel`, and `<Trait>Server`,
`<Trait>ClientBuilder` and `<Trait>Client`.  The client has its methods in the impl block in which
it has `builder`, `find_server` and `extract_id_from_ke`.

No suffix ends in another one, so two names with different suffixes are different, whatever is
before the suffix (`append_suffix_inj`).  What can go wrong is in the names of the methods: the
conversion makes the same name of two methods, or one that starts with a digit, or the name of the
trait, and nothing keeps a method from having the name of an item of the client.  This is all that
goes wrong, besides methods with a raw identifier (`namesOk_iff`).
-/

namespace ZenohRpc

/-! ## Identifiers of Rust -/

/-- Normalisation form C, in which Rust compares identifiers.  No character is composed with an
ASCII character behind it, nor with `#`. -/
class Normalization extends Unicode where
  nfc : List Char → List Char
  nfc_nil : nfc [] = []
  nfc_append_ascii : ∀ s t, (∀ c ∈ t, c.toNat < 128) → nfc (s ++ t) = nfc s ++ t
  mem_nfc : ∀ s, '#' ∈ s → '#' ∈ nfc s
  isXidContinue_nfc : ∀ s, (∀ c ∈ s, isXidContinue c = true) → ∀ c ∈ nfc s, isXidContinue c = true

/-- The words that `syn` takes for no identifier. -/
def keywords : List String :=
  ["_", "abstract", "as", "async", "await", "become", "box", "break", "const", "continue", "crate",
    "do", "dyn", "else", "enum", "extern", "false", "final", "fn", "for", "if", "impl", "in", "let",
    "loop", "macro", "match", "mod", "move", "mut", "override", "priv", "pub", "ref", "return",
    "Self", "self", "static", "struct", "super", "trait", "true", "try", "type", "typeof", "unsafe",
    "unsized", "use", "virtual", "where", "while", "yield"]

section

variable [Unicode]

/-- A character that an identifier may start with. -/
def isIdentStart (c : Char) : Bool := Unicode.isXidStart c || c == '_'

/-- The characters of a word: one that identifiers start with, and behind it those that they go on
with. -/
def isXidWord : List Char → Bool
  | [] => false
  | c :: cs => isIdentStart c && cs.all Unicode.isXidContinue

/-- An identifier that is not written raw. -/
def isIdentifier (name : String) : Bool := isXidWord name.toList && !keywords.contains name

/-- A word with its first character in upper case, and the others in lower case. -/
def capitalize : List Char → List Char
  | [] => []
  | c :: cs => Unicode.toUppercase c ++ cs.flatMap Unicode.toLowercase

end

/-! ## Suffixes -/

/-- What is put behind the words of a method, or behind the name of the trait. -/
def typeSuffixes : List String := ["Request", "Response", "Server", "Client", "ClientBuilder"]

/-- No suffix ends in another one. -/
lemma eq_of_isSuffix {s s' : String} (hs : s ∈ typeSuffixes) (hs' : s' ∈ typeSuffixes)
    (h : s.toList <:+ s'.toList) : s = s' := by
  have hall : (typeSuffixes.all fun s => typeSuffixes.all fun s' =>
      !s.toList.isSuffixOf s'.toList || s == s') = true := by decide
  have hpair := List.all_eq_true.mp (List.all_eq_true.mp hall s hs) s' hs'
  rw [List.isSuffixOf_iff_suffix.mpr h] at hpair
  simpa using hpair

/-- A name with a suffix determines the suffix, and what is before it. -/
lemma append_suffix_inj {cs cs' : List Char} {s s' : String} (hs : s ∈ typeSuffixes)
    (hs' : s' ∈ typeSuffixes) (h : cs ++ s.toList = cs' ++ s'.toList) : cs = cs' ∧ s = s' := by
  have heq : s = s' := by
    rcases List.suffix_or_suffix_of_suffix (List.suffix_append cs s.toList)
      (h ▸ List.suffix_append cs' s'.toList) with hsuffix | hsuffix
    · exact eq_of_isSuffix hs hs' hsuffix
    · exact (eq_of_isSuffix hs' hs hsuffix).symm
  subst heq
  exact ⟨List.append_cancel_right h, rfl⟩

/-- Suffixes are made of ASCII letters. -/
lemma isAlpha_of_mem_suffix {s : String} (hs : s ∈ typeSuffixes) {c : Char} (hc : c ∈ s.toList) :
    c.toNat < 128 ∧ c.isAlpha = true := by
  have hall : (typeSuffixes.all fun s => s.toList.all fun c =>
      decide (c.toNat < 128) && c.isAlpha) = true := by decide
  simpa using List.all_eq_true.mp (List.all_eq_true.mp hall s hs) c hc

/-- No keyword ends in a suffix. -/
lemma not_isSuffix_keyword {s k : String} (hs : s ∈ typeSuffixes) (hk : k ∈ keywords) :
    ¬s.toList <:+ k.toList := by
  have hall : (typeSuffixes.all fun s => keywords.all fun k =>
      !s.toList.isSuffixOf k.toList) = true := by decide
  have hpair := List.all_eq_true.mp (List.all_eq_true.mp hall s hs) k hk
  intro h
  rw [List.isSuffixOf_iff_suffix.mpr h] at hpair
  cases hpair

/-- A name is not the name with a suffix behind it. -/
lemma ne_append_suffix {cs : List Char} {s : String} (hs : s ∈ typeSuffixes) :
    cs ≠ cs ++ s.toList := by
  intro h
  exact not_isSuffix_keyword hs (k := "_") (by decide)
    (List.self_eq_append_right.mp h ▸ List.nil_suffix)

section

variable [Normalization] {Span Ty : Type}

/-- An identifier of Rust. -/
structure Ident.Legal (i : Ident) : Prop where
  word : isXidWord i.name.toList = true
  normal : Normalization.nfc i.name.toList = i.name.toList
  unreserved : i.name ∉ if i.raw then ["_", "crate", "self", "super", "Self"] else keywords

/-- A trait that `#[service]` accepts, as far as the names depend on it. -/
structure ServiceTrait (Span Ty : Type) [Normalization] where
  ident : Ident
  methods : List (RPCMethod Span Ty)
  legal : ident.Legal
  methods_legal : ∀ m ∈ methods, m.ident.Legal
  methods_parsed : ∀ m ∈ methods, ∃ callSite args,
    RPCMethod.parse callSite m.ident args m.output = .returned (.ok m)
  nodup : (methods.map fun m => m.ident.name).Nodup

/-! ## The generated names -/

/-- The name of the identifier that `format_ident!` makes of a text.  It panics when the name is no
identifier. -/
def formatIdent (text : String) : String := String.ofList (Normalization.nfc text.toList)

namespace RPCMethod

/-- `request_ident`. -/
def requestIdent (method : RPCMethod Span Ty) : String :=
  formatIdent (snakeToCamel method.ident.toString ++ "Request")

/-- `response_ident`. -/
def responseIdent (method : RPCMethod Span Ty) : String :=
  formatIdent (snakeToCamel method.ident.toString ++ "Response")

end RPCMethod

namespace ServiceTrait

/-- `server_ident`; an identifier that `format_ident!` puts into a text goes without its `r#`. -/
def serverIdent (t : ServiceTrait Span Ty) : String := formatIdent (t.ident.name ++ "Server")

/-- `client_ident`. -/
def clientIdent (t : ServiceTrait Span Ty) : String := formatIdent (t.ident.name ++ "Client")

/-- `client_builder_ident`. -/
def clientBuilderIdent (t : ServiceTrait Span Ty) : String :=
  formatIdent (t.ident.name ++ "ClientBuilder")

/-- The names of the types that are generated, in their order. -/
def typeNames (t : ServiceTrait Span Ty) : List String :=
  t.serverIdent :: t.methods.map RPCMethod.requestIdent ++ t.methods.map RPCMethod.responseIdent ++
    [t.clientBuilderIdent, t.clientIdent]

/-- The names of the items in the impl block of the client. -/
def clientItems (t : ServiceTrait Span Ty) : List String :=
  "builder" :: t.methods.map (fun m => m.ident.name) ++ ["find_server", "extract_id_from_ke"]

/-- The generated names are identifiers, they are distinct from each other and the name of the
trait, and so are the items of the client. -/
structure NamesOk (t : ServiceTrait Span Ty) : Prop where
  valid : ∀ name ∈ t.typeNames, isIdentifier name = true
  distinct : (t.ident.name :: t.typeNames).Nodup
  items : t.clientItems.Nodup

end ServiceTrait

/-! ## Names by their words -/

/-- The words of a name between its underscores, each capitalised. -/
def capitalWords (name : String) : List Char :=
  Normalization.nfc ((name.toList.splitOn '_').flatMap capitalize)

/-- The names of a trait do not run into each other, nor into those of the client. -/
structure ServiceTrait.Apart (t : ServiceTrait Span Ty) : Prop where
  /-- No method has a raw identifier. -/
  plain : ∀ m ∈ t.methods, m.ident.raw = false
  /-- What a method starts with, in upper case, starts an identifier: it is no digit. -/
  start : ∀ m ∈ t.methods, ∀ c ∈ (capitalWords m.ident.name).head?, isIdentStart c = true
  /-- No two methods have the same words up to case. -/
  words : t.methods.Pairwise fun m m' => capitalWords m.ident.name ≠ capitalWords m'.ident.name
  /-- The trait is not named as the words of a method and what is put behind them. -/
  trait : ∀ m ∈ t.methods, t.ident.name.toList ≠ capitalWords m.ident.name ++ "Request".toList ∧
    t.ident.name.toList ≠ capitalWords m.ident.name ++ "Response".toList
  /-- No method is named as an item that the client has besides its methods. -/
  items : ∀ m ∈ t.methods, m.ident.name ∉ ["builder", "find_server", "extract_id_from_ke"]

/-! ## The conversion by words -/

/-- The loop capitalises the words of a name, the first one only when its flag is set. -/
lemma camelLoop_eq_modifyHead (last : Bool) (cs : List Char) :
    camelLoop last cs = match cs.splitOn '_' with
      | [] => []
      | w :: ws => (if last then capitalize w else w.flatMap Unicode.toLowercase) ++
        ws.flatMap capitalize := by
  induction cs generalizing last with
  | nil => cases last <;> rfl
  | cons c cs ih =>
    obtain ⟨w, ws, hsplit⟩ := List.exists_cons_of_ne_nil (List.splitOn_ne_nil '_' cs)
    rw [hsplit] at ih
    rw [List.splitOn_cons_eq_if_modifyHead, hsplit]
    by_cases hc : c = '_'
    · rw [hc, camelLoop_underscore, ih true, beq_self_eq_true, if_pos rfl]
      cases last <;> rfl
    · rw [if_neg (by simpa using hc), List.modifyHead_cons, camelLoop_cons hc, ih false]
      cases last with
      | true =>
        simp only [camelChar, capitalize, if_true, Bool.false_eq_true, if_false, List.append_assoc]
      | false =>
        simp only [camelChar, Bool.false_eq_true, if_false, List.flatMap_cons, List.append_assoc]

/-- `snake_to_camel` capitalises the words of a name. -/
lemma snakeToCamel_eq_capitalize (s : String) :
    snakeToCamel s = String.ofList ((s.toList.splitOn '_').flatMap capitalize) := by
  obtain ⟨w, ws, hsplit⟩ := List.exists_cons_of_ne_nil (List.splitOn_ne_nil '_' s.toList)
  rw [snakeToCamel, camelLoop_eq_modifyHead, hsplit]
  rfl

/-- The words of a name of ASCII letters, digits and underscores are normalised. -/
lemma capitalWords_eq_of_ascii {s : String} (h : ∀ c ∈ s.toList, isWordChar c = true) :
    capitalWords s = (snakeToCamel s).toList := by
  have hcase : ∀ c : Char, c.toNat < 128 → c.toUpper.toNat < 128 ∧ c.toLower.toNat < 128 := by
    intro c hc
    exact forall_ascii (P := fun c => c.toUpper.toNat < 128 ∧ c.toLower.toNat < 128)
      (by decide) hc
  have hascii : ∀ d ∈ camelLoop true s.toList, d.toNat < 128 := by
    refine forall_mem_camelLoop (fun c hc d hd => ?_) (fun c hc d hd => ?_)
      (fun c hc => toNat_lt_of_isWordChar (h c hc)) true
    · rw [Unicode.toUppercase_ascii c hc, List.mem_singleton] at hd
      rw [hd]
      exact (hcase c hc).1
    · rw [Unicode.toLowercase_ascii c hc, List.mem_singleton] at hd
      rw [hd]
      exact (hcase c hc).2
  have hnfc := Normalization.nfc_append_ascii [] _ hascii
  have hwords := snakeToCamel_eq_capitalize s
  rw [snakeToCamel] at hwords
  rw [List.nil_append, Normalization.nfc_nil, List.nil_append] at hnfc
  rw [capitalWords, ← String.ofList_injective hwords, hnfc, snakeToCamel, String.toList_ofList]

/-- Two names of ASCII letters, digits and underscores have the same words exactly when their norms
are the same. -/
lemma capitalWords_eq_iff {a b : String} (ha : ∀ c ∈ a.toList, isWordChar c = true)
    (hb : ∀ c ∈ b.toList, isWordChar c = true) :
    capitalWords a = capitalWords b ↔ norm a = norm b := by
  rw [capitalWords_eq_of_ascii ha, capitalWords_eq_of_ascii hb, String.toList_inj,
    snakeToCamel_eq_iff_norm_eq ha hb]

/-! ## What a legal name is made of -/

/-- What is made of a text with a suffix ends in the suffix. -/
lemma formatIdent_append {s : String} (hs : s ∈ typeSuffixes) (text : String) :
    (formatIdent (text ++ s)).toList = Normalization.nfc text.toList ++ s.toList := by
  rw [formatIdent, String.toList_ofList, String.toList_append,
    Normalization.nfc_append_ascii _ _ fun c hc => (isAlpha_of_mem_suffix hs hc).1]

/-- Identifiers go on with every character of a word. -/
lemma isXidContinue_of_isXidWord {cs : List Char} (h : isXidWord cs = true) :
    ∀ c ∈ cs, Unicode.isXidContinue c = true := by
  cases cs with
  | nil => cases h
  | cons d ds =>
    rw [isXidWord, Bool.and_eq_true, isIdentStart, Bool.or_eq_true, beq_iff_eq] at h
    obtain ⟨hstart, hall⟩ := h
    intro c hc
    rcases List.mem_cons.mp hc with rfl | hc
    · rcases hstart with hstart | rfl
      · exact Unicode.isXidContinue_of_isXidStart c hstart
      · exact Unicode.isXidContinue_ascii '_' (by decide)
    · exact List.all_eq_true.mp hall c hc

/-- Characters with a suffix behind them are an identifier exactly when an identifier may start with
the first one. -/
lemma isIdentifier_append_iff {name s : String} {cs : List Char} (hs : s ∈ typeSuffixes)
    (hname : name.toList = cs ++ s.toList) (hcs : ∀ c ∈ cs, Unicode.isXidContinue c = true) :
    isIdentifier name = true ↔ ∀ c ∈ cs.head?, isIdentStart c = true := by
  have hkeyword : keywords.contains name = false := by
    rw [Bool.eq_false_iff, Ne, List.contains_iff_mem]
    intro hk
    exact not_isSuffix_keyword hs hk (hname ▸ List.suffix_append cs s.toList)
  have hletter : ∀ c ∈ s.toList, Unicode.isXidStart c = true ∧ Unicode.isXidContinue c = true := by
    intro c hc
    obtain ⟨hascii, halpha⟩ := isAlpha_of_mem_suffix hs hc
    have hstart : Unicode.isXidStart c = true := by rw [Unicode.isXidStart_ascii c hascii, halpha]
    exact ⟨hstart, Unicode.isXidContinue_of_isXidStart c hstart⟩
  rw [isIdentifier, hkeyword, hname, Bool.not_false, Bool.and_true]
  cases cs with
  | nil =>
    cases hlist : s.toList with
    | nil => exact absurd (hlist ▸ List.nil_suffix) (not_isSuffix_keyword hs (k := "_") (by decide))
    | cons c rest =>
      rw [hlist] at hletter
      simp only [List.nil_append, isXidWord, isIdentStart, (hletter c (by simp)).1, Bool.true_or,
        Bool.true_and, List.head?_nil, Option.mem_def, reduceCtorEq, false_implies, implies_true,
        iff_true]
      exact List.all_eq_true.mpr fun d hd => (hletter d (by simp [hd])).2
  | cons c rest =>
    have hall : (rest ++ s.toList).all Unicode.isXidContinue = true := by
      refine List.all_eq_true.mpr fun d hd => ?_
      rcases List.mem_append.mp hd with hd | hd
      · exact hcs d (by simp [hd])
      · exact (hletter d hd).2
    rw [List.cons_append, isXidWord, hall, Bool.and_true]
    simp

/-- The capitalised words of a legal name are made of characters that identifiers go on with. -/
lemma Ident.Legal.isXidContinue_capitalWords {i : Ident} (h : i.Legal) :
    ∀ c ∈ capitalWords i.name, Unicode.isXidContinue c = true := by
  have hcamel := forall_mem_camelLoop Unicode.isXidContinue_toUppercase
    Unicode.isXidContinue_toLowercase (isXidContinue_of_isXidWord h.word) true
  have heq := snakeToCamel_eq_capitalize i.name
  rw [snakeToCamel] at heq
  rw [String.ofList_injective heq] at hcamel
  exact Normalization.isXidContinue_nfc _ hcamel

/-- The types of a method that is not raw are named by its capitalised words. -/
lemma Ident.formatIdent_of_plain {i : Ident} (hi : i.raw = false) {s : String}
    (hs : s ∈ typeSuffixes) :
    (formatIdent (snakeToCamel i.toString ++ s)).toList = capitalWords i.name ++ s.toList := by
  have htext : i.toString = i.name := by simp [Ident.toString, hi]
  rw [formatIdent_append hs, htext, snakeToCamel_eq_capitalize, String.toList_ofList, capitalWords]

/-- The types of the trait are named by its name. -/
lemma Ident.Legal.formatIdent_append {i : Ident} (h : i.Legal) {s : String}
    (hs : s ∈ typeSuffixes) : (formatIdent (i.name ++ s)).toList = i.name.toList ++ s.toList := by
  rw [ZenohRpc.formatIdent_append hs, h.normal]

/-- The types of a raw method are named by no identifier: the `#` stays in the name. -/
lemma Ident.not_isIdentifier_of_raw {i : Ident} (hi : i.raw = true) {s : String}
    (hs : s ∈ typeSuffixes) :
    isIdentifier (formatIdent (snakeToCamel i.toString ++ s)) = false := by
  have hcamel : '#' ∈ (snakeToCamel i.toString).toList := by
    have htext : i.toString.toList = 'r' :: '#' :: i.name.toList := by
      simp [Ident.toString, hi]
    rw [snakeToCamel, String.toList_ofList, htext, camelLoop_cons (by decide),
      camelLoop_cons (by decide), camelChar, camelChar, if_neg Bool.false_ne_true,
      Unicode.toLowercase_ascii '#' (by decide)]
    simp
  have hmem : '#' ∈ (formatIdent (snakeToCamel i.toString ++ s)).toList := by
    rw [ZenohRpc.formatIdent_append hs]
    exact List.mem_append_left _ (Normalization.mem_nfc _ hcamel)
  have hnot : Unicode.isXidContinue '#' = false := Unicode.isXidContinue_ascii '#' (by decide)
  rw [Bool.eq_false_iff]
  intro h
  rw [isIdentifier, Bool.and_eq_true] at h
  rw [isXidContinue_of_isXidWord h.1 '#' hmem] at hnot
  cases hnot

/-! ## When the names are as they should be -/

namespace ServiceTrait

/-- The types of a trait: what is before the suffix of each, and the suffix. -/
def typeParts (t : ServiceTrait Span Ty) : List (List Char × String) :=
  (t.ident.name.toList, "Server") ::
    t.methods.map (fun m => (capitalWords m.ident.name, "Request")) ++
    t.methods.map (fun m => (capitalWords m.ident.name, "Response")) ++
    [(t.ident.name.toList, "ClientBuilder"), (t.ident.name.toList, "Client")]

/-- What a type is before its suffix is the name of the trait, or the words of a method. -/
lemma mem_typeParts {t : ServiceTrait Span Ty} {cs : List Char} {s : String} :
    (cs, s) ∈ t.typeParts ↔
      (cs = t.ident.name.toList ∧ s ∈ ["Server", "ClientBuilder", "Client"]) ∨
      ∃ m ∈ t.methods, cs = capitalWords m.ident.name ∧ s ∈ ["Request", "Response"] := by
  simp only [typeParts, List.mem_append, List.mem_cons, List.mem_map, Prod.mk.injEq,
    List.not_mem_nil, or_false]
  constructor
  · rintro (((h | ⟨m, hm, rfl, rfl⟩) | ⟨m, hm, rfl, rfl⟩) | h | h)
    · exact Or.inl ⟨h.1, Or.inl h.2⟩
    · exact Or.inr ⟨m, hm, rfl, Or.inl rfl⟩
    · exact Or.inr ⟨m, hm, rfl, Or.inr rfl⟩
    · exact Or.inl ⟨h.1, Or.inr (Or.inl h.2)⟩
    · exact Or.inl ⟨h.1, Or.inr (Or.inr h.2)⟩
  · rintro (⟨rfl, hs | hs | hs⟩ | ⟨m, hm, rfl, rfl | rfl⟩)
    · exact Or.inl (Or.inl (Or.inl ⟨rfl, hs⟩))
    · exact Or.inr (Or.inl ⟨rfl, hs⟩)
    · exact Or.inr (Or.inr ⟨rfl, hs⟩)
    · exact Or.inl (Or.inl (Or.inr ⟨m, hm, rfl, rfl⟩))
    · exact Or.inl (Or.inr ⟨m, hm, rfl, rfl⟩)

/-- The suffixes of the types are suffixes. -/
lemma mem_typeSuffixes_of_mem_typeParts {t : ServiceTrait Span Ty} {p : List Char × String}
    (hp : p ∈ t.typeParts) : p.2 ∈ typeSuffixes := by
  rcases mem_typeParts.mp hp with ⟨_, hs⟩ | ⟨m, _, _, hs⟩
  · exact (by decide : ["Server", "ClientBuilder", "Client"] ⊆ typeSuffixes) hs
  · exact (by decide : ["Request", "Response"] ⊆ typeSuffixes) hs

/-- The types of a trait without raw methods are named by their parts. -/
lemma typeNames_eq {t : ServiceTrait Span Ty} (h : ∀ m ∈ t.methods, m.ident.raw = false) :
    t.typeNames = t.typeParts.map fun p => String.ofList (p.1 ++ p.2.toList) := by
  have hmethods : ∀ s ∈ typeSuffixes, t.methods.map
      (fun m => formatIdent (snakeToCamel m.ident.toString ++ s)) = t.methods.map
      (fun m => String.ofList (capitalWords m.ident.name ++ s.toList)) := by
    intro s hs
    refine List.map_congr_left fun m hm => ?_
    rw [← Ident.formatIdent_of_plain (h m hm) hs, String.ofList_toList]
  have htrait : ∀ s ∈ typeSuffixes, formatIdent (t.ident.name ++ s) =
      String.ofList (t.ident.name.toList ++ s.toList) := by
    intro s hs
    rw [← t.legal.formatIdent_append hs, String.ofList_toList]
  have hrequest : t.methods.map RPCMethod.requestIdent = _ := hmethods "Request" (by decide)
  have hresponse : t.methods.map RPCMethod.responseIdent = _ := hmethods "Response" (by decide)
  simp only [typeNames, typeParts, List.map_cons, List.map_append, List.map_map, List.map_nil,
    Function.comp_def, serverIdent, clientIdent, clientBuilderIdent]
  rw [hrequest, hresponse, htrait "Server" (by decide), htrait "ClientBuilder" (by decide),
    htrait "Client" (by decide)]

/-- A trait whose types have names that are identifiers has no raw method. -/
lemma raw_eq_false {t : ServiceTrait Span Ty} (h : ∀ name ∈ t.typeNames, isIdentifier name = true)
    {m : RPCMethod Span Ty} (hm : m ∈ t.methods) : m.ident.raw = false := by
  rw [Bool.eq_false_iff]
  intro hraw
  have hmem : m.requestIdent ∈ t.typeNames := by
    refine List.mem_append_left _ (List.mem_append_left _ (List.mem_cons_of_mem _ ?_))
    exact List.mem_map_of_mem hm
  have hvalid := h _ hmem
  rw [RPCMethod.requestIdent, Ident.not_isIdentifier_of_raw hraw (by decide)] at hvalid
  cases hvalid

/-- The names of the types are identifiers exactly when what each method starts with starts an
identifier. -/
lemma valid_iff {t : ServiceTrait Span Ty} (h : ∀ m ∈ t.methods, m.ident.raw = false) :
    (∀ name ∈ t.typeNames, isIdentifier name = true) ↔
      ∀ m ∈ t.methods, ∀ c ∈ (capitalWords m.ident.name).head?, isIdentStart c = true := by
  rw [typeNames_eq h, List.forall_mem_map]
  constructor
  · intro hvalid m hm
    refine (isIdentifier_append_iff (s := "Request") (by decide) (String.toList_ofList ..)
      (t.methods_legal m hm).isXidContinue_capitalWords).mp ?_
    exact hvalid (capitalWords m.ident.name, "Request")
      (mem_typeParts.mpr (Or.inr ⟨m, hm, rfl, by decide⟩))
  · rintro hstart ⟨cs, s⟩ hp
    have hs := mem_typeSuffixes_of_mem_typeParts hp
    rcases mem_typeParts.mp hp with ⟨rfl, _⟩ | ⟨m, hm, rfl, _⟩
    · have hword := t.legal.word
      refine (isIdentifier_append_iff hs (String.toList_ofList ..)
        (isXidContinue_of_isXidWord hword)).mpr fun c hc => ?_
      obtain ⟨cs, hcs⟩ := List.head?_eq_some_iff.mp hc
      rw [hcs, isXidWord, Bool.and_eq_true] at hword
      exact hword.1
    · exact (isIdentifier_append_iff hs (String.toList_ofList ..)
        (t.methods_legal m hm).isXidContinue_capitalWords).mpr (hstart m hm)

/-- The names of the types are distinct exactly when no two methods have the same words. -/
lemma nodup_typeNames_iff {t : ServiceTrait Span Ty} (h : ∀ m ∈ t.methods, m.ident.raw = false) :
    t.typeNames.Nodup ↔ t.methods.Pairwise fun m m' =>
      capitalWords m.ident.name ≠ capitalWords m'.ident.name := by
  have hinj : ∀ p ∈ t.typeParts, ∀ q ∈ t.typeParts,
      String.ofList (p.1 ++ p.2.toList) = String.ofList (q.1 ++ q.2.toList) → p = q := by
    intro p hp q hq heq
    obtain ⟨hcs, hs⟩ := append_suffix_inj (mem_typeSuffixes_of_mem_typeParts hp)
      (mem_typeSuffixes_of_mem_typeParts hq) (String.ofList_injective heq)
    exact Prod.ext hcs hs
  have hmethods : ∀ s : String,
      (t.methods.map fun m => (capitalWords m.ident.name, s)).Nodup ↔ t.methods.Pairwise
        fun m m' => capitalWords m.ident.name ≠ capitalWords m'.ident.name := by
    intro s
    rw [List.Nodup, List.pairwise_map]
    simp only [ne_eq, Prod.mk.injEq, and_true]
  have hparts : t.typeParts.Nodup ↔ t.methods.Pairwise fun m m' =>
      capitalWords m.ident.name ≠ capitalWords m'.ident.name := by
    rw [typeParts, List.cons_append, List.cons_append, List.nodup_cons, List.append_assoc,
      List.nodup_append, List.nodup_append, hmethods, hmethods]
    constructor
    · exact fun hnodup => hnodup.2.1
    · intro hwords
      refine ⟨by simp, hwords, ⟨hwords, by simp, by simp⟩, ?_⟩
      -- no other type than a request has the suffix of one
      rintro p hp _ hq rfl
      obtain ⟨m, _, rfl⟩ := List.mem_map.mp hp
      simp at hq
  rw [typeNames_eq h, ← hparts]
  exact ⟨List.Nodup.of_map _, fun hnodup => hnodup.map_on hinj⟩

/-- No type has the name of the trait exactly when the trait is not named as the words of a method
and what is put behind them. -/
lemma ident_notMem_typeNames_iff {t : ServiceTrait Span Ty}
    (h : ∀ m ∈ t.methods, m.ident.raw = false) : t.ident.name ∉ t.typeNames ↔ ∀ m ∈ t.methods,
      t.ident.name.toList ≠ capitalWords m.ident.name ++ "Request".toList ∧
      t.ident.name.toList ≠ capitalWords m.ident.name ++ "Response".toList := by
  have hmem : t.ident.name ∈ t.typeNames ↔
      ∃ cs s, (cs, s) ∈ t.typeParts ∧ t.ident.name.toList = cs ++ s.toList := by
    rw [typeNames_eq h, List.mem_map, Prod.exists]
    refine exists_congr fun cs => exists_congr fun s => and_congr_right fun _ => ?_
    rw [← String.toList_inj, String.toList_ofList, eq_comm]
  rw [hmem]
  constructor
  · refine fun hnot m hm => ⟨fun heq => hnot ⟨_, _, ?_, heq⟩, fun heq => hnot ⟨_, _, ?_, heq⟩⟩
    · exact mem_typeParts.mpr (Or.inr ⟨m, hm, rfl, by decide⟩)
    · exact mem_typeParts.mpr (Or.inr ⟨m, hm, rfl, by decide⟩)
  · rintro happart ⟨cs, s, hp, heq⟩
    rcases mem_typeParts.mp hp with ⟨rfl, _⟩ | ⟨m, hm, rfl, hs⟩
    · exact ne_append_suffix (mem_typeSuffixes_of_mem_typeParts hp) heq
    · rcases List.mem_pair.mp hs with rfl | rfl
      · exact (happart m hm).1 heq
      · exact (happart m hm).2 heq

/-- The items of the client are distinct exactly when no method is named as another item. -/
lemma nodup_clientItems_iff (t : ServiceTrait Span Ty) : t.clientItems.Nodup ↔
    ∀ m ∈ t.methods, m.ident.name ∉ ["builder", "find_server", "extract_id_from_ke"] := by
  rw [clientItems, List.cons_append, List.nodup_cons, List.nodup_append]
  constructor
  · rintro ⟨hbuilder, -, -, hrest⟩ m hm hmem
    have hmethod := List.mem_map_of_mem (f := fun m => m.ident.name) hm
    rcases List.mem_cons.mp hmem with heq | hmem
    · exact hbuilder (List.mem_append_left _ (heq ▸ hmethod))
    · exact hrest _ hmethod _ hmem rfl
  · intro hitems
    refine ⟨?_, t.nodup, by decide, ?_⟩
    · rw [List.mem_append, List.mem_map]
      rintro (⟨m, hm, heq⟩ | hmem)
      · exact hitems m hm (by rw [heq]; decide)
      · exact absurd hmem (by decide)
    · rintro name hname _ hother rfl
      obtain ⟨m, hm, rfl⟩ := List.mem_map.mp hname
      exact hitems m hm (List.mem_cons_of_mem _ hother)

end ServiceTrait

/-- The names that are generated for a trait are as they should be exactly when no method is raw, or
starts with a digit, or has the words of another one, the trait is not named as the words of a
method and what is put behind them, and no method is named as an item of the client. -/
theorem namesOk_iff (t : ServiceTrait Span Ty) : t.NamesOk ↔ t.Apart := by
  constructor
  · rintro ⟨hvalid, hdistinct, hitems⟩
    have hplain : ∀ m ∈ t.methods, m.ident.raw = false :=
      fun m hm => ServiceTrait.raw_eq_false hvalid hm
    obtain ⟨hident, hnodup⟩ := List.nodup_cons.mp hdistinct
    exact
      { plain := hplain
        start := (ServiceTrait.valid_iff hplain).mp hvalid
        words := (ServiceTrait.nodup_typeNames_iff hplain).mp hnodup
        trait := (ServiceTrait.ident_notMem_typeNames_iff hplain).mp hident
        items := t.nodup_clientItems_iff.mp hitems }
  · rintro ⟨hplain, hstart, hwords, htrait, hitems⟩
    exact
      { valid := (ServiceTrait.valid_iff hplain).mpr hstart
        distinct := List.nodup_cons.mpr
          ⟨(ServiceTrait.ident_notMem_typeNames_iff hplain).mpr htrait,
            (ServiceTrait.nodup_typeNames_iff hplain).mpr hwords⟩
        items := t.nodup_clientItems_iff.mpr hitems }

end

namespace Reference

/-- ASCII is normalised. -/
scoped instance normalization : Normalization where
  nfc := id
  nfc_nil := rfl
  nfc_append_ascii _ _ _ := rfl
  mem_nfc _ h := h
  isXidContinue_nfc _ h := h

/-- The method `async fn name(&self);`. -/
def method (ident : Ident) : RPCMethod Unit String :=
  ⟨ident, ⟨(), some none, false, none⟩, [], none⟩

/-- The identifiers `v1` and `v_1`. -/
def versions : List Ident :=
  [⟨false, "v1", by decide, List.all_eq_true.mp (by decide)⟩,
    ⟨false, "v_1", by decide, List.all_eq_true.mp (by decide)⟩]

/-- The trait `Echo`, with the methods `v1` and `v_1`. -/
def echo : ServiceTrait Unit String where
  ident := ⟨false, "Echo", by decide, List.all_eq_true.mp (by decide)⟩
  methods := versions.map method
  legal := ⟨by decide, rfl, by decide⟩
  methods_legal := by
    intro m hm
    simp only [versions, List.map_cons, List.map_nil, List.mem_cons, List.not_mem_nil,
      or_false] at hm
    rcases hm with rfl | rfl <;> exact ⟨by decide, rfl, by decide⟩
  methods_parsed := by
    intro m hm
    obtain ⟨ident, -, rfl⟩ := List.mem_map.mp hm
    exact ⟨(), [.receiver ⟨(), some none, false, none⟩], rfl⟩
  nodup := by decide

end Reference

open Reference in
/-- The requests of the methods `v1` and `v_1` have the same name. -/
theorem not_namesOk_echo : ¬Reference.echo.NamesOk := by
  intro h
  exact absurd h.distinct (by decide)

end ZenohRpc
