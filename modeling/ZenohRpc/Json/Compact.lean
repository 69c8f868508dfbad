import ZenohRpc.Json.Document

/-!
# Compact JSON text

`print` writes a document without white space, escaping in strings what JSON requires (the quote,
the backslash and the control characters), and `parse` reads such a text back.  The parser walks
the text with fuel; `parse_print` says that the length of the text is fuel enough and that nothing
is lost: the text of a document, whatever its strings and however it nests, reads back as that
document.
-/

namespace Json

namespace Compact

/-! ## Digits -/

/-- The digits at the head of a text, and what follows them. -/
def spanDigits (cs : List Char) : List Char × List Char :=
  (cs.takeWhile Char.isDigit, cs.dropWhile Char.isDigit)

/-- A natural number at the head of a text. -/
def parseNat (cs : List Char) : Option (ℕ × List Char) :=
  match spanDigits cs with
  | ([], _) => none
  | (ds, rest) => some (Nat.ofDigitChars 10 ds 0, rest)

/-- An integer at the head of a text. -/
def parseInt : List Char → Option (ℤ × List Char)
  | '-' :: cs => (parseNat cs).map fun p => (-(p.1 : ℤ), p.2)
  | cs => (parseNat cs).map fun p => ((p.1 : ℤ), p.2)

/-- The decimal digits of an integer, with a sign in front when it is negative. -/
def printInt (n : ℤ) : List Char :=
  if n < 0 then '-' :: Nat.toDigits 10 n.natAbs else Nat.toDigits 10 n.natAbs

/-- A text that does not go on with a digit. -/
def NoDigit (cs : List Char) : Prop := ∀ c ∈ cs.head?, c.isDigit = false

/-- Digits followed by something else are cut off exactly. -/
lemma spanDigits_append {ds rest : List Char} (hds : ∀ c ∈ ds, c.isDigit = true)
    (hrest : NoDigit rest) : spanDigits (ds ++ rest) = (ds, rest) := by
  have htake : rest.takeWhile Char.isDigit = [] := by
    cases rest with
    | nil => rfl
    | cons c cs => simp [hrest c rfl]
  have hdrop : rest.dropWhile Char.isDigit = rest := by
    cases rest with
    | nil => rfl
    | cons c cs => simp [hrest c rfl]
  rw [spanDigits, List.takeWhile_append_of_pos hds, List.dropWhile_append_of_pos hds, htake, hdrop,
    List.append_nil]

/-- The digits of a number read back as that number. -/
lemma parseNat_toDigits (n : ℕ) {rest : List Char} (hrest : NoDigit rest) :
    parseNat (Nat.toDigits 10 n ++ rest) = some (n, rest) := by
  have hds : ∀ c ∈ Nat.toDigits 10 n, c.isDigit = true := fun c hc =>
    Nat.isDigit_of_mem_toDigits (by omega) (by omega) hc
  rw [parseNat, spanDigits_append hds hrest]
  cases h : Nat.toDigits 10 n with
  | nil => exact absurd h Nat.toDigits_ne_nil
  | cons d ds => simp only [← h, Nat.ofDigitChars_ten_toDigits]

/-- A text that starts with a digit holds no sign. -/
lemma parseInt_of_isDigit {cs : List Char} (h : ∃ c tail, cs = c :: tail ∧ c.isDigit = true) :
    parseInt cs = (parseNat cs).map fun p => ((p.1 : ℤ), p.2) := by
  obtain ⟨c, tail, rfl, hc⟩ := h
  unfold parseInt
  split
  · simp_all
  · rfl

/-- A printed integer starts with a sign or a digit. -/
lemma printInt_head (n : ℤ) :
    ∃ c cs, printInt n = c :: cs ∧ (c = '-' ∨ c.isDigit = true) := by
  unfold printInt
  split
  · exact ⟨'-', _, rfl, Or.inl rfl⟩
  · cases h : Nat.toDigits 10 n.natAbs with
    | nil => exact absurd h Nat.toDigits_ne_nil
    | cons d ds =>
      refine ⟨d, ds, rfl, Or.inr ?_⟩
      exact Nat.isDigit_of_mem_toDigits (by omega) (by omega) (h ▸ List.mem_cons_self)

/-- A printed integer reads back. -/
lemma parseInt_printInt (n : ℤ) {rest : List Char} (hrest : NoDigit rest) :
    parseInt (printInt n ++ rest) = some (n, rest) := by
  unfold printInt
  split
  · rename_i hneg
    rw [List.cons_append, parseInt, parseNat_toDigits _ hrest]
    simp only [Option.map_some, Option.some.injEq, Prod.mk.injEq, and_true]
    omega
  · rename_i hpos
    have hhead : ∃ c tail, Nat.toDigits 10 n.natAbs ++ rest = c :: tail ∧ c.isDigit = true := by
      cases h : Nat.toDigits 10 n.natAbs with
      | nil => exact absurd h Nat.toDigits_ne_nil
      | cons d ds =>
        refine ⟨d, ds ++ rest, rfl, ?_⟩
        exact Nat.isDigit_of_mem_toDigits (by omega) (by omega) (h ▸ List.mem_cons_self)
    rw [parseInt_of_isDigit hhead, parseNat_toDigits _ hrest]
    simp only [Option.map_some, Option.some.injEq, Prod.mk.injEq, and_true]
    omega

/-! ## Strings -/

/-- A hexadecimal digit, in lower case. -/
def hexDigit (n : ℕ) : Char := Nat.digitChar n

/-- The value of a hexadecimal digit in either case. -/
def hexValue (c : Char) : Option ℕ :=
  if c.isDigit then some (c.toNat - '0'.toNat)
  else if 'a' ≤ c ∧ c ≤ 'f' then some (c.toNat - 'a'.toNat + 10)
  else if 'A' ≤ c ∧ c ≤ 'F' then some (c.toNat - 'A'.toNat + 10)
  else none

/-- How a character is written inside a string. -/
def escape (c : Char) : List Char :=
  if c = '"' then ['\\', '"']
  else if c = '\\' then ['\\', '\\']
  else if c = '\n' then ['\\', 'n']
  else if c = '\r' then ['\\', 'r']
  else if c = '\t' then ['\\', 't']
  else if c.toNat = 8 then ['\\', 'b']
  else if c.toNat = 12 then ['\\', 'f']
  else if c.toNat < 32 then
    ['\\', 'u', '0', '0', hexDigit (c.toNat / 16), hexDigit (c.toNat % 16)]
  else [c]

/-- The character an escape letter stands for. -/
def unescape : Char → Option Char
  | '"' => some '"'
  | '\\' => some '\\'
  | '/' => some '/'
  | 'n' => some '\n'
  | 'r' => some '\r'
  | 't' => some '\t'
  | 'b' => some (Char.ofNat 8)
  | 'f' => some (Char.ofNat 12)
  | _ => none

/-- One character of a string, written plainly or escaped.  Escapes of surrogates are not read:
`print` writes none. -/
def parseChar : List Char → Option (Char × List Char)
  | '\\' :: 'u' :: a :: b :: c :: d :: rest => do
    let n := 4096 * (← hexValue a) + 256 * (← hexValue b) + 16 * (← hexValue c) + (← hexValue d)
    if n.isValidChar then some (Char.ofNat n, rest) else none
  | '\\' :: c :: rest => (unescape c).map fun e => (e, rest)
  | c :: rest => if c = '"' ∨ c.toNat < 32 then none else some (c, rest)
  | [] => none

/-- The characters of a string up to its closing quote. -/
def parseChars : ℕ → List Char → Option (List Char × List Char)
  | 0, _ => none
  | _ + 1, '"' :: rest => some ([], rest)
  | fuel + 1, cs => do
    let (c, rest) ← parseChar cs
    let (tail, rest) ← parseChars fuel rest
    some (c :: tail, rest)

/-- A string, with its quotes. -/
def printString (s : String) : List Char := '"' :: s.toList.flatMap escape ++ ['"']

/-- A string whose opening quote has been read. -/
def parseString (cs : List Char) : Option (String × List Char) :=
  (parseChars (cs.length + 1) cs).map fun p => (String.ofList p.1, p.2)

/-- A hexadecimal digit reads back. -/
lemma hexValue_hexDigit : ∀ n < 16, hexValue (hexDigit n) = some n := by
  decide

/-- A control character is rebuilt from its two hexadecimal digits. -/
lemma parseChar_control {c : Char} (hc : c.toNat < 32) (rest : List Char) :
    parseChar ('\\' :: 'u' :: '0' :: '0' :: hexDigit (c.toNat / 16) ::
      hexDigit (c.toNat % 16) :: rest) = some (c, rest) := by
  have hhigh : hexValue (hexDigit (c.toNat / 16)) = some (c.toNat / 16) :=
    hexValue_hexDigit _ (by omega)
  have hlow : hexValue (hexDigit (c.toNat % 16)) = some (c.toNat % 16) :=
    hexValue_hexDigit _ (by omega)
  have hzero : hexValue '0' = some 0 := by decide
  have hvalue : 4096 * 0 + 256 * 0 + 16 * (c.toNat / 16) + c.toNat % 16 = c.toNat := by omega
  have hvalid : c.toNat.isValidChar := Or.inl (by omega)
  simp only [parseChar, hhigh, hlow, hzero, Option.bind_eq_bind, Option.bind_some, hvalue, hvalid,
    if_true, Char.ofNat_toNat]

/-- An escaped character reads back. -/
lemma parseChar_escape (c : Char) (rest : List Char) :
    parseChar (escape c ++ rest) = some (c, rest) := by
  unfold escape
  split_ifs with h1 h2 h3 h4 h5 h6 h7 h8
  · subst h1; rfl
  · subst h2; rfl
  · subst h3; rfl
  · subst h4; rfl
  · subst h5; rfl
  · have hc : c = Char.ofNat 8 := by rw [← h6, Char.ofNat_toNat]
    subst hc; rfl
  · have hc : c = Char.ofNat 12 := by rw [← h7, Char.ofNat_toNat]
    subst hc; rfl
  · exact parseChar_control h8 rest
  · have hplain : ¬(c = '"' ∨ c.toNat < 32) := by tauto
    rw [List.cons_append, List.nil_append]
    unfold parseChar
    split
    · simp_all
    · simp_all
    · rename_i heq
      obtain ⟨rfl, rfl⟩ := List.cons.inj heq
      rw [if_neg hplain]
    · simp_all

/-- An escaped character does not start with the closing quote, and is not empty. -/
lemma escape_head (c : Char) : ∃ d ds, escape c = d :: ds ∧ d ≠ '"' := by
  unfold escape
  split_ifs with h1
  case neg => exact ⟨c, [], rfl, h1⟩
  all_goals exact ⟨'\\', _, rfl, by decide⟩

/-- The characters of a string read back up to the closing quote. -/
lemma parseChars_escape (cs : List Char) (rest : List Char) :
    ∀ fuel, (cs.flatMap escape).length < fuel →
      parseChars fuel (cs.flatMap escape ++ '"' :: rest) = some (cs, rest) := by
  induction cs with
  | nil =>
    intro fuel hfuel
    obtain ⟨fuel, rfl⟩ : ∃ f, fuel = f + 1 := ⟨fuel - 1, by simp at hfuel; omega⟩
    rfl
  | cons c cs ih =>
    intro fuel hfuel
    obtain ⟨d, ds, hd, hquote⟩ := escape_head c
    obtain ⟨fuel, rfl⟩ : ∃ f, fuel = f + 1 := ⟨fuel - 1, by omega⟩
    have hlen : (cs.flatMap escape).length < fuel := by
      simp only [List.flatMap_cons, List.length_append, hd, List.length_cons] at hfuel
      omega
    have hchar := parseChar_escape c (cs.flatMap escape ++ '"' :: rest)
    have htext : (c :: cs).flatMap escape ++ '"' :: rest =
        d :: (ds ++ (cs.flatMap escape ++ '"' :: rest)) := by
      rw [List.flatMap_cons, hd, List.cons_append, List.cons_append, List.append_assoc]
    rw [hd, List.cons_append] at hchar
    rw [htext, parseChars, hchar]
    · simp only [Option.bind_eq_bind, Option.bind_some, ih fuel hlen]
    · rintro tail heq
      exact hquote (List.cons.inj heq).1

/-- A printed string reads back. -/
lemma parseString_printString (s : String) (rest : List Char) :
    parseString (s.toList.flatMap escape ++ '"' :: rest) = some (s, rest) := by
  have hfuel : (s.toList.flatMap escape).length <
      (s.toList.flatMap escape ++ '"' :: rest).length + 1 := by
    rw [List.length_append]
    omega
  rw [parseString, parseChars_escape s.toList rest _ hfuel]
  simp

/-! ## Documents -/

mutual
/-- The compact text of a document. -/
def printValue : Document → List Char
  | .null => ['n', 'u', 'l', 'l']
  | .bool true => ['t', 'r', 'u', 'e']
  | .bool false => ['f', 'a', 'l', 's', 'e']
  | .int n => printInt n
  | .decimal m e => printInt m ++ 'e' :: printInt e
  | .str s => printString s
  | .arr [] => ['[', ']']
  | .arr (d :: ds) => '[' :: printValue d ++ printElems ds
  | .obj [] => ['{', '}']
  | .obj ((name, d) :: ms) => '{' :: printString name ++ ':' :: printValue d ++ printMembers ms

/-- The elements of an array after the first, each behind its comma, and the closing bracket. -/
def printElems : List Document → List Char
  | [] => [']']
  | d :: ds => ',' :: printValue d ++ printElems ds

/-- The members of an object after the first, each behind its comma, and the closing brace. -/
def printMembers : List (String × Document) → List Char
  | [] => ['}']
  | (name, d) :: ms => ',' :: printString name ++ ':' :: printValue d ++ printMembers ms
end

/-- A number at the head of a text: an integer, or a mantissa with an exponent behind it. -/
def parseNumber (cs : List Char) : Option (Document × List Char) := do
  let (m, rest) ← parseInt cs
  match rest with
  | 'e' :: rest => (parseInt rest).map fun p => (.decimal m p.1, p.2)
  | rest => some (.int m, rest)

/-- A member's name, from its opening quote to the colon behind it. -/
def parseName : List Char → Option (String × List Char)
  | '"' :: cs => do
    match ← parseString cs with
    | (name, ':' :: rest) => some (name, rest)
    | _ => none
  | _ => none

mutual
/-- A document at the head of a text. -/
def parseValue : ℕ → List Char → Option (Document × List Char)
  | 0, _ => none
  | fuel + 1, cs =>
    match cs with
    | 'n' :: 'u' :: 'l' :: 'l' :: rest => some (.null, rest)
    | 't' :: 'r' :: 'u' :: 'e' :: rest => some (.bool true, rest)
    | 'f' :: 'a' :: 'l' :: 's' :: 'e' :: rest => some (.bool false, rest)
    | '"' :: rest => (parseString rest).map fun p => (.str p.1, p.2)
    | '[' :: ']' :: rest => some (.arr [], rest)
    | '[' :: rest => do
      let (d, rest) ← parseValue fuel rest
      let (ds, rest) ← parseElems fuel rest
      some (.arr (d :: ds), rest)
    | '{' :: '}' :: rest => some (.obj [], rest)
    | '{' :: rest => do
      let (name, rest) ← parseName rest
      let (d, rest) ← parseValue fuel rest
      let (ms, rest) ← parseMembers fuel rest
      some (.obj ((name, d) :: ms), rest)
    | cs => parseNumber cs

/-- What follows an element of an array, up to the closing bracket. -/
def parseElems : ℕ → List Char → Option (List Document × List Char)
  | 0, _ => none
  | fuel + 1, cs =>
    match cs with
    | ']' :: rest => some ([], rest)
    | ',' :: rest => do
      let (d, rest) ← parseValue fuel rest
      let (ds, rest) ← parseElems fuel rest
      some (d :: ds, rest)
    | _ => none

/-- What follows a member of an object, up to the closing brace. -/
def parseMembers : ℕ → List Char → Option (List (String × Document) × List Char)
  | 0, _ => none
  | fuel + 1, cs =>
    match cs with
    | '}' :: rest => some ([], rest)
    | ',' :: rest => do
      let (name, rest) ← parseName rest
      let (d, rest) ← parseValue fuel rest
      let (ms, rest) ← parseMembers fuel rest
      some ((name, d) :: ms, rest)
    | _ => none
end

/-- The compact text of a document. -/
def print (d : Document) : String := String.ofList (printValue d)

/-- The document a text denotes, when the text is that document and nothing more. -/
def parse (s : String) : Option Document :=
  match parseValue (s.toList.length + 1) s.toList with
  | some (d, []) => some d
  | _ => none

/-! ## The round trip -/

/-- What may stand behind a document: the end of the text, a comma, or a closing bracket or
brace. -/
def Follow (cs : List Char) : Prop := ∀ c ∈ cs.head?, c = ',' ∨ c = ']' ∨ c = '}'

lemma follow_nil : Follow [] := by simp [Follow]

/-- Whatever follows a document starts with no digit. -/
lemma Follow.noDigit {cs : List Char} (h : Follow cs) : NoDigit cs := by
  intro c hc
  rcases h c hc with rfl | rfl | rfl <;> rfl

/-- What follows an element may follow a document. -/
lemma follow_printElems (ds : List Document) (rest : List Char) :
    Follow (printElems ds ++ rest) := by
  cases ds <;> simp [printElems, Follow]

/-- What follows a member may follow a document. -/
lemma follow_printMembers (ms : List (String × Document)) (rest : List Char) :
    Follow (printMembers ms ++ rest) := by
  rcases ms with _ | ⟨⟨name, d⟩, ms⟩ <;> simp [printMembers, Follow]

/-- A printed name reads back, with its colon. -/
lemma parseName_printString (name : String) (rest : List Char) :
    parseName (printString name ++ ':' :: rest) = some (name, rest) := by
  have htext : printString name ++ ':' :: rest =
      '"' :: (name.toList.flatMap escape ++ '"' :: ':' :: rest) := by
    simp [printString]
  rw [htext, parseName, parseString_printString]
  rfl

/-- The text of a document never starts like the end of an array. -/
lemma printValue_head (d : Document) : ∃ c cs, printValue d = c :: cs ∧ c ≠ ']' := by
  have hsign : ∀ n : ℤ, ∃ c cs, printInt n = c :: cs ∧ c ≠ ']' := by
    intro n
    obtain ⟨c, cs, hcs, hc⟩ := printInt_head n
    refine ⟨c, cs, hcs, ?_⟩
    rintro rfl
    rcases hc with hc | hc <;> revert hc <;> decide
  rcases d with _ | (_ | _) | n | ⟨m, e⟩ | s | (_ | ⟨d, ds⟩) | (_ | ⟨⟨name, d⟩, ms⟩)
  case int => simpa [printValue] using hsign n
  case decimal =>
    obtain ⟨c, cs, hcs, hc⟩ := hsign m
    exact ⟨c, cs ++ 'e' :: printInt e, by rw [printValue, hcs, List.cons_append], hc⟩
  all_goals exact ⟨_, _, by simp only [printValue, printString, List.cons_append]; rfl, by decide⟩

/-- A text that starts with a sign or a digit is read as a number. -/
lemma parseValue_number (fuel : ℕ) {cs : List Char}
    (h : ∃ c tail, cs = c :: tail ∧ (c = '-' ∨ c.isDigit = true)) :
    parseValue (fuel + 1) cs = parseNumber cs := by
  obtain ⟨c, tail, rfl, hc⟩ := h
  have hne : c ≠ 'n' ∧ c ≠ 't' ∧ c ≠ 'f' ∧ c ≠ '"' ∧ c ≠ '[' ∧ c ≠ '{' := by
    refine ⟨?_, ?_, ?_, ?_, ?_, ?_⟩ <;> rintro rfl <;> revert hc <;> decide
  rw [parseValue] <;> simp_all

mutual
/-- The text of a document reads back as that document, whatever may follow it. -/
theorem parseValue_printValue (rest : List Char) (hrest : Follow rest) :
    ∀ (d : Document) (fuel : ℕ), (printValue d).length < fuel →
      parseValue fuel (printValue d ++ rest) = some (d, rest)
  | .null, _ + 1, _ => by simp [printValue, parseValue]
  | .bool true, _ + 1, _ => by simp [printValue, parseValue]
  | .bool false, _ + 1, _ => by simp [printValue, parseValue]
  | .int n, fuel + 1, _ => by
    obtain ⟨c, cs, hcs, hc⟩ := printInt_head n
    rw [printValue, parseValue_number fuel ⟨c, cs ++ rest, by rw [hcs, List.cons_append], hc⟩,
      parseNumber, parseInt_printInt n hrest.noDigit]
    simp only [Option.bind_eq_bind, Option.bind_some]
    split
    · rename_i tail
      exact absurd (hrest 'e' rfl) (by decide)
    · rfl
  | .decimal m e, fuel + 1, _ => by
    obtain ⟨c, cs, hcs, hc⟩ := printInt_head m
    have htext : printInt m ++ 'e' :: printInt e ++ rest =
        printInt m ++ ('e' :: (printInt e ++ rest)) := by simp
    have hexp : NoDigit ('e' :: (printInt e ++ rest)) := by intro c hc; cases hc; rfl
    have hhead : ∃ c tail, printInt m ++ ('e' :: (printInt e ++ rest)) = c :: tail ∧
        (c = '-' ∨ c.isDigit = true) :=
      ⟨c, cs ++ ('e' :: (printInt e ++ rest)), by rw [hcs, List.cons_append], hc⟩
    rw [printValue, htext, parseValue_number fuel hhead, parseNumber, parseInt_printInt m hexp]
    simp only [Option.bind_eq_bind, Option.bind_some, parseInt_printInt e hrest.noDigit,
      Option.map_some]
  | .str s, _ + 1, _ => by
    have htext : printString s ++ rest = '"' :: (s.toList.flatMap escape ++ '"' :: rest) := by
      simp [printString]
    rw [printValue, htext, parseValue, parseString_printString, Option.map_some]
  | .arr [], _ + 1, _ => by simp [printValue, parseValue]
  | .arr (d :: ds), fuel + 1, hfuel => by
    simp only [printValue, List.length_cons, List.length_append, List.cons_append] at hfuel
    have hd := parseValue_printValue (printElems ds ++ rest) (follow_printElems ds rest) d fuel
      (by omega)
    have hds := parseElems_printElems rest ds fuel (by omega)
    obtain ⟨c, cs, hcs, hc⟩ := printValue_head d
    have htext : printValue (.arr (d :: ds)) ++ rest =
        '[' :: (printValue d ++ (printElems ds ++ rest)) := by simp [printValue]
    rw [htext, parseValue]
    · simp only [hd, hds, Option.bind_eq_bind, Option.bind_some]
    · rintro tail heq
      rw [hcs, List.cons_append] at heq
      exact hc (List.cons.inj heq).1
  | .obj [], _ + 1, _ => by simp [printValue, parseValue]
  | .obj ((name, d) :: ms), fuel + 1, hfuel => by
    simp only [printValue, List.length_cons, List.length_append, List.cons_append] at hfuel
    have hname := parseName_printString name (printValue d ++ (printMembers ms ++ rest))
    have hd := parseValue_printValue (printMembers ms ++ rest) (follow_printMembers ms rest) d fuel
      (by omega)
    have hms := parseMembers_printMembers rest ms fuel (by omega)
    have htext : printValue (.obj ((name, d) :: ms)) ++ rest =
        '{' :: (printString name ++ ':' :: (printValue d ++ (printMembers ms ++ rest))) := by
      simp [printValue]
    rw [htext, parseValue]
    · simp only [hname, hd, hms, Option.bind_eq_bind, Option.bind_some]
    · rintro tail heq
      exact absurd (List.cons.inj heq).1 (by decide)

/-- The elements behind the first read back, up to the closing bracket. -/
theorem parseElems_printElems (rest : List Char) :
    ∀ (ds : List Document) (fuel : ℕ), (printElems ds).length < fuel →
      parseElems fuel (printElems ds ++ rest) = some (ds, rest)
  | [], _ + 1, _ => by simp [printElems, parseElems]
  | d :: ds, fuel + 1, hfuel => by
    simp only [printElems, List.length_cons, List.length_append, List.cons_append] at hfuel
    have hd := parseValue_printValue (printElems ds ++ rest) (follow_printElems ds rest) d fuel
      (by omega)
    have hds := parseElems_printElems rest ds fuel (by omega)
    have htext : printElems (d :: ds) ++ rest =
        ',' :: (printValue d ++ (printElems ds ++ rest)) := by simp [printElems]
    rw [htext, parseElems]
    simp only [hd, hds, Option.bind_eq_bind, Option.bind_some]

/-- The members behind the first read back, up to the closing brace. -/
theorem parseMembers_printMembers (rest : List Char) :
    ∀ (ms : List (String × Document)) (fuel : ℕ), (printMembers ms).length < fuel →
      parseMembers fuel (printMembers ms ++ rest) = some (ms, rest)
  | [], _ + 1, _ => by simp [printMembers, parseMembers]
  | (name, d) :: ms, fuel + 1, hfuel => by
    simp only [printMembers, List.length_cons, List.length_append, List.cons_append] at hfuel
    have hname := parseName_printString name (printValue d ++ (printMembers ms ++ rest))
    have hd := parseValue_printValue (printMembers ms ++ rest) (follow_printMembers ms rest) d fuel
      (by omega)
    have hms := parseMembers_printMembers rest ms fuel (by omega)
    have htext : printMembers ((name, d) :: ms) ++ rest =
        ',' :: (printString name ++ ':' :: (printValue d ++ (printMembers ms ++ rest))) := by
      simp [printMembers]
    rw [htext, parseMembers]
    simp only [hname, hd, hms, Option.bind_eq_bind, Option.bind_some]
end

/-- Printing loses nothing: every document reads back from its text. -/
theorem parse_print (d : Document) : parse (print d) = some d := by
  have hvalue := parseValue_printValue [] follow_nil d ((printValue d).length + 1) (by omega)
  rw [List.append_nil] at hvalue
  rw [parse, print, String.toList_ofList, hvalue]

/-- The empty text denotes no document. -/
lemma parse_empty : parse "" = none := by
  decide

end Compact

end Json
