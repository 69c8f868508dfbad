import ZenohRpc.Wire.Status

/-!
# Reading and writing bytes

`zrpc/src/serialize.rs` with the default `resp_json` feature: a value is written as the UTF-8 text
of its document, and bytes are read by checking that they are UTF-8 and reading the text.
-/

namespace ZenohRpc

open Json

/-- `Vec<u8>`. -/
abbrev Bytes := List UInt8

/-- `String::into_bytes`. -/
def intoBytes (s : String) : Bytes := s.toByteArray.data.toList

/-- `std::str::from_utf8`. -/
def fromUtf8 (raw : Bytes) : Option String := String.fromUTF8? ⟨raw.toArray⟩

/-- The bytes of a string are its UTF-8 encoding. -/
lemma fromUtf8_intoBytes (s : String) : fromUtf8 (intoBytes s) = some s := by
  simp [fromUtf8, intoBytes, String.fromUTF8?, String.fromUTF8, s.isValidUTF8]

/-- No bytes are the empty text. -/
lemma fromUtf8_nil : fromUtf8 [] = some "" := fromUtf8_intoBytes ""

section

variable [Runtime] {T : Type} [Serde T]

/-- `serialize`. -/
def serialize (data : T) : ZRPCResult Bytes :=
  match Serde.toDocument data with
  | .error err => .error (.serializationError err)
  | .ok d => .ok (intoBytes (TextFormat.print d))

variable (T) in
/-- `deserialize`. -/
def deserialize (rawData : Bytes) : ZRPCResult T :=
  match fromUtf8 rawData with
  | none => .error (.deserializationError (Runtime.explainUtf8 rawData))
  | some s =>
    match (TextFormat.parse s).bind (readWithin T maxDepth) with
    | none => .error (.serializationError (TextFormat.explain T s))
    | some t => .ok t

/-- Bytes that were written from a document are read through that document, when the reader does not
enter too many levels of it. -/
lemma deserialize_intoBytes (d : Document) :
    deserialize T (intoBytes (TextFormat.print d)) =
      if Serde.levels T d ≤ maxDepth then
        match (Serde.ofDocument d : Option T) with
        | none => .error (.serializationError (TextFormat.explain T (TextFormat.print d)))
        | some t => .ok t
      else .error (.serializationError (TextFormat.explain T (TextFormat.print d))) := by
  simp only [deserialize, fromUtf8_intoBytes, TextFormat.parse_print, Option.bind_some, readWithin]
  by_cases hd : Serde.levels T d ≤ maxDepth
  · simp only [if_pos hd]
  · simp only [if_neg hd]

/-- A value that round-trips is written, and reads back from what is written. -/
lemma deserialize_serialize {data : T} (h : RoundTrips maxDepth data) :
    ∃ raw, serialize data = .ok raw ∧ deserialize T raw = .ok data := by
  obtain ⟨d, hto, hof, hd⟩ := h
  refine ⟨intoBytes (TextFormat.print d), by rw [serialize, hto], ?_⟩
  rw [deserialize_intoBytes, if_pos hd, hof]

/-- A value that reads back as something from what was written of another is what becomes of that
other value over its document. -/
lemma reread_of_deserialize {data data' : T} {raw : Bytes} (hraw : serialize data = .ok raw)
    (h : deserialize T raw = .ok data') : reread data = some data' := by
  rw [serialize] at hraw
  cases hto : Serde.toDocument data with
  | error err => rw [hto] at hraw; cases hraw
  | ok d =>
    rw [hto] at hraw
    obtain rfl := Except.ok.inj hraw
    rw [deserialize_intoBytes] at h
    rw [reread_of_toDocument hto]
    split at h
    · cases hof : (Serde.ofDocument d : Option T) with
      | none => rw [hof] at h; cases h
      | some t => rw [hof] at h; rw [Except.ok.inj h]
    · cases h

/-- No bytes are no value. -/
lemma deserialize_nil (t : T) : deserialize T [] ≠ .ok t := by
  simp [deserialize, fromUtf8_nil, TextFormat.parse_empty]

end

end ZenohRpc
