import ZenohRpc.Reference

/-!
# What survives the wire

`serialize` builds bytes from a string, `deserialize` checks bytes for UTF-8 and reads the string.
The two are inverse of each other on every wire message and on every server metadata.  A request or
a response adds one level of nesting around its message, and the reader bounds the nesting: it
survives exactly when its message survives on its own and is read below that bound.
-/

namespace ZenohRpc

open Json Document

section

variable [Runtime] {T : Type} [Serde T]

/-- A value that is written, and read back as it was. -/
def SurvivesWire (v : T) : Prop := ∃ raw, serialize v = .ok raw ∧ deserialize T raw = .ok v

/-- A value whose document is read within less than `n` levels. -/
def NestsBelow (n : ℕ) (v : T) : Prop := ∀ d, Serde.toDocument v = .ok d → Serde.levels T d < n

/-- A value survives the wire exactly when its document reads back, within the levels of the
reader. -/
lemma survivesWire_iff (v : T) : SurvivesWire v ↔ RoundTrips maxDepth v := by
  refine ⟨?_, deserialize_serialize⟩
  rintro ⟨raw, hraw, hread⟩
  rw [serialize] at hraw
  cases hto : Serde.toDocument v with
  | error err => rw [hto] at hraw; cases hraw
  | ok d =>
    rw [hto] at hraw
    obtain rfl := Except.ok.inj hraw
    rw [deserialize_intoBytes] at hread
    split at hread
    · rename_i hdepth
      cases hof : (Serde.ofDocument d : Option T) with
      | none => rw [hof] at hread; cases hread
      | some t =>
        rw [hof] at hread
        rw [Except.ok.inj hread] at hof
        exact ⟨d, hto, hof, hdepth⟩
    · cases hread

/-- The bytes of a value that survives are not empty. -/
lemma SurvivesWire.exists_payload {v : T} (h : SurvivesWire v) :
    ∃ pl, serialize v = .ok pl ∧ pl ≠ [] ∧ deserialize T pl = .ok v := by
  obtain ⟨pl, hpl, hread⟩ := h
  refine ⟨pl, hpl, ?_, hread⟩
  rintro rfl
  exact deserialize_nil v hread

/-- A record of metadata and a message survives exactly when the message survives on its own, and
leaves a level for the record. -/
lemma survivesWire_record_iff {δ : Type} [Serde δ] {make : StringMap → T → δ}
    (hto : ∀ metadata v, Serde.toDocument (make metadata v) =
      writeRecord₂ "metadata" "message" metadata v)
    (hof : Serde.ofDocument = readRecord₂ "metadata" "message" make)
    (hlevels : Serde.levels δ = levelsRecord₂ StringMap T "metadata" "message")
    (hmake : ∀ metadata, Function.Injective (make metadata)) (metadata : StringMap) (v : T) :
    SurvivesWire (make metadata v) ↔ SurvivesWire v ∧ NestsBelow maxDepth v := by
  simp only [survivesWire_iff]
  constructor
  · rintro ⟨d, hwrite, hread, hdepth⟩
    rw [hto] at hwrite
    rw [hlevels] at hdepth
    obtain ⟨dv, hdv, hlt⟩ := exists_of_writeRecord₂ (by decide) hwrite
    rw [hof, readRecord₂_writeRecord₂ (by decide) make hwrite,
      (roundTrips_stringMap metadata).reread_eq] at hread
    have hv : reread v = some v := by
      cases hreread : reread v with
      | none => rw [hreread] at hread; cases hread
      | some v' =>
        rw [hreread] at hread
        rw [hmake metadata (Option.some.inj hread)]
    rw [reread_of_toDocument hdv] at hv
    refine ⟨⟨dv, hdv, hv, by omega⟩, fun d' hd' => ?_⟩
    rw [hdv] at hd'
    obtain rfl := Except.ok.inj hd'
    omega
  · rintro ⟨⟨dv, hdv, hread, _⟩, hnests⟩
    have hlt := hnests dv hdv
    have hmessage : RoundTrips (maxDepth - 1) v := ⟨dv, hdv, hread, by omega⟩
    have hnames : "metadata" ≠ "message" := by decide
    obtain ⟨d, hwrite, hread, hdepth⟩ := roundTrips_record₂ hnames
      ((roundTrips_stringMap metadata).mono (by decide)) hmessage
    exact ⟨d, (hto metadata v).trans hwrite, by rw [hof, hread], by rw [hlevels]; exact hdepth⟩

omit [Runtime] [Serde T] in
lemma Request.mk_injective (metadata : StringMap) :
    Function.Injective (Request.mk metadata : T → Request T) :=
  fun _ _ h => (Request.mk.inj h).2

omit [Runtime] [Serde T] in
lemma Response.mk_injective (metadata : StringMap) :
    Function.Injective (Response.mk metadata : T → Response T) :=
  fun _ _ h => (Response.mk.inj h).2

/-- Wire messages are told apart by their bytes. -/
lemma serialize_wireMessage_injective :
    Function.Injective (serialize : WireMessage → ZRPCResult Bytes) := by
  intro m m' h
  obtain ⟨raw, hraw, hread⟩ := deserialize_serialize_wireMessage m
  obtain ⟨raw', hraw', hread'⟩ := deserialize_serialize_wireMessage m'
  rw [hraw, hraw'] at h
  rw [Except.ok.inj h, hread'] at hread
  exact (Except.ok.inj hread).symm

variable (T) in
/-- The wire format round-trips.  Wire messages and server metadata survive, whatever they hold;
requests and responses survive when their message leaves a level of nesting for them; and a value
that survives is read through an envelope with any status, whose payload is not the empty one.
Different wire messages have different bytes. -/
theorem wire_roundTrips {ZenohId : Type} [Zenoh ZenohId] :
    (∀ m : WireMessage, SurvivesWire m) ∧
    (∀ m : ServerMetadata ZenohId, SurvivesWire m) ∧
    (∀ r : Request T, SurvivesWire r ↔ SurvivesWire r.message ∧ NestsBelow maxDepth r.message) ∧
    (∀ r : Response T, SurvivesWire r ↔ SurvivesWire r.message ∧ NestsBelow maxDepth r.message) ∧
    (∀ (v : T) (status : Status), SurvivesWire v →
      ∃ pl raw, serialize v = .ok pl ∧ pl ≠ [] ∧
        serialize (⟨some pl, status⟩ : WireMessage) = .ok raw ∧
        deserialize WireMessage raw = .ok ⟨some pl, status⟩ ∧ deserialize T pl = .ok v) ∧
    Function.Injective (serialize : WireMessage → ZRPCResult Bytes) := by
  refine ⟨deserialize_serialize_wireMessage, deserialize_serialize_serverMetadata, ?_, ?_, ?_,
    serialize_wireMessage_injective⟩
  · rintro ⟨metadata, v⟩
    exact survivesWire_record_iff (fun _ _ => rfl) rfl rfl Request.mk_injective metadata v
  · rintro ⟨metadata, v⟩
    exact survivesWire_record_iff (fun _ _ => rfl) rfl rfl Response.mk_injective metadata v
  · intro v status hv
    obtain ⟨pl, hpl, hne, hread⟩ := hv.exists_payload
    obtain ⟨raw, hraw, hwmsg⟩ := deserialize_serialize_wireMessage ⟨some pl, status⟩
    exact ⟨pl, raw, hpl, hne, hraw, hwmsg, hread⟩

end

/-! ## A message at the bound -/

/-- A request around a message that needs all the levels of the reader is written, but not read. -/
lemma exists_deserialize_request_error [Runtime] {T : Type} [Serde T] {r : Request T} {d : Document}
    (hd : Serde.toDocument r.message = .ok d) (hdeep : maxDepth ≤ Serde.levels T d) :
    ∃ raw e, serialize r = .ok raw ∧ deserialize (Request T) raw = .error e := by
  obtain ⟨dm, hdm, _⟩ := roundTrips_stringMap r.metadata
  have hwrite : writeRecord₂ "metadata" "message" r.metadata r.message =
      .ok (.obj [("metadata", dm), ("message", d)]) := by
    rw [writeRecord₂, hdm, hd]
    rfl
  obtain ⟨d', hd', hlt⟩ := exists_of_writeRecord₂ (by decide) hwrite
  rw [hd] at hd'
  obtain rfl := Except.ok.inj hd'
  have hto : Serde.toDocument r = .ok (.obj [("metadata", dm), ("message", d)]) := hwrite
  have hover : ¬Serde.levels (Request T) (.obj [("metadata", dm), ("message", d)]) ≤ maxDepth :=
    Nat.not_le.mpr (lt_of_le_of_lt hdeep hlt)
  have hread := deserialize_intoBytes (T := Request T) (.obj [("metadata", dm), ("message", d)])
  rw [if_neg hover] at hread
  exact ⟨_, _, by rw [serialize, hto], hread⟩

/-- Vectors of vectors of bytes, nested `n` deep. -/
def Nested : ℕ → Type
  | 0 => UInt8
  | n + 1 => List (Nested n)

instance serdeNested : (n : ℕ) → Serde (Nested n)
  | 0 => inferInstanceAs (Serde UInt8)
  | n + 1 =>
    have := serdeNested n
    inferInstanceAs (Serde (List (Nested n)))

/-- Nested vectors round-trip. -/
lemma roundTrips_nested (n : ℕ) (v : Nested n) : RoundTrips n v := by
  induction n with
  | zero => exact roundTrips_uint8 v
  | succ n ih => exact roundTrips_list fun a _ => ih a

/-- The vector of one vector of one vector, and so on. -/
def nest : (n : ℕ) → Nested n
  | 0 => (0 : UInt8)
  | n + 1 => ([nest n] : List (Nested n))

/-- It is nested as deep as it can be. -/
lemma toDocument_nest (n : ℕ) :
    ∃ d, Serde.toDocument (nest n) = .ok d ∧ Serde.levels (Nested n) d = n := by
  induction n with
  | zero => exact ⟨.int 0, rfl, depth_int 0⟩
  | succ n ih =>
    obtain ⟨d, hd, hdepth⟩ := ih
    refine ⟨.arr [d], ?_, ?_⟩
    · change (do let ds ← [nest n].mapM Serde.toDocument; return Document.arr ds) = _
      rw [List.mapM_cons, hd, List.mapM_nil]
      rfl
    · change levelsElems (Nested n) [d] + 1 = n + 1
      rw [levelsElems, levelsElems, hdepth, Nat.max_zero]

open Reference in
/-- Vectors nested as deep as the reader allows survive the wire, all of them, but a request for
one of them does not. -/
theorem not_survivesWire_deep_request :
    (∀ v : Nested maxDepth, SurvivesWire v) ∧
      ¬SurvivesWire (Request.new (nest maxDepth)) := by
  refine ⟨fun v => (survivesWire_iff v).mpr (roundTrips_nested maxDepth v), ?_⟩
  rintro ⟨raw, hraw, hread⟩
  obtain ⟨d, hd, hlevels⟩ := toDocument_nest maxDepth
  obtain ⟨raw', e, hraw', herror⟩ :=
    exists_deserialize_request_error (r := Request.new (nest maxDepth)) hd hlevels.ge
  rw [hraw] at hraw'
  rw [← Except.ok.inj hraw', hread] at herror
  cases herror

end ZenohRpc
