import ZenohRpc.Wire.Message

/-!
# Services

`zrpc/src/service.rs` and the service that `#[service]` generates
(`ServiceGenerator::impl_service_for_server` of `zrpc-derive/src/lib.rs`).

User code is left open.  A handler may read anything when it runs: its own state, the clock, what
other tasks have done.  All of that is the `World` it is given, and what it does to it is seen only
by later runs, which get a world of their own.  It may also panic.  Running a service reports
which handlers it ran, next to its result.
-/

namespace ZenohRpc

open Json KeyExpr

/-! ## Code that may panic -/

/-- How running code ends. -/
inductive Outcome (α : Type)
  | returned (a : α)
  | panicked

namespace Outcome

variable {α β : Type}

/-- Going on with what was returned. -/
def map (f : α → β) : Outcome α → Outcome β
  | returned a => returned (f a)
  | panicked => panicked

@[simp] lemma map_returned (f : α → β) (a : α) : (returned a).map f = returned (f a) := rfl

@[simp] lemma map_panicked (f : α → β) : (panicked : Outcome α).map f = panicked := rfl

lemma map_eq_returned_iff (f : α → β) (o : Outcome α) (b : β) :
    o.map f = returned b ↔ ∃ a, o = returned a ∧ f a = b := by
  cases o <;> simp

end Outcome

/-! ## Identifiers -/

/-- The characters of an identifier.  Beyond ASCII every character is let through, which is more
than Rust does. -/
def isIdentChar (c : Char) : Bool := c.isAlphanum || c == '_' || decide (128 ≤ c.toNat)

/-- An identifier, which may be written raw. -/
structure Ident where
  raw : Bool
  name : String
  name_ne : name ≠ ""
  name_chars : ∀ c ∈ name.toList, isIdentChar c = true

/-- `Ident::to_string`. -/
def Ident.toString (i : Ident) : String := if i.raw then "r#" ++ i.name else i.name

/-- What is no character of an identifier, nor of the prefix of a raw one, is not in its text. -/
lemma Ident.notMem_toString (i : Ident) {c : Char} (hc : isIdentChar c = false)
    (hr : c ∉ ['r', '#']) : c ∉ i.toString.toList := by
  have hname : c ∉ i.name.toList := by
    intro hmem
    rw [i.name_chars c hmem] at hc
    exact Bool.noConfusion hc
  unfold Ident.toString
  split
  · simp only [String.toList_append, List.mem_append, not_or]
    exact ⟨by simpa using hr, hname⟩
  · exact hname

/-- The text of an identifier has no `?`. -/
lemma Ident.noQuestion (i : Ident) : '?' ∉ i.toString.toList :=
  i.notMem_toString (by decide) (by decide)

/-- The text of an identifier has no slash. -/
lemma Ident.noSlash (i : Ident) : '/' ∉ i.toString.toList :=
  i.notMem_toString (by decide) (by decide)

/-- The text of an identifier has no wildcard. -/
lemma Ident.plain_toString (i : Ident) : Plain i.toString :=
  ⟨i.notMem_toString (by decide) (by decide), i.notMem_toString (by decide) (by decide)⟩

/-! ## Methods and their handlers -/

/-- A method of a service with the user's handler for it. -/
structure ServiceMethod (World : Type) where
  ident : Ident
  Req : Type
  Resp : Type
  serdeReq : Serde Req
  serdeResp : Serde Resp
  debugReq : Debug Req
  handler : World → Request Req → Outcome (Except Status (Response Resp))

attribute [instance] ServiceMethod.serdeReq ServiceMethod.serdeResp ServiceMethod.debugReq

variable {World : Type}

/-- A run of user code: a handler on a typed request, or a hand-written service on a message. -/
inductive Invocation (World : Type)
  | handler (method : ServiceMethod World) (request : Request method.Req)
  | custom (name : String) (msg : Message)

/-- What running code did: the user code it ran, and how it ended. -/
structure Exec (World : Type) (α : Type) where
  invoked : List (Invocation World)
  outcome : Outcome α

namespace Exec

variable {α β : Type}

/-- Code that runs no user code and returns. -/
def pure (a : α) : Exec World α := ⟨[], .returned a⟩

/-- Going on, without user code, with what was returned. -/
def map (f : α → β) (e : Exec World α) : Exec World β := ⟨e.invoked, e.outcome.map f⟩

@[simp] lemma invoked_pure (a : α) : (pure a : Exec World α).invoked = [] := rfl

@[simp] lemma outcome_pure (a : α) : (pure a : Exec World α).outcome = .returned a := rfl

@[simp] lemma invoked_map (f : α → β) (e : Exec World α) : (e.map f).invoked = e.invoked := rfl

@[simp] lemma outcome_map (f : α → β) (e : Exec World α) :
    (e.map f).outcome = e.outcome.map f := rfl

end Exec

/-- The service `#[service]` generates for a trait, over the user's implementation of it. -/
structure GeneratedService (World : Type) where
  ident : Ident
  methods : List (ServiceMethod World)
  nodup : (methods.map fun me => me.ident.toString).Nodup

namespace GeneratedService

/-- The generated `name`. -/
def name (svc : GeneratedService World) : String := svc.ident.toString

/-- A method is found under its name. -/
lemma find?_eq_some (svc : GeneratedService World) {me : ServiceMethod World}
    (hme : me ∈ svc.methods) :
    (svc.methods.find? fun me' => me'.ident.toString == me.ident.toString) = some me := by
  obtain ⟨_, ms, hnodup⟩ := svc
  induction ms with
  | nil => cases hme
  | cons m ms ih =>
    rw [List.map_cons, List.nodup_cons] at hnodup
    rcases List.mem_cons.mp hme with rfl | hmem
    · exact List.find?_cons_of_pos (by simp)
    · have hne : m.ident.toString ≠ me.ident.toString := fun h =>
        hnodup.1 (h ▸ List.mem_map_of_mem hmem)
      exact (List.find?_cons_of_neg (by simpa using hne)).trans (ih hnodup.2 hmem)

/-- Methods are told apart by their names. -/
lemma eq_of_name_eq (svc : GeneratedService World) {me me' : ServiceMethod World}
    (hme : me ∈ svc.methods) (hme' : me' ∈ svc.methods)
    (h : me.ident.toString = me'.ident.toString) : me = me' := by
  have hfind := svc.find?_eq_some hme
  rw [h, svc.find?_eq_some hme'] at hfind
  exact (Option.some.inj hfind).symm

end GeneratedService

section

variable [Runtime]

/-- The arm the macro generates for a method: the body is decoded with `unwrap`, the handler runs,
and its result is turned into a message. -/
def ServiceMethod.arm (me : ServiceMethod World) (w : World) (body : Bytes) :
    Exec World (Except Status Message) :=
  match deserialize (Request me.Req) body with
  | .error _ => ⟨[], .panicked⟩
  | .ok req => ⟨[.handler me req], (me.handler w req).map (Except.map Response.toMessage)⟩

namespace GeneratedService

/-- The generated `call`. -/
def call (svc : GeneratedService World) (w : World) (req : Message) :
    Exec World (Except Status Message) :=
  match svc.methods.find? fun me => me.ident.toString == req.method with
  | some me => me.arm w req.body
  | none => .pure (.error (Status.unavailable "Unavailable"))

/-- A message for a method runs that method's arm. -/
lemma call_of_mem (svc : GeneratedService World) {me : ServiceMethod World}
    (hme : me ∈ svc.methods) (w : World) {req : Message}
    (hreq : req.method = me.ident.toString) : svc.call w req = me.arm w req.body := by
  rw [call, hreq, svc.find?_eq_some hme]

/-- A message for anything else is answered without running user code. -/
lemma call_of_notMem (svc : GeneratedService World) (w : World) {req : Message}
    (hreq : ∀ me ∈ svc.methods, me.ident.toString ≠ req.method) :
    svc.call w req = .pure (.error (Status.unavailable "Unavailable")) := by
  have hnone : (svc.methods.find? fun me => me.ident.toString == req.method) = none := by
    rw [List.find?_eq_none]
    intro me hme
    simpa using hreq me hme
  rw [call, hnone]

/-- What the generated `call` can do: run the arm of the method named, or answer that there is
none. -/
lemma call_cases (svc : GeneratedService World) (w : World) (req : Message) :
    (∃ me ∈ svc.methods, me.ident.toString = req.method ∧ svc.call w req = me.arm w req.body) ∨
    ((∀ me ∈ svc.methods, me.ident.toString ≠ req.method) ∧
      svc.call w req = .pure (.error (Status.unavailable "Unavailable"))) := by
  by_cases h : ∃ me ∈ svc.methods, me.ident.toString = req.method
  · obtain ⟨me, hme, hreq⟩ := h
    exact Or.inl ⟨me, hme, hreq, svc.call_of_mem hme w hreq.symm⟩
  · push Not at h
    exact Or.inr ⟨h, svc.call_of_notMem w h⟩

end GeneratedService

/-- On a body that is a request, an arm runs its handler on it. -/
lemma ServiceMethod.arm_of_ok (me : ServiceMethod World) (w : World) {body : Bytes}
    {req : Request me.Req} (h : deserialize (Request me.Req) body = .ok req) :
    me.arm w body =
      ⟨[.handler me req], (me.handler w req).map (Except.map Response.toMessage)⟩ := by
  rw [arm, h]

/-- What an arm can do: panic on a body that is no request, or run its handler on the request. -/
lemma ServiceMethod.arm_cases (me : ServiceMethod World) (w : World) (body : Bytes) :
    ((∃ e, deserialize (Request me.Req) body = .error e) ∧ me.arm w body = ⟨[], .panicked⟩) ∨
    (∃ req, deserialize (Request me.Req) body = .ok req ∧
      me.arm w body = ⟨[.handler me req],
        (me.handler w req).map (Except.map Response.toMessage)⟩) := by
  cases hbody : deserialize (Request me.Req) body with
  | error e => exact Or.inl ⟨⟨e, rfl⟩, by rw [arm, hbody]⟩
  | ok req => exact Or.inr ⟨req, rfl, me.arm_of_ok w hbody⟩

/-! ## Services -/

/-- An implementation of the `Service` trait: a generated one, or one written by hand. -/
inductive Service (World : Type)
  | generated (svc : GeneratedService World)
  | custom (name : String) (call : World → Message → Outcome (Except Status Message))

namespace Service

/-- `Service::name`. -/
def name : Service World → String
  | generated svc => svc.name
  | custom name _ => name

/-- `Service::call`.  A hand-written service counts as user code itself. -/
def call : Service World → World → Message → Exec World (Except Status Message)
  | generated svc, w, msg => svc.call w msg
  | custom name call, w, msg => ⟨[.custom name msg], call w msg⟩

/-- Calling a service runs user code at most once. -/
lemma length_invoked_call_le (svc : Service World) (w : World) (msg : Message) :
    (svc.call w msg).invoked.length ≤ 1 := by
  cases svc with
  | custom => simp [call]
  | generated svc =>
    rw [call]
    rcases svc.call_cases w msg with ⟨me, _, _, hcall⟩ | ⟨_, hcall⟩
    · rcases me.arm_cases w msg.body with ⟨_, harm⟩ | ⟨req, _, harm⟩ <;> simp [hcall, harm]
    · simp [hcall]

/-- A service that returns a message has run user code once. -/
lemma length_invoked_call_of_ok (svc : Service World) (w : World) (msg : Message) {m : Message}
    (h : (svc.call w msg).outcome = .returned (.ok m)) :
    (svc.call w msg).invoked.length = 1 := by
  cases svc with
  | custom => simp [call]
  | generated svc =>
    rw [call] at h ⊢
    rcases svc.call_cases w msg with ⟨me, _, _, hcall⟩ | ⟨_, hcall⟩
    · rcases me.arm_cases w msg.body with ⟨_, harm⟩ | ⟨req, _, harm⟩
      · rw [hcall, harm] at h; simp at h
      · simp [hcall, harm]
    · rw [hcall] at h; simp at h

end Service

end

end ZenohRpc
