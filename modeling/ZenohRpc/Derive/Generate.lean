import ZenohRpc.Client.Calls
import ZenohRpc.Client.FindServer
import ZenohRpc.Client.Methods
import ZenohRpc.Deployment.KeyExprs
import ZenohRpc.Derive.Names
import ZenohRpc.Json.Record

/-!
# What `#[service]` generates

The code that `#[service]` makes of a trait, put together (`ServiceGenerator` of
`zrpc-derive/src/lib.rs`): for each method a struct of its arguments (`derive_requests`) and a
struct around its result (`derive_responses`), the service that calls the user's implementation
(`impl_service_for_server`), and the client (`impl_client`).

The user gives the types that are written in the trait, and an implementation of its methods.  A
call of the generated client on the generated service is then a call of the implementation: it runs
on the arguments of the call, and the call returns what it returns.  Between versions of a trait, a
request is read by the names of the arguments: their order does not count, and what else a client
sends is passed over.
-/

namespace ZenohRpc

open Json KeyExpr

variable {ZenohId World Span Ty : Type}

/-! ## The types of the user -/

/-- What the generated code asks of a type that is written in a trait: its values are carried by
JSON, and shown. -/
structure ArgType where
  carrier : Type
  serde : Serde carrier
  debug : Debug carrier

attribute [instance] ArgType.serde ArgType.debug

instance : Serde Unit where
  toDocument _ := .ok .null
  ofDocument
    | .null => some ()
    | _ => none

/-- The type `()`. -/
def ArgType.unit : ArgType := ⟨Unit, inferInstance, ⟨fun _ => "()"⟩⟩

/-- The type of a return type that may be left out. -/
def ArgType.ofOutput (types : Ty → ArgType) : Option Ty → ArgType
  | some ty => types ty
  | none => .unit

/-! ## The structs of a method -/

/-- The field that is made of an argument. -/
def fieldOf (a : String × ArgType) : Field := ⟨a.1, a.2.carrier, a.2.serde⟩

/-- The fields of a struct as `Debug` shows them. -/
def debugFields : (as : List (String × ArgType)) → Record (as.map fieldOf) → List String
  | [], _ => []
  | a :: as, (v, r) => (a.1 ++ ": " ++ a.2.debug.debug v) :: debugFields as r

namespace RPCMethod

/-- The names and types of the arguments of a method. -/
def arguments (types : Ty → ArgType) (method : RPCMethod Span Ty) : List (String × ArgType) :=
  method.requestFields.filterMap fun a => a.plainName.map fun name => (name, types a.ty)

/-- The fields of the request of a method. -/
def fields (types : Ty → ArgType) (method : RPCMethod Span Ty) : List Field :=
  (method.arguments types).map fieldOf

/-- The request that `derive_requests` makes for a method. -/
def RequestStruct (types : Ty → ArgType) (method : RPCMethod Span Ty) : Type :=
  Record (method.fields types)

instance (types : Ty → ArgType) (method : RPCMethod Span Ty) : Serde (method.RequestStruct types) :=
  inferInstanceAs (Serde (Record (method.fields types)))

instance [Normalization] (types : Ty → ArgType) (method : RPCMethod Span Ty) :
    Debug (method.RequestStruct types) where
  debug r :=
    match debugFields (method.arguments types) r with
    | [] => method.requestIdent
    | fs => method.requestIdent ++ " \x7b " ++ ", ".intercalate fs ++ " \x7d"

/-- The type of what a method returns. -/
def outputType (types : Ty → ArgType) (method : RPCMethod Span Ty) : ArgType :=
  .ofOutput types method.output

/-- The response that `derive_responses` makes for a method. -/
structure ResponseStruct (types : Ty → ArgType) (method : RPCMethod Span Ty) where
  value : (method.outputType types).carrier

instance (types : Ty → ArgType) (method : RPCMethod Span Ty) :
    Serde (method.ResponseStruct types) where
  toDocument r := Serde.toDocument r.value
  ofDocument d := (Serde.ofDocument d).map ResponseStruct.mk
  levels := Serde.levels (method.outputType types).carrier

/-- A response round-trips if the result does. -/
lemma ResponseStruct.roundTrips {types : Ty → ArgType} {method : RPCMethod Span Ty} {n : ℕ}
    {r : method.ResponseStruct types} (h : RoundTrips n r.value) : RoundTrips n r := by
  obtain ⟨d, hto, hof, hd⟩ := h
  exact ⟨d, hto, by simp only [Serde.ofDocument, hof]; rfl, hd⟩

/-- The struct of a method's arguments can be declared: each argument makes a plain field, and no
two have the same name. -/
structure FieldsOk (method : RPCMethod Span Ty) : Prop where
  plain : ∀ a ∈ method.requestFields, a.plainName.isSome = true
  nodup : (method.requestFields.filterMap PatType.plainName).Nodup

/-- The fields of a request have the names of the arguments. -/
lemma map_name_fields (types : Ty → ArgType) (method : RPCMethod Span Ty) :
    (method.fields types).map Field.name = method.requestFields.filterMap PatType.plainName := by
  rw [fields, arguments, List.map_map, List.map_filterMap]
  refine List.filterMap_congr fun a _ => ?_
  cases a.plainName <;> rfl

/-- What the parser makes of a well-formed list of arguments can be declared, with the arguments'
names in their order. -/
lemma fieldsOk_of_parse {callSite : Span} {ident : Ident} {args : List (FnArg Span Ty)}
    {output : Option Ty} (hwell : WellFormed args) {method : RPCMethod Span Ty}
    (hparse : RPCMethod.parse callSite ident args output = .returned (.ok method)) :
    method.FieldsOk ∧ method.requestFields = args.filterMap FnArg.typed? := by
  rcases RPCMethod.parse_cases callSite ident args output with
    ⟨hnil, receiver, hparsed⟩ | ⟨_, hparsed⟩
  · rw [hparsed] at hparse
    cases hparse
    have hkept := filterMap_kept (parseErrors_eq_nil_iff.mp hnil).1
    obtain ⟨r, typed, rfl, -, hplain, hnodup⟩ := hwell
    have htyped : (FnArg.receiver r :: typed.map FnArg.typed).filterMap FnArg.typed? = typed := by
      rw [List.filterMap_cons, FnArg.typed?, List.filterMap_map]
      exact List.filterMap_some
    have hfields := hkept.trans htyped
    refine ⟨⟨?_, ?_⟩, hkept⟩
    · rwa [requestFields, hfields]
    · rwa [requestFields, hfields]
  · rw [hparsed] at hparse
    cases hparse

end RPCMethod

/-! ## The methods of a trait -/

/-- A method as it is written in a trait. -/
structure MethodDecl (Span Ty : Type) where
  callSite : Span
  ident : Ident
  args : List (FnArg Span Ty)
  output : Option Ty

/-- `RPCMethod::parse` on what is written. -/
def MethodDecl.parse (decl : MethodDecl Span Ty) :
    Outcome (Except (List (SynError Span)) (RPCMethod Span Ty)) :=
  RPCMethod.parse decl.callSite decl.ident decl.args decl.output

/-- The loop of `Service::parse` over the methods of a trait, from the point where the trait's name
is read. -/
def parseMethods : List (MethodDecl Span Ty) →
    Outcome (Except (List (SynError Span)) (List (RPCMethod Span Ty)))
  | [] => .returned (.ok [])
  | decl :: decls =>
    match decl.parse with
    | .panicked => .panicked
    | .returned (.error e) => .returned (.error e)
    | .returned (.ok method) => (parseMethods decls).map (Except.map (method :: ·))

/-- What a method is made of what is written, if it is accepted. -/
structure MethodDecl.Gives (decl : MethodDecl Span Ty) (method : RPCMethod Span Ty) : Prop where
  parsed : decl.parse = .returned (.ok method)
  ident : method.ident = decl.ident
  output : method.output = decl.output
  fields : method.requestFields = decl.args.filterMap FnArg.kept

/-- A method is accepted as it is written, or refused with the errors of its arguments. -/
lemma MethodDecl.parse_cases (decl : MethodDecl Span Ty) :
    (parseErrors decl.callSite decl.args = [] ∧ ∃ method, decl.Gives method) ∨
    (parseErrors decl.callSite decl.args ≠ [] ∧
      decl.parse = .returned (.error (parseErrors decl.callSite decl.args))) := by
  rcases RPCMethod.parse_cases decl.callSite decl.ident decl.args decl.output with
    ⟨hnil, receiver, hparsed⟩ | hfailed
  · exact Or.inl ⟨hnil, _, hparsed, rfl, rfl, rfl⟩
  · exact Or.inr hfailed

/-- The methods of a trait are read in their order.  All are accepted, or the errors are those of
the first one that is refused, whatever comes behind it. -/
theorem parseMethods_cases (decls : List (MethodDecl Span Ty)) :
    (∃ methods, parseMethods decls = .returned (.ok methods) ∧
      List.Forall₂ MethodDecl.Gives decls methods) ∨
    (∃ pre decl post, decls = pre ++ decl :: post ∧
      (∀ d ∈ pre, parseErrors d.callSite d.args = []) ∧
      parseErrors decl.callSite decl.args ≠ [] ∧
      parseMethods decls = .returned (.error (parseErrors decl.callSite decl.args))) := by
  induction decls with
  | nil => exact Or.inl ⟨[], rfl, .nil⟩
  | cons decl decls ih =>
    rcases decl.parse_cases with ⟨hnil, method, hgives⟩ | ⟨herrors, hfailed⟩
    · rcases ih with ⟨methods, hmethods, hall⟩ | ⟨pre, d, post, rfl, hpre, herrors, hfailed⟩
      · refine Or.inl ⟨method :: methods, ?_, .cons hgives hall⟩
        simp only [parseMethods, hgives.parsed, hmethods, Outcome.map_returned, Except.map]
      · refine Or.inr ⟨decl :: pre, d, post, rfl, ?_, herrors, ?_⟩
        · exact List.forall_mem_cons.mpr ⟨hnil, hpre⟩
        · simp only [parseMethods, hgives.parsed, hfailed, Outcome.map_returned, Except.map]
    · refine Or.inr ⟨[], decl, decls, rfl, by simp, herrors, ?_⟩
      simp only [parseMethods, hfailed]

/-- What stands in the second of two related lists is related to something in the first. -/
lemma exists_mem_of_forall₂ {α β : Type} {R : α → β → Prop} {as : List α} {bs : List β}
    (h : List.Forall₂ R as bs) {b : β} (hb : b ∈ bs) : ∃ a ∈ as, R a b := by
  induction h with
  | nil => cases hb
  | cons hab _ ih =>
    rcases List.mem_cons.mp hb with rfl | htail
    · exact ⟨_, List.mem_cons_self, hab⟩
    · obtain ⟨a, ha, hR⟩ := ih htail
      exact ⟨a, List.mem_cons_of_mem _ ha, hR⟩

/-- No argument of a well-formed list is refused, and there is a receiver. -/
lemma WellFormed.parseErrors_eq_nil {args : List (FnArg Span Ty)} (h : WellFormed args)
    (callSite : Span) : parseErrors callSite args = [] := by
  obtain ⟨r, typed, rfl, hreference, hplain, _⟩ := h
  rw [parseErrors_eq_nil_iff, List.filterMap_eq_nil_iff]
  refine ⟨fun arg harg => ?_, by simp [FnArg.receiver?]⟩
  rcases List.mem_cons.mp harg with rfl | htyped
  · simp [FnArg.refused, Option.isSome_iff_ne_none.mp hreference]
  · obtain ⟨⟨attrs, pat, ty⟩, ha, rfl⟩ := List.mem_map.mp htyped
    cases pat with
    | ident => rfl
    | other span =>
      have hfield := hplain _ ha
      cases attrs <;> cases hfield

/-- A trait that is written well is accepted: its methods have legal and distinct names, and lists
of arguments that code can be generated for.  The structs of its methods can be declared, with the
arguments as they are written for fields. -/
theorem ServiceTrait.exists_of_decls [Normalization] {ident : Ident} (hident : ident.Legal)
    {decls : List (MethodDecl Span Ty)} (hlegal : ∀ d ∈ decls, d.ident.Legal)
    (hwell : ∀ d ∈ decls, WellFormed d.args) (hnodup : (decls.map fun d => d.ident.name).Nodup) :
    ∃ t : ServiceTrait Span Ty, t.ident = ident ∧
      parseMethods decls = .returned (.ok t.methods) ∧
      List.Forall₂ MethodDecl.Gives decls t.methods ∧ ∀ m ∈ t.methods, m.FieldsOk := by
  rcases parseMethods_cases decls with
    ⟨methods, hmethods, hall⟩ | ⟨pre, d, post, rfl, _, herrors, _⟩
  · have hnames : (methods.map fun m => m.ident.name) = decls.map fun d => d.ident.name := by
      have hsame : List.Forall₂ Eq (decls.map fun d => d.ident.name)
          (methods.map fun m => m.ident.name) :=
        List.forall₂_map_left_iff.mpr (List.forall₂_map_right_iff.mpr
          (hall.imp fun d m hgives => by rw [hgives.ident]))
      rw [List.forall₂_eq_eq_eq] at hsame
      exact hsame.symm
    refine ⟨⟨ident, methods, hident, fun m hm => ?_, fun m hm => ?_, hnames ▸ hnodup⟩, rfl,
      hmethods, hall, fun m hm => ?_⟩
    · obtain ⟨d, hd, hgives⟩ := exists_mem_of_forall₂ hall hm
      exact hgives.ident ▸ hlegal d hd
    · obtain ⟨d, hd, hgives⟩ := exists_mem_of_forall₂ hall hm
      refine ⟨d.callSite, d.args, ?_⟩
      rw [hgives.ident, hgives.output]
      exact hgives.parsed
    · obtain ⟨d, hd, hgives⟩ := exists_mem_of_forall₂ hall hm
      exact (RPCMethod.fieldsOk_of_parse (hwell d hd) hgives.parsed).1
  · exact absurd ((hwell d (by simp)).parseErrors_eq_nil _) herrors

/-! ## The service and the client -/

/-- An implementation of a trait: a handler for each method. -/
def Implementation (types : Ty → ArgType) (Span World : Type) : Type :=
  (method : RPCMethod Span Ty) → World → Request (method.RequestStruct types) →
    Outcome (Except Status (Response (method.ResponseStruct types)))

section

variable [Normalization]

/-- The arm of the generated `call` for a method. -/
def RPCMethod.serviceMethod {types : Ty → ArgType} (impl : Implementation types Span World)
    (method : RPCMethod Span Ty) : ServiceMethod World where
  ident := method.ident
  Req := method.RequestStruct types
  Resp := method.ResponseStruct types
  serdeReq := inferInstance
  serdeResp := inferInstance
  debugReq := inferInstance
  handler := impl method

/-- The service that is generated for a trait, over an implementation. -/
def ServiceTrait.service {types : Ty → ArgType} (t : ServiceTrait Span Ty)
    (impl : Implementation types Span World) : GeneratedService World where
  ident := t.ident
  methods := t.methods.map (RPCMethod.serviceMethod impl)
  nodup := by
    have hnames := t.nodup
    rw [List.Nodup, List.pairwise_map] at hnames
    rw [List.map_map, List.Nodup, List.pairwise_map]
    exact hnames.imp fun hne heq => hne (congrArg Ident.name (Ident.toString_injective heq))

variable {types : Ty → ArgType} {impl : Implementation types Span World}

/-- The arm for a method of the trait is one of the service. -/
lemma ServiceTrait.mem_service {t : ServiceTrait Span Ty} {method : RPCMethod Span Ty}
    (hmethod : method ∈ t.methods) : method.serviceMethod impl ∈ (t.service impl).methods :=
  List.mem_map_of_mem hmethod

/-! ## A call is a call of the implementation -/

variable [Runtime]

omit [Normalization] in
/-- A request is carried to the service, if its arguments are. -/
lemma RPCMethod.FieldsOk.deserialize_request {method : RPCMethod Span Ty} (hok : method.FieldsOk)
    {request : Request (method.RequestStruct types)}
    (hargs : Record.AllRoundTrip (maxDepth - 2) (method.fields types) request.message) :
    ∃ raw, serialize request = .ok raw ∧
      deserialize (Request (method.RequestStruct types)) raw = .ok request := by
  have hnames : ((method.fields types).map Field.name).Nodup := by
    rw [method.map_name_fields]
    exact hok.nodup
  have hmessage : RoundTrips (maxDepth - 2 + 1) request.message := Record.roundTrips hnames hargs
  exact deserialize_serialize ((Request.roundTrips hmessage).mono (by decide))

variable [Zenoh ZenohId] [DecidableEq ZenohId]

/-- The generated code keeps the meaning of a trait, for every trait, method and arguments.  Where a
client finds a server on which the service of the trait is registered, and gets the server's reply,
its method runs the user's implementation of that method on the server, on the arguments it was
called with and nothing else, and returns what the implementation returns. -/
theorem ServiceTrait.remote_eq_local {t : ServiceTrait Span Ty} {srv : Server ZenohId World}
    (hsvc : srv.services.lookup t.ident.toString = some (.generated (t.service impl)))
    {method : RPCMethod Span Ty} (hmethod : method ∈ t.methods) (hok : method.FieldsOk)
    {client : ServiceClient} (hclient : client.serviceIdent = t.ident) {liveliness : Liveliness}
    {get : ℕ → Get} (hfind : client.findServer liveliness get = .ok srv.instanceUuid)
    {request : Request (method.RequestStruct types)}
    (hargs : Record.AllRoundTrip (maxDepth - 2) (method.fields types) request.message) {w : World}
    (hpanic : impl method w request ≠ .panicked)
    (hreturn : ∀ resp, impl method w request = .returned (.ok resp) →
      RoundTrips maxDepth resp.message.value)
    {getCall : Get} {handle : ℕ} (hdelivers : ∀ raw, serialize request = .ok raw →
      Delivers getCall srv w (client.channel.getRequest srv.instanceUuid raw
        method.ident.toString client.tout) handle) :
    ∃ raw, serialize request = .ok raw ∧
      srv.invokedBy w ((client.channel.getRequest srv.instanceUuid raw method.ident.toString
        client.tout).query handle) = [.handler (method.serviceMethod impl) request] ∧
      .returned ((client.callMethod ZenohId (method.ResponseStruct types) liveliness get getCall
        method.ident request).map Response.message) =
          (impl method w request).map (Except.map Response.message) := by
  obtain ⟨raw, hraw, hread⟩ := hok.deserialize_request hargs
  have hmem : method.serviceMethod impl ∈ (t.service impl).methods :=
    ServiceTrait.mem_service hmethod
  have hregistered : srv.services.lookup (t.service impl).name =
      some (.generated (t.service impl)) := hsvc
  have hrequest : client.channel.getRequest srv.instanceUuid raw method.ident.toString client.tout =
      (t.service impl).getRequest (method.serviceMethod impl) srv.instanceUuid raw client.tout := by
    rw [ServiceClient.channel, hclient]
    rfl
  have hcalls : CallsService srv ((client.channel.getRequest srv.instanceUuid raw
      method.ident.toString client.tout).query handle) (.generated (t.service impl)) raw := by
    rw [hrequest]
    exact callsService_getRequest hregistered _ raw client.tout handle
  have hname : getToken ((client.channel.getRequest srv.instanceUuid raw
      method.ident.toString client.tout).query handle).keyExpr 4 =
        some (method.serviceMethod impl).ident.toString := by
    rw [hrequest]
    exact getToken_getRequest ..
  obtain ⟨hinvoked, hreply⟩ := Server.call_of_mem hcalls hmem hname hread w
  refine ⟨raw, hraw, hinvoked, ?_⟩
  have hreplied : ∀ res, impl method w request = .returned res → srv.replyTo w
      ((client.channel.getRequest srv.instanceUuid raw method.ident.toString client.tout).query
        handle) = some (sample (serviceReply (res.map Response.toMessage))) :=
    fun res hres => (hreply _).mpr ⟨res, hres, rfl⟩
  cases hresult : impl method w request with
  | panicked => exact absurd hresult hpanic
  | returned res =>
    obtain ⟨rest, hget⟩ := hdelivers raw hraw _ (hreplied res hresult)
    have hround : ∀ resp, res = .ok resp → RoundTrips maxDepth resp.message := by
      rintro resp rfl
      exact RPCMethod.ResponseStruct.roundTrips (hreturn resp hresult)
    rw [ServiceClient.callMethod, hfind]
    simp only [RPCClientChannel.callFun_of_get hraw hget,
      RPCClientChannel.readReply_serviceReply hround, Outcome.map_returned]
    cases res <;> rfl

omit [Zenoh ZenohId] [DecidableEq ZenohId] in
/-- Versions of a trait understand each other by the names of the arguments.  A service reads every
object that has the metadata of a request, and a message that carries the arguments of the method:
each once, as it is written, or not at all where its type has a value for that.  The members may
stand in any order, with any others among them, however deep; the implementation runs on those
arguments. -/
theorem ServiceTrait.wire_compatible {t : ServiceTrait Span Ty} {method : RPCMethod Span Ty}
    (hmethod : method ∈ t.methods) {request : Request (method.RequestStruct types)}
    (hargs : Record.AllRoundTrip (maxDepth - 2) (method.fields types) request.message)
    {members messageMembers : List (String × Document)} {dm : Document}
    (hmetadata : Document.named members "metadata" = [dm])
    (hread : Serde.ofDocument dm = some request.metadata)
    (hmessage : Document.named members "message" = [.obj messageMembers])
    (hcarries : Record.Carries messageMembers (method.fields types) request.message) (w : World) :
    (t.service impl).call w (callMessage method.ident.toString
      (intoBytes (TextFormat.print (.obj members)))) =
        ⟨[.handler (method.serviceMethod impl) request],
          (impl method w request).map (Except.map Response.toMessage)⟩ := by
  have hrecord : (Serde.ofDocument (.obj messageMembers) : Option (method.RequestStruct types)) =
      some request.message := Record.readMembers_of_carries hargs hcarries
  have hrequest :
      (Serde.ofDocument (.obj members) : Option (Request (method.RequestStruct types))) =
        some request := by
    simp only [Serde.ofDocument, readRecord₂, field, hmetadata, hmessage] at hread hrecord ⊢
    rw [hread, hrecord]
    rfl
  have hlevels : Serde.levels (Request (method.RequestStruct types)) (.obj members) ≤ maxDepth := by
    have hmap := levels_stringMap_le hread
    have hfields := Record.levelsMembers_le_of_carries hargs hcarries
    have hstruct : Serde.levels (method.RequestStruct types) (.obj messageMembers) =
        Record.levelsMembers messageMembers (method.fields types) + 1 := rfl
    have hrecord₂ : Serde.levels (Request (method.RequestStruct types)) (.obj members) =
        max (levelsField StringMap members "metadata")
          (levelsField (method.RequestStruct types) members "message") + 1 := rfl
    rw [hrecord₂, levelsField_of_named hmetadata, levelsField_of_named hmessage, hstruct]
    unfold maxDepth at hfields ⊢
    omega
  have hbody : deserialize (Request (method.RequestStruct types))
      (intoBytes (TextFormat.print (.obj members))) = .ok request := by
    rw [deserialize_intoBytes, if_pos hlevels, hrequest]
  rw [(t.service impl).call_of_mem (ServiceTrait.mem_service hmethod) w rfl]
  exact (method.serviceMethod impl).arm_of_ok w hbody

end

/-! ## The trait of the tests -/

namespace Reference

lemma name_ne : "name" ≠ "" := by decide

lemma name_chars : ∀ c ∈ "name".toList, isIdentChar c = true := List.all_eq_true.mp (by decide)

/-- The arguments of `hello`. -/
def helloArgs : List (FnArg Unit String) :=
  [.receiver ⟨(), some none, false, none⟩,
    .typed ⟨[], .ident () false false ⟨false, "name", name_ne, name_chars⟩ none, "String"⟩]

/-- The method `async fn hello(&self, name: String) -> String;`. -/
def helloDecl : RPCMethod Unit String :=
  ⟨hello.ident, ⟨(), some none, false, none⟩, helloArgs.filterMap FnArg.typed?, some "String"⟩

/-- The trait `Hello`. -/
def helloTrait : ServiceTrait Unit String where
  ident := (helloService hello).ident
  methods := [helloDecl]
  legal := ⟨by decide, rfl, by decide⟩
  methods_legal := by
    intro m hm
    rw [List.mem_singleton.mp hm]
    exact ⟨by decide, rfl, by decide⟩
  methods_parsed := by
    intro m hm
    rw [List.mem_singleton.mp hm]
    exact ⟨(), helloArgs, rfl⟩
  nodup := by simp

/-- Every type that is written stands for `String`. -/
def stringType (_ : String) : ArgType := ⟨String, inferInstance, inferInstance⟩

/-- A greeting, for a method that returns a string. -/
def greeting : (output : Option String) → (ArgType.ofOutput stringType output).carrier
  | some _ => "Hello client!"
  | none => ()

/-- An implementation that greets. -/
def greeter : Implementation stringType Unit Unit := fun method _ _ =>
  .returned (.ok (Response.new ⟨greeting method.output⟩))

/-- The server of the generated service. -/
def greeterServer : Server SessionId Unit :=
  ((Server.builder session).addService (.generated (helloTrait.service greeter))).build

/-- The request of `hello` with the name `client`. -/
def greeterRequest : Request (helloDecl.RequestStruct stringType) := Request.new ("client", ())

lemma allRoundTrip_greeterRequest :
    Record.AllRoundTrip (maxDepth - 2) (helloDecl.fields stringType) greeterRequest.message :=
  ⟨(roundTrips_string "client").mono (by decide), trivial⟩

end Reference

open Reference

/-- What is written for `hello` can be declared. -/
lemma fieldsOk_helloDecl : helloDecl.FieldsOk := by
  have hwell : WellFormed helloArgs := ⟨_, [_], rfl, rfl, by simp [PatType.plainName], by decide⟩
  have hparse : RPCMethod.parse () hello.ident helloArgs (some "String") =
      .returned (.ok helloDecl) := rfl
  exact (RPCMethod.fieldsOk_of_parse hwell hparse).1

/-- The tests' client is greeted by the generated service. -/
theorem remote_eq_local_hello :
    (helloClient.callMethod SessionId (helloDecl.ResponseStruct stringType)
      (fun _ => .ok [.ok helloToken]) metadataGet (greeterServer.network ()) helloDecl.ident
      greeterRequest).map Response.message = .ok ⟨greeting (some "String")⟩ := by
  have hsvc : greeterServer.services.lookup helloTrait.ident.toString =
      some (.generated (helloTrait.service greeter)) := AList.lookup_insert ∅
  have hreturn : ∀ resp, greeter helloDecl () greeterRequest = .returned (.ok resp) →
      RoundTrips maxDepth resp.message.value := by
    intro resp _
    exact (roundTrips_string resp.message.value).mono (by decide)
  have hfind : helloClient.findServer (fun _ => .ok [.ok helloToken]) metadataGet =
      .ok greeterServer.instanceUuid := findServer_hello
  obtain ⟨_, _, _, hsame⟩ := ServiceTrait.remote_eq_local hsvc (List.mem_singleton_self _)
    fieldsOk_helloDecl rfl hfind allRoundTrip_greeterRequest (by simp [greeter]) hreturn
    (fun _ _ => delivers_network _)
  exact Outcome.returned.inj hsame

/-- A client that knows more arguments of `hello`, and sends them first, is greeted as well. -/
theorem wire_compatible_hello :
    ((helloTrait.service greeter).call () (callMessage helloDecl.ident.toString
      (intoBytes (TextFormat.print (.obj [("message", .obj [("language", .str "en"),
        ("name", .str "client")]), ("metadata", .obj [])]))))).invoked =
          [.handler (helloDecl.serviceMethod greeter) greeterRequest] := by
  have hcarries : Record.Carries [("language", .str "en"), ("name", .str "client")]
      (helloDecl.fields stringType) greeterRequest.message :=
    ⟨Or.inl ⟨.str "client", rfl, rfl⟩, trivial⟩
  rw [ServiceTrait.wire_compatible (t := helloTrait) (List.mem_singleton_self _)
    allRoundTrip_greeterRequest rfl rfl rfl hcarries ()]

end ZenohRpc
