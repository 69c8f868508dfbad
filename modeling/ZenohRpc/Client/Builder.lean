import ZenohRpc.Client.Discovery

/-!
# Building a client

The builder that `#[service]` generates next to a client (`ServiceGenerator::impl_client` of
`zrpc-derive/src/lib.rs`).  It starts without labels and with the timeout that the attribute of the
trait gives.  Labels are only ever added; the timeout that was set last is the one that counts.
-/

namespace ZenohRpc

/-- `Duration::from_secs`, in nanoseconds. -/
def fromSecs (secs : ℕ) : ℕ := secs * 1000000000

/-- The generated client builder, without its session and the format that it reads ids with. -/
structure ClientBuilder where
  serviceIdent : Ident
  tout : ℕ
  labels : Finset String

namespace ClientBuilder

/-- The generated `add_label`. -/
def addLabel (b : ClientBuilder) (label : String) : ClientBuilder :=
  { b with labels := insert label b.labels }

/-- The generated `labels`: the labels given are added to the ones built so far. -/
def extendLabels (b : ClientBuilder) (labels : List String) : ClientBuilder :=
  { b with labels := b.labels ∪ labels.toFinset }

/-- The generated `timeout`. -/
def timeout (b : ClientBuilder) (tout : ℕ) : ClientBuilder := { b with tout := tout }

/-- The generated `build`. -/
def build (b : ClientBuilder) : ServiceClient := ⟨b.serviceIdent, b.labels, b.tout⟩

end ClientBuilder

/-- The generated `builder`, where the attribute of the trait says `timeout_s`. -/
def ServiceClient.builder (serviceIdent : Ident) (timeoutS : UInt16) : ClientBuilder :=
  ⟨serviceIdent, fromSecs timeoutS.toNat, ∅⟩

/-- A call of a client builder. -/
inductive ClientBuilderCall
  | addLabel (label : String)
  | labels (labels : List String)
  | timeout (tout : ℕ)

namespace ClientBuilderCall

/-- What a call does to the builder. -/
def run : ClientBuilderCall → ClientBuilder → ClientBuilder
  | addLabel label, b => b.addLabel label
  | labels ls, b => b.extendLabels ls
  | timeout tout, b => b.timeout tout

/-- The labels that a call passes. -/
def passedLabels : ClientBuilderCall → List String
  | addLabel label => [label]
  | labels ls => ls
  | timeout _ => []

/-- The timeout that a call sets. -/
def passedTimeout : ClientBuilderCall → Option ℕ
  | timeout tout => some tout
  | _ => none

/-- The labels after a call are those before it and those it passes. -/
lemma mem_labels_run (c : ClientBuilderCall) (b : ClientBuilder) (label : String) :
    label ∈ (c.run b).labels ↔ label ∈ c.passedLabels ∨ label ∈ b.labels := by
  cases c with
  | addLabel label' => simp [run, passedLabels, ClientBuilder.addLabel]
  | labels ls => simp [run, passedLabels, ClientBuilder.extendLabels, or_comm]
  | timeout tout => simp [run, passedLabels, ClientBuilder.timeout]

/-- The timeout after a call is the one that it sets, or the one before it. -/
lemma tout_run (c : ClientBuilderCall) (b : ClientBuilder) :
    (c.run b).tout = c.passedTimeout.getD b.tout := by
  cases c <;> rfl

/-- No call changes the service. -/
lemma serviceIdent_run (c : ClientBuilderCall) (b : ClientBuilder) :
    (c.run b).serviceIdent = b.serviceIdent := by
  cases c <;> rfl

end ClientBuilderCall

namespace ClientBuilder

/-- What calls of a builder do to it, one after the other. -/
def runCalls (b : ClientBuilder) (calls : List ClientBuilderCall) : ClientBuilder :=
  calls.foldl (fun b c => c.run b) b

/-- The labels after some calls are those before them and those they pass. -/
lemma mem_labels_runCalls (b : ClientBuilder) (calls : List ClientBuilderCall) (label : String) :
    label ∈ (b.runCalls calls).labels ↔
      (∃ c ∈ calls, label ∈ c.passedLabels) ∨ label ∈ b.labels := by
  induction calls generalizing b with
  | nil => simp [runCalls]
  | cons c calls ih =>
    have hrun : b.runCalls (c :: calls) = (c.run b).runCalls calls := rfl
    rw [hrun, ih, c.mem_labels_run, List.exists_mem_cons_iff, or_left_comm, or_assoc]

/-- The timeout after some calls is the one set last, or the one before them if none sets it. -/
lemma tout_runCalls (b : ClientBuilder) (calls : List ClientBuilderCall) :
    (b.runCalls calls).tout =
      (calls.filterMap ClientBuilderCall.passedTimeout).getLast?.getD b.tout := by
  induction calls generalizing b with
  | nil => rfl
  | cons c calls ih =>
    have hrun : b.runCalls (c :: calls) = (c.run b).runCalls calls := rfl
    rw [hrun, ih, c.tout_run]
    cases hset : c.passedTimeout with
    | none => rw [List.filterMap_cons_none hset, Option.getD_none]
    | some tout => rw [List.filterMap_cons_some hset, List.getLast?_cons, Option.getD_some,
        Option.getD_some]

/-- The service after some calls is the one before them. -/
lemma serviceIdent_runCalls (b : ClientBuilder) (calls : List ClientBuilderCall) :
    (b.runCalls calls).serviceIdent = b.serviceIdent := by
  induction calls generalizing b with
  | nil => rfl
  | cons c calls ih => exact (ih (c.run b)).trans (c.serviceIdent_run b)

end ClientBuilder

namespace ServiceClient

/-- The client that is built after some calls. -/
def ofCalls (serviceIdent : Ident) (timeoutS : UInt16) (calls : List ClientBuilderCall) :
    ServiceClient :=
  ((builder serviceIdent timeoutS).runCalls calls).build

variable (serviceIdent : Ident) (timeoutS : UInt16) (calls : List ClientBuilderCall)

/-- A client is of the service that it was generated for. -/
lemma serviceIdent_ofCalls : (ofCalls serviceIdent timeoutS calls).serviceIdent = serviceIdent :=
  ClientBuilder.serviceIdent_runCalls _ _

/-- A client requires the labels that were passed to its builder. -/
lemma mem_labels_ofCalls (label : String) : label ∈ (ofCalls serviceIdent timeoutS calls).labels ↔
    ∃ c ∈ calls, label ∈ c.passedLabels := by
  have hlabels := (builder serviceIdent timeoutS).mem_labels_runCalls calls label
  simpa [ofCalls, ClientBuilder.build, builder] using hlabels

/-- Every query of a client has the timeout that was set last, or that of the trait. -/
lemma tout_ofCalls : (ofCalls serviceIdent timeoutS calls).tout =
    (calls.filterMap ClientBuilderCall.passedTimeout).getLast?.getD
      (fromSecs timeoutS.toNat) :=
  ClientBuilder.tout_runCalls _ _

end ServiceClient

end ZenohRpc
