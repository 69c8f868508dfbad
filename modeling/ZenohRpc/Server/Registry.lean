import ZenohRpc.Reference

/-!
# What the builder keeps

A server is built by any sequence of calls of its builder, and `add_service` and `services` treat
the registry in different ways: the first adds an entry under the name of the service, which takes
the place of an entry with that name, and the second takes the map that it is given for the whole
registry.  So an entry of the registry is the one that was passed last for its key, in a call that
no other `services` follows.  Labels are only ever added.
-/

namespace ZenohRpc

/-- A call of a `ServerBuilder`. -/
inductive BuilderCall (ZenohId World : Type)
  | session (session : Session ZenohId)
  | addService (svc : Service World)
  | services (services : Registry World)
  | addLabel (label : String)
  | labels (labels : List String)

namespace BuilderCall

variable {ZenohId World : Type}

/-- What a call does to the builder. -/
def run : BuilderCall ZenohId World → ServerBuilder ZenohId World → ServerBuilder ZenohId World
  | session s, b => b.setSession s
  | addService svc, b => b.addService svc
  | services m, b => b.setServices m
  | addLabel label, b => b.addLabel label
  | labels ls, b => b.extendLabels ls

/-- A call that passes a service, for a key of the registry. -/
def Passes (k : String) (svc : Service World) : BuilderCall ZenohId World → Prop
  | addService svc' => svc' = svc ∧ svc'.name = k
  | services m => m.lookup k = some svc
  | _ => False

/-- A call after which nothing is left of an earlier entry for a key. -/
def Replaces (k : String) : BuilderCall ZenohId World → Prop
  | addService svc => svc.name = k
  | services _ => True
  | _ => False

/-- The labels that a call passes. -/
def passedLabels : BuilderCall ZenohId World → List String
  | addLabel label => [label]
  | labels ls => ls
  | _ => []

/-- What is found under a key after a call was passed by it, or was there before and is not
replaced. -/
lemma lookup_run (c : BuilderCall ZenohId World) (b : ServerBuilder ZenohId World) (k : String)
    (svc : Service World) : (c.run b).services.lookup k = some svc ↔
      c.Passes k svc ∨ (b.services.lookup k = some svc ∧ ¬c.Replaces k) := by
  cases c with
  | session s => simp [run, Passes, Replaces, ServerBuilder.setSession]
  | addService svc' =>
    simp only [run, Passes, Replaces, ServerBuilder.addService]
    by_cases hk : svc'.name = k
    · subst hk
      simp [AList.lookup_insert]
    · simp [AList.lookup_insert_ne (Ne.symm hk), hk]
  | services m => simp [run, Passes, Replaces, ServerBuilder.setServices]
  | addLabel label => simp [run, Passes, Replaces, ServerBuilder.addLabel]
  | labels ls => simp [run, Passes, Replaces, ServerBuilder.extendLabels]

/-- The labels after a call are those before it and those it passes. -/
lemma mem_labels_run (c : BuilderCall ZenohId World) (b : ServerBuilder ZenohId World)
    (label : String) : label ∈ (c.run b).labels ↔ label ∈ c.passedLabels ∨ label ∈ b.labels := by
  cases c with
  | session s => simp [run, passedLabels, ServerBuilder.setSession]
  | addService svc => simp [run, passedLabels, ServerBuilder.addService]
  | services m => simp [run, passedLabels, ServerBuilder.setServices]
  | addLabel label' => simp [run, passedLabels, ServerBuilder.addLabel]
  | labels ls => simp [run, passedLabels, ServerBuilder.extendLabels, or_comm]

end BuilderCall

section

variable {ZenohId World : Type}

/-- What calls of a builder do to it, one after the other. -/
def ServerBuilder.runCalls (b : ServerBuilder ZenohId World)
    (calls : List (BuilderCall ZenohId World)) : ServerBuilder ZenohId World :=
  calls.foldl (fun b c => c.run b) b

/-- A service that was passed for a key by some call, and that no later call replaces. -/
def PassedLast (calls : List (BuilderCall ZenohId World)) (k : String) (svc : Service World) :
    Prop :=
  ∃ pre c post, calls = pre ++ c :: post ∧ c.Passes k svc ∧ ∀ c' ∈ post, ¬c'.Replaces k

/-- The first call is the last that counts, or some later one is. -/
lemma passedLast_cons_iff (c : BuilderCall ZenohId World)
    (calls : List (BuilderCall ZenohId World)) (k : String) (svc : Service World) :
    PassedLast (c :: calls) k svc ↔
      PassedLast calls k svc ∨ (c.Passes k svc ∧ ∀ c' ∈ calls, ¬c'.Replaces k) := by
  constructor
  · rintro ⟨pre, c', post, heq, hpasses, hpost⟩
    cases pre with
    | nil =>
      obtain ⟨rfl, rfl⟩ := List.cons.inj heq
      exact Or.inr ⟨hpasses, hpost⟩
    | cons d pre =>
      obtain ⟨_, rfl⟩ := List.cons.inj heq
      exact Or.inl ⟨pre, c', post, rfl, hpasses, hpost⟩
  · rintro (⟨pre, c', post, rfl, hpasses, hpost⟩ | ⟨hpasses, hpost⟩)
    · exact ⟨c :: pre, c', post, rfl, hpasses, hpost⟩
    · exact ⟨[], c, calls, rfl, hpasses, hpost⟩

/-- What is found under a key after some calls was passed last by one of them, or was there before
and is not replaced by any. -/
lemma ServerBuilder.lookup_runCalls (b : ServerBuilder ZenohId World)
    (calls : List (BuilderCall ZenohId World)) (k : String) (svc : Service World) :
    (b.runCalls calls).services.lookup k = some svc ↔
      PassedLast calls k svc ∨
        (b.services.lookup k = some svc ∧ ∀ c ∈ calls, ¬c.Replaces k) := by
  induction calls generalizing b with
  | nil => simp [runCalls, PassedLast]
  | cons c calls ih =>
    have hrun : b.runCalls (c :: calls) = (c.run b).runCalls calls := rfl
    rw [hrun, ih, c.lookup_run, passedLast_cons_iff, List.forall_mem_cons]
    tauto

/-- The labels after some calls are those before them and those they pass. -/
lemma ServerBuilder.mem_labels_runCalls (b : ServerBuilder ZenohId World)
    (calls : List (BuilderCall ZenohId World)) (label : String) :
    label ∈ (b.runCalls calls).labels ↔
      (∃ c ∈ calls, label ∈ c.passedLabels) ∨ label ∈ b.labels := by
  induction calls generalizing b with
  | nil => simp [runCalls]
  | cons c calls ih =>
    have hrun : b.runCalls (c :: calls) = (c.run b).runCalls calls := rfl
    rw [hrun, ih, c.mem_labels_run, List.exists_mem_cons_iff, or_left_comm, or_assoc]

/-- The server that is built after some calls. -/
def Server.ofCalls (session : Session ZenohId) (calls : List (BuilderCall ZenohId World)) :
    Server ZenohId World :=
  ((Server.builder session).runCalls calls).build

/-- The registry that is built holds exactly the services passed last for their keys. -/
lemma lookup_ofCalls (session : Session ZenohId) (calls : List (BuilderCall ZenohId World))
    (k : String) (svc : Service World) :
    (Server.ofCalls session calls).services.lookup k = some svc ↔ PassedLast calls k svc := by
  have hempty : (Server.builder session : ServerBuilder ZenohId World).services.lookup k = none :=
    AList.lookup_empty k
  have hlookup := (Server.builder session).lookup_runCalls calls k svc
  rw [hempty] at hlookup
  simpa [Server.ofCalls, ServerBuilder.build] using hlookup

/-- What the builder keeps, for every sequence of calls.  A service is registered under a key
exactly when it was passed for the key and is not replaced by a later call; its key is its name,
unless a map that was passed has it under that key; and the labels are all that were passed. -/
theorem registry_ofCalls (session : Session ZenohId) (calls : List (BuilderCall ZenohId World)) :
    (∀ k svc, (Server.ofCalls session calls).services.lookup k = some svc ↔
      PassedLast calls k svc) ∧
    (∀ k svc, (Server.ofCalls session calls).services.lookup k = some svc →
      svc.name = k ∨ ∃ m, .services m ∈ calls ∧ m.lookup k = some svc) ∧
    (∀ label, label ∈ (Server.ofCalls session calls).labels ↔
      ∃ c ∈ calls, label ∈ c.passedLabels) := by
  refine ⟨lookup_ofCalls session calls, fun k svc hlookup => ?_, fun label => ?_⟩
  · obtain ⟨pre, c, post, rfl, hpasses, _⟩ := (lookup_ofCalls session calls k svc).mp hlookup
    cases c with
    | addService svc' =>
      obtain ⟨rfl, hname⟩ := hpasses
      exact Or.inl hname
    | services m => exact Or.inr ⟨m, by simp, hpasses⟩
    | session s => exact hpasses.elim
    | addLabel label => exact hpasses.elim
    | labels ls => exact hpasses.elim
  · have hlabels := (Server.builder session).mem_labels_runCalls calls label
    simpa [Server.ofCalls, ServerBuilder.build, Server.builder] using hlabels

end

/-! ## Services that are not kept -/

section

variable {ZenohId World : Type}

/-- A server that has every service passed to its builder, each under its name, no other entries,
and all labels passed. -/
structure KeepsPassed (calls : List (BuilderCall ZenohId World)) (srv : Server ZenohId World) :
    Prop where
  kept : ∀ c ∈ calls, ∀ k svc, c.Passes k svc → srv.services.lookup svc.name = some svc
  keyed : ∀ k svc, srv.services.lookup k = some svc → svc.name = k ∧ ∃ c ∈ calls, c.Passes k svc
  labels : ∀ label, label ∈ srv.labels ↔ ∃ c ∈ calls, label ∈ c.passedLabels

end

open Reference

/-- A service with the name `Hello` that is closed. -/
def closedService : Service Unit :=
  .custom "Hello" fun _ _ => .returned (.error (Status.unavailable "closed"))

/-- A map passed to `services` takes the place of what was added before, a service takes the place
of one with the same name, and a map may hold a service under a key that is not its name. -/
theorem not_keepsPassed :
    (¬KeepsPassed [.addService closedService, .services ∅]
      (Server.ofCalls session [.addService closedService, .services ∅])) ∧
    (¬KeepsPassed [.addService (.generated (helloService hello)), .addService closedService]
      (Server.ofCalls session [.addService (.generated (helloService hello)),
        .addService closedService])) ∧
    ¬KeepsPassed [.services ((∅ : Registry Unit).insert "Bye" closedService)]
      (Server.ofCalls session [.services ((∅ : Registry Unit).insert "Bye" closedService)]) := by
  refine ⟨fun h => ?_, fun h => ?_, fun h => ?_⟩
  · have hlookup := h.kept (.addService closedService) (by simp) "Hello" closedService ⟨rfl, rfl⟩
    have hnone : (Server.ofCalls session [.addService closedService, .services ∅]).services.lookup
        closedService.name = none := AList.lookup_empty _
    rw [hnone] at hlookup
    cases hlookup
  · have hhello := h.kept (.addService (.generated (helloService hello))) (by simp) "Hello" _
      ⟨rfl, rfl⟩
    have hclosed := h.kept (.addService closedService) (by simp) "Hello" _ ⟨rfl, rfl⟩
    have hname : (Service.generated (helloService hello)).name = closedService.name := rfl
    rw [hname, hclosed] at hhello
    cases hhello
  · have hlookup : (Server.ofCalls session
        [.services ((∅ : Registry Unit).insert "Bye" closedService)]).services.lookup "Bye" =
        some closedService := AList.lookup_insert _
    exact absurd (h.keyed "Bye" closedService hlookup).1 (by decide)

end ZenohRpc
