import ZenohRpc.Service.Generated

/-!
# Parsing the methods of a service

`RPCMethod::parse` of `zrpc-derive/src/lib.rs`, from the point where `syn` has read the arguments of
a method: receivers in any form and typed arguments with any pattern.  The parser gathers its errors
into one, and the typed arguments it accepts are written as they are into the struct that is the
request of the method (`derive_requests`).

Two kinds of arguments are refused: receivers by value, and patterns that are no identifiers.  What
else a field or the list of arguments may not be is let through: a receiver that is not the first
argument, an identifier pattern with `ref`, `mut`, `@` or an attribute, and a name that is used
twice.  So the parser accepts exactly the lists of a receiver by reference and plain distinct names
when the list has none of those (`parsesExactly_iff`).  Whether the generated code compiles is more:
of a receiver `&mut self` only the `mut` is cleared, and `&self: &mut Self` is no receiver in Rust.
-/

namespace ZenohRpc

/-! ## What `syn` reads -/

/-- `syn::Pat`, as far as the parser and the generated code look at it: an identifier, or any other
pattern. -/
inductive Pat (Span : Type)
  | ident (span : Span) (byRef mutability : Bool) (ident : Ident) (subpat : Option (Pat Span))
  | other (span : Span)

/-- `syn::PatType`. -/
structure PatType (Span Ty : Type) where
  attrs : List String
  pat : Pat Span
  ty : Ty

/-- `syn::Receiver`: the lifetime of its `&` if it has one, `mut`, and the type written for it. -/
structure Receiver (Span Ty : Type) where
  span : Span
  reference : Option (Option String)
  mutability : Bool
  ty : Option Ty

/-- `syn::FnArg`. -/
inductive FnArg (Span Ty : Type)
  | receiver (receiver : Receiver Span Ty)
  | typed (captured : PatType Span Ty)

/-- A message of a `syn::Error`, with its place. -/
structure SynError (Span : Type) where
  span : Span
  message : String

variable {Span Ty : Type}

/-- The place of a pattern. -/
def Pat.span : Pat Span → Span
  | ident span _ _ _ _ => span
  | other span => span

/-- The place of an argument. -/
def FnArg.span : FnArg Span Ty → Span
  | receiver r => r.span
  | typed a => a.pat.span

/-! ## The parser -/

/-- `extend_errors!`. -/
def extendErrors : Except (List (SynError Span)) Unit → SynError Span →
    Except (List (SynError Span)) Unit
  | .ok _, e => .error [e]
  | .error errors, e => .error (errors ++ [e])

/-- `RPCMethod`. -/
structure RPCMethod (Span Ty : Type) where
  ident : Ident
  receiver : Receiver Span Ty
  args : List (PatType Span Ty)
  output : Option Ty

/-- The variables of the loop over the arguments. -/
structure ParseState (Span Ty : Type) where
  recv : Option (Receiver Span Ty)
  args : List (PatType Span Ty)
  errors : Except (List (SynError Span)) Unit

/-- The body of the loop over the arguments. -/
def ParseState.step (st : ParseState Span Ty) : FnArg Span Ty → ParseState Span Ty
  | .typed captured =>
    match captured.pat with
    | .ident _ _ _ _ _ => { st with args := st.args ++ [captured] }
    | .other span =>
      { st with errors := extendErrors st.errors ⟨span, "patterns aren't allowed in RPC args"⟩ }
  | .receiver receiver =>
    let receiver := { receiver with mutability := false }
    { st with
      errors := if receiver.reference.isNone then
        extendErrors st.errors ⟨receiver.span, "method args take ownership on self"⟩ else st.errors
      recv := some receiver }

/-- `RPCMethod::parse`, on the arguments that `syn` read; an error without a receiver to point at
points at the call of the macro. -/
def RPCMethod.parse (callSite : Span) (ident : Ident) (args : List (FnArg Span Ty))
    (output : Option Ty) : Outcome (Except (List (SynError Span)) (RPCMethod Span Ty)) :=
  let st := args.foldl ParseState.step ⟨none, [], .ok ()⟩
  let errors := if st.recv.isNone then
    extendErrors st.errors
      ⟨callSite, "Missing any receiver in method declaration, please add one!"⟩ else st.errors
  match errors with
  | .error e => .returned (.error e)
  | .ok _ =>
    match st.recv with
    | none => .panicked
    | some receiver => .returned (.ok ⟨ident, receiver, st.args, output⟩)

/-- The fields of the struct that `derive_requests` writes: the arguments, each behind `pub`. -/
def RPCMethod.requestFields (method : RPCMethod Span Ty) : List (PatType Span Ty) := method.args

/-! ## What a list of arguments should be -/

/-- The name of a typed argument that can be a field `name: type`. -/
def PatType.plainName (a : PatType Span Ty) : Option String :=
  match a.attrs, a.pat with
  | [], .ident _ false false ident none => some ident.name
  | _, _ => none

namespace FnArg

/-- The receiver that an argument is. -/
def receiver? : FnArg Span Ty → Option (Receiver Span Ty)
  | receiver r => some r
  | typed _ => none

/-- The typed argument that an argument is. -/
def typed? : FnArg Span Ty → Option (PatType Span Ty)
  | receiver _ => none
  | typed a => some a

/-- The name of an argument that can be a field. -/
def plainName : FnArg Span Ty → Option String
  | receiver _ => none
  | typed a => a.plainName

/-- Whether an argument may not stand behind others: a receiver that is by value or not the first
argument, or a typed argument that cannot be a field, or has the name of an earlier one. -/
def offends (pre : List (FnArg Span Ty)) : FnArg Span Ty → Bool
  | receiver r => r.reference.isNone || !pre.isEmpty
  | typed a =>
    match a.plainName with
    | none => true
    | some x => pre.any fun b => b.plainName == some x

end FnArg

/-- The arguments that may not stand behind those before them. -/
def offending (pre : List (FnArg Span Ty)) : List (FnArg Span Ty) → List (FnArg Span Ty)
  | [] => []
  | arg :: rest =>
    if arg.offends pre then arg :: offending (pre ++ [arg]) rest else offending (pre ++ [arg]) rest

/-- A receiver by reference, and behind it plain identifiers with distinct names. -/
def WellFormed (args : List (FnArg Span Ty)) : Prop :=
  ∃ (r : Receiver Span Ty) (typed : List (PatType Span Ty)),
    args = .receiver r :: typed.map .typed ∧ r.reference.isSome = true ∧
      (∀ a ∈ typed, a.plainName.isSome = true) ∧ (typed.filterMap PatType.plainName).Nodup

/-- The parser does what it is for on a list of arguments.  It accepts the list exactly when it is
well formed; the request then has one plain field for each typed argument, in order; and otherwise
there is one error for each argument that may not stand where it does, at its place, and one if
there is no receiver. -/
structure ParsesExactly (callSite : Span) (ident : Ident) (output : Option Ty)
    (args : List (FnArg Span Ty)) : Prop where
  accepts : (∃ m, RPCMethod.parse callSite ident args output = .returned (.ok m)) ↔ WellFormed args
  fields : ∀ m, RPCMethod.parse callSite ident args output = .returned (.ok m) →
    m.requestFields = args.filterMap FnArg.typed? ∧
      ∀ a ∈ m.requestFields, a.plainName.isSome = true
  errors : ∀ es, RPCMethod.parse callSite ident args output = .returned (.error es) →
    es.map SynError.span = (offending [] args).map FnArg.span ++
      if (args.filterMap FnArg.receiver?).isEmpty then [callSite] else []

/-- A list without the arguments that the parser lets through: receivers by reference come first,
identifier patterns are plain, and plain names are distinct. -/
structure NothingOverlooked (args : List (FnArg Span Ty)) : Prop where
  receivers : ∀ pre r post, args = pre ++ .receiver r :: post → r.reference.isSome = true → pre = []
  plain : ∀ attrs span byRef mutability ident subpat ty,
    .typed ⟨attrs, .ident span byRef mutability ident subpat, ty⟩ ∈ args →
      attrs = [] ∧ byRef = false ∧ mutability = false ∧ subpat.isNone = true
  names : (args.filterMap FnArg.plainName).Nodup

/-! ## What the loop does -/

/-- The error that the loop makes of an argument. -/
def FnArg.refused : FnArg Span Ty → Option (SynError Span)
  | receiver r =>
    if r.reference.isNone then some ⟨r.span, "method args take ownership on self"⟩ else none
  | typed a =>
    match a.pat with
    | .ident _ _ _ _ _ => none
    | .other span => some ⟨span, "patterns aren't allowed in RPC args"⟩

/-- The argument of the method that the loop makes of an argument. -/
def FnArg.kept : FnArg Span Ty → Option (PatType Span Ty)
  | receiver _ => none
  | typed a =>
    match a.pat with
    | .ident _ _ _ _ _ => some a
    | .other _ => none

/-- What the loop makes of one argument. -/
lemma ParseState.step_eq (st : ParseState Span Ty) (arg : FnArg Span Ty) :
    (st.step arg).errors = arg.refused.toList.foldl extendErrors st.errors ∧
    (st.step arg).args = st.args ++ arg.kept.toList ∧
    ((st.step arg).recv.isNone = true ↔ st.recv.isNone = true ∧ arg.receiver? = none) := by
  cases arg with
  | receiver r =>
    cases hr : r.reference <;> simp [step, FnArg.refused, FnArg.kept, FnArg.receiver?, hr]
  | typed a =>
    obtain ⟨attrs, pat, ty⟩ := a
    cases pat <;> simp [step, FnArg.refused, FnArg.kept, FnArg.receiver?]

/-- What the loop makes of the arguments: the errors of those it refuses, and the arguments that it
keeps. -/
lemma ParseState.foldl_step (args : List (FnArg Span Ty)) (st : ParseState Span Ty) :
    (args.foldl step st).errors = (args.filterMap FnArg.refused).foldl extendErrors st.errors ∧
    (args.foldl step st).args = st.args ++ args.filterMap FnArg.kept ∧
    ((args.foldl step st).recv.isNone = true ↔
      st.recv.isNone = true ∧ args.filterMap FnArg.receiver? = []) := by
  induction args generalizing st with
  | nil => simp
  | cons arg args ih =>
    obtain ⟨herrors, hargs, hrecv⟩ := st.step_eq arg
    obtain ⟨herrors', hargs', hrecv'⟩ := ih (st.step arg)
    rw [List.foldl_cons]
    refine ⟨?_, ?_, ?_⟩
    · rw [herrors', herrors, List.filterMap_cons]
      cases arg.refused <;> rfl
    · rw [hargs', hargs, List.filterMap_cons, List.append_assoc]
      cases arg.kept <;> rfl
    · rw [hrecv', hrecv, List.filterMap_cons]
      cases arg.receiver? <;> simp

/-- Errors are gathered behind those there are. -/
lemma foldl_extendErrors (errors es : List (SynError Span)) :
    es.foldl extendErrors (.error errors) = .error (errors ++ es) := by
  induction es generalizing errors with
  | nil => simp
  | cons e es ih => rw [List.foldl_cons, extendErrors, ih, List.append_assoc, List.singleton_append]

/-- The errors of the parser, in the order in which it makes them. -/
def parseErrors (callSite : Span) (args : List (FnArg Span Ty)) : List (SynError Span) :=
  args.filterMap FnArg.refused ++
    if (args.filterMap FnArg.receiver?).isEmpty then
      [⟨callSite, "Missing any receiver in method declaration, please add one!"⟩] else []

/-- What the parser does: it fails with its errors, or returns the arguments it kept when there are
none.  It never runs into the `unwrap` of the receiver. -/
lemma RPCMethod.parse_cases (callSite : Span) (ident : Ident) (args : List (FnArg Span Ty))
    (output : Option Ty) :
    (parseErrors callSite args = [] ∧ ∃ receiver, parse callSite ident args output =
      .returned (.ok ⟨ident, receiver, args.filterMap FnArg.kept, output⟩)) ∨
    (parseErrors callSite args ≠ [] ∧ parse callSite ident args output =
      .returned (.error (parseErrors callSite args))) := by
  obtain ⟨herrors, hargs, hrecv⟩ := ParseState.foldl_step args ⟨none, [], .ok ()⟩
  simp only [Option.isNone_none, true_and] at hrecv
  have hall : (if (args.foldl ParseState.step ⟨none, [], .ok ()⟩).recv.isNone then
      extendErrors (args.foldl ParseState.step ⟨none, [], .ok ()⟩).errors
        ⟨callSite, "Missing any receiver in method declaration, please add one!"⟩
      else (args.foldl ParseState.step ⟨none, [], .ok ()⟩).errors) =
      (parseErrors callSite args).foldl extendErrors (.ok ()) := by
    rw [parseErrors, List.foldl_append, ← herrors]
    by_cases hnone : args.filterMap FnArg.receiver? = []
    · rw [if_pos (hrecv.mpr hnone), if_pos (List.isEmpty_iff.mpr hnone)]
      rfl
    · rw [if_neg fun h => hnone (hrecv.mp h), if_neg fun h => hnone (List.isEmpty_iff.mp h)]
      rfl
  unfold parse
  simp only [hall]
  cases herrs : parseErrors callSite args with
  | nil =>
    refine Or.inl ⟨rfl, ?_⟩
    cases hst : (args.foldl ParseState.step ⟨none, [], .ok ()⟩).recv with
    | none =>
      rw [hst] at hrecv
      rw [parseErrors, if_pos (List.isEmpty_iff.mpr (hrecv.mp rfl))] at herrs
      simp at herrs
    | some receiver =>
      refine ⟨receiver, ?_⟩
      simp only [List.foldl_nil, hargs, List.nil_append]
  | cons e es =>
    refine Or.inr ⟨by simp, ?_⟩
    rw [List.foldl_cons, extendErrors, foldl_extendErrors]
    rfl

/-! ## Which arguments may not stand where they do -/

/-- The parser refuses only arguments that may not stand where they do, with an error at their
place. -/
lemma FnArg.refused_spec (pre : List (FnArg Span Ty)) (arg : FnArg Span Ty) {e : SynError Span}
    (h : arg.refused = some e) : arg.offends pre = true ∧ e.span = arg.span := by
  cases arg with
  | receiver r =>
    simp only [refused] at h
    split at h
    · rename_i hvalue
      rw [← Option.some.inj h]
      exact ⟨by simp [offends, hvalue], rfl⟩
    · cases h
  | typed a =>
    obtain ⟨attrs, pat, ty⟩ := a
    cases pat with
    | ident span byRef mutability ident subpat => simp [refused] at h
    | other span =>
      rw [← Option.some.inj h]
      exact ⟨by simp [offends, PatType.plainName], rfl⟩

/-- The arguments that may not stand where they do are those that the parser refuses, when it
refuses each of them. -/
lemma offending_eq (pre : List (FnArg Span Ty)) {rest : List (FnArg Span Ty)}
    (h : ∀ before arg after, rest = before ++ arg :: after →
      arg.offends (pre ++ before) = true → arg.refused.isSome = true) :
    (offending pre rest).map FnArg.span = (rest.filterMap FnArg.refused).map SynError.span := by
  induction rest generalizing pre with
  | nil => rfl
  | cons arg rest ih =>
    have hrest := ih (pre ++ [arg]) fun before arg' after heq hoffends =>
      h (arg :: before) arg' after (by rw [heq]; rfl) (by simpa using hoffends)
    rw [offending, List.filterMap_cons]
    cases hrefused : arg.refused with
    | none =>
      have hnot : ¬arg.offends pre = true := by
        intro hoffends
        have hsome := h [] arg rest rfl (by simpa using hoffends)
        rw [hrefused] at hsome
        cases hsome
      rw [if_neg hnot]
      exact hrest
    | some e =>
      obtain ⟨hoffends, hspan⟩ := arg.refused_spec pre hrefused
      rw [if_pos hoffends, List.map_cons, List.map_cons, hspan, hrest]

/-- At least as many arguments may not stand where they do as the parser refuses. -/
lemma length_refused_le (pre rest : List (FnArg Span Ty)) :
    (rest.filterMap FnArg.refused).length ≤ (offending pre rest).length := by
  induction rest generalizing pre with
  | nil => simp
  | cons arg rest ih =>
    have hrest := ih (pre ++ [arg])
    rw [offending, List.filterMap_cons]
    cases hrefused : arg.refused with
    | none =>
      simp only
      split
      · exact hrest.trans (by simp)
      · exact hrest
    | some e =>
      rw [if_pos (arg.refused_spec pre hrefused).1]
      simpa using hrest

/-- More arguments may not stand where they do than the parser refuses, when it lets one of them
through. -/
lemma length_refused_lt (pre : List (FnArg Span Ty)) {rest before after : List (FnArg Span Ty)}
    {arg : FnArg Span Ty}
    (heq : rest = before ++ arg :: after) (hoffends : arg.offends (pre ++ before) = true)
    (hrefused : arg.refused = none) :
    (rest.filterMap FnArg.refused).length < (offending pre rest).length := by
  induction before generalizing pre rest with
  | nil =>
    rw [List.append_nil] at hoffends
    rw [heq, List.nil_append, offending, if_pos hoffends, List.filterMap_cons, hrefused]
    exact Nat.lt_succ_of_le (length_refused_le _ _)
  | cons arg' before ih =>
    have hrest := ih (pre ++ [arg']) rfl (by simpa using hoffends)
    rw [heq, List.cons_append, offending, List.filterMap_cons]
    cases hrefused' : arg'.refused with
    | none =>
      simp only
      split
      · exact hrest.trans (by simp)
      · exact hrest
    | some e =>
      rw [if_pos (arg'.refused_spec pre hrefused').1]
      simpa using hrest

/-- No argument stands where it may not exactly when each may stand behind those before it. -/
lemma offending_eq_nil_iff {pre rest : List (FnArg Span Ty)} : offending pre rest = [] ↔
    ∀ before arg after, rest = before ++ arg :: after → arg.offends (pre ++ before) = false := by
  induction rest generalizing pre with
  | nil => simp [offending]
  | cons arg rest ih =>
    rw [offending]
    constructor
    · intro h before arg' after heq
      split at h
      · cases h
      · rename_i hnot
        cases before with
        | nil =>
          obtain ⟨rfl, _⟩ := List.cons.inj heq
          simpa using hnot
        | cons arg'' before =>
          obtain ⟨rfl, hrest⟩ := List.cons.inj heq
          simpa using ih.mp h before arg' after hrest
    · intro h
      have hnot := h [] arg rest rfl
      rw [List.append_nil] at hnot
      rw [hnot, if_neg (by simp)]
      refine ih.mpr fun before arg' after heq => ?_
      simpa using h (arg :: before) arg' after (by rw [heq]; rfl)

/-- A relation holds between every element of a list and those behind it exactly when it holds
between those before an element and the element. -/
lemma pairwise_iff_append {α : Type} {R : α → α → Prop} {l : List α} :
    l.Pairwise R ↔ ∀ before a after, l = before ++ a :: after → ∀ b ∈ before, R b a := by
  constructor
  · rintro h before a after rfl b hb
    exact (List.pairwise_append.mp h).2.2 b hb a (by simp)
  · intro h
    induction l with
    | nil => exact .nil
    | cons a l ih =>
      refine .cons (fun c hc => ?_) (ih fun before c after heq b hb => ?_)
      · obtain ⟨before, after, rfl⟩ := List.append_of_mem hc
        exact h (a :: before) c after rfl a (by simp)
      · exact h (a :: before) c after (by rw [heq]; rfl) b (by simp [hb])

/-- The names that a list of arguments has are distinct exactly when no argument has the name of an
earlier one. -/
lemma nodup_plainName_iff {args : List (FnArg Span Ty)} :
    (args.filterMap FnArg.plainName).Nodup ↔ ∀ before arg after, args = before ++ arg :: after →
      ∀ x, arg.plainName = some x → ∀ b ∈ before, b.plainName ≠ some x := by
  rw [List.Nodup, List.pairwise_filterMap, pairwise_iff_append]
  constructor
  · intro h before arg after heq x hx b hb hbx
    exact h before arg after heq b hb x hbx x hx rfl
  · rintro h before arg after heq b hb x hbx y hy rfl
    exact h before arg after heq x hy b hb hbx

/-- A typed argument may not stand where it does exactly when it cannot be a field, or has the name
of an earlier one. -/
lemma offends_typed_iff {pre : List (FnArg Span Ty)} {a : PatType Span Ty} :
    (FnArg.typed a).offends pre = true ↔
      a.plainName = none ∨ ∃ x, a.plainName = some x ∧ ∃ b ∈ pre, b.plainName = some x := by
  unfold FnArg.offends
  cases ha : a.plainName with
  | none => simp [ha]
  | some x => simp [ha]

/-- A typed argument can be a field exactly when it is an identifier pattern and nothing else. -/
lemma plainName_ident_eq_none_iff (attrs : List String) (span : Span) (byRef mutability : Bool)
    (ident : Ident) (subpat : Option (Pat Span)) (ty : Ty) :
    (⟨attrs, .ident span byRef mutability ident subpat, ty⟩ : PatType Span Ty).plainName = none ↔
      ¬(attrs = [] ∧ byRef = false ∧ mutability = false ∧ subpat.isNone = true) := by
  cases attrs <;> cases byRef <;> cases mutability <;> cases subpat <;> simp [PatType.plainName]

/-- A list has nothing that the parser lets through exactly when every argument that may not stand
where it does is refused. -/
lemma nothingOverlooked_iff {args : List (FnArg Span Ty)} : NothingOverlooked args ↔
    ∀ before arg after, args = before ++ arg :: after → arg.offends before = true →
      arg.refused.isSome = true := by
  constructor
  · rintro ⟨hreceivers, hplain, hnames⟩ before arg after heq hoffends
    cases arg with
    | receiver r =>
      by_cases hr : r.reference.isNone = true
      · simp [FnArg.refused, hr]
      · have hpre := hreceivers before r after heq (by simpa [Option.isSome_iff_ne_none] using hr)
        rw [hpre] at hoffends
        simp [FnArg.offends, hr] at hoffends
    | typed a =>
      obtain ⟨attrs, pat, ty⟩ := a
      cases pat with
      | other span => rfl
      | ident span byRef mutability ident subpat =>
        rcases offends_typed_iff.mp hoffends with hnone | ⟨x, hx, b, hb, hbx⟩
        · exact absurd (hplain attrs span byRef mutability ident subpat ty (by rw [heq]; simp))
            ((plainName_ident_eq_none_iff ..).mp hnone)
        · exact absurd hbx (nodup_plainName_iff.mp hnames before _ after heq x hx b hb)
  · intro h
    refine ⟨fun pre r post heq hr => ?_, fun attrs span byRef mutability ident subpat ty hmem => ?_,
      nodup_plainName_iff.mpr fun before arg after heq x hx b hb hbx => ?_⟩
    · by_contra hpre
      have hrefused := h pre _ post heq (by simp [FnArg.offends, hpre])
      simp [FnArg.refused, Option.isNone_iff_eq_none, Option.isSome_iff_ne_none.mp hr] at hrefused
    · by_contra hnot
      obtain ⟨before, after, heq⟩ := List.append_of_mem hmem
      have hrefused := h before _ after heq
        (offends_typed_iff.mpr (Or.inl ((plainName_ident_eq_none_iff ..).mpr hnot)))
      cases hrefused
    · cases arg with
      | receiver r => cases hx
      | typed a =>
        have hrefused := h before _ after heq (offends_typed_iff.mpr (Or.inr ⟨x, hx, b, hb, hbx⟩))
        obtain ⟨attrs, pat, ty⟩ := a
        cases pat with
        | other span => cases attrs <;> cases hx
        | ident span byRef mutability ident subpat => cases hrefused

/-- A list is well formed exactly when it has a receiver and no argument stands where it may not. -/
lemma wellFormed_iff {args : List (FnArg Span Ty)} :
    WellFormed args ↔ offending [] args = [] ∧ args.filterMap FnArg.receiver? ≠ [] := by
  rw [offending_eq_nil_iff]
  simp only [List.nil_append]
  constructor
  · rintro ⟨r, typed, rfl, hr, hplain, hnodup⟩
    refine ⟨fun before arg after heq => ?_, by simp [FnArg.receiver?]⟩
    have hnames : ((FnArg.receiver r :: typed.map FnArg.typed).filterMap
        FnArg.plainName).Nodup := by
      rwa [List.filterMap_cons, FnArg.plainName, List.filterMap_map]
    cases before with
    | nil =>
      obtain ⟨rfl, _⟩ := List.cons.inj heq
      simpa [FnArg.offends, Option.isNone_iff_eq_none, Option.isSome_iff_ne_none] using hr
    | cons b before =>
      obtain ⟨_, htyped⟩ := List.cons.inj heq
      have hmem : arg ∈ typed.map FnArg.typed := by rw [htyped]; simp
      obtain ⟨a, ha, rfl⟩ := List.mem_map.mp hmem
      rw [Bool.eq_false_iff, Ne, offends_typed_iff]
      rintro (hnone | ⟨x, hx, c, hc, hcx⟩)
      · have hsome := hplain a ha
        rw [hnone] at hsome
        cases hsome
      · exact nodup_plainName_iff.mp hnames _ _ _ heq x hx c hc hcx
  · rintro ⟨hstands, hreceiver⟩
    obtain ⟨r, hr⟩ := List.exists_mem_of_ne_nil _ hreceiver
    obtain ⟨arg, harg, hargr⟩ := List.mem_filterMap.mp hr
    obtain ⟨before, after, rfl⟩ := List.append_of_mem harg
    cases arg with
    | typed a => cases hargr
    | receiver r' =>
      have hfirst := hstands before _ after rfl
      simp only [FnArg.offends, Bool.or_eq_false_iff, Bool.not_eq_false',
        List.isEmpty_iff] at hfirst
      obtain ⟨hreference, rfl⟩ := hfirst
      have htyped : ∀ c ∈ after, c ∈ Set.range FnArg.typed := by
        intro c hc
        obtain ⟨s, t, rfl⟩ := List.append_of_mem hc
        have hc' := hstands (FnArg.receiver r' :: s) c t rfl
        cases c with
        | receiver r'' => simp [FnArg.offends] at hc'
        | typed a => exact ⟨a, rfl⟩
      obtain ⟨typed, rfl⟩ : after ∈ Set.range (List.map FnArg.typed) := by
        rw [Set.range_list_map]
        exact htyped
      refine ⟨r', typed, rfl, by simpa using hreference, fun a ha => ?_, ?_⟩
      · obtain ⟨s, t, rfl⟩ := List.append_of_mem ha
        have ha' := hstands (FnArg.receiver r' :: s.map FnArg.typed) (.typed a) (t.map FnArg.typed)
          (by simp)
        rw [Bool.eq_false_iff, Ne, offends_typed_iff, not_or] at ha'
        exact Option.isSome_iff_ne_none.mpr ha'.1
      · have hnames : ((FnArg.receiver r' :: typed.map FnArg.typed).filterMap
            FnArg.plainName).Nodup := by
          refine nodup_plainName_iff.mpr fun before arg after heq x hx b hb hbx => ?_
          have harg' := hstands before arg after heq
          cases arg with
          | receiver r'' => cases hx
          | typed a =>
            rw [offends_typed_iff.mpr (Or.inr ⟨x, hx, b, hb, hbx⟩)] at harg'
            cases harg'
        rwa [List.filterMap_cons, FnArg.plainName, List.filterMap_map] at hnames

/-! ## The parser against its purpose -/

/-- When the parser makes no error, it kept every typed argument. -/
lemma filterMap_kept {args : List (FnArg Span Ty)} (h : args.filterMap FnArg.refused = []) :
    args.filterMap FnArg.kept = args.filterMap FnArg.typed? := by
  refine List.filterMap_congr fun arg harg => ?_
  have hrefused := List.filterMap_eq_nil_iff.mp h arg harg
  cases arg with
  | receiver r => rfl
  | typed a =>
    obtain ⟨attrs, pat, ty⟩ := a
    cases pat with
    | ident span byRef mutability ident subpat => rfl
    | other span => cases hrefused

/-- The parser makes no error exactly when it refuses no argument and there is a receiver. -/
lemma parseErrors_eq_nil_iff {callSite : Span} {args : List (FnArg Span Ty)} :
    parseErrors callSite args = [] ↔
      args.filterMap FnArg.refused = [] ∧ args.filterMap FnArg.receiver? ≠ [] := by
  rw [parseErrors, List.append_eq_nil_iff]
  refine and_congr_right fun _ => ?_
  split <;> simp_all

/-- The places of the errors of the parser are those of the arguments that it refuses, and of the
call of the macro when there is no receiver. -/
lemma map_span_parseErrors (callSite : Span) (args : List (FnArg Span Ty)) :
    (parseErrors callSite args).map SynError.span =
      (args.filterMap FnArg.refused).map SynError.span ++
        if (args.filterMap FnArg.receiver?).isEmpty then [callSite] else [] := by
  rw [parseErrors, List.map_append]
  split <;> rfl

/-- The parser does what it is for exactly on the lists that have no receiver by reference behind
another argument, no identifier pattern with anything but the identifier, and no name twice. -/
theorem parsesExactly_iff {callSite : Span} {ident : Ident} {output : Option Ty}
    {args : List (FnArg Span Ty)} :
    ParsesExactly callSite ident output args ↔ NothingOverlooked args := by
  rw [nothingOverlooked_iff]
  constructor
  · intro h before arg after heq hoffends
    by_contra hnot
    have hlt := length_refused_lt [] heq hoffends (by simpa using hnot)
    rcases RPCMethod.parse_cases callSite ident args output with
      ⟨-, receiver, hparse⟩ | ⟨-, hparse⟩
    · have hnil := (wellFormed_iff.mp (h.accepts.mp ⟨_, hparse⟩)).1
      rw [hnil] at hlt
      exact Nat.not_lt_zero _ hlt
    · have hspans := h.errors _ hparse
      rw [map_span_parseErrors] at hspans
      have hlength := congrArg List.length (List.append_cancel_right hspans)
      rw [List.length_map, List.length_map] at hlength
      exact hlt.ne hlength
  · intro h
    have hspans : (offending [] args).map FnArg.span =
        (args.filterMap FnArg.refused).map SynError.span := offending_eq [] h
    have hwell : WellFormed args ↔ parseErrors callSite args = [] := by
      rw [wellFormed_iff, parseErrors_eq_nil_iff, ← List.map_eq_nil_iff (f := FnArg.span), hspans,
        List.map_eq_nil_iff]
    rcases RPCMethod.parse_cases callSite ident args output with
      ⟨hnil, receiver, hparse⟩ | ⟨herrs, hparse⟩
    · have hkept := filterMap_kept (parseErrors_eq_nil_iff.mp hnil).1
      refine ⟨⟨fun _ => hwell.mpr hnil, fun _ => ⟨_, hparse⟩⟩, fun m hm => ?_, fun es hes => ?_⟩
      · rw [hparse] at hm
        cases hm
        obtain ⟨r, typed, rfl, -, hplain, -⟩ := hwell.mpr hnil
        refine ⟨hkept, fun a ha => hplain a ?_⟩
        rw [RPCMethod.requestFields, hkept] at ha
        obtain ⟨arg, harg, harga⟩ := List.mem_filterMap.mp ha
        rcases List.mem_cons.mp harg with rfl | harg
        · cases harga
        · obtain ⟨b, hb, rfl⟩ := List.mem_map.mp harg
          rwa [← Option.some.inj harga]
      · rw [hparse] at hes
        cases hes
    · refine ⟨⟨fun ⟨m, hm⟩ => ?_, fun hw => absurd (hwell.mp hw) herrs⟩, fun m hm => ?_,
        fun es hes => ?_⟩
      · rw [hparse] at hm
        cases hm
      · rw [hparse] at hm
        cases hm
      · rw [hparse] at hes
        cases hes
        rw [map_span_parseErrors, hspans]

/-- The arguments of `async fn hello(name: String, &self) -> String;`, placed by their position. -/
def Reference.lateReceiver : List (FnArg Nat String) :=
  [.typed ⟨[], .ident 0 false false
      ⟨false, "name", by decide, List.all_eq_true.mp (by decide)⟩ none, "String"⟩,
    .receiver ⟨1, some none, false, none⟩]

/-- The parser accepts a method whose receiver comes last, which is no method in Rust. -/
theorem not_parsesExactly_lateReceiver :
    ¬ParsesExactly 2 ⟨false, "hello", by decide, List.all_eq_true.mp (by decide)⟩ (some "String")
      Reference.lateReceiver := by
  intro h
  obtain ⟨r, typed, hargs, -⟩ := h.accepts.mp ⟨_, rfl⟩
  cases hargs

end ZenohRpc
