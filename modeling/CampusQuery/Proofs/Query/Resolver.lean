import CampusQuery.Proofs.Query.Scope

/-!
Sequences of calls to one resolver. Main statements: a resolver keeps to the dataset that it was
given or to that of the first key that it resolves, and calls that fail leave no trace unless one of
them resolves the first key and refuses its value.
-/

namespace CampusQuery

theorem splitKey_eq_ok_iff {key datasetId field : String} :
    splitKey key = .ok (datasetId, field) ↔
      key = qualify datasetId field ∧ '_' ∉ datasetId.toList ∧ '_' ∉ field.toList :=
  splitKey_eq_ok.trans splitKey?_eq_some_iff

namespace Resolver

section Answers

variable {r : Resolver} {key : String} {ref : FieldRef} {e : QueryError}

theorem resolve_eq_ok : (r.resolve key).1 = .ok ref ↔
    splitKey? key = some (ref.datasetId, ref.field.name) ∧ ref.field.kind = r.kind ∧
      ∀ datasetId, r.datasetId = some datasetId → datasetId = ref.datasetId := by
  obtain ⟨kind, fixed⟩ := r
  have inScope : (resolve ⟨kind, fixed⟩ key).1 =
      (scopeFor ⟨kind, fixed⟩ key >>= fun scope => scope.resolve key) := by
    unfold resolve
    split <;> next h => exact h.symm
  rw [inScope, bind_eq_ok]
  cases fixed with
  | some datasetId =>
    simp only [scopeFor, Except.ok.injEq, exists_eq_left', Scope.resolve_eq_ok,
      Option.some.injEq, forall_eq']
    grind
  | none =>
    simp only [scopeFor, map_eq_ok, splitKey_eq_ok, Scope.resolve_eq_ok]
    grind

/-- A key that is resolved fixes its dataset; any other leaves the resolver. -/
theorem resolve_cases (r : Resolver) (key : String) :
    (∃ ref, r.resolve key = (.ok ref, ⟨r.kind, some ref.datasetId⟩)) ∨
      ∃ e, r.resolve key = (.error e, r) := by
  unfold resolve
  split
  · next ref _ => exact .inl ⟨ref, rfl⟩
  · next e _ => exact .inr ⟨e, rfl⟩

theorem resolve_snd_of_ok (h : (r.resolve key).1 = .ok ref) :
    (r.resolve key).2 = ⟨r.kind, some ref.datasetId⟩ := by
  obtain ⟨other, hother⟩ | ⟨e, he⟩ := r.resolve_cases key
  · rw [hother] at h ⊢
    cases h
    rfl
  · rw [he] at h
    contradiction

theorem resolve_snd_of_error (h : (r.resolve key).1 = .error e) : (r.resolve key).2 = r := by
  obtain ⟨ref, href⟩ | ⟨e, he⟩ := r.resolve_cases key
  · rw [href] at h
    contradiction
  · rw [he]

/-- A dataset that is fixed stays fixed. -/
theorem resolve_snd_of_fixed {datasetId : String} (fixed : r.datasetId = some datasetId)
    (key : String) : (r.resolve key).2 = r := by
  cases h : (r.resolve key).1 with
  | error e => exact resolve_snd_of_error h
  | ok ref =>
    obtain ⟨-, -, same⟩ := resolve_eq_ok.1 h
    rw [resolve_snd_of_ok h, ← same datasetId fixed, ← fixed]

end Answers

/-- A key that is to be resolved, with a value if there is one to be checked. -/
structure Call where
  key : String
  value? : Option Json

/-- The answer to a call, and the resolver afterwards. -/
def answer (r : Resolver) (call : Call) : QueryResult FieldRef × Resolver :=
  match call.value? with
  | none => r.resolve call.key
  | some value => r.resolveWithValue call.key value

section Calls

variable {r : Resolver} {call : Call} {ref : FieldRef} {e : QueryError}

/-- The value of a call has no part in what it does to the resolver. -/
theorem answer_snd (r : Resolver) (call : Call) : (r.answer call).2 = (r.resolve call.key).2 := by
  unfold answer
  split <;> rfl

theorem answer_eq_ok : (r.answer call).1 = .ok ref ↔ (r.resolve call.key).1 = .ok ref ∧
    ∀ value, call.value? = some value → ref.fieldType.accepts value = true := by
  unfold answer
  cases call.value? with
  | none => simp
  | some value =>
    have checked : (r.resolveWithValue call.key value).1 =
        ((r.resolve call.key).1 >>= Scope.checkValue call.key value) := rfl
    simp only [checked, bind_eq_ok, Scope.checkValue, Option.some.injEq, forall_eq']
    grind

/-- The call resolves the first key of the resolver, which fixes the dataset, and then fails over its
value. -/
def FixesInFailure (r : Resolver) (call : Call) : Prop :=
  r.datasetId = none ∧ (r.resolve call.key).1.isOk = true ∧ (r.answer call).1.isOk = false

instance (r : Resolver) (call : Call) : Decidable (r.FixesInFailure call) :=
  inferInstanceAs (Decidable (_ ∧ _ ∧ _))

/-- A call that fails leaves the resolver, with that one exception. -/
theorem answer_snd_of_error (failed : (r.answer call).1 = .error e) :
    (r.answer call).2 = r ↔ ¬r.FixesInFailure call := by
  rw [FixesInFailure, failed, answer_snd]
  cases h : (r.resolve call.key).1 with
  | error _ => simp [resolve_snd_of_error h, Except.isOk, Except.toBool]
  | ok ref =>
    cases fixed : r.datasetId with
    | some datasetId => simp [resolve_snd_of_fixed fixed]
    | none =>
      refine iff_of_false (fun same => ?_) (not_not.2 ⟨rfl, rfl, rfl⟩)
      rw [← same, resolve_snd_of_ok h] at fixed
      contradiction

end Calls

/-- The resolver after calls. -/
def after (r : Resolver) : List Call → Resolver
  | [] => r
  | call :: calls => (r.answer call).2.after calls

/-- Calls with their answers. -/
def log (r : Resolver) : List Call → List (Call × QueryResult FieldRef)
  | [] => []
  | call :: calls => (call, (r.answer call).1) :: (r.answer call).2.log calls

/-- The first key that is resolved, whether or not the value that goes with it is accepted. -/
def firstResolved? (r : Resolver) : List Call → Option String
  | [] => none
  | call :: calls =>
    match (r.resolve call.key).1 with
    | .ok _ => some call.key
    | .error _ => (r.answer call).2.firstResolved? calls

section Runs

variable {r : Resolver}

theorem after_append (r : Resolver) (before later : List Call) :
    r.after (before ++ later) = (r.after before).after later := by
  induction before generalizing r with
  | nil => rfl
  | cons call before ih => exact ih (r.answer call).2

theorem after_of_fixed {datasetId : String} (fixed : r.datasetId = some datasetId)
    (calls : List Call) : r.after calls = r := by
  induction calls with
  | nil => rfl
  | cons call calls ih => rw [after, answer_snd, resolve_snd_of_fixed fixed, ih]

/-- The dataset is the given one, or else the one that the first resolved key begins with. -/
theorem datasetId_after (r : Resolver) (calls : List Call) :
    (r.after calls).datasetId = r.datasetId.or
      ((r.firstResolved? calls).bind fun key => (splitKey? key).map (·.1)) := by
  cases fixed : r.datasetId with
  | some datasetId => rw [after_of_fixed fixed, fixed, Option.some_or]
  | none =>
    rw [Option.none_or]
    induction calls generalizing r with
    | nil => exact fixed
    | cons call calls ih =>
      rw [after, firstResolved?, answer_snd]
      cases h : (r.resolve call.key).1 with
      | error e =>
        rw [resolve_snd_of_error h]
        exact ih r fixed
      | ok ref =>
        rw [resolve_snd_of_ok h, after_of_fixed rfl]
        simp [(resolve_eq_ok.1 h).1]

/-- A reference is to a field of the kind, in the dataset that is then fixed, and has the key that
was asked for. -/
theorem refers_of_mem_log {calls : List Call} {entry : Call × QueryResult FieldRef}
    (hentry : entry ∈ r.log calls) {ref : FieldRef} (h : entry.2 = .ok ref) :
    (r.after calls).datasetId = some ref.datasetId ∧ ref.field.kind = r.kind ∧
      ref.key = entry.1.key := by
  induction calls generalizing r with
  | nil => contradiction
  | cons call calls ih =>
    rw [after]
    rcases List.mem_cons.1 hentry with rfl | hentry
    · have resolved := (answer_eq_ok.1 h).1
      obtain ⟨hsplit, hkind, -⟩ := resolve_eq_ok.1 resolved
      refine ⟨?_, hkind, ?_⟩
      · rw [answer_snd, resolve_snd_of_ok resolved, after_of_fixed rfl]
      · rw [FieldRef.key, ← (splitKey?_eq_some_iff.1 hsplit).1]
    · have hkind : (r.answer call).2.kind = r.kind := by
        rw [answer_snd]
        obtain ⟨_, hresolve⟩ | ⟨_, hresolve⟩ := r.resolve_cases call.key <;> rw [hresolve]
      rw [← hkind]
      exact ih hentry

end Runs

/-- What holds of a resolver throughout a sequence of calls. -/
structure Steady (r : Resolver) (calls : List Call) : Prop where
  /-- A dataset that is fixed on the way is the one in the end. -/
  stays : ∀ before later datasetId, calls = before ++ later →
    (r.after before).datasetId = some datasetId → (r.after calls).datasetId = some datasetId
  fixed : (r.after calls).datasetId =
    r.datasetId.or ((r.firstResolved? calls).bind fun key => (splitKey? key).map (·.1))
  refers : ∀ entry ∈ r.log calls, ∀ ref, entry.2 = .ok ref →
    (r.after calls).datasetId = some ref.datasetId ∧ ref.field.kind = r.kind ∧
      ref.key = entry.1.key

theorem steady (r : Resolver) (calls : List Call) : r.Steady calls where
  stays before later datasetId hcalls fixed := by
    rw [hcalls, after_append, after_of_fixed fixed, fixed]
  fixed := r.datasetId_after calls
  refers _ hentry _ h := refers_of_mem_log hentry h

end Resolver

/-- Whichever way a resolver is made, it keeps to one dataset and to the keys as they are written. -/
theorem resolver_keeps_dataset (kind : SchemaKind) (calls : List Resolver.Call) :
    (Resolver.new kind).Steady calls ∧
      (∀ datasetId, (Resolver.forDataset kind datasetId).Steady calls ∧
        ((Resolver.forDataset kind datasetId).after calls).datasetId = some datasetId) ∧
      (∀ datasetId field : String, '_' ∉ datasetId.toList → '_' ∉ field.toList →
        splitKey (qualify datasetId field) = .ok (datasetId, field)) ∧
      ∀ key datasetId field, splitKey key = .ok (datasetId, field) →
        qualify datasetId field = key ∧ '_' ∉ datasetId.toList ∧ '_' ∉ field.toList := by
  refine ⟨Resolver.steady _ calls, fun datasetId => ⟨Resolver.steady _ calls, ?_⟩, ?_, ?_⟩
  · rw [Resolver.after_of_fixed rfl]
    rfl
  · intro datasetId field hid hfield
    exact splitKey_eq_ok_iff.2 ⟨rfl, hid, hfield⟩
  · intro key datasetId field h
    obtain ⟨hkey, plain⟩ := splitKey_eq_ok_iff.1 h
    exact ⟨hkey.symm, plain⟩

/-- Keys of two datasets, among them ones that are not resolved and one whose value is refused. -/
def sampleCalls : List Resolver.Call :=
  [⟨"cs_seats", none⟩, ⟨"cs", none⟩, ⟨"cs_avg", some (.string "90")⟩, ⟨"math_avg", none⟩,
    ⟨"cs_dept", some (.string "cpsc")⟩]

theorem resolver_keeps_dataset_sample :
    ((Resolver.new .courses).firstResolved? sampleCalls = some "cs_avg" ∧
      ((Resolver.new .courses).after sampleCalls).datasetId = some "cs") ∧
    (((Resolver.forDataset .courses "math").firstResolved? sampleCalls = some "math_avg" ∧
      ((Resolver.forDataset .courses "math").after sampleCalls).datasetId = some "math")) ∧
    splitKey (qualify "cs" "") = .ok ("cs", "") := by
  obtain ⟨fresh, given, split, -⟩ := resolver_keeps_dataset .courses sampleCalls
  refine ⟨⟨rfl, fresh.fixed.trans rfl⟩, ⟨rfl, (given "math").2⟩, ?_⟩
  exact split "cs" "" (by decide) (by decide)

namespace Resolver

/-- No call of the sequence fixes the dataset and fails. -/
def Careful (r : Resolver) : List Call → Prop
  | [] => True
  | call :: calls => ¬r.FixesInFailure call ∧ (r.answer call).2.Careful calls

/-- The calls with their answers, without some of the calls that failed; one that fixed the dataset
is not left out. -/
inductive Thins : Resolver → List (Call × QueryResult FieldRef) → List Call → Prop
  | nil (r) : Thins r [] []
  | keep {r call kept calls} (h : Thins (r.answer call).2 kept calls) :
    Thins r ((call, (r.answer call).1) :: kept) (call :: calls)
  | drop {r call e kept calls} (failed : (r.answer call).1 = .error e)
    (leaves : ¬r.FixesInFailure call) (h : Thins (r.answer call).2 kept calls) :
    Thins r kept (call :: calls)

section Failures

variable {r : Resolver} {calls : List Call}

/-- Without failed calls the others are answered as before. -/
theorem Thins.log_eq {kept : List (Call × QueryResult FieldRef)} (h : r.Thins kept calls) :
    r.log (kept.map (·.1)) = kept ∧ r.after (kept.map (·.1)) = r.after calls := by
  induction h with
  | nil r => exact ⟨rfl, rfl⟩
  | keep _ ih =>
    obtain ⟨hlog, hafter⟩ := ih
    exact ⟨congrArg (_ :: ·) hlog, hafter⟩
  | drop failed leaves _ ih =>
    rw [after]
    rwa [(answer_snd_of_error failed).2 leaves] at ih ⊢

/-- The dataset is the given one, or else that of the first call that succeeds. -/
theorem Careful.datasetId_after (careful : r.Careful calls) : (r.after calls).datasetId =
    r.datasetId.or (((r.log calls).findSome? fun entry => entry.2.toOption).map (·.datasetId)) := by
  induction calls generalizing r with
  | nil => simp [after, log]
  | cons call calls ih =>
    obtain ⟨leaves, careful⟩ := careful
    rw [after, log, List.findSome?_cons]
    cases h : (r.answer call).1 with
    | error e =>
      rw [(answer_snd_of_error h).2 leaves] at careful ⊢
      exact ih careful
    | ok ref =>
      have resolved := (answer_eq_ok.1 h).1
      obtain ⟨-, -, same⟩ := resolve_eq_ok.1 resolved
      rw [answer_snd, resolve_snd_of_ok resolved, after_of_fixed rfl]
      cases fixed : r.datasetId with
      | none => rfl
      | some datasetId => simp [same datasetId fixed]

end Failures

end Resolver

/-- A failed call leaves the resolver and can be left out of a sequence without a change to the other
answers, unless it resolves the first key and fails over its value. -/
theorem failed_calls_leave_resolver (r : Resolver) (calls : List Resolver.Call) :
    (∀ call e, (r.answer call).1 = .error e →
      ((r.answer call).2 = r ↔ ¬r.FixesInFailure call)) ∧
    (r.Careful calls → (r.after calls).datasetId = r.datasetId.or
      (((r.log calls).findSome? fun entry => entry.2.toOption).map (·.datasetId))) ∧
    ∀ kept, r.Thins kept calls →
      r.log (kept.map (·.1)) = kept ∧ r.after (kept.map (·.1)) = r.after calls :=
  ⟨fun _ _ => Resolver.answer_snd_of_error, fun careful => careful.datasetId_after,
    fun _ thins => thins.log_eq⟩

/-- The calls that succeed with one that fails in front of each. -/
def sampleRetries : List Resolver.Call :=
  [⟨"cs_seats", none⟩, ⟨"cs_avg", none⟩, ⟨"cs_avg", some (.string "90")⟩,
    ⟨"cs_dept", some (.string "cpsc")⟩]

theorem failed_calls_leave_resolver_sample :
    ((Resolver.new .courses).after sampleRetries).datasetId = some "cs" ∧
      (Resolver.new .courses).log [⟨"cs_avg", none⟩, ⟨"cs_dept", some (.string "cpsc")⟩] =
        [(⟨"cs_avg", none⟩, .ok ⟨"cs", .course .avg⟩),
          (⟨"cs_dept", some (.string "cpsc")⟩, .ok ⟨"cs", .course .dept⟩)] := by
  obtain ⟨-, first, thinned⟩ := failed_calls_leave_resolver (.new .courses) sampleRetries
  have careful : (Resolver.new .courses).Careful sampleRetries :=
    ⟨by decide, by decide, by decide, by decide, trivial⟩
  have thins : (Resolver.new .courses).Thins _ sampleRetries :=
    .drop rfl (by decide) (.keep (.drop rfl (by decide) (.keep (.nil _))))
  exact ⟨(first careful).trans rfl, (thinned _ thins).1⟩

/-- A value that is refused leaves the dataset of its key fixed. A key of another dataset, which would
have been resolved before, no longer is. -/
theorem refused_value_fixes_dataset :
    (Resolver.new .courses).resolveWithValue "courses_avg" (.string "90") =
        (.error (.wrongValue "courses_avg" (.string "90") (.course .avg)),
          .forDataset .courses "courses") ∧
      ((Resolver.new .courses).resolve "other_avg").1 = .ok ⟨"other", .course .avg⟩ ∧
        ((Resolver.forDataset .courses "courses").resolve "other_avg").1 =
          .error (.foreignDataset "other_avg" "courses" "other") :=
  ⟨rfl, rfl, rfl⟩

end CampusQuery
