import CampusQuery.Query.Engine
import CampusQuery.Proofs.Except

/-!
How query documents are refused. Main statement: a document that is no plan is an invalid input,
whatever is wrong with it.
-/

namespace CampusQuery

/-- If the step fails, the input is invalid. -/
def Rejects (x : QueryResult α) : Prop :=
  ∀ e, x = .error e → e.code = .invalidInput

namespace Rejects

variable {α β : Type}

theorem ok (a : α) : Rejects (.ok a) := by
  rintro e ⟨⟩

theorem error {e : QueryError} (h : e.code = .invalidInput) :
    Rejects (.error e : QueryResult α) := by
  rintro _ ⟨⟩
  exact h

theorem bind {x : QueryResult α} {f : α → QueryResult β} (hx : Rejects x)
    (hf : ∀ a, Rejects (f a)) : Rejects (x >>= f) := by
  cases x with
  | error e => exact error (hx e rfl)
  | ok a => exact hf a

theorem map {x : QueryResult α} (f : α → β) (hx : Rejects x) : Rejects (x.map f) := by
  cases x with
  | error e => exact error (hx e rfl)
  | ok a => exact ok (f a)

theorem guard {c : Prop} [Decidable c] {e : QueryError} {next : PUnit → QueryResult β}
    (h : e.code = .invalidInput) (hnext : Rejects (next ⟨⟩)) :
    Rejects (if c then throw e >>= next else next ⟨⟩) := by
  split
  · exact error h
  · exact hnext

theorem mapM {f : α → QueryResult β} (h : ∀ x, Rejects (f x)) (xs : List α) :
    Rejects (xs.mapM f) := by
  induction xs with
  | nil => exact ok []
  | cons x xs ih =>
    rw [List.mapM_cons]
    exact (h x).bind fun y => ih.bind fun ys => ok (y :: ys)

theorem forM {f : α → QueryResult Unit} (h : ∀ x, Rejects (f x)) (xs : List α) :
    Rejects (xs.forM f) := by
  induction xs with
  | nil => exact ok ()
  | cons x xs ih =>
    rw [List.forM_eq_forM] at ih
    rw [List.forM_eq_forM, List.forM_cons]
    exact (h x).bind fun _ => ih

end Rejects

theorem rejects_asObject (what : String) (json : Json) : Rejects (asObject what json) := by
  unfold asObject
  split
  · exact .ok _
  · exact .error rfl

theorem rejects_asString (what : String) (json : Json) : Rejects (asString what json) := by
  unfold asString
  split
  · exact .ok _
  · exact .error rfl

theorem rejects_asStrings (what : String) (json : Json) : Rejects (asStrings what json) := by
  unfold asStrings
  split
  · exact .mapM (rejects_asString what) _
  · exact .error rfl

theorem rejects_asEntry (what : String) (members : Entries Json) :
    Rejects (asEntry what members) := by
  unfold asEntry
  split
  · exact .ok _
  · exact .error rfl

theorem rejects_ofJson (json : Json) : Rejects (QueryClauses.ofJson json) := by
  unfold QueryClauses.ofJson QueryClauses.checkKeys QueryClauses.checkOptions
  refine (rejects_asObject _ _).bind fun query => Rejects.bind ?_ fun _ =>
    (rejects_asObject _ _).bind fun options => Rejects.bind ?_ fun _ => .ok _
  · split
    · exact .ok _
    · split
      · exact .ok _
      · exact .error rfl
  · split
    · exact .ok _
    · exact .error rfl

namespace Scope

variable (scope : Scope)

theorem rejects_resolve (key : String) : Rejects (scope.resolve key) := by
  unfold resolve splitKey
  refine Rejects.bind ?_ fun parts => .guard rfl ?_
  · split
    · exact .ok _
    · exact .error rfl
  · split
    · exact .ok _
    · exact .error rfl

theorem rejects_ofFirstColumn (kinds : String → Option SchemaKind) (column : String) :
    Rejects (ofFirstColumn kinds column) := by
  unfold ofFirstColumn
  split
  · exact .error rfl
  · split
    · exact .error rfl
    · exact (rejects_resolve _ _).map _

theorem rejects_checkColumn (hasTransform : Bool) (column : String) :
    Rejects (scope.checkColumn hasTransform column) := by
  unfold checkColumn
  split
  · exact .error rfl
  split
  · exact (scope.rejects_resolve column).map _
  split
  · exact .ok _
  · exact .error rfl

theorem rejects_operand (op : ComparisonOp) (type : FieldType) (key : String) (value : Json) :
    Rejects (operand op type key value) := by
  unfold operand
  split
  case h_5 => split <;> first | exact .ok _ | exact .error rfl
  all_goals first | exact .ok _ | exact .error rfl

theorem rejects_comparison (op : ComparisonOp) (negated : Bool) (body : Json) :
    Rejects (scope.comparison op negated body) := by
  unfold comparison resolveWithValue checkValue
  refine (rejects_asObject _ _).bind fun members => (rejects_asEntry _ _).bind fun entry =>
    Rejects.bind ((scope.rejects_resolve _).bind fun ref => ?_) fun ref =>
      (rejects_operand _ _ _ _).bind fun operand => .ok _
  split
  · exact .ok _
  · exact .error rfl

/-- The induction is on the document, as the filter is read. -/
theorem rejects_filter : (∀ (negated : Bool) (json : Json), Rejects (scope.filter negated json)) ∧
    ∀ items : List Json, Rejects (scope.filters items) := by
  apply Scope.filter.mutual_induct (fun negated json => Rejects (scope.filter negated json))
    (fun items => Rejects (scope.filters items))
  case case1 =>
    intro negated key body op hop
    rw [Scope.filter, hop]
    exact (scope.rejects_comparison _ _ _).map _
  case case2 =>
    intro negated key hcomparison op hop item items first others
    simp only [Scope.filter, hcomparison, hop]
    exact first.bind fun _ => others.bind fun _ => .ok _
  case case3 =>
    intro negated key body hcomparison op hop hbody
    simp only [Scope.filter, hcomparison, hop]
    exact .error rfl
  case case4 =>
    intro negated body hcomparison hlogical inner
    simp only [Scope.filter, hcomparison, hlogical, if_true]
    exact inner
  case case5 =>
    intro negated key body hcomparison hlogical hkey
    simp only [Scope.filter, hcomparison, hlogical, if_neg hkey]
    exact .error rfl
  case case6 =>
    intro negated members hmembers
    rw [Scope.filter]
    · exact .error rfl
    · exact hmembers
  case case7 =>
    intro json negated hentry hmembers
    rw [Scope.filter]
    · exact .error rfl
    · exact hentry
    · exact hmembers
  case case8 => exact .ok []
  case case9 =>
    intro item items first others
    rw [Scope.filters]
    exact first.bind fun _ => others.bind fun _ => .ok _

theorem rejects_filterClause (clause : Json) : Rejects (scope.filterClause clause) := by
  unfold filterClause
  apply (rejects_asObject _ _).bind
  intro members
  split
  · exact .ok _
  · exact (scope.rejects_filter.1 false clause).bind fun node => .ok _

theorem rejects_checkOrderKey (key : String) : Rejects (scope.checkOrderKey key) := by
  unfold checkOrderKey
  split
  · exact .error rfl
  split
  · exact (scope.rejects_resolve key).map _
  · exact .ok _

theorem rejects_orderClause (clause : Json) : Rejects (scope.orderClause clause) := by
  unfold orderClause direction
  split
  · exact (scope.rejects_checkOrderKey _).bind fun _ => .ok _
  · refine (rejects_asObject _ _).bind fun members => .guard rfl ?_
    refine Rejects.bind ?_ fun direction => (rejects_asStrings _ _).bind fun keys =>
      (Rejects.forM scope.rejects_checkOrderKey keys).bind fun _ => .ok _
    split
    · exact .ok _
    · exact .error rfl

theorem rejects_applyEntry (entry : Json) : Rejects (scope.applyEntry entry) := by
  unfold applyEntry
  refine (rejects_asObject _ _).bind fun members => (rejects_asEntry _ _).bind fun rule =>
    .guard rfl ((rejects_asObject _ _).bind fun ruleMembers =>
      (rejects_asEntry _ _).bind fun target => ?_)
  dsimp only
  split
  · exact .error rfl
  split
  · exact (scope.rejects_resolve _).bind fun ref => .guard rfl (.ok _)
  · exact .error rfl

theorem rejects_applyEntries (taken : List String) (entries : List Json) :
    Rejects (scope.applyEntries taken entries) := by
  induction entries generalizing taken with
  | nil => exact .ok []
  | cons entry entries ih =>
    rw [applyEntries]
    exact (scope.rejects_applyEntry entry).bind fun spec =>
      .guard rfl ((ih _).bind fun others => .ok _)

theorem rejects_transformClause (clause : Json) : Rejects (scope.transformClause clause) := by
  unfold transformClause
  refine (rejects_asObject _ _).bind fun members => .guard rfl
    ((rejects_asStrings _ _).bind fun keys =>
      (Rejects.mapM scope.rejects_resolve keys).bind fun group => ?_)
  split
  · exact (scope.rejects_applyEntries _ _).bind fun specs => .ok _
  · exact .error rfl

end Scope

/-- A document that is no plan is an invalid input. -/
theorem rejects_parse (datasets : Datasets) (query : Json) : Rejects (datasets.parse query) := by
  unfold Datasets.parse QueryPlan.ofJson
  refine (rejects_ofJson query).bind fun clauses => (rejects_asStrings _ _).bind fun columns =>
    (Scope.rejects_ofFirstColumn _ _).bind fun scope =>
      (Rejects.forM (scope.rejects_checkColumn _) columns).bind fun _ =>
        (scope.rejects_filterClause _).bind fun filter => ?_
  have order : ∀ clause, Rejects (scope.orderClause clause) := scope.rejects_orderClause
  have transform : ∀ clause, Rejects (scope.transformClause clause) := scope.rejects_transformClause
  cases clauses.order <;> cases clauses.transform
  · exact .ok _
  · exact (transform _).bind fun _ => .ok _
  · exact (order _).bind fun _ => .ok _
  · exact (order _).bind fun _ => (transform _).bind fun _ => .ok _

end CampusQuery
