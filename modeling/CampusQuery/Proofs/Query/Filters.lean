import CampusQuery.Proofs.Data.Lists
import CampusQuery.Proofs.Query.Clauses

/-!
Filters as they are read. Main statements: a filter is read exactly when it is one of the grammar,
and an induction over the filters that are read.
-/

namespace CampusQuery

section Names

@[simp] theorem ComparisonOp.ofName?_name (op : ComparisonOp) : ofName? op.name = some op := by
  cases op <;> decide

@[simp] theorem LogicalOp.ofName?_name (op : LogicalOp) : ofName? op.name = some op := by
  cases op <;> decide

@[simp] theorem ComparisonOp.ofName?_logical (op : LogicalOp) : ofName? op.name = none := by
  cases op <;> decide

theorem ComparisonOp.name_of_ofName? {name : String} {op : ComparisonOp}
    (h : ofName? name = some op) : op.name = name := by
  simpa using List.find?_some h

theorem LogicalOp.name_of_ofName? {name : String} {op : LogicalOp}
    (h : ofName? name = some op) : op.name = name := by
  simpa using List.find?_some h

end Names

section Patterns

theorem mem_inner_iff {c : Char} {cs : List Char} : c ∈ (cs.drop 1).dropLast ↔
    ∃ i, ∃ h : i < cs.length, cs[i] = c ∧ i ≠ 0 ∧ i + 1 ≠ cs.length := by
  rw [List.mem_iff_getElem]
  simp only [List.getElem_dropLast, List.getElem_drop, List.length_dropLast, List.length_drop]
  constructor
  · rintro ⟨i, hi, h⟩
    exact ⟨1 + i, by omega, h, by omega, by omega⟩
  · rintro ⟨i, hi, h, hfirst, hlast⟩
    obtain ⟨j, rfl⟩ : ∃ j, i = 1 + j := ⟨i - 1, by omega⟩
    exact ⟨j, by omega, h⟩

theorem isPattern_iff {text : String} :
    IsPattern text ↔ '*' ∉ (text.toList.drop 1).dropLast := by
  rw [mem_inner_iff, IsPattern]
  constructor
  · rintro h ⟨i, hi, hstar, hfirst, hlast⟩
    rcases h i hi hstar with h | h <;> contradiction
  · intro h i hi hstar
    by_contra middle
    rw [not_or] at middle
    exact h ⟨i, hi, hstar, middle⟩

theorem Wildcard.exists_compile_iff {text : String} :
    (∃ w, compile text = .ok w) ↔ IsPattern text := by
  rw [isPattern_iff]
  simp only [compile]
  split
  · next h => simp [h, -List.drop_one]
  · next h => simp [h, -List.drop_one]

end Patterns

namespace FilterNode

variable {nodes : List FilterNode}

theorem mem_comparisons_iff {c : Comparison} :
    c ∈ nodes.filterMap comparison? ↔ .comparison c ∈ nodes := by
  rw [List.mem_filterMap]
  constructor
  · rintro ⟨node, hnode, found⟩
    cases node <;> cases found
    exact hnode
  · exact fun h => ⟨_, h, rfl⟩

theorem mem_composites_iff {c : Composite} :
    c ∈ nodes.filterMap composite? ↔ .composite c ∈ nodes := by
  rw [List.mem_filterMap]
  constructor
  · rintro ⟨node, hnode, found⟩
    cases node <;> cases found
    exact hnode
  · exact fun h => ⟨_, h, rfl⟩

end FilterNode

/-- The operand that stands for a value of a document. -/
inductive Operand.ReadFrom : ComparisonOp → FieldType → Json → Operand → Prop where
  | lessThan (n : JsonNumber) : ReadFrom .lessThan .numeric (.number n) (.number n.toDouble)
  | greaterThan (n : JsonNumber) : ReadFrom .greaterThan .numeric (.number n) (.number n.toDouble)
  | equalsNumber (n : JsonNumber) : ReadFrom .equals .numeric (.number n) (.number n.toDouble)
  | equalsText (s : String) : ReadFrom .equals .textual (.string s) (.text s)
  | wildcard (s : String) (w : Wildcard) (compiled : Wildcard.compile s = .ok w) :
    ReadFrom .wildcard .textual (.string s) (.pattern w)

namespace Scope

variable {scope : Scope}

theorem operand_iff {op : ComparisonOp} {type : FieldType} {key : String} {value : Json}
    {x : Operand} : operand op type key value = .ok x ↔ Operand.ReadFrom op type value x := by
  constructor
  · intro h
    unfold operand at h
    split at h
    case h_5 =>
      split at h
      · next w compiled =>
        cases h
        exact .wildcard _ _ compiled
      · contradiction
    case h_6 => contradiction
    all_goals
      cases h
      constructor
  · intro h
    cases h with
    | wildcard s w compiled => simp [operand, compiled]
    | _ => rfl

theorem exists_operand_iff {op : ComparisonOp} {type : FieldType} {key : String} {value : Json} :
    (∃ x, operand op type key value = .ok x) ↔ op.Takes type value := by
  simp only [operand_iff]
  constructor
  · rintro ⟨x, h⟩
    cases h with
    | wildcard s w compiled => exact .wildcard s (Wildcard.exists_compile_iff.1 ⟨w, compiled⟩)
    | _ => constructor
  · intro h
    cases h with
    | wildcard s h =>
      obtain ⟨w, compiled⟩ := Wildcard.exists_compile_iff.2 h
      exact ⟨_, .wildcard s w compiled⟩
    | _ => exact ⟨_, by constructor⟩

theorem accepts_of_takes {op : ComparisonOp} {type : FieldType} {value : Json}
    (h : op.Takes type value) : type.accepts value = true := by
  cases h <;> rfl

theorem comparison_iff {op : ComparisonOp} {negated : Bool} {body : Json} {c : Comparison} :
    scope.comparison op negated body = .ok c ↔
      ∃ value, body = .object [(c.field.key, value)] ∧ scope.Owns c.field ∧
        operand op c.field.fieldType c.field.key value = .ok c.operand ∧
          c.op = op ∧ c.negated = negated := by
  unfold comparison
  constructor
  · intro h
    obtain ⟨members, hmembers, h⟩ := bind_eq_ok.1 h
    obtain ⟨⟨key, value⟩, hentry, h⟩ := bind_eq_ok.1 h
    obtain ⟨ref, href, h⟩ := bind_eq_ok.1 h
    obtain ⟨x, hx, h⟩ := bind_eq_ok.1 h
    cases h
    obtain ⟨rfl, owned⟩ := resolve_iff.1 (resolveWithValue_eq_ok.1 href).1
    rw [asObject_eq_ok.1 hmembers, asEntry_eq_ok.1 hentry]
    exact ⟨value, rfl, owned, hx, rfl, rfl⟩
  · rintro ⟨value, rfl, owned, hx, rfl, rfl⟩
    have taken := accepts_of_takes (exists_operand_iff.1 ⟨_, hx⟩)
    have resolved := resolveWithValue_eq_ok.2 ⟨resolve_iff.2 ⟨rfl, owned⟩, taken⟩
    rw [asObject_eq_ok.2 rfl, ok_bind, asEntry_eq_ok.2 rfl, ok_bind]
    dsimp only
    rw [resolved, ok_bind, hx]
    rfl

theorem filter_comparison (op : ComparisonOp) (negated : Bool) (body : Json) :
    scope.filter negated (.object [(op.name, body)]) =
      (scope.comparison op negated body).map .comparison := by
  rw [filter, ComparisonOp.ofName?_name]

theorem filter_composite (op : LogicalOp) (negated : Bool) {items : List Json}
    (filled : items ≠ []) : scope.filter negated (.object [(op.name, .array items)]) =
      (scope.filters items).map fun nodes => .composite (.ofChildren op nodes negated) := by
  cases items with
  | nil => contradiction
  | cons item items =>
    simp only [filter, filters, ComparisonOp.ofName?_logical, LogicalOp.ofName?_name]
    cases scope.filter false item with
    | error e => rfl
    | ok first => cases scope.filters items <;> rfl

theorem filter_negate (negated : Bool) (body : Json) :
    scope.filter negated (.object [("NEGATE", body)]) = scope.filter (!negated) body := by
  simp [filter, ComparisonOp.ofName?, ComparisonOp.name, LogicalOp.ofName?, LogicalOp.name]

theorem filters_eq_mapM (items : List Json) :
    scope.filters items = items.mapM (scope.filter false) := by
  induction items with
  | nil => rfl
  | cons item items ih => rw [filters, List.mapM_cons, ih]

/-- Induction over the filters that are read: a node has the property if its children, read without
a negation, have it, and so has what stands after NEGATE, read with the flag turned. -/
theorem filter_induction {P : Bool → Json → FilterNode → Prop}
    (comparison : ∀ op negated body c, scope.comparison op negated body = .ok c →
      P negated (.object [(op.name, body)]) (.comparison c))
    (composite : ∀ op negated items nodes, items ≠ [] → List.Forall₂ (P false) items nodes →
      P negated (.object [(op.name, .array items)]) (.composite (.ofChildren op nodes negated)))
    (negate : ∀ negated body node, P (!negated) body node →
      P negated (.object [("NEGATE", body)]) node) :
    ∀ negated json node, scope.filter negated json = .ok node → P negated json node := by
  refine (Scope.filter.mutual_induct
    (fun negated json => ∀ node, scope.filter negated json = .ok node → P negated json node)
    (fun items => ∀ nodes, scope.filters items = .ok nodes → List.Forall₂ (P false) items nodes)
    ?_ ?_ ?_ ?_ ?_ ?_ ?_ ?_ ?_).1
  case refine_1 =>
    intro negated key body op hop node h
    rw [Scope.filter, hop] at h
    obtain ⟨c, hc, rfl⟩ := map_eq_ok.1 h
    rw [← ComparisonOp.name_of_ofName? hop]
    exact comparison op negated body c hc
  case refine_2 =>
    intro negated key hcomparison op hop item items first others node h
    rw [← LogicalOp.name_of_ofName? hop] at h ⊢
    rw [filter_composite op negated (List.cons_ne_nil item items)] at h
    obtain ⟨nodes, hnodes, rfl⟩ := map_eq_ok.1 h
    apply composite op negated _ nodes (List.cons_ne_nil item items)
    rw [filters] at hnodes
    obtain ⟨firstNode, hfirst, hnodes⟩ := bind_eq_ok.1 hnodes
    obtain ⟨otherNodes, hothers, hnodes⟩ := bind_eq_ok.1 hnodes
    cases hnodes
    exact .cons (first _ hfirst) (others _ hothers)
  case refine_3 =>
    intro negated key body hcomparison op hop hbody node h
    simp only [Scope.filter, hcomparison, hop] at h
    contradiction
  case refine_4 =>
    intro negated body hcomparison hlogical inner node h
    rw [filter_negate] at h
    exact negate negated body node (inner node h)
  case refine_5 =>
    intro negated key body hcomparison hlogical hkey node h
    simp only [Scope.filter, hcomparison, hlogical, if_neg hkey] at h
    contradiction
  case refine_6 =>
    intro negated members hmembers node h
    rw [Scope.filter] at h
    · contradiction
    · exact hmembers
  case refine_7 =>
    intro json negated hentry hmembers node h
    rw [Scope.filter] at h
    · contradiction
    · exact hentry
    · exact hmembers
  case refine_8 =>
    intro nodes h
    cases h
    exact .nil
  case refine_9 =>
    intro item items first others nodes h
    rw [Scope.filters] at h
    obtain ⟨firstNode, hfirst, h⟩ := bind_eq_ok.1 h
    obtain ⟨otherNodes, hothers, h⟩ := bind_eq_ok.1 h
    cases h
    exact .cons (first _ hfirst) (others _ hothers)

theorem exists_filter_iff {negated : Bool} {json : Json} :
    (∃ node, scope.filter negated json = .ok node) ↔ scope.IsFilter json := by
  constructor
  · rintro ⟨node, h⟩
    refine filter_induction (P := fun _ json _ => scope.IsFilter json) ?_ ?_ ?_ negated json node h
    · intro op negated body c hc
      obtain ⟨value, rfl, owned, hx, -, -⟩ := comparison_iff.1 hc
      exact .comparison owned.refers (exists_operand_iff.1 ⟨_, hx⟩)
    · intro op negated items nodes filled children
      refine .composite filled fun item hitem => ?_
      obtain ⟨node, -, read⟩ := exists_of_mem_left children hitem
      exact read
    · exact fun negated body node inner => .negate inner
  · intro h
    induction h generalizing negated with
    | @comparison op key field value refers takes =>
      obtain ⟨ref, rfl, rfl, owned⟩ := refers.exists_owned
      obtain ⟨x, hx⟩ : ∃ x, operand op ref.fieldType ref.key value = .ok x :=
        exists_operand_iff.2 takes
      have read : scope.comparison op negated (.object [(ref.key, value)]) =
          .ok ⟨ref, op, x, negated⟩ := comparison_iff.2 ⟨value, rfl, owned, hx, rfl, rfl⟩
      exact ⟨_, by rw [filter_comparison, read]; rfl⟩
    | @composite op items filled h ih =>
      obtain ⟨nodes, hnodes⟩ := exists_mapM_eq_ok (f := scope.filter false) fun item hitem =>
        ih item hitem
      rw [← filters_eq_mapM] at hnodes
      exact ⟨_, by rw [filter_composite op negated filled, hnodes]; rfl⟩
    | @negate body h ih =>
      rw [filter_negate]
      exact ih

theorem filterClause_iff {clause : Json} {found : Option FilterNode} :
    scope.filterClause clause = .ok found ↔ clause = .object [] ∧ found = none ∨
      ∃ node, found = some node ∧ scope.filter false clause = .ok node := by
  unfold filterClause
  constructor
  · intro h
    obtain ⟨members, hmembers, h⟩ := bind_eq_ok.1 h
    obtain rfl := asObject_eq_ok.1 hmembers
    split at h
    · next empty =>
      cases h
      rw [List.isEmpty_iff.1 empty]
      exact .inl ⟨rfl, rfl⟩
    · obtain ⟨node, hnode, h⟩ := bind_eq_ok.1 h
      cases h
      exact .inr ⟨node, rfl, hnode⟩
  · rintro (⟨rfl, rfl⟩ | ⟨node, rfl, hnode⟩)
    · rfl
    · obtain ⟨entry, rfl⟩ : ∃ entry, clause = .object [entry] := by
        cases exists_filter_iff.1 ⟨node, hnode⟩ <;> exact ⟨_, rfl⟩
      rw [asObject_eq_ok.2 rfl, ok_bind, if_neg (by simp), hnode]
      rfl

end Scope

end CampusQuery
