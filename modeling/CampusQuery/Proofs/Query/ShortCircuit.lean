import Mathlib.Data.List.Lex
import CampusQuery.Proofs.Query.Selection

/-!
Early exits of filters on any tree and any record. Main statement: a value is the one that every
reading of the failing comparisons gives, and an error is that of the first comparison that fails
and is not skipped.
-/

namespace CampusQuery

namespace LogicalOp

/-- The value of a node before its negation, from the values of all its children. -/
def reading : LogicalOp → List Bool → Bool
  | allOf, values => values.all id
  | anyOf, values => values.any id

variable {op : LogicalOp} {values : List Bool}

theorem reading_of_mem (h : op.decisive ∈ values) : op.reading values = op.decisive := by
  cases op with
  | allOf => exact List.all_eq_false.2 ⟨false, h, by decide⟩
  | anyOf => exact List.any_eq_true.2 ⟨true, h, rfl⟩

theorem reading_of_forall (h : ∀ value ∈ values, value = !op.decisive) :
    op.reading values = !op.decisive := by
  cases op with
  | allOf => exact List.all_eq_true.2 h
  | anyOf => exact List.any_eq_false.2 fun value hvalue => by simp [h value hvalue, decisive]

/-- How a walk over the results of children ends. -/
inductive Ending (op : LogicalOp) (results : List (QueryResult Bool)) :
    QueryResult Bool → Prop where
  | through (all : ∀ result ∈ results, result = .ok !op.decisive) :
    op.Ending results (.ok !op.decisive)
  | settled (i : Nat) (found : results[i]? = some (.ok op.decisive))
    (before : ∀ j < i, results[j]? = some (.ok !op.decisive)) : op.Ending results (.ok op.decisive)
  | failed (i : Nat) (e : QueryError) (found : results[i]? = some (.error e))
    (before : ∀ j < i, results[j]? = some (.ok !op.decisive)) : op.Ending results (.error e)

/-- A result that lets the walk go on stands before any ending. -/
theorem Ending.cons {results : List (QueryResult Bool)} {result : QueryResult Bool}
    (h : op.Ending results result) : op.Ending (.ok (!op.decisive) :: results) result := by
  have shift : ∀ {i : Nat}, (∀ j < i, results[j]? = some (.ok !op.decisive)) →
      ∀ j < i + 1, (.ok (!op.decisive) :: results)[j]? = some (.ok !op.decisive) := by
    rintro i before (_ | j) hj
    · rfl
    · exact before j (by omega)
  cases h with
  | through all => exact .through (List.forall_mem_cons.2 ⟨rfl, all⟩)
  | settled i found before => exact .settled (i + 1) found (shift before)
  | failed i e found before => exact .failed (i + 1) e found (shift before)

theorem combine_ending (op : LogicalOp) (results : List (QueryResult Bool)) :
    op.Ending results (op.combine results) := by
  induction results with
  | nil => exact .through (by simp)
  | cons result results ih =>
    cases result with
    | error e => exact .failed 0 e rfl (by simp)
    | ok b =>
      rw [combine]
      split
      · next h =>
        rw [h]
        exact .settled 0 rfl (by simp)
      · next h =>
        rw [Bool.eq_not.2 h]
        exact ih.cons

end LogicalOp

namespace Composite

def op : Composite → LogicalOp
  | .node op _ _ _ => op

def negated : Composite → Bool
  | .node _ _ _ negated => negated

/-- The children in the order in which they are looked at. -/
def children : Composite → List FilterNode
  | .node _ comparisons composites _ => comparisons.map .comparison ++ composites.map .composite

theorem eval_eq (record : Record) (c : Composite) :
    c.eval record =
      (c.op.combine (c.children.map (FilterNode.eval record))).map (· != c.negated) := by
  obtain ⟨op, comparisons, composites, negated⟩ := c
  rw [eval, evalAll_eq_map, children, List.map_append, List.map_map, List.map_map]
  rfl

end Composite

/-- An induction over filters that follows the children of a node. -/
theorem FilterNode.induction {motive : FilterNode → Prop}
    (comparison : ∀ c, motive (.comparison c))
    (composite : ∀ c : Composite, (∀ child ∈ c.children, motive child) → motive (.composite c)) :
    ∀ node, motive node
  | .comparison c => comparison c
  | .composite (.node op comparisons composites negated) => by
    refine composite _ fun child hchild => ?_
    obtain h | h := List.mem_append.1 hchild
    · obtain ⟨c, -, rfl⟩ := List.mem_map.1 h
      exact comparison c
    · obtain ⟨c, hc, rfl⟩ := List.mem_map.1 h
      exact FilterNode.induction comparison composite (.composite c)
termination_by node => sizeOf node
decreasing_by
  have smaller := List.sizeOf_lt_of_mem hc
  simp only [FilterNode.composite.sizeOf_spec, Composite.node.sizeOf_spec]
  omega

section Truth

/-- What a comparison says; where it fails, `guess` stands for the value it might have had. -/
def Comparison.truth (record : Record) (guess : Bool) (c : Comparison) : Bool :=
  (match c.test record with
    | .ok result => result
    | .error _ => guess) != c.negated

mutual

/-- The value of a tree over all its children. The guess for a comparison that fails may depend on
where the comparison stands, which is told by the numbers of the children on the way to it. -/
def Composite.truth (record : Record) (guess : List Nat → Bool) : Composite → Bool
  | .node op comparisons composites negated =>
    op.reading (comparisons.mapIdx (fun i c => c.truth record (guess [i])) ++
      truthFrom record guess comparisons.length composites) != negated

def Composite.truthFrom (record : Record) (guess : List Nat → Bool) (i : Nat) :
    List Composite → List Bool
  | [] => []
  | c :: composites =>
    c.truth record (fun place => guess (i :: place)) :: truthFrom record guess (i + 1) composites

end

namespace FilterNode

def truth (record : Record) (guess : List Nat → Bool) : FilterNode → Bool
  | .comparison c => c.truth record (guess [])
  | .composite c => c.truth record guess

/-- The node's value does not depend on the comparisons that fail. -/
def Certain (record : Record) (node : FilterNode) (b : Bool) : Prop :=
  ∀ guess, node.truth record guess = b

theorem Certain.unique {record : Record} {node : FilterNode} {b b' : Bool}
    (h : node.Certain record b) (h' : node.Certain record b') : b = b' :=
  (h fun _ => true).symm.trans (h' fun _ => true)

end FilterNode

namespace Composite

theorem truthFrom_eq (record : Record) (guess : List Nat → Bool) (i : Nat)
    (composites : List Composite) :
    truthFrom record guess i composites =
      composites.mapIdx fun j c => c.truth record fun place => guess ((i + j) :: place) := by
  induction composites generalizing i with
  | nil => rfl
  | cons c composites ih =>
    rw [truthFrom, ih, List.mapIdx_cons]
    simp only [Nat.add_assoc, Nat.add_comm 1, Nat.add_zero]

theorem truth_eq (record : Record) (guess : List Nat → Bool) (c : Composite) :
    c.truth record guess = (c.op.reading (c.children.mapIdx fun i child =>
      child.truth record fun place => guess (i :: place)) != c.negated) := by
  obtain ⟨op, comparisons, composites, negated⟩ := c
  rw [truth, truthFrom_eq, children, List.mapIdx_append, mapIdx_map, mapIdx_map, List.length_map]
  simp only [Nat.add_comm]
  rfl

end Composite

end Truth

namespace FilterNode

/-- The node at a place, which the numbers of the children on the way tell. -/
def at? : FilterNode → List Nat → Option FilterNode
  | node, [] => some node
  | .comparison _, _ :: _ => none
  | .composite c, i :: place => (c.children[i]?).bind fun child => child.at? place

/-- The comparison at the place fails. -/
def Fails (record : Record) (node : FilterNode) (place : List Nat) (e : QueryError) : Prop :=
  ∃ c, node.at? place = some (.comparison c) ∧ c.test record = .error e

/-- Above the place stands a node that an earlier child has settled. -/
inductive Skips (record : Record) : FilterNode → List Nat → Prop where
  | here {c : Composite} {child : FilterNode} {i j : Nat} {place : List Nat} (before : j < i)
    (found : c.children[j]? = some child) (settled : child.Certain record c.op.decisive) :
    Skips record (.composite c) (i :: place)
  | inside {c : Composite} {child : FilterNode} {i : Nat} {place : List Nat}
    (found : c.children[i]? = some child) (skips : Skips record child place) :
    Skips record (.composite c) (i :: place)

/-- What a result says of a node: a value is certain and every failure is skipped; an error is that
of the first failure that is not skipped, where places are ordered as the walk goes. -/
inductive Explains (record : Record) (node : FilterNode) : QueryResult Bool → Prop where
  | value (b : Bool) (certain : node.Certain record b)
    (skipped : ∀ place e, node.Fails record place e → node.Skips record place) :
    Explains record node (.ok b)
  | fault (place : List Nat) (e : QueryError) (fails : node.Fails record place e)
    (reached : ¬node.Skips record place)
    (first : ∀ earlier < place, ∀ e', node.Fails record earlier e' → node.Skips record earlier) :
    Explains record node (.error e)

variable {record : Record} {node child : FilterNode} {c : Composite}

theorem fails_composite_iff {place : List Nat} {e : QueryError} :
    (FilterNode.composite c).Fails record place e ↔ ∃ i child below, place = i :: below ∧
      c.children[i]? = some child ∧ child.Fails record below e := by
  cases place with
  | nil => simp [Fails, at?]
  | cons i below =>
    simp only [Fails, at?, Option.bind_eq_some_iff, List.cons.injEq]
    grind

theorem Explains.certain {b : Bool} (h : node.Explains record (.ok b)) :
    node.Certain record b := by
  cases h with
  | value _ certain => exact certain

theorem Explains.skips {b : Bool} {place : List Nat} {e : QueryError}
    (h : node.Explains record (.ok b)) (fails : node.Fails record place e) :
    node.Skips record place := by
  cases h with
  | value _ _ skipped => exact skipped place e fails

/-- A child that is certain to settle its node makes the node certain. -/
theorem certain_of_settled {i : Nat} (found : c.children[i]? = some child)
    (h : child.Certain record c.op.decisive) :
    (FilterNode.composite c).Certain record (c.op.decisive != c.negated) := by
  intro guess
  rw [truth, c.truth_eq, LogicalOp.reading_of_mem]
  obtain ⟨hi, rfl⟩ := List.getElem?_eq_some_iff.1 found
  exact List.mem_mapIdx.2 ⟨i, hi, h _⟩

theorem certain_of_through (h : ∀ child ∈ c.children, child.Certain record !c.op.decisive) :
    (FilterNode.composite c).Certain record ((!c.op.decisive) != c.negated) := by
  intro guess
  rw [truth, c.truth_eq, LogicalOp.reading_of_forall]
  intro value hvalue
  obtain ⟨i, hi, rfl⟩ := List.mem_mapIdx.1 hvalue
  exact h _ (List.getElem_mem hi) _

section Walk

variable (h : ∀ child ∈ c.children, child.Explains record (child.eval record))
include h

theorem explains_child {i : Nat} {result : QueryResult Bool}
    (found : (c.children.map (eval record))[i]? = some result) :
    ∃ child, c.children[i]? = some child ∧ child.Explains record result := by
  rw [List.getElem?_map] at found
  obtain ⟨child, hchild, rfl⟩ := Option.map_eq_some_iff.1 found
  exact ⟨child, hchild, h child (List.mem_of_getElem? hchild)⟩

/-- Below a child that has a value, every failure is skipped. -/
theorem skips_child {i : Nat} {b : Bool} {place : List Nat} {e : QueryError}
    (found : (c.children.map (eval record))[i]? = some (.ok b))
    (hchild : c.children[i]? = some child) (fails : child.Fails record place e) :
    (FilterNode.composite c).Skips record (i :: place) := by
  obtain ⟨child', hchild', explains⟩ := explains_child h found
  obtain rfl := Option.some.inj (hchild.symm.trans hchild')
  exact .inside hchild (explains.skips fails)

/-- The failure that ends the walk over its children is the first one of a node. -/
theorem explains_of_failed {i : Nat} {e : QueryError}
    (found : (c.children.map (eval record))[i]? = some (.error e))
    (before : ∀ j < i, (c.children.map (eval record))[j]? = some (.ok !c.op.decisive)) :
    (FilterNode.composite c).Explains record (.error e) := by
  obtain ⟨failing, hfailing, explains⟩ := explains_child h found
  cases explains with
  | fault place _ fails reached first =>
    refine .fault (i :: place) e (fails_composite_iff.2 ⟨_, _, _, rfl, hfailing, fails⟩) ?_ ?_
    · intro skipped
      cases skipped with
      | here earlier hchild settled =>
        obtain ⟨child, hchild', explains⟩ := explains_child h (before _ earlier)
        obtain rfl := Option.some.inj (hchild.symm.trans hchild')
        exact absurd (settled.unique explains.certain) (by cases c.op <;> decide)
      | inside hchild skipped =>
        obtain rfl := Option.some.inj (hchild.symm.trans hfailing)
        exact reached skipped
    · intro earlier hearlier e' fails'
      obtain ⟨k, child, below, rfl, hchild, fails'⟩ := fails_composite_iff.1 fails'
      obtain hk | ⟨rfl, hbelow⟩ := List.cons_lt_cons_iff.1 hearlier
      · exact skips_child h (before k hk) hchild fails'
      · obtain rfl := Option.some.inj (hchild.symm.trans hfailing)
        exact .inside hchild (first below hbelow e' fails')

/-- What the walk over its children tells of a node. -/
theorem explains_of_ending {result : QueryResult Bool}
    (ending : c.op.Ending (c.children.map (eval record)) result) :
    (FilterNode.composite c).Explains record (result.map (· != c.negated)) := by
  cases ending with
  | through all =>
    refine .value _ (certain_of_through fun child hchild => ?_) fun place e fails => ?_
    · have explains := h child hchild
      rw [all _ (List.mem_map_of_mem hchild)] at explains
      exact explains.certain
    · obtain ⟨i, child, below, rfl, hchild, fails⟩ := fails_composite_iff.1 fails
      have found : (c.children.map (eval record))[i]? = some (.ok !c.op.decisive) := by
        rw [List.getElem?_map, hchild, Option.map_some,
          all _ (List.mem_map_of_mem (List.mem_of_getElem? hchild))]
      exact skips_child h found hchild fails
  | settled i found before =>
    obtain ⟨settler, hsettler, explains⟩ := explains_child h found
    refine .value _ (certain_of_settled hsettler explains.certain) fun place e fails => ?_
    obtain ⟨k, child, below, rfl, hchild, fails⟩ := fails_composite_iff.1 fails
    obtain earlier | rfl | later := Nat.lt_trichotomy k i
    · exact skips_child h (before k earlier) hchild fails
    · exact skips_child h found hchild fails
    · exact .here later hsettler explains.certain
  | failed i e found before => exact explains_of_failed h found before

end Walk

theorem Explains.comparison (c : Comparison) :
    (FilterNode.comparison c).Explains record (c.eval record) := by
  rw [Comparison.eval]
  cases tested : c.test record with
  | ok result =>
    refine .value _ (fun guess => ?_) ?_
    · rw [truth, Comparison.truth, tested]
    · rintro (_ | ⟨i, place⟩) e ⟨c', found, failing⟩
      · cases found
        rw [tested] at failing
        contradiction
      · contradiction
  | error e =>
    refine .fault [] e ⟨c, rfl, tested⟩ (fun skipped => ?_) fun earlier h => ?_
    · cases skipped
    · exact absurd h (List.not_lt_nil _)

theorem Explains.eval (record : Record) (node : FilterNode) :
    node.Explains record (node.eval record) := by
  induction node using FilterNode.induction with
  | comparison c => exact .comparison c
  | composite c ih =>
    rw [FilterNode.eval, c.eval_eq]
    exact explains_of_ending ih (c.op.combine_ending _)

/-- The failures of a node leave one result only. -/
theorem Explains.unique {result result' : QueryResult Bool} (h : node.Explains record result)
    (h' : node.Explains record result') : result = result' := by
  cases h with
  | value b certain skipped =>
    cases h' with
    | value b' certain' => rw [certain.unique certain']
    | fault place e fails reached => exact absurd (skipped place e fails) reached
  | fault place e fails reached first =>
    cases h' with
    | value b certain skipped => exact absurd (skipped place e fails) reached
    | fault place' e' fails' reached' first' =>
      obtain before | rfl | after := lt_trichotomy place place'
      · exact absurd (first' place before e fails) reached
      · obtain ⟨c, found, failing⟩ := fails
        obtain ⟨c', found', failing'⟩ := fails'
        cases found.symm.trans found'
        rw [failing] at failing'
        cases failing'
        rfl
      · exact absurd (first place' after e' fails') reached'

/-- Stopping early is sound on every tree and record: a value is what all the children give however
the comparisons that fail are read, and an error is that of the first failure that no earlier child
has made irrelevant. -/
theorem eval_eq_iff_explains (record : Record) (node : FilterNode) (result : QueryResult Bool) :
    node.eval record = result ↔ node.Explains record result := by
  constructor
  · rintro rfl
    exact .eval record node
  · exact (Explains.eval record node).unique

end FilterNode

end CampusQuery
