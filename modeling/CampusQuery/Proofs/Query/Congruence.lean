import CampusQuery.Proofs.Data.Alike
import CampusQuery.Proofs.Query.Soundness

/-!
Answers do not show the signs of zeros. Main statement: on datasets that are alike a query fails for
the same reason or gives rows with the same texts.
-/

namespace CampusQuery

variable {a b : Record}

theorem comparisonHolds_congr (name : String) (operand : Json) {x y : FieldValue}
    (h : x.Alike y) : comparisonHolds name operand x = comparisonHolds name operand y := by
  cases x <;> cases y
  case number.number x y =>
    cases operand with
    | number bound =>
      have below := Alike.lt_iff h (.refl bound.toDouble)
      have above := Alike.lt_iff (.refl bound.toDouble) h
      have equal := Alike.beq_eq h (.refl bound.toDouble)
      simp only [comparisonHolds, below, above, equal]
    | _ => rfl
  case text.text s t =>
    obtain rfl : s = t := h
    rfl
  all_goals exact h.elim

theorem Record.Alike.referenced?_rel (h : a.Alike b) (key : String) :
    Option.Rel FieldValue.Alike (a.referenced? key) (b.referenced? key) := by
  rw [Record.referenced?, Record.referenced?]
  cases splitKey? key with
  | none => exact .none
  | some parts => exact h.find?_rel parts.2

/-- A filter document selects both of two records that are alike, or neither. -/
theorem Record.Alike.selects_eq (h : a.Alike b) (json : Json) :
    json.selects a = json.selects b := by
  refine (Json.selects.mutual_induct (fun json => json.selects a = json.selects b)
    (fun children => Json.selectsSome a children = Json.selectsSome b children)
    (fun children => Json.selectsEvery a children = Json.selectsEvery b children)
    ?_ ?_ ?_ ?_ ?_ ?_ ?_ ?_ ?_ ?_).1 json
  case refine_1 =>
    intro body ih
    simp only [Json.selects, if_true, ih]
  case refine_2 =>
    intro children hname ih
    simp only [Json.selects, if_neg hname, if_true, ih]
  case refine_3 =>
    intro name hnegate children hall ih
    simp only [Json.selects, if_neg hnegate, if_neg hall, ih]
  case refine_4 =>
    intro name hnegate key operand
    rw [Json.selects, if_neg hnegate, Json.selects, if_neg hnegate]
    rcases rel_cases (h.referenced?_rel key) with ⟨ha, hb⟩ | ⟨x, y, ha, hb, hlike⟩
    · rw [ha, hb]
    · rw [ha, hb, Option.any_some, Option.any_some, comparisonHolds_congr name operand hlike]
  case refine_5 =>
    intro name body hnegate harray hobject
    rw [Json.selects, if_neg hnegate, Json.selects, if_neg hnegate] <;> assumption
  case refine_6 =>
    intro json hentry
    rw [Json.selects, Json.selects] <;> exact hentry
  case refine_7 => rfl
  case refine_8 =>
    intro child children head tail
    rw [Json.selectsSome, Json.selectsSome, head, tail]
  case refine_9 => rfl
  case refine_10 =>
    intro child children head tail
    rw [Json.selectsEvery, Json.selectsEvery, head, tail]

/-- The same columns with values that are alike. -/
def Row.Alike (a b : Row) : Prop :=
  Entries.Alike a.cells b.cells

theorem Row.Alike.refl (a : Row) : a.Alike a :=
  List.forall₂_same.2 fun cell _ => ⟨rfl, FieldValue.Alike.refl cell.2⟩

theorem Row.Alike.text_eq {a b : Row} (h : a.Alike b) : a.text = b.text := by
  rw [Row.text, Row.text, Row.toJson, Row.toJson, Entries.Alike.toJson_eq h]

section Groups

variable {xs ys : List Record} {tuple tuple' : List FieldValue}

theorem codeOf_congr (h : List.Forall₂ FieldValue.Alike tuple tuple') :
    codeOf tuple = codeOf tuple' :=
  codeOf_eq_iff.2 (h.imp fun _ _ => FieldValue.Alike.same)

theorem sameTuple_congr {other other' : List FieldValue}
    (h : List.Forall₂ FieldValue.Alike tuple tuple')
    (hother : List.Forall₂ FieldValue.Alike other other') :
    sameTuple tuple other = sameTuple tuple' other' := by
  rw [Bool.eq_iff_iff, sameTuple_iff, sameTuple_iff, codeOf_congr h, codeOf_congr hother]

/-- The cells of the group fields. -/
theorem alike_zip_key (h : List.Forall₂ FieldValue.Alike tuple tuple') (fields : List FieldRef) :
    Entries.Alike ((fields.zip tuple).map fun cell => (cell.1.key, cell.2))
      ((fields.zip tuple').map fun cell => (cell.1.key, cell.2)) := by
  induction h generalizing fields with
  | nil => cases fields <;> exact .nil
  | cons head _ ih =>
    cases fields with
    | nil => exact .nil
    | cons ref fields => exact .cons ⟨rfl, head⟩ (ih fields)

variable (plan : QueryPlan) (h : List.Forall₂ Record.Alike xs ys)

include h

theorem forall₂_groupTuples : List.Forall₂ (List.Forall₂ FieldValue.Alike)
    (plan.groupTuples xs) (plan.groupTuples ys) := by
  refine forall₂_eraseDupsBy ?_ fun _ _ _ _ => sameTuple_congr
  rw [List.forall₂_map_left_iff, List.forall₂_map_right_iff]
  exact h.imp fun a b hab => hab.tuple plan.group

theorem forall₂_groupMembers (htuple : List.Forall₂ FieldValue.Alike tuple tuple') :
    List.Forall₂ Record.Alike (plan.groupMembers xs tuple) (plan.groupMembers ys tuple') :=
  forall₂_filter h fun _ _ hab => sameTuple_congr (hab.tuple plan.group) htuple

theorem forall₂_numberOf (ref : FieldRef) :
    List.Forall₂ Alike (xs.map (Record.numberOf ref)) (ys.map (Record.numberOf ref)) := by
  rw [List.forall₂_map_left_iff, List.forall₂_map_right_iff]
  exact h.imp fun a b hab => hab.numberOf ref

theorem countDistinct_congr (ref : FieldRef) :
    AggregateSpec.countDistinct (xs.map (Record.cell ref)) =
      AggregateSpec.countDistinct (ys.map (Record.cell ref)) := by
  have codes : (xs.map (Record.cell ref)).map FieldValue.code =
      (ys.map (Record.cell ref)).map FieldValue.code := by
    induction h with
    | nil => rfl
    | cons head _ ih =>
      rw [List.map_cons, List.map_cons, List.map_cons, List.map_cons, (head.cell ref).code_eq, ih]
  rw [AggregateSpec.countDistinct, AggregateSpec.countDistinct, codes]

/-- Aggregates show the sign of a zero only as the sign of a zero. -/
theorem value?_rel (spec : AggregateSpec) :
    Option.Rel FieldValue.Alike (spec.value? xs) (spec.value? ys) := by
  have numbers := forall₂_numberOf h spec.target
  unfold AggregateSpec.value?
  cases spec.op with
  | count =>
    rw [countDistinct_congr h]
    exact .some (.refl _)
  | max => exact .some (Alike.foldl Alike.larger numbers (.refl _))
  | min => exact .some (Alike.foldl Alike.smaller numbers (.refl _))
  | sum => exact .some (Alike.foldl Alike.add numbers (.refl _))
  | avg =>
    simp only [decimalMean?_congr numbers]
    cases decimalMean? (ys.map (Record.numberOf spec.target)) with
    | none => exact .none
    | some mean => exact .some (.refl _)

end Groups

section Rows

variable {kind : SchemaKind} {plan : QueryPlan} {xs ys : List Record}
  (h : List.Forall₂ Record.Alike xs ys) (hxs : ∀ record ∈ xs, record.WellFormed kind)

include h hxs

theorem wellFormed_right : ∀ record ∈ ys, record.WellFormed kind := by
  intro record hrecord
  obtain ⟨other, hother, hlike⟩ := exists_of_mem_right h hrecord
  exact hlike.wellFormed (hxs other hother)

theorem agree_compute {spec : AggregateSpec} (hspec : spec.Fits kind) :
    Agree FieldValue.Alike (spec.compute xs) (spec.compute ys) := by
  rw [AggregateSpec.compute_eq hspec hxs,
    AggregateSpec.compute_eq hspec (wellFormed_right h hxs)]
  rcases rel_cases (value?_rel h spec) with ⟨hx, hy⟩ | ⟨x, y, hx, hy, hlike⟩
  · rw [hx, hy]
    exact .error _
  · rw [hx, hy]
    exact .ok hlike

theorem agree_row (hplan : plan.GroupFits kind) {tuple tuple' : List FieldValue}
    (htuple : List.Forall₂ FieldValue.Alike tuple tuple') :
    Agree Row.Alike ((⟨tuple, xs⟩ : Bucket).row plan.group plan.aggregates)
      ((⟨tuple', ys⟩ : Bucket).row plan.group plan.aggregates) := by
  have computed : Agree Entries.Alike
      (plan.aggregates.mapM fun spec => (spec.compute xs).map (spec.name, ·))
      (plan.aggregates.mapM fun spec => (spec.compute ys).map (spec.name, ·)) := by
    refine Agree.mapM (R := fun spec spec' => spec = spec' ∧ spec.Fits kind) ?_ ?_
    · exact List.forall₂_same.2 fun spec hspec => ⟨rfl, hplan.aggregates spec hspec⟩
    · rintro spec _ ⟨rfl, hspec⟩
      exact (agree_compute h hxs hspec).map fun x y hlike => ⟨rfl, hlike⟩
  exact computed.bind fun _ _ hcells =>
    .ok (List.rel_append (alike_zip_key htuple plan.group) hcells)

theorem agree_aggregate (hplan : plan.GroupFits kind) (limit : Nat) :
    Agree (List.Forall₂ Row.Alike) (plan.aggregate limit xs) (plan.aggregate limit ys) := by
  have tuples := forall₂_groupTuples plan h
  rw [QueryPlan.aggregate_eq limit hplan hxs,
    QueryPlan.aggregate_eq limit hplan (wellFormed_right h hxs), tuples.length_eq]
  split
  · exact .error _
  · apply Agree.mapM tuples
    intro tuple tuple' htuple
    exact agree_row (forall₂_groupMembers plan h htuple)
      (fun record hrecord => hxs record (List.mem_filter.1 hrecord).1) hplan htuple

end Rows

section Sorting

variable {a b c d : Row}

theorem Row.Alike.get?_rel (h : a.Alike b) (column : String) :
    Option.Rel FieldValue.Alike (a.get? column) (b.get? column) :=
  Entries.Alike.find?_rel h column

theorem compareCells_congr {x y z w : Option FieldValue} (hxy : Option.Rel FieldValue.Alike x y)
    (hzw : Option.Rel FieldValue.Alike z w) : compareCells x z = compareCells y w := by
  cases hxy <;> cases hzw
  case some.some hxy _ _ hzw => exact hxy.compare_eq hzw
  all_goals rfl

theorem compareBy_congr (keys : List String) (hab : a.Alike b) (hcd : c.Alike d) :
    a.compareBy keys c = b.compareBy keys d := by
  induction keys with
  | nil => rfl
  | cons key keys ih =>
    rw [Row.compareBy, Row.compareBy, ih, compareCells_congr (hab.get?_rel key) (hcd.get?_rel key)]

theorem compareRows_congr (spec : SortSpec) (hab : a.Alike b) (hcd : c.Alike d) :
    spec.compareRows a c = spec.compareRows b d := by
  unfold SortSpec.compareRows
  rw [compareBy_congr spec.keys hab hcd]

/-- Rows that are alike are sorted alike. -/
theorem forall₂_sort (spec : SortSpec) {rows rows' : List Row}
    (h : List.Forall₂ Row.Alike rows rows') :
    List.Forall₂ Row.Alike (spec.sort rows) (spec.sort rows') := by
  unfold SortSpec.sort
  split
  · exact h
  · exact forall₂_stableSort h fun _ _ _ _ => compareRows_congr spec

end Sorting

section Answers

variable {kind : SchemaKind} {plan : QueryPlan} {scope : Scope} {xs ys : List Record}

theorem Record.Alike.qualifyRecord (plan : QueryPlan) (h : a.Alike b) :
    (plan.qualifyRecord a).Alike (plan.qualifyRecord b) := by
  refine List.forall₂_map_left_iff.2 (List.forall₂_map_right_iff.2 ?_)
  exact h.imp fun entry entry' hentry => ⟨by rw [hentry.1], hentry.2⟩

theorem agree_fullRows (h : List.Forall₂ Record.Alike xs ys)
    (hxs : ∀ record ∈ xs, record.WellFormed kind) (hplan : plan.GroupFits kind) (limit : Nat) :
    Agree (List.Forall₂ Row.Alike) (plan.fullRows limit xs) (plan.fullRows limit ys) := by
  unfold QueryPlan.fullRows
  split
  · exact agree_aggregate h hxs hplan limit
  · rw [h.length_eq]
    refine Agree.bind_self fun _ => .ok ?_
    refine List.forall₂_map_left_iff.2 (List.forall₂_map_right_iff.2 ?_)
    exact h.imp fun _ _ hlike => hlike.qualifyRecord plan

theorem agree_project (plan : QueryPlan) {a b : Row} (h : a.Alike b) :
    Agree Row.Alike (plan.project a) (plan.project b) := by
  rw [QueryPlan.project, QueryPlan.project]
  refine Agree.bind (R := Entries.Alike) (Agree.mapM (R := Eq)
    (List.forall₂_same.2 fun _ _ => rfl) ?_) fun _ _ hcells => .ok hcells
  rintro column _ rfl
  rcases rel_cases (h.get?_rel column) with ⟨ha, hb⟩ | ⟨x, y, ha, hb, hlike⟩
  · rw [ha, hb]
    exact .error _
  · rw [ha, hb]
    exact .ok ⟨rfl, hlike⟩

theorem agree_format (h : List.Forall₂ Record.Alike xs ys)
    (hxs : ∀ record ∈ xs, record.WellFormed kind) (hplan : plan.GroupFits kind) (limit : Nat) :
    Agree (List.Forall₂ Row.Alike) (plan.format limit xs) (plan.format limit ys) := by
  unfold QueryPlan.format
  refine Agree.bind_self fun _ => ?_
  apply (agree_fullRows h hxs hplan limit).bind
  intro rows rows' hrows
  rw [hrows.length_eq]
  refine Agree.bind_self fun _ => Agree.bind_self fun _ => ?_
  exact Agree.mapM (forall₂_sort plan.sort hrows) fun _ _ hrow => agree_project plan hrow

/-- The records that pass the filter of a document are alike on both sides. -/
theorem exists_matching_alike (resolved : plan.Resolved scope)
    (h : List.Forall₂ Record.Alike xs ys) (hxs : ∀ record ∈ xs, record.WellFormed scope.kind) :
    ∃ matched matched', matching plan.filter xs = .ok matched ∧
      matching plan.filter ys = .ok matched' ∧ List.Forall₂ Record.Alike matched matched' ∧
        ∀ record ∈ matched, record.WellFormed scope.kind := by
  obtain ⟨keeps, hkeeps, hmatching⟩ := QueryPlan.exists_keeps resolved
  refine ⟨_, _, hmatching xs hxs, hmatching ys (wellFormed_right h hxs), ?_, ?_⟩
  · apply forall₂_filter h
    intro a b hlike
    rcases hkeeps with hkeeps | ⟨json, hkeeps⟩
    · rw [hkeeps, hkeeps]
    · rw [hkeeps, hkeeps, hlike.selects_eq json]
  · exact fun record hrecord => hxs record (List.mem_filter.1 hrecord).1

end Answers

/-- Datasets under the same ids that are alike. -/
def Datasets.Alike (datasets datasets' : Datasets) : Prop :=
  ∀ id, Option.Rel Dataset.Alike (datasets id) (datasets' id)

/-- A query does not show the signs of zeros in the datasets, except as signs of zeros. -/
theorem Datasets.Alike.agree_query {datasets datasets' : Datasets} (h : datasets.Alike datasets')
    (built : ∀ id dataset, datasets id = some dataset → dataset.Built) (limit : Nat)
    (query : Json) :
    Agree (List.Forall₂ Row.Alike) (datasets.query limit query) (datasets'.query limit query) := by
  have kinds : (fun id => (datasets id).map Dataset.kind) =
      fun id => (datasets' id).map Dataset.kind := by
    funext id
    rcases rel_cases (h id) with ⟨hd, he⟩ | ⟨d, e, hd, he, hlike⟩
    · rw [hd, he]
    · rw [hd, he, Option.map_some, Option.map_some, hlike.kind]
  unfold Datasets.query Datasets.parse
  rw [← kinds]
  cases hparse : QueryPlan.ofJson (fun id => (datasets id).map Dataset.kind) query with
  | error e => exact .error e
  | ok plan =>
    obtain ⟨scope, dataset, resolved, hdataset, fits⟩ := QueryPlan.exists_dataset_of_parse hparse
    have wellFormed := fits (built _ _ hdataset)
    rcases rel_cases (h plan.datasetId) with ⟨hnone, -⟩ | ⟨d, e, hd, he, hlike⟩
    · rw [hdataset] at hnone
      contradiction
    · obtain rfl := Option.some.inj (hdataset.symm.trans hd)
      obtain ⟨matched, matched', hmatched, hmatched', hrecords, hwellFormed⟩ :=
        exists_matching_alike resolved hlike.records wellFormed
      have hformat := agree_format hrecords hwellFormed resolved.groupFits limit
      rw [ok_bind, ok_bind, QueryPlan.execute, QueryPlan.execute, hd, he]
      simp only [hmatched, hmatched', ok_bind]
      refine Agree.bind (R := fun result result' : ExecutionResult =>
        List.Forall₂ Row.Alike result.rows result'.rows) ?_ fun _ _ hrows => .ok hrows
      exact hformat.bind fun _ _ hrows => .ok hrows

end CampusQuery
