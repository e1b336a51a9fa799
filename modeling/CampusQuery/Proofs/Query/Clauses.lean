import CampusQuery.Proofs.Query.Grammar

/-!
The clauses of query documents. Main statements: each clause is read exactly when it is one of the
grammar, and what it gives is what it asks for.
-/

namespace CampusQuery

theorem asObject_eq_ok {what : String} {json : Json} {members : Entries Json} :
    asObject what json = .ok members ↔ json = .object members := by
  cases json <;> simp [asObject, Json.object?]

theorem asEntry_eq_ok {what : String} {members : Entries Json} {entry : String × Json} :
    asEntry what members = .ok entry ↔ members = [entry] := by
  unfold asEntry
  split
  · simp
  · next single =>
    constructor
    · intro h
      contradiction
    · rintro rfl
      exact absurd rfl (single entry)

theorem asString_eq_ok {what text : String} {json : Json} :
    asString what json = .ok text ↔ json = .string text := by
  cases json <;> simp [asString, Json.string?]

theorem asStrings_eq_ok {what : String} {json : Json} {texts : List String} :
    asStrings what json = .ok texts ↔ texts ≠ [] ∧ json = .array (texts.map .string) := by
  have items : ∀ items : List Json, items.mapM (asString what) = .ok texts ↔
      items = texts.map .string := fun items => by
    simp only [mapM_eq_ok_iff, asString_eq_ok]
    rw [← List.forall₂_map_right_iff (f := Json.string), List.forall₂_eq_eq_eq]
  unfold asStrings
  split
  · rw [items, Json.array.injEq]
    refine ⟨fun h => ⟨?_, h⟩, And.right⟩
    rintro rfl
    simp at h
  · next harray =>
    constructor
    · intro h
      contradiction
    · rintro ⟨filled, rfl⟩
      obtain ⟨text, others, rfl⟩ := List.exists_cons_of_ne_nil filled
      exact absurd rfl (harray (.string text) (others.map .string))

namespace QueryClauses

/-- The clauses are those of the document, which has no other parts. -/
structure PartOf (json : Json) (clauses : QueryClauses) : Prop where
  members : json.HasExactly ["FILTER", "OPTIONS"] ∨
    json.HasExactly ["FILTER", "OPTIONS", "TRANSFORM"]
  options : ∃ options, json.at? ["OPTIONS"] = some options ∧
    (options.HasExactly ["COLUMNS"] ∨ options.HasExactly ["COLUMNS", "ORDER"])
  filter : json.at? ["FILTER"] = some clauses.filter
  columns : json.at? ["OPTIONS", "COLUMNS"] = some clauses.columns
  order : json.at? ["OPTIONS", "ORDER"] = clauses.order
  transform : json.at? ["TRANSFORM"] = clauses.transform

theorem exists_checkKeys_iff {query : Entries Json} : (∃ b, checkKeys query = .ok b) ↔
    (Json.object query).HasExactly ["FILTER", "OPTIONS"] ∨
      (Json.object query).HasExactly ["FILTER", "OPTIONS", "TRANSFORM"] := by
  rw [← hasExactly_iff (by decide), ← hasExactly_iff (by decide), checkKeys]
  split
  · next h => simp [h]
  · next h =>
    split
    · next h' => simp [h']
    · next h' => simp [h, h']

theorem checkOptions_eq_ok {options : Entries Json} : checkOptions options = .ok () ↔
    (Json.object options).HasExactly ["COLUMNS"] ∨
      (Json.object options).HasExactly ["COLUMNS", "ORDER"] := by
  rw [← hasExactly_iff (by decide), ← hasExactly_iff (by decide), ← Bool.or_eq_true, checkOptions]
  split
  · next h => simp [h]
  · next h => simp [h]

theorem partOf_of_ofJson {json : Json} {clauses : QueryClauses} (h : ofJson json = .ok clauses) :
    PartOf json clauses := by
  unfold ofJson at h
  obtain ⟨query, hquery, h⟩ := bind_eq_ok.1 h
  obtain ⟨b, hkeys, h⟩ := bind_eq_ok.1 h
  obtain ⟨options, hoptions, h⟩ := bind_eq_ok.1 h
  obtain ⟨checked, h⟩ := check_bind_eq_ok.1 h
  cases h
  obtain rfl := asObject_eq_ok.1 hquery
  have members := exists_checkKeys_iff.1 ⟨b, hkeys⟩
  have checked := checkOptions_eq_ok.1 checked
  obtain ⟨filter, hfilter⟩ : ∃ filter, (Json.object query).at? ["FILTER"] = some filter := by
    rcases members with h | h <;> exact h.exists_at? (by decide)
  obtain ⟨found, hfound⟩ : ∃ found, (Json.object query).at? ["OPTIONS"] = some found := by
    rcases members with h | h <;> exact h.exists_at? (by decide)
  obtain ⟨columns, hcolumns⟩ : ∃ columns, (Json.object options).at? ["COLUMNS"] = some columns := by
    rcases checked with h | h <;> exact h.exists_at? (by decide)
  rw [← at?_member, hfound, Option.getD_some] at hoptions
  obtain rfl := asObject_eq_ok.1 hoptions
  rw [← at?_member, ← at?_member, ← at?_member, ← at?_member, hfilter, hcolumns]
  exact {
    members := members
    options := ⟨.object options, hfound, checked⟩
    filter := hfilter
    columns := by
      rw [at?_cons, hfound, Option.bind_some, hcolumns]
      rfl
    order := by rw [at?_cons, hfound, Option.bind_some]
    transform := rfl }

theorem PartOf.ofJson_eq_ok {json : Json} {clauses : QueryClauses} (h : PartOf json clauses) :
    ofJson json = .ok clauses := by
  obtain ⟨members, ⟨found, hfound, checked⟩, hfilter, hcolumns, horder, htransform⟩ := h
  obtain ⟨query, rfl⟩ : ∃ query, json = .object query := by
    rcases members with ⟨query, hquery, -⟩ | ⟨query, hquery, -⟩ <;> exact ⟨query, hquery⟩
  obtain ⟨options, rfl⟩ : ∃ options, found = .object options := by
    rcases checked with ⟨options, hoptions, -⟩ | ⟨options, hoptions, -⟩ <;>
      exact ⟨options, hoptions⟩
  obtain ⟨b, hkeys⟩ := exists_checkKeys_iff.2 members
  rw [at?_cons, hfound, Option.bind_some, at?_member] at hcolumns horder
  rw [at?_member] at hfound hfilter htransform
  unfold ofJson
  rw [asObject_eq_ok.2 rfl, ok_bind, hkeys, ok_bind, hfound, Option.getD_some,
    asObject_eq_ok.2 rfl, ok_bind, checkOptions_eq_ok.2 checked, ok_bind, hfilter, hcolumns, horder,
    htransform]
  rfl

end QueryClauses

section Names

@[simp] theorem AggregateOp.ofName?_name (op : AggregateOp) : ofName? op.name = some op := by
  cases op <;> decide

@[simp] theorem SortDirection.ofName?_name (direction : SortDirection) :
    ofName? direction.name = some direction := by
  cases direction <;> decide

theorem AggregateOp.name_of_ofName? {name : String} {op : AggregateOp}
    (h : ofName? name = some op) : op.name = name := by
  simpa using List.find?_some h

theorem SortDirection.name_of_ofName? {name : String} {direction : SortDirection}
    (h : ofName? name = some direction) : direction.name = name := by
  simpa using List.find?_some h

theorem AggregateOp.requiresNumeric_iff {op : AggregateOp} :
    op.requiresNumeric = true ↔ op ≠ .count := by
  cases op <;> decide

end Names

/-- A value that must be there is read as null if it is not. -/
theorem getD_null_iff {found : Option Json} {json : Json} (h : json ≠ .null) :
    found.getD .null = json ↔ found = some json := by
  cases found with
  | none => simp [h.symm]
  | some value => simp

namespace Scope

variable {scope : Scope}

theorem resolve_check_iff {key : String} :
    ((scope.resolve key).map fun _ => ()) = .ok () ↔ scope.IsKey key := by
  rw [← exists_resolve_iff, map_eq_ok]
  simp

/-- Keys have an underscore and names have none. -/
theorem isKey_or_isName_iff {key : String} {p : Prop} : scope.IsKey key ∨ IsName key ∧ p ↔
    key ≠ "" ∧ ('_' ∈ key.toList → scope.IsKey key) ∧ ('_' ∉ key.toList → p) := by
  constructor
  · rintro (h | ⟨⟨filled, plain⟩, h⟩)
    · refine ⟨?_, fun _ => h, fun plain => absurd h.underscore plain⟩
      rintro rfl
      exact absurd h.underscore (by simp)
    · exact ⟨filled, fun underscore => absurd underscore plain, fun _ => h⟩
  · rintro ⟨filled, keyed, h⟩
    by_cases underscore : '_' ∈ key.toList
    · exact .inl (keyed underscore)
    · exact .inr ⟨⟨filled, underscore⟩, h underscore⟩

theorem checkColumn_iff {transform : Option Json} {column : String} :
    scope.checkColumn transform.isSome column = .ok () ↔ scope.IsColumn transform column := by
  rw [IsColumn, isKey_or_isName_iff, ← resolve_check_iff, checkColumn]
  split
  · next empty => simp [empty]
  split
  · next filled underscore => simp [filled, underscore]
  split
  · next filled plain grouped => simp [filled, plain, grouped]
  · next filled plain ungrouped => simp [filled, plain, ungrouped]

theorem checkOrderKey_iff {key : String} :
    scope.checkOrderKey key = .ok () ↔ scope.IsSortKey key := by
  rw [IsSortKey, ← and_true (IsName key), isKey_or_isName_iff, ← resolve_check_iff, checkOrderKey]
  split
  · next empty => simp [empty]
  split
  · next filled underscore => simp [filled, underscore]
  · next filled plain => simp [filled, plain]

theorem ofFirstColumn_iff {kinds : String → Option SchemaKind} {column : String} :
    ofFirstColumn kinds column = .ok scope ↔
      kinds scope.datasetId = some scope.kind ∧ scope.IsKey column := by
  rw [← exists_resolve_iff, ofFirstColumn]
  constructor
  · intro h
    split at h
    · contradiction
    split at h
    · contradiction
    next datasetId name hsplit kind hkind =>
      obtain ⟨ref, href, rfl⟩ := map_eq_ok.1 h
      exact ⟨hkind, ref, href⟩
  · rintro ⟨hkind, ref, href⟩
    rw [(resolve_eq_ok.1 href).1]
    simp only [hkind, href, map_ok]

theorem direction_iff {value : Json} {d : SortDirection} :
    direction value = .ok d ↔ value = .string d.name := by
  constructor
  · intro h
    unfold direction at h
    split at h
    · next found hfound =>
      cases h
      obtain ⟨name, hname, hdirection⟩ := Option.bind_eq_some_iff.1 hfound
      cases value <;> cases hname
      rw [SortDirection.name_of_ofName? hdirection]
    · contradiction
  · rintro rfl
    simp [direction, Json.string?]

theorem orderClause_iff {clause : Json} {spec : SortSpec} :
    scope.orderClause clause = .ok spec ↔ scope.Orders clause spec := by
  constructor
  · intro h
    unfold orderClause at h
    split at h
    · obtain ⟨checked, h⟩ := check_bind_eq_ok.1 h
      cases h
      exact .key (checkOrderKey_iff.1 checked)
    · obtain ⟨members, hmembers, h⟩ := bind_eq_ok.1 h
      obtain ⟨exactly, h⟩ := guard_eq_ok.1 h
      obtain ⟨direction, hdirection, h⟩ := bind_eq_ok.1 h
      obtain ⟨keys, hkeys, h⟩ := bind_eq_ok.1 h
      obtain ⟨checked, h⟩ := check_bind_eq_ok.1 h
      cases h
      obtain rfl := asObject_eq_ok.1 hmembers
      obtain ⟨filled, hkeys⟩ := asStrings_eq_ok.1 hkeys
      have hdirection := direction_iff.1 hdirection
      rw [getD_null_iff (by simp)] at hkeys hdirection
      refine .keys ((hasExactly_iff (by decide)).1 (by simpa using exactly)) ?_ ?_ filled
        fun key hkey => checkOrderKey_iff.1 (forM_eq_ok.1 checked key hkey)
      · rw [at?_member, hdirection]
      · rw [at?_member, hkeys]
  · rintro (h | ⟨exactly, hdirection, hkeys, filled, h⟩)
    · rw [orderClause, checkOrderKey_iff.2 h]
      rfl
    · have checked : spec.keys.forM scope.checkOrderKey = .ok () :=
        forM_eq_ok.2 fun key hkey => checkOrderKey_iff.2 (h key hkey)
      obtain ⟨members, rfl⟩ : ∃ members, clause = .object members :=
        exactly.elim fun members h => ⟨members, h.1⟩
      rw [at?_member] at hdirection hkeys
      have exactly := (hasExactly_iff (by decide)).2 exactly
      refine bind_eq_ok.2 ⟨members, asObject_eq_ok.2 rfl, guard_eq_ok.2 ⟨by simp [exactly], ?_⟩⟩
      rw [hdirection, hkeys, Option.getD_some, Option.getD_some, direction_iff.2 rfl, ok_bind,
        asStrings_eq_ok.2 ⟨filled, rfl⟩, ok_bind, checked]
      rfl

theorem mapM_resolve_iff {keys : List String} {refs : List FieldRef} :
    keys.mapM scope.resolve = .ok refs ↔
      keys = refs.map FieldRef.key ∧ ∀ ref ∈ refs, scope.Owns ref := by
  rw [mapM_eq_ok_iff]
  simp only [resolve_iff]
  constructor
  · intro h
    induction h with
    | nil => simp
    | cons head _ ih =>
      obtain ⟨rfl, owned⟩ := head
      obtain ⟨rfl, rest⟩ := ih
      exact ⟨rfl, List.forall_mem_cons.2 ⟨owned, rest⟩⟩
  · rintro ⟨rfl, owned⟩
    rw [List.forall₂_map_left_iff, List.forall₂_same]
    exact fun ref href => ⟨rfl, owned ref href⟩

theorem applyEntry_iff {entry : Json} {spec : AggregateSpec} :
    scope.applyEntry entry = .ok spec ↔ entry = spec.document ∧ scope.IsAggregate spec := by
  constructor
  · intro h
    unfold applyEntry at h
    obtain ⟨members, hmembers, h⟩ := bind_eq_ok.1 h
    obtain ⟨⟨name, rule⟩, hentry, h⟩ := bind_eq_ok.1 h
    obtain ⟨hname, h⟩ := guard_eq_ok.1 h
    obtain ⟨ruleMembers, hrule, h⟩ := bind_eq_ok.1 h
    obtain ⟨⟨opName, target⟩, htarget, h⟩ := bind_eq_ok.1 h
    dsimp only at h hname hrule
    split at h
    · contradiction
    next op hop =>
      split at h
      · next key =>
        obtain ⟨ref, href, h⟩ := bind_eq_ok.1 h
        obtain ⟨hnumeric, h⟩ := guard_eq_ok.1 h
        cases h
        obtain ⟨rfl, owned⟩ := resolve_iff.1 href
        obtain rfl := asObject_eq_ok.1 hmembers
        obtain rfl := asEntry_eq_ok.1 hentry
        obtain rfl := asObject_eq_ok.1 hrule
        obtain rfl := asEntry_eq_ok.1 htarget
        obtain rfl := AggregateOp.name_of_ofName? hop
        rw [not_or] at hname
        refine ⟨rfl, ⟨hname.1, hname.2⟩, owned, fun counted => ?_⟩
        change ref.field.fieldType = .numeric
        simpa [AggregateOp.requiresNumeric_iff.2 counted, Field.isNumeric] using hnumeric
      · contradiction
  · rintro ⟨rfl, ⟨⟨filled, plain⟩, owned, numeric⟩⟩
    have accepted : ¬(spec.op.requiresNumeric ∧ !spec.target.field.isNumeric) := by
      rintro ⟨required, other⟩
      have fieldType : spec.target.field.fieldType = .numeric :=
        numeric (AggregateOp.requiresNumeric_iff.1 required)
      simp [Field.isNumeric, fieldType] at other
    unfold applyEntry AggregateSpec.document
    rw [asObject_eq_ok.2 rfl, ok_bind, asEntry_eq_ok.2 rfl, ok_bind]
    refine guard_eq_ok.2 ⟨not_or.2 ⟨filled, plain⟩, ?_⟩
    dsimp only
    rw [asObject_eq_ok.2 rfl, ok_bind, asEntry_eq_ok.2 rfl, ok_bind]
    simp only [AggregateOp.ofName?_name, resolve_iff.2 ⟨rfl, owned⟩, ok_bind, if_neg accepted]
    rfl

/-- The induction is on the entries; each name is new among those taken before it. -/
theorem applyEntries_iff {taken : List String} {entries : List Json}
    {specs : List AggregateSpec} : scope.applyEntries taken entries = .ok specs ↔
      entries = specs.map AggregateSpec.document ∧ (∀ spec ∈ specs, scope.IsAggregate spec) ∧
        (specs.map AggregateSpec.name).Nodup ∧ ∀ spec ∈ specs, spec.name ∉ taken := by
  induction entries generalizing taken specs with
  | nil =>
    rw [applyEntries]
    constructor
    · rintro ⟨⟩
      simp
    · rintro ⟨nil, -⟩
      rw [List.map_eq_nil_iff.1 nil.symm]
  | cons entry entries ih =>
    rw [applyEntries]
    constructor
    · intro h
      obtain ⟨spec, hspec, h⟩ := bind_eq_ok.1 h
      obtain ⟨hnew, h⟩ := guard_eq_ok.1 h
      obtain ⟨others, hothers, h⟩ := bind_eq_ok.1 h
      cases h
      obtain ⟨rfl, admitted⟩ := applyEntry_iff.1 hspec
      obtain ⟨rfl, admittedOthers, distinct, fresh⟩ := ih.1 hothers
      refine ⟨rfl, List.forall_mem_cons.2 ⟨admitted, admittedOthers⟩, ?_, ?_⟩
      · refine List.nodup_cons.2 ⟨fun hrepeated => ?_, distinct⟩
        obtain ⟨other, hother, hname⟩ := List.mem_map.1 hrepeated
        exact fresh other hother (hname ▸ List.mem_cons_self)
      · exact List.forall_mem_cons.2 ⟨hnew, fun other hother htaken =>
          fresh other hother (List.mem_cons_of_mem _ htaken)⟩
    · rintro ⟨documents, admitted, distinct, fresh⟩
      obtain ⟨spec, others, rfl, rfl, rfl⟩ := List.map_eq_cons_iff.1 documents.symm
      obtain ⟨hunique, distinct⟩ := List.nodup_cons.1 distinct
      obtain ⟨hnew, fresh⟩ := List.forall_mem_cons.1 fresh
      obtain ⟨admitted, admittedOthers⟩ := List.forall_mem_cons.1 admitted
      have later : ∀ other ∈ others, other.name ∉ spec.name :: taken := by
        intro other hother hmem
        rcases List.mem_cons.1 hmem with heq | htaken
        · exact hunique (heq ▸ List.mem_map_of_mem hother)
        · exact fresh other hother htaken
      refine bind_eq_ok.2 ⟨spec, applyEntry_iff.2 ⟨rfl, admitted⟩, guard_eq_ok.2 ⟨hnew, ?_⟩⟩
      rw [ih.2 ⟨rfl, admittedOthers, distinct, later⟩]
      rfl

theorem transformClause_iff {clause : Json} {group : List FieldRef}
    {aggregates : List AggregateSpec} :
    scope.transformClause clause = .ok (group, aggregates) ↔
      scope.Transforms clause group aggregates := by
  constructor
  · intro h
    unfold transformClause at h
    obtain ⟨members, hmembers, h⟩ := bind_eq_ok.1 h
    obtain ⟨exactly, h⟩ := guard_eq_ok.1 h
    obtain ⟨keys, hkeys, h⟩ := bind_eq_ok.1 h
    obtain ⟨found, hfound, h⟩ := bind_eq_ok.1 h
    split at h
    · next entries hentries =>
      obtain ⟨specs, hspecs, h⟩ := bind_eq_ok.1 h
      cases h
      obtain rfl := asObject_eq_ok.1 hmembers
      obtain ⟨filled, hkeys⟩ := asStrings_eq_ok.1 hkeys
      obtain ⟨rfl, owned⟩ := mapM_resolve_iff.1 hfound
      obtain ⟨rfl, admitted, distinct, -⟩ := applyEntries_iff.1 hspecs
      rw [getD_null_iff (by simp)] at hkeys hentries
      exact {
        members := (hasExactly_iff (by decide)).1 (by simpa using exactly)
        keys := by rw [at?_member, hkeys, List.map_map]; rfl
        filled := by simpa using filled
        owned := owned
        entries := by rw [at?_member, hentries]
        admitted := admitted
        distinct := distinct }
    · contradiction
  · rintro ⟨exactly, hkeys, filled, owned, hentries, admitted, distinct⟩
    obtain ⟨members, rfl⟩ : ∃ members, clause = .object members :=
      exactly.elim fun members h => ⟨members, h.1⟩
    rw [at?_member] at hkeys hentries
    have keys : group.map (fun ref => Json.string ref.key) =
        (group.map FieldRef.key).map .string := by
      rw [List.map_map]
      rfl
    have applied := applyEntries_iff.2 ⟨rfl, admitted, distinct, fun _ _ => List.not_mem_nil⟩
    have exactly := (hasExactly_iff (by decide)).2 exactly
    refine bind_eq_ok.2 ⟨members, asObject_eq_ok.2 rfl, guard_eq_ok.2 ⟨by simp [exactly], ?_⟩⟩
    rw [hkeys, hentries, Option.getD_some, Option.getD_some, keys,
      asStrings_eq_ok.2 ⟨by simpa using filled, rfl⟩, ok_bind, mapM_resolve_iff.2 ⟨rfl, owned⟩,
      ok_bind]
    dsimp only
    rw [applied]
    rfl

end Scope

end CampusQuery
