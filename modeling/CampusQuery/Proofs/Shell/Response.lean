import CampusQuery.Proofs.Query.Columns
import CampusQuery.Proofs.Store.Loading
import CampusQuery.Shell.Run

/-!
What a query from the command line prints. Main statement: the data are the rows of the answer, each
with its columns in ascending order and each of them once, so that a row is printed as its own text
says exactly if the query lists its columns in that order.
-/

namespace CampusQuery

section Line

theorem Json.ofList_itemChars (item : Json) (rest : List Json) :
    String.ofList (item.chars ++ itemChars rest) =
      ",".intercalate (item.compact :: rest.map compact) ++ "]" := by
  induction rest generalizing item with
  | nil =>
    rw [itemChars, String.ofList_append, List.map_nil, String.intercalate_singleton]
    rfl
  | cons next rest ih =>
    have head : String.ofList item.chars = item.compact := rfl
    rw [itemChars, List.map_cons, String.intercalate_cons_cons, String.ofList_append, head,
      String.ofList_cons, ih, String.append_assoc, String.append_assoc]
    rfl

theorem Json.compact_array (items : List Json) :
    (Json.array items).compact = "[" ++ ",".intercalate (items.map compact) ++ "]" := by
  cases items with
  | nil =>
    rw [List.map_nil, String.intercalate_nil]
    decide
  | cons item rest =>
    rw [compact, chars, String.ofList_cons, ofList_itemChars, List.map_cons, String.append_assoc]
    rfl

theorem Response.line_ok (data : Json) : (Response.ok data).line =
    "\x7b\"data\":" ++ data.compact ++ ",\"status\":\"ok\"\x7d\n" := by
  have order : "data" < "status" := by decide
  have members : (Response.ok data).toJson =
      .object [("data", data), ("status", .string "ok")] := by
    simp only [toJson, Json.ofMembers, Dictionary.ofList, Dictionary.insert, Dictionary.empty,
      List.foldl_cons, List.foldl_nil, Entries.insert, if_pos order]
  rw [line, members, Json.compact, Json.chars, ← String.toList_inj]
  simp [Json.compact, Json.memberChars, Json.chars, jsonString, jsonChar]

end Line

namespace Row

variable {row : Row}

/-- The row with its columns in ascending order; of a repeated one the last cell stays. -/
def sorted (row : Row) : Row :=
  ⟨(Dictionary.ofList row.cells).entries⟩

theorem document_eq (row : Row) : row.document = row.sorted.toJson :=
  congrArg Json.object (Dictionary.entries_ofList_map FieldValue.toJson row.cells)

theorem ascending_columns_sorted (row : Row) : row.sorted.columns.Pairwise (· < ·) :=
  List.pairwise_map.2 (Dictionary.ofList row.cells).ascending

theorem get?_sorted (single : ∀ a ∈ row.cells, ∀ b ∈ row.cells, a.1 = b.1 → a = b)
    (column : String) : row.sorted.get? column = row.get? column :=
  (Dictionary.find?_ofList row.cells column).trans (Entries.find?_reverse single column)

theorem mem_columns_iff {column : String} : column ∈ row.columns ↔ (row.get? column).isSome :=
  Entries.find?_isSome_iff.symm

theorem columns_eq_of_text_eq {a b : Row} (h : a.text = b.text) : a.columns = b.columns := by
  obtain ⟨members, hmembers, names⟩ := a.exists_members_text
  obtain ⟨members', hmembers', names'⟩ := b.exists_members_text
  rw [h, hmembers'] at hmembers
  cases hmembers
  exact List.map_injective_iff.2 (Option.some_injective _) (names.symm.trans names')

/-- A row whose columns are in order is printed as it stands. -/
theorem text_sorted_eq_iff : row.sorted.text = row.text ↔ row.columns.Pairwise (· < ·) := by
  constructor
  · intro h
    rw [← columns_eq_of_text_eq h]
    exact row.ascending_columns_sorted
  · intro h
    rw [sorted, Dictionary.entries_ofList (List.pairwise_map.1 h)]

end Row

section Run

variable {σ : Type} [Files (StateM σ)] {state after : σ}

/-- The document that a query command reads. -/
def readRequest {m : Type → Type} [Monad m] [Files m] (input : m ByteArray) :
    Option String → m (Except ShellError Json)
  | some path => readDocument Json.parse? path
  | none => return requestOfInput (← input)

/-- The files and the input give the settings, a document that is read as this plan, and datasets on
which it is answered by these rows. -/
def AnswersFromFiles (config : String) (file : Option String) (input : StateM σ ByteArray)
    (state after : σ) (plan : QueryPlan) (rows : List Row) : Prop :=
  ∃ settings request store loaded read,
    (Config.load config : StateM σ _) state = (.ok settings, loaded) ∧
      (readRequest input file : StateM σ _) loaded = (.ok request, read) ∧
        (Store.openDir (utf8 settings.dataDir) : StateM σ _) read = (.ok store, after) ∧
          store.lookup.query settings.maxResults request = .ok rows ∧
            store.lookup.parse request = .ok plan ∧ plan.Lists request

theorem exists_rows_of_answerQuery {config : Config} {request data : Json}
    (h : (answerQuery config request : StateM σ _) state = (.ok data, after)) :
    ∃ store rows, (Store.openDir (utf8 config.dataDir) : StateM σ _) state = (.ok store, after) ∧
      store.lookup.query config.maxResults request = .ok rows ∧
        data = .array (rows.map Row.document) := by
  obtain ⟨opened, between, hopened, h⟩ := exists_of_run_bind h
  cases opened with
  | error e => cases h
  | ok store =>
    dsimp only at h
    cases hrows : store.lookup.query config.maxResults request with
    | error e =>
      rw [hrows] at h
      cases h
    | ok rows =>
      rw [hrows] at h
      cases h
      exact ⟨store, rows, hopened, hrows, rfl⟩

theorem run_query (config : Config) (input : StateM σ ByteArray) (name : String)
    (file : Option String) : Command.run config input (.query name file) =
      readRequest input file >>= fun request => match request with
        | .error e => return .error e
        | .ok request => answerQuery config request := by
  cases file <;> rfl

theorem exists_rows_of_run_query {settings : Config} {input : StateM σ ByteArray} {name : String}
    {file : Option String} {data : Json}
    (h : (Command.run settings input (.query name file) : StateM σ _) state = (.ok data, after)) :
    ∃ request store rows read,
      (readRequest input file : StateM σ _) state = (.ok request, read) ∧
        (Store.openDir (utf8 settings.dataDir) : StateM σ _) read = (.ok store, after) ∧
          store.lookup.query settings.maxResults request = .ok rows ∧
            data = .array (rows.map Row.document) := by
  rw [run_query] at h
  obtain ⟨request, read, hrequest, h⟩ := exists_of_run_bind h
  cases request with
  | error e => cases h
  | ok request =>
    obtain ⟨store, rows, hstore, hrows, hdata⟩ := exists_rows_of_answerQuery h
    exact ⟨request, store, rows, read, hrequest, hstore, hrows, hdata⟩

/-- A query that is answered went through all of its steps. -/
theorem exists_answers_of_run {arguments : List String} {input : StateM σ ByteArray}
    {config : String} {file : Option String} {data : Json}
    (asked : Invocation.ofArguments arguments = .ok (.run (.query config file)))
    (h : (runArguments arguments input : StateM σ _) state = (.response (.ok data), after)) :
    ∃ plan rows, AnswersFromFiles config file input state after plan rows ∧
      data = .array (rows.map Row.document) := by
  rw [runArguments, asked] at h
  dsimp only at h
  obtain ⟨settings, loaded, hsettings, h⟩ := exists_of_run_bind h
  cases settings with
  | error e => cases h
  | ok settings =>
    obtain ⟨result, ended, hresult, h⟩ := exists_of_run_bind h
    cases result with
    | error e =>
      have answered := (Prod.mk.inj h).1
      rw [Outcome.ofResult] at answered
      split at answered <;> cases answered
    | ok answer =>
      cases h
      obtain ⟨request, store, rows, read, hrequest, hstore, hrows, hdata⟩ :=
        exists_rows_of_run_query hresult
      obtain ⟨plan, -, -, hparse, -⟩ := Datasets.exists_plan_of_query hrows
      obtain ⟨scope, -, plans⟩ := QueryPlan.ofJson_iff.1 hparse
      exact ⟨plan, rows, ⟨settings, request, store, loaded, read, hsettings, hrequest, hstore,
        hrows, hparse, plans.lists⟩, hdata⟩

/-- The line that answers a command, if it succeeds. -/
def Outcome.line? : Outcome → Option String
  | .response (.ok data) => some (Response.ok data).line
  | _ => none

omit [Files (StateM σ)] in
theorem exists_run_of_line {x : StateM σ Outcome} {line : String}
    (h : (x state).1.line? = some line) :
    ∃ data after, x state = (.response (.ok data), after) ∧ (Response.ok data).line = line := by
  unfold Outcome.line? at h
  split at h
  · next data answered => exact ⟨data, (x state).2, Prod.ext answered rfl, Option.some.inj h⟩
  · contradiction

end Run

namespace QueryPlan

/-- How a row of an answer is printed. -/
structure PrintsSorted (plan : QueryPlan) (row : Row) : Prop where
  listed : row.columns = plan.columns
  ascending : row.sorted.columns.Pairwise (· < ·)
  columns : ∀ column, column ∈ row.sorted.columns ↔ column ∈ plan.columns
  values : ∀ column, row.sorted.get? column = row.get? column
  /-- The row's own text is printed exactly if COLUMNS is in order. -/
  unchanged : row.sorted.text = row.text ↔ plan.columns.Pairwise (· < ·)

theorem printsSorted_of_project {plan : QueryPlan} {full row : Row}
    (h : plan.project full = .ok row) : plan.PrintsSorted row := by
  have listed := columns_of_project h
  have values := Row.get?_sorted (Row.single_of_get? (get?_of_mem_project h))
  refine ⟨listed, row.ascending_columns_sorted, fun column => ?_, values, ?_⟩
  · rw [← listed, Row.mem_columns_iff, Row.mem_columns_iff, values]
  · rw [← listed]
    exact Row.text_sorted_eq_iff

end QueryPlan

/-- A query command that is answered prints one line with the rows of the query, whatever the files
are. In each row the columns of COLUMNS are in ascending order and there once, with their values; so
the line shows the row's own text exactly if COLUMNS is in that order and repeats nothing. -/
theorem query_prints_sorted_rows {σ : Type} [Files (StateM σ)] {state after : σ}
    {arguments : List String} {input : StateM σ ByteArray} {config : String} {file : Option String}
    {data : Json} (asked : Invocation.ofArguments arguments = .ok (.run (.query config file)))
    (h : (runArguments arguments input : StateM σ _) state = (.response (.ok data), after)) :
    ∃ plan rows, AnswersFromFiles config file input state after plan rows ∧
      (Response.ok data).line = "\x7b\"data\":[" ++
        ",".intercalate (rows.map fun row => row.sorted.text) ++ "],\"status\":\"ok\"\x7d\n" ∧
        ∀ row ∈ rows, plan.PrintsSorted row := by
  obtain ⟨plan, rows, answers, rfl⟩ := exists_answers_of_run asked h
  refine ⟨plan, rows, answers, ?_, ?_⟩
  · have texts : (rows.map Row.document).map Json.compact =
        rows.map fun row => row.sorted.text := by
      rw [List.map_map]
      exact List.map_congr_left fun row _ => congrArg Json.compact row.document_eq
    rw [Response.line_ok, Json.compact_array, texts, ← String.toList_inj]
    simp
  · obtain ⟨settings, request, store, loaded, read, -, -, -, hrows, hparse, -⟩ := answers
    obtain ⟨other, dataset, matched, hother, -, -, hformat⟩ := Datasets.exists_plan_of_query hrows
    obtain rfl := Except.ok.inj (hparse.symm.trans hother)
    obtain ⟨full, -, -, hcut⟩ := QueryPlan.exists_fullRows hformat
    intro row hrow
    obtain ⟨uncut, -, hproject⟩ := exists_of_mem_right (mapM_eq_ok_iff.1 hcut) hrow
    exact QueryPlan.printsSorted_of_project hproject

/-- A configuration, and a directory with a dataset of one section. -/
def sampleHome : FileTree where
  nodes := [([utf8 "insightdb.json"], .file "\x7b\"data_dir\":\"data\"\x7d".toUTF8),
    ([utf8 "cs.json", utf8 "data"], .file ("\x7b\"id\":\"cs\",\"kind\":\"courses\",\"records\":[" ++
      "\x7b\"audit\":0,\"avg\":70,\"dept\":\"math\",\"fail\":1,\"id\":\"1\"," ++
      "\"instructor\":\"r\",\"pass\":2,\"title\":\"t\",\"uuid\":\"1\",\"year\":9\x7d]\x7d").toUTF8),
    ([utf8 "data"], .directory)]
  workingDir := []

theorem sampleHome_hasDir : sampleHome.HasDir (utf8 "data") [utf8 "data"] :=
  ⟨rfl, rfl⟩

/-- A document that lists its columns in descending order. -/
def sampleColumns : Json :=
  .object [("FILTER", .object []),
    ("OPTIONS", .object [("COLUMNS", .array [.string "cs_dept", .string "cs_avg"])])]

def sampleInput : StateM FileTree ByteArray :=
  pure sampleColumns.compact.toUTF8

def sampleLine : String :=
  "\x7b\"data\":[\x7b\"cs_avg\":70,\"cs_dept\":\"math\"\x7d],\"status\":\"ok\"\x7d\n"

/-- The line that answers the document, and the texts of the rows in it. -/
theorem sampleHome_evaluates :
    ((runArguments ["query"] sampleInput : StateM FileTree _) sampleHome).1.line? =
        some sampleLine ∧
      ((Store.openDir (utf8 "data") : StateM FileTree _) sampleHome).1.toOption.bind (fun store =>
          (store.lookup.query defaultLimit sampleColumns).toOption.map (·.map Row.text)) =
        some ["\x7b\"cs_dept\":\"math\",\"cs_avg\":70\x7d"] := by
  decide +kernel

theorem query_prints_sorted_rows_sample : ∃ data after plan rows,
    Invocation.ofArguments ["query"] = .ok (.run (.query defaultConfig none)) ∧
      (runArguments ["query"] sampleInput : StateM FileTree _) sampleHome =
        (.response (.ok data), after) ∧
        AnswersFromFiles defaultConfig none sampleInput sampleHome after plan rows ∧
          (Response.ok data).line = "\x7b\"data\":[" ++
            ",".intercalate (rows.map fun row => row.sorted.text) ++ "],\"status\":\"ok\"\x7d\n" ∧
            ∀ row ∈ rows, plan.PrintsSorted row := by
  have asked : Invocation.ofArguments ["query"] = .ok (.run (.query defaultConfig none)) := rfl
  obtain ⟨data, after, h, -⟩ := exists_run_of_line sampleHome_evaluates.1
  obtain ⟨plan, rows, answers, line, printed⟩ := query_prints_sorted_rows asked h
  exact ⟨data, after, plan, rows, asked, h, answers, line, printed⟩

/-- The row has its columns as the query lists them, and the line of the same query has not. -/
theorem query_of_unsorted_columns : ∃ store rows data after,
    (Store.openDir (utf8 "data") : StateM FileTree _) sampleHome = (.ok store, sampleHome) ∧
      store.lookup.query defaultLimit sampleColumns = .ok rows ∧
        rows.map Row.text = ["\x7b\"cs_dept\":\"math\",\"cs_avg\":70\x7d"] ∧
          (runArguments ["query"] sampleInput : StateM FileTree _) sampleHome =
            (.response (.ok data), after) ∧
            (Response.ok data).line = sampleLine := by
  obtain ⟨printed, texts⟩ := sampleHome_evaluates
  obtain ⟨-, store, hstore, -, -⟩ := Store.exists_openDir sampleHome_hasDir
  obtain ⟨data, after, h, line⟩ := exists_run_of_line printed
  rw [hstore, Except.toOption, Option.bind_some] at texts
  cases hrows : store.lookup.query defaultLimit sampleColumns with
  | error e =>
    rw [hrows] at texts
    cases texts
  | ok rows =>
    rw [hrows] at texts
    exact ⟨store, rows, data, after, hstore, hrows, Option.some.inj texts, h, line⟩

end CampusQuery
