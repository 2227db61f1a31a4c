import Mathlib.Data.List.Nodup
import SoupQuery.Proofs.Errors
import SoupQuery.Proofs.Names
import SoupQuery.Sql.Render

/-!
# Results of a document

All operations of a document are compiled into one statement, which assigns the edges of each
connection to a path of the result. The path ends in the response key of the connection, and an
operation says nothing about the keys of another one: two operations may assign to the same path,
and then the later one wins. The connections of an operation are the fields under its first `uiapi`
and the first `query` there; what stands elsewhere is not compiled, and `__typename` is none.

* `connectionKeys` — the response keys of the connections of a definition.
* `names_eq_connectionKeys` — **the queries of a document are named by the response keys of its
  connections, operation by operation.**
* `assignments`, `assigning` — what a statement assigns, and the statement that does so.
* `transform_names_nodup_iff` — queries have different names, and are assigned to different paths,
  exactly if no two operations of the document have a connection of the same response key.
* `transform_operations_overlap` — two operations that assign to the same path.
-/

namespace SoupQuery

open SoupQuery.Sql

/-! ## Assignments -/

/-- The assignments of a statement: paths, each with the statement whose result is put there. -/
def assignments (mapping : TableMapping) (queries : List RecordQuery) : List (String × Sql) :=
  queries.map fun query => ("data.uiapi.query." ++ query.row.name ++ ".edges", query.sql mapping)

/-- The statement that makes the assignments one after the other. -/
def assigning (assignments : List (String × Sql)) : Sql :=
  [.code "SELECT json_set(", emptyObject] ++
    (assignments.flatMap fun (path, edges) =>
      [.code ", ", jsonPath path, .code ", json(("] ++ edges ++ code "))") ++
    code ") as json"

theorem statement_eq_assigning (mapping : TableMapping) (queries : List RecordQuery) :
    statement mapping queries = assigning (assignments mapping queries) := by
  rw [statement, assigning, assignments, List.flatMap_map]
  rfl

/-- Queries of different names are assigned to different paths. -/
theorem nodup_paths_iff (mapping : TableMapping) (queries : List RecordQuery) :
    ((assignments mapping queries).map (·.1)).Nodup ↔ (queries.map (·.row.name)).Nodup := by
  have hpaths : (assignments mapping queries).map (·.1) =
      (queries.map (·.row.name)).map ("data.uiapi.query." ++ · ++ ".edges") := by
    rw [assignments, List.map_map, List.map_map]
    rfl
  have hinjective : Function.Injective ("data.uiapi.query." ++ · ++ ".edges") := by
    intro first second heq
    simpa [← String.toList_inj, String.toList_append] using heq
  rw [hpaths, List.nodup_map_iff hinjective]

end SoupQuery

namespace SoupQuery.Compile

open SoupQuery.GraphQL

variable {context : Context} {document : Document}

/-! ## Names of the queries of a document -/

/-- The response keys of the connections of an operation: of the fields, `__typename` apart, under
the first `query` of its first `uiapi`. -/
def operationKeys (selections : List Selection) : List String :=
  match (Selection.below? "uiapi" selections).bind (Selection.below? "query") with
  | none => []
  | some connections => responseKeys (connections.filter (!isTypeName ·))

def connectionKeys (definition : Definition) : List String := operationKeys definition.selections

example (below : List Selection) : operationKeys [.field ⟨none, "uiapi", []⟩
    [.field ⟨none, "query", []⟩ [.field ⟨none, typeNameField, []⟩ [],
      .field ⟨none, "User", []⟩ below]]] = ["User"] := rfl

theorem names_eq_responseKeys : ∀ {connections : List Selection} {queries : List RecordQuery},
    connections.filterMap (rootConnection context) = queries.map .ok →
      queries.map (·.row.name) = responseKeys (connections.filter (!isTypeName ·))
  | [], queries, h => by
    rw [List.map_eq_nil_iff.1 h.symm]
    rfl
  | .field head below :: rest, queries, h => by
    by_cases hname : head.name = typeNameField
    · rw [List.filterMap_cons_none (by rw [rootConnection, if_pos hname])] at h
      rw [List.filter_cons_of_neg (by simp [isTypeName, hname])]
      exact names_eq_responseKeys h
    · obtain ⟨result, hresult⟩ := rootConnection_isSome below hname
      rw [List.filterMap_cons_some hresult] at h
      rw [List.filter_cons_of_pos (by simp [isTypeName, hname])]
      cases queries with
      | nil => cases h
      | cons query queries =>
        obtain ⟨hquery, hrest⟩ := List.cons.inj h
        obtain ⟨parts, -, rfl⟩ := recordQuery_ok (rootConnection_eq hresult hquery)
        rw [List.map_cons, names_eq_responseKeys hrest]
        rfl
  | .fragmentSpread _ :: _, queries, h => by cases queries <;> cases h
  | .inlineFragment _ _ :: _, queries, h => by cases queries <;> cases h

/-- The queries of an operation are named by the response keys of its connections. -/
theorem names_eq_operationKeys {selections : List Selection} {queries : List RecordQuery}
    (h : rootConnections context selections = .ok queries) :
    queries.map (·.row.name) = operationKeys selections := by
  rw [rootConnections] at h
  rw [operationKeys]
  cases hconnections : (Selection.below? "uiapi" selections).bind (Selection.below? "query") with
  | none =>
    rw [hconnections] at h
    cases h
  | some connections =>
    rw [hconnections] at h
    have hresults := (Checked.partition_eq_ok (filterMap_rootConnection_reports connections)).1 h
    exact names_eq_responseKeys hresults

theorem names_flatten_eq {operations : List (List Selection)} {results : List (List RecordQuery)}
    (hqueries : List.Forall₂ (fun definition operation => queryOf definition = .ok operation)
      document operations)
    (hroots : List.Forall₂ (fun operation result => rootConnections context operation = .ok result)
      operations results) :
    results.flatten.map (·.row.name) = document.flatMap connectionKeys := by
  induction hqueries generalizing results with
  | nil =>
    cases hroots
    rfl
  | cons hquery _ ih =>
    cases hroots with
    | cons hroot hrest =>
      rw [List.flatten_cons, List.map_append, List.flatMap_cons, ih hrest,
        names_eq_operationKeys hroot, queryOf_ok hquery]
      rfl

/-- **The queries of a document are named by the response keys of its connections**, operation by
operation. -/
theorem names_eq_connectionKeys {queries : List RecordQuery}
    (h : transform context document = .ok queries) :
    queries.map (·.row.name) = document.flatMap connectionKeys := by
  obtain ⟨operations, hoperations, h⟩ := Checked.bind_eq_ok.1 h
  obtain ⟨results, hresults, h⟩ := Checked.bind_eq_ok.1 h
  cases h
  exact names_flatten_eq (forall₂_of_partition queryOf_reports hoperations)
    (forall₂_of_partition (rootConnections_reports context) hresults)

/-! ## Paths of a document -/

/-- In a selection set, and so in an operation, no response key stands twice. -/
theorem nodup_connectionKeys (hkeys : ∀ set ∈ document.selectionSets, (responseKeys set).Nodup)
    {definition : Definition} (h : definition ∈ document) : (connectionKeys definition).Nodup := by
  unfold connectionKeys operationKeys
  split
  · exact List.nodup_nil
  · rename_i connections hconnections
    obtain ⟨inside, huiapi, hquery⟩ := Option.bind_eq_some_iff.1 hconnections
    have hset := below?_mem (below?_mem (Document.definition_mem h) huiapi) hquery
    exact (hkeys connections hset).sublist (List.filter_sublist.filterMap _)

/-- **When no connection overwrites another.** In a document that compiles, and whose selection sets
have no response key twice, the queries have different names, and the statement assigns their edges
to different paths, exactly if no two of its operations have a connection of the same response key.
They may have other keys in common, that of `__typename` among them. -/
theorem transform_names_nodup_iff {queries : List RecordQuery}
    (h : transform context document = .ok queries)
    (hkeys : ∀ set ∈ document.selectionSets, (responseKeys set).Nodup) :
    ((queries.map (·.row.name)).Nodup ↔ document.Pairwise fun first second =>
      List.Disjoint (connectionKeys first) (connectionKeys second)) ∧
    ∀ mapping, statement mapping queries = assigning (assignments mapping queries) ∧
      (((assignments mapping queries).map (·.1)).Nodup ↔ document.Pairwise fun first second =>
        List.Disjoint (connectionKeys first) (connectionKeys second)) := by
  have hnames : (queries.map (·.row.name)).Nodup ↔ document.Pairwise fun first second =>
      List.Disjoint (connectionKeys first) (connectionKeys second) := by
    rw [names_eq_connectionKeys h, List.nodup_flatMap]
    exact and_iff_right fun definition hdefinition => nodup_connectionKeys hkeys hdefinition
  refine ⟨hnames, fun mapping => ⟨statement_eq_assigning mapping queries, ?_⟩⟩
  rw [nodup_paths_iff, hnames]

/-- An operation with one connection, which asks for the identifiers of records. -/
def idsOf (connection : Field) : Definition :=
  .operation .query [.field ⟨none, "uiapi", []⟩ [.field ⟨none, "query", []⟩
    [.field connection (edgesNode [.field ⟨none, "Id", []⟩ []])]]]

/-- The users and the visits, each by an operation of its own. -/
def apartDocument : Document := [idsOf ⟨none, "User", []⟩, idsOf ⟨none, "Visit", []⟩]

theorem apart_names_nodup : ∃ queries, transform jobsContext apartDocument = .ok queries ∧
    (∀ set ∈ apartDocument.selectionSets, (responseKeys set).Nodup) ∧
    queries.map (·.row.name) = ["User", "Visit"] ∧ (queries.map (·.row.name)).Nodup ∧
    ∀ mapping, ((assignments mapping queries).map (·.1)).Nodup := by
  have hkeys : ∀ set ∈ apartDocument.selectionSets, (responseKeys set).Nodup := by decide
  have hapart : apartDocument.Pairwise fun first second =>
      List.Disjoint (connectionKeys first) (connectionKeys second) := by
    have hkey : "Visit" ∉ ["User"] := by decide
    exact List.pairwise_pair.2 (List.disjoint_singleton.2 hkey)
  obtain ⟨queries, hqueries⟩ : ∃ queries, transform jobsContext apartDocument = .ok queries :=
    ⟨_, rfl⟩
  obtain ⟨hnames, hpaths⟩ := transform_names_nodup_iff hqueries hkeys
  exact ⟨queries, hqueries, hkeys, names_eq_connectionKeys hqueries, hnames.2 hapart,
    fun mapping => (hpaths mapping).2.2 hapart⟩

/-- The users, and the visits under the key of the users. -/
def overlapDocument : Document := [idsOf ⟨none, "User", []⟩, idsOf ⟨some "User", "Visit", []⟩]

/-- **Operations overwrite each other.** No selection set has a response key twice, and the document
compiles; but both of its operations have the key `User`, and assign to the same path. -/
theorem transform_operations_overlap :
    (∀ set ∈ overlapDocument.selectionSets, (responseKeys set).Nodup) ∧
    ∃ queries, transform jobsContext overlapDocument = .ok queries ∧
      queries.map (·.row) = [⟨"User", "User"⟩, ⟨"User", "Visit"⟩] ∧
      ¬ (queries.map (·.row.name)).Nodup ∧
      ∀ mapping, (assignments mapping queries).map (·.1) =
        ["data.uiapi.query.User.edges", "data.uiapi.query.User.edges"] :=
  ⟨by decide, _, rfl, rfl, by decide, fun _ => rfl⟩

end SoupQuery.Compile
