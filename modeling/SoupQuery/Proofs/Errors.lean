import SoupQuery.Proofs.Coverage

/-!
# No error is lost

A failed compilation names at least one error, and what is wrong with the parts of a document is
wrong with the document: its errors are those of its parts, one after the other, and if there are
none, neither is any part left out.

* `Path`, `HasPath` — a definition with one way to its connections.
* `Path.singles` — the definition cut down to one of its selections, for each of them.
* `Decomposes` — a document comes to what its cuttings come to.
* `recordErrors` — the errors of a connection, part by part.
* `transform_errors` — **no error and no selection is lost.**
-/

namespace SoupQuery.Compile

open SoupQuery.GraphQL

variable {context : Context} {document : Document} {row : Row}

/-! ## One selection at a time -/

/-- The way to the connections of a definition, and the selections at its end. -/
structure Path where
  uiapi : Field
  query : Field
  connections : List Selection
  deriving Repr, Inhabited

/-- The definition is a query that has exactly one field `uiapi`, and under it exactly one field
`query`. -/
inductive HasPath : Definition → Path → Prop
  | mk {selections uiapi inside query connections} :
      Selection.named "uiapi" selections = [(uiapi, inside)] →
      Selection.named "query" inside = [(query, connections)] →
      HasPath (.operation .query selections) ⟨uiapi, query, connections⟩

/-- Whether the selection is a field that asks for the type of a record. -/
def isTypeName : Selection → Bool
  | .field head _ => head.name = typeNameField
  | _ => false

/-- The document that has nothing but one selection at the end of the path. -/
def Path.single (path : Path) (s : Selection) : Document :=
  [.operation .query [.field path.uiapi [.field path.query [s]]]]

/-- The documents that have one selection each, in order. -/
def Path.singles (path : Path) : List Document :=
  (path.connections.filter (!isTypeName ·)).map path.single

/-- The document compiles exactly if all cuttings do; then its queries are theirs, one after the
other, and otherwise its errors are. -/
structure Decomposes (context : Context) (document : Document) (singles : List Document) :
    Prop where
  succeeds_iff : (∃ queries, transform context document = .ok queries) ↔
    ∀ single ∈ singles, ∃ queries, transform context single = .ok queries
  queries_eq : ∀ queries, transform context document = .ok queries →
    ∃ results, List.Forall₂ (fun single result => transform context single = .ok result)
      singles results ∧ queries = results.flatten
  errors_eq : ∀ errors, transform context document = .error errors →
    errors = singles.flatMap fun single => (transform context single).errors

/-! ## Documents -/

/-- **A document never fails without a reason.** -/
theorem transform_reports (context : Context) (document : Document) :
    (transform context document).Reports :=
  Checked.bind_reports (Checked.partition_reports _) fun _ =>
    Checked.bind_reports (Checked.partition_reports _) fun _ => Checked.ok_reports _

/-- A document that is all queries is compiled query by query. -/
theorem transform_of_queries {queries : List (List Selection)}
    (h : Checked.partition (document.map queryOf) = .ok queries) : transform context document =
      Except.map List.flatten (Checked.partition (queries.map (rootConnections context))) := by
  rw [transform, h]
  show (Checked.partition (queries.map (rootConnections context)) >>= fun connections =>
    .ok connections.flatten) = _
  cases Checked.partition (queries.map (rootConnections context)) <;> rfl

theorem rootConnections_of_hasPath {selections : List Selection} {path : Path}
    (h : HasPath (.operation .query selections) path) : rootConnections context selections =
      Checked.partition (path.connections.filterMap (rootConnection context)) := by
  cases h with
  | mk huiapi hquery =>
    rw [rootConnections, below?_eq_head?, huiapi]
    simp [below?_eq_head?, hquery]

/-- A document whose definitions have one path each is compiled selection by selection. -/
theorem transform_eq_partition {paths : List Path} (h : List.Forall₂ HasPath document paths) :
    transform context document = Checked.partition
      ((paths.flatMap Path.connections).filterMap (rootConnection context)) := by
  obtain ⟨queries, hqueries, hroots⟩ : ∃ queries : List (List Selection),
      document.map queryOf = queries.map .ok ∧
      queries.map (rootConnections context) = paths.map fun path =>
        Checked.partition (path.connections.filterMap (rootConnection context)) := by
    induction h with
    | nil => exact ⟨[], rfl, rfl⟩
    | cons hpath _ ih =>
      obtain ⟨queries, hqueries, hroots⟩ := ih
      cases hpath with
      | @mk selections _ _ _ _ huiapi hquery =>
        refine ⟨selections :: queries, by rw [List.map_cons, hqueries]; rfl, ?_⟩
        rw [List.map_cons, List.map_cons, hroots,
          rootConnections_of_hasPath (.mk huiapi hquery)]
  have hparts : Checked.partition (document.map queryOf) = .ok queries := by
    rw [hqueries, Checked.partition_map_ok]
  rw [List.filterMap_flatMap, Checked.partition_flatMap, transform_of_queries hparts, hroots]

theorem name_of_mem_named {name : String} {selections : List Selection} {head : Field}
    {below : List Selection} (h : (head, below) ∈ Selection.named name selections) :
    head.name = name := by
  obtain ⟨s, -, hs⟩ := List.mem_filterMap.1 h
  split at hs
  · split at hs
    · rename_i hname
      cases hs
      exact hname
    · cases hs
  · cases hs

/-- A cutting has the path of its definition, with one selection at the end. -/
theorem HasPath.single {definition : Definition} {path : Path} (h : HasPath definition path)
    (s : Selection) :
    List.Forall₂ HasPath (path.single s) [⟨path.uiapi, path.query, [s]⟩] := by
  cases h with
  | @mk selections uiapi inside query connections huiapi hquery =>
    have huname : uiapi.name = "uiapi" :=
      name_of_mem_named (huiapi ▸ List.mem_singleton.2 rfl)
    have hqname : query.name = "query" :=
      name_of_mem_named (hquery ▸ List.mem_singleton.2 rfl)
    have hsingle : HasPath (.operation .query [.field uiapi [.field query [s]]])
        ⟨uiapi, query, [s]⟩ := by
      refine @HasPath.mk _ _ [.field query [s]] _ _ ?_ ?_
      · simp [Selection.named, huname]
      · simp [Selection.named, hqname]
    exact .cons hsingle .nil

theorem filterMap_rootConnection (connections : List Selection) :
    (connections.filter (!isTypeName ·)).filterMap (rootConnection context) =
      connections.filterMap (rootConnection context) := by
  rw [List.filterMap_filter]
  refine List.filterMap_congr fun s _ => ?_
  cases s with
  | field head below =>
    by_cases hname : head.name = typeNameField <;> simp [isTypeName, rootConnection, hname]
  | _ => simp [isTypeName]

theorem transform_single {definition : Definition} {path : Path} (h : HasPath definition path)
    (s : Selection) : transform context (path.single s) =
      Checked.partition (rootConnection context s).toList := by
  have hone : [s].filterMap (rootConnection context) = (rootConnection context s).toList := by
    rw [List.filterMap_eq_flatMap_toList, List.flatMap_singleton]
  rw [transform_eq_partition (h.single s)]
  exact congrArg Checked.partition hone

/-- **A document is compiled like its cuttings, one after the other.** -/
theorem transform_eq_singles {paths : List Path} (h : List.Forall₂ HasPath document paths) :
    transform context document = Except.map List.flatten
      (Checked.partition ((paths.flatMap Path.singles).map (transform context))) := by
  let kept := paths.flatMap fun path => path.connections.filter (!isTypeName ·)
  have hkept : (paths.flatMap Path.connections).filterMap (rootConnection context) =
      kept.flatMap fun s => (rootConnection context s).toList := by
    rw [← List.filterMap_eq_flatMap_toList, List.filterMap_flatMap, List.filterMap_flatMap]
    simp only [filterMap_rootConnection]
  have hsingles : (paths.flatMap Path.singles).map (transform context) =
      kept.map fun s => Checked.partition (rootConnection context s).toList := by
    rw [List.map_flatMap, List.map_flatMap]
    refine List.flatMap_congr fun path hpath => ?_
    obtain ⟨definition, -, hdefinition⟩ := exists_of_forall₂_right h path hpath
    rw [Path.singles, List.map_map]
    exact List.map_congr_left fun s _ => transform_single hdefinition s
  calc transform context document
      = Checked.partition ((paths.flatMap Path.connections).filterMap (rootConnection context)) :=
        transform_eq_partition h
    _ = Checked.partition (kept.flatMap fun s => (rootConnection context s).toList) := by
        rw [hkept]
    _ = Except.map List.flatten
          (Checked.partition ((paths.flatMap Path.singles).map (transform context))) := by
        rw [Checked.partition_flatMap, hsingles]

theorem decomposes_of_hasPath {paths : List Path} (h : List.Forall₂ HasPath document paths) :
    Decomposes context document (paths.flatMap Path.singles) := by
  have hsingles : transform context document = _ := transform_eq_singles h
  have herrors : (transform context document).errors =
      (paths.flatMap Path.singles).flatMap fun single => (transform context single).errors := by
    rw [hsingles, Checked.errors_map, Checked.errors_partition, List.flatMap_map]
  refine ⟨?_, fun queries hqueries => ?_, fun errors hfailed => ?_⟩
  · rw [(transform_reports context document).exists_ok_iff, herrors, List.flatMap_eq_nil_iff]
    exact forall₂_congr fun single _ => (transform_reports context single).exists_ok_iff.symm
  · rw [hqueries] at hsingles
    obtain ⟨results, hresults, rfl⟩ := Checked.map_eq_ok.1 hsingles.symm
    exact ⟨results, forall₂_of_partition (transform_reports context) hresults, rfl⟩
  · rw [← herrors, hfailed]
    rfl

/-! ## Connections -/

/-- The errors of what the node of a connection selects, in order; a connection must have a node. -/
def nodeErrors (context : Context) (row : Row) (field : Field) (below : List Selection) :
    List CompileError :=
  match nodeOf? below with
  | none => [.noNode field.responseKey row.type]
  | some node => (node.filterMap (selection context row "node")).flatMap Checked.errors

/-- The errors of a connection: those of its filter, scope, order and limit, and those of what its
node selects. -/
def recordErrors (context : Context) (row : Row) (field : Field) (below : List Selection) :
    List CompileError :=
  (whereArgument context.schema row (field.argument? "where")).errors ++
    (scopeArgument context.schema row context.userId (field.argument? "scope")).errors ++
    (orderByArgument context.schema row (field.argument? "orderBy")).errors ++
    (firstArgument row.type (field.argument? "first")).errors ++
    nodeErrors context row field below

theorem errors_underEdges (context : Context) (row : Row) (field : Field)
    (below : List Selection) :
    ((underEdges context row below).getD
      (Checked.fail (.noNode field.responseKey row.type))).errors =
        nodeErrors context row field below := by
  rw [underEdges_eq, nodeErrors]
  cases nodeOf? below with
  | none => rfl
  | some node =>
    rw [Option.map_some, Option.getD_some, gatherSelected, Checked.errors_map,
      Checked.errors_partition, selections_eq_filterMap]

theorem errors_recordQuery (context : Context) (row : Row) (anchors : List Predicate)
    (field : Field) (below : List Selection) :
    (recordQuery context row anchors field below).errors =
      recordErrors context row field below := by
  simp only [recordQuery, assemble, Checked.errors_map, Checked.errors_zip, errors_underEdges,
    recordErrors, List.append_assoc]

/-- **No error and no selection is lost.** A document never fails without a reason. If each of its
definitions is a query with one path to its connections, it compiles exactly if it does so for each
selection alone, and its queries, or else its errors, are those of the selections in order. A
connection compiles exactly if none of its parts has an error, and otherwise its errors are those of
its parts in order. -/
theorem transform_errors (context : Context) (document : Document) :
    transform context document ≠ .error [] ∧
    (∀ paths, List.Forall₂ HasPath document paths →
      Decomposes context document (paths.flatMap Path.singles)) ∧
    ∀ row anchors field below,
      ((∃ query, recordQuery context row anchors field below = .ok query) ↔
        recordErrors context row field below = []) ∧
      ∀ errors, recordQuery context row anchors field below = .error errors →
        errors = recordErrors context row field below := by
  refine ⟨transform_reports context document, fun _ => decomposes_of_hasPath,
    fun row anchors field below => ⟨?_, fun errors hfailed => ?_⟩⟩
  · rw [(recordQuery_reports context row anchors field below).exists_ok_iff, errors_recordQuery]
  · rw [← errors_recordQuery context row anchors field below, hfailed]
    rfl

/-- A path with a selection that compiles between two that do not, one of them for its limit. -/
def usersPath : Path where
  uiapi := ⟨none, "uiapi", []⟩
  query := ⟨none, "query", []⟩
  connections :=
    [.field ⟨none, typeNameField, []⟩ [],
     .field ⟨none, "User", [("first", .int (-1))]⟩ (edgesNode [.field ⟨none, "Id", []⟩ []]),
     .field ⟨none, "User", []⟩ (edgesNode [.field ⟨none, "Id", []⟩ []]),
     .field ⟨none, "Nothing", []⟩ []]

/-- The document with this path. -/
def usersDocument : Document :=
  [.operation .query [.field usersPath.uiapi [.field usersPath.query usersPath.connections]]]

/-- The errors of the document are those of its two selections that do not compile. -/
theorem transform_usersDocument : List.Forall₂ HasPath usersDocument [usersPath] ∧
    transform jobsContext usersDocument =
      .error [.firstNotNatural "User", .missingObjectInfo "Nothing"] ∧
    usersPath.singles.length = 3 ∧
    [.firstNotNatural "User", .missingObjectInfo "Nothing"] =
      ([usersPath].flatMap Path.singles).flatMap fun single =>
        (transform jobsContext single).errors := by
  have hpaths : List.Forall₂ HasPath usersDocument [usersPath] := .cons (.mk rfl rfl) .nil
  have hdecomposes := (transform_errors jobsContext usersDocument).2.1 [usersPath] hpaths
  exact ⟨hpaths, rfl, rfl, hdecomposes.errors_eq _ rfl⟩

end SoupQuery.Compile
