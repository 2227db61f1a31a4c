import SoupQuery.Compile.Document
import SoupQuery.Proofs.Selection

/-!
# The connections of a document

Which fields of a document are connections, where the queries of a result stand, and that the two
belong together: a document that compiles has a query for each of its connections, and no other.

* `Occurs` — a query stands somewhere in a result, with the queries around it.
* `Connection` — a field of a document is a connection, by the document and the schema alone.
* `Nested` — a connection stands inside another one.
* `occurs_of_nested`, `nested_of_occurs` — the queries inside the query of a connection are those of
  the connections inside it.
* `occurs_of_connection` — every connection of a document that compiles has its query.
* `connection_of_occurs` — every query of a result comes from a connection.
-/

namespace SoupQuery

/-- The names that a query gives to rows: that of its own row, and those of the joined rows. -/
def RecordQuery.rowNames (query : RecordQuery) : List String := query.row.name :: query.joinNames

/-- The query stands among the queries of a result or in one of them, at any depth. The queries
that enclose it are listed from the inside out. -/
inductive Occurs (queries : List RecordQuery) : List RecordQuery → RecordQuery → Prop
  | root {query} : query ∈ queries → Occurs queries [] query
  | child {enclosing query path connection} : Occurs queries enclosing query →
      .child path connection ∈ query.fields → Occurs queries (query :: enclosing) connection

end SoupQuery

namespace SoupQuery.Compile

open SoupQuery.GraphQL

/-! ## Fields of a document -/

/-- The selection is made on the record of the row `inner`, somewhere under the selections on the
record of the row, with nothing but references between them. -/
inductive Reaches (schema : Schema) : Row → List Selection → Row → Selection → Prop
  | here {row below selection} : selection ∈ below → Reaches schema row below row selection
  | along {row below head inside reference inner selection} : .field head inside ∈ below →
      head.name ≠ typeNameField →
      schema.member? row.type head.name = some (.record reference) →
      Reaches schema (row.join reference).row inside inner selection →
      Reaches schema row below inner selection

/-- A field of a record that is a connection to its children. -/
structure IsChild (schema : Schema) (parent : Row) (head : Field)
    (relationship : ChildRelationship) : Prop where
  not_typeName : head.name ≠ typeNameField
  not_member : schema.member? parent.type head.name = none
  child : schema.child? parent.type head.name = some relationship

/-- What a connection hangs from: the document, or a row of another connection. -/
inductive Origin where
  | document
  | record (parent : Row) (relationship : ChildRelationship)
  deriving DecidableEq, Repr

/-- The row through which a connection reads its records. -/
def Origin.row (head : Field) : Origin → Row
  | .document => ⟨head.responseKey, head.name⟩
  | .record parent relationship => parent.children relationship

/-- The anchors that a connection is compiled with. -/
def Origin.anchors (head : Field) : Origin → List Predicate
  | .document => [.hasType head.responseKey head.name]
  | .record parent relationship => childAnchors parent relationship

/-- The field is a connection of the document: it stands under `uiapi { query { … } }`, or it
leads to the children of a record that another connection selects from. -/
inductive Connection (schema : Schema) (document : Document) :
    Origin → Field → List Selection → Prop
  | root {selections connections head below} : .operation .query selections ∈ document →
      (Selection.below? "uiapi" selections).bind (Selection.below? "query") = some connections →
      .field head below ∈ connections → head.name ≠ typeNameField →
      Connection schema document .document head below
  | child {origin outer around node parent head below relationship} :
      Connection schema document origin outer around → nodeOf? around = some node →
      Reaches schema (origin.row outer) node parent (.field head below) →
      IsChild schema parent head relationship →
      Connection schema document (.record parent relationship) head below

/-- The second field is the first, or a connection inside it at the given depth. -/
inductive Nested (schema : Schema) (origin : Origin) (outer : Field) (around : List Selection) :
    Nat → Origin → Field → List Selection → Prop
  | self : Nested schema origin outer around 0 origin outer around
  | child {depth origin' outer' around' node parent head below relationship} :
      Nested schema origin outer around depth origin' outer' around' →
      nodeOf? around' = some node →
      Reaches schema (origin'.row outer') node parent (.field head below) →
      IsChild schema parent head relationship →
      Nested schema origin outer around (depth + 1) (.record parent relationship) head below

/-! ## Children in a query -/

variable {schema : Schema} {context : Context} {document : Document} {row : Row}

theorem Reaches.cons {first : Selection} {rest : List Selection} {inner : Row} {s : Selection}
    (h : Reaches schema row rest inner s) : Reaches schema row (first :: rest) inner s := by
  cases h with
  | here hmem => exact .here (List.mem_cons_of_mem _ hmem)
  | along hmem hname hmember hinner =>
    exact .along (List.mem_cons_of_mem _ hmem) hname hmember hinner

/-- The connection is compiled from a field of the record of `parent`, which the selections on the
record of the row lead to. -/
def ComesFrom (context : Context) (row : Row) (below : List Selection) (parent : Row)
    (connection : RecordQuery) : Prop :=
  ∃ head inside relationship, Reaches context.schema row below parent (.field head inside) ∧
    IsChild context.schema parent head relationship ∧
    recordQuery context (parent.children relationship) (childAnchors parent relationship) head
      inside = .ok connection

theorem ComesFrom.cons {first : Selection} {rest : List Selection} {parent : Row}
    {connection : RecordQuery} (h : ComesFrom context row rest parent connection) :
    ComesFrom context row (first :: rest) parent connection := by
  obtain ⟨head, inside, relationship, hreach, hchild, hquery⟩ := h
  exact ⟨head, inside, relationship, hreach.cons, hchild, hquery⟩

/-- Every child connection of the selected fields comes from a selection, on a row that the
selections give a name to. -/
theorem Selects.comesFrom {path : String} {below : List Selection} {selected : Selected}
    (h : Selects context row path below selected) {place : String} {connection : RecordQuery} :
    .child place connection ∈ selected.fields → ∃ parent,
      parent.name ∈ row.name :: selected.joins.map (·.row.name) ∧
      ComesFrom context row below parent connection := by
  induction h with
  | nil => intro hfield; cases hfield
  | typeName _ _ ih =>
    intro hfield
    obtain ⟨parent, hname, hfrom⟩ := ih hfield
    exact ⟨parent, hname, hfrom.cons⟩
  | value _ _ hvalue _ ih =>
    intro hfield
    rcases List.mem_append.1 hfield with hfield | hfield
    · obtain ⟨_, _, hscalar⟩ := (valueSelection_ok hvalue).2 _ hfield
      cases hscalar
    · obtain ⟨parent, hname, hfrom⟩ := ih hfield
      exact ⟨parent, hname, hfrom.cons⟩
  | @record row path head below rest reference inner selected hname hmember _ _ _ ihinner ih =>
    intro hfield
    rcases List.mem_append.1 hfield with hfield | hfield
    · obtain ⟨parent, hparent, head', inside, relationship, hreach, hchild, hquery⟩ :=
        ihinner hfield
      refine ⟨parent, ?_, head', inside, relationship,
        .along (List.mem_cons_self ..) hname hmember hreach, hchild, hquery⟩
      simp only [List.map_cons, List.map_append, List.mem_cons, List.mem_append] at hparent ⊢
      exact .inr (.inl hparent)
    · obtain ⟨parent, hparent, hfrom⟩ := ih hfield
      refine ⟨parent, ?_, hfrom.cons⟩
      simp only [List.map_cons, List.map_append, List.mem_cons, List.mem_append] at hparent ⊢
      exact hparent.imp_right .inr
  | @child row path head below rest relationship connection selected hname hmember hrel hquery _
      ih =>
    intro hfield
    rcases List.mem_cons.1 hfield with hfield | hfield
    · cases hfield
      exact ⟨row, List.mem_cons_self .., head, below, relationship,
        .here (List.mem_cons_self ..), ⟨hname, hmember, hrel⟩, hquery⟩
    · obtain ⟨parent, hname, hfrom⟩ := ih hfield
      exact ⟨parent, hname, hfrom.cons⟩

/-- A child connection that is selected on the record of a row is compiled. -/
theorem Selects.exists_child {path : String} {below : List Selection} {selected : Selected}
    (h : Selects context row path below selected) {head : Field} {inside : List Selection}
    {relationship : ChildRelationship} (hchild : IsChild context.schema row head relationship) :
    .field head inside ∈ below → ∃ place connection, .child place connection ∈ selected.fields ∧
      recordQuery context (row.children relationship) (childAnchors row relationship) head inside =
        .ok connection := by
  induction h with
  | nil => intro hmem; cases hmem
  | typeName hname _ ih =>
    intro hmem
    rcases List.mem_cons.1 hmem with hmem | hmem
    · cases hmem
      exact absurd hname hchild.not_typeName
    · exact ih hchild hmem
  | value _ hmember _ _ ih =>
    intro hmem
    rcases List.mem_cons.1 hmem with hmem | hmem
    · cases hmem
      rw [hchild.not_member] at hmember
      cases hmember
    · obtain ⟨place, connection, hfield, hquery⟩ := ih hchild hmem
      exact ⟨place, connection, List.mem_append_right _ hfield, hquery⟩
  | record _ hmember _ _ _ _ ih =>
    intro hmem
    rcases List.mem_cons.1 hmem with hmem | hmem
    · cases hmem
      rw [hchild.not_member] at hmember
      cases hmember
    · obtain ⟨place, connection, hfield, hquery⟩ := ih hchild hmem
      exact ⟨place, connection, List.mem_append_right _ hfield, hquery⟩
  | child _ _ hrel hquery _ ih =>
    intro hmem
    rcases List.mem_cons.1 hmem with hmem | hmem
    · cases hmem
      rw [hchild.child] at hrel
      cases hrel
      exact ⟨_, _, List.mem_cons_self .., hquery⟩
    · obtain ⟨place, connection, hfield, hquery⟩ := ih hchild hmem
      exact ⟨place, connection, List.mem_cons_of_mem _ hfield, hquery⟩

/-- What is selected on a referenced record is compiled, and its fields are among those of the
record that refers to it. -/
theorem Selects.exists_record {path : String} {below : List Selection} {selected : Selected}
    (h : Selects context row path below selected) {head : Field} {inside : List Selection}
    {reference : Reference} (hname : head.name ≠ typeNameField)
    (hmember : context.schema.member? row.type head.name = some (.record reference)) :
    .field head inside ∈ below → ∃ path' inner,
      Selects context (row.join reference).row path' inside inner ∧
      ∀ field ∈ inner.fields, field ∈ selected.fields := by
  induction h with
  | nil => intro hmem; cases hmem
  | typeName htype _ ih =>
    intro hmem
    rcases List.mem_cons.1 hmem with hmem | hmem
    · cases hmem
      exact absurd htype hname
    · exact ih hmember hmem
  | value _ hvalue _ _ ih =>
    intro hmem
    rcases List.mem_cons.1 hmem with hmem | hmem
    · cases hmem
      rw [hmember] at hvalue
      cases hvalue
    · obtain ⟨path', inner, hinner, hsub⟩ := ih hmember hmem
      exact ⟨path', inner, hinner, fun field hf => List.mem_append_right _ (hsub field hf)⟩
  | record _ hrecord _ hinner _ _ ih =>
    intro hmem
    rcases List.mem_cons.1 hmem with hmem | hmem
    · cases hmem
      rw [hmember] at hrecord
      cases hrecord
      exact ⟨_, _, hinner, fun field hf => List.mem_append_left _ hf⟩
    · obtain ⟨path', inner, hinner, hsub⟩ := ih hmember hmem
      exact ⟨path', inner, hinner, fun field hf => List.mem_append_right _ (hsub field hf)⟩
  | child _ hnone _ _ _ ih =>
    intro hmem
    rcases List.mem_cons.1 hmem with hmem | hmem
    · cases hmem
      rw [hmember] at hnone
      cases hnone
    · obtain ⟨path', inner, hinner, hsub⟩ := ih hmember hmem
      exact ⟨path', inner, hinner, fun field hf => List.mem_cons_of_mem _ (hsub field hf)⟩

/-- A child connection that the selections lead to is compiled into one of their fields. -/
theorem Reaches.exists_child {below : List Selection} {parent : Row} {s : Selection}
    (h : Reaches context.schema row below parent s) :
    ∀ {path selected head inside relationship}, Selects context row path below selected →
      s = .field head inside → IsChild context.schema parent head relationship →
      ∃ place connection, .child place connection ∈ selected.fields ∧
        recordQuery context (parent.children relationship) (childAnchors parent relationship) head
          inside = .ok connection := by
  induction h with
  | here hmem =>
    rintro path selected head inside relationship hselects rfl hchild
    exact hselects.exists_child hchild hmem
  | along hmem hname hmember _ ih =>
    rintro path selected head inside relationship hselects rfl hchild
    obtain ⟨path', inner, hinner, hsub⟩ := hselects.exists_record hname hmember hmem
    obtain ⟨place, connection, hfield, hquery⟩ := ih hinner rfl hchild
    exact ⟨place, connection, hsub _ hfield, hquery⟩

/-! ## Queries of a document -/

theorem queryOf_reports (definition : Definition) : (queryOf definition).Reports := by
  unfold queryOf
  split
  · exact Checked.ok_reports _
  · exact Checked.fail_reports _
  · exact Checked.fail_reports _

theorem queryOf_ok {definition : Definition} {selections : List Selection}
    (h : queryOf definition = .ok selections) : definition = .operation .query selections := by
  unfold queryOf at h
  split at h
  · cases h; rfl
  · cases h
  · cases h

theorem rootConnections_reports (context : Context) (selections : List Selection) :
    (rootConnections context selections).Reports := by
  unfold rootConnections
  split
  · exact Checked.fail_reports _
  · exact Checked.partition_reports _

theorem rootConnection_reports {s : Selection} {result : Compiled RecordQuery}
    (h : rootConnection context s = some result) : result.Reports := by
  unfold rootConnection at h
  split at h
  · split at h
    · cases h
    · split at h
      · cases h
        exact recordQuery_reports _ _ _ _ _
      · cases h
        exact Checked.fail_reports _
  · cases h
    exact Checked.fail_reports _

theorem filterMap_rootConnection_reports (connections : List Selection) :
    ∀ result ∈ connections.filterMap (rootConnection context), result.Reports := by
  intro result hmem
  obtain ⟨s, -, hs⟩ := List.mem_filterMap.1 hmem
  exact rootConnection_reports hs

theorem rootConnection_ok {s : Selection} {query : RecordQuery}
    (h : rootConnection context s = some (.ok query)) : ∃ head below, s = .field head below ∧
      head.name ≠ typeNameField ∧
      recordQuery context (Origin.document.row head) (Origin.document.anchors head) head below =
        .ok query := by
  unfold rootConnection at h
  split at h
  · rename_i head below
    split at h
    · cases h
    · rename_i hname
      split at h
      · exact ⟨head, below, rfl, hname, Option.some.inj h⟩
      · cases h
  · cases h

theorem rootConnection_eq {head : Field} {below : List Selection} {result : Compiled RecordQuery}
    (h : rootConnection context (.field head below) = some result) {query : RecordQuery}
    (hok : result = .ok query) :
    recordQuery context (Origin.document.row head) (Origin.document.anchors head) head below =
      .ok query := by
  obtain ⟨head', below', hfield, -, hquery⟩ := rootConnection_ok (hok ▸ h)
  cases hfield
  exact hquery

/-- Each query of a result that no other one encloses comes from a connection of the document. -/
theorem root_of_mem {queries : List RecordQuery} (h : transform context document = .ok queries)
    {query : RecordQuery} (hquery : query ∈ queries) : ∃ head below,
      Connection context.schema document .document head below ∧
      recordQuery context (Origin.document.row head) (Origin.document.anchors head) head below =
        .ok query := by
  unfold transform at h
  obtain ⟨parts, hparts, h⟩ := Checked.bind_eq_ok.1 h
  obtain ⟨results, hresults, h⟩ := Checked.bind_eq_ok.1 h
  cases h
  obtain ⟨found, hfound, hquery⟩ := List.mem_flatten.1 hquery
  obtain ⟨selections, hselections, hroots⟩ :=
    List.mem_map.1 (Checked.mem_of_partition hresults hfound)
  obtain ⟨definition, hdefinition, hok⟩ :=
    List.mem_map.1 (Checked.mem_of_partition hparts hselections)
  unfold rootConnections at hroots
  split at hroots
  · cases hroots
  · rename_i connections hconnections
    obtain ⟨s, hs, hroot⟩ := List.mem_filterMap.1 (Checked.mem_of_partition hroots hquery)
    obtain ⟨head, below, rfl, hname, hquery⟩ := rootConnection_ok hroot
    exact ⟨head, below, .root (queryOf_ok hok ▸ hdefinition) hconnections hs hname, hquery⟩

theorem rootConnection_isSome {head : Field} (below : List Selection)
    (hname : head.name ≠ typeNameField) :
    ∃ result, rootConnection context (.field head below) = some result := by
  rw [rootConnection, if_neg hname]
  split <;> exact ⟨_, rfl⟩

/-- What a selection under `uiapi { query { … } }` of a document that compiles comes to is a query
of the result. -/
theorem exists_of_rootConnection {queries : List RecordQuery}
    (h : transform context document = .ok queries) {selections connections : List Selection}
    {s : Selection} {result : Compiled RecordQuery}
    (hdefinition : .operation .query selections ∈ document)
    (hconnections : (Selection.below? "uiapi" selections).bind (Selection.below? "query") =
      some connections)
    (hs : s ∈ connections) (hresult : rootConnection context s = some result) :
    ∃ query ∈ queries, result = .ok query := by
  unfold transform at h
  obtain ⟨parts, hparts, h⟩ := Checked.bind_eq_ok.1 h
  obtain ⟨results, hresults, h⟩ := Checked.bind_eq_ok.1 h
  cases h
  obtain ⟨_, hpart, hok⟩ := Checked.exists_of_partition
    (by rintro _ hmem; obtain ⟨definition, -, rfl⟩ := List.mem_map.1 hmem
        exact queryOf_reports definition) hparts (List.mem_map_of_mem hdefinition)
  cases hok
  obtain ⟨found, hfound, hroots⟩ := Checked.exists_of_partition
    (by rintro _ hmem; obtain ⟨part, -, rfl⟩ := List.mem_map.1 hmem
        exact rootConnections_reports context part) hresults (List.mem_map_of_mem hpart)
  rw [rootConnections, hconnections] at hroots
  obtain ⟨query, hquery, hok⟩ := Checked.exists_of_partition
    (filterMap_rootConnection_reports connections) hroots (List.mem_filterMap.2 ⟨s, hs, hresult⟩)
  exact ⟨query, List.mem_flatten.2 ⟨found, hfound, hquery⟩, hok⟩

/-- Each field under `uiapi { query { … } }` of a document that compiles has its query. -/
theorem mem_of_root {queries : List RecordQuery} (h : transform context document = .ok queries)
    {selections connections : List Selection} {head : Field} {below : List Selection}
    (hdefinition : .operation .query selections ∈ document)
    (hconnections : (Selection.below? "uiapi" selections).bind (Selection.below? "query") =
      some connections)
    (hfield : .field head below ∈ connections) (hname : head.name ≠ typeNameField) :
    ∃ query ∈ queries, recordQuery context (Origin.document.row head)
      (Origin.document.anchors head) head below = .ok query := by
  obtain ⟨result, hresult⟩ := rootConnection_isSome below hname
  obtain ⟨query, hquery, hok⟩ :=
    exists_of_rootConnection h hdefinition hconnections hfield hresult
  exact ⟨query, hquery, rootConnection_eq hresult hok⟩

/-! ## Queries at any depth -/

/-- The row that a connection hangs from is named by the innermost query around it. -/
def Origin.HangsFrom (enclosing : List RecordQuery) : Origin → Prop
  | .document => enclosing = []
  | .record parent _ => ∃ outer rest, enclosing = outer :: rest ∧ parent.name ∈ outer.rowNames

theorem mem_rowNames_of_join {parts : Parts} {anchors : List Predicate} {join : Join}
    (h : join ∈ parts.joins) : join.row.name ∈ (parts.toQuery row anchors).rowNames :=
  List.mem_cons_of_mem _ (List.mem_eraseDups.2 (List.mem_map_of_mem h))

/-- A connection inside a connection of the document is one of the document. -/
theorem Nested.connection {origin origin' : Origin} {outer head : Field}
    {around below : List Selection} {depth : Nat}
    (h : Nested schema origin outer around depth origin' head below)
    (houter : Connection schema document origin outer around) :
    Connection schema document origin' head below := by
  induction h with
  | self => exact houter
  | child _ hnode hreach hchild ih => exact .child ih hnode hreach hchild

/-- Every connection of a document is inside one that stands under `uiapi { query { … } }`. -/
theorem Connection.exists_root {origin : Origin} {head : Field} {below : List Selection}
    (h : Connection schema document origin head below) :
    ∃ outer around depth, Connection schema document .document outer around ∧
      Nested schema .document outer around depth origin head below := by
  induction h with
  | root hdefinition hconnections hfield hname =>
    exact ⟨_, _, 0, .root hdefinition hconnections hfield hname, .self⟩
  | child _ hnode hreach hchild ih =>
    obtain ⟨outer, around, depth, hroot, hnested⟩ := ih
    exact ⟨outer, around, depth + 1, hroot, .child hnested hnode hreach hchild⟩

/-- Every query of a result stands in one that no other encloses. -/
theorem exists_root_of_occurs {queries enclosing : List RecordQuery} {query : RecordQuery}
    (h : Occurs queries enclosing query) : ∃ root ∈ queries, Occurs [root] enclosing query := by
  induction h with
  | root hmem => exact ⟨_, hmem, .root (List.mem_singleton.2 rfl)⟩
  | child _ hfield ih =>
    obtain ⟨root, hroot, hoccurs⟩ := ih
    exact ⟨root, hroot, .child hoccurs hfield⟩

theorem occurs_of_root {queries enclosing : List RecordQuery} {root query : RecordQuery}
    (hroot : root ∈ queries) (h : Occurs [root] enclosing query) :
    Occurs queries enclosing query := by
  induction h with
  | root hmem => exact .root (List.mem_singleton.1 hmem ▸ hroot)
  | child _ hfield ih => exact .child ih hfield

/-- **Every query inside the query of a connection comes from a connection inside it**, which lies
as deep as the query, and the row that it hangs from belongs to the query around it. -/
theorem nested_of_occurs {origin : Origin} {outer : Field} {around : List Selection}
    {root : RecordQuery} (hroot : recordQuery context (origin.row outer) (origin.anchors outer)
      outer around = .ok root) {enclosing : List RecordQuery} {query : RecordQuery}
    (h : Occurs [root] enclosing query) :
    ∃ origin' head below,
      Nested context.schema origin outer around enclosing.length origin' head below ∧
      recordQuery context (origin'.row head) (origin'.anchors head) head below = .ok query ∧
      (origin.HangsFrom [] → origin'.HangsFrom enclosing) := by
  induction h with
  | root hmem =>
    rw [List.mem_singleton.1 hmem]
    exact ⟨origin, outer, around, .self, hroot, id⟩
  | child _ hfield ih =>
    obtain ⟨origin', outer', around', hnested, hok, -⟩ := ih
    obtain ⟨parts, hparts, rfl⟩ := recordQuery_ok hok
    obtain ⟨node, hnode, hselects⟩ := hparts.selected
    obtain ⟨parent, hparent, head, below, relationship, hreach, hchild, hquery⟩ :=
      hselects.comesFrom hfield
    refine ⟨.record parent relationship, head, below, .child hnested hnode hreach hchild,
      hquery, fun _ => ⟨_, _, rfl, ?_⟩⟩
    rcases List.mem_cons.1 hparent with hparent | hparent
    · rw [hparent]
      exact List.mem_cons_self ..
    · obtain ⟨join, hjoin, hname⟩ := List.mem_map.1 hparent
      rw [← hname]
      exact mem_rowNames_of_join (List.mem_append_right _ hjoin)

/-- **Every connection inside one that compiles has its query inside the query of that one.** -/
theorem occurs_of_nested {origin origin' : Origin} {outer head : Field}
    {around below : List Selection} {depth : Nat} {root : RecordQuery}
    (hroot : recordQuery context (origin.row outer) (origin.anchors outer) outer around = .ok root)
    (h : Nested context.schema origin outer around depth origin' head below) :
    ∃ enclosing query, Occurs [root] enclosing query ∧
      recordQuery context (origin'.row head) (origin'.anchors head) head below = .ok query := by
  induction h with
  | self => exact ⟨[], root, .root (List.mem_singleton.2 rfl), hroot⟩
  | child _ hnode hreach hchild ih =>
    obtain ⟨enclosing, query, hquery, hok⟩ := ih
    obtain ⟨parts, hparts, rfl⟩ := recordQuery_ok hok
    obtain ⟨node, hnode', hselects⟩ := hparts.selected
    rw [hnode] at hnode'
    cases hnode'
    obtain ⟨place, connection, hfield, hok⟩ := hreach.exists_child hselects rfl hchild
    exact ⟨_, connection, .child hquery hfield, hok⟩

/-- **Every query of a result comes from a connection of the document**, and the row that it hangs
from belongs to the query around it. -/
theorem connection_of_occurs {queries enclosing : List RecordQuery} {query : RecordQuery}
    (h : transform context document = .ok queries) (hquery : Occurs queries enclosing query) :
    ∃ origin head below, Connection context.schema document origin head below ∧
      recordQuery context (origin.row head) (origin.anchors head) head below = .ok query ∧
      origin.HangsFrom enclosing := by
  obtain ⟨root, hroot, hinside⟩ := exists_root_of_occurs hquery
  obtain ⟨outer, around, hconnection, hok⟩ := root_of_mem h hroot
  obtain ⟨origin, head, below, hnested, hquery, hhangs⟩ := nested_of_occurs hok hinside
  exact ⟨origin, head, below, hnested.connection hconnection, hquery, hhangs rfl⟩

/-- Each connection under `uiapi { query { … } }` of a document that compiles has its query. -/
theorem root_of_connection {queries : List RecordQuery}
    (h : transform context document = .ok queries) {head : Field} {below : List Selection}
    (hconnection : Connection context.schema document .document head below) :
    ∃ root ∈ queries, recordQuery context (Origin.document.row head)
      (Origin.document.anchors head) head below = .ok root := by
  cases hconnection with
  | root hdefinition hconnections hfield hname =>
    exact mem_of_root h hdefinition hconnections hfield hname

/-- **Every connection of a document that compiles has its query in the result.** -/
theorem occurs_of_connection {queries : List RecordQuery}
    (h : transform context document = .ok queries) {origin : Origin} {head : Field}
    {below : List Selection} (hconnection : Connection context.schema document origin head below) :
    ∃ enclosing query, Occurs queries enclosing query ∧
      recordQuery context (origin.row head) (origin.anchors head) head below = .ok query := by
  obtain ⟨outer, around, _, houter, hnested⟩ := hconnection.exists_root
  obtain ⟨root, hroot, hok⟩ := root_of_connection h houter
  obtain ⟨enclosing, query, hquery, hok⟩ := occurs_of_nested hok hnested
  exact ⟨enclosing, query, occurs_of_root hroot hquery, hok⟩

/-! ## A document with a nested connection

The appointments of a user whose owner is Ada, and the visits to that owner. The inner connection
hangs from a joined row. -/

/-- Appointments have an owner, and users have visits. -/
def jobsContext : Context where
  schema :=
    [("ServiceAppointment", ⟨"ServiceAppointment",
        [("OwnerId", .reference ⟨"OwnerId", "Owner", "User"⟩)], []⟩),
     ("User", ⟨"User", [("Name", .scalar "Name" .string)],
        [("Visits", ⟨"VisitorId", "Visit", "Visits"⟩)]⟩),
     ("Visit", ⟨"Visit", [("OwnerId", .scalar "OwnerId" .id)], []⟩)]
  userId := "u1"

def visitsField : Field where
  alias? := none
  name := "Visits"
  arguments :=
    [("scope", .enum "MINE"),
     ("where", .object [("or", .list [.object [("OwnerId", .object [("eq", .string "u1")])]])])]

def jobsField : Field where
  alias? := some "jobs"
  name := "ServiceAppointment"
  arguments :=
    [("scope", .enum "ASSIGNEDTOME"),
     ("where", .object [("Owner", .object [("Name", .object [("eq", .string "Ada")])])]),
     ("orderBy", .object [("Owner", .object [("Name", .object [])])])]

/-- Selections under `edges { node { … } }`. -/
def edgesNode (node : List Selection) : List Selection :=
  [.field ⟨none, "edges", []⟩ [.field ⟨none, "node", []⟩ node]]

def jobsDocument : Document :=
  [.operation .query [.field ⟨none, "uiapi", []⟩ [.field ⟨none, "query", []⟩
    [.field jobsField (edgesNode
      [.field ⟨none, "Id", []⟩ [],
       .field ⟨none, "Owner", []⟩
        [.field visitsField (edgesNode [.field ⟨none, "Id", []⟩ []])]])]]]]

/-- The query of the visits: what its filter asks for is what its scope asks for. -/
def visitsQuery : RecordQuery where
  predicate? := some (.compound .and
    [.refersTo "jobs.Owner.Visits" "jobs.Owner" "VisitorId",
     .hasType "jobs.Owner.Visits" "Visit",
     ownedBy ⟨"jobs.Owner.Visits", "Visit"⟩ "u1"])
  fields := [.scalar "node.Id" (.extract "jobs.Owner.Visits" "data.id")]
  row := ⟨"jobs.Owner.Visits", "Visit"⟩
  first? := none
  joinNames := []
  orderBy := []

def jobsQuery : RecordQuery where
  predicate? := some (.compound .and
    [.hasType "jobs" "ServiceAppointment",
     .refersTo "jobs" "jobs.Owner" "OwnerId",
     .hasType "jobs.Owner" "User",
     .comparison (.extract "jobs.Owner" "data.fields.Name.value") .eq (.string "Ada"),
     assignedTo ⟨"jobs", "ServiceAppointment"⟩ "u1"])
  fields := [.scalar "node.Id" (.extract "jobs" "data.id"),
    .child "node.Owner.Visits.edges" visitsQuery]
  row := ⟨"jobs", "ServiceAppointment"⟩
  first? := none
  joinNames := ["jobs.Owner"]
  orderBy := [⟨true, false, .extract "jobs.Owner" "data.fields.Name.value"⟩]

theorem transform_jobs : transform jobsContext jobsDocument = .ok [jobsQuery] := rfl

theorem occurs_visits : Occurs [jobsQuery] [jobsQuery] visitsQuery :=
  .child (.root (List.mem_singleton.2 rfl)) (List.mem_cons_of_mem _ (List.mem_singleton.2 rfl))

theorem connection_jobs : Connection jobsContext.schema jobsDocument .document jobsField
    (edgesNode
      [.field ⟨none, "Id", []⟩ [],
       .field ⟨none, "Owner", []⟩
        [.field visitsField (edgesNode [.field ⟨none, "Id", []⟩ []])]]) :=
  .root (List.mem_singleton.2 rfl) rfl (List.mem_singleton.2 rfl) (by decide)

theorem connection_visits : Connection jobsContext.schema jobsDocument
    (.record ⟨"jobs.Owner", "User"⟩ ⟨"VisitorId", "Visit", "Visits"⟩) visitsField
    (edgesNode [.field ⟨none, "Id", []⟩ []]) := by
  refine .child connection_jobs rfl ?_ ⟨by decide, rfl, rfl⟩
  exact .along (List.mem_cons_of_mem _ (List.mem_singleton.2 rfl)) (by decide) rfl
    (.here (List.mem_singleton.2 rfl))

end SoupQuery.Compile
