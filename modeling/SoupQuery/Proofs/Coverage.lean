import SoupQuery.Proofs.Connection

/-!
# What a document selects is compiled

The way to the connections of a document, and to what a connection selects of its records, goes
through fields of a fixed name: `uiapi` and `query`, `edges` and `node`. The first field of a name
is followed; a document may repeat it, and what stands under the repetition is neither compiled nor
refused. Nor is what stands in fragments beside these fields. Where no name is repeated, every field
at the end of the way is compiled.

* `Selection.named`, `Selection.under` — all fields of a name, and all that stands under fields of
  two names.
* `Unrepeated` — neither name is repeated.
* `CompiledInto` — what a selection comes to is part of a query.
* `transform_covers` — **without repetitions, every field that is selected at the end of the way is
  compiled.**
* `transform_repeated` — what stands under a repeated field is dropped.
* `rootConnections_withoutFragments`, `recordQuery_withoutFragments` — fragments beside the way make
  no difference.
-/

namespace SoupQuery.GraphQL

/-! ## Fields of a name -/

/-- The fields of a name, with what is selected under each. -/
def Selection.named (name : String) (selections : List Selection) :
    List (Field × List Selection) :=
  selections.filterMap fun selection =>
    match selection with
    | .field head below => if head.name = name then some (head, below) else none
    | _ => none

/-- What is selected under any field `inner` of any field `outer`. -/
def Selection.under (outer inner : String) (selections : List Selection) : List Selection :=
  ((named outer selections).flatMap fun found => named inner found.2).flatMap (·.2)

/-- There is at most one field `outer`, and under it at most one field `inner`. -/
def Unrepeated (outer inner : String) (selections : List Selection) : Prop :=
  (Selection.named outer selections).length ≤ 1 ∧
    ∀ found ∈ Selection.named outer selections, (Selection.named inner found.2).length ≤ 1

instance (outer inner : String) (selections : List Selection) :
    Decidable (Unrepeated outer inner selections) := inferInstanceAs (Decidable (_ ∧ _))

variable {name outer inner : String} {selections : List Selection}

/-- The first field of a name is the one that is followed. -/
theorem below?_eq_head? (name : String) (selections : List Selection) :
    Selection.below? name selections = (Selection.named name selections).head?.map (·.2) := by
  induction selections with
  | nil => rfl
  | cons selection rest ih =>
    cases selection with
    | field head below =>
      by_cases hname : head.name = name
      · simp [Selection.below?, Selection.named, hname]
      · simpa [Selection.below?, Selection.named, hname] using ih
    | _ => simpa [Selection.below?, Selection.named] using ih

/-- Without repetitions, what is followed is all that there is. -/
theorem Unrepeated.under_eq (h : Unrepeated outer inner selections) :
    Selection.under outer inner selections =
      ((Selection.below? outer selections).bind (Selection.below? inner)).getD [] := by
  obtain ⟨houter, hinner⟩ := h
  rw [below?_eq_head?, Selection.under]
  match hfound : Selection.named outer selections with
  | [] => rfl
  | [(head, below)] =>
    have hbelow := hinner (head, below) (hfound ▸ List.mem_singleton.2 rfl)
    simp only [List.head?_cons, Option.map_some, Option.bind_some, below?_eq_head?,
      List.flatMap_cons, List.flatMap_nil, List.append_nil]
    match hinside : Selection.named inner below with
    | [] => rfl
    | [found] => simp
    | _ :: _ :: _ => simp [hinside] at hbelow
  | _ :: _ :: _ => simp [hfound] at houter

/-! ## Fragments on the way -/

def Selection.isField : Selection → Bool
  | .field _ _ => true
  | _ => false

/-- The selections without the fragments among them and among those of their fields `outer`. -/
def Selection.withoutFragments (outer : String) (selections : List Selection) : List Selection :=
  selections.filterMap fun selection =>
    match selection with
    | .field head below =>
      some (.field head (if head.name = outer then below.filter isField else below))
    | _ => none

theorem below?_filter_isField (name : String) (selections : List Selection) :
    Selection.below? name (selections.filter Selection.isField) =
      Selection.below? name selections := by
  induction selections with
  | nil => rfl
  | cons selection rest ih =>
    cases selection with
    | field head below =>
      rw [List.filter_cons_of_pos rfl, Selection.below?, Selection.below?, ih]
    | _ => simpa [Selection.isField, Selection.below?] using ih

theorem below?_withoutFragments (outer : String) (selections : List Selection) :
    Selection.below? outer (Selection.withoutFragments outer selections) =
      (Selection.below? outer selections).map (·.filter Selection.isField) := by
  induction selections with
  | nil => rfl
  | cons selection rest ih =>
    cases selection with
    | field head below =>
      by_cases hname : head.name = outer
      · simp [Selection.withoutFragments, Selection.below?, hname]
      · simpa [Selection.withoutFragments, Selection.below?, hname] using ih
    | _ => simpa [Selection.withoutFragments, Selection.below?] using ih

/-- Without the fragments, a way through two fields leads to the same place. -/
theorem below?_below?_withoutFragments (outer inner : String) (selections : List Selection) :
    (Selection.below? outer (Selection.withoutFragments outer selections)).bind
        (Selection.below? inner) =
      (Selection.below? outer selections).bind (Selection.below? inner) := by
  rw [below?_withoutFragments, Option.bind_map]
  exact congrArg _ (funext (below?_filter_isField inner))

end SoupQuery.GraphQL

namespace SoupQuery.Compile

open SoupQuery.GraphQL

variable {context : Context} {document : Document} {row : Row}

/-! ## Selections of a record -/

/-- The name means something on the records of the type. -/
def Known (schema : Schema) (type name : String) : Prop :=
  (schema.member? type name).isSome ∨ (schema.child? type name).isSome

/-- What the selection comes to is part of the query: its fields stand there in order, and the rows
that they read are joined. -/
def CompiledInto (context : Context) (row : Row) (s : Selection) (query : RecordQuery) : Prop :=
  ∃ path part, selection context row path s = some (.ok part) ∧ part.fields <:+: query.fields ∧
    ∀ join ∈ part.joins, join.row.name ∈ query.joinNames

theorem selections_eq_filterMap (context : Context) (row : Row) (path : String)
    (below : List Selection) :
    selections context row path below = below.filterMap (selection context row path) := by
  induction below with
  | nil => rfl
  | cons first rest ih =>
    rw [selections, ih, List.filterMap_cons]
    cases selection context row path first <;> rfl

theorem selection_isSome {path : String} {head : Field} (inside : List Selection)
    (hname : head.name ≠ typeNameField) :
    ∃ result, selection context row path (.field head inside) = some result := by
  rw [selection, if_neg hname]
  exact ⟨_, rfl⟩

/-- A field that is compiled means something. -/
theorem known_of_selection {path : String} {head : Field} {inside : List Selection}
    {part : Selected} (h : selection context row path (.field head inside) = some (.ok part)) :
    Known context.schema row.type head.name := by
  unfold selection at h
  split at h
  · cases h
  · have hpart := Option.some.inj h
    split at hpart
    · rename_i hmember
      exact .inl (by rw [hmember]; rfl)
    · rename_i hmember
      exact .inl (by rw [hmember]; rfl)
    · split at hpart
      · rename_i hchild
        exact .inr (by rw [hchild]; rfl)
      · cases hpart

/-- The selections on a referenced record are compiled, and what they come to is what the field
that leads there comes to. -/
theorem selection_record {path : String} {head : Field} {inside : List Selection}
    {reference : Reference} {part : Selected}
    (hmember : context.schema.member? row.type head.name = some (.record reference))
    (h : selection context row path (.field head inside) = some (.ok part)) :
    ∃ path' inner, gatherSelected (selections context (row.join reference).row path' inside) =
      .ok inner ∧ part = inner.through (row.join reference) := by
  unfold selection at h
  split at h
  · cases h
  · have hpart := Option.some.inj h
    rw [hmember] at hpart
    simp only at hpart
    split at hpart
    · cases hpart
    · split at hpart
      · cases hpart
      · obtain ⟨inner, hinner, rfl⟩ := Checked.map_eq_ok.1 hpart
        exact ⟨_, inner, hinner, rfl⟩

/-- Each of the selections that compile contributes what it comes to. -/
theorem exists_of_gatherSelected {path : String} {below : List Selection} {selected : Selected}
    {s : Selection} {result : Compiled Selected}
    (h : gatherSelected (selections context row path below) = .ok selected) (hs : s ∈ below)
    (hresult : selection context row path s = some result) :
    ∃ part, result = .ok part ∧ part.fields <:+: selected.fields ∧ part.joins ⊆ selected.joins := by
  obtain ⟨parts, hparts, rfl⟩ := (gatherSelected_eq_ok (selections_reports _ _ _ _)).1 h
  have hmem : result ∈ parts.map Except.ok := by
    rw [← hparts, selections_eq_filterMap]
    exact List.mem_filterMap.2 ⟨s, hs, hresult⟩
  obtain ⟨part, hpart, rfl⟩ := List.mem_map.1 hmem
  refine ⟨part, rfl, ?_, fun join hjoin => List.mem_flatMap.2 ⟨part, hpart, hjoin⟩⟩
  obtain ⟨before, after, rfl⟩ := List.append_of_mem hpart
  exact ⟨before.flatMap (·.fields), after.flatMap (·.fields), by simp [Selected.merge]⟩

/-- **Every field that the selections lead to is compiled**, along references too. -/
theorem Reaches.compiled {below : List Selection} {parent : Row} {s : Selection}
    (h : Reaches context.schema row below parent s) :
    ∀ {path selected head inside}, gatherSelected (selections context row path below) =
        .ok selected → s = .field head inside → head.name ≠ typeNameField →
      ∃ path' part, selection context parent path' (.field head inside) = some (.ok part) ∧
        part.fields <:+: selected.fields ∧ part.joins ⊆ selected.joins := by
  induction h with
  | here hmem =>
    rintro path selected head inside hselected rfl hname
    obtain ⟨result, hresult⟩ := selection_isSome inside hname
    obtain ⟨part, rfl, hfields, hjoins⟩ := exists_of_gatherSelected hselected hmem hresult
    exact ⟨path, part, hresult, hfields, hjoins⟩
  | along hmem houter hmember _ ih =>
    rintro path selected head inside hselected rfl hname
    obtain ⟨result, hresult⟩ := selection_isSome _ houter
    obtain ⟨outer, rfl, hfields, hjoins⟩ := exists_of_gatherSelected hselected hmem hresult
    obtain ⟨path', inner, hinner, rfl⟩ := selection_record hmember hresult
    obtain ⟨path'', part, hpart, hfields', hjoins'⟩ := ih hinner rfl hname
    exact ⟨path'', part, hpart, hfields'.trans hfields,
      fun join hjoin => hjoins (List.mem_cons_of_mem _ (hjoins' hjoin))⟩

/-- What the node of a connection selects makes up its query. -/
theorem recordQuery_selected {anchors : List Predicate} {field : Field} {below : List Selection}
    {query : RecordQuery} (h : recordQuery context row anchors field below = .ok query) :
    ∃ node selected, nodeOf? below = some node ∧
      gatherSelected (selections context row "node" node) = .ok selected ∧
      query.fields = selected.fields ∧
      ∀ join ∈ selected.joins, join.row.name ∈ query.joinNames := by
  unfold recordQuery assemble at h
  obtain ⟨⟨filter?, scope?, orders, first?, selected⟩, hzip, rfl⟩ := Checked.map_eq_ok.1 h
  simp only [Checked.zip_eq_ok] at hzip
  obtain ⟨-, -, -, -, hselected⟩ := hzip
  rw [underEdges_eq] at hselected
  cases hnode : nodeOf? below with
  | none =>
    rw [hnode] at hselected
    cases hselected
  | some node =>
    rw [hnode] at hselected
    refine ⟨node, selected, rfl, hselected, rfl, fun join hjoin => ?_⟩
    exact List.mem_eraseDups.2 (List.mem_map.2 ⟨join, List.mem_append_right _ hjoin, rfl⟩)

/-! ## Documents -/

theorem knows_of_rootConnection {head : Field} {below : List Selection} {query : RecordQuery}
    (h : rootConnection context (.field head below) = some (.ok query)) :
    context.schema.knows head.name = true := by
  simp only [rootConnection] at h
  split at h
  · cases h
  · split at h
    · assumption
    · cases h

/-- A field under the path of an operation that repeats no name of the path has its query, and its
name is a known type. -/
theorem root_covered {queries : List RecordQuery} (h : transform context document = .ok queries)
    {selections : List Selection} (hdefinition : .operation .query selections ∈ document)
    (hpath : Unrepeated "uiapi" "query" selections) {head : Field} {below : List Selection}
    (hfield : .field head below ∈ Selection.under "uiapi" "query" selections)
    (hname : head.name ≠ typeNameField) :
    context.schema.knows head.name = true ∧ ∃ query ∈ queries,
      recordQuery context (Origin.document.row head) (Origin.document.anchors head) head below =
        .ok query := by
  rw [hpath.under_eq] at hfield
  cases hconnections : (Selection.below? "uiapi" selections).bind (Selection.below? "query") with
  | none =>
    rw [hconnections] at hfield
    cases hfield
  | some connections =>
    rw [hconnections] at hfield
    obtain ⟨result, hresult⟩ := rootConnection_isSome below hname
    obtain ⟨query, hquery, rfl⟩ :=
      exists_of_rootConnection h hdefinition hconnections hfield hresult
    exact ⟨knows_of_rootConnection hresult, query, hquery, rootConnection_eq hresult rfl⟩

/-- What stands under the node of a connection that repeats no name on the way to it is compiled
into its query. -/
theorem node_covered {anchors : List Predicate} {field : Field} {below : List Selection}
    {query : RecordQuery} (h : recordQuery context row anchors field below = .ok query)
    (hpath : Unrepeated "edges" "node" below) {parent : Row} {head : Field}
    {inside : List Selection}
    (hreach : Reaches context.schema row (Selection.under "edges" "node" below) parent
      (.field head inside)) (hname : head.name ≠ typeNameField) :
    Known context.schema parent.type head.name ∧
      CompiledInto context parent (.field head inside) query := by
  obtain ⟨node, selected, hnode, hselected, hfields, hjoins⟩ := recordQuery_selected h
  have hunder : Selection.under "edges" "node" below = node := by
    have hfound : (Selection.below? "edges" below).bind (Selection.below? "node") = some node :=
      hnode
    rw [hpath.under_eq, hfound, Option.getD_some]
  rw [hunder] at hreach
  obtain ⟨path, part, hpart, hinfix, hsubset⟩ := hreach.compiled hselected rfl hname
  exact ⟨known_of_selection hpart, path, part, hpart, hfields ▸ hinfix,
    fun join hjoin => hjoins join (hsubset hjoin)⟩

/-- **Where no name is repeated, no field at the end of the way is dropped.** In a document that
compiles, every field under `uiapi { query { … } }` is a known type and has its query in the result;
and every field under `edges { node { … } }` of a connection, at any depth and along references,
means something and is compiled into the query of the connection. Fragments beside `uiapi`, `query`,
`edges` and `node` are another matter: nothing is said of the fields in them, and nothing comes of
them. -/
theorem transform_covers {queries : List RecordQuery}
    (h : transform context document = .ok queries) :
    (∀ selections, .operation .query selections ∈ document →
      Unrepeated "uiapi" "query" selections →
      ∀ head below, .field head below ∈ Selection.under "uiapi" "query" selections →
        head.name ≠ typeNameField →
        context.schema.knows head.name = true ∧ ∃ query ∈ queries,
          recordQuery context (Origin.document.row head) (Origin.document.anchors head) head below =
            .ok query) ∧
    (∀ origin outer around, Connection context.schema document origin outer around →
      Unrepeated "edges" "node" around →
      ∃ enclosing query, Occurs queries enclosing query ∧
        recordQuery context (origin.row outer) (origin.anchors outer) outer around = .ok query ∧
        ∀ parent head inside,
          Reaches context.schema (origin.row outer) (Selection.under "edges" "node" around) parent
            (.field head inside) →
          head.name ≠ typeNameField →
          Known context.schema parent.type head.name ∧
            CompiledInto context parent (.field head inside) query) := by
  constructor
  · intro selections hdefinition hpath head below hfield hname
    exact root_covered h hdefinition hpath hfield hname
  · intro origin outer around hconnection hpath
    obtain ⟨enclosing, query, hquery, hok⟩ := occurs_of_connection h hconnection
    exact ⟨enclosing, query, hquery, hok,
      fun parent head inside hreach hname => node_covered hok hpath hreach hname⟩

/-- The appointments have their query, and the visits, which are selected on a referenced record,
are compiled into it. -/
theorem jobs_covered : transform jobsContext jobsDocument = .ok [jobsQuery] ∧
    jobsContext.schema.knows "ServiceAppointment" = true ∧
    CompiledInto jobsContext ⟨"jobs.Owner", "User"⟩
      (.field visitsField (edgesNode [.field ⟨none, "Id", []⟩ []])) jobsQuery := by
  obtain ⟨hroots, hnodes⟩ := transform_covers transform_jobs
  obtain ⟨hknows, -⟩ := hroots _ (List.mem_singleton.2 rfl) (by decide) jobsField _
    (List.mem_singleton.2 rfl) (by decide)
  obtain ⟨_, query, _, hok, hcovers⟩ := hnodes _ _ _ connection_jobs (by decide)
  obtain rfl : jobsQuery = query := Except.ok.inj hok
  refine ⟨transform_jobs, hknows, (hcovers ⟨"jobs.Owner", "User"⟩ visitsField _ ?_ (by decide)).2⟩
  exact .along (List.mem_cons_of_mem _ (List.mem_singleton.2 rfl)) (by decide) rfl
    (.here (List.mem_singleton.2 rfl))

/-! ## Repeated fields -/

/-- The selections of an operation with a repeated `uiapi`, and in its connection a repeated
`node`; an unknown name stands under each repetition. -/
def repeatedSelections : List Selection :=
  [.field ⟨none, "uiapi", []⟩ [.field ⟨none, "query", []⟩
    [.field ⟨none, "User", []⟩ [.field ⟨none, "edges", []⟩
      [.field ⟨none, "node", []⟩ [.field ⟨none, "Id", []⟩ []],
       .field ⟨none, "node", []⟩ [.field ⟨none, "Nothing", []⟩ []]]]]],
   .field ⟨none, "uiapi", []⟩ [.field ⟨none, "query", []⟩
    [.field ⟨none, "Nothing", []⟩ (edgesNode [.field ⟨none, "Id", []⟩ []])]]]

/-- The query of the users, which is all that comes of the operation. -/
def usersQuery : RecordQuery where
  predicate? := some (.hasType "User" "User")
  fields := [.scalar "node.Id" (.extract "User" "data.id")]
  row := ⟨"User", "User"⟩
  first? := none
  joinNames := []
  orderBy := []

/-- **What stands under a repeated field is dropped**: the operation compiles, although unknown
names are selected under both of its repetitions. -/
theorem transform_repeated :
    transform jobsContext [.operation .query repeatedSelections] = .ok [usersQuery] ∧
    (∃ below, .field ⟨none, "Nothing", []⟩ below ∈
      Selection.under "uiapi" "query" repeatedSelections) ∧
    jobsContext.schema.knows "Nothing" = false ∧
    ∃ around, Connection jobsContext.schema [.operation .query repeatedSelections] .document
        ⟨none, "User", []⟩ around ∧
      .field ⟨none, "Nothing", []⟩ [] ∈ Selection.under "edges" "node" around ∧
      ¬ Known jobsContext.schema "User" "Nothing" := by
  refine ⟨rfl, ⟨_, List.mem_cons_of_mem _ (List.mem_singleton.2 rfl)⟩, by decide, _,
    .root (List.mem_singleton.2 rfl) rfl (List.mem_singleton.2 rfl) (by decide),
    List.mem_cons_of_mem _ (List.mem_singleton.2 rfl), ?_⟩
  rintro (hmember | hchild)
  · cases hmember
  · cases hchild

/-! ## Fragments -/

/-- **Fragments beside `uiapi` and `query` make no difference**, whatever they select. -/
theorem rootConnections_withoutFragments (context : Context) (selections : List Selection) :
    rootConnections context (Selection.withoutFragments "uiapi" selections) =
      rootConnections context selections := by
  rw [rootConnections, rootConnections, below?_below?_withoutFragments]

/-- **Fragments beside `edges` and `node` make no difference**, whatever they select. -/
theorem recordQuery_withoutFragments (context : Context) (row : Row) (anchors : List Predicate)
    (field : Field) (below : List Selection) :
    recordQuery context row anchors field (Selection.withoutFragments "edges" below) =
      recordQuery context row anchors field below := by
  rw [recordQuery, recordQuery, underEdges_eq, underEdges_eq, nodeOf?, nodeOf?,
    below?_below?_withoutFragments]

end SoupQuery.Compile
