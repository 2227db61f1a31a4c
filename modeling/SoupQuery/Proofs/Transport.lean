import SoupQuery.Proofs.Coverage
import SoupQuery.Proofs.Renaming

/-!
# Two runs of the compiler

The compiler asks a schema for the meaning of names and for nothing else, and it compares the names
of rows without looking into them. So two runs, against schemas of the same answers and from rows of
corresponding names, take the same course: they fail for the same reasons, or they come to the same
query up to the names of rows.

* `Schema.SameAnswers` — two schemas that give the same meaning to every name.
* `whereArgument_renamed`, `orderByArgument_renamed`, `scopeArgument_renamed` — the arguments of a
  connection in two runs.
* `selection_renamed` — what is selected of a record in two runs, at any depth.
* `recordQuery_renamed` — **two runs of a connection correspond.**
* `replaceLeading` — a text with another beginning.
* `recordQuery_row_name` — **the name of its row enters a query as the beginning of the names of its
  rows, and nowhere else.**
-/

namespace SoupQuery

/-- The two schemas know the same types, and give the same meaning to every name on each. -/
structure Schema.SameAnswers (schema schema' : Schema) : Prop where
  knows : ∀ type, schema'.knows type = schema.knows type
  field? : ∀ type name, schema'.field? type name = schema.field? type name
  child? : ∀ type name, schema'.child? type name = schema.child? type name

namespace Schema.SameAnswers

variable {schema schema' : Schema}

theorem refl (schema : Schema) : schema.SameAnswers schema :=
  ⟨fun _ => rfl, fun _ _ => rfl, fun _ _ => rfl⟩

theorem member? (h : schema.SameAnswers schema') (type name : String) :
    schema'.member? type name = schema.member? type name := by
  rw [Schema.member?, Schema.member?, h.field?]

end Schema.SameAnswers

end SoupQuery

namespace SoupQuery.Compile

open SoupQuery.GraphQL

variable {schema schema' : Schema} {f : String → String} {row : Row}

/-! ## Filters -/

/-- The filter on a row of another name. -/
def RowFilter.renamed (f : String → String) (filter : RowFilter) : RowFilter :=
  ⟨filter.predicate.renamed f, filter.joins.map (Join.renamed f)⟩

theorem scalarLiteral?_renamed {kind : FilterKind} {value : Value} {literal : Expression}
    (h : scalarLiteral? kind value = some literal) : literal.renamed f = literal := by
  cases kind <;> obtain ⟨_, -, rfl⟩ := Option.map_eq_some_iff.1 h <;> rfl

theorem listLiteral?_renamed {kind : FilterKind} {items : List Value} {literal : Expression}
    (h : listLiteral? kind items = some literal) : literal.renamed f = literal := by
  cases kind with
  | boolean => cases h
  | _ => obtain ⟨_, -, rfl⟩ := Option.map_eq_some_iff.1 h; rfl

theorem valueComparison_renamed (field : String) (kind : FilterKind) (left : Expression)
    (op : ComparisonOperator) (value : Value) :
    valueComparison field kind (left.renamed f) op value =
      Except.map (Predicate.renamed f) (valueComparison field kind left op value) := by
  unfold valueComparison
  extract_lets literal?
  have hliteral : ∀ literal, literal? = some literal → literal.renamed f = literal := by
    intro literal h
    unfold literal? at h
    split at h
    · split at h
      · exact listLiteral?_renamed h
      · cases h
    · split at h
      · cases h
      · exact scalarLiteral?_renamed h
  clear_value literal?
  split
  · rfl
  · split <;> rfl
  · rename_i right _
    change Except.ok _ = Except.ok (Predicate.renamed f (.comparison left op right))
    rw [Predicate.renamed, hliteral right rfl]

theorem comparison_renamed (field : String) (kind : FilterKind) (left : Expression)
    (entry : String × Value) :
    comparison field kind (left.renamed f) entry =
      Except.map (Predicate.renamed f) (comparison field kind left entry) := by
  unfold comparison
  split
  · rfl
  · rename_i op _
    split
    · cases op <;> rfl
    · split
      · exact valueComparison_renamed field kind left op _
      · rfl

section Filter

variable (hf : Renaming f)

include hf

theorem RowFilter.combine_renamed (op : Connective) (filters : List RowFilter) :
    RowFilter.combine op (filters.map (RowFilter.renamed f)) =
      (RowFilter.combine op filters).renamed f := by
  have hpredicates : (filters.map (RowFilter.renamed f)).map (·.predicate) =
      (filters.map (·.predicate)).map (Predicate.renamed f) := by
    rw [List.map_map, List.map_map]
    rfl
  rw [RowFilter.combine, RowFilter.combine, hpredicates, Predicate.combine_renamed hf]
  simp only [RowFilter.renamed, List.flatMap_map, List.map_flatMap]

theorem gatherFilters_renamed (op : Connective) (results : List (Compiled RowFilter)) :
    gatherFilters op (results.map (Except.map (RowFilter.renamed f))) =
      Except.map (RowFilter.renamed f) (gatherFilters op results) := by
  rw [gatherFilters, gatherFilters, Checked.partition_map, Checked.map_map, Checked.map_map]
  exact congrArg (Except.map · _) (funext (RowFilter.combine_renamed hf op))

theorem fieldFilter_renamed (name : String) (field : FieldInfo) (value : Value) :
    fieldFilter (row.renamed f) name field value =
      Except.map (RowFilter.renamed f) (fieldFilter row name field value) := by
  cases value with
  | object entries =>
    have hentries : entries.map (comparison name field.filterKind
          (fieldValue (row.renamed f) field.apiName)) =
        (entries.map (comparison name field.filterKind (fieldValue row field.apiName))).map
          (Except.map (Predicate.renamed f)) := by
      rw [List.map_map]
      exact List.map_congr_left fun entry _ =>
        comparison_renamed name field.filterKind (fieldValue row field.apiName) entry
    simp only [fieldFilter]
    rw [hentries, Checked.partition_map, Checked.map_map, Checked.map_map]
    refine congrArg (Except.map · _) (funext fun predicates => ?_)
    simp only [Function.comp_apply, RowFilter.renamed, Predicate.combine_renamed hf, List.map_nil]
  | _ => rfl

end Filter

theorem RowFilter.negate_renamed (filter : RowFilter) :
    (filter.renamed f).negate = filter.negate.renamed f := by
  have hempty : (filter.renamed f).predicate.isEmpty = filter.predicate.isEmpty :=
    filter.predicate.isEmpty_renamed
  rw [RowFilter.negate, RowFilter.negate, hempty]
  split <;> rfl

mutual

/-- The filter of an entry in two runs. -/
theorem filterEntry_renamed (hf : Renaming f) (hsame : schema.SameAnswers schema') :
    ∀ (row : Row) (key : String) (value : Value),
      filterEntry schema' (row.renamed f) key value =
        Except.map (RowFilter.renamed f) (filterEntry schema row key value)
  | row, key, value => by
    unfold filterEntry
    cases FilterKey.ofName key with
    | connective op =>
      cases value with
      | list items =>
        simp only [filterItems_renamed hf hsame row op items, gatherFilters_renamed hf]
      | _ => rfl
    | negation =>
      cases value with
      | object entries =>
        simp only [filterEntries_renamed hf hsame row entries, gatherFilters_renamed hf,
          Checked.map_map]
        exact congrArg (Except.map · _) (funext RowFilter.negate_renamed)
      | _ => rfl
    | member =>
      simp only [Row.type_renamed, hsame.member?]
      cases schema.member? row.type key with
      | none => rfl
      | some member =>
        cases member with
        | value field => exact fieldFilter_renamed hf key field value
        | record reference =>
          cases value with
          | object entries =>
            have hinner := filterEntries_renamed hf hsame (row.join reference).row entries
            simp only [hsame.knows, Row.join_renamed hf, Join.row_renamed, hinner,
              gatherFilters_renamed hf, Checked.map_map]
            split
            · rw [Checked.map_map]
              rfl
            · rfl
          | _ => rfl

theorem filterEntries_renamed (hf : Renaming f) (hsame : schema.SameAnswers schema') :
    ∀ (row : Row) (entries : List (String × Value)),
      filterEntries schema' (row.renamed f) entries =
        (filterEntries schema row entries).map (Except.map (RowFilter.renamed f))
  | _, [] => rfl
  | row, (key, value) :: rest => by
    rw [filterEntries, filterEntries, List.map_cons, filterEntry_renamed hf hsame row key value,
      filterEntries_renamed hf hsame row rest]

theorem filterItems_renamed (hf : Renaming f) (hsame : schema.SameAnswers schema') :
    ∀ (row : Row) (op : Connective) (items : List Value),
      filterItems schema' (row.renamed f) op items =
        (filterItems schema row op items).map (Except.map (RowFilter.renamed f))
  | _, _, [] => rfl
  | row, op, item :: rest => by
    cases item with
    | object entries =>
      rw [filterItems, filterItems, List.map_cons, filterEntries_renamed hf hsame row entries,
        gatherFilters_renamed hf, filterItems_renamed hf hsame row op rest]
    | _ =>
      simp only [filterItems, List.map_cons, filterItems_renamed hf hsame row op rest]
      rfl

end

section Arguments

variable (hf : Renaming f) (hsame : schema.SameAnswers schema')

include hf hsame

theorem whereArgument_renamed (value? : Option Value) :
    whereArgument schema' (row.renamed f) value? =
      Except.map (Option.map (RowFilter.renamed f)) (whereArgument schema row value?) := by
  cases value? with
  | none => rfl
  | some value =>
    cases value with
    | object entries =>
      rw [whereArgument, whereArgument, filterObject, filterObject,
        filterEntries_renamed hf hsame, gatherFilters_renamed hf, Checked.map_map,
        Checked.map_map]
      rfl
    | _ => rfl

/-! ## Scopes -/

omit hsame in
theorem assignedTo_renamed (row : Row) (userId : String) :
    assignedTo (row.renamed f) userId = (assignedTo row userId).renamed f := by
  simp only [assignedTo, Row.along, Row.renamed, ← hf.along, Predicate.renamed,
    ← Predicate.combine_renamed hf]
  rfl

theorem scopeArgument_renamed (userId : String) (value? : Option Value) :
    scopeArgument schema' (row.renamed f) userId value? =
      Except.map (Option.map (Predicate.renamed f)) (scopeArgument schema row userId value?) := by
  unfold scopeArgument
  simp only [Row.type_renamed, hsame.field?, assignedTo_renamed hf]
  split
  · rfl
  · split
    · split <;> rfl
    · split
      · split <;> rfl
      · rfl
  · rfl

end Arguments

/-! ## Orders -/

def RowOrder.renamed (f : String → String) (order : RowOrder) : RowOrder :=
  ⟨order.key.renamed f, order.joins.map (Join.renamed f)⟩

theorem sortKey_renamed (extract : Expression) (options : List SortOption) :
    sortKey (extract.renamed f) options = (sortKey extract options).renamed f := by
  have hfold : ∀ key : SortKey, options.foldl SortOption.apply (key.renamed f) =
      (options.foldl SortOption.apply key).renamed f := by
    induction options with
    | nil => intro key; rfl
    | cons option options ih =>
      intro key
      rw [List.foldl_cons, List.foldl_cons, ← ih]
      cases option <;> rfl
  exact hfold ⟨true, false, extract⟩

mutual

/-- The order of an entry in two runs. -/
theorem orderEntry_renamed (hf : Renaming f) (hsame : schema.SameAnswers schema') :
    ∀ (row : Row) (entries : List (String × Value)),
      orderEntry schema' (row.renamed f) entries =
        Except.map (RowOrder.renamed f) (orderEntry schema row entries)
  | _, [] => rfl
  | row, [(name, value)] => by
    rw [orderEntry, orderEntry, orderMember_renamed hf hsame row name value]
  | _, _ :: _ :: _ => rfl

theorem orderMember_renamed (hf : Renaming f) (hsame : schema.SameAnswers schema') :
    ∀ (row : Row) (name : String) (value : Value),
      orderMember schema' (row.renamed f) name value =
        Except.map (RowOrder.renamed f) (orderMember schema row name value)
  | row, name, value => by
    unfold orderMember
    simp only [Row.type_renamed, hsame.member?]
    cases schema.member? row.type name with
    | none => rfl
    | some member =>
      cases value with
      | object entries =>
        cases member with
        | value field =>
          simp only [Checked.map_map]
          refine congrArg (Except.map · _) (funext fun options => ?_)
          exact congrArg (RowOrder.mk · []) (sortKey_renamed (fieldValue row field.apiName) options)
        | record reference =>
          have hinner := orderEntry_renamed hf hsame (row.join reference).row entries
          simp only [hsame.knows, Row.join_renamed hf, Join.row_renamed, hinner, Checked.map_map]
          split
          · rw [Checked.map_map]
            rfl
          · rfl
      | _ => rfl

end

theorem orderByArgument_renamed (hf : Renaming f) (hsame : schema.SameAnswers schema')
    (value? : Option Value) : orderByArgument schema' (row.renamed f) value? =
      Except.map (List.map (RowOrder.renamed f)) (orderByArgument schema row value?) := by
  cases value? with
  | none => rfl
  | some value =>
    cases value with
    | object entries =>
      rw [orderByArgument, orderByArgument, orderEntry_renamed hf hsame, Checked.map_map,
        Checked.map_map]
      rfl
    | list items =>
      have hitems : items.map (orderItem schema' (row.renamed f)) =
          (items.map (orderItem schema row)).map (Except.map (RowOrder.renamed f)) := by
        rw [List.map_map]
        refine List.map_congr_left fun item _ => ?_
        cases item with
        | object entries => exact orderEntry_renamed hf hsame row entries
        | _ => rfl
      rw [orderByArgument, orderByArgument, hitems, Checked.partition_map]
    | _ => rfl

/-! ## Queries -/

def Selected.renamed (f : String → String) (selected : Selected) : Selected :=
  ⟨selected.fields.map (QueryField.renamed f), selected.joins.map (Join.renamed f)⟩

def Parts.renamed (f : String → String) (parts : Parts) : Parts where
  filter? := parts.filter?.map (RowFilter.renamed f)
  scope? := parts.scope?.map (Predicate.renamed f)
  orders := parts.orders.map (RowOrder.renamed f)
  first? := parts.first?
  selected := parts.selected.renamed f

theorem Parts.joins_renamed (parts : Parts) :
    (parts.renamed f).joins = parts.joins.map (Join.renamed f) := by
  obtain ⟨filter?, scope?, orders, first?, selected⟩ := parts
  cases filter? <;>
    simp [Parts.joins, Parts.renamed, RowFilter.renamed, RowOrder.renamed, Selected.renamed,
      List.flatMap_map, List.map_flatMap]

theorem RowFilter.condition_renamed (filter : RowFilter) :
    (filter.renamed f).condition = filter.condition.map (Predicate.renamed f) := by
  have hempty : (filter.renamed f).predicate.isEmpty = filter.predicate.isEmpty :=
    filter.predicate.isEmpty_renamed
  rw [RowFilter.condition, RowFilter.condition, hempty]
  split <;> rfl

theorem Parts.conditions_renamed (hf : Renaming f) (parts : Parts) :
    (parts.renamed f).conditions = parts.conditions.map (Predicate.renamed f) := by
  obtain ⟨filter?, scope?, orders, first?, selected⟩ := parts
  have horders :
      (orders.map (RowOrder.renamed f)).flatMap (fun order => joinConditions order.joins) =
        (orders.flatMap fun order => joinConditions order.joins).map (Predicate.renamed f) := by
    rw [List.flatMap_map, List.map_flatMap]
    exact congrArg orders.flatMap (funext fun order => joinConditions_renamed hf order.joins)
  have hfilter : ∀ filter : RowFilter,
      joinConditions (filter.renamed f).joins ++ (filter.renamed f).condition =
        (joinConditions filter.joins ++ filter.condition).map (Predicate.renamed f) := by
    intro filter
    rw [List.map_append, ← joinConditions_renamed hf, RowFilter.condition_renamed]
    rfl
  have hselected : joinConditions (selected.renamed f).joins =
      (joinConditions selected.joins).map (Predicate.renamed f) :=
    joinConditions_renamed hf selected.joins
  have hscope : (scope?.map (Predicate.renamed f)).toList =
      scope?.toList.map (Predicate.renamed f) := by cases scope? <;> rfl
  simp only [Parts.conditions, Parts.renamed, horders, hselected, hscope, List.map_append]
  cases filter? with
  | none => rfl
  | some filter => simp only [Option.map_some, Option.getD_some, hfilter, List.map_append]

theorem Parts.toQuery_renamed (hf : Renaming f) (parts : Parts) (anchors : List Predicate) :
    (parts.renamed f).toQuery (row.renamed f) (anchors.map (Predicate.renamed f)) =
      (parts.toQuery row anchors).renamed f := by
  have hpredicate : (some (Predicate.combine .and (anchors.map (Predicate.renamed f) ++
        (parts.renamed f).conditions))).filter (!·.isEmpty) =
      ((some (Predicate.combine .and (anchors ++ parts.conditions))).filter
        (!·.isEmpty)).map (Predicate.renamed f) := by
    rw [Parts.conditions_renamed hf, ← List.map_append, Predicate.combine_renamed hf]
    simp only [Option.filter_some, Predicate.isEmpty_renamed]
    split <;> rfl
  have horders : (parts.renamed f).orders.map (·.key) =
      (parts.orders.map (·.key)).map (SortKey.renamed f) := by
    simp only [Parts.renamed, List.map_map]
    rfl
  rw [Parts.toQuery, Parts.toQuery, RecordQuery.renamed, hpredicate, horders,
    Parts.joins_renamed, joinNames_renamed hf, renamedFields_eq_map]
  rfl

theorem leaf?_renamed (path apiName : String) (s : Selection) :
    leaf? (row.renamed f) path apiName s =
      (leaf? row path apiName s).map (Except.map (QueryField.renamed f)) := by
  cases s with
  | field head below =>
    rw [leaf?, leaf?]
    split
    · rfl
    · cases Leaf.ofName? head.name <;> rfl
  | _ => rfl

theorem valueSelection_renamed (path name apiName : String) (below : List Selection) :
    valueSelection (row.renamed f) path name apiName below =
      Except.map (Selected.renamed f) (valueSelection row path name apiName below) := by
  have hleaves : below.filterMap (leaf? (row.renamed f) path apiName) =
      (below.filterMap (leaf? row path apiName)).map (Except.map (QueryField.renamed f)) := by
    rw [List.map_filterMap]
    exact List.filterMap_congr fun s _ => leaf?_renamed path apiName s
  unfold valueSelection
  split
  · split <;> rfl
  · split
    · rfl
    · rw [hleaves, Checked.partition_map, Checked.map_map, Checked.map_map]
      rfl

theorem gatherSelected_renamed (results : List (Compiled Selected)) :
    gatherSelected (results.map (Except.map (Selected.renamed f))) =
      Except.map (Selected.renamed f) (gatherSelected results) := by
  rw [gatherSelected, gatherSelected, Checked.partition_map, Checked.map_map, Checked.map_map]
  refine congrArg (Except.map · _) (funext fun parts => ?_)
  simp only [Function.comp_apply, Selected.merge, Selected.renamed, List.flatMap_map,
    List.map_flatMap]

/-- The selection comes to the same on a record of either row, up to the names of rows. -/
def Corresponds (f : String → String) (context context' : Context) (s : Selection) : Prop :=
  ∀ row path, selection context' (row.renamed f) path s =
    (selection context row path s).map (Except.map (Selected.renamed f))

theorem gatherSelected_of_corresponds {context context' : Context} {below : List Selection}
    (h : ∀ s ∈ below, Corresponds f context context' s) (row : Row) (path : String) :
    gatherSelected (selections context' (row.renamed f) path below) =
      Except.map (Selected.renamed f) (gatherSelected (selections context row path below)) := by
  have hselections : selections context' (row.renamed f) path below =
      (selections context row path below).map (Except.map (Selected.renamed f)) := by
    rw [selections_eq_filterMap, selections_eq_filterMap, List.map_filterMap]
    exact List.filterMap_congr fun s hs => h s hs row path
  rw [hselections, gatherSelected_renamed]

theorem underEdges_of_corresponds {context context' : Context} {below : List Selection}
    (h : ∀ node, nodeOf? below = some node → ∀ s ∈ node, Corresponds f context context' s)
    (row : Row) : underEdges context' (row.renamed f) below =
      (underEdges context row below).map (Except.map (Selected.renamed f)) := by
  rw [underEdges_eq, underEdges_eq]
  cases hnode : nodeOf? below with
  | none => rfl
  | some node =>
    exact congrArg some (gatherSelected_of_corresponds (h node hnode) row "node")

section Connections

variable {userId : String} (hf : Renaming f) (hsame : schema.SameAnswers schema')

include hf

theorem childAnchors_renamed (row : Row) (relationship : ChildRelationship) :
    childAnchors (row.renamed f) relationship =
      (childAnchors row relationship).map (Predicate.renamed f) := by
  rw [childAnchors, Row.children_renamed hf]
  rfl

include hsame

/-- A connection in two runs, if what its node selects corresponds. -/
theorem assemble_renamed (row : Row) (anchors : List Predicate) (field : Field)
    (selected? : Option (Compiled Selected)) :
    assemble ⟨schema', userId⟩ (row.renamed f) (anchors.map (Predicate.renamed f)) field
        (selected?.map (Except.map (Selected.renamed f))) =
      Except.map (RecordQuery.renamed f)
        (assemble ⟨schema, userId⟩ row anchors field selected?) := by
  have hselected : (selected?.map (Except.map (Selected.renamed f))).getD
        (Checked.fail (.noNode field.responseKey row.type)) =
      Except.map (Selected.renamed f)
        (selected?.getD (Checked.fail (.noNode field.responseKey row.type))) := by
    cases selected? <;> rfl
  simp only [assemble, Row.type_renamed]
  rw [whereArgument_renamed hf hsame, scopeArgument_renamed hf hsame,
    orderByArgument_renamed hf hsame, hselected, Checked.zip_map_right, Checked.zip_map,
    Checked.zip_map, Checked.zip_map, Checked.map_map, Checked.map_map]
  refine congrArg (Except.map · _) (funext fun ⟨filter?, scope?, orders, first?, selected⟩ => ?_)
  exact Parts.toQuery_renamed hf ⟨filter?, scope?, orders, first?, selected⟩ anchors

/-- **What is selected of a record corresponds in two runs**, at any depth. -/
theorem selection_renamed :
    ∀ s : Selection, Corresponds f ⟨schema, userId⟩ ⟨schema', userId⟩ s := by
  refine selectionInduction (fun head below hbelow hnode row path => ?_) (fun _ _ _ => rfl)
    fun _ _ _ _ => rfl
  rw [selection, selection]
  split
  · rfl
  · simp only [Row.type_renamed, hsame.member?, hsame.child?, hsame.knows, Option.map_some,
      Option.some.injEq]
    cases schema.member? row.type head.name with
    | some member =>
      cases member with
      | value field => exact valueSelection_renamed _ _ _ _
      | record reference =>
        simp only
        split
        · rfl
        · split
          · rfl
          · rw [Row.join_renamed hf, Join.row_renamed, gatherSelected_of_corresponds hbelow,
              Checked.map_map, Checked.map_map]
            rfl
    | none =>
      cases schema.child? row.type head.name with
      | none => rfl
      | some relationship =>
        simp only
        split
        · rw [Row.children_renamed hf, childAnchors_renamed hf, underEdges_of_corresponds hnode,
            assemble_renamed hf hsame, Checked.map_map, Checked.map_map]
          rfl
        · rfl

/-- **Two runs of a connection correspond**: they fail for the same reasons, or come to the same
query up to the names of rows. -/
theorem recordQuery_renamed (row : Row) (anchors : List Predicate) (field : Field)
    (below : List Selection) :
    recordQuery ⟨schema', userId⟩ (row.renamed f) (anchors.map (Predicate.renamed f)) field below =
      Except.map (RecordQuery.renamed f)
        (recordQuery ⟨schema, userId⟩ row anchors field below) := by
  rw [recordQuery, recordQuery,
    underEdges_of_corresponds fun _ _ s _ => selection_renamed hf hsame s,
    assemble_renamed hf hsame]

end Connections

/-! ## The name of the row of a connection -/

/-- The text with `beginning'` in place of `beginning`, if it begins so. -/
def replaceLeading (beginning beginning' text : String) : String :=
  if beginning.toList <+: text.toList then
    beginning' ++ String.ofList (text.toList.drop beginning.toList.length)
  else text

theorem replaceLeading_append (beginning beginning' rest : String) :
    replaceLeading beginning beginning' (beginning ++ rest) = beginning' ++ rest := by
  have hbegins : beginning.toList <+: (beginning ++ rest).toList := by
    rw [String.toList_append]
    exact List.prefix_append ..
  rw [replaceLeading, if_pos hbegins, String.toList_append, List.drop_left, String.ofList_toList]

example : replaceLeading "Owner" "User" "Owner.Owner" = "User.Owner" := by decide

/-- A connection to a row of any name is the one to a row of the empty name, with the name in front
of the names of all rows. -/
theorem recordQuery_eq_renamed (context : Context) (type name : String) (field : Field)
    (below : List Selection) :
    recordQuery context ⟨name, type⟩ [.hasType name type] field below =
      Except.map (RecordQuery.renamed (name ++ ·))
        (recordQuery context ⟨"", type⟩ [.hasType "" type] field below) := by
  have hrow : Row.renamed (name ++ ·) ⟨"", type⟩ = ⟨name, type⟩ := by
    simp only [Row.renamed, String.append_empty]
  have hanchors : [Predicate.hasType "" type].map (Predicate.renamed (name ++ ·)) =
      [.hasType name type] := by
    simp only [List.map_cons, List.map_nil, Predicate.hasType, Predicate.renamed,
      Expression.renamed, String.append_empty]
  rw [← hrow, ← hanchors]
  exact recordQuery_renamed (renaming_append name) (.refl context.schema) ⟨"", type⟩ _ field below

/-- **The name of its row enters a query as the beginning of the names of its rows, and nowhere
else.** For any two names, a connection fails for the same reasons, or it compiles for both. Then
every name of a row in the first query, at any depth, begins with the first name, and the second
query is the first with the second name in its place. -/
theorem recordQuery_row_name (context : Context) (type name name' : String) (field : Field)
    (below : List Selection) :
    (∃ errors, recordQuery context ⟨name, type⟩ [.hasType name type] field below = .error errors ∧
      recordQuery context ⟨name', type⟩ [.hasType name' type] field below = .error errors) ∨
    ∃ query, recordQuery context ⟨name, type⟩ [.hasType name type] field below = .ok query ∧
      (∃ rest : RecordQuery, query = rest.renamed (name ++ ·)) ∧
      recordQuery context ⟨name', type⟩ [.hasType name' type] field below =
        .ok (query.renamed (replaceLeading name name')) := by
  -- Renaming one query into the other would need an injective map between names, and one name may
  -- begin with the other; both are renamings of the query to a row of the empty name.
  rw [recordQuery_eq_renamed context type name, recordQuery_eq_renamed context type name']
  cases recordQuery context ⟨"", type⟩ [.hasType "" type] field below with
  | error errors => exact .inl ⟨errors, rfl, rfl⟩
  | ok rest =>
    have hnames : replaceLeading name name' ∘ (name ++ ·) = (name' ++ ·) :=
      funext (replaceLeading_append name name')
    refine .inr ⟨rest.renamed (name ++ ·), rfl, ⟨rest, rfl⟩, ?_⟩
    rw [RecordQuery.renamed_renamed, hnames]
    rfl

end SoupQuery.Compile
