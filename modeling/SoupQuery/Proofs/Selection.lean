import SoupQuery.Compile.Selection
import SoupQuery.Proofs.Filter

/-!
# How connections compile

Everything that a successful compilation of orders, selections and connections can be, as
relations whose derivations follow the document.

* `Orders` — how an entry of an order compiles.
* `Selects` — how the selections on a record compile.
* `Parts.Of` — the parts that a connection is put together from.
* `orderEntry_ok`, `selects_of_gatherSelected`, `recordQuery_ok` — what compiles is so derived.
* `selectionInduction` — induction over selections, into what a record and a connection select.
-/

namespace SoupQuery.Compile

open SoupQuery.GraphQL

variable {schema : Schema} {context : Context} {row : Row}

/-! ## Orders -/

/-- The order of an entry: a field with options, or an entry about a referenced record. -/
inductive Orders (schema : Schema) : Row → List (String × Value) → RowOrder → Prop
  | value {row name field entries options} :
      schema.member? row.type name = some (.value field) →
      Checked.partition (entries.map (sortOption name)) = .ok options →
      Orders schema row [(name, .object entries)]
        ⟨sortKey (fieldValue row field.apiName) options, []⟩
  | record {row name reference entries order} :
      schema.member? row.type name = some (.record reference) →
      schema.knows reference.target = true →
      Orders schema (row.join reference).row entries order →
      Orders schema row [(name, .object entries)]
        ⟨order.key, row.join reference :: order.joins⟩

mutual

theorem orderEntry_ok : ∀ (row : Row) (entries : List (String × Value)) (order : RowOrder),
    orderEntry schema row entries = .ok order → Orders schema row entries order
  | _, [], _, h => by cases h
  | row, [(name, value)], order, h => orderMember_ok row name value order h
  | _, _ :: _ :: _, _, h => by cases h

theorem orderMember_ok : ∀ (row : Row) (name : String) (value : Value) (order : RowOrder),
    orderMember schema row name value = .ok order → Orders schema row [(name, value)] order
  | row, name, value, order, h => by
    unfold orderMember at h
    split at h
    · cases h
    · rename_i member hmember
      cases value with
      | object entries =>
        cases member with
        | record reference =>
          simp only at h
          split at h
          · rename_i hknows
            obtain ⟨inner, hinner, rfl⟩ := Checked.map_eq_ok.1 h
            exact .record hmember hknows (orderEntry_ok _ entries inner hinner)
          · cases h
        | value field =>
          obtain ⟨options, hoptions, rfl⟩ := Checked.map_eq_ok.1 h
          exact .value hmember hoptions
      | _ => cases h

end

theorem sortKey_extract (extract : Expression) (options : List SortOption) :
    (sortKey extract options).extract = extract := by
  have hfold : ∀ key : SortKey, (options.foldl SortOption.apply key).extract = key.extract := by
    induction options with
    | nil => intro key; rfl
    | cons option options ih =>
      intro key
      rw [List.foldl_cons, ih]
      cases option <;> rfl
  exact hfold _

/-- Every order of the argument is the order of some entry. -/
theorem orderByArgument_ok {value? : Option Value} {orders : List RowOrder}
    (h : orderByArgument schema row value? = .ok orders) {order : RowOrder}
    (horder : order ∈ orders) : ∃ entries, Orders schema row entries order := by
  unfold orderByArgument at h
  split at h
  · cases h
    cases horder
  · rename_i entries
    obtain ⟨inner, hinner, rfl⟩ := Checked.map_eq_ok.1 h
    rw [List.mem_singleton.1 horder]
    exact ⟨entries, orderEntry_ok _ _ _ hinner⟩
  · obtain ⟨item, -, hitem⟩ := List.mem_map.1 (Checked.mem_of_partition h horder)
    unfold orderItem at hitem
    split at hitem
    · rename_i entries
      exact ⟨entries, orderEntry_ok _ _ _ hitem⟩
    · cases hitem
  · cases h

/-! ## Scopes -/

/-- A scope asks for the records that the user owns, or for those that are assigned to the user. -/
theorem scopeArgument_ok {userId : String} {value? : Option Value} {predicate : Predicate}
    (h : scopeArgument schema row userId value? = .ok (some predicate)) :
    predicate = ownedBy row userId ∨ predicate = assignedTo row userId := by
  unfold scopeArgument at h
  split at h
  · cases h
  · split at h
    · split at h
      · cases h
        exact .inl rfl
      · cases h
    · split at h
      · split at h
        · cases h
          exact .inr rfl
        · cases h
      · cases h
  · cases h

/-! ## Selections -/

/-- What the selections on a record compile to, in order. -/
inductive Selects (context : Context) : Row → String → List Selection → Selected → Prop
  | nil {row path} : Selects context row path [] ⟨[], []⟩
  | typeName {row path head below rest selected} : head.name = typeNameField →
      Selects context row path rest selected →
      Selects context row path (.field head below :: rest) selected
  | value {row path head below rest field fields selected} : head.name ≠ typeNameField →
      context.schema.member? row.type head.name = some (.value field) →
      valueSelection row (path ++ "." ++ head.responseKey) head.name field.apiName below =
        .ok ⟨fields, []⟩ →
      Selects context row path rest selected →
      Selects context row path (.field head below :: rest)
        ⟨fields ++ selected.fields, selected.joins⟩
  | record {row path head below rest reference inner selected} : head.name ≠ typeNameField →
      context.schema.member? row.type head.name = some (.record reference) →
      context.schema.knows reference.target = true →
      Selects context (row.join reference).row (path ++ "." ++ head.responseKey) below inner →
      Selects context row path rest selected →
      Selects context row path (.field head below :: rest)
        ⟨inner.fields ++ selected.fields, row.join reference :: inner.joins ++ selected.joins⟩
  | child {row path head below rest relationship connection selected} :
      head.name ≠ typeNameField →
      context.schema.member? row.type head.name = none →
      context.schema.child? row.type head.name = some relationship →
      recordQuery context (row.children relationship) (childAnchors row relationship) head below =
        .ok connection →
      Selects context row path rest selected →
      Selects context row path (.field head below :: rest)
        ⟨.child (path ++ "." ++ head.responseKey ++ ".edges") connection :: selected.fields,
          selected.joins⟩

/-- The place of the edges of a connection is a path of one more key. -/
theorem append_edges (path : String) : path ++ ".edges" = path ++ "." ++ "edges" := by
  rw [String.append_assoc]
  rfl

theorem leaf?_reports {path apiName : String} {s : Selection}
    {result : Compiled (QueryField RecordQuery)} (h : leaf? row path apiName s = some result) :
    result.Reports := by
  unfold leaf? at h
  split at h
  · split at h
    · cases h
    · cases h
      split
      · exact Checked.ok_reports _
      · exact Checked.fail_reports _
  · cases h
    exact Checked.fail_reports _

/-- A value is selected as it stands, or by its leaves. -/
theorem valueSelection_cases {path name apiName : String} {below : List Selection}
    {selected : Selected} (h : valueSelection row path name apiName below = .ok selected) :
    isIntrinsic apiName = true ∧ below = [] ∧
        selected = ⟨[.scalar path (fieldValue row apiName)], []⟩ ∨
      isIntrinsic apiName = false ∧ ∃ fields,
        below.filterMap (leaf? row path apiName) = fields.map .ok ∧ selected = ⟨fields, []⟩ := by
  unfold valueSelection at h
  split at h
  · rename_i hintrinsic
    split at h
    · rename_i hempty
      cases h
      exact .inl ⟨hintrinsic, List.isEmpty_iff.1 hempty, rfl⟩
    · cases h
  · rename_i hintrinsic
    split at h
    · cases h
    · obtain ⟨fields, hfields, rfl⟩ := Checked.map_eq_ok.1 h
      refine .inr ⟨by simpa using hintrinsic, fields, (Checked.partition_eq_ok ?_).1 hfields, rfl⟩
      intro result hresult
      obtain ⟨s, -, hleaf⟩ := List.mem_filterMap.1 hresult
      exact leaf?_reports hleaf

theorem valueSelection_ok {path name apiName : String} {below : List Selection}
    {selected : Selected} (h : valueSelection row path name apiName below = .ok selected) :
    selected.joins = [] ∧ ∀ field ∈ selected.fields, ∃ at_ leaf,
      field = .scalar at_ (.extract row.name leaf) := by
  rcases valueSelection_cases h with ⟨-, -, rfl⟩ | ⟨-, fields, hfields, rfl⟩
  · refine ⟨rfl, fun field hfield => ?_⟩
    rw [List.mem_singleton.1 hfield]
    exact ⟨path, _, rfl⟩
  · refine ⟨rfl, fun field hfield => ?_⟩
    obtain ⟨s, -, hleaf⟩ := List.mem_filterMap.1 (hfields ▸ List.mem_map_of_mem hfield)
    unfold leaf? at hleaf
    split at hleaf
    · split at hleaf
      · cases hleaf
      · split at hleaf
        · cases hleaf
          exact ⟨_, _, rfl⟩
        · cases hleaf
    · cases hleaf

/-! ## Failures name a reason -/

mutual

theorem orderEntry_reports : ∀ (row : Row) (entries : List (String × Value)),
    (orderEntry schema row entries).Reports
  | _, [] => Checked.fail_reports _
  | row, [(name, value)] => orderMember_reports row name value
  | _, _ :: _ :: _ => Checked.fail_reports _

theorem orderMember_reports : ∀ (row : Row) (name : String) (value : Value),
    (orderMember schema row name value).Reports
  | row, name, value => by
    unfold orderMember
    split
    · exact Checked.fail_reports _
    · rename_i member _
      cases value with
      | object entries =>
        cases member with
        | record reference =>
          simp only
          split
          · exact Checked.map_reports (orderEntry_reports _ entries) _
          · exact Checked.fail_reports _
        | value field => exact Checked.map_reports (Checked.partition_reports _) _
      | _ => exact Checked.fail_reports _

end

theorem orderItem_reports (schema : Schema) (row : Row) (item : Value) :
    (orderItem schema row item).Reports := by
  cases item with
  | object entries => exact orderEntry_reports row entries
  | _ => exact Checked.fail_reports _

theorem orderByArgument_reports (schema : Schema) (row : Row) (value? : Option Value) :
    (orderByArgument schema row value?).Reports := by
  unfold orderByArgument
  split
  · exact Checked.ok_reports _
  · exact Checked.map_reports (orderEntry_reports _ _) _
  · exact Checked.partition_reports _
  · exact Checked.fail_reports _

theorem scopeArgument_reports (schema : Schema) (row : Row) (userId : String)
    (value? : Option Value) : (scopeArgument schema row userId value?).Reports := by
  unfold scopeArgument
  split
  · exact Checked.ok_reports _
  · split
    · split
      · exact Checked.ok_reports _
      · exact Checked.fail_reports _
    · split
      · split
        · exact Checked.ok_reports _
        · exact Checked.fail_reports _
      · exact Checked.fail_reports _
  · exact Checked.fail_reports _

theorem firstArgument_reports (type : String) (value? : Option Value) :
    (firstArgument type value?).Reports := by
  unfold firstArgument
  split
  · exact Checked.ok_reports _
  · split
    · exact Checked.ok_reports _
    · exact Checked.fail_reports _
  · exact Checked.fail_reports _

theorem gatherSelected_reports (parts : List (Compiled Selected)) :
    (gatherSelected parts).Reports :=
  Checked.map_reports (Checked.partition_reports _) _

theorem valueSelection_reports (row : Row) (path name apiName : String)
    (below : List Selection) : (valueSelection row path name apiName below).Reports := by
  unfold valueSelection
  split
  · split
    · exact Checked.ok_reports _
    · exact Checked.fail_reports _
  · split
    · exact Checked.fail_reports _
    · exact Checked.map_reports (Checked.partition_reports _) _

/-- The selections on the records of a connection: those under its first `edges` and, in these,
the first `node`. -/
def nodeOf? (below : List Selection) : Option (List Selection) :=
  (Selection.below? "edges" below).bind (Selection.below? "node")

theorem underNode_eq (context : Context) (row : Row) : ∀ below,
    underNode context row below = (Selection.below? "node" below).map fun node =>
      gatherSelected (selections context row "node" node)
  | [] => by simp [underNode, Selection.below?]
  | .field head below :: rest => by
    have ih := underNode_eq context row rest
    by_cases hname : head.name = "node" <;> simp [underNode, Selection.below?, hname, ih]
  | .fragmentSpread _ :: rest => by
    simp [underNode, Selection.below?, underNode_eq context row rest]
  | .inlineFragment _ _ :: rest => by
    simp [underNode, Selection.below?, underNode_eq context row rest]

theorem underEdges_eq (context : Context) (row : Row) : ∀ below,
    underEdges context row below = (nodeOf? below).map fun node =>
      gatherSelected (selections context row "node" node)
  | [] => by simp [underEdges, nodeOf?, Selection.below?]
  | .field head below :: rest => by
    have ih := underEdges_eq context row rest
    by_cases hname : head.name = "edges"
    · simp [underEdges, nodeOf?, Selection.below?, hname, underNode_eq]
    · simpa [underEdges, nodeOf?, Selection.below?, hname] using ih
  | .fragmentSpread _ :: rest => by
    simpa [underEdges, nodeOf?, Selection.below?] using underEdges_eq context row rest
  | .inlineFragment _ _ :: rest => by
    simpa [underEdges, nodeOf?, Selection.below?] using underEdges_eq context row rest

theorem sizeOf_below? {name : String} {inner : List Selection} : ∀ {below : List Selection},
    Selection.below? name below = some inner → sizeOf inner < sizeOf below
  | .field head inside :: rest, h => by
    rw [Selection.below?] at h
    split at h
    · cases h
      simp only [List.cons.sizeOf_spec, Selection.field.sizeOf_spec]
      omega
    · have hrest := sizeOf_below? h
      simp only [List.cons.sizeOf_spec]
      omega
  | .fragmentSpread _ :: rest, h => by
    have hrest : sizeOf inner < sizeOf rest := sizeOf_below? h
    simp only [List.cons.sizeOf_spec]
    omega
  | .inlineFragment _ _ :: rest, h => by
    have hrest : sizeOf inner < sizeOf rest := sizeOf_below? h
    simp only [List.cons.sizeOf_spec]
    omega

theorem sizeOf_nodeOf? {below node : List Selection} (h : nodeOf? below = some node) :
    sizeOf node < sizeOf below := by
  obtain ⟨edges, hedges, hnode⟩ := Option.bind_eq_some_iff.1 h
  exact Nat.lt_trans (sizeOf_below? hnode) (sizeOf_below? hedges)

/-- **Induction over selections.** A field may use what holds of the selections below it, and of
those on the records of the connection that it may be. -/
theorem selectionInduction {P : Selection → Prop}
    (field : ∀ head below, (∀ s ∈ below, P s) →
      (∀ node, nodeOf? below = some node → ∀ s ∈ node, P s) → P (.field head below))
    (spread : ∀ name, P (.fragmentSpread name))
    (inline : ∀ onType? below, P (.inlineFragment onType? below)) : ∀ s, P s
  | .field head below =>
    field head below (fun s _ => selectionInduction field spread inline s)
      fun node _ s _ => selectionInduction field spread inline s
  | .fragmentSpread name => spread name
  | .inlineFragment onType? below => inline onType? below
termination_by s => sizeOf s
decreasing_by
  · rename_i hs
    have hsize := List.sizeOf_lt_of_mem hs
    simp only [Selection.field.sizeOf_spec]
    omega
  · rename_i hnode hs
    have hsize := List.sizeOf_lt_of_mem hs
    have hbelow := sizeOf_nodeOf? hnode
    simp only [Selection.field.sizeOf_spec]
    omega

theorem recordQuery_reports (context : Context) (row : Row) (anchors : List Predicate)
    (field : Field) (below : List Selection) :
    (recordQuery context row anchors field below).Reports := by
  unfold recordQuery assemble
  refine Checked.map_reports (Checked.zip_reports (whereArgument_reports _ _ _)
    (Checked.zip_reports (scopeArgument_reports _ _ _ _)
      (Checked.zip_reports (orderByArgument_reports _ _ _)
        (Checked.zip_reports (firstArgument_reports _ _) ?_)))) _
  rw [underEdges_eq]
  cases nodeOf? below with
  | none => exact Checked.fail_reports _
  | some node => exact gatherSelected_reports _

theorem selection_reports {path : String} {s : Selection} {result : Compiled Selected}
    (h : selection context row path s = some result) : result.Reports := by
  unfold selection at h
  split at h
  · split at h
    · cases h
    · cases h
      split
      · split
        · exact Checked.fail_reports _
        · split
          · exact Checked.fail_reports _
          · exact Checked.map_reports (gatherSelected_reports _) _
      · exact valueSelection_reports _ _ _ _ _
      · split
        · split
          · exact Checked.map_reports (recordQuery_reports _ _ _ _ _) _
          · exact Checked.fail_reports _
        · exact Checked.fail_reports _
  · cases h
    exact Checked.fail_reports _

theorem selections_reports (context : Context) (row : Row) (path : String) :
    ∀ below, ∀ result ∈ selections context row path below, result.Reports
  | [], result, h => by simp [selections] at h
  | first :: rest, result, h => by
    rw [selections, List.mem_append] at h
    rcases h with h | h
    · exact selection_reports (Option.mem_toList.1 h)
    · exact selections_reports context row path rest result h

/-! ## What compiles is derived -/

theorem Selected.merge_cons (part : Selected) (parts : List Selected) :
    Selected.merge (part :: parts) =
      ⟨part.fields ++ (Selected.merge parts).fields, part.joins ++ (Selected.merge parts).joins⟩ :=
  rfl

theorem gatherSelected_eq_ok {results : List (Compiled Selected)} {selected : Selected}
    (hreports : ∀ result ∈ results, result.Reports) :
    gatherSelected results = .ok selected ↔
      ∃ parts, results = parts.map .ok ∧ Selected.merge parts = selected := by
  unfold gatherSelected
  rw [Checked.map_eq_ok]
  simp only [Checked.partition_eq_ok hreports]

/-- **Selections that compile are derived by `Selects`.** -/
theorem selects_of_gatherSelected : ∀ (below : List Selection) (row : Row) (path : String)
    (selected : Selected), gatherSelected (selections context row path below) = .ok selected →
      Selects context row path below selected
  | [], row, path, selected, h => by
    cases h
    exact .nil
  | first :: rest, row, path, selected, h => by
    obtain ⟨parts, hparts, rfl⟩ := (gatherSelected_eq_ok (selections_reports _ _ _ _)).1 h
    have hrest : ∀ parts, selections context row path rest = parts.map .ok →
        Selects context row path rest (Selected.merge parts) := fun parts hparts =>
      selects_of_gatherSelected rest row path _
        ((gatherSelected_eq_ok (selections_reports _ _ _ _)).2 ⟨parts, hparts, rfl⟩)
    rw [selections] at hparts
    cases first with
    | field head below =>
      by_cases hname : head.name = typeNameField
      · rw [selection, if_pos hname] at hparts
        exact .typeName hname (hrest parts hparts)
      · rw [selection, if_neg hname] at hparts
        cases parts with
        | nil => cases hparts
        | cons part parts =>
          obtain ⟨hpart, htail⟩ := List.cons.inj hparts
          rw [Selected.merge_cons]
          split at hpart
          · rename_i reference hmember
            split at hpart
            · cases hpart
            · rename_i hknows
              split at hpart
              · cases hpart
              · obtain ⟨inner, hinner, rfl⟩ := Checked.map_eq_ok.1 hpart
                exact .record hname hmember (by simpa using hknows)
                  (selects_of_gatherSelected below _ _ inner hinner) (hrest parts htail)
          · rename_i field hmember
            obtain ⟨fields, joins⟩ := part
            obtain rfl : joins = [] := (valueSelection_ok hpart).1
            exact .value hname hmember hpart (hrest parts htail)
          · rename_i hmember
            split at hpart
            · rename_i relationship hchild
              split at hpart
              · obtain ⟨connection, hconnection, rfl⟩ := Checked.map_eq_ok.1 hpart
                exact .child hname hmember hchild hconnection (hrest parts htail)
              · cases hpart
            · cases hpart
    | fragmentSpread _ => cases parts <;> cases hparts
    | inlineFragment _ _ => cases parts <;> cases hparts

/-- The parts of a connection: what its arguments and its node compile to. -/
structure Parts.Of (context : Context) (row : Row) (field : Field) (below : List Selection)
    (parts : Parts) : Prop where
  filter : whereArgument context.schema row (field.argument? "where") = .ok parts.filter?
  scope : scopeArgument context.schema row context.userId (field.argument? "scope") =
    .ok parts.scope?
  orders : orderByArgument context.schema row (field.argument? "orderBy") = .ok parts.orders
  first : firstArgument row.type (field.argument? "first") = .ok parts.first?
  selected : ∃ node, nodeOf? below = some node ∧ Selects context row "node" node parts.selected

/-- **A connection that compiles is put together from its parts.** -/
theorem recordQuery_ok {anchors : List Predicate} {field : Field} {below : List Selection}
    {query : RecordQuery} (h : recordQuery context row anchors field below = .ok query) :
    ∃ parts : Parts, parts.Of context row field below ∧ query = parts.toQuery row anchors := by
  unfold recordQuery assemble at h
  obtain ⟨⟨filter?, scope?, orders, first?, selected⟩, hzip, rfl⟩ := Checked.map_eq_ok.1 h
  simp only [Checked.zip_eq_ok] at hzip
  obtain ⟨hfilter, hscope, horders, hfirst, hselected⟩ := hzip
  refine ⟨⟨filter?, scope?, orders, first?, selected⟩,
    ⟨hfilter, hscope, horders, hfirst, ?_⟩, rfl⟩
  rw [underEdges_eq] at hselected
  cases hnode : nodeOf? below with
  | none =>
    rw [hnode] at hselected
    cases hselected
  | some node =>
    rw [hnode] at hselected
    exact ⟨node, rfl, selects_of_gatherSelected node row "node" selected hselected⟩

end SoupQuery.Compile
