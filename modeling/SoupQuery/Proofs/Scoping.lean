import SoupQuery.Proofs.Connection
import SoupQuery.Proofs.Predicate

/-!
# Every row that is read has been named

A query reads records through rows: its own, the rows joined to it and, in a condition, the rows
of the queries around it and of the existence checks around the place. SQL would take a name that
stands for no row as a text, so this must hold of every query that is written.

* `Expression.ReadsWithin`, `Predicate.ReadsWithin` — all rows that are read are in scope.
* `RecordQuery.WellScoped` — what may be read where in a query.
* `Chained` — each join starts at a row that is named before.
* `RowFilter.Scoped`, `Orders.scoped`, `Selects.scoped` — filters, orders and selections read
  their own row and the rows of their joins.
* `transform_wellScoped` — every query of a result is well scoped, at any depth.
-/

namespace SoupQuery

/-- The operand reads no row outside the scope. -/
def Expression.ReadsWithin (scope : List String) : Expression → Prop
  | .extract rowName _ => rowName ∈ scope
  | _ => True

/-- The predicate reads no row outside the scope. An existence check puts its own rows in scope. -/
inductive Predicate.ReadsWithin : List String → Predicate → Prop
  | comparison {scope left op right} : left.ReadsWithin scope → right.ReadsWithin scope →
      ReadsWithin scope (.comparison left op right)
  | compound {scope op operands} : (∀ p ∈ operands, ReadsWithin scope p) →
      ReadsWithin scope (.compound op operands)
  | negation {scope operand} : ReadsWithin scope operand → ReadsWithin scope (.negation operand)
  | isNull {scope operand} : operand.ReadsWithin scope → ReadsWithin scope (.isNull operand)
  | isNotNull {scope operand} : operand.ReadsWithin scope → ReadsWithin scope (.isNotNull operand)
  | between {scope operand start stop} : operand.ReadsWithin scope → start.ReadsWithin scope →
      stop.ReadsWithin scope → ReadsWithin scope (.between operand start stop)
  | existsRow {scope rowName joinNames body} :
      ReadsWithin (rowName :: joinNames ++ scope) body →
      ReadsWithin scope (.existsRow rowName joinNames body)

/-- What a query may read: its fields and its order its own rows, its condition also the rows of
the queries around it. -/
structure RecordQuery.WellScoped (enclosing : List RecordQuery) (query : RecordQuery) : Prop where
  fields : ∀ path extract, .scalar path extract ∈ query.fields →
    extract.ReadsWithin query.rowNames
  orderBy : ∀ key ∈ query.orderBy, key.extract.ReadsWithin query.rowNames
  predicate : ∀ predicate, query.predicate? = some predicate →
    predicate.ReadsWithin (query.rowNames ++ enclosing.flatMap RecordQuery.rowNames)

theorem Expression.ReadsWithin.mono {scope scope' : List String} {e : Expression}
    (h : e.ReadsWithin scope) (hsub : scope ⊆ scope') : e.ReadsWithin scope' := by
  cases e with
  | extract rowName path => exact hsub h
  | _ => trivial

namespace Predicate

theorem ReadsWithin.mono {scope : List String} {p : Predicate} (h : p.ReadsWithin scope) :
    ∀ {scope'}, scope ⊆ scope' → p.ReadsWithin scope' := by
  induction h with
  | comparison hl hr => intro scope' hsub; exact .comparison (hl.mono hsub) (hr.mono hsub)
  | compound _ ih => intro scope' hsub; exact .compound fun p hp => ih p hp hsub
  | negation _ ih => intro scope' hsub; exact .negation (ih hsub)
  | isNull ho => intro scope' hsub; exact .isNull (ho.mono hsub)
  | isNotNull ho => intro scope' hsub; exact .isNotNull (ho.mono hsub)
  | between ho hs ht =>
    intro scope' hsub
    exact .between (ho.mono hsub) (hs.mono hsub) (ht.mono hsub)
  | existsRow _ ih =>
    intro scope' hsub
    refine .existsRow (ih fun name hname => ?_)
    rcases List.mem_append.1 hname with hname | hname
    · exact List.mem_append_left _ hname
    · exact List.mem_append_right _ (hsub hname)

theorem readsWithin_combine {scope : List String} {op : Connective} {predicates : List Predicate}
    (h : ∀ p ∈ predicates, p.ReadsWithin scope) : (combine op predicates).ReadsWithin scope := by
  refine combine_closed (fun op operands => ⟨?_, .compound⟩) h
  intro hcompound
  cases hcompound with | compound hall => exact hall

theorem readsWithin_refersTo {scope : List String} {source target foreignKey : String}
    (hsource : source ∈ scope) (htarget : target ∈ scope) :
    (refersTo source target foreignKey).ReadsWithin scope := .comparison hsource htarget

theorem readsWithin_hasType {scope : List String} {rowName type : String} (h : rowName ∈ scope) :
    (hasType rowName type).ReadsWithin scope := .comparison h trivial

end Predicate

/-! ## Joins -/

/-- The names of a row and of the rows joined to it. -/
def Row.namesWith (row : Row) (joins : List Join) : List String :=
  row.name :: joins.map (·.row.name)

theorem Row.namesWith_mono {row : Row} {joins joins' : List Join} (h : joins ⊆ joins') :
    row.namesWith joins ⊆ row.namesWith joins' := by
  intro name hname
  rcases List.mem_cons.1 hname with rfl | hname
  · exact List.mem_cons_self ..
  · obtain ⟨join, hjoin, rfl⟩ := List.mem_map.1 hname
    exact List.mem_cons_of_mem _ (List.mem_map_of_mem (h hjoin))

theorem Join.mem_conditions {join : Join} {p : Predicate} : p ∈ join.conditions ↔
    p = .refersTo join.source join.row.name join.foreignKey ∨
      p = .hasType join.row.name join.row.type := by
  simp [Join.conditions]

/-- Each join starts at a row that is known, or named by an earlier join. -/
def Chained : List String → List Join → Prop
  | _, [] => True
  | known, join :: rest => join.source ∈ known ∧ Chained (join.row.name :: known) rest

theorem Chained.mono : ∀ {joins : List Join} {known known' : List String},
    Chained known joins → known ⊆ known' → Chained known' joins
  | [], _, _, _, _ => trivial
  | join :: rest, _, _, h, hsub => by
    refine ⟨hsub h.1, h.2.mono fun name hname => ?_⟩
    rcases List.mem_cons.1 hname with rfl | hname
    · exact List.mem_cons_self ..
    · exact List.mem_cons_of_mem _ (hsub hname)

theorem Chained.append : ∀ {joins joins' : List Join} {known : List String},
    Chained known joins → Chained known joins' → Chained known (joins ++ joins')
  | [], _, _, _, h' => h'
  | _ :: _, _, _, h, h' => ⟨h.1, h.2.append (h'.mono (List.subset_cons_self _ _))⟩

theorem Chained.flatMap {α : Type} {known : List String} {f : α → List Join} :
    ∀ {items : List α}, (∀ item ∈ items, Chained known (f item)) →
      Chained known (items.flatMap f)
  | [], _ => trivial
  | item :: items, h => by
    rw [List.flatMap_cons]
    exact (h item (List.mem_cons_self ..)).append
      (Chained.flatMap fun other hother => h other (List.mem_cons_of_mem _ hother))

/-- The joins after one that starts at a row. -/
theorem Chained.join {row : Row} {reference : Reference} {joins : List Join}
    (h : Chained [(row.join reference).row.name] joins) :
    Chained [row.name] (row.join reference :: joins) :=
  ⟨List.mem_singleton.2 rfl, h.mono fun _ hname => List.mem_singleton.1 hname ▸
    List.mem_cons_self ..⟩

theorem Chained.source_mem : ∀ {joins : List Join} {known : List String}, Chained known joins →
    ∀ join ∈ joins, join.source ∈ known ++ joins.map (·.row.name)
  | [], _, _, join, hjoin => by cases hjoin
  | first :: rest, known, h, join, hjoin => by
    rcases List.mem_cons.1 hjoin with rfl | hjoin
    · exact List.mem_append_left _ h.1
    · have := h.2.source_mem join hjoin
      simp only [List.map_cons, List.cons_append, List.mem_cons, List.mem_append] at this ⊢
      rcases this with this | this | this
      · exact .inr (.inl this)
      · exact .inl this
      · exact .inr (.inr this)

/-- The conditions of chained joins read nothing but the rows that the joins name. -/
theorem Chained.readsWithin {row : Row} {joins : List Join} (h : Chained [row.name] joins)
    {join : Join} (hjoin : join ∈ joins) {p : Predicate} (hp : p ∈ join.conditions) :
    p.ReadsWithin (row.namesWith joins) := by
  have hsource : join.source ∈ row.namesWith joins := h.source_mem join hjoin
  have htarget : join.row.name ∈ row.namesWith joins :=
    List.mem_cons_of_mem _ (List.mem_map_of_mem hjoin)
  rcases Join.mem_conditions.1 hp with rfl | rfl
  · exact Predicate.readsWithin_refersTo hsource htarget
  · exact Predicate.readsWithin_hasType htarget

end SoupQuery

namespace SoupQuery.Compile

open SoupQuery.GraphQL

variable {schema : Schema} {context : Context} {document : Document} {row : Row}

/-! ## Filters -/

theorem scalarLiteral?_readsWithin {kind : FilterKind} {value : Value} {literal : Expression}
    (h : scalarLiteral? kind value = some literal) (scope : List String) :
    literal.ReadsWithin scope := by
  unfold scalarLiteral? at h
  split at h <;> obtain ⟨_, -, rfl⟩ := Option.map_eq_some_iff.1 h <;> trivial

theorem listLiteral?_readsWithin {kind : FilterKind} {items : List Value} {literal : Expression}
    (h : listLiteral? kind items = some literal) (scope : List String) :
    literal.ReadsWithin scope := by
  unfold listLiteral? at h
  split at h
  · cases h
  all_goals obtain ⟨_, -, rfl⟩ := Option.map_eq_some_iff.1 h; trivial

/-- A comparison reads what its left operand reads. -/
theorem comparison_readsWithin {name : String} {kind : FilterKind} {left : Expression}
    {entry : String × Value} {predicate : Predicate} {scope : List String}
    (h : comparison name kind left entry = .ok predicate) (hleft : left.ReadsWithin scope) :
    predicate.ReadsWithin scope := by
  cases comparison_ok h with
  | isNull => exact .isNull hleft
  | isNotNull => exact .isNotNull hleft
  | day => exact .between hleft trivial trivial
  | scalar _ hliteral => exact .comparison hleft (scalarLiteral?_readsWithin hliteral scope)
  | list _ hliteral => exact .comparison hleft (listLiteral?_readsWithin hliteral scope)

/-- A filter on a row reads that row and the rows of its joins, which start at the row. -/
structure RowFilter.Scoped (row : Row) (filter : RowFilter) : Prop where
  joins : Chained [row.name] filter.joins
  predicate : filter.predicate.ReadsWithin (row.namesWith filter.joins)

theorem RowFilter.Scoped.combine {op : Connective} {filters : List RowFilter}
    (h : ∀ filter ∈ filters, filter.Scoped row) : (RowFilter.combine op filters).Scoped row := by
  refine ⟨Chained.flatMap fun filter hfilter => (h filter hfilter).joins, ?_⟩
  refine Predicate.readsWithin_combine fun p hp => ?_
  obtain ⟨filter, hfilter, rfl⟩ := List.mem_map.1 hp
  refine (h filter hfilter).predicate.mono (Row.namesWith_mono fun join hjoin => ?_)
  exact List.mem_flatMap.2 ⟨filter, hfilter, hjoin⟩

theorem RowFilter.Scoped.negate {filter : RowFilter} (h : filter.Scoped row) :
    filter.negate.Scoped row := by
  unfold RowFilter.negate
  split
  · exact h
  · exact ⟨h.joins, .negation h.predicate⟩

theorem RowFilter.Scoped.through {reference : Reference} {filter : RowFilter}
    (h : filter.Scoped (row.join reference).row) :
    (filter.through (row.join reference)).Scoped row :=
  ⟨h.joins.join, h.predicate.mono (List.subset_cons_self _ _)⟩

/-- Being scoped is preserved by every form of a filter. -/
theorem filterInvariant_scoped (schema : Schema) :
    FilterInvariant schema (fun row _ filter => filter.Scoped row)
      (fun row _ _ filter => filter.Scoped row) where
  object h := .combine (forall_of_forall₂_right h fun _ _ hfilter => hfilter)
  connective _ h := .combine (forall_of_forall₂_right h fun _ _ hfilter => hfilter)
  negation _ h := h.negate
  field _ _ h := by
    refine ⟨trivial, Predicate.readsWithin_combine ?_⟩
    exact forall_of_forall₂_right h fun _ _ hcomparison =>
      comparison_readsWithin hcomparison (List.mem_cons_self ..)
  record _ _ _ h := h.through

theorem whereArgument_scoped {value? : Option Value} {filter : RowFilter}
    (h : whereArgument schema row value? = .ok (some filter)) : filter.Scoped row := by
  unfold whereArgument at h
  split at h
  · cases h
  · obtain ⟨inner, hinner, heq⟩ := Checked.map_eq_ok.1 h
    cases heq
    exact (filterInvariant_scoped schema).filterObject hinner
  · cases h

/-! ## Scopes, orders and selections -/

theorem scopeArgument_readsWithin {userId : String} {value? : Option Value}
    {predicate : Predicate} {scope : List String}
    (h : scopeArgument schema row userId value? = .ok (some predicate))
    (hrow : row.name ∈ scope) : predicate.ReadsWithin scope := by
  rcases scopeArgument_ok h with rfl | rfl
  · exact .comparison hrow trivial
  · refine .existsRow (Predicate.readsWithin_combine fun p hp => ?_)
    have hrow' := List.mem_append_right
      ((row.along "AssignedResource" "AssignedResource").name ::
        [(row.along "ServiceResource" "ServiceResource").name]) hrow
    simp only [List.mem_cons, List.not_mem_nil, or_false] at hp
    rcases hp with rfl | rfl | rfl | rfl | rfl
    · exact Predicate.readsWithin_refersTo (by simp) (by simp)
    · exact Predicate.readsWithin_refersTo (by simp) hrow'
    · exact .comparison (by simp [fieldValue, Expression.ReadsWithin]) trivial
    · exact Predicate.readsWithin_hasType (by simp)
    · exact Predicate.readsWithin_hasType (by simp)

/-- An order reads its row or the rows of its joins, which start at the row. -/
theorem Orders.scoped {entries : List (String × Value)} {order : RowOrder}
    (h : Orders schema row entries order) : Chained [row.name] order.joins ∧
      order.key.extract.ReadsWithin (row.namesWith order.joins) := by
  induction h with
  | value _ _ =>
    refine ⟨trivial, ?_⟩
    rw [sortKey_extract]
    exact List.mem_cons_self ..
  | record _ _ _ ih => exact ⟨ih.1.join, ih.2.mono (List.subset_cons_self _ _)⟩

/-- Selected values are read from the row or from the rows of the joins, which start at the
row. -/
theorem Selects.scoped {path : String} {below : List Selection} {selected : Selected}
    (h : Selects context row path below selected) : Chained [row.name] selected.joins ∧
      ∀ place extract, .scalar place extract ∈ selected.fields →
        extract.ReadsWithin (row.namesWith selected.joins) := by
  induction h with
  | nil => exact ⟨trivial, fun _ _ hfield => by cases hfield⟩
  | typeName _ _ ih => exact ih
  | value _ _ hvalue _ ih =>
    refine ⟨ih.1, fun place extract hfield => ?_⟩
    rcases List.mem_append.1 hfield with hfield | hfield
    · obtain ⟨_, _, hscalar⟩ := (valueSelection_ok hvalue).2 _ hfield
      cases hscalar
      exact List.mem_cons_self ..
    · exact ih.2 place extract hfield
  | record _ _ _ _ _ ihinner ih =>
    refine ⟨ihinner.1.join.append ih.1, fun place extract hfield => ?_⟩
    rcases List.mem_append.1 hfield with hfield | hfield
    · refine (ihinner.2 place extract hfield).mono fun name hname => ?_
      exact List.mem_cons_of_mem _ (List.mem_map.2 (by
        rcases List.mem_cons.1 hname with rfl | hname
        · exact ⟨_, List.mem_append_left _ (List.mem_cons_self ..), rfl⟩
        · obtain ⟨join, hjoin, rfl⟩ := List.mem_map.1 hname
          exact ⟨join, List.mem_append_left _ (List.mem_cons_of_mem _ hjoin), rfl⟩))
    · exact (ih.2 place extract hfield).mono
        (Row.namesWith_mono fun join hjoin => List.mem_append_right _ hjoin)
  | child _ _ _ _ _ ih =>
    refine ⟨ih.1, fun place extract hfield => ?_⟩
    rcases List.mem_cons.1 hfield with hfield | hfield
    · cases hfield
    · exact ih.2 place extract hfield

/-! ## Queries -/

theorem namesWith_subset_rowNames {parts : Parts} {anchors : List Predicate} {joins : List Join}
    (h : joins ⊆ parts.joins) : row.namesWith joins ⊆ (parts.toQuery row anchors).rowNames := by
  intro name hname
  rcases List.mem_cons.1 hname with rfl | hname
  · exact List.mem_cons_self ..
  · obtain ⟨join, hjoin, rfl⟩ := List.mem_map.1 hname
    exact mem_rowNames_of_join (h hjoin)

/-- The condition of a query is the conjunction of its anchors and of the conditions of its
parts, if it has one. -/
theorem toQuery_predicate {parts : Parts} {anchors : List Predicate} {predicate : Predicate}
    (h : (parts.toQuery row anchors).predicate? = some predicate) :
    predicate = Predicate.combine .and (anchors ++ parts.conditions) := by
  simp only [Parts.toQuery, Option.filter_eq_some_iff, Option.some.injEq] at h
  exact h.1.symm

/-- Everything that the parts of a connection put into its condition: what binds a joined row, what
the filter asks for, and what the scope asks for. -/
theorem Parts.mem_conditions_cases {parts : Parts} {p : Predicate} (hp : p ∈ parts.conditions) :
    (∃ join ∈ parts.joins, p ∈ join.conditions) ∨
      (∃ filter, parts.filter? = some filter ∧ p = filter.predicate) ∨ parts.scope? = some p := by
  have hjoins : ∀ {joins : List Join}, p ∈ joinConditions joins →
      ∃ join ∈ joins, p ∈ join.conditions :=
    fun hp => List.mem_flatMap.1 (mem_of_mem_eraseDups hp)
  simp only [Parts.conditions, List.mem_append] at hp
  simp only [Parts.joins, List.mem_append]
  rcases hp with ((hp | hp) | hp) | hp
  · cases hfilter : parts.filter? with
    | none =>
      rw [hfilter] at hp
      cases hp
    | some filter =>
      rw [hfilter] at hp
      rcases List.mem_append.1 hp with hp | hp
      · obtain ⟨join, hjoin, hp⟩ := hjoins hp
        exact .inl ⟨join, .inl (.inl hjoin), hp⟩
      · unfold RowFilter.condition at hp
        split at hp
        · cases hp
        · exact .inr (.inl ⟨filter, rfl, List.mem_singleton.1 hp⟩)
  · exact .inr (.inr (Option.mem_toList.1 hp))
  · obtain ⟨order, horder, hp⟩ := List.mem_flatMap.1 hp
    obtain ⟨join, hjoin, hp⟩ := hjoins hp
    exact .inl ⟨join, .inl (.inr (List.mem_flatMap.2 ⟨order, horder, hjoin⟩)), hp⟩
  · obtain ⟨join, hjoin, hp⟩ := hjoins hp
    exact .inl ⟨join, .inr hjoin, hp⟩

/-- The joins of a connection start at its row. -/
theorem Parts.Of.chained {field : Field} {below : List Selection} {parts : Parts}
    (h : parts.Of context row field below) : Chained [row.name] parts.joins := by
  obtain ⟨node, -, hselects⟩ := h.selected
  have hfilter : Chained [row.name] ((parts.filter?.map (·.joins)).getD []) := by
    cases hfilter : parts.filter? with
    | none => trivial
    | some filter => exact (whereArgument_scoped (hfilter ▸ h.filter)).joins
  have horders : Chained [row.name] (parts.orders.flatMap (·.joins)) :=
    Chained.flatMap fun order horder => by
      obtain ⟨entries, hentries⟩ := orderByArgument_ok h.orders horder
      exact hentries.scoped.1
  exact (hfilter.append horders).append hselects.scoped.1

/-- What the parts of a connection put into its condition reads the rows of the connection. -/
theorem Parts.Of.conditions_readWithin {field : Field} {below : List Selection} {parts : Parts}
    (h : parts.Of context row field below) {anchors : List Predicate} {p : Predicate}
    (hp : p ∈ parts.conditions) : p.ReadsWithin (parts.toQuery row anchors).rowNames := by
  rcases Parts.mem_conditions_cases hp with ⟨join, hjoin, hp⟩ | ⟨filter, hfilter, rfl⟩ | hscope
  · exact (h.chained.readsWithin hjoin hp).mono (namesWith_subset_rowNames fun _ hjoin => hjoin)
  · refine (whereArgument_scoped (hfilter ▸ h.filter)).predicate.mono
      (namesWith_subset_rowNames fun join hjoin => ?_)
    simp only [Parts.joins, hfilter, Option.map_some, Option.getD_some, List.mem_append]
    exact .inl (.inl hjoin)
  · exact scopeArgument_readsWithin (hscope ▸ h.scope) (List.mem_cons_self ..)

/-- A connection whose anchors read its row and the rows around it is well scoped. -/
theorem recordQuery_wellScoped {anchors : List Predicate} {field : Field}
    {below : List Selection} {query : RecordQuery} {enclosing : List RecordQuery}
    (h : recordQuery context row anchors field below = .ok query)
    (hanchors : ∀ p ∈ anchors,
      p.ReadsWithin (row.name :: enclosing.flatMap RecordQuery.rowNames)) :
    query.WellScoped enclosing := by
  obtain ⟨parts, hparts, rfl⟩ := recordQuery_ok h
  obtain ⟨node, -, hselects⟩ := hparts.selected
  refine ⟨fun path extract hfield => ?_, fun key hkey => ?_, fun predicate hpredicate => ?_⟩
  · exact (hselects.scoped.2 path extract hfield).mono
      (namesWith_subset_rowNames fun join hjoin => List.mem_append_right _ hjoin)
  · obtain ⟨order, horder, rfl⟩ := List.mem_map.1 hkey
    obtain ⟨entries, horders⟩ := orderByArgument_ok hparts.orders horder
    refine horders.scoped.2.mono (namesWith_subset_rowNames fun join hjoin => ?_)
    simp only [Parts.joins, List.mem_append]
    exact .inl (.inr (List.mem_flatMap.2 ⟨order, horder, hjoin⟩))
  · rw [toQuery_predicate hpredicate]
    refine Predicate.readsWithin_combine fun p hp => ?_
    rcases List.mem_append.1 hp with hp | hp
    · refine (hanchors p hp).mono fun name hname => ?_
      rcases List.mem_cons.1 hname with rfl | hname
      · exact List.mem_append_left _ (List.mem_cons_self ..)
      · exact List.mem_append_right _ hname
    · exact (hparts.conditions_readWithin hp).mono (List.subset_append_left _ _)

/-- The anchors of a connection read its own row and the row that it hangs from. -/
theorem Origin.anchors_readWithin {origin : Origin} {enclosing : List RecordQuery}
    (h : origin.HangsFrom enclosing) (head : Field) : ∀ p ∈ origin.anchors head,
      p.ReadsWithin ((origin.row head).name :: enclosing.flatMap RecordQuery.rowNames) := by
  intro p hp
  cases origin with
  | document =>
    rw [List.mem_singleton.1 hp]
    exact Predicate.readsWithin_hasType (List.mem_cons_self ..)
  | record parent relationship =>
    obtain ⟨outer, rest, rfl, hparent⟩ := h
    simp only [Origin.anchors, childAnchors, List.mem_cons, List.not_mem_nil, or_false] at hp
    rcases hp with rfl | rfl
    · refine Predicate.readsWithin_refersTo (List.mem_cons_self ..) (List.mem_cons_of_mem _ ?_)
      rw [List.flatMap_cons]
      exact List.mem_append_left _ hparent
    · exact Predicate.readsWithin_hasType (List.mem_cons_self ..)

/-- **Every query of a result is well scoped, at any depth.** -/
theorem transform_wellScoped {queries enclosing : List RecordQuery} {query : RecordQuery}
    (h : transform context document = .ok queries) (hquery : Occurs queries enclosing query) :
    query.WellScoped enclosing := by
  obtain ⟨origin, head, below, -, hok, hhangs⟩ := connection_of_occurs h hquery
  exact recordQuery_wellScoped hok (origin.anchors_readWithin hhangs head)

theorem visits_wellScoped : transform jobsContext jobsDocument = .ok [jobsQuery] ∧
    Occurs [jobsQuery] [jobsQuery] visitsQuery ∧ visitsQuery.WellScoped [jobsQuery] :=
  ⟨transform_jobs, occurs_visits, transform_wellScoped transform_jobs occurs_visits⟩

end SoupQuery.Compile
