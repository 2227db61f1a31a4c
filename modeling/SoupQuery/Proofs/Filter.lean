import Mathlib.Data.List.Forall2
import SoupQuery.Compile.Filter
import SoupQuery.Proofs.Checked

/-!
# How filters compile

Everything that a compiled filter can be, as an induction principle: a property of filters that
each form of entry preserves holds of every filter that compiles.

* `IsComparison` — everything that the comparison of a field can be.
* `FilterInvariant` — a property of objects and one of entries, with one condition for each form.
* `FilterInvariant.filterObject` — the induction.
* `whereArgument_disjunction` — a disjunction compiles if all its objects do.
* `filterEntry_reports`, `whereArgument_reports` — a filter never fails without a reason.
-/

namespace SoupQuery.Compile

open SoupQuery.GraphQL

variable {schema : Schema} {row : Row}

/-! ## Failures name a reason -/

theorem valueComparison_reports (field : String) (kind : FilterKind) (left : Expression)
    (op : ComparisonOperator) (value : Value) :
    (valueComparison field kind left op value).Reports := by
  unfold valueComparison
  simp only
  split
  · exact Checked.fail_reports _
  · split <;> exact Checked.ok_reports _
  · exact Checked.ok_reports _

theorem comparison_reports (field : String) (kind : FilterKind) (left : Expression)
    (entry : String × Value) : (comparison field kind left entry).Reports := by
  unfold comparison
  split
  · exact Checked.fail_reports _
  · split
    · unfold nullComparison
      split
      · exact Checked.ok_reports _
      · exact Checked.ok_reports _
      · exact Checked.fail_reports _
    · split
      · exact valueComparison_reports _ _ _ _ _
      · exact Checked.fail_reports _

theorem fieldFilter_reports (row : Row) (name : String) (field : FieldInfo) (value : Value) :
    (fieldFilter row name field value).Reports := by
  unfold fieldFilter
  split
  · exact Checked.map_reports (Checked.partition_reports _) _
  · exact Checked.fail_reports _

theorem gatherFilters_reports (op : Connective) (filters : List (Compiled RowFilter)) :
    (gatherFilters op filters).Reports :=
  Checked.map_reports (Checked.partition_reports _) _

theorem filterEntry_reports (schema : Schema) (row : Row) (key : String) (value : Value) :
    (filterEntry schema row key value).Reports := by
  unfold filterEntry
  split
  · split
    · exact gatherFilters_reports _ _
    · exact Checked.fail_reports _
  · split
    · exact Checked.map_reports (gatherFilters_reports _ _) _
    · exact Checked.fail_reports _
  · split
    · exact Checked.fail_reports _
    · exact fieldFilter_reports _ _ _ _
    · split
      · split
        · exact Checked.map_reports (gatherFilters_reports _ _) _
        · exact Checked.fail_reports _
      · exact Checked.fail_reports _

theorem filterEntries_reports (schema : Schema) (row : Row) :
    ∀ entries, ∀ result ∈ filterEntries schema row entries, result.Reports
  | [], result, h => by simp [filterEntries] at h
  | (key, value) :: rest, result, h => by
    rw [filterEntries, List.mem_cons] at h
    rcases h with rfl | h
    · exact filterEntry_reports _ _ _ _
    · exact filterEntries_reports schema row rest result h

theorem filterItems_reports (schema : Schema) (row : Row) (op : Connective) :
    ∀ items, ∀ result ∈ filterItems schema row op items, result.Reports := by
  intro items
  induction items with
  | nil =>
    intro result h
    simp [filterItems] at h
  | cons item items ih =>
    intro result h
    unfold filterItems at h
    split at h
    · rename_i heq; cases heq
    · rename_i heq
      cases heq
      rcases List.mem_cons.1 h with rfl | h
      · exact gatherFilters_reports _ _
      · exact ih result h
    · rename_i heq
      cases heq
      rcases List.mem_cons.1 h with rfl | h
      · exact Checked.fail_reports _
      · exact ih result h

theorem whereArgument_reports (schema : Schema) (row : Row) (value? : Option Value) :
    (whereArgument schema row value?).Reports := by
  unfold whereArgument
  split
  · exact Checked.ok_reports _
  · exact Checked.map_reports (gatherFilters_reports _ _) _
  · exact Checked.fail_reports _

/-- The `where` argument is compiled if it is an object. -/
theorem whereArgument_eq_ok {value : Value} {filter? : Option RowFilter} :
    whereArgument schema row (some value) = .ok filter? ↔ ∃ entries filter,
      value = .object entries ∧ filter? = some filter ∧
      filterObject schema row entries = .ok filter := by
  cases value with
  | object entries =>
    rw [whereArgument, Checked.map_eq_ok]
    constructor
    · rintro ⟨filter, hfilter, rfl⟩
      exact ⟨entries, filter, rfl, rfl, hfilter⟩
    · rintro ⟨_, filter, heq, rfl, hfilter⟩
      cases heq
      exact ⟨filter, hfilter, rfl⟩
  | _ =>
    constructor
    · intro h
      cases h
    · rintro ⟨_, _, heq, _⟩
      cases heq

/-! ## The forms of a comparison -/

/-- Everything that a comparison can be: a test for null, the times of a day, or the left operand
against the literal of a value or of a list. -/
inductive IsComparison (kind : FilterKind) (left : Expression) : Predicate → Prop
  | isNull : IsComparison kind left (.isNull left)
  | isNotNull : IsComparison kind left (.isNotNull left)
  | day {start stop} : IsComparison kind left (.between left (.dateTime start) (.dateTime stop))
  | scalar {op value literal} : op.isSet = false → scalarLiteral? kind value = some literal →
      IsComparison kind left (.comparison left op literal)
  | list {op items literal} : op.isSet = true → listLiteral? kind items = some literal →
      IsComparison kind left (.comparison left op literal)

theorem valueComparison_ok {field : String} {kind : FilterKind} {left : Expression}
    {op : ComparisonOperator} {value : Value} {predicate : Predicate}
    (h : valueComparison field kind left op value = .ok predicate) :
    IsComparison kind left predicate := by
  unfold valueComparison at h
  extract_lets literal? at h
  -- the literal is that of the value or of the list, whichever the operator takes
  have hform : ∀ literal, literal? = some literal →
      IsComparison kind left (.comparison left op literal) := by
    intro literal hliteral
    unfold literal? at hliteral
    split at hliteral
    · split at hliteral
      · rename_i hset
        exact .list hset hliteral
      · cases hliteral
    · split at hliteral
      · cases hliteral
      · rename_i hset
        exact .scalar (by simpa using hset) hliteral
  clear_value literal?
  split at h
  · cases h
  · split at h
    · cases h
      exact .day
    · cases h
      exact hform _ rfl
  · cases h
    exact hform _ rfl

theorem comparison_ok {field : String} {kind : FilterKind} {left : Expression}
    {entry : String × Value} {predicate : Predicate}
    (h : comparison field kind left entry = .ok predicate) : IsComparison kind left predicate := by
  unfold comparison at h
  split at h
  · cases h
  · split at h
    · unfold nullComparison at h
      split at h
      · cases h
        exact .isNull
      · cases h
        exact .isNotNull
      · cases h
    · split at h
      · exact valueComparison_ok h
      · cases h

/-! ## The forms of a filter -/

theorem gatherFilters_eq_ok {op : Connective} {results : List (Compiled RowFilter)}
    {filter : RowFilter} (hreports : ∀ result ∈ results, result.Reports) :
    gatherFilters op results = .ok filter ↔
      ∃ filters, results = filters.map .ok ∧ RowFilter.combine op filters = filter := by
  unfold gatherFilters
  rw [Checked.map_eq_ok]
  simp only [Checked.partition_eq_ok hreports]

/-- The items of a connective that are objects. -/
theorem filterItems_objects (op : Connective) (objects : List (List (String × Value))) :
    filterItems schema row op (objects.map .object) = objects.map (filterObject schema row) := by
  induction objects with
  | nil => rfl
  | cons object objects ih => rw [List.map_cons, filterItems, ih, List.map_cons, filterObject]

/-- An object of one entry compiles if the entry does. -/
theorem filterObject_singleton {key : String} {value : Value} {filter : RowFilter} :
    filterObject schema row [(key, value)] = .ok filter ↔
      ∃ inner, filterEntry schema row key value = .ok inner ∧
        RowFilter.combine .and [inner] = filter := by
  rw [filterObject, gatherFilters_eq_ok (filterEntries_reports schema row _), filterEntries,
    filterEntries]
  constructor
  · rintro ⟨filters, hfilters, rfl⟩
    obtain ⟨inner, rfl, hinner⟩ := List.map_eq_singleton_iff.1 hfilters.symm
    exact ⟨inner, hinner.symm, rfl⟩
  · rintro ⟨inner, hinner, rfl⟩
    exact ⟨[inner], by rw [hinner, List.map_singleton], rfl⟩

/-- The disjunction of several objects. -/
def disjunction (objects : List (List (String × Value))) : Value :=
  .object [("or", .list (objects.map .object))]

/-- A disjunction compiles if all its objects do. -/
theorem whereArgument_disjunction {objects : List (List (String × Value))} {filter : RowFilter} :
    whereArgument schema row (some (disjunction objects)) = .ok (some filter) ↔
      ∃ filters, objects.map (filterObject schema row) = filters.map .ok ∧
        RowFilter.combine .and [RowFilter.combine .or filters] = filter := by
  have hentry : ∀ inner, filterEntry schema row "or" (.list (objects.map .object)) = .ok inner ↔
      ∃ filters, objects.map (filterObject schema row) = filters.map .ok ∧
        RowFilter.combine .or filters = inner := by
    intro inner
    rw [← filterItems_objects .or,
      ← gatherFilters_eq_ok (filterItems_reports schema row .or _)]
    unfold filterEntry
    rfl
  have hobject : whereArgument schema row (some (disjunction objects)) = .ok (some filter) ↔
      filterObject schema row [("or", .list (objects.map .object))] = .ok filter := by
    rw [disjunction, whereArgument, Checked.map_eq_ok]
    simp
  rw [hobject, filterObject_singleton]
  simp only [hentry]
  constructor
  · rintro ⟨_, ⟨filters, hfilters, rfl⟩, rfl⟩
    exact ⟨filters, hfilters, rfl⟩
  · rintro ⟨filters, hfilters, rfl⟩
    exact ⟨_, ⟨filters, hfilters, rfl⟩, rfl⟩

/-- The comparisons of a field filter, one for each of its operators. -/
def Compares (row : Row) (name : String) (field : FieldInfo) (operators : List (String × Value))
    (predicates : List Predicate) : Prop :=
  List.Forall₂ (fun entry predicate =>
    comparison name field.filterKind (fieldValue row field.apiName) entry = .ok predicate)
    operators predicates

theorem forall₂_of_map_eq_map_ok {α β : Type} {f : α → Compiled β} :
    ∀ {xs : List α} {ys : List β}, xs.map f = ys.map .ok →
      List.Forall₂ (fun x y => f x = .ok y) xs ys
  | [], [], _ => .nil
  | [], _ :: _, h => by simp at h
  | _ :: _, [], h => by simp at h
  | x :: xs, y :: ys, h => by
    simp only [List.map_cons, List.cons.injEq] at h
    exact .cons h.1 (forall₂_of_map_eq_map_ok h.2)

/-- The values of a partition belong to the items one by one. -/
theorem forall₂_of_partition {α β : Type} {f : α → Compiled β} (hf : ∀ x, (f x).Reports)
    {xs : List α} {ys : List β} (h : Checked.partition (xs.map f) = .ok ys) :
    List.Forall₂ (fun x y => f x = .ok y) xs ys :=
  forall₂_of_map_eq_map_ok ((Checked.partition_map_eq_ok hf).1 h)

theorem exists_of_forall₂_right {α β : Type} {R : α → β → Prop} {xs : List α} {ys : List β}
    (h : List.Forall₂ R xs ys) : ∀ y ∈ ys, ∃ x ∈ xs, R x y := by
  induction h with
  | nil => intro y hy; cases hy
  | cons hxy _ ih =>
    intro y hy
    rcases List.mem_cons.1 hy with rfl | hy
    · exact ⟨_, List.mem_cons_self .., hxy⟩
    · obtain ⟨x, hx, hR⟩ := ih y hy
      exact ⟨x, List.mem_cons_of_mem _ hx, hR⟩

theorem forall_of_forall₂_right {α β : Type} {R : α → β → Prop} {P : β → Prop} {xs : List α}
    {ys : List β} (h : List.Forall₂ R xs ys) (hP : ∀ x y, R x y → P y) : ∀ y ∈ ys, P y := by
  intro y hy
  obtain ⟨x, -, hxy⟩ := exists_of_forall₂_right h y hy
  exact hP x y hxy

theorem fieldFilter_ok {name : String} {field : FieldInfo} {value : Value} {filter : RowFilter}
    (h : fieldFilter row name field value = .ok filter) :
    ∃ operators predicates, value = .object operators ∧
      Compares row name field operators predicates ∧
      filter = ⟨Predicate.combine .and predicates, []⟩ := by
  unfold fieldFilter at h
  split at h
  · rename_i operators
    obtain ⟨predicates, hp, rfl⟩ := Checked.map_eq_ok.1 h
    exact ⟨operators, predicates, rfl, forall₂_of_partition (comparison_reports _ _ _) hp, rfl⟩
  · cases h

/-- The entries that compile are lists and objects. -/
theorem filterEntry_ok_shape {key : String} {value : Value} {filter : RowFilter}
    (h : filterEntry schema row key value = .ok filter) :
    (∃ items, value = .list items) ∨ ∃ entries, value = .object entries := by
  unfold filterEntry at h
  split at h
  · split at h
    · exact .inl ⟨_, rfl⟩
    · cases h
  · split at h
    · exact .inr ⟨_, rfl⟩
    · cases h
  · split at h
    · cases h
    · obtain ⟨operators, -, rfl, -, -⟩ := fieldFilter_ok h
      exact .inr ⟨operators, rfl⟩
    · split at h
      · exact .inr ⟨_, rfl⟩
      · cases h

theorem filterEntry_list_ok {key : String} {items : List Value} {filter : RowFilter}
    (h : filterEntry schema row key (.list items) = .ok filter) :
    ∃ op filters, FilterKey.ofName key = .connective op ∧
      filterItems schema row op items = filters.map .ok ∧
      filter = RowFilter.combine op filters := by
  unfold filterEntry at h
  split at h
  · rename_i op hkey
    obtain ⟨filters, hitems, rfl⟩ :=
      (gatherFilters_eq_ok (filterItems_reports schema row op items)).1 h
    exact ⟨op, filters, hkey, hitems, rfl⟩
  · cases h
  · split at h
    · cases h
    · cases h
    · cases h

theorem filterEntry_object_ok {key : String} {entries : List (String × Value)}
    {filter : RowFilter} (h : filterEntry schema row key (.object entries) = .ok filter) :
    (∃ filters, FilterKey.ofName key = .negation ∧
      filterEntries schema row entries = filters.map .ok ∧
      filter = (RowFilter.combine .and filters).negate) ∨
    (∃ field predicates, FilterKey.ofName key = .member ∧
      schema.member? row.type key = some (.value field) ∧
      Compares row key field entries predicates ∧
      filter = ⟨Predicate.combine .and predicates, []⟩) ∨
    (∃ reference filters, FilterKey.ofName key = .member ∧
      schema.member? row.type key = some (.record reference) ∧
      schema.knows reference.target = true ∧
      filterEntries schema (row.join reference).row entries = filters.map .ok ∧
      filter = (RowFilter.combine .and filters).through (row.join reference)) := by
  unfold filterEntry at h
  split at h
  · cases h
  · rename_i hkey
    obtain ⟨inner, hinner, rfl⟩ := Checked.map_eq_ok.1 h
    obtain ⟨filters, hentries, rfl⟩ :=
      (gatherFilters_eq_ok (filterEntries_reports schema row entries)).1 hinner
    exact .inl ⟨filters, hkey, hentries, rfl⟩
  · rename_i hkey
    split at h
    · cases h
    · rename_i field hmember
      obtain ⟨operators, predicates, hvalue, hcompares, rfl⟩ := fieldFilter_ok h
      cases hvalue
      exact .inr (.inl ⟨field, predicates, hkey, hmember, hcompares, rfl⟩)
    · rename_i reference hmember
      simp only at h
      split at h
      · rename_i hknows
        obtain ⟨inner, hinner, rfl⟩ := Checked.map_eq_ok.1 h
        obtain ⟨filters, hentries, rfl⟩ :=
          (gatherFilters_eq_ok (filterEntries_reports schema _ entries)).1 hinner
        exact .inr (.inr ⟨reference, filters, hkey, hmember, hknows, hentries, rfl⟩)
      · cases h

/-- A property of the filters of objects and one of the filters of entries, which all forms of a
filter preserve. -/
structure FilterInvariant (schema : Schema)
    (Object : Row → List (String × Value) → RowFilter → Prop)
    (Entry : Row → String → Value → RowFilter → Prop) : Prop where
  /-- An object is the conjunction of its entries. -/
  object : ∀ {row entries filters},
    List.Forall₂ (fun entry filter => Entry row entry.1 entry.2 filter) entries filters →
      Object row entries (RowFilter.combine .and filters)
  /-- A connective joins the objects of a list. -/
  connective : ∀ {row key op objects filters}, FilterKey.ofName key = .connective op →
    List.Forall₂ (Object row) objects filters →
      Entry row key (.list (objects.map .object)) (RowFilter.combine op filters)
  /-- A negation has one object. -/
  negation : ∀ {row key entries filter}, FilterKey.ofName key = .negation →
    Object row entries filter → Entry row key (.object entries) filter.negate
  /-- A field is compared by each of its operators. -/
  field : ∀ {row key field operators predicates}, FilterKey.ofName key = .member →
    schema.member? row.type key = some (.value field) →
    Compares row key field operators predicates →
      Entry row key (.object operators) ⟨Predicate.combine .and predicates, []⟩
  /-- A reference leads to an object about the record that it names. -/
  record : ∀ {row key reference entries filter}, FilterKey.ofName key = .member →
    schema.member? row.type key = some (.record reference) →
    schema.knows reference.target = true →
    Object (row.join reference).row entries filter →
      Entry row key (.object entries) (filter.through (row.join reference))

namespace FilterInvariant

variable {Object : Row → List (String × Value) → RowFilter → Prop}
  {Entry : Row → String → Value → RowFilter → Prop}

mutual

theorem entry_ok (inv : FilterInvariant schema Object Entry) :
    ∀ (row : Row) (key : String) (value : Value) (filter : RowFilter),
      filterEntry schema row key value = .ok filter → Entry row key value filter
  | row, key, value, filter, h => by
    cases value with
    | list items =>
      obtain ⟨op, filters, hkey, hitems, rfl⟩ := filterEntry_list_ok h
      obtain ⟨objects, rfl, hobjects⟩ := items_ok inv row op items filters hitems
      exact inv.connective hkey hobjects
    | object entries =>
      rcases filterEntry_object_ok h with ⟨filters, hkey, hentries, rfl⟩ |
        ⟨field, predicates, hkey, hmember, hcompares, rfl⟩ |
        ⟨reference, filters, hkey, hmember, hknows, hentries, rfl⟩
      · exact inv.negation hkey (inv.object (entries_ok inv row entries filters hentries))
      · exact inv.field hkey hmember hcompares
      · exact inv.record hkey hmember hknows
          (inv.object (entries_ok inv _ entries filters hentries))
    | _ =>
      rcases filterEntry_ok_shape h with ⟨_, hvalue⟩ | ⟨_, hvalue⟩ <;> cases hvalue

theorem entries_ok (inv : FilterInvariant schema Object Entry) :
    ∀ (row : Row) (entries : List (String × Value)) (filters : List RowFilter),
      filterEntries schema row entries = filters.map .ok →
      List.Forall₂ (fun entry filter => Entry row entry.1 entry.2 filter) entries filters
  | _, [], [], _ => .nil
  | _, [], _ :: _, h => by simp [filterEntries] at h
  | _, _ :: _, [], h => by simp [filterEntries] at h
  | row, (key, value) :: rest, filter :: filters, h => by
    simp only [filterEntries, List.map_cons, List.cons.injEq] at h
    exact .cons (entry_ok inv row key value filter h.1) (entries_ok inv row rest filters h.2)

theorem items_ok (inv : FilterInvariant schema Object Entry) :
    ∀ (row : Row) (op : Connective) (items : List Value) (filters : List RowFilter),
      filterItems schema row op items = filters.map .ok →
      ∃ objects, items = objects.map .object ∧ List.Forall₂ (Object row) objects filters
  | _, _, [], [], _ => ⟨[], rfl, .nil⟩
  | _, _, [], _ :: _, h => by simp [filterItems] at h
  | row, op, item :: rest, filters, h => by
    cases item with
    | object entries =>
      cases filters with
      | nil => simp [filterItems] at h
      | cons filter filters =>
        simp only [filterItems, List.map_cons, List.cons.injEq] at h
        obtain ⟨parts, hentries, rfl⟩ :=
          (gatherFilters_eq_ok (filterEntries_reports schema row entries)).1 h.1
        obtain ⟨objects, rfl, hobjects⟩ := items_ok inv row op rest filters h.2
        exact ⟨entries :: objects, rfl,
          .cons (inv.object (entries_ok inv row entries parts hentries)) hobjects⟩
    | _ =>
      -- no other value is an item
      cases filters <;> simp [filterItems, Checked.fail] at h

end

/-- **Induction over compiled filters.** -/
theorem filterObject (inv : FilterInvariant schema Object Entry)
    {entries : List (String × Value)} {filter : RowFilter}
    (h : Compile.filterObject schema row entries = .ok filter) : Object row entries filter := by
  obtain ⟨filters, hentries, rfl⟩ :=
    (gatherFilters_eq_ok (filterEntries_reports schema row entries)).1 h
  exact inv.object (entries_ok inv row entries filters hentries)

end FilterInvariant

end SoupQuery.Compile
