import SoupQuery.Proofs.Equality

/-!
# Sets

What `in` on one field says of the stored value.

* `literalCell`, `setKind` — the value of the literal of an item, and the kind as which the items of
  a set are compared.
* `IsEquality`, `SetAgrees` — the equalities with the items of a set, and that they say the same.
* `SameInSet` — a value that is compared in a set as it is alone.
* `whereArgument_oneOf` — **`in` is the disjunction of `eq`, exactly for such values.**
* `oneOf_differs` — a set of a day differs from the day, and a set of integers takes a double.
-/

namespace SoupQuery.Compile

open SoupQuery.Decimal SoupQuery.GraphQL

variable {schema : Schema} {row : Row} {key name : String} {field : FieldInfo} {kind : FilterKind}
  {left literal : Expression} {value : Value} {p : Predicate}

/-! ## Literals of sets -/

theorem cell_fieldValue (row : Row) (name : String) (cell : Cell) :
    (fieldValue row name).cell (fun _ _ => cell) = cell := rfl

/-- The value of the literal of a value. -/
def literalCell (kind : FilterKind) (value : Value) : Cell :=
  (scalarLiteral? kind value).elim .null (Expression.cell fun _ _ => .null)

/-- The kind as which the values of a set are compared: all numbers are doubles. -/
def setKind : FilterKind → FilterKind
  | .int => .double
  | kind => kind

/-- A value is compared in a set as it is alone: it asks for no day, and if it is an integer for an
integer field, a double has its value. -/
def SameInSet (kind : FilterKind) (value : Value) : Prop :=
  ¬ AsksForDay kind value ∧
    (kind = .int → ∀ n, intValue? value = some n → ∃ d : Binary64, d.value? = some (n : Rat))

theorem cell_scalarLiteral? (hliteral : scalarLiteral? kind value = some literal) (rows : Rows) :
    literal.cell rows = literalCell kind value := by
  rw [literalCell, hliteral, Option.elim_some]
  cases kind <;> obtain ⟨_, -, rfl⟩ := Option.map_eq_some_iff.1 hliteral <;> rfl

theorem cells_listLiteral? {items : List Value} (hliteral : listLiteral? kind items = some literal)
    (rows : Rows) : literal.cells rows = items.map (literalCell (setKind kind)) := by
  have hnumber : ∀ item d, doubleValue? item = some d →
      (Expression.double d).cell rows = literalCell .double item := by
    intro item d hd
    exact cell_scalarLiteral? (by rw [scalarLiteral?, hd]; rfl) rows
  have htext : kind.isTextual = true → ∀ item text, textValue? item = some text →
      (Expression.string text).cell rows = literalCell (setKind kind) item := by
    intro hkind item text ht
    cases item <;> cases ht
    cases kind <;> cases hkind <;> rfl
  cases kind with
  | boolean => cases hliteral
  | int =>
    obtain ⟨ds, hds, rfl⟩ := Option.map_eq_some_iff.1 hliteral
    rw [Expression.cells, Expression.items, List.map_map]
    exact map_eq_map_of_mapM hnumber hds
  | double =>
    obtain ⟨ds, hds, rfl⟩ := Option.map_eq_some_iff.1 hliteral
    rw [Expression.cells, Expression.items, List.map_map]
    exact map_eq_map_of_mapM hnumber hds
  | _ =>
    obtain ⟨texts, htexts, rfl⟩ := Option.map_eq_some_iff.1 hliteral
    rw [Expression.cells, Expression.items, List.map_map]
    exact map_eq_map_of_mapM (htext rfl) htexts

theorem isSome_listLiteral?_setKind {items : List Value} (hkind : kind ≠ .boolean) :
    (listLiteral? kind items).isSome = items.all (fits (setKind kind)) := by
  rw [isSome_listLiteral?]
  cases kind <;> simp_all [FilterKind.isTextual, setKind]

/-- A set is compiled if its items have literals. -/
theorem comparison_oneOf {items : List Value} (hkind : kind ≠ .boolean) :
    comparison name kind left (ComparisonOperator.oneOf.name, .list items) = .ok p ↔
      ∃ literal, listLiteral? kind items = some literal ∧ .comparison left .oneOf literal = p := by
  have hallowed : isAllowed .oneOf kind = true := by cases kind <;> first | rfl | contradiction
  have hcondition : ∀ literal,
      literalCondition left .oneOf literal = .comparison left .oneOf literal := by
    intro literal
    cases literal <;> simp [literalCondition]
  rw [comparison_eq_ok (by simp) hallowed]
  simp only [operandLiteral?, ComparisonOperator.isSet, if_true, hcondition]

theorem eval_oneOf {items : List Value} (hliteral : listLiteral? kind items = some literal)
    (soup : Soup) (rows : Rows) :
    (Predicate.comparison left .oneOf literal).eval soup rows =
      .joined .or (items.map fun item =>
        (left.cell rows).compare Ordering.isEq (literalCell (setKind kind) item)) := by
  rw [Predicate.eval]
  change Truth.joined .or ((literal.cells rows).map _) = _
  rw [cells_listLiteral? hliteral, List.map_map]
  rfl

/-- The filter of an equality with a value that is not null. -/
def IsEquality (kind : FilterKind) (left : Expression) (value : Value) (filter : RowFilter) :
    Prop :=
  ∃ literal, scalarLiteral? kind value = some literal ∧
    filter = .single (literalCondition left .eq literal)

/-- An equality that asks for no day compares with the value of the literal. -/
theorem IsEquality.eval {filter : RowFilter} (h : IsEquality kind left value filter)
    (hday : ¬ AsksForDay kind value) (soup : Soup) (rows : Rows) :
    filter.predicate.eval soup rows =
      (left.cell rows).compare Ordering.isEq (literalCell kind value) := by
  obtain ⟨literal, hliteral, rfl⟩ := h
  rw [RowFilter.eval_single, literalCondition_eq hliteral hday, eval_eq,
    cell_scalarLiteral? hliteral]

/-- An integer that is the value of a double has the same value as a double. -/
theorem literalCell_setKind (hfits : (scalarLiteral? kind value).isSome = true)
    (h : SameInSet kind value) : literalCell (setKind kind) value = literalCell kind value := by
  cases kind with
  | int =>
    rw [scalarLiteral?, Option.isSome_map] at hfits
    obtain ⟨n, hn⟩ := Option.isSome_iff_exists.1 hfits
    obtain ⟨other, hother⟩ := h.2 rfl n hn
    obtain ⟨d, hd, hexact⟩ := doubleValue?_of_intValue? hn
    simp [literalCell, setKind, scalarLiteral?, hn, hd, Expression.cell, hexact other hother]
  | _ => rfl

theorem exists_value?_of_literalCell {number : Rat}
    (h : literalCell .double value = .number number) : ∃ d : Binary64, d.value? = some number := by
  rw [literalCell, scalarLiteral?] at h
  cases hdouble : doubleValue? value with
  | none =>
    rw [hdouble] at h
    cases h
  | some d =>
    rw [hdouble] at h
    cases hd : d.value? with
    | none => simp [Expression.cell, hd] at h
    | some number' =>
      refine ⟨d, ?_⟩
      simpa [Expression.cell, hd] using h

/-- At the text of a day, no equality holds that could be a part of the set. -/
theorem IsEquality.eval_day_ne_holds {filter : RowFilter} {soup : Soup} {rows : Rows} {day : String}
    (h : IsEquality .dateTime left value filter) (hleft : left.cell rows = .text day)
    (hday : isDateOnly day = true) : filter.predicate.eval soup rows ≠ .holds := by
  intro hholds
  by_cases hasks : AsksForDay .dateTime value
  · obtain ⟨literal, hliteral, rfl⟩ := h
    obtain ⟨day', rfl, hday'⟩ := (asksForDay_iff hliteral).1 hasks
    rw [RowFilter.eval_single] at hholds
    simp only [literalCondition, hday', and_self, if_true] at hholds
    exact eval_timeOfDay_ne_holds hleft hday hday' hholds
  · rw [h.eval hasks, hleft, Cell.compare_isEq_eq_holds] at hholds
    -- the value is the text of the day, so that it asks for the day
    obtain ⟨literal, hliteral, -⟩ := h
    obtain ⟨text, htext, rfl⟩ := Option.map_eq_some_iff.1 hliteral
    rw [← cell_scalarLiteral? hliteral rows, Expression.cell, Cell.text.injEq] at hholds
    obtain rfl := hholds.1
    exact hasks ((asksForDay_iff hliteral).2 ⟨day, rfl, hday⟩)

/-! ## Sets and disjunctions -/

section

variable {items : List Value} (hkey : key ∉ ["and", "or", "not"])
  (hmember : schema.member? row.type key = some (.value field))

include hkey hmember

theorem filterObject_eq_iff (hvalue : value ≠ .null) {filter : RowFilter} :
    filterObject schema row (comparing key .eq value) = .ok filter ↔
      IsEquality field.filterKind (fieldValue row field.apiName) value filter := by
  rw [filterObject_comparing hkey hmember]
  simp only [comparison_scalar (.inl rfl) hvalue]
  constructor
  · rintro ⟨_, ⟨literal, hliteral, rfl⟩, rfl⟩
    exact ⟨literal, hliteral, rfl⟩
  · rintro ⟨literal, hliteral, rfl⟩
    exact ⟨_, ⟨literal, hliteral, rfl⟩, rfl⟩

theorem accepts_eq_iff (hvalue : value ≠ .null) :
    Accepts schema row (.object (comparing key .eq value)) ↔
      fits field.filterKind value = true := by
  rw [accepts_comparing hkey hmember, exists_comparison_scalar (.inl rfl)]
  exact or_iff_right hvalue

theorem accepts_oneOf_iff (hkind : field.filterKind ≠ .boolean) :
    Accepts schema row (.object (comparing key .oneOf (.list items))) ↔
      ∀ item ∈ items, fits (setKind field.filterKind) item = true := by
  rw [accepts_comparing hkey hmember, ← List.all_eq_true, ← isSome_listLiteral?_setKind hkind,
    Option.isSome_iff_exists]
  simp only [comparison_oneOf hkind]
  constructor
  · rintro ⟨_, literal, hliteral, -⟩
    exact ⟨literal, hliteral⟩
  · rintro ⟨literal, hliteral⟩
    exact ⟨_, literal, hliteral, rfl⟩

/-- The disjunction of equalities is compiled if all of them are. -/
theorem whereArgument_equalities (hnull : .null ∉ items) {filter : RowFilter} :
    whereArgument schema row (some (disjunction (items.map (comparing key .eq)))) =
        .ok (some filter) ↔
      ∃ filters, List.Forall₂
          (IsEquality field.filterKind (fieldValue row field.apiName)) items filters ∧
        RowFilter.combine .and [RowFilter.combine .or filters] = filter := by
  have hitems : ∀ item ∈ items, item ≠ .null := by
    rintro _ hitem rfl
    exact hnull hitem
  rw [whereArgument_disjunction]
  refine exists_congr fun filters => and_congr_left fun _ => ?_
  rw [List.map_map, ← List.forall₂_eq_eq_eq, List.forall₂_map_left_iff, List.forall₂_map_right_iff]
  constructor
  · intro h
    exact ((List.forall₂_and_left _ _).2 ⟨hitems, h⟩).imp fun item filter hitem =>
      (filterObject_eq_iff hkey hmember hitem.1).1 hitem.2
  · intro h
    exact ((List.forall₂_and_left _ _).2 ⟨hitems, h⟩).imp fun item filter hitem =>
      (filterObject_eq_iff hkey hmember hitem.1).2 hitem.2

theorem accepts_equalities_iff (hnull : .null ∉ items) :
    Accepts schema row (disjunction (items.map (comparing key .eq))) ↔
      ∀ item ∈ items, fits field.filterKind item = true := by
  unfold Accepts
  simp only [whereArgument_equalities hkey hmember hnull, ← isSome_scalarLiteral?,
    Option.isSome_iff_exists]
  constructor
  · rintro ⟨_, filters, hfilters, -⟩ item hitem
    obtain ⟨filter, -, literal, hliteral, -⟩ := exists_of_forall₂_right hfilters.flip item hitem
    exact ⟨literal, hliteral⟩
  · intro h
    choose! literal hliteral using h
    refine ⟨_, items.map fun item =>
      .single (literalCondition (fieldValue row field.apiName) .eq (literal item)), ?_, rfl⟩
    refine List.forall₂_map_right_iff.2 (List.forall₂_same.2 fun item hitem => ?_)
    exact ⟨literal item, hliteral item hitem, rfl⟩

end

/-- A set and a disjunction of equalities say the same of every stored value. -/
def SetAgrees (kind : FilterKind) (left : Expression) (items : List Value)
    (filters : List RowFilter) : Prop :=
  ∀ soup rows,
    Truth.joined .or (items.map fun item =>
        (left.cell rows).compare Ordering.isEq (literalCell (setKind kind) item)) =
      .joined .or (filters.map fun filter => filter.predicate.eval soup rows)

section

variable {items : List Value} {filters : List RowFilter}

/-- The text of a day is in a set that has the day, and no equality holds of it. -/
theorem SetAgrees.not_asksForDay (h : SetAgrees kind (fieldValue row name) items filters)
    (hfilters : List.Forall₂ (IsEquality kind (fieldValue row name)) items filters) {item : Value}
    (hitem : item ∈ items) : ¬ AsksForDay kind item := by
  rintro ⟨rfl, day, rfl, hday⟩
  have hself : (Cell.text day).compare Ordering.isEq (literalCell .dateTime (.string day)) =
      .holds := Cell.compare_isEq_eq_holds.2 ⟨rfl, Cell.noConfusion⟩
  have hequal := (h .empty fun _ _ => .text day).symm.trans
    (Truth.joined_or_eq_holds.2 (List.mem_map.2 ⟨_, hitem, hself⟩))
  obtain ⟨filter, hfilter, heval⟩ := List.mem_map.1 (Truth.joined_or_eq_holds.1 hequal)
  obtain ⟨_, -, hequality⟩ := exists_of_forall₂_right hfilters filter hfilter
  exact IsEquality.eval_day_ne_holds hequality rfl hday heval

/-- An integer is equal to itself, so that a set that has it has a double of its value. -/
theorem SetAgrees.exists_value? (h : SetAgrees .int (fieldValue row name) items filters)
    (hfilters : List.Forall₂ (IsEquality .int (fieldValue row name)) items filters) {item : Value}
    (hitem : item ∈ items) {n : Int} (hn : intValue? item = some n) :
    ∃ d : Binary64, d.value? = some (n : Rat) := by
  obtain ⟨filter, hfilter, hequality⟩ := exists_of_forall₂_right hfilters.flip item hitem
  have hcell : literalCell .int item = .number n := by
    simp [literalCell, scalarLiteral?, hn, Expression.cell]
  have heval := IsEquality.eval hequality (fun hday => by cases hday.1) .empty
    fun _ _ => .number n
  rw [hcell, cell_fieldValue, Cell.compare_isEq_eq_holds.2 ⟨rfl, Cell.noConfusion⟩] at heval
  have hset := (h .empty fun _ _ => .number n).trans
    (Truth.joined_or_eq_holds.2 (List.mem_map.2 ⟨filter, hfilter, heval⟩))
  obtain ⟨other, -, hother⟩ := List.mem_map.1 (Truth.joined_or_eq_holds.1 hset)
  exact exists_value?_of_literalCell (Cell.compare_isEq_eq_holds.1 hother).1.symm

/-- A set and the equalities with its items say the same of every stored value exactly if each item
is compared in a set as it is alone. -/
theorem setAgrees_iff
    (hfilters : List.Forall₂ (IsEquality kind (fieldValue row name)) items filters) :
    SetAgrees kind (fieldValue row name) items filters ↔ ∀ item ∈ items, SameInSet kind item := by
  constructor
  · intro h item hitem
    refine ⟨h.not_asksForDay hfilters hitem, fun hkind n hn => ?_⟩
    subst hkind
    exact h.exists_value? hfilters hitem hn
  · intro h soup rows
    congr 1
    refine (map_eq_map_of_forall₂ ((List.forall₂_and_left _ _).2 ⟨h, hfilters⟩)
      fun item filter hitem => ?_).symm
    obtain ⟨hsame, hequality⟩ := hitem
    have hfits : (scalarLiteral? kind item).isSome = true := by
      obtain ⟨literal, hliteral, -⟩ := hequality
      rw [hliteral]
      rfl
    rw [hequality.eval hsame.1, literalCell_setKind hfits hsame]

end

theorem fits_setKind (h : fits kind value = true) : fits (setKind kind) value = true := by
  cases kind with
  | int =>
    rw [← isSome_scalarLiteral?, scalarLiteral?, Option.isSome_map] at h
    obtain ⟨n, hn⟩ := Option.isSome_iff_exists.1 h
    obtain ⟨d, hd, -⟩ := doubleValue?_of_intValue? hn
    rw [setKind, ← isSome_doubleValue?, hd]
    rfl
  | _ => exact h

/-- **`in` is the disjunction of `eq`, exactly for the values that are compared in a set as they are
alone**: it takes the lists of the values that `eq` takes, on integers those of doubles, and says
the same of every stored value as the disjunction, provided that no item asks for a day and no item
is an integer that is not the value of a double. -/
theorem whereArgument_oneOf (hkey : key ∉ ["and", "or", "not"])
    (hmember : schema.member? row.type key = some (.value field))
    (hkind : field.filterKind ≠ .boolean) {items : List Value} (hnull : .null ∉ items) :
    (field.filterKind ≠ .int →
      (Accepts schema row (.object (comparing key .oneOf (.list items))) ↔
        ∀ item ∈ items, Accepts schema row (.object (comparing key .eq item)))) ∧
    (field.filterKind = .int →
      (Accepts schema row (.object (comparing key .oneOf (.list items))) ↔
        ∀ item ∈ items, (doubleValue? item).isSome = true)) ∧
    ((∀ item ∈ items, Accepts schema row (.object (comparing key .eq item))) →
      Accepts schema row (.object (comparing key .oneOf (.list items))) ∧
      Accepts schema row (disjunction (items.map (comparing key .eq)))) ∧
    ∀ one any,
      whereArgument schema row (some (.object (comparing key .oneOf (.list items)))) =
        .ok (some one) →
      whereArgument schema row (some (disjunction (items.map (comparing key .eq)))) =
        .ok (some any) →
      ((∀ soup rows, one.predicate.eval soup rows = any.predicate.eval soup rows) ↔
        ∀ item ∈ items, SameInSet field.filterKind item) := by
  have hequal : ∀ item ∈ items, (Accepts schema row (.object (comparing key .eq item)) ↔
      fits field.filterKind item = true) := by
    intro item hitem
    exact accepts_eq_iff hkey hmember (by rintro rfl; exact hnull hitem)
  rw [forall₂_congr hequal, accepts_oneOf_iff hkey hmember hkind,
    accepts_equalities_iff hkey hmember hnull]
  refine ⟨fun hint => ?_, fun hint => ?_,
    fun h => ⟨fun item hitem => fits_setKind (h item hitem), h⟩, fun one any hone hany => ?_⟩
  · have hsame : setKind field.filterKind = field.filterKind := by
      cases hcase : field.filterKind <;> first | rfl | exact absurd hcase hint
    rw [hsame]
  · simp only [hint, setKind, isSome_doubleValue?]
  · obtain ⟨p, hp, rfl⟩ := (whereArgument_comparing hkey hmember).1 hone
    obtain ⟨literal, hliteral, rfl⟩ := (comparison_oneOf hkind).1 hp
    obtain ⟨filters, hfilters, rfl⟩ := (whereArgument_equalities hkey hmember hnull).1 hany
    rw [← setAgrees_iff hfilters]
    simp only [RowFilter.eval_single, RowFilter.eval_disjunction, eval_oneOf hliteral, SetAgrees]

/-- One guest or two, the second number written as a text. -/
theorem oneOrTwoGuests_oneOf :
    ∃ one any,
      whereArgument guestSchema ⟨"v", "Visit"⟩
        (some (.object (comparing "Guests" .oneOf (.list [.int 1, .string " 2"])))) =
          .ok (some one) ∧
      whereArgument guestSchema ⟨"v", "Visit"⟩
        (some (disjunction ([.int 1, .string " 2"].map (comparing "Guests" .eq)))) =
          .ok (some any) ∧
      ∀ soup rows, one.predicate.eval soup rows = any.predicate.eval soup rows := by
  have hmember : guestSchema.member? (Row.mk "v" "Visit").type "Guests" =
      some (.value (.scalar "Guests" .int)) := rfl
  have hnull : .null ∉ [Value.int 1, .string " 2"] := by simp
  have honeOf := whereArgument_oneOf (by decide) hmember (by decide) hnull
  refine ⟨_, _, rfl, rfl, (honeOf.2.2.2 _ _ rfl rfl).2 ?_⟩
  have hsmall : ∀ item ∈ [Value.int 1, .string " 2"], ∀ n, intValue? item = some n →
      n.natAbs ≤ 2 ^ 53 := by
    intro item hitem n hn
    rcases List.mem_pair.1 hitem with rfl | rfl <;> cases hn <;> decide
  intro item hitem
  refine ⟨fun hday => ?_, fun _ n hn => ?_⟩
  · cases hday.1
  · exact Binary64.exists_value?_of_natAbs_le (hsmall item hitem n hn)

/-- **A set of a day differs from the day**, as it has the text of the day and not its times, **and
a set of integers takes a double**, that an equality does not take. -/
theorem oneOf_differs :
    (∃ one any,
      whereArgument guestSchema ⟨"v", "Visit"⟩
        (some (.object (comparing "Start" .oneOf (.list [.string "2024-01-01"])))) =
          .ok (some one) ∧
      whereArgument guestSchema ⟨"v", "Visit"⟩
        (some (disjunction ([.string "2024-01-01"].map (comparing "Start" .eq)))) =
          .ok (some any) ∧
      one.predicate.eval .empty (fun _ _ => .text "2024-01-01T10:00:00.000Z") = .fails ∧
      any.predicate.eval .empty (fun _ _ => .text "2024-01-01T10:00:00.000Z") = .holds) ∧
    Accepts guestSchema ⟨"v", "Visit"⟩
      (.object (comparing "Guests" .oneOf (.list [.float (.ofDecimal false 15 (-1))]))) ∧
    ¬ Accepts guestSchema ⟨"v", "Visit"⟩
      (.object (comparing "Guests" .eq (.float (.ofDecimal false 15 (-1))))) := by
  refine ⟨⟨_, _, rfl, rfl, by decide, by decide⟩, ⟨_, rfl⟩, ?_⟩
  rintro ⟨_, h⟩
  cases h

end SoupQuery.Compile
