import SoupQuery.Proofs.Evaluation
import SoupQuery.Proofs.Reading
import SoupQuery.Proofs.WellTyped

/-!
# Equality and its negation

What `eq` and `ne` on one field say of the stored value.

* `Cell.compare_isNe`, `Cell.compare_isEq_eq_holds` — values that are equal, and that are not.
* `comparing`, `Accepts` — the object that asks one thing of one field, and filters that compile.
* `comparison_scalar` — a value that is not null is compared by its literal.
* `AsksForDay`, `timeOfDay` — a calendar day is given for a date-time, and what `eq` makes of it.
* `whereArgument_ne` — **`ne` is the negation of `eq`, exactly if no day is asked for.**
* `tenOClock_eq_and_ne` — a time of a day is both equal and unequal to the day.
-/

namespace SoupQuery

/-! ## Equal values -/

theorem Cell.compare_isNe (left right : Cell) :
    left.compare Ordering.isNe right = (left.compare Ordering.isEq right).not := by
  unfold Cell.compare
  cases left.order? right with
  | none => rfl
  | some order => cases order <;> rfl

theorem Cell.compare_eq_unknown {wanted : Ordering → Bool} {left right : Cell} :
    left.compare wanted right = .unknown ↔ left = .null ∨ right = .null := by
  have hdecided : ∀ condition, Truth.ofBool condition ≠ .unknown := by
    intro condition
    cases condition <;> simp [Truth.ofBool]
  cases left <;> cases right <;> simp [Cell.compare, Cell.order?, hdecided]

theorem Cell.compare_isEq_eq_holds {left right : Cell} :
    left.compare Ordering.isEq right = .holds ↔ left = right ∧ right ≠ .null := by
  have hnumber : ∀ a b : Rat, (compareOfLessAndEq a b).isEq = true ↔ a = b := by
    intro a b
    rw [Ordering.isEq_iff_eq_eq, compareOfLessAndEq_eq_eq (fun _ => Rat.le_refl) Rat.not_le]
  have htext : ∀ a b : String, (compareOfLessAndEq a b).isEq = true ↔ a = b := by
    intro a b
    rw [Ordering.isEq_iff_eq_eq, compareOfLessAndEq_eq_eq String.le_refl String.not_le]
  cases left <;> cases right <;>
    simp [Cell.compare, Cell.order?, Truth.ofBool_eq_holds, hnumber, htext]

/-- A text is not before another one. -/
theorem Cell.compare_isGE_text {left right : String} :
    (Cell.text left).compare Ordering.isGE (.text right) = .holds ↔ ¬ left < right := by
  rw [Cell.compare, Cell.order?, Truth.ofBool_eq_holds, compareOfLessAndEq]
  split
  · simp_all
  · split <;> simp_all

/-- A text is not after another one. -/
theorem Cell.compare_isLE_text {left right : String} :
    (Cell.text left).compare Ordering.isLE (.text right) = .holds ↔ ¬ right < left := by
  rw [Cell.compare, Cell.order?, Truth.ofBool_eq_holds, compareOfLessAndEq]
  split
  · rename_i hlt
    simpa using String.lt_asymm hlt
  · rename_i hlt
    split
    · simp_all
    · rename_i hne
      simpa using fun hle => hne (String.le_antisymm (String.not_lt.1 hle) (String.not_lt.1 hlt))

/-- Between two continuations of a word there are only continuations of the word, among the texts
that start with a word of its length. -/
theorem eq_of_between_continuations {start stop rest : List Char} :
    ∀ {word other : List Char}, other.length = word.length →
      ¬ other ++ rest < word ++ start → ¬ word ++ stop < other ++ rest → other = word
  | [], [], _, _, _ => rfl
  | c :: word, d :: other, hlength, hlow, hhigh => by
    simp only [List.cons_append, List.cons_lt_cons_iff, not_or, not_and] at hlow hhigh
    obtain rfl : d = c := Char.le_antisymm (Char.not_lt.1 hhigh.1) (Char.not_lt.1 hlow.1)
    rw [eq_of_between_continuations (Nat.succ.inj hlength) (hlow.2 rfl) (hhigh.2 rfl)]
  | [], _ :: _, hlength, _, _ => by cases hlength
  | _ :: _, [], hlength, _, _ => by cases hlength

/-- Between two continuations of a word there is no word of its length, and not even the word
itself. -/
theorem not_between_continuations {start stop : List Char} (hstart : start ≠ [])
    {word other : List Char} (hlength : other.length = word.length) :
    ¬ (¬ other < word ++ start ∧ ¬ word ++ stop < other) := by
  rintro ⟨hlow, hhigh⟩
  rw [← List.append_nil other] at hlow hhigh
  obtain rfl := eq_of_between_continuations hlength hlow hhigh
  cases start with
  | nil => exact hstart rfl
  | cons c start => exact hlow (List.append_left_lt (List.nil_lt_cons c start))

end SoupQuery

namespace SoupQuery.Compile

open SoupQuery.Decimal SoupQuery.GraphQL

variable {schema : Schema} {row : Row} {key : String} {field : FieldInfo}

/-! ## One comparison -/

/-- The object that asks one thing of one field. -/
def comparing (key : String) (op : ComparisonOperator) (value : Value) : List (String × Value) :=
  [(key, .object [(op.name, value)])]

/-- A value compiles as the `where` argument. -/
def Accepts (schema : Schema) (row : Row) (value : Value) : Prop :=
  ∃ filter, whereArgument schema row (some value) = .ok (some filter)

/-- A condition as the filter of an object that asks for nothing else. -/
def RowFilter.single (p : Predicate) : RowFilter :=
  .combine .and [⟨Predicate.combine .and [p], []⟩]

theorem RowFilter.eval_single {soup : Soup} (p : Predicate) (rows : Rows) :
    (RowFilter.single p).predicate.eval soup rows = p.eval soup rows := by
  simp only [single, combine, List.map_cons, List.map_nil, Predicate.eval_combine,
    Truth.joined_singleton]

section

variable {op : ComparisonOperator} {value : Value} {filter : RowFilter}
  (hkey : key ∉ ["and", "or", "not"])
  (hmember : schema.member? row.type key = some (.value field))

include hkey hmember

/-- The filter of one comparison is compiled if the comparison is. -/
theorem filterObject_comparing :
    filterObject schema row (comparing key op value) = .ok filter ↔
      ∃ p, comparison key field.filterKind (fieldValue row field.apiName) (op.name, value) = .ok p ∧
        filter = .single p := by
  have hentry : filterEntry schema row key (.object [(op.name, value)]) =
      fieldFilter row key field (.object [(op.name, value)]) := by
    unfold filterEntry
    simp only [ofName_eq_member.2 hkey, hmember]
  rw [comparing, filterObject_singleton, hentry]
  constructor
  · rintro ⟨inner, hinner, rfl⟩
    obtain ⟨operators, predicates, heq, hcompares, rfl⟩ := fieldFilter_ok hinner
    cases heq
    cases hcompares with
    | cons hp hnil =>
      cases hnil
      exact ⟨_, hp, rfl⟩
  · rintro ⟨p, hp, rfl⟩
    refine ⟨⟨Predicate.combine .and [p], []⟩, ?_, rfl⟩
    rw [fieldFilter, List.map_singleton, hp]
    rfl

theorem whereArgument_comparing :
    whereArgument schema row (some (.object (comparing key op value))) = .ok (some filter) ↔
      ∃ p, comparison key field.filterKind (fieldValue row field.apiName) (op.name, value) = .ok p ∧
        filter = .single p := by
  rw [← filterObject_comparing hkey hmember, whereArgument, Checked.map_eq_ok]
  simp

theorem accepts_comparing :
    Accepts schema row (.object (comparing key op value)) ↔
      ∃ p, comparison key field.filterKind (fieldValue row field.apiName) (op.name, value) =
        .ok p := by
  simp only [Accepts, whereArgument_comparing hkey hmember]
  constructor
  · rintro ⟨_, p, hp, -⟩
    exact ⟨p, hp⟩
  · rintro ⟨p, hp⟩
    exact ⟨.single p, p, hp, rfl⟩

end

/-! ## Literals -/

/-- A calendar day is given for a date-time. -/
def AsksForDay (kind : FilterKind) (value : Value) : Prop :=
  kind = .dateTime ∧ ∃ day, value = .string day ∧ isDateOnly day = true

/-- The condition that a time is of a day. -/
def timeOfDay (left : Expression) (day : String) : Predicate :=
  .between left (.dateTime (day ++ "T00:00:00.000Z")) (.dateTime (day ++ "T23:59:59.999Z"))

/-- The condition of an operator and a literal. -/
def literalCondition (left : Expression) (op : ComparisonOperator) : Expression → Predicate
  | .dateTime text =>
    if op = .eq ∧ isDateOnly text then timeOfDay left text
    else .comparison left op (.dateTime text)
  | right => .comparison left op right

/-- The literal of the operand of an operator. -/
def operandLiteral? (kind : FilterKind) (op : ComparisonOperator) (value : Value) :
    Option Expression :=
  match value with
  | .list items => if op.isSet then listLiteral? kind items else none
  | value => if op.isSet then none else scalarLiteral? kind value

variable {name : String} {kind : FilterKind} {left literal : Expression} {value : Value}
  {p : Predicate}

theorem valueComparison_eq_ok {op : ComparisonOperator} :
    valueComparison name kind left op value = .ok p ↔
      ∃ literal, operandLiteral? kind op value = some literal ∧
        literalCondition left op literal = p := by
  unfold valueComparison
  extract_lets literal?
  have hoperand : operandLiteral? kind op value = literal? := rfl
  rw [hoperand]
  clear_value literal?
  cases literal? with
  | none =>
    constructor
    · intro h
      cases h
    · rintro ⟨_, hnone, -⟩
      cases hnone
  | some literal =>
    cases literal with
    | dateTime text =>
      simp only [Option.some.injEq, exists_eq_left', literalCondition, timeOfDay]
      split <;> simp
    | _ => simp [literalCondition]

/-- A value that is not null is compared by its literal, if it has one. -/
theorem comparison_eq_ok {op : ComparisonOperator} (hvalue : value ≠ .null)
    (hallowed : isAllowed op kind = true) :
    comparison name kind left (op.name, value) = .ok p ↔
      ∃ literal, operandLiteral? kind op value = some literal ∧
        literalCondition left op literal = p := by
  unfold comparison
  simp only [ComparisonOperator.ofName?_name, hallowed, if_true]
  exact valueComparison_eq_ok

/-- Everything that a comparison is made of: null is tested for, any other value has a literal. -/
theorem comparison_forms {entry : String × Value}
    (h : comparison name kind left entry = .ok p) :
    entry.2 = .null ∧ (p = .isNull left ∨ p = .isNotNull left) ∨
      ∃ op literal, operandLiteral? kind op entry.2 = some literal ∧
        p = literalCondition left op literal := by
  unfold comparison at h
  split at h
  · cases h
  · split at h
    · rename_i hnull
      refine .inl ⟨hnull, ?_⟩
      unfold nullComparison at h
      split at h <;> cases h
      · exact .inl rfl
      · exact .inr rfl
    · split at h
      · obtain ⟨literal, hliteral, rfl⟩ := valueComparison_eq_ok.1 h
        exact .inr ⟨_, literal, hliteral, rfl⟩
      · cases h

/-- Equality and its negation take the literals of single values. -/
theorem comparison_scalar {op : ComparisonOperator} (hop : op = .eq ∨ op = .ne)
    (hvalue : value ≠ .null) :
    comparison name kind left (op.name, value) = .ok p ↔
      ∃ literal, scalarLiteral? kind value = some literal ∧
        literalCondition left op literal = p := by
  have hset : op.isSet = false := by rcases hop with rfl | rfl <;> rfl
  have hoperand : operandLiteral? kind op value = scalarLiteral? kind value := by
    unfold operandLiteral?
    simp only [hset]
    split
    · cases kind <;> rfl
    · rfl
  rw [← hoperand]
  exact comparison_eq_ok hvalue (by rcases hop with rfl | rfl <;> rfl)

/-- Equality and its negation take null, and the values that fit the kind. -/
theorem exists_comparison_scalar {op : ComparisonOperator} (hop : op = .eq ∨ op = .ne) :
    (∃ p, comparison name kind left (op.name, value) = .ok p) ↔
      value = .null ∨ fits kind value = true := by
  by_cases hvalue : value = .null
  · subst hvalue
    refine iff_of_true ?_ (.inl rfl)
    rcases hop with rfl | rfl
    · exact ⟨.isNull left, rfl⟩
    · exact ⟨.isNotNull left, rfl⟩
  · simp only [comparison_scalar hop hvalue, hvalue, false_or]
    rw [← isSome_scalarLiteral?, Option.isSome_iff_exists]
    constructor
    · rintro ⟨_, literal, hliteral, -⟩
      exact ⟨literal, hliteral⟩
    · rintro ⟨literal, hliteral⟩
      exact ⟨_, literal, hliteral, rfl⟩

theorem asksForDay_iff (hliteral : scalarLiteral? kind value = some literal) :
    AsksForDay kind value ↔ ∃ day, literal = .dateTime day ∧ isDateOnly day = true := by
  constructor
  · rintro ⟨rfl, day, rfl, hday⟩
    cases hliteral
    exact ⟨day, rfl, hday⟩
  · rintro ⟨day, rfl, hday⟩
    cases kind <;> simp [scalarLiteral?] at hliteral
    cases value <;> simp [textValue?] at hliteral
    exact ⟨rfl, day, by rw [hliteral], hday⟩

/-- An equality that asks for no day compares with the literal. -/
theorem literalCondition_eq (hliteral : scalarLiteral? kind value = some literal)
    (hday : ¬ AsksForDay kind value) :
    literalCondition left .eq literal = .comparison left .eq literal := by
  rw [asksForDay_iff hliteral] at hday
  cases literal with
  | dateTime text =>
    have hnot : isDateOnly text ≠ true := fun h => hday ⟨text, rfl, h⟩
    simp [literalCondition, hnot]
  | _ => rfl

theorem literalCondition_ne (left literal : Expression) :
    literalCondition left .ne literal = .comparison left .ne literal := by
  cases literal <;> simp [literalCondition]

/-! ## Days -/

theorem length_of_isDateOnly {text : String} (h : isDateOnly text = true) :
    text.toList.length = 10 := by
  unfold isDateOnly at h
  split at h
  · rename_i htext
    rw [htext]
    rfl
  · cases h

/-- A text of the form of a day is no time of a day. -/
theorem eval_timeOfDay_ne_holds {soup : Soup} {rows : Rows} {day day' : String}
    (hleft : left.cell rows = .text day) (hday : isDateOnly day = true)
    (hday' : isDateOnly day' = true) : (timeOfDay left day').eval soup rows ≠ .holds := by
  intro h
  rw [timeOfDay, Predicate.eval, Truth.and_eq_holds, hleft] at h
  obtain ⟨hlow, hhigh⟩ := h
  rw [Expression.cell, Cell.compare_isGE_text, String.lt_iff, String.toList_append] at hlow
  rw [Expression.cell, Cell.compare_isLE_text, String.lt_iff, String.toList_append] at hhigh
  refine not_between_continuations ?_ ?_ ⟨hlow, hhigh⟩
  · decide
  · rw [length_of_isDateOnly hday, length_of_isDateOnly hday']

/-! ## The negation of equality -/

theorem eval_eq (soup : Soup) (rows : Rows) (left right : Expression) :
    (Predicate.comparison left .eq right).eval soup rows =
      (left.cell rows).compare Ordering.isEq (right.cell rows) := by
  rw [Predicate.eval]
  rfl

theorem eval_ne (soup : Soup) (rows : Rows) (left right : Expression) :
    (Predicate.comparison left .ne right).eval soup rows =
      ((left.cell rows).compare Ordering.isEq (right.cell rows)).not := by
  rw [Predicate.eval, ← Cell.compare_isNe]
  rfl

/-- A time of a day is not the day. -/
theorem eval_ne_day {soup : Soup} {rows : Rows} {day : String} (hday : isDateOnly day = true)
    (h : (timeOfDay left day).eval soup rows = .holds) :
    (Predicate.comparison left .ne (.dateTime day)).eval soup rows = .holds := by
  have hnull : left.cell rows ≠ .null := by
    intro hnull
    rw [timeOfDay, Predicate.eval, Truth.and_eq_holds, hnull] at h
    cases h.1
  have hother : left.cell rows ≠ .text day := fun hleft => eval_timeOfDay_ne_holds hleft hday hday h
  have hfails : ∀ truth : Truth, truth ≠ .holds → truth ≠ .unknown → truth.not = .holds := by
    intro truth hholds hunknown
    cases truth <;> trivial
  rw [eval_ne]
  refine hfails _ (fun hholds => ?_) (fun hunknown => ?_)
  · exact hother (Cell.compare_isEq_eq_holds.1 hholds).1
  · exact (Cell.compare_eq_unknown.1 hunknown).elim hnull (by simp [Expression.cell])

/-- The text of a day is neither a time of the day nor unequal to it. -/
theorem eval_ne_ne_not_timeOfDay {soup : Soup} {rows : Rows} {day : String}
    (hleft : left.cell rows = .text day) (hday : isDateOnly day = true) :
    (Predicate.comparison left .ne (.dateTime day)).eval soup rows ≠
      ((timeOfDay left day).eval soup rows).not := by
  have hsame : (left.cell rows).compare Ordering.isEq (Expression.cell rows (.dateTime day)) =
      .holds := by
    rw [hleft]
    exact Cell.compare_isEq_eq_holds.2 ⟨rfl, by simp [Expression.cell]⟩
  have hnot : (timeOfDay left day).eval soup rows ≠ .holds :=
    eval_timeOfDay_ne_holds hleft hday hday
  rw [eval_ne, hsame]
  cases htime : (timeOfDay left day).eval soup rows with
  | holds => exact absurd htime hnot
  | fails => simp [Truth.not]
  | unknown => simp [Truth.not]

/-- The two conditions of a value that asks for no day. -/
theorem eval_comparison_ne {equal unequal : Predicate} (hday : ¬ AsksForDay kind value)
    (hequal : comparison name kind left (ComparisonOperator.eq.name, value) = .ok equal)
    (hunequal : comparison name kind left (ComparisonOperator.ne.name, value) = .ok unequal)
    (soup : Soup) (rows : Rows) : unequal.eval soup rows = (equal.eval soup rows).not := by
  by_cases hvalue : value = .null
  · subst hvalue
    cases hequal
    cases hunequal
    rw [Predicate.eval, Predicate.eval, Truth.not_ofBool]
    simp
  · obtain ⟨literal, hliteral, rfl⟩ := (comparison_scalar (.inl rfl) hvalue).1 hequal
    obtain ⟨_, hsame, rfl⟩ := (comparison_scalar (.inr rfl) hvalue).1 hunequal
    cases hliteral.symm.trans hsame
    rw [literalCondition_eq hliteral hday, literalCondition_ne, eval_eq, eval_ne]

/-- The two conditions of a value that asks for a day. -/
theorem comparison_of_asksForDay {equal unequal : Predicate} (hday : AsksForDay kind value)
    (hequal : comparison name kind left (ComparisonOperator.eq.name, value) = .ok equal)
    (hunequal : comparison name kind left (ComparisonOperator.ne.name, value) = .ok unequal) :
    ∃ day, isDateOnly day = true ∧ equal = timeOfDay left day ∧
      unequal = .comparison left .ne (.dateTime day) := by
  obtain ⟨rfl, day, rfl, honly⟩ := hday
  have hvalue : Value.string day ≠ .null := Value.noConfusion
  obtain ⟨_, hliteral, rfl⟩ := (comparison_scalar (.inl rfl) hvalue).1 hequal
  obtain ⟨_, hsame, rfl⟩ := (comparison_scalar (.inr rfl) hvalue).1 hunequal
  cases hliteral
  cases hsame
  refine ⟨day, honly, ?_, literalCondition_ne left _⟩
  simp [literalCondition, honly]

/-- **`ne` is the negation of `eq`, except for the days of date-times**: both take the same values,
and what the one says of a stored value is the negation of what the other says of it. With a day,
`eq` asks for the times of the day, and all of them are also unequal to it. -/
theorem whereArgument_ne (hkey : key ∉ ["and", "or", "not"])
    (hmember : schema.member? row.type key = some (.value field)) (value : Value) :
    (Accepts schema row (.object (comparing key .ne value)) ↔
      Accepts schema row (.object (comparing key .eq value))) ∧
    ∀ equal unequal,
      whereArgument schema row (some (.object (comparing key .eq value))) = .ok (some equal) →
      whereArgument schema row (some (.object (comparing key .ne value))) = .ok (some unequal) →
      ((∀ soup rows,
          unequal.predicate.eval soup rows = (equal.predicate.eval soup rows).not) ↔
        ¬ AsksForDay field.filterKind value) ∧
      (AsksForDay field.filterKind value → ∀ soup rows,
        equal.predicate.eval soup rows = .holds → unequal.predicate.eval soup rows = .holds) := by
  rw [accepts_comparing hkey hmember, accepts_comparing hkey hmember,
    exists_comparison_scalar (.inl rfl), exists_comparison_scalar (.inr rfl)]
  refine ⟨Iff.rfl, fun equal unequal hequal hunequal => ?_⟩
  obtain ⟨p, hp, rfl⟩ := (whereArgument_comparing hkey hmember).1 hequal
  obtain ⟨q, hq, rfl⟩ := (whereArgument_comparing hkey hmember).1 hunequal
  simp only [RowFilter.eval_single]
  by_cases hday : AsksForDay field.filterKind value
  · obtain ⟨day, honly, rfl, rfl⟩ := comparison_of_asksForDay hday hp hq
    refine ⟨iff_of_false (fun h => ?_) (not_not.2 hday), fun _ soup rows => eval_ne_day honly⟩
    exact eval_ne_ne_not_timeOfDay rfl honly (h .empty fun _ _ => .text day)
  · exact ⟨iff_of_true (eval_comparison_ne hday hp hq) hday, fun h => absurd h hday⟩

/-- Visits with a number of guests, a time and a rating. -/
def guestSchema : Schema :=
  [("Visit", ⟨"Visit", [("Guests", .scalar "Guests" .int), ("Start", .scalar "Start" .dateTime),
    ("Rating", .scalar "Rating" .double)], []⟩)]

/-- A number of guests that is written as a text. -/
theorem twelveGuests_ne :
    whereArgument guestSchema ⟨"v", "Visit"⟩
        (some (.object (comparing "Guests" .ne (.string " 12")))) =
      .ok (some ⟨.comparison (.extract "v" "data.fields.Guests.value") .ne (.int 12), []⟩) ∧
    ∀ soup rows,
      (Predicate.comparison (.extract "v" "data.fields.Guests.value") .ne (.int 12)).eval
          soup rows =
        ((Predicate.comparison (.extract "v" "data.fields.Guests.value") .eq (.int 12)).eval
          soup rows).not := by
  have hmember : guestSchema.member? (Row.mk "v" "Visit").type "Guests" =
      some (.value (.scalar "Guests" .int)) := rfl
  have hne := whereArgument_ne (by decide) hmember (.string " 12")
  exact ⟨rfl, (hne.2 _ _ rfl rfl).1.2 fun hday => by cases hday.1⟩

/-- **A time of a day is both equal and unequal to the day**: `eq` asks for the times of the day,
and `ne` compares with its text. -/
theorem tenOClock_eq_and_ne :
    ∃ equal unequal,
      whereArgument guestSchema ⟨"v", "Visit"⟩
        (some (.object (comparing "Start" .eq (.string "2024-01-01")))) = .ok (some equal) ∧
      whereArgument guestSchema ⟨"v", "Visit"⟩
        (some (.object (comparing "Start" .ne (.string "2024-01-01")))) = .ok (some unequal) ∧
      equal.predicate.eval .empty (fun _ _ => .text "2024-01-01T10:00:00.000Z") = .holds ∧
      unequal.predicate.eval .empty (fun _ _ => .text "2024-01-01T10:00:00.000Z") = .holds :=
  ⟨_, _, rfl, rfl, by decide, by decide⟩

end SoupQuery.Compile
