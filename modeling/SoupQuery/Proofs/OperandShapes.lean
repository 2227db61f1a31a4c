import SoupQuery.Proofs.Equality
import SoupQuery.Proofs.Scoping

/-!
# Operands stand where they have a meaning

Any expression could stand at any place of a query, and would be written there: a list after `=`, a
number after `IN`, a literal as a sort key. The compiler puts none there.

* `ComparisonOperator.Takes` — what may stand on the right of an operator.
* `Predicate.Shaped`, `RecordQuery.Shaped` — every operand is of the form that its place asks for.
* `comparison_shaped` — whatever the kind, the operator and the value are, a comparison of a field
  that compiles is shaped.
* `transform_shaped` — **every query of a result is shaped, at any depth, and no operand in it is
  null.**
-/

namespace SoupQuery

/-! ## Shapes -/

/-- The operand is read from a stored record. -/
def Expression.IsExtract (e : Expression) : Prop := ∃ rowName path, e = .extract rowName path

/-- The operand is a list. -/
def Expression.IsList (e : Expression) : Prop :=
  (∃ texts, e = .strings texts) ∨ ∃ values, e = .numbers values

def Expression.IsTime (e : Expression) : Prop := ∃ text, e = .dateTime text

/-- The operand is a number, a date or a time. -/
def Expression.IsOrdered : Expression → Prop
  | .int _ | .double _ | .date _ | .dateTime _ => True
  | _ => False

/-- What may stand on the right of an operator. -/
structure ComparisonOperator.Takes (op : ComparisonOperator) (right : Expression) : Prop where
  /-- The operators of sets take lists, and no other operator does. -/
  list : right.IsList ↔ op = .oneOf ∨ op = .noneOf
  /-- A pattern is a text. -/
  pattern : op = .like → ∃ text, right = .string text
  /-- Booleans are equal or not. -/
  boolean : ∀ value, right = .boolean value → op = .eq ∨ op = .ne
  /-- Two stored values are compared for equality only. -/
  extract : right.IsExtract → op = .eq
  ne_null : right ≠ .null

/-- Every operand in the predicate is of the form that its place asks for, also under connectives
and negations and in existence checks. -/
inductive Predicate.Shaped : Predicate → Prop
  | comparison {left op right} : left.IsExtract → ComparisonOperator.Takes op right →
      Shaped (.comparison left op right)
  | compound {op operands} : (∀ p ∈ operands, Shaped p) → Shaped (.compound op operands)
  | negation {operand} : Shaped operand → Shaped (.negation operand)
  | isNull {operand} : operand.IsExtract → Shaped (.isNull operand)
  | isNotNull {operand} : operand.IsExtract → Shaped (.isNotNull operand)
  | between {operand start stop} : operand.IsExtract → start.IsTime → stop.IsTime →
      Shaped (.between operand start stop)
  | existsRow {rowName joinNames body} : Shaped body → Shaped (.existsRow rowName joinNames body)

/-- Every operand of the query itself is of the form that its place asks for. -/
structure RecordQuery.Shaped (query : RecordQuery) : Prop where
  fields : ∀ path extract, .scalar path extract ∈ query.fields → extract.IsExtract
  orderBy : ∀ key ∈ query.orderBy, key.extract.IsExtract
  predicate : ∀ predicate, query.predicate? = some predicate → predicate.Shaped

/-! ## Operands of operators -/

namespace ComparisonOperator

variable {op : ComparisonOperator} {right : Expression}

theorem isSet_iff : op.isSet = true ↔ op = .oneOf ∨ op = .noneOf := by
  cases op <;> simp [isSet]

/-- A text can stand after every operator that is not one of sets. -/
theorem takes_string (hset : op.isSet = false) (text : String) : op.Takes (.string text) where
  list := iff_of_false (by simp [Expression.IsList]) (by simp [← isSet_iff, hset])
  pattern _ := ⟨text, rfl⟩
  boolean _ h := by cases h
  extract h := by simp [Expression.IsExtract] at h
  ne_null := Expression.noConfusion

theorem takes_boolean (hop : op = .eq ∨ op = .ne) (value : Bool) : op.Takes (.boolean value) where
  list := iff_of_false (by simp [Expression.IsList]) (by rcases hop with rfl | rfl <;> simp)
  pattern h := by rcases hop with rfl | rfl <;> cases h
  boolean _ _ := hop
  extract h := by simp [Expression.IsExtract] at h
  ne_null := Expression.noConfusion

theorem takes_extract (rowName path : String) : eq.Takes (.extract rowName path) where
  list := by simp [Expression.IsList]
  pattern h := by cases h
  boolean _ h := by cases h
  extract _ := rfl
  ne_null := Expression.noConfusion

/-- Numbers and times can stand after every operator but those of sets and patterns. -/
theorem takes_ordered (hset : op.isSet = false) (hlike : op ≠ .like) (hright : right.IsOrdered) :
    op.Takes right := by
  refine ⟨iff_of_false ?_ (by simp [← isSet_iff, hset]), fun h => absurd h hlike, ?_, ?_, ?_⟩
  · rintro (⟨_, rfl⟩ | ⟨_, rfl⟩) <;> exact hright.elim
  · rintro _ rfl
    exact hright.elim
  · rintro ⟨_, _, rfl⟩
    exact hright.elim
  · rintro rfl
    exact hright.elim

/-- A list can stand after the operators of sets. -/
theorem takes_list (hset : op.isSet = true) (hright : right.IsList) : op.Takes right := by
  have hop : op = .oneOf ∨ op = .noneOf := isSet_iff.1 hset
  refine ⟨iff_of_true hright hop, fun h => ?_, fun _ h => ?_, fun h => ?_, ?_⟩
  · subst h
    cases hset
  · subst h
    simp [Expression.IsList] at hright
  · obtain ⟨_, _, rfl⟩ := h
    simp [Expression.IsList] at hright
  · rintro rfl
    simp [Expression.IsList] at hright

end ComparisonOperator

/-! ## No operand is null -/

mutual

/-- All operands in a predicate. -/
def Predicate.operands : Predicate → List Expression
  | .comparison left _ right => [left, right]
  | .compound _ inner => operandsAll inner
  | .negation inner => operands inner
  | .isNull operand => [operand]
  | .isNotNull operand => [operand]
  | .between operand start stop => [operand, start, stop]
  | .existsRow _ _ body => operands body

def Predicate.operandsAll : List Predicate → List Expression
  | [] => []
  | p :: rest => operands p ++ operandsAll rest

end

/-- The operand of an entry of what a query returns; a nested query has operands of its own. -/
def QueryField.operand? : QueryField RecordQuery → Option Expression
  | .scalar _ extract => some extract
  | .child _ _ => none

/-- All operands of a query, those of its nested queries apart. -/
def RecordQuery.operands (query : RecordQuery) : List Expression :=
  query.fields.filterMap QueryField.operand? ++ query.orderBy.map (·.extract) ++
    (query.predicate?.map Predicate.operands).getD []

theorem Expression.IsExtract.ne_null {e : Expression} (h : e.IsExtract) : e ≠ .null := by
  obtain ⟨_, _, rfl⟩ := h
  exact Expression.noConfusion

theorem Expression.IsTime.ne_null {e : Expression} (h : e.IsTime) : e ≠ .null := by
  obtain ⟨_, rfl⟩ := h
  exact Expression.noConfusion

namespace Predicate

theorem mem_operandsAll {ps : List Predicate} {e : Expression} :
    e ∈ operandsAll ps ↔ ∃ p ∈ ps, e ∈ p.operands := by
  induction ps with
  | nil => simp [operandsAll]
  | cons p ps ih => simp [operandsAll, ih]

/-- No operand of a shaped predicate is null. -/
theorem Shaped.ne_null {p : Predicate} (h : p.Shaped) : ∀ e ∈ p.operands, e ≠ .null := by
  induction h with
  | comparison hleft hright =>
    simp only [operands, List.forall_mem_cons]
    exact ⟨hleft.ne_null, hright.ne_null, List.forall_mem_nil _⟩
  | compound _ ih =>
    intro e he
    rw [operands] at he
    obtain ⟨p, hp, he⟩ := mem_operandsAll.1 he
    exact ih p hp e he
  | negation _ ih => exact ih
  | isNull h => exact List.forall_mem_singleton.2 h.ne_null
  | isNotNull h => exact List.forall_mem_singleton.2 h.ne_null
  | between hoperand hstart hstop =>
    simp only [operands, List.forall_mem_cons]
    exact ⟨hoperand.ne_null, hstart.ne_null, hstop.ne_null, List.forall_mem_nil _⟩
  | existsRow _ ih => exact ih

/-! ## Shaped predicates -/

theorem shaped_compound (op : Connective) (operands : List Predicate) :
    (Predicate.compound op operands).Shaped ↔ ∀ p ∈ operands, p.Shaped := by
  constructor
  · rintro (_ | h)
    exact h
  · exact .compound

/-- A join of shaped predicates is shaped. -/
theorem shaped_combine {op : Connective} {predicates : List Predicate}
    (h : ∀ p ∈ predicates, p.Shaped) : (combine op predicates).Shaped :=
  combine_closed shaped_compound h

theorem shaped_refersTo (source target foreignKey : String) :
    (refersTo source target foreignKey).Shaped :=
  .comparison ⟨_, _, rfl⟩ (ComparisonOperator.takes_extract _ _)

theorem shaped_hasType (rowName type : String) : (hasType rowName type).Shaped :=
  .comparison ⟨_, _, rfl⟩ (ComparisonOperator.takes_string rfl _)

end Predicate

/-- No operand of a shaped query is null. -/
theorem RecordQuery.Shaped.null_not_mem {query : RecordQuery} (h : query.Shaped) :
    .null ∉ query.operands := by
  simp only [operands, List.mem_append, not_or]
  refine ⟨⟨fun hnull => ?_, fun hnull => ?_⟩, fun hnull => ?_⟩
  · obtain ⟨field, hfield, hoperand⟩ := List.mem_filterMap.1 hnull
    cases field with
    | scalar path extract =>
      cases hoperand
      exact (h.fields path _ hfield).ne_null rfl
    | child => cases hoperand
  · obtain ⟨key, hkey, heq⟩ := List.mem_map.1 hnull
    exact (h.orderBy key hkey).ne_null heq
  · cases hpredicate : query.predicate? with
    | none =>
      rw [hpredicate] at hnull
      cases hnull
    | some predicate =>
      rw [hpredicate] at hnull
      exact (h.predicate predicate hpredicate).ne_null _ hnull rfl

end SoupQuery

namespace SoupQuery.Compile

open SoupQuery.GraphQL

variable {schema : Schema} {context : Context} {document : Document} {row : Row}

/-! ## Comparisons -/

section

variable {kind : FilterKind} {op : ComparisonOperator} {value : Value} {literal : Expression}

/-- The literal of a value can stand after every operator that its kind has, unless the operator is
one of sets. -/
theorem takes_scalarLiteral? (hallowed : isAllowed op kind = true) (hset : op.isSet = false)
    (h : scalarLiteral? kind value = some literal) : op.Takes literal := by
  -- only texts and references have patterns, and booleans have nothing but equality
  have hlike : kind ≠ .text → kind ≠ .reference → op ≠ .like := by
    rintro htext hreference rfl
    cases kind <;> simp [isAllowed] at hallowed htext hreference
  cases kind with
  | boolean =>
    obtain ⟨b, -, rfl⟩ := Option.map_eq_some_iff.1 h
    refine ComparisonOperator.takes_boolean ?_ b
    cases op <;> simp [isAllowed] at hallowed ⊢
  | int | double | date | dateTime =>
    obtain ⟨_, -, rfl⟩ := Option.map_eq_some_iff.1 h
    exact ComparisonOperator.takes_ordered hset (hlike (by decide) (by decide)) trivial
  | _ =>
    obtain ⟨text, -, rfl⟩ := Option.map_eq_some_iff.1 h
    exact ComparisonOperator.takes_string hset text

/-- The literal of a list is a list. -/
theorem isList_listLiteral? {items : List Value} (h : listLiteral? kind items = some literal) :
    literal.IsList := by
  cases kind with
  | boolean => cases h
  | int | double =>
    obtain ⟨values, -, rfl⟩ := Option.map_eq_some_iff.1 h
    exact .inr ⟨values, rfl⟩
  | _ =>
    obtain ⟨texts, -, rfl⟩ := Option.map_eq_some_iff.1 h
    exact .inl ⟨texts, rfl⟩

/-- The literal of an operand can stand after its operator, if the kind has the operator. -/
theorem takes_operandLiteral? (hallowed : isAllowed op kind = true)
    (h : operandLiteral? kind op value = some literal) : op.Takes literal := by
  unfold operandLiteral? at h
  split at h
  · split at h
    · rename_i hset
      exact ComparisonOperator.takes_list hset (isList_listLiteral? h)
    · cases h
  · split at h
    · cases h
    · rename_i hset
      exact takes_scalarLiteral? hallowed (by simpa using hset) h

/-- The condition of an operator and a literal that can stand after it. -/
theorem literalCondition_shaped {left : Expression} (hleft : left.IsExtract)
    (htakes : op.Takes literal) : (literalCondition left op literal).Shaped := by
  cases literal with
  | dateTime text =>
    rw [literalCondition]
    split
    · exact .between hleft ⟨_, rfl⟩ ⟨_, rfl⟩
    · exact .comparison hleft htakes
  | _ => exact .comparison hleft htakes

/-- **A comparison of a field that compiles is shaped**, whatever the kind, the operator and the
value are. -/
theorem comparison_shaped {name apiName : String} {entry : String × Value} {p : Predicate}
    (h : comparison name kind (fieldValue row apiName) entry = .ok p) : p.Shaped := by
  have hleft : (fieldValue row apiName).IsExtract := ⟨_, _, rfl⟩
  unfold comparison at h
  split at h
  · cases h
  · split at h
    · unfold nullComparison at h
      split at h <;> cases h
      · exact .isNull hleft
      · exact .isNotNull hleft
    · split at h
      · rename_i hallowed
        obtain ⟨literal, hliteral, rfl⟩ := valueComparison_eq_ok.1 h
        exact literalCondition_shaped hleft (takes_operandLiteral? hallowed hliteral)
      · cases h

end

/-! ## Filters and scopes -/

theorem RowFilter.combine_shaped {op : Connective} {filters : List RowFilter}
    (h : ∀ filter ∈ filters, filter.predicate.Shaped) :
    (RowFilter.combine op filters).predicate.Shaped := by
  refine Predicate.shaped_combine fun p hp => ?_
  obtain ⟨filter, hfilter, rfl⟩ := List.mem_map.1 hp
  exact h filter hfilter

theorem RowFilter.negate_shaped {filter : RowFilter} (h : filter.predicate.Shaped) :
    filter.negate.predicate.Shaped := by
  unfold RowFilter.negate
  split
  · exact h
  · exact .negation h

/-- Being shaped is preserved by every form of a filter. -/
theorem filterInvariant_shaped (schema : Schema) :
    FilterInvariant schema (fun _ _ filter => filter.predicate.Shaped)
      (fun _ _ _ filter => filter.predicate.Shaped) where
  object h := RowFilter.combine_shaped (forall_of_forall₂_right h fun _ _ hfilter => hfilter)
  connective _ h := RowFilter.combine_shaped (forall_of_forall₂_right h fun _ _ hfilter => hfilter)
  negation _ h := RowFilter.negate_shaped h
  field _ _ h := Predicate.shaped_combine
    (forall_of_forall₂_right h fun _ _ hcomparison => comparison_shaped hcomparison)
  record _ _ _ h := h

theorem whereArgument_shaped {value? : Option Value} {filter : RowFilter}
    (h : whereArgument schema row value? = .ok (some filter)) : filter.predicate.Shaped := by
  cases value? with
  | none => cases h
  | some value =>
    obtain ⟨entries, _, rfl, heq, hfilter⟩ := whereArgument_eq_ok.1 h
    cases heq
    exact (filterInvariant_shaped schema).filterObject hfilter

theorem scopeArgument_shaped {userId : String} {value? : Option Value} {p : Predicate}
    (h : scopeArgument schema row userId value? = .ok (some p)) : p.Shaped := by
  have htext : ∀ (row : Row) (apiName text : String),
      (Predicate.comparison (fieldValue row apiName) .eq (.string text)).Shaped :=
    fun _ _ _ => .comparison ⟨_, _, rfl⟩ (ComparisonOperator.takes_string rfl _)
  rcases scopeArgument_ok h with rfl | rfl
  · exact htext row ownerField userId
  · refine .existsRow (Predicate.shaped_combine fun q hq => ?_)
    simp only [List.mem_cons, List.not_mem_nil, or_false] at hq
    rcases hq with rfl | rfl | rfl | rfl | rfl
    · exact Predicate.shaped_refersTo _ _ _
    · exact Predicate.shaped_refersTo _ _ _
    · exact htext _ _ _
    · exact Predicate.shaped_hasType _ _
    · exact Predicate.shaped_hasType _ _

/-! ## Queries -/

theorem Parts.Of.conditions_shaped {field : Field} {below : List Selection} {parts : Parts}
    (h : parts.Of context row field below) {p : Predicate} (hp : p ∈ parts.conditions) :
    p.Shaped := by
  rcases Parts.mem_conditions_cases hp with ⟨join, -, hp⟩ | ⟨filter, hfilter, rfl⟩ | hscope
  · rcases Join.mem_conditions.1 hp with rfl | rfl
    · exact Predicate.shaped_refersTo _ _ _
    · exact Predicate.shaped_hasType _ _
  · exact whereArgument_shaped (hfilter ▸ h.filter)
  · exact scopeArgument_shaped (hscope ▸ h.scope)

theorem Origin.anchors_shaped {origin : Origin} {head : Field} {p : Predicate}
    (h : p ∈ origin.anchors head) : p.Shaped := by
  cases origin with
  | document =>
    rw [List.mem_singleton.1 h]
    exact Predicate.shaped_hasType _ _
  | record parent relationship =>
    simp only [Origin.anchors, childAnchors, List.mem_cons, List.not_mem_nil, or_false] at h
    rcases h with rfl | rfl
    · exact Predicate.shaped_refersTo _ _ _
    · exact Predicate.shaped_hasType _ _

/-- An order sorts by a stored value. -/
theorem Orders.isExtract {entries : List (String × Value)} {order : RowOrder}
    (h : Orders schema row entries order) : order.key.extract.IsExtract := by
  induction h with
  | value _ _ =>
    rw [sortKey_extract]
    exact ⟨_, _, rfl⟩
  | record _ _ _ ih => exact ih

/-- Selected values are stored values. -/
theorem Selects.isExtract {path : String} {below : List Selection} {selected : Selected}
    (h : Selects context row path below selected) : ∀ place extract,
      .scalar place extract ∈ selected.fields → extract.IsExtract := by
  induction h with
  | nil =>
    intro place extract hfield
    cases hfield
  | typeName _ _ ih => exact ih
  | value _ _ hvalue _ ih =>
    intro place extract hfield
    rcases List.mem_append.1 hfield with hfield | hfield
    · obtain ⟨_, _, hscalar⟩ := (valueSelection_ok hvalue).2 _ hfield
      cases hscalar
      exact ⟨_, _, rfl⟩
    · exact ih place extract hfield
  | record _ _ _ _ _ ihinner ih =>
    intro place extract hfield
    rcases List.mem_append.1 hfield with hfield | hfield
    · exact ihinner place extract hfield
    · exact ih place extract hfield
  | child _ _ _ _ _ ih =>
    intro place extract hfield
    rcases List.mem_cons.1 hfield with hfield | hfield
    · cases hfield
    · exact ih place extract hfield

/-- A connection with shaped anchors is shaped. -/
theorem recordQuery_shaped {anchors : List Predicate} {field : Field} {below : List Selection}
    {query : RecordQuery} (h : recordQuery context row anchors field below = .ok query)
    (hanchors : ∀ p ∈ anchors, p.Shaped) : query.Shaped := by
  obtain ⟨parts, hparts, rfl⟩ := recordQuery_ok h
  obtain ⟨node, -, hselects⟩ := hparts.selected
  refine ⟨hselects.isExtract, fun key hkey => ?_, fun predicate hpredicate => ?_⟩
  · obtain ⟨order, horder, rfl⟩ := List.mem_map.1 hkey
    obtain ⟨entries, horders⟩ := orderByArgument_ok hparts.orders horder
    exact horders.isExtract
  · rw [toQuery_predicate hpredicate]
    refine Predicate.shaped_combine fun p hp => ?_
    rcases List.mem_append.1 hp with hp | hp
    · exact hanchors p hp
    · exact hparts.conditions_shaped hp

/-- **Every operand of a result is of the form that its place asks for**, at any depth, and none is
null. -/
theorem transform_shaped {queries enclosing : List RecordQuery} {query : RecordQuery}
    (h : transform context document = .ok queries) (hquery : Occurs queries enclosing query) :
    query.Shaped ∧ .null ∉ query.operands := by
  obtain ⟨origin, head, below, -, hok, -⟩ := connection_of_occurs h hquery
  have hshaped := recordQuery_shaped hok fun p => Origin.anchors_shaped
  exact ⟨hshaped, hshaped.null_not_mem⟩

/-- Offers have a stage, a time at which they close, and say whether they are open. -/
def offersContext : Context where
  schema := [("Offer", ⟨"Offer",
    [("ClosesAt", .scalar "ClosesAt" .dateTime), ("Open", .scalar "Open" .boolean),
     ("Stage", .scalar "Stage" .picklist)], []⟩)]
  userId := "u1"

/-- The offers that close on a day, are open, and whose stage is one of two but not like another. -/
def offersField : Field where
  alias? := none
  name := "Offer"
  arguments :=
    [("where", .object
      [("ClosesAt", .object [("eq", .string "2024-05-01")]),
       ("Open", .object [("ne", .boolean false)]),
       ("Stage", .object [("in", .list [.string "New", .string "Won"])]),
       ("not", .object [("Stage", .object [("like", .string "W%")])])]),
     ("orderBy", .object [("Stage", .object [])])]

def offersDocument : Document :=
  [.operation .query [.field ⟨none, "uiapi", []⟩ [.field ⟨none, "query", []⟩
    [.field offersField (edgesNode [.field ⟨none, "Id", []⟩ []])]]]]

def offersQuery : RecordQuery where
  predicate? := some (.compound .and
    [.hasType "Offer" "Offer",
     timeOfDay (.extract "Offer" "data.fields.ClosesAt.value") "2024-05-01",
     .comparison (.extract "Offer" "data.fields.Open.value") .ne (.boolean false),
     .comparison (.extract "Offer" "data.fields.Stage.value") .oneOf (.strings ["New", "Won"]),
     .negation (.comparison (.extract "Offer" "data.fields.Stage.value") .like (.string "W%"))])
  fields := [.scalar "node.Id" (.extract "Offer" "data.id")]
  row := ⟨"Offer", "Offer"⟩
  first? := none
  joinNames := []
  orderBy := [⟨true, false, .extract "Offer" "data.fields.Stage.value"⟩]

theorem transform_offers : transform offersContext offersDocument = .ok [offersQuery] := rfl

theorem offers_shaped : transform offersContext offersDocument = .ok [offersQuery] ∧
    offersQuery.Shaped ∧ .null ∉ offersQuery.operands :=
  ⟨transform_offers, transform_shaped transform_offers (.root (List.mem_singleton.2 rfl))⟩

end SoupQuery.Compile
