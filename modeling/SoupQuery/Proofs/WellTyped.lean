import SoupQuery.Proofs.Filter

/-!
# Well-typed filters

Which filters compile, said without the compiler, and what is wrong with every other one.

* `fits` — a value that stands for a value of a kind; `takes` — the values that an operator takes on
  a field of a kind.
* `EntryWellTyped`, `WellTyped` — the filters that are well-typed for a type.
* `operatorFaults`, `entryFaults`, `filterFaults` — everything that is wrong with a filter: one
  error at each place, in order.
* `entryFaults_eq_nil` — nothing is wrong exactly with the filters that are well-typed.
* `errors_filterEntry` — the errors of a filter are what is wrong with it.
* `whereArgument_wellTyped` — **exactly the well-typed filters compile, and for any other one
  everything that is wrong with it is reported.**
-/

namespace SoupQuery

/-- Whether the values of a kind are texts. -/
def FilterKind.isTextual : FilterKind → Bool
  | .text | .id | .reference | .time | .date | .dateTime => true
  | .boolean | .int | .double => false

end SoupQuery

namespace SoupQuery.Compile

open SoupQuery.GraphQL

/-! ## Operands -/

/-- Whether a value stands for a value of the kind. A text stands for itself, or for the number that
it reads as. -/
def fits (kind : FilterKind) : Value → Bool
  | .boolean _ => kind = .boolean
  | .int _ => kind = .int || kind = .double
  | .float _ => kind = .double
  | .string text =>
    kind.isTextual ||
      kind = .int && (Decimal.int64? (Text.trim text.toList)).isSome ||
      kind = .double && (Decimal.Binary64.read? (Text.trim text.toList)).isSome
  | _ => false

/-- Whether a kind has an operator: patterns are for texts and references, and on booleans there is
only equality. -/
def offers (kind : FilterKind) (op : ComparisonOperator) : Bool :=
  (op ≠ .like || kind = .text || kind = .reference) && (kind ≠ .boolean || op = .eq || op = .ne)

/-- Whether an operator takes a value on a field of the kind. Null can only be equal or not equal;
sets have texts or, on both kinds of numbers, doubles. -/
def takes (kind : FilterKind) (op : ComparisonOperator) : Value → Bool
  | .null => op = .eq || op = .ne
  | .list items =>
    op.isSet && (kind.isTextual && items.all (fits kind) ||
      (kind = .int || kind = .double) && items.all (fits .double))
  | value => !op.isSet && offers kind op && fits kind value

/-! ## Filters -/

/-- The entry of a filter is well-typed for a type: a connective of objects, the negation of an
object, the operators of a field, or an object for the type that a reference leads to. -/
inductive EntryWellTyped (schema : Schema) : String → String → Value → Prop
  | connective {type key op} {objects : List (List (String × Value))} : key = Connective.name op →
      (∀ entries ∈ objects, ∀ entry ∈ entries, EntryWellTyped schema type entry.1 entry.2) →
      EntryWellTyped schema type key (.list (objects.map .object))
  | negation {type key entries} : key = "not" →
      (∀ entry ∈ entries, EntryWellTyped schema type entry.1 entry.2) →
      EntryWellTyped schema type key (.object entries)
  | field {type key field operators} : key ∉ ["and", "or", "not"] →
      schema.field? type key = some field → field.spanning? key = none →
      (∀ operator ∈ operators, ∃ op, operator.1 = ComparisonOperator.name op ∧
        takes field.filterKind op operator.2 = true) →
      EntryWellTyped schema type key (.object operators)
  | record {type key field reference entries} : key ∉ ["and", "or", "not"] →
      schema.field? type key = some field → field.spanning? key = some reference →
      schema.knows reference.target = true →
      (∀ entry ∈ entries, EntryWellTyped schema reference.target entry.1 entry.2) →
      EntryWellTyped schema type key (.object entries)

/-- A filter is well-typed for a type if it is an object of well-typed entries. -/
def WellTyped (schema : Schema) (type : String) (value : Value) : Prop :=
  ∃ entries, value = .object entries ∧ ∀ entry ∈ entries, EntryWellTyped schema type entry.1 entry.2

/-! ## Faults -/

/-- Why an operator does not take a value. -/
def refusal (field : String) (kind : FilterKind) (op : ComparisonOperator) : Value → CompileError
  | .null => .nullRefused op field
  | _ => if offers kind op then .operandMismatch op field kind else .operatorNotAllowed op kind

/-- What is wrong with one operator of a field: nothing, or one thing. -/
def operatorFaults (field : String) (kind : FilterKind) (entry : String × Value) :
    List CompileError :=
  match ComparisonOperator.ofName? entry.1 with
  | none => [.unknownOperator entry.1 field]
  | some op => if takes kind op entry.2 then [] else [refusal field kind op entry.2]

mutual

/-- Everything that is wrong with an entry, in order. -/
def entryFaults (schema : Schema) (type key : String) (value : Value) : List CompileError :=
  match FilterKey.ofName key with
  | .connective op =>
    match value with
    | .list items => itemFaults schema type op items
    | _ => [.connectiveNotList op]
  | .negation =>
    match value with
    | .object entries => objectFaults schema type entries
    | _ => [.negationNotObject]
  | .member =>
    match schema.member? type key with
    | none => [.unknownField key type]
    | some (.value field) =>
      match value with
      | .object operators => operators.flatMap (operatorFaults key field.filterKind)
      | _ => [.fieldFilterNotObject key type]
    | some (.record reference) =>
      match value with
      | .object entries =>
        if schema.knows reference.target then objectFaults schema reference.target entries
        else [.missingObjectInfo reference.target]
      | _ => [.relationshipFilterNotObject reference.relationshipName type]

/-- Everything that is wrong with the entries of an object. -/
def objectFaults (schema : Schema) (type : String) : List (String × Value) → List CompileError
  | [] => []
  | (key, value) :: rest => entryFaults schema type key value ++ objectFaults schema type rest

/-- Everything that is wrong with the items of a connective. -/
def itemFaults (schema : Schema) (type : String) (op : Connective) :
    List Value → List CompileError
  | [] => []
  | .object entries :: rest => objectFaults schema type entries ++ itemFaults schema type op rest
  | _ :: rest => .connectiveEntryNotObject op :: itemFaults schema type op rest

end

/-- Everything that is wrong with a filter. -/
def filterFaults (schema : Schema) (type : String) : Value → List CompileError
  | .object entries => objectFaults schema type entries
  | _ => [.whereNotObject type]

/-! ## Operands that are taken -/

theorem isAllowed_eq_offers (op : ComparisonOperator) (kind : FilterKind) :
    isAllowed op kind = offers kind op := by
  cases op <;> cases kind <;> rfl

theorem isSome_scalarLiteral? (kind : FilterKind) (value : Value) :
    (scalarLiteral? kind value).isSome = fits kind value := by
  cases kind <;> cases value <;>
    simp [scalarLiteral?, fits, booleanValue?, intValue?, doubleValue?, textValue?,
      FilterKind.isTextual]

theorem isSome_mapM {α β : Type} (f : α → Option β) (items : List α) :
    (items.mapM f).isSome = items.all fun item => (f item).isSome := by
  induction items with
  | nil => rfl
  | cons item items ih =>
    rw [List.mapM_cons, List.all_cons, ← ih]
    cases f item with
    | none => rfl
    | some result => cases items.mapM f <;> rfl

theorem map_eq_map_of_mapM {α β γ : Type} {f : α → Option β} {g : β → γ} {h : α → γ}
    (heq : ∀ x y, f x = some y → g y = h x) : ∀ {xs : List α} {ys : List β},
      xs.mapM f = some ys → ys.map g = xs.map h
  | [], ys, hys => by
    cases hys
    rfl
  | x :: xs, ys, hys => by
    rw [List.mapM_cons] at hys
    obtain ⟨y, hy, hys⟩ := Option.bind_eq_some_iff.1 hys
    obtain ⟨ys', hys', heq'⟩ := Option.bind_eq_some_iff.1 hys
    cases heq'
    rw [List.map_cons, List.map_cons, heq x y hy, map_eq_map_of_mapM heq hys']

theorem isSome_textValue? {kind : FilterKind} (hkind : kind.isTextual = true) (item : Value) :
    (textValue? item).isSome = fits kind item := by
  rw [← isSome_scalarLiteral?]
  cases kind <;> simp_all [FilterKind.isTextual, scalarLiteral?]

theorem isSome_doubleValue? (item : Value) : (doubleValue? item).isSome = fits .double item := by
  rw [← isSome_scalarLiteral?, scalarLiteral?, Option.isSome_map]

/-- A list has a literal if all its items have one: on texts a text, on numbers a double. -/
theorem isSome_listLiteral? (kind : FilterKind) (items : List Value) :
    (listLiteral? kind items).isSome =
      (kind.isTextual && items.all (fits kind) ||
        (kind = .int || kind = .double) && items.all (fits .double)) := by
  cases hkind : kind.isTextual with
  | true =>
    have htexts : listLiteral? kind items = (items.mapM textValue?).map .strings := by
      cases kind <;> first | rfl | cases hkind
    have hnumbers : (decide (kind = .int) || decide (kind = .double)) = false := by
      cases kind <;> first | rfl | cases hkind
    simp [htexts, hnumbers, isSome_mapM, isSome_textValue? hkind]
  | false =>
    cases kind with
    | boolean => rfl
    | int => simp [listLiteral?, isSome_mapM, isSome_doubleValue?]
    | double => simp [listLiteral?, isSome_mapM, isSome_doubleValue?]
    | _ => cases hkind

/-- Of the values other than null, an operator that the kind has takes those that have a literal. -/
theorem errors_valueComparison (field : String) {kind : FilterKind} (left : Expression)
    {op : ComparisonOperator} {value : Value} (hvalue : value ≠ .null)
    (hoffers : offers kind op = true) :
    (valueComparison field kind left op value).errors =
      if takes kind op value then [] else [.operandMismatch op field kind] := by
  unfold valueComparison
  extract_lets literal?
  have hsome : literal?.isSome = takes kind op value := by
    unfold literal?
    cases value with
    | null => exact absurd rfl hvalue
    | list items =>
      cases hset : op.isSet <;> simp [takes, hset, isSome_listLiteral?]
    | _ => cases hset : op.isSet <;> simp [takes, hset, hoffers, isSome_scalarLiteral?]
  rw [← hsome]
  clear_value literal?
  cases literal? with
  | none => rfl
  | some literal =>
    cases literal with
    | dateTime text =>
      simp only
      split <;> rfl
    | _ => rfl

/-- An operator that the kind does not have takes no value but null. -/
theorem takes_of_not_offers {kind : FilterKind} {op : ComparisonOperator} {value : Value}
    (hvalue : value ≠ .null) (hoffers : offers kind op = false) : takes kind op value = false := by
  cases value with
  | null => exact absurd rfl hvalue
  | list items =>
    -- every kind but the booleans has the operators of sets
    cases hset : op.isSet with
    | false => simp [takes, hset]
    | true =>
      have hlike : op ≠ .like := by
        rintro rfl
        cases hset
      have hkind : kind = .boolean := by
        by_contra hne
        simp [offers, hlike, hne] at hoffers
      simp [takes, hkind, FilterKind.isTextual]
  | _ => simp [takes, hoffers]

theorem name_of_ofName? {name : String} {op : ComparisonOperator}
    (h : ComparisonOperator.ofName? name = some op) : name = op.name := by
  have hname := List.find?_some h
  exact (of_decide_eq_true hname).symm

/-- **An operator has the errors that are wrong with it**: at most one. -/
theorem errors_comparison (field : String) (kind : FilterKind) (left : Expression)
    (entry : String × Value) :
    (comparison field kind left entry).errors = operatorFaults field kind entry := by
  obtain ⟨name, value⟩ := entry
  unfold comparison operatorFaults
  cases ComparisonOperator.ofName? name with
  | none => rfl
  | some op =>
    by_cases hnull : value = .null
    · subst hnull
      cases op <;> rfl
    · have hrefusal : refusal field kind op value =
          if offers kind op then .operandMismatch op field kind
          else .operatorNotAllowed op kind := by
        cases value <;> first | rfl | exact absurd rfl hnull
      simp only [hrefusal, isAllowed_eq_offers]
      cases hoffers : offers kind op with
      | true => exact errors_valueComparison field left hnull hoffers
      | false =>
        rw [takes_of_not_offers hnull hoffers]
        rfl

/-! ## Words -/

theorem ofName_eq_connective {key : String} {op : Connective} :
    FilterKey.ofName key = .connective op ↔ key = op.name := by
  unfold FilterKey.ofName
  cases op <;> grind [Connective.name]

theorem ofName_eq_negation {key : String} : FilterKey.ofName key = .negation ↔ key = "not" := by
  unfold FilterKey.ofName
  grind

theorem ofName_eq_member {key : String} :
    FilterKey.ofName key = .member ↔ key ∉ ["and", "or", "not"] := by
  unfold FilterKey.ofName
  grind

theorem member?_eq_value {schema : Schema} {type key : String} {field : FieldInfo} :
    schema.member? type key = some (.value field) ↔
      schema.field? type key = some field ∧ field.spanning? key = none := by
  unfold Schema.member?
  rw [Option.map_eq_some_iff]
  constructor
  · rintro ⟨found, hfound, hmember⟩
    split at hmember
    · cases hmember
    · rename_i hspanning
      cases hmember
      exact ⟨hfound, hspanning⟩
  · rintro ⟨hfound, hspanning⟩
    exact ⟨field, hfound, by rw [hspanning]⟩

theorem member?_eq_record {schema : Schema} {type key : String} {reference : Reference} :
    schema.member? type key = some (.record reference) ↔
      ∃ field, schema.field? type key = some field ∧ field.spanning? key = some reference := by
  unfold Schema.member?
  rw [Option.map_eq_some_iff]
  refine exists_congr fun field => and_congr_right fun _ => ?_
  constructor
  · intro hmember
    split at hmember
    · rename_i hspanning
      cases hmember
      exact hspanning
    · cases hmember
  · intro hspanning
    rw [hspanning]

/-! ## Filters that are well-typed -/

theorem operatorFaults_eq_nil {field : String} {kind : FilterKind} {entry : String × Value} :
    operatorFaults field kind entry = [] ↔
      ∃ op, entry.1 = ComparisonOperator.name op ∧ takes kind op entry.2 = true := by
  unfold operatorFaults
  constructor
  · intro h
    split at h
    · cases h
    · rename_i op hop
      split at h
      · rename_i htakes
        exact ⟨op, name_of_ofName? hop, htakes⟩
      · cases h
  · rintro ⟨op, hname, htakes⟩
    rw [hname, ComparisonOperator.ofName?_name]
    simp only [htakes, if_true]

variable {schema : Schema} {type key : String}

theorem entryWellTyped_connective {op : Connective} {value : Value}
    (hkey : FilterKey.ofName key = .connective op) :
    EntryWellTyped schema type key value ↔ ∃ objects : List (List (String × Value)),
      value = .list (objects.map .object) ∧
      ∀ entries ∈ objects, ∀ entry ∈ entries, EntryWellTyped schema type entry.1 entry.2 := by
  constructor
  · intro h
    cases h with
    | connective _ hobjects => exact ⟨_, rfl, hobjects⟩
    | negation hname _ => cases hkey.symm.trans (ofName_eq_negation.2 hname)
    | field hname _ _ _ => cases hkey.symm.trans (ofName_eq_member.2 hname)
    | record hname _ _ _ _ => cases hkey.symm.trans (ofName_eq_member.2 hname)
  · rintro ⟨objects, rfl, hobjects⟩
    exact .connective (ofName_eq_connective.1 hkey) hobjects

theorem entryWellTyped_negation {value : Value} (hkey : FilterKey.ofName key = .negation) :
    EntryWellTyped schema type key value ↔ ∃ entries, value = .object entries ∧
      ∀ entry ∈ entries, EntryWellTyped schema type entry.1 entry.2 := by
  constructor
  · intro h
    cases h with
    | connective hname _ => cases hkey.symm.trans (ofName_eq_connective.2 hname)
    | negation _ hentries => exact ⟨_, rfl, hentries⟩
    | field hname _ _ _ => cases hkey.symm.trans (ofName_eq_member.2 hname)
    | record hname _ _ _ _ => cases hkey.symm.trans (ofName_eq_member.2 hname)
  · rintro ⟨entries, rfl, hentries⟩
    exact .negation (ofName_eq_negation.1 hkey) hentries

/-- A member is filtered by its operators if it is a value, and by an object for the type that it
leads to if it is a record. -/
theorem entryWellTyped_member {value : Value} (hkey : FilterKey.ofName key = .member) :
    EntryWellTyped schema type key value ↔ ∃ entries, value = .object entries ∧
      ((∃ field, schema.member? type key = some (.value field) ∧
        ∀ entry ∈ entries, operatorFaults key field.filterKind entry = []) ∨
      (∃ reference, schema.member? type key = some (.record reference) ∧
        schema.knows reference.target = true ∧
        ∀ entry ∈ entries, EntryWellTyped schema reference.target entry.1 entry.2)) := by
  constructor
  · intro h
    cases h with
    | connective hname _ => cases hkey.symm.trans (ofName_eq_connective.2 hname)
    | negation hname _ => cases hkey.symm.trans (ofName_eq_negation.2 hname)
    | field _ hfield hspanning hoperators =>
      exact ⟨_, rfl, .inl ⟨_, member?_eq_value.2 ⟨hfield, hspanning⟩,
        fun entry hentry => operatorFaults_eq_nil.2 (hoperators entry hentry)⟩⟩
    | record _ hfield hspanning hknows hentries =>
      exact ⟨_, rfl, .inr ⟨_, member?_eq_record.2 ⟨_, hfield, hspanning⟩, hknows, hentries⟩⟩
  · rintro ⟨entries, rfl, ⟨field, hmember, hoperators⟩ | ⟨reference, hmember, hknows, hentries⟩⟩
    · obtain ⟨hfield, hspanning⟩ := member?_eq_value.1 hmember
      exact .field (ofName_eq_member.1 hkey) hfield hspanning
        fun entry hentry => operatorFaults_eq_nil.1 (hoperators entry hentry)
    · obtain ⟨field, hfield, hspanning⟩ := member?_eq_record.1 hmember
      exact .record (ofName_eq_member.1 hkey) hfield hspanning hknows hentries

mutual

/-- **Nothing is wrong exactly with the entries that are well-typed.** -/
theorem entryFaults_eq_nil : ∀ (type key : String) (value : Value),
    entryFaults schema type key value = [] ↔ EntryWellTyped schema type key value
  | type, key, value => by
    unfold entryFaults
    split
    · rename_i op hkey
      rw [entryWellTyped_connective hkey]
      cases value with
      | list items => simpa only [Value.list.injEq] using itemFaults_eq_nil type op items
      | _ => simp
    · rename_i hkey
      rw [entryWellTyped_negation hkey]
      cases value with
      | object entries => simpa using objectFaults_eq_nil type entries
      | _ => simp
    · rename_i hkey
      rw [entryWellTyped_member hkey]
      cases hmember : schema.member? type key with
      | none => simp
      | some member =>
        cases member with
        | value field =>
          cases value with
          | object operators => simp
          | _ => simp
        | record reference =>
          cases value with
          | object entries =>
            cases hknows : schema.knows reference.target with
            | true => simpa [hknows] using objectFaults_eq_nil reference.target entries
            | false => simp [hknows]
          | _ => simp

theorem objectFaults_eq_nil : ∀ (type : String) (entries : List (String × Value)),
    objectFaults schema type entries = [] ↔
      ∀ entry ∈ entries, EntryWellTyped schema type entry.1 entry.2
  | _, [] => by simp [objectFaults]
  | type, (key, value) :: rest => by
    rw [objectFaults, List.append_eq_nil_iff, entryFaults_eq_nil type key value,
      objectFaults_eq_nil type rest, List.forall_mem_cons]

theorem itemFaults_eq_nil : ∀ (type : String) (op : Connective) (items : List Value),
    itemFaults schema type op items = [] ↔ ∃ objects : List (List (String × Value)),
      items = objects.map .object ∧
      ∀ entries ∈ objects, ∀ entry ∈ entries, EntryWellTyped schema type entry.1 entry.2
  | _, _, [] => ⟨fun _ => ⟨[], rfl, by simp⟩, fun _ => by rw [itemFaults]⟩
  | type, op, item :: rest => by
    cases item with
    | object entries =>
      rw [itemFaults, List.append_eq_nil_iff, objectFaults_eq_nil type entries,
        itemFaults_eq_nil type op rest]
      constructor
      · rintro ⟨hentries, objects, rfl, hobjects⟩
        exact ⟨entries :: objects, rfl, List.forall_mem_cons.2 ⟨hentries, hobjects⟩⟩
      · rintro ⟨objects, heq, hobjects⟩
        obtain ⟨first, objects, rfl, hfirst, rfl⟩ := List.map_eq_cons_iff.1 heq.symm
        cases hfirst
        obtain ⟨hentries, hobjects⟩ := List.forall_mem_cons.1 hobjects
        exact ⟨hentries, objects, rfl, hobjects⟩
    | _ =>
      -- no other value is an item
      simp only [itemFaults, reduceCtorEq, false_iff]
      rintro ⟨objects, heq, -⟩
      obtain ⟨first, _, _, hfirst, _⟩ := List.map_eq_cons_iff.1 heq.symm
      cases hfirst

end

/-! ## Errors of filters -/

theorem errors_gatherFilters (op : Connective) (results : List (Compiled RowFilter)) :
    (gatherFilters op results).errors = results.flatMap Checked.errors := by
  rw [gatherFilters, Checked.errors_map, Checked.errors_partition]

mutual

/-- **The errors of an entry are what is wrong with it**, whatever the row is called. -/
theorem errors_filterEntry : ∀ (row : Row) (key : String) (value : Value),
    (filterEntry schema row key value).errors = entryFaults schema row.type key value
  | row, key, value => by
    unfold filterEntry entryFaults
    cases FilterKey.ofName key with
    | connective op =>
      cases value with
      | list items => exact (errors_gatherFilters ..).trans (errors_filterItems row op items)
      | _ => rfl
    | negation =>
      cases value with
      | object entries =>
        exact (Checked.errors_map ..).trans
          ((errors_gatherFilters ..).trans (errors_filterEntries row entries))
      | _ => rfl
    | member =>
      cases schema.member? row.type key with
      | none => rfl
      | some member =>
        cases member with
        | value field =>
          cases value with
          | object operators =>
            simp only [fieldFilter, Checked.errors_map, Checked.errors_partition, List.flatMap_map,
              errors_comparison]
          | _ => rfl
        | record reference =>
          cases value with
          | object entries =>
            simp only
            split
            · exact (Checked.errors_map ..).trans
                ((errors_gatherFilters ..).trans (errors_filterEntries _ entries))
            · rfl
          | _ => rfl

theorem errors_filterEntries : ∀ (row : Row) (entries : List (String × Value)),
    (filterEntries schema row entries).flatMap Checked.errors = objectFaults schema row.type entries
  | _, [] => by rw [filterEntries, objectFaults, List.flatMap_nil]
  | row, (key, value) :: rest => by
    rw [filterEntries, objectFaults, List.flatMap_cons, errors_filterEntry row key value,
      errors_filterEntries row rest]

theorem errors_filterItems : ∀ (row : Row) (op : Connective) (items : List Value),
    (filterItems schema row op items).flatMap Checked.errors = itemFaults schema row.type op items
  | _, _, [] => by rw [filterItems, itemFaults, List.flatMap_nil]
  | row, op, item :: rest => by
    have hrest := errors_filterItems row op rest
    cases item with
    | object entries =>
      rw [filterItems, itemFaults, List.flatMap_cons, errors_gatherFilters,
        errors_filterEntries row entries, hrest]
    | _ =>
      simp [filterItems, itemFaults, hrest, Checked.fail, Checked.errors]

end

/-- The errors of the `where` argument are what is wrong with it. -/
theorem errors_whereArgument (schema : Schema) (row : Row) (value : Value) :
    (whereArgument schema row (some value)).errors = filterFaults schema row.type value := by
  cases value with
  | object entries =>
    rw [whereArgument, Checked.errors_map, filterObject, errors_gatherFilters,
      errors_filterEntries, filterFaults]
  | _ => rfl

theorem filterFaults_eq_nil (schema : Schema) (type : String) (value : Value) :
    filterFaults schema type value = [] ↔ WellTyped schema type value := by
  unfold WellTyped
  cases value with
  | object entries => simpa [filterFaults] using objectFaults_eq_nil type entries
  | _ => simp [filterFaults]

/-- **Exactly the well-typed filters compile**, to a filter of the row; and any other one fails with
everything that is wrong with it, in order. -/
theorem whereArgument_wellTyped (schema : Schema) (row : Row) (value : Value) :
    ((∃ filter, whereArgument schema row (some value) = .ok (some filter)) ↔
      WellTyped schema row.type value) ∧
    ∀ errors, whereArgument schema row (some value) = .error errors ↔
      errors = filterFaults schema row.type value ∧ ¬ WellTyped schema row.type value := by
  have hreports := whereArgument_reports schema row (some value)
  refine ⟨?_, fun errors => ?_⟩
  · rw [← filterFaults_eq_nil, ← errors_whereArgument, ← hreports.exists_ok_iff]
    constructor
    · rintro ⟨filter, hok⟩
      exact ⟨some filter, hok⟩
    · rintro ⟨filter?, hok⟩
      obtain ⟨_, filter, _, rfl, _⟩ := whereArgument_eq_ok.1 hok
      exact ⟨filter, hok⟩
  · rw [hreports.eq_error_iff, errors_whereArgument, ← filterFaults_eq_nil, eq_comm]
    exact and_congr_right fun herrors => by rw [herrors]

-- A filter with a fault at each of six places, one of them inside a disjunction.
example : filterFaults
    [("Visit", ⟨"Visit", [("Name", .scalar "Name" .string), ("Open", .scalar "Open" .boolean),
      ("OwnerId", .reference ⟨"OwnerId", "Owner", "User"⟩)], []⟩)] "Visit"
    (.object
      [("Name", .object [("eq", .null), ("gt", .null), ("near", .string "a")]),
       ("Open", .object [("eq", .string "true"), ("like", .string "a")]),
       ("Owner", .object []),
       ("or", .list [.object [("Day", .object [])], .object [("Name", .object [])]])]) =
    [.nullRefused .gt "Name", .unknownOperator "near" "Name", .operandMismatch .eq "Open" .boolean,
      .operatorNotAllowed .like .boolean, .missingObjectInfo "User",
      .unknownField "Day" "Visit"] := rfl

end SoupQuery.Compile
