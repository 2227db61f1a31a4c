import SoupQuery.Proofs.Joins
import SoupQuery.Proofs.Reading

/-!
# Filters that compare nothing

A filter can be made of connectives, negations, fields and references, and still compare nothing.
Such a filter compiles to a compound of nothing, whatever its form, and only such a filter does; at
the top of a connection it counts for nothing. Beside other entries it is kept, and there an empty
conjunction and an empty disjunction differ.

* `Detects` — a condition has atoms exactly if something is compared, and is a compound of nothing
  if nothing is.
* `filterInvariant_detects` — every form of a filter is compiled to such a condition.
* `Field.without` — a field without one of its arguments.
* `whereArgument_isEmpty` — **exactly the filters that compare nothing are empty**, and one that
  follows no reference either is as good as none.
* `whereArgument_insertEntry` — **an entry that compares nothing leaves a filter as it is, or lets
  it match nothing**: the latter if it comes to a disjunction of nothing.
* `emptyOr_matches_nothing` — so an empty `or` is not the same as no `or`.
-/

namespace SoupQuery.GraphQL

/-! ## Arguments and entries -/

/-- The field without the argument of the given name. -/
def Field.without (field : Field) (name : String) : Field :=
  { field with arguments := field.arguments.filter (·.1 ≠ name) }

theorem Field.argument?_without_self (field : Field) (name : String) :
    (field.without name).argument? name = none := by
  rw [Field.argument?, List.lookup_eq_none_iff]
  intro entry hentry
  have hne : entry.1 ≠ name := of_decide_eq_true (List.mem_filter.1 hentry).2
  exact bne_iff_ne.2 hne.symm

theorem Field.argument?_without {name other : String} (hne : other ≠ name) (field : Field) :
    (field.without name).argument? other = field.argument? other := by
  unfold Field.argument? Field.without
  induction field.arguments with
  | nil => rfl
  | cons entry rest ih =>
    by_cases hentry : entry.1 = name
    · have hother : (other == entry.1) = false := beq_eq_false_iff_ne.2 (hentry ▸ hne)
      rw [List.filter_cons_of_neg (by simpa using hentry), List.lookup_cons, hother, ih]
    · rw [List.filter_cons_of_pos (by simpa using hentry), List.lookup_cons, List.lookup_cons, ih]

/-- An entry of a new key is put between the others. -/
theorem insertEntry_of_not_mem {key : String} (value : Value) :
    ∀ {entries : List (String × Value)}, key ∉ entries.map (·.1) → ∃ before after,
      entries = before ++ after ∧ insertEntry key value entries = before ++ (key, value) :: after
  | [], _ => ⟨[], [], rfl, rfl⟩
  | entry :: rest, h => by
    obtain ⟨hkey, hrest⟩ := not_or.1 (mt List.mem_cons.2 h)
    by_cases hlt : key < entry.1
    · exact ⟨[], entry :: rest, rfl, by rw [insertEntry, if_pos hlt]; rfl⟩
    · obtain ⟨before, after, rfl, hinsert⟩ := insertEntry_of_not_mem value hrest
      refine ⟨entry :: before, after, rfl, ?_⟩
      rw [insertEntry, if_neg hlt, if_neg hkey, hinsert]
      rfl

end SoupQuery.GraphQL

namespace SoupQuery.Compile

open SoupQuery.GraphQL

variable {schema : Schema} {row : Row}

/-! ## Conditions of filters that compare nothing -/

/-- A condition has an atom exactly if something is compared, and is a compound of nothing if
nothing is. -/
structure Detects (compares : Bool) (p : Predicate) : Prop where
  atoms : p.hasAtom = compares
  empty : compares = false → p.isEmpty = true

theorem Detects.isEmpty_eq {compares : Bool} {p : Predicate} (h : Detects compares p) :
    p.isEmpty = !compares := by
  cases compares with
  | false => exact h.empty rfl
  | true =>
    by_contra hempty
    rw [Bool.not_true, Bool.not_eq_false] at hempty
    cases h.atoms.symm.trans (Predicate.hasAtom_of_isEmpty hempty)

/-- **Joining keeps it**, by either connective: compounds of nothing come to one of them. -/
theorem Detects.combine {α : Type} {op : Connective} {items : List α} {filters : List RowFilter}
    {compares : α → Bool}
    (h : List.Forall₂ (fun item filter => Detects (compares item) filter.predicate)
      items filters) :
    Detects ((items.map compares).any id) (RowFilter.combine op filters).predicate := by
  have hatoms : (filters.map (·.predicate)).map Predicate.hasAtom = items.map compares := by
    rw [List.map_map]
    exact map_eq_map_of_forall₂ h fun _ _ hfilter => hfilter.atoms
  refine ⟨?_, fun hnone => ?_⟩
  · rw [RowFilter.combine, Predicate.hasAtom_combine, hatoms]
  · refine Predicate.isEmpty_combine fun p hp => ?_
    obtain ⟨filter, hfilter, rfl⟩ := List.mem_map.1 hp
    obtain ⟨item, hitem, hdetects⟩ := exists_of_forall₂_right h filter hfilter
    rw [List.any_eq_false] at hnone
    exact hdetects.empty (by simpa using hnone _ (List.mem_map_of_mem hitem))

theorem Detects.negate {compares : Bool} {filter : RowFilter}
    (h : Detects compares filter.predicate) : Detects compares filter.negate.predicate := by
  unfold RowFilter.negate
  split
  · exact h
  · rename_i hfull
    refine ⟨h.atoms, fun hnone => ?_⟩
    exact absurd (h.empty hnone) hfull

theorem detects_field {name : String} {field : FieldInfo} {operators : List (String × Value)}
    {predicates : List Predicate} (h : Compares row name field operators predicates) :
    Detects (!operators.isEmpty) (Predicate.combine .and predicates) := by
  have hatoms : predicates.map Predicate.hasAtom = operators.map fun _ => true :=
    map_eq_map_of_forall₂ h fun _ _ hentry =>
      Predicate.interpret_of_isAtom .presence (comparison_isAtom hentry)
  refine ⟨?_, fun hnone => ?_⟩
  · rw [Predicate.hasAtom_combine, hatoms]
    cases operators <;> rfl
  · cases h with
    | nil => rfl
    | cons _ _ => cases hnone

/-- Every form of a filter is compiled to a condition that tells whether it compares anything. -/
theorem filterInvariant_detects (schema : Schema) :
    FilterInvariant schema
      (fun row entries filter =>
        Detects (comparesEntries schema row.type entries) filter.predicate)
      (fun row key value filter =>
        Detects (comparesEntry schema row.type key value) filter.predicate) where
  object := by
    intro row entries filters h
    rw [comparesEntries_eq_any]
    exact Detects.combine h
  connective := by
    intro row key op objects filters hkey h
    unfold comparesEntry
    simp only [hkey, comparesItems_objects]
    exact Detects.combine h
  negation := by
    intro row key entries filter hkey h
    unfold comparesEntry
    simp only [hkey]
    exact h.negate
  field := by
    intro row key field operators predicates hkey hmember h
    unfold comparesEntry
    simp only [hkey, hmember]
    exact detects_field h
  record := by
    intro row key reference entries filter hkey hmember _ h
    unfold comparesEntry
    simp only [hkey, hmember]
    exact h

/-! ## The same as no filter -/

theorem JoinsAlong.eq_nil_iff {joins : List Join} {spans : Row → Reference → Prop}
    (h : JoinsAlong joins spans) :
    joins = [] ↔ ∀ parent reference, ¬ spans parent reference := by
  constructor
  · rintro rfl parent reference hspans
    cases (h _).2 ⟨parent, reference, hspans, rfl⟩
  · intro hnone
    refine List.eq_nil_iff_forall_not_mem.2 fun join hjoin => ?_
    obtain ⟨parent, reference, hspans, -⟩ := (h join).1 hjoin
    exact hnone parent reference hspans

/-- A filter that restricts nothing and joins nothing adds nothing to a query. -/
theorem toQuery_of_isEmpty {filter : RowFilter} (hempty : filter.predicate.isEmpty = true)
    (hjoins : filter.joins = []) (parts : Parts) (anchors : List Predicate) :
    ({ parts with filter? := some filter }).toQuery row anchors =
      ({ parts with filter? := none }).toQuery row anchors := by
  have hcondition : filter.condition = [] := by rw [RowFilter.condition, if_pos hempty]
  simp only [Parts.toQuery, Parts.conditions, Parts.joins, Option.map_some, Option.map_none,
    Option.getD_some, Option.getD_none, hjoins, hcondition]
  rfl

/-- A connection whose filter restricts nothing and joins nothing is compiled as if it had none. -/
theorem recordQuery_without {context : Context} {filter : RowFilter} {head : Field}
    (hwhere : whereArgument context.schema row (head.argument? "where") = .ok (some filter))
    (hempty : filter.predicate.isEmpty = true) (hjoins : filter.joins = [])
    (anchors : List Predicate) (below : List Selection) :
    recordQuery context row anchors head below =
      recordQuery context row anchors (head.without "where") below := by
  have hnone : whereArgument context.schema row ((head.without "where").argument? "where") =
      .ok none := by
    rw [head.argument?_without_self]
    rfl
  have hkey : (head.without "where").responseKey = head.responseKey := rfl
  simp only [recordQuery, assemble, hwhere, hnone, hkey,
    Field.argument?_without (show "scope" ≠ "where" by decide),
    Field.argument?_without (show "orderBy" ≠ "where" by decide),
    Field.argument?_without (show "first" ≠ "where" by decide)]
  -- what is left to compile is the same on both sides
  generalize Checked.zip (scopeArgument ..) _ = rest
  cases rest with
  | error errors => rfl
  | ok parts =>
    obtain ⟨scope?, orders, first?, selected⟩ := parts
    exact congrArg Except.ok
      (toQuery_of_isEmpty hempty hjoins ⟨none, scope?, orders, first?, selected⟩ anchors)

/-- **Exactly the filters that compare nothing are empty.** One that follows no reference either is
as good as none: the connection compiles to the same query, or fails for the same reasons, as
without it. -/
theorem whereArgument_isEmpty {value : Value} {filter : RowFilter}
    (h : whereArgument schema row (some value) = .ok (some filter)) :
    ∃ entries, value = .object entries ∧
      (filter.predicate.isEmpty = true ↔ comparesEntries schema row.type entries = false) ∧
      (comparesEntries schema row.type entries = false →
        (∀ parent reference, ¬ FilterSpans schema row entries parent reference) →
        ∀ userId anchors head below, head.argument? "where" = some value →
          recordQuery ⟨schema, userId⟩ row anchors head below =
            recordQuery ⟨schema, userId⟩ row anchors (head.without "where") below) := by
  obtain ⟨entries, _, rfl, heq, hfilter⟩ := whereArgument_eq_ok.1 h
  cases heq
  have hdetects := (filterInvariant_detects schema).filterObject hfilter
  have hisEmpty : filter.predicate.isEmpty = true ↔
      comparesEntries schema row.type entries = false := by
    rw [hdetects.isEmpty_eq, Bool.not_eq_true']
  refine ⟨entries, rfl, hisEmpty, fun hnone hspans userId anchors head below hwhere => ?_⟩
  have hjoins := ((filterInvariant_joinsAlong schema).filterObject hfilter).eq_nil_iff.2 hspans
  exact recordQuery_without (hwhere ▸ h) (hisEmpty.2 hnone) hjoins anchors below

/-- A filter on visits that compares nothing: a field without operators, an empty disjunction among
empty conjunctions, and the negation of such a filter. -/
def blankEntries : List (String × Value) :=
  [("Name", .object []),
   ("and", .list [.object [], .object [("or", .list [])]]),
   ("not", .object [("or", .list [.object [("and", .list [])], .object [("or", .list [])]])])]

/-- It is compiled to an empty disjunction. With it or without it, the first two visits are asked
for. -/
theorem blankEntries_isEmpty :
    whereArgument visitSchema ⟨"v", "Visit"⟩ (some (.object blankEntries)) =
      .ok (some ⟨.compound .or [], []⟩) ∧
    recordQuery ⟨visitSchema, "u1"⟩ ⟨"v", "Visit"⟩ [.hasType "v" "Visit"]
        ⟨none, "Visit", [("where", .object blankEntries), ("first", .int 2)]⟩
        (edgesNode [.field ⟨none, "Id", []⟩ []]) =
      recordQuery ⟨visitSchema, "u1"⟩ ⟨"v", "Visit"⟩ [.hasType "v" "Visit"]
        ⟨none, "Visit", [("first", .int 2)]⟩ (edgesNode [.field ⟨none, "Id", []⟩ []]) := by
  have hok : whereArgument visitSchema ⟨"v", "Visit"⟩ (some (.object blankEntries)) =
      .ok (some ⟨.compound .or [], []⟩) := rfl
  obtain ⟨entries, hentries, hempty, hquery⟩ := whereArgument_isEmpty hok
  cases hentries
  have hobject : filterObject visitSchema ⟨"v", "Visit"⟩ blankEntries =
      .ok ⟨.compound .or [], []⟩ := rfl
  have hspans := ((filterInvariant_joinsAlong visitSchema).filterObject hobject).eq_nil_iff.1 rfl
  exact ⟨hok, hquery (hempty.1 rfl) hspans _ _ _ _ rfl⟩

/-! ## Beside other entries -/

theorem filterEntries_eq_map (entries : List (String × Value)) :
    filterEntries schema row entries =
      entries.map fun entry => filterEntry schema row entry.1 entry.2 := by
  induction entries with
  | nil => rfl
  | cons entry entries ih => rw [filterEntries, ih, List.map_cons]

/-- An object compiles if each of its entries does. -/
theorem filterObject_eq_ok {entries : List (String × Value)} {filter : RowFilter} :
    filterObject schema row entries = .ok filter ↔ ∃ filters : List RowFilter,
      (entries.map fun entry => filterEntry schema row entry.1 entry.2) = filters.map .ok ∧
      RowFilter.combine .and filters = filter := by
  rw [filterObject, gatherFilters_eq_ok (filterEntries_reports schema row entries),
    filterEntries_eq_map]

/-- The truth value of a conjunction with one more condition. -/
theorem truth_combine_insert (v : Valuation) (before after : List RowFilter) (filter : RowFilter) :
    (RowFilter.combine .and (before ++ filter :: after)).predicate.truth v =
      (filter.predicate.truth v).and
        ((RowFilter.combine .and (before ++ after)).predicate.truth v) := by
  simp only [RowFilter.combine, Predicate.truth_combine, ← v.logic_joined, List.map_append,
    List.map_cons, v.logic.joined_append, v.logic.joined_cons]
  rw [← v.logic.join_assoc, v.logic.join_comm _ _ (filter.predicate.truth v), v.logic.join_assoc]
  rfl

/-- An entry that compares nothing and follows no reference compiles to a compound of nothing, by
itself or as the only entry of an object. -/
theorem filterEntry_compares_nothing {key : String} {value : Value} {added : RowFilter}
    (h : filterObject schema row [(key, value)] = .ok added)
    (hnone : comparesEntry schema row.type key value = false)
    (hspans : ∀ parent reference, ¬ EntrySpans schema row key value parent reference) :
    ∃ op, added = ⟨.compound op [], []⟩ ∧ filterEntry schema row key value = .ok added := by
  obtain ⟨filters, hfilters, rfl⟩ := filterObject_eq_ok.1 h
  obtain ⟨⟨predicate, joins⟩, rfl, hentry⟩ := List.map_eq_singleton_iff.1 hfilters.symm
  have hdetects := (filterInvariant_detects schema).entry_ok row key value _ hentry.symm
  obtain ⟨op, rfl⟩ := Predicate.isEmpty_iff.1 (hdetects.empty hnone)
  obtain rfl : joins = [] :=
    ((filterInvariant_joinsAlong schema).entry_ok row key value _ hentry.symm).eq_nil_iff.2 hspans
  have hcombine : RowFilter.combine .and [⟨.compound op [], []⟩] = ⟨.compound op [], []⟩ := by
    cases op <;> rfl
  rw [hcombine]
  exact ⟨op, rfl, hentry.symm⟩

/-- The filter of an entry under a new key is put between those of the others. -/
theorem filterObject_insertEntry {entries : List (String × Value)} {filter added : RowFilter}
    {key : String} {value : Value} (h : filterObject schema row entries = .ok filter)
    (hentry : filterEntry schema row key value = .ok added) (hkey : key ∉ entries.map (·.1)) :
    ∃ before after, filter = RowFilter.combine .and (before ++ after) ∧
      filterObject schema row (insertEntry key value entries) =
        .ok (RowFilter.combine .and (before ++ added :: after)) := by
  obtain ⟨first, last, rfl, hinsert⟩ := insertEntry_of_not_mem value hkey
  obtain ⟨filters, hfilters, rfl⟩ := filterObject_eq_ok.1 h
  rw [List.map_append] at hfilters
  obtain ⟨before, after, rfl, hbefore, hafter⟩ := List.map_eq_append_iff.1 hfilters.symm
  refine ⟨before, after, rfl, filterObject_eq_ok.2 ⟨before ++ added :: after, ?_, rfl⟩⟩
  rw [hinsert, List.map_append, List.map_cons, List.map_append, List.map_cons, hbefore, hafter,
    hentry]

/-- **An entry that compares nothing and follows no reference leaves a filter as it is, or lets it
match nothing.** It compiles to a compound of nothing: an empty conjunction leaves the truth value
as it is, an empty disjunction makes it false. If there is no disjunction of nothing in it, it is an
empty conjunction. -/
theorem whereArgument_insertEntry {entries : List (String × Value)} {filter added : RowFilter}
    {key : String} {value : Value}
    (h : whereArgument schema row (some (.object entries)) = .ok (some filter))
    (hadded : whereArgument schema row (some (.object [(key, value)])) = .ok (some added))
    (hkey : key ∉ entries.map (·.1))
    (hnone : comparesEntry schema row.type key value = false)
    (hspans : ∀ parent reference, ¬ EntrySpans schema row key value parent reference) :
    ∃ op filter', added = ⟨.compound op [], []⟩ ∧
      whereArgument schema row (some (.object (insertEntry key value entries))) =
        .ok (some filter') ∧
      filter'.joins = filter.joins ∧
      (op = .and → ∀ v, filter'.predicate.truth v = filter.predicate.truth v) ∧
      (op = .or → ∀ v, filter'.predicate.truth v = .fails) ∧
      ((Value.object [(key, value)]).hasEmptyOr = false → op = .and) := by
  obtain ⟨_, _, heq, heq', hobject⟩ := whereArgument_eq_ok.1 h
  cases heq
  cases heq'
  obtain ⟨_, _, heq, heq', hsingle⟩ := whereArgument_eq_ok.1 hadded
  cases heq
  cases heq'
  obtain ⟨op, rfl, hentry⟩ := filterEntry_compares_nothing hsingle hnone hspans
  obtain ⟨before, after, rfl, hinserted⟩ := filterObject_insertEntry hobject hentry hkey
  refine ⟨op, _, rfl, whereArgument_eq_ok.2 ⟨_, _, rfl, rfl, hinserted⟩, ?_, ?_, ?_, ?_⟩
  · simp [RowFilter.combine]
  · rintro rfl v
    rw [truth_combine_insert]
    exact v.logic.unit_join .and _
  · rintro rfl v
    rw [truth_combine_insert]
    rfl
  · intro hor
    rw [Value.hasEmptyOr] at hor
    have hagrees := (filterInvariant_agrees (.constant .holds) schema).filterObject hsingle hor
    have hcompares : comparesEntries schema row.type [(key, value)] = false := by
      rw [comparesEntries, hnone, comparesEntries, Bool.or_false]
    exact (Predicate.compound.inj (hagrees.empty hcompares)).1

/-- The visits that are called `a`. -/
def namedVisits : List (String × Value) := [("Name", .object [("eq", .string "a")])]

def namedVisitsFilter : RowFilter :=
  ⟨.comparison (.extract "v" "data.fields.Name.value") .eq (.string "a"), []⟩

theorem whereArgument_namedVisits :
    whereArgument visitSchema ⟨"v", "Visit"⟩ (some (.object namedVisits)) =
      .ok (some namedVisitsFilter) := rfl

/-- Filters that compare nothing, under a negation and a conjunction, change nothing. -/
theorem namedVisits_insertEntry : ∃ filter',
    whereArgument visitSchema ⟨"v", "Visit"⟩ (some (.object (insertEntry "not"
      (.object [("and", .list [.object [], .object [("Name", .object [])]])]) namedVisits))) =
        .ok (some filter') ∧
    ∀ v, filter'.predicate.truth v = namedVisitsFilter.predicate.truth v := by
  have hspans : ∀ parent reference, ¬ EntrySpans visitSchema ⟨"v", "Visit"⟩ "not"
      (.object [("and", .list [.object [], .object [("Name", .object [])]])]) parent reference :=
    ((filterInvariant_joinsAlong visitSchema).entry_ok _ _ _ ⟨.compound .and [], []⟩
      rfl).eq_nil_iff.1 rfl
  obtain ⟨op, filter', -, hok, -, hand, -, hop⟩ :=
    whereArgument_insertEntry whereArgument_namedVisits rfl (by decide) rfl hspans
  exact ⟨filter', hok, hand (hop rfl)⟩

/-- **An empty `or` is not the same as no `or`.** It compares nothing and follows no reference, and
by itself it restricts nothing; but beside another entry it is false, so that even visits that are
called `a` do not match. -/
theorem emptyOr_matches_nothing :
    whereArgument visitSchema ⟨"v", "Visit"⟩ (some (.object namedVisits)) =
      .ok (some namedVisitsFilter) ∧
    comparesEntries visitSchema "Visit" namedVisits = true ∧
    whereArgument visitSchema ⟨"v", "Visit"⟩ (some (.object [("or", .list [])])) =
      .ok (some ⟨.compound .or [], []⟩) ∧
    "or" ∉ namedVisits.map (·.1) ∧
    comparesEntry visitSchema "Visit" "or" (.list []) = false ∧
    (∀ parent reference,
      ¬ EntrySpans visitSchema ⟨"v", "Visit"⟩ "or" (.list []) parent reference) ∧
    ∃ filter', whereArgument visitSchema ⟨"v", "Visit"⟩
        (some (.object (insertEntry "or" (.list []) namedVisits))) = .ok (some filter') ∧
      namedVisitsFilter.predicate.truth (.constant .holds) = .holds ∧
      filter'.predicate.truth (.constant .holds) = .fails := by
  refine ⟨rfl, rfl, rfl, by decide, rfl, ?_, _, rfl, rfl, rfl⟩
  exact ((filterInvariant_joinsAlong visitSchema).entry_ok _ _ _ ⟨.compound .or [], []⟩
    rfl).eq_nil_iff.1 rfl

end SoupQuery.Compile
