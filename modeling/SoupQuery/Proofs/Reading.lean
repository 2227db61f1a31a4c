import SoupQuery.Proofs.Filter
import SoupQuery.Proofs.Truth

/-!
# The direct reading of a filter

What a filter says, read off its own entries, and that the compiled condition says the same.

* `readEntry`, `readObject` — the reading: an object is the conjunction of its entries.
* `comparesEntry`, `comparesEntries` — whether a filter compares anything at all.
* `Value.hasEmptyOr` — whether a value has a disjunction of nothing.
* `Agrees` — a condition says what a reading says, and is the empty conjunction if nothing is
  compared.
* `whereArgument_truth` — **a compiled filter has the truth value of its reading.**
-/

namespace SoupQuery.GraphQL

/-- The list of nothing. -/
def Value.isEmptyList : Value → Bool
  | .list [] => true
  | _ => false

mutual

/-- Whether a disjunction of nothing occurs in a value. -/
def Value.hasEmptyOr : Value → Bool
  | .list items => anyEmptyOr items
  | .object entries => entriesEmptyOr entries
  | _ => false

def anyEmptyOr : List Value → Bool
  | [] => false
  | value :: rest => value.hasEmptyOr || anyEmptyOr rest

/-- Whether one of the entries is a disjunction of nothing, or has one in its value. -/
def entriesEmptyOr : List (String × Value) → Bool
  | [] => false
  | (key, value) :: rest =>
    (key == "or" && value.isEmptyList) || value.hasEmptyOr || entriesEmptyOr rest

end

theorem anyEmptyOr_eq_false {items : List Value} :
    anyEmptyOr items = false ↔ ∀ item ∈ items, item.hasEmptyOr = false := by
  induction items with
  | nil => simp [anyEmptyOr]
  | cons item items ih => simp [anyEmptyOr, ih]

theorem entriesEmptyOr_eq_false {entries : List (String × Value)} :
    entriesEmptyOr entries = false ↔ ∀ entry ∈ entries,
      (entry.1 == "or" && entry.2.isEmptyList) = false ∧ entry.2.hasEmptyOr = false := by
  induction entries with
  | nil => simp [entriesEmptyOr]
  | cons entry entries ih =>
    rw [entriesEmptyOr, Bool.or_eq_false_iff, Bool.or_eq_false_iff, ih]
    simp

end SoupQuery.GraphQL

namespace SoupQuery.Compile

open SoupQuery.GraphQL

/-! ## The reading -/

/-- The conditions that the operators of a field compile to. -/
def fieldAtoms (row : Row) (name : String) (field : FieldInfo)
    (operators : List (String × Value)) : List Predicate :=
  operators.filterMap fun entry =>
    (comparison name field.filterKind (fieldValue row field.apiName) entry).value?

mutual

/-- Whether an entry of a filter compares anything. -/
def comparesEntry (schema : Schema) (type key : String) (value : Value) : Bool :=
  match FilterKey.ofName key with
  | .connective _ =>
    match value with
    | .list items => comparesItems schema type items
    | _ => false
  | .negation =>
    match value with
    | .object entries => comparesEntries schema type entries
    | _ => false
  | .member =>
    match schema.member? type key with
    | none => false
    | some (.value _) =>
      match value with
      | .object operators => !operators.isEmpty
      | _ => false
    | some (.record reference) =>
      match value with
      | .object entries => comparesEntries schema reference.target entries
      | _ => false

def comparesEntries (schema : Schema) (type : String) : List (String × Value) → Bool
  | [] => false
  | (key, value) :: rest =>
    comparesEntry schema type key value || comparesEntries schema type rest

/-- Whether one of the objects compares anything. -/
def comparesItems (schema : Schema) (type : String) : List Value → Bool
  | [] => false
  | .object entries :: rest =>
    comparesEntries schema type entries || comparesItems schema type rest
  | _ :: rest => comparesItems schema type rest

end

mutual

/-- What an entry of a filter says. The negation of an object that compares nothing restricts
nothing; a value that is no filter says nothing that is known. -/
def readEntry (v : Valuation) (schema : Schema) (row : Row) (key : String) (value : Value) :
    Truth :=
  match FilterKey.ofName key with
  | .connective op =>
    match value with
    | .list items => .joined op (readItems v schema row items)
    | _ => .unknown
  | .negation =>
    match value with
    | .object entries =>
      if comparesEntries schema row.type entries then
        (Truth.joined .and (readEntries v schema row entries)).not
      else .holds
    | _ => .unknown
  | .member =>
    match schema.member? row.type key with
    | none => .unknown
    | some (.value field) =>
      match value with
      | .object operators => .joined .and ((fieldAtoms row key field operators).map v.value)
      | _ => .unknown
    | some (.record reference) =>
      match value with
      | .object entries => .joined .and (readEntries v schema (row.join reference).row entries)
      | _ => .unknown

/-- What each entry of an object says. -/
def readEntries (v : Valuation) (schema : Schema) (row : Row) :
    List (String × Value) → List Truth
  | [] => []
  | (key, value) :: rest => readEntry v schema row key value :: readEntries v schema row rest

/-- What each item of a connective says. -/
def readItems (v : Valuation) (schema : Schema) (row : Row) : List Value → List Truth
  | [] => []
  | .object entries :: rest =>
    .joined .and (readEntries v schema row entries) :: readItems v schema row rest
  | _ :: rest => .unknown :: readItems v schema row rest

end

/-- What an object says: the conjunction of its entries. -/
def readObject (v : Valuation) (schema : Schema) (row : Row) (entries : List (String × Value)) :
    Truth :=
  .joined .and (readEntries v schema row entries)

section Lists

variable (v : Valuation) (schema : Schema) (row : Row) (type : String)

theorem comparesEntries_eq_any (entries : List (String × Value)) :
    comparesEntries schema type entries =
      (entries.map fun entry => comparesEntry schema type entry.1 entry.2).any id := by
  induction entries with
  | nil => rfl
  | cons entry entries ih => simp [comparesEntries, ih]

theorem comparesItems_objects (objects : List (List (String × Value))) :
    comparesItems schema type (objects.map .object) =
      (objects.map (comparesEntries schema type)).any id := by
  induction objects with
  | nil => rfl
  | cons object objects ih => simp [comparesItems, ih]

theorem readEntries_eq_map (entries : List (String × Value)) :
    readEntries v schema row entries =
      entries.map fun entry => readEntry v schema row entry.1 entry.2 := by
  induction entries with
  | nil => rfl
  | cons entry entries ih => simp [readEntries, ih]

theorem readItems_objects (objects : List (List (String × Value))) :
    readItems v schema row (objects.map .object) =
      objects.map (readObject v schema row) := by
  induction objects with
  | nil => rfl
  | cons object objects ih => simp [readItems, readObject, ih]

end Lists

/-! ## Agreement -/

/-- A condition says what a reading says, has an atom exactly if something is compared, and is the
empty conjunction if nothing is. -/
structure Agrees (v : Valuation) (reading : Truth) (compares : Bool) (p : Predicate) : Prop where
  truth : p.truth v = reading
  atoms : p.hasAtom = compares
  empty : compares = false → p = .compound .and []

variable {v : Valuation} {schema : Schema} {row : Row}

theorem map_eq_map_of_forall₂ {α β γ : Type} {R : α → β → Prop} {f : α → γ} {g : β → γ}
    {xs : List α} {ys : List β} (h : List.Forall₂ R xs ys) (heq : ∀ x y, R x y → g y = f x) :
    ys.map g = xs.map f := by
  induction h with
  | nil => rfl
  | cons hxy _ ih => rw [List.map_cons, List.map_cons, heq _ _ hxy, ih]

/-- **Joining keeps agreement**, item by item, except for a disjunction of nothing. -/
theorem Agrees.combine {α : Type} {op : Connective} {items : List α} {ps : List Predicate}
    {reading : α → Truth} {compares : α → Bool}
    (h : List.Forall₂ (fun item p => Agrees v (reading item) (compares item) p) items ps)
    (hne : op = .or → items ≠ []) :
    Agrees v (.joined op (items.map reading)) ((items.map compares).any id)
      (Predicate.combine op ps) := by
  have hatoms : ps.map Predicate.hasAtom = items.map compares :=
    map_eq_map_of_forall₂ h fun _ _ hp => hp.atoms
  refine ⟨?_, ?_, ?_⟩
  · rw [Predicate.truth_combine, map_eq_map_of_forall₂ h fun _ _ hp => hp.truth]
  · rw [Predicate.hasAtom_combine, hatoms]
  · intro hnone
    have hempty : ∀ p ∈ ps, p = .compound .and [] := by
      intro p hp
      obtain ⟨item, hitem, hagrees⟩ := exists_of_forall₂_right h p hp
      rw [List.any_eq_false] at hnone
      exact hagrees.empty (by simpa using hnone _ (List.mem_map_of_mem hitem))
    cases op with
    | and => exact Predicate.combine_of_same hempty
    | or =>
      -- a disjunction of empty conjunctions is unwrapped to one of them
      obtain ⟨p, hp⟩ : ∃ p, p ∈ ps := List.exists_mem_of_ne_nil ps fun hnil => by
        rw [hnil, List.forall₂_nil_right_iff] at h
        exact hne rfl h
      refine Predicate.combine_of_dual (hempty p hp ▸ hp) fun q hq => ?_
      rw [hempty q hq]
      rfl

theorem Agrees.negate {reading : Truth} {compares : Bool} {filter : RowFilter}
    (h : Agrees v reading compares filter.predicate) :
    Agrees v (if compares then reading.not else .holds) compares filter.negate.predicate := by
  unfold RowFilter.negate
  cases compares with
  | true =>
    have hfull : filter.predicate.isEmpty = false := by
      by_contra hempty
      rw [Bool.not_eq_false] at hempty
      cases h.atoms.symm.trans (Predicate.hasAtom_of_isEmpty hempty)
    rw [hfull]
    refine ⟨?_, h.atoms, fun hc => by cases hc⟩
    show (filter.predicate.truth v).not = reading.not
    rw [h.truth]
  | false =>
    have hempty := h.empty rfl
    have htrue : filter.predicate.isEmpty = true := by
      rw [hempty]
      rfl
    rw [htrue]
    refine ⟨?_, h.atoms, h.empty⟩
    show filter.predicate.truth v = .holds
    rw [hempty]
    rfl

/-! ## Fields -/

theorem comparison_isAtom {name : String} {kind : FilterKind} {left : Expression}
    {entry : String × Value} {p : Predicate}
    (h : comparison name kind left entry = .ok p) : p.IsAtom := by
  cases comparison_ok h <;> trivial

theorem fieldAtoms_eq {name : String} {field : FieldInfo} {operators : List (String × Value)}
    {predicates : List Predicate} (h : Compares row name field operators predicates) :
    fieldAtoms row name field operators = predicates := by
  unfold fieldAtoms
  induction h with
  | nil => rfl
  | cons hentry _ ih => rw [List.filterMap_cons, hentry, Checked.value?, ih]

theorem agrees_field {name : String} {field : FieldInfo} {operators : List (String × Value)}
    {predicates : List Predicate} (h : Compares row name field operators predicates) :
    Agrees v (.joined .and ((fieldAtoms row name field operators).map v.value))
      (!operators.isEmpty) (Predicate.combine .and predicates) := by
  have hatom : ∀ p ∈ predicates, Agrees v (v.value p) true p := by
    refine forall_of_forall₂_right h fun entry p hentry => ?_
    have hp := comparison_isAtom hentry
    refine ⟨Predicate.interpret_of_isAtom v.logic hp, ?_, fun hc => by cases hc⟩
    exact Predicate.interpret_of_isAtom .presence hp
  have hany : (predicates.map fun _ => true).any id = !operators.isEmpty := by
    cases h <;> rfl
  rw [fieldAtoms_eq h, ← hany]
  exact Agrees.combine (List.forall₂_same.2 hatom) fun hop => by cases hop

/-! ## Filters -/

theorem connective_or {key : String} (h : FilterKey.ofName key = .connective .or) :
    key = "or" := by
  unfold FilterKey.ofName at h
  split at h
  · cases h
  · split at h
    · assumption
    · split at h <;> cases h

theorem agrees_joined {α : Type} {op : Connective} {items : List α} {filters : List RowFilter}
    {reading : α → Truth} {compares : α → Bool}
    (h : List.Forall₂ (fun item filter =>
      Agrees v (reading item) (compares item) filter.predicate) items filters)
    (hne : op = .or → items ≠ []) :
    Agrees v (.joined op (items.map reading)) ((items.map compares).any id)
      (RowFilter.combine op filters).predicate :=
  Agrees.combine (List.forall₂_map_right_iff.2 h) hne

theorem filterInvariant_agrees (v : Valuation) (schema : Schema) :
    FilterInvariant schema
      (fun row entries filter => entriesEmptyOr entries = false →
        Agrees v (readObject v schema row entries) (comparesEntries schema row.type entries)
          filter.predicate)
      (fun row key value filter =>
        (key == "or" && value.isEmptyList) = false ∧ value.hasEmptyOr = false →
        Agrees v (readEntry v schema row key value) (comparesEntry schema row.type key value)
          filter.predicate) where
  object := by
    intro row entries filters h hor
    rw [entriesEmptyOr_eq_false] at hor
    have hagrees := ((List.forall₂_and_left _ _).2 ⟨hor, h⟩).imp
      fun _ _ hentry => hentry.2 hentry.1
    rw [readObject, readEntries_eq_map, comparesEntries_eq_any]
    exact agrees_joined hagrees fun hop => by cases hop
  connective := by
    rintro row key op objects filters hkey h ⟨hor, hors⟩
    have hobjects : ∀ object ∈ objects, entriesEmptyOr object = false := by
      rw [Value.hasEmptyOr, anyEmptyOr_eq_false] at hors
      intro object hobject
      simpa only [Value.hasEmptyOr] using hors _ (List.mem_map_of_mem hobject)
    have hagrees := ((List.forall₂_and_left _ _).2 ⟨hobjects, h⟩).imp
      fun _ _ hitem => hitem.2 hitem.1
    have hne : op = .or → objects ≠ [] := by
      rintro rfl rfl
      rw [connective_or hkey] at hor
      cases hor
    unfold readEntry comparesEntry
    rw [hkey]
    simp only [readItems_objects, comparesItems_objects]
    exact agrees_joined hagrees hne
  negation := by
    rintro row key entries filter hkey h ⟨-, hors⟩
    rw [Value.hasEmptyOr] at hors
    unfold readEntry comparesEntry
    rw [hkey]
    exact (h hors).negate
  field := by
    intro row key field operators predicates hkey hmember h _
    unfold readEntry comparesEntry
    rw [hkey]
    simp only [hmember]
    exact agrees_field h
  record := by
    rintro row key reference entries filter hkey hmember - h ⟨-, hors⟩
    rw [Value.hasEmptyOr] at hors
    unfold readEntry comparesEntry
    rw [hkey]
    simp only [hmember]
    exact h hors

/-- **A compiled filter has the truth value of its reading**, for every filter without a disjunction
of nothing that compiles, whatever its atoms say. -/
theorem whereArgument_truth (v : Valuation) (schema : Schema) (row : Row) {value : Value}
    {result : Option RowFilter} (h : whereArgument schema row (some value) = .ok result)
    (hor : value.hasEmptyOr = false) :
    ∃ entries filter, value = .object entries ∧ result = some filter ∧
      filter.predicate.truth v = readObject v schema row entries := by
  unfold whereArgument at h
  split at h
  · rename_i heq
    cases heq
  · rename_i entries heq
    cases heq
    obtain ⟨filter, hfilter, rfl⟩ := Checked.map_eq_ok.1 h
    rw [Value.hasEmptyOr] at hor
    have hagrees := (filterInvariant_agrees v schema).filterObject hfilter hor
    exact ⟨entries, filter, rfl, rfl, hagrees.truth⟩
  · cases h

/-! ## A sample filter

It negates an object that compares nothing, has an empty item, and negates a disjunction that is
neither true nor false. -/

/-- Visits have a name and an owner, who has a name. -/
def visitSchema : Schema :=
  [("Visit", ⟨"Visit", [("Name", .scalar "Name" .string),
      ("OwnerId", .reference ⟨"OwnerId", "Owner", "User"⟩)], []⟩),
   ("User", ⟨"User", [("Name", .scalar "Name" .string)], []⟩)]

/-- Visits that are not called `a` and whose owner has no name. -/
def visitFilter : Value :=
  .object
    [("and", .list [.object [], .object [("not", .object [("Owner", .object [])])]]),
     ("not", .object [("or", .list
        [.object [("Name", .object [("eq", .string "a")])],
         .object [("Owner", .object [("Name", .object [("ne", .null)])])]])])]

/-- Nothing is known of what is not null, and all comparisons fail. -/
def nullBlind : Valuation where
  value
    | .isNotNull _ => .unknown
    | _ => .fails
  value_eq := by
    intro p q hp h
    have hsame : Predicate.same p q = true := h
    cases p <;> cases q <;> simp_all [Predicate.same]

theorem visitFilter_truth : ∃ filter,
    whereArgument visitSchema ⟨"v", "Visit"⟩ (some visitFilter) = .ok (some filter) ∧
      visitFilter.hasEmptyOr = false ∧ filter.predicate.truth nullBlind = .unknown := by
  have hok : whereArgument visitSchema ⟨"v", "Visit"⟩ (some visitFilter) = .ok (some
      ⟨.negation (.compound .or
        [.comparison (.extract "v" "data.fields.Name.value") .eq (.string "a"),
         .isNotNull (.extract "v.Owner" "data.fields.Name.value")]),
       [⟨"v", "OwnerId", ⟨"v.Owner", "User"⟩⟩, ⟨"v", "OwnerId", ⟨"v.Owner", "User"⟩⟩]⟩) := by rfl
  obtain ⟨entries, filter, hentries, hfilter, htruth⟩ :=
    whereArgument_truth nullBlind visitSchema ⟨"v", "Visit"⟩ hok (by rfl)
  cases hentries
  refine ⟨filter, hfilter ▸ hok, by rfl, ?_⟩
  rw [htruth]
  rfl

end SoupQuery.Compile
