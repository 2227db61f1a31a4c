import Mathlib.Data.List.Infix
import SoupQuery.Proofs.Joins

/-!
# Relationship paths mean the same everywhere

A field of a related record can be named in a filter, in an order and in the selections of a node.
Each of the three follows the path of relationships on its own, and a query joins one row for all of
them only if they agree on its name and on its conditions, at every depth.

* `Leads` — names of relationships lead from a row to another one, along joins.
* `entriesAlong`, `selectionsAlong` — the path as an argument, and as selections.
* `Leads.joinNames_eq`, `Leads.joinConditions_eq` — the joins of a path are all different.
* `relationship_path_agrees` — **a filter, an order and a selection along one path join the same
  rows under the same conditions, and read the same value.**
-/

namespace SoupQuery

/-- A text with names added to it, a dot before each. -/
def dotted (text : String) (names : List String) : String :=
  names.foldl (fun text name => text ++ "." ++ name) text

/-- The names of relationships lead from the row to the last one, along the joins. -/
inductive Leads (schema : Schema) : Row → List String → List Join → Row → Prop
  | here {row} : Leads schema row [] [] row
  | along {row name reference names joins last} :
      schema.member? row.type name = some (.record reference) →
      Leads schema (row.join reference).row names joins last →
      Leads schema row (name :: names) (row.join reference :: joins) last

variable {schema : Schema} {row last : Row} {names : List String} {joins : List Join}

theorem Schema.knows_of_member? {type name : String} {member : Member}
    (h : schema.member? type name = some member) : schema.knows type = true := by
  obtain ⟨field, hfield, -⟩ := Option.map_eq_some_iff.1 h
  obtain ⟨info, hinfo, -⟩ := Option.bind_eq_some_iff.1 hfield
  rw [Schema.knows, hinfo]
  rfl

/-- A type on which a path starts is known, if the path ends at a member. -/
theorem Leads.knows (h : Leads schema row names joins last) {name : String} {member : Member}
    (hmember : schema.member? last.type name = some member) : schema.knows row.type = true := by
  cases h with
  | here => exact Schema.knows_of_member? hmember
  | along hrecord _ => exact Schema.knows_of_member? hrecord

theorem Leads.last_name (h : Leads schema row names joins last) :
    last.name = dotted row.name names := by
  induction h with
  | here => rfl
  | along hmember _ ih =>
    rw [ih, Row.join, Compile.relationshipName_of_member? hmember]
    rfl

/-! ## The joins of a path are all different -/

/-- Each join of a path leads to a longer name than that of its first row. -/
theorem Leads.length_lt (h : Leads schema row names joins last) :
    ∀ join ∈ joins, row.name.length < join.row.name.length := by
  induction h with
  | here => intro join hjoin; cases hjoin
  | @along row _ reference _ _ _ _ _ ih =>
    have hfirst := row.length_join reference
    intro join hjoin
    rcases List.mem_cons.1 hjoin with rfl | hjoin
    · exact hfirst
    · exact Nat.lt_trans hfirst (ih join hjoin)

theorem Leads.pairwise_ne (h : Leads schema row names joins last) :
    joins.Pairwise fun join join' => join.row.name ≠ join'.row.name := by
  induction h with
  | here => exact .nil
  | along _ hrest ih =>
    refine .cons (fun join hjoin heq => ?_) ih
    exact absurd (congrArg String.length heq) (Nat.ne_of_lt (hrest.length_lt join hjoin))

/-- **The rows that a path joins are named by its prefixes.** -/
theorem Leads.joinNames_eq (h : Leads schema row names joins last) :
    joinNames joins = names.inits.tail.map (dotted row.name) := by
  have hdistinct : (joins.map (·.row.name)).Pairwise fun a b => (b == a) = false := by
    refine List.pairwise_map.2 (h.pairwise_ne.imp fun hne => ?_)
    simpa using hne.symm
  rw [joinNames, eraseDups_eq_self hdistinct]
  clear hdistinct
  induction h with
  | here => rfl
  | @along row name reference names joins last hmember _ ih =>
    have hinits : names.inits = [] :: names.inits.tail := by cases names <;> rfl
    rw [List.map_cons, ih, List.inits_cons, List.tail_cons, List.map_map, hinits, List.map_cons,
      Row.join, Compile.relationshipName_of_member? hmember]
    rfl

/-- The conditions of joins to different rows are different. -/
theorem Join.ne_of_mem_conditions {join join' : Join} (hne : join.row.name ≠ join'.row.name)
    {p q : Predicate} (hp : p ∈ join.conditions) (hq : q ∈ join'.conditions) : p ≠ q := by
  rcases Join.mem_conditions.1 hp with rfl | rfl <;>
    rcases Join.mem_conditions.1 hq with rfl | rfl <;>
    simp [Predicate.refersTo, Predicate.hasType, hne]

/-- **The conditions of a path are those of its joins, one after the other.** -/
theorem Leads.joinConditions_eq (h : Leads schema row names joins last) :
    joinConditions joins = joins.flatMap Join.conditions := by
  have hbeq : ∀ {p q : Predicate} {join : Join}, q ∈ join.conditions → p ≠ q →
      (q == p) = false := by
    intro p q join hq hne
    refine Bool.eq_false_iff.2 fun hsame => hne ?_
    exact Predicate.eq_of_same (Join.exact_of_mem_conditions hq) hsame
  refine eraseDups_eq_self (List.pairwise_flatMap.2 ⟨fun join _ => ?_, h.pairwise_ne.imp ?_⟩)
  · refine List.pairwise_pair.2 (hbeq (List.mem_cons_of_mem _ (List.mem_singleton.2 rfl)) ?_)
    simp [Predicate.refersTo, Predicate.hasType]
  · intro join join' hne p hp q hq
    exact hbeq hq (Join.ne_of_mem_conditions hne hp hq)

end SoupQuery

namespace SoupQuery.Compile

open SoupQuery.GraphQL

variable {context : Context} {schema : Schema} {row last : Row} {names : List String}
  {joins : List Join} {name : String} {field : FieldInfo}

/-! ## A path in a filter -/

/-- The entries of an object that leads along names to the innermost entries. -/
def entriesAlong (innermost : List (String × Value)) : List String → List (String × Value)
  | [] => innermost
  | name :: names => [(name, .object (entriesAlong innermost names))]

theorem gatherFilters_isNull (operand : Expression) (joins : List Join) :
    gatherFilters .and [.ok ⟨.isNull operand, joins⟩] = .ok ⟨.isNull operand, joins⟩ := by
  have hcombine : Predicate.combine .and [.isNull operand] = .isNull operand := rfl
  change Except.ok (RowFilter.combine .and [⟨.isNull operand, joins⟩]) = _
  simp [RowFilter.combine, hcombine]

theorem fieldFilter_eq_null (row : Row) (name : String) (field : FieldInfo) :
    fieldFilter row name field (.object [("eq", .null)]) =
      .ok ⟨.isNull (fieldValue row field.apiName), []⟩ := rfl

/-- The filter of a comparison with null at the end of a path. -/
theorem filterObject_along (h : Leads schema row names joins last)
    (hfield : schema.member? last.type name = some (.value field))
    (hkeys : ∀ key ∈ names ++ [name], FilterKey.ofName key = .member) :
    filterObject schema row (entriesAlong [("eq", .null)] (names ++ [name])) =
      .ok ⟨.isNull (fieldValue last field.apiName), joins⟩ := by
  induction h with
  | @here row =>
    have hentry : filterEntry schema row name (.object [("eq", .null)]) =
        .ok ⟨.isNull (fieldValue row field.apiName), []⟩ := by
      rw [filterEntry, hkeys name (List.mem_singleton.2 rfl)]
      simp only [hfield]
      exact fieldFilter_eq_null row name field
    rw [filterObject, List.nil_append, entriesAlong, entriesAlong, filterEntries, hentry,
      filterEntries]
    exact gatherFilters_isNull _ []
  | @along row key reference names joins last hmember hrest ih =>
    have hinner := ih hfield fun other hother => hkeys other (List.mem_cons_of_mem _ hother)
    have hknows : schema.knows reference.target = true := hrest.knows hfield
    have hentry : filterEntry schema row key
        (.object (entriesAlong [("eq", .null)] (names ++ [name]))) =
          .ok ⟨.isNull (fieldValue last field.apiName), row.join reference :: joins⟩ := by
      rw [filterEntry, hkeys key (List.mem_cons_self ..)]
      simp only [hmember, hknows, if_true]
      rw [← filterObject, hinner]
      rfl
    rw [filterObject, List.cons_append, entriesAlong, filterEntries, hentry, filterEntries]
    exact gatherFilters_isNull _ _

/-! ## A path in an order -/

/-- The order by a field at the end of a path, which is decided by the options there. -/
theorem orderEntry_along {options : List (String × Value)} (h : Leads schema row names joins last)
    (hfield : schema.member? last.type name = some (.value field)) :
    orderEntry schema row (entriesAlong options (names ++ [name])) =
      (Checked.partition (options.map (sortOption name))).map fun values =>
        ⟨sortKey (fieldValue last field.apiName) values, joins⟩ := by
  induction h with
  | here =>
    rw [List.nil_append, entriesAlong, entriesAlong, orderEntry, orderMember, hfield]
  | @along row key reference names joins last hmember hrest ih =>
    have hknows : schema.knows reference.target = true := hrest.knows hfield
    rw [List.cons_append, entriesAlong, orderEntry, orderMember, hmember]
    simp only [hknows, if_true]
    rw [ih hfield]
    exact Checked.map_map _ _ _

/-! ## A path in selections -/

/-- The selections of one field below the other. -/
def selectionsAlong : List String → List Selection
  | [] => []
  | name :: names => [.field ⟨none, name, []⟩ (selectionsAlong names)]

/-- What is selected of a field: its value, unless it is read as it stands. -/
def valueNames (field : FieldInfo) : List String :=
  if isIntrinsic field.apiName then [] else ["value"]

theorem gatherSelected_singleton (selected : Selected) :
    gatherSelected [.ok selected] = .ok selected := by
  change Except.ok (Selected.merge [selected]) = _
  simp [Selected.merge]

theorem valueSelection_along (row : Row) (path name : String) (field : FieldInfo) :
    valueSelection row path name field.apiName (selectionsAlong (valueNames field)) =
      .ok ⟨[.scalar (dotted path (valueNames field)) (fieldValue row field.apiName)], []⟩ := by
  rw [valueSelection, valueNames]
  by_cases hintrinsic : isIntrinsic field.apiName = true
  · simp only [hintrinsic, if_true]
    rfl
  · simp only [hintrinsic]
    rfl

/-- The selection of a field at the end of a path. -/
theorem selections_along (h : Leads context.schema row names joins last)
    (hfield : context.schema.member? last.type name = some (.value field))
    (hnames : typeNameField ∉ names ++ [name]) : ∀ path : String,
    gatherSelected (selections context row path
      (selectionsAlong (names ++ name :: valueNames field))) =
        .ok ⟨[.scalar (dotted path (names ++ name :: valueNames field))
          (fieldValue last field.apiName)], joins⟩ := by
  induction h with
  | @here row =>
    intro path
    have hname : name ≠ typeNameField := fun heq => hnames (by simp [heq])
    rw [List.nil_append, selectionsAlong, selections, selection, if_neg hname, hfield, selections]
    simp only [Field.responseKey, Option.getD_none]
    rw [valueSelection_along]
    exact gatherSelected_singleton _
  | @along row key reference names joins last hmember hrest ih =>
    intro path
    have hkey : key ≠ typeNameField := fun heq => hnames (by simp [heq])
    have hinner := ih hfield (fun hmem => hnames (List.mem_cons_of_mem _ hmem))
      (path ++ "." ++ key)
    have hknows : context.schema.knows reference.target = true := hrest.knows hfield
    rw [List.cons_append, selectionsAlong, selections, selection, if_neg hkey, hmember, selections]
    have hbelow : (selectionsAlong (names ++ name :: valueNames field)).isEmpty = false := by
      cases names <;> rfl
    simp only [Field.responseKey, Option.getD_none, hknows, hbelow, not_true_eq_false, if_false,
      Bool.false_eq_true]
    rw [hinner]
    exact gatherSelected_singleton _

/-! ## The three agree -/

/-- The conditions of a path stay as they are when they are joined. -/
theorem combine_joinConditions (h : Leads schema row names joins last) :
    Predicate.combine .and (joinConditions joins) = .compound .and (joinConditions joins) := by
  have hflat : Predicate.flattened .and (joinConditions joins) = joinConditions joins := by
    rw [Predicate.flattened, ← List.flatMap_singleton' (joinConditions joins), List.flatMap_assoc]
    refine List.flatMap_congr fun p hp => ?_
    obtain ⟨join, -, hcondition⟩ := List.mem_flatMap.1 (mem_of_mem_eraseDups hp)
    rw [List.flatMap_singleton, Join.operandsUnder_of_mem_conditions hcondition]
  have hkept : (joinConditions joins).eraseDups = joinConditions joins :=
    eraseDups_eq_self (pairwise_eraseDups _)
  rcases Predicate.combine_cases .and (joinConditions joins) with hone | hmany
  · -- each join has two conditions, so there is never a single one
    rw [hflat, hkept, h.joinConditions_eq] at hone
    cases joins with
    | nil => cases hone
    | cons join joins =>
      have hlength := congrArg List.length hone
      simp [Join.conditions] at hlength
  · rw [hmany, hflat, hkept]

/-- The condition of a query that joins the rows of a path; a path of no names restricts nothing. -/
theorem filter_joinConditions (h : Leads schema row names joins last) :
    (some (Predicate.combine .and (joinConditions joins))).filter (!·.isEmpty) =
      if names = [] then none else some (.compound .and (joinConditions joins)) := by
  rw [combine_joinConditions h, h.joinConditions_eq]
  cases h with
  | here => rfl
  | along _ _ => rfl

/-- The query of a connection without arguments and without anchors. -/
theorem recordQuery_of_selected {head : Field} {below node : List Selection} {selected : Selected}
    (harguments : head.arguments = []) (hnode : nodeOf? below = some node)
    (hselected : gatherSelected (selections context row "node" node) = .ok selected) :
    recordQuery context row [] head below =
      .ok (Parts.toQuery ⟨none, none, [], none, selected⟩ row []) := by
  have hargument : ∀ argument, head.argument? argument = none := by
    intro argument
    rw [Field.argument?, harguments]
    rfl
  rw [recordQuery, assemble, underEdges_eq, hnode, Option.map_some, hselected]
  simp only [hargument]
  rfl

/-- **A relationship path means the same in a filter, in an order and in selections.** A filter that
compares a field at the end of the path with null, an order by the field, and a connection that
selects nothing else all compile. They join the same rows, which are named by the prefixes of the
path, under the same conditions, and read the same value. -/
theorem relationship_path_agrees (hpath : Leads context.schema row names joins last)
    (hfield : context.schema.member? last.type name = some (.value field))
    (hwords : ∀ word ∈ ["and", "or", "not", typeNameField], word ∉ names ++ [name]) :
    whereArgument context.schema row
        (some (.object (entriesAlong [("eq", .null)] (names ++ [name])))) =
      .ok (some ⟨.isNull (fieldValue last field.apiName), joins⟩) ∧
    orderByArgument context.schema row (some (.object (entriesAlong [] (names ++ [name])))) =
      .ok [⟨⟨true, false, fieldValue last field.apiName⟩, joins⟩] ∧
    (∀ head below, head.arguments = [] →
      nodeOf? below = some (selectionsAlong (names ++ name :: valueNames field)) →
      recordQuery context row [] head below = .ok
        { predicate? := if names = [] then none else some (.compound .and (joinConditions joins))
          fields := [.scalar (dotted "node" (names ++ name :: valueNames field))
            (fieldValue last field.apiName)]
          row := row
          first? := none
          joinNames := joinNames joins
          orderBy := [] }) ∧
    joinNames joins = names.inits.tail.map (dotted row.name) ∧
    joinConditions joins = joins.flatMap Join.conditions ∧
    fieldValue last field.apiName =
      .extract (dotted row.name names) (fieldPath field.apiName .value) := by
  have hkeys : ∀ key ∈ names ++ [name], FilterKey.ofName key = .member := by
    intro key hkey
    have hne : ∀ word ∈ ["and", "or", "not", typeNameField], key ≠ word := by
      rintro word hword rfl
      exact hwords _ hword hkey
    rw [FilterKey.ofName, if_neg (hne _ (by simp)), if_neg (hne _ (by simp)),
      if_neg (hne _ (by simp))]
  refine ⟨?_, ?_, fun head below harguments hnode => ?_, hpath.joinNames_eq,
    hpath.joinConditions_eq, ?_⟩
  · rw [whereArgument, filterObject_along hpath hfield hkeys]
    rfl
  · rw [orderByArgument, orderEntry_along hpath hfield]
    rfl
  · have hselected := selections_along hpath hfield (hwords _ (by simp)) "node"
    rw [recordQuery_of_selected harguments hnode hselected, ← filter_joinConditions hpath]
    rfl
  · rw [fieldValue, hpath.last_name]

/-- Appointments without a name of their owner, appointments by this name, and appointments with it:
all three join the owner. -/
theorem jobs_owner_path :
    Leads jobsContext.schema ⟨"jobs", "ServiceAppointment"⟩ ["Owner"]
      [⟨"jobs", "OwnerId", ⟨"jobs.Owner", "User"⟩⟩] ⟨"jobs.Owner", "User"⟩ ∧
    whereArgument jobsContext.schema ⟨"jobs", "ServiceAppointment"⟩
        (some (.object [("Owner", .object [("Name", .object [("eq", .null)])])])) =
      .ok (some ⟨.isNull (.extract "jobs.Owner" "data.fields.Name.value"),
        [⟨"jobs", "OwnerId", ⟨"jobs.Owner", "User"⟩⟩]⟩) ∧
    orderByArgument jobsContext.schema ⟨"jobs", "ServiceAppointment"⟩
        (some (.object [("Owner", .object [("Name", .object [])])])) =
      .ok [⟨⟨true, false, .extract "jobs.Owner" "data.fields.Name.value"⟩,
        [⟨"jobs", "OwnerId", ⟨"jobs.Owner", "User"⟩⟩]⟩] ∧
    recordQuery jobsContext ⟨"jobs", "ServiceAppointment"⟩ [] ⟨none, "jobs", []⟩
        (edgesNode (selectionsAlong ["Owner", "Name", "value"])) =
      .ok {
        predicate? := some (.compound .and
          [.refersTo "jobs" "jobs.Owner" "OwnerId", .hasType "jobs.Owner" "User"])
        fields := [.scalar "node.Owner.Name.value"
          (.extract "jobs.Owner" "data.fields.Name.value")]
        row := ⟨"jobs", "ServiceAppointment"⟩
        first? := none
        joinNames := ["jobs.Owner"]
        orderBy := [] } ∧
    joinNames [⟨"jobs", "OwnerId", ⟨"jobs.Owner", "User"⟩⟩] = ["jobs.Owner"] := by
  have hpath : Leads jobsContext.schema ⟨"jobs", "ServiceAppointment"⟩ ["Owner"]
      [⟨"jobs", "OwnerId", ⟨"jobs.Owner", "User"⟩⟩] ⟨"jobs.Owner", "User"⟩ :=
    @Leads.along _ ⟨"jobs", "ServiceAppointment"⟩ "Owner" ⟨"OwnerId", "Owner", "User"⟩ [] [] _ rfl
      .here
  have hfield : jobsContext.schema.member? "User" "Name" =
      some (.value (.scalar "Name" .string)) := rfl
  obtain ⟨hfilter, horder, hquery, hnames, -⟩ :=
    relationship_path_agrees hpath hfield (by decide)
  exact ⟨hpath, hfilter, horder, hquery ⟨none, "jobs", []⟩ _ rfl rfl, hnames⟩

end SoupQuery.Compile
