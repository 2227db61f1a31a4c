import SoupQuery.Proofs.RelationshipPaths
import SoupQuery.Proofs.WellTyped

/-!
# What an order means

An entry of an order is a chain of objects with one key each: names of relationships, the name of a
field, and options for the field. On a record the key of an object is a member, below a field it is
an option, so what a level means depends on the types that the path has reached.

* `isSortOption`, `sortOptionError` — the options that a field takes, and what is wrong with others.
* `OrderChain` — an entry that leads along relationships to a field with options.
* `SortKey.Reads` — a key that sorts by the field, as the options say.
* `orderItem_of_chain` — the order of a chain is decided by its options alone.
* `orderItem_chain_or_fail` — anything else fails with one error.
* `orderByArgument_list` — **a list orders by each entry in turn, and an entry compiles exactly if
  it is a chain whose options are all good.**
-/

namespace SoupQuery

open SoupQuery.GraphQL

/-- The value of an option; of one that is given more than once, the last. -/
def optionValue? (key : String) (options : List (String × Value)) : Option Value :=
  options.reverse.lookup key

@[simp] theorem optionValue?_nil (key : String) : optionValue? key [] = none := rfl

theorem optionValue?_concat (key : String) (options : List (String × Value))
    (option : String × Value) : optionValue? key (options ++ [option]) =
      if key = option.1 then some option.2 else optionValue? key options := by
  rw [optionValue?, List.reverse_concat, List.lookup_cons]
  by_cases hkey : key = option.1
  · simp [hkey]
  · rw [beq_false_of_ne hkey, if_neg hkey, optionValue?]

/-- The key sorts by the field of the row, in descending order or with nulls first exactly if the
options say so. -/
structure SortKey.Reads (key : SortKey) (rowName name : String)
    (options : List (String × Value)) : Prop where
  extract : key.extract = .extract rowName (fieldPath name .value)
  descending : key.ascending = false ↔ optionValue? "order" options = some (.enum "DESC")
  nullsFirst : key.nullsFirst = true ↔ optionValue? "nulls" options = some (.enum "FIRST")

/-- A key that reads the options is the only one. -/
theorem SortKey.Reads.unique {key key' : SortKey} {rowName name : String}
    {options : List (String × Value)} (h : key.Reads rowName name options)
    (h' : key'.Reads rowName name options) : key = key' := by
  obtain ⟨ascending, nullsFirst, extract⟩ := key
  obtain ⟨ascending', nullsFirst', extract'⟩ := key'
  have hascending : ascending = ascending' :=
    Bool.eq_iff_iff.2 (by simpa using not_congr (h.descending.trans h'.descending.symm))
  have hnulls : nullsFirst = nullsFirst' :=
    Bool.eq_iff_iff.2 (h.nullsFirst.trans h'.nullsFirst.symm)
  have hextract : extract = extract' := h.extract.trans h'.extract.symm
  rw [hascending, hnulls, hextract]

/-- A name that stands for the value of a field is the name of the field. -/
theorem Schema.apiName_of_member? {schema : Schema} {type name : String} {field : FieldInfo}
    (h : schema.member? type name = some (.value field)) : field.apiName = name := by
  obtain ⟨hfield, hspanning⟩ := Compile.member?_eq_value.1 h
  obtain ⟨info, -, hfound⟩ := Option.bind_eq_some_iff.1 hfield
  rcases Option.or_eq_some_iff.1 hfound with hdeclared | ⟨-, hintrinsic⟩
  · have hanswers := List.find?_some hdeclared
    cases field with
    | scalar apiName dataType =>
      simpa [FieldInfo.answersTo, FieldInfo.apiName] using hanswers
    | reference ref =>
      -- the other name of a reference would lead on to a record
      have hname : ref.relationshipName ≠ name := by simpa [FieldInfo.spanning?] using hspanning
      simpa [FieldInfo.answersTo, FieldInfo.apiName, hname] using hanswers
  · unfold intrinsic? at hintrinsic
    split at hintrinsic
    · cases hintrinsic
      exact Eq.symm ‹_›
    · split at hintrinsic
      · cases hintrinsic
        exact Eq.symm ‹_›
      · cases hintrinsic

end SoupQuery

namespace SoupQuery.Compile

open SoupQuery.GraphQL

variable {schema : Schema} {row : Row} {item : Value} {names : List String}
  {joins : List Join} {name field rowName : String} {options : List (String × Value)}

/-! ## Options -/

/-- Whether an entry is an option of a field. -/
def isSortOption : String × Value → Bool
  | ("order", .enum name) => name = "ASC" || name = "DESC"
  | ("nulls", .enum name) => name = "FIRST" || name = "LAST"
  | _ => false

/-- What is wrong with an entry that is no option of the field. -/
def sortOptionError (field : String) (option : String × Value) : CompileError :=
  if option.1 = "order" then .orderByDirection
  else if option.1 = "nulls" then .orderByNulls
  else .unknownOrderByOption option.1 field

/-- An option is read exactly if it is one, and otherwise there is one error. -/
theorem sortOption_cases (field : String) (option : String × Value) :
    isSortOption option = true ∧ (∃ value, sortOption field option = .ok value) ∨
      isSortOption option = false ∧
        sortOption field option = Checked.fail (sortOptionError field option) := by
  obtain ⟨key, value⟩ := option
  unfold sortOption sortOptionError
  by_cases horder : key = "order"
  · subst horder
    cases value with
    | enum name => by_cases hasc : name = "ASC" <;> by_cases hdesc : name = "DESC" <;>
        simp [isSortOption, choice?, hasc, hdesc]
    | _ => exact .inr ⟨rfl, rfl⟩
  · by_cases hnulls : key = "nulls"
    · subst hnulls
      cases value with
      | enum name => by_cases hfirst : name = "FIRST" <;> by_cases hlast : name = "LAST" <;>
          simp [isSortOption, choice?, hfirst, hlast]
      | _ => exact .inr ⟨rfl, rfl⟩
    · refine .inr ⟨?_, by simp [horder, hnulls]⟩
      cases value <;> simp [isSortOption, horder, hnulls]

theorem sortOption_reports (field : String) (option : String × Value) :
    (sortOption field option).Reports := by
  rcases sortOption_cases field option with ⟨-, value, hvalue⟩ | ⟨-, hfail⟩
  · rw [hvalue]
    exact Checked.ok_reports _
  · rw [hfail]
    exact Checked.fail_reports _

/-- The errors of options: one for each that is none, in order. -/
theorem errors_sortOptions (field : String) (options : List (String × Value)) :
    (Checked.partition (options.map (sortOption field))).errors =
      (options.filter (!isSortOption ·)).map (sortOptionError field) := by
  rw [Checked.errors_partition, List.flatMap_map]
  induction options with
  | nil => rfl
  | cons option options ih =>
    rw [List.flatMap_cons, ih]
    rcases sortOption_cases field option with ⟨hoption, value, hvalue⟩ | ⟨hoption, hfail⟩
    · rw [hvalue, List.filter_cons_of_neg (by simp [hoption])]
      rfl
    · rw [hfail, List.filter_cons_of_pos (by simp [hoption])]
      rfl

theorem choice?_eq_some {first second : String} {value : Value} {chosen : Bool}
    (h : choice? first second value = some chosen) :
    value = .enum (if chosen then first else second) := by
  unfold choice? at h
  split at h
  · split at h
    · cases h
      simp_all
    · split at h
      · cases h
        simp_all
      · cases h
  · cases h

/-- What an option says: which way to sort, or where the nulls go. -/
theorem sortOption_eq_ok {option : String × Value} {value : SortOption}
    (h : sortOption field option = .ok value) : ∃ chosen : Bool,
      option = ("order", .enum (if chosen then "ASC" else "DESC")) ∧ value = .ascending chosen ∨
      option = ("nulls", .enum (if chosen then "FIRST" else "LAST")) ∧
        value = .nullsFirst chosen := by
  obtain ⟨key, given⟩ := option
  unfold sortOption at h
  split at h
  · rename_i hkey
    split at h
    · rename_i chosen hchosen
      cases h
      exact ⟨chosen, .inl ⟨Prod.ext hkey (choice?_eq_some hchosen), rfl⟩⟩
    · cases h
  · split at h
    · rename_i hkey
      split at h
      · rename_i chosen hchosen
        cases h
        exact ⟨chosen, .inr ⟨Prod.ext hkey (choice?_eq_some hchosen), rfl⟩⟩
      · cases h
    · cases h

/-- **An option is read on top of those before it.** -/
theorem SortOption.apply_reads {option : String × Value} {value : SortOption} {key : SortKey}
    (hvalue : sortOption field option = .ok value) (h : key.Reads rowName name options) :
    (value.apply key).Reads rowName name (options ++ [option]) := by
  obtain ⟨chosen, ⟨rfl, rfl⟩ | ⟨rfl, rfl⟩⟩ := sortOption_eq_ok hvalue
  · refine ⟨h.extract, ?_, ?_⟩
    · rw [optionValue?_concat, if_pos rfl]
      cases chosen <;> simp [SortOption.apply]
    · rw [optionValue?_concat, if_neg (by simp)]
      exact h.nullsFirst
  · refine ⟨h.extract, ?_, ?_⟩
    · rw [optionValue?_concat, if_neg (by simp)]
      exact h.descending
    · rw [optionValue?_concat, if_pos rfl]
      cases chosen <;> simp [SortOption.apply]

/-- **The options of a field are all read.** -/
theorem sortKey_reads (rowName : String) {values : List SortOption}
    (h : Checked.partition (options.map (sortOption name)) = .ok values) :
    (sortKey (.extract rowName (fieldPath name .value)) values).Reads rowName name options := by
  have hvalues := (Checked.partition_map_eq_ok (sortOption_reports name)).1 h
  clear h
  -- a later option overrides an earlier one, so the induction takes options off the end
  induction options using List.reverseRecOn generalizing values with
  | nil =>
    obtain rfl : values = [] := List.map_eq_nil_iff.1 hvalues.symm
    exact ⟨rfl, by simp [sortKey], by simp [sortKey]⟩
  | append_singleton options option ih =>
    rw [List.map_append] at hvalues
    obtain ⟨before, after, rfl, hbefore, hafter⟩ := List.append_eq_map_iff.1 hvalues
    obtain ⟨value, rest, rfl, hvalue, hrest⟩ := List.map_eq_cons_iff.1 hafter
    obtain rfl : rest = [] := List.map_eq_nil_iff.1 hrest
    rw [sortKey, List.foldl_append]
    exact SortOption.apply_reads hvalue.symm (ih hbefore.symm)

/-! ## Chains -/

/-- The item is a chain of objects that leads along relationships to known types, and in the end to
a field with options. -/
structure OrderChain (schema : Schema) (row : Row) (item : Value) (names : List String)
    (joins : List Join) (name : String) (options : List (String × Value)) : Prop where
  shape : item = .object (entriesAlong options (names ++ [name]))
  leads : ∃ last field, Leads schema row names joins last ∧
    schema.member? last.type name = some (.value field)
  known : ∀ join ∈ joins, schema.knows join.row.type = true

/-- **The order of a chain is decided by its options.** -/
theorem orderItem_of_chain (h : OrderChain schema row item names joins name options) :
    orderItem schema row item =
      (Checked.partition (options.map (sortOption name))).map fun values =>
        ⟨sortKey (.extract (dotted row.name names) (fieldPath name .value)) values, joins⟩ := by
  obtain ⟨rfl, ⟨last, member, hleads, hmember⟩, -⟩ := h
  rw [orderItem, orderEntry_along hleads hmember, fieldValue, hleads.last_name,
    Schema.apiName_of_member? hmember]

/-- A chain goes on from the record that a relationship leads to. -/
theorem OrderChain.along {key : String} {reference : Reference} {entries : List (String × Value)}
    (hrecord : schema.member? row.type key = some (.record reference))
    (hknows : schema.knows reference.target = true)
    (h : OrderChain schema (row.join reference).row (.object entries) names joins name options) :
    OrderChain schema row (.object [(key, .object entries)]) (key :: names)
      (row.join reference :: joins) name options := by
  obtain ⟨hshape, ⟨last, member, hleads, hmember⟩, hknown⟩ := h
  refine ⟨?_, ⟨last, member, .along hrecord hleads, hmember⟩,
    List.forall_mem_cons.2 ⟨hknows, hknown⟩⟩
  rw [hshape]
  rfl

mutual

theorem orderEntry_chain_or_fail : ∀ (row : Row) (entries : List (String × Value)),
    (∃ names joins name options,
      OrderChain schema row (.object entries) names joins name options) ∨
    ∃ error, orderEntry schema row entries = Checked.fail error
  | _, [] => .inr ⟨_, rfl⟩
  | row, [(name, value)] => orderMember_chain_or_fail row name value
  | _, _ :: _ :: _ => .inr ⟨_, rfl⟩

theorem orderMember_chain_or_fail : ∀ (row : Row) (key : String) (value : Value),
    (∃ names joins name options,
      OrderChain schema row (.object [(key, value)]) names joins name options) ∨
    ∃ error, orderMember schema row key value = Checked.fail error
  | row, key, value => by
    unfold orderMember
    split
    · exact .inr ⟨_, rfl⟩
    · rename_i member hmember
      cases value with
      | object entries =>
        cases member with
        | record reference =>
          simp only
          split
          · rename_i hknows
            rcases orderEntry_chain_or_fail (row.join reference).row entries with
              ⟨names, joins, name, options, hchain⟩ | ⟨error, hfail⟩
            · exact .inl ⟨_, _, _, _, hchain.along hmember hknows⟩
            · rw [hfail]
              exact .inr ⟨error, rfl⟩
          · exact .inr ⟨_, rfl⟩
        | value field =>
          exact .inl ⟨[], [], key, entries, rfl, ⟨row, field, .here, hmember⟩, by simp⟩
      | _ => exact .inr ⟨_, rfl⟩

end

/-- **What is no chain fails with one error.** -/
theorem orderItem_chain_or_fail (schema : Schema) (row : Row) (item : Value) :
    (∃ names joins name options, OrderChain schema row item names joins name options) ∨
    ∃ error, orderItem schema row item = Checked.fail error := by
  cases item with
  | object entries => exact orderEntry_chain_or_fail row entries
  | _ => exact .inr ⟨_, rfl⟩

/-- **An item compiles exactly if it is a chain whose options are all good.** -/
theorem orderItem_eq_ok {order : RowOrder} :
    orderItem schema row item = .ok order ↔ ∃ names name options,
      OrderChain schema row item names order.joins name options ∧
      (∀ option ∈ options, isSortOption option = true) ∧
      order.key.Reads (dotted row.name names) name options := by
  constructor
  · intro horder
    rcases orderItem_chain_or_fail schema row item with
      ⟨names, joins, name, options, hchain⟩ | ⟨error, hfail⟩
    · rw [orderItem_of_chain hchain] at horder
      obtain ⟨values, hvalues, rfl⟩ := Checked.map_eq_ok.1 horder
      refine ⟨names, name, options, hchain, fun option hoption => ?_, ?_⟩
      · have herrors := errors_sortOptions name options
        rw [hvalues] at herrors
        have hnone := List.filter_eq_nil_iff.1 (List.map_eq_nil_iff.1 herrors.symm)
        simpa using hnone option hoption
      · exact sortKey_reads _ hvalues
    · cases horder.symm.trans hfail
  · rintro ⟨names, name, options, hchain, hoptions, hreads⟩
    have hnone : (Checked.partition (options.map (sortOption name))).errors = [] := by
      rw [errors_sortOptions, List.filter_eq_nil_iff.2 (by simpa using hoptions), List.map_nil]
    obtain ⟨values, hvalues⟩ := (Checked.partition_reports _).exists_ok_iff.2 hnone
    obtain ⟨key, joins⟩ := order
    obtain rfl := (sortKey_reads (dotted row.name names) hvalues).unique hreads
    rw [orderItem_of_chain hchain, hvalues]
    rfl

/-! ## Lists -/

/-- The orders of a list that has only the one item. -/
def orderAlone (schema : Schema) (row : Row) (item : Value) : Compiled (List RowOrder) :=
  orderByArgument schema row (some (.list [item]))

theorem orderAlone_eq (schema : Schema) (row : Row) (item : Value) :
    orderAlone schema row item = (orderItem schema row item).map fun order => [order] := by
  rw [orderAlone, orderByArgument, List.map_singleton,
    Checked.partition_singleton (orderItem_reports schema row item)]

theorem orderAlone_eq_ok {order : RowOrder} :
    orderAlone schema row item = .ok [order] ↔ orderItem schema row item = .ok order := by
  rw [orderAlone_eq, Checked.map_eq_ok]
  simp

theorem errors_orderAlone (schema : Schema) (row : Row) (item : Value) :
    (orderAlone schema row item).errors = (orderItem schema row item).errors := by
  rw [orderAlone_eq, Checked.errors_map]

theorem errors_orderByArgument_list (schema : Schema) (row : Row) (items : List Value) :
    (orderByArgument schema row (some (.list items))).errors =
      items.flatMap fun item => (orderAlone schema row item).errors := by
  rw [orderByArgument, Checked.errors_partition, List.flatMap_map]
  exact List.flatMap_congr fun item _ => (errors_orderAlone schema row item).symm

theorem orderByArgument_list_eq_ok {items : List Value} {orders : List RowOrder} :
    orderByArgument schema row (some (.list items)) = .ok orders ↔
      List.Forall₂ (fun item order => orderAlone schema row item = .ok [order]) items orders := by
  rw [orderByArgument, Checked.partition_map_eq_ok (orderItem_reports schema row),
    ← List.forall₂_eq_eq_eq, List.forall₂_map_left_iff, List.forall₂_map_right_iff]
  simp only [orderAlone_eq_ok]

/-- **A list orders by each entry in turn.** It compiles exactly if each entry does alone, and then
to the orders of the entries, in their order; otherwise its errors are theirs, one after the other.
An entry compiles exactly if it is a chain of objects with one key each, which leads along
relationships to known types and in the end to a field, and whose options all are good; its order
then reads the field through the relationships, and sorts as the options say. A chain has one error
for each bad option, and an entry that is no chain has one error. -/
theorem orderByArgument_list (schema : Schema) (row : Row) (items : List Value) :
    ((∃ orders, orderByArgument schema row (some (.list items)) = .ok orders) ↔
      ∀ item ∈ items, ∃ orders, orderAlone schema row item = .ok orders) ∧
    (∀ orders, orderByArgument schema row (some (.list items)) = .ok orders ↔
      List.Forall₂ (fun item order => orderAlone schema row item = .ok [order]) items orders) ∧
    (orderByArgument schema row (some (.list items))).errors =
      (items.flatMap fun item => (orderAlone schema row item).errors) ∧
    (∀ entries, orderByArgument schema row (some (.object entries)) =
      orderAlone schema row (.object entries)) ∧
    (∀ item order, orderAlone schema row item = .ok [order] ↔ ∃ names name options,
      OrderChain schema row item names order.joins name options ∧
      (∀ option ∈ options, isSortOption option = true) ∧
      order.key.Reads (dotted row.name names) name options) ∧
    (∀ item names joins name options, OrderChain schema row item names joins name options →
      (orderAlone schema row item).errors =
        (options.filter (!isSortOption ·)).map (sortOptionError name)) ∧
    (∀ item, (¬ ∃ names joins name options,
        OrderChain schema row item names joins name options) →
      ∃ error, orderAlone schema row item = Checked.fail error) := by
  have herrors := errors_orderByArgument_list schema row items
  refine ⟨?_, fun orders => orderByArgument_list_eq_ok, herrors, fun entries => ?_,
    fun item order => ?_, fun item names joins name options hchain => ?_, fun item hnone => ?_⟩
  · rw [(orderByArgument_reports schema row _).exists_ok_iff, herrors, List.flatMap_eq_nil_iff]
    exact forall₂_congr fun item _ => (orderByArgument_reports schema row _).exists_ok_iff.symm
  · rw [orderAlone_eq]
    rfl
  · rw [orderAlone_eq_ok, orderItem_eq_ok]
  · rw [errors_orderAlone, orderItem_of_chain hchain, Checked.errors_map, errors_sortOptions]
  · rcases orderItem_chain_or_fail schema row item with hchain | ⟨error, hfail⟩
    · exact absurd hchain hnone
    · rw [orderAlone_eq, hfail]
      exact ⟨error, rfl⟩

/-- Appointments by the name of their owner; a field has no limit, and a number is no chain. -/
theorem jobs_byOwner :
    orderByArgument jobsContext.schema ⟨"jobs", "ServiceAppointment"⟩ (some (.list [.object
        [("Owner", .object [("Name", .object [("order", .enum "DESC")])])]])) =
      .ok [⟨⟨false, false, .extract "jobs.Owner" "data.fields.Name.value"⟩,
        [⟨"jobs", "OwnerId", ⟨"jobs.Owner", "User"⟩⟩]⟩] ∧
    (orderAlone jobsContext.schema ⟨"jobs", "ServiceAppointment"⟩ (.object [("Owner", .object
        [("Name", .object [("limit", .int 3), ("order", .enum "DESC")])])])).errors =
      [.unknownOrderByOption "limit" "Name"] ∧
    ∃ error, orderAlone jobsContext.schema ⟨"jobs", "ServiceAppointment"⟩ (.int 3) =
      Checked.fail error := by
  have hchain : ∀ options, OrderChain jobsContext.schema ⟨"jobs", "ServiceAppointment"⟩
      (.object [("Owner", .object [("Name", .object options)])]) ["Owner"]
      [⟨"jobs", "OwnerId", ⟨"jobs.Owner", "User"⟩⟩] "Name" options := by
    have hrecord : jobsContext.schema.member? "ServiceAppointment" "Owner" =
        some (.record ⟨"OwnerId", "Owner", "User"⟩) := rfl
    have hfield : jobsContext.schema.member? "User" "Name" =
        some (.value (.scalar "Name" .string)) := rfl
    intro options
    have howner : OrderChain jobsContext.schema ⟨"jobs.Owner", "User"⟩
        (.object [("Name", .object options)]) [] [] "Name" options :=
      ⟨rfl, ⟨_, _, .here, hfield⟩, by simp⟩
    exact @OrderChain.along _ ⟨"jobs", "ServiceAppointment"⟩ [] [] _ _ "Owner" _ _ hrecord rfl
      howner
  obtain ⟨-, hlist, -, -, hentry, herrors, hfail⟩ := orderByArgument_list jobsContext.schema
    ⟨"jobs", "ServiceAppointment"⟩ [.object
      [("Owner", .object [("Name", .object [("order", .enum "DESC")])])]]
  refine ⟨(hlist _).2 (.cons ((hentry _ _).2 ?_) .nil), herrors _ _ _ _ _ (hchain _), hfail _ ?_⟩
  · refine ⟨["Owner"], "Name", _, hchain _, by simp [isSortOption], rfl, ?_, ?_⟩
    · exact iff_of_true rfl rfl
    · have hnone : optionValue? "nulls" [("order", .enum "DESC")] = none := rfl
      rw [hnone]
      exact iff_of_false (by decide) (by simp)
  · rintro ⟨names, joins, name, options, hnumber⟩
    cases hnumber.shape

end SoupQuery.Compile
