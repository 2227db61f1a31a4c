import SoupQuery.Proofs.Anchors
import SoupQuery.Proofs.Scoping

/-!
# Joins are closed

A joined row ranges over the whole table, so nothing but its conditions binds it. Which references
a connection follows is read off the document; the joined rows of its query are exactly the rows
that these references lead to, each is reached from an earlier one, and all of them are bound.

* `FilterSpans`, `OrderSpans`, `SelectionSpans`, `Spans` — the references that a filter, an order,
  the selections of a node and a connection follow.
* `Parts.Of.joinsAlong` — the joins of a connection are those along its references.
* `JoinClosed` — what is promised of the joined rows of a query.
* `transform_joinClosed` — **every query of a result is closed, at any depth.**
-/

namespace SoupQuery

/-! ## First uses -/

section EraseDups

variable {α : Type} [BEq α] [LawfulBEq α]

theorem nodup_eraseDups (l : List α) : l.eraseDups.Nodup := by
  refine (pairwise_eraseDups l).imp fun hne heq => ?_
  rw [heq, beq_self_eq_true] at hne
  cases hne

/-- What comes before the first use of an item is kept before it. -/
theorem exists_of_eraseDups_eq : ∀ {l before after : List α} {a : α},
    l.eraseDups = before ++ a :: after →
      ∃ earlier later, l = earlier ++ a :: later ∧ ∀ b ∈ earlier, b ∈ before
  | [], before, after, a, h => by simp at h
  | b :: l, [], after, a, h => by
    rw [List.eraseDups_cons] at h
    cases h
    exact ⟨[], l, rfl, fun _ hmem => by cases hmem⟩
  | b :: l, c :: before, after, a, h => by
    rw [List.eraseDups_cons] at h
    obtain ⟨rfl, htail⟩ := List.cons.inj h
    obtain ⟨earlier, later, hsplit, hearlier⟩ := exists_of_eraseDups_eq htail
    obtain ⟨l₁, l₂, rfl, hl₁, hl₂⟩ := List.filter_eq_append_iff.1 hsplit
    obtain ⟨dropped, later', rfl, hdropped, -, -⟩ := List.filter_eq_cons_iff.1 hl₂
    refine ⟨b :: (l₁ ++ dropped), later', by simp, fun d hd => ?_⟩
    -- an item before the first use is the first of all, or kept, or equal to the first
    by_cases hdb : d = b
    · rw [hdb]
      exact List.mem_cons_self ..
    · rcases List.mem_cons.1 hd with rfl | hd
      · exact absurd rfl hdb
      rcases List.mem_append.1 hd with hd | hd
      · refine List.mem_cons_of_mem _ (hearlier d ?_)
        rw [← hl₁, List.mem_filter]
        exact ⟨hd, by simpa using hdb⟩
      · exact absurd (by simpa using hdb) (hdropped d hd)
termination_by l => l.length
decreasing_by exact Nat.lt_succ_of_le (List.length_filter_le _ _)

end EraseDups

theorem Chained.source_mem_of_append : ∀ {joins later : List Join} {join : Join}
    {known : List String}, Chained known (joins ++ join :: later) →
    join.source ∈ known ∨ join.source ∈ joins.map (·.row.name)
  | [], _, _, _, h => .inl h.1
  | first :: joins, later, join, known, h => by
    rcases h.2.source_mem_of_append with hsource | hsource
    · rcases List.mem_cons.1 hsource with hfirst | hknown
      · exact .inr (hfirst ▸ List.mem_cons_self ..)
      · exact .inl hknown
    · exact .inr (List.mem_cons_of_mem _ hsource)

/-- Each name of a joined row comes from a join that starts at a known row, or at one that is named
earlier. -/
theorem Chained.source_before {joins : List Join} {known before after : List String}
    {name : String} (h : Chained known joins) (hnames : joinNames joins = before ++ name :: after) :
    ∃ join ∈ joins, join.row.name = name ∧ (join.source ∈ known ∨ join.source ∈ before) := by
  obtain ⟨earlier, later, hsplit, hearlier⟩ := exists_of_eraseDups_eq hnames
  obtain ⟨joins₁, rest, rfl, hjoins₁, hrest⟩ := List.map_eq_append_iff.1 hsplit
  obtain ⟨join, joins₂, rfl, hname, -⟩ := List.map_eq_cons_iff.1 hrest
  refine ⟨join, List.mem_append_right _ (List.mem_cons_self ..), hname, ?_⟩
  refine h.source_mem_of_append.imp_right fun hsource => hearlier _ ?_
  rw [← hjoins₁]
  exact hsource

/-- The joins of a chain lead to names that are longer than any known one. -/
theorem Chained.length_lt {length : Nat} : ∀ {joins : List Join} {known : List String},
    Chained known joins → (∀ name ∈ known, length ≤ name.length) →
    (∀ join ∈ joins, join.source.length < join.row.name.length) →
    ∀ join ∈ joins, length < join.row.name.length
  | first :: joins, known, h, hknown, hlonger, join, hjoin => by
    have hfirst : length < first.row.name.length :=
      Nat.lt_of_le_of_lt (hknown _ h.1) (hlonger first (List.mem_cons_self ..))
    rcases List.mem_cons.1 hjoin with rfl | hjoin
    · exact hfirst
    · refine h.2.length_lt (fun name hname => ?_)
        (fun other hother => hlonger other (List.mem_cons_of_mem _ hother)) join hjoin
      rcases List.mem_cons.1 hname with rfl | hname
      · exact Nat.le_of_lt hfirst
      · exact hknown name hname

theorem Row.length_join (row : Row) (reference : Reference) :
    (row.join reference).source.length < (row.join reference).row.name.length := by
  simp only [Row.join, Row.along, String.length_append]
  have hdot : ".".length = 1 := rfl
  omega

theorem Join.exact_of_mem_conditions {join : Join} {p : Predicate} (h : p ∈ join.conditions) :
    p.Exact := by
  rcases Join.mem_conditions.1 h with rfl | rfl
  · exact Predicate.exact_refersTo _ _ _
  · exact Predicate.exact_hasType _ _

theorem Join.operandsUnder_of_mem_conditions {join : Join} {p : Predicate}
    (h : p ∈ join.conditions) (op : Connective) : p.operandsUnder op = [p] := by
  rcases Join.mem_conditions.1 h with rfl | rfl <;> rfl

end SoupQuery

namespace SoupQuery.Compile

open SoupQuery.GraphQL

variable {schema : Schema} {context : Context} {document : Document} {row : Row}

/-! ## References that are followed -/

/-- The filter of an entry on the record of the row follows the reference of the record of
`parent`. Connectives and negations stay on the record, references lead to another one. -/
inductive EntrySpans (schema : Schema) : Row → String → Value → Row → Reference → Prop
  | here {row key inside reference} : FilterKey.ofName key = .member →
      schema.member? row.type key = some (.record reference) →
      EntrySpans schema row key (.object inside) row reference
  | along {row key inside entry reference parent next} : FilterKey.ofName key = .member →
      schema.member? row.type key = some (.record reference) → entry ∈ inside →
      EntrySpans schema (row.join reference).row entry.1 entry.2 parent next →
      EntrySpans schema row key (.object inside) parent next
  | connective {row key op items inside entry parent reference} :
      FilterKey.ofName key = .connective op → .object inside ∈ items → entry ∈ inside →
      EntrySpans schema row entry.1 entry.2 parent reference →
      EntrySpans schema row key (.list items) parent reference
  | negation {row key inside entry parent reference} : FilterKey.ofName key = .negation →
      entry ∈ inside → EntrySpans schema row entry.1 entry.2 parent reference →
      EntrySpans schema row key (.object inside) parent reference

/-- The filter of an object follows the reference. -/
def FilterSpans (schema : Schema) (row : Row) (entries : List (String × Value)) (parent : Row)
    (reference : Reference) : Prop :=
  ∃ entry ∈ entries, EntrySpans schema row entry.1 entry.2 parent reference

/-- The entry of an order of the records of the row, which names one member, follows the reference
of the record of `parent`. -/
inductive OrderSpans (schema : Schema) : Row → List (String × Value) → Row → Reference → Prop
  | here {row name inside reference} :
      schema.member? row.type name = some (.record reference) →
      OrderSpans schema row [(name, .object inside)] row reference
  | along {row name inside reference parent next} :
      schema.member? row.type name = some (.record reference) →
      OrderSpans schema (row.join reference).row inside parent next →
      OrderSpans schema row [(name, .object inside)] parent next

/-- The selections on the record of the row follow the reference of the record of `parent`. What
is selected under a child connection does not count. -/
def SelectionSpans (schema : Schema) (row : Row) (below : List Selection) (parent : Row)
    (reference : Reference) : Prop :=
  ∃ head inside, Reaches schema row below parent (.field head inside) ∧
    head.name ≠ typeNameField ∧
    schema.member? parent.type head.name = some (.record reference)

/-- The objects of the `orderBy` argument: one, or the items of a list. -/
def orderObjects : Option Value → List (List (String × Value))
  | some (.object entries) => [entries]
  | some (.list items) => items.filterMap fun item =>
    match item with
    | .object entries => some entries
    | _ => none
  | _ => []

/-- The connection, which reads its records through the row, follows the reference of the record of
`parent`: in its filter, in its order, or in the selections of its node. -/
inductive Spans (schema : Schema) (row : Row) (field : Field) (below : List Selection)
    (parent : Row) (reference : Reference) : Prop
  | filter {entries} : field.argument? "where" = some (.object entries) →
      FilterSpans schema row entries parent reference →
      Spans schema row field below parent reference
  | order {entries} : entries ∈ orderObjects (field.argument? "orderBy") →
      OrderSpans schema row entries parent reference →
      Spans schema row field below parent reference
  | selection {node} : nodeOf? below = some node →
      SelectionSpans schema row node parent reference →
      Spans schema row field below parent reference

/-- The joins are those along the references. -/
def JoinsAlong (joins : List Join) (spans : Row → Reference → Prop) : Prop :=
  ∀ join, join ∈ joins ↔ ∃ parent reference, spans parent reference ∧ join = parent.join reference

theorem JoinsAlong.congr {joins : List Join} {spans spans' : Row → Reference → Prop}
    (h : JoinsAlong joins spans) (hspans : ∀ parent reference,
      spans' parent reference ↔ spans parent reference) : JoinsAlong joins spans' := by
  intro join
  simp only [hspans]
  exact h join

theorem joinsAlong_nil {spans : Row → Reference → Prop}
    (h : ∀ parent reference, ¬ spans parent reference) : JoinsAlong [] spans := by
  intro join
  constructor
  · intro hjoin
    cases hjoin
  · rintro ⟨parent, reference, hspans, -⟩
    exact absurd hspans (h parent reference)

/-- A reference that leads to a record, and the references that are followed from there. -/
theorem JoinsAlong.join {joins : List Join} {spans : Row → Reference → Prop}
    (h : JoinsAlong joins spans) (reference : Reference) :
    JoinsAlong (row.join reference :: joins) fun parent next =>
      parent = row ∧ next = reference ∨ spans parent next := by
  intro join
  rw [List.mem_cons, h join]
  constructor
  · rintro (rfl | ⟨parent, next, hspans, rfl⟩)
    · exact ⟨row, reference, .inl ⟨rfl, rfl⟩, rfl⟩
    · exact ⟨parent, next, .inr hspans, rfl⟩
  · rintro ⟨parent, next, ⟨rfl, rfl⟩ | hspans, rfl⟩
    · exact .inl rfl
    · exact .inr ⟨parent, next, hspans, rfl⟩

theorem JoinsAlong.append {joins joins' : List Join} {spans spans' : Row → Reference → Prop}
    (h : JoinsAlong joins spans) (h' : JoinsAlong joins' spans') :
    JoinsAlong (joins ++ joins') fun parent reference =>
      spans parent reference ∨ spans' parent reference := by
  intro join
  rw [List.mem_append, h join, h' join]
  constructor
  · rintro (⟨parent, reference, hspans, rfl⟩ | ⟨parent, reference, hspans, rfl⟩)
    · exact ⟨parent, reference, .inl hspans, rfl⟩
    · exact ⟨parent, reference, .inr hspans, rfl⟩
  · rintro ⟨parent, reference, hspans | hspans, rfl⟩
    · exact .inl ⟨parent, reference, hspans, rfl⟩
    · exact .inr ⟨parent, reference, hspans, rfl⟩

/-- Things that each follow references, one after the other. -/
theorem JoinsAlong.flatMap {α β : Type} {spans : α → Row → Reference → Prop}
    {joins : β → List Join} {items : List α} {results : List β}
    (h : List.Forall₂ (fun item result => JoinsAlong (joins result) (spans item)) items results) :
    JoinsAlong (results.flatMap joins) fun parent reference =>
      ∃ item ∈ items, spans item parent reference := by
  induction h with
  | nil => exact joinsAlong_nil fun _ _ => by rintro ⟨_, hmem, _⟩; cases hmem
  | cons hfirst _ ih =>
    rw [List.flatMap_cons]
    refine (hfirst.append ih).congr fun parent reference => ?_
    simp only [List.mem_cons, exists_eq_or_imp]

/-! ## Filters -/

theorem entrySpans_connective {key : String} {op : Connective}
    {objects : List (List (String × Value))} {parent : Row} {reference : Reference}
    (hkey : FilterKey.ofName key = .connective op) :
    EntrySpans schema row key (.list (objects.map .object)) parent reference ↔
      ∃ entries ∈ objects, FilterSpans schema row entries parent reference := by
  constructor
  · intro h
    cases h with
    | connective _ hitem hentry hspans =>
      obtain ⟨entries, hentries, heq⟩ := List.mem_map.1 hitem
      cases heq
      exact ⟨_, hentries, _, hentry, hspans⟩
  · rintro ⟨entries, hentries, entry, hentry, hspans⟩
    exact .connective hkey (List.mem_map_of_mem hentries) hentry hspans

theorem entrySpans_negation {key : String} {inside : List (String × Value)} {parent : Row}
    {reference : Reference} (hkey : FilterKey.ofName key = .negation) :
    EntrySpans schema row key (.object inside) parent reference ↔
      FilterSpans schema row inside parent reference := by
  constructor
  · intro h
    cases h with
    | negation _ hentry hspans => exact ⟨_, hentry, hspans⟩
    | here hmember _ => cases hkey.symm.trans hmember
    | along hmember _ _ _ => cases hkey.symm.trans hmember
  · rintro ⟨entry, hentry, hspans⟩
    exact .negation hkey hentry hspans

/-- An entry of a member follows references exactly if the member leads to a record. -/
theorem entrySpans_member {key : String} {inside : List (String × Value)} {parent : Row}
    {next : Reference} (hkey : FilterKey.ofName key = .member) :
    EntrySpans schema row key (.object inside) parent next ↔
      ∃ reference, schema.member? row.type key = some (.record reference) ∧
        (parent = row ∧ next = reference ∨
          FilterSpans schema (row.join reference).row inside parent next) := by
  constructor
  · intro h
    cases h with
    | here _ hmember => exact ⟨_, hmember, .inl ⟨rfl, rfl⟩⟩
    | along _ hmember hentry hspans => exact ⟨_, hmember, .inr ⟨_, hentry, hspans⟩⟩
    | negation hnegation _ _ => cases hkey.symm.trans hnegation
  · rintro ⟨reference, hmember, ⟨rfl, rfl⟩ | ⟨entry, hentry, hspans⟩⟩
    · exact .here hkey hmember
    · exact .along hkey hmember hentry hspans

theorem RowFilter.joins_negate (filter : RowFilter) : filter.negate.joins = filter.joins := by
  unfold RowFilter.negate
  split <;> rfl

/-- Every form of a filter has the joins along the references that it follows. -/
theorem filterInvariant_joinsAlong (schema : Schema) :
    FilterInvariant schema
      (fun row entries filter => JoinsAlong filter.joins (FilterSpans schema row entries))
      (fun row key value filter => JoinsAlong filter.joins (EntrySpans schema row key value)) where
  object h := JoinsAlong.flatMap h
  connective hkey h := (JoinsAlong.flatMap h).congr fun _ _ => entrySpans_connective hkey
  negation hkey h := by
    rw [RowFilter.joins_negate]
    exact h.congr fun _ _ => entrySpans_negation hkey
  field hkey hmember _ := joinsAlong_nil fun _ _ hspans => by
    obtain ⟨_, hrecord, -⟩ := (entrySpans_member hkey).1 hspans
    cases hmember.symm.trans hrecord
  record hkey hmember _ h := (h.join _).congr fun parent next => by
    rw [entrySpans_member hkey, hmember]
    simp only [Option.some.injEq, Member.record.injEq, exists_eq_left']

theorem whereArgument_joinsAlong {value? : Option Value} {filter? : Option RowFilter}
    (h : whereArgument schema row value? = .ok filter?) :
    JoinsAlong ((filter?.map (·.joins)).getD []) fun parent reference =>
      ∃ entries, value? = some (.object entries) ∧
        FilterSpans schema row entries parent reference := by
  unfold whereArgument at h
  split at h
  · cases h
    exact joinsAlong_nil fun _ _ => by rintro ⟨_, hvalue, _⟩; cases hvalue
  · obtain ⟨filter, hfilter, rfl⟩ := Checked.map_eq_ok.1 h
    refine ((filterInvariant_joinsAlong schema).filterObject hfilter).congr fun _ _ => ?_
    simp only [Option.some.injEq, Value.object.injEq, exists_eq_left']
  · cases h

/-! ## Orders -/

theorem Orders.joinsAlong {entries : List (String × Value)} {order : RowOrder}
    (h : Orders schema row entries order) :
    JoinsAlong order.joins (OrderSpans schema row entries) := by
  induction h with
  | value hvalue _ =>
    refine joinsAlong_nil fun _ _ hspans => ?_
    cases hspans with
    | here hmember => cases hvalue.symm.trans hmember
    | along hmember _ => cases hvalue.symm.trans hmember
  | @record row name reference entries order hrecord _ _ ih =>
    refine (ih.join reference).congr fun parent next => ?_
    constructor
    · intro hspans
      cases hspans with
      | here hmember =>
        cases hrecord.symm.trans hmember
        exact .inl ⟨rfl, rfl⟩
      | along hmember hinside =>
        cases hrecord.symm.trans hmember
        exact .inr hinside
    · rintro (⟨rfl, rfl⟩ | hinside)
      · exact .here hrecord
      · exact .along hrecord hinside

/-- The orders of a list are those of its items, which are objects. -/
theorem orders_of_items : ∀ {items : List Value} {orders : List RowOrder},
    items.map (orderItem schema row) = orders.map .ok →
      List.Forall₂ (Orders schema row) (orderObjects (some (.list items))) orders
  | [], [], _ => .nil
  | [], _ :: _, h => by cases h
  | _ :: _, [], h => by cases h
  | item :: items, order :: orders, h => by
    obtain ⟨hitem, hrest⟩ := List.cons.inj h
    cases item with
    | object entries => exact .cons (orderEntry_ok _ _ _ hitem) (orders_of_items hrest)
    | _ => cases hitem

/-- The orders of the argument are those of its objects, one each. -/
theorem orderByArgument_forall₂ {value? : Option Value} {orders : List RowOrder}
    (h : orderByArgument schema row value? = .ok orders) :
    List.Forall₂ (Orders schema row) (orderObjects value?) orders := by
  unfold orderByArgument at h
  split at h
  · cases h
    exact .nil
  · obtain ⟨order, horder, rfl⟩ := Checked.map_eq_ok.1 h
    exact .cons (orderEntry_ok _ _ _ horder) .nil
  · exact orders_of_items ((Checked.partition_map_eq_ok (orderItem_reports schema row)).1 h)
  · cases h

/-! ## Selections -/

theorem selectionSpans_nil {parent : Row} {reference : Reference} :
    ¬ SelectionSpans schema row [] parent reference := by
  rintro ⟨head, inside, hreach, -⟩
  cases hreach with
  | here hmem => cases hmem
  | along hmem _ _ _ => cases hmem

/-- What a field and the selections after it follow. -/
theorem selectionSpans_cons {head : Field} {inside rest : List Selection} {parent : Row}
    {next : Reference} : SelectionSpans schema row (.field head inside :: rest) parent next ↔
      (head.name ≠ typeNameField ∧ ∃ reference,
        schema.member? row.type head.name = some (.record reference) ∧
          (parent = row ∧ next = reference ∨
            SelectionSpans schema (row.join reference).row inside parent next)) ∨
      SelectionSpans schema row rest parent next := by
  constructor
  · rintro ⟨head', inside', hreach, hname, hmember⟩
    cases hreach with
    | here hmem =>
      rcases List.mem_cons.1 hmem with heq | hmem
      · cases heq
        exact .inl ⟨hname, _, hmember, .inl ⟨rfl, rfl⟩⟩
      · exact .inr ⟨head', inside', .here hmem, hname, hmember⟩
    | along hmem houter hrecord hinner =>
      rcases List.mem_cons.1 hmem with heq | hmem
      · cases heq
        exact .inl ⟨houter, _, hrecord, .inr ⟨head', inside', hinner, hname, hmember⟩⟩
      · exact .inr ⟨head', inside', .along hmem houter hrecord hinner, hname, hmember⟩
  · rintro (⟨hname, reference, hrecord, ⟨rfl, rfl⟩ | ⟨head', inside', hreach, hspans⟩⟩ |
      ⟨head', inside', hreach, hspans⟩)
    · exact ⟨head, inside, .here (List.mem_cons_self ..), hname, hrecord⟩
    · exact ⟨head', inside', .along (List.mem_cons_self ..) hname hrecord hreach, hspans⟩
    · exact ⟨head', inside', hreach.cons, hspans⟩

theorem Selects.joinsAlong {path : String} {below : List Selection} {selected : Selected}
    (h : Selects context row path below selected) :
    JoinsAlong selected.joins (SelectionSpans context.schema row below) := by
  induction h with
  | nil => exact joinsAlong_nil fun _ _ => selectionSpans_nil
  | typeName hname _ ih =>
    refine ih.congr fun _ _ => ?_
    simp [selectionSpans_cons, hname]
  | value _ hvalue _ _ ih =>
    refine ih.congr fun _ _ => ?_
    simp [selectionSpans_cons, hvalue]
  | record hname hrecord _ _ _ ihinner ih =>
    refine ((ihinner.join _).append ih).congr fun _ _ => ?_
    simp [selectionSpans_cons, hname, hrecord]
  | child _ hnone _ _ _ ih =>
    refine ih.congr fun _ _ => ?_
    simp [selectionSpans_cons, hnone]

/-! ## Connections -/

/-- **The joins of a connection are those along the references that it follows.** -/
theorem Parts.Of.joinsAlong {field : Field} {below : List Selection} {parts : Parts}
    (h : parts.Of context row field below) :
    JoinsAlong parts.joins (Spans context.schema row field below) := by
  obtain ⟨node, hnode, hselects⟩ := h.selected
  have horders := JoinsAlong.flatMap ((orderByArgument_forall₂ h.orders).imp fun _ _ horder =>
    horder.joinsAlong)
  refine (((whereArgument_joinsAlong h.filter).append horders).append hselects.joinsAlong).congr
    fun parent reference => ?_
  constructor
  · intro hspans
    cases hspans with
    | filter hvalue hspans => exact .inl (.inl ⟨_, hvalue, hspans⟩)
    | order hentries hspans => exact .inl (.inr ⟨_, hentries, hspans⟩)
    | selection hnode' hspans =>
      cases hnode.symm.trans hnode'
      exact .inr hspans
  · rintro ((⟨entries, hvalue, hspans⟩ | ⟨entries, hentries, hspans⟩) | hspans)
    · exact .filter hvalue hspans
    · exact .order hentries hspans
    · exact .selection hnode hspans

theorem mem_joinConditions {joins : List Join} {join : Join} {condition : Predicate}
    (hjoin : join ∈ joins) (hcondition : condition ∈ join.conditions) :
    condition ∈ joinConditions joins := by
  obtain ⟨kept, hkept, rfl | hsame⟩ :=
    exists_mem_eraseDups (List.mem_flatMap.2 ⟨join, hjoin, hcondition⟩)
  · exact hkept
  · rw [← Predicate.eq_of_same (Join.exact_of_mem_conditions hcondition) hsame]
    exact hkept

/-- The conditions of each join are among those of the connection. -/
theorem Parts.mem_conditions {parts : Parts} {join : Join} {condition : Predicate}
    (hjoin : join ∈ parts.joins) (hcondition : condition ∈ join.conditions) :
    condition ∈ parts.conditions := by
  simp only [Parts.joins, List.mem_append] at hjoin
  simp only [Parts.conditions, List.mem_append]
  rcases hjoin with (hjoin | hjoin) | hjoin
  · refine .inl (.inl (.inl ?_))
    cases hfilter : parts.filter? with
    | none =>
      rw [hfilter] at hjoin
      cases hjoin
    | some filter =>
      rw [hfilter] at hjoin
      exact List.mem_append_left _ (mem_joinConditions hjoin hcondition)
  · obtain ⟨order, horder, hjoin⟩ := List.mem_flatMap.1 hjoin
    exact .inl (.inr (List.mem_flatMap.2
      ⟨order, horder, mem_joinConditions hjoin hcondition⟩))
  · exact .inr (mem_joinConditions hjoin hcondition)

/-- A predicate with two different conditions at its top is a conjunction with both as operands. -/
theorem exists_operands_of_hasConjunct {p : Predicate} {source target foreignKey type : String}
    (hreference : p.HasConjunct (.refersTo source target foreignKey))
    (htype : p.HasConjunct (.hasType target type)) :
    ∃ operands, p = .compound .and operands ∧ .refersTo source target foreignKey ∈ operands ∧
      .hasType target type ∈ operands := by
  rcases hreference with rfl | ⟨operands, rfl, hreference⟩
  · rcases htype with heq | ⟨operands, heq, -⟩
    · simp [Predicate.refersTo, Predicate.hasType] at heq
    · cases heq
  · rcases htype with heq | ⟨operands', heq, htype⟩
    · cases heq
    · cases heq
      exact ⟨operands, rfl, hreference, htype⟩

/-! ## Closed queries -/

/-- What is promised of the joined rows of a query that follows the references. -/
structure JoinClosed (schema : Schema) (spans : Row → Reference → Prop) (query : RecordQuery) :
    Prop where
  /-- Each joined row is named once. -/
  nodup : query.joinNames.Nodup
  /-- No joined row has the name of the row of the query. -/
  row_notMem : query.row.name ∉ query.joinNames
  /-- The joined rows are those that the references lead to. -/
  mem_iff : ∀ name, name ∈ query.joinNames ↔ ∃ parent reference, spans parent reference ∧
    name = parent.name ++ "." ++ reference.relationshipName
  /-- Each joined row is reached from the row of the query or from an earlier joined row. -/
  earlier : ∀ before name after, query.joinNames = before ++ name :: after →
    ∃ parent reference, spans parent reference ∧
      name = parent.name ++ "." ++ reference.relationshipName ∧
      (parent.name = query.row.name ∨ parent.name ∈ before)
  /-- A reference is the one that its relationship means on the record that holds it. -/
  resolves : ∀ parent reference, spans parent reference →
    schema.member? parent.type reference.relationshipName = some (.record reference)
  /-- Each joined row is bound at the top of the condition, by its reference and by its type. -/
  bound : ∀ parent reference, spans parent reference →
    ∃ operands, query.predicate? = some (.compound .and operands) ∧
      .refersTo parent.name (parent.name ++ "." ++ reference.relationshipName) reference.apiName ∈
        operands ∧
      .hasType (parent.name ++ "." ++ reference.relationshipName) reference.target ∈ operands

theorem relationshipName_of_member? {type name : String} {reference : Reference}
    (h : schema.member? type name = some (.record reference)) :
    reference.relationshipName = name := by
  obtain ⟨field, -, hfield⟩ := Option.map_eq_some_iff.1 h
  cases hspanning : field.spanning? name with
  | none =>
    rw [hspanning] at hfield
    cases hfield
  | some reference' =>
    rw [hspanning] at hfield
    cases hfield
    unfold FieldInfo.spanning? at hspanning
    split at hspanning
    · cases hspanning
    · split at hspanning
      · rename_i hname
        cases hspanning
        exact hname
      · cases hspanning

theorem EntrySpans.resolves {key : String} {value : Value} {parent : Row} {reference : Reference}
    (h : EntrySpans schema row key value parent reference) :
    schema.member? parent.type reference.relationshipName = some (.record reference) := by
  induction h with
  | here _ hmember => rw [relationshipName_of_member? hmember, hmember]
  | along _ _ _ _ ih => exact ih
  | connective _ _ _ _ ih => exact ih
  | negation _ _ _ ih => exact ih

theorem OrderSpans.resolves {entries : List (String × Value)} {parent : Row}
    {reference : Reference} (h : OrderSpans schema row entries parent reference) :
    schema.member? parent.type reference.relationshipName = some (.record reference) := by
  induction h with
  | here hmember => rw [relationshipName_of_member? hmember, hmember]
  | along _ _ ih => exact ih

theorem Spans.resolves {field : Field} {below : List Selection} {parent : Row}
    {reference : Reference} (h : Spans schema row field below parent reference) :
    schema.member? parent.type reference.relationshipName = some (.record reference) := by
  cases h with
  | filter _ hspans =>
    obtain ⟨entry, -, hentry⟩ := hspans
    exact hentry.resolves
  | order _ hspans => exact hspans.resolves
  | selection _ hspans =>
    obtain ⟨head, inside, -, -, hmember⟩ := hspans
    rw [relationshipName_of_member? hmember, hmember]

/-- **A connection that compiles is closed.** -/
theorem recordQuery_joinClosed {anchors : List Predicate} {field : Field}
    {below : List Selection} {query : RecordQuery}
    (h : recordQuery context row anchors field below = .ok query) :
    JoinClosed context.schema (Spans context.schema row field below) query := by
  obtain ⟨parts, hparts, rfl⟩ := recordQuery_ok h
  have hjoins := hparts.joinsAlong
  have hmem : ∀ {parent reference}, Spans context.schema row field below parent reference →
      parent.join reference ∈ parts.joins :=
    fun hspans => (hjoins _).2 ⟨_, _, hspans, rfl⟩
  refine ⟨nodup_eraseDups _, fun hrow => ?_, fun name => ?_, fun before name after hnames => ?_,
    fun _ _ => Spans.resolves, fun parent reference hspans => ?_⟩
  · -- every reference makes a name longer
    obtain ⟨join, hjoin, hname⟩ := List.mem_map.1 (List.mem_eraseDups.1 hrow)
    have hlonger : row.name.length < join.row.name.length := by
      refine hparts.chained.length_lt (by simp) (fun other hother => ?_) join hjoin
      obtain ⟨parent, reference, -, rfl⟩ := (hjoins other).1 hother
      exact parent.length_join reference
    rw [hname] at hlonger
    exact absurd hlonger (Nat.lt_irrefl _)
  · constructor
    · intro hname
      obtain ⟨join, hjoin, rfl⟩ := List.mem_map.1 (List.mem_eraseDups.1 hname)
      obtain ⟨parent, reference, hspans, rfl⟩ := (hjoins join).1 hjoin
      exact ⟨parent, reference, hspans, rfl⟩
    · rintro ⟨parent, reference, hspans, rfl⟩
      exact List.mem_eraseDups.2 (List.mem_map.2 ⟨_, hmem hspans, rfl⟩)
  · obtain ⟨join, hjoin, hname, hsource⟩ := hparts.chained.source_before hnames
    obtain ⟨parent, reference, hspans, rfl⟩ := (hjoins join).1 hjoin
    exact ⟨parent, reference, hspans, hname.symm, hsource.imp_left List.mem_singleton.1⟩
  · -- conditions without doubles survive when repetitions are dropped
    have hconjunct : ∀ condition ∈ (parent.join reference).conditions,
        (Predicate.combine .and (anchors ++ parts.conditions)).HasConjunct condition :=
      fun condition hcondition => by
        have hin := Parts.mem_conditions (hmem hspans) hcondition
        exact Predicate.hasConjunct_combine (List.mem_append_right _ hin)
          (Join.exact_of_mem_conditions hcondition)
          (Join.operandsUnder_of_mem_conditions hcondition .and)
    obtain ⟨operands, hcombine, hreference, htype⟩ := exists_operands_of_hasConjunct
      (hconjunct _ (Join.mem_conditions.2 (.inl rfl)))
      (hconjunct _ (Join.mem_conditions.2 (.inr rfl)))
    refine ⟨operands, ?_, hreference, htype⟩
    simp only [Parts.toQuery, hcombine]
    cases operands with
    | nil => cases hreference
    | cons first rest => rfl

/-- **Every query of a result is closed, at any depth**: it belongs to a connection of the document,
and its joined rows are those of the references that the connection follows. Every connection has
such a query. -/
theorem transform_joinClosed {queries : List RecordQuery}
    (h : transform context document = .ok queries) :
    (∀ enclosing query, Occurs queries enclosing query →
      ∃ origin head below, Connection context.schema document origin head below ∧
        recordQuery context (origin.row head) (origin.anchors head) head below = .ok query ∧
        query.row = origin.row head ∧
        JoinClosed context.schema (Spans context.schema (origin.row head) head below) query) ∧
    (∀ origin head below, Connection context.schema document origin head below →
      ∃ enclosing query, Occurs queries enclosing query ∧
        recordQuery context (origin.row head) (origin.anchors head) head below = .ok query ∧
        query.row = origin.row head ∧
        JoinClosed context.schema (Spans context.schema (origin.row head) head below) query) := by
  constructor
  · intro enclosing query hquery
    obtain ⟨origin, head, below, hconnection, hok, -⟩ := connection_of_occurs h hquery
    exact ⟨origin, head, below, hconnection, hok, (recordQuery_anchored hok).1,
      recordQuery_joinClosed hok⟩
  · intro origin head below hconnection
    obtain ⟨enclosing, query, hquery, hok⟩ := occurs_of_connection h hconnection
    exact ⟨enclosing, query, hquery, hok, (recordQuery_anchored hok).1,
      recordQuery_joinClosed hok⟩

/-- The appointments follow their owner in the filter, in the order and in the selections; one row
is joined, and it is bound. -/
theorem jobs_joinClosed : transform jobsContext jobsDocument = .ok [jobsQuery] ∧
    ∃ below, Connection jobsContext.schema jobsDocument .document jobsField below ∧
      Spans jobsContext.schema ⟨"jobs", "ServiceAppointment"⟩ jobsField below
        ⟨"jobs", "ServiceAppointment"⟩ ⟨"OwnerId", "Owner", "User"⟩ ∧
      JoinClosed jobsContext.schema
        (Spans jobsContext.schema ⟨"jobs", "ServiceAppointment"⟩ jobsField below) jobsQuery := by
  obtain ⟨_, query, _, hok, _, hclosed⟩ :=
    (transform_joinClosed transform_jobs).2 _ _ _ connection_jobs
  obtain rfl : jobsQuery = query := Except.ok.inj hok
  exact ⟨transform_jobs, _, connection_jobs, .order (List.mem_singleton.2 rfl) (.here rfl), hclosed⟩

end SoupQuery.Compile
